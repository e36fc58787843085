-- SUMMARY: What a frame asks of the router, and handle_packet as the reading of a request followed by its execution.
import GraphIPC.Router.HandlePacket
import GraphIPC.Wire.Frame

/-!
# Requests

`handle_packet` reads a request off the frame and then acts on the address
table. The two halves are separated here: what is read does not depend on the
table, and what is done does not depend on how the request was written down.
-/

/-- What a frame asks of the router. -/
inductive Request where
  | newAddress (address : UInt32)
  | connect (source target : UInt32)
  | setPolicy (policy : UInt8) (target : UInt32)
  | data (source : UInt32)
  /-- A frame without a handler. -/
  | unhandled
  deriving DecidableEq, Repr

/-- The request that `handle_packet` reads off a frame. -/
def Request.parse (order : ByteOrder) (buffer : List UInt8) (rand : Nat → RandResult) :
    Except Fault Request := do
  assertThat true (0 < buffer.length) "Attempted to parse an empty (zero-length) buffer!"
  let (header, payload) ← gnwParseHeader true order buffer
  if header.type = GNW_COMMAND then
    if header.length = 0 then
      return .unhandled
    let (directive, next) ← readOr (packetReadU8 payload)
    if directive = GNW_CMD_NEW_ADDRESS then
      if header.length = 5 then
        let (addressReq, _) ← readOr (packetReadU32 order next)
        return .newAddress addressReq
      return .newAddress (0xFFFFF000 &&& UInt32.ofNat (rand 0))
    else if directive = GNW_CMD_CONNECT then
      let (source, next) ← readOr (packetReadU32 order next)
      let (target, _) ← readOr (packetReadU32 order next)
      return .connect source target
    else if directive = GNW_CMD_DISCONNECT then
      return .unhandled
    else if directive = GNW_CMD_POLICY then
      let (policy, next) ← readOr (packetReadU8 next)
      let (target, _) ← readOr (packetReadU32 order next)
      return .setPolicy policy target
    else
      return .unhandled
  else if header.type = GNW_DATA then
    return .data header.source
  else
    return .unhandled

variable {T Iter : Type} [DecidableEq Iter] [KhTable T Iter UInt32 Context]

/-- What the router does on a request that came in a frame on `fd`. -/
def Request.perform (order : ByteOrder) (fd : Int) (buffer : List UInt8) (rand : Nat → RandResult)
    (addressTable : T) : Request → Except Fault (T × List Write)
  | .newAddress address => cmdNewAddress order fd address addressTable
  | .connect source target => cmdConnect source target addressTable
  | .setPolicy policy target => cmdPolicy policy target addressTable
  | .data source => forwardData buffer source rand addressTable
  | .unhandled => .ok (addressTable, [])

/-- `handle_packet` reads the request and performs it. -/
theorem handlePacket_eq (order : ByteOrder) (fd : Int) (buffer : List UInt8)
    (rand : Nat → RandResult) (addressTable : T) :
    handlePacket order fd buffer rand addressTable =
      Request.parse order buffer rand >>= Request.perform order fd buffer rand addressTable := by
  unfold handlePacket Request.parse
  simp only [bind_assoc]
  congr 1
  funext _
  congr 1
  funext ⟨header, payload⟩
  split
  · split
    · rfl
    · simp only [bind_assoc]
      congr 1
      funext ⟨directive, next⟩
      split
      · split
        · simp only [bind_assoc, pure_bind]; rfl
        · rfl
      · split
        · simp only [bind_assoc, pure_bind]; rfl
        · split
          · rfl
          · split
            · simp only [bind_assoc, pure_bind]; rfl
            · rfl
  · split <;> rfl

/-! ## Reading well-formed frames -/

theorem gnwParseHeader_frameBytes (bail : Bool) (order : ByteOrder) (type : UInt8)
    (source : UInt32) (payload : List UInt8) :
    gnwParseHeader bail order (frameBytes order type source payload) =
      .ok ({ magic := GNW_MAGIC, version := GNW_VERSION, type, source,
             length := UInt32.ofNat payload.length }, payload) := by
  have hread := readHeader_frameBytes order type source payload []
  rw [List.append_nil, List.append_nil] at hread
  simp [gnwParseHeader, hread]

theorem gnwParseHeader_nil (bail : Bool) (order : ByteOrder) :
    gnwParseHeader bail order [] = .error .outOfBounds := rfl

/-- A data frame is one whose header says so. -/
theorem Request.parse_data {order : ByteOrder} {buffer : List UInt8} {header : Header}
    {payload : List UInt8} (rand : Nat → RandResult)
    (hparse : gnwParseHeader true order buffer = .ok (header, payload))
    (htype : header.type = GNW_DATA) :
    Request.parse order buffer rand = .ok (.data header.source) := by
  have hpos : 0 < buffer.length := by
    rw [List.length_pos_iff]
    rintro rfl
    rw [gnwParseHeader_nil] at hparse
    cases hparse
  simp [Request.parse, hpos, hparse, htype, types_distinct]

/-- The frames that hold a well-formed request: a claim without or with an
    address, a connection and a policy that is one of the three, each with the
    payload length the clients send, and any data frame. -/
inductive Asks (order : ByteOrder) (buffer : List UInt8) (rand : Nat → RandResult) : Request → Prop where
  | anyAddress (source : UInt32) :
      buffer = frameBytes order GNW_COMMAND source [GNW_CMD_NEW_ADDRESS] →
      Asks order buffer rand (.newAddress (0xFFFFF000 &&& UInt32.ofNat (rand 0)))
  | newAddress (source address : UInt32) :
      buffer = frameBytes order GNW_COMMAND source
        (GNW_CMD_NEW_ADDRESS :: u32Bytes order address) →
      Asks order buffer rand (.newAddress address)
  | connect (s source target : UInt32) :
      buffer = frameBytes order GNW_COMMAND s
        (GNW_CMD_CONNECT :: (u32Bytes order source ++ u32Bytes order target)) →
      Asks order buffer rand (.connect source target)
  | setPolicy (source : UInt32) (policy : UInt8) (target : UInt32) :
      policy < 3 →
      buffer = frameBytes order GNW_COMMAND source
        (GNW_CMD_POLICY :: policy :: u32Bytes order target) →
      Asks order buffer rand (.setPolicy policy target)
  | data (header : Header) (payload : List UInt8) :
      gnwParseHeader true order buffer = .ok (header, payload) → header.type = GNW_DATA →
      Asks order buffer rand (.data header.source)

/-- A well-formed frame is read as the request it holds. -/
theorem Asks.parse {order : ByteOrder} {buffer : List UInt8} {rand : Nat → RandResult} {r : Request}
    (h : Asks order buffer rand r) : Request.parse order buffer rand = .ok r := by
  cases h with
  | anyAddress source hbuffer =>
    subst hbuffer
    simp [Request.parse, gnwParseHeader_frameBytes]
  | newAddress source address hbuffer =>
    subst hbuffer
    have hread := packetReadU32_u32Bytes order address []
    rw [List.append_nil] at hread
    simp [Request.parse, gnwParseHeader_frameBytes, hread]
  | connect s source target hbuffer =>
    subst hbuffer
    have hread := packetReadU32_u32Bytes order target []
    rw [List.append_nil] at hread
    simp [Request.parse, gnwParseHeader_frameBytes, hread, directives_distinct]
  | setPolicy source policy target hpolicy hbuffer =>
    subst hbuffer
    have hread := packetReadU32_u32Bytes order target []
    rw [List.append_nil] at hread
    simp [Request.parse, gnwParseHeader_frameBytes, hread, directives_distinct]
  | data header payload hparse htype => exact Request.parse_data rand hparse htype
