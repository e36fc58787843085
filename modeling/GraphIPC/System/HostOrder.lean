-- SUMMARY: Which fields are written and read alike by hosts of either byte order.
import GraphIPC.System.Commands

/-!
# Hosts of either byte order

A field is converted with `htonl` or `htons` and then taken apart by shifts, most
significant byte first. The shifts alone would write network byte order on any
host; after the conversion they do so on a host that is big endian and write the
bytes the other way round on one that is little endian. Reading undoes both steps,
so hosts of one kind understand each other.
-/

/-! ## Fields -/

/-- The last `width` digits of `n` to the base 256, most significant first: the
    bytes of an integer in network byte order. -/
def networkBytes : (width n : Nat) → List UInt8
  | 0, _ => []
  | width + 1, n => UInt8.ofNat (n / 256 ^ width) :: networkBytes width n

/-- What the `packet_write_*` functions write. -/
inductive WireField where
  | u8 (data : UInt8)
  | u16 (data : UInt16)
  | u32 (data : UInt32)
  deriving DecidableEq, Repr

/-- The bytes of a field on a host. -/
def WireField.bytes (order : ByteOrder) : WireField → List UInt8
  | .u8 data => [data]
  | .u16 data => u16Bytes order data
  | .u32 data => u32Bytes order data

/-- The call that writes a field. -/
def WireField.write (order : ByteOrder) (ptr : Cursor) : WireField → Cursor
  | .u8 data => packetWriteU8 ptr data
  | .u16 data => packetWriteU16 order ptr data
  | .u32 data => packetWriteU32 order ptr data

/-- The bytes of a field in network byte order. -/
def WireField.network : WireField → List UInt8
  | .u8 data => networkBytes 1 data.toNat
  | .u16 data => networkBytes 2 data.toNat
  | .u32 data => networkBytes 4 data.toNat

/-- The bytes of a field are the same in both directions. -/
def WireField.Palindrome : WireField → Prop
  | .u8 _ => True
  | .u16 data => bswap16 data = data
  | .u32 data => bswap32 data = data

/-- Fields that are written one behind the other. -/
def writeFields (order : ByteOrder) (fields : List WireField) : List UInt8 :=
  fields.flatMap (WireField.bytes order)

/-- The same fields in network byte order. -/
def networkFields (fields : List WireField) : List UInt8 := fields.flatMap WireField.network

theorem WireField.write_eq (order : ByteOrder) (ptr : Cursor) (f : WireField) :
    f.write order ptr = ptr.put (f.bytes order) := by
  cases f <;> rfl

/-- Calls at a pointer into a block store their bytes one behind the other. -/
theorem foldl_write (order : ByteOrder) (fields : List WireField) {ptr : Cursor}
    (h : ptr.pos ≤ ptr.block.length) :
    fields.foldl (WireField.write order) ptr = ptr.put (writeFields order fields) := by
  induction fields generalizing ptr with
  | nil => simp [writeFields, Cursor.put]
  | cons f fields ih =>
    have hbehind : (ptr.put (f.bytes order)).pos ≤ (ptr.put (f.bytes order)).block.length := by
      simp only [Cursor.put, Memory.store, List.length_append, List.length_take]
      omega
    rw [List.foldl_cons, f.write_eq, ih hbehind, Cursor.put_put h]
    rfl

/-- What is written is network byte order once the conversion is done. -/
theorem u32Bytes_eq_networkBytes (order : ByteOrder) (data : UInt32) :
    u32Bytes order data = networkBytes 4 (htonl order data).toNat := by
  simp only [u32Bytes, networkBytes, List.cons.injEq, and_true]
  refine ⟨?_, ?_, ?_, ?_⟩ <;> apply UInt8.toNat_inj.1 <;>
    simp [Nat.and_two_pow_sub_one_eq_mod _ 8, Nat.shiftRight_eq_div_pow]

theorem u16Bytes_eq_networkBytes (order : ByteOrder) (data : UInt16) :
    u16Bytes order data = networkBytes 2 (htons order data).toNat := by
  simp only [u16Bytes, networkBytes, List.cons.injEq, and_true]
  refine ⟨?_, ?_⟩ <;> apply UInt8.toNat_inj.1 <;>
    simp [Nat.and_two_pow_sub_one_eq_mod _ 8, Nat.shiftRight_eq_div_pow]

theorem WireField.network_eq (f : WireField) : f.network = f.bytes .big := by
  cases f with
  | u8 data => simp [network, bytes, networkBytes]
  | u16 data => exact (u16Bytes_eq_networkBytes .big data).symm
  | u32 data => exact (u32Bytes_eq_networkBytes .big data).symm

theorem WireField.length_bytes (f : WireField) (order order' : ByteOrder) :
    (f.bytes order).length = (f.bytes order').length := by
  cases f <;> rfl

/-- A field is written in network byte order by every host just if it reads the
    same backwards. -/
theorem WireField.bytes_little_iff (f : WireField) :
    f.bytes .little = f.network ↔ f.Palindrome := by
  rw [f.network_eq]
  cases f with
  | u8 data => exact ⟨fun _ => trivial, fun _ => rfl⟩
  | u16 data => exact @u16Bytes_inj .big _ _
  | u32 data => exact @u32Bytes_inj .big _ _

/-- Fields are written in network byte order by every host just if each of them
    reads the same backwards. -/
theorem writeFields_eq_network_iff (fields : List WireField) :
    (∀ order, writeFields order fields = networkFields fields) ↔
      ∀ f ∈ fields, f.Palindrome := by
  induction fields with
  | nil => simp [writeFields, networkFields]
  | cons f fields ih =>
    rw [List.forall_mem_cons, ← ih, ← f.bytes_little_iff]
    simp only [writeFields, networkFields, List.flatMap_cons]
    constructor
    · intro h
      have hsplit : ∀ order, f.bytes order = f.network ∧
          fields.flatMap (WireField.bytes order) = fields.flatMap WireField.network := by
        intro order
        refine List.append_inj (h order) ?_
        rw [f.network_eq]
        exact f.length_bytes order .big
      exact ⟨(hsplit .little).1, fun order => (hsplit order).2⟩
    · rintro ⟨hlittle, hrest⟩ order
      rw [hrest order]
      cases order with
      | little => rw [hlittle]
      | big => rw [f.network_eq]

/-! ## Reading on another host -/

/-- What is asked of something that is written on one host and read on another. -/
structure Portable {α : Type} (write : ByteOrder → List UInt8) (read : ByteOrder → List UInt8 → α)
    (network : List UInt8) (value : α) : Prop where
  bytes : ∀ order, write order = network
  value : ∀ order order', read order' (write order) = value

/-- What every host writes alike is understood by every host that understands
    itself. -/
theorem portable_iff {α : Type} {write : ByteOrder → List UInt8}
    {read : ByteOrder → List UInt8 → α} {network : List UInt8} {value : α}
    (hself : ∀ order, read order (write order) = value) :
    Portable write read network value ↔ ∀ order, write order = network := by
  refine ⟨Portable.bytes, fun hbytes => ⟨hbytes, fun order order' => ?_⟩⟩
  rw [hbytes order, ← hbytes order', hself]

/-- The multi-byte fields of a header. -/
def headerFields (type : UInt8) (source : UInt32) (length : Nat) : List WireField :=
  [.u8 GNW_MAGIC, .u8 GNW_VERSION, .u8 type, .u32 source, .u32 (UInt32.ofNat length)]

/-- A frame is a header, field by field, and its payload. -/
theorem frameBytes_eq_writeFields (order : ByteOrder) (type : UInt8) (source : UInt32)
    (payload : List UInt8) :
    frameBytes order type source payload =
      writeFields order (headerFields type source payload.length) ++ payload := by
  simp [frameBytes, writeFields, headerFields, WireField.bytes]

/-- The commands that the programs send. -/
inductive Command where
  | anyAddress
  | newAddress (address : UInt32)
  | connect (source target : UInt32)
  | disconnect (source target : UInt32)
  | setPolicy (policy : UInt8) (target : UInt32)

/-- The fields of a command, directive first. -/
def Command.fields : Command → List WireField
  | .anyAddress => [.u8 GNW_CMD_NEW_ADDRESS]
  | .newAddress address => [.u8 GNW_CMD_NEW_ADDRESS, .u32 address]
  | .connect source target => [.u8 GNW_CMD_CONNECT, .u32 source, .u32 target]
  | .disconnect source target => [.u8 GNW_CMD_DISCONNECT, .u32 source, .u32 target]
  | .setPolicy policy target => [.u8 GNW_CMD_POLICY, .u8 policy, .u32 target]

/-- What the router is asked by a command. -/
def Command.request (rand : Nat → RandResult) : Command → Request
  | .anyAddress => .newAddress (0xFFFFF000 &&& UInt32.ofNat (rand 0))
  | .newAddress address => .newAddress address
  | .connect source target => .connect source target
  | .disconnect _ _ => .unhandled
  | .setPolicy policy target => .setPolicy policy target

/-- The router understands the commands that are written on a host like its
    own. -/
theorem Command.ofCommand_fields (order : ByteOrder) (rand : Nat → RandResult)
    (command : Command) :
    Request.ofCommand order rand (writeFields order command.fields) =
      .ok (command.request rand) := by
  have hread := fun data => packetReadU32_u32Bytes order data []
  simp only [List.append_nil] at hread
  cases command with
  | disconnect source target => rfl
  | _ =>
    simp [writeFields, fields, WireField.bytes, Request.ofCommand, request, hread,
      directives_distinct]

/-- A node that has no address takes the one in a reply that was written on a host
    like its own. -/
theorem handleCommandPacket_newAddress {σ : Type} {order : ByteOrder} {header : Header}
    (hlength : header.length = 5) (address : UInt32) {n : NodeState σ} (hn : n.argAddress = 0) :
    handleCommandPacket order header (writeFields order (Command.newAddress address).fields) n =
      .ok { n with argAddress := address } := by
  have hread := packetReadU32_u32Bytes order address []
  rw [List.append_nil] at hread
  have hpos : ¬header.length < 1 := by
    rw [hlength]
    decide
  simp [writeFields, Command.fields, WireField.bytes, handleCommandPacket, hread, hn, hpos]

/-! ## The wire format -/

/-- Every host writes the same bytes, in network byte order, and hosts of either
    byte order read what others wrote, just if every multi-byte field reads the same
    backwards. This holds of half words and words, of whole frames, of the commands
    the router reads and of the replies a node reads. -/
theorem host_order_iff (fields : List WireField) (half : UInt16) (word : UInt32) (type : UInt8)
    (source : UInt32) (payload : List UInt8) (rand : Nat → RandResult) (command : Command)
    {σ : Type} {header : Header} (hlength : header.length = 5) (address : UInt32)
    {n : NodeState σ} (hn : n.argAddress = 0) :
    ((∀ order, writeFields order fields = networkFields fields) ↔ ∀ f ∈ fields, f.Palindrome) ∧
    (Portable (fun order => u16Bytes order half) packetReadU16 (networkBytes 2 half.toNat)
        (some (half, [])) ↔ bswap16 half = half) ∧
    (Portable (fun order => u32Bytes order word) packetReadU32 (networkBytes 4 word.toNat)
        (some (word, [])) ↔ bswap32 word = word) ∧
    (Portable (fun order => frameBytes order type source payload) (gnwParseHeader true)
        (networkFields (headerFields type source payload.length) ++ payload)
        (.ok ({ magic := GNW_MAGIC, version := GNW_VERSION, type, source,
                length := UInt32.ofNat payload.length }, payload)) ↔
      ∀ f ∈ headerFields type source payload.length, f.Palindrome) ∧
    (Portable (fun order => writeFields order command.fields)
        (fun order => Request.ofCommand order rand) (networkFields command.fields)
        (.ok (command.request rand)) ↔ ∀ f ∈ command.fields, f.Palindrome) ∧
    (Portable (fun order => writeFields order (Command.newAddress address).fields)
        (fun order payload => handleCommandPacket order header payload n)
        (networkFields (Command.newAddress address).fields)
        (.ok { n with argAddress := address }) ↔
      ∀ f ∈ (Command.newAddress address).fields, f.Palindrome) := by
  refine ⟨writeFields_eq_network_iff fields, ?_, ?_, ?_, ?_, ?_⟩
  · rw [portable_iff fun order => by
      have hread := packetReadU16_u16Bytes order half []
      rwa [List.append_nil] at hread]
    have hfields := writeFields_eq_network_iff [.u16 half]
    simpa [writeFields, networkFields, WireField.bytes, WireField.network,
      WireField.Palindrome] using hfields
  · rw [portable_iff fun order => by
      have hread := packetReadU32_u32Bytes order word []
      rwa [List.append_nil] at hread]
    have hfields := writeFields_eq_network_iff [.u32 word]
    simpa [writeFields, networkFields, WireField.bytes, WireField.network,
      WireField.Palindrome] using hfields
  · rw [portable_iff fun order => gnwParseHeader_frameBytes true order type source payload,
      ← writeFields_eq_network_iff]
    simp only [frameBytes_eq_writeFields, List.append_cancel_right_eq]
  · rw [portable_iff fun order => command.ofCommand_fields order rand,
      writeFields_eq_network_iff]
  · rw [portable_iff fun order => handleCommandPacket_newAddress hlength address hn,
      writeFields_eq_network_iff]

/-- The address 5 is written as `05 00 00 00` on one host and as `00 00 00 05` on
    the other, which takes a claim of it for one of `0x05000000`. -/
theorem host_order_fails :
    u32Bytes .little 5 = [5, 0, 0, 0] ∧ u32Bytes .big 5 = [0, 0, 0, 5] ∧
      packetReadU32 .big (u32Bytes .little 5) = some (0x05000000, []) ∧
      ¬∀ data : UInt32, Portable (fun order => u32Bytes order data) packetReadU32
        (networkBytes 4 data.toNat) (some (data, [])) := by
  refine ⟨by decide, by decide, by decide, fun hall => ?_⟩
  have hbytes := (hall 5).bytes .little
  exact absurd hbytes (by decide)

/-- The address `0x05000005` reads the same backwards, and any host understands a
    claim of it and a reply with it. -/
theorem host_order_palindrome :
    Portable (fun order => writeFields order (Command.newAddress 0x05000005).fields)
        (fun order => Request.ofCommand order fun _ => 0)
        (networkFields (Command.newAddress 0x05000005).fields)
        (.ok (.newAddress 0x05000005)) ∧
      Portable (fun order => writeFields order (Command.newAddress 0x05000005).fields)
        (fun order payload =>
          handleCommandPacket order ⟨GNW_MAGIC, GNW_VERSION, GNW_REPLY, 0, 5⟩ payload ⟨0, [], ()⟩)
        (networkFields (Command.newAddress 0x05000005).fields) (.ok ⟨0x05000005, [], ()⟩) := by
  have hpalindrome : ∀ f ∈ (Command.newAddress 0x05000005).fields, f.Palindrome := by
    have hword : bswap32 0x05000005 = 0x05000005 := by decide
    simpa [Command.fields, WireField.Palindrome] using hword
  have hlength : (⟨GNW_MAGIC, GNW_VERSION, GNW_REPLY, 0, 5⟩ : Header).length = 5 := rfl
  have hn : (⟨0, [], ()⟩ : NodeState Unit).argAddress = 0 := rfl
  obtain ⟨-, -, -, -, hrouter, hnode⟩ := host_order_iff [] 0 0 0 0 [] (fun _ => 0)
    (.newAddress 0x05000005) hlength 0x05000005 hn
  exact ⟨hrouter.2 hpalindrome, hnode.2 hpalindrome⟩
