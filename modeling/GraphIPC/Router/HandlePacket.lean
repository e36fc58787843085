-- SUMMARY: GraphRouter.c, handle_packet: the commands that change the address table and the forwarding of data frames.
import GraphIPC.Klib.Table
import GraphIPC.Wire.GraphNetwork

/-!
# The packet handler of the router

`handle_packet` works on one whole frame. A command claims an address for the
connection it came in on, adds a forward edge or sets a forward policy; a data
frame is copied to the connections of the targets its source forwards to. The
handler is written over any table that has the khash operations.
-/

def GNW_POLICY_BROADCAST : Int := 0
def GNW_POLICY_ANYCAST : Int := 1
def GNW_POLICY_ROUNDROBIN : Int := 2

def GNW_STATE_OPEN : Int := 0x00

/-- `context_t` -/
structure Context where
  forward : List UInt32
  forwardPolicy : Int
  boundFd : Int
  state : Int
  packetsIn : UInt64
  packetsOut : UInt64
  bytesIn : UInt64
  bytesOut : UInt64
  deriving DecidableEq, Repr, Inhabited

/-- `setup_context`: what a context holds when its address becomes known. -/
def setupContext : Context where
  forward := []
  forwardPolicy := GNW_POLICY_BROADCAST
  boundFd := -1
  state := GNW_STATE_OPEN
  packetsIn := 0
  packetsOut := 0
  bytesIn := 0
  bytesOut := 0

/-- A result of `rand()`, between zero and `RAND_MAX`. -/
abbrev RandResult : Type := Fin (2 ^ 31)

instance RandResult.neZero : NeZero (2 ^ 31) := ⟨by decide⟩

/-- A `write` the handler makes. The code writes a copy of a frame to the
    descriptor alone; the model also notes the address the copy is for, and
    `none` for a reply. -/
structure Write where
  fd : Int
  bytes : List UInt8
  target : Option UInt32
  deriving DecidableEq, Repr

/-- A call of the handler, and what `rand()` returns while it runs. -/
structure Packet where
  fd : Int
  buffer : List UInt8
  rand : Nat → RandResult

/-- `kv_a`, which evaluates its index three times: against the capacity of the
    vector, against its size and to read. With an index that is not below the
    size the vector may grow by elements nobody has set, and the model stops. -/
def kvA (v : List UInt32) (index : Nat → Nat) : Except Fault UInt32 :=
  if v.length ≤ index 0 ∨ v.length ≤ index 1 then .error .outOfBounds
  else readOr v[index 2]?

/-- `x % n` -/
def remainder (x n : Nat) : Except Fault Nat :=
  if n = 0 then .error .divisionByZero else .ok (x % n)

variable {T Iter : Type} [DecidableEq Iter] [KhTable T Iter UInt32 Context]

/-! ## Commands -/

/-- `hint == kh_end(address_table) || kh_exist( address_table, hint ) == 0` -/
def isMissing (addressTable : T) (hint : Iter) : Except Fault Bool :=
  if hint = khEnd addressTable then .ok true else (!·) <$> khExist addressTable hint

/-- How two commands begin: look an address up, and add it with a new context if
    it is missing. -/
def findOrSetup (address : UInt32) (addressTable : T) : Except Fault (T × Iter) := do
  let hint ← khGet addressTable address
  if ← isMissing addressTable hint then
    let (addressTable, hint) ← khPut addressTable address
    let addressTable ← khSetValue addressTable hint setupContext
    return (addressTable, hint)
  return (addressTable, hint)

/-- The handler of `GNW_CMD_NEW_ADDRESS`, once the address is known. -/
def cmdNewAddress (order : ByteOrder) (fd : Int) (addressReq : UInt32) (addressTable : T) :
    Except Fault (T × List Write) := do
  let (addressTable, hint) ← findOrSetup addressReq addressTable
  let context ← khValue addressTable hint
  let addressTable ← khSetValue addressTable hint { context with boundFd := fd }
  let out := packetWriteU8 ⟨[0, 0, 0, 0, 0], 0⟩ GNW_CMD_NEW_ADDRESS
  let out := packetWriteU32 order out addressReq
  let reply ← gnwEmitCommandPacket order GNW_REPLY out.block out.pos
  return (addressTable, [{ fd, bytes := reply, target := none }])

/-- The handler of `GNW_CMD_CONNECT`. -/
def cmdConnect (source target : UInt32) (addressTable : T) : Except Fault (T × List Write) := do
  let (addressTable, srcHint) ← findOrSetup source addressTable
  assertThat true (srcHint ≠ khEnd addressTable) "Failed to actually put a new key :/"
  let srcContext ← khValue addressTable srcHint
  let addressTable ←
    khSetValue addressTable srcHint { srcContext with forward := srcContext.forward ++ [target] }
  return (addressTable, [])

/-- The names `handle_packet` logs a policy under. -/
def policyStr : List String := ["BROADCAST", "ANYCAST", "ROUNDROBIN", "???"]

/-- The handler of `GNW_CMD_POLICY`. The name of the policy is looked up for the
    log, with the received byte as the index. -/
def cmdPolicy (policy : UInt8) (target : UInt32) (addressTable : T) :
    Except Fault (T × List Write) := do
  let targetHint ← khGet addressTable target
  if targetHint = khEnd addressTable then
    return (addressTable, [])
  let targetContext ← khValue addressTable targetHint
  let addressTable ←
    khSetValue addressTable targetHint { targetContext with forwardPolicy := policy.toNat }
  let _ ← readOr policyStr[policy.toNat]?
  return (addressTable, [])

/-! ## Data -/

/-- Forward one copy of a frame to one target, as each of the three policies
    does: skip the target if it is missing, else write and count. -/
def forwardTo (buffer : List UInt8) (target : UInt32) (addressTable : T) :
    Except Fault (T × List Write) := do
  let fwd ← khGet addressTable target
  if !(← khExist addressTable fwd) then
    return (addressTable, [])
  if fwd = khEnd addressTable then
    return (addressTable, [])
  let fwdEntry ← khValue addressTable fwd
  let addressTable ← khSetValue addressTable fwd
    { fwdEntry with
      bytesOut := fwdEntry.bytesOut + UInt64.ofNat buffer.length
      packetsOut := fwdEntry.packetsOut + 1 }
  return (addressTable, [{ fd := fwdEntry.boundFd, bytes := buffer, target := some target }])

/-- The loop of `GNW_POLICY_BROADCAST`, from position `i` on. The vector is read
    through the entry every time, while the entry may be a target too. -/
def broadcast (buffer : List UInt8) (hint : Iter) : (fuel i : Nat) → T →
    Except Fault (T × List Write)
  | 0, _, addressTable => .ok (addressTable, [])
  | fuel + 1, i, addressTable => do
    let entry ← khValue addressTable hint
    if i < entry.forward.length then
      let target ← kvA entry.forward fun _ => i
      let (addressTable, copy) ← forwardTo buffer target addressTable
      let (addressTable, copies) ← broadcast buffer hint fuel (i + 1) addressTable
      return (addressTable, copy ++ copies)
    else
      return (addressTable, [])

/-- The handler of `GNW_DATA`. -/
def forwardData (buffer : List UInt8) (source : UInt32) (rand : Nat → RandResult)
    (addressTable : T) : Except Fault (T × List Write) := do
  let hint ← khGet addressTable source
  if !(← khExist addressTable hint) then
    return (addressTable, [])
  let entry ← khValue addressTable hint
  let entry :=
    { entry with
      bytesIn := entry.bytesIn + UInt64.ofNat buffer.length
      packetsIn := entry.packetsIn + 1 }
  let addressTable ← khSetValue addressTable hint entry
  if entry.forwardPolicy = GNW_POLICY_BROADCAST then
    -- one round for each position, and one to see that none is left
    broadcast buffer hint (entry.forward.length + 1) 0 addressTable
  else if entry.forwardPolicy = GNW_POLICY_ANYCAST then
    let _ ← remainder (rand 0) entry.forward.length
    let target ← kvA entry.forward fun n => rand n % entry.forward.length
    forwardTo buffer target addressTable
  else if entry.forwardPolicy = GNW_POLICY_ROUNDROBIN then
    let offset ← remainder entry.packetsIn.toNat entry.forward.length
    let target ← kvA entry.forward fun _ => offset
    forwardTo buffer target addressTable
  else
    return (addressTable, [])

/-! ## The handler -/

/-- `handle_packet`: the table afterwards and the writes made, in order. -/
def handlePacket (order : ByteOrder) (fd : Int) (buffer : List UInt8) (rand : Nat → RandResult)
    (addressTable : T) : Except Fault (T × List Write) := do
  assertThat true (0 < buffer.length) "Attempted to parse an empty (zero-length) buffer!"
  let (header, payload) ← gnwParseHeader true order buffer
  if header.type = GNW_COMMAND then
    if header.length = 0 then
      return (addressTable, [])
    let (directive, next) ← readOr (packetReadU8 payload)
    if directive = GNW_CMD_NEW_ADDRESS then
      let addressReq := 0xFFFFF000 &&& UInt32.ofNat (rand 0)
      let addressReq ←
        if header.length = 5 then do
          let (addressReq, _) ← readOr (packetReadU32 order next)
          pure addressReq
        else pure addressReq
      cmdNewAddress order fd addressReq addressTable
    else if directive = GNW_CMD_CONNECT then
      let (source, next) ← readOr (packetReadU32 order next)
      let (target, _) ← readOr (packetReadU32 order next)
      cmdConnect source target addressTable
    else if directive = GNW_CMD_DISCONNECT then
      -- not implemented
      return (addressTable, [])
    else if directive = GNW_CMD_POLICY then
      let (policy, next) ← readOr (packetReadU8 next)
      let (target, _) ← readOr (packetReadU32 order next)
      cmdPolicy policy target addressTable
    else
      return (addressTable, [])
  else if header.type = GNW_DATA then
    forwardData buffer header.source rand addressTable
  else
    return (addressTable, [])
