-- SUMMARY: GraphNetwork.c: the frame header, the two functions that build frames and the two that read them.
import GraphIPC.Fault
import GraphIPC.Wire.Packet

/-!
# Frames on the wire

A frame is an eleven byte header (magic, version, type, source address, payload
length) and its payload. `gnw_emitDataPacket` and `gnw_emitCommandPacket` build
frames, `gnw_nextPacket` decides whether a buffer starts with a whole one and
`gnw_parse_header` takes the header apart.
-/

def GNW_VERSION : UInt8 := 2
def GNW_MAGIC : UInt8 := 0x55

def GNW_DATA : UInt8 := 0x10
def GNW_COMMAND : UInt8 := 0xF0
def GNW_REPLY : UInt8 := 0x01

def GNW_CMD_NEW_ADDRESS : UInt8 := 0x1
def GNW_CMD_POLICY : UInt8 := 0x3
def GNW_CMD_CONNECT : UInt8 := 0x4
def GNW_CMD_DISCONNECT : UInt8 := 0x5

theorem types_distinct :
    GNW_DATA ≠ GNW_COMMAND ∧ GNW_REPLY ≠ GNW_COMMAND ∧ GNW_REPLY ≠ GNW_DATA := by decide

theorem directives_distinct :
    GNW_CMD_CONNECT ≠ GNW_CMD_NEW_ADDRESS ∧ GNW_CMD_POLICY ≠ GNW_CMD_NEW_ADDRESS ∧
      GNW_CMD_POLICY ≠ GNW_CMD_CONNECT ∧ GNW_CMD_POLICY ≠ GNW_CMD_DISCONNECT := by decide

/-- `gnw_header_t` -/
structure Header where
  magic : UInt8
  version : UInt8
  type : UInt8
  source : UInt32
  length : UInt32
  deriving DecidableEq, Repr, Inhabited

/-! ## Building frames -/

/-- The header both emit functions write into a zeroed packet. -/
def writeHeader (order : ByteOrder) (type : UInt8) (source : UInt32) (length : Nat) : Cursor :=
  let ptr : Cursor := ⟨List.replicate (length + 11) 0, 0⟩
  let ptr := packetWriteU8 ptr GNW_MAGIC
  let ptr := packetWriteU8 ptr GNW_VERSION
  let ptr := packetWriteU8 ptr type
  let ptr := packetWriteU32 order ptr source
  packetWriteU32 order ptr (UInt32.ofNat length)

/-- Copy `length` bytes from `buffer` behind the header. -/
def writePayload (ptr : Cursor) (buffer : List UInt8) (length : Nat) : Except Fault (List UInt8) :=
  if length ≤ buffer.length then .ok (ptr.put (buffer.take length)).block
  else .error .outOfBounds

/-- The packet `gnw_emitDataPacket` passes to `gnw_emitPacket`; there is none for
    an empty payload. -/
def gnwEmitDataPacket (order : ByteOrder) (source : UInt32) (buffer : List UInt8)
    (length : Nat) : Except Fault (Option (List UInt8)) := do
  if length = 0 then
    return none
  let packet ← writePayload (writeHeader order GNW_DATA source length) buffer length
  return some packet

/-- The packet `gnw_emitCommandPacket` passes to `gnw_emitPacket`. -/
def gnwEmitCommandPacket (order : ByteOrder) (type : UInt8) (buffer : List UInt8)
    (length : Nat) : Except Fault (List UInt8) :=
  writePayload (writeHeader order type 0xFFFFFFFF length) buffer length

/-! ## Reading frames -/

/-- The eleven header bytes, without any check. -/
def readHeader (order : ByteOrder) (buffer : List UInt8) : Option (Header × List UInt8) := do
  let (magic, ptr) ← packetReadU8 buffer
  let (version, ptr) ← packetReadU8 ptr
  let (type, ptr) ← packetReadU8 ptr
  let (source, ptr) ← packetReadU32 order ptr
  let (length, ptr) ← packetReadU32 order ptr
  return ({ magic, version, type, source, length }, ptr)

/-- How many bytes the whole frame at the front of the buffer has; zero if there
    is no whole frame yet, negative if no frame starts here. -/
def gnwNextPacket (order : ByteOrder) (buffer : List UInt8) : Int :=
  if buffer.length < 11 then 0
  else if buffer.head? ≠ some GNW_MAGIC then -1
  else
    match readHeader order buffer with
    | none => 0 -- not reached: eleven bytes are there
    | some (header, _) =>
      if header.version ≠ GNW_VERSION then -2
      -- the sum is taken in 32 bits
      else if (11 + header.length).toNat ≤ buffer.length then (11 + header.length).toNat
      else 0

/-- The header at the front of a buffer, and the pointer to the payload. -/
def gnwParseHeader (bail : Bool) (order : ByteOrder) (buffer : List UInt8) :
    Except Fault (Header × List UInt8) := do
  let (header, ptr) ← readOr (readHeader order buffer)
  assertThat bail (header.magic = GNW_MAGIC) "Bad header magic, bad buffer?"
  assertThat bail (header.version = GNW_VERSION)
    "Bad header version, mismatched router/clients?"
  return (header, ptr)
