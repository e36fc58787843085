-- SUMMARY: GraphRouter.c, handle_event: the reassembly buffer of a connection and the frame taken out of it.
import GraphIPC.Router.Forward
import GraphIPC.Wire.LocalBuffer

/-!
# The event handler of the router

Every connection has a block of twenty times the MTU and a tail pointer into it.
What was read is stored at the tail, the resynchronisation loop takes bytes off
the front until a frame may start there, and one frame, if it is complete, is
taken out and passed to `handle_packet`.
-/

/-- What the router is started with. A block that `malloc` returns holds
    whatever bytes were there before. -/
structure RouterConfig where
  order : ByteOrder
  networkMtu : Nat
  malloc : Nat → UInt8
  networkMtu_pos : 0 < networkMtu
  networkMtu_lt : networkMtu < 2 ^ 31

/-- The size of the buffer of a connection. -/
abbrev RouterConfig.bufferSize (c : RouterConfig) : Nat := c.networkMtu * 20

/-- A buffer as `malloc` returns it. -/
def newBuffer (c : RouterConfig) : LocalBuffer c.bufferSize where
  buffer := (List.range c.bufferSize).map c.malloc
  bufferTail := 0
  length_buffer := by simp
  bufferTail_le := Nat.zero_le _

@[simp] theorem window_newBuffer (c : RouterConfig) : (newBuffer c).window = [] := rfl

/-- The resynchronisation loop: the buffer and the `buffer_size` it leaves. -/
def resync (order : ByteOrder) : List UInt8 → Nat → List UInt8 × Nat
  | buffer, 0 => (buffer, 0)
  | buffer, bufferSize + 1 =>
    if gnwNextPacket order (buffer.take (bufferSize + 1)) < 0 then
      resync order (packetShift buffer (bufferSize + 1) 1).buffer bufferSize
    else (buffer, bufferSize + 1)

theorem resync_snd_le (order : ByteOrder) (buffer : List UInt8) (bufferSize : Nat) :
    (resync order buffer bufferSize).2 ≤ bufferSize := by
  induction bufferSize generalizing buffer with
  | zero => exact le_rfl
  | succ bufferSize ih =>
    rw [resync]
    split
    · exact (ih _).trans (Nat.le_succ _)
    · exact le_rfl

theorem length_resync (order : ByteOrder) {buffer : List UInt8} {bufferSize : Nat}
    (h : bufferSize ≤ buffer.length) :
    (resync order buffer bufferSize).1.length = buffer.length := by
  induction bufferSize generalizing buffer with
  | zero => rfl
  | succ bufferSize ih =>
    rw [resync]
    split
    · have hlen : (packetShift buffer (bufferSize + 1) 1).buffer.length = buffer.length :=
        length_packetShift h
      rw [ih (by omega), hlen]
    · rfl

/-- The buffer after the resynchronisation loop, which does not move the tail. -/
def LocalBuffer.resynced {size : Nat} (order : ByteOrder) (b : LocalBuffer size) :
    LocalBuffer size where
  buffer := (resync order b.buffer b.bufferTail).1
  bufferTail := b.bufferTail
  length_buffer := by
    rw [length_resync order (by rw [b.length_buffer]; exact b.bufferTail_le), b.length_buffer]
  bufferTail_le := b.bufferTail_le

/-- Take one frame out of the first `bufferSize` bytes, if there is one. -/
def takeFrame {size : Nat} (order : ByteOrder) (b : LocalBuffer size) (bufferSize : Nat)
    (hsize : bufferSize ≤ size) : Except Fault (LocalBuffer size × Option (List UInt8)) :=
  let readyBytes := gnwNextPacket order (b.buffer.take bufferSize)
  if readyBytes > 0 then
    let shifted := packetShift b.buffer bufferSize readyBytes.toNat
    if readyBytes.toNat ≤ b.bufferTail then
      .ok ({ buffer := shifted.buffer
             bufferTail := b.bufferTail - readyBytes.toNat
             length_buffer := by
               rw [length_packetShift (by rw [b.length_buffer]; exact hsize), b.length_buffer]
             bufferTail_le := (Nat.sub_le ..).trans b.bufferTail_le },
        some shifted.out)
    else .error (.assertion "Buffer under-run!")
  else .ok (b, none)

/-- What one read did to the buffer of its connection: the bytes that were
    discarded and the frame that was taken out. -/
structure Extract where
  discarded : Nat
  packet : Option (List UInt8)
  deriving DecidableEq, Repr

/-- The part of `handle_event` between the read and the call of
    `handle_packet`. -/
def absorb (c : RouterConfig) (local_ : LocalBuffer c.bufferSize) (data : List UInt8) :
    Except Fault (LocalBuffer c.bufferSize × Extract) :=
  if hfits : data.length < c.bufferSize - local_.bufferTail then do
    let local_ := local_.append data (by omega)
    let bufferSize := (resync c.order local_.buffer local_.bufferTail).2
    have hsize : bufferSize ≤ c.bufferSize := (resync_snd_le ..).trans local_.bufferTail_le
    let discarded := local_.bufferTail - bufferSize
    let (local_, packet) ← takeFrame c.order (local_.resynced c.order) bufferSize hsize
    return (local_, { discarded, packet })
  else .error (.assertion "BUFFER OVERFLOW")

/-! ## Events -/

def POLLIN : UInt16 := 0x001
def POLLHUP : UInt16 := 0x010

/-- `struct pollfd` -/
structure PollFd where
  fd : Int
  events : UInt16
  revents : UInt16
  deriving DecidableEq, Repr

/-- The two tables of the router. -/
structure Tables (c : RouterConfig) where
  addressTable : AddressTable
  localBuffer : Table Int (LocalBuffer c.bufferSize)

/-- The buffer of a descriptor: the one it has, or the one it would get. -/
def Tables.buffer {c : RouterConfig} (s : Tables c) (fd : Int) : LocalBuffer c.bufferSize :=
  (s.localBuffer fd).getD (newBuffer c)

/-- What an event was seen to do. -/
inductive Output where
  | nothing
  | accepted (fd : Int)
  | closed (fd : Int)
  /-- `data` was read from `fd`, and `handle_packet` was called if a frame was
      complete. -/
  | handled (fd : Int) (data : List UInt8) (discarded : Nat) (call : Option Packet)
    (writes : List Write)

/-- Drop a connection: its buffer, its descriptor and its poll entry. -/
def dropClient {c : RouterConfig} (s : Tables c) (pollStruct : PollFd) :
    Tables c × PollFd × Output :=
  ({ s with localBuffer := s.localBuffer.erase pollStruct.fd },
    { fd := -1, events := 0, revents := 0 }, .closed pollStruct.fd)

/-- `handle_event`. A failed read and the end of the stream have no data. -/
def handleEvent (c : RouterConfig) (s : Tables c) (pollStruct : PollFd) (data : List UInt8)
    (rand : Nat → RandResult) : Except Fault (Tables c × PollFd × Output) :=
  if pollStruct.revents &&& POLLIN ≠ POLLIN ∨ data.length < 1 then
    .ok (dropClient s pollStruct)
  else do
    let (local_, extract) ← absorb c (s.buffer pollStruct.fd) data
    let s := { s with localBuffer := s.localBuffer.set pollStruct.fd local_ }
    match extract.packet with
    | none =>
      return (s, pollStruct, .handled pollStruct.fd data extract.discarded none [])
    | some packet =>
      let (addressTable, writes) ←
        handlePacket c.order pollStruct.fd packet rand s.addressTable
      return ({ s with addressTable }, pollStruct,
        .handled pollStruct.fd data extract.discarded
          (some { fd := pollStruct.fd, buffer := packet, rand }) writes)
