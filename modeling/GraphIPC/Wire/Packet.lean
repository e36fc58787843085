-- SUMMARY: packet.c: typed fields written to and read from a byte buffer, and the shift that takes bytes off its front.
import GraphIPC.Base.Memory
import Mathlib.Data.Nat.Bitwise
import Mathlib.Tactic.IntervalCases

/-!
# Typed fields in a byte buffer

`lib/packet.c` writes and reads unsigned integers at a pointer into a buffer and
returns the advanced pointer. The multi-byte fields go through `htonl` or
`htons` first, whose effect depends on the host, and are then taken apart by
shifts, most significant byte first. A pointer to write at is a `Cursor`; a
pointer to read from is the list of the bytes from it to the end of its array,
and a read past that end has no result.
-/

/-- The order in which the host stores the bytes of an integer. -/
inductive ByteOrder where
  | little
  | big
  deriving DecidableEq, Repr

/-- Reverse the four bytes of a word. -/
def bswap32 (data : UInt32) : UInt32 :=
  (data <<< 24) ||| ((data &&& (0xFF00 : UInt32)) <<< 8) |||
    ((data >>> 8) &&& (0xFF00 : UInt32)) ||| (data >>> 24)

/-- Reverse the two bytes of a half word. -/
def bswap16 (data : UInt16) : UInt16 :=
  (data <<< 8) ||| (data >>> 8)

def htonl : ByteOrder → UInt32 → UInt32
  | .little, data => bswap32 data
  | .big, data => data

def ntohl : ByteOrder → UInt32 → UInt32 := htonl

def htons : ByteOrder → UInt16 → UInt16
  | .little, data => bswap16 data
  | .big, data => data

def ntohs : ByteOrder → UInt16 → UInt16 := htons

theorem bswap32_bswap32 (data : UInt32) : bswap32 (bswap32 data) = data := by
  unfold bswap32
  apply UInt32.toBitVec_inj.1
  ext i hi
  simp [UInt32.toBitVec_or, UInt32.toBitVec_shiftLeft, UInt32.toBitVec_shiftRight]
  interval_cases i <;> simp

theorem bswap16_bswap16 (data : UInt16) : bswap16 (bswap16 data) = data := by
  unfold bswap16
  apply UInt16.toBitVec_inj.1
  ext i hi
  simp [UInt16.toBitVec_or, UInt16.toBitVec_shiftLeft, UInt16.toBitVec_shiftRight]
  interval_cases i <;> simp

@[simp] theorem ntohl_htonl (order : ByteOrder) (data : UInt32) :
    ntohl order (htonl order data) = data := by
  cases order with
  | little => exact bswap32_bswap32 data
  | big => rfl

@[simp] theorem ntohs_htons (order : ByteOrder) (data : UInt16) :
    ntohs order (htons order data) = data := by
  cases order with
  | little => exact bswap16_bswap16 data
  | big => rfl

/-! ## Writing -/

/-- A pointer into a block that is being filled. -/
structure Cursor where
  block : List UInt8
  pos : Nat
  deriving DecidableEq, Repr

/-- Store bytes at the pointer and advance it behind them. -/
def Cursor.put (buffer : Cursor) (data : List UInt8) : Cursor where
  block := Memory.store buffer.block buffer.pos data
  pos := buffer.pos + data.length

/-- The two bytes `packet_write_u16` stores. -/
def u16Bytes (order : ByteOrder) (data : UInt16) : List UInt8 :=
  let data := htons order data
  [((data >>> 8) &&& 0xFF).toUInt8, (data &&& 0xFF).toUInt8]

/-- The four bytes `packet_write_u32` stores. -/
def u32Bytes (order : ByteOrder) (data : UInt32) : List UInt8 :=
  let data := htonl order data
  [((data >>> 24) &&& 0xFF).toUInt8, ((data >>> 16) &&& 0xFF).toUInt8,
    ((data >>> 8) &&& 0xFF).toUInt8, ((data >>> 0) &&& 0xFF).toUInt8]

def packetWriteU8 (buffer : Cursor) (data : UInt8) : Cursor :=
  buffer.put [data]

def packetWriteU16 (order : ByteOrder) (buffer : Cursor) (data : UInt16) : Cursor :=
  buffer.put (u16Bytes order data)

def packetWriteU32 (order : ByteOrder) (buffer : Cursor) (data : UInt32) : Cursor :=
  buffer.put (u32Bytes order data)

@[simp] theorem length_u16Bytes (order : ByteOrder) (data : UInt16) :
    (u16Bytes order data).length = 2 := rfl

@[simp] theorem length_u32Bytes (order : ByteOrder) (data : UInt32) :
    (u32Bytes order data).length = 4 := rfl

/-! ## Reading -/

def packetReadU8 : List UInt8 → Option (UInt8 × List UInt8)
  | data :: buffer => some (data, buffer)
  | _ => none

def packetReadU16 (order : ByteOrder) : List UInt8 → Option (UInt16 × List UInt8)
  | b₀ :: b₁ :: buffer =>
    let data := (b₀.toUInt16 <<< 8) ||| b₁.toUInt16
    some (ntohs order data, buffer)
  | _ => none

def packetReadU32 (order : ByteOrder) : List UInt8 → Option (UInt32 × List UInt8)
  | b₀ :: b₁ :: b₂ :: b₃ :: buffer =>
    let data := (0 : UInt32)
    let data := data ||| (b₀.toUInt32 <<< 24)
    let data := data ||| (b₁.toUInt32 <<< 16)
    let data := data ||| (b₂.toUInt32 <<< 8)
    let data := data ||| (b₃.toUInt32 <<< 0)
    some (ntohl order data, buffer)
  | _ => none

/-- The mask before the conversion to a byte keeps what the conversion keeps. -/
private theorem toUInt8_and_mask (data : UInt32) : (data &&& 0xFF).toUInt8 = data.toUInt8 := by
  apply UInt8.toNat_inj.1
  simp [Nat.and_two_pow_sub_one_eq_mod _ 8]

private theorem toUInt8_and_mask16 (data : UInt16) : (data &&& 0xFF).toUInt8 = data.toUInt8 := by
  apply UInt8.toNat_inj.1
  simp [Nat.and_two_pow_sub_one_eq_mod _ 8]

/-- The four shifted bytes of a word put together again. -/
private theorem or_bytes (data : UInt32) :
    (0 : UInt32) ||| ((data >>> 24).toUInt8.toUInt32 <<< 24) |||
      ((data >>> 16).toUInt8.toUInt32 <<< 16) ||| ((data >>> 8).toUInt8.toUInt32 <<< 8) |||
      ((data >>> 0).toUInt8.toUInt32 <<< 0) = data := by
  apply UInt32.toBitVec_inj.1
  ext i hi
  -- as bits, not as residues modulo 256
  simp [-UInt32.toUInt32_toUInt8]
  interval_cases i <;> simp

/-- The bytes a word was put together from. -/
private theorem bytes_or (b₀ b₁ b₂ b₃ : UInt8) :
    let data := (0 : UInt32) ||| (b₀.toUInt32 <<< 24) ||| (b₁.toUInt32 <<< 16) |||
      (b₂.toUInt32 <<< 8) ||| (b₃.toUInt32 <<< 0)
    [(data >>> 24).toUInt8, (data >>> 16).toUInt8, (data >>> 8).toUInt8, (data >>> 0).toUInt8] =
      [b₀, b₁, b₂, b₃] := by
  have hbyte : ∀ b b' : UInt8, (∀ i < 8, b.toBitVec.getLsbD i = b'.toBitVec.getLsbD i) → b = b' := by
    intro b b' h
    apply UInt8.toBitVec_inj.1
    ext i hi
    simpa [BitVec.getLsbD_eq_getElem hi] using h i hi
  simp only [List.cons.injEq, and_true]
  refine ⟨?_, ?_, ?_, ?_⟩ <;>
  · apply hbyte
    intro i hi
    interval_cases i <;> simp

private theorem or_bytes16 (data : UInt16) :
    ((data >>> 8).toUInt8.toUInt16 <<< 8) ||| data.toUInt8.toUInt16 = data := by
  apply UInt16.toBitVec_inj.1
  ext i hi
  simp [-UInt16.toUInt16_toUInt8]
  interval_cases i <;> simp

@[simp] theorem packetReadU8_cons (data : UInt8) (buffer : List UInt8) :
    packetReadU8 (data :: buffer) = some (data, buffer) := rfl

/-- On one host a written half word is read back. -/
@[simp] theorem packetReadU16_u16Bytes (order : ByteOrder) (data : UInt16) (buffer : List UInt8) :
    packetReadU16 order (u16Bytes order data ++ buffer) = some (data, buffer) := by
  simp only [u16Bytes, List.cons_append, List.nil_append, packetReadU16, toUInt8_and_mask16,
    or_bytes16, ntohs_htons]

/-- On one host a written word is read back. -/
@[simp] theorem packetReadU32_u32Bytes (order : ByteOrder) (data : UInt32) (buffer : List UInt8) :
    packetReadU32 order (u32Bytes order data ++ buffer) = some (data, buffer) := by
  simp only [u32Bytes, List.cons_append, List.nil_append, packetReadU32, toUInt8_and_mask,
    or_bytes, ntohl_htonl]

/-- The bytes of a word determine it. -/
theorem u32Bytes_inj {order : ByteOrder} {data data' : UInt32} :
    u32Bytes order data = u32Bytes order data' ↔ data = data' := by
  refine ⟨fun h => ?_, fun h => by rw [h]⟩
  have hread := packetReadU32_u32Bytes order data []
  rw [h, packetReadU32_u32Bytes] at hread
  exact congrArg Prod.fst (Option.some.inj hread.symm)

theorem u16Bytes_inj {order : ByteOrder} {data data' : UInt16} :
    u16Bytes order data = u16Bytes order data' ↔ data = data' := by
  refine ⟨fun h => ?_, fun h => by rw [h]⟩
  have hread := packetReadU16_u16Bytes order data []
  rw [h, packetReadU16_u16Bytes] at hread
  exact congrArg Prod.fst (Option.some.inj hread.symm)

/-- What is read comes off the front. -/
theorem packetReadU8_length {xs ys : List UInt8} {data : UInt8}
    (h : packetReadU8 xs = some (data, ys)) : xs.length = ys.length + 1 := by
  match xs, h with
  | _ :: _, rfl => rfl

theorem packetReadU32_length {order : ByteOrder} {xs ys : List UInt8} {data : UInt32}
    (h : packetReadU32 order xs = some (data, ys)) : xs.length = ys.length + 4 := by
  match xs, h with
  | _ :: _ :: _ :: _ :: _, rfl => rfl

theorem packetReadU8_eq_some {xs ys : List UInt8} {data : UInt8}
    (h : packetReadU8 xs = some (data, ys)) : xs = data :: ys := by
  match xs, h with
  | _ :: _, rfl => rfl

/-- Writing the word that was read gives back the bytes it was read from. -/
theorem packetReadU32_eq_some {order : ByteOrder} {xs ys : List UInt8} {data : UInt32}
    (h : packetReadU32 order xs = some (data, ys)) : xs = u32Bytes order data ++ ys := by
  match xs, h with
  | b₀ :: b₁ :: b₂ :: b₃ :: xs, h =>
    simp only [packetReadU32, Option.some.injEq, Prod.mk.injEq] at h
    obtain ⟨rfl, rfl⟩ := h
    have hback : ∀ data, htonl order (ntohl order data) = data := ntohl_htonl order
    simp only [u32Bytes, hback, toUInt8_and_mask, bytes_or, List.cons_append, List.nil_append]

/-- There is a word to read just if there are four bytes. -/
theorem packetReadU32_cases (order : ByteOrder) (xs : List UInt8) :
    xs.length < 4 ∧ packetReadU32 order xs = none ∨
      4 ≤ xs.length ∧ ∃ data, packetReadU32 order xs = some (data, xs.drop 4) := by
  match xs with
  | [] | [_] | [_, _] | [_, _, _] => exact .inl ⟨by simp, rfl⟩
  | _ :: _ :: _ :: _ :: _ => exact .inr ⟨by simp, _, rfl⟩

/-! ## Shifting -/

/-- What `packet_shift` leaves behind: the buffer, the bytes copied to `out`, and
    the new end it returns, as an offset. -/
structure Shifted where
  buffer : List UInt8
  out : List UInt8
  tail : Nat

/-- Take `length` bytes off the front of the first `bufferSize` bytes of a
    buffer. The bytes that are moved leave their old copies behind. -/
def packetShift (buffer : List UInt8) (bufferSize length : Nat) : Shifted where
  buffer := Memory.store buffer 0 ((buffer.drop length).take (bufferSize - length))
  out := buffer.take length
  tail := bufferSize - length

@[simp] theorem length_packetShift {buffer : List UInt8} {bufferSize length : Nat}
    (h : bufferSize ≤ buffer.length) :
    (packetShift buffer bufferSize length).buffer.length = buffer.length := by
  refine Memory.length_store ?_
  simp only [List.length_take, List.length_drop]
  omega

/-- The front of a shifted buffer: the bytes behind those taken off. -/
theorem take_packetShift {buffer : List UInt8} {bufferSize length : Nat}
    (h : bufferSize ≤ buffer.length) :
    (packetShift buffer bufferSize length).buffer.take (bufferSize - length) =
      (buffer.take bufferSize).drop length := by
  let moved := (buffer.drop length).take (bufferSize - length)
  have hlen : moved.length = bufferSize - length := by
    simp only [moved, List.length_take, List.length_drop]; omega
  have hstore : (Memory.store buffer 0 moved).take (0 + moved.length) = buffer.take 0 ++ moved :=
    Memory.take_store (Nat.zero_le _)
  rw [hlen, Nat.zero_add, List.take_zero, List.nil_append] at hstore
  rw [packetShift, hstore, List.drop_take]
