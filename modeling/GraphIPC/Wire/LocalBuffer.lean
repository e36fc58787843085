-- SUMMARY: local_buffer_t: a block of bytes with a tail pointer, as both programs keep one for each descriptor.
import GraphIPC.Wire.Packet

/-!
# Local buffers

The bytes that were read from a descriptor and not used yet lie at the front of
a block, up to a tail pointer. What is read next is stored at the tail, and what
is used is shifted out at the front.
-/

/-- `local_buffer_t`: a block of `size` bytes and a tail pointer into it. The
    router calls its pointers `buffer` and `buffer_tail`, the node `head` and
    `tail`. -/
structure LocalBuffer (size : Nat) where
  buffer : List UInt8
  bufferTail : Nat
  length_buffer : buffer.length = size
  bufferTail_le : bufferTail ≤ size

/-- The bytes held between `buffer` and `buffer_tail`. -/
def LocalBuffer.window {size : Nat} (b : LocalBuffer size) : List UInt8 :=
  b.buffer.take b.bufferTail

@[simp] theorem LocalBuffer.length_window {size : Nat} (b : LocalBuffer size) :
    b.window.length = b.bufferTail := by
  simp [window, b.length_buffer, b.bufferTail_le]

/-- A byte in front of the tail is one of the window. -/
theorem LocalBuffer.getElem?_buffer {size : Nat} (b : LocalBuffer size) {i : Nat}
    (h : i < b.bufferTail) : b.buffer[i]? = b.window[i]? := by
  rw [window, List.getElem?_take_of_lt h]

section Front

variable {size : Nat} (b : LocalBuffer size) {n : Nat} (h : n ≤ b.bufferTail)
include h

theorem LocalBuffer.le_length_buffer : n ≤ b.buffer.length := by
  rw [b.length_buffer]
  exact h.trans b.bufferTail_le

/-- What lies in front of the tail is the front of the window. -/
theorem LocalBuffer.take_buffer : b.buffer.take n = b.window.take n := by
  rw [window, List.take_take, Nat.min_eq_left h]

end Front

/-- Bytes stored at the tail, which moves behind them. -/
def LocalBuffer.append {size : Nat} (b : LocalBuffer size) (data : List UInt8)
    (h : b.bufferTail + data.length ≤ size) : LocalBuffer size where
  buffer := Memory.store b.buffer b.bufferTail data
  bufferTail := b.bufferTail + data.length
  length_buffer := (Memory.length_store (by rw [b.length_buffer]; exact h)).trans b.length_buffer
  bufferTail_le := h

@[simp] theorem LocalBuffer.window_append {size : Nat} (b : LocalBuffer size)
    (data : List UInt8) (h : b.bufferTail + data.length ≤ size) :
    (b.append data h).window = b.window ++ data :=
  Memory.take_store (by rw [b.length_buffer]; exact b.bufferTail_le)

/-- `packet_shift` over the whole block, and the tail moved along. -/
def LocalBuffer.shift {size : Nat} (b : LocalBuffer size) (n : Nat) : LocalBuffer size where
  buffer := (packetShift b.buffer size n).buffer
  bufferTail := b.bufferTail - n
  length_buffer := (length_packetShift b.length_buffer.ge).trans b.length_buffer
  bufferTail_le := (Nat.sub_le ..).trans b.bufferTail_le

/-- What is shifted out is what lies at the front. -/
@[simp] theorem LocalBuffer.window_shift {size : Nat} (b : LocalBuffer size) (n : Nat) :
    (b.shift n).window = b.window.drop n := by
  have htail := b.bufferTail_le
  have hshift : (packetShift b.buffer size n).buffer.take (size - n) =
      (b.buffer.take size).drop n :=
    take_packetShift b.length_buffer.ge
  rw [window, window, List.drop_take, shift]
  show List.take (b.bufferTail - n) (packetShift b.buffer size n).buffer = _
  rw [← Nat.min_eq_left (Nat.sub_le_sub_right htail n), ← List.take_take, hshift, List.drop_take,
    List.take_take, Nat.min_eq_left (Nat.sub_le_sub_right htail n)]
