-- SUMMARY: GraphWrap.c, getLocalBuffer and destroyLocalBuffer: the buffers the node keeps for its descriptors.
import GraphIPC.Klib.Table
import GraphIPC.Wire.LocalBuffer

/-!
# The buffers of a node

A node keeps a buffer for every descriptor it has read from. A buffer is made
when it is first asked for. Destroying one frees its block and leaves an entry
with two null pointers behind.
-/

/-- What a node is started with, as far as its two directions of data depend on
    it. A block that `malloc` returns holds whatever bytes were there before. -/
structure NodeConfig where
  order : ByteOrder
  networkMtu : Nat
  malloc : Nat → UInt8
  /-- The address of a block that `malloc` returns. -/
  heap : Nat
  networkMtu_pos : 0 < networkMtu
  /-- `network_mtu * 20` is computed in `int`. -/
  networkMtu_lt : networkMtu * 20 < 2 ^ 31

/-- The size of the buffer of a descriptor. -/
abbrev NodeConfig.bufferSize (c : NodeConfig) : Nat := c.networkMtu * 20

/-- `input_buffer`: the entry of a descriptor is its buffer, or two null pointers
    after the buffer was destroyed. -/
abbrev InputBuffer (c : NodeConfig) : Type := Table Int (Option (LocalBuffer c.bufferSize))

/-- A buffer as it is created. -/
def NodeConfig.newBuffer (c : NodeConfig) : LocalBuffer c.bufferSize where
  buffer := (List.range c.bufferSize).map c.malloc
  bufferTail := 0
  length_buffer := by simp
  bufferTail_le := Nat.zero_le _

@[simp] theorem NodeConfig.window_newBuffer (c : NodeConfig) : c.newBuffer.window = [] := rfl

/-- `getLocalBuffer`: the table afterwards and the buffer of the descriptor. -/
def getLocalBuffer (c : NodeConfig) (fd : Int) (inputBuffer : InputBuffer c) :
    InputBuffer c × Option (LocalBuffer c.bufferSize) :=
  match inputBuffer fd with
  | some local_ => (inputBuffer, local_)
  | none => (inputBuffer.set fd (some c.newBuffer), some c.newBuffer)

/-- `destroyLocalBuffer` -/
def destroyLocalBuffer (c : NodeConfig) (fd : Int) (inputBuffer : InputBuffer c) :
    InputBuffer c :=
  if (inputBuffer fd).isSome then inputBuffer.set fd none else inputBuffer

/-- The number of bytes a handler asks `read` for. -/
def LocalBuffer.capacity {size : Nat} (b : LocalBuffer size) : Nat := size - b.bufferTail

/-! ## The buffer of a descriptor -/

/-- The buffer a handler works on when it is called for `fd`. -/
def InputBuffer.bufferFor {c : NodeConfig} (inputBuffer : InputBuffer c) (fd : Int) :
    Option (LocalBuffer c.bufferSize) := (getLocalBuffer c fd inputBuffer).2

section BufferFor

variable {c : NodeConfig} (inputBuffer : InputBuffer c)

theorem InputBuffer.bufferFor_eq (fd : Int) :
    inputBuffer.bufferFor fd = (inputBuffer fd).getD (some c.newBuffer) := by
  rw [bufferFor, getLocalBuffer]
  cases inputBuffer fd <;> rfl

variable {inputBuffer} in
theorem getLocalBuffer_of_bufferFor {fd : Int} {b : LocalBuffer c.bufferSize}
    (h : inputBuffer.bufferFor fd = some b) :
    getLocalBuffer c fd inputBuffer = ((getLocalBuffer c fd inputBuffer).1, some b) := by
  rw [← h]
  rfl

@[simp] theorem InputBuffer.bufferFor_set (fd : Int) (b : Option (LocalBuffer c.bufferSize)) :
    InputBuffer.bufferFor (inputBuffer.set fd b) fd = b := by
  simp [bufferFor_eq]

theorem InputBuffer.bufferFor_of_none {fd : Int} (h : inputBuffer fd = none) :
    inputBuffer.bufferFor fd = some c.newBuffer := by
  simp [bufferFor_eq, h]

/-- Creating a buffer changes nothing for those who ask for one. -/
theorem bufferFor_getLocalBuffer (fd fd' : Int) :
    (getLocalBuffer c fd inputBuffer).1.bufferFor fd' = inputBuffer.bufferFor fd' := by
  rw [getLocalBuffer]
  cases h : inputBuffer fd with
  | some b => rfl
  | none =>
    by_cases heq : fd' = fd
    · rw [heq, inputBuffer.bufferFor_of_none h]
      exact inputBuffer.bufferFor_set fd _
    · simp [InputBuffer.bufferFor_eq, Table.set_of_ne heq]

variable {fd fd' : Int} (h : fd' ≠ fd)
include h

theorem InputBuffer.bufferFor_set_of_ne (b : Option (LocalBuffer c.bufferSize)) :
    InputBuffer.bufferFor (inputBuffer.set fd b) fd' = inputBuffer.bufferFor fd' := by
  simp [bufferFor_eq, Table.set_of_ne h]

/-- Destroying a buffer does not touch the others. -/
theorem destroyLocalBuffer_of_ne :
    (destroyLocalBuffer c fd inputBuffer).bufferFor fd' = inputBuffer.bufferFor fd' := by
  rw [destroyLocalBuffer]
  split
  · exact inputBuffer.bufferFor_set_of_ne h _
  · rfl

end BufferFor
