-- SUMMARY: RingBuffer.c: a ring of bytes with a head and a tail pointer, and the queue that it holds.
import GraphIPC.Base.Circular
import GraphIPC.Base.Machine
import GraphIPC.Fault
import Mathlib.Data.Nat.Bitwise
import Mathlib.Tactic.IntervalCases

/-!
# The ring buffer

`lib/RingBuffer.c` keeps bytes in an area that is used in a circle. They are
written at `head` and read at `tail`; where the two are equal the ring is empty, so
one byte of the area always stays free. Both writing and reading take a second
piece at the front of the area when they come to its end.
-/

/-- `RingBuffer_t`. The pointers `head` and `tail` are offsets into the area, which
    `start` and `end` enclose. -/
structure RingBuffer where
  lock : Nat
  area : List UInt8
  head : Nat
  tail : Nat
  capacity : Nat
  deriving DecidableEq, Repr

/-- `end`, as an offset. -/
def RingBuffer.stop (root : RingBuffer) : Nat := root.area.length

/-- `sizeof(RingBuffer_t)` -/
def sizeofRingBuffer : Nat := 72

/-- `ringbuffer_init`. There is no object of `2 ^ 63` bytes, and the pointer that
    `malloc` returns is not tested. -/
def ringbufferInit (malloc : Nat → UInt8) (size : Nat) : Except Fault RingBuffer :=
  if sizeofRingBuffer + size < 2 ^ 63 then
    .ok { lock := 1, area := (List.range size).map malloc, head := 0, tail := 0, capacity := size }
  else .error .outOfBounds

def semWait (root : RingBuffer) : Except Fault RingBuffer :=
  if root.lock = 0 then .error .blocked else .ok { root with lock := root.lock - 1 }

def semPost (root : RingBuffer) : RingBuffer := { root with lock := root.lock + 1 }

/-- A number of bytes as the functions return it. -/
def toSsize (n : Nat) : Int := if n < 2 ^ 63 then n else n - 2 ^ 64

/-- `minValue`, whose result is used as a `size_t` again. -/
def minValue (a b : Nat) : Nat := if a < b then a else b

def ringbufferLength (root : RingBuffer) : Nat :=
  if root.head = root.tail then 0
  else if root.head > root.tail then root.head - root.tail
  else (root.stop - root.tail) + root.head

/-- `ringbuffer_capacity`, in the arithmetic of `size_t`. -/
def ringbufferCapacity (root : RingBuffer) : Nat :=
  (root.capacity + (2 ^ 64 - (ringbufferLength root + 1) % 2 ^ 64)) % 2 ^ 64

/-- `memcpy` out of the area. -/
def copyOut (area : List UInt8) (offset length : Nat) : Except Fault (List UInt8) :=
  if offset + length ≤ area.length then .ok ((area.drop offset).take length)
  else .error .outOfBounds

/-- `memcpy` into the area. -/
def copyIn (area : List UInt8) (offset : Nat) (data : List UInt8) : Except Fault (List UInt8) :=
  if offset + data.length ≤ area.length then .ok (Memory.store area offset data)
  else .error .outOfBounds

/-- What a call returns, and the bytes it leaves at its destination. -/
structure RingResult where
  returned : Int
  copied : List UInt8
  deriving DecidableEq, Repr

/-- `ringbuffer_peek_copy`; `buffer` tells whether there is a destination. -/
def ringbufferPeekCopy (buffer : Bool) (maxLength : Nat) (root : RingBuffer) :
    Except Fault (RingBuffer × RingResult) := do
  let root ← semWait root
  let readLength := minValue (ringbufferLength root) maxLength
  assertThat true (readLength ≤ root.capacity)
    "Length overflow, attempted read was larger than the buffer ever was."
  if readLength = 0 then
    return (semPost root, ⟨0, []⟩)
  if readLength ≤ root.stop - root.tail then
    let copied ← if buffer then copyOut root.area root.tail readLength else pure []
    return (semPost root, ⟨toSsize readLength, copied⟩)
  let copied ←
    if buffer then do
      let first ← copyOut root.area root.tail (root.stop - root.tail)
      let second ← copyOut root.area 0 (readLength - (root.stop - root.tail))
      pure (first ++ second)
    else pure []
  return (semPost root, ⟨toSsize readLength, copied⟩)

/-- `ringbuffer_read` -/
def ringbufferRead (buffer : Bool) (maxLength : Nat) (root : RingBuffer) :
    Except Fault (RingBuffer × RingResult) := do
  let root ← semWait root
  let readLength := minValue (ringbufferLength root) maxLength
  assertThat true (readLength ≤ root.capacity)
    "Length overflow, attempted read was larger than the buffer ever was."
  if readLength = 0 then
    return (semPost root, ⟨0, []⟩)
  if readLength ≤ root.stop - root.tail then
    let copied ← if buffer then copyOut root.area root.tail readLength else pure []
    let tail := root.tail + readLength
    let tail := if tail ≥ root.stop then 0 else tail
    return (semPost { root with tail }, ⟨toSsize readLength, copied⟩)
  let copied ←
    if buffer then do
      let first ← copyOut root.area root.tail (root.stop - root.tail)
      let second ← copyOut root.area 0 (readLength - (root.stop - root.tail))
      pure (first ++ second)
    else pure []
  let tail := root.tail + readLength
  let tail := if tail ≥ root.stop then tail - root.stop else tail
  return (semPost { root with tail }, ⟨toSsize readLength, copied⟩)

/-- `ringbuffer_write` -/
def ringbufferWrite (data : List UInt8) (root : RingBuffer) :
    Except Fault (RingBuffer × RingResult) := do
  let root ← semWait root
  let space := ringbufferCapacity root
  if space ≤ data.length then
    return (semPost root, ⟨0, []⟩)
  let rspace := root.stop - root.head
  if data.length < rspace then
    let area ← copyIn root.area root.head data
    let head := root.head + data.length
    let head := if head > root.stop then 0 else head
    return (semPost { root with area, head }, ⟨toSsize data.length, []⟩)
  -- it fits, but in two pieces
  let area ← copyIn root.area root.head (data.take rspace)
  let area ← copyIn area 0 (data.drop rspace)
  return (semPost { root with area, head := data.length - rspace }, ⟨toSsize data.length, []⟩)

/-- A call. -/
inductive RingCall where
  | write (data : List UInt8)
  | read (buffer : Bool) (maxLength : Nat)
  | peekCopy (buffer : Bool) (maxLength : Nat)
  deriving DecidableEq, Repr

def ringStep (root : RingBuffer) : RingCall → Except Fault (RingBuffer × RingResult)
  | .write data => ringbufferWrite data root
  | .read buffer maxLength => ringbufferRead buffer maxLength root
  | .peekCopy buffer maxLength => ringbufferPeekCopy buffer maxLength root

/-! ## The queue in the ring -/

/-- The ring of `size` bytes holds `queue`, and its lock is free. -/
structure RingBuffer.Holds (root : RingBuffer) (size : Nat) (queue : List UInt8) : Prop where
  lock : root.lock = 1
  area : root.area.length = size
  capacity : root.capacity = size
  head_lt : root.head < size
  tail_lt : root.tail < size
  queue : Circular.contents root.area root.tail (ringbufferLength root) = queue

section Holds

variable {root : RingBuffer} {size : Nat} {queue : List UInt8} (h : root.Holds size queue)
include h

/-- One byte of the area is free. -/
theorem RingBuffer.Holds.length_lt : ringbufferLength root < size := by
  have hhead := h.head_lt
  have htail := h.tail_lt
  have harea := h.area
  unfold ringbufferLength stop
  split
  · omega
  split
  · omega
  · omega

/-- `ringbuffer_length` is the length of the queue. -/
theorem RingBuffer.Holds.length_eq : ringbufferLength root = queue.length := by
  have hlt := h.length_lt
  rw [← h.queue, Circular.length_contents (by rw [h.area]; omega)]

/-- `ringbuffer_capacity` is the number of bytes that may still be added, and it
    does not wrap. -/
theorem RingBuffer.Holds.capacity_eq (hsize : size < 2 ^ 63) :
    ringbufferCapacity root + queue.length + 1 = size := by
  have hlt := h.length_lt
  have hlength := h.length_eq
  unfold ringbufferCapacity
  rw [h.capacity]
  omega

theorem RingBuffer.Holds.semWait_eq : semWait root = .ok { root with lock := 0 } := by
  simp [semWait, h.lock]

/-- Giving the lock back after nothing has changed. -/
theorem RingBuffer.Holds.semPost_eq : semPost { root with lock := 0 } = root := by
  obtain ⟨lock, area, head, tail, capacity⟩ := root
  obtain rfl : lock = 1 := h.lock
  rfl

/-- The bytes to be read, in one piece. -/
theorem RingBuffer.Holds.copyOut_of_le {k : Nat} (hk : k ≤ queue.length)
    (hle : k ≤ root.stop - root.tail) : copyOut root.area root.tail k = .ok (queue.take k) := by
  have htail := h.tail_lt
  have harea := h.area
  have hlength := h.length_eq
  have hinside : root.tail ≤ root.area.length := by omega
  have htake := Circular.take_contents_of_le hinside
    (hlength ▸ hk : k ≤ ringbufferLength root) hle
  rw [h.queue] at htake
  rw [stop] at hle
  rw [copyOut, if_pos (by omega), htake]

/-- The bytes to be read, in two pieces. -/
theorem RingBuffer.Holds.copyOut_of_ge {k : Nat} (hk : k ≤ queue.length)
    (hge : root.stop - root.tail ≤ k) :
    copyOut root.area root.tail (root.stop - root.tail) = .ok (root.area.drop root.tail) ∧
      copyOut root.area 0 (k - (root.stop - root.tail)) =
        .ok (root.area.take (k - (root.stop - root.tail))) ∧
      root.area.drop root.tail ++ root.area.take (k - (root.stop - root.tail)) = queue.take k := by
  have htail := h.tail_lt
  have harea := h.area
  have hlength := h.length_eq
  have hlt := h.length_lt
  have hinside : root.tail ≤ root.area.length := by omega
  have htake := Circular.take_contents_of_ge hinside
    (hlength ▸ hk : k ≤ ringbufferLength root) hge (by omega)
  rw [h.queue] at htake
  rw [stop] at hge ⊢
  refine ⟨?_, ?_, htake.symm⟩
  · rw [copyOut, if_pos (by omega), List.take_of_length_le (by rw [List.length_drop])]
  · rw [copyOut, if_pos (by omega), List.drop_zero]

/-- The ring after `k` bytes were read. -/
theorem RingBuffer.Holds.advance {k tail : Nat} (hk : k ≤ queue.length)
    (htail : tail = if root.tail + k ≥ size then root.tail + k - size else root.tail + k) :
    RingBuffer.Holds { root with tail } size (queue.drop k) := by
  have hlength := h.length_eq
  have hlt := h.length_lt
  have harea := h.area
  have hold := h.tail_lt
  have hhead := h.head_lt
  have hmod : (root.tail + k) % root.area.length = tail := by
    rw [harea, htail]
    split
    · rename_i hge
      rw [Nat.mod_eq_sub_mod hge, Nat.mod_eq_of_lt (by omega)]
    · rw [Nat.mod_eq_of_lt (by omega)]
  have hrest : ringbufferLength { root with tail } = ringbufferLength root - k := by
    have hk' : k ≤ ringbufferLength root := hlength ▸ hk
    unfold ringbufferLength stop at hk' ⊢
    dsimp only
    split_ifs at htail hk' ⊢ <;> omega
  refine ⟨h.lock, harea, h.capacity, hhead, ?_, ?_⟩
  · show tail < size
    split at htail <;> omega
  · show Circular.contents root.area tail (ringbufferLength { root with tail }) = _
    rw [hrest, ← hmod, Circular.contents_advance (by omega) (by omega), h.queue]

/-- The ring after bytes were written that end in front of the end of the area. -/
theorem RingBuffer.Holds.append_one {data : List UInt8}
    (hfits : queue.length + data.length + 1 < size) (hone : data.length < root.stop - root.head) :
    copyIn root.area root.head data = .ok (Memory.store root.area root.head data) ∧
      RingBuffer.Holds { root with
        area := Memory.store root.area root.head data
        head := root.head + data.length } size (queue ++ data) := by
  have hlength := h.length_eq
  have harea := h.area
  have htail := h.tail_lt
  have hhead := h.head_lt
  rw [stop, harea] at hone
  have hstore : (Memory.store root.area root.head data).length = root.area.length :=
    Memory.length_store (by omega)
  have hgrown : ringbufferLength { root with
      area := Memory.store root.area root.head data
      head := root.head + data.length } = ringbufferLength root + data.length := by
    unfold ringbufferLength stop at hlength ⊢
    dsimp only
    rw [hstore]
    split_ifs at hlength ⊢ <;> omega
  refine ⟨by rw [copyIn, if_pos (by omega)], h.lock, hstore.trans harea, h.capacity, ?_, htail, ?_⟩
  · show root.head + data.length < size
    omega
  · rw [hgrown, ← h.queue]
    show Circular.contents (Memory.store root.area root.head data) root.tail _ = _
    by_cases horder : root.tail ≤ root.head
    · have hbehind : root.head = root.tail + ringbufferLength root := by
        unfold ringbufferLength
        split_ifs <;> omega
      rw [hbehind]
      exact Circular.contents_store_of_ge (by omega)
    · have hfront : ringbufferLength root = root.area.length - root.tail + root.head := by
        unfold ringbufferLength stop
        split_ifs <;> omega
      exact Circular.contents_store_of_le (by omega) (by omega) hfront

/-- The ring after bytes were written that go on at the front of the area. -/
theorem RingBuffer.Holds.append_two {data : List UInt8}
    (hfits : queue.length + data.length + 1 < size) (htwo : ¬data.length < root.stop - root.head) :
    ∃ area area', copyIn root.area root.head (data.take (root.stop - root.head)) = .ok area ∧
      copyIn area 0 (data.drop (root.stop - root.head)) = .ok area' ∧
      RingBuffer.Holds { root with
        area := area'
        head := data.length - (root.stop - root.head) } size (queue ++ data) := by
  have hlength := h.length_eq
  have harea := h.area
  have htail := h.tail_lt
  have hhead := h.head_lt
  rw [stop, harea] at htwo ⊢
  let first := data.take (size - root.head)
  let second := data.drop (size - root.head)
  have hfirst : first.length = size - root.head := by
    rw [List.length_take]
    omega
  have hsecond : second.length = data.length - (size - root.head) := List.length_drop
  -- otherwise the free bytes would end in front of the end of the area
  have horder : root.tail ≤ root.head := by
    by_contra hlt
    unfold ringbufferLength stop at hlength
    split_ifs at hlength <;> omega
  have hbehind : root.head = root.tail + ringbufferLength root := by
    unfold ringbufferLength
    split_ifs <;> omega
  have hstore : (Memory.store root.area root.head first).length = root.area.length :=
    Memory.length_store (by omega)
  have hstore' : (Memory.store (Memory.store root.area root.head first) 0 second).length =
      root.area.length := (Memory.length_store (by omega)).trans hstore
  have hgrown : ringbufferLength { root with
      area := Memory.store (Memory.store root.area root.head first) 0 second
      head := data.length - (size - root.head) } =
        ringbufferLength root + first.length + second.length := by
    unfold ringbufferLength stop at hlength ⊢
    dsimp only
    rw [hstore']
    split_ifs at hlength ⊢ <;> omega
  refine ⟨Memory.store root.area root.head first,
    Memory.store (Memory.store root.area root.head first) 0 second, ?_, ?_, h.lock,
    hstore'.trans harea, h.capacity, ?_, htail, ?_⟩
  · have hin : root.head + first.length ≤ root.area.length := by omega
    rw [copyIn, if_pos hin]
  · have hin : 0 + second.length ≤ (Memory.store root.area root.head first).length := by omega
    rw [copyIn, if_pos hin]
  · show data.length - (size - root.head) < size
    omega
  · have hone : Circular.contents (Memory.store root.area root.head first) root.tail
        (ringbufferLength root + first.length) = queue ++ first := by
      have hfits' : root.tail + ringbufferLength root + first.length ≤ root.area.length := by omega
      rw [← h.queue, hbehind]
      exact Circular.contents_store_of_ge hfits'
    rw [hgrown]
    show Circular.contents (Memory.store (Memory.store root.area root.head first) 0 second)
      root.tail _ = _
    rw [Circular.contents_store_of_le (by omega) (by omega) (by omega), hone, List.append_assoc,
      List.take_append_drop]

end Holds

/-! ## The queue -/

/-- A queue of bytes with room for `size - 1`. A write is refused unless one byte
    more than it takes is free. -/
def fifoStep (size : Nat) (queue : List UInt8) : RingCall → List UInt8 × RingResult
  | .write data =>
    if queue.length + data.length + 1 < size then (queue ++ data, ⟨data.length, []⟩)
    else (queue, ⟨0, []⟩)
  | .read buffer maxLength =>
    (queue.drop maxLength,
      ⟨(min queue.length maxLength : Nat), if buffer then queue.take maxLength else []⟩)
  | .peekCopy buffer maxLength =>
    (queue, ⟨(min queue.length maxLength : Nat), if buffer then queue.take maxLength else []⟩)

/-- The queue as a machine that never fails. -/
def queueStep (size : Nat) (queue : List UInt8) (call : RingCall) :
    Except Fault (List UInt8 × RingResult) := .ok (fifoStep size queue call)

/-- The calls that change nothing. -/
def Unchanging (size : Nat) (queue : List UInt8) : RingCall → Prop
  | .write data => size ≤ queue.length + data.length + 1
  | .read _ _ => False
  | .peekCopy _ _ => True

theorem toSsize_of_lt {n : Nat} (h : n < 2 ^ 63) : toSsize n = n := by
  rw [toSsize, if_pos h]

theorem minValue_eq (a b : Nat) : minValue a b = min a b := by
  unfold minValue
  split <;> omega

section Calls

variable {root : RingBuffer} {size : Nat} {queue : List UInt8} (h : root.Holds size queue)
  (hsize : size < 2 ^ 63)
include h hsize

/-- A write appends its bytes, or is refused and changes nothing. -/
theorem RingBuffer.Holds.write (data : List UInt8) :
    ∃ root', ringbufferWrite data root = .ok (root', (fifoStep size queue (.write data)).2) ∧
      root'.Holds size (fifoStep size queue (.write data)).1 ∧
      (Unchanging size queue (.write data) → root' = root) := by
  have hcapacity := h.capacity_eq hsize
  have hsame : ringbufferCapacity { root with lock := 0 } = ringbufferCapacity root := rfl
  rw [ringbufferWrite, h.semWait_eq, Except.ok_bind]
  simp only [hsame, Unchanging, fifoStep]
  by_cases hfits : queue.length + data.length + 1 < size
  · have hhead := h.head_lt
    have harea := h.area
    rw [if_neg (by omega), if_pos hfits, ← toSsize_of_lt (by omega : data.length < 2 ^ 63)]
    by_cases hone : data.length < root.stop - root.head
    · obtain ⟨hcopy, hholds⟩ := h.append_one hfits hone
      have hinside : ¬root.head + data.length > root.stop := by omega
      refine ⟨_, ?_, hholds, fun hle => absurd hle (by omega)⟩
      have hstop : RingBuffer.stop { root with lock := 0 } = root.stop := rfl
      rw [hstop, if_pos hone, hcopy, Except.ok_bind, if_neg hinside, h.lock]
      rfl
    · obtain ⟨area, area', hcopy, hcopy', hholds⟩ := h.append_two hfits hone
      refine ⟨_, ?_, hholds, fun hle => absurd hle (by omega)⟩
      have hstop : RingBuffer.stop { root with lock := 0 } = root.stop := rfl
      rw [hstop, if_neg hone, hcopy, Except.ok_bind, hcopy', Except.ok_bind, h.lock]
      rfl
  · rw [if_pos (by omega), if_neg hfits]
    exact ⟨root, by rw [h.semPost_eq]; rfl, h, fun _ => rfl⟩

/-- A peek returns the first bytes of the queue and changes nothing. -/
theorem RingBuffer.Holds.peekCopy (buffer : Bool) (maxLength : Nat) :
    ringbufferPeekCopy buffer maxLength root =
      .ok (root, (fifoStep size queue (.peekCopy buffer maxLength)).2) := by
  have hlength := h.length_eq
  have hlt := h.length_lt
  have hcapacity := h.capacity
  have hsame : ringbufferLength { root with lock := 0 } = ringbufferLength root := rfl
  have htake : queue.take maxLength = queue.take (min queue.length maxLength) := by
    rw [List.take_eq_take_min, Nat.min_comm]
  have hle : min queue.length maxLength ≤ queue.length := Nat.min_le_left ..
  rw [ringbufferPeekCopy, h.semWait_eq, Except.ok_bind]
  simp only [hsame, minValue_eq, hlength, fifoStep, htake]
  generalize min queue.length maxLength = k at hle ⊢
  have hcheck : decide (k ≤ root.capacity) = true := decide_eq_true (by omega)
  rw [hcheck, assertThat_true, Except.ok_bind, h.semPost_eq]
  by_cases hzero : k = 0
  · subst hzero
    cases buffer <;> rfl
  rw [if_neg hzero, toSsize_of_lt (by omega)]
  have hstop : RingBuffer.stop { root with lock := 0 } = root.stop := rfl
  rw [hstop]
  by_cases hone : k ≤ root.stop - root.tail
  · rw [if_pos hone, h.copyOut_of_le hle hone]
    cases buffer <;> rfl
  · obtain ⟨hfirst, hsecond, hboth⟩ := h.copyOut_of_ge hle (by omega)
    rw [if_neg hone, hfirst, hsecond, ← hboth]
    cases buffer <;> rfl

/-- A read returns the first bytes of the queue and removes them. -/
theorem RingBuffer.Holds.read (buffer : Bool) (maxLength : Nat) :
    ∃ root', ringbufferRead buffer maxLength root =
        .ok (root', (fifoStep size queue (.read buffer maxLength)).2) ∧
      root'.Holds size (fifoStep size queue (.read buffer maxLength)).1 := by
  have hlength := h.length_eq
  have hlt := h.length_lt
  have hcapacity := h.capacity
  have hsame : ringbufferLength { root with lock := 0 } = ringbufferLength root := rfl
  have htake : queue.take maxLength = queue.take (min queue.length maxLength) := by
    rw [List.take_eq_take_min, Nat.min_comm]
  have hdrop : queue.drop maxLength = queue.drop (min queue.length maxLength) := by
    rw [List.drop_eq_drop_min, Nat.min_comm]
  have hle : min queue.length maxLength ≤ queue.length := Nat.min_le_left ..
  rw [ringbufferRead, h.semWait_eq, Except.ok_bind]
  simp only [hsame, minValue_eq, hlength, fifoStep, htake, hdrop]
  generalize min queue.length maxLength = k at hle ⊢
  have hcheck : decide (k ≤ root.capacity) = true := decide_eq_true (by omega)
  rw [hcheck, assertThat_true, Except.ok_bind, h.semPost_eq]
  by_cases hzero : k = 0
  · subst hzero
    exact ⟨root, by cases buffer <;> rfl, h⟩
  rw [if_neg hzero, toSsize_of_lt (by omega)]
  have hstop : RingBuffer.stop { root with lock := 0 } = root.stop := rfl
  have harea : root.stop = size := h.area
  rw [hstop]
  by_cases hone : k ≤ root.stop - root.tail
  · refine ⟨_, ?_, h.advance hle rfl⟩
    have hwrap : (if root.tail + k ≥ root.stop then 0 else root.tail + k) =
        if root.tail + k ≥ size then root.tail + k - size else root.tail + k := by
      have htail := h.tail_lt
      split_ifs <;> omega
    rw [if_pos hone, h.copyOut_of_le hle hone]
    simp only [hwrap]
    cases buffer <;> rw [h.lock] <;> rfl
  · obtain ⟨hfirst, hsecond, hboth⟩ := h.copyOut_of_ge hle (by omega)
    refine ⟨_, ?_, h.advance hle rfl⟩
    rw [if_neg hone, hfirst, hsecond, ← hboth, harea]
    cases buffer <;> rw [h.lock] <;> rfl

/-- A call does to the ring what it does to the queue in it. -/
theorem RingBuffer.Holds.step (call : RingCall) :
    ∃ root', ringStep root call = .ok (root', (fifoStep size queue call).2) ∧
      root'.Holds size (fifoStep size queue call).1 ∧
      (Unchanging size queue call → root' = root) := by
  cases call with
  | write data => exact h.write hsize data
  | read buffer maxLength =>
    obtain ⟨root', hread, hholds⟩ := h.read hsize buffer maxLength
    exact ⟨root', hread, hholds, False.elim⟩
  | peekCopy buffer maxLength => exact ⟨root, h.peekCopy hsize buffer maxLength, h, fun _ => rfl⟩

end Calls

/-- The calls do to the ring what they do to the queue in it. -/
theorem RingBuffer.Holds.exec {root : RingBuffer} {size : Nat} {queue : List UInt8}
    (h : root.Holds size queue) (hsize : size < 2 ^ 63) (calls : List RingCall) :
    ∃ root' queue' history, Machine.exec ringStep root calls = .ok (root', history) ∧
      Machine.exec (queueStep size) queue calls = .ok (queue', history) ∧
      root'.Holds size queue' := by
  induction calls generalizing root queue with
  | nil => exact ⟨root, queue, [], rfl, rfl, h⟩
  | cons call calls ih =>
    obtain ⟨root₁, hstep, hholds, -⟩ := h.step hsize call
    obtain ⟨root₂, queue₂, history, hring, hqueue, hholds₂⟩ := ih hholds
    refine ⟨root₂, queue₂, (call, (fifoStep size queue call).2) :: history, ?_, ?_, hholds₂⟩
    · rw [Machine.exec, hstep]
      dsimp only
      rw [hring]
    · rw [Machine.exec, queueStep]
      dsimp only
      rw [hqueue]

/-- A new ring is empty. -/
theorem RingBuffer.Holds.init {malloc : Nat → UInt8} {size : Nat} {root : RingBuffer}
    (hsize : 1 ≤ size) (h : ringbufferInit malloc size = .ok root) :
    root.Holds size [] ∧ size < 2 ^ 63 := by
  unfold ringbufferInit at h
  split at h
  · cases h
    refine ⟨⟨rfl, by simp, rfl, hsize, hsize, ?_⟩, by omega⟩
    simp [Circular.contents, ringbufferLength]
  · cases h

/-- Whatever is called on a ring of `size` bytes, it behaves as a queue with room
    for `size - 1`. Its pointers stay inside its area, its length and its capacity
    are those of the queue, and calls that change nothing leave all of it as it is. -/
theorem ring_refines_queue {malloc : Nat → UInt8} {size : Nat} {ring₀ : RingBuffer}
    (hsize : 1 ≤ size) (hinit : ringbufferInit malloc size = .ok ring₀)
    (calls : List RingCall) :
    ∃ ring queue history, Machine.exec ringStep ring₀ calls = .ok (ring, history) ∧
      Machine.exec (queueStep size) [] calls = .ok (queue, history) ∧
      ring.head < ring.stop ∧ ring.tail < ring.stop ∧
      ringbufferLength ring = queue.length ∧
      ringbufferCapacity ring + queue.length = size - 1 ∧
      ∀ call, Unchanging size queue call →
        ringStep ring call = .ok (ring, (fifoStep size queue call).2) := by
  obtain ⟨hholds₀, hbound⟩ := RingBuffer.Holds.init hsize hinit
  obtain ⟨ring, queue, history, hring, hqueue, hholds⟩ := hholds₀.exec hbound calls
  have hstop : ring.stop = size := hholds.area
  have hcapacity := hholds.capacity_eq hbound
  refine ⟨ring, queue, history, hring, hqueue, ?_, ?_, hholds.length_eq, by omega, ?_⟩
  · rw [hstop]
    exact hholds.head_lt
  · rw [hstop]
    exact hholds.tail_lt
  · intro call hcall
    obtain ⟨ring', hstep, -, hsame⟩ := hholds.step hbound call
    rw [hstep, hsame hcall]

/-- Four calls on a ring of four bytes, the second write across its end. -/
theorem ring_refines_queue_wrapped :
    ∃ ring₀, ringbufferInit (fun _ => 0) 4 = .ok ring₀ ∧ ∃ ring queue history,
      Machine.exec ringStep ring₀
        [.write [1, 2], .read true 1, .write [3], .peekCopy false 9] = .ok (ring, history) ∧
      Machine.exec (queueStep 4) []
        [.write [1, 2], .read true 1, .write [3], .peekCopy false 9] = .ok (queue, history) ∧
      ring.head < ring.stop ∧ ring.tail < ring.stop ∧
      ringbufferLength ring = queue.length ∧
      ringbufferCapacity ring + queue.length = 4 - 1 ∧
      ∀ call, Unchanging 4 queue call →
        ringStep ring call = .ok (ring, (fifoStep 4 queue call).2) :=
  ⟨_, rfl, ring_refines_queue (by decide) rfl _⟩
