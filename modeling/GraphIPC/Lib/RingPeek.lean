-- SUMMARY: RingBuffer.c: the peeks at single offsets, and when they agree with what a read delivers.
import GraphIPC.Lib.RingBuffer
import GraphIPC.Wire.Packet

/-!
# Peeking into the ring

`ringbuffer_peek` and `ringbuffer_peek16` go back to the front of the area when the
place they look at lies behind its end, but the end itself is let through: the test is
`>`, where `ringbuffer_read` has `>=`. `ringbuffer_peek16` then loads two bytes at
once, as the host orders them, and `ringbuffer_peek32` puts four single peeks
together, of which the lowest is made at the offset of the highest.
-/

/-- `ref`: the place that is looked at, as an offset into the area. -/
def peekRef (root : RingBuffer) (offset : Nat) : Nat :=
  let ref := root.tail + offset % root.capacity
  if ref > root.stop then root.tail + offset % root.capacity - root.stop else ref

/-- `ringbuffer_peek` -/
def ringbufferPeek (offset : Nat) (root : RingBuffer) : Except Fault (RingBuffer × UInt8) := do
  let root ← semWait root
  let ref := peekRef root offset
  let tmp ← readOr root.area[ref]?
  return (semPost root, tmp)

/-- Two bytes as a half word, the lower first. -/
def littleEndian16 (b₀ b₁ : UInt8) : UInt16 :=
  (b₁.toUInt16 <<< 8) ||| b₀.toUInt16

/-- Four bytes as a word, the lowest first. -/
def littleEndian32 (b₀ b₁ b₂ b₃ : UInt8) : UInt32 :=
  (b₃.toUInt32 <<< 24) ||| (b₂.toUInt32 <<< 16) ||| (b₁.toUInt32 <<< 8) ||| b₀.toUInt32

/-- A half word that the host loads from two bytes. -/
def loadHalf : ByteOrder → UInt8 → UInt8 → UInt16
  | .little, b₀, b₁ => littleEndian16 b₀ b₁
  | .big, b₀, b₁ => littleEndian16 b₁ b₀

/-- `ringbuffer_peek16` -/
def ringbufferPeek16 (order : ByteOrder) (offset : Nat) (root : RingBuffer) :
    Except Fault (RingBuffer × UInt16) := do
  let root ← semWait root
  let ref := peekRef root offset
  let b₀ ← readOr root.area[ref]?
  let b₁ ← readOr root.area[ref + 1]?
  return (semPost root, loadHalf order b₀ b₁)

/-- `ringbuffer_peek32` -/
def ringbufferPeek32 (offset : Nat) (root : RingBuffer) : Except Fault (RingBuffer × UInt32) := do
  let (root, b₃) ← ringbufferPeek (offset + 3) root
  let (root, b₂) ← ringbufferPeek (offset + 2) root
  let (root, b₁) ← ringbufferPeek (offset + 1) root
  let (root, b₀) ← ringbufferPeek (offset + 3) root
  return (root, (b₃.toUInt32 <<< 24) ||| (b₂.toUInt32 <<< 16) ||| (b₁.toUInt32 <<< 8) |||
    b₀.toUInt32)

/-! ## What is asked of a peek -/

/-- Every read that goes beyond `offset` delivers this byte there. -/
def Delivers (root : RingBuffer) (offset : Nat) (byte : UInt8) : Prop :=
  ∀ maxLength, offset < maxLength → ∃ root' result,
    ringbufferRead true maxLength root = .ok (root', result) ∧
      result.copied[offset]? = some byte

/-- A peek looks inside the area and returns what a read would deliver. -/
def PeekAgrees (root : RingBuffer) (offset : Nat) : Prop :=
  peekRef root offset < root.stop ∧
    ∃ byte, ringbufferPeek offset root = .ok (root, byte) ∧ Delivers root offset byte

/-- A peek at two bytes returns them as a read would deliver them, the lower first. -/
def Peek16Agrees (order : ByteOrder) (root : RingBuffer) (offset : Nat) : Prop :=
  ∃ b₀ b₁, ringbufferPeek16 order offset root = .ok (root, littleEndian16 b₀ b₁) ∧
    Delivers root offset b₀ ∧ Delivers root (offset + 1) b₁

/-- A peek at four bytes returns them as a read would deliver them, the lowest first. -/
def Peek32Agrees (root : RingBuffer) (offset : Nat) : Prop :=
  ∃ b₀ b₁ b₂ b₃, ringbufferPeek32 offset root = .ok (root, littleEndian32 b₀ b₁ b₂ b₃) ∧
    Delivers root offset b₀ ∧ Delivers root (offset + 1) b₁ ∧
    Delivers root (offset + 2) b₂ ∧ Delivers root (offset + 3) b₃

/-- The bytes in the ring, the oldest first. -/
def queuedBytes (root : RingBuffer) : List UInt8 :=
  Circular.contents root.area root.tail (ringbufferLength root)

/-! ## Bytes of integers -/

theorem toUInt8_littleEndian16 (b₀ b₁ : UInt8) : (littleEndian16 b₀ b₁).toUInt8 = b₀ := by
  apply UInt8.toBitVec_inj.1
  ext i hi
  simp [littleEndian16]

theorem toUInt8_littleEndian32 (b₀ b₁ b₂ b₃ : UInt8) :
    (littleEndian32 b₀ b₁ b₂ b₃).toUInt8 = b₀ := by
  apply UInt8.toBitVec_inj.1
  ext i hi
  simp [littleEndian32]

/-- A load has the lower byte first on a host that stores it first, and on others if
    the two bytes are the same. -/
theorem loadHalf_eq_iff (order : ByteOrder) (b₀ b₁ : UInt8) :
    loadHalf order b₀ b₁ = littleEndian16 b₀ b₁ ↔ order = .little ∨ b₀ = b₁ := by
  cases order with
  | little => exact ⟨fun _ => .inl rfl, fun _ => rfl⟩
  | big =>
    refine ⟨fun h => .inr ?_, ?_⟩
    · have hlow := congrArg UInt16.toUInt8 h
      rw [loadHalf, toUInt8_littleEndian16, toUInt8_littleEndian16] at hlow
      exact hlow.symm
    · rintro (h | rfl)
      · cases h
      · rfl

/-! ## Peeks at a ring that holds a queue -/

section Holds

variable {root : RingBuffer} {size : Nat} {queue : List UInt8} (h : root.Holds size queue)
include h

theorem RingBuffer.Holds.getElem?_queue {offset : Nat} (hoffset : offset < queue.length) :
    queue[offset]? = root.area[(root.tail + offset) % size]? := by
  have hlength := h.length_eq
  have hlt := h.length_lt
  have harea := h.area
  rw [← h.queue, Circular.getElem?_contents (by omega) (by omega), harea]

/-- The test lets the end of the area through, and only that. -/
theorem RingBuffer.Holds.peekRef_eq {offset : Nat} (hoffset : offset < queue.length) :
    peekRef root offset =
      if root.tail + offset = root.stop then root.stop else (root.tail + offset) % size := by
  have hlength := h.length_eq
  have hlt := h.length_lt
  have htail := h.tail_lt
  have hstop : root.stop = size := h.area
  have hmod : offset % root.capacity = offset := by
    rw [h.capacity, Nat.mod_eq_of_lt (by omega)]
  rw [peekRef, hmod, hstop]
  by_cases hend : root.tail + offset = size
  · rw [if_pos hend, hend]
    exact if_neg (Nat.lt_irrefl size)
  rw [if_neg hend]
  by_cases hover : root.tail + offset > size
  · rw [Nat.mod_eq_sub_mod (by omega), Nat.mod_eq_of_lt (by omega)]
    exact if_pos hover
  · rw [Nat.mod_eq_of_lt (by omega)]
    exact if_neg hover

/-- Away from the end of the area a peek sees the queue. -/
theorem RingBuffer.Holds.getElem?_peekRef {offset : Nat} (hoffset : offset < queue.length)
    (hend : root.tail + offset ≠ root.stop) :
    root.area[peekRef root offset]? = queue[offset]? := by
  rw [h.peekRef_eq hoffset, if_neg hend, h.getElem?_queue hoffset]

/-- At the end of the area there is nothing to see. -/
theorem RingBuffer.Holds.getElem?_stop {offset : Nat} (hoffset : offset < queue.length)
    (hend : root.tail + offset = root.stop) : root.area[peekRef root offset]? = none := by
  rw [h.peekRef_eq hoffset, if_pos hend]
  exact List.getElem?_eq_none (Nat.le_refl _)

theorem RingBuffer.Holds.peekRef_lt_iff {offset : Nat} (hoffset : offset < queue.length) :
    peekRef root offset < root.stop ↔ root.tail + offset ≠ root.stop := by
  have htail := h.tail_lt
  have hstop : root.stop = size := h.area
  rw [h.peekRef_eq hoffset]
  split
  · rename_i hend
    exact ⟨fun hlt => absurd hlt (Nat.lt_irrefl _), fun hne => absurd hend hne⟩
  · rename_i hend
    rw [hstop]
    exact ⟨fun _ => hstop ▸ hend, fun _ => Nat.mod_lt _ (by omega)⟩

/-- A peek at the queue succeeds away from the end of the area, and leaves the ring
    as it was. -/
theorem RingBuffer.Holds.peek_eq {offset : Nat} {byte : UInt8}
    (hbyte : queue[offset]? = some byte) :
    ringbufferPeek offset root =
      if root.tail + offset = root.stop then .error .outOfBounds else .ok (root, byte) := by
  obtain ⟨hoffset, -⟩ := List.getElem?_eq_some_iff.1 hbyte
  have hsame : peekRef { root with lock := 0 } offset = peekRef root offset := rfl
  rw [ringbufferPeek, h.semWait_eq, Except.ok_bind]
  dsimp only
  rw [hsame]
  split
  · rename_i hend
    rw [h.getElem?_stop hoffset hend]
    rfl
  · rename_i hend
    rw [h.getElem?_peekRef hoffset hend, hbyte, h.semPost_eq]
    rfl

/-- A read delivers the queue. -/
theorem RingBuffer.Holds.delivers_iff (hsize : size < 2 ^ 63) (offset : Nat) (byte : UInt8) :
    Delivers root offset byte ↔ queue[offset]? = some byte := by
  have hread : ∀ maxLength, offset < maxLength → ∃ root' result,
      ringbufferRead true maxLength root = .ok (root', result) ∧
        result.copied[offset]? = queue[offset]? := by
    intro maxLength hlt
    obtain ⟨root', hread, -⟩ := h.read hsize true maxLength
    refine ⟨root', _, hread, ?_⟩
    show (queue.take maxLength)[offset]? = _
    rw [List.getElem?_take_of_lt hlt]
  constructor
  · intro hdelivers
    obtain ⟨root₁, result₁, hread₁, hbyte⟩ := hdelivers (offset + 1) (Nat.lt_succ_self _)
    obtain ⟨root₂, result₂, hread₂, hqueue⟩ := hread (offset + 1) (Nat.lt_succ_self _)
    rw [hread₁] at hread₂
    cases hread₂
    rw [← hqueue, hbyte]
  · intro hbyte maxLength hlt
    obtain ⟨root', result, hread, hqueue⟩ := hread maxLength hlt
    exact ⟨root', result, hread, hqueue.trans hbyte⟩

/-- The byte behind the one that a peek sees. -/
theorem RingBuffer.Holds.getElem?_peekRef_succ {offset : Nat} (hoffset : offset + 1 < queue.length)
    (hend : root.tail + offset ≠ root.stop) :
    root.area[peekRef root offset + 1]? =
      if root.tail + (offset + 1) = root.stop then none else queue[offset + 1]? := by
  have hlength := h.length_eq
  have hlt := h.length_lt
  have htail := h.tail_lt
  have hstop : root.stop = size := h.area
  rw [h.peekRef_eq (by omega), if_neg hend, hstop]
  rw [hstop] at hend
  by_cases hnext : root.tail + (offset + 1) = size
  · rw [if_pos hnext, Nat.mod_eq_of_lt (by omega)]
    apply List.getElem?_eq_none
    rw [h.area]
    omega
  · have hmod : (root.tail + offset) % size + 1 = (root.tail + (offset + 1)) % size := by
      by_cases hover : root.tail + offset < size
      · rw [Nat.mod_eq_of_lt hover, Nat.mod_eq_of_lt (by omega), Nat.add_assoc]
      · rw [Nat.mod_eq_sub_mod (by omega), Nat.mod_eq_of_lt (by omega),
          Nat.mod_eq_sub_mod (by omega), Nat.mod_eq_of_lt (by omega)]
        omega
    rw [if_neg hnext, hmod, h.getElem?_queue hoffset]

/-- A load of two bytes succeeds if both lie in front of the end of the area or both
    behind it. -/
theorem RingBuffer.Holds.peek16_ok_iff (order : ByteOrder) {offset : Nat} {b₀ b₁ : UInt8}
    (h₀ : queue[offset]? = some b₀) (h₁ : queue[offset + 1]? = some b₁) (value : UInt16) :
    ringbufferPeek16 order offset root = .ok (root, value) ↔
      root.tail + offset ≠ root.stop ∧ root.tail + (offset + 1) ≠ root.stop ∧
        value = loadHalf order b₀ b₁ := by
  obtain ⟨hoffset, -⟩ := List.getElem?_eq_some_iff.1 h₁
  have hsame : peekRef { root with lock := 0 } offset = peekRef root offset := rfl
  rw [ringbufferPeek16, h.semWait_eq, Except.ok_bind]
  dsimp only
  rw [hsame]
  by_cases hend : root.tail + offset = root.stop
  · rw [h.getElem?_stop (by omega) hend]
    simp [hend]
  · rw [h.getElem?_peekRef (by omega) hend, h.getElem?_peekRef_succ hoffset hend, h₀, h₁,
      h.semPost_eq]
    by_cases hnext : root.tail + (offset + 1) = root.stop
    · simp [hnext]
    · simp [hnext, hend, eq_comm]

/-- Four peeks in a row: the byte at `offset` is not among them. -/
theorem RingBuffer.Holds.peek32_ok_iff {offset : Nat} {b₁ b₂ b₃ : UInt8}
    (h₁ : queue[offset + 1]? = some b₁) (h₂ : queue[offset + 2]? = some b₂)
    (h₃ : queue[offset + 3]? = some b₃) (value : UInt32) :
    ringbufferPeek32 offset root = .ok (root, value) ↔
      root.tail + (offset + 1) ≠ root.stop ∧ root.tail + (offset + 2) ≠ root.stop ∧
        root.tail + (offset + 3) ≠ root.stop ∧ value = littleEndian32 b₃ b₁ b₂ b₃ := by
  rw [ringbufferPeek32, h.peek_eq h₃]
  by_cases hend₃ : root.tail + (offset + 3) = root.stop
  · simp [hend₃]
  rw [if_neg hend₃, Except.ok_bind]
  dsimp only
  rw [h.peek_eq h₂]
  by_cases hend₂ : root.tail + (offset + 2) = root.stop
  · simp [hend₂]
  rw [if_neg hend₂, Except.ok_bind]
  dsimp only
  rw [h.peek_eq h₁]
  by_cases hend₁ : root.tail + (offset + 1) = root.stop
  · simp [hend₁]
  rw [if_neg hend₁, Except.ok_bind]
  dsimp only
  rw [h.peek_eq h₃, if_neg hend₃, Except.ok_bind]
  simp [hend₁, hend₂, hend₃, littleEndian32, eq_comm]

/-- A byte is delivered at every offset into the queue. -/
theorem RingBuffer.Holds.peekAgrees_iff (hsize : size < 2 ^ 63) {offset : Nat}
    (hoffset : offset < queue.length) :
    PeekAgrees root offset ↔ root.tail + offset ≠ root.stop := by
  rw [PeekAgrees, h.peekRef_lt_iff hoffset]
  refine ⟨And.left, fun hend => ⟨hend, queue[offset], ?_, ?_⟩⟩
  · rw [h.peek_eq (List.getElem?_eq_getElem hoffset), if_neg hend]
  · exact (h.delivers_iff hsize offset _).2 (List.getElem?_eq_getElem hoffset)

theorem RingBuffer.Holds.peek16Agrees_iff (hsize : size < 2 ^ 63) (order : ByteOrder)
    {offset : Nat} (hoffset : offset + 1 < queue.length) :
    Peek16Agrees order root offset ↔
      root.tail + offset ≠ root.stop ∧ root.tail + (offset + 1) ≠ root.stop ∧
        (order = .little ∨ queue[offset]? = queue[offset + 1]?) := by
  have h₀ : queue[offset]? = some queue[offset] := List.getElem?_eq_getElem _
  have h₁ : queue[offset + 1]? = some queue[offset + 1] := List.getElem?_eq_getElem _
  have hbytes : (order = .little ∨ queue[offset]? = queue[offset + 1]?) ↔
      littleEndian16 queue[offset] queue[offset + 1] =
        loadHalf order queue[offset] queue[offset + 1] := by
    rw [h₀, h₁, Option.some_inj, ← loadHalf_eq_iff, eq_comm]
  rw [hbytes, ← h.peek16_ok_iff order h₀ h₁]
  simp only [Peek16Agrees, h.delivers_iff hsize, h₀, h₁, Option.some_inj]
  constructor
  · rintro ⟨b₀, b₁, hpeek, rfl, rfl⟩
    exact hpeek
  · intro hpeek
    exact ⟨_, _, hpeek, rfl, rfl⟩

theorem RingBuffer.Holds.peek32Agrees_iff (hsize : size < 2 ^ 63) {offset : Nat}
    (hoffset : offset + 3 < queue.length) :
    Peek32Agrees root offset ↔
      root.tail + (offset + 1) ≠ root.stop ∧ root.tail + (offset + 2) ≠ root.stop ∧
        root.tail + (offset + 3) ≠ root.stop ∧ queue[offset]? = queue[offset + 3]? := by
  have h₀ : queue[offset]? = some queue[offset] := List.getElem?_eq_getElem _
  have h₁ : queue[offset + 1]? = some queue[offset + 1] := List.getElem?_eq_getElem _
  have h₂ : queue[offset + 2]? = some queue[offset + 2] := List.getElem?_eq_getElem _
  have h₃ : queue[offset + 3]? = some queue[offset + 3] := List.getElem?_eq_getElem _
  -- the lowest byte is the only one that is taken from elsewhere
  have hbytes : queue[offset]? = queue[offset + 3]? ↔
      littleEndian32 queue[offset] queue[offset + 1] queue[offset + 2] queue[offset + 3] =
        littleEndian32 queue[offset + 3] queue[offset + 1] queue[offset + 2]
          queue[offset + 3] := by
    rw [h₀, h₃, Option.some_inj]
    refine ⟨fun heq => by rw [heq], fun heq => ?_⟩
    have hlow := congrArg UInt32.toUInt8 heq
    rwa [toUInt8_littleEndian32, toUInt8_littleEndian32] at hlow
  rw [hbytes, ← h.peek32_ok_iff h₁ h₂ h₃]
  simp only [Peek32Agrees, h.delivers_iff hsize, h₀, h₁, h₂, h₃, Option.some_inj]
  constructor
  · rintro ⟨b₀, b₁, b₂, b₃, hpeek, rfl, rfl, rfl, rfl⟩
    exact hpeek
  · intro hpeek
    exact ⟨_, _, _, _, hpeek, rfl, rfl, rfl, rfl⟩

end Holds

/-! ## Reachable rings -/

/-- What calls reach from a new ring is a ring that holds the bytes in it. -/
theorem RingBuffer.Holds.of_exec {malloc : Nat → UInt8} {size : Nat} {ring₀ ring : RingBuffer}
    {calls : List RingCall} {history : List (RingCall × RingResult)} (hsize : 1 ≤ size)
    (hinit : ringbufferInit malloc size = .ok ring₀)
    (hexec : Machine.exec ringStep ring₀ calls = .ok (ring, history)) :
    ring.Holds size (queuedBytes ring) ∧ size < 2 ^ 63 := by
  obtain ⟨hholds₀, hbound⟩ := RingBuffer.Holds.init hsize hinit
  obtain ⟨ring', queue, history', hring, -, hholds⟩ := hholds₀.exec hbound calls
  rw [hexec] at hring
  cases hring
  have hqueue : queuedBytes ring = queue := hholds.queue
  exact ⟨hqueue ▸ hholds, hbound⟩

/-- A peek into the ring that any calls leave agrees with a read, except where it
    looks right at the end of the area: there it takes the byte behind it. -/
theorem peek_agrees_iff {malloc : Nat → UInt8} {size : Nat} {ring₀ ring : RingBuffer}
    {calls : List RingCall} {history : List (RingCall × RingResult)} (hsize : 1 ≤ size)
    (hinit : ringbufferInit malloc size = .ok ring₀)
    (hexec : Machine.exec ringStep ring₀ calls = .ok (ring, history)) {offset : Nat}
    (hoffset : offset < ringbufferLength ring) :
    PeekAgrees ring offset ↔ ring.tail + offset ≠ ring.stop := by
  obtain ⟨hholds, hbound⟩ := RingBuffer.Holds.of_exec hsize hinit hexec
  rw [hholds.length_eq] at hoffset
  exact hholds.peekAgrees_iff hbound hoffset

/-- The ring of six bytes whose queue 5, 6, 7, 8 starts at the fifth of them. -/
def wrappedRing : RingBuffer := ⟨1, [7, 8, 3, 4, 5, 6], 2, 4, 6⟩

/-- The calls that lead to it. -/
def wrappedCalls : List RingCall := [.write [1, 2, 3, 4], .read true 4, .write [5, 6, 7, 8]]

/-- The fourth byte of that queue lies at the front of the area. -/
theorem peek_agrees_wrapped :
    (∃ ring₀ history, ringbufferInit (fun _ => 0) 6 = .ok ring₀ ∧
      Machine.exec ringStep ring₀ wrappedCalls = .ok (wrappedRing, history)) ∧
      PeekAgrees wrappedRing 3 := by
  obtain ⟨ring₀, history, hinit, hexec⟩ : ∃ ring₀ history,
      ringbufferInit (fun _ => 0) 6 = .ok ring₀ ∧
        Machine.exec ringStep ring₀ wrappedCalls = .ok (wrappedRing, history) :=
    ⟨_, [_, _, _], rfl, rfl⟩
  exact ⟨⟨ring₀, history, hinit, hexec⟩,
    (peek_agrees_iff (by decide) hinit hexec (by decide)).2 (by decide)⟩

/-- The third byte of it is looked for behind the area. -/
theorem peek_fails :
    (∃ ring₀ history, ringbufferInit (fun _ => 0) 6 = .ok ring₀ ∧
      Machine.exec ringStep ring₀ wrappedCalls = .ok (wrappedRing, history)) ∧
      2 < ringbufferLength wrappedRing ∧
      ringbufferPeek 2 wrappedRing = .error .outOfBounds ∧ ¬PeekAgrees wrappedRing 2 := by
  refine ⟨⟨_, [_, _, _], rfl, rfl⟩, by decide, rfl, ?_⟩
  rintro ⟨hinside, -⟩
  exact absurd hinside (by decide)

/-- The half word and the word at an offset into the ring that any calls leave: both
    are right only if no byte that is looked for lies right at the end of the area.
    The half word must also be loaded by a host with the lower byte first or consist of
    two equal bytes, and the lowest byte of the word must equal its highest. -/
theorem peek16_peek32_agree_iff {malloc : Nat → UInt8} {size : Nat} {ring₀ ring : RingBuffer}
    {calls : List RingCall} {history : List (RingCall × RingResult)} (hsize : 1 ≤ size)
    (hinit : ringbufferInit malloc size = .ok ring₀)
    (hexec : Machine.exec ringStep ring₀ calls = .ok (ring, history)) (order : ByteOrder)
    (offset : Nat) :
    (offset + 1 < ringbufferLength ring →
      (Peek16Agrees order ring offset ↔
        ring.tail + offset ≠ ring.stop ∧ ring.tail + (offset + 1) ≠ ring.stop ∧
          (order = .little ∨ (queuedBytes ring)[offset]? = (queuedBytes ring)[offset + 1]?))) ∧
    (offset + 3 < ringbufferLength ring →
      (Peek32Agrees ring offset ↔
        ring.tail + (offset + 1) ≠ ring.stop ∧ ring.tail + (offset + 2) ≠ ring.stop ∧
          ring.tail + (offset + 3) ≠ ring.stop ∧
          (queuedBytes ring)[offset]? = (queuedBytes ring)[offset + 3]?)) := by
  obtain ⟨hholds, hbound⟩ := RingBuffer.Holds.of_exec hsize hinit hexec
  rw [hholds.length_eq]
  exact ⟨hholds.peek16Agrees_iff hbound order, hholds.peek32Agrees_iff hbound⟩

/-- The ring of eight bytes whose queue 7, 7, 8, 9, 8 starts at the seventh of them. -/
def repeatRing : RingBuffer := ⟨1, [8, 9, 8, 4, 5, 6, 7, 7], 3, 6, 8⟩

/-- The calls that lead to it. -/
def repeatCalls : List RingCall :=
  [.write [1, 2, 3, 4, 5, 6], .read true 6, .write [7, 7, 8, 9, 8]]

/-- The half word at its front is loaded alike by every host, and the words are wrong,
    one because of its lowest byte and one because of the end of the area. -/
theorem peek16_peek32_agree_repeat :
    (∃ ring₀ history, ringbufferInit (fun _ => 0) 8 = .ok ring₀ ∧
      Machine.exec ringStep ring₀ repeatCalls = .ok (repeatRing, history)) ∧
      Peek16Agrees .big repeatRing 0 ∧ ¬Peek32Agrees repeatRing 0 ∧
      ¬Peek32Agrees repeatRing 1 := by
  obtain ⟨ring₀, history, hinit, hexec⟩ : ∃ ring₀ history,
      ringbufferInit (fun _ => 0) 8 = .ok ring₀ ∧
        Machine.exec ringStep ring₀ repeatCalls = .ok (repeatRing, history) :=
    ⟨_, [_, _, _], rfl, rfl⟩
  obtain ⟨hhalf, hword⟩ := peek16_peek32_agree_iff (by decide) hinit hexec .big 0
  obtain ⟨-, hword'⟩ := peek16_peek32_agree_iff (by decide) hinit hexec .big 1
  refine ⟨⟨ring₀, history, hinit, hexec⟩, (hhalf (by decide)).2 (by decide), ?_, ?_⟩
  · rw [hword (by decide)]
    decide
  · rw [hword' (by decide)]
    decide

/-- The word 1, 2, 3, 4 at the front of a new ring is returned as 4, 2, 3, 4. -/
theorem peek32_fails :
    (∃ ring₀ history, ringbufferInit (fun _ => 0) 8 = .ok ring₀ ∧
      Machine.exec ringStep ring₀ [.write [1, 2, 3, 4]] =
        .ok (⟨1, [1, 2, 3, 4, 0, 0, 0, 0], 4, 0, 8⟩, history)) ∧
      ringbufferPeek32 0 ⟨1, [1, 2, 3, 4, 0, 0, 0, 0], 4, 0, 8⟩ =
        .ok (⟨1, [1, 2, 3, 4, 0, 0, 0, 0], 4, 0, 8⟩, 0x04030204) ∧
      littleEndian32 1 2 3 4 = 0x04030201 ∧
      ¬Peek32Agrees ⟨1, [1, 2, 3, 4, 0, 0, 0, 0], 4, 0, 8⟩ 0 := by
  refine ⟨⟨_, [_], rfl, rfl⟩, rfl, rfl, ?_⟩
  rintro ⟨b₀, b₁, b₂, b₃, hpeek, h₀, -⟩
  obtain ⟨root', result, hread, hbyte⟩ := h₀ 4 (by decide)
  cases hread
  cases hbyte
  have hword : (0x04030204 : UInt32) = littleEndian32 1 b₁ b₂ b₃ :=
    congrArg Prod.snd (Except.ok.inj hpeek)
  have hlow := congrArg UInt32.toUInt8 hword
  rw [toUInt8_littleEndian32] at hlow
  exact absurd hlow (by decide)
