-- SUMMARY: GraphWrap.c, getLocalBuffer and destroyLocalBuffer with their memory: the entries of input_buffer and the blocks they point to.
import GraphIPC.Base.Machine
import GraphIPC.Klib.Khash
import GraphIPC.Node.LocalBuffer

/-!
# The memory of the buffers

The entry of a descriptor in `input_buffer` holds two pointers into a block of its own. A
block is made if there is no entry. Destroying a buffer gives the block back and sets both
pointers to null, but leaves the entry, so that no block is made when the number of the
descriptor is used again.
-/

def NULL : Nat := 0

/-- `local_buffer_t` -/
structure BufferEntry where
  head : Nat
  tail : Nat
  deriving DecidableEq, Inhabited, Repr

/-- `input_buffer` with the blocks that are live, by their addresses. -/
structure BufferMemory (T : Type) where
  inputBuffer : T
  heap : Table Nat (List UInt8)

/-- What happens to the buffers. -/
inductive BufferCall (c : NodeConfig) (Key : Type) where
  /-- `getLocalBuffer`, with what `malloc` answers if it is asked -/
  | get (fd : Key) (block : Option Nat)
  /-- `destroyLocalBuffer` -/
  | destroy (fd : Key)
  /-- A handler leaves bytes in the buffer and moves the tail behind them. -/
  | update (fd : Key) (buffer : LocalBuffer c.bufferSize)

/-- The descriptor of a call. -/
def BufferCall.fd {c : NodeConfig} {Key : Type} : BufferCall c Key → Key
  | .get fd _ => fd
  | .destroy fd => fd
  | .update fd _ => fd

section Code

variable {T Iter Key : Type} [DecidableEq Iter] [KhTable T Iter Key BufferEntry]

/-- `kh_init`, and no block. -/
def BufferMemory.init : BufferMemory T := ⟨khInit, Table.empty⟩

/-- `malloc` -/
def BufferMemory.malloc (c : NodeConfig) (block : Option Nat) (m : BufferMemory T) :
    BufferMemory T × Nat :=
  match block with
  | some address => ({ m with heap := m.heap.set address c.newBuffer.buffer }, address)
  | none => (m, NULL)

/-- `free`, which does nothing with a null pointer and may do anything with one that is not
    to a block that is live. -/
def BufferMemory.free (address : Nat) (m : BufferMemory T) : Except Fault (BufferMemory T) :=
  if address = NULL then .ok m
  else if (m.heap address).isSome then .ok { m with heap := m.heap.erase address }
  else .error .outOfBounds

/-- `getLocalBuffer`. The `status` of a key that was not there is not 0, whatever the
    assertion says about it. -/
def BufferMemory.getLocalBuffer (c : NodeConfig) (fd : Key) (block : Option Nat)
    (m : BufferMemory T) : Except Fault (BufferMemory T × Iter) := do
  let hint ← khGet m.inputBuffer fd
  if hint = khEnd m.inputBuffer then
    let (inputBuffer, hint) ← khPut m.inputBuffer fd
    let (m, head) := BufferMemory.malloc c block { m with inputBuffer }
    let inputBuffer ← khSetValue m.inputBuffer hint ⟨head, head⟩
    return ({ m with inputBuffer }, hint)
  return (m, hint)

/-- `destroyLocalBuffer` -/
def BufferMemory.destroyLocalBuffer (fd : Key) (m : BufferMemory T) :
    Except Fault (BufferMemory T) := do
  let hint ← khGet m.inputBuffer fd
  if hint = khEnd m.inputBuffer then
    return m
  let buffer ← khValue m.inputBuffer hint
  let m ← m.free buffer.head
  let inputBuffer ← khSetValue m.inputBuffer hint ⟨NULL, NULL⟩
  return { m with inputBuffer }

/-- What a handler does with the buffer it was given. -/
def BufferMemory.handle {c : NodeConfig} (fd : Key) (b : LocalBuffer c.bufferSize)
    (m : BufferMemory T) : Except Fault (BufferMemory T) := do
  let hint ← khGet m.inputBuffer fd
  let buffer ← khValue m.inputBuffer hint
  if buffer.head = NULL then
    throw .nullPointer
  let inputBuffer ← khSetValue m.inputBuffer hint { buffer with tail := buffer.head + b.bufferTail }
  return ⟨inputBuffer, m.heap.set buffer.head b.buffer⟩

/-- A call, with what `getLocalBuffer` returns. -/
def bufferStep (c : NodeConfig) (m : BufferMemory T) :
    BufferCall c Key → Except Fault (BufferMemory T × Option BufferEntry)
  | .get fd block => do
    let (m, hint) ← m.getLocalBuffer c fd block
    let buffer ← khValue m.inputBuffer hint
    return (m, some buffer)
  | .destroy fd => do
    let m ← m.destroyLocalBuffer fd
    return (m, none)
  | .update fd b => do
    let m ← m.handle fd b
    return (m, none)

end Code

/-! ## The calls on a table that is a map -/

abbrev NodeMemory : Type := BufferMemory (Table Int BufferEntry)

section Map

variable {c : NodeConfig} {m : NodeMemory} {fd : Int}

/-- A block that `malloc` returns is not live, and only a handler that was given a buffer
    works on it. -/
def BufferMemory.Allowed (m : NodeMemory) : BufferCall c Int → Prop
  | .get _ block => ∀ address ∈ block, address ≠ NULL ∧ m.heap address = none
  | .destroy _ => True
  | .update fd _ => ∃ buffer ∈ m.inputBuffer fd, buffer.head ≠ NULL

instance BufferMemory.decidableAllowed (m : NodeMemory) : (call : BufferCall c Int) →
    Decidable (m.Allowed call)
  | .get _ _ => inferInstanceAs (Decidable (∀ _ ∈ _, _))
  | .destroy _ => inferInstanceAs (Decidable True)
  | .update _ _ => inferInstanceAs (Decidable (∃ _ ∈ _, _))

theorem bufferStep_get_of_some {buffer : BufferEntry} (h : m.inputBuffer fd = some buffer)
    (block : Option Nat) : bufferStep c m (.get fd block) = .ok (m, some buffer) := by
  simp only [bufferStep, BufferMemory.getLocalBuffer, Table.khGet_of_some h, Except.ok_bind]
  simp [khEnd, khValue, h]

theorem bufferStep_get_of_none (h : m.inputBuffer fd = none) (block : Option Nat) :
    bufferStep c m (.get fd block) =
      .ok (⟨m.inputBuffer.set fd ⟨(m.malloc c block).2, (m.malloc c block).2⟩,
        (m.malloc c block).1.heap⟩, some ⟨(m.malloc c block).2, (m.malloc c block).2⟩) := by
  simp only [bufferStep, BufferMemory.getLocalBuffer, Table.khGet_of_none h, Table.khPut_of_none h,
    Except.ok_bind]
  cases block <;> simp [khEnd, khSetValue, khValue, BufferMemory.malloc]

theorem bufferStep_destroy_of_none (h : m.inputBuffer fd = none) :
    bufferStep c m (.destroy fd) = .ok (m, none) := by
  simp only [bufferStep, BufferMemory.destroyLocalBuffer, Table.khGet_of_none h, Except.ok_bind]
  rfl

theorem bufferStep_destroy_of_null {buffer : BufferEntry} (h : m.inputBuffer fd = some buffer)
    (hnull : buffer.head = NULL) :
    bufferStep c m (.destroy fd) =
      .ok (⟨m.inputBuffer.set fd ⟨NULL, NULL⟩, m.heap⟩, none) := by
  simp only [bufferStep, BufferMemory.destroyLocalBuffer, Table.khGet_of_some h,
    Table.khValue_of_some h, Except.ok_bind, BufferMemory.free, if_pos hnull]
  simp [khEnd, khSetValue, h]

theorem bufferStep_destroy_of_live {buffer : BufferEntry} (h : m.inputBuffer fd = some buffer)
    (hnull : buffer.head ≠ NULL) (hlive : (m.heap buffer.head).isSome) :
    bufferStep c m (.destroy fd) =
      .ok (⟨m.inputBuffer.set fd ⟨NULL, NULL⟩, m.heap.erase buffer.head⟩, none) := by
  simp only [bufferStep, BufferMemory.destroyLocalBuffer, Table.khGet_of_some h,
    Table.khValue_of_some h, Except.ok_bind, BufferMemory.free, if_neg hnull, if_pos hlive]
  simp [khEnd, khSetValue, h]

theorem bufferStep_update {buffer : BufferEntry} (h : m.inputBuffer fd = some buffer)
    (hnull : buffer.head ≠ NULL) (b : LocalBuffer c.bufferSize) :
    bufferStep c m (.update fd b) =
      .ok (⟨m.inputBuffer.set fd { buffer with tail := buffer.head + b.bufferTail },
        m.heap.set buffer.head b.buffer⟩, none) := by
  simp only [bufferStep, BufferMemory.handle, Table.khGet_of_some h, Table.khValue_of_some h,
    Except.ok_bind, if_neg hnull]
  simp [khSetValue, h]

/-! ## What the memory stands for -/

/-- The memory of a descriptor, as the map of buffers has it. -/
def BufferMemory.Shows (m : NodeMemory) (fd : Int) :
    Option (Option (LocalBuffer c.bufferSize)) → Prop
  | none => m.inputBuffer fd = none
  | some none => m.inputBuffer fd = some ⟨NULL, NULL⟩
  | some (some b) => ∃ head, head ≠ NULL ∧ m.inputBuffer fd = some ⟨head, head + b.bufferTail⟩ ∧
      m.heap head = some b.buffer

/-- The memory holds the buffers of a map, each in a block of its own. -/
structure HoldsBuffers (m : NodeMemory) (t : InputBuffer c) : Prop where
  shows : ∀ fd, m.Shows fd (t fd)
  separate : ∀ fd fd' buffer buffer', m.inputBuffer fd = some buffer →
    m.inputBuffer fd' = some buffer' → buffer.head = buffer'.head → buffer.head ≠ NULL → fd = fd'

variable {t : InputBuffer c}

/-- A pointer that is not null is to a block that is live. -/
theorem HoldsBuffers.live (h : HoldsBuffers m t) {buffer : BufferEntry}
    (hentry : m.inputBuffer fd = some buffer) (hnull : buffer.head ≠ NULL) :
    ∃ b, t fd = some (some b) ∧ buffer.tail = buffer.head + b.bufferTail ∧
      m.heap buffer.head = some b.buffer := by
  have hshows := h.shows fd
  cases hfd : t fd with
  | none =>
    rw [hfd, BufferMemory.Shows, hentry] at hshows
    cases hshows
  | some x =>
    rw [hfd] at hshows
    cases x with
    | none =>
      rw [BufferMemory.Shows, hentry] at hshows
      cases hshows
      exact absurd rfl hnull
    | some b =>
      obtain ⟨head, -, hentry', hheap⟩ := hshows
      rw [hentry] at hentry'
      cases hentry'
      exact ⟨b, rfl, rfl, hheap⟩

/-- The entry of a descriptor is replaced, and a block that no other descriptor has. -/
theorem HoldsBuffers.set (h : HoldsBuffers m t) {entry : BufferEntry}
    {heap : Table Nat (List UInt8)} {address : Nat} {x : Option (LocalBuffer c.bufferSize)}
    (hheap : ∀ address', address' ≠ address → heap address' = m.heap address')
    (hother : ∀ fd' ≠ fd, ∀ buffer, m.inputBuffer fd' = some buffer → buffer.head ≠ NULL →
      buffer.head ≠ address)
    (hentry : entry.head = NULL ∨ entry.head = address)
    (hshows : BufferMemory.Shows ⟨m.inputBuffer.set fd entry, heap⟩ fd (some x)) :
    HoldsBuffers ⟨m.inputBuffer.set fd entry, heap⟩ (t.set fd x) := by
  constructor
  · intro fd'
    by_cases hfd : fd' = fd
    · rw [hfd, Table.set_self]
      exact hshows
    · have hold := h.shows fd'
      rw [Table.set_of_ne hfd]
      cases ht : t fd' with
      | none =>
        rw [ht] at hold
        exact (Table.set_of_ne hfd ..).trans hold
      | some x =>
        rw [ht] at hold
        cases x with
        | none => exact (Table.set_of_ne hfd ..).trans hold
        | some b =>
          obtain ⟨head, hnull, hentry', hblock⟩ := hold
          refine ⟨head, hnull, (Table.set_of_ne hfd ..).trans hentry', ?_⟩
          rw [← hblock]
          exact hheap head (hother fd' hfd _ hentry' hnull)
  · intro fd₁ fd₂ buffer₁ buffer₂ h₁ h₂ heq hnull
    dsimp only at h₁ h₂
    rw [Table.set_apply] at h₁ h₂
    split at h₁ <;> split at h₂
    · rename_i heq₁ heq₂
      rw [heq₁, heq₂]
    · rename_i heq₁ hne₂
      cases h₁
      rcases hentry with hzero | haddress
      · exact absurd hzero hnull
      · exact absurd (heq.symm.trans haddress) (hother fd₂ hne₂ _ h₂ (heq ▸ hnull))
    · rename_i hne₁ heq₂
      cases h₂
      rcases hentry with hzero | haddress
      · exact absurd (heq.trans hzero) hnull
      · exact absurd (heq.trans haddress) (hother fd₁ hne₁ _ h₁ hnull)
    · exact h.separate fd₁ fd₂ buffer₁ buffer₂ h₁ h₂ heq hnull

/-- What a call makes of the map of buffers. -/
def entriesAfter (t : InputBuffer c) : BufferCall c Int → InputBuffer c
  | .get fd (some _) => (getLocalBuffer c fd t).1
  | .get fd none => if t fd = none then t.set fd none else t
  | .destroy fd => destroyLocalBuffer c fd t
  | .update fd b => t.set fd (some b)

/-- An entry is not made again. -/
theorem entriesAfter_get_of_some {x : Option (LocalBuffer c.bufferSize)} (hfd : t fd = some x)
    (block : Option Nat) : entriesAfter t (.get fd block) = t := by
  cases block with
  | none =>
    rw [entriesAfter, if_neg]
    rw [hfd]
    exact Option.some_ne_none x
  | some address => rw [entriesAfter, getLocalBuffer, hfd]

theorem entriesAfter_destroy (t : InputBuffer c) (fd : Int) :
    entriesAfter t (.destroy fd) = if (t fd).isSome then t.set fd none else t := rfl

section Step

variable (h : HoldsBuffers m t)
include h

/-- A block that is not live belongs to no descriptor. -/
theorem HoldsBuffers.fresh {address : Nat} (haddress : address = NULL ∨ m.heap address = none)
    {buffer : BufferEntry} (hentry : m.inputBuffer fd = some buffer) (hnull : buffer.head ≠ NULL) :
    buffer.head ≠ address := by
  rintro rfl
  obtain ⟨b, -, -, hblock⟩ := h.live hentry hnull
  rcases haddress with hzero | hfree
  · exact hnull hzero
  · rw [hfree] at hblock
    cases hblock

/-- A descriptor has an entry just if the map has one. -/
theorem HoldsBuffers.entry_of_some {x : Option (LocalBuffer c.bufferSize)} (hfd : t fd = some x) :
    ∃ buffer, m.inputBuffer fd = some buffer := by
  have hshows := h.shows fd
  rw [hfd] at hshows
  cases x with
  | none => exact ⟨_, hshows⟩
  | some b =>
    obtain ⟨head, -, hentry, -⟩ := hshows
    exact ⟨_, hentry⟩

theorem HoldsBuffers.entry_of_none (hfd : t fd = none) : m.inputBuffer fd = none := by
  have hshows := h.shows fd
  rwa [hfd] at hshows

theorem HoldsBuffers.get {block : Option Nat} (hallowed : m.Allowed (.get (c := c) fd block)) :
    ∃ m', bufferStep c m (.get fd block) = .ok (m', m'.inputBuffer fd) ∧
      HoldsBuffers m' (entriesAfter t (.get fd block)) := by
  cases hfd : t fd with
  | none =>
    let head := (m.malloc c block).2
    refine ⟨⟨m.inputBuffer.set fd ⟨head, head⟩, (m.malloc c block).1.heap⟩, ?_, ?_⟩
    · dsimp only
      rw [Table.set_self]
      exact bufferStep_get_of_none (h.entry_of_none hfd) block
    cases block with
    | none =>
      rw [entriesAfter, if_pos hfd]
      exact h.set (fun _ _ => rfl) (fun _ _ _ hentry hnull => hnull) (.inl rfl) (Table.set_self ..)
    | some address =>
      obtain ⟨hnull, hfree⟩ := hallowed address rfl
      rw [entriesAfter, getLocalBuffer, hfd]
      exact h.set (fun _ hne => Table.set_of_ne hne ..) (fun _ _ _ => h.fresh (.inr hfree))
        (.inr rfl) ⟨address, hnull, Table.set_self .., Table.set_self ..⟩
  | some x =>
    obtain ⟨buffer, hentry⟩ := h.entry_of_some hfd
    rw [entriesAfter_get_of_some hfd]
    exact ⟨m, hentry ▸ bufferStep_get_of_some hentry block, h⟩

theorem HoldsBuffers.destroy (fd : Int) :
    ∃ m', bufferStep c m (.destroy fd) = .ok (m', none) ∧
      HoldsBuffers m' (entriesAfter t (.destroy fd)) := by
  have hshows := h.shows fd
  cases hfd : t fd with
  | none =>
    rw [entriesAfter, destroyLocalBuffer, hfd]
    exact ⟨m, bufferStep_destroy_of_none (h.entry_of_none hfd), h⟩
  | some x =>
    rw [entriesAfter, destroyLocalBuffer, hfd]
    rw [hfd] at hshows
    cases x with
    | none =>
      refine ⟨_, bufferStep_destroy_of_null hshows rfl, ?_⟩
      exact h.set (fun _ _ => rfl) (fun _ _ _ _ hnull => hnull) (.inl rfl) (Table.set_self ..)
    | some b =>
      obtain ⟨head, hnull, hentry, hblock⟩ := hshows
      have hlive : (m.heap head).isSome := by
        rw [hblock]
        rfl
      refine ⟨_, bufferStep_destroy_of_live hentry hnull hlive, ?_⟩
      refine h.set (fun _ hne => Table.erase_of_ne hne ..) ?_ (.inl rfl) (Table.set_self ..)
      intro fd' hne buffer hentry' hnull' heq
      exact hne (h.separate fd' fd _ _ hentry' hentry heq hnull')

theorem HoldsBuffers.update {b : LocalBuffer c.bufferSize} (hallowed : m.Allowed (.update fd b)) :
    ∃ m', bufferStep c m (.update fd b) = .ok (m', none) ∧
      HoldsBuffers m' (entriesAfter t (.update fd b)) := by
  obtain ⟨buffer, hentry, hnull⟩ := hallowed
  refine ⟨_, bufferStep_update hentry hnull b, ?_⟩
  refine h.set (fun _ hne => Table.set_of_ne hne ..) ?_ (.inr rfl)
    ⟨buffer.head, hnull, Table.set_self .., Table.set_self ..⟩
  intro fd' hne buffer' hentry' hnull' heq
  exact hne (h.separate fd' fd _ _ hentry' hentry heq hnull')

/-- The memory follows the map of buffers. -/
theorem HoldsBuffers.step {call : BufferCall c Int} (hallowed : m.Allowed call) :
    ∃ m' o, bufferStep c m call = .ok (m', o) ∧ HoldsBuffers m' (entriesAfter t call) := by
  cases call with
  | get fd block =>
    obtain ⟨m', hstep, hholds⟩ := h.get hallowed
    exact ⟨m', _, hstep, hholds⟩
  | destroy fd =>
    obtain ⟨m', hstep, hholds⟩ := h.destroy fd
    exact ⟨m', _, hstep, hholds⟩
  | update fd b =>
    obtain ⟨m', hstep, hholds⟩ := h.update hallowed
    exact ⟨m', _, hstep, hholds⟩

end Step

/-- The bytes that a descriptor has in its buffer, if there is one. -/
def BufferMemory.contents (m : NodeMemory) (fd : Int) : Option (List UInt8) := do
  let buffer ← m.inputBuffer fd
  if buffer.head = NULL then
    none
  let block ← m.heap buffer.head
  return block.take (buffer.tail - buffer.head)

theorem HoldsBuffers.contents (h : HoldsBuffers m t) (fd : Int) :
    m.contents fd = (t fd).join.map LocalBuffer.window := by
  have hshows := h.shows fd
  cases hfd : t fd with
  | none => simp [BufferMemory.contents, h.entry_of_none hfd]
  | some x =>
    rw [hfd] at hshows
    cases x with
    | none =>
      rw [BufferMemory.Shows] at hshows
      simp [BufferMemory.contents, hshows]
    | some b =>
      obtain ⟨head, hnull, hentry, hblock⟩ := hshows
      simp [BufferMemory.contents, hentry, hnull, hblock, LocalBuffer.window]

/-- A call for one descriptor leaves the entries of the others. -/
theorem entriesAfter_of_ne (t : InputBuffer c) {call : BufferCall c Int} (hne : fd ≠ call.fd) :
    entriesAfter t call fd = t fd := by
  cases call with
  | get fd' block =>
    cases block with
    | none =>
      rw [entriesAfter]
      split
      · exact Table.set_of_ne hne ..
      · rfl
    | some address =>
      rw [entriesAfter, getLocalBuffer]
      split
      · rfl
      · exact Table.set_of_ne hne ..
  | destroy fd' =>
    rw [entriesAfter, destroyLocalBuffer]
    split
    · exact Table.set_of_ne hne ..
    · rfl
  | update fd' b => exact Table.set_of_ne hne ..

/-! ## Histories -/

/-- A buffer was asked for. -/
def AskedFor (fd : Int) (calls : List (BufferCall c Int)) : Prop := ∃ block, .get fd block ∈ calls

/-- The buffer of a descriptor was destroyed after it had been asked for, or there was no
    block for it when that happened first. -/
def BufferLost (fd : Int) (calls : List (BufferCall c Int)) : Prop :=
  ∃ before block after, calls = before ++ .get fd block :: after ∧
    (.destroy fd ∈ after ∨ block = none ∧ ¬AskedFor fd before)

/-- What a call leaves in the buffer of a descriptor. -/
def bufferLeftAfter (fd : Int) (left : List UInt8) : BufferCall c Int → List UInt8
  | .get _ _ => left
  | .destroy fd' => if fd' = fd then [] else left
  | .update fd' b => if fd' = fd then b.window else left

/-- What the calls so far have left in the buffer of a descriptor: nothing if there is none
    or it was destroyed. -/
def bufferLeft (fd : Int) (calls : List (BufferCall c Int)) : List UInt8 :=
  calls.foldl (bufferLeftAfter fd) []

theorem askedFor_snoc (calls : List (BufferCall c Int)) (call : BufferCall c Int) :
    AskedFor fd (calls ++ [call]) ↔ AskedFor fd calls ∨ ∃ block, call = .get fd block := by
  simp only [AskedFor, List.mem_append, List.mem_singleton, exists_or, eq_comm]

theorem bufferLost_snoc (calls : List (BufferCall c Int)) (call : BufferCall c Int) :
    BufferLost fd (calls ++ [call]) ↔ BufferLost fd calls ∨
      (call = .destroy fd ∧ AskedFor fd calls) ∨ (call = .get fd none ∧ ¬AskedFor fd calls) := by
  constructor
  · rintro ⟨before, block, after, hcalls, hlost⟩
    rcases List.eq_nil_or_concat after with rfl | ⟨after, last, rfl⟩
    · obtain ⟨rfl, hcall⟩ := List.append_inj' hcalls rfl
      rcases hlost with hmem | ⟨rfl, hgot⟩
      · cases hmem
      · exact .inr (.inr ⟨List.singleton_inj.1 hcall, hgot⟩)
    · rw [List.concat_eq_append, ← List.cons_append, ← List.append_assoc] at hcalls
      obtain ⟨rfl, hcall⟩ := List.append_inj' hcalls rfl
      obtain rfl := List.singleton_inj.1 hcall
      rcases hlost with hmem | hfirst
      · rw [List.concat_eq_append, List.mem_append, List.mem_singleton] at hmem
        rcases hmem with hmem | hlast
        · exact .inl ⟨before, block, after, rfl, .inl hmem⟩
        · exact .inr (.inl ⟨hlast.symm, block, by simp⟩)
      · exact .inl ⟨before, block, after, rfl, .inr hfirst⟩
  · rintro (⟨before, block, after, rfl, hlost⟩ | ⟨rfl, block, hmem⟩ | ⟨rfl, hgot⟩)
    · refine ⟨before, block, after ++ [call], by simp, ?_⟩
      rcases hlost with hmem | hfirst
      · exact .inl (List.mem_append_left _ hmem)
      · exact .inr hfirst
    · obtain ⟨before, after, rfl⟩ := List.append_of_mem hmem
      exact ⟨before, block, after ++ [.destroy fd], by simp, .inl (by simp)⟩
    · exact ⟨calls, none, [], rfl, .inr ⟨rfl, hgot⟩⟩

theorem not_bufferLost_nil : ¬BufferLost fd ([] : List (BufferCall c Int)) := by
  rintro ⟨before, block, after, hcalls, -⟩
  simp at hcalls

theorem BufferLost.askedFor {calls : List (BufferCall c Int)} (h : BufferLost fd calls) :
    AskedFor fd calls := by
  obtain ⟨before, block, after, rfl, -⟩ := h
  exact ⟨block, by simp⟩

/-- What the entry of a descriptor tells of the calls so far. -/
def EntryRecords (calls : List (BufferCall c Int)) (fd : Int) :
    Option (Option (LocalBuffer c.bufferSize)) → Prop
  | none => ¬AskedFor fd calls ∧ bufferLeft fd calls = []
  | some none => BufferLost fd calls
  | some (some b) => AskedFor fd calls ∧ ¬BufferLost fd calls ∧ b.window = bufferLeft fd calls

/-- A call for one descriptor does not change what is recorded of the others. -/
theorem EntryRecords.snoc_of_ne {calls : List (BufferCall c Int)} {call : BufferCall c Int}
    (hne : fd ≠ call.fd) {x : Option (Option (LocalBuffer c.bufferSize))}
    (h : EntryRecords calls fd x) : EntryRecords (calls ++ [call]) fd x := by
  have hgot : AskedFor fd (calls ++ [call]) ↔ AskedFor fd calls := by
    rw [askedFor_snoc, or_iff_left]
    rintro ⟨block, rfl⟩
    exact hne rfl
  have hlost : BufferLost fd (calls ++ [call]) ↔ BufferLost fd calls := by
    rw [bufferLost_snoc, or_iff_left]
    rintro (⟨rfl, -⟩ | ⟨rfl, -⟩)
    · exact hne rfl
    · exact hne rfl
  have hleft : bufferLeft fd (calls ++ [call]) = bufferLeft fd calls := by
    rw [bufferLeft, List.foldl_append]
    cases call with
    | get => rfl
    | destroy fd' => exact if_neg (Ne.symm hne)
    | update fd' b => exact if_neg (Ne.symm hne)
  cases x with
  | none => exact ⟨mt hgot.1 h.1, hleft.trans h.2⟩
  | some x =>
    cases x with
    | none => exact hlost.2 h
    | some b => exact ⟨hgot.2 h.1, mt hlost.1 h.2.1, h.2.2.trans hleft.symm⟩

section Snoc

variable {calls : List (BufferCall c Int)}

theorem EntryRecords.get (h : EntryRecords calls fd (t fd)) (block : Option Nat) :
    EntryRecords (calls ++ [.get fd block]) fd (entriesAfter t (.get fd block) fd) := by
  have hgot : AskedFor fd (calls ++ [.get fd block]) := (askedFor_snoc calls _).2 (.inr ⟨block, rfl⟩)
  have hleft : bufferLeft fd (calls ++ [.get fd block]) = bufferLeft fd calls := by
    rw [bufferLeft, List.foldl_append]
    rfl
  cases hfd : t fd with
  | none =>
    rw [hfd] at h
    cases block with
    | none =>
      rw [entriesAfter, if_pos hfd, Table.set_self]
      exact (bufferLost_snoc calls _).2 (.inr (.inr ⟨rfl, h.1⟩))
    | some address =>
      rw [entriesAfter, getLocalBuffer, hfd]
      dsimp only
      rw [Table.set_self]
      refine ⟨hgot, ?_, ?_⟩
      · simp only [bufferLost_snoc, reduceCtorEq, false_and, or_false, BufferCall.get.injEq, and_false]
        exact fun hlost => h.1 hlost.askedFor
      · rw [c.window_newBuffer, hleft, h.2]
  | some x =>
    rw [entriesAfter_get_of_some hfd, hfd]
    rw [hfd] at h
    cases x with
    | none => exact (bufferLost_snoc calls _).2 (.inl h)
    | some b =>
      refine ⟨hgot, ?_, h.2.2.trans hleft.symm⟩
      simp [bufferLost_snoc, h.1, h.2.1]

theorem EntryRecords.destroy (h : EntryRecords calls fd (t fd)) :
    EntryRecords (calls ++ [.destroy fd]) fd (entriesAfter t (.destroy fd) fd) := by
  rw [entriesAfter_destroy]
  cases hfd : t fd with
  | none =>
    rw [hfd] at h
    rw [if_neg (by simp), hfd]
    refine ⟨by simp [askedFor_snoc, h.1], ?_⟩
    rw [bufferLeft, List.foldl_append]
    exact if_pos rfl
  | some x =>
    rw [hfd] at h
    have hgot : AskedFor fd calls := by
      cases x with
      | none => exact BufferLost.askedFor h
      | some b => exact h.1
    rw [if_pos (by simp), Table.set_self]
    exact (bufferLost_snoc calls _).2 (.inr (.inl ⟨rfl, hgot⟩))

theorem EntryRecords.update (h : EntryRecords calls fd (t fd)) {b' : LocalBuffer c.bufferSize}
    (hfd : t fd = some (some b')) (b : LocalBuffer c.bufferSize) :
    EntryRecords (calls ++ [.update fd b]) fd (entriesAfter t (.update fd b) fd) := by
  rw [hfd] at h
  rw [entriesAfter, Table.set_self]
  refine ⟨by simp [askedFor_snoc, h.1], by simp [bufferLost_snoc, h.2.1], ?_⟩
  rw [bufferLeft, List.foldl_append]
  exact (if_pos rfl).symm

/-- What a call records of its own descriptor. -/
theorem EntryRecords.snoc_self {call : BufferCall c Int}
    (hupdate : ∀ fd b, call = .update fd b → ∃ b', t fd = some (some b'))
    (h : EntryRecords calls call.fd (t call.fd)) :
    EntryRecords (calls ++ [call]) call.fd (entriesAfter t call call.fd) := by
  cases call with
  | get fd block => exact h.get block
  | destroy fd => exact h.destroy
  | update fd b =>
    obtain ⟨b', hfd⟩ := hupdate fd b rfl
    exact h.update hfd b

end Snoc

/-! ## Runs -/

theorem holdsBuffers_init :
    HoldsBuffers (BufferMemory.init : NodeMemory) (Table.empty : InputBuffer c) := by
  refine ⟨fun _ => rfl, fun _ _ _ _ hentry => ?_⟩
  cases hentry

/-- At every moment the memory holds the buffers that the calls so far have made. -/
theorem HoldsBuffers.run {tr : List (BufferCall c Int × Option BufferEntry)}
    (hrun : Machine.Run BufferMemory.Allowed (bufferStep c) (BufferMemory.init : NodeMemory) tr m) :
    ∃ t : InputBuffer c, HoldsBuffers m t ∧ ∀ fd, EntryRecords (tr.map Prod.fst) fd (t fd) := by
  induction hrun with
  | nil =>
    refine ⟨Table.empty, holdsBuffers_init, fun fd => ⟨?_, rfl⟩⟩
    rintro ⟨block, hmem⟩
    cases hmem
  | @snoc tr m m' call o _ hallowed hstep ih =>
    obtain ⟨t, hholds, hrecorded⟩ := ih
    obtain ⟨m'', o', hstep', hholds'⟩ := hholds.step hallowed
    rw [hstep] at hstep'
    cases hstep'
    refine ⟨_, hholds', fun fd => ?_⟩
    rw [List.map_append]
    by_cases hfd : fd = call.fd
    · rw [hfd]
      refine EntryRecords.snoc_self ?_ (hrecorded _)
      rintro fd b rfl
      obtain ⟨buffer, hentry, hnull⟩ := hallowed
      obtain ⟨b', hfd, -⟩ := hholds.live hentry hnull
      exact ⟨b', hfd⟩
    · rw [entriesAfter_of_ne t hfd]
      exact (hrecorded fd).snoc_of_ne hfd

/-- `getLocalBuffer` returns a buffer in a live block, which holds the bytes `left`. -/
def BufferMemory.GetsRightly (c : NodeConfig) (m : NodeMemory) (fd : Int) (block : Option Nat)
    (left : List UInt8) : Prop :=
  ∃ m' buffer bytes, bufferStep c m (.get fd block) = .ok (m', some buffer) ∧
    buffer.head ≠ NULL ∧ m'.heap buffer.head = some bytes ∧ bytes.length = c.bufferSize ∧
    buffer.head ≤ buffer.tail ∧ buffer.tail ≤ buffer.head + c.bufferSize ∧
    bytes.take (buffer.tail - buffer.head) = left

/-- A buffer that is asked for, by what the calls have recorded. -/
theorem HoldsBuffers.getsRightly_iff (h : HoldsBuffers m t) {calls : List (BufferCall c Int)}
    (hrecorded : ∀ fd, EntryRecords calls fd (t fd)) {block : Option Nat}
    (hallowed : m.Allowed (.get fd block : BufferCall c Int)) :
    m.GetsRightly c fd block (bufferLeft fd calls) ↔ ¬BufferLost fd (calls ++ [.get fd block]) := by
  obtain ⟨m', hstep, hholds⟩ := h.get hallowed
  have hafter := (hrecorded fd).get block
  have hshows := hholds.shows fd
  cases hfd : entriesAfter t (.get fd block) fd with
  | none =>
    rw [hfd] at hafter
    exact absurd ((askedFor_snoc calls _).2 (.inr ⟨block, rfl⟩)) hafter.1
  | some x =>
    rw [hfd] at hafter hshows
    cases x with
    | none =>
      refine iff_of_false ?_ (not_not_intro hafter)
      rintro ⟨m'', buffer, bytes, hstep', hnull, -⟩
      rw [hstep, show m'.inputBuffer fd = some ⟨NULL, NULL⟩ from hshows] at hstep'
      cases hstep'
      exact hnull rfl
    | some b =>
      obtain ⟨head, hnull, hentry, hblock⟩ := hshows
      refine iff_of_true ⟨m', _, b.buffer, hentry ▸ hstep, hnull, hblock, b.length_buffer,
        Nat.le_add_right .., Nat.add_le_add_left b.bufferTail_le head, ?_⟩ hafter.2.1
      dsimp only
      rw [Nat.add_sub_cancel_left]
      refine hafter.2.2.trans ?_
      rw [bufferLeft, List.foldl_append]
      rfl

/-- In every run each call is carried out and leaves the buffers of the other descriptors as
    they are. `getLocalBuffer` returns what it should just if the buffer of its descriptor
    was never destroyed after it had been asked for, and `malloc` had a block for it. -/
theorem local_buffers_iff {tr : List (BufferCall c Int × Option BufferEntry)}
    (hrun : Machine.Run BufferMemory.Allowed (bufferStep c) (BufferMemory.init : NodeMemory) tr m) :
    (∀ call : BufferCall c Int, m.Allowed call → ∃ m' o, bufferStep c m call = .ok (m', o) ∧
        ∀ fd, fd ≠ call.fd → m'.contents fd = m.contents fd) ∧
      ∀ fd block, m.Allowed (.get fd block : BufferCall c Int) →
        (m.GetsRightly c fd block (bufferLeft fd (tr.map Prod.fst)) ↔
          ¬BufferLost fd (tr.map Prod.fst ++ [.get fd block])) := by
  obtain ⟨t, hholds, hrecorded⟩ := HoldsBuffers.run hrun
  refine ⟨fun call hallowed => ?_, fun fd block hallowed =>
    hholds.getsRightly_iff hrecorded hallowed⟩
  obtain ⟨m', o, hstep, hholds'⟩ := hholds.step hallowed
  refine ⟨m', o, hstep, fun fd hne => ?_⟩
  rw [hholds'.contents fd, hholds.contents fd, entriesAfter_of_ne t hne]

end Map

def smallBuffers : NodeConfig where
  order := .little
  networkMtu := 3
  malloc := fun _ => 0
  heap := 0x1000
  networkMtu_pos := by decide
  networkMtu_lt := by decide

/-- What a handler leaves. -/
def smallUpdate : LocalBuffer smallBuffers.bufferSize where
  buffer := 0x41 :: List.replicate 59 0
  bufferTail := 1
  length_buffer := by decide
  bufferTail_le := by decide

/-- The memory with a buffer for the descriptor 5. -/
def smallMemory : NodeMemory where
  inputBuffer := Table.empty.set 5 ⟨0x1000, 0x1000⟩
  heap := Table.empty.set 0x1000 smallBuffers.newBuffer.buffer

theorem smallMemory_run : Machine.Run BufferMemory.Allowed (bufferStep smallBuffers)
    (BufferMemory.init : NodeMemory) [(.get 5 (some 0x1000), some ⟨0x1000, 0x1000⟩)] smallMemory :=
  .single (by decide) (bufferStep_get_of_none rfl _)

/-- The buffer of a descriptor is asked for again when it holds a byte. -/
theorem local_buffers_again :
    ∃ tr m, Machine.Run BufferMemory.Allowed (bufferStep smallBuffers)
        (BufferMemory.init : NodeMemory) tr m ∧
      tr.map Prod.fst = [.get 5 (some 0x1000), .update 5 smallUpdate] ∧
      m.GetsRightly smallBuffers 5 none [0x41] := by
  have hallowed : smallMemory.Allowed (.update 5 smallUpdate) := by decide
  have hrun := smallMemory_run.snoc hallowed (bufferStep_update rfl (by decide) smallUpdate)
  refine ⟨_, _, hrun, rfl, ((local_buffers_iff hrun).2 5 none nofun).2 ?_⟩
  show ¬BufferLost 5
    ([] ++ [BufferCall.get 5 (some 0x1000)] ++ [.update 5 smallUpdate] ++ [.get 5 none])
  simp only [bufferLost_snoc, askedFor_snoc, not_bufferLost_nil]
  simp

/-- A descriptor is used, destroyed and used again: the pointers that `getLocalBuffer`
    returns are null, on the map and on the table of khash as it is written. -/
theorem local_buffers_fail :
    (∃ tr m, Machine.Run BufferMemory.Allowed (bufferStep smallBuffers)
        (BufferMemory.init : NodeMemory) tr m ∧
      tr.map Prod.fst = [.get 5 (some 0x1000), .destroy 5] ∧
      m.Allowed (.get 5 (some 0x1000) : BufferCall smallBuffers Int) ∧
      ¬m.GetsRightly smallBuffers 5 (some 0x1000) (bufferLeft 5 (tr.map Prod.fst))) ∧
    ((Machine.exec (bufferStep smallBuffers)
      (BufferMemory.init : BufferMemory (Khash true BufferEntry))
      [.get 5 (some 0x1000), .destroy 5, .get 5 (some 0x1000)]).toOption.map
        fun r => r.2.map Prod.snd) = some [some ⟨0x1000, 0x1000⟩, none, some ⟨NULL, NULL⟩] := by
  constructor
  · have hallowed : smallMemory.Allowed (.destroy 5 : BufferCall smallBuffers Int) := trivial
    have hrun := smallMemory_run.snoc hallowed
      (bufferStep_destroy_of_live rfl (by decide) (by decide))
    refine ⟨_, _, hrun, rfl, by decide, ?_⟩
    rintro ⟨m', buffer, bytes, hstep, hnull, -⟩
    rw [bufferStep_get_of_some rfl] at hstep
    cases hstep
    exact hnull rfl
  · decide +kernel
