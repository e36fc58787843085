-- SUMMARY: ForwardTable.c: lists of edges under one lock for the table and one for each entry, and when a call leaves all of them free.
import GraphIPC.Base.Machine
import GraphIPC.Router.HandlePacket
import Mathlib.Data.List.Nodup

/-!
# The forward table

`ForwardTable.c` keeps the edges that leave a source in a list of their own, under
the lock `listLock` of its entry. All entries lie in one table, under the lock
`forward_table_lock`. The table of `IndexTable.c` is taken as a finite map, and
`malloc` as one that does not fail. The model is run by one thread: a lock that is
held when it is wanted is never released.
-/

/-- `edge_t`. An edge is told from others by its place in memory, `ref`. -/
structure Edge where
  ref : Nat
  target : UInt32
  deriving DecidableEq, Repr

/-- `forward_t`; `listLock` tells whether the lock is held. -/
structure ForwardEntry where
  forwardPolicy : Int
  edgeList : List Edge
  listLock : Bool
  roundRobinRef : Option Nat
  deriving DecidableEq, Repr

/-- The variables of the module, and the next free place in memory. -/
structure ForwardTable where
  forwardTable : Table UInt32 ForwardEntry
  forwardTableLock : Bool
  nextRef : Nat

/-- `pthread_mutex_lock` on a default mutex. -/
def pthreadMutexLock (held : Bool) : Except Fault Bool :=
  if held then .error .blocked else .ok true

/-- `pthread_mutex_unlock` -/
def pthreadMutexUnlock (held : Bool) : Except Fault Bool :=
  if held then .ok false else .error .notHeld

/-- `find_edge_to` -/
def findEdgeTo (head : List Edge) (target : UInt32) : Option Edge :=
  head.find? fun edge => edge.target = target

/-- `prepend_edge` -/
def prependEdge (entry : ForwardEntry) (edge : Edge) : Except Fault ForwardEntry := do
  let listLock ← pthreadMutexLock entry.listLock
  let entry := { entry with listLock, edgeList := edge :: entry.edgeList }
  let listLock ← pthreadMutexUnlock entry.listLock
  return { entry with listLock }

/-- The list without the edge at `ref`, if that edge is in it. -/
def unlinkEdge (ref : Nat) : List Edge → Option (List Edge)
  | [] => none
  | edge :: rest => if edge.ref = ref then some rest else (unlinkEdge ref rest).map (edge :: ·)

/-- `remove_edge`; the edge itself is not freed. -/
def removeEdge (entry : ForwardEntry) (edge : Edge) : Except Fault (ForwardEntry × Bool) := do
  let listLock ← pthreadMutexLock entry.listLock
  let roundRobinRef := if entry.roundRobinRef = some edge.ref then none else entry.roundRobinRef
  let entry := { entry with listLock, roundRobinRef }
  match unlinkEdge edge.ref entry.edgeList with
  | some edgeList =>
    let listLock ← pthreadMutexUnlock entry.listLock
    return ({ entry with edgeList, listLock }, true)
  | none =>
    let listLock ← pthreadMutexUnlock entry.listLock
    return ({ entry with listLock }, false)

/-- `forward_table_get_iterator` -/
def forwardTableGetIterator (source : UInt32) (table : ForwardTable) :
    Except Fault (ForwardTable × List Edge) := do
  match table.forwardTable source with
  | none => return (table, [])
  | some entry =>
    let listLock ← pthreadMutexLock entry.listLock
    let forwardTable := table.forwardTable.set source { entry with listLock }
    return ({ table with forwardTable }, entry.edgeList)

/-- `forward_table_release_iterator` -/
def forwardTableReleaseIterator (source : UInt32) (table : ForwardTable) :
    Except Fault ForwardTable := do
  match table.forwardTable source with
  | none => return table
  | some entry =>
    let listLock ← pthreadMutexUnlock entry.listLock
    return { table with forwardTable := table.forwardTable.set source { entry with listLock } }

/-- `forward_table_init` -/
def forwardTableInit : ForwardTable :=
  { forwardTable := Table.empty, forwardTableLock := false, nextRef := 0 }

/-- The entry that `forward_table_add_edge` makes for a new source. -/
def newForwardEntry : ForwardEntry :=
  { forwardPolicy := GNW_POLICY_BROADCAST, edgeList := [], listLock := false, roundRobinRef := none }

/-- `forward_table_add_edge` -/
def forwardTableAddEdge (source target : UInt32) (table : ForwardTable) :
    Except Fault ForwardTable := do
  let forwardTableLock ← pthreadMutexLock table.forwardTableLock
  let entry := (table.forwardTable source).getD newForwardEntry
  let edge := { ref := table.nextRef, target }
  let entry ← prependEdge entry edge
  let forwardTable := table.forwardTable.set source entry
  let forwardTableLock ← pthreadMutexUnlock forwardTableLock
  return { forwardTable, forwardTableLock, nextRef := table.nextRef + 1 }

/-- `forward_table_remove_edge` -/
def forwardTableRemoveEdge (source target : UInt32) (table : ForwardTable) :
    Except Fault ForwardTable := do
  let forwardTableLock ← pthreadMutexLock table.forwardTableLock
  match table.forwardTable source with
  | none =>
    let forwardTableLock ← pthreadMutexUnlock forwardTableLock
    return { table with forwardTableLock }
  | some entry =>
    match findEdgeTo entry.edgeList target with
    | none =>
      let forwardTableLock ← pthreadMutexUnlock forwardTableLock
      return { table with forwardTableLock }
    | some edge =>
      let (entry, _) ← removeEdge entry edge
      -- this lock is not released, whether the entry is pruned or not
      let listLock ← pthreadMutexLock entry.listLock
      let entry := { entry with listLock }
      let forwardTable :=
        if entry.edgeList = [] then table.forwardTable.erase source
        else table.forwardTable.set source entry
      let forwardTableLock ← pthreadMutexUnlock forwardTableLock
      return { table with forwardTable, forwardTableLock }

/-- The loop of `forward_table_remove`. -/
def removeEdges : Nat → ForwardEntry → Except Fault ForwardEntry
  | rounds, entry =>
    match entry.edgeList, rounds with
    | [], _ => .ok entry
    | _ :: _, 0 => .error .unfinished
    | edge :: _, rounds + 1 => do
      let (entry, _) ← removeEdge entry edge
      removeEdges rounds entry

/-- `forward_table_remove` -/
def forwardTableRemove (source : UInt32) (table : ForwardTable) : Except Fault ForwardTable := do
  let forwardTableLock ← pthreadMutexLock table.forwardTableLock
  match table.forwardTable source with
  | none => throw .nullPointer
  | some entry =>
    let listLock ← pthreadMutexLock entry.listLock
    let _ ← removeEdges entry.edgeList.length { entry with listLock }
    let forwardTable := table.forwardTable.erase source
    let forwardTableLock ← pthreadMutexUnlock forwardTableLock
    return { table with forwardTable, forwardTableLock }

/-- A call, or the two around the use of an iterator. -/
inductive ForwardCall where
  | addEdge (source target : UInt32)
  | removeEdge (source target : UInt32)
  | remove (source : UInt32)
  | iterate (source : UInt32)
  deriving DecidableEq, Repr

/-- What an iterator hands out is the output of a step. -/
def forwardStep (table : ForwardTable) : ForwardCall → Except Fault (ForwardTable × List Edge)
  | .addEdge source target => do
    let table ← forwardTableAddEdge source target table
    return (table, [])
  | .removeEdge source target => do
    let table ← forwardTableRemoveEdge source target table
    return (table, [])
  | .remove source => do
    let table ← forwardTableRemove source table
    return (table, [])
  | .iterate source => do
    let (table, edges) ← forwardTableGetIterator source table
    let table ← forwardTableReleaseIterator source table
    return (table, edges)

/-- No lock is held. -/
structure ForwardTable.Released (table : ForwardTable) : Prop where
  forwardTableLock : table.forwardTableLock = false
  listLock : ∀ source entry, table.forwardTable source = some entry → entry.listLock = false

/-! ## The edges -/

/-- The targets of every source, the last one added in front. -/
abbrev Targets : Type := UInt32 → List UInt32

/-- What a call is to do to the edges. -/
def Targets.after (targets : Targets) : ForwardCall → Targets
  | .addEdge source target => Function.update targets source (target :: targets source)
  | .removeEdge source target =>
    Function.update targets source ((targets source).erase target)
  | .remove source => Function.update targets source []
  | .iterate _ => targets

/-- The calls after which no lock is held: no entry is removed as a whole, and an
    edge only if it is not there or the only one of its source. -/
def Targets.Settled (targets : Targets) : ForwardCall → Prop
  | .addEdge _ _ => True
  | .removeEdge source target => target ∈ targets source → targets source = [target]
  | .remove _ => False
  | .iterate _ => True

section Entries

variable {entry : ForwardEntry}

theorem prependEdge_eq (h : entry.listLock = false) (edge : Edge) :
    prependEdge entry edge = .ok { entry with edgeList := edge :: entry.edgeList } := by
  obtain ⟨forwardPolicy, edgeList, listLock, roundRobinRef⟩ := entry
  obtain rfl : listLock = false := h
  rfl

/-- An edge is found just if its target is in the list. -/
theorem findEdgeTo_eq_none_iff {head : List Edge} {target : UInt32} :
    findEdgeTo head target = none ↔ target ∉ head.map Edge.target := by
  unfold findEdgeTo
  simp

/-- Taking out the edge that was found takes out the first with its target. -/
theorem unlinkEdge_of_findEdgeTo {edges : List Edge} {target : UInt32} {edge : Edge}
    (hnodup : (edges.map Edge.ref).Nodup) (h : findEdgeTo edges target = some edge) :
    ∃ rest, unlinkEdge edge.ref edges = some rest ∧
      rest.map Edge.target = (edges.map Edge.target).erase target ∧ rest.Sublist edges := by
  induction edges with
  | nil => cases h
  | cons first edges ih =>
    obtain ⟨hfirst, hrest⟩ := List.nodup_cons.1 hnodup
    unfold findEdgeTo at h
    rw [List.find?_cons] at h
    split at h
    · rename_i htarget
      cases h
      have htarget : edge.target = target := by simpa using htarget
      refine ⟨edges, by rw [unlinkEdge, if_pos rfl], ?_, List.sublist_cons_self ..⟩
      rw [List.map_cons, htarget, List.erase_cons_head]
    · rename_i htarget
      have htarget : first.target ≠ target := by simpa using htarget
      obtain ⟨rest, hunlink, hmap, hsub⟩ := ih hrest h
      have hmem : edge.ref ∈ edges.map Edge.ref := List.mem_map_of_mem (List.mem_of_find?_eq_some h)
      have hne : first.ref ≠ edge.ref := fun heq => hfirst (heq ▸ hmem)
      refine ⟨first :: rest, ?_, ?_, hsub.cons_cons first⟩
      · rw [unlinkEdge, if_neg hne, hunlink]
        rfl
      · rw [List.map_cons, List.map_cons, hmap, List.erase_cons_tail (by simpa using htarget)]

/-- Removing an edge that was found, from an entry whose lock is free. -/
theorem removeEdge_of_findEdgeTo {target : UInt32} {edge : Edge} (h : entry.listLock = false)
    (hnodup : (entry.edgeList.map Edge.ref).Nodup)
    (hfind : findEdgeTo entry.edgeList target = some edge) :
    ∃ entry', removeEdge entry edge = .ok (entry', true) ∧ entry'.listLock = false ∧
      entry'.edgeList.map Edge.target = (entry.edgeList.map Edge.target).erase target := by
  obtain ⟨rest, hunlink, hmap, -⟩ := unlinkEdge_of_findEdgeTo hnodup hfind
  refine ⟨{ entry with
    edgeList := rest
    roundRobinRef := if entry.roundRobinRef = some edge.ref then none else entry.roundRobinRef },
    ?_, h, hmap⟩
  unfold removeEdge pthreadMutexLock
  rw [h]
  dsimp only [Except.ok_bind]
  rw [hunlink]
  rfl

end Entries

/-! ## What each call does -/

/-- The entry holds the edges to `targets`, made in front of `nextRef`, and its
    lock is free. -/
structure ForwardEntry.Holds (entry : ForwardEntry) (targets : List UInt32) (nextRef : Nat) :
    Prop where
  listLock : entry.listLock = false
  targets : entry.edgeList.map Edge.target = targets
  used : entry.edgeList ≠ []
  nodup : (entry.edgeList.map Edge.ref).Nodup
  fresh : ∀ edge ∈ entry.edgeList, edge.ref < nextRef

theorem ForwardEntry.Holds.mono {entry : ForwardEntry} {targets : List UInt32} {n m : Nat}
    (h : entry.Holds targets n) (hle : n ≤ m) : entry.Holds targets m :=
  ⟨h.listLock, h.targets, h.used, h.nodup, fun edge hedge =>
    Nat.lt_of_lt_of_le (h.fresh edge hedge) hle⟩

/-- The table holds the edges of `targets`, and no lock is held. -/
structure ForwardTable.Holds (table : ForwardTable) (targets : Targets) : Prop where
  forwardTableLock : table.forwardTableLock = false
  absent : ∀ source, table.forwardTable source = none → targets source = []
  present : ∀ source entry, table.forwardTable source = some entry →
    entry.Holds (targets source) table.nextRef

theorem ForwardTable.Holds.init : forwardTableInit.Holds fun _ => [] := by
  refine ⟨rfl, fun _ _ => rfl, fun source entry hentry => ?_⟩
  cases hentry

section Calls

variable {table : ForwardTable} {targets : Targets} (h : table.Holds targets)
include h

theorem ForwardTable.Holds.released : table.Released :=
  ⟨h.forwardTableLock, fun source entry hentry => (h.present source entry hentry).listLock⟩

/-- The entry of a source is replaced, whether it was there or not. -/
theorem ForwardTable.Holds.set {source : UInt32} {entry : ForwardEntry} {new : List UInt32}
    {nextRef : Nat} (hnext : table.nextRef ≤ nextRef) (hentry : entry.Holds new nextRef) :
    ForwardTable.Holds { table with forwardTable := table.forwardTable.set source entry, nextRef }
      (Function.update targets source new) := by
  refine ⟨h.forwardTableLock, fun source' hnone => ?_, fun source' entry' hsome => ?_⟩
  · dsimp only at hnone
    rw [Table.set_apply] at hnone
    split at hnone
    · cases hnone
    · rename_i hne
      rw [Function.update_of_ne hne]
      exact h.absent _ hnone
  · dsimp only at hsome ⊢
    rw [Table.set_apply] at hsome
    split at hsome
    · rename_i heq
      cases hsome
      rw [heq, Function.update_self]
      exact hentry
    · rename_i hne
      rw [Function.update_of_ne hne]
      exact (h.present _ _ hsome).mono hnext

/-- The entry of a source is removed. -/
theorem ForwardTable.Holds.erase (source : UInt32) :
    ForwardTable.Holds { table with forwardTable := table.forwardTable.erase source }
      (Function.update targets source []) := by
  refine ⟨h.forwardTableLock, fun source' hnone => ?_, fun source' entry' hsome => ?_⟩
  · dsimp only at hnone
    by_cases heq : source' = source
    · rw [heq, Function.update_self]
    · rw [Table.erase_of_ne heq] at hnone
      rw [Function.update_of_ne heq]
      exact h.absent _ hnone
  · dsimp only at hsome ⊢
    rw [Table.erase_apply] at hsome
    split at hsome
    · cases hsome
    · rename_i hne
      rw [Function.update_of_ne hne]
      exact h.present _ _ hsome

/-- Taking a lock that is free, and giving it back. -/
theorem ForwardTable.Holds.lock_eq : pthreadMutexLock table.forwardTableLock = .ok true := by
  rw [h.forwardTableLock]
  rfl

theorem ForwardTable.Holds.unlock_eq :
    ({ table with forwardTableLock := false } : ForwardTable) = table := by
  obtain ⟨forwardTable, forwardTableLock, nextRef⟩ := table
  obtain rfl : forwardTableLock = false := h.forwardTableLock
  rfl

theorem ForwardTable.Holds.addEdge (source target : UInt32) :
    ∃ table', forwardTableAddEdge source target table = .ok table' ∧
      table'.Holds (targets.after (.addEdge source target)) := by
  let entry := (table.forwardTable source).getD newForwardEntry
  have hlock : entry.listLock = false := by
    cases hentry : table.forwardTable source with
    | none => simp [entry, hentry, newForwardEntry]
    | some old => simpa [entry, hentry] using (h.present _ _ hentry).listLock
  have htargets : entry.edgeList.map Edge.target = targets source := by
    cases hentry : table.forwardTable source with
    | none => simp [entry, hentry, newForwardEntry, h.absent _ hentry]
    | some old => simpa [entry, hentry] using (h.present _ _ hentry).targets
  have hnodup : (entry.edgeList.map Edge.ref).Nodup := by
    cases hentry : table.forwardTable source with
    | none => simp [entry, hentry, newForwardEntry]
    | some old => simpa [entry, hentry] using (h.present _ _ hentry).nodup
  have hfresh : ∀ edge ∈ entry.edgeList, edge.ref < table.nextRef := by
    cases hentry : table.forwardTable source with
    | none => simp [entry, hentry, newForwardEntry]
    | some old => simpa [entry, hentry] using (h.present _ _ hentry).fresh
  have hnew : ForwardEntry.Holds
      { entry with edgeList := { ref := table.nextRef, target } :: entry.edgeList }
      (target :: targets source) (table.nextRef + 1) := by
    refine ⟨hlock, ?_, List.cons_ne_nil _ _, ?_, ?_⟩
    · rw [List.map_cons, htargets]
    · rw [List.map_cons, List.nodup_cons]
      refine ⟨fun hmem => ?_, hnodup⟩
      obtain ⟨edge, hedge, href⟩ := List.mem_map.1 hmem
      exact absurd (hfresh edge hedge) (by rw [href]; exact Nat.lt_irrefl _)
    · intro edge hedge
      rcases List.mem_cons.1 hedge with rfl | hold
      · exact Nat.lt_succ_self _
      · exact Nat.lt_succ_of_lt (hfresh edge hold)
  refine ⟨_, ?_, h.set (Nat.le_succ _) hnew⟩
  unfold forwardTableAddEdge
  rw [h.lock_eq, Except.ok_bind]
  dsimp only
  rw [prependEdge_eq hlock, h.forwardTableLock]
  rfl

theorem ForwardTable.Holds.iterate (source : UInt32) :
    ∃ edges, forwardStep table (.iterate source) = .ok (table, edges) ∧
      edges.map Edge.target = targets source := by
  cases hentry : table.forwardTable source with
  | none =>
    refine ⟨[], ?_, (h.absent _ hentry).symm⟩
    simp [forwardStep, forwardTableGetIterator, forwardTableReleaseIterator, hentry]
  | some entry =>
    have hlock := (h.present _ _ hentry).listLock
    refine ⟨entry.edgeList, ?_, (h.present _ _ hentry).targets⟩
    have hback : table.forwardTable.set source { entry with listLock := false } =
        table.forwardTable := Table.set_of_eq (by rw [hentry, ← hlock])
    simp [forwardStep, forwardTableGetIterator, forwardTableReleaseIterator, hentry,
      pthreadMutexLock, pthreadMutexUnlock, hlock, hback]

/-- Removing an edge of which there is none. -/
theorem ForwardTable.Holds.removeEdge_of_not_mem {source target : UInt32}
    (hmem : target ∉ targets source) : forwardTableRemoveEdge source target table = .ok table := by
  unfold forwardTableRemoveEdge
  rw [h.lock_eq, Except.ok_bind]
  cases hentry : table.forwardTable source with
  | none =>
    dsimp only [pthreadMutexUnlock, if_true, Except.ok_bind]
    exact congrArg _ h.unlock_eq
  | some entry =>
    rw [← (h.present _ _ hentry).targets] at hmem
    dsimp only
    rw [findEdgeTo_eq_none_iff.2 hmem]
    exact congrArg _ h.unlock_eq

/-- Removing an edge prunes the entry if it was the only one, and keeps the entry
    and its lock otherwise. -/
theorem ForwardTable.Holds.removeEdge_of_mem {source target : UInt32}
    (hmem : target ∈ targets source) :
    ∃ entry : ForwardEntry, entry.listLock = true ∧
      forwardTableRemoveEdge source target table = .ok { table with
        forwardTable :=
          if targets source = [target] then table.forwardTable.erase source
          else table.forwardTable.set source entry } := by
  cases hentry : table.forwardTable source with
  | none => simp [h.absent _ hentry] at hmem
  | some entry =>
    have hholds := h.present _ _ hentry
    cases hfind : findEdgeTo entry.edgeList target with
    | none =>
      rw [findEdgeTo_eq_none_iff, hholds.targets] at hfind
      exact absurd hmem hfind
    | some edge =>
      obtain ⟨entry', hremove, hlock, htargets⟩ :=
        removeEdge_of_findEdgeTo hholds.listLock hholds.nodup hfind
      rw [hholds.targets] at htargets
      have hempty : entry'.edgeList = [] ↔ targets source = [target] := by
        have hnil : targets source ≠ [] := List.ne_nil_of_mem hmem
        rw [← @List.map_eq_nil_iff _ _ Edge.target, htargets, List.erase_eq_nil_iff]
        exact or_iff_right hnil
      refine ⟨{ entry' with listLock := true }, rfl, ?_⟩
      unfold forwardTableRemoveEdge
      rw [h.lock_eq, Except.ok_bind, hentry]
      dsimp only
      rw [hfind]
      dsimp only
      rw [hremove, Except.ok_bind]
      dsimp only
      rw [hlock, h.forwardTableLock]
      simp only [← hempty]
      rfl

/-- Removing a source as a whole does not come to its end: the first edge is
    removed under the lock that the function itself holds. -/
theorem ForwardTable.Holds.remove_error (source : UInt32) :
    ∃ e, forwardTableRemove source table = .error e := by
  unfold forwardTableRemove
  rw [h.lock_eq, Except.ok_bind]
  cases hentry : table.forwardTable source with
  | none => exact ⟨.nullPointer, rfl⟩
  | some entry =>
    have hholds := h.present _ _ hentry
    obtain ⟨forwardPolicy, edgeList, listLock, roundRobinRef⟩ := entry
    obtain rfl : listLock = false := hholds.listLock
    cases edgeList with
    | nil => exact absurd rfl hholds.used
    | cons edge edges => exact ⟨.blocked, rfl⟩

/-- A call after which no lock is held does to the table what it is to do to the
    edges. -/
theorem ForwardTable.Holds.follows {call : ForwardCall} (hsettled : targets.Settled call) :
    ∃ table' edges, forwardStep table call = .ok (table', edges) ∧
      table'.Holds (targets.after call) := by
  cases call with
  | addEdge source target =>
    obtain ⟨table', hadd, hholds⟩ := h.addEdge source target
    exact ⟨table', [], by rw [forwardStep, hadd]; rfl, hholds⟩
  | removeEdge source target =>
    have hafter : targets.after (.removeEdge source target) =
        Function.update targets source ((targets source).erase target) := rfl
    rw [hafter]
    by_cases hmem : target ∈ targets source
    · have honly : targets source = [target] := hsettled hmem
      obtain ⟨entry, -, hremove⟩ := h.removeEdge_of_mem hmem
      rw [if_pos honly] at hremove
      refine ⟨_, [], by rw [forwardStep, hremove]; rfl, ?_⟩
      rw [honly, List.erase_cons_head]
      exact h.erase source
    · refine ⟨table, [], by rw [forwardStep, h.removeEdge_of_not_mem hmem]; rfl, ?_⟩
      rw [List.erase_of_not_mem hmem, Function.update_eq_self]
      exact h
  | remove source => exact absurd hsettled id
  | iterate source =>
    obtain ⟨edges, hiterate, -⟩ := h.iterate source
    exact ⟨table, edges, hiterate, h⟩

/-- Any other call does not return, or returns with a lock held. -/
theorem ForwardTable.Holds.spoils {call : ForwardCall} {table' : ForwardTable}
    {edges : List Edge} (hsettled : ¬targets.Settled call)
    (hstep : forwardStep table call = .ok (table', edges)) : ¬table'.Released := by
  cases call with
  | addEdge source target => exact absurd trivial hsettled
  | removeEdge source target =>
    obtain ⟨hmem, hothers⟩ : target ∈ targets source ∧ targets source ≠ [target] := by
      simpa [Targets.Settled] using hsettled
    obtain ⟨entry, hheld, hremove⟩ := h.removeEdge_of_mem hmem
    rw [if_neg hothers] at hremove
    rw [forwardStep, hremove] at hstep
    cases hstep
    intro hreleased
    have hfree := hreleased.listLock source entry (Table.set_self ..)
    rw [hheld] at hfree
    cases hfree
  | remove source =>
    obtain ⟨e, herror⟩ := h.remove_error source
    rw [forwardStep, herror] at hstep
    cases hstep
  | iterate source => exact absurd trivial hsettled

end Calls

/-- Every call of a sequence returns and leaves all locks free just if no source is
    removed as a whole, and no edge that is there is removed while its source has
    another. -/
theorem locks_released_iff (calls : List ForwardCall) :
    (∀ pre post, calls = pre ++ post → ∃ table history,
        Machine.exec forwardStep forwardTableInit pre = .ok (table, history) ∧
          table.Released) ↔
      ∀ pre call post, calls = pre ++ call :: post →
        (pre.foldl Targets.after fun _ => []).Settled call := by
  have follows : ∀ (tr : List (ForwardCall × List Edge)) table targets call,
      ForwardTable.Holds table targets → targets.Settled call →
        ∃ table' edges, forwardStep table call = .ok (table', edges) ∧
          table'.Holds (targets.after call) := fun _ _ _ _ h hsettled => h.follows hsettled
  have spoils : ∀ (tr : List (ForwardCall × List Edge)) table targets call table' edges,
      ForwardTable.Holds table targets → ¬targets.Settled call →
        forwardStep table call = .ok (table', edges) → ¬table'.Released :=
    fun _ _ _ _ _ _ h hsettled => h.spoils hsettled
  exact Machine.exec_always_iff [] calls follows (fun _ _ _ h => h.released) spoils .init

/-- Two edges leave the source 1. Taking one away leaves the lock of their list
    held, and the next call for this source waits for it; removing the source as a
    whole waits for a lock of its own, and an unknown source has no entry. -/
theorem locks_released_fails :
    (Machine.exec forwardStep forwardTableInit
        [.addEdge 1 2, .addEdge 1 3, .removeEdge 1 2, .addEdge 1 4]).errorOf = some .blocked ∧
      (Machine.exec forwardStep forwardTableInit [.addEdge 1 2, .remove 1]).errorOf =
        some .blocked ∧
      (Machine.exec forwardStep forwardTableInit [.remove 1]).errorOf = some .nullPointer ∧
      ¬∀ calls pre post, calls = pre ++ post → ∃ table history,
        Machine.exec forwardStep forwardTableInit pre = .ok (table, history) ∧
          table.Released := by
  refine ⟨by decide, by decide, by decide, fun hall => ?_⟩
  obtain ⟨table, history, hexec, -⟩ := hall [.remove 1] [.remove 1] [] rfl
  have herror : (Machine.exec forwardStep forwardTableInit [.remove 1]).errorOf =
      some .nullPointer := by decide
  rw [hexec] at herror
  cases herror
