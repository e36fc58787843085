-- SUMMARY: ForwardTable.c: the edges of each source as cells linked by pointers, and the lists of targets that they keep.
import GraphIPC.Base.Linked
import GraphIPC.Tables.ForwardTable
import Mathlib.Data.List.Perm.Subperm

/-!
# Edges in memory

The edges of `ForwardTable.c` are linked by their `next` pointers. Here they lie in a
memory, the locks are left out, and the loops over a list follow the pointers. A loop is
given one round more than there have been edges; the lists have no cycle, so it ends
before. An edge that is taken out of its list is not freed.
-/

namespace EdgeList

/-- `edge_t` without `context`, which no call reads. -/
structure EdgeCell where
  target : UInt32
  next : Option Nat
  deriving DecidableEq, Repr

/-- `forward_t` without its lock. -/
structure Forward where
  forwardPolicy : Int
  edgeList : Option Nat
  roundRobinRef : Option Nat
  deriving DecidableEq, Repr

/-- The memory of the edges. -/
abbrev Edges := Nat → Option EdgeCell

/-- The table, the edges, and the next free place among them. -/
structure LinkedTable where
  forwardTable : Table UInt32 Forward
  edges : Edges
  nextRef : Nat

/-- The loop of `find_edge_to`. -/
def findEdgeTo (edges : Edges) (target : UInt32) : Nat → Option Nat → Except Fault (Option Nat)
  | 0, _ => .error .unfinished
  | _ + 1, none => .ok none
  | rounds + 1, some iter => do
    let cell ← readOr (edges iter)
    if cell.target = target then return some iter
    findEdgeTo edges target rounds cell.next

/-- `prepend_edge`; `edge->next` is written to the cell at `edge`. -/
def prependEdge (entry : Forward) (edge : Nat) (edges : Edges) :
    Except Fault (Forward × Edges) := do
  let cell ← readOr (edges edge)
  let edges := Function.update edges edge (some { cell with next := entry.edgeList })
  return ({ entry with edgeList := some edge }, edges)

/-- The loop of `remove_edge`: the cell that points to `edge` is made to point to the one
    behind it. -/
def unlinkFrom (edge : Nat) (edges : Edges) : Nat → Option Nat → Except Fault (Edges × Bool)
  | 0, _ => .error .unfinished
  | _ + 1, none => .ok (edges, false)
  | rounds + 1, some iter => do
    let cell ← readOr (edges iter)
    if cell.next = some edge then
      let edgeCell ← readOr (edges edge)
      return (Function.update edges iter (some { cell with next := edgeCell.next }), true)
    unlinkFrom edge edges rounds cell.next

/-- `remove_edge` -/
def removeEdge (rounds : Nat) (entry : Forward) (edge : Nat) (edges : Edges) :
    Except Fault (Forward × Edges × Bool) := do
  let roundRobinRef := if entry.roundRobinRef = some edge then none else entry.roundRobinRef
  let entry := { entry with roundRobinRef }
  if entry.edgeList = some edge then
    let cell ← readOr (edges edge)
    return ({ entry with edgeList := cell.next }, edges, true)
  let (edges, removed) ← unlinkFrom edge edges rounds entry.edgeList
  return (entry, edges, removed)

/-- `forward_table_init` -/
def forwardTableInit : LinkedTable :=
  { forwardTable := Table.empty, edges := fun _ => none, nextRef := 0 }

/-- The entry that `forward_table_add_edge` makes for a new source. -/
def newForward : Forward :=
  { forwardPolicy := GNW_POLICY_BROADCAST, edgeList := none, roundRobinRef := none }

/-- `forward_table_add_edge` -/
def forwardTableAddEdge (source target : UInt32) (table : LinkedTable) :
    Except Fault LinkedTable := do
  let entry := (table.forwardTable source).getD newForward
  let edge := table.nextRef
  let edges := Function.update table.edges edge (some { target, next := none })
  let (entry, edges) ← prependEdge entry edge edges
  return { forwardTable := table.forwardTable.set source entry, edges, nextRef := edge + 1 }

/-- `forward_table_remove_edge` -/
def forwardTableRemoveEdge (source target : UInt32) (table : LinkedTable) :
    Except Fault LinkedTable := do
  match table.forwardTable source with
  | none => return table
  | some entry =>
    match ← findEdgeTo table.edges target (table.nextRef + 1) entry.edgeList with
    | none => return table
    | some edge =>
      let (entry, edges, _) ← removeEdge (table.nextRef + 1) entry edge table.edges
      let forwardTable :=
        if entry.edgeList = none then table.forwardTable.erase source
        else table.forwardTable.set source entry
      return { table with forwardTable, edges }

/-- A call, or a store to `round_robin_ref` by someone who has walked along the list of a
    source and remembers the edge after `steps` others. -/
inductive EdgeCall where
  | addEdge (source target : UInt32)
  | removeEdge (source target : UInt32)
  | remember (source : UInt32) (steps : Nat)
  deriving DecidableEq, Repr

/-- The pointer after some steps along a list, if the list goes that far. -/
def follow (edges : Edges) : Nat → Option Nat → Option Nat
  | 0, iter => iter
  | _ + 1, none => none
  | steps + 1, some iter => follow edges steps ((edges iter).bind EdgeCell.next)

/-- The store to `round_robin_ref`. -/
def remember (source : UInt32) (steps : Nat) (table : LinkedTable) : LinkedTable :=
  match table.forwardTable source with
  | none => table
  | some entry =>
    let roundRobinRef := follow table.edges steps entry.edgeList
    { table with forwardTable := table.forwardTable.set source { entry with roundRobinRef } }

def edgeStep (table : LinkedTable) : EdgeCall → Except Fault (LinkedTable × Unit)
  | .addEdge source target => do
    let table ← forwardTableAddEdge source target table
    return (table, ())
  | .removeEdge source target => do
    let table ← forwardTableRemoveEdge source target table
    return (table, ())
  | .remember source steps => .ok (remember source steps table, ())

/-- The source a call is about. -/
def EdgeCall.source : EdgeCall → UInt32
  | .addEdge source _ => source
  | .removeEdge source _ => source
  | .remember source _ => source

/-! ## The lists -/

/-- From `start` the pointers lead through `edges`, and then to null. -/
def IsList (mem : Edges) (start : Option Nat) (edges : List Edge) : Prop :=
  Linked.Path EdgeCell.next mem start (edges.map Edge.ref) none ∧
    ∀ edge ∈ edges, (mem edge.ref).map EdgeCell.target = some edge.target

namespace IsList

variable {mem mem' : Edges} {start : Option Nat} {edges : List Edge}

@[simp] theorem nil_iff : IsList mem start [] ↔ start = none := by
  simp [IsList]

theorem cons_iff {edge : Edge} : IsList mem start (edge :: edges) ↔
    start = some edge.ref ∧ ∃ next, mem edge.ref = some ⟨edge.target, next⟩ ∧
      IsList mem next edges := by
  constructor
  · rintro ⟨⟨hstart, ⟨target, next⟩, hcell, hpath⟩, htargets⟩
    obtain rfl : target = edge.target := by
      have htarget := htargets edge List.mem_cons_self
      rw [hcell] at htarget
      exact Option.some.inj htarget
    exact ⟨hstart, next, hcell, hpath, fun e he => htargets e (List.mem_cons_of_mem _ he)⟩
  · rintro ⟨hstart, next, hcell, hpath, htargets⟩
    refine ⟨⟨hstart, _, hcell, hpath⟩, fun e he => ?_⟩
    rcases List.mem_cons.1 he with rfl | he
    · rw [hcell]
      rfl
    · exact htargets e he

variable (h : IsList mem start edges)
include h

/-- A list has no cycle. -/
theorem nodup : (edges.map Edge.ref).Nodup := h.1.nodup

theorem start_eq : start = edges.head?.map Edge.ref := by
  cases edges with
  | nil => exact nil_iff.1 h
  | cons edge edges => exact (cons_iff.1 h).1

theorem cell {edge : Edge} (hedge : edge ∈ edges) :
    ∃ next, mem edge.ref = some ⟨edge.target, next⟩ := by
  have htarget := h.2 edge hedge
  rw [Option.map_eq_some_iff] at htarget
  obtain ⟨⟨target, next⟩, hcell, rfl⟩ := htarget
  exact ⟨next, hcell⟩

/-- A list depends on nothing but its edges. -/
theorem congr (heq : ∀ edge ∈ edges, mem' edge.ref = mem edge.ref) : IsList mem' start edges := by
  refine ⟨h.1.congr fun ref href => ?_, fun edge hedge => ?_⟩
  · obtain ⟨edge, hedge, rfl⟩ := List.mem_map.1 href
    exact heq edge hedge
  · rw [heq edge hedge]
    exact h.2 edge hedge

/-- A cell changes its pointer, and no cell of the list its target. -/
theorem of_path {start' : Option Nat} {edges' : List Edge} (hsub : edges' ⊆ edges)
    (hmem : ∀ ref, (mem' ref).map EdgeCell.target = (mem ref).map EdgeCell.target)
    (hpath : Linked.Path EdgeCell.next mem' start' (edges'.map Edge.ref) none) :
    IsList mem' start' edges' := by
  refine ⟨hpath, fun edge hedge => ?_⟩
  rw [hmem]
  exact h.2 edge (hsub hedge)

end IsList

/-! ## The loops -/

section Loops

variable {mem : Edges} {start : Option Nat} {edges : List Edge}

/-- Of a list the loop finds the edge that a search of the list finds. -/
theorem IsList.findEdgeTo_eq (h : IsList mem start edges) (target : UInt32) {rounds : Nat}
    (hrounds : edges.length < rounds) :
    EdgeList.findEdgeTo mem target rounds start =
      .ok ((edges.find? fun edge => edge.target = target).map Edge.ref) := by
  induction edges generalizing start rounds with
  | nil =>
    obtain rfl := IsList.nil_iff.1 h
    obtain ⟨rounds, rfl⟩ := Nat.exists_eq_succ_of_ne_zero (Nat.ne_of_gt hrounds)
    rfl
  | cons edge edges ih =>
    obtain ⟨rfl, next, hcell, hrest⟩ := IsList.cons_iff.1 h
    obtain ⟨rounds, rfl⟩ := Nat.exists_eq_succ_of_ne_zero (Nat.ne_of_gt (Nat.zero_lt_of_lt hrounds))
    rw [EdgeList.findEdgeTo, hcell, readOr_some, Except.ok_bind]
    dsimp only
    by_cases htarget : edge.target = target
    · rw [if_pos htarget, List.find?_cons_of_pos (by simpa using htarget)]
      rfl
    · rw [if_neg htarget, List.find?_cons_of_neg (by simpa using htarget)]
      exact ih hrest (by simpa using hrounds)

/-- A list does not start at an edge behind another. -/
theorem IsList.start_ne {xs ys : List Edge} {before taken : Edge}
    (h : IsList mem start (xs ++ before :: taken :: ys)) : start ≠ some taken.ref := by
  have hsplit : xs ++ before :: taken :: ys = (xs ++ [before]) ++ taken :: ys := by simp
  have hnodup := h.nodup
  rw [hsplit, List.map_append, List.nodup_append] at hnodup
  have hmem : taken.ref ∈ (taken :: ys).map Edge.ref := List.mem_cons_self
  intro hstart
  rw [h.start_eq, Option.map_eq_some_iff] at hstart
  obtain ⟨first, hfirst, href⟩ := hstart
  have hfront : first ∈ xs ++ [before] := by
    cases xs with
    | nil => simpa [eq_comm] using hfirst
    | cons x xs =>
      obtain rfl : x = first := by simpa using hfirst
      exact List.mem_cons_self
  exact hnodup.2.2 _ (List.mem_map_of_mem hfront) _ hmem href

/-- The loop makes the cell in front of an edge point to the one behind it. -/
theorem IsList.unlinkFrom_eq {xs ys : List Edge} {before taken : Edge}
    (h : IsList mem start (xs ++ before :: taken :: ys)) {rounds : Nat}
    (hrounds : xs.length < rounds) :
    ∃ next, mem taken.ref = some ⟨taken.target, next⟩ ∧
      unlinkFrom taken.ref mem rounds start =
        .ok (Function.update mem before.ref (some ⟨before.target, next⟩), true) := by
  induction xs generalizing start rounds with
  | nil =>
    obtain ⟨rfl, next₁, hbefore, hrest⟩ := IsList.cons_iff.1 h
    obtain ⟨rfl, next, htaken, -⟩ := IsList.cons_iff.1 hrest
    obtain ⟨rounds, rfl⟩ := Nat.exists_eq_succ_of_ne_zero (Nat.ne_of_gt hrounds)
    refine ⟨next, htaken, ?_⟩
    simp [unlinkFrom, hbefore, htaken]
  | cons x xs ih =>
    have hnodup := h.nodup
    obtain ⟨rfl, next₁, hx, hrest⟩ := IsList.cons_iff.1 h
    obtain ⟨rounds, rfl⟩ := Nat.exists_eq_succ_of_ne_zero (Nat.ne_of_gt (Nat.zero_lt_of_lt hrounds))
    obtain ⟨next, htaken, hunlink⟩ := ih hrest (by simpa using hrounds)
    refine ⟨next, htaken, ?_⟩
    have hne : next₁ ≠ some taken.ref := hrest.start_ne
    rw [unlinkFrom, hx, readOr_some, Except.ok_bind]
    dsimp only
    rw [if_neg hne]
    exact hunlink

/-- The edge that is taken out of a list is the first at its place. -/
theorem unlinkEdge_eq_some {ref : Nat} {edges rest : List Edge}
    (h : unlinkEdge ref edges = some rest) :
    ∃ xs edge ys, edges = xs ++ edge :: ys ∧ rest = xs ++ ys ∧ ref = edge.ref ∧
      ref ∉ xs.map Edge.ref := by
  induction edges generalizing rest with
  | nil => cases h
  | cons first edges ih =>
    rw [unlinkEdge] at h
    split at h
    · rename_i hfirst
      cases h
      exact ⟨[], first, edges, rfl, rfl, hfirst.symm, by simp⟩
    · rename_i hfirst
      obtain ⟨rest', hrest, rfl⟩ := Option.map_eq_some_iff.1 h
      obtain ⟨xs, edge, ys, rfl, rfl, rfl, hxs⟩ := ih hrest
      refine ⟨first :: xs, edge, ys, rfl, rfl, rfl, ?_⟩
      simpa [hxs] using fun heq => hfirst heq.symm

/-- Taking an edge out of a list, as `unlinkEdge` does it. -/
theorem IsList.removeEdge_eq {entry : Forward} (h : IsList mem entry.edgeList edges) {ref : Nat}
    {rest : List Edge} (hunlink : unlinkEdge ref edges = some rest) {rounds : Nat}
    (hrounds : edges.length < rounds) :
    ∃ mem', EdgeList.removeEdge rounds entry ref mem =
        .ok ({ entry with
          edgeList := rest.head?.map Edge.ref
          roundRobinRef := if entry.roundRobinRef = some ref then none else entry.roundRobinRef },
          mem', true) ∧
      IsList mem' (rest.head?.map Edge.ref) rest ∧
      ∀ r, r ∉ edges.map Edge.ref → mem' r = mem r := by
  obtain ⟨xs, edge, ys, rfl, rfl, rfl, -⟩ := unlinkEdge_eq_some hunlink
  rcases List.eq_nil_or_concat xs with rfl | ⟨xs, before, rfl⟩
  · obtain ⟨hstart, next, hcell, hrest⟩ := IsList.cons_iff.1 h
    refine ⟨mem, ?_, ?_, fun _ _ => rfl⟩
    · rw [EdgeList.removeEdge]
      dsimp only
      rw [if_pos hstart, hcell, readOr_some, Except.ok_bind, hrest.start_eq]
      rfl
    · rw [List.nil_append, ← hrest.start_eq]
      exact hrest
  · simp only [List.concat_eq_append, List.append_assoc, List.singleton_append] at h hrounds ⊢
    have hnodup := h.nodup
    have hlen : xs.length < rounds := by
      simp only [List.length_append] at hrounds
      omega
    obtain ⟨next, hcell, hloop⟩ := h.unlinkFrom_eq hlen
    have hfirst : entry.edgeList ≠ some edge.ref := h.start_ne
    have hpath := h.1
    simp only [List.map_append, List.map_cons] at hpath
    have hnext : EdgeCell.next ⟨before.target, next⟩ = EdgeCell.next ⟨edge.target, next⟩ := rfl
    have hjoined := hpath.unlink hcell hnext
    have htargets : ∀ r, (Function.update mem before.ref (some ⟨before.target, next⟩) r).map
        EdgeCell.target = (mem r).map EdgeCell.target := by
      intro r
      rw [Function.update_apply]
      split
      · rename_i hr
        rw [hr, h.2 before (by simp)]
        rfl
      · rfl
    have hlist : IsList (Function.update mem before.ref (some ⟨before.target, next⟩))
        entry.edgeList (xs ++ before :: ys) := by
      refine h.of_path (fun e he => ?_) htargets ?_
      · simp only [List.mem_append, List.mem_cons] at he ⊢
        tauto
      · simpa using hjoined
    refine ⟨_, ?_, hlist.start_eq ▸ hlist, fun r hr => ?_⟩
    · rw [EdgeList.removeEdge]
      dsimp only
      rw [if_neg hfirst, hloop, Except.ok_bind, ← hlist.start_eq]
      rfl
    · refine Function.update_of_ne (fun heq => hr ?_) ..
      rw [heq]
      simp

/-- Whoever walks along a list remembers an edge of it, or nothing. -/
theorem IsList.mem_of_follow (hlist : IsList mem start edges) {steps ref : Nat}
    (hfollow : follow mem steps start = some ref) :
    ref ∈ edges.map Edge.ref := by
  induction steps generalizing start edges with
  | zero =>
    rw [follow, hlist.start_eq, Option.map_eq_some_iff] at hfollow
    obtain ⟨edge, hedge, rfl⟩ := hfollow
    exact List.mem_map_of_mem (List.mem_of_mem_head? hedge)
  | succ steps ih =>
    cases edges with
    | nil =>
      obtain rfl := IsList.nil_iff.1 hlist
      cases hfollow
    | cons edge edges =>
      obtain ⟨rfl, next, hcell, hrest⟩ := IsList.cons_iff.1 hlist
      rw [follow, hcell] at hfollow
      exact List.mem_cons_of_mem _ (ih hrest hfollow)

end Loops

/-! ## The table -/

namespace LinkedTable

/-- Where the list of a source starts. -/
def head (table : LinkedTable) (source : UInt32) : Option Nat :=
  (table.forwardTable source).bind Forward.edgeList

/-- The table keeps `lists`: they are in memory and have no edge in common, a source has
    an entry just if it has an edge, and `round_robin_ref` stays within the list. -/
structure Holds (table : LinkedTable) (lists : UInt32 → List Edge) : Prop where
  list : ∀ source, IsList table.edges (table.head source) (lists source)
  entry : ∀ source, table.forwardTable source = none ↔ lists source = []
  roundRobin : ∀ source entry ref, table.forwardTable source = some entry →
    entry.roundRobinRef = some ref → ref ∈ (lists source).map Edge.ref
  fresh : ∀ source, ∀ edge ∈ lists source, edge.ref < table.nextRef
  disjoint : ∀ source source', source ≠ source' → ∀ edge ∈ lists source,
    ∀ edge' ∈ lists source', edge.ref ≠ edge'.ref

/-- A source has the entry and the edges that it had in another table. -/
def SameAt (table table' : LinkedTable) (source : UInt32) : Prop :=
  table'.forwardTable source = table.forwardTable source ∧
    ∀ edges, IsList table.edges (table.head source) edges →
      ∀ edge ∈ edges, table'.edges edge.ref = table.edges edge.ref

theorem Holds.init : forwardTableInit.Holds fun _ => [] := by
  refine ⟨fun source => IsList.nil_iff.2 rfl, fun source => ⟨fun _ => rfl, fun _ => rfl⟩, ?_, ?_, ?_⟩
  · intro source entry ref hentry
    cases hentry
  · intro source edge hedge
    cases hedge
  · intro source source' _ edge hedge
    cases hedge

section Calls

variable {table : LinkedTable} {lists : UInt32 → List Edge} (h : table.Holds lists)
include h

/-- A list is shorter than the number of edges made. -/
theorem Holds.length_lt (source : UInt32) : (lists source).length < table.nextRef + 1 := by
  have hsub : (lists source).map Edge.ref ⊆ List.range table.nextRef := by
    intro ref href
    obtain ⟨edge, hedge, rfl⟩ := List.mem_map.1 href
    exact List.mem_range.2 (h.fresh source edge hedge)
  have hle := (List.subperm_of_subset (h.list source).nodup hsub).length_le
  rw [List.length_map, List.length_range] at hle
  omega

theorem Holds.head_of_some {source : UInt32} {entry : Forward}
    (hentry : table.forwardTable source = some entry) :
    IsList table.edges entry.edgeList (lists source) := by
  have hlist := h.list source
  rwa [head, hentry] at hlist

/-- The list of one source is replaced, and what the others have is kept. -/
theorem Holds.replace {table' : LinkedTable} {source : UInt32} {new : List Edge}
    (hentries : ∀ s, s ≠ source → table'.forwardTable s = table.forwardTable s)
    (hedges : ∀ s, s ≠ source → ∀ edge ∈ lists s, table'.edges edge.ref = table.edges edge.ref)
    (hlist : IsList table'.edges (table'.head source) new)
    (hentry : table'.forwardTable source = none ↔ new = [])
    (hroundRobin : ∀ entry ref, table'.forwardTable source = some entry →
      entry.roundRobinRef = some ref → ref ∈ new.map Edge.ref)
    (hnext : table.nextRef ≤ table'.nextRef)
    (hnew : ∀ edge ∈ new, edge ∈ lists source ∨ table.nextRef ≤ edge.ref ∧ edge.ref < table'.nextRef) :
    table'.Holds (Function.update lists source new) ∧
      ∀ s, s ≠ source → table.SameAt table' s := by
  have hother : ∀ s, s ≠ source → ∀ edge ∈ new, ∀ edge' ∈ lists s, edge.ref ≠ edge'.ref := by
    intro s hs edge hedge edge' hedge'
    rcases hnew edge hedge with hold | ⟨hge, -⟩
    · exact h.disjoint source s hs.symm edge hold edge' hedge'
    · have hlt := h.fresh s edge' hedge'
      omega
  have hlists : ∀ s, s ≠ source → Function.update lists source new s = lists s := fun s hs =>
    Function.update_of_ne hs ..
  refine ⟨⟨fun s => ?_, fun s => ?_, fun s entry ref => ?_, fun s edge hedge => ?_, ?_⟩, ?_⟩
  · by_cases hs : s = source
    · rw [hs, Function.update_self]
      exact hlist
    · rw [hlists s hs, head, hentries s hs]
      exact (h.list s).congr (hedges s hs)
  · by_cases hs : s = source
    · rw [hs, Function.update_self]
      exact hentry
    · rw [hlists s hs, hentries s hs]
      exact h.entry s
  · by_cases hs : s = source
    · rw [hs, Function.update_self]
      exact hroundRobin entry ref
    · rw [hlists s hs, hentries s hs]
      exact h.roundRobin s entry ref
  · by_cases hs : s = source
    · rw [hs, Function.update_self] at hedge
      rcases hnew edge hedge with hold | ⟨-, hlt⟩
      · exact Nat.lt_of_lt_of_le (h.fresh source edge hold) hnext
      · exact hlt
    · rw [hlists s hs] at hedge
      exact Nat.lt_of_lt_of_le (h.fresh s edge hedge) hnext
  · intro s s' hne edge hedge edge' hedge'
    by_cases hs : s = source
    · rw [hs, Function.update_self] at hedge
      have hs' : s' ≠ source := fun heq => hne (hs.trans heq.symm)
      rw [hlists s' hs'] at hedge'
      exact hother s' hs' edge hedge edge' hedge'
    · rw [hlists s hs] at hedge
      by_cases hs' : s' = source
      · rw [hs', Function.update_self] at hedge'
        exact (hother s hs edge' hedge' edge hedge).symm
      · rw [hlists s' hs'] at hedge'
        exact h.disjoint s s' hne edge hedge edge' hedge'
  · intro s hs
    refine ⟨hentries s hs, fun edges hedges' edge hedge => ?_⟩
    have hsame : edges.map Edge.ref = (lists s).map Edge.ref := hedges'.1.unique (h.list s).1
    have href : edge.ref ∈ (lists s).map Edge.ref := hsame ▸ List.mem_map_of_mem hedge
    obtain ⟨edge', hedge', heq⟩ := List.mem_map.1 href
    rw [← heq]
    exact hedges s hs edge' hedge'

/-- A new edge goes in front of the others of its source. -/
theorem Holds.addEdge (source target : UInt32) :
    ∃ table', forwardTableAddEdge source target table = .ok table' ∧
      table'.Holds (Function.update lists source (⟨table.nextRef, target⟩ :: lists source)) ∧
      ∀ s, s ≠ source → table.SameAt table' s := by
  let entry := (table.forwardTable source).getD newForward
  let edges := Function.update table.edges table.nextRef (some ⟨target, entry.edgeList⟩)
  let table' : LinkedTable :=
    { forwardTable := table.forwardTable.set source { entry with edgeList := some table.nextRef }
      edges, nextRef := table.nextRef + 1 }
  have hadd : forwardTableAddEdge source target table = .ok table' := by
    simp [forwardTableAddEdge, prependEdge, table', edges, entry]
  have hfresh : ∀ s, ∀ edge ∈ lists s, edges edge.ref = table.edges edge.ref := fun s edge hedge =>
    Function.update_of_ne (Nat.ne_of_lt (h.fresh s edge hedge)) ..
  have hold : IsList table.edges entry.edgeList (lists source) := by
    cases hentry : table.forwardTable source with
    | none =>
      rw [(h.entry source).1 hentry]
      simp [entry, hentry, newForward]
    | some e =>
      simpa [entry, hentry] using h.head_of_some hentry
  refine ⟨table', hadd, h.replace ?_ ?_ ?_ ?_ ?_ (Nat.le_succ _) ?_⟩
  · exact fun s hs => Table.set_of_ne hs ..
  · exact fun s _ => hfresh s
  · have hhead : table'.head source = some table.nextRef := by
      simp [table', head]
    rw [hhead]
    exact IsList.cons_iff.2 ⟨rfl, entry.edgeList, Function.update_self ..,
      hold.congr (hfresh source)⟩
  · simp [table']
  · intro entry' ref hentry' href
    obtain rfl : { entry with edgeList := some table.nextRef } = entry' := by
      simpa [table'] using hentry'
    cases hentry : table.forwardTable source with
    | none => simp [entry, hentry, newForward] at href
    | some e =>
      have hmem := h.roundRobin source e ref hentry (by simpa [entry, hentry] using href)
      exact List.mem_cons_of_mem _ hmem
  · intro edge hedge
    rcases List.mem_cons.1 hedge with rfl | hedge
    · exact .inr ⟨Nat.le_refl _, Nat.lt_succ_self _⟩
    · exact .inl hedge

/-- An edge that the list does not have is not removed. -/
theorem Holds.removeEdge_absent {source target : UInt32}
    (habsent : target ∉ (lists source).map Edge.target) :
    forwardTableRemoveEdge source target table = .ok table := by
  rw [forwardTableRemoveEdge]
  cases hentry : table.forwardTable source with
  | none => rfl
  | some entry =>
    have hnone : (lists source).find? (fun edge => edge.target = target) = none :=
      findEdgeTo_eq_none_iff.2 habsent
    dsimp only
    rw [(h.head_of_some hentry).findEdgeTo_eq target (h.length_lt source), hnone]
    rfl

/-- An edge that the list has is found from the entry of its source. -/
theorem Holds.exists_edge {source target : UInt32}
    (hpresent : target ∈ (lists source).map Edge.target) :
    ∃ entry edge, table.forwardTable source = some entry ∧
      (lists source).find? (fun edge => edge.target = target) = some edge := by
  obtain ⟨edge, hfind⟩ := Option.ne_none_iff_exists'.1 fun hnone =>
    findEdgeTo_eq_none_iff.1 hnone hpresent
  have hne : lists source ≠ [] := by
    intro hnil
    rw [hnil] at hfind
    cases hfind
  obtain ⟨entry, hentry⟩ := Option.ne_none_iff_exists'.1 fun hnone => hne ((h.entry source).1 hnone)
  exact ⟨entry, edge, hentry, hfind⟩

omit h in
/-- A reference into a list that is not to the edge taken out stays one. -/
theorem mem_refs_of_ne {xs ys : List Edge} {edge : Edge} {ref : Nat}
    (hmem : ref ∈ (xs ++ edge :: ys).map Edge.ref) (hne : ref ≠ edge.ref) :
    ref ∈ (xs ++ ys).map Edge.ref := by
  rw [List.map_append, List.map_cons, List.mem_append, List.mem_cons] at hmem
  rw [List.map_append, List.mem_append]
  rcases hmem with hxs | heq | hys
  · exact .inl hxs
  · exact absurd heq hne
  · exact .inr hys

/-- The most recent edge to the target leaves the list of its source. -/
theorem Holds.removeEdge_present {source target : UInt32}
    (hpresent : target ∈ (lists source).map Edge.target) :
    ∃ table' rest, forwardTableRemoveEdge source target table = .ok table' ∧
      rest.map Edge.target = ((lists source).map Edge.target).erase target ∧
      table'.Holds (Function.update lists source rest) ∧
      ∀ s, s ≠ source → table.SameAt table' s := by
  obtain ⟨entry, edge, hentry, hfind⟩ := h.exists_edge hpresent
  have hlist := h.head_of_some hentry
  obtain ⟨rest, hunlink, htargets, hsub⟩ := unlinkEdge_of_findEdgeTo hlist.nodup hfind
  obtain ⟨edges, hremove, hrest, hsame⟩ := hlist.removeEdge_eq hunlink (h.length_lt source)
  obtain ⟨xs, edge', ys, hsplit, rfl, href, -⟩ := unlinkEdge_eq_some hunlink
  let entry' : Forward := { entry with
    edgeList := (xs ++ ys).head?.map Edge.ref
    roundRobinRef := if entry.roundRobinRef = some edge.ref then none else entry.roundRobinRef }
  let table' : LinkedTable := { table with
    forwardTable := if entry'.edgeList = none then table.forwardTable.erase source
      else table.forwardTable.set source entry'
    edges }
  have hcall : forwardTableRemoveEdge source target table = .ok table' := by
    rw [forwardTableRemoveEdge, hentry]
    dsimp only
    rw [hlist.findEdgeTo_eq target (h.length_lt source), hfind, Except.ok_bind, Option.map_some]
    dsimp only
    rw [hremove]
    rfl
  have hempty : entry'.edgeList = none ↔ xs ++ ys = [] := by
    simp [entry']
  have hself : table'.forwardTable source = if entry'.edgeList = none then none else some entry' := by
    simp only [table']
    split
    · exact Table.erase_self ..
    · exact Table.set_self ..
  refine ⟨table', xs ++ ys, hcall, htargets, h.replace ?_ ?_ ?_ ?_ ?_ (Nat.le_refl _) ?_⟩
  · intro s hs
    simp only [table']
    split
    · exact Table.erase_of_ne hs ..
    · exact Table.set_of_ne hs ..
  · intro s hs e he
    refine hsame e.ref fun hmem => ?_
    obtain ⟨e', he', heq⟩ := List.mem_map.1 hmem
    exact h.disjoint source s hs.symm e' he' e he heq
  · have hhead : table'.head source = (xs ++ ys).head?.map Edge.ref := by
      rw [head, hself]
      split
      · rename_i hnone
        exact hnone.symm
      · rfl
    rw [hhead]
    exact hrest
  · rw [hself, ← hempty]
    split
    · rename_i hnone
      exact iff_of_true rfl hnone
    · rename_i hsome
      exact iff_of_false (by simp) hsome
  · intro e ref he hroundRobin
    rw [hself] at he
    split at he
    · cases he
    · cases he
      simp only [entry'] at hroundRobin
      split at hroundRobin
      · cases hroundRobin
      · rename_i hnot
        have hold := h.roundRobin source entry ref hentry hroundRobin
        rw [hsplit] at hold
        exact mem_refs_of_ne hold fun heq => hnot (by rw [hroundRobin, heq, href])
  · exact fun e he => .inl (hsub.subset he)

theorem Holds.remember (source : UInt32) (steps : Nat) :
    (EdgeList.remember source steps table).Holds lists ∧
      ∀ s, s ≠ source → table.SameAt (EdgeList.remember source steps table) s := by
  rw [EdgeList.remember]
  cases hentry : table.forwardTable source with
  | none => exact ⟨h, fun s _ => ⟨rfl, fun _ _ _ _ => rfl⟩⟩
  | some entry =>
    have hlist := h.head_of_some hentry
    have hself : Function.update lists source (lists source) = lists := Function.update_eq_self ..
    rw [← hself]
    refine h.replace ?_ (fun _ _ _ _ => rfl) ?_ ?_ ?_ (Nat.le_refl _) fun _ he => .inl he
    · exact fun s hs => Table.set_of_ne hs ..
    · simpa [head] using hlist
    · have hne : lists source ≠ [] := fun hnil => by
        rw [(h.entry source).2 hnil] at hentry
        cases hentry
      simp [hne]
    · intro e ref he hfollow
      obtain rfl := Option.some.inj ((Table.set_self ..).symm.trans he)
      exact hlist.mem_of_follow hfollow

end Calls

end LinkedTable

/-! ## Runs -/

/-- What a call is to do to the targets. -/
def EdgeCall.forwardCall : EdgeCall → ForwardCall
  | .addEdge source target => .addEdge source target
  | .removeEdge source target => .removeEdge source target
  | .remember source _ => .iterate source

/-- The targets of every source after some calls: the added ones, the last in front,
    without the first of its kind for every removal of one that is there. -/
def targetsOf (calls : List EdgeCall) : Targets :=
  calls.foldl (fun targets call => targets.after call.forwardCall) fun _ => []

/-- What is asked of the table: the list of every source has no cycle and holds its
    targets in order, a source has an entry just if it has an edge, and `round_robin_ref`
    refers to an edge of the list, if to any. -/
structure LinkedTable.Keeps (table : LinkedTable) (targets : Targets) : Prop where
  list : ∀ source, ∃ edges, IsList table.edges (table.head source) edges ∧
    (edges.map Edge.ref).Nodup ∧ edges.map Edge.target = targets source ∧
    ∀ entry ref, table.forwardTable source = some entry → entry.roundRobinRef = some ref →
      ref ∈ edges.map Edge.ref
  entry : ∀ source, (∃ entry, table.forwardTable source = some entry) ↔ targets source ≠ []

/-- A removal of an edge that is not there. -/
def EdgeCall.Absent (targets : Targets) : EdgeCall → Prop
  | .removeEdge source target => target ∉ targets source
  | _ => False

namespace LinkedTable

variable {table : LinkedTable} {lists : UInt32 → List Edge}

theorem Holds.keeps (h : table.Holds lists) :
    table.Keeps fun source => (lists source).map Edge.target := by
  refine ⟨fun source => ⟨lists source, h.list source, (h.list source).nodup, rfl, ?_⟩, ?_⟩
  · exact h.roundRobin source
  · intro source
    have hiff : table.forwardTable source ≠ none ↔ lists source ≠ [] := not_congr (h.entry source)
    rw [← Option.ne_none_iff_exists', hiff]
    simp

/-- A call does to the lists what it is to do to the targets. -/
theorem Holds.step (h : table.Holds lists) (call : EdgeCall) :
    ∃ table' lists', edgeStep table call = .ok (table', ()) ∧ table'.Holds lists' ∧
      (fun source => (lists' source).map Edge.target) =
        Targets.after (fun source => (lists source).map Edge.target) call.forwardCall ∧
      (∀ source, source ≠ call.source → table.SameAt table' source) ∧
      (call.Absent (fun source => (lists source).map Edge.target) → table' = table) := by
  have hupdate : ∀ source new, (fun s => (Function.update lists source new s).map Edge.target) =
      Function.update (fun s => (lists s).map Edge.target) source (new.map Edge.target) := by
    intro source new
    funext s
    by_cases hs : s = source
    · rw [hs, Function.update_self, Function.update_self]
    · rw [Function.update_of_ne hs, Function.update_of_ne hs]
  cases call with
  | addEdge source target =>
    obtain ⟨table', hadd, hholds, hothers⟩ := h.addEdge source target
    refine ⟨table', _, ?_, hholds, hupdate source _, hothers, False.elim⟩
    rw [edgeStep, hadd]
    rfl
  | removeEdge source target =>
    by_cases hpresent : target ∈ (lists source).map Edge.target
    · obtain ⟨table', rest, hremove, hrest, hholds, hothers⟩ := h.removeEdge_present hpresent
      refine ⟨table', _, ?_, hholds, ?_, hothers, fun habsent => absurd hpresent habsent⟩
      · rw [edgeStep, hremove]
        rfl
      · rw [hupdate, hrest]
        rfl
    · refine ⟨table, lists, ?_, h, ?_, fun _ _ => ⟨rfl, fun _ _ _ _ => rfl⟩, fun _ => rfl⟩
      · rw [edgeStep, h.removeEdge_absent hpresent]
        rfl
      · show _ = Function.update _ source _
        dsimp only
        rw [List.erase_of_not_mem hpresent, Function.update_eq_self]
  | remember source steps =>
    obtain ⟨hholds, hothers⟩ := h.remember source steps
    exact ⟨_, lists, rfl, hholds, rfl, hothers, False.elim⟩

end LinkedTable

theorem targetsOf_snoc (calls : List EdgeCall) (call : EdgeCall) :
    targetsOf (calls ++ [call]) = (targetsOf calls).after call.forwardCall := by
  rw [targetsOf, List.foldl_append]
  rfl

/-- The calls keep lists of the targets that are to be there. -/
theorem LinkedTable.Holds.exec (calls : List EdgeCall) :
    ∃ table history lists, Machine.exec edgeStep forwardTableInit calls = .ok (table, history) ∧
      table.Holds lists ∧ (fun source => (lists source).map Edge.target) = targetsOf calls := by
  induction calls using List.reverseRecOn with
  | nil => exact ⟨_, [], _, rfl, LinkedTable.Holds.init, rfl⟩
  | append_singleton calls call ih =>
    obtain ⟨table, history, lists, hexec, hholds, htargets⟩ := ih
    obtain ⟨table', lists', hstep, hholds', htargets', -⟩ := hholds.step call
    refine ⟨table', _, lists', (Machine.exec_snoc_eq_ok_iff hexec).2 ⟨(), hstep, rfl⟩, hholds', ?_⟩
    rw [htargets', htargets, targetsOf_snoc]

/-- Whatever edges were added and removed, the list of every source ends, has no cycle and
    holds the targets that were added, the last in front, without one for each that was
    removed; the sources with an edge are those with an entry; and `round_robin_ref` stays
    within its list. The next call keeps all this, leaves the entries and edges of other
    sources as they are, and leaves everything as it is if it removes what is not there. -/
theorem edge_lists_keep_targets (calls : List EdgeCall) :
    ∃ table history, Machine.exec edgeStep forwardTableInit calls = .ok (table, history) ∧
      table.Keeps (targetsOf calls) ∧
      ∀ call, ∃ table', edgeStep table call = .ok (table', ()) ∧
        table'.Keeps (targetsOf (calls ++ [call])) ∧
        (∀ source, source ≠ call.source → table.SameAt table' source) ∧
        (call.Absent (targetsOf calls) → table' = table) := by
  obtain ⟨table, history, lists, hexec, hholds, htargets⟩ := LinkedTable.Holds.exec calls
  refine ⟨table, history, hexec, htargets ▸ hholds.keeps, fun call => ?_⟩
  obtain ⟨table', lists', hstep, hholds', htargets', hothers, habsent⟩ := hholds.step call
  refine ⟨table', hstep, ?_, hothers, htargets ▸ habsent⟩
  rw [targetsOf_snoc, ← htargets, ← htargets']
  exact hholds'.keeps

end EdgeList
