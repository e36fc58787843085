-- SUMMARY: LinkedList.c: which sequences of additions leave a list that ends, and what is counted along it.
import GraphIPC.Base.Linked
import GraphIPC.Base.Machine
import GraphIPC.Fault
import Mathlib.Data.List.Basic

/-!
# The linked list

`lib/LinkedList.c` adds elements at both ends of a list. `ll_prepend` goes on after it
has made the first element of an empty list, as `ll_append` does not, and links that
element to itself. `ll_length` looks behind an element before it counts it, so that it
does not count the last one and follows a null pointer if there is none.
-/

variable {δ : Type}

/-- `struct list_element` -/
structure ListElement (δ : Type) where
  data : δ
  next : Option Nat
  deriving DecidableEq, Repr

/-- `linked_list_t`, the memory of its elements, and the next free place in it. -/
structure LinkedList (δ : Type) where
  head : Option Nat
  tail : Option Nat
  elements : Nat → Option (ListElement δ)
  nextRef : Nat

/-- `ll_create` -/
def llCreate : LinkedList δ :=
  { head := none, tail := none, elements := fun _ => none, nextRef := 0 }

/-- `ll_append` -/
def llAppend (data : δ) (list : LinkedList δ) : Except Fault (LinkedList δ) := do
  let element := list.nextRef
  let elements := Function.update list.elements element (some { data, next := none })
  let nextRef := element + 1
  if list.head = none then
    return { head := some element, tail := some element, elements, nextRef }
  match list.tail with
  | none => throw .nullPointer
  | some tail =>
    let cell ← readOr (elements tail)
    let elements := Function.update elements tail (some { cell with next := some element })
    return { list with tail := some element, elements, nextRef }

/-- `ll_prepend` -/
def llPrepend (data : δ) (list : LinkedList δ) : LinkedList δ :=
  let element := list.nextRef
  let head := if list.head = none then some element else list.head
  let tail := if list.head = none then some element else list.tail
  -- this is the new element itself if there was none
  let elements := Function.update list.elements element (some { data, next := head })
  { head := some element, tail, elements, nextRef := element + 1 }

/-- The loop of `ll_length`. -/
def llLengthFrom (mem : Nat → Option (ListElement δ)) :
    Nat → Option Nat → Nat → Except Fault Nat
  | 0, _, _ => .error .unfinished
  | _ + 1, none, _ => .error .nullPointer
  | rounds + 1, some iter, elements => do
    let cell ← readOr (mem iter)
    if cell.next = none then return elements
    llLengthFrom mem rounds cell.next (elements + 1)

/-- `ll_length`, if its loop ends within some rounds. -/
def llLength (rounds : Nat) (list : LinkedList δ) : Except Fault Nat :=
  llLengthFrom list.elements rounds list.head 0

/-- A call that adds an element. -/
inductive ListCall (δ : Type) where
  | append (data : δ)
  | prepend (data : δ)

def listStep (list : LinkedList δ) : ListCall δ → Except Fault (LinkedList δ × Unit)
  | .append data => do
    let list ← llAppend data list
    return (list, ())
  | .prepend data => .ok (llPrepend data list, ())

/-- A call on the elements in their order. -/
def ListCall.addTo (added : List δ) : ListCall δ → List δ
  | .append data => added ++ [data]
  | .prepend data => data :: added

/-- The elements that some calls add to an empty list. -/
def addedBy (calls : List (ListCall δ)) : List δ := calls.foldl ListCall.addTo []

/-- From `head` the pointers lead through elements with this data, in this order; the
    last of them is at `tail`, and its pointer is null. -/
def LinkedList.Visits (list : LinkedList δ) (added : List δ) : Prop :=
  ∃ refs, Linked.Path ListElement.next list.elements list.head refs none ∧
    refs.map (fun ref => (list.elements ref).map ListElement.data) = added.map some ∧
    list.tail = refs.getLast?

/-- `ll_length` ends and returns this. -/
def LinkedList.Counts (list : LinkedList δ) (n : Nat) : Prop :=
  ∃ rounds, llLength rounds list = .ok n

/-! ## What additions leave -/

/-- The list passes its elements in order and arrives at `stop`, which is null or the
    element that was linked to itself. -/
structure LinkedList.Shape (list : LinkedList δ) (added : List δ) (refs : List Nat)
    (stop : Option Nat) : Prop where
  path : Linked.Path ListElement.next list.elements list.head refs stop
  data : refs.map (fun ref => (list.elements ref).map ListElement.data) = added.map some
  tail : list.tail = refs.getLast?
  stop : stop = none ∨ stop = refs.getLast?
  fresh : ∀ ref ∈ refs, ref < list.nextRef
  nodup : refs.Nodup

namespace LinkedList.Shape

variable {list : LinkedList δ} {added : List δ} {refs : List Nat} {stop : Option Nat}

theorem init : (llCreate : LinkedList δ).Shape [] [] none :=
  ⟨rfl, rfl, rfl, .inl rfl, by simp, List.nodup_nil⟩

variable (h : list.Shape added refs stop)
include h

theorem head_eq_none_iff : list.head = none ↔ refs = [] := by
  refine h.path.start_eq_none_iff fun hnil => ?_
  rcases h.stop with hstop | hstop
  · exact hstop
  · rw [hstop, hnil]
    rfl

theorem nextRef_not_mem : list.nextRef ∉ refs := fun hmem =>
  Nat.lt_irrefl _ (h.fresh _ hmem)

theorem length_eq : refs.length = added.length := by
  have hlength := congrArg List.length h.data
  rwa [List.length_map, List.length_map] at hlength

/-- The data of old elements is not touched by what is stored elsewhere. -/
theorem data_update (cell : ListElement δ) :
    refs.map (fun ref => (Function.update list.elements list.nextRef (some cell) ref).map
      ListElement.data) = added.map some := by
  rw [← h.data]
  refine List.map_congr_left fun ref href => ?_
  rw [Function.update_of_ne (ne_of_mem_of_not_mem href h.nextRef_not_mem)]

/-- Appending mends a list whose last element was linked to itself. -/
theorem append (data : δ) :
    ∃ list', llAppend data list = .ok list' ∧
      list'.Shape (added ++ [data]) (refs ++ [list.nextRef]) none := by
  have hfresh := h.nextRef_not_mem
  have hdata := h.data_update ⟨data, none⟩
  rcases List.eq_nil_or_concat refs with rfl | ⟨xs, last, rfl⟩
  · have hhead : list.head = none := h.head_eq_none_iff.2 rfl
    obtain rfl : added = [] := by simpa using h.data.symm
    refine ⟨_, by simp [llAppend, hhead]; rfl, ?_, ?_, rfl, .inl rfl, ?_, List.nodup_singleton _⟩
    · exact ⟨rfl, _, Function.update_self .., rfl⟩
    · simp
    · simp
  · rw [List.concat_eq_append] at h hfresh hdata ⊢
    have hhead : list.head ≠ none := fun hnone => by simpa using h.head_eq_none_iff.1 hnone
    have htail : list.tail = some last := by simpa using h.tail
    have hlast : last ≠ list.nextRef := ne_of_mem_of_not_mem (by simp) hfresh
    have hxs : last ∉ xs := by
      have hnodup := h.nodup
      rw [List.nodup_append] at hnodup
      exact fun hmem => hnodup.2.2 last hmem last (by simp) rfl
    have hmem : last ∈ xs ++ [last] := by simp
    obtain ⟨cell, hcell⟩ := h.path.exists_cell hmem
    let elements := Function.update list.elements list.nextRef (some ⟨data, none⟩)
    let elements' := Function.update elements last (some { cell with next := some list.nextRef })
    have hold : elements last = some cell := by
      rw [← hcell]
      exact Function.update_of_ne hlast ..
    have hnew : elements' list.nextRef = some ⟨data, none⟩ := by
      rw [← Function.update_self list.nextRef (some ⟨data, none⟩) list.elements]
      exact Function.update_of_ne hlast.symm ..
    have hsame : ∀ ref, (elements' ref).map ListElement.data =
        (elements ref).map ListElement.data := by
      intro ref
      by_cases href : ref = last
      · rw [href, hold]
        simp [elements']
      · simp [elements', href]
    refine ⟨{ list with
      tail := some list.nextRef, elements := elements', nextRef := list.nextRef + 1 },
      ?_, ?_, ?_, ?_, .inl rfl, ?_, ?_⟩
    · rw [llAppend]
      dsimp only
      rw [if_neg hhead, htail]
      have hload : readOr (elements last) = .ok cell := by
        rw [hold]
        rfl
      exact Except.bind_eq_ok_iff.2 ⟨cell, hload, rfl⟩
    · have hnext : ListElement.next { cell with next := some list.nextRef } =
        some list.nextRef := rfl
      have hredirect := (h.path.update hfresh (some ⟨data, none⟩)).redirect hxs hnext
      exact Linked.Path.append_iff.2 ⟨_, hredirect, rfl, _, hnew, rfl⟩
    · simp only [List.map_append, hsame] at hdata ⊢
      rw [hdata]
      simp [elements]
    · simp
    · intro ref href
      rcases List.mem_append.1 href with href | href
      · exact Nat.lt_succ_of_lt (h.fresh ref href)
      · rw [List.mem_singleton.1 href]
        exact Nat.lt_succ_self _
    · rw [← List.concat_eq_append]
      exact (List.nodup_concat _ _).2 ⟨hfresh, h.nodup⟩

/-- Prepending to an empty list links the element to itself; otherwise the list ends
    where it ended before. -/
theorem prepend (data : δ) :
    (llPrepend data list).Shape (data :: added) (list.nextRef :: refs)
      (if refs = [] then some list.nextRef else stop) := by
  have hfresh := h.nextRef_not_mem
  rcases List.eq_nil_or_concat refs with rfl | ⟨xs, last, rfl⟩
  · have hhead : list.head = none := h.head_eq_none_iff.2 rfl
    obtain rfl : added = [] := by simpa using h.data.symm
    rw [if_pos rfl]
    refine ⟨?_, ?_, ?_, .inr rfl, ?_, List.nodup_singleton _⟩
    · refine ⟨rfl, ⟨data, some list.nextRef⟩, ?_, rfl⟩
      simp [llPrepend, hhead]
    · simp [llPrepend]
    · simp [llPrepend, hhead]
    · simp [llPrepend]
  · rw [List.concat_eq_append] at h hfresh ⊢
    have hne : xs ++ [last] ≠ [] := by simp
    have hhead : list.head ≠ none := fun hnone => hne (h.head_eq_none_iff.1 hnone)
    have hlast : (list.nextRef :: (xs ++ [last])).getLast? = (xs ++ [last]).getLast? := by
      rw [← List.cons_append, List.getLast?_concat, List.getLast?_concat]
    rw [if_neg hne]
    refine ⟨?_, ?_, ?_, ?_, ?_, List.nodup_cons.2 ⟨hfresh, h.nodup⟩⟩
    · have hnext : ListElement.next ⟨data, list.head⟩ = list.head := rfl
      simpa [llPrepend, hhead] using h.path.push hfresh hnext
    · rw [List.map_cons, llPrepend, List.map_cons]
      dsimp only
      rw [Function.update_self, h.data_update]
      rfl
    · rw [hlast, ← h.tail]
      simp [llPrepend, hhead]
    · rw [hlast]
      exact h.stop
    · intro ref href
      rcases List.mem_cons.1 href with rfl | href
      · exact Nat.lt_succ_self _
      · exact Nat.lt_succ_of_lt (h.fresh ref href)

end LinkedList.Shape

/-! ## Counting -/

section Counting

variable {mem : Nat → Option (ListElement δ)} {start : Option Nat} {ref : Nat} {refs : List Nat}

/-- Along a list that ends the loop counts all elements but the last. -/
theorem llLengthFrom_eq (h : Linked.Path ListElement.next mem start (ref :: refs) none)
    (rounds elements : Nat) :
    llLengthFrom mem rounds start elements =
      if refs.length < rounds then .ok (elements + refs.length) else .error .unfinished := by
  induction refs generalizing start ref rounds elements with
  | nil =>
    obtain ⟨rfl, cell, hcell, hlast⟩ := h
    have hnext : cell.next = none := hlast
    cases rounds with
    | zero => rfl
    | succ rounds =>
      rw [llLengthFrom, hcell, readOr_some, Except.ok_bind, if_pos hnext]
      rfl
  | cons ref' refs ih =>
    obtain ⟨rfl, cell, hcell, hrest⟩ := h
    cases rounds with
    | zero => rfl
    | succ rounds =>
      have hnext : cell.next ≠ none := by
        rw [hrest.1]
        simp
      rw [llLengthFrom, hcell, readOr_some, Except.ok_bind, if_neg hnext, ih hrest]
      simp only [List.length_cons, Nat.succ_lt_succ_iff, Nat.add_assoc, Nat.add_comm 1]

/-- In a cycle the loop does not end. -/
theorem llLengthFrom_closed (h : Linked.Closed ListElement.next mem refs) (hmem : ref ∈ refs)
    (rounds elements : Nat) :
    llLengthFrom mem rounds (some ref) elements = .error .unfinished := by
  induction rounds generalizing ref elements with
  | zero => rfl
  | succ rounds ih =>
    obtain ⟨cell, ref', hcell, hnext, hmem'⟩ := h ref hmem
    rw [llLengthFrom, hcell, readOr_some, Except.ok_bind, hnext]
    exact ih hmem' _

end Counting

namespace LinkedList.Shape

variable {list : LinkedList δ} {added : List δ} {refs : List Nat} {stop : Option Nat}
  (h : list.Shape added refs stop)
include h

/-- A list that comes back to its last element is closed. -/
theorem closed (hstop : stop ≠ none) :
    Linked.Closed ListElement.next list.elements refs ∧ ∃ ref ∈ refs, list.head = some ref := by
  obtain ⟨last, rfl⟩ := Option.ne_none_iff_exists'.1 hstop
  have hlast : refs.getLast? = some last := by
    rcases h.stop with hnone | hlast
    · cases hnone
    · exact hlast.symm
  have hmem : last ∈ refs := List.mem_of_getLast? hlast
  refine ⟨h.path.closed hmem, ?_⟩
  cases refs with
  | nil => cases hmem
  | cons ref refs => exact ⟨ref, List.mem_cons_self, h.path.1⟩

theorem visits_iff : list.Visits added ↔ stop = none := by
  constructor
  · rintro ⟨refs', hpath, -⟩
    by_contra hstop
    obtain ⟨hclosed, ref, href, hhead⟩ := h.closed hstop
    rw [hhead] at hpath
    exact hclosed.not_path href hpath
  · rintro rfl
    exact ⟨refs, h.path, h.data, h.tail⟩

theorem llLength_of_nil (hnil : added = []) (rounds : Nat) :
    llLength (rounds + 1) list = .error .nullPointer := by
  have hrefs : refs = [] := by
    rw [← List.length_eq_zero_iff, h.length_eq, hnil]
    rfl
  rw [llLength, h.head_eq_none_iff.2 hrefs]
  rfl

theorem llLength_of_closed (hstop : stop ≠ none) (rounds : Nat) :
    llLength rounds list = .error .unfinished := by
  obtain ⟨hclosed, ref, href, hhead⟩ := h.closed hstop
  rw [llLength, hhead]
  exact llLengthFrom_closed hclosed href rounds 0

theorem llLength_of_ends (hstop : stop = none) (hne : added ≠ []) (rounds : Nat) :
    llLength rounds list =
      if added.length ≤ rounds then .ok (added.length - 1) else .error .unfinished := by
  subst hstop
  have hlength := h.length_eq
  have hpath := h.path
  cases refs with
  | nil => exact absurd (List.length_eq_zero_iff.1 hlength.symm) hne
  | cons ref refs =>
    rw [llLength, llLengthFrom_eq hpath, ← hlength, List.length_cons, Nat.zero_add]
    rfl

/-- The number of elements is not what is returned. -/
theorem not_counts : ¬list.Counts added.length := by
  rintro ⟨rounds, hcount⟩
  by_cases hstop : stop = none
  · by_cases hnil : added = []
    · cases rounds with
      | zero => cases hcount
      | succ rounds =>
        rw [h.llLength_of_nil hnil] at hcount
        cases hcount
    · rw [h.llLength_of_ends hstop hnil] at hcount
      have hpos : 0 < added.length := List.length_pos_iff.2 hnil
      split at hcount
      · have hless := Except.ok.inj hcount
        omega
      · cases hcount
  · rw [h.llLength_of_closed hstop] at hcount
    cases hcount

end LinkedList.Shape

/-! ## Runs -/

/-- No element is appended after the first one was prepended to the empty list, so it
    is still linked to itself. -/
def OnlyPrepends (calls : List (ListCall δ)) : Prop :=
  calls ≠ [] ∧ ∀ data, .append data ∉ calls

theorem onlyPrepends_snoc (calls : List (ListCall δ)) (call : ListCall δ) :
    OnlyPrepends (calls ++ [call]) ↔
      (calls = [] ∨ OnlyPrepends calls) ∧ ∀ data, call ≠ .append data := by
  constructor
  · rintro ⟨-, hall⟩
    refine ⟨?_, fun data heq => hall data (by simp [heq])⟩
    by_cases hnil : calls = []
    · exact .inl hnil
    · exact .inr ⟨hnil, fun data hmem => hall data (List.mem_append_left _ hmem)⟩
  · rintro ⟨hold, hnew⟩
    refine ⟨by simp, fun data hmem => ?_⟩
    rcases List.mem_append.1 hmem with hmem | hmem
    · rcases hold with rfl | hold
      · cases hmem
      · exact hold.2 data hmem
    · exact hnew data (List.mem_singleton.1 hmem).symm

theorem length_addedBy (calls : List (ListCall δ)) : (addedBy calls).length = calls.length := by
  induction calls using List.reverseRecOn with
  | nil => rfl
  | append_singleton calls call ih =>
    rw [addedBy, List.foldl_append, ← addedBy, List.length_append]
    cases call <;> simp [ListCall.addTo, ih]

/-- The calls leave the elements in order, and a list that ends unless there were only
    elements prepended. -/
theorem LinkedList.Shape.exec (calls : List (ListCall δ)) :
    ∃ list history refs stop, Machine.exec listStep llCreate calls = .ok (list, history) ∧
      list.Shape (addedBy calls) refs stop ∧ (stop ≠ none ↔ OnlyPrepends calls) := by
  induction calls using List.reverseRecOn with
  | nil => exact ⟨_, [], [], none, rfl, LinkedList.Shape.init, by simp [OnlyPrepends]⟩
  | append_singleton calls call ih =>
    obtain ⟨list, history, refs, stop, hexec, hshape, hstop⟩ := ih
    have hadded : addedBy (calls ++ [call]) = call.addTo (addedBy calls) := by
      rw [addedBy, List.foldl_append]
      rfl
    have hempty : refs = [] ↔ calls = [] := by
      rw [← List.length_eq_zero_iff, hshape.length_eq, length_addedBy, List.length_eq_zero_iff]
    rw [hadded, onlyPrepends_snoc]
    cases call with
    | append data =>
      obtain ⟨list', happend, hshape'⟩ := hshape.append data
      have hstep : listStep list (.append data) = .ok (list', ()) := by
        rw [listStep, happend]
        rfl
      exact ⟨list', _, _, none, (Machine.exec_snoc_eq_ok_iff hexec).2 ⟨(), hstep, rfl⟩, hshape',
        by simp⟩
    | prepend data =>
      refine ⟨_, _, _, _, (Machine.exec_snoc_eq_ok_iff hexec).2 ⟨(), rfl, rfl⟩,
        hshape.prepend data, ?_⟩
      rw [← hstop, ← hempty]
      split
      · rename_i hnil
        simp [hnil]
      · rename_i hne
        simp [hne]

/-- What becomes of a list to which any elements were added. All elements lie on it in
    order and it ends at `tail`, unless there were only elements prepended. Its length is
    returned for no sequence of additions: of an empty list the loop follows a null
    pointer, of one that ends it counts all elements but one, and otherwise it does not end. -/
theorem linked_list_never_right (calls : List (ListCall δ)) :
    ∃ list history, Machine.exec listStep llCreate calls = .ok (list, history) ∧
      ¬(list.Visits (addedBy calls) ∧ list.Counts calls.length) ∧
      (list.Visits (addedBy calls) ↔ ¬OnlyPrepends calls) ∧
      (calls = [] → ∀ rounds, llLength (rounds + 1) list = .error .nullPointer) ∧
      (OnlyPrepends calls → ∀ rounds, llLength rounds list = .error .unfinished) ∧
      (calls ≠ [] → ¬OnlyPrepends calls →
        ∀ rounds, calls.length ≤ rounds → llLength rounds list = .ok (calls.length - 1)) := by
  obtain ⟨list, history, refs, stop, hexec, hshape, hstop⟩ := LinkedList.Shape.exec calls
  have hlength := length_addedBy calls
  have hends : stop = none ↔ ¬OnlyPrepends calls := by rw [← hstop, not_not]
  refine ⟨list, history, hexec, ?_, ?_, ?_, ?_, ?_⟩
  · rintro ⟨-, hcounts⟩
    exact hshape.not_counts (hlength ▸ hcounts)
  · exact hshape.visits_iff.trans hends
  · rintro rfl
    exact hshape.llLength_of_nil rfl
  · exact fun honly => hshape.llLength_of_closed (hstop.2 honly)
  · intro hne hmixed rounds hrounds
    have hadded : addedBy calls ≠ [] := by
      rw [← List.length_pos_iff, hlength]
      exact List.length_pos_iff.2 hne
    rw [hshape.llLength_of_ends (hends.2 hmixed) hadded, hlength, if_pos hrounds]

/-- The length of an empty list is a null pointer followed, a list with one element
    appended has length 0, and of a list with one element prepended the length is never
    returned. -/
theorem linked_list_fails :
    (∀ rounds, llLength (rounds + 1) (llCreate : LinkedList Nat) = .error .nullPointer) ∧
      (∃ list, llAppend 7 llCreate = .ok list ∧ llLength 1 list = .ok 0) ∧
      (∀ rounds, llLength rounds (llPrepend 7 llCreate) = .error .unfinished) ∧
      ¬∀ calls : List (ListCall Nat), ∃ list history,
        Machine.exec listStep llCreate calls = .ok (list, history) ∧
          list.Visits (addedBy calls) ∧ list.Counts calls.length := by
  refine ⟨fun rounds => rfl, ⟨_, rfl, rfl⟩, fun rounds => ?_, fun hall => ?_⟩
  · exact (LinkedList.Shape.init.prepend 7).llLength_of_closed (by decide) rounds
  · obtain ⟨list, history, hexec, -, rounds, hcounts⟩ := hall []
    cases hexec
    cases rounds with
    | zero => cases hcounts
    | succ rounds => cases hcounts
