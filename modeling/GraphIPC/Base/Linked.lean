-- SUMMARY: Lists of cells that are linked by pointers, and what storing into a cell does to the lists that pass it.
import Mathlib.Data.List.Nodup
import Mathlib.Logic.Function.Basic

/-!
# Linked cells

A memory maps the addresses that are in use to cells. Each cell has a pointer `next`,
which may be null. `Path start refs stop` says that following it from `start` passes the
cells at `refs`, in this order, and arrives at `stop`. A path that ends at the null
pointer is the only one from its start and passes no cell twice.
-/

namespace Linked

variable {ρ γ : Type*} (next : γ → Option ρ)

/-- From `start` the pointers lead through the cells at `refs` to `stop`. -/
def Path (mem : ρ → Option γ) : Option ρ → List ρ → Option ρ → Prop
  | start, [], stop => start = stop
  | start, ref :: refs, stop =>
    start = some ref ∧ ∃ cell, mem ref = some cell ∧ Path mem (next cell) refs stop

variable {next} {mem mem' : ρ → Option γ} {start mid stop : Option ρ} {ref : ρ} {refs xs ys : List ρ}

namespace Path

@[simp] theorem nil_iff : Path next mem start [] stop ↔ start = stop := Iff.rfl

theorem cons_iff : Path next mem start (ref :: refs) stop ↔
    start = some ref ∧ ∃ cell, mem ref = some cell ∧ Path next mem (next cell) refs stop := Iff.rfl

theorem append_iff : Path next mem start (xs ++ ys) stop ↔
    ∃ mid, Path next mem start xs mid ∧ Path next mem mid ys stop := by
  induction xs generalizing start with
  | nil => simp
  | cons ref xs ih =>
    rw [List.cons_append, cons_iff]
    constructor
    · rintro ⟨rfl, cell, hcell, hpath⟩
      obtain ⟨mid, hxs, hys⟩ := ih.1 hpath
      exact ⟨mid, ⟨rfl, cell, hcell, hxs⟩, hys⟩
    · rintro ⟨mid, ⟨rfl, cell, hcell, hxs⟩, hys⟩
      exact ⟨rfl, cell, hcell, ih.2 ⟨mid, hxs, hys⟩⟩

/-- The cells on a path are in use. -/
theorem exists_cell (h : Path next mem start refs stop) (hmem : ref ∈ refs) :
    ∃ cell, mem ref = some cell := by
  induction refs generalizing start with
  | nil => cases hmem
  | cons first refs ih =>
    obtain ⟨-, cell, hcell, hpath⟩ := h
    rcases List.mem_cons.1 hmem with rfl | hmem
    · exact ⟨cell, hcell⟩
    · exact ih hpath hmem

/-- A path depends on nothing but its cells. -/
theorem congr (h : Path next mem start refs stop) (heq : ∀ ref ∈ refs, mem' ref = mem ref) :
    Path next mem' start refs stop := by
  induction refs generalizing start with
  | nil => exact h
  | cons first refs ih =>
    obtain ⟨rfl, cell, hcell, hpath⟩ := h
    refine ⟨rfl, cell, ?_, ih hpath fun ref hmem => heq ref (List.mem_cons_of_mem _ hmem)⟩
    rw [heq first List.mem_cons_self, hcell]

/-- There is one path from a pointer to the null pointer. -/
theorem unique (h : Path next mem start xs none) (h' : Path next mem start ys none) : xs = ys := by
  induction xs generalizing start ys with
  | nil =>
    obtain rfl : start = none := h
    cases ys with
    | nil => rfl
    | cons y ys => cases h'.1
  | cons x xs ih =>
    obtain ⟨rfl, cell, hcell, hpath⟩ := h
    cases ys with
    | nil => cases h'
    | cons y ys =>
      obtain ⟨heq, cell', hcell', hpath'⟩ := h'
      cases heq
      rw [hcell] at hcell'
      cases hcell'
      rw [ih hpath hpath']

/-- A path to the null pointer passes no cell twice: from a cell on it there is only
    one way to go on. -/
theorem nodup (h : Path next mem start refs none) : refs.Nodup := by
  induction refs generalizing start with
  | nil => exact List.nodup_nil
  | cons ref refs ih =>
    obtain ⟨rfl, cell, hcell, hpath⟩ := h
    refine List.nodup_cons.2 ⟨fun hmem => ?_, ih hpath⟩
    obtain ⟨xs, ys, rfl⟩ := List.append_of_mem hmem
    obtain ⟨mid, -, hrest⟩ := append_iff.1 hpath
    obtain rfl := hrest.1
    have hagain : Path next mem (some ref) (ref :: (xs ++ ref :: ys)) none :=
      ⟨rfl, cell, hcell, hpath⟩
    have hlength := congrArg List.length (hrest.unique hagain)
    simp only [List.length_cons, List.length_append] at hlength
    omega

/-- A pointer is null at the end of the path that goes there. -/
theorem start_eq_none_iff (h : Path next mem start refs stop) (hstop : refs = [] → stop = none) :
    start = none ↔ refs = [] := by
  cases refs with
  | nil =>
    obtain rfl : start = stop := h
    exact iff_of_true (hstop rfl) rfl
  | cons ref refs =>
    rw [h.1]
    exact iff_of_false (by simp) (List.cons_ne_nil _ _)

variable [DecidableEq ρ]

/-- Storing elsewhere leaves a path alone. -/
theorem update (h : Path next mem start refs stop) (hmem : ref ∉ refs) (cell : Option γ) :
    Path next (Function.update mem ref cell) start refs stop :=
  h.congr fun _ hother => Function.update_of_ne (ne_of_mem_of_not_mem hother hmem) ..

/-- A cell is put in front of a path. -/
theorem push {cell : γ} (h : Path next mem start refs stop) (hmem : ref ∉ refs)
    (hnext : next cell = start) :
    Path next (Function.update mem ref (some cell)) (some ref) (ref :: refs) stop := by
  refine ⟨rfl, cell, Function.update_self .., ?_⟩
  rw [hnext]
  exact h.update hmem _

/-- The last cell of a path is made to point elsewhere. -/
theorem redirect {cell : γ} (h : Path next mem start (xs ++ [ref]) stop) (hmem : ref ∉ xs)
    (hnext : next cell = mid) :
    Path next (Function.update mem ref (some cell)) start (xs ++ [ref]) mid := by
  obtain ⟨entry, hxs, hlast⟩ := append_iff.1 h
  obtain rfl := hlast.1
  exact append_iff.2 ⟨some ref, hxs.update hmem _, rfl, cell, Function.update_self .., hnext⟩

/-- A cell is taken out behind another one. -/
theorem unlink {before taken : ρ} {cell cell' : γ}
    (h : Path next mem start (xs ++ before :: taken :: ys) none) (htaken : mem taken = some cell)
    (hnext : next cell' = next cell) :
    Path next (Function.update mem before (some cell')) start (xs ++ before :: ys) none := by
  have hsplit : xs ++ before :: taken :: ys = (xs ++ [before]) ++ taken :: ys := by simp
  have hnodup := h.nodup
  have hxs : before ∉ xs := by
    rw [List.nodup_append'] at hnodup
    exact fun hmem => hnodup.2.2 hmem List.mem_cons_self
  have hys : before ∉ ys := by
    rw [List.nodup_append', List.nodup_cons] at hnodup
    exact fun hmem => hnodup.2.1.1 (List.mem_cons_of_mem _ hmem)
  rw [hsplit] at h
  obtain ⟨mid, hfront, -, cell'', hcell'', hback⟩ := append_iff.1 h
  rw [htaken] at hcell''
  cases hcell''
  have hjoin : xs ++ before :: ys = (xs ++ [before]) ++ ys := by simp
  rw [hjoin]
  exact append_iff.2 ⟨_, hfront.redirect hxs hnext, hback.update hys _⟩

end Path

/-! ## Cycles -/

/-- Of every cell in the set, the pointer leads to another one in it. -/
def Closed (next : γ → Option ρ) (mem : ρ → Option γ) (s : List ρ) : Prop :=
  ∀ ref ∈ s, ∃ cell ref', mem ref = some cell ∧ next cell = some ref' ∧ ref' ∈ s

/-- A path that comes back to a cell on it is closed. -/
theorem Path.closed (h : Path next mem start refs (some ref)) (hmem : ref ∈ refs) :
    Closed next mem refs := by
  intro r hr
  obtain ⟨xs, ys, rfl⟩ := List.append_of_mem hr
  obtain ⟨mid, -, rfl, cell, hcell, hpath⟩ := Path.append_iff.1 h
  cases ys with
  | nil => exact ⟨cell, ref, hcell, hpath, hmem⟩
  | cons y ys => exact ⟨cell, y, hcell, hpath.1, by simp⟩

/-- The null pointer is not reached from a closed set. -/
theorem Closed.not_path {s : List ρ} (h : Closed next mem s) (hmem : ref ∈ s) :
    ¬Path next mem (some ref) refs none := by
  induction refs generalizing ref with
  | nil => exact fun hpath => by cases hpath
  | cons first refs ih =>
    rintro ⟨heq, cell, hcell, hpath⟩
    cases heq
    obtain ⟨cell', ref', hcell', hnext, hmem'⟩ := h _ hmem
    rw [hcell] at hcell'
    cases hcell'
    rw [hnext] at hpath
    exact ih hmem' hpath

end Linked
