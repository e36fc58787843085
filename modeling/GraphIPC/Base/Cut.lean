-- SUMMARY: Cutting a stream in front of each delimiter: the reader that does it, and the split it agrees with.
import GraphIPC.Base.Stream
import Mathlib.Data.List.SplitBy

/-!
# Cutting in front of delimiters

A stream is cut in front of every delimiter but one at its very beginning, so that
each piece starts with the delimiter that ends the piece before. What follows the
last cut is kept until more of the stream arrives.
-/

variable {α : Type*}

namespace Reader

variable {r : Reader α} (hskip : ∀ xs, r.next xs ≠ .skip)
include hskip

/-- A reader that never skips loses nothing. -/
theorem flatten_drain (xs : List α) : (r.drain xs).1.flatten ++ (r.drain xs).2 = xs := by
  fun_induction r.drain xs with
  | case1 xs hwait => rfl
  | case2 xs hnext ih => exact absurd hnext (hskip xs)
  | case3 xs n htake ih =>
    simp only [List.flatten_cons, List.append_assoc, ih, List.take_append_drop]

end Reader

/-- No frame that is taken is empty. -/
theorem Reader.ne_nil_of_mem_drain (r : Reader α) {xs f : List α} (hf : f ∈ (r.drain xs).1) :
    f ≠ [] := by
  obtain ⟨ys, n, -, htake, rfl⟩ := (r.drain_visits xs).1 f hf
  have hbounds := r.take_bounds htake
  apply List.ne_nil_of_length_pos
  rw [List.length_take]
  omega

/-- No frame that is taken is longer than what it is taken from. -/
theorem Reader.length_le_of_mem_drain (r : Reader α) {xs f : List α}
    (hf : f ∈ (r.drain xs).1) : f.length ≤ xs.length := by
  fun_induction r.drain xs with
  | case1 xs hwait => cases hf
  | case2 xs hnext ih => exact (ih hf).trans (by rw [List.length_drop]; omega)
  | case3 xs n htake ih =>
    rcases List.mem_cons.1 hf with rfl | hf
    · exact List.length_take_le' n xs
    · exact (ih hf).trans (by rw [List.length_drop]; omega)

/-- The reader that takes what lies in front of the next delimiter. The first
    element of its input is not looked at. -/
def cutReader (p : α → Bool) : Reader α where
  header := 1
  next xs :=
    match xs.tail.findIdx? p with
    | none => .wait
    | some k => .take (k + 1)
  header_pos := Nat.one_pos
  wait_of_short {xs} h := by
    obtain rfl : xs = [] := List.length_eq_zero_iff.1 (by omega)
    rfl
  take_bounds {xs n} h := by
    split at h
    · cases h
    · rename_i k hfind
      obtain rfl := Verdict.take.inj h
      obtain ⟨hk, -⟩ := List.findIdx?_eq_some_iff_getElem.1 hfind
      rw [List.length_tail] at hk
      omega
  skip_append {xs} ys h := by
    split at h <;> cases h
  take_append {xs n} ys h := by
    split at h
    · cases h
    · rename_i k hfind
      cases xs with
      | nil => cases hfind
      | cons x xs =>
        rw [List.tail_cons] at hfind
        rw [List.cons_append, List.tail_cons, List.findIdx?_append, hfind]
        exact h

/-- A list from its last delimiter on; all of it if there is none. -/
def fromLast (p : α → Bool) : List α → List α
  | [] => []
  | x :: xs => if xs.any p then fromLast p xs else x :: xs

section Cut

variable {p : α → Bool}

theorem cutReader_ne_skip (xs : List α) : (cutReader p).next xs ≠ .skip := by
  intro h
  simp only [cutReader] at h
  split at h <;> cases h

/-- Without a delimiter behind its beginning, a stream is kept. -/
theorem cutReader_wait_iff {xs : List α} :
    (cutReader p).next xs = .wait ↔ ∀ x ∈ xs.tail, p x = false := by
  rw [← List.findIdx?_eq_none_iff]
  simp only [cutReader]
  cases xs.tail.findIdx? p <;> simp

/-- The first delimiter behind the beginning ends a piece. -/
theorem cutReader_take_iff {xs : List α} {k : Nat} :
    (cutReader p).next xs = .take (k + 1) ↔ xs.tail.findIdx? p = some k := by
  simp only [cutReader]
  cases xs.tail.findIdx? p <;> simp

/-- The piece that is taken ends in front of a delimiter. -/
theorem cutReader_take {xs : List α} {n : Nat} (h : (cutReader p).next xs = .take n) :
    (∀ x ∈ (xs.take n).tail, p x = false) ∧ ∃ y ys, xs.drop n = y :: ys ∧ p y = true := by
  obtain ⟨hpos, -⟩ := (cutReader p).take_bounds h
  obtain ⟨k, rfl⟩ := Nat.exists_eq_add_of_lt hpos
  rw [Nat.zero_add] at h ⊢
  obtain ⟨hk, hdelimiter, hbefore⟩ := List.findIdx?_eq_some_iff_getElem.1 (cutReader_take_iff.1 h)
  cases xs with
  | nil => cases hk
  | cons x xs =>
    simp only [List.tail_cons] at hk hdelimiter hbefore
    refine ⟨fun y hy => ?_, xs[k], xs.drop (k + 1), ?_, hdelimiter⟩
    · rw [List.take_succ_cons, List.tail_cons] at hy
      obtain ⟨j, hj, rfl⟩ := List.mem_iff_getElem.1 hy
      rw [List.length_take] at hj
      rw [List.getElem_take]
      simpa using hbefore j (by omega)
    · rw [List.drop_succ_cons, List.drop_eq_getElem_cons hk]

/-- A delimiter behind the beginning, with none between, ends a piece. -/
theorem cutReader_take_of {xs : List α} {n : Nat} (hpos : 0 < n) (hlt : n < xs.length)
    (hdelimiter : p xs[n] = true) (hpiece : ∀ x ∈ (xs.take n).tail, p x = false) :
    (cutReader p).next xs = .take n := by
  obtain ⟨k, rfl⟩ := Nat.exists_eq_succ_of_ne_zero hpos.ne'
  rw [Nat.succ_eq_add_one, cutReader_take_iff]
  cases xs with
  | nil => cases hlt
  | cons x xs =>
    rw [List.take_succ_cons, List.tail_cons] at hpiece
    have hlt : k < xs.length := by simpa using hlt
    refine List.findIdx?_eq_some_iff_getElem.2 ⟨hlt, hdelimiter, fun j hj => ?_⟩
    have hmem : xs[j] ∈ xs.take k := List.mem_take_iff_getElem.2 ⟨j, by omega, rfl⟩
    simp [hpiece _ hmem]

/-- What lies in front of a delimiter is not from the last one on. -/
theorem fromLast_append_cons (xs ys : List α) {y : α} (hy : p y = true) :
    fromLast p (xs ++ y :: ys) = fromLast p (y :: ys) := by
  induction xs with
  | nil => rfl
  | cons x xs ih =>
    have hany : (xs ++ y :: ys).any p = true := List.any_eq_true.2 ⟨y, by simp, hy⟩
    rw [List.cons_append, fromLast, if_pos hany, ih]

/-- A list whose delimiters are all at its beginning is kept. -/
theorem fromLast_of_tail {xs : List α} (h : ∀ x ∈ xs.tail, p x = false) :
    fromLast p xs = xs := by
  cases xs with
  | nil => rfl
  | cons x xs =>
    have hnone : xs.any p = false := by
      rw [List.any_eq_false]
      intro y hy
      simpa using h y hy
    simp [fromLast, hnone]

theorem fromLast_eq_nil_iff {xs : List α} : fromLast p xs = [] ↔ xs = [] := by
  induction xs with
  | nil => simp [fromLast]
  | cons x xs ih =>
    unfold fromLast
    split
    · rename_i hany
      obtain ⟨y, hy, -⟩ := List.any_eq_true.1 hany
      simp [ih, List.ne_nil_of_mem hy]
    · simp

/-- What is kept of a stream starts at its last delimiter. -/
theorem drain_cutReader_snd (xs : List α) : ((cutReader p).drain xs).2 = fromLast p xs := by
  fun_induction (cutReader p).drain xs with
  | case1 xs hwait => exact (fromLast_of_tail (cutReader_wait_iff.1 hwait)).symm
  | case2 xs hnext ih => exact absurd hnext (cutReader_ne_skip xs)
  | case3 xs n htake ih =>
    obtain ⟨-, y, ys, hdrop, hy⟩ := cutReader_take htake
    rw [ih]
    conv_rhs => rw [← List.take_append_drop n xs, hdrop, fromLast_append_cons _ ys hy]
    rw [hdrop]

/-- Nothing is taken just if there is no delimiter behind the beginning. -/
theorem drain_cutReader_fst_eq_nil_iff {xs : List α} :
    ((cutReader p).drain xs).1 = [] ↔ ∀ x ∈ xs.tail, p x = false := by
  rw [← cutReader_wait_iff]
  constructor
  · intro hnil
    cases hnext : (cutReader p).next xs with
    | wait => rfl
    | skip => exact absurd hnext (cutReader_ne_skip xs)
    | take n =>
      rw [(cutReader p).drain_of_take hnext] at hnil
      cases hnil
  · intro hwait
    rw [(cutReader p).drain_of_wait hwait]

/-- A list without a delimiter behind its beginning is not split. -/
theorem splitBy_of_tail {xs : List α} (hne : xs ≠ []) (h : ∀ x ∈ xs.tail, p x = false) :
    xs.splitBy (fun _ y => !p y) = [xs] := by
  apply List.splitBy_of_isChain hne
  cases xs with
  | nil => exact absurd rfl hne
  | cons x xs =>
    rw [List.tail_cons] at h
    clear hne
    induction xs generalizing x with
    | nil => exact List.isChain_singleton x
    | cons y xs ih =>
      have hy := h y List.mem_cons_self
      refine List.isChain_cons_cons.2 ⟨by simp [hy], ?_⟩
      exact ih y fun z hz => h z (List.mem_cons_of_mem y hz)

/-- The pieces that are taken and the one that is kept are those of the split in
    front of every delimiter. -/
theorem splitBy_eq_drain {xs : List α} (hne : xs ≠ []) :
    xs.splitBy (fun _ y => !p y) =
      ((cutReader p).drain xs).1 ++ [((cutReader p).drain xs).2] := by
  fun_induction (cutReader p).drain xs with
  | case1 xs hwait => exact splitBy_of_tail hne (cutReader_wait_iff.1 hwait)
  | case2 xs hnext ih => exact absurd hnext (cutReader_ne_skip xs)
  | case3 xs n htake ih =>
    obtain ⟨hpos, hle⟩ := (cutReader p).take_bounds htake
    obtain ⟨hpiece, y, ys, hdrop, hy⟩ := cutReader_take htake
    have htaken : xs.take n ≠ [] := by
      apply List.ne_nil_of_length_pos
      rw [List.length_take]
      omega
    rw [hdrop] at ih ⊢
    rw [List.cons_append, ← ih (List.cons_ne_nil y ys)]
    conv_lhs => rw [← List.take_append_drop n xs, hdrop]
    rw [List.splitBy_append_cons ys (by simp [hy]), splitBy_of_tail htaken hpiece]
    rfl

end Cut
