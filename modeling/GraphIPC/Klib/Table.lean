-- SUMMARY: The operations of a khash table that the programs use, and the correct finite map that implements them.
import GraphIPC.Fault
import Mathlib.Algebra.Group.Nat.Defs
import Mathlib.Logic.Function.Basic

/-!
# Tables

The programs keep their state in khash tables and reach into them through
iterators: `kh_get` and `kh_put` return one, and `kh_exist` and `kh_value` take
one. `KhTable` lists these operations, so that the code above them is written
once and can be run over the table of `khash.h` as it is written and over a map
that is correct by construction.
-/

/-- The operations of khash. A bucket that `khPut` has just added holds an
    indeterminate value. -/
class KhTable (T : Type) (Iter Key Value : outParam Type) where
  khInit : T
  khGet : T → Key → Except Fault Iter
  khEnd : T → Iter
  khExist : T → Iter → Except Fault Bool
  khValue : T → Iter → Except Fault Value
  khSetValue : T → Iter → Value → Except Fault T
  khPut : T → Key → Except Fault (T × Iter)

export KhTable (khInit khGet khEnd khExist khValue khSetValue khPut)

/-- What the code that reads and writes through iterators relies on: a value
    that was written is read back, and writing one moves nothing. -/
class LawfulKhTable (T : Type) {Iter Key Value : Type} [KhTable T Iter Key Value] : Prop where
  khGet_khSetValue : ∀ {t t' : T} {i v} (k : Key),
    khSetValue t i v = .ok t' → khGet t' k = khGet t k
  khEnd_khSetValue : ∀ {t t' : T} {i v}, khSetValue t i v = .ok t' → khEnd t' = khEnd t
  khExist_khSetValue : ∀ {t t' : T} {i v} (j : Iter),
    khSetValue t i v = .ok t' → khExist t' j = khExist t j
  khValue_khSetValue_self : ∀ {t t' : T} {i v}, khSetValue t i v = .ok t' → khValue t' i = .ok v
  khValue_khSetValue_ne : ∀ {t t' : T} {i j : Iter} {v},
    khSetValue t i v = .ok t' → j ≠ i → khValue t' j = khValue t j
  khSetValue_of_khValue : ∀ {t : T} {i v} (v' : Value),
    khValue t i = .ok v → ∃ t', khSetValue t i v' = .ok t'

/-! ## The finite map -/

/-- A map from keys to values. -/
abbrev Table (Key Value : Type) : Type := Key → Option Value

namespace Table

variable {Key Value : Type} [DecidableEq Key]

/-- The map without keys. -/
def empty : Table Key Value := fun _ => none

/-- The map with the value at `k` replaced. -/
def set (t : Table Key Value) (k : Key) (v : Value) : Table Key Value :=
  Function.update t k (some v)

/-- The map without `k`. -/
def erase (t : Table Key Value) (k : Key) : Table Key Value :=
  Function.update t k none

@[simp] theorem set_self (t : Table Key Value) (k : Key) (v : Value) : t.set k v k = some v :=
  Function.update_self ..

@[simp] theorem set_of_ne {k k' : Key} (h : k' ≠ k) (t : Table Key Value) (v : Value) :
    t.set k v k' = t k' :=
  Function.update_of_ne h ..

@[simp] theorem erase_self (t : Table Key Value) (k : Key) : t.erase k k = none :=
  Function.update_self ..

@[simp] theorem erase_of_ne {k k' : Key} (h : k' ≠ k) (t : Table Key Value) :
    t.erase k k' = t k' :=
  Function.update_of_ne h ..

theorem set_apply (t : Table Key Value) (k : Key) (v : Value) (k' : Key) :
    t.set k v k' = if k' = k then some v else t k' := by
  by_cases h : k' = k
  · subst h; simp
  · simp [h]

theorem erase_apply (t : Table Key Value) (k k' : Key) :
    t.erase k k' = if k' = k then none else t k' := by
  by_cases h : k' = k
  · subst h; simp
  · simp [h]

@[simp] theorem set_set (t : Table Key Value) (k : Key) (v v' : Value) :
    (t.set k v).set k v' = t.set k v' :=
  Function.update_idem ..

/-- Values at two keys are set in either order. -/
theorem set_comm {k k' : Key} (h : k ≠ k') (t : Table Key Value) (v v' : Value) :
    (t.set k v).set k' v' = (t.set k' v').set k v :=
  Function.update_comm h ..

/-- Setting a value that is already there changes nothing. -/
theorem set_of_eq {t : Table Key Value} {k : Key} {v : Value} (h : t k = some v) :
    t.set k v = t := by
  rw [set, ← h, Function.update_eq_self]

/-- An iterator into the map is a key that is there, or the end. -/
instance [Inhabited Value] : KhTable (Table Key Value) (Option Key) Key Value where
  khInit := empty
  khGet t k := .ok (if (t k).isSome then some k else none)
  khEnd _ := none
  khExist t i := .ok (i.any fun k => (t k).isSome)
  khValue t i := readOr (i.bind t)
  khSetValue t i v :=
    match i with
    | some k => if (t k).isSome then .ok (t.set k v) else .error .outOfBounds
    | none => .error .outOfBounds
  khPut t k := .ok (if (t k).isSome then t else t.set k default, some k)

variable [Inhabited Value]

theorem khGet_of_some {t : Table Key Value} {k : Key} {v : Value} (h : t k = some v) :
    khGet t k = .ok (some k) := by
  simp [khGet, h]

theorem khGet_of_none {t : Table Key Value} {k : Key} (h : t k = none) :
    khGet t k = .ok none := by
  simp [khGet, h]

@[simp] theorem khExist_end (t : Table Key Value) : khExist t (none : Option Key) = .ok false :=
  rfl

theorem khExist_of_some {t : Table Key Value} {k : Key} {v : Value} (h : t k = some v) :
    khExist t (some k) = .ok true := by
  simp [khExist, h]

theorem khValue_of_some {t : Table Key Value} {k : Key} {v : Value} (h : t k = some v) :
    khValue t (some k) = .ok v := by
  simp [khValue, h]

theorem khSetValue_of_some {t : Table Key Value} {k : Key} {v : Value} (h : t k = some v)
    (v' : Value) : khSetValue t (some k) v' = .ok (t.set k v') := by
  simp [khSetValue, h]

theorem khPut_of_none {t : Table Key Value} {k : Key} (h : t k = none) :
    khPut t k = .ok (t.set k default, some k) := by
  simp [khPut, h]

/-- The only values that can be written are those at keys that are there. -/
theorem khSetValue_ok {t t' : Table Key Value} {i : Option Key} {v : Value}
    (h : khSetValue t i v = .ok t') : ∃ k, i = some k ∧ (t k).isSome ∧ t' = t.set k v := by
  cases i with
  | none => cases h
  | some k =>
    simp only [khSetValue] at h
    split at h
    · rename_i hk
      cases h
      exact ⟨k, rfl, hk, rfl⟩
    · cases h

instance : LawfulKhTable (Table Key Value) where
  khGet_khSetValue := by
    intro t t' i v k' h
    rcases khSetValue_ok h with ⟨k, rfl, hk, rfl⟩
    by_cases hkk : k' = k
    · subst hkk; simp [khGet, hk]
    · simp [khGet, hkk]
  khEnd_khSetValue := fun _ => rfl
  khExist_khSetValue := by
    intro t t' i v j h
    rcases khSetValue_ok h with ⟨k, rfl, hk, rfl⟩
    cases j with
    | none => rfl
    | some k' =>
      by_cases hkk : k' = k
      · subst hkk; simp [khExist, hk]
      · simp [khExist, hkk]
  khValue_khSetValue_self := by
    intro t t' i v h
    rcases khSetValue_ok h with ⟨k, rfl, hk, rfl⟩
    simp [khValue]
  khValue_khSetValue_ne := by
    intro t t' i j v h hji
    rcases khSetValue_ok h with ⟨k, rfl, hk, rfl⟩
    cases j with
    | none => rfl
    | some k' =>
      have hkk : k' ≠ k := fun heq => hji (by rw [heq])
      simp [khValue, hkk]
  khSetValue_of_khValue := by
    intro t i v v' h
    cases i with
    | none => cases h
    | some k =>
      cases hk : t k with
      | none => simp [khValue, hk] at h
      | some w => exact ⟨_, khSetValue_of_some hk v'⟩

end Table
