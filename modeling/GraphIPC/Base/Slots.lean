-- SUMMARY: A map kept in slots: filling, clearing and replacing a slot, and how many keys there are.
import Mathlib.Data.Set.Card
import Mathlib.Logic.Function.Basic

/-!
# Slots

A table keeps the entries of a map in slots, each key in one of them. What is done to a
slot is done to the map.
-/

/-- The map holds just what lies in the slots, and no key lies in two of them. -/
structure SlotsHold {ι Key Value : Type*} (slot : ι → Option (Key × Value))
    (m : Key → Option Value) : Prop where
  value : ∀ i k v, slot i = some (k, v) → m k = some v
  place : ∀ k v, m k = some v → ∃ i, slot i = some (k, v)
  unique : ∀ i j k v w, slot i = some (k, v) → slot j = some (k, w) → i = j

namespace SlotsHold

variable {ι Key Value : Type*} {slot : ι → Option (Key × Value)} {m : Key → Option Value}

/-- Nothing is held by slots without entries. -/
theorem empty (h : ∀ i, slot i = none) : SlotsHold slot fun _ : Key => (none : Option Value) where
  value i k v hi := by
    rw [h i] at hi
    cases hi
  place k v hk := by cases hk
  unique i j k v w hi := by
    rw [h i] at hi
    cases hi

variable (h : SlotsHold slot m)
include h

/-- There are as many keys as slots in use. -/
theorem ncard_keys : {k | (m k).isSome}.ncard = {i | (slot i).isSome}.ncard := by
  symm
  refine Set.ncard_congr (fun i hi => ((slot i).get hi).1) ?_ ?_ ?_
  · intro i hi
    obtain ⟨⟨k, v⟩, hs⟩ := Option.isSome_iff_exists.1 hi
    simp [hs, h.value i k v hs]
  · intro i j hi hj heq
    obtain ⟨⟨k, v⟩, hsi⟩ := Option.isSome_iff_exists.1 hi
    obtain ⟨⟨k', w⟩, hsj⟩ := Option.isSome_iff_exists.1 hj
    simp only [hsi, hsj, Option.get_some] at heq
    subst heq
    exact h.unique i j k v w hsi hsj
  · intro k hk
    obtain ⟨v, hv⟩ := Option.isSome_iff_exists.1 hk
    obtain ⟨i, hi⟩ := h.place k v hv
    exact ⟨i, by simp [hi], by simp [hi]⟩

variable [DecidableEq ι] [DecidableEq Key] {x : ι} {k : Key}

/-- A free slot is filled with a new key. -/
theorem fill (hx : slot x = none) (hk : m k = none) (v : Value) :
    SlotsHold (Function.update slot x (some (k, v))) (Function.update m k (some v)) := by
  have hother : ∀ i k' w, i ≠ x → slot i = some (k', w) → k' ≠ k := by
    rintro i k' w - hi rfl
    rw [h.value i k' w hi] at hk
    cases hk
  constructor
  · intro i k' w hi
    by_cases hix : i = x
    · subst hix
      rw [Function.update_self] at hi
      cases hi
      exact Function.update_self ..
    · rw [Function.update_of_ne hix] at hi
      rw [Function.update_of_ne (hother i k' w hix hi)]
      exact h.value i k' w hi
  · intro k' w hk'
    by_cases hkk : k' = k
    · subst hkk
      rw [Function.update_self] at hk'
      cases hk'
      exact ⟨x, Function.update_self ..⟩
    · rw [Function.update_of_ne hkk] at hk'
      obtain ⟨i, hi⟩ := h.place k' w hk'
      refine ⟨i, ?_⟩
      rw [Function.update_of_ne]
      · exact hi
      · rintro rfl
        rw [hx] at hi
        cases hi
  · intro i j k' w w' hi hj
    by_cases hix : i = x <;> by_cases hjx : j = x
    · rw [hix, hjx]
    · subst hix
      rw [Function.update_self] at hi
      cases hi
      rw [Function.update_of_ne hjx] at hj
      exact absurd rfl (hother j _ w' hjx hj)
    · subst hjx
      rw [Function.update_self] at hj
      cases hj
      rw [Function.update_of_ne hix] at hi
      exact absurd rfl (hother i _ w hix hi)
    · rw [Function.update_of_ne hix] at hi
      rw [Function.update_of_ne hjx] at hj
      exact h.unique i j k' w w' hi hj

/-- A slot is cleared, and its key with it. -/
theorem clear {v : Value} (hx : slot x = some (k, v)) :
    SlotsHold (Function.update slot x none) (Function.update m k none) := by
  have hother : ∀ i k' w, i ≠ x → slot i = some (k', w) → k' ≠ k := by
    rintro i k' w hix hi rfl
    exact hix (h.unique i x k' w v hi hx)
  have hslot : ∀ i k' w, Function.update slot x none i = some (k', w) →
      i ≠ x ∧ slot i = some (k', w) := by
    intro i k' w hi
    by_cases hix : i = x
    · subst hix
      rw [Function.update_self] at hi
      cases hi
    · rw [Function.update_of_ne hix] at hi
      exact ⟨hix, hi⟩
  constructor
  · intro i k' w hi
    obtain ⟨hix, hi⟩ := hslot i k' w hi
    rw [Function.update_of_ne (hother i k' w hix hi)]
    exact h.value i k' w hi
  · intro k' w hk'
    by_cases hkk : k' = k
    · subst hkk
      rw [Function.update_self] at hk'
      cases hk'
    · rw [Function.update_of_ne hkk] at hk'
      obtain ⟨i, hi⟩ := h.place k' w hk'
      refine ⟨i, ?_⟩
      rw [Function.update_of_ne]
      · exact hi
      · rintro rfl
        rw [hx] at hi
        cases hi
        exact hkk rfl
  · intro i j k' w w' hi hj
    exact h.unique i j k' w w' (hslot i k' w hi).2 (hslot j k' w' hj).2

/-- The value in a slot is replaced. -/
theorem replace {v : Value} (hx : slot x = some (k, v)) (w : Value) :
    SlotsHold (Function.update slot x (some (k, w))) (Function.update m k (some w)) := by
  have hfill := (h.clear hx).fill (Function.update_self ..) (Function.update_self ..) w
  rwa [Function.update_idem, Function.update_idem] at hfill

end SlotsHold
