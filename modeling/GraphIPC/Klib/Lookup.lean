-- SUMMARY: What a khash lookup finds, and the shape of every table that insertions and assignments lead to.
import GraphIPC.Klib.Flags
import Mathlib.Tactic.Ring

/-!
# Lookups in khash

Triangular probing walks over a power of two of buckets and is back at the bucket
it started from before it has made twice as many steps as there are buckets, so
a lookup always ends: at a live bucket that holds the key, or with the index
behind the last bucket. For this the arrays have to be as long as the number of
buckets says, and this shape survives every operation.
-/

namespace Except

variable {ε α β : Type}

/-- What every round preserves, the loop preserves. -/
theorem foldlM_preserves {f : β → α → Except ε β} {P : β → Prop}
    (hf : ∀ b a b', P b → f b a = .ok b' → P b') {l : List α} {b b' : β} (hb : P b)
    (h : l.foldlM f b = .ok b') : P b' := by
  induction l generalizing b with
  | nil =>
    cases h
    exact hb
  | cons a l ih =>
    rw [List.foldlM_cons, bind_eq_ok_iff] at h
    obtain ⟨b₁, hstep, h⟩ := h
    exact ih (hf b a b₁ hb hstep) h

end Except

theorem writeAt_ok {α : Type} {l l' : List α} {i : Nat} {v : α} (h : writeAt l i v = .ok l') :
    i < l.length ∧ l' = l.set i v := by
  rw [writeAt] at h
  split at h
  · rename_i hi
    cases h
    exact ⟨hi, rfl⟩
  · cases h

theorem writeAt_of_lt {α : Type} {l : List α} {i : Nat} (h : i < l.length) (v : α) :
    writeAt l i v = .ok (l.set i v) := by
  rw [writeAt, if_pos h]

theorem length_of_writeAt {α : Type} {l l' : List α} {i : Nat} {v : α}
    (h : writeAt l i v = .ok l') : l'.length = l.length := by
  rw [(writeAt_ok h).2, List.length_set]

namespace Khash

/-! ## Probing -/

/-- A mask of one less than a power of two takes the remainder. -/
theorem next_eq {n k : Nat} (hn : n = 2 ^ k) (hk : k ≤ 32) (i step : Nat) :
    next (n - 1) i step = (i + (step + 1)) % n := by
  subst hn
  rw [next, Nat.and_two_pow_sub_one_eq_mod, Nat.mod_mod_of_dvd _ (Nat.pow_dvd_pow 2 hk)]

theorem home_eq {n k : Nat} (hn : n = 2 ^ k) (key : UInt32) :
    home (n - 1) key = key.toNat % n := by
  subst hn
  rw [home, Nat.and_two_pow_sub_one_eq_mod, khIntHashFunc]

/-- The place of the probe after so many steps. -/
def probe (n last step : Nat) : Nat := (last + step * (step + 1) / 2) % n

theorem probe_zero {n last : Nat} (h : last < n) : probe n last 0 = last := by
  simp [probe, Nat.mod_eq_of_lt h]

theorem probe_succ (n last step : Nat) :
    (probe n last step + (step + 1)) % n = probe n last (step + 1) := by
  have htri : (step + 1) * (step + 1 + 1) / 2 = step * (step + 1) / 2 + (step + 1) := by
    have hsum : (step + 1) * (step + 1 + 1) = step * (step + 1) + (step + 1) * 2 := by ring
    rw [hsum, Nat.add_mul_div_right _ _ (by decide)]
  rw [probe, probe, Nat.mod_add_mod, htri, Nat.add_assoc]

/-- One step before the end of the second round, the probe is back where it
    started. -/
theorem probe_back {n last : Nat} (hn : 0 < n) (h : last < n) :
    probe n last (2 * n - 1) = last := by
  obtain ⟨m, rfl⟩ : ∃ m, n = m + 1 := ⟨n - 1, by omega⟩
  have htri : (2 * (m + 1) - 1) * (2 * (m + 1) - 1 + 1) / 2 = (2 * m + 1) * (m + 1) := by
    have hprod : (2 * (m + 1) - 1) * (2 * (m + 1) - 1 + 1) = (2 * m + 1) * (m + 1) * 2 := by
      rw [show 2 * (m + 1) - 1 = 2 * m + 1 by omega]
      ring
    rw [hprod, Nat.mul_div_cancel _ (by decide)]
  rw [probe, htri, Nat.add_mul_mod_self_right, Nat.mod_eq_of_lt h]

variable {checked : Bool} {Value : Type}

/-! ## Shape -/

/-- A table that has buckets: a power of two of them, and arrays of the size that
    goes with it. The last word may have room for the flags of more buckets; none
    of those is live. -/
structure Shaped (h : Khash checked Value) : Prop where
  nBuckets : ∃ k, 2 ≤ k ∧ k < 32 ∧ h.nBuckets = 2 ^ k
  flags : h.flags.length = acFsize h.nBuckets
  keys : h.keys.length = h.nBuckets
  vals : h.vals.length = h.nBuckets
  spare : ∀ i f, h.nBuckets ≤ i → flagsAt h.flags i = some f → f.live = false

/-- A table without buckets has no flags either. -/
def WellFormed (h : Khash checked Value) : Prop :=
  (h.nBuckets = 0 ∧ h.flags = []) ∨ h.Shaped

theorem wellFormed_init : (init : Khash checked Value).WellFormed := .inl ⟨rfl, rfl⟩

/-- Bucket `i` holds `key`. -/
def Holds (h : Khash checked Value) (i : Nat) (key : UInt32) : Prop :=
  i < h.nBuckets ∧ (∃ f, flagsAt h.flags i = some f ∧ f.live = true) ∧ h.keys[i]? = some key

/-- No bucket holds `key`. -/
def Absent (h : Khash checked Value) (key : UInt32) : Prop := ∀ i, ¬h.Holds i key

section Lookup

variable {h : Khash checked Value} (hs : h.Shaped)

include hs

theorem Shaped.four_le : 4 ≤ h.nBuckets := by
  obtain ⟨k, hk, -, hn⟩ := hs.nBuckets
  rw [hn]
  exact Nat.pow_le_pow_right Nat.two_pos hk

theorem Shaped.next_lt (i step : Nat) : next (h.nBuckets - 1) i step < h.nBuckets := by
  obtain ⟨k, -, hk, hn⟩ := hs.nBuckets
  rw [next_eq hn (by omega)]
  exact Nat.mod_lt _ (by have := hs.four_le; omega)

theorem Shaped.home_lt (key : UInt32) : home (h.nBuckets - 1) key < h.nBuckets := by
  obtain ⟨k, -, hk, hn⟩ := hs.nBuckets
  rw [home_eq hn]
  exact Nat.mod_lt _ (by have := hs.four_le; omega)

/-- The number of buckets fills the last word, or there is only one word. -/
theorem Shaped.sixteen : h.nBuckets = 4 ∨ h.nBuckets = 8 ∨ 16 ∣ h.nBuckets := by
  obtain ⟨k, hk, -, hn⟩ := hs.nBuckets
  rw [hn]
  obtain rfl | rfl | hk : k = 2 ∨ k = 3 ∨ 4 ≤ k := by omega
  · exact .inl rfl
  · exact .inr (.inl rfl)
  · exact .inr (.inr (Nat.pow_dvd_pow 2 hk))

theorem Shaped.flags_of_lt {i : Nat} (hi : i < h.nBuckets) : ∃ f, flagsAt h.flags i = some f := by
  apply flagsAt_eq_some
  rw [hs.flags, acFsize, Nat.shiftRight_eq_div_pow]
  have hsixteen := hs.sixteen
  split <;> omega

omit hs in
theorem examine_of_lt {i : Nat} (hi : i < h.nBuckets) : h.examine i = .ok () := by
  rw [examine, if_neg (by omega)]

/-- What the condition of a probing loop says about a bucket. -/
theorem Shaped.passes_eq (key : UInt32) {i : Nat} (hi : i < h.nBuckets) :
    ∃ f key', flagsAt h.flags i = some f ∧ h.keys[i]? = some key' ∧
      h.passes key i = .ok (!f.isempty && (f.isdel || key' ≠ key)) := by
  obtain ⟨f, hf⟩ := hs.flags_of_lt hi
  have hlt : i < h.keys.length := by
    rw [hs.keys]
    exact hi
  have hkey : h.keys[i]? = some h.keys[i] := List.getElem?_eq_getElem hlt
  refine ⟨f, _, hf, hkey, ?_⟩
  rw [passes, examine_of_lt hi, acIsempty_eq, acIsdel_eq, hf, hkey]
  obtain ⟨isempty, isdel⟩ := f
  cases isempty <;> cases isdel <;> simp

/-- The loop of `kh_get` ends, at the key or behind the last bucket. -/
theorem Shaped.getLoop_spec (key : UInt32) {last fuel i step : Nat} (hlast : last < h.nBuckets)
    (hi : i = probe h.nBuckets last step) (hback : step = 0 ∨ i ≠ last)
    (hfuel : step + fuel = 2 * h.nBuckets) (hpos : 0 < fuel) :
    h.getLoop key last fuel i step = .ok h.nBuckets ∨
      ∃ j, h.Holds j key ∧ h.getLoop key last fuel i step = .ok j := by
  have hn := hs.four_le
  have hlt : i < h.nBuckets := by
    rw [hi]
    exact Nat.mod_lt _ (by omega)
  -- the walk is not yet back at its start
  have hstep : step < 2 * h.nBuckets - 1 := by
    by_contra hge
    have heq : step = 2 * h.nBuckets - 1 := by omega
    rw [heq, probe_back (by omega) hlast] at hi
    omega
  induction fuel generalizing i step with
  | zero => omega
  | succ fuel ih =>
    obtain ⟨f, key', hf, hkey, hpasses⟩ := hs.passes_eq key hlt
    rw [getLoop, hpasses, Except.ok_bind]
    split
    · obtain ⟨k, -, hk, hpow⟩ := hs.nBuckets
      have hnext : next (h.nBuckets - 1) i step = probe h.nBuckets last (step + 1) := by
        rw [next_eq hpow (by omega), hi, probe_succ]
      simp only
      split
      · exact .inl rfl
      · rename_i hne
        have hstep' : step + 1 < 2 * h.nBuckets - 1 := by
          by_contra hge
          have heq : step + 1 = 2 * h.nBuckets - 1 := by omega
          rw [hnext, heq, probe_back (by omega) hlast] at hne
          exact hne rfl
        exact ih hnext (.inr hne) (by omega) (by omega) (hs.next_lt i step) hstep'
    · rename_i hstop
      rw [acIseither_eq, hf]
      cases hempty : f.isempty with
      | true =>
        left
        simp [BucketFlags.live, hempty]
      | false =>
        obtain ⟨hdel, rfl⟩ : f.isdel = false ∧ key' = key := by simpa [hempty] using hstop
        have hlive : f.live = true := by simp [BucketFlags.live, hempty, hdel]
        right
        exact ⟨i, ⟨hlt, ⟨f, hf, hlive⟩, hkey⟩, by simp [hlive]⟩

end Lookup

/-- `kh_get` finds the key or returns the index behind the last bucket. -/
theorem WellFormed.get_spec {h : Khash checked Value} (hw : h.WellFormed) (key : UInt32) :
    h.get key = .ok h.nBuckets ∨ ∃ i, h.Holds i key ∧ h.get key = .ok i := by
  rcases hw with ⟨hn, -⟩ | hs
  · left
    rw [get, if_neg (by simp [hn]), hn]
  · have hn := hs.four_le
    have hhome := hs.home_lt key
    rw [get, if_pos (by omega)]
    exact hs.getLoop_spec key hhome (probe_zero hhome).symm (.inl rfl) (by omega) (by omega)

/-- `kh_get` on a key that is not there. -/
theorem WellFormed.get_of_absent {h : Khash checked Value} (hw : h.WellFormed) {key : UInt32}
    (habsent : h.Absent key) : h.get key = .ok h.nBuckets := by
  rcases hw.get_spec key with hget | ⟨i, hholds, -⟩
  · exact hget
  · exact absurd hholds (habsent i)

/-! ## Values -/

/-- A lookup does not depend on the values. -/
theorem getLoop_vals (h : Khash checked Value) (vals : List Value) (key : UInt32)
    (last fuel i step : Nat) :
    ({ h with vals } : Khash checked Value).getLoop key last fuel i step =
      h.getLoop key last fuel i step := by
  induction fuel generalizing i step with
  | zero => rfl
  | succ fuel ih =>
    simp only [getLoop, ih]
    rfl

variable [Inhabited Value]

/-- Assigning to the value of a bucket changes nothing else. -/
theorem khSetValue_ok {h h' : Khash checked Value} {i : Nat} {v : Value}
    (hset : khSetValue h i v = .ok h') :
    h.examine i = .ok () ∧ i < h.vals.length ∧ h' = { h with vals := h.vals.set i v } := by
  simp only [khSetValue, Except.bind_eq_ok_iff] at hset
  obtain ⟨⟨⟩, hexamine, vals, hvals, hset⟩ := hset
  obtain ⟨hi, rfl⟩ := writeAt_ok hvals
  cases hset
  exact ⟨hexamine, hi, rfl⟩

instance : LawfulKhTable (Khash checked Value) where
  khGet_khSetValue := by
    intro t t' i v key hset
    obtain ⟨-, -, rfl⟩ := khSetValue_ok hset
    simp only [khGet, get, getLoop_vals]
  khEnd_khSetValue := by
    intro t t' i v hset
    obtain ⟨-, -, rfl⟩ := khSetValue_ok hset
    rfl
  khExist_khSetValue := by
    intro t t' i v j hset
    obtain ⟨-, -, rfl⟩ := khSetValue_ok hset
    rfl
  khValue_khSetValue_self := by
    intro t t' i v hset
    obtain ⟨hexamine, hi, rfl⟩ := khSetValue_ok hset
    rw [examine] at hexamine
    simp only [khValue, examine, hexamine, Except.ok_bind, List.getElem?_set_self hi, readOr_some]
  khValue_khSetValue_ne := by
    intro t t' i j v hset hne
    obtain ⟨-, -, rfl⟩ := khSetValue_ok hset
    simp only [khValue, examine, List.getElem?_set_ne (Ne.symm hne)]
  khSetValue_of_khValue := by
    intro t i v v' hvalue
    simp only [khValue, Except.bind_eq_ok_iff] at hvalue
    obtain ⟨⟨⟩, hexamine, hread⟩ := hvalue
    have hi : i < t.vals.length := by
      by_contra hge
      rw [List.getElem?_eq_none (by omega)] at hread
      cases hread
    exact ⟨_, by simp only [khSetValue, hexamine, writeAt_of_lt hi, Except.ok_bind]; rfl⟩

end Khash
