-- SUMMARY: A counter taken modulo n: how often each residue comes up.
import Mathlib.Data.Int.CardIntervalMod

/-!
# Rotation

The residues of consecutive numbers go round. Among `m` of them, wherever they start,
each comes up as often as `n` goes into `m`, rounded down or up.
-/

/-- The residues modulo `n` of `m` consecutive numbers from `start` on. -/
def residues (n start m : Nat) : List Nat := (List.range m).map fun i => (start + i) % n

@[simp] theorem residues_zero (n start : Nat) : residues n start 0 = [] := rfl

theorem residues_succ (n start m : Nat) :
    residues n start (m + 1) = residues n start m ++ [(start + m) % n] := by
  simp [residues, List.range_succ]

@[simp] theorem length_residues (n start m : Nat) : (residues n start m).length = m := by
  simp [residues]

variable {n k : Nat} (start m : Nat)

/-- Each residue comes up at the numbers of one class. -/
theorem count_residues_eq (hk : k < n) :
    (residues n start m).count k = m.count (· ≡ k + (n - start % n) [MOD n]) := by
  have hiff : ∀ i, (start + i) % n = k ↔ i ≡ k + (n - start % n) [MOD n] := by
    intro i
    have hstart := Nat.mod_lt start (Nat.zero_lt_of_lt hk)
    have hmod : (start + i) % n = k ↔ start + i ≡ k [MOD n] := by
      rw [Nat.ModEq, Nat.mod_eq_of_lt hk]
    have hround : start + (n - start % n) ≡ 0 [MOD n] := by
      rw [Nat.modEq_zero_iff_dvd]
      have hsplit := Nat.div_add_mod start n
      exact ⟨start / n + 1, by rw [Nat.mul_add]; omega⟩
    have hshift : k ≡ start + (k + (n - start % n)) [MOD n] := by
      have hadd := (hround.add_left k).symm
      rw [Nat.add_zero] at hadd
      rwa [Nat.add_left_comm]
    rw [hmod]
    exact ⟨fun h => Nat.ModEq.add_left_cancel' start (h.trans hshift),
      fun h => (h.add_left start).trans hshift.symm⟩
  induction m with
  | zero => rfl
  | succ m ih =>
    rw [residues_succ, List.count_append, ih, Nat.count_succ]
    simp only [List.count_singleton, beq_iff_eq, hiff]

/-- Each residue comes up equally often, rounded down or up. -/
theorem count_residues (hk : k < n) :
    (residues n start m).count k = m / n ∨ (residues n start m).count k = (m + n - 1) / n := by
  have hn : 0 < n := Nat.zero_lt_of_lt hk
  rw [count_residues_eq start m hk, Nat.count_modEq_card m hn]
  split
  · rename_i hlt
    right
    have hup : m + n - 1 = (m % n - 1) + n * (m / n + 1) := by
      have hsplit := Nat.div_add_mod m n
      rw [Nat.mul_add, Nat.mul_one]
      omega
    have hsmall : m % n - 1 < n := by
      have hmod := Nat.mod_lt m hn
      omega
    rw [hup, Nat.add_mul_div_left _ _ hn, Nat.div_eq_of_lt hsmall, Nat.zero_add]
  · exact .inl (Nat.add_zero _)

/-- In one round each residue comes up once. -/
theorem count_residues_self (hk : k < n) : (residues n start n).count k = 1 := by
  have hn : 0 < n := Nat.zero_lt_of_lt hk
  rw [count_residues_eq start n hk, Nat.count_modEq_card n hn, Nat.mod_self, Nat.div_self hn,
    if_neg (Nat.not_lt_zero _)]
