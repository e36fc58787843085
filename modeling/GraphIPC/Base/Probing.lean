-- SUMMARY: Open addressing in general: the buckets a key may be in, the first one that ends a search, and triangular steps.
import Mathlib.Data.Finset.Card
import Mathlib.Data.Nat.ModEq
import Mathlib.Data.Nat.Prime.Basic
import Mathlib.Tactic.Ring

/-!
# Probing

A table with open addressing looks for a key in one bucket after the other, along a
path that depends on the key. What makes this work is said here of any such path: it
comes by every bucket, and a key lies in a bucket that its path reaches before one that
was never used. Buckets may become used; those that are reached stay so.
-/

namespace Probing

/-- The first `n` steps of a path go to `n` different buckets. -/
structure Covers (n : Nat) (path : Nat → Nat) : Prop where
  lt : ∀ step, path step < n
  inj : ∀ a b, a < n → b < n → path a = path b → a = b

/-- The path comes by bucket `i` and meets only used buckets on the way there. -/
def Reached (used : Nat → Prop) (path : Nat → Nat) (i : Nat) : Prop :=
  ∃ step, path step = i ∧ ∀ s < step, used (path s)

variable {n : Nat} {path : Nat → Nat} {used used' stop : Nat → Prop} {i : Nat}

/-- A path comes by every bucket. -/
theorem Covers.exists_step (h : Covers n path) (hi : i < n) : ∃ step < n, path step = i := by
  have hmaps : Set.MapsTo path (Finset.range n) (Finset.range n) := fun step _ => by
    simpa using h.lt step
  have hinj : Set.InjOn path (Finset.range n) := fun a ha b hb hab =>
    h.inj a b (by simpa using ha) (by simpa using hb) hab
  have hsurj := Finset.surjOn_of_injOn_of_card_le path hmaps hinj le_rfl
  obtain ⟨step, hstep, heq⟩ := hsurj (by simpa using hi : i ∈ (Finset.range n : Set Nat))
  exact ⟨step, by simpa using hstep, heq⟩

/-- A search that can end somewhere ends within the first `n` steps. -/
theorem Covers.exists_first (h : Covers n path) (hstop : ∃ i < n, stop i) :
    ∃ step < n, stop (path step) ∧ ∀ s < step, ¬stop (path s) := by
  classical
  obtain ⟨i, hi, hend⟩ := hstop
  obtain ⟨step, hstep, rfl⟩ := h.exists_step hi
  have hex : ∃ step, stop (path step) := ⟨step, hend⟩
  exact ⟨Nat.find hex, (Nat.find_min' hex hend).trans_lt hstep, Nat.find_spec hex,
    fun s hs => Nat.find_min hex hs⟩

/-- No step of the first `n` but the first one goes to the bucket of the first. -/
theorem Covers.ne_first (h : Covers n path) {step : Nat} (hpos : 0 < step) (hstep : step < n) :
    path step ≠ path 0 := fun heq =>
  absurd (h.inj step 0 hstep (hpos.trans hstep) heq) (Nat.ne_of_gt hpos)

/-- Buckets that are reached stay so when more of them are used. -/
theorem Reached.mono (h : Reached used path i) (hused : ∀ j, used j → used' j) :
    Reached used' path i := by
  obtain ⟨step, hstep, hbefore⟩ := h
  exact ⟨step, hstep, fun s hs => hused _ (hbefore s hs)⟩

/-! ## Triangular steps -/

/-- Triangular numbers below a power of two have different remainders: of the two
    factors of the difference one is odd, and the other is too small. -/
theorem triangular_inj {k a b : Nat} (last : Nat) (hle : a ≤ b) (hb : b < 2 ^ k)
    (h : (last + a * (a + 1) / 2) % 2 ^ k = (last + b * (b + 1) / 2) % 2 ^ k) : a = b := by
  obtain ⟨d, rfl⟩ : ∃ d, b = a + d := ⟨b - a, by omega⟩
  have hmod : a * (a + 1) / 2 ≡ (a + d) * (a + d + 1) / 2 [MOD 2 ^ k] :=
    Nat.ModEq.add_left_cancel' last h
  obtain ⟨x, hx⟩ := (Nat.even_mul_succ_self a).two_dvd
  obtain ⟨y, hy⟩ := (Nat.even_mul_succ_self (a + d)).two_dvd
  rw [hx, hy, Nat.mul_div_cancel_left _ (by decide), Nat.mul_div_cancel_left _ (by decide)] at hmod
  have hprod : d * (2 * a + d + 1) + 2 * x = 2 * y := by
    rw [← hx, ← hy]
    ring
  have hdvd : 2 ^ (k + 1) ∣ d * (2 * a + d + 1) := by
    obtain ⟨c, hc⟩ := (Nat.modEq_iff_dvd' (by omega)).1 hmod
    have htwice : 2 * (y - x) = 2 ^ k * 2 * c := by
      rw [hc]
      ring
    exact ⟨c, by rw [pow_succ]; omega⟩
  have hpow : 2 ^ (k + 1) = 2 * 2 ^ k := by rw [pow_succ, Nat.mul_comm]
  have hd : d = 0 := by
    rcases Nat.even_or_odd d with heven | hodd
    · -- the second factor is odd
      have hodd : Odd (2 * a + d + 1) := by
        obtain ⟨c, rfl⟩ := heven
        exact ⟨a + c, by omega⟩
      have hcop : Nat.Coprime (2 ^ (k + 1)) (2 * a + d + 1) :=
        (Nat.coprime_two_left.2 hodd).pow_left _
      exact Nat.eq_zero_of_dvd_of_lt (hcop.dvd_of_dvd_mul_right hdvd) (by omega)
    · have hcop : Nat.Coprime (2 ^ (k + 1)) d := (Nat.coprime_two_left.2 hodd).pow_left _
      have hle := Nat.le_of_dvd (by omega) (hcop.dvd_of_dvd_mul_left hdvd)
      omega
  rw [hd, Nat.add_zero]

/-- Steps of one, two, three and so on go to all of a power of two of buckets. -/
theorem covers_triangular (k last : Nat) :
    Covers (2 ^ k) fun step => (last + step * (step + 1) / 2) % 2 ^ k where
  lt _ := Nat.mod_lt _ (Nat.two_pow_pos k)
  inj a b ha hb h := by
    rcases Nat.le_total a b with hle | hle
    · exact triangular_inj last hle hb h
    · exact (triangular_inj last hle ha h.symm).symm

end Probing
