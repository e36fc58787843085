-- SUMMARY: The bits of a 32-bit word, and how the bitwise operators act on them.
import Mathlib.Data.BitVec
import Mathlib.Data.Nat.Bitwise

/-!
# Words as bit sequences

Code that packs small fields into a word tests and sets them with masks. A mask
that is shifted to a field is best understood one bit at a time.
-/

namespace UInt32

/-- Bit `k` of a word, and `false` beyond its width. -/
def bit (w : UInt32) (k : Nat) : Bool := w.toBitVec.getLsbD k

/-- Words with the same bits are equal. Only the bits of the width count. -/
theorem eq_of_bit_eq_of_lt {v w : UInt32} (h : ∀ k < 32, v.bit k = w.bit k) : v = w := by
  apply UInt32.toBitVec_inj.1
  apply BitVec.eq_of_getLsbD_eq
  exact h

theorem eq_of_bit_eq {v w : UInt32} (h : ∀ k, v.bit k = w.bit k) : v = w :=
  eq_of_bit_eq_of_lt fun k _ => h k

@[simp] theorem bit_zero (k : Nat) : (0 : UInt32).bit k = false := by
  simp [bit]

@[simp] theorem bit_one (k : Nat) : (1 : UInt32).bit k = decide (k = 0) := by
  simp [bit, BitVec.getLsbD_one]

@[simp] theorem bit_and (v w : UInt32) (k : Nat) : (v &&& w).bit k = (v.bit k && w.bit k) := by
  simp [bit]

@[simp] theorem bit_or (v w : UInt32) (k : Nat) : (v ||| w).bit k = (v.bit k || w.bit k) := by
  simp [bit]

theorem bit_not (w : UInt32) {k : Nat} (hk : k < 32) : (~~~w).bit k = !w.bit k := by
  simp [bit, hk]

@[simp] theorem bit_two (k : Nat) : (2 : UInt32).bit k = decide (k = 1) := by
  have h := BitVec.getLsbD_twoPow (w := 32) 1 k
  rw [show BitVec.twoPow 32 1 = (2 : UInt32).toBitVec from rfl] at h
  rw [bit, h]
  simp [eq_comm]

@[simp] theorem bit_three (k : Nat) : (3 : UInt32).bit k = decide (k = 0 ∨ k = 1) := by
  rw [show (3 : UInt32) = 1 ||| 2 from rfl, bit_or, bit_one, bit_two, Bool.decide_or]

/-- What a shift by less than the width shifts by. -/
theorem toNat_shift {s : Nat} (hs : s < 32) : ((UInt32.ofNat s).toBitVec % 32).toNat = s := by
  simp [BitVec.toNat_umod]
  omega

theorem bit_shiftRight (w : UInt32) {s : Nat} (hs : s < 32) (k : Nat) :
    (w >>> UInt32.ofNat s).bit k = w.bit (s + k) := by
  rw [bit, UInt32.toBitVec_shiftRight, BitVec.ushiftRight_eq', BitVec.getLsbD_ushiftRight,
    toNat_shift hs, bit]

theorem bit_shiftLeft (w : UInt32) {s k : Nat} (hs : s < 32) (hk : k < 32) :
    (w <<< UInt32.ofNat s).bit k = (!decide (k < s) && w.bit (k - s)) := by
  rw [bit, UInt32.toBitVec_shiftLeft, BitVec.shiftLeft_eq', BitVec.getLsbD_shiftLeft,
    toNat_shift hs, bit]
  simp [hk]

/-- A mask finds something in a word if they share a bit. -/
theorem and_ne_zero_iff {v m : UInt32} : v &&& m ≠ 0 ↔ ∃ k, v.bit k = true ∧ m.bit k = true := by
  constructor
  · intro h
    by_contra hk
    simp only [not_exists, not_and, Bool.not_eq_true] at hk
    apply h
    apply eq_of_bit_eq
    intro k
    simpa using hk k
  · rintro ⟨k, hv, hm⟩ h
    have hk : (v &&& m).bit k = true := by rw [bit_and, hv, hm]; rfl
    rw [h, bit_zero] at hk
    cases hk

/-- The bits under a mask, put together with the others. -/
theorem masked_self (m a : UInt32) : a &&& m ||| a &&& ~~~m = a := by
  apply eq_of_bit_eq_of_lt
  intro k hk
  rw [bit_or, bit_and, bit_and, bit_not m hk]
  cases m.bit k <;> simp

/-- The bits that are not under the mask. -/
theorem masked_and_not (m x a : UInt32) : (x &&& m ||| a &&& ~~~m) &&& ~~~m = a &&& ~~~m := by
  apply eq_of_bit_eq_of_lt
  intro k hk
  simp only [bit_or, bit_and, bit_not m hk]
  cases m.bit k <;> simp

theorem masked_and (m x a : UInt32) : (x &&& m ||| a &&& ~~~m) &&& m = x &&& m := by
  apply eq_of_bit_eq_of_lt
  intro k hk
  simp only [bit_or, bit_and, bit_not m hk]
  cases m.bit k <;> simp

/-- Two words that are put together from the bits under a mask and the others are equal
    just if both parts are. -/
theorem masked_eq_iff {m x y a b : UInt32} :
    x &&& m ||| a &&& ~~~m = y &&& m ||| b &&& ~~~m ↔
      x &&& m = y &&& m ∧ a &&& ~~~m = b &&& ~~~m := by
  constructor
  · intro h
    constructor
    · rw [← masked_and m x a, h, masked_and]
    · rw [← masked_and_not m x a, h, masked_and_not]
  · rintro ⟨hx, ha⟩
    rw [hx, ha]

/-! ## Low bits -/

/-- A mask of the bits below some position. -/
def LowBits (mask : UInt32) : Prop := ∃ n, mask.toNat + 1 = 2 ^ n

section LowBits

variable {mask : UInt32} (h : mask.LowBits)
include h

/-- Such a mask takes a remainder. -/
theorem LowBits.toNat_and (x : UInt32) : (x &&& mask).toNat = x.toNat % (mask.toNat + 1) := by
  obtain ⟨n, hn⟩ := h
  rw [UInt32.toNat_and, show mask.toNat = 2 ^ n - 1 by omega, Nat.and_two_pow_sub_one_eq_mod,
    ← show mask.toNat = 2 ^ n - 1 by omega, hn]

theorem LowBits.dvd : mask.toNat + 1 ∣ 2 ^ 32 := by
  obtain ⟨n, hn⟩ := h
  have hlt := mask.toNat_lt
  rw [hn]
  apply Nat.pow_dvd_pow
  by_contra hlarge
  have hpow : 2 ^ 33 ≤ 2 ^ n := Nat.pow_le_pow_right (by omega) (by omega)
  omega

theorem LowBits.toNat_ofNat_and (k : Nat) :
    (UInt32.ofNat k &&& mask).toNat = k % (mask.toNat + 1) := by
  rw [h.toNat_and, UInt32.toNat_ofNat', Nat.mod_mod_of_dvd k h.dvd]

theorem LowBits.ofNat_and_eq_iff {j k : Nat} :
    UInt32.ofNat j &&& mask = UInt32.ofNat k &&& mask ↔
      j % (mask.toNat + 1) = k % (mask.toNat + 1) := by
  rw [← UInt32.toNat_inj, h.toNat_ofNat_and, h.toNat_ofNat_and]

/-- A counter that is kept under the mask. -/
theorem LowBits.succ_and (k : Nat) :
    ((UInt32.ofNat k &&& mask) + 1) &&& mask = UInt32.ofNat (k + 1) &&& mask := by
  apply UInt32.toNat_inj.1
  rw [h.toNat_and, UInt32.toNat_add, Nat.mod_mod_of_dvd _ h.dvd, h.toNat_ofNat_and,
    h.toNat_ofNat_and, Nat.add_mod, Nat.mod_mod, ← Nat.add_mod]
  rfl

end LowBits

end UInt32
