-- SUMMARY: The flag words of a khash table, read and written as one pair of flags for each bucket.
import GraphIPC.Base.Word
import GraphIPC.Klib.Khash

/-!
# Flags of buckets

Sixteen pairs of flags share a word. Through `flagsAt` an array of words is an
array of pairs: the macros that test flags read one pair, and those that set
flags replace one pair and keep the others.
-/

/-- The flags of one bucket. -/
structure BucketFlags where
  isempty : Bool
  isdel : Bool
  deriving DecidableEq, Repr

/-- The bucket holds a key. -/
def BucketFlags.live (f : BucketFlags) : Bool := !f.isempty && !f.isdel

/-- The flags in one of the sixteen slots of a word. -/
def wordFlags (w : UInt32) (slot : Nat) : BucketFlags where
  isempty := w.bit (2 * slot + 1)
  isdel := w.bit (2 * slot)

/-- The flags of bucket `i`, if there is a word for them. -/
def flagsAt (flag : List UInt32) (i : Nat) : Option BucketFlags :=
  (flag[i / 16]?).map fun w => wordFlags w (i % 16)

theorem shift_index (i : Nat) : i >>> 4 = i / 16 := Nat.shiftRight_eq_div_pow i 4

theorem shift_slot (i : Nat) : (i &&& 0xf) <<< 1 = 2 * (i % 16) := by
  rw [show (0xf : Nat) = 2 ^ 4 - 1 from rfl, Nat.and_two_pow_sub_one_eq_mod, Nat.shiftLeft_eq]
  omega

theorem flagsAt_isSome_iff {flag : List UInt32} {i : Nat} :
    (flagsAt flag i).isSome ↔ i / 16 < flag.length := by
  simp [flagsAt]

/-- There are no flags behind the words. -/
theorem flagsAt_eq_none {flag : List UInt32} {i : Nat} (h : flag.length ≤ i / 16) :
    flagsAt flag i = none := by
  rw [flagsAt, List.getElem?_eq_none h]
  rfl

theorem flagsAt_eq_some {flag : List UInt32} {i : Nat} (h : i / 16 < flag.length) :
    ∃ f, flagsAt flag i = some f :=
  Option.isSome_iff_exists.1 (flagsAt_isSome_iff.2 h)

/-- `memset(flags, 0xaa, ..)` marks every bucket as empty. -/
theorem flagsAt_replicate {n i : Nat} (h : i / 16 < n) :
    flagsAt (List.replicate n 0xaaaaaaaa) i = some ⟨true, false⟩ := by
  have hslot : ∀ s : Fin 16, wordFlags 0xaaaaaaaa s = ⟨true, false⟩ := by decide
  rw [flagsAt, List.getElem?_replicate_of_lt h]
  exact congrArg some (hslot ⟨i % 16, Nat.mod_lt i (by decide)⟩)

/-! ## Tests -/

/-- A test for bits that decide `p` of the flags in a slot tells `p` of a
    bucket. -/
theorem acTest_eq {bits : UInt32} {p : BucketFlags → Bool}
    (hp : ∀ w slot, (∃ k, w.bit (2 * slot + k) ∧ bits.bit k) ↔ p (wordFlags w slot))
    (flag : List UInt32) (i : Nat) :
    acTest flag i bits = readOr ((flagsAt flag i).map p) := by
  rw [acTest, shift_index, shift_slot, flagsAt]
  cases flag[i / 16]? with
  | none => rfl
  | some w =>
    have hs : 2 * (i % 16) < 32 := by omega
    have htest : decide (w >>> UInt32.ofNat (2 * (i % 16)) &&& bits ≠ 0) =
        p (wordFlags w (i % 16)) := by
      rw [Bool.eq_iff_iff, decide_eq_true_iff, UInt32.and_ne_zero_iff, ← hp]
      simp only [UInt32.bit_shiftRight w hs]
    simp only [readOr_some, Except.ok_bind, Except.pure_eq_ok, Option.map_some, htest]

theorem acIsempty_eq (flag : List UInt32) (i : Nat) :
    acIsempty flag i = readOr ((flagsAt flag i).map (·.isempty)) := by
  apply acTest_eq
  simp [wordFlags]

theorem acIsdel_eq (flag : List UInt32) (i : Nat) :
    acIsdel flag i = readOr ((flagsAt flag i).map (·.isdel)) := by
  apply acTest_eq
  simp [wordFlags]

theorem acIseither_eq (flag : List UInt32) (i : Nat) :
    acIseither flag i = readOr ((flagsAt flag i).map fun f => !f.live) := by
  apply acTest_eq
  intro w slot
  simp only [wordFlags, BucketFlags.live, UInt32.bit_three, decide_eq_true_iff, and_or_left,
    exists_or, exists_eq_right]
  cases w.bit (2 * slot + 1) <;> cases w.bit (2 * slot) <;> simp

/-! ## Updates -/

/-- Writing a word that differs in one slot replaces the flags of one bucket. -/
theorem flagsAt_set {flag : List UInt32} {i : Nat} {w w' : UInt32} (hw : flag[i / 16]? = some w)
    (hne : ∀ slot, slot < 16 → slot ≠ i % 16 → wordFlags w' slot = wordFlags w slot) (j : Nat) :
    flagsAt (flag.set (i / 16) w') j =
      if j = i then some (wordFlags w' (i % 16)) else flagsAt flag j := by
  have hi : i / 16 < flag.length := (List.getElem?_eq_some_iff.1 hw).1
  rw [flagsAt, List.getElem?_set]
  by_cases hji : j = i
  · subst hji
    simp [hi]
  rw [if_neg hji]
  split
  · rename_i hword
    rw [Option.map_some, hne _ (Nat.mod_lt j (by decide)) (by omega), flagsAt, ← hword,
      hw, Option.map_some]
  · rfl

/-- Clearing bits of a bucket. -/
theorem acClear_ok {flag flag' : List UInt32} {i : Nat} {bits : UInt32}
    (hbits : ∀ k, bits.bit k → k < 2) (h : acClear flag i bits = .ok flag') :
    flag'.length = flag.length ∧ ∃ f, flagsAt flag i = some f ∧
      ∀ j, flagsAt flag' j =
        if j = i then some ⟨f.isempty && !bits.bit 1, f.isdel && !bits.bit 0⟩
        else flagsAt flag j := by
  rw [acClear, shift_index, shift_slot] at h
  cases hw : flag[i / 16]? with
  | none =>
    rw [hw] at h
    cases h
  | some w =>
    rw [hw] at h
    cases h
    have h₀ : 2 * (i % 16) < 32 := by omega
    have h₁ : 2 * (i % 16) + 1 < 32 := by omega
    refine ⟨List.length_set, _, by rw [flagsAt, hw]; rfl, fun j => ?_⟩
    rw [flagsAt_set hw ?_ j]
    · have hlt : ¬2 * (i % 16) + 1 < 2 * (i % 16) := by omega
      simp only [wordFlags, UInt32.bit_and, UInt32.bit_not _ h₁, UInt32.bit_not _ h₀,
        UInt32.bit_shiftLeft _ h₀ h₁, UInt32.bit_shiftLeft _ h₀ h₀]
      simp [hlt]
    · intro slot hs hne
      -- the mask has no bits in the other slots
      have hclear : ∀ b, b < 2 → (w &&& ~~~(bits <<< UInt32.ofNat (2 * (i % 16)))).bit
          (2 * slot + b) = w.bit (2 * slot + b) := by
        intro b hb
        have hk : 2 * slot + b < 32 := by omega
        rw [UInt32.bit_and, UInt32.bit_not _ hk, UInt32.bit_shiftLeft _ h₀ hk]
        by_cases hlt : 2 * slot + b < 2 * (i % 16)
        · simp [hlt]
        · have hbit : bits.bit (2 * slot + b - 2 * (i % 16)) = false := by
            rw [Bool.eq_false_iff]
            intro hbit
            have hsmall := hbits _ hbit
            omega
          simp [hbit]
      have hempty := hclear 1 (by decide)
      have hdel := hclear 0 (by decide)
      rw [Nat.add_zero] at hdel
      simp only [wordFlags, hempty, hdel]

theorem acSetIsemptyFalse_ok {flag flag' : List UInt32} {i : Nat}
    (h : acSetIsemptyFalse flag i = .ok flag') :
    flag'.length = flag.length ∧ ∃ f, flagsAt flag i = some f ∧
      ∀ j, flagsAt flag' j = if j = i then some ⟨false, f.isdel⟩ else flagsAt flag j := by
  have hclear : acClear flag i 2 = .ok flag' := h
  simpa using acClear_ok (by simp) hclear

theorem acSetIsbothFalse_ok {flag flag' : List UInt32} {i : Nat}
    (h : acSetIsbothFalse flag i = .ok flag') :
    flag'.length = flag.length ∧ ∃ f, flagsAt flag i = some f ∧
      ∀ j, flagsAt flag' j = if j = i then some ⟨false, false⟩ else flagsAt flag j := by
  have hclear : acClear flag i 3 = .ok flag' := h
  simpa using acClear_ok (by simp) hclear

theorem acSetIsdelTrue_ok {flag flag' : List UInt32} {i : Nat}
    (h : acSetIsdelTrue flag i = .ok flag') :
    flag'.length = flag.length ∧ ∃ f, flagsAt flag i = some f ∧
      ∀ j, flagsAt flag' j = if j = i then some ⟨f.isempty, true⟩ else flagsAt flag j := by
  rw [acSetIsdelTrue, shift_index, shift_slot] at h
  cases hw : flag[i / 16]? with
  | none =>
    rw [hw] at h
    cases h
  | some w =>
    rw [hw] at h
    cases h
    have h₀ : 2 * (i % 16) < 32 := by omega
    refine ⟨List.length_set, _, by rw [flagsAt, hw]; rfl, fun j => ?_⟩
    rw [flagsAt_set hw ?_ j]
    · have h₁ : 2 * (i % 16) + 1 < 32 := by omega
      simp only [wordFlags, UInt32.bit_or, UInt32.bit_shiftLeft _ h₀ h₁,
        UInt32.bit_shiftLeft _ h₀ h₀]
      simp
    · intro slot hs hne
      have h₁ : 2 * slot + 1 < 32 := by omega
      have h₂ : 2 * slot < 32 := by omega
      simp only [wordFlags, UInt32.bit_or, UInt32.bit_shiftLeft _ h₀ h₁,
        UInt32.bit_shiftLeft _ h₀ h₂]
      simp
      omega
