-- SUMMARY: Words compared by the sign of their difference: on which sets of words this is a total order.
import Mathlib.Data.BitVec
import Mathlib.Data.Fintype.Card
import Mathlib.Tactic.IntervalCases
import Mathlib.Data.Nat.Bitwise

/-!
# Words on a circle

The words of 32 bits lie on a circle. The difference of two of them, read as a signed
number, is the shorter way around it, with its direction. Its sign is a total order on
words that lie in one half of the circle, and on no other set of words.
-/

/-- A comparison of keys by its sign, in use on those of a set: it is antisymmetric and
    transitive, and zero only on the diagonal. -/
structure OrderOn {α : Type*} (keys : α → Prop) (compare : α → α → Int) : Prop where
  antisymm : ∀ a b, keys a → keys b → (0 < compare a b ↔ compare b a < 0)
  trans : ∀ a b c, keys a → keys b → keys c →
    compare a b < 0 → compare b c < 0 → compare a c < 0
  eq_of_zero : ∀ a b, keys a → keys b → compare a b = 0 → a = b

namespace OrderOn

variable {α : Type*} {keys : α → Prop} {compare : α → α → Int}

/-- A finite set of keys that is not empty has a least one. -/
theorem exists_least (h : OrderOn keys compare) [Finite α] (hne : ∃ a, keys a) :
    ∃ m, keys m ∧ ∀ a, keys a → a = m ∨ 0 < compare a m := by
  let r : {a // keys a} → {a // keys a} → Prop := fun a b => compare a.1 b.1 < 0
  have hirrefl : ∀ a, ¬r a a := by
    intro a ha
    have := (h.antisymm a.1 a.1 a.2 a.2).2 ha
    change compare a.1 a.1 < 0 at ha
    omega
  have htrans : ∀ a b c, r a b → r b c → r a c := fun a b c hab hbc =>
    h.trans a.1 b.1 c.1 a.2 b.2 c.2 hab hbc
  have : IsTrans {a // keys a} r := ⟨htrans⟩
  have : Std.Irrefl r := ⟨hirrefl⟩
  obtain ⟨a, ha⟩ := hne
  obtain ⟨m, -, hm⟩ := (Finite.wellFounded_of_trans_of_irrefl r).has_min Set.univ ⟨⟨a, ha⟩, trivial⟩
  refine ⟨m.1, m.2, fun b hb => ?_⟩
  have hmin : ¬compare b m.1 < 0 := hm ⟨b, hb⟩ trivial
  by_cases hzero : compare b m.1 = 0
  · exact .inl (h.eq_of_zero b m.1 hb m.2 hzero)
  · exact .inr (by omega)

end OrderOn

namespace UInt32

instance instFiniteCircle : Finite UInt32 :=
  Finite.of_injective (fun a : UInt32 => a.toBitVec.toFin) fun a b h => by
    apply UInt32.toBitVec_inj.1
    apply BitVec.eq_of_toFin_eq
    exact h

/-- The difference of two words as a signed number. -/
def signedSub (a b : UInt32) : Int := (a - b).toBitVec.toInt

/-- The words of a set lie in the half of the circle that begins at some base. -/
def HalfCircle (keys : UInt32 → Prop) : Prop :=
  ∃ base : UInt32, ∀ a, keys a → (a - base).toNat < 2 ^ 31

theorem signedSub_eq (a b : UInt32) :
    signedSub a b =
      if (a - b).toNat < 2 ^ 31 then ((a - b).toNat : Int) else (a - b).toNat - 2 ^ 32 := by
  have hlt : (a - b).toNat < 2 ^ 32 := UInt32.toNat_lt _
  unfold signedSub
  rw [BitVec.toInt_eq_toNat_cond, UInt32.toNat_toBitVec]
  split_ifs <;> omega

@[simp] theorem signedSub_eq_zero {a b : UInt32} : signedSub a b = 0 ↔ a = b := by
  have hlt : (a - b).toNat < 2 ^ 32 := UInt32.toNat_lt _
  have ha := UInt32.toNat_lt a
  have hb := UInt32.toNat_lt b
  rw [signedSub_eq, ← UInt32.toNat_inj]
  rw [UInt32.toNat_sub] at hlt ⊢
  split_ifs <;> omega

/-- Within a half of the circle the signed difference is that of the ways from its base. -/
theorem signedSub_of_base {base a b : UInt32} (ha : (a - base).toNat < 2 ^ 31)
    (hb : (b - base).toNat < 2 ^ 31) :
    signedSub a b = ((a - base).toNat : Int) - (b - base).toNat := by
  have hltA := UInt32.toNat_lt a
  have hltB := UInt32.toNat_lt b
  have hltBase := UInt32.toNat_lt base
  rw [signedSub_eq]
  rw [UInt32.toNat_sub] at ha hb ⊢
  rw [UInt32.toNat_sub, UInt32.toNat_sub]
  split_ifs <;> omega

theorem HalfCircle.mono {keys keys' : UInt32 → Prop} (h : HalfCircle keys)
    (hsub : ∀ a, keys' a → keys a) : HalfCircle keys' := by
  obtain ⟨base, hbase⟩ := h
  exact ⟨base, fun a ha => hbase a (hsub a ha)⟩

theorem HalfCircle.orderOn {keys : UInt32 → Prop} (h : HalfCircle keys) :
    OrderOn keys signedSub := by
  obtain ⟨base, hbase⟩ := h
  constructor
  · intro a b ha hb
    rw [signedSub_of_base (hbase a ha) (hbase b hb), signedSub_of_base (hbase b hb) (hbase a ha)]
    omega
  · intro a b c ha hb hc
    rw [signedSub_of_base (hbase a ha) (hbase b hb), signedSub_of_base (hbase b hb) (hbase c hc),
      signedSub_of_base (hbase a ha) (hbase c hc)]
    omega
  · intro a b _ _ hzero
    exact signedSub_eq_zero.1 hzero

/-- The signed difference orders the words of a set just if they lie in a half of the
    circle: it is then the half that begins at the least of them. -/
theorem orderOn_iff {keys : UInt32 → Prop} : OrderOn keys signedSub ↔ HalfCircle keys := by
  refine ⟨fun h => ?_, HalfCircle.orderOn⟩
  by_cases hne : ∃ a, keys a
  · obtain ⟨m, -, hm⟩ := h.exists_least hne
    refine ⟨m, fun a ha => ?_⟩
    rcases hm a ha with rfl | hpos
    · simp
    · rw [signedSub_eq] at hpos
      have hlt : (a - m).toNat < 2 ^ 32 := UInt32.toNat_lt _
      split_ifs at hpos <;> omega
  · exact ⟨0, fun a ha => absurd ⟨a, ha⟩ hne⟩

end UInt32
