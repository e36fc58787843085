-- SUMMARY: The trees of avl.c: their items in order, their balance factors, the search in them and the rotations.
import GraphIPC.Fault
import Mathlib.Data.List.Basic

/-!
# Binary trees with balance factors

`lib/avl.c` keeps its items in a binary tree whose nodes store the difference of the
heights of their subtrees. All of its operations descend by the sign of a comparison
between the item they were given and the item of a node; `f` stands for this
comparison with its first argument fixed. Nothing is asked of it here but what a
lemma says, so that the functions can be followed on comparisons that are no order.
-/

/-- `struct avl_node`, with the subtrees `avl_link[0]` and `avl_link[1]`. -/
inductive AvlNode (α : Type) where
  | null
  | node (data : α) (balance : Int) (left right : AvlNode α)
  deriving DecidableEq, Repr

namespace AvlNode

variable {α : Type}

/-- The items of a tree from left to right. -/
def toList : AvlNode α → List α
  | null => []
  | node a _ l r => l.toList ++ a :: r.toList

/-- The length of the longest path down a tree. -/
def height : AvlNode α → Nat
  | null => 0
  | node _ _ l r => max l.height r.height + 1

/-- Every node stores the difference of the heights of its subtrees, which is at most one. -/
def Balanced : AvlNode α → Prop
  | null => True
  | node _ b l r => b = r.height - l.height ∧ -1 ≤ b ∧ b ≤ 1 ∧ l.Balanced ∧ r.Balanced

@[simp] theorem toList_null : (null : AvlNode α).toList = [] := rfl

@[simp] theorem toList_node (a : α) (b : Int) (l r : AvlNode α) :
    (node a b l r).toList = l.toList ++ a :: r.toList := rfl

@[simp] theorem height_null : (null : AvlNode α).height = 0 := rfl

@[simp] theorem height_node (a : α) (b : Int) (l r : AvlNode α) :
    (node a b l r).height = max l.height r.height + 1 := rfl

@[simp] theorem balanced_null : (null : AvlNode α).Balanced := trivial

theorem balanced_node {a : α} {b : Int} {l r : AvlNode α} :
    (node a b l r).Balanced ↔
      b = r.height - l.height ∧ -1 ≤ b ∧ b ≤ 1 ∧ l.Balanced ∧ r.Balanced := Iff.rfl

/-- A tree that has a height is a node. -/
theorem exists_node {t : AvlNode α} (h : 0 < t.height) : ∃ a b l r, t = node a b l r := by
  cases t with
  | null => simp at h
  | node a b l r => exact ⟨a, b, l, r, rfl⟩

/-- `avl_find` -/
def avlFind (f : α → Int) : AvlNode α → Option α
  | null => none
  | node a _ l r => if f a < 0 then l.avlFind f else if 0 < f a then r.avlFind f else some a

/-! ## Searching in order -/

/-- A comparison with the items of a list falls: it is positive, then zero at no
    more than one item, then negative. -/
def Falls (f : α → Int) (items : List α) : Prop :=
  items.Pairwise fun a b => (f a ≤ 0 → f b < 0) ∧ (0 ≤ f b → 0 < f a)

theorem falls_node {f : α → Int} {a : α} {b : Int} {l r : AvlNode α}
    (h : Falls f (node a b l r).toList) :
    Falls f l.toList ∧ Falls f r.toList ∧ (0 ≤ f a → ∀ x ∈ l.toList, 0 < f x) ∧
      (f a ≤ 0 → ∀ x ∈ r.toList, f x < 0) := by
  unfold Falls at h
  rw [toList_node, List.pairwise_append, List.pairwise_cons] at h
  obtain ⟨hl, ⟨har, hr⟩, hlr⟩ := h
  refine ⟨hl, hr, ?_, ?_⟩
  · intro ha x hx
    exact (hlr x hx a List.mem_cons_self).2 ha
  · intro ha x hx
    exact (har x hx).1 ha

/-- What is found is in the tree and compares equal, whatever the comparison. -/
theorem avlFind_some {f : α → Int} {t : AvlNode α} {a : α} (h : t.avlFind f = some a) :
    a ∈ t.toList ∧ f a = 0 := by
  induction t with
  | null => cases h
  | node x b l r ihl ihr =>
    unfold avlFind at h
    split at h
    · have hl := ihl h
      exact ⟨by simp [hl.1], hl.2⟩
    · split at h
      · have hr := ihr h
        exact ⟨by simp [hr.1], hr.2⟩
      · cases h
        exact ⟨by simp, by omega⟩

/-- In a tree on which the comparison falls, nothing is missed. -/
theorem avlFind_none {f : α → Int} {t : AvlNode α} (hf : Falls f t.toList)
    (h : t.avlFind f = none) : ∀ a ∈ t.toList, f a ≠ 0 := by
  induction t with
  | null => simp
  | node x b l r ihl ihr =>
    obtain ⟨hfl, hfr, hleft, hright⟩ := falls_node hf
    intro a ha
    unfold avlFind at h
    rw [toList_node, List.mem_append, List.mem_cons] at ha
    split at h
    · rename_i hneg
      rcases ha with hl | rfl | hr
      · exact ihl hfl h a hl
      · omega
      · have := hright (by omega) a hr
        omega
    · split at h
      · rename_i hpos
        rcases ha with hl | rfl | hr
        · have := hleft (by omega) a hl
          omega
        · omega
        · exact ihr hfr h a hr
      · cases h

end AvlNode
