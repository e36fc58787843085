-- SUMMARY: The arrays in which avl.c keeps its way through a tree: how many cells a call uses, and how many entries they are enough for.
import Mathlib.Data.Nat.Fib.Basic
import GraphIPC.Tables.IndexTable

/-!
# The way through a tree

`avl_probe` and `avl_delete` keep the nodes and the turns on their way in arrays of
`AVL_MAX_HEIGHT` cells and do not look at their ends. A tree of a height has at least as
many entries as a Fibonacci number says, whatever the comparison that it was built with.
So the arrays are long enough as long as the table stays smaller than that.
-/

def AVL_MAX_HEIGHT : Nat := 32

namespace AvlNode

variable {α : Type}

/-! ## The cells of the arrays -/

/-- The cells of `da` that the loop of `avl_probe` uses from a node on, where `k` results
    are cached. They start over at a node whose balance is not zero. -/
def probeCells (f : α → Int) : AvlNode α → Nat → Nat
  | null, _ => 0
  | node a b l r, k =>
    if f a = 0 then 0
    else
      let k := if b ≠ 0 then 0 else k
      if 0 < f a then max (k + 1) (r.probeCells f (k + 1))
      else max (k + 1) (l.probeCells f (k + 1))

/-- The cells of `pa` and `da` that the loop of `avl_delete` over `r` has used at its end. -/
def spineCells : AvlNode α → Nat → Nat
  | null, k => k
  | node _ _ l _, k =>
    match l with
    | null => k
    | node .. => l.spineCells (k + 1)

/-- The cells used when the node that takes the place of the deleted one has been found in
    its right subtree. -/
def placeCells : AvlNode α → Nat → Nat
  | null, k => k
  | node a b l r, k => (node a b l r).spineCells (k + 1)

/-- The cells of `pa` and `da` that `avl_delete` uses from the node `p` on. -/
def deleteCells (f : α → Int) : AvlNode α → Nat → Nat
  | null, k => k
  | node a _ l r, k =>
    if f a = 0 then r.placeCells k
    else if 0 < f a then r.deleteCells f (k + 1)
    else l.deleteCells f (k + 1)

theorem probeCells_le (f : α → Int) (t : AvlNode α) (k : Nat) :
    t.probeCells f k ≤ k + t.height := by
  induction t generalizing k with
  | null => exact Nat.zero_le _
  | node a b l r ihl ihr =>
    simp only [probeCells, height_node]
    split
    · omega
    have hk : (if b ≠ 0 then 0 else k) ≤ k := by split <;> omega
    split
    · have hr := ihr ((if b ≠ 0 then 0 else k) + 1)
      omega
    · have hl := ihl ((if b ≠ 0 then 0 else k) + 1)
      omega

theorem spineCells_le (t : AvlNode α) (k : Nat) : t.spineCells k ≤ k + t.height := by
  induction t generalizing k with
  | null => exact Nat.le_add_right ..
  | node a b l r ihl _ =>
    cases l with
    | null => exact Nat.le_add_right ..
    | node =>
      have hl := ihl (k + 1)
      rw [spineCells, height_node]
      omega

theorem placeCells_le (t : AvlNode α) (k : Nat) : t.placeCells k ≤ k + 1 + t.height := by
  cases t with
  | null => exact Nat.le_add_right ..
  | node a b l r => exact spineCells_le (node a b l r) (k + 1)

theorem deleteCells_le (f : α → Int) (t : AvlNode α) (k : Nat) :
    t.deleteCells f k ≤ k + t.height := by
  induction t generalizing k with
  | null => exact Nat.le_add_right ..
  | node a b l r ihl ihr =>
    rw [deleteCells, height_node]
    split
    · have hplace := placeCells_le r k
      omega
    split
    · have hr := ihr (k + 1)
      omega
    · have hl := ihl (k + 1)
      omega

/-! ## The height of a tree -/

/-- A balanced tree has at least the entries of the smallest one of its height. -/
theorem fib_height_le {t : AvlNode α} (h : t.Balanced) :
    Nat.fib (t.height + 2) ≤ t.toList.length + 1 := by
  induction t with
  | null => exact Nat.le_refl 1
  | node a b l r ihl ihr =>
    obtain ⟨hb, hlo, hhi, hl, hr⟩ := balanced_node.1 h
    have hleft := ihl hl
    have hright := ihr hr
    have hfib : ∀ h, Nat.fib (h + 1 + 2) = Nat.fib (h + 1) + Nat.fib (h + 2) := fun _ =>
      Nat.fib_add_two
    simp only [height_node, toList_node, List.length_append, List.length_cons]
    rw [hfib]
    rcases Nat.le_total l.height r.height with hle | hle
    · -- the left subtree is at most one lower
      have hmono : Nat.fib (r.height + 1) ≤ Nat.fib (l.height + 2) := Nat.fib_mono (by omega)
      rw [Nat.max_eq_right hle]
      omega
    · have hmono : Nat.fib (l.height + 1) ≤ Nat.fib (r.height + 2) := Nat.fib_mono (by omega)
      rw [Nat.max_eq_left hle]
      omega

/-- The smallest tree of a height, which leans to the left. -/
def leaning : Nat → AvlNode Unit
  | 0 => null
  | 1 => node () 0 null null
  | h + 2 => node () (-1) (leaning (h + 1)) (leaning h)

theorem leaning_height : ∀ h, (leaning h).height = h
  | 0 => rfl
  | 1 => rfl
  | h + 2 => by
    rw [leaning, height_node, leaning_height (h + 1), leaning_height h]
    omega

theorem leaning_balanced : ∀ h, (leaning h).Balanced
  | 0 => trivial
  | 1 => by simp [leaning, balanced_node]
  | h + 2 => by
    rw [leaning, balanced_node, leaning_height, leaning_height]
    refine ⟨?_, by omega, by omega, leaning_balanced (h + 1), leaning_balanced h⟩
    omega

theorem leaning_length : ∀ h, (leaning h).toList.length + 1 = Nat.fib (h + 2)
  | 0 => rfl
  | 1 => rfl
  | h + 2 => by
    have hleft := leaning_length (h + 1)
    have hright := leaning_length h
    rw [leaning, toList_node, List.length_append, List.length_cons, Nat.fib_add_two, ← hleft,
      ← hright]
    omega

/-- A search that always turns left comes down the whole height of it. -/
theorem leaning_deleteCells : ∀ h k, (leaning h).deleteCells (fun _ => -1) k = k + h
  | 0, _ => rfl
  | 1, _ => rfl
  | h + 2, k => by
    have hleft := leaning_deleteCells (h + 1) (k + 1)
    rw [leaning, deleteCells, if_neg (by decide), if_neg (by decide), hleft]
    omega

end AvlNode

/-! ## The calls of the table -/

variable {δ : Type}

/-- The cells that a call uses of each array of `avl.c`. `avl_delete` has used one when it
    comes to the root. -/
def TableCall.cells (table : IndexTable δ) : TableCall δ → Nat
  | .put address data => table.probeCells (compareItem { address, data }) 0
  | .remove address => table.deleteCells (compareItem { address, data := none }) 1

/-- The entries that a table of a height that is too much has at least. -/
def maxEntries : Nat := Nat.fib (AVL_MAX_HEIGHT + 2) - 1

/-- A call keeps the tree balanced, in order or not. -/
theorem tableStep_balanced {table : IndexTable δ} (h : table.Balanced) (call : TableCall δ) :
    ∃ table' result, tableStep table call = .ok (table', result) ∧ table'.Balanced := by
  cases call with
  | put address data =>
    obtain ⟨table', duplicate, hinsert, hbalanced, -⟩ :=
      AvlNode.avlInsert_spec (compareItem { address, data }) { address, data } h
    exact ⟨table', data, by simp [tableStep, tablePut, hinsert], hbalanced⟩
  | remove address =>
    rcases AvlNode.avlDelete_spec (compareItem { address, data := none }) h with
      ⟨hdelete, -⟩ | ⟨item, table', hdelete, -, hbalanced, -⟩
    · exact ⟨table, none, by simp [tableStep, tableRemove, hdelete], h⟩
    · exact ⟨table', item.data, by simp [tableStep, tableRemove, hdelete], hbalanced⟩

theorem exec_tableStep_balanced {table : IndexTable δ} (h : table.Balanced)
    (calls : List (TableCall δ)) :
    ∃ table' history, Machine.exec tableStep table calls = .ok (table', history) ∧
      table'.Balanced := by
  induction calls generalizing table with
  | nil => exact ⟨table, [], rfl, h⟩
  | cons call calls ih =>
    obtain ⟨table₁, result, hstep, hbalanced⟩ := tableStep_balanced h call
    obtain ⟨table', history, hexec, hbalanced'⟩ := ih hbalanced
    exact ⟨table', (call, result) :: history,
      Machine.exec_cons_eq_ok_iff.2 ⟨table₁, result, history, hstep, hexec, rfl⟩, hbalanced'⟩

/-- In a tree that is small enough, a call stays in the arrays. -/
theorem TableCall.cells_le {table : IndexTable δ} (h : table.Balanced)
    (hsmall : table.toList.length < maxEntries) (call : TableCall δ) :
    call.cells table ≤ AVL_MAX_HEIGHT := by
  have hheight : table.height + 1 ≤ AVL_MAX_HEIGHT := by
    by_contra hhigh
    have hfib := AvlNode.fib_height_le h
    have hmono : Nat.fib (AVL_MAX_HEIGHT + 2) ≤ Nat.fib (table.height + 2) :=
      Nat.fib_mono (by omega)
    simp only [maxEntries] at hsmall
    omega
  cases call with
  | put address data =>
    have hcells := AvlNode.probeCells_le (compareItem { address, data }) table 0
    rw [TableCall.cells]
    omega
  | remove address =>
    have hcells := AvlNode.deleteCells_le (compareItem { address, data := none }) table 1
    rw [TableCall.cells]
    omega

/-- Whatever was put and removed before, and also where the comparison is no order on the
    addresses: with less than 5702886 entries in the table, a call stays in the arrays of
    `avl.c`. With as many, the balance of the tree does not ensure it any more. -/
theorem table_stack :
    (∀ calls : List (TableCall δ), ∃ table history,
      Machine.exec tableStep tableCreate calls = .ok (table, history) ∧
        (table.toList.length < 5702886 → ∀ call, TableCall.cells table call ≤ AVL_MAX_HEIGHT)) ∧
      ∃ t : AvlNode Unit, t.Balanced ∧ t.toList.length = 5702886 ∧
        AVL_MAX_HEIGHT < t.deleteCells (fun _ => -1) 1 := by
  have hentries : maxEntries = 5702886 := by decide
  constructor
  · intro calls
    obtain ⟨table, history, hexec, hbalanced⟩ :=
      exec_tableStep_balanced (AvlNode.balanced_null : (tableCreate : IndexTable δ).Balanced) calls
    refine ⟨table, history, hexec, fun hsmall call => call.cells_le hbalanced ?_⟩
    rwa [hentries]
  · refine ⟨.leaning AVL_MAX_HEIGHT, AvlNode.leaning_balanced _, ?_, ?_⟩
    · have hlength := AvlNode.leaning_length AVL_MAX_HEIGHT
      simp only [maxEntries] at hentries
      omega
    · rw [AvlNode.leaning_deleteCells]
      omega
