-- SUMMARY: avl_probe and avl_insert of avl.c: the descent, the new node, the rotation, and what they keep.
import GraphIPC.Lib.Avl.Find

/-!
# Insertion

`avl_probe` looks for the place of a new item and remembers the last node on the way
whose balance is not zero. Only this node, `y`, can come out of balance by more than
one; all nodes below it on the path only lean to the side of the new node. A pointer
into the tree is the list of turns that leads to it from the root, `true` for
`avl_link[1]`. The array of the turns taken from `y` is long enough here for any path.
-/

namespace AvlNode

variable {α : Type}

/-- The loop of `avl_probe` from the node `p` on. `toP` and `toY` lead to `p` and
    `y`, and `da` lists the turns from `y`. It ends at a duplicate of the item, or at a
    free link. -/
def descend (f : α → Int) : AvlNode α → List Bool → List Bool → List Bool →
    α ⊕ (List Bool × List Bool)
  | null, _, toY, da => .inr (toY, da)
  | node a b l r, toP, toY, da =>
    if f a = 0 then .inl a
    else
      let toY' := if b ≠ 0 then toP else toY
      let da' := if b ≠ 0 then [] else da
      if 0 < f a then r.descend f (toP ++ [true]) toY' (da' ++ [true])
      else l.descend f (toP ++ [false]) toY' (da' ++ [false])

/-- The new node at the end of `da`, with the balance of the nodes on the way changed. -/
def link (item : α) : AvlNode α → List Bool → AvlNode α
  | null, _ => node item 0 null null
  | node a b l r, [] => node a b l r
  | node a b l r, false :: da => node a (b - 1) (l.link item da) r
  | node a b l r, true :: da => node a (b + 1) l (r.link item da)

/-- The double rotation of `y` and its left child `x`, whose right child becomes the root. -/
def rotateLeftRight (x : α) (xl : AvlNode α) (y : α) (yr : AvlNode α) :
    AvlNode α → Except Fault (AvlNode α)
  | null => .error .nullPointer
  | node w wb wl wr =>
    let xb := if wb = -1 then 0 else if wb = 0 then 0 else -1
    let yb := if wb = -1 then 1 else if wb = 0 then 0 else 0
    .ok (node w 0 (node x xb xl wl) (node y yb wr yr))

/-- The double rotation of `y` and its right child `x`, whose left child becomes the root. -/
def rotateRightLeft (y : α) (yl : AvlNode α) (x : α) (xr : AvlNode α) :
    AvlNode α → Except Fault (AvlNode α)
  | null => .error .nullPointer
  | node w wb wl wr =>
    let xb := if wb = 1 then 0 else if wb = 0 then 0 else 1
    let yb := if wb = 1 then -1 else if wb = 0 then 0 else 0
    .ok (node w 0 (node y yb yl wl) (node x xb wr xr))

/-- The end of `avl_probe` for the node `y`. -/
def rebalance : AvlNode α → Except Fault (AvlNode α)
  | null => .ok null
  | node y b l r =>
    if b = -2 then
      match l with
      | null => .error .nullPointer
      | node x xb xl xr =>
        if xb = -1 then .ok (node x 0 xl (node y 0 xr r))
        else do
          assertThat true (xb = 1) "x->avl_balance == +1"
          rotateLeftRight x xl y r xr
    else if b = 2 then
      match r with
      | null => .error .nullPointer
      | node x xb xl xr =>
        if xb = 1 then .ok (node x 0 (node y 0 l xl) xr)
        else do
          assertThat true (xb = -1) "x->avl_balance == -1"
          rotateRightLeft y l x xr xl
    else .ok (node y b l r)

/-- The tree with another one at the node that a path leads to. -/
def replaceAt (change : AvlNode α → Except Fault (AvlNode α)) :
    List Bool → AvlNode α → Except Fault (AvlNode α)
  | [], t => change t
  | _ :: _, null => .error .nullPointer
  | false :: path, node a b l r => do
    let l ← l.replaceAt change path
    return node a b l r
  | true :: path, node a b l r => do
    let r ← r.replaceAt change path
    return node a b l r

/-- `avl_insert` and `avl_probe`: the tree and the duplicate that was found, if any. -/
def avlInsert (f : α → Int) (item : α) (t : AvlNode α) : Except Fault (AvlNode α × Option α) :=
  match t.descend f [] [] [] with
  | .inl duplicate => .ok (t, some duplicate)
  | .inr (toY, da) => do
    let t ← t.replaceAt (fun y => rebalance (y.link item da)) toY
    return (t, none)

/-! ## The path to the new node -/

/-- The balance of the root. -/
def balance : AvlNode α → Int
  | null => 0
  | node _ b _ _ => b

/-- A subtree of the root: `avl_link[1]` on `true`. -/
def child : Bool → AvlNode α → AvlNode α
  | _, null => null
  | false, node _ _ l _ => l
  | true, node _ _ _ r => r

@[simp] theorem balance_node (a : α) (b : Int) (l r : AvlNode α) : (node a b l r).balance = b := rfl

@[simp] theorem child_false (a : α) (b : Int) (l r : AvlNode α) :
    (node a b l r).child false = l := rfl

@[simp] theorem child_true (a : α) (b : Int) (l r : AvlNode α) :
    (node a b l r).child true = r := rfl

/-- `path` leads to a free link, by the signs of the comparison. -/
def Guides (f : α → Int) : List Bool → AvlNode α → Prop
  | [], t => t = null
  | _ :: _, null => False
  | false :: path, node a _ l _ => f a < 0 ∧ Guides f path l
  | true :: path, node a _ _ r => 0 < f a ∧ Guides f path r

/-- The nodes along `path` have balance zero. -/
def Level : List Bool → AvlNode α → Prop
  | [], _ => True
  | d :: path, t => t.balance = 0 ∧ Level path (t.child d)

/-- The nodes along `path` below the root have balance zero. -/
def LevelBelow : List Bool → AvlNode α → Prop
  | [], _ => True
  | d :: path, t => Level path (t.child d)

/-- `toY` leads to a node whose balance is not zero, and from there `da` on along
    nodes whose balance is. -/
def Turns : List Bool → List Bool → AvlNode α → Prop
  | [], da, t => t.balance ≠ 0 ∧ LevelBelow da t
  | d :: toY, da, t => Turns toY da (t.child d)

theorem levelBelow_of_level {path : List Bool} {t : AvlNode α} (h : Level path t) :
    LevelBelow path t := by
  cases path with
  | nil => trivial
  | cons d path => exact h.2

/-- The loop of `avl_probe` ends at a duplicate only if there is one. -/
theorem descend_inl {f : α → Int} {t : AvlNode α} {toP toY da : List Bool} {a : α}
    (h : t.descend f toP toY da = .inl a) : a ∈ t.toList ∧ f a = 0 := by
  induction t generalizing toP toY da with
  | null => cases h
  | node x b l r ihl ihr =>
    unfold descend at h
    split at h
    · cases h
      exact ⟨by simp, by assumption⟩
    · simp only at h
      split at h
      · have hr := ihr h
        exact ⟨by simp [hr.1], hr.2⟩
      · have hl := ihl h
        exact ⟨by simp [hl.1], hl.2⟩

/-- What `avl_find` finds is the duplicate at which the loop ends, whatever the
    comparison. -/
theorem descend_of_avlFind {f : α → Int} {t : AvlNode α} {toP toY da : List Bool} {a : α}
    (h : t.avlFind f = some a) : t.descend f toP toY da = .inl a := by
  induction t generalizing toP toY da with
  | null => cases h
  | node x b l r ihl ihr =>
    unfold avlFind at h
    unfold descend
    split at h
    · rename_i hneg
      rw [if_neg (by omega)]
      simp only
      rw [if_neg (by omega)]
      exact ihl h
    · split at h
      · rename_i hpos
        rw [if_neg (by omega)]
        simp only
        rw [if_pos hpos]
        exact ihr h
      · cases h
        rw [if_pos (by omega)]

/-- An item that is found is not put in again. -/
theorem avlInsert_of_avlFind {f : α → Int} {item : α} {t : AvlNode α} {a : α}
    (h : t.avlFind f = some a) : t.avlInsert f item = .ok (t, some a) := by
  rw [avlInsert, descend_of_avlFind h]

/-- Where the loop is at the end of `path` if it was at `t` with `toP`, `toY` and `da`:
    either no node on the way tilts and `y` is still the node the loop knew before, or
    `y` is the last one that does. -/
def Ends (toP toY da toY' da' path : List Bool) (t : AvlNode α) : Prop :=
  (Level path t ∧ toY' = toY ∧ da' = da ++ path) ∨
    ∃ u, toY' = toP ++ u ∧ path = u ++ da' ∧ Turns u da' t

/-- One round of the loop. -/
theorem Ends.round {toP toY da toY' da' path : List Bool} {t : AvlNode α} {d : Bool}
    (h : Ends (toP ++ [d]) (if t.balance ≠ 0 then toP else toY)
      ((if t.balance ≠ 0 then [] else da) ++ [d]) toY' da' path (t.child d)) :
    Ends toP toY da toY' da' (d :: path) t := by
  rcases h with ⟨hlevel, hY, hda⟩ | ⟨u, hY, hpath, hturns⟩
  · split at hY
    · rename_i hb
      rw [if_pos hb] at hda
      subst hY hda
      exact .inr ⟨[], by simp, by simp, hb, hlevel⟩
    · rename_i hb
      rw [if_neg hb] at hda
      exact .inl ⟨⟨not_not.1 hb, hlevel⟩, hY, by simpa using hda⟩
  · exact .inr ⟨d :: u, by simpa using hY, by simp [hpath], hturns⟩

theorem descend_inr {f : α → Int} {t : AvlNode α} {toP toY da toY' da' : List Bool}
    (h : t.descend f toP toY da = .inr (toY', da')) :
    ∃ path, Guides f path t ∧ Ends toP toY da toY' da' path t := by
  induction t generalizing toP toY da with
  | null =>
    cases h
    exact ⟨[], rfl, .inl ⟨trivial, rfl, by simp⟩⟩
  | node x b l r ihl ihr =>
    unfold descend at h
    split at h
    · cases h
    · rename_i hne
      simp only at h
      split at h
      · rename_i hpos
        obtain ⟨path, hguides, hends⟩ := ihr h
        exact ⟨true :: path, ⟨hpos, hguides⟩, .round hends⟩
      · rename_i hpos
        obtain ⟨path, hguides, hends⟩ := ihl h
        exact ⟨false :: path, ⟨by omega, hguides⟩, .round hends⟩

/-! ## The new node in the order of the items -/

/-- `ys` is `xs` with the item put somewhere, which is the right place if the
    comparison falls. -/
def Inserted (f : α → Int) (item : α) (xs ys : List α) : Prop :=
  ∃ p q, xs = p ++ q ∧ ys = p ++ item :: q ∧
    (Falls f xs → (∀ x ∈ p, 0 < f x) ∧ ∀ x ∈ q, f x < 0)

theorem Inserted.left {f : α → Int} {item a : α} {b b' : Int} {l l' r : AvlNode α}
    (ha : f a < 0) (h : Inserted f item l.toList l'.toList) :
    Inserted f item (node a b l r).toList (node a b' l' r).toList := by
  obtain ⟨p, q, hl, hl', hside⟩ := h
  refine ⟨p, q ++ a :: r.toList, by simp [hl], by simp [hl'], fun hfalls => ?_⟩
  obtain ⟨hfl, -, -, hright⟩ := falls_node hfalls
  refine ⟨(hside hfl).1, fun x hx => ?_⟩
  rw [List.mem_append, List.mem_cons] at hx
  rcases hx with hq | rfl | hr
  · exact (hside hfl).2 x hq
  · exact ha
  · exact hright (by omega) x hr

theorem Inserted.right {f : α → Int} {item a : α} {b b' : Int} {l r r' : AvlNode α}
    (ha : 0 < f a) (h : Inserted f item r.toList r'.toList) :
    Inserted f item (node a b l r).toList (node a b' l r').toList := by
  obtain ⟨p, q, hr, hr', hside⟩ := h
  refine ⟨l.toList ++ a :: p, q, by simp [hr], by simp [hr'], fun hfalls => ?_⟩
  obtain ⟨-, hfr, hleft, -⟩ := falls_node hfalls
  refine ⟨fun x hx => ?_, (hside hfr).2⟩
  rw [List.mem_append, List.mem_cons] at hx
  rcases hx with hl | rfl | hp
  · exact hleft (by omega) x hl
  · exact ha
  · exact (hside hfr).1 x hp

theorem link_inserted {f : α → Int} {t : AvlNode α} {path : List Bool} (item : α)
    (h : Guides f path t) : Inserted f item t.toList (t.link item path).toList := by
  induction t generalizing path with
  | null => exact ⟨[], [], rfl, rfl, by simp⟩
  | node a b l r ihl ihr =>
    match path, h with
    | false :: path, h => exact .left h.1 (ihl h.2)
    | true :: path, h => exact .right h.1 (ihr h.2)

/-! ## The balance -/

/-- A path of nodes with balance zero becomes one of nodes that lean to the new node. -/
theorem link_level {f : α → Int} {t : AvlNode α} {path : List Bool} (item : α)
    (hguides : Guides f path t) (hlevel : Level path t) (ht : t.Balanced) :
    (t.link item path).Balanced ∧ (t.link item path).height = t.height + 1 ∧
      (0 < t.height → (t.link item path).balance ≠ 0) := by
  induction t generalizing path with
  | null => simp [link, balanced_node]
  | node a b l r ihl ihr =>
    obtain ⟨hb, -, -, hl, hr⟩ := ht
    match path, hguides, hlevel with
    | false :: path, hguides, hlevel =>
      have hb0 : b = 0 := hlevel.1
      obtain ⟨hlink, hheight, -⟩ := ihl hguides.2 hlevel.2 hl
      simp only [link, balanced_node, height_node, balance_node, hheight, hlink, hr, and_true]
      omega
    | true :: path, hguides, hlevel =>
      have hb0 : b = 0 := hlevel.1
      obtain ⟨hlink, hheight, -⟩ := ihr hguides.2 hlevel.2 hr
      simp only [link, balanced_node, height_node, balance_node, hheight, hlink, hl, and_true]
      omega

theorem rotateLeftRight_spec {x y : α} {xl yr w : AvlNode α} (hxl : xl.Balanced)
    (hyr : yr.Balanced) (hw : w.Balanced) (hsame : xl.height = yr.height)
    (htall : w.height = yr.height + 1) :
    ∃ t, rotateLeftRight x xl y yr w = .ok t ∧ t.Balanced ∧ t.height = yr.height + 2 ∧
      t.toList = xl.toList ++ x :: (w.toList ++ y :: yr.toList) := by
  obtain ⟨a, wb, wl, wr, rfl⟩ := exists_node (t := w) (by omega)
  obtain ⟨hb, hlo, hhi, hwl, hwr⟩ := hw
  rw [height_node] at htall
  refine ⟨_, rfl, ?_, ?_, by simp⟩
  · simp only [balanced_node, height_node, hxl, hyr, hwl, hwr, and_true]
    split_ifs <;> omega
  · simp only [height_node]
    omega

theorem rotateRightLeft_spec {x y : α} {xr yl w : AvlNode α} (hxr : xr.Balanced)
    (hyl : yl.Balanced) (hw : w.Balanced) (hsame : xr.height = yl.height)
    (htall : w.height = yl.height + 1) :
    ∃ t, rotateRightLeft y yl x xr w = .ok t ∧ t.Balanced ∧ t.height = yl.height + 2 ∧
      t.toList = yl.toList ++ y :: (w.toList ++ x :: xr.toList) := by
  obtain ⟨a, wb, wl, wr, rfl⟩ := exists_node (t := w) (by omega)
  obtain ⟨hb, hlo, hhi, hwl, hwr⟩ := hw
  rw [height_node] at htall
  refine ⟨_, rfl, ?_, ?_, by simp⟩
  · simp only [balanced_node, height_node, hxr, hyl, hwl, hwr, and_true]
    split_ifs <;> omega
  · simp only [height_node]
    omega

/-- A node whose left subtree is too tall and leans to a side is rotated to the right. -/
theorem rebalance_left {a : α} {l r : AvlNode α} (hl : l.Balanced) (hr : r.Balanced)
    (htall : l.height = r.height + 2) (hlean : l.balance ≠ 0) :
    ∃ t, rebalance (node a (-2) l r) = .ok t ∧ t.Balanced ∧
      t.toList = (node a (-2) l r).toList ∧ t.height = l.height := by
  obtain ⟨x, xb, xl, xr, rfl⟩ := exists_node (t := l) (by omega)
  obtain ⟨hxb, hxlo, hxhi, hxl, hxr⟩ := hl
  rw [balance_node] at hlean
  rw [height_node] at htall
  by_cases hx : xb = -1
  · refine ⟨node x 0 xl (node a 0 xr r), by simp [rebalance, hx], ?_, by simp, ?_⟩
    · simp only [balanced_node, height_node, hxl, hxr, hr, and_true, true_and]
      omega
    · simp only [height_node]
      omega
  · have hx1 : xb = 1 := by omega
    obtain ⟨t, ht, hbal, hheight, hlist⟩ :=
      rotateLeftRight_spec (x := x) (y := a) hxl hr hxr (by omega) (by omega)
    refine ⟨t, by simp [rebalance, hx1, ht], hbal, by simp [hlist], ?_⟩
    simp only [height_node]
    omega

/-- A node whose right subtree is too tall and leans to a side is rotated to the left. -/
theorem rebalance_right {a : α} {l r : AvlNode α} (hl : l.Balanced) (hr : r.Balanced)
    (htall : r.height = l.height + 2) (hlean : r.balance ≠ 0) :
    ∃ t, rebalance (node a 2 l r) = .ok t ∧ t.Balanced ∧
      t.toList = (node a 2 l r).toList ∧ t.height = r.height := by
  obtain ⟨x, xb, xl, xr, rfl⟩ := exists_node (t := r) (by omega)
  obtain ⟨hxb, hxlo, hxhi, hxl, hxr⟩ := hr
  rw [balance_node] at hlean
  rw [height_node] at htall
  by_cases hx : xb = 1
  · refine ⟨node x 0 (node a 0 l xl) xr, by simp [rebalance, hx], ?_, by simp, ?_⟩
    · simp only [balanced_node, height_node, hxl, hxr, hl, and_true]
      omega
    · simp only [height_node]
      omega
  · have hx1 : xb = -1 := by omega
    obtain ⟨t, ht, hbal, hheight, hlist⟩ :=
      rotateRightLeft_spec (x := x) (y := a) hxr hl hxl (by omega) (by omega)
    refine ⟨t, by simp [rebalance, hx1, ht], hbal, by simp [hlist], ?_⟩
    simp only [height_node]
    omega

/-- A node between balanced subtrees, the taller of which leans to a side, is put in
    balance. -/
theorem rebalance_spec {a : α} {b : Int} {l r : AvlNode α} (hl : l.Balanced) (hr : r.Balanced)
    (hb : b = r.height - l.height) (hlo : -2 ≤ b) (hhi : b ≤ 2)
    (hleft : b = -2 → l.balance ≠ 0) (hright : b = 2 → r.balance ≠ 0) :
    ∃ t, rebalance (node a b l r) = .ok t ∧ t.Balanced ∧ t.toList = (node a b l r).toList ∧
      t.height = max l.height r.height + if b = -2 ∨ b = 2 then 0 else 1 := by
  by_cases hb2 : b = -2
  · subst hb2
    obtain ⟨t, ht, hbal, hlist, hheight⟩ :=
      rebalance_left (a := a) hl hr (by omega) (hleft rfl)
    exact ⟨t, ht, hbal, hlist, by simp; omega⟩
  · by_cases hb2' : b = 2
    · subst hb2'
      obtain ⟨t, ht, hbal, hlist, hheight⟩ :=
        rebalance_right (a := a) hl hr (by omega) (hright rfl)
      exact ⟨t, ht, hbal, hlist, by simp; omega⟩
    · refine ⟨node a b l r, by simp [rebalance, hb2, hb2'], ?_, rfl, by simp [hb2, hb2']⟩
      simp only [balanced_node, hl, hr, and_true]
      omega

/-- The change at the node `y`: it keeps the height unless all of the path was level. -/
theorem rebalance_link {f : α → Int} {y : AvlNode α} {da : List Bool} (item : α)
    (hguides : Guides f da y) (hlevel : LevelBelow da y) (hy : y.Balanced) :
    ∃ t, rebalance (y.link item da) = .ok t ∧ t.Balanced ∧
      Inserted f item y.toList t.toList ∧ (y.balance ≠ 0 → t.height = y.height) := by
  have hinserted := link_inserted item hguides
  cases y with
  | null => exact ⟨_, rfl, by simp [balanced_node], hinserted, by simp [balance]⟩
  | node a b l r =>
    obtain ⟨hb, hlo, hhi, hl, hr⟩ := hy
    match da, hguides, hlevel with
    | false :: da, hguides, hlevel =>
      obtain ⟨hbal, hheight, hlean⟩ := link_level item hguides.2 hlevel hl
      obtain ⟨t, ht, htbal, htlist, htheight⟩ :=
        rebalance_spec (a := a) (b := b - 1) hbal hr (by omega) (by omega) (by omega)
          (fun hb' => hlean (by omega)) (by omega)
      refine ⟨t, ht, htbal, by rw [htlist]; exact hinserted, fun hne => ?_⟩
      rw [balance_node] at hne
      rw [htheight, height_node]
      split_ifs <;> omega
    | true :: da, hguides, hlevel =>
      obtain ⟨hbal, hheight, hlean⟩ := link_level item hguides.2 hlevel hr
      obtain ⟨t, ht, htbal, htlist, htheight⟩ :=
        rebalance_spec (a := a) (b := b + 1) hl hbal (by omega) (by omega) (by omega)
          (by omega) (fun hb' => hlean (by omega))
      refine ⟨t, ht, htbal, by rw [htlist]; exact hinserted, fun hne => ?_⟩
      rw [balance_node] at hne
      rw [htheight, height_node]
      split_ifs <;> omega

/-- Above a node that keeps its height nothing changes. -/
theorem replaceAt_turns {f : α → Int} {t : AvlNode α} {toY da : List Bool} (item : α)
    (hguides : Guides f (toY ++ da) t) (hturns : Turns toY da t) (ht : t.Balanced) :
    ∃ t', t.replaceAt (fun y => rebalance (y.link item da)) toY = .ok t' ∧ t'.Balanced ∧
      Inserted f item t.toList t'.toList ∧ t'.height = t.height := by
  induction toY generalizing t with
  | nil =>
    obtain ⟨t', ht', hbal, hinserted, hheight⟩ := rebalance_link item hguides hturns.2 ht
    exact ⟨t', ht', hbal, hinserted, hheight hturns.1⟩
  | cons d toY ih =>
    cases t with
    | null => cases hguides
    | node a b l r =>
      obtain ⟨hb, hlo, hhi, hl, hr⟩ := ht
      cases d with
      | false =>
        obtain ⟨l', hl', hbal, hinserted, hheight⟩ := ih hguides.2 hturns hl
        refine ⟨node a b l' r, by simp [replaceAt, hl'], ?_, hinserted.left hguides.1, ?_⟩
        · simp only [balanced_node, hbal, hr, hheight, and_true]
          exact ⟨hb, hlo, hhi⟩
        · simp [hheight]
      | true =>
        obtain ⟨r', hr', hbal, hinserted, hheight⟩ := ih hguides.2 hturns hr
        refine ⟨node a b l r', by simp [replaceAt, hr'], ?_, hinserted.right hguides.1, ?_⟩
        · simp only [balanced_node, hbal, hl, hheight, and_true]
          exact ⟨hb, hlo, hhi⟩
        · simp [hheight]

/-- `avl_insert` fails on no balanced tree. It finds a duplicate and leaves the tree as
    it is, or adds the item and keeps the tree balanced. -/
theorem avlInsert_spec {t : AvlNode α} (f : α → Int) (item : α) (ht : t.Balanced) :
    ∃ t' duplicate, t.avlInsert f item = .ok (t', duplicate) ∧ t'.Balanced ∧
      ((t' = t ∧ ∃ a ∈ t.toList, f a = 0) ∨ Inserted f item t.toList t'.toList) := by
  unfold avlInsert
  cases hdescend : t.descend f [] [] [] with
  | inl a => exact ⟨t, some a, rfl, ht, .inl ⟨rfl, a, descend_inl hdescend⟩⟩
  | inr place =>
    obtain ⟨toY, da⟩ := place
    obtain ⟨path, hguides, hends⟩ := descend_inr hdescend
    rcases hends with ⟨hlevel, rfl, hda⟩ | ⟨u, hY, rfl, hturns⟩
    · rw [List.nil_append] at hda
      subst hda
      obtain ⟨t', ht', hbal, hinserted, -⟩ :=
        rebalance_link item hguides (levelBelow_of_level hlevel) ht
      exact ⟨t', none, by simp [replaceAt, ht'], hbal, .inr hinserted⟩
    · rw [List.nil_append] at hY
      subst hY
      obtain ⟨t', ht', hbal, hinserted, -⟩ := replaceAt_turns item hguides hturns ht
      exact ⟨t', none, by simp [ht'], hbal, .inr hinserted⟩

end AvlNode
