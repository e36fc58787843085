-- SUMMARY: avl_delete of avl.c: the removal of a node, the rebalancing on the way back, and what they keep.
import GraphIPC.Lib.Avl.Probe

/-!
# Deletion

`avl_delete` keeps the nodes on its way on a stack, takes the node it looked for out
of the tree and then goes back up the stack until a subtree has its old height again.
The stack is the recursion here: a function that takes a node out of a subtree
returns the new subtree, and whether it is shorter and the loop goes on.
-/

namespace AvlNode

variable {α : Type}

/-- A round of the last loop of `avl_delete` at `y`, when its left subtree is shorter. -/
def shrunkLeft (y : α) (b : Int) (l r : AvlNode α) : Except Fault (AvlNode α × Bool) :=
  if b + 1 = 1 then .ok (node y (b + 1) l r, false)
  else if b + 1 = 2 then
    match r with
    | null => .error .nullPointer
    | node x xb xl xr =>
      if xb = -1 then do
        let w ← rotateRightLeft y l x xr xl
        return (w, true)
      else if xb = 0 then .ok (node x (-1) (node y 1 l xl) xr, false)
      else .ok (node x 0 (node y 0 l xl) xr, true)
  else .ok (node y (b + 1) l r, true)

/-- A round of the last loop of `avl_delete` at `y`, when its right subtree is shorter. -/
def shrunkRight (y : α) (b : Int) (l r : AvlNode α) : Except Fault (AvlNode α × Bool) :=
  if b - 1 = -1 then .ok (node y (b - 1) l r, false)
  else if b - 1 = -2 then
    match l with
    | null => .error .nullPointer
    | node x xb xl xr =>
      if xb = 1 then do
        let w ← rotateLeftRight x xl y r xr
        return (w, true)
      else if xb = 0 then .ok (node x 1 xl (node y (-1) xr r), false)
      else .ok (node x 0 xl (node y 0 xr r), true)
  else .ok (node y (b - 1) l r, true)

/-- A node with its new left subtree, and the round for it unless the loop has ended. -/
def backLeft (y : α) (b : Int) (l r : AvlNode α) (shorter : Bool) :
    Except Fault (AvlNode α × Bool) :=
  if shorter then shrunkLeft y b l r else .ok (node y b l r, false)

/-- A node with its new right subtree, and the round for it unless the loop has ended. -/
def backRight (y : α) (b : Int) (l r : AvlNode α) (shorter : Bool) :
    Except Fault (AvlNode α × Bool) :=
  if shorter then shrunkRight y b l r else .ok (node y b l r, false)

/-- The search of `avl_delete` for the node `s` that takes the place of the deleted
    one: the leftmost of the right subtree. -/
def takeLeftmost : AvlNode α → Except Fault (α × AvlNode α × Bool)
  | null => .error .nullPointer
  | node a b l r =>
    match l with
    | null => .ok (a, r, true)
    | node .. => do
      let (s, l, shorter) ← l.takeLeftmost
      let (t, shorter) ← backLeft a b l r shorter
      return (s, t, shorter)

/-- `avl_delete` below the root: the item, the new subtree and whether it is shorter. -/
def deleteWalk (f : α → Int) : AvlNode α → Except Fault (Option (α × AvlNode α × Bool))
  | null => .ok none
  | node a b l r =>
    if f a = 0 then
      match r with
      | null => .ok (some (a, l, true))
      | node .. => do
        let (s, r, shorter) ← r.takeLeftmost
        let (t, shorter) ← backRight s b l r shorter
        return some (a, t, shorter)
    else if 0 < f a then do
      match ← r.deleteWalk f with
      | none => return none
      | some (item, r, shorter) =>
        let (t, shorter) ← backRight a b l r shorter
        return some (item, t, shorter)
    else do
      match ← l.deleteWalk f with
      | none => return none
      | some (item, l, shorter) =>
        let (t, shorter) ← backLeft a b l r shorter
        return some (item, t, shorter)

/-- `avl_delete` -/
def avlDelete (f : α → Int) (t : AvlNode α) : Except Fault (AvlNode α × Option α) := do
  match ← t.deleteWalk f with
  | none => return (t, none)
  | some (item, t, _) => return (t, some item)

/-! ## The way back -/

/-- The height a subtree had before the loop came to it. -/
def heightBefore (t : AvlNode α) (shorter : Bool) : Nat :=
  t.height + shorter.toNat

theorem shrunkLeft_spec {y : α} {b : Int} {l r : AvlNode α} (hl : l.Balanced) (hr : r.Balanced)
    (hb : b = r.height - (l.height + 1)) (hlo : -1 ≤ b) (hhi : b ≤ 1) :
    ∃ t shorter, shrunkLeft y b l r = .ok (t, shorter) ∧ t.Balanced ∧
      t.toList = l.toList ++ y :: r.toList ∧
      t.heightBefore shorter = max (l.height + 1) r.height + 1 := by
  unfold heightBefore
  by_cases hb1 : b = 1
  · obtain ⟨x, xb, xl, xr, rfl⟩ := exists_node (t := r) (by omega)
    obtain ⟨hxb, hxlo, hxhi, hxl, hxr⟩ := hr
    rw [height_node] at hb
    by_cases hneg : xb = -1
    · obtain ⟨w, hw, hbal, hheight, hlist⟩ :=
        rotateRightLeft_spec (x := x) (y := y) hxr hl hxl (by omega) (by omega)
      refine ⟨w, true, by simp [shrunkLeft, hb1, hneg, hw], hbal, by simp [hlist], ?_⟩
      simp only [height_node, Bool.toNat_true]
      omega
    · by_cases hzero : xb = 0
      · refine ⟨node x (-1) (node y 1 l xl) xr, false, by simp [shrunkLeft, hb1, hzero], ?_,
          by simp, ?_⟩
        · simp only [balanced_node, height_node, hl, hxl, hxr, and_true]
          omega
        · simp only [height_node, Bool.toNat_false]
          omega
      · refine ⟨node x 0 (node y 0 l xl) xr, true, by simp [shrunkLeft, hb1, hneg, hzero], ?_,
          by simp, ?_⟩
        · simp only [balanced_node, height_node, hl, hxl, hxr, and_true]
          omega
        · simp only [height_node, Bool.toNat_true]
          omega
  · by_cases hb0 : b = 0
    · refine ⟨node y 1 l r, false, by simp [shrunkLeft, hb0], ?_, by simp, ?_⟩
      · simp only [balanced_node, hl, hr, and_true]
        omega
      · simp only [height_node, Bool.toNat_false]
        omega
    · have hneg : b = -1 := by omega
      refine ⟨node y 0 l r, true, by simp [shrunkLeft, hneg], ?_, by simp, ?_⟩
      · simp only [balanced_node, hl, hr, and_true]
        omega
      · simp only [height_node, Bool.toNat_true]
        omega

theorem shrunkRight_spec {y : α} {b : Int} {l r : AvlNode α} (hl : l.Balanced) (hr : r.Balanced)
    (hb : b = (r.height + 1 : Int) - l.height) (hlo : -1 ≤ b) (hhi : b ≤ 1) :
    ∃ t shorter, shrunkRight y b l r = .ok (t, shorter) ∧ t.Balanced ∧
      t.toList = l.toList ++ y :: r.toList ∧
      t.heightBefore shorter = max l.height (r.height + 1) + 1 := by
  unfold heightBefore
  by_cases hb1 : b = -1
  · obtain ⟨x, xb, xl, xr, rfl⟩ := exists_node (t := l) (by omega)
    obtain ⟨hxb, hxlo, hxhi, hxl, hxr⟩ := hl
    rw [height_node] at hb
    by_cases hpos : xb = 1
    · obtain ⟨w, hw, hbal, hheight, hlist⟩ :=
        rotateLeftRight_spec (x := x) (y := y) hxl hr hxr (by omega) (by omega)
      refine ⟨w, true, by simp [shrunkRight, hb1, hpos, hw], hbal, by simp [hlist], ?_⟩
      simp only [height_node, Bool.toNat_true]
      omega
    · by_cases hzero : xb = 0
      · refine ⟨node x 1 xl (node y (-1) xr r), false, by simp [shrunkRight, hb1, hzero], ?_,
          by simp, ?_⟩
        · simp only [balanced_node, height_node, hr, hxl, hxr, and_true, true_and]
          omega
        · simp only [height_node, Bool.toNat_false]
          omega
      · refine ⟨node x 0 xl (node y 0 xr r), true, by simp [shrunkRight, hb1, hpos, hzero], ?_,
          by simp, ?_⟩
        · simp only [balanced_node, height_node, hr, hxl, hxr, and_true, true_and]
          omega
        · simp only [height_node, Bool.toNat_true]
          omega
  · by_cases hb0 : b = 0
    · refine ⟨node y (-1) l r, false, by simp [shrunkRight, hb0], ?_, by simp, ?_⟩
      · simp only [balanced_node, hl, hr, and_true]
        omega
      · simp only [height_node, Bool.toNat_false]
        omega
    · have hpos : b = 1 := by omega
      refine ⟨node y 0 l r, true, by simp [shrunkRight, hpos], ?_, by simp, ?_⟩
      · simp only [balanced_node, hl, hr, and_true]
        omega
      · simp only [height_node, Bool.toNat_true]
        omega

/-- A node of a balanced tree whose left subtree is replaced by one that is as high or
    one shorter. -/
theorem backLeft_spec {a s : α} {b : Int} {l l' r : AvlNode α} {shorter : Bool}
    (ht : (node a b l r).Balanced) (hl' : l'.Balanced)
    (hheight : l'.heightBefore shorter = l.height) :
    ∃ t shorter', backLeft s b l' r shorter = .ok (t, shorter') ∧ t.Balanced ∧
      t.toList = l'.toList ++ s :: r.toList ∧
      t.heightBefore shorter' = (node a b l r).height := by
  obtain ⟨hb, hlo, hhi, -, hr⟩ := ht
  cases shorter with
  | false =>
    have hsame : l'.height = l.height := hheight
    refine ⟨node s b l' r, false, rfl, ?_, rfl, ?_⟩
    · simp only [balanced_node, hl', hr, hsame, and_true]
      exact ⟨hb, hlo, hhi⟩
    · simp [heightBefore, hsame]
  | true =>
    have hsame : l'.height + 1 = l.height := hheight
    obtain ⟨t, shorter', ht, hbal, hlist, hbefore⟩ :=
      shrunkLeft_spec (y := s) hl' hr (by omega) hlo hhi
    exact ⟨t, shorter', ht, hbal, hlist, by rw [hbefore, hsame, height_node]⟩

/-- A node of a balanced tree whose right subtree is replaced by one that is as high or
    one shorter. -/
theorem backRight_spec {a s : α} {b : Int} {l r r' : AvlNode α} {shorter : Bool}
    (ht : (node a b l r).Balanced) (hr' : r'.Balanced)
    (hheight : r'.heightBefore shorter = r.height) :
    ∃ t shorter', backRight s b l r' shorter = .ok (t, shorter') ∧ t.Balanced ∧
      t.toList = l.toList ++ s :: r'.toList ∧
      t.heightBefore shorter' = (node a b l r).height := by
  obtain ⟨hb, hlo, hhi, hl, -⟩ := ht
  cases shorter with
  | false =>
    have hsame : r'.height = r.height := hheight
    refine ⟨node s b l r', false, rfl, ?_, rfl, ?_⟩
    · simp only [balanced_node, hl, hr', hsame, and_true]
      exact ⟨hb, hlo, hhi⟩
    · simp [heightBefore, hsame]
  | true =>
    have hsame : r'.height + 1 = r.height := hheight
    obtain ⟨t, shorter', ht, hbal, hlist, hbefore⟩ :=
      shrunkRight_spec (y := s) hl hr' (by omega) hlo hhi
    exact ⟨t, shorter', ht, hbal, hlist, by rw [hbefore, hsame, height_node]⟩

/-! ## The item that is taken out -/

theorem takeLeftmost_spec {t : AvlNode α} (ht : t.Balanced) (hne : 0 < t.height) :
    ∃ s t' shorter, t.takeLeftmost = .ok (s, t', shorter) ∧ t'.Balanced ∧
      t.toList = s :: t'.toList ∧ t'.heightBefore shorter = t.height := by
  induction t with
  | null => simp at hne
  | node a b l r ihl ihr =>
    cases l with
    | null =>
      refine ⟨a, r, true, rfl, ht.2.2.2.2, rfl, ?_⟩
      simp [heightBefore]
    | node x xb xl xr =>
      obtain ⟨s, l', shorter, hs, hl', hlist, hheight⟩ :=
        ihl ht.2.2.2.1 (by simp)
      obtain ⟨t', shorter', ht', hbal, hlist', hbefore⟩ := backLeft_spec (s := a) ht hl' hheight
      refine ⟨s, t', shorter', ?_, hbal, ?_, hbefore⟩
      · unfold takeLeftmost
        simp [hs, ht']
      · rw [toList_node, hlist, hlist']
        rfl

/-- What `avl_delete` did to a subtree if it found an item in it. -/
def Deleted (f : α → Int) (t : AvlNode α) (item : α) (t' : AvlNode α) (shorter : Bool) : Prop :=
  f item = 0 ∧ t'.Balanced ∧ t'.heightBefore shorter = t.height ∧
    ∃ p q, t.toList = p ++ item :: q ∧ t'.toList = p ++ q

theorem deleteWalk_spec {f : α → Int} {t : AvlNode α} (ht : t.Balanced) :
    (t.deleteWalk f = .ok none ∧ (Falls f t.toList → ∀ a ∈ t.toList, f a ≠ 0)) ∨
      ∃ item t' shorter, t.deleteWalk f = .ok (some (item, t', shorter)) ∧
        Deleted f t item t' shorter := by
  induction t with
  | null => exact .inl ⟨rfl, by simp⟩
  | node a b l r ihl ihr =>
    by_cases hzero : f a = 0
    · right
      cases r with
      | null =>
        refine ⟨a, l, true, by simp [deleteWalk, hzero], hzero, ht.2.2.2.1, ?_,
          l.toList, [], rfl, by simp⟩
        simp [heightBefore]
      | node x xb xl xr =>
        obtain ⟨s, r', shorter, hs, hr', hlist, hheight⟩ :=
          takeLeftmost_spec ht.2.2.2.2 (by simp)
        obtain ⟨t', shorter', ht', hbal, hlist', hbefore⟩ :=
          backRight_spec (s := s) ht hr' hheight
        refine ⟨a, t', shorter', by simp [deleteWalk, hzero, hs, ht'], hzero, hbal, hbefore,
          l.toList, (node x xb xl xr).toList, rfl, ?_⟩
        rw [hlist', hlist]
    · by_cases hpos : 0 < f a
      · rcases ihr ht.2.2.2.2 with ⟨hnone, hmiss⟩ | ⟨item, r', shorter, hr', hitem, hbalr, hheight,
          p, q, hp, hq⟩
        · left
          refine ⟨by simp [deleteWalk, hzero, hpos, hnone], fun hfalls x hx => ?_⟩
          obtain ⟨-, hfr, hleft, -⟩ := falls_node hfalls
          rw [toList_node, List.mem_append, List.mem_cons] at hx
          rcases hx with hl | rfl | hr
          · have := hleft (by omega) x hl
            omega
          · exact hzero
          · exact hmiss hfr x hr
        · right
          obtain ⟨t', shorter', ht', hbal, hlist', hbefore⟩ :=
            backRight_spec (s := a) ht hbalr hheight
          refine ⟨item, t', shorter', by simp [deleteWalk, hzero, hpos, hr', ht'], hitem, hbal,
            hbefore, l.toList ++ a :: p, q, by simp [hp], ?_⟩
          rw [hlist', hq]
          simp
      · rcases ihl ht.2.2.2.1 with ⟨hnone, hmiss⟩ | ⟨item, l', shorter, hl', hitem, hball, hheight,
          p, q, hp, hq⟩
        · left
          refine ⟨by simp [deleteWalk, hzero, hpos, hnone], fun hfalls x hx => ?_⟩
          obtain ⟨hfl, -, -, hright⟩ := falls_node hfalls
          rw [toList_node, List.mem_append, List.mem_cons] at hx
          rcases hx with hl | rfl | hr
          · exact hmiss hfl x hl
          · exact hzero
          · have := hright (by omega) x hr
            omega
        · right
          obtain ⟨t', shorter', ht', hbal, hlist', hbefore⟩ :=
            backLeft_spec (s := a) ht hball hheight
          refine ⟨item, t', shorter', by simp [deleteWalk, hzero, hpos, hl', ht'], hitem, hbal,
            hbefore, p, q ++ a :: r.toList, by simp [hp], ?_⟩
          rw [hlist', hq]
          simp

/-- `avl_delete` fails on no balanced tree. It takes out one item that compares equal,
    or finds none and leaves the tree as it is. -/
theorem avlDelete_spec {t : AvlNode α} (f : α → Int) (ht : t.Balanced) :
    (t.avlDelete f = .ok (t, none) ∧ (Falls f t.toList → ∀ a ∈ t.toList, f a ≠ 0)) ∨
      ∃ item t', t.avlDelete f = .ok (t', some item) ∧ f item = 0 ∧ t'.Balanced ∧
        ∃ p q, t.toList = p ++ item :: q ∧ t'.toList = p ++ q := by
  unfold avlDelete
  rcases deleteWalk_spec (f := f) ht with ⟨hwalk, hmiss⟩ | ⟨item, t', shorter, hwalk, hitem, hbal,
    -, hlists⟩
  · exact .inl ⟨by simp [hwalk], hmiss⟩
  · exact .inr ⟨item, t', by simp [hwalk], hitem, hbal, hlists⟩

end AvlNode
