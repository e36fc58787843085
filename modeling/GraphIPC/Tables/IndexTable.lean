-- SUMMARY: IndexTable.c: a table of entries in a tree of avl.c, and when the comparison it passes makes every entry reachable.
import GraphIPC.Base.HalfCircle
import GraphIPC.Base.Machine
import GraphIPC.Lib.Avl.Delete
import Mathlib.Logic.Function.Basic

/-!
# The index table

`IndexTable.c` keeps entries by their address in a tree of `avl.c`. It compares two
addresses by their difference, an unsigned number that is returned as an `int`. The
arrays that `avl.c` keeps its way in are taken as long enough, and `malloc` as one that
does not fail.
-/

variable {δ : Type}

/-- `entry_t`; the data is a pointer, `none` the null pointer. -/
structure Entry (δ : Type) where
  address : UInt32
  data : Option δ
  deriving DecidableEq, Repr

/-- `compareAddress32`; the arguments are pointers to entries. -/
def compareAddress32 : Option (Entry δ) → Option (Entry δ) → Int
  | some a, some b => UInt32.signedSub a.address b.address
  | _, _ => 0

/-- `struct avl_table`, as far as its root goes. -/
abbrev IndexTable (δ : Type) := AvlNode (Entry δ)

/-- `tree->avl_compare` with an item of its own as the first argument. -/
def compareItem (item : Entry δ) (entry : Entry δ) : Int :=
  compareAddress32 (some item) (some entry)

/-- `table_create` -/
def tableCreate : IndexTable δ := .null

/-- `table_put` -/
def tablePut (table : IndexTable δ) (address : UInt32) (data : Option δ) :
    Except Fault (IndexTable δ × Option δ) := do
  let newEntry : Entry δ := { address, data }
  let (table, _) ← table.avlInsert (compareItem newEntry) newEntry
  return (table, newEntry.data)

/-- `table_find` -/
def tableFind (table : IndexTable δ) (address : UInt32) : Option δ :=
  let query : Entry δ := { address, data := none }
  match table.avlFind (compareItem query) with
  | some entry => entry.data
  | none => none

/-- `table_remove` -/
def tableRemove (table : IndexTable δ) (address : UInt32) :
    Except Fault (IndexTable δ × Option δ) := do
  let query : Entry δ := { address, data := none }
  let (table, entry) ← table.avlDelete (compareItem query)
  match entry with
  | some entry => return (table, entry.data)
  | none => return (table, none)

/-! ## What the table is for -/

/-- A call that changes the table. -/
inductive TableCall (δ : Type) where
  | put (address : UInt32) (data : Option δ)
  | remove (address : UInt32)

/-- The call and the pointer it returns. -/
def tableStep (table : IndexTable δ) : TableCall δ → Except Fault (IndexTable δ × Option δ)
  | .put address data => tablePut table address data
  | .remove address => tableRemove table address

/-- The data that was put at an address and not removed since. -/
abbrev Puts (δ : Type) := UInt32 → Option (Option δ)

/-- The call on what was put. An address that is put again while its entry is there
    keeps the data it has. -/
def Puts.after (puts : Puts δ) : TableCall δ → Puts δ
  | .put address data =>
    if puts address = none then Function.update puts address (some data) else puts
  | .remove address => Function.update puts address none

/-- What the calls have put and not removed. -/
def putsOf (calls : List (TableCall δ)) : Puts δ :=
  calls.foldl Puts.after fun _ => none

/-- The addresses with an entry. -/
def Puts.Live (puts : Puts δ) (address : UInt32) : Prop :=
  puts address ≠ none

namespace Puts

variable {puts : Puts δ} {address : UInt32}

@[simp] theorem after_remove (a : UInt32) :
    puts.after (.remove address) a = if a = address then none else puts a := by
  simp [after, Function.update_apply]

theorem after_put_of_live (h : puts.Live address) (data : Option δ) :
    puts.after (.put address data) = puts :=
  if_neg h

theorem after_put_of_free (h : puts address = none) (data : Option δ) (a : UInt32) :
    puts.after (.put address data) a = if a = address then some data else puts a := by
  simp [after, h, Function.update_apply]

theorem after_remove_of_free (h : puts address = none) :
    puts.after (.remove address) = puts := by
  funext a
  rw [after_remove]
  split
  · rename_i ha
    rw [ha, h]
  · rfl

theorem live_of_after_remove {a : UInt32} (h : (puts.after (.remove address)).Live a) :
    puts.Live a := by
  unfold Live at h ⊢
  rw [after_remove] at h
  split at h
  · exact absurd rfl h
  · exact h

theorem Live.after_put {a : UInt32} (h : puts.Live a) (data : Option δ) :
    (puts.after (.put address data)).Live a := by
  by_cases hlive : puts.Live address
  · rwa [after_put_of_live hlive]
  · unfold Live
    rw [after_put_of_free (not_not.1 hlive)]
    split
    · simp
    · exact h

theorem live_after_put (address : UInt32) (data : Option δ) :
    (puts.after (.put address data)).Live address := by
  by_cases hlive : puts.Live address
  · rwa [after_put_of_live hlive]
  · unfold Live
    rw [after_put_of_free (not_not.1 hlive), if_pos rfl]
    simp

end Puts

/-- The comparison is a total order on the addresses in use, whatever their data, and
    the search finds what was put and nothing else. -/
structure IndexTable.Finds (table : IndexTable δ) (puts : Puts δ) : Prop where
  order : ∀ dataOf : UInt32 → Option δ, OrderOn puts.Live fun a b =>
    compareAddress32 (some { address := a, data := dataOf a })
      (some { address := b, data := dataOf b })
  find : ∀ address, tableFind table address = (puts address).join

/-! ## Sorted tables -/

@[simp] theorem compareItem_eq (x y : Entry δ) :
    compareItem x y = UInt32.signedSub x.address y.address := rfl

/-- The entries of a table are in order and are those that were put. -/
structure IndexTable.Holds (table : IndexTable δ) (puts : Puts δ) : Prop where
  balanced : table.Balanced
  sorted : table.toList.Pairwise fun x y => UInt32.signedSub x.address y.address < 0
  entries : ∀ entry : Entry δ, entry ∈ table.toList ↔ puts entry.address = some entry.data
  half : UInt32.HalfCircle puts.Live

namespace IndexTable.Holds

variable {table : IndexTable δ} {puts : Puts δ}

theorem init : (tableCreate : IndexTable δ).Holds fun _ => none :=
  ⟨trivial, .nil, by simp [tableCreate], 0, by simp [Puts.Live]⟩

variable (h : table.Holds puts)

include h

theorem live {entry : Entry δ} (he : entry ∈ table.toList) : puts.Live entry.address := by
  unfold Puts.Live
  rw [(h.entries entry).1 he]
  simp

/-- The comparison with an entry falls along a sorted table if the address of the entry
    lies in one half of the circle with all others. -/
theorem falls {live : UInt32 → Prop} (hlive : UInt32.HalfCircle live)
    (hsub : ∀ a, puts.Live a → live a) (item : Entry δ) (hitem : live item.address) :
    AvlNode.Falls (compareItem item) table.toList := by
  have horder := hlive.orderOn
  refine List.Pairwise.imp_of_mem (fun {x y} hx hy hxy => ?_) h.sorted
  have hlx := hsub _ (h.live hx)
  have hly := hsub _ (h.live hy)
  simp only [compareItem_eq]
  constructor
  · intro hle
    rcases lt_or_eq_of_le hle with hlt | heq
    · exact horder.trans _ _ _ hitem hlx hly hlt hxy
    · rwa [horder.eq_of_zero _ _ hitem hlx heq]
  · intro hge
    have hyx := (horder.antisymm _ _ hly hlx).2 hxy
    rcases lt_or_eq_of_le hge with hlt | heq
    · have hneg := (horder.antisymm _ _ hitem hly).1 hlt
      exact (horder.antisymm _ _ hitem hlx).2 (horder.trans _ _ _ hlx hly hitem hxy hneg)
    · rwa [horder.eq_of_zero _ _ hitem hly heq.symm]

/-- Nothing that compares equal is missed where an entry was put. -/
theorem not_missed (item : Entry δ) (hitem : puts.Live item.address) :
    ∃ entry ∈ table.toList, compareItem item entry = 0 := by
  obtain ⟨data, hdata⟩ := Option.ne_none_iff_exists'.1 hitem
  exact ⟨{ address := item.address, data }, (h.entries _).2 hdata, by simp⟩

theorem finds : table.Finds puts := by
  constructor
  · intro dataOf
    exact h.half.orderOn
  · intro address
    unfold tableFind
    simp only
    cases hfind : table.avlFind (compareItem { address, data := none }) with
    | some entry =>
      obtain ⟨hmem, hzero⟩ := AvlNode.avlFind_some hfind
      have haddress : address = entry.address := by simpa using hzero
      rw [haddress, (h.entries entry).1 hmem]
      rfl
    | none =>
      by_cases hlive : puts.Live address
      · obtain ⟨entry, hmem, hzero⟩ := h.not_missed { address, data := none } hlive
        have hfalls := h.falls h.half (fun _ ha => ha) { address, data := none } hlive
        exact absurd hzero (AvlNode.avlFind_none hfalls hfind entry hmem)
      · rw [not_not.1 hlive]
        rfl

/-- An address that is put again finds its entry. -/
theorem put_again {address : UInt32} (data : Option δ) (hlive : puts.Live address) :
    ∃ table', tablePut table address data = .ok (table', data) ∧ table'.Holds puts := by
  obtain ⟨table', duplicate, hinsert, hbal, hend⟩ :=
    AvlNode.avlInsert_spec (compareItem { address, data }) { address, data } h.balanced
  refine ⟨table', by simp [tablePut, hinsert], ?_⟩
  rcases hend with ⟨rfl, -⟩ | ⟨p, q, hlist, -, hside⟩
  · exact h
  · obtain ⟨entry, hmem, hzero⟩ := h.not_missed { address, data } hlive
    obtain ⟨hp, hq⟩ := hside (h.falls h.half (fun _ ha => ha) { address, data } hlive)
    rw [hlist, List.mem_append] at hmem
    rcases hmem with hmem | hmem
    · have := hp entry hmem
      omega
    · have := hq entry hmem
      omega

/-- An address that is put anew finds its place in the order. -/
theorem put_new {address : UInt32} (data : Option δ) (hfree : puts address = none)
    (hhalf : UInt32.HalfCircle (puts.after (.put address data)).Live) :
    ∃ table', tablePut table address data = .ok (table', data) ∧
      table'.Holds (puts.after (.put address data)) := by
  obtain ⟨table', duplicate, hinsert, hbal, hend⟩ :=
    AvlNode.avlInsert_spec (compareItem { address, data }) { address, data } h.balanced
  refine ⟨table', by simp [tablePut, hinsert], ?_⟩
  rcases hend with ⟨-, entry, hmem, hzero⟩ | ⟨p, q, hlist, hlist', hside⟩
  · have haddress : address = entry.address := by simpa using hzero
    exact absurd hfree (haddress ▸ h.live hmem)
  · have hnew := puts.live_after_put address data
    obtain ⟨hp, hq⟩ := hside (h.falls hhalf (fun _ ha => ha.after_put data) { address, data } hnew)
    have hsorted := h.sorted
    rw [hlist, List.pairwise_append] at hsorted
    obtain ⟨hsp, hsq, hspq⟩ := hsorted
    have hbefore : ∀ x ∈ p, UInt32.signedSub x.address address < 0 := by
      intro x hx
      have hmem : x ∈ table.toList := by simp [hlist, hx]
      exact (hhalf.orderOn.antisymm _ _ hnew ((h.live hmem).after_put data)).1 (hp x hx)
    refine ⟨hbal, ?_, fun entry => ?_, hhalf⟩
    · rw [hlist', List.pairwise_append, List.pairwise_cons]
      refine ⟨hsp, ⟨hq, hsq⟩, fun x hx y hy => ?_⟩
      rcases List.mem_cons.1 hy with rfl | hy
      · exact hbefore x hx
      · exact hspq x hx y hy
    · have hentry := h.entries entry
      rw [hlist, List.mem_append] at hentry
      rw [hlist', List.mem_append, List.mem_cons, or_left_comm, hentry,
        Puts.after_put_of_free hfree]
      obtain ⟨a, d⟩ := entry
      by_cases heq : a = address
      · subst heq
        simp [hfree, eq_comm]
      · simp [heq]

theorem put {address : UInt32} {data : Option δ}
    (hhalf : UInt32.HalfCircle (puts.after (.put address data)).Live) :
    ∃ table', tablePut table address data = .ok (table', data) ∧
      table'.Holds (puts.after (.put address data)) := by
  by_cases hlive : puts.Live address
  · rw [Puts.after_put_of_live hlive]
    exact h.put_again data hlive
  · exact h.put_new data (not_not.1 hlive) hhalf

/-- What is removed is what was put. -/
theorem removes (address : UInt32) :
    ∃ table', tableRemove table address = .ok (table', (puts address).join) ∧
      table'.Holds (puts.after (.remove address)) := by
  have hhalf : UInt32.HalfCircle (puts.after (.remove address)).Live :=
    h.half.mono fun _ ha => Puts.live_of_after_remove ha
  rcases AvlNode.avlDelete_spec (compareItem { address, data := none }) h.balanced with
    ⟨hdelete, hmiss⟩ | ⟨item, table', hdelete, hzero, hbal, p, q, hlist, hlist'⟩
  · have hfree : puts address = none := by
      by_contra hlive
      obtain ⟨entry, hmem, hzero⟩ := h.not_missed { address, data := none } hlive
      exact hmiss (h.falls h.half (fun _ ha => ha) _ hlive) entry hmem hzero
    refine ⟨table, by simp [tableRemove, hdelete, hfree], ?_⟩
    rwa [Puts.after_remove_of_free hfree]
  · have haddress : address = item.address := by simpa using hzero
    have hdata : (puts address).join = item.data := by
      rw [haddress, (h.entries item).1 (by simp [hlist])]
      rfl
    refine ⟨table', by simp [tableRemove, hdelete, hdata], ?_⟩
    have hsorted := h.sorted
    rw [hlist, List.pairwise_append, List.pairwise_cons] at hsorted
    obtain ⟨hsp, ⟨hitemq, hsq⟩, hcross⟩ := hsorted
    have hother : ∀ entry ∈ p ++ q, entry.address ≠ item.address := by
      intro entry hmem heq
      rcases List.mem_append.1 hmem with hp | hq
      · have := hcross entry hp item List.mem_cons_self
        rw [UInt32.signedSub_eq_zero.2 heq] at this
        omega
      · have := hitemq entry hq
        rw [UInt32.signedSub_eq_zero.2 heq.symm] at this
        omega
    refine ⟨hbal, ?_, fun entry => ?_, hhalf⟩
    · rw [hlist', List.pairwise_append]
      exact ⟨hsp, hsq, fun x hx y hy => hcross x hx y (List.mem_cons_of_mem _ hy)⟩
    · rw [hlist', Puts.after_remove, haddress]
      split
      · rename_i heq
        exact iff_of_false (fun hmem => hother entry hmem heq) (by simp)
      · rename_i hne
        rw [← h.entries entry, hlist]
        have hother : entry ≠ item := fun heq => hne (by rw [heq])
        simp [hother]

theorem remove (address : UInt32) :
    ∃ table' data, tableRemove table address = .ok (table', data) ∧
      table'.Holds (puts.after (.remove address)) := by
  obtain ⟨table', hremove, hholds⟩ := h.removes address
  exact ⟨table', _, hremove, hholds⟩

end IndexTable.Holds

/-! ## Runs -/

theorem putsOf_snoc (calls : List (TableCall δ)) (call : TableCall δ) :
    putsOf (calls ++ [call]) = (putsOf calls).after call := by
  simp [putsOf]

/-- A step that keeps the addresses in one half of the circle keeps the table sorted. -/
theorem IndexTable.Holds.follows {table : IndexTable δ} {puts : Puts δ} {call : TableCall δ}
    (h : table.Holds puts) (hhalf : UInt32.HalfCircle (puts.after call).Live) :
    ∃ table' data, tableStep table call = .ok (table', data) ∧ table'.Holds (puts.after call) := by
  cases call with
  | put address data =>
    obtain ⟨table', hput, hholds⟩ := h.put hhalf
    exact ⟨table', data, hput, hholds⟩
  | remove address => exact h.remove address

/-- The comparison is no order on addresses that lie in no half of the circle. -/
theorem IndexTable.Finds.half {table : IndexTable δ} {puts : Puts δ} (h : table.Finds puts) :
    UInt32.HalfCircle puts.Live :=
  UInt32.orderOn_iff.1 (h.order fun _ => none)

/-- All along a sequence of calls the comparison orders the addresses in use and every
    search finds what was put, just if at each moment these addresses lie in one half
    of the circle. -/
theorem table_find_iff (calls : List (TableCall δ)) :
    (∀ pre post, calls = pre ++ post → ∃ table history,
        Machine.exec tableStep tableCreate pre = .ok (table, history) ∧
          table.Finds (putsOf pre)) ↔
      ∀ pre post, calls = pre ++ post → UInt32.HalfCircle (putsOf pre).Live := by
  let R : List (TableCall δ × Option δ) → IndexTable δ → Puts δ → Prop := fun tr table puts =>
    table.Holds puts ∧ puts = putsOf (tr.map Prod.fst)
  let P : List (TableCall δ × Option δ) → IndexTable δ → Prop := fun tr table =>
    table.Finds (putsOf (tr.map Prod.fst))
  have hsnoc : ∀ (tr : List (TableCall δ × Option δ)) call data,
      putsOf ((tr ++ [(call, data)]).map Prod.fst) = (putsOf (tr.map Prod.fst)).after call := by
    intro tr call data
    rw [List.map_append]
    exact putsOf_snoc _ _
  have holds : ∀ tr table puts, R tr table puts → P tr table := by
    rintro tr table puts ⟨h, rfl⟩
    exact h.finds
  have follows : ∀ tr table puts call, R tr table puts →
      UInt32.HalfCircle (puts.after call).Live → ∃ table' data,
        tableStep table call = .ok (table', data) ∧
          R (tr ++ [(call, data)]) table' (puts.after call) := by
    rintro tr table puts call ⟨h, rfl⟩ hhalf
    obtain ⟨table', data, hstep, hholds⟩ := h.follows hhalf
    exact ⟨table', data, hstep, hholds, (hsnoc tr call data).symm⟩
  have spoils : ∀ tr table puts call table' data, R tr table puts →
      ¬UInt32.HalfCircle (puts.after call).Live →
        tableStep table call = .ok (table', data) → ¬P (tr ++ [(call, data)]) table' := by
    rintro tr table puts call table' data ⟨h, rfl⟩ hbad hstep hfinds
    apply hbad
    rw [← hsnoc tr call data]
    exact hfinds.half
  have hrule := Machine.exec_always_iff [] calls follows holds spoils ⟨.init, rfl⟩
  constructor
  · intro hall pre post hsplit
    obtain ⟨table, history, -, hfinds⟩ := hall pre post hsplit
    exact hfinds.half
  · intro hhalf pre post hsplit
    have hgood : ∀ pre call post, calls = pre ++ call :: post →
        UInt32.HalfCircle ((pre.foldl Puts.after fun _ => none).after call).Live := by
      intro pre call post hsplit
      have := hhalf (pre ++ [call]) post (by simp [hsplit])
      rwa [putsOf_snoc] at this
    obtain ⟨table, history, hexec, hfinds⟩ := hrule.2 hgood pre post hsplit
    refine ⟨table, history, hexec, ?_⟩
    rw [← Machine.exec_inputs hexec]
    exact hfinds

/-- Data for six addresses, the last of which makes the tree rotate. -/
def spreadData : List (UInt32 × Option Nat) :=
  [(0x1, some 0), (0xA0000001, some 1), (0x60000001, some 2), (0x50000001, some 3),
    (0x70000001, some 4), (0x78000001, some 5)]

/-- The comparison puts each of two opposite addresses before the other, and three
    addresses around the circle after one another in turn. A rotation moves the second
    of the six entries to where the search for it does not come. -/
theorem table_find_fails :
    compareAddress32 (some (⟨0, none⟩ : Entry Nat)) (some ⟨0x80000000, none⟩) < 0 ∧
      compareAddress32 (some (⟨0x80000000, none⟩ : Entry Nat)) (some ⟨0, none⟩) < 0 ∧
      compareAddress32 (some (⟨0, none⟩ : Entry Nat)) (some ⟨0x60000000, none⟩) < 0 ∧
      compareAddress32 (some (⟨0x60000000, none⟩ : Entry Nat)) (some ⟨0xC0000000, none⟩) < 0 ∧
      compareAddress32 (some (⟨0xC0000000, none⟩ : Entry Nat)) (some ⟨0, none⟩) < 0 ∧
      (spreadData.map Prod.fst).Nodup ∧
      ¬∀ items : List (UInt32 × Option Nat), (items.map Prod.fst).Nodup →
        ∃ table history,
          Machine.exec tableStep tableCreate (items.map fun item => .put item.1 item.2) =
              .ok (table, history) ∧
            ∀ address, tableFind table address =
              (putsOf (items.map fun item => .put item.1 item.2) address).join := by
  have hdistinct : (spreadData.map Prod.fst).Nodup := by decide
  refine ⟨by decide, by decide, by decide, by decide, by decide, hdistinct, fun hall => ?_⟩
  obtain ⟨table, history, hexec, hfind⟩ := hall spreadData hdistinct
  have hlost : (Machine.exec tableStep tableCreate
      (spreadData.map fun item => .put item.1 item.2)).toOption.map
        (fun result => tableFind result.1 0xA0000001) = some none := by
    decide +kernel
  have hput : putsOf (spreadData.map fun item => .put item.1 item.2) 0xA0000001 =
      some (some 1) := by
    decide +kernel
  rw [hexec] at hlost
  have hnone : tableFind table 0xA0000001 = none := by simpa [Except.toOption] using hlost
  rw [hfind, hput] at hnone
  cases hnone
