-- SUMMARY: NodeTable.c: the contexts of the nodes by their addresses, and when adding one puts it in the place of another.
import GraphIPC.Tables.ForwardTable
import GraphIPC.Tables.IndexTable

/-!
# The node table

`NodeTable.c` keeps a pointer for each address in a table of `IndexTable.c`, under one
lock. `node_table_add` warns that it overwrites the context an address has, and then
calls `table_put`, which inserts with `avl_insert` and leaves the entry that is there as
it is; `avl_replace` is used nowhere.
-/

variable {δ : Type}

/-- The variables of the module; `nodeTableMutex` tells whether the lock is held. -/
structure NodeTable (δ : Type) where
  nodeTable : IndexTable δ
  nodeTableMutex : Bool

/-- `node_table_init` -/
def nodeTableInit : NodeTable δ := { nodeTable := tableCreate, nodeTableMutex := false }

/-- `node_table_find`. It does not lock. -/
def nodeTableFind (address : UInt32) (n : NodeTable δ) : Option δ :=
  tableFind n.nodeTable address

/-- `node_table_add`, and whether it warns that a previous context is overwritten. -/
def nodeTableAdd (address : UInt32) (context : Option δ) (n : NodeTable δ) :
    Except Fault (NodeTable δ × Bool) := do
  let nodeTableMutex ← pthreadMutexLock n.nodeTableMutex
  let oldContext := nodeTableFind address n
  let (nodeTable, _) ← tablePut n.nodeTable address context
  let nodeTableMutex ← pthreadMutexUnlock nodeTableMutex
  return ({ nodeTable, nodeTableMutex }, oldContext.isSome)

/-- `node_table_remove` -/
def nodeTableRemove (address : UInt32) (n : NodeTable δ) :
    Except Fault (NodeTable δ × Option δ) := do
  let nodeTableMutex ← pthreadMutexLock n.nodeTableMutex
  let (nodeTable, context) ← tableRemove n.nodeTable address
  let nodeTableMutex ← pthreadMutexUnlock nodeTableMutex
  return ({ nodeTable, nodeTableMutex }, context)

/-- A call that changes the table; a context may be the null pointer. -/
inductive NodeCall (δ : Type) where
  | add (address : UInt32) (context : Option δ)
  | remove (address : UInt32)

/-- What a call tells its caller: whether it warned, or the context it returns. -/
inductive NodeReply (δ : Type) where
  | added (warned : Bool)
  | removed (context : Option δ)

def nodeTableStep (n : NodeTable δ) : NodeCall δ → Except Fault (NodeTable δ × NodeReply δ)
  | .add address context => do
    let (n, warned) ← nodeTableAdd address context n
    return (n, .added warned)
  | .remove address => do
    let (n, context) ← nodeTableRemove address n
    return (n, .removed context)

/-- The call on the table below. -/
def NodeCall.tableCall : NodeCall δ → TableCall δ
  | .add address context => .put address context
  | .remove address => .remove address

/-- The context each address has after the calls: the first that was added since the
    address was last removed. -/
def contextsOf (calls : List (NodeCall δ)) : Puts δ :=
  putsOf (calls.map NodeCall.tableCall)

/-- What is asked of adding a context: it is found at its address, all other addresses
    are found as before, and removing the address returns it and leaves nothing. -/
def AddReplaces (n : NodeTable δ) (address : UInt32) (context : δ) : Prop :=
  ∃ n' warned, nodeTableAdd address (some context) n = .ok (n', warned) ∧
    nodeTableFind address n' = some context ∧
    (∀ a, a ≠ address → nodeTableFind a n' = nodeTableFind a n) ∧
    ∃ n'', nodeTableRemove address n' = .ok (n'', some context) ∧
      nodeTableFind address n'' = none

/-- Whatever the addresses in use are: a context is put in place only if the address has
    no entry or one with this very context. -/
theorem AddReplaces.entry {n : NodeTable δ} {address : UInt32} {context : δ}
    (h : AddReplaces n address context) {entry : Entry δ}
    (hentry : n.nodeTable.avlFind (compareItem { address, data := none }) = some entry) :
    entry.data = some context := by
  obtain ⟨n', warned, hadd, hfind, -⟩ := h
  have hsame : n.nodeTable.avlInsert (compareItem { address, data := some context })
      { address, data := some context } = .ok (n.nodeTable, some entry) :=
    AvlNode.avlInsert_of_avlFind hentry
  have hput : tablePut n.nodeTable address (some context) = .ok (n.nodeTable, some context) := by
    rw [tablePut, hsame]
    rfl
  have htable : n'.nodeTable = n.nodeTable := by
    rw [nodeTableAdd, hput, Except.bind_eq_ok_iff] at hadd
    obtain ⟨_, -, hadd⟩ := hadd
    rw [Except.ok_bind, Except.bind_eq_ok_iff] at hadd
    obtain ⟨_, -, hadd⟩ := hadd
    cases hadd
    rfl
  rw [nodeTableFind, htable, tableFind, hentry] at hfind
  exact hfind

/-! ## Tables that hold what was put -/

/-- The lock is free and the table below holds `puts`. -/
structure NodeTable.Holds (n : NodeTable δ) (puts : Puts δ) : Prop where
  table : n.nodeTable.Holds puts
  mutex : n.nodeTableMutex = false

namespace NodeTable.Holds

theorem init : (nodeTableInit : NodeTable δ).Holds fun _ => none :=
  ⟨.init, rfl⟩

variable {n : NodeTable δ} {puts : Puts δ} (h : n.Holds puts)
include h

theorem find (address : UInt32) : nodeTableFind address n = (puts address).join :=
  h.table.finds.find address

theorem add {address : UInt32} {context : Option δ}
    (hhalf : UInt32.HalfCircle (puts.after (.put address context)).Live) :
    ∃ n', nodeTableAdd address context n = .ok (n', (puts address).join.isSome) ∧
      n'.Holds (puts.after (.put address context)) := by
  obtain ⟨nodeTable, hput, hholds⟩ := h.table.put hhalf
  refine ⟨{ nodeTable, nodeTableMutex := false }, ?_, hholds, rfl⟩
  simp [nodeTableAdd, h.mutex, pthreadMutexLock, pthreadMutexUnlock, hput, h.find]

theorem remove (address : UInt32) :
    ∃ n', nodeTableRemove address n = .ok (n', (puts address).join) ∧
      n'.Holds (puts.after (.remove address)) := by
  obtain ⟨nodeTable, hremove, hholds⟩ := h.table.removes address
  refine ⟨{ nodeTable, nodeTableMutex := false }, ?_, hholds, rfl⟩
  simp [nodeTableRemove, h.mutex, pthreadMutexLock, pthreadMutexUnlock, hremove]

/-- A call does to the table what it does to the contexts. -/
theorem follows {call : NodeCall δ}
    (hhalf : UInt32.HalfCircle (puts.after call.tableCall).Live) :
    ∃ n' reply, nodeTableStep n call = .ok (n', reply) ∧
      n'.Holds (puts.after call.tableCall) := by
  cases call with
  | add address context =>
    obtain ⟨n', hadd, hholds⟩ := h.add hhalf
    exact ⟨n', _, by simp [nodeTableStep, hadd]; rfl, hholds⟩
  | remove address =>
    obtain ⟨n', hremove, hholds⟩ := h.remove address
    exact ⟨n', _, by simp [nodeTableStep, hremove]; rfl, hholds⟩

/-- Adding a context puts it in place just if the address has none of another kind. -/
theorem addReplaces_iff {address : UInt32} {context : δ}
    (hhalf : UInt32.HalfCircle (puts.after (.put address (some context))).Live) :
    AddReplaces n address context ↔
      puts address = none ∨ puts address = some (some context) := by
  obtain ⟨n₁, hadd, hholds⟩ := h.add hhalf
  constructor
  · rintro ⟨n', warned, hadd', hfind, -⟩
    rw [hadd] at hadd'
    cases hadd'
    by_cases hlive : puts.Live address
    · rw [hholds.find, Puts.after_put_of_live hlive] at hfind
      exact .inr (Option.join_eq_some_iff.1 hfind)
    · exact .inl (not_not.1 hlive)
  · intro hcondition
    have hput : ∀ a, puts.after (.put address (some context)) a =
        if a = address then some (some context) else puts a := by
      intro a
      rcases hcondition with hfree | hsame
      · exact Puts.after_put_of_free hfree _ a
      · rw [Puts.after_put_of_live (by simp [Puts.Live, hsame])]
        split
        · rename_i ha
          rw [ha, hsame]
        · rfl
    obtain ⟨n₂, hremove, hholds₂⟩ := hholds.remove address
    have hlatest : (puts.after (.put address (some context)) address).join = some context := by
      rw [hput, if_pos rfl]
      rfl
    rw [hlatest] at hremove
    refine ⟨n₁, _, hadd, ?_, ?_, n₂, hremove, ?_⟩
    · rw [hholds.find, hlatest]
    · intro a ha
      rw [hholds.find, h.find, hput, if_neg ha]
    · rw [hholds₂.find, Puts.after_remove, if_pos rfl]
      rfl

end NodeTable.Holds

/-! ## Runs -/

/-- The call on the contexts. -/
def Puts.afterCall (puts : Puts δ) (call : NodeCall δ) : Puts δ := puts.after call.tableCall

theorem contextsOf_eq_foldl (calls : List (NodeCall δ)) :
    contextsOf calls = calls.foldl Puts.afterCall fun _ => none := by
  rw [contextsOf, putsOf, List.foldl_map]
  rfl

theorem contextsOf_snoc (calls : List (NodeCall δ)) (call : NodeCall δ) :
    contextsOf (calls ++ [call]) = (contextsOf calls).after call.tableCall := by
  rw [contextsOf, List.map_append, List.map_singleton, putsOf_snoc]
  rfl

/-- An address with an entry was added. -/
theorem added_of_live {calls : List (NodeCall δ)} {address : UInt32}
    (h : (contextsOf calls).Live address) : ∃ context, .add address context ∈ calls := by
  induction calls using List.reverseRecOn with
  | nil => exact absurd rfl h
  | append_singleton calls call ih =>
    rw [contextsOf_snoc] at h
    by_cases hlive : (contextsOf calls).Live address
    · obtain ⟨context, hmem⟩ := ih hlive
      exact ⟨context, List.mem_append_left _ hmem⟩
    · cases call with
      | remove a => exact absurd (Puts.live_of_after_remove h) hlive
      | add a context =>
        by_cases ha : address = a
        · exact ⟨context, by simp [ha]⟩
        · refine absurd ?_ hlive
          by_cases hput : (contextsOf calls).Live a
          · rwa [NodeCall.tableCall, Puts.after_put_of_live hput] at h
          · rw [NodeCall.tableCall, Puts.Live, Puts.after_put_of_free (not_not.1 hput),
              if_neg ha] at h
            exact h

/-- Calls that keep the addresses in one half of the circle all succeed. -/
theorem NodeTable.Holds.exec (calls : List (NodeCall δ))
    (hhalf : ∀ pre post, calls = pre ++ post → UInt32.HalfCircle (contextsOf pre).Live) :
    ∃ n history, Machine.exec nodeTableStep nodeTableInit calls = .ok (n, history) ∧
      n.Holds (contextsOf calls) := by
  let R : List (NodeCall δ × NodeReply δ) → NodeTable δ → Puts δ → Prop := fun _ n puts =>
    n.Holds puts
  have follows : ∀ tr n puts call, R tr n puts →
      UInt32.HalfCircle (puts.afterCall call).Live → ∃ n' reply,
        nodeTableStep n call = .ok (n', reply) ∧ R (tr ++ [(call, reply)]) n' (puts.afterCall call) :=
    fun tr n puts call h hhalf => h.follows hhalf
  have hgood : ∀ pre call post, calls = pre ++ call :: post →
      UInt32.HalfCircle ((pre.foldl Puts.afterCall fun _ => none).afterCall call).Live := by
    intro pre call post hsplit
    have hnext := hhalf (pre ++ [call]) post (by simp [hsplit])
    rwa [contextsOf_snoc, contextsOf_eq_foldl] at hnext
  have hinit : R [] nodeTableInit fun _ => none := .init
  obtain ⟨n, history, hexec, hholds⟩ :=
    @Machine.exec_follows _ _ _ _ _ _ R _ _ [] _ _ calls follows hinit hgood
  exact ⟨n, history, hexec, by rwa [contextsOf_eq_foldl]⟩

/-- After any calls that kept the addresses in use, the one to be added included, in one
    half of the circle: a context that is added is found in place of the old one just
    if the address has no entry, or has this very context already. -/
theorem node_table_add_iff (calls : List (NodeCall δ)) (address : UInt32) (context : δ)
    (hhalf : ∀ pre post, calls ++ [.add address (some context)] = pre ++ post →
      UInt32.HalfCircle (contextsOf pre).Live) :
    ∃ n history, Machine.exec nodeTableStep nodeTableInit calls = .ok (n, history) ∧
      (AddReplaces n address context ↔
        contextsOf calls address = none ∨ contextsOf calls address = some (some context)) := by
  obtain ⟨n, history, hexec, hholds⟩ := NodeTable.Holds.exec calls fun pre post hsplit =>
    hhalf pre (post ++ [.add address (some context)]) (by rw [hsplit, List.append_assoc])
  refine ⟨n, history, hexec, hholds.addReplaces_iff ?_⟩
  have hlast := hhalf (calls ++ [.add address (some context)]) [] (by simp)
  rwa [contextsOf_snoc] at hlast

/-- The context of an address that was given up is put in the place of nothing. -/
theorem node_table_add_after_remove :
    ∃ n history, Machine.exec nodeTableStep nodeTableInit [.add 5 (some 1), .remove 5] =
        .ok (n, history) ∧ AddReplaces n 5 2 := by
  have hhalf : ∀ pre post, [.add 5 (some 1), .remove 5] ++ [.add 5 (some 2)] = pre ++ post →
      UInt32.HalfCircle (contextsOf (pre : List (NodeCall Nat))).Live := by
    intro pre post hsplit
    refine ⟨5, fun a ha => ?_⟩
    obtain ⟨context, hmem⟩ := added_of_live ha
    have hall : .add a context ∈
        ([.add 5 (some 1), .remove 5] ++ [.add 5 (some 2)] : List (NodeCall Nat)) := by
      rw [hsplit]
      exact List.mem_append_left _ hmem
    have hfive : a = 5 := by
      simp at hall
      rcases hall with ⟨ha, -⟩ | ⟨ha, -⟩ <;> exact ha
    rw [hfive]
    decide
  obtain ⟨n, history, hexec, hiff⟩ := node_table_add_iff _ 5 2 hhalf
  exact ⟨n, history, hexec, hiff.2 (.inl (by decide))⟩

/-- The second context of an address is announced as overwriting the first, and the
    first is found and returned. -/
theorem node_table_add_fails :
    ∃ n n' history, Machine.exec nodeTableStep nodeTableInit [.add 5 (some 1)] =
        .ok (n, history) ∧
      nodeTableAdd 5 (some 2) n = .ok (n', true) ∧ nodeTableFind 5 n' = some 1 ∧
      ¬AddReplaces n 5 2 := by
  refine ⟨_, _, [_], rfl, rfl, rfl, ?_⟩
  rintro ⟨n', warned, hadd, hfind, -⟩
  cases hadd
  exact absurd hfind (by decide)
