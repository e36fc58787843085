-- SUMMARY: Every run of khash operations answers as a finite map does, and a walk over the buckets meets each key once.
import GraphIPC.Base.Machine
import GraphIPC.Klib.Put

/-!
# Runs of khash operations

The programs look a key up, assign to the value of a key, delete a key, and walk over the
buckets from `kh_begin` to `kh_end`. Whatever they do, in whatever order, the table is
rehashed, grown and shrunk behind their backs, and they see a finite map. The only
condition is that the map never gets too large for bucket numbers of 32 bits.
-/

/-- What the programs do with a table. -/
inductive KhOp (Value : Type) where
  | find (key : UInt32)
  | store (key : UInt32) (value : Value)
  | remove (key : UInt32)
  deriving DecidableEq, Repr

/-- An operation on a finite map, and the value that is found. -/
def Table.perform {Value : Type} (m : Table UInt32 Value) :
    KhOp Value → Except Fault (Table UInt32 Value × Option Value)
  | .find key => .ok (m, m key)
  | .store key value => .ok (m.set key value, none)
  | .remove key => .ok (m.erase key, none)

/-- The map after an operation. -/
def Table.after {Value : Type} (m : Table UInt32 Value) : KhOp Value → Table UInt32 Value
  | .find _ => m
  | .store key value => m.set key value
  | .remove key => m.erase key

namespace Khash

variable {checked : Bool} {Value : Type}

/-- A lookup is `kh_get`, compared with `kh_end`, and `kh_value`; an assignment is `kh_put`
    and an assignment to `kh_value`; a deletion is `kh_get` and `kh_del`. -/
def perform [Inhabited Value] (h : Khash checked Value) :
    KhOp Value → Except Fault (Khash checked Value × Option Value)
  | .find key => do
    let iter ← khGet h key
    if iter = khEnd h then return (h, none)
    return (h, some (← khValue h iter))
  | .store key value => do
    let (h, iter) ← khPut h key
    return (← khSetValue h iter value, none)
  | .remove key => do
    let iter ← khGet h key
    return (← h.del iter, none)

/-- `kh_begin` to `kh_end`: the keys and values of the buckets for which `kh_exist`. -/
def walk [Inhabited Value] (h : Khash checked Value) : Except Fault (List (UInt32 × Value)) :=
  (List.range (khEnd h)).foldlM (fun entries iter => do
    if ← khExist h iter then
      return entries ++ [(← readOr h.keys[iter]?, ← khValue h iter)]
    return entries) []

namespace Models

variable [Inhabited Value] {h : Khash checked Value} {m : Table UInt32 Value} (hm : h.Models m)
include hm

/-- An operation on the table is the operation on the map, if there is room for a key. -/
theorem perform (hsize : h.size < 2 ^ 30) (op : KhOp Value) :
    ∃ h' answer, h.perform op = .ok (h', answer) ∧ m.perform op = .ok (m.after op, answer) ∧
      h'.Models (m.after op) := by
  cases op with
  | find key =>
    cases hkey : m key with
    | none => exact ⟨h, none, by simp [Khash.perform, khGet, khEnd, hm.get_of_none hkey],
        by simp [Table.perform, Table.after, hkey], hm⟩
    | some v =>
      obtain ⟨i, hi, hget⟩ := hm.get_of_some hkey
      have hne : i ≠ h.nBuckets := (hm.lt_of_slot hi).ne
      obtain ⟨-, hvalue⟩ := hm.khValue_of_slot hi
      exact ⟨h, some v, by simp [Khash.perform, khGet, khEnd, hget, hne, hvalue],
        by simp [Table.perform, Table.after, hkey], hm⟩
  | store key value =>
    obtain ⟨h₁, i, v, hput, hi, hm₁, -⟩ := hm.put hsize key
    obtain ⟨h₂, hset, hm₂, -, -⟩ := hm₁.setValue hi value
    rw [Table.set_set] at hm₂
    exact ⟨h₂, none, by simp [Khash.perform, khPut, hput, hset], rfl, hm₂⟩
  | remove key =>
    cases hkey : m key with
    | none =>
      refine ⟨h, none, by simp [Khash.perform, khGet, hm.get_of_none hkey, del_end], rfl, ?_⟩
      rwa [Table.after, Table.erase, ← hkey, Function.update_eq_self]
    | some v =>
      obtain ⟨i, hi, hget⟩ := hm.get_of_some hkey
      obtain ⟨h₁, hdel, hm₁, -⟩ := hm.del hi
      exact ⟨h₁, none, by simp [Khash.perform, khGet, hget, hdel], rfl, hm₁⟩

/-- What a walk finds in a bucket. -/
theorem bucket {i : Nat} (hi : i < h.nBuckets) :
    (h.slot i = none ∧ khExist h i = .ok false) ∨
      ∃ k v, h.slot i = some (k, v) ∧ khExist h i = .ok true ∧ h.keys[i]? = some k ∧
        khValue h i = .ok v := by
  rcases hm.wellFormed with ⟨hzero, -⟩ | hs
  · omega
  cases hlive : liveAt h.flags i with
  | false =>
    obtain ⟨f, hf⟩ := hs.flags_of_lt hi
    have hdead : f.live = false := by simpa [liveAt, hf] using hlive
    refine .inl ⟨slots_of_not_live hlive .., ?_⟩
    simp [khExist, examine_of_lt hi, acIseither_eq, hf, hdead]
  | true =>
    obtain ⟨k, v, hkv⟩ := slots_of_live hlive (hs.keys ▸ hi) (hs.vals ▸ hi)
    obtain ⟨-, hk, -⟩ := slots_eq_some.1 hkv
    obtain ⟨hexist, hvalue⟩ := hm.khValue_of_slot hkv
    exact .inr ⟨k, v, hkv, hexist, hk, hvalue⟩

/-- A walk collects the slots in the order of the buckets. -/
theorem walk_eq : h.walk = .ok ((List.range h.nBuckets).filterMap h.slot) := by
  have hloop := Except.foldlM_range (P := fun j entries =>
      entries = (List.range j).filterMap h.slot) (n := h.nBuckets) (b := [])
    (f := fun entries iter => show Except Fault _ from do
      if ← khExist h iter then
        return entries ++ [(← readOr h.keys[iter]?, ← khValue h iter)]
      return entries) rfl ?_
  · obtain ⟨entries, hwalk, rfl⟩ := hloop
    exact hwalk
  · rintro j hj - rfl
    rcases hm.bucket hj with ⟨hslot, hexist⟩ | ⟨k, v, hslot, hexist, hk, hvalue⟩
    · refine ⟨_, by simp only [hexist, Except.ok_bind]; rfl, ?_⟩
      simp [List.range_succ, List.filterMap_append, hslot]
    · refine ⟨_, by simp only [hexist, hvalue, hk, readOr_some, Except.ok_bind, if_true]; rfl, ?_⟩
      simp [List.range_succ, List.filterMap_append, hslot]

omit [Inhabited Value] in
/-- No key lies in two buckets. -/
theorem nodup_keys (l : List Nat) (hl : l.Nodup) : ((l.filterMap h.slot).map Prod.fst).Nodup := by
  rw [List.map_filterMap]
  refine List.Nodup.filterMap ?_ hl
  intro i j key hi hj
  simp only [Option.mem_def, Option.map_eq_some_iff, Prod.exists] at hi hj
  obtain ⟨k, v, hi, rfl⟩ := hi
  obtain ⟨k', w, hj, hk⟩ := hj
  subst hk
  exact hm.holds.unique i j _ v w hi hj

omit [Inhabited Value] in
/-- The entries of the map lie in the buckets. -/
theorem mem_slots (k : UInt32) (v : Value) :
    (k, v) ∈ (List.range h.nBuckets).filterMap h.slot ↔ m k = some v := by
  simp only [List.mem_filterMap, List.mem_range]
  constructor
  · rintro ⟨i, -, hi⟩
    exact hm.holds.value i k v hi
  · intro hkey
    obtain ⟨i, hi⟩ := hm.holds.place k v hkey
    exact ⟨i, hm.lt_of_slot hi, hi⟩

/-- A walk meets the entries of the map, each of them once. -/
theorem walk : ∃ entries, h.walk = .ok entries ∧ (entries.map Prod.fst).Nodup ∧
    ∀ k v, (k, v) ∈ entries ↔ m k = some v :=
  ⟨_, hm.walk_eq, hm.nodup_keys _ List.nodup_range, hm.mem_slots⟩

end Models

end Khash

/-- There are fewer than 2^30 keys in the map whenever an operation is about to be
    performed. -/
def KhOp.Fit {Value : Type} (ops : List (KhOp Value)) : Prop :=
  ∀ pre op post, ops = pre ++ op :: post →
    {k | ((pre.foldl Table.after Table.empty) k).isSome}.ncard < 2 ^ 30

/-- Fewer than 2^30 operations fit. -/
theorem KhOp.fit_of_length {Value : Type} {ops : List (KhOp Value)} (h : ops.length ≤ 2 ^ 30) :
    KhOp.Fit ops := by
  -- every key was stored by some operation
  have hkeys : ∀ pre : List (KhOp Value), ∃ keys : Finset UInt32, keys.card ≤ pre.length ∧
      ∀ k, ((pre.foldl Table.after Table.empty) k).isSome → k ∈ keys := by
    intro pre
    induction pre using List.reverseRecOn with
    | nil => exact ⟨∅, Nat.le_refl 0, fun k hk => by cases hk⟩
    | append_singleton pre op ih =>
      obtain ⟨keys, hcard, hmem⟩ := ih
      simp only [List.foldl_append, List.foldl_cons, List.foldl_nil, List.length_append,
        List.length_singleton]
      cases op with
      | find key => exact ⟨keys, by omega, hmem⟩
      | store key value =>
        refine ⟨insert key keys, (Finset.card_insert_le key keys).trans (by omega), fun k hk => ?_⟩
        rw [Table.after, Table.set_apply] at hk
        split at hk
        · rename_i heq
          exact heq ▸ Finset.mem_insert_self key keys
        · exact Finset.mem_insert_of_mem (hmem k hk)
      | remove key =>
        refine ⟨keys, by omega, fun k hk => ?_⟩
        rw [Table.after, Table.erase_apply] at hk
        split at hk
        · cases hk
        · exact hmem k hk
  intro pre op post hsplit
  obtain ⟨keys, hcard, hmem⟩ := hkeys pre
  have hle : {k | ((pre.foldl Table.after Table.empty) k).isSome}.ncard ≤ keys.card := by
    rw [← Set.ncard_coe_finset]
    exact Set.ncard_le_ncard (fun k hk => hmem k hk) keys.finite_toSet
  have hlength := congrArg List.length hsplit
  simp only [List.length_append, List.length_cons] at hlength
  omega

/-- Operations on an empty table: none fails, each answers as the operation on a finite
    map does, `kh_size` is the number of keys, and a walk over the buckets meets each key
    once, with its value. -/
theorem khash_refines_map (checked : Bool) {Value : Type} [Inhabited Value]
    (ops : List (KhOp Value)) (hfit : KhOp.Fit ops) :
    ∃ (h : Khash checked Value) (m : Table UInt32 Value) (history : List (KhOp Value × Option Value)),
      Machine.exec Khash.perform Khash.init ops = .ok (h, history) ∧
      Machine.exec Table.perform Table.empty ops = .ok (m, history) ∧
      h.size = {k | (m k).isSome}.ncard ∧
      ∃ entries, h.walk = .ok entries ∧ (entries.map Prod.fst).Nodup ∧
        ∀ k v, (k, v) ∈ entries ↔ m k = some v := by
  let R : List (KhOp Value × Option Value) → Khash checked Value → Table UInt32 Value → Prop :=
    fun history h m => h.Models m ∧ Machine.exec Table.perform Table.empty (history.map Prod.fst) =
      .ok (m, history)
  let room : Table UInt32 Value → KhOp Value → Prop := fun m _ => {k | (m k).isSome}.ncard < 2 ^ 30
  have follows : ∀ history h m op, R history h m → room m op → ∃ h' answer,
      h.perform op = .ok (h', answer) ∧ R (history ++ [(op, answer)]) h' (m.after op) := by
    rintro history h m op ⟨hm, hexec⟩ hroom
    obtain ⟨h', answer, hrun, hrun', hm'⟩ := hm.perform (hm.size_eq ▸ hroom) op
    refine ⟨h', answer, hrun, hm', ?_⟩
    rw [List.map_append, List.map_singleton]
    exact (Machine.exec_snoc_eq_ok_iff hexec).2 ⟨answer, hrun', rfl⟩
  have hinit : R [] Khash.init Table.empty := ⟨Khash.models_init, rfl⟩
  obtain ⟨h, history, hexec, hm, hexec'⟩ :=
    Machine.exec_follows follows hinit hfit
  rw [List.nil_append] at hexec'
  rw [Machine.exec_inputs hexec] at hexec'
  exact ⟨h, _, history, hexec, hexec', hm.size_eq, hm.walk⟩

/-- The keys 1, 17 and 33 start in one bucket, and 1 is deleted before 33 is looked up. -/
theorem khash_refines_map_on_collisions :
    ∃ (h : Khash true Nat) (m : Table UInt32 Nat) (history : List (KhOp Nat × Option Nat)),
      Machine.exec Khash.perform Khash.init [.store 1 10, .store 17 20, .store 33 30, .remove 1,
        .find 33, .find 1] = .ok (h, history) ∧
      Machine.exec Table.perform Table.empty [.store 1 10, .store 17 20, .store 33 30, .remove 1,
        .find 33, .find 1] = .ok (m, history) ∧
      h.size = {k | (m k).isSome}.ncard ∧
      ∃ entries, h.walk = .ok entries ∧ (entries.map Prod.fst).Nodup ∧
        ∀ k v, (k, v) ∈ entries ↔ m k = some v :=
  khash_refines_map true _ (KhOp.fit_of_length (by decide))
