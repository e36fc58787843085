-- SUMMARY: The map that a khash table holds: lookups and removals over khash.h are those of a finite map.
import GraphIPC.Base.Probing
import GraphIPC.Base.Slots
import GraphIPC.Klib.Insert

/-!
# The content of a khash table

A live bucket is a slot of the map that the table holds. Every key lies where a lookup
comes by before it comes by an empty bucket, and there always is an empty bucket, so
`kh_get` finds a key just if the map has it. `kh_del` leaves its bucket in use, so what
lookups come by does not change.
-/

theorem acClear_of_some {flag : List UInt32} {i : Nat} {f : BucketFlags}
    (h : flagsAt flag i = some f) (bits : UInt32) : ∃ flag', acClear flag i bits = .ok flag' := by
  rw [acClear, shift_index]
  cases hw : flag[i / 16]? with
  | none => simp [flagsAt, hw] at h
  | some w => exact ⟨_, rfl⟩

theorem acSetIsdelTrue_of_some {flag : List UInt32} {i : Nat} {f : BucketFlags}
    (h : flagsAt flag i = some f) : ∃ flag', acSetIsdelTrue flag i = .ok flag' := by
  rw [acSetIsdelTrue, shift_index]
  cases hw : flag[i / 16]? with
  | none => simp [flagsAt, hw] at h
  | some w => exact ⟨_, rfl⟩

/-- The bucket is in use, by a key or by one that was deleted. -/
def usedAt (flag : List UInt32) (i : Nat) : Bool := (flagsAt flag i).any fun f => !f.isempty

/-- The bucket holds a key. -/
def liveAt (flag : List UInt32) (i : Nat) : Bool := (flagsAt flag i).any BucketFlags.live

theorem usedAt_of_liveAt {flag : List UInt32} {i : Nat} (h : liveAt flag i = true) :
    usedAt flag i = true := by
  unfold liveAt at h
  unfold usedAt
  cases hf : flagsAt flag i with
  | none => simp [hf] at h
  | some f =>
    rw [hf] at h
    simp only [BucketFlags.live, Option.any_some, Bool.and_eq_true] at h
    simpa using h.1

theorem flagsAt_of_liveAt {flag : List UInt32} {i : Nat} (h : liveAt flag i = true) :
    ∃ f, flagsAt flag i = some f ∧ f.live = true := by
  unfold liveAt at h
  cases hf : flagsAt flag i with
  | none => simp [hf] at h
  | some f => exact ⟨f, rfl, by simpa [hf] using h⟩

/-- A bucket that gets a key. -/
theorem used_live_of_both {flag flag' : List UInt32} {x : Nat}
    (h : acSetIsbothFalse flag x = .ok flag') :
    usedAt flag' = Function.update (usedAt flag) x true ∧
      liveAt flag' = Function.update (liveAt flag) x true := by
  obtain ⟨-, f, -, hset⟩ := acSetIsbothFalse_ok h
  constructor <;> funext j <;> by_cases hj : j = x
  · simp [usedAt, hset, hj]
  · simp [usedAt, hset, hj]
  · simp [liveAt, hset, hj, BucketFlags.live]
  · simp [liveAt, hset, hj]

/-- A bucket whose key is deleted. -/
theorem used_live_of_del {flag flag' : List UInt32} {x : Nat}
    (h : acSetIsdelTrue flag x = .ok flag') :
    usedAt flag' = usedAt flag ∧ liveAt flag' = Function.update (liveAt flag) x false := by
  obtain ⟨-, f, hf, hset⟩ := acSetIsdelTrue_ok h
  constructor <;> funext j <;> by_cases hj : j = x
  · simp [usedAt, hset, hj, hf]
  · simp [usedAt, hset, hj]
  · simp [liveAt, hset, hj, BucketFlags.live]
  · simp [liveAt, hset, hj]

namespace Khash

variable {checked : Bool} {Value : Type}

/-! ## Removal -/

/-- `kh_del` -/
def del (h : Khash checked Value) (x : Nat) : Except Fault (Khash checked Value) := do
  if x = h.nBuckets then return h
  h.examine x
  if ← acIseither h.flags x then return h
  let flags ← acSetIsdelTrue h.flags x
  return { h with flags, size := h.size - 1 }

/-- How many of the first `n` buckets satisfy a test. -/
def countBuckets (n : Nat) (test : Nat → Bool) : Nat :=
  ((Finset.range n).filter fun i => test i).card

theorem countBuckets_true {n x : Nat} {test : Nat → Bool} (hx : x < n) (htest : test x = false) :
    countBuckets n (Function.update test x true) = countBuckets n test + 1 := by
  have hset : (Finset.range n).filter (fun i => Function.update test x true i) =
      insert x ((Finset.range n).filter fun i => test i) := by
    ext i
    by_cases hi : i = x
    · simp [hi, hx]
    · simp [hi]
  unfold countBuckets
  rw [hset, Finset.card_insert_of_notMem (by simp [htest])]

theorem countBuckets_false {n x : Nat} {test : Nat → Bool} (hx : x < n) (htest : test x = true) :
    countBuckets n test = countBuckets n (Function.update test x false) + 1 := by
  have hback : Function.update (Function.update test x false) x true = test := by
    rw [Function.update_idem, ← htest, Function.update_eq_self]
  rw [← countBuckets_true hx (Function.update_self ..), hback]

theorem countBuckets_le {n : Nat} {test test' : Nat → Bool}
    (h : ∀ i < n, test i = true → test' i = true) : countBuckets n test ≤ countBuckets n test' := by
  apply Finset.card_le_card
  intro i hi
  simp only [Finset.mem_filter, Finset.mem_range] at hi ⊢
  exact ⟨hi.1, h i hi.1 hi.2⟩

/-! ## The map -/

/-- The buckets that the operations look at for a key, in order. -/
def path (n : Nat) (key : UInt32) : Nat → Nat := probe n (key.toNat % n)

theorem covers_path {n k : Nat} (hn : n = 2 ^ k) (key : UInt32) :
    Probing.Covers n (path n key) := by
  subst hn
  exact Probing.covers_triangular k _

theorem path_zero {n : Nat} (hn : 0 < n) (key : UInt32) : path n key 0 = key.toNat % n :=
  probe_zero (Nat.mod_lt _ hn)

/-- What lies in the live buckets of arrays. -/
def slots (live : Nat → Bool) (keys : List UInt32) (vals : List Value) (i : Nat) :
    Option (UInt32 × Value) :=
  if live i then (keys[i]?).bind fun k => (vals[i]?).map fun v => (k, v) else none

/-- What lies in a bucket. -/
def slot (h : Khash checked Value) : Nat → Option (UInt32 × Value) :=
  slots (liveAt h.flags) h.keys h.vals

theorem slots_eq_some {live : Nat → Bool} {keys : List UInt32} {vals : List Value} {i : Nat}
    {k : UInt32} {v : Value} :
    slots live keys vals i = some (k, v) ↔
      live i = true ∧ keys[i]? = some k ∧ vals[i]? = some v := by
  unfold slots
  cases live i <;> cases keys[i]? <;> cases vals[i]? <;> simp

theorem slots_of_not_live {live : Nat → Bool} {i : Nat} (h : live i = false) (keys : List UInt32)
    (vals : List Value) : slots live keys vals i = none := by
  simp [slots, h]

theorem slots_of_live {live : Nat → Bool} {keys : List UInt32} {vals : List Value} {i : Nat}
    (h : live i = true) (hkeys : i < keys.length) (hvals : i < vals.length) :
    ∃ k v, slots live keys vals i = some (k, v) :=
  ⟨keys[i], vals[i], slots_eq_some.2
    ⟨h, List.getElem?_eq_getElem hkeys, List.getElem?_eq_getElem hvals⟩⟩

/-- A key and a value are written to a bucket. -/
theorem slots_write {live : Nat → Bool} {keys : List UInt32} {vals : List Value} {x : Nat}
    (hkeys : x < keys.length) (hvals : x < vals.length) (k : UInt32) (v : Value) :
    slots (Function.update live x true) (keys.set x k) (vals.set x v) =
      Function.update (slots live keys vals) x (some (k, v)) := by
  funext i
  by_cases hi : i = x
  · subst hi
    simp [slots, hkeys, hvals]
  · simp [slots, hi, List.getElem?_set_ne (Ne.symm hi)]

/-- A bucket is no longer live. -/
theorem slots_clear (live : Nat → Bool) (keys : List UInt32) (vals : List Value) (x : Nat) :
    slots (Function.update live x false) keys vals =
      Function.update (slots live keys vals) x none := by
  funext i
  by_cases hi : i = x
  · simp [slots, hi]
  · simp [slots, hi]

/-- A table with the values, the bookkeeping and the paths that go with a map. -/
structure Models (h : Khash checked Value) (m : Table UInt32 Value) : Prop where
  wellFormed : h.WellFormed
  holds : SlotsHold h.slot m
  reached : ∀ i k v, h.slot i = some (k, v) →
    Probing.Reached (fun j => usedAt h.flags j = true) (path h.nBuckets k) i
  size : h.size = countBuckets h.nBuckets (liveAt h.flags)
  nOccupied : h.nOccupied = countBuckets h.nBuckets (usedAt h.flags)
  upperBound : h.upperBound = acUpper h.nBuckets
  room : h.nOccupied ≤ h.upperBound

/-- The buckets of a table that are live are among those it has. -/
theorem WellFormed.lt_of_liveAt {h : Khash checked Value} (hw : h.WellFormed) {i : Nat}
    (hi : liveAt h.flags i = true) : i < h.nBuckets := by
  obtain ⟨f, hf, hlive⟩ := flagsAt_of_liveAt hi
  rcases hw with ⟨-, hflags⟩ | hs
  · rw [hflags] at hf
    cases hf
  · by_contra hge
    rw [hs.spare i f (by omega) hf] at hlive
    cases hlive

theorem models_init : (init : Khash checked Value).Models Table.empty where
  wellFormed := wellFormed_init
  holds := SlotsHold.empty fun _ => rfl
  reached i k v hi := by cases hi
  size := rfl
  nOccupied := rfl
  upperBound := by simp [init, acUpper]
  room := Nat.le_refl _

namespace Models

variable {h : Khash checked Value} {m : Table UInt32 Value} (hm : h.Models m)
include hm

theorem lt_of_slot {i : Nat} {k : UInt32} {v : Value} (hi : h.slot i = some (k, v)) :
    i < h.nBuckets :=
  hm.wellFormed.lt_of_liveAt (slots_eq_some.1 hi).1

/-- `kh_size` is the number of keys. -/
theorem size_eq : h.size = {k | (m k).isSome}.ncard := by
  rw [hm.holds.ncard_keys, hm.size, countBuckets, ← Set.ncard_coe_finset]
  congr 1
  ext i
  simp only [Finset.coe_filter, Finset.mem_range, Set.mem_ofPred_eq, Option.isSome_iff_exists]
  constructor
  · rintro ⟨hi, hlive⟩
    rcases hm.wellFormed with ⟨hzero, -⟩ | hs
    · omega
    · obtain ⟨k, v, hkv⟩ := slots_of_live hlive (hs.keys ▸ hi) (hs.vals ▸ hi)
      exact ⟨(k, v), hkv⟩
  · rintro ⟨⟨k, v⟩, hkv⟩
    exact ⟨hm.lt_of_slot hkv, (slots_eq_some.1 hkv).1⟩

/-- No more keys than there are buckets in use. -/
theorem size_le : h.size ≤ h.nOccupied := by
  rw [hm.size, hm.nOccupied]
  exact countBuckets_le fun i _ hlive => usedAt_of_liveAt hlive

end Models

/-- There always is an empty bucket, and by far not every bucket is in use. -/
theorem acUpper_lt {n : Nat} (h : 4 ≤ n) : acUpper n < n ∧ n < 2 * acUpper n := by
  unfold acUpper
  omega

/-! ## Lookup -/

/-- A search for the key ends at the bucket: nothing was ever put there, or the key
    is there. -/
def Stops (h : Khash checked Value) (key : UInt32) (i : Nat) : Prop :=
  usedAt h.flags i = false ∨ ∃ v, h.slot i = some (key, v)

section Search

variable {h : Khash checked Value} {m : Table UInt32 Value} (hs : h.Shaped)
include hs

theorem Shaped.passes_of_stops {key : UInt32} {i : Nat} (hi : i < h.nBuckets)
    (hstop : h.Stops key i) : h.passes key i = .ok false := by
  obtain ⟨f, key', hf, hkey, hpasses⟩ := hs.passes_eq key hi
  rw [hpasses]
  rcases hstop with hused | ⟨v, hv⟩
  · have hempty : f.isempty = true := by simpa [usedAt, hf] using hused
    simp [hempty]
  · obtain ⟨hlive, hk, -⟩ := slots_eq_some.1 hv
    have hlive : f.isempty = false ∧ f.isdel = false := by
      simpa [liveAt, hf, BucketFlags.live] using hlive
    rw [hkey] at hk
    cases hk
    simp [hlive.1, hlive.2]

theorem Shaped.passes_of_not_stops {key : UInt32} {i : Nat} (hi : i < h.nBuckets)
    (hgo : ¬h.Stops key i) : h.passes key i = .ok true := by
  obtain ⟨f, key', hf, hkey, hpasses⟩ := hs.passes_eq key hi
  rw [hpasses]
  simp only [Stops, not_or, not_exists] at hgo
  have hempty : f.isempty = false := by simpa [usedAt, hf] using hgo.1
  have hother : f.isdel = true ∨ key' ≠ key := by
    by_contra hboth
    simp only [not_or, Bool.not_eq_true, not_not] at hboth
    have hval : i < h.vals.length := hs.vals ▸ hi
    refine hgo.2 h.vals[i] (slots_eq_some.2 ⟨?_, ?_, List.getElem?_eq_getElem hval⟩)
    · simp [liveAt, hf, BucketFlags.live, hempty, hboth.1]
    · rw [hkey, hboth.2]
  simpa [hempty] using hother

/-- The next bucket of a path. -/
theorem Shaped.next_path (key : UInt32) (step : Nat) :
    next (h.nBuckets - 1) (path h.nBuckets key step) step = path h.nBuckets key (step + 1) := by
  obtain ⟨k, -, hk, hn⟩ := hs.nBuckets
  rw [next_eq hn (by omega), path, probe_succ]

theorem Shaped.covers (key : UInt32) : Probing.Covers h.nBuckets (path h.nBuckets key) := by
  obtain ⟨k, -, -, hn⟩ := hs.nBuckets
  exact covers_path hn key

theorem Shaped.home_eq_path (key : UInt32) :
    home (h.nBuckets - 1) key = path h.nBuckets key 0 := by
  obtain ⟨k, -, -, hn⟩ := hs.nBuckets
  rw [home_eq hn, path_zero (by have := hs.four_le; omega)]

/-- The loop of `kh_get` ends where the search ends. -/
theorem Shaped.getLoop_eq {key : UInt32} {stop : Nat} (hstop : stop < h.nBuckets)
    (hat : h.Stops key (path h.nBuckets key stop))
    (hbefore : ∀ s < stop, ¬h.Stops key (path h.nBuckets key s)) {fuel step : Nat}
    (hstep : step ≤ stop) (hfuel : stop < step + fuel) :
    h.getLoop key (path h.nBuckets key 0) fuel (path h.nBuckets key step) step =
      .ok (if usedAt h.flags (path h.nBuckets key stop) then path h.nBuckets key stop
        else h.nBuckets) := by
  have hcovers := hs.covers key
  induction fuel generalizing step with
  | zero => omega
  | succ fuel ih =>
    rw [getLoop]
    by_cases hlast : step = stop
    · subst hlast
      obtain ⟨f, hf⟩ := hs.flags_of_lt (hcovers.lt step)
      rw [hs.passes_of_stops (hcovers.lt step) hat, acIseither_eq, hf]
      rcases hat with hused | ⟨v, hv⟩
      · have hempty : f.isempty = true := by simpa [usedAt, hf] using hused
        simp [hused, BucketFlags.live, hempty]
      · have hlive := (slots_eq_some.1 hv).1
        have hused := usedAt_of_liveAt hlive
        have hlive : f.live = true := by simpa [liveAt, hf] using hlive
        simp [hused, hlive]
    · have hlt : step + 1 ≤ stop := by omega
      have hne := hcovers.ne_first (Nat.succ_pos step) (by omega)
      rw [hs.passes_of_not_stops (hcovers.lt step) (hbefore step (by omega))]
      simp only [Except.ok_bind, if_true, hs.next_path, hne, if_false]
      exact ih hlt (by omega)

end Search

namespace Models

variable {h : Khash checked Value} {m : Table UInt32 Value} (hm : h.Models m)
include hm

/-- A table with buckets has an empty one. -/
theorem exists_empty (hs : h.Shaped) : ∃ i < h.nBuckets, usedAt h.flags i = false := by
  by_contra hfull
  simp only [not_exists, not_and, Bool.not_eq_false] at hfull
  have hall : (Finset.range h.nBuckets).filter (fun i => usedAt h.flags i) =
      Finset.range h.nBuckets :=
    Finset.filter_true_of_mem fun i hi => hfull i (Finset.mem_range.1 hi)
  have hcard := hm.nOccupied
  rw [countBuckets, hall, Finset.card_range] at hcard
  have hroom := hm.room
  rw [hm.upperBound] at hroom
  have hupper := (acUpper_lt hs.four_le).1
  omega

/-- The search for a key ends. -/
theorem exists_stop (hs : h.Shaped) (key : UInt32) :
    ∃ stop < h.nBuckets, h.Stops key (path h.nBuckets key stop) ∧
      ∀ s < stop, ¬h.Stops key (path h.nBuckets key s) := by
  obtain ⟨i, hi, hempty⟩ := hm.exists_empty hs
  exact (hs.covers key).exists_first ⟨i, hi, .inl hempty⟩

/-- A key that is there is where the search for it ends. -/
theorem stop_of_slot {i : Nat} {key : UInt32} {v : Value} (hi : h.slot i = some (key, v))
    {stop : Nat} (hat : h.Stops key (path h.nBuckets key stop))
    (hbefore : ∀ s < stop, ¬h.Stops key (path h.nBuckets key s)) :
    path h.nBuckets key stop = i := by
  obtain ⟨step, hstep, hused⟩ := hm.reached i key v hi
  have hle : stop ≤ step := by
    by_contra hlt
    exact hbefore step (by omega) (.inr ⟨v, hstep ▸ hi⟩)
  rcases hle.eq_or_lt with rfl | hlt
  · exact hstep
  · rcases hat with hempty | ⟨w, hw⟩
    · rw [hused stop hlt] at hempty
      cases hempty
    · exact hm.holds.unique _ _ key w v hw hi

/-- The search for a key that is not there ends at an empty bucket. -/
theorem stop_of_absent {key : UInt32} (hkey : m key = none) {stop : Nat}
    (hat : h.Stops key (path h.nBuckets key stop)) :
    usedAt h.flags (path h.nBuckets key stop) = false := by
  rcases hat with hempty | ⟨v, hv⟩
  · exact hempty
  · rw [hm.holds.value _ _ _ hv] at hkey
    cases hkey

/-- `kh_get` on a key of the map. -/
theorem get_of_slot {i : Nat} {key : UInt32} {v : Value} (hi : h.slot i = some (key, v)) :
    h.get key = .ok i := by
  rcases hm.wellFormed with ⟨hzero, -⟩ | hs
  · have hlt := hm.lt_of_slot hi
    omega
  · obtain ⟨stop, hstop, hat, hbefore⟩ := hm.exists_stop hs key
    have hfour := hs.four_le
    rw [get, if_pos (by omega), hs.home_eq_path, hs.getLoop_eq hstop hat hbefore (Nat.zero_le _)
      (by omega), hm.stop_of_slot hi hat hbefore,
      if_pos (usedAt_of_liveAt (slots_eq_some.1 hi).1)]

theorem get_of_some {key : UInt32} {v : Value} (hkey : m key = some v) :
    ∃ i, h.slot i = some (key, v) ∧ h.get key = .ok i := by
  obtain ⟨i, hi⟩ := hm.holds.place key v hkey
  exact ⟨i, hi, hm.get_of_slot hi⟩

/-- `kh_get` on a key that the map does not have. -/
theorem get_of_none {key : UInt32} (hkey : m key = none) : h.get key = .ok h.nBuckets := by
  apply hm.wellFormed.get_of_absent
  rintro i ⟨hi, ⟨f, hf, hlive⟩, hk⟩
  rcases hm.wellFormed with ⟨hzero, -⟩ | hs
  · omega
  · obtain ⟨k, v, hkv⟩ := slots_of_live (by simp [liveAt, hf, hlive] : liveAt h.flags i = true)
      (hs.keys ▸ hi) (hs.vals ▸ hi)
    obtain ⟨-, hk', -⟩ := slots_eq_some.1 hkv
    rw [hk] at hk'
    cases hk'
    rw [hm.holds.value i key v hkv] at hkey
    cases hkey

/-- `kh_value` and `kh_exist` at the bucket of a key. -/
theorem khValue_of_slot {i : Nat} {key : UInt32} {v : Value} [Inhabited Value]
    (hi : h.slot i = some (key, v)) : khExist h i = .ok true ∧ khValue h i = .ok v := by
  obtain ⟨hlive, -, hv⟩ := slots_eq_some.1 hi
  obtain ⟨f, hf, hflive⟩ := flagsAt_of_liveAt hlive
  have hexamine := examine_of_lt (hm.lt_of_slot hi)
  constructor
  · simp [khExist, hexamine, acIseither_eq, hf, hflive]
  · simp [khValue, hexamine, hv]

/-! ## Changes -/

/-- A value is assigned to the bucket of a key. -/
theorem setValue {i : Nat} {key : UInt32} {v : Value} [Inhabited Value]
    (hi : h.slot i = some (key, v)) (w : Value) :
    ∃ h', khSetValue h i w = .ok h' ∧ h'.Models (m.set key w) ∧ h'.slot i = some (key, w) ∧
      h'.size = h.size := by
  obtain ⟨hlive, hk, hv⟩ := slots_eq_some.1 hi
  have hlt : i < h.vals.length := (List.getElem?_eq_some_iff.1 hv).1
  have hset : khSetValue h i w = .ok { h with vals := h.vals.set i w } := by
    simp [khSetValue, examine_of_lt (hm.lt_of_slot hi), writeAt_of_lt hlt]
  have hslot : ({ h with vals := h.vals.set i w } : Khash checked Value).slot =
      Function.update h.slot i (some (key, w)) := by
    funext j
    by_cases hj : j = i
    · subst hj
      simp [slot, slots, hlive, hk, hlt]
    · simp [slot, slots, hj, List.getElem?_set_ne (Ne.symm hj)]
  refine ⟨_, hset, ?_, by rw [hslot, Function.update_self], rfl⟩
  constructor
  · exact hm.wellFormed.setValue hset
  · rw [hslot]
    exact hm.holds.replace hi w
  · intro j k u hj
    rw [hslot] at hj
    by_cases hji : j = i
    · subst hji
      rw [Function.update_self] at hj
      cases hj
      exact hm.reached j key v hi
    · rw [Function.update_of_ne hji] at hj
      exact hm.reached j k u hj
  · exact hm.size
  · exact hm.nOccupied
  · exact hm.upperBound
  · exact hm.room

omit hm in
/-- `kh_del` at the index behind the last bucket does nothing. -/
theorem del_end : h.del h.nBuckets = .ok h := by
  simp [del]

/-- The key of a bucket is deleted. The bucket stays in use. -/
theorem del {i : Nat} {key : UInt32} {v : Value} (hi : h.slot i = some (key, v)) :
    ∃ h', h.del i = .ok h' ∧ h'.Models (m.erase key) ∧ h'.size + 1 = h.size := by
  obtain ⟨hlive, -, -⟩ := slots_eq_some.1 hi
  obtain ⟨f, hf, hflive⟩ := flagsAt_of_liveAt hlive
  have hlt := hm.lt_of_slot hi
  obtain ⟨flags, hflags⟩ := acSetIsdelTrue_of_some hf
  obtain ⟨hlength, f', hf', hset⟩ := acSetIsdelTrue_ok hflags
  obtain ⟨hused, hdead⟩ := used_live_of_del hflags
  have hdel : h.del i = .ok { h with flags, size := h.size - 1 } := by
    simp [Khash.del, hlt.ne, examine_of_lt hlt, acIseither_eq, hf, hflive, hflags]
  have hsize := hm.size
  rw [countBuckets_false hlt hlive, ← hdead] at hsize
  have hslot : ({ h with flags, size := h.size - 1 } : Khash checked Value).slot =
      Function.update h.slot i none := by
    rw [slot, hdead]
    exact slots_clear ..
  refine ⟨_, hdel, ?_, ?_⟩
  · constructor
    · rcases hm.wellFormed with ⟨hzero, -⟩ | hs
      · omega
      · refine .inr ⟨hs.nBuckets, hlength.trans hs.flags, hs.keys, hs.vals, ?_⟩
        intro j g hj hg
        simp only at hj hg
        rw [hset, if_neg (by omega)] at hg
        exact hs.spare j g hj hg
    · rw [hslot]
      exact hm.holds.clear hi
    · intro j k u hj
      rw [hslot] at hj
      have hji : j ≠ i := by
        rintro rfl
        rw [Function.update_self] at hj
        cases hj
      rw [Function.update_of_ne hji] at hj
      simp only [hused]
      exact hm.reached j k u hj
    · show h.size - 1 = countBuckets h.nBuckets (liveAt flags)
      omega
    · show h.nOccupied = countBuckets h.nBuckets (usedAt flags)
      rw [hused]
      exact hm.nOccupied
    · exact hm.upperBound
    · exact hm.room
  · show h.size - 1 + 1 = h.size
    omega

end Models

end Khash
