-- SUMMARY: Rehashing a khash table in place moves every entry to where lookups in the new table find it.
import GraphIPC.Klib.Content

/-!
# Rehashing

While a table is rehashed, its arrays hold entries that have been placed for the new
number of buckets and entries that wait at their old place; no bucket is both. The
kick-out process takes one entry in hand, places it and goes on with the one that was in
its way, and with every round fewer entries wait. An entry that has been placed is
never moved again.
-/

theorem Except.foldlM_range {ε β : Type} {f : β → Nat → Except ε β} {P : Nat → β → Prop} {n : Nat}
    {b : β} (hb : P 0 b) (hf : ∀ j < n, ∀ b, P j b → ∃ b', f b j = .ok b' ∧ P (j + 1) b') :
    ∃ b', (List.range n).foldlM f b = .ok b' ∧ P n b' := by
  induction n with
  | zero => exact ⟨b, rfl, hb⟩
  | succ n ih =>
    obtain ⟨b₁, hloop, hb₁⟩ := ih fun j hj => hf j (by omega)
    obtain ⟨b₂, hstep, hb₂⟩ := hf n (Nat.lt_succ_self n) b₁ hb₁
    exact ⟨b₂, by simp [List.range_succ, hloop, hstep], hb₂⟩

namespace Khash

variable {Value : Type}

/-- The buckets whose entries the table has: of the old ones those that wait, of the new
    ones those that were filled. -/
def Rehash.kept (n : Nat) (r : Rehash Value) (i : Nat) : Bool :=
  (decide (i < n) && liveAt r.flags i) || usedAt r.newFlags i

/-- Arrays that are being rehashed from `n` to `newN` buckets and hold `size` entries. -/
structure Rehash.Models (n newN size : Nat) (r : Rehash Value) (m : Table UInt32 Value) :
    Prop where
  newFlags : r.newFlags.length = acFsize newN
  keys : r.keys.length = max n newN
  vals : r.vals.length = max n newN
  words : ∀ i < n, ∃ f, flagsAt r.flags i = some f
  fresh : ∀ i f, flagsAt r.newFlags i = some f → f.isdel = false ∧ (newN ≤ i → f.isempty = true)
  disjoint : ∀ i < n, liveAt r.flags i = true → usedAt r.newFlags i = false
  holds : SlotsHold (slots (r.kept n) r.keys r.vals) m
  reached : ∀ i k v, usedAt r.newFlags i = true → slots (r.kept n) r.keys r.vals i = some (k, v) →
    Probing.Reached (fun j => usedAt r.newFlags j = true) (path newN k) i
  count : countBuckets n (liveAt r.flags) + countBuckets newN (usedAt r.newFlags) = size

/-- The flags of the buckets that a table of `n` buckets has. -/
theorem flagsAt_of_acFsize {flag : List UInt32} {n k i : Nat} (hn : n = 2 ^ k) (hk : 2 ≤ k)
    (hlength : flag.length = acFsize n) (hi : i < n) : ∃ f, flagsAt flag i = some f := by
  apply flagsAt_eq_some
  rw [hlength, acFsize, Nat.shiftRight_eq_div_pow]
  split
  · omega
  · have hdvd : 16 ∣ n := by
      rw [hn]
      apply Nat.pow_dvd_pow 2 (m := 4)
      by_contra hlt
      have hle : 2 ^ k ≤ 2 ^ 3 := Nat.pow_le_pow_right (by decide) (by omega)
      omega
    omega

/-- The search for an empty bucket ends at the first one of the path. -/
theorem emptyLoop_eq {newFlags : List UInt32} {newN k : Nat} (hn : newN = 2 ^ k) (hk : 2 ≤ k)
    (hk32 : k < 32) (hlength : newFlags.length = acFsize newN) {key : UInt32} {stop : Nat}
    (hat : usedAt newFlags (path newN key stop) = false)
    (hbefore : ∀ s < stop, usedAt newFlags (path newN key s) = true) {fuel step : Nat}
    (hstep : step ≤ stop) (hfuel : stop < step + fuel) :
    emptyLoop newFlags (newN - 1) fuel (path newN key step) step = .ok (path newN key stop) := by
  have hcovers := covers_path hn key
  induction fuel generalizing step with
  | zero => omega
  | succ fuel ih =>
    obtain ⟨f, hf⟩ := flagsAt_of_acFsize hn hk hlength (hcovers.lt step)
    rw [emptyLoop, acIsempty_eq, hf]
    by_cases hlast : step = stop
    · subst hlast
      have hempty : f.isempty = true := by simpa [usedAt, hf] using hat
      simp [hempty]
    · have hempty : f.isempty = false := by
        simpa [usedAt, hf] using hbefore step (by omega)
      have hnext : next (newN - 1) (path newN key step) step = path newN key (step + 1) := by
        rw [next_eq hn (by omega), path, probe_succ]
      simp only [Option.map_some, readOr_some, Except.ok_bind, hempty, hnext]
      exact ih (by omega) (by omega)

/-- The buckets of a table that gets one more. -/
theorem used_of_isempty_false {flag flag' : List UInt32} {x : Nat}
    (h : acSetIsemptyFalse flag x = .ok flag') :
    usedAt flag' = Function.update (usedAt flag) x true := by
  obtain ⟨-, f, -, hset⟩ := acSetIsemptyFalse_ok h
  funext j
  by_cases hj : j = x
  · simp [usedAt, hset, hj]
  · simp [usedAt, hset, hj]

namespace Rehash.Models

variable {n newN size k : Nat} {r : Rehash Value} {m : Table UInt32 Value}

/-- Of the new buckets fewer are filled than there are entries. -/
theorem exists_empty (hr : r.Models n newN size m) (hroom : size < newN) :
    ∃ i < newN, usedAt r.newFlags i = false := by
  by_contra hfull
  simp only [not_exists, not_and, Bool.not_eq_false] at hfull
  have hall : (Finset.range newN).filter (fun i => usedAt r.newFlags i) = Finset.range newN :=
    Finset.filter_true_of_mem fun i hi => hfull i (Finset.mem_range.1 hi)
  have hcount := hr.count
  rw [countBuckets, countBuckets, hall, Finset.card_range] at hcount
  omega

/-- An entry is placed in a new bucket that was empty; if an entry waited there, it is
    taken out. -/
theorem place (hr : r.Models n newN size m) {key : UInt32} {x : Nat} (hx : x < newN)
    (hempty : usedAt r.newFlags x = false)
    (hreached : Probing.Reached (fun j => usedAt r.newFlags j = true) (path newN key) x)
    {newFlags flags : List UInt32} (hnew : acSetIsemptyFalse r.newFlags x = .ok newFlags)
    (hwords : ∀ i < n, ∃ f, flagsAt flags i = some f)
    (hdead : (∀ i < n, i ≠ x → liveAt flags i = liveAt r.flags i) ∧ (x < n → liveAt flags x = false))
    {m' : Table UInt32 Value} {val : Value} {size' : Nat}
    (hholds : SlotsHold (Function.update (slots (r.kept n) r.keys r.vals) x (some (key, val))) m')
    (hcount : countBuckets n (liveAt flags) + countBuckets newN (usedAt r.newFlags) + 1 = size') :
    (⟨flags, newFlags, r.keys.set x key, r.vals.set x val⟩ : Rehash Value).Models n newN size' m' := by
  obtain ⟨hlength, f, hf, hset⟩ := acSetIsemptyFalse_ok hnew
  have hused := used_of_isempty_false hnew
  have hkept : Rehash.kept n ⟨flags, newFlags, r.keys.set x key, r.vals.set x val⟩ =
      Function.update (r.kept n) x true := by
    funext i
    by_cases hi : i = x
    · subst hi
      simp [Rehash.kept, hused]
    · by_cases hin : i < n
      · simp [Rehash.kept, hused, hi, hdead.1 i hin hi]
      · simp [Rehash.kept, hused, hi, hin]
  have hslots : slots (Rehash.kept n ⟨flags, newFlags, r.keys.set x key, r.vals.set x val⟩)
      (r.keys.set x key) (r.vals.set x val) =
      Function.update (slots (r.kept n) r.keys r.vals) x (some (key, val)) := by
    rw [hkept]
    exact slots_write (by rw [hr.keys]; omega) (by rw [hr.vals]; omega) key val
  have hmono : ∀ j, usedAt r.newFlags j = true → usedAt newFlags j = true := by
    intro j hj
    rw [hused]
    by_cases hjx : j = x
    · simp [hjx]
    · simpa [hjx] using hj
  constructor
  · exact hlength.trans hr.newFlags
  · exact List.length_set.trans hr.keys
  · exact List.length_set.trans hr.vals
  · exact hwords
  · intro i g hg
    rw [hset] at hg
    split at hg
    · rename_i hix
      cases hg
      exact ⟨(hr.fresh x f hf).1, fun hge => by omega⟩
    · exact hr.fresh i g hg
  · intro i hi hlive
    have hix : i ≠ x := by
      rintro rfl
      rw [hdead.2 hi] at hlive
      cases hlive
    rw [hdead.1 i hi hix] at hlive
    simpa [hused, hix] using hr.disjoint i hi hlive
  · rw [hslots]
    exact hholds
  · intro i k v hi hslot
    rw [hslots] at hslot
    by_cases hix : i = x
    · subst hix
      rw [Function.update_self] at hslot
      cases hslot
      exact hreached.mono hmono
    · rw [Function.update_of_ne hix] at hslot
      simp only [hused, Function.update_of_ne hix] at hi
      exact (hr.reached i k v hi hslot).mono hmono
  · rw [hused, countBuckets_true hx hempty]
    omega

/-- An entry that waits is taken in hand. -/
theorem take (hr : r.Models n newN size m) {i : Nat} (hi : i < n) (hlive : liveAt r.flags i = true)
    {flags : List UInt32} (hflags : acSetIsdelTrue r.flags i = .ok flags) :
    ∃ key val, r.keys[i]? = some key ∧ r.vals[i]? = some val ∧ m key = some val ∧
      ({ r with flags } : Rehash Value).Models n newN (size - 1) (m.erase key) ∧ 0 < size := by
  have hkept : r.kept n i = true := by simp [Rehash.kept, hi, hlive]
  obtain ⟨key, val, hslot⟩ := slots_of_live hkept (by rw [hr.keys]; omega) (by rw [hr.vals]; omega)
  obtain ⟨-, hkey, hval⟩ := slots_eq_some.1 hslot
  obtain ⟨hused, hdead⟩ := used_live_of_del hflags
  obtain ⟨-, f, -, hset⟩ := acSetIsdelTrue_ok hflags
  have hnew := hr.disjoint i hi hlive
  have hkept' : Rehash.kept n { r with flags } = Function.update (r.kept n) i false := by
    funext j
    by_cases hj : j = i
    · subst hj
      simp [Rehash.kept, hdead, hnew]
    · simp [Rehash.kept, hdead, hj]
  have hslots : slots (Rehash.kept n { r with flags }) r.keys r.vals =
      Function.update (slots (r.kept n) r.keys r.vals) i none := by
    rw [hkept']
    exact slots_clear ..
  have hcount := hr.count
  rw [countBuckets_false hi hlive, ← hdead] at hcount
  refine ⟨key, val, hkey, hval, hr.holds.value i key val hslot, ?_, by omega⟩
  constructor
  · exact hr.newFlags
  · exact hr.keys
  · exact hr.vals
  · intro j hj
    simp only [hset]
    by_cases hji : j = i
    · exact ⟨_, if_pos hji⟩
    · simpa [hji] using hr.words j hj
  · exact hr.fresh
  · intro j hj hlive
    simp only [hdead] at hlive
    by_cases hji : j = i
    · subst hji
      exact hnew
    · rw [Function.update_of_ne hji] at hlive
      exact hr.disjoint j hj hlive
  · rw [hslots]
    exact hr.holds.clear hslot
  · intro j k v hj hslot
    rw [hslots] at hslot
    have hji : j ≠ i := by
      rintro rfl
      rw [Function.update_self] at hslot
      cases hslot
    rw [Function.update_of_ne hji] at hslot
    exact hr.reached j k v hj hslot
  · show countBuckets n (liveAt flags) + countBuckets newN (usedAt r.newFlags) = size - 1
    omega

/-- The kick-out process ends, and the entry in hand has been placed. Every round but
    the last takes one of the waiting entries. -/
theorem kickOut (hr : r.Models n newN size m) (hn : newN = 2 ^ k) (hk : 2 ≤ k) (hk32 : k < 32)
    {key : UInt32} (hkey : m key = none) (hroom : size < newN) {fuel : Nat}
    (hfuel : countBuckets n (liveAt r.flags) < fuel) (val : Value) :
    ∃ r', Khash.kickOut n newN fuel key val r = .ok r' ∧
      r'.Models n newN (size + 1) (m.set key val) ∧
      ∀ i < n, liveAt r'.flags i = true → liveAt r.flags i = true := by
  induction fuel generalizing r m key val with
  | zero => omega
  | succ fuel ih =>
    have hcovers := covers_path hn key
    obtain ⟨stop, hstop, hempty, hbefore⟩ := hcovers.exists_first (hr.exists_empty hroom)
    simp only [Bool.not_eq_false] at hbefore
    have hloop := emptyLoop_eq hn hk hk32 hr.newFlags hempty hbefore (Nat.zero_le stop)
      (by omega : stop < 0 + newN)
    rw [path_zero (by omega), ← home_eq hn] at hloop
    have hi : path newN key stop < newN := hcovers.lt stop
    have hreached : Probing.Reached (fun j => usedAt r.newFlags j = true) (path newN key)
        (path newN key stop) := ⟨stop, rfl, hbefore⟩
    generalize path newN key stop = i at hloop hempty hi hreached
    obtain ⟨f, hf⟩ := flagsAt_of_acFsize hn hk hr.newFlags hi
    obtain ⟨newFlags, hnew⟩ := acClear_of_some hf 2
    have hnew : acSetIsemptyFalse r.newFlags i = .ok newFlags := hnew
    have hikeys : i < r.keys.length := by rw [hr.keys]; omega
    have hivals : i < r.vals.length := by rw [hr.vals]; omega
    by_cases hpresent : i < n ∧ liveAt r.flags i = true
    · obtain ⟨hin, hlive⟩ := hpresent
      obtain ⟨g, hg, hglive⟩ := flagsAt_of_liveAt hlive
      obtain ⟨flags, hflags⟩ := acSetIsdelTrue_of_some hg
      obtain ⟨key', val', hkey', hval', hmkey', htaken, hpos⟩ := hr.take hin hlive hflags
      obtain ⟨-, hdead⟩ := used_live_of_del hflags
      have hne : key' ≠ key := by
        rintro rfl
        rw [hmkey'] at hkey
        cases hkey
      have hnone : slots (Rehash.kept n { r with flags }) r.keys r.vals i = none := by
        apply slots_of_not_live
        simp [Rehash.kept, hdead, hempty]
      have hfilled := htaken.holds.fill hnone
        (by rw [Table.erase_of_ne (Ne.symm hne)]; exact hkey) val
      have hcount := countBuckets_false hin hlive
      rw [← hdead] at hcount
      have hcount' : countBuckets n (liveAt flags) + countBuckets newN (usedAt r.newFlags) + 1 =
          size := by
        have hless : countBuckets n (liveAt flags) + countBuckets newN (usedAt r.newFlags) =
            size - 1 := htaken.count
        omega
      have hplaced := htaken.place hi hempty hreached hnew htaken.words
        ⟨fun _ _ _ => rfl, fun _ => by simp [hdead]⟩ hfilled hcount'
      have hnone' : Function.update (m.erase key') key (some val) key' = none := by
        rw [Function.update_of_ne hne]
        exact Table.erase_self ..
      have hfuel' : countBuckets n (liveAt flags) < fuel := by omega
      obtain ⟨r', hrest, hmodels, hless⟩ := ih hplaced hnone' hfuel' val'
      refine ⟨r', ?_, ?_, ?_⟩
      · simp only [Khash.kickOut, hloop, hnew, presentIn, hin, acIseither_eq, hg, hglive,
          writeAt_of_lt hikeys, writeAt_of_lt hivals, hkey', hval', hflags, Option.map_some,
          readOr_some, Except.ok_bind, Except.ok_map, if_true, Bool.not_true, Bool.not_false]
        exact hrest
      · have hmap : Table.set (Function.update (m.erase key') key (some val)) key' val' =
            m.set key val := by
          show ((m.erase key').set key val).set key' val' = m.set key val
          rw [Table.set_comm (Ne.symm hne)]
          congr 1
          show Function.update (Function.update m key' none) key' (some val') = m
          rw [Function.update_idem, ← hmkey', Function.update_eq_self]
        rwa [hmap] at hmodels
      · intro j hj hlive'
        have hlive' := hless j hj hlive'
        simp only [hdead] at hlive'
        by_cases hji : j = i
        · rw [hji]
          exact hlive
        · rwa [Function.update_of_ne hji] at hlive'
    · have hpresent' : presentIn n r.flags i = .ok false := by
        unfold presentIn
        split
        · rename_i hin
          obtain ⟨g, hg⟩ := hr.words i hin
          have hdead : g.live = false := by
            rw [Bool.eq_false_iff]
            intro hglive
            exact hpresent ⟨hin, by simp [liveAt, hg, hglive]⟩
          simp [acIseither_eq, hg, hdead]
        · rfl
      have hdead : i < n → liveAt r.flags i = false := by
        intro hin
        rw [Bool.eq_false_iff]
        exact fun hlive => hpresent ⟨hin, hlive⟩
      have hnone : slots (r.kept n) r.keys r.vals i = none := by
        apply slots_of_not_live
        by_cases hin : i < n
        · simp [Rehash.kept, hdead hin, hempty]
        · simp [Rehash.kept, hin, hempty]
      refine ⟨⟨r.flags, newFlags, r.keys.set i key, r.vals.set i val⟩, ?_, ?_, fun _ _ h => h⟩
      · simp only [Khash.kickOut, hloop, hnew, hpresent', writeAt_of_lt hikeys,
          writeAt_of_lt hivals, Except.ok_bind]
        rfl
      · exact hr.place hi hempty hreached hnew hr.words ⟨fun _ _ _ => rfl, hdead⟩
          (hr.holds.fill hnone hkey val) (by rw [hr.count])

/-- One round of the rehashing loop keeps the entries, and none waits at its bucket
    afterwards. -/
theorem rehashBucket (hr : r.Models n newN size m) (hn : newN = 2 ^ k) (hk : 2 ≤ k)
    (hk32 : k < 32) (hroom : size ≤ newN) {j : Nat} (hj : j < n) :
    ∃ r', Khash.rehashBucket n newN r j = .ok r' ∧ r'.Models n newN size m ∧
      liveAt r'.flags j = false ∧
      ∀ i < n, liveAt r'.flags i = true → liveAt r.flags i = true := by
  obtain ⟨f, hf⟩ := hr.words j hj
  cases hflive : f.live with
  | false =>
    refine ⟨r, ?_, hr, by simp [liveAt, hf, hflive], fun _ _ h => h⟩
    simp [Khash.rehashBucket, acIseither_eq, hf, hflive]
  | true =>
    have hlive : liveAt r.flags j = true := by simp [liveAt, hf, hflive]
    obtain ⟨flags, hflags⟩ := acSetIsdelTrue_of_some hf
    obtain ⟨key, val, hkey, hval, hmkey, htaken, hpos⟩ := hr.take hj hlive hflags
    obtain ⟨-, hdead⟩ := used_live_of_del hflags
    have hfuel : countBuckets n (liveAt flags) < n + 1 := by
      have hle := Finset.card_filter_le (Finset.range n) fun i => liveAt flags i
      rw [Finset.card_range] at hle
      exact Nat.lt_succ_of_le hle
    obtain ⟨r', hrun, hmodels, hless⟩ := htaken.kickOut hn hk hk32 (Table.erase_self ..)
      (by omega) hfuel val
    have hless' : ∀ i < n, liveAt r'.flags i = true → i ≠ j ∧ liveAt r.flags i = true := by
      intro i hi hlive'
      have hlive' := hless i hi hlive'
      simp only [hdead] at hlive'
      by_cases hij : i = j
      · subst hij
        simp at hlive'
      · rw [Function.update_of_ne hij] at hlive'
        exact ⟨hij, hlive'⟩
    refine ⟨r', ?_, ?_, ?_, fun i hi hlive' => (hless' i hi hlive').2⟩
    · simp [Khash.rehashBucket, acIseither_eq, hf, hflive, hkey, hval, hflags, hrun]
    · have hmap : (m.erase key).set key val = m := by
        show Function.update (Function.update m key none) key (some val) = m
        rw [Function.update_idem, ← hmkey, Function.update_eq_self]
      rwa [hmap, Nat.sub_add_cancel hpos] at hmodels
    · rw [Bool.eq_false_iff]
      exact fun hlive' => (hless' j hj hlive').1 rfl

end Rehash.Models

/-! ## Resizing -/

variable {checked : Bool} [Inhabited Value]

theorem getElem?_grow {α : Type} [Inhabited α] {n newN i : Nat} {l : List α} (hi : i < n)
    (hlength : l.length = n) : (grow n newN l)[i]? = l[i]? := by
  rw [grow]
  split
  · rw [realloc, List.getElem?_append_left (by rw [List.length_take]; omega),
      List.getElem?_take_of_lt (by omega)]
  · rfl

theorem getElem?_shrink {α : Type} [Inhabited α] {n newN i : Nat} {l : List α} (hi : i < newN)
    (hlength : l.length = max n newN) : (shrink n newN l)[i]? = l[i]? := by
  rw [shrink]
  split
  · rw [realloc, List.getElem?_append_left (by rw [List.length_take]; omega),
      List.getElem?_take_of_lt hi]
  · rfl

/-- The arrays that the rehashing loop begins with. -/
theorem Models.rehash {h : Khash checked Value} {m : Table UInt32 Value} (hm : h.Models m)
    {newN : Nat} (hpos : 0 < newN) :
    (⟨h.flags, List.replicate (acFsize newN) 0xaaaaaaaa, grow h.nBuckets newN h.keys,
      grow h.nBuckets newN h.vals⟩ : Rehash Value).Models h.nBuckets newN h.size m := by
  have hnew : ∀ i, usedAt (List.replicate (acFsize newN) 0xaaaaaaaa) i = false := by
    intro i
    unfold usedAt
    by_cases hi : i / 16 < acFsize newN
    · simp [flagsAt_replicate hi]
    · rw [flagsAt_eq_none (by simpa using hi)]
      rfl
  have hlength : 0 < h.nBuckets → h.keys.length = h.nBuckets ∧ h.vals.length = h.nBuckets := by
    intro hpos
    rcases hm.wellFormed with ⟨hzero, -⟩ | hs
    · omega
    · exact ⟨hs.keys, hs.vals⟩
  have hslots : slots (Rehash.kept h.nBuckets ⟨h.flags, List.replicate (acFsize newN) 0xaaaaaaaa,
      grow h.nBuckets newN h.keys, grow h.nBuckets newN h.vals⟩) (grow h.nBuckets newN h.keys)
      (grow h.nBuckets newN h.vals) = h.slot := by
    funext i
    by_cases hi : i < h.nBuckets
    · obtain ⟨hkeys, hvals⟩ := hlength (by omega)
      simp [slot, slots, Rehash.kept, hnew, hi, getElem?_grow hi hkeys, getElem?_grow hi hvals]
    · have hdead : liveAt h.flags i = false := by
        rw [Bool.eq_false_iff]
        exact fun hlive => hi (hm.wellFormed.lt_of_liveAt hlive)
      rw [slot, slots_of_not_live hdead, slots_of_not_live]
      simp [Rehash.kept, hnew, hi]
  constructor
  · exact List.length_replicate
  · exact length_grow fun hle => (hlength (by omega)).1
  · exact length_grow fun hle => (hlength (by omega)).2
  · intro i hi
    rcases hm.wellFormed with ⟨hzero, -⟩ | hs
    · omega
    · exact hs.flags_of_lt hi
  · intro i f hf
    have hi : i / 16 < acFsize newN := by
      simpa using flagsAt_isSome_iff.1 (Option.isSome_of_eq_some hf)
    rw [flagsAt_replicate hi] at hf
    cases hf
    exact ⟨rfl, fun _ => rfl⟩
  · exact fun i _ _ => hnew i
  · rw [hslots]
    exact hm.holds
  · intro i k v hi
    rw [hnew] at hi
    cases hi
  · have hzero : countBuckets newN (usedAt (List.replicate (acFsize newN) 0xaaaaaaaa)) = 0 := by
      simp [countBuckets, hnew]
    simp only [hzero, hm.size, Nat.add_zero]

/-- A table is resized to more buckets than it has entries: it holds the same map, and no
    bucket is in use without a key. -/
theorem Models.resizeTo {h : Khash checked Value} {m : Table UInt32 Value} (hm : h.Models m)
    {newN k : Nat} (hn : newN = 2 ^ k) (hk : 2 ≤ k) (hk32 : k < 32) (hroom : h.size < acUpper newN) :
    ∃ h', h.resizeTo newN = .ok h' ∧ h'.Models m ∧ h'.nBuckets = newN ∧ h'.nOccupied = h.size ∧
      h'.size = h.size := by
  have hfour : 4 ≤ newN := by
    rw [hn]
    exact Nat.pow_le_pow_right Nat.two_pos hk
  have hupper := (acUpper_lt hfour).1
  obtain ⟨r, hloop, hr, hdead⟩ := Except.foldlM_range
    (f := rehashBucket h.nBuckets newN)
    (P := fun j r => r.Models h.nBuckets newN h.size m ∧ ∀ i < j, liveAt r.flags i = false)
    ⟨hm.rehash (by omega), fun i hi => absurd hi (Nat.not_lt_zero i)⟩
    (by
      rintro j hj r ⟨hr, hdead⟩
      obtain ⟨r', hstep, hr', hdone, hless⟩ := hr.rehashBucket hn hk hk32 (by omega) hj
      refine ⟨r', hstep, hr', fun i hi => ?_⟩
      by_cases hij : i = j
      · rw [hij]
        exact hdone
      · rw [Bool.eq_false_iff]
        intro hlive
        have hold := hless i (by omega) hlive
        rw [hdead i (by omega)] at hold
        cases hold)
  have hused : liveAt r.newFlags = usedAt r.newFlags := by
    funext i
    unfold liveAt usedAt
    cases hf : flagsAt r.newFlags i with
    | none => rfl
    | some f => simp [BucketFlags.live, (hr.fresh i f hf).1]
  have hkept : r.kept h.nBuckets = usedAt r.newFlags := by
    funext i
    unfold Rehash.kept
    by_cases hi : i < h.nBuckets
    · simp [hdead i hi]
    · simp [hi]
  have hspare : ∀ i, newN ≤ i → usedAt r.newFlags i = false := by
    intro i hi
    unfold usedAt
    cases hf : flagsAt r.newFlags i with
    | none => rfl
    | some f => simp [(hr.fresh i f hf).2 hi]
  have hslot : slots (usedAt r.newFlags) (shrink h.nBuckets newN r.keys)
      (shrink h.nBuckets newN r.vals) = slots (usedAt r.newFlags) r.keys r.vals := by
    funext i
    by_cases hi : i < newN
    · simp [slots, getElem?_shrink hi hr.keys, getElem?_shrink hi hr.vals]
    · rw [slots_of_not_live (hspare i (by omega)), slots_of_not_live (hspare i (by omega))]
  have hholds := hr.holds
  have hreached := hr.reached
  have hcount := hr.count
  have hzero : countBuckets h.nBuckets (liveAt r.flags) = 0 := by
    unfold countBuckets
    rw [Finset.card_eq_zero, Finset.filter_eq_empty_iff]
    intro i hi
    simp [hdead i (Finset.mem_range.1 hi)]
  rw [hkept, ← hslot] at hholds hreached
  rw [hzero, Nat.zero_add] at hcount
  refine ⟨{
    nBuckets := newN
    size := h.size
    nOccupied := h.size
    upperBound := acUpper newN
    flags := r.newFlags
    keys := shrink h.nBuckets newN r.keys
    vals := shrink h.nBuckets newN r.vals }, ?_, ?_, rfl, rfl, rfl⟩
  · simp only [Khash.resizeTo, Nat.not_le.2 hroom, if_false, hloop, Except.ok_bind]
    rfl
  · constructor
    · right
      exact
        { nBuckets := ⟨k, hk, hk32, hn⟩
          flags := hr.newFlags
          keys := length_shrink hr.keys
          vals := length_shrink hr.vals
          spare := by
            intro i f hi hf
            simp [BucketFlags.live, (hr.fresh i f hf).2 hi] }
    · show SlotsHold (slots (liveAt r.newFlags) _ _) m
      rw [hused]
      exact hholds
    · intro i key v hi
      change slots (liveAt r.newFlags) _ _ i = some (key, v) at hi
      rw [hused] at hi
      exact hreached i key v (slots_eq_some.1 hi).1 hi
    · show h.size = countBuckets newN (liveAt r.newFlags)
      rw [hused, hcount]
    · exact hcount.symm
    · rfl
    · show h.size ≤ acUpper newN
      omega

end Khash
