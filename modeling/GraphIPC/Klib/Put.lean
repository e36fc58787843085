-- SUMMARY: kh_put finds a key's bucket or makes one, and the table stays one that a finite map describes.
import GraphIPC.Klib.Rehash

/-!
# Insertions into a khash table

`kh_put` first makes room, so that an empty bucket is left when it searches. The search
ends at the key if the table has it; otherwise it ends at an empty bucket, and the key
goes there or into the last deleted bucket on the way. Both are buckets that a lookup of
the key comes by, and so every table that can be reached from an empty one holds a map.
-/

/-- The number of buckets after a request for one less, and for one more. -/
theorem Khash.roundBuckets_less {k : Nat} (hk : 2 ≤ k) (hk32 : k < 32) :
    Khash.roundBuckets (2 ^ k - 1) = 2 ^ k := by
  have hfour : 2 ^ 2 ≤ 2 ^ k := Nat.pow_le_pow_right Nat.two_pos hk
  have hless := (kroundup32_pow ⟨k, hk32⟩ hk).1
  simp only at hless
  rw [roundBuckets, hless, if_neg (by omega)]

theorem Khash.roundBuckets_more {k : Nat} (hk : 2 ≤ k) (hk32 : k + 1 < 32) :
    Khash.roundBuckets ((2 ^ k + 1) % 2 ^ 32) = 2 ^ (k + 1) := by
  have hfour : 2 ^ 2 ≤ 2 ^ (k + 1) := Nat.pow_le_pow_right Nat.two_pos (by omega)
  have hlt : 2 ^ (k + 1) < 2 ^ 32 := Nat.pow_lt_pow_right (by decide) hk32
  have hsucc : 2 ^ (k + 1) = 2 * 2 ^ k := by rw [Nat.pow_succ, Nat.mul_comm]
  have hmore := (kroundup32_pow ⟨k, by omega⟩ hk).2
  simp only at hmore
  rw [roundBuckets, Nat.mod_eq_of_lt (by omega), hmore, Nat.mod_eq_of_lt hlt, if_neg (by omega)]

namespace Khash

variable {checked : Bool} {Value : Type} {h : Khash checked Value} {m : Table UInt32 Value}

section Room

variable [Inhabited Value]

/-- Room is made for one more key, as long as there are fewer than 2^30. -/
theorem Models.makeRoom (hm : h.Models m) (hsize : h.size < 2 ^ 30) :
    ∃ h', h.makeRoom = .ok h' ∧ h'.Models m ∧ h'.Shaped ∧ h'.nOccupied < h'.upperBound ∧
      h'.size = h.size := by
  have hshaped : ∀ {h' : Khash checked Value}, h'.Models m → h'.nBuckets ≠ 0 → h'.Shaped := by
    intro h' hm' hne
    rcases hm'.wellFormed with ⟨hzero, -⟩ | hs
    · exact absurd hzero hne
    · exact hs
  -- the table is resized, and its new size is a power of two
  have hresize : ∀ {newN k : Nat}, newN = 2 ^ k → 2 ≤ k → k < 32 → h.size < acUpper newN →
      ∃ h', h.resizeTo newN = .ok h' ∧ h'.Models m ∧ h'.Shaped ∧ h'.nOccupied < h'.upperBound ∧
        h'.size = h.size := by
    intro newN k hn hk hk32 hroom
    obtain ⟨h', hrun, hm', hbuckets, hoccupied, hsize'⟩ := hm.resizeTo hn hk hk32 hroom
    have hpos : 0 < newN := by rw [hn]; exact Nat.two_pow_pos k
    refine ⟨h', hrun, hm', hshaped hm' (by omega), ?_, hsize'⟩
    rw [hm'.upperBound, hbuckets, hoccupied]
    exact hroom
  have hless := hm.size_le
  have hroom := hm.room
  rw [Khash.makeRoom]
  split
  · rename_i hfull
    have hshift : (h.size <<< 1) % 2 ^ 32 = 2 * h.size := by
      rw [Nat.shiftLeft_eq, Nat.mod_eq_of_lt (by omega)]
      omega
    rw [hshift]
    rcases hm.wellFormed with ⟨hzero, -⟩ | hs
    · have hcount : h.size = 0 := by
        rw [hm.size, hzero]
        rfl
      rw [hzero, if_neg (Nat.not_lt_zero _), Khash.resize]
      exact hresize (k := 2) (by decide) (by decide) (by decide) (by rw [hcount]; decide)
    · obtain ⟨k, hk, hk32, hn⟩ := hs.nBuckets
      obtain ⟨hupper, hhalf⟩ := acUpper_lt hs.four_le
      rw [hm.upperBound] at hroom
      split
      · rw [Khash.resize, hn, roundBuckets_less hk hk32]
        refine hresize rfl hk hk32 ?_
        rw [← hn]
        omega
      · have hk31 : k + 1 < 32 := by
          by_contra hge
          have hle : 2 ^ 31 ≤ 2 ^ k := Nat.pow_le_pow_right Nat.two_pos (by omega)
          omega
        have hsucc : 2 ^ (k + 1) = 2 * 2 ^ k := by rw [Nat.pow_succ, Nat.mul_comm]
        have hfour := hs.four_le
        obtain ⟨-, hhalf'⟩ := acUpper_lt (n := 2 ^ (k + 1)) (by omega)
        rw [Khash.resize, hn, roundBuckets_more hk hk31]
        exact hresize rfl (by omega) hk31 (by omega)
  · rename_i hfree
    refine ⟨h, rfl, hm, hshaped hm fun hzero => ?_, by omega, rfl⟩
    have hupper := hm.upperBound
    rw [hzero] at hupper
    have hnone : acUpper 0 = 0 := by decide
    omega

end Room

/-! ## The search for a bucket -/

theorem Shaped.acIsempty_of_lt (hs : h.Shaped) {i : Nat} (hi : i < h.nBuckets) :
    acIsempty h.flags i = .ok (!usedAt h.flags i) := by
  obtain ⟨f, hf⟩ := hs.flags_of_lt hi
  simp [acIsempty_eq, usedAt, hf]

/-- The loop of `kh_put` ends where the search for the key ends. If it remembers a
    bucket, that is one of a deleted key on the way. -/
theorem Shaped.putLoop_eq (hs : h.Shaped) {key : UInt32} {stop : Nat} (hstop : stop < h.nBuckets)
    (hat : h.Stops key (path h.nBuckets key stop))
    (hbefore : ∀ s < stop, ¬h.Stops key (path h.nBuckets key s)) {fuel step : Nat}
    (hstep : step ≤ stop) (hfuel : stop < step + fuel) (site : Nat) :
    ∃ site', h.putLoop key (path h.nBuckets key 0) fuel (path h.nBuckets key step) step site =
        .ok (h.nBuckets, path h.nBuckets key stop, site') ∧
      (site' = site ∨ ∃ s < stop, site' = path h.nBuckets key s ∧ liveAt h.flags site' = false) := by
  have hcovers := hs.covers key
  induction fuel generalizing step site with
  | zero => omega
  | succ fuel ih =>
    rw [putLoop]
    by_cases hlast : step = stop
    · subst hlast
      rw [hs.passes_of_stops (hcovers.lt step) hat]
      exact ⟨site, rfl, .inl rfl⟩
    · have hne := hcovers.ne_first (Nat.succ_pos step) (by omega)
      obtain ⟨f, hf⟩ := hs.flags_of_lt (hcovers.lt step)
      obtain ⟨site', hloop, hsite⟩ := ih (by omega : step + 1 ≤ stop) (by omega)
        (bif f.isdel then path h.nBuckets key step else site)
      refine ⟨site', ?_, ?_⟩
      · rw [hs.passes_of_not_stops (hcovers.lt step) (hbefore step (by omega)), acIsdel_eq, hf]
        simp only [Option.map_some, readOr_some, Except.ok_bind, if_true, hs.next_path, hne,
          if_false]
        exact hloop
      · rcases hsite with rfl | hsite
        · cases hdel : f.isdel with
          | false => exact .inl rfl
          | true =>
            refine .inr ⟨step, by omega, rfl, ?_⟩
            simp [liveAt, hf, BucketFlags.live, hdel]
        · exact .inr hsite

namespace Models

variable (hm : h.Models m) (hs : h.Shaped)
include hm hs

omit hm hs in
/-- The buckets before the end of a search are in use. -/
theorem used_before {key : UInt32} {stop : Nat}
    (hbefore : ∀ s < stop, ¬h.Stops key (path h.nBuckets key s)) {s : Nat} (hs' : s < stop) :
    usedAt h.flags (path h.nBuckets key s) = true := by
  have hgo := hbefore s hs'
  simp only [Stops, not_or, Bool.not_eq_false] at hgo
  exact hgo.1

/-- `kh_put` settles on the bucket of a key that is there. -/
theorem putIndex_of_slot {i : Nat} {key : UInt32} {v : Value} (hi : h.slot i = some (key, v)) :
    h.putIndex key = .ok i := by
  obtain ⟨stop, hstop, hat, hbefore⟩ := hm.exists_stop hs key
  have hend := hm.stop_of_slot hi hat hbefore
  have hused := usedAt_of_liveAt (slots_eq_some.1 hi).1
  have hfour := hs.four_le
  have hhome := (hs.covers key).lt 0
  have hfirst : usedAt h.flags (path h.nBuckets key 0) = true := by
    rcases Nat.eq_zero_or_pos stop with rfl | hpos
    · rw [hend]
      exact hused
    · exact used_before hbefore hpos
  obtain ⟨site, hloop, -⟩ := hs.putLoop_eq hstop hat hbefore (Nat.zero_le stop)
    (by omega : stop < 0 + 2 * h.nBuckets) h.nBuckets
  rw [hend] at hloop
  simp [putIndex, hs.home_eq_path, examine_of_lt hhome, hs.acIsempty_of_lt hhome, hfirst, hloop,
    hs.acIsempty_of_lt (hm.lt_of_slot hi), hused]

/-- `kh_put` settles on a free bucket for a key that is not there, one that a lookup of
    the key comes by. -/
theorem putIndex_of_absent {key : UInt32} (hkey : m key = none) :
    ∃ x < h.nBuckets, h.putIndex key = .ok x ∧ liveAt h.flags x = false ∧
      Probing.Reached (fun j => usedAt h.flags j = true) (path h.nBuckets key) x := by
  obtain ⟨stop, hstop, hat, hbefore⟩ := hm.exists_stop hs key
  have hempty := hm.stop_of_absent hkey hat
  have hcovers := hs.covers key
  have hhome := hcovers.lt 0
  have hfour := hs.four_le
  have hused : ∀ s < stop, usedAt h.flags (path h.nBuckets key s) = true :=
    fun s hs' => used_before hbefore hs'
  have hdead : liveAt h.flags (path h.nBuckets key stop) = false := by
    rw [Bool.eq_false_iff]
    intro hlive
    rw [usedAt_of_liveAt hlive] at hempty
    cases hempty
  rcases Nat.eq_zero_or_pos stop with rfl | hpos
  · refine ⟨_, hhome, ?_, hdead, 0, rfl, fun s hs' => absurd hs' (Nat.not_lt_zero s)⟩
    simp [putIndex, hs.home_eq_path, examine_of_lt hhome, hs.acIsempty_of_lt hhome, hempty]
  obtain ⟨site, hloop, hsite⟩ := hs.putLoop_eq hstop hat hbefore (Nat.zero_le stop)
    (by omega : stop < 0 + 2 * h.nBuckets) h.nBuckets
  rcases hsite with rfl | ⟨s, hs', rfl, hdead'⟩
  · refine ⟨_, hcovers.lt stop, ?_, hdead, stop, rfl, hused⟩
    simp [putIndex, hs.home_eq_path, examine_of_lt hhome, hs.acIsempty_of_lt hhome, hused 0 hpos,
      hloop, hs.acIsempty_of_lt (hcovers.lt stop)]
  · refine ⟨_, hcovers.lt s, ?_, hdead', s, rfl, fun s' hs'' => hused s' (by omega)⟩
    have hne : path h.nBuckets key s ≠ h.nBuckets := (hcovers.lt s).ne
    simp [putIndex, hs.home_eq_path, examine_of_lt hhome, hs.acIsempty_of_lt hhome, hused 0 hpos,
      hloop, hs.acIsempty_of_lt (hcovers.lt stop), hempty, hne]

/-- A new key in a free bucket. -/
theorem occupy {x : Nat} {key : UInt32} (hx : x < h.nBuckets) (hkey : m key = none)
    (hdead : liveAt h.flags x = false)
    (hreached : Probing.Reached (fun j => usedAt h.flags j = true) (path h.nBuckets key) x)
    (hroom : h.nOccupied < h.upperBound) {flags : List UInt32}
    (hflags : acSetIsbothFalse h.flags x = .ok flags) (nOccupied : Nat)
    (hoccupied : nOccupied = h.nOccupied + if usedAt h.flags x then 0 else 1) :
    ∃ v, ({ h with keys := h.keys.set x key, flags, size := h.size + 1, nOccupied } :
        Khash checked Value).slot x = some (key, v) ∧
      ({ h with keys := h.keys.set x key, flags, size := h.size + 1, nOccupied } :
        Khash checked Value).Models (m.set key v) := by
  obtain ⟨hused, hlive⟩ := used_live_of_both hflags
  have hxkeys : x < h.keys.length := hs.keys ▸ hx
  have hxvals : x < h.vals.length := hs.vals ▸ hx
  have hslot : ({ h with keys := h.keys.set x key, flags, size := h.size + 1, nOccupied } :
      Khash checked Value).slot = Function.update h.slot x (some (key, h.vals[x])) := by
    rw [slot, slot, hlive, ← slots_write hxkeys hxvals, List.set_getElem_self]
  have hfree : h.slot x = none := slots_of_not_live hdead ..
  have hmono : ∀ j, usedAt h.flags j = true → usedAt flags j = true := by
    intro j hj
    rw [hused]
    by_cases hjx : j = x
    · simp [hjx]
    · simpa [hjx] using hj
  refine ⟨h.vals[x], by rw [hslot, Function.update_self], ?_⟩
  constructor
  · exact .inr (hs.occupy hx (writeAt_of_lt hxkeys key) hflags)
  · rw [hslot]
    exact hm.holds.fill hfree hkey _
  · intro i k v hi
    rw [hslot] at hi
    by_cases hix : i = x
    · subst hix
      rw [Function.update_self] at hi
      cases hi
      exact hreached.mono hmono
    · rw [Function.update_of_ne hix] at hi
      exact (hm.reached i k v hi).mono hmono
  · show h.size + 1 = countBuckets h.nBuckets (liveAt flags)
    rw [hlive, countBuckets_true hx hdead, hm.size]
  · show nOccupied = countBuckets h.nBuckets (usedAt flags)
    rw [hoccupied, hused, hm.nOccupied]
    cases hux : usedAt h.flags x with
    | true =>
      rw [← hux, Function.update_eq_self]
      simp
    | false =>
      rw [countBuckets_true hx hux]
      simp
  · exact hm.upperBound
  · show nOccupied ≤ h.upperBound
    rw [hoccupied]
    split <;> omega

end Models

/-- `kh_put`: the key has a bucket of its own afterwards. If the key is new, what the
    bucket holds is not determined. -/
theorem Models.put [Inhabited Value] (hm : h.Models m) (hsize : h.size < 2 ^ 30) (key : UInt32) :
    ∃ h' x v, h.put key = .ok (h', x) ∧ h'.slot x = some (key, v) ∧ h'.Models (m.set key v) ∧
      (m key = none ∨ m key = some v) := by
  obtain ⟨h₁, hroom, hm₁, hs, hfree, -⟩ := hm.makeRoom hsize
  cases hkey : m key with
  | some v =>
    obtain ⟨i, hi⟩ := hm₁.holds.place key v hkey
    have hlt := hm₁.lt_of_slot hi
    obtain ⟨hlive, -, -⟩ := slots_eq_some.1 hi
    obtain ⟨f, hf, hflive⟩ := flagsAt_of_liveAt hlive
    have hdel : f.isdel = false := by
      simp only [BucketFlags.live, Bool.and_eq_true] at hflive
      simpa using hflive.2
    refine ⟨h₁, i, v, ?_, hi, ?_, .inr rfl⟩
    · simp [Khash.put, hroom, hm₁.putIndex_of_slot hs hi, examine_of_lt hlt,
        hs.acIsempty_of_lt hlt, usedAt_of_liveAt hlive, acIsdel_eq, hf, hdel]
    · rwa [Table.set_of_eq hkey]
  | none =>
    obtain ⟨x, hx, hindex, hdead, hreached⟩ := hm₁.putIndex_of_absent hs hkey
    obtain ⟨f, hf⟩ := hs.flags_of_lt hx
    obtain ⟨flags, hflags⟩ := acClear_of_some hf 3
    have hflags : acSetIsbothFalse h₁.flags x = .ok flags := hflags
    have hxkeys : x < h₁.keys.length := hs.keys ▸ hx
    cases hused : usedAt h₁.flags x with
    | false =>
      obtain ⟨v, hslot, hmodels⟩ := hm₁.occupy hs hx hkey hdead hreached hfree hflags
        (h₁.nOccupied + 1) (by rw [hused]; rfl)
      refine ⟨_, x, v, ?_, hslot, hmodels, .inl rfl⟩
      simp [Khash.put, hroom, hindex, examine_of_lt hx, hs.acIsempty_of_lt hx, hused,
        writeAt_of_lt hxkeys, hflags]
    | true =>
      have hdel : f.isdel = true := by
        have hempty : f.isempty = false := by simpa [usedAt, hf] using hused
        simpa [liveAt, hf, BucketFlags.live, hempty] using hdead
      obtain ⟨v, hslot, hmodels⟩ := hm₁.occupy hs hx hkey hdead hreached hfree hflags
        h₁.nOccupied (by rw [hused]; rfl)
      refine ⟨_, x, v, ?_, hslot, hmodels, .inl rfl⟩
      simp [Khash.put, hroom, hindex, examine_of_lt hx, hs.acIsempty_of_lt hx, hused, acIsdel_eq,
        hf, hdel, writeAt_of_lt hxkeys, hflags]

end Khash
