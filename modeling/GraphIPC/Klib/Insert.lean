-- SUMMARY: Insertion into a khash table, which may resize it, keeps its shape.
import GraphIPC.Klib.Lookup

/-!
# Insertion into khash

`kh_put` makes room first. Resizing rounds the number of buckets up to a power of
two, marks all new buckets as empty and moves the elements one after the other;
the kick-out process only ever touches buckets the new table has.
-/

/-- `kroundup32` on the sizes that `kh_put` asks for: one less than a power of
    two is rounded to it, and one more to the next, unless that does not fit. -/
theorem kroundup32_pow : ∀ k : Fin 32, 2 ≤ k.val →
    (kroundup32 (UInt32.ofNat (2 ^ k.val - 1))).toNat = 2 ^ k.val ∧
    (kroundup32 (UInt32.ofNat (2 ^ k.val + 1))).toNat = 2 ^ (k.val + 1) % 2 ^ 32 := by
  decide

namespace Khash

variable {checked : Bool} {Value : Type}

/-- The requests of `kh_put`. -/
def Requests (n request : Nat) : Prop := (0 < n ∧ request = n - 1) ∨ request = (n + 1) % 2 ^ 32

/-- The new number of buckets is a power of two. -/
theorem WellFormed.roundBuckets_pow {h : Khash checked Value} (hw : h.WellFormed) {request : Nat}
    (hr : Requests h.nBuckets request) :
    ∃ k, 2 ≤ k ∧ k < 32 ∧ roundBuckets request = 2 ^ k := by
  rcases hw with ⟨hn, -⟩ | hs
  · rcases hr with ⟨hpos, -⟩ | rfl
    · omega
    · rw [hn]
      exact ⟨2, by decide, by decide, by decide⟩
  · obtain ⟨k, hk, hk32, hn⟩ := hs.nBuckets
    obtain ⟨hless, hmore⟩ := kroundup32_pow ⟨k, hk32⟩ hk
    simp only at hless hmore
    have hfour : 4 ≤ 2 ^ k := by rw [← hn]; exact hs.four_le
    rw [hn] at hr
    rcases hr with ⟨-, rfl⟩ | rfl
    · refine ⟨k, hk, hk32, ?_⟩
      rw [roundBuckets, hless, if_neg (by omega)]
    · by_cases hfits : k + 1 < 32
      · have hlt : 2 ^ (k + 1) < 2 ^ 32 := Nat.pow_lt_pow_right (by decide) hfits
        have hsucc : 2 ^ (k + 1) = 2 ^ k * 2 := Nat.pow_succ ..
        refine ⟨k + 1, by omega, hfits, ?_⟩
        rw [roundBuckets, Nat.mod_eq_of_lt (by omega), hmore, Nat.mod_eq_of_lt hlt,
          if_neg (by omega)]
      · obtain rfl : k = 31 := by omega
        exact ⟨2, by decide, by decide, by decide⟩

/-! ## Rehashing -/

/-- The arrays of a table that is being rehashed to `n` buckets. -/
structure Rehash.Shaped (n length : Nat) (r : Rehash Value) : Prop where
  newFlags : r.newFlags.length = acFsize n
  keys : r.keys.length = length
  vals : r.vals.length = length
  spare : ∀ i f, n ≤ i → flagsAt r.newFlags i = some f → f.live = false

/-- The search for an empty bucket stays among the buckets. -/
theorem emptyLoop_lt {newFlags : List UInt32} {n k : Nat} (hn : n = 2 ^ k) (hk : k < 32)
    {fuel i step x : Nat} (hi : i < n) (h : emptyLoop newFlags (n - 1) fuel i step = .ok x) :
    x < n := by
  induction fuel generalizing i step with
  | zero => cases h
  | succ fuel ih =>
    rw [emptyLoop, Except.bind_eq_ok_iff] at h
    obtain ⟨isempty, -, h⟩ := h
    split at h
    · cases h
      exact hi
    · refine ih ?_ h
      rw [next_eq hn (by omega)]
      exact Nat.mod_lt _ (by omega)

/-- Placing elements until none is in the way keeps the shape. -/
theorem kickOut_shaped {nBuckets n k length : Nat} (hn : n = 2 ^ k) (hk : k < 32) {fuel : Nat}
    {key : UInt32} {val : Value} {r r' : Rehash Value} (hr : r.Shaped n length)
    (h : kickOut nBuckets n fuel key val r = .ok r') : r'.Shaped n length := by
  induction fuel generalizing key val r with
  | zero => cases h
  | succ fuel ih =>
    have hpos : 0 < n := by rw [hn]; exact Nat.two_pow_pos k
    rw [kickOut, Except.bind_eq_ok_iff] at h
    obtain ⟨i, hempty, h⟩ := h
    have hi : i < n := by
      refine emptyLoop_lt hn hk ?_ hempty
      rw [home_eq hn]
      exact Nat.mod_lt _ hpos
    simp only [Except.bind_eq_ok_iff] at h
    obtain ⟨newFlags, hflags, present, -, keys, hkeys, vals, hvals, h⟩ := h
    obtain ⟨hlength, f, -, hset⟩ := acSetIsemptyFalse_ok hflags
    have hshaped : ∀ flags, Rehash.Shaped n length ⟨flags, newFlags, keys, vals⟩ := fun _ =>
      { newFlags := hlength.trans hr.newFlags
        keys := (length_of_writeAt hkeys).trans hr.keys
        vals := (length_of_writeAt hvals).trans hr.vals
        spare := by
          intro j g hj hg
          rw [hset, if_neg (by omega)] at hg
          exact hr.spare j g hj hg }
    split at h
    · simp only [Except.bind_eq_ok_iff] at h
      obtain ⟨key', -, val', -, flags, -, h⟩ := h
      exact ih (hshaped flags) h
    · cases h
      exact hshaped r.flags

theorem rehashBucket_shaped {nBuckets n k length : Nat} (hn : n = 2 ^ k) (hk : k < 32)
    {r r' : Rehash Value} {j : Nat} (hr : r.Shaped n length)
    (h : rehashBucket nBuckets n r j = .ok r') : r'.Shaped n length := by
  simp only [rehashBucket, Except.bind_eq_ok_iff] at h
  obtain ⟨either, -, h⟩ := h
  split at h
  · cases h
    exact hr
  · simp only [Except.bind_eq_ok_iff] at h
    obtain ⟨key, -, val, -, flags, -, h⟩ := h
    have hr' : Rehash.Shaped n length { r with flags } :=
      ⟨hr.newFlags, hr.keys, hr.vals, hr.spare⟩
    exact kickOut_shaped hn hk hr' h

theorem length_realloc {α : Type} [Inhabited α] (n : Nat) (l : List α) :
    (realloc n l).length = n := by
  rw [realloc, List.length_append, List.length_take, List.length_replicate]
  omega

variable [Inhabited Value]

theorem length_grow {α : Type} [Inhabited α] {nBuckets n : Nat} {l : List α}
    (h : n ≤ nBuckets → l.length = nBuckets) : (grow nBuckets n l).length = max nBuckets n := by
  rw [grow]
  split
  · rw [length_realloc]
    omega
  · rw [h (by omega)]
    omega

theorem length_shrink {α : Type} [Inhabited α] {nBuckets n : Nat} {l : List α}
    (h : l.length = max nBuckets n) : (shrink nBuckets n l).length = n := by
  rw [shrink]
  split
  · exact length_realloc n l
  · omega

/-- `kh_resize` leaves a table alone or gives it the number of buckets it was
    asked for. -/
theorem WellFormed.resize {h h' : Khash checked Value} (hw : h.WellFormed) {request : Nat}
    (hr : Requests h.nBuckets request) (hresize : h.resize request = .ok h') : h'.WellFormed := by
  obtain ⟨k, hk, hk32, hn⟩ := hw.roundBuckets_pow hr
  rw [Khash.resize, resizeTo] at hresize
  generalize roundBuckets request = n at hn hresize
  split at hresize
  · cases hresize
    exact hw
  obtain ⟨r, hloop, hresize⟩ := Except.bind_eq_ok_iff.1 hresize
  cases hresize
  have hpos : 0 < n := by rw [hn]; exact Nat.two_pow_pos k
  have hold : n ≤ h.nBuckets → h.keys.length = h.nBuckets ∧ h.vals.length = h.nBuckets := by
    intro hle
    rcases hw with ⟨hzero, -⟩ | hs
    · omega
    · exact ⟨hs.keys, hs.vals⟩
  have hr : r.Shaped n (max h.nBuckets n) := by
    refine Except.foldlM_preserves (fun r j r' hr hstep => rehashBucket_shaped hn hk32 hr hstep) ?_
      hloop
    exact
      { newFlags := List.length_replicate
        keys := length_grow fun hle => (hold hle).1
        vals := length_grow fun hle => (hold hle).2
        spare := by
          intro i f _ hf
          have hi : i / 16 < acFsize n := by
            have hsome := flagsAt_isSome_iff.1 (Option.isSome_of_eq_some hf)
            rwa [List.length_replicate] at hsome
          rw [flagsAt_replicate hi] at hf
          cases hf
          rfl }
  right
  exact
    { nBuckets := ⟨k, hk, hk32, hn⟩
      flags := hr.newFlags
      keys := length_shrink hr.keys
      vals := length_shrink hr.vals
      spare := hr.spare }

/-! ## Insertion -/

theorem WellFormed.makeRoom {h h' : Khash checked Value} (hw : h.WellFormed)
    (hroom : h.makeRoom = .ok h') : h'.WellFormed := by
  rw [Khash.makeRoom] at hroom
  split at hroom
  · split at hroom
    · exact hw.resize (.inl ⟨by omega, rfl⟩) hroom
    · exact hw.resize (.inr rfl) hroom
  · cases hroom
    exact hw

omit [Inhabited Value] in
/-- The loop of `kh_put` stays among the buckets, and so does the deleted bucket
    it remembers. -/
theorem Shaped.putLoop_lt {h : Khash checked Value} (hs : h.Shaped) {key : UInt32}
    {last fuel i step site : Nat} {x i' site' : Nat} (hi : i < h.nBuckets)
    (hsite : site ≤ h.nBuckets)
    (hloop : h.putLoop key last fuel i step site = .ok (x, i', site')) :
    i' < h.nBuckets ∧ site' ≤ h.nBuckets ∧ (x = h.nBuckets ∨ x = site') := by
  induction fuel generalizing i step site with
  | zero => cases hloop
  | succ fuel ih =>
    rw [putLoop, Except.bind_eq_ok_iff] at hloop
    obtain ⟨passes, -, hloop⟩ := hloop
    split at hloop
    · rw [Except.bind_eq_ok_iff] at hloop
      obtain ⟨isdel, -, hloop⟩ := hloop
      have hsite' : (bif isdel then i else site) ≤ h.nBuckets := by
        cases isdel
        · exact hsite
        · exact Nat.le_of_lt hi
      have hnext := hs.next_lt i step
      simp only at hloop
      split at hloop
      · cases hloop
        exact ⟨hnext, hsite', .inr rfl⟩
      · exact ih hnext hsite' hloop
    · cases hloop
      exact ⟨hi, hsite, .inl rfl⟩

omit [Inhabited Value] in
theorem Shaped.putIndex_lt {h : Khash checked Value} (hs : h.Shaped) {key : UInt32} {x : Nat}
    (hindex : h.putIndex key = .ok x) : x < h.nBuckets := by
  have hhome := hs.home_lt key
  simp only [putIndex, Except.bind_eq_ok_iff] at hindex
  obtain ⟨-, -, isempty, -, hindex⟩ := hindex
  split at hindex
  · cases hindex
    exact hhome
  simp only [Except.bind_eq_ok_iff] at hindex
  obtain ⟨⟨y, i, site⟩, hloop, hindex⟩ := hindex
  obtain ⟨hi, hsite, hy⟩ := hs.putLoop_lt hhome (Nat.le_refl _) hloop
  simp only at hindex
  split at hindex
  · simp only [Except.bind_eq_ok_iff] at hindex
    obtain ⟨isempty', -, hindex⟩ := hindex
    split at hindex
    · rename_i hchosen
      cases hindex
      omega
    · cases hindex
      exact hi
  · cases hindex
    omega

omit [Inhabited Value] in
/-- No flags, no insertion. -/
theorem putIndex_of_nil {h : Khash checked Value} (hflags : h.flags = []) (key : UInt32) (x : Nat) :
    h.putIndex key ≠ .ok x := by
  rw [putIndex, hflags, examine]
  split <;> simp [acIsempty, acTest]

omit [Inhabited Value] in
/-- A key written to a bucket, and the bucket marked as in use. -/
theorem Shaped.occupy {h : Khash checked Value} (hs : h.Shaped) {x size nOccupied : Nat}
    {key : UInt32} {keys flags : List UInt32} (hx : x < h.nBuckets)
    (hkeys : writeAt h.keys x key = .ok keys) (hflags : acSetIsbothFalse h.flags x = .ok flags) :
    ({ h with keys, flags, size, nOccupied } : Khash checked Value).Shaped := by
  obtain ⟨hlength, f, -, hset⟩ := acSetIsbothFalse_ok hflags
  exact
    { nBuckets := hs.nBuckets
      flags := hlength.trans hs.flags
      keys := (length_of_writeAt hkeys).trans hs.keys
      vals := hs.vals
      spare := by
        intro i g hi hg
        simp only at hi hg
        rw [hset, if_neg (by omega)] at hg
        exact hs.spare i g hi hg }

/-- `kh_put` -/
theorem WellFormed.put {h h' : Khash checked Value} (hw : h.WellFormed) {key : UInt32} {x : Nat}
    (hput : h.put key = .ok (h', x)) : h'.WellFormed := by
  simp only [Khash.put, Except.bind_eq_ok_iff] at hput
  obtain ⟨h₁, hroom, y, hindex, -, -, isempty, -, hput⟩ := hput
  rcases hw.makeRoom hroom with ⟨-, hflags⟩ | hs
  · exact absurd hindex (putIndex_of_nil hflags key y)
  right
  have hy := hs.putIndex_lt hindex
  split at hput
  · simp only [Except.bind_eq_ok_iff] at hput
    obtain ⟨keys, hkeys, flags, hflags, hput⟩ := hput
    cases hput
    exact hs.occupy hy hkeys hflags
  · simp only [Except.bind_eq_ok_iff] at hput
    obtain ⟨isdel, -, hput⟩ := hput
    split at hput
    · simp only [Except.bind_eq_ok_iff] at hput
      obtain ⟨keys, hkeys, flags, hflags, hput⟩ := hput
      cases hput
      exact hs.occupy hy hkeys hflags
    · cases hput
      exact hs

/-- Assigning to the value of a bucket. -/
theorem WellFormed.setValue {h h' : Khash checked Value} (hw : h.WellFormed) {i : Nat} {v : Value}
    (hset : khSetValue h i v = .ok h') : h'.WellFormed := by
  simp only [khSetValue, Except.bind_eq_ok_iff] at hset
  obtain ⟨-, -, vals, hvals, hset⟩ := hset
  cases hset
  rcases hw with hzero | hs
  · exact .inl hzero
  · exact .inr ⟨hs.nBuckets, hs.flags, hs.keys, (length_of_writeAt hvals).trans hs.vals, hs.spare⟩

end Khash
