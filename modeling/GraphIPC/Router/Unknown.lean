-- SUMMARY: Data frames from and to unknown addresses, over the address table of khash.h as it is written.
import GraphIPC.Base.Machine
import GraphIPC.Klib.Insert
import GraphIPC.Router.Forward

/-!
# Unknown addresses

The handler of data frames tests the result of a lookup with `kh_exist` before it
compares it with `kh_end`. For an address that is not in the table the result is
the index behind the last bucket, so the test reads flags that are not those of a
bucket. Where they lie depends on the number of buckets.
-/

section Generic

variable {T Iter : Type} [DecidableEq Iter] [KhTable T Iter UInt32 Context]

/-! ## What the handler does to a table -/

section Preserves

variable {P : T → Prop} (hput : ∀ {t t' : T} {k i}, P t → khPut t k = .ok (t', i) → P t')
  (hset : ∀ {t t' : T} {i v}, P t → khSetValue t i v = .ok t' → P t')

include hput hset in
theorem findOrSetup_preserves {address : UInt32} {t t' : T} {hint : Iter} (ht : P t)
    (h : findOrSetup address t = .ok (t', hint)) : P t' := by
  simp only [findOrSetup, Except.bind_eq_ok_iff] at h
  obtain ⟨found, -, missing, -, h⟩ := h
  split at h
  · simp only [Except.bind_eq_ok_iff] at h
    obtain ⟨⟨t₁, i⟩, hadd, t₂, hsetup, h⟩ := h
    cases h
    exact hset (hput ht hadd) hsetup
  · cases h
    exact ht

include hset in
theorem forwardTo_preserves {buffer : List UInt8} {target : UInt32} {t t' : T}
    {writes : List Write} (ht : P t) (h : forwardTo buffer target t = .ok (t', writes)) : P t' := by
  simp only [forwardTo, Except.bind_eq_ok_iff] at h
  obtain ⟨fwd, -, present, -, h⟩ := h
  split at h
  · cases h
    exact ht
  split at h
  · cases h
    exact ht
  simp only [Except.bind_eq_ok_iff] at h
  obtain ⟨entry, -, t₁, hcount, h⟩ := h
  cases h
  exact hset ht hcount

include hset in
theorem forwardAll_preserves {buffer : List UInt8} {targets : List UInt32} {t t' : T}
    {writes : List Write} (ht : P t) (h : forwardAll buffer targets t = .ok (t', writes)) :
    P t' := by
  induction targets generalizing t writes with
  | nil =>
    cases h
    exact ht
  | cons target targets ih =>
    simp only [forwardAll, Except.bind_eq_ok_iff] at h
    obtain ⟨⟨t₁, copy⟩, hto, ⟨t₂, copies⟩, hall, h⟩ := h
    cases h
    exact ih (forwardTo_preserves hset ht hto) hall

include hset in
theorem forwardData_preserves [LawfulKhTable T] {buffer : List UInt8} {source : UInt32}
    {rand : Nat → RandResult} {t t' : T} {writes : List Write} (ht : P t)
    (h : forwardData buffer source rand t = .ok (t', writes)) : P t' := by
  simp only [forwardData_eq, Except.bind_eq_ok_iff] at h
  obtain ⟨hint, -, present, -, h⟩ := h
  split at h
  · cases h
    exact ht
  simp only [Except.bind_eq_ok_iff] at h
  obtain ⟨entry, -, t₁, hcount, targets, -, h⟩ := h
  exact forwardAll_preserves hset (hset ht hcount) h

include hput hset in
/-- The handler changes a table by insertions and assignments only. -/
theorem handlePacket_preserves [LawfulKhTable T] {order : ByteOrder} {fd : Int}
    {buffer : List UInt8} {rand : Nat → RandResult} {t t' : T} {writes : List Write} (ht : P t)
    (h : handlePacket order fd buffer rand t = .ok (t', writes)) : P t' := by
  rw [handlePacket_eq, Except.bind_eq_ok_iff] at h
  obtain ⟨r, -, h⟩ := h
  cases r with
  | newAddress address =>
    simp only [Request.perform, cmdNewAddress, Except.bind_eq_ok_iff] at h
    obtain ⟨⟨t₁, hint⟩, hfind, context, -, t₂, hbind, reply, -, h⟩ := h
    cases h
    exact hset (findOrSetup_preserves hput hset ht hfind) hbind
  | connect source target =>
    simp only [Request.perform, cmdConnect, Except.bind_eq_ok_iff] at h
    obtain ⟨⟨t₁, hint⟩, hfind, -, -, context, -, t₂, hpush, h⟩ := h
    cases h
    exact hset (findOrSetup_preserves hput hset ht hfind) hpush
  | setPolicy policy target =>
    simp only [Request.perform, cmdPolicy, Except.bind_eq_ok_iff] at h
    obtain ⟨hint, -, h⟩ := h
    split at h
    · cases h
      exact ht
    simp only [Except.bind_eq_ok_iff] at h
    obtain ⟨context, -, t₁, hpolicy, name, -, h⟩ := h
    cases h
    exact hset ht hpolicy
  | data source => exact forwardData_preserves hset ht h
  | unhandled =>
    cases h
    exact ht

end Preserves

/-! ## Lookups that end behind the last bucket -/

/-- A target that is not found is skipped, if it can be tested at all. -/
theorem forwardTo_of_end {buffer : List UInt8} {target : UInt32} {t : T}
    (hget : khGet t target = .ok (khEnd t)) :
    forwardTo buffer target t = (khExist t (khEnd t) >>= fun _ => .ok (t, [])) := by
  rw [forwardTo, hget, Except.ok_bind]
  cases khExist t (khEnd t) with
  | error e => rfl
  | ok present => cases present <;> simp

/-- A source that is not found is dropped, if it can be tested at all and the
    test is negative. -/
theorem forwardData_of_end {buffer : List UInt8} {source : UInt32} {rand : Nat → RandResult} {t : T}
    (hget : khGet t source = .ok (khEnd t)) {result : Except Fault Bool}
    (hexist : khExist t (khEnd t) = result) (hresult : result ≠ .ok true) :
    forwardData buffer source rand t = (result >>= fun _ => .ok (t, [])) := by
  rw [forwardData, hget, Except.ok_bind, hexist]
  cases result with
  | error e => rfl
  | ok present =>
    cases present with
    | true => exact absurd rfl hresult
    | false => rfl

/-- What the handler of `GNW_DATA` is meant to do: an unknown source is dropped
    and the unknown targets are skipped. -/
def forwardKnown (buffer : List UInt8) (source : UInt32) (rand : Nat → RandResult) (t : T) :
    Except Fault (T × List Write) := do
  let hint ← khGet t source
  if hint = khEnd t then
    return (t, [])
  let entry ← khValue t hint
  let t ← khSetValue t hint (entry.countIn buffer.length)
  let targets ← (entry.countIn buffer.length).targets rand
  forwardAll buffer (targets.filter fun target => khGet t target ≠ .ok (khEnd t)) t

/-- The address is not among those the table answers for. -/
def Unknown (t : T) (address : UInt32) : Prop := khGet t address = .ok (khEnd t)

/-- Every lookup ends, and an iterator other than the end can be used. -/
def Answers (t : T) : Prop :=
  ∀ address, Unknown t address ∨ ∃ i entry, khGet t address = .ok i ∧ i ≠ khEnd t ∧
    khExist t i = .ok true ∧ khValue t i = .ok entry

/-- The handling of a frame looks up an address: its source, or a target that the
    policy of its source selects. -/
inductive LooksUp (t : T) (rand : Nat → RandResult) (source : UInt32) (length : Nat) : UInt32 → Prop where
  | source : LooksUp t rand source length source
  | target {hint : Iter} {entry : Context} {targets : List UInt32} {target : UInt32} :
      khGet t source = .ok hint → hint ≠ khEnd t → khValue t hint = .ok entry →
      (entry.countIn length).targets rand = .ok targets → target ∈ targets →
      LooksUp t rand source length target

section Lawful

variable [LawfulKhTable T]

omit [DecidableEq Iter] in
theorem unknown_khSetValue {t t' : T} {i : Iter} {v : Context} (h : khSetValue t i v = .ok t')
    (address : UInt32) : Unknown t' address ↔ Unknown t address := by
  rw [Unknown, Unknown, LawfulKhTable.khGet_khSetValue address h, LawfulKhTable.khEnd_khSetValue h]

omit [DecidableEq Iter] in
theorem khExist_end_khSetValue {t t' : T} {i : Iter} {v : Context}
    (h : khSetValue t i v = .ok t') : khExist t' (khEnd t') = khExist t (khEnd t) := by
  rw [LawfulKhTable.khEnd_khSetValue h, LawfulKhTable.khExist_khSetValue _ h]

/-- A table goes on answering when a value is assigned. -/
theorem answers_khSetValue {t t' : T} {i : Iter} {v : Context} (ht : Answers t)
    (h : khSetValue t i v = .ok t') : Answers t' := by
  intro address
  rw [unknown_khSetValue h, LawfulKhTable.khGet_khSetValue address h,
    LawfulKhTable.khEnd_khSetValue h]
  rcases ht address with hunknown | ⟨j, entry, hget, hend, hexist, hvalue⟩
  · exact .inl hunknown
  right
  rw [← LawfulKhTable.khExist_khSetValue j h] at hexist
  by_cases hij : j = i
  · subst hij
    exact ⟨j, v, hget, hend, hexist, LawfulKhTable.khValue_khSetValue_self h⟩
  · rw [← LawfulKhTable.khValue_khSetValue_ne h hij] at hvalue
    exact ⟨j, entry, hget, hend, hexist, hvalue⟩

/-- A known target gets its copy, and its counters are assigned to. -/
theorem forwardTo_of_known {t : T} (ht : Answers t) (buffer : List UInt8) {target : UInt32}
    (hknown : ¬Unknown t target) :
    ∃ t' w i v, forwardTo buffer target t = .ok (t', w) ∧ khSetValue t i v = .ok t' := by
  rcases ht target with hunknown | ⟨i, entry, hget, hend, hexist, hvalue⟩
  · exact absurd hunknown hknown
  obtain ⟨t', hset⟩ := LawfulKhTable.khSetValue_of_khValue
    { entry with
      bytesOut := entry.bytesOut + UInt64.ofNat buffer.length
      packetsOut := entry.packetsOut + 1 } hvalue
  refine ⟨t', [{ fd := entry.boundFd, bytes := buffer, target := some target }], i, _, ?_, hset⟩
  simp [forwardTo, hget, hexist, hend, hvalue, hset]

/-- Forwarding stops at the first unknown target if the end cannot be tested. -/
theorem forwardAll_of_error {t : T} (ht : Answers t) {e : Fault}
    (hexist : khExist t (khEnd t) = .error e) (buffer : List UInt8) {targets : List UInt32}
    (hunknown : ∃ target ∈ targets, Unknown t target) :
    forwardAll buffer targets t = .error e := by
  induction targets generalizing t with
  | nil =>
    obtain ⟨target, hmem, -⟩ := hunknown
    cases hmem
  | cons target targets ih =>
    rw [forwardAll]
    by_cases htarget : Unknown t target
    · rw [forwardTo_of_end htarget, hexist]
      rfl
    · obtain ⟨t', w, i, v, hto, hset⟩ := forwardTo_of_known ht buffer htarget
      have hrest : ∃ target ∈ targets, Unknown t' target := by
        obtain ⟨target', hmem, hunknown⟩ := hunknown
        rcases List.mem_cons.1 hmem with rfl | hmem
        · exact absurd hunknown htarget
        · exact ⟨target', hmem, (unknown_khSetValue hset _).2 hunknown⟩
      rw [← khExist_end_khSetValue hset] at hexist
      have hall := ih (answers_khSetValue ht hset) hexist hrest
      simp only [hto, hall, Except.ok_bind, Except.error_bind]

/-- Forwarding skips the unknown targets if the end can be tested. -/
theorem forwardAll_filter {t : T} (ht : Answers t) {present : Bool}
    (hexist : khExist t (khEnd t) = .ok present) (buffer : List UInt8) (targets : List UInt32) :
    forwardAll buffer targets t =
      forwardAll buffer (targets.filter fun target => khGet t target ≠ .ok (khEnd t)) t := by
  induction targets generalizing t with
  | nil => rfl
  | cons target targets ih =>
    by_cases htarget : Unknown t target
    · rw [List.filter_cons_of_neg (by simpa [Unknown] using htarget), ← ih ht hexist]
      simp only [forwardAll, forwardTo_of_end htarget, hexist, Except.ok_bind]
      cases forwardAll buffer targets t <;> rfl
    · obtain ⟨t', w, i, v, hto, hset⟩ := forwardTo_of_known ht buffer htarget
      rw [← khExist_end_khSetValue hset] at hexist
      have hall := ih (answers_khSetValue ht hset) hexist
      simp only [LawfulKhTable.khGet_khSetValue _ hset, LawfulKhTable.khEnd_khSetValue hset] at hall
      rw [List.filter_cons_of_pos (by simpa [Unknown] using htarget)]
      simp only [forwardAll, hto, hall, Except.ok_bind]

/-- Known targets all get their copy. -/
theorem forwardAll_of_known {t : T} (ht : Answers t) (buffer : List UInt8) {targets : List UInt32}
    (hknown : ∀ target ∈ targets, ¬Unknown t target) :
    ∃ result, forwardAll buffer targets t = .ok result := by
  induction targets generalizing t with
  | nil => exact ⟨_, rfl⟩
  | cons target targets ih =>
    obtain ⟨t', w, i, v, hto, hset⟩ :=
      forwardTo_of_known ht buffer (hknown target List.mem_cons_self)
    have hrest : ∀ target ∈ targets, ¬Unknown t' target := by
      intro target' hmem
      rw [unknown_khSetValue hset]
      exact hknown target' (List.mem_cons_of_mem _ hmem)
    obtain ⟨result, hall⟩ := ih (answers_khSetValue ht hset) hrest
    exact ⟨_, by simp only [forwardAll, hto, hall, Except.ok_bind]; rfl⟩

/-- A frame whose handling looks up an unknown address does not get through if
    the end cannot be tested. -/
theorem forwardData_of_error {t : T} (ht : Answers t) {e : Fault}
    (hexist : khExist t (khEnd t) = .error e) {buffer : List UInt8} {source : UInt32}
    {rand : Nat → RandResult} {address : UInt32} (h : LooksUp t rand source buffer.length address)
    (hunknown : Unknown t address) : forwardData buffer source rand t = .error e := by
  cases h with
  | source =>
    rw [forwardData_of_end hunknown hexist (by simp)]
    rfl
  | @target hint entry targets _ hget hend hvalue htargets hmem =>
    have hpresent : khExist t hint = .ok true := by
      rcases ht source with hsource | ⟨i, _, hget', -, hexist', -⟩
      · rw [Unknown, hget] at hsource
        cases hsource
        exact absurd rfl hend
      · rw [hget] at hget'
        cases hget'
        exact hexist'
    obtain ⟨t', hset⟩ := LawfulKhTable.khSetValue_of_khValue (entry.countIn buffer.length) hvalue
    rw [← khExist_end_khSetValue hset] at hexist
    have hrest := forwardAll_of_error (answers_khSetValue ht hset) hexist buffer
      ⟨address, hmem, (unknown_khSetValue hset address).2 hunknown⟩
    simp [forwardData_eq, hget, hpresent, hvalue, hset, htargets, hrest]

/-- A frame whose handling looks up an unknown address is handled as it is meant
    to be if the end can be tested and is not in use. -/
theorem forwardData_of_false {t : T} (ht : Answers t) (hexist : khExist t (khEnd t) = .ok false)
    {buffer : List UInt8} {source : UInt32} {rand : Nat → RandResult} :
    forwardData buffer source rand t = forwardKnown buffer source rand t := by
  rcases ht source with hunknown | ⟨i, entry, hget, hend, hpresent, hvalue⟩
  · rw [forwardData_of_end hunknown hexist (by simp), forwardKnown, hunknown]
    simp
  · obtain ⟨t', hset⟩ := LawfulKhTable.khSetValue_of_khValue (entry.countIn buffer.length) hvalue
    rw [← khExist_end_khSetValue hset] at hexist
    have hall := forwardAll_filter (answers_khSetValue ht hset) hexist buffer
    simp only [forwardData_eq, forwardKnown, hget, hpresent, hvalue, hset, hend, ← hall,
      Except.ok_bind]
    rfl

/-- What the handler is meant to do about an unknown address, it can do. -/
theorem forwardKnown_ok {t : T} (ht : Answers t) {buffer : List UInt8} {source : UInt32}
    {rand : Nat → RandResult} {address : UInt32} (h : LooksUp t rand source buffer.length address)
    (hunknown : Unknown t address) :
    ∃ result, forwardKnown buffer source rand t = .ok result := by
  cases h with
  | source =>
    rw [Unknown] at hunknown
    exact ⟨(t, []), by simp [forwardKnown, hunknown]⟩
  | @target hint entry targets _ hget hend hvalue htargets hmem =>
    obtain ⟨t', hset⟩ := LawfulKhTable.khSetValue_of_khValue (entry.countIn buffer.length) hvalue
    have hknown : ∀ target ∈ targets.filter fun target => khGet t' target ≠ .ok (khEnd t'),
        ¬Unknown t' target := by
      intro target hmem
      simpa [Unknown] using (List.mem_filter.1 hmem).2
    obtain ⟨result, hall⟩ := forwardAll_of_known (answers_khSetValue ht hset) buffer hknown
    refine ⟨result, ?_⟩
    simp only [forwardKnown, hget, hend, hvalue, hset, htargets, hall, Except.ok_bind, if_false]

end Lawful

end Generic

/-! ## The table of khash.h -/

namespace Khash

/-- The same table, whose buckets are checked. -/
def check {Value : Type} (h : Khash false Value) : Khash true Value where
  nBuckets := h.nBuckets
  size := h.size
  nOccupied := h.nOccupied
  upperBound := h.upperBound
  flags := h.flags
  keys := h.keys
  vals := h.vals

variable {checked : Bool}

/-- A lookup with `khGet` reports no bucket but one that holds the key. -/
theorem WellFormed.answers {t : Khash checked Context} (hw : t.WellFormed) : Answers t := by
  intro address
  rcases hw.get_spec address with hget | ⟨i, ⟨hi, ⟨f, hf, hlive⟩, -⟩, hget⟩
  · exact .inl hget
  rcases hw with ⟨hn, -⟩ | hs
  · omega
  have hvals : i < t.vals.length := by
    rw [hs.vals]
    exact hi
  refine .inr ⟨i, t.vals.get ⟨i, hvals⟩, hget, Nat.ne_of_lt hi, ?_, ?_⟩
  · simp [khExist, examine_of_lt hi, acIseither_eq, hf, hlive]
  · simp [khValue, examine_of_lt hi, hvals]

/-- A key that no bucket holds is not found. -/
theorem WellFormed.unknown {t : Khash checked Context} (hw : t.WellFormed) {address : UInt32}
    (h : t.Absent address) : Unknown t address :=
  hw.get_of_absent h

/-- The flags behind the last bucket are not those of a bucket. -/
theorem khExist_end_check (t : Khash true Context) :
    khExist t (khEnd t) = .error (.bucket t.nBuckets) := by
  simp [khExist, khEnd, examine]

/-- They share the only word with those of the buckets if there are four or
    eight. -/
theorem WellFormed.khExist_end_small {t : Khash false Context} (hw : t.WellFormed)
    (hn : t.nBuckets = 4 ∨ t.nBuckets = 8) : khExist t (khEnd t) = .ok false := by
  rcases hw with ⟨hzero, -⟩ | hs
  · omega
  have hflags : t.flags.length = 1 := by
    rw [hs.flags, acFsize, if_pos (by omega)]
  obtain ⟨f, hf⟩ : ∃ f, flagsAt t.flags t.nBuckets = some f := by
    apply flagsAt_eq_some
    omega
  have hlive := hs.spare _ f (Nat.le_refl _) hf
  simp [khExist, khEnd, examine, acIseither_eq, hf, hlive]

/-- Otherwise they are outside the flags. -/
theorem WellFormed.khExist_end_large {t : Khash false Context} (hw : t.WellFormed)
    (hn : ¬(t.nBuckets = 4 ∨ t.nBuckets = 8)) : khExist t (khEnd t) = .error .outOfBounds := by
  have hflags : flagsAt t.flags t.nBuckets = none := by
    apply flagsAt_eq_none
    rcases hw with ⟨-, hnil⟩ | hs
    · simp [hnil]
    · have hsixteen := hs.sixteen
      have hfour := hs.four_le
      rw [hs.flags, acFsize, if_neg (by omega), Nat.shiftRight_eq_div_pow]
  simp [khExist, khEnd, examine, acIseither_eq, hflags]

/-! ## Checked lookups -/

theorem WellFormed.check {t : Khash false Context} (hw : t.WellFormed) : t.check.WellFormed := by
  rcases hw with hzero | hs
  · exact .inl hzero
  · exact .inr ⟨hs.nBuckets, hs.flags, hs.keys, hs.vals, hs.spare⟩

/-- A lookup examines buckets of the table only. -/
theorem Shaped.check_getLoop {t : Khash false Context} (hs : t.Shaped) (key : UInt32)
    {last fuel i step : Nat} (hi : i < t.nBuckets) :
    t.check.getLoop key last fuel i step = t.getLoop key last fuel i step := by
  induction fuel generalizing i step with
  | zero => rfl
  | succ fuel ih =>
    have hpasses : t.check.passes key i = t.passes key i := by
      have hexamine : t.check.examine i = .ok () := examine_of_lt hi
      rw [passes, passes, hexamine, examine_of_lt hi]
      rfl
    have hrest : t.check.getLoop key last fuel (next (t.nBuckets - 1) i step) (step + 1) =
        t.getLoop key last fuel (next (t.nBuckets - 1) i step) (step + 1) :=
      ih (hs.next_lt i step)
    simp only [getLoop, hpasses]
    rw [show t.check.nBuckets = t.nBuckets from rfl, hrest]
    rfl

theorem WellFormed.check_get {t : Khash false Context} (hw : t.WellFormed) (key : UInt32) :
    t.check.get key = t.get key := by
  rcases hw with ⟨hn, -⟩ | hs
  · have hn' : t.check.nBuckets = 0 := hn
    rw [get, get, if_neg (not_not.2 hn'), if_neg (not_not.2 hn)]
  · have hn : t.check.nBuckets = t.nBuckets := rfl
    rw [get, get, hn, hs.check_getLoop key (hs.home_lt key)]

/-- The checked table is asked for the same addresses. -/
theorem WellFormed.looksUp_check {t : Khash false Context} (hw : t.WellFormed)
    {rand : Nat → RandResult} {source : UInt32} {length : Nat} {address : UInt32}
    (h : LooksUp t rand source length address) : LooksUp t.check rand source length address := by
  cases h with
  | source => exact .source
  | @target hint entry targets _ hget hend hvalue htargets hmem =>
    have hget' : khGet t.check source = .ok hint := (hw.check_get source).trans hget
    rcases hw.check.answers source with hunknown | ⟨i, entry', hgeti, -, -, hvaluei⟩
    · rw [Unknown, hget'] at hunknown
      cases hunknown
      exact absurd rfl hend
    · rw [hget'] at hgeti
      cases hgeti
      have hentry : entry' = entry := by
        simp only [khValue, Except.bind_eq_ok_iff] at hvalue hvaluei
        obtain ⟨-, -, hread⟩ := hvalue
        obtain ⟨-, -, hread'⟩ := hvaluei
        have hsame : readOr t.vals[hint]? = .ok entry' := hread'
        rw [hread] at hsame
        exact (Except.ok.inj hsame).symm
      rw [hentry] at hvaluei
      exact .target hget' hend hvaluei htargets hmem

end Khash

/-- The tables that packets lead to, from the start of the router on. -/
abbrev TableRun (order : ByteOrder) : List (Packet × List Write) → Khash false Context → Prop :=
  Machine.Run (fun _ _ => True) (fun t p => handlePacket order p.fd p.buffer p.rand t) Khash.init

theorem TableRun.wellFormed {order : ByteOrder} {tr : List (Packet × List Write)}
    {t : Khash false Context} (h : TableRun order tr t) : t.WellFormed := by
  refine Machine.Run.induct (P := fun _ t => t.WellFormed) Khash.wellFormed_init ?_ h
  intro tr s p writes s' _ hs _ hstep
  exact handlePacket_preserves (fun ht hput => ht.put hput) (fun ht hset => ht.setValue hset) hs
    hstep

/-- Whatever the state of the router, handling a data frame that looks up an
    address the table does not hold examines the flags of a bucket that is not
    there. It goes on as it is meant to, dropping the frame or skipping the target,
    with four or eight buckets; otherwise there is no word for these flags. -/
theorem unknown_examined {order : ByteOrder} {tr : List (Packet × List Write)}
    {t : Khash false Context} {p : Packet} {header : Header} {payload : List UInt8}
    {address : UInt32} (hrun : TableRun order tr t)
    (hparse : gnwParseHeader true order p.buffer = .ok (header, payload))
    (htype : header.type = GNW_DATA) (hlooks : LooksUp t p.rand header.source p.buffer.length address)
    (habsent : t.Absent address) :
    handlePacket order p.fd p.buffer p.rand t.check = .error (.bucket t.nBuckets) ∧
    ∃ result, forwardKnown p.buffer header.source p.rand t = .ok result ∧
      (t.Absent header.source → result = (t, [])) ∧
      handlePacket order p.fd p.buffer p.rand t =
        if t.nBuckets = 4 ∨ t.nBuckets = 8 then .ok result else .error .outOfBounds := by
  have hw := hrun.wellFormed
  have hunknown := hw.unknown habsent
  obtain ⟨result, hknown⟩ := forwardKnown_ok hw.answers hlooks hunknown
  have hhandle : ∀ {checked : Bool} (t : Khash checked Context),
      handlePacket order p.fd p.buffer p.rand t = forwardData p.buffer header.source p.rand t := by
    intro checked t
    rw [handlePacket_eq, Request.parse_data p.rand hparse htype, Except.ok_bind, Request.perform]
  refine ⟨?_, result, hknown, fun hsource => ?_, ?_⟩
  · have hunknown' : Unknown t.check address := hw.check.unknown habsent
    rw [hhandle]
    exact forwardData_of_error hw.check.answers (Khash.khExist_end_check _)
      (hw.looksUp_check hlooks) hunknown'
  · have hget : khGet t header.source = .ok (khEnd t) := hw.unknown hsource
    simpa [forwardKnown, hget] using hknown.symm
  · rw [hhandle]
    split
    · rename_i hsmall
      rw [forwardData_of_false hw.answers (hw.khExist_end_small hsmall), hknown]
    · rename_i hlarge
      exact forwardData_of_error hw.answers (hw.khExist_end_large hlarge) hlooks hunknown

/-- The table after one CONNECT from address 5 to address 9. -/
def oneEdge : Khash false Context where
  nBuckets := 4
  size := 1
  nOccupied := 1
  upperBound := 3
  flags := [0xaaaaaaa2]
  keys := [0, 5, 0, 0]
  vals := [default, { setupContext with forward := [9] }, default, default]

theorem oneEdge_run : ∃ tr, TableRun .little tr oneEdge := by
  let connect : Packet := ⟨4, frameBytes .little GNW_COMMAND 0
    (GNW_CMD_CONNECT :: (u32Bytes .little 5 ++ u32Bytes .little 9)), fun _ => 0⟩
  have hstep : handlePacket .little connect.fd connect.buffer connect.rand
      (Khash.init : Khash false Context) = .ok (oneEdge, []) := by
    decide +kernel
  exact ⟨_, .snoc .nil trivial hstep⟩

/-- A frame from 5 for the unknown address 9, in a table of four buckets. -/
theorem unknown_examined_target :
    let p : Packet := ⟨4, frameBytes .little GNW_DATA 5 [0x41], fun _ => 0⟩
    handlePacket .little p.fd p.buffer p.rand oneEdge.check = .error (.bucket 4) ∧
    ∃ result, forwardKnown p.buffer 5 p.rand oneEdge = .ok result ∧
      handlePacket .little p.fd p.buffer p.rand oneEdge = .ok result := by
  intro p
  obtain ⟨tr, hrun⟩ := oneEdge_run
  have hlooks : LooksUp oneEdge p.rand 5 p.buffer.length 9 := by
    have hget : khGet oneEdge (5 : UInt32) = .ok 1 := by decide +kernel
    have hvalue : khValue oneEdge (1 : Nat) = .ok { setupContext with forward := [9] } := by
      decide +kernel
    exact .target hget (by decide) hvalue (Context.targets_broadcast rfl) List.mem_cons_self
  have habsent : oneEdge.Absent 9 := by
    rintro i ⟨-, -, hkey⟩
    have hmem : (9 : UInt32) ∈ oneEdge.keys := List.mem_of_getElem? hkey
    revert hmem
    decide
  have hparse := gnwParseHeader_frameBytes true .little GNW_DATA 5 [0x41]
  obtain ⟨hcheck, result, hknown, -, hhandle⟩ :=
    unknown_examined (p := p) hrun hparse rfl hlooks habsent
  exact ⟨hcheck, result, hknown, hhandle⟩

/-- A data frame that comes before any address is known. -/
theorem unknown_fails :
    let p : Packet := ⟨4, frameBytes .little GNW_DATA 9 [0x41], fun _ => 0⟩
    TableRun .little [] Khash.init ∧ (∀ address, (Khash.init : Khash false Context).Absent address) ∧
    handlePacket .little p.fd p.buffer p.rand (Khash.init : Khash false Context) =
      .error .outOfBounds ∧
    handlePacket .little p.fd p.buffer p.rand (Khash.init : Khash true Context) =
      .error (.bucket 0) := by
  intro p
  refine ⟨.nil, fun address i h => ?_, ?_, ?_⟩
  · exact absurd h.1 (Nat.not_lt_zero i)
  · decide +kernel
  · decide +kernel
