-- SUMMARY: What the router does with a data frame: the targets a policy selects, the copies written and what is counted.
import GraphIPC.Router.Request

/-!
# The data plane

The three policies differ in the targets they select and agree on what happens
to a target: it is skipped if its address is unknown, and otherwise gets a copy
and is counted. The loop of the broadcast policy reads the forward vector
through an entry that its own body may write to; no write changes the vector, so
the loop goes once over the list it started with.
-/

/-- Count a frame that came in. -/
def Context.countIn (length : Nat) (entry : Context) : Context :=
  { entry with
    bytesIn := entry.bytesIn + UInt64.ofNat length
    packetsIn := entry.packetsIn + 1 }

/-- Count copies of a frame that went out. -/
def Context.countOut (length copies : Nat) (entry : Context) : Context :=
  { entry with
    bytesOut := entry.bytesOut + UInt64.ofNat (copies * length)
    packetsOut := entry.packetsOut + UInt64.ofNat copies }

/-- The targets that the policy of an entry selects for a frame that has been
    counted. -/
def Context.targets (rand : Nat → RandResult) (entry : Context) : Except Fault (List UInt32) := do
  if entry.forwardPolicy = GNW_POLICY_BROADCAST then
    return entry.forward
  else if entry.forwardPolicy = GNW_POLICY_ANYCAST then
    let _ ← remainder (rand 0) entry.forward.length
    let target ← kvA entry.forward fun n => rand n % entry.forward.length
    return [target]
  else if entry.forwardPolicy = GNW_POLICY_ROUNDROBIN then
    let offset ← remainder entry.packetsIn.toNat entry.forward.length
    let target ← kvA entry.forward fun _ => offset
    return [target]
  else
    return []

theorem policies_distinct :
    GNW_POLICY_ANYCAST ≠ GNW_POLICY_BROADCAST ∧ GNW_POLICY_ROUNDROBIN ≠ GNW_POLICY_BROADCAST ∧
      GNW_POLICY_ROUNDROBIN ≠ GNW_POLICY_ANYCAST := by decide

/-- The vector does not grow when it is read below its size. -/
theorem kvA_of_lt {v : List UInt32} {index : Nat → Nat} (h : ∀ n, index n < v.length) :
    kvA v index = .ok (v.get ⟨index 2, h 2⟩) := by
  have h₀ := h 0
  have h₁ := h 1
  rw [kvA, if_neg (by omega), List.getElem?_eq_getElem (h 2), readOr_some, List.get_eq_getElem]

theorem kvA_mod_mem {v : List UInt32} (hv : v ≠ []) (index : Nat → Nat) :
    ∃ target ∈ v, kvA v (fun n => index n % v.length) = .ok target := by
  have hpos : 0 < v.length := List.length_pos_iff.2 hv
  exact ⟨_, List.get_mem _ _, kvA_of_lt fun n => Nat.mod_lt _ hpos⟩

theorem kvA_mem {v : List UInt32} {index : Nat → Nat} {target : UInt32}
    (h : kvA v index = .ok target) : target ∈ v := by
  rw [kvA] at h
  split at h
  · cases h
  · cases hread : v[index 2]? with
    | none => simp [hread] at h
    | some x =>
      rw [hread] at h
      cases h
      exact List.mem_of_getElem? hread

theorem Context.targets_broadcast {rand : Nat → RandResult} {entry : Context}
    (h : entry.forwardPolicy = GNW_POLICY_BROADCAST) : entry.targets rand = .ok entry.forward := by
  simp [targets, h]

/-- `GNW_POLICY_ANYCAST` and `GNW_POLICY_ROUNDROBIN` select one target that is in
    the list, if there is one. -/
theorem Context.targets_single {rand : Nat → RandResult} {entry : Context}
    (h : entry.forwardPolicy = GNW_POLICY_ANYCAST ∨ entry.forwardPolicy = GNW_POLICY_ROUNDROBIN)
    (hforward : entry.forward ≠ []) :
    ∃ target ∈ entry.forward, entry.targets rand = .ok [target] := by
  rcases h with h | h
  · obtain ⟨target, hmem, hkv⟩ := kvA_mod_mem hforward fun n => (rand n).val
    refine ⟨target, hmem, ?_⟩
    simp [targets, h, policies_distinct, remainder, hforward, hkv]
  · obtain ⟨target, hmem, hkv⟩ := kvA_mod_mem hforward fun _ => entry.packetsIn.toNat
    refine ⟨target, hmem, ?_⟩
    simp [targets, h, policies_distinct, remainder, hforward, hkv]

theorem Context.targets_other {rand : Nat → RandResult} {entry : Context}
    (hb : entry.forwardPolicy ≠ GNW_POLICY_BROADCAST)
    (ha : entry.forwardPolicy ≠ GNW_POLICY_ANYCAST)
    (hr : entry.forwardPolicy ≠ GNW_POLICY_ROUNDROBIN) : entry.targets rand = .ok [] := by
  simp [targets, hb, ha, hr]

/-- No policy selects a target that is not in the list. -/
theorem Context.targets_subset {rand : Nat → RandResult} {entry : Context} {targets : List UInt32}
    (h : entry.targets rand = .ok targets) : targets ⊆ entry.forward := by
  rw [Context.targets] at h
  split at h
  · cases h
    exact List.Subset.refl _
  split at h
  · simp only [Except.bind_eq_ok_iff] at h
    obtain ⟨_, -, target, hkv, h⟩ := h
    cases h
    simpa using kvA_mem hkv
  split at h
  · simp only [Except.bind_eq_ok_iff] at h
    obtain ⟨_, -, target, hkv, h⟩ := h
    cases h
    simpa using kvA_mem hkv
  · cases h
    exact List.nil_subset _

/-- Which targets a policy may select: all of them, in order, one of them, or
    none. -/
structure Context.Selects (entry : Context) (targets : List UInt32) : Prop where
  broadcast : entry.forwardPolicy = GNW_POLICY_BROADCAST → targets = entry.forward
  single : entry.forwardPolicy = GNW_POLICY_ANYCAST ∨ entry.forwardPolicy = GNW_POLICY_ROUNDROBIN →
    ∃ target ∈ entry.forward, targets = [target]
  other : entry.forwardPolicy ≠ GNW_POLICY_BROADCAST → entry.forwardPolicy ≠ GNW_POLICY_ANYCAST →
    entry.forwardPolicy ≠ GNW_POLICY_ROUNDROBIN → targets = []

/-- Every policy has a selection, except for one that needs a target and has
    none. -/
theorem Context.targets_selects {entry : Context} (rand : Nat → RandResult)
    (hforward : entry.forwardPolicy = GNW_POLICY_ANYCAST ∨
      entry.forwardPolicy = GNW_POLICY_ROUNDROBIN → entry.forward ≠ []) :
    ∃ targets, entry.targets rand = .ok targets ∧ entry.Selects targets := by
  by_cases hb : entry.forwardPolicy = GNW_POLICY_BROADCAST
  · have hs : ¬(entry.forwardPolicy = GNW_POLICY_ANYCAST ∨
        entry.forwardPolicy = GNW_POLICY_ROUNDROBIN) := by
      rw [hb]; decide
    exact ⟨_, targets_broadcast hb, fun _ => rfl, fun h => absurd h hs, fun h => absurd hb h⟩
  by_cases hs : entry.forwardPolicy = GNW_POLICY_ANYCAST ∨
      entry.forwardPolicy = GNW_POLICY_ROUNDROBIN
  · obtain ⟨target, hmem, htargets⟩ := targets_single hs (hforward hs)
    exact ⟨_, htargets, fun h => absurd h hb, fun _ => ⟨target, hmem, rfl⟩,
      fun _ ha hr => absurd hs (not_or.2 ⟨ha, hr⟩)⟩
  · rw [not_or] at hs
    exact ⟨_, targets_other hb hs.1 hs.2, fun h => absurd h hb,
      fun h => absurd h (not_or.2 hs), fun _ _ _ => rfl⟩

/-! ## Forwarding to a list of targets -/

section Lawful

variable {T Iter : Type} [DecidableEq Iter] [KhTable T Iter UInt32 Context]

/-- Forward to each target of a list, in order. -/
def forwardAll (buffer : List UInt8) : List UInt32 → T → Except Fault (T × List Write)
  | [], addressTable => .ok (addressTable, [])
  | target :: targets, addressTable => do
    let (addressTable, copy) ← forwardTo buffer target addressTable
    let (addressTable, copies) ← forwardAll buffer targets addressTable
    return (addressTable, copy ++ copies)

variable [LawfulKhTable T]

/-- Forwarding leaves every forward vector as it was. -/
theorem forwardTo_forward {buffer : List UInt8} {target : UInt32} {t t' : T} {copy : List Write}
    {hint : Iter} {entry : Context} (h : forwardTo buffer target t = .ok (t', copy))
    (hentry : khValue t hint = .ok entry) :
    ∃ entry', khValue t' hint = .ok entry' ∧ entry'.forward = entry.forward := by
  simp only [forwardTo, Except.bind_eq_ok_iff] at h
  obtain ⟨fwd, -, exists_, -, h⟩ := h
  split at h
  · cases h
    exact ⟨entry, hentry, rfl⟩
  split at h
  · cases h
    exact ⟨entry, hentry, rfl⟩
  obtain ⟨fwdEntry, hfwd, t₁, hset, h⟩ := by simpa only [Except.bind_eq_ok_iff] using h
  cases h
  by_cases hsame : hint = fwd
  · -- the entry is itself the target
    subst hsame
    rw [hentry] at hfwd
    cases hfwd
    exact ⟨_, LawfulKhTable.khValue_khSetValue_self hset, rfl⟩
  · rw [← LawfulKhTable.khValue_khSetValue_ne hset hsame] at hentry
    exact ⟨entry, hentry, rfl⟩

/-- The broadcast loop goes over the rest of the forward list. -/
theorem broadcast_eq (buffer : List UInt8) {hint : Iter} {fuel i : Nat} {t : T} {entry : Context}
    (hentry : khValue t hint = .ok entry) (hfuel : entry.forward.length < i + fuel) :
    broadcast buffer hint fuel i t = forwardAll buffer (entry.forward.drop i) t := by
  induction fuel generalizing i t entry with
  | zero =>
    have hdrop : entry.forward.drop i = [] := List.drop_eq_nil_of_le (by omega)
    rw [hdrop]
    rfl
  | succ fuel ih =>
    rw [broadcast, hentry, Except.ok_bind]
    split
    · rename_i hi
      rw [kvA_of_lt fun _ => hi, Except.ok_bind, List.drop_eq_getElem_cons hi, forwardAll,
        List.get_eq_getElem]
      cases hto : forwardTo buffer entry.forward[i] t with
      | error e => rfl
      | ok r =>
        obtain ⟨t₁, copy⟩ := r
        obtain ⟨entry₁, hentry₁, hforward⟩ := forwardTo_forward hto hentry
        have hrest : broadcast buffer hint fuel (i + 1) t₁ =
            forwardAll buffer (entry.forward.drop (i + 1)) t₁ := by
          rw [ih hentry₁ (by rw [hforward]; omega), hforward]
        simp only [Except.ok_bind, hrest]
    · rename_i hi
      rw [List.drop_eq_nil_of_le (by omega)]
      rfl

/-- `GNW_DATA`: count the frame, select the targets, forward to each. -/
theorem forwardData_eq (buffer : List UInt8) (source : UInt32) (rand : Nat → RandResult) (t : T) :
    forwardData buffer source rand t = (do
      let hint ← khGet t source
      if !(← khExist t hint) then
        return (t, [])
      let entry ← khValue t hint
      let t ← khSetValue t hint (entry.countIn buffer.length)
      let targets ← (entry.countIn buffer.length).targets rand
      forwardAll buffer targets t) := by
  have hsingle : ∀ (target : UInt32) (t : T),
      forwardAll buffer [target] t = forwardTo buffer target t := by
    intro target t
    simp only [forwardAll]
    cases forwardTo buffer target t with
    | error e => rfl
    | ok r => simp
  unfold forwardData
  cases khGet t source with
  | error e => rfl
  | ok hint =>
    simp only [Except.ok_bind]
    cases khExist t hint with
    | error e => rfl
    | ok present =>
      simp only [Except.ok_bind]
      split
      · rfl
      cases khValue t hint with
      | error e => rfl
      | ok entry =>
        simp only [Except.ok_bind, Context.countIn]
        cases hset : khSetValue t hint (entry.countIn buffer.length) with
        | error e =>
          rw [Context.countIn] at hset
          simp only [hset, Except.error_bind]
        | ok t₁ =>
          have hself := LawfulKhTable.khValue_khSetValue_self hset
          rw [Context.countIn] at hset hself
          simp only [hset, Except.ok_bind, Context.targets]
          split
          · rw [broadcast_eq buffer hself (Nat.lt_add_left 0 (Nat.lt_succ_self _)), List.drop_zero]
            rfl
          split
          · simp only [bind_assoc, pure_bind, hsingle]
          split
          · simp only [bind_assoc, pure_bind, hsingle]
          · rfl

end Lawful

/-! ## The data plane over a finite map -/

/-- The address table, taken as a finite map. -/
abbrev AddressTable : Type := Table UInt32 Context

namespace AddressTable

/-- The copy of a frame for one target, if its address is known. -/
def copyTo (t : AddressTable) (buffer : List UInt8) (target : UInt32) : Option Write :=
  (t target).map fun entry => { fd := entry.boundFd, bytes := buffer, target := some target }

/-- The table after a frame was forwarded to each target of a list: every
    address is credited once for each time it is listed. -/
def credit (t : AddressTable) (length : Nat) (targets : List UInt32) : AddressTable :=
  fun a => (t a).map (Context.countOut length (targets.count a))

theorem countOut_countOut (length m n : Nat) (entry : Context) :
    (entry.countOut length m).countOut length n = entry.countOut length (m + n) := by
  simp [Context.countOut, Nat.add_mul, UInt64.ofNat_add, UInt64.add_assoc]

@[simp] theorem countOut_zero (length : Nat) (entry : Context) :
    entry.countOut length 0 = entry := by
  simp [Context.countOut]

@[simp] theorem credit_nil (t : AddressTable) (length : Nat) : t.credit length [] = t := by
  funext a
  cases h : t a <;> simp [credit, h]

theorem credit_cons (t : AddressTable) (length : Nat) (target : UInt32) (targets : List UInt32) :
    t.credit length (target :: targets) = (t.credit length [target]).credit length targets := by
  funext a
  simp only [credit, Option.map_map]
  congr 1
  funext entry
  rw [Function.comp, countOut_countOut]
  congr 1
  simp only [List.count_cons, List.count_nil]
  omega

/-- Crediting does not touch the bindings, so later copies go where the first
    one would have gone. -/
theorem copyTo_credit (t : AddressTable) (length : Nat) (targets : List UInt32)
    (buffer : List UInt8) : (t.credit length targets).copyTo buffer = t.copyTo buffer := by
  funext target
  simp only [copyTo, credit, Option.map_map]
  rfl

theorem forwardTo_eq (buffer : List UInt8) (target : UInt32) (t : AddressTable) :
    forwardTo buffer target t =
      .ok (t.credit buffer.length [target], (t.copyTo buffer target).toList) := by
  cases h : t target with
  | none =>
    have hcredit : t.credit buffer.length [target] = t := by
      funext a
      by_cases ha : a = target
      · subst ha; simp [credit, h]
      · cases hta : t a <;> simp [credit, hta, Ne.symm ha]
    simp [forwardTo, Table.khGet_of_none h, copyTo, h, hcredit]
  | some entry =>
    have hcredit : t.credit buffer.length [target] =
        t.set target { entry with
          bytesOut := entry.bytesOut + UInt64.ofNat buffer.length
          packetsOut := entry.packetsOut + 1 } := by
      funext a
      by_cases ha : a = target
      · subst ha; simp [credit, h, Context.countOut]
      · cases hta : t a <;> simp [credit, ha, hta, Ne.symm ha]
    have hend : some target ≠ khEnd t := by simp [khEnd]
    simp [forwardTo, Table.khGet_of_some h, Table.khExist_of_some h, Table.khValue_of_some h,
      Table.khSetValue_of_some h, hend, copyTo, h, hcredit]

/-- Forwarding to a list writes one copy for each listed target that is known,
    in order, and credits it. -/
theorem forwardAll_eq (buffer : List UInt8) (targets : List UInt32) (t : AddressTable) :
    forwardAll buffer targets t =
      .ok (t.credit buffer.length targets, targets.filterMap (t.copyTo buffer)) := by
  induction targets generalizing t with
  | nil => simp [forwardAll]
  | cons target targets ih =>
    rw [forwardAll, forwardTo_eq, Except.ok_bind]
    simp only [ih, Except.ok_bind, copyTo_credit, ← credit_cons]
    cases h : t.copyTo buffer target <;> simp [h]

/-- A frame from an unknown source is dropped. -/
theorem forwardData_of_none {t : AddressTable} {source : UInt32} (h : t source = none)
    (buffer : List UInt8) (rand : Nat → RandResult) : forwardData buffer source rand t = .ok (t, []) := by
  simp [forwardData_eq, Table.khGet_of_none h]

/-- The table after a frame from a known source was forwarded, address by
    address. -/
theorem credit_set_countIn {t : AddressTable} {source : UInt32} {entry : Context}
    (h : t source = some entry) (length : Nat) (targets : List UInt32) (a : UInt32) :
    credit (t.set source (entry.countIn length)) length targets a = (t a).map fun c =>
      (if a = source then c.countIn length else c).countOut length (targets.count a) := by
  by_cases hs : a = source
  · subst hs
    simp [credit, h]
  · simp [credit, hs]

/-- A frame from a known source. -/
theorem forwardData_of_some {t : AddressTable} {source : UInt32} {entry : Context}
    (h : t source = some entry) (buffer : List UInt8) (rand : Nat → RandResult) :
    forwardData buffer source rand t = (do
      let targets ← (entry.countIn buffer.length).targets rand
      return (credit (t.set source (entry.countIn buffer.length)) buffer.length targets,
        targets.filterMap (t.copyTo buffer))) := by
  have hcopy : copyTo (t.set source (entry.countIn buffer.length)) buffer = t.copyTo buffer := by
    funext target
    by_cases ht : target = source
    · subst ht; simp [copyTo, h, Context.countIn]
    · simp [copyTo, ht]
  simp [forwardData_eq, Table.khGet_of_some h, Table.khExist_of_some h, Table.khValue_of_some h,
    Table.khSetValue_of_some h, forwardAll_eq, hcopy]

/-- One copy is written for each time a known address is listed. -/
theorem countP_copies {t : AddressTable} {a : UInt32} {entry : Context} (h : t a = some entry)
    (buffer : List UInt8) (targets : List UInt32) :
    (targets.filterMap (t.copyTo buffer)).countP (·.target = some a) = targets.count a := by
  induction targets with
  | nil => rfl
  | cons target targets ih =>
    by_cases ht : target = a
    · subst ht
      simp [copyTo, h] at ih ⊢
      exact ih
    · cases hta : t target <;> simpa [copyTo, hta, List.filterMap_cons, ht] using ih

/-- What `handle_packet` does on a data frame from a known source. One copy is
    written for each selected target that is known, in order, byte for byte and
    to the descriptor its address is bound to; the frame is counted at its
    source, each copy at its target, and nothing else changes. -/
theorem handlePacket_data {order : ByteOrder} {fd : Int} {buffer : List UInt8}
    {rand : Nat → RandResult} {t : AddressTable} {header : Header} {payload : List UInt8}
    {entry : Context} (hparse : gnwParseHeader true order buffer = .ok (header, payload))
    (htype : header.type = GNW_DATA) (hsource : t header.source = some entry)
    (hforward : entry.forwardPolicy = GNW_POLICY_ANYCAST ∨
      entry.forwardPolicy = GNW_POLICY_ROUNDROBIN → entry.forward ≠ []) :
    ∃ targets writes t', handlePacket order fd buffer rand t = .ok (t', writes) ∧
      entry.Selects targets ∧
      writes = targets.filterMap (fun target => (t target).map fun entry =>
        { fd := entry.boundFd, bytes := buffer, target := some target }) ∧
      ∀ a, t' a = (t a).map fun entry =>
        (if a = header.source then entry.countIn buffer.length else entry).countOut buffer.length
          (writes.countP (·.target = some a)) := by
  obtain ⟨targets, htargets, hselects⟩ :
      ∃ targets, (entry.countIn buffer.length).targets rand = .ok targets ∧
        (entry.countIn buffer.length).Selects targets := Context.targets_selects rand hforward
  let writes := targets.filterMap (t.copyTo buffer)
  let t' := credit (t.set header.source (entry.countIn buffer.length)) buffer.length targets
  have hhandle : handlePacket order fd buffer rand t = .ok (t', writes) := by
    rw [handlePacket_eq, Request.parse_data rand hparse htype, Except.ok_bind, Request.perform,
      forwardData_of_some hsource, htargets]
    rfl
  refine ⟨targets, writes, t', hhandle, ⟨hselects.1, hselects.2, hselects.3⟩, rfl, fun a => ?_⟩
  have ht' := credit_set_countIn hsource buffer.length targets a
  rw [show t' a = _ from ht']
  cases ha : t a with
  | none => rfl
  | some c =>
    have hcount : writes.countP (·.target = some a) = targets.count a := countP_copies ha ..
    rw [hcount]

/-- A source that is listed twice among its own targets gets two copies. -/
theorem handlePacket_data_self :
    let buffer := frameBytes .little GNW_DATA 7 [0x41]
    let t : AddressTable :=
      Table.set (fun _ => none) 7 { setupContext with forward := [7, 7], boundFd := 5 }
    ∃ t', handlePacket .little 5 buffer (fun _ => 0) t =
      .ok (t', [⟨5, buffer, some 7⟩, ⟨5, buffer, some 7⟩]) := by
  intro buffer t
  have hsource : t 7 = some { setupContext with forward := [7, 7], boundFd := 5 } :=
    Table.set_self ..
  obtain ⟨targets, writes, t', hhandle, hselects, hwrites, -⟩ :=
    handlePacket_data 
      (gnwParseHeader_frameBytes true .little GNW_DATA 7 [0x41]) rfl hsource (by decide)
  have htargets : targets = [7, 7] := hselects.broadcast rfl
  refine ⟨t', ?_⟩
  rw [hhandle, hwrites, htargets]
  simp [hsource, buffer]

end AddressTable
