-- SUMMARY: The round-robin policy: over any stretch of frames of a source, the positions of its list come up equally often.
import GraphIPC.Base.Rotation
import GraphIPC.Router.Control

/-!
# Round robin

The position that a source with this policy forwards to next is its counter of packets,
modulo the length of its list. The counter is shared with the other policies and with
the statistics, but only the frames of the source itself move it: not those of other
sources, not the copies it gets as a target, and no command.
-/

variable {order : ByteOrder} {a : UInt32}

/-- A data frame from an address. -/
def Packet.IsDataFrom (order : ByteOrder) (a : UInt32) (p : Packet) : Prop :=
  (Request.parse order p.buffer p.rand).toOption = some (.data a)

instance (order : ByteOrder) (a : UInt32) (p : Packet) : Decidable (p.IsDataFrom order a) :=
  inferInstanceAs (Decidable (_ = _))

theorem Packet.isDataFrom_iff {p : Packet} {r : Request}
    (hparse : Request.parse order p.buffer p.rand = .ok r) :
    p.IsDataFrom order a ↔ r = .data a := by
  rw [IsDataFrom, hparse]
  exact Option.some_inj

/-- The position that `GNW_POLICY_ROUNDROBIN` selects in the list of an entry. -/
def Context.offset (length : Nat) (entry : Context) : Nat :=
  (entry.countIn length).packetsIn.toNat % (entry.countIn length).forward.length

/-- The selection is the target at the offset. -/
theorem Context.targets_roundrobin {entry : Context} (rand : Nat → RandResult) (length : Nat)
    (hpolicy : entry.forwardPolicy = GNW_POLICY_ROUNDROBIN) (hforward : entry.forward ≠ []) :
    ∃ target, entry.forward[entry.offset length]? = some target ∧
      (entry.countIn length).targets rand = .ok [target] := by
  have hpos : 0 < entry.forward.length := List.length_pos_iff.2 hforward
  have hlt : entry.offset length < entry.forward.length := Nat.mod_lt _ hpos
  refine ⟨entry.forward[entry.offset length], List.getElem?_eq_getElem hlt, ?_⟩
  have hkv : kvA entry.forward (fun _ => entry.offset length) =
      .ok entry.forward[entry.offset length] := kvA_of_lt fun _ => hlt
  have hpolicy' : (entry.countIn length).forwardPolicy = GNW_POLICY_ROUNDROBIN := hpolicy
  have hne : (entry.countIn length).forward.length ≠ 0 := hpos.ne'
  unfold targets
  rw [if_neg (by rw [hpolicy']; decide), if_neg (by rw [hpolicy']; decide), if_pos hpolicy',
    remainder, if_neg hne]
  exact congrArg (fun r : Except Fault UInt32 => r >>= fun target => pure [target]) hkv

/-! ## The counter -/

/-- What a request adds to the counter of an address. -/
def Request.counted (a : UInt32) (t : AddressTable) (r : Request) : UInt64 :=
  if r = .data a ∧ (t a).isSome then 1 else 0

/-- The counter of an address after another entry was written. -/
theorem AddressTable.context_set_packetsIn {t : AddressTable} {b : UInt32} {entry : Context}
    (h : entry.packetsIn = (t.context b).packetsIn) (a : UInt32) :
    (AddressTable.context (t.set b entry) a).packetsIn = (t.context a).packetsIn := by
  by_cases hab : a = b
  · subst hab
    rw [AddressTable.context_of_some (Table.set_self ..), h]
  · rw [context, context, Table.set_of_ne hab]

theorem Request.counted_of_ne {a : UInt32} {r : Request} (h : r ≠ .data a) (t : AddressTable) :
    r.counted a t = 0 := if_neg fun hdata => h hdata.1

/-- Nothing but its own data frames moves the counter of an address. -/
theorem Performed.packetsIn {fd : Int} {buffer : List UInt8} {rand : Nat → RandResult}
    {t t' : AddressTable} {r : Request} {writes : List Write}
    (h : Performed order fd buffer rand t r t' writes) (a : UInt32) :
    (t'.context a).packetsIn = (t.context a).packetsIn + r.counted a t := by
  cases h with
  | claimed address =>
    rw [Request.counted_of_ne (by simp), UInt64.add_zero, AddressTable.claim]
    apply AddressTable.context_set_packetsIn
    rfl
  | connected source target =>
    rw [Request.counted_of_ne (by simp), UInt64.add_zero, AddressTable.connect]
    apply AddressTable.context_set_packetsIn
    rfl
  | @policySet policy target entry htarget =>
    rw [Request.counted_of_ne (by simp), UInt64.add_zero]
    exact AddressTable.context_set_packetsIn (by rw [AddressTable.context_of_some htarget]) a
  | policyIgnored htarget => rw [Request.counted_of_ne (by simp), UInt64.add_zero]
  | @forwarded source entry targets hsource htargets =>
    rw [AddressTable.context, AddressTable.credit_set_countIn hsource]
    by_cases ha : a = source
    · subst ha
      simp [Request.counted, hsource, AddressTable.context, Context.countIn, Context.countOut]
    · have hne : source ≠ a := fun heq => ha heq.symm
      cases hat : t a <;>
        simp [Request.counted, hat, AddressTable.context, Context.countOut, ha, hne]
  | @dropped source hsource =>
    have hnone : ¬(Request.data source = .data a ∧ (t a).isSome) := by
      rintro ⟨heq, hsome⟩
      cases heq
      simp [hsource] at hsome
    rw [Request.counted, if_neg hnone, UInt64.add_zero]
  | unhandled => rw [Request.counted_of_ne (by simp), UInt64.add_zero]

/-! ## Runs -/

/-- The position of the list of `a` that is selected when the router handles a frame. -/
def selectedPosition (order : ByteOrder) (a : UInt32) (t : AddressTable) (p : Packet) :
    Option Nat :=
  if p.IsDataFrom order a then (t a).map (Context.offset p.buffer.length) else none

/-- `handle_packet`, and the position it selects in the list of `a`. -/
def selectStep (order : ByteOrder) (a : UInt32) (t : AddressTable) (p : Packet) :
    Except Fault (AddressTable × (List Write × Option Nat)) := do
  let (t', writes) ← serve order t p
  return (t', writes, selectedPosition order a t p)

/-- A frame may be handled if it does not come from `a`, or `a` has the round-robin
    policy and the forward list `l` at that time. -/
def GoesRound (order : ByteOrder) (a : UInt32) (l : List UInt32) (t : AddressTable) (p : Packet) :
    Prop :=
  p.IsDataFrom order a →
    ∃ entry, t a = some entry ∧ entry.forwardPolicy = GNW_POLICY_ROUNDROBIN ∧ entry.forward = l

/-- The data frames from `a`, with what was done on them. -/
def framesFrom (order : ByteOrder) (a : UInt32) (tr : List (Packet × (List Write × Option Nat))) :
    List (Packet × (List Write × Option Nat)) :=
  tr.filter fun e => e.1.IsDataFrom order a

/-- The positions that were selected, in order. -/
def positions (tr : List (Packet × (List Write × Option Nat))) : List Nat :=
  tr.filterMap fun e => e.2.2

/-- What a frame does to the source whose turns are followed. -/
theorem selectStep_ok {l : List UInt32} (hl : l ≠ []) {t t' : AddressTable} {p : Packet}
    {writes : List Write} {position : Option Nat} (hround : GoesRound order a l t p)
    (h : selectStep order a t p = .ok (t', writes, position)) :
    (¬p.IsDataFrom order a ∧ position = none ∧
        (t'.context a).packetsIn = (t.context a).packetsIn) ∨
      (p.IsDataFrom order a ∧ (t'.context a).packetsIn = (t.context a).packetsIn + 1 ∧
        position = some ((t'.context a).packetsIn.toNat % l.length) ∧
        ∃ target, l[(t'.context a).packetsIn.toNat % l.length]? = some target ∧
          writes = (t.copyTo p.buffer target).toList) := by
  simp only [selectStep, Except.bind_eq_ok_iff] at h
  obtain ⟨⟨t₁, writes₁⟩, hserve, h⟩ := h
  cases h
  obtain ⟨r, hparse, hperformed⟩ := performed_of_handlePacket hserve
  have hcount := hperformed.packetsIn a
  by_cases hdata : p.IsDataFrom order a
  · right
    obtain ⟨entry, hentry, hpolicy, rfl⟩ := hround hdata
    obtain rfl := (Packet.isDataFrom_iff hparse).1 hdata
    rw [Request.counted, if_pos ⟨rfl, by rw [hentry]; rfl⟩] at hcount
    have hoffset : entry.offset p.buffer.length =
        (t₁.context a).packetsIn.toNat % entry.forward.length := by
      rw [hcount, AddressTable.context_of_some hentry]
      rfl
    obtain ⟨target, htarget, htargets⟩ :=
      Context.targets_roundrobin p.rand p.buffer.length hpolicy hl
    rw [hoffset] at htarget
    refine ⟨hdata, hcount, ?_, target, htarget, ?_⟩
    · rw [selectedPosition, if_pos hdata, hentry, Option.map_some, hoffset]
    · cases hperformed with
      | @forwarded source entry' targets hsource htargets' =>
        obtain rfl := Option.some.inj (hentry.symm.trans hsource)
        cases htargets.symm.trans htargets'
        show [target].filterMap (t.copyTo p.buffer) = _
        cases hcopy : t.copyTo p.buffer target <;> simp [hcopy]
      | dropped hsource => simp [hentry] at hsource
  · left
    rw [Request.counted_of_ne fun heq => hdata ((Packet.isDataFrom_iff hparse).2 heq),
      UInt64.add_zero] at hcount
    exact ⟨hdata, if_neg hdata, hcount⟩

section History

variable (tr : List (Packet × (List Write × Option Nat))) (p : Packet) (writes : List Write)
  (position : Option Nat)

theorem framesFrom_snoc :
    framesFrom order a (tr ++ [(p, writes, position)]) =
      framesFrom order a tr ++ if p.IsDataFrom order a then [(p, writes, position)] else [] := by
  by_cases hdata : p.IsDataFrom order a <;> simp [framesFrom, hdata]

theorem positions_snoc :
    positions (tr ++ [(p, writes, position)]) = positions tr ++ position.toList := by
  cases position <;> simp [positions]

end History

/-- What a frame of the source is forwarded by: the target at the position that was
    selected, and at most one copy for it. -/
def Selected (l : List UInt32) (e : Packet × (List Write × Option Nat)) : Prop :=
  ∃ position target, e.2.2 = some position ∧ l[position]? = some target ∧
    (e.2.1 = [] ∨ ∃ fd, e.2.1 = [{ fd, bytes := e.1.buffer, target := some target }])

/-- What is true of the frames of a source since its counter stood at `count`. -/
structure TakesTurns (order : ByteOrder) (a : UInt32) (l : List UInt32) (count : Nat)
    (tr : List (Packet × (List Write × Option Nat))) (t : AddressTable) : Prop where
  counted : (t.context a).packetsIn.toNat = count + (framesFrom order a tr).length
  positions : positions tr = residues l.length (count + 1) (framesFrom order a tr).length
  selected : ∀ e ∈ framesFrom order a tr, Selected l e

theorem TakesTurns.init {l : List UInt32} (t : AddressTable) :
    TakesTurns order a l (t.context a).packetsIn.toNat [] t where
  counted := rfl
  positions := rfl
  selected _ he := absurd he List.not_mem_nil

/-- The positions go round for as long as the counter does not wrap. -/
theorem TakesTurns.step {l : List UInt32} (hl : l ≠ []) {count : Nat} {t t' : AddressTable}
    {tr : List (Packet × (List Write × Option Nat))} {p : Packet} {writes : List Write}
    {position : Option Nat} (h : TakesTurns order a l count tr t)
    (hround : GoesRound order a l t p)
    (hstep : selectStep order a t p = .ok (t', writes, position))
    (hbound : count + (framesFrom order a (tr ++ [(p, writes, position)])).length < 2 ^ 64) :
    TakesTurns order a l count (tr ++ [(p, writes, position)]) t' := by
  rw [framesFrom_snoc] at hbound
  rcases selectStep_ok hl hround hstep with
    ⟨hdata, rfl, hcount⟩ | ⟨hdata, hcount, hposition, target, htarget, hwrites⟩
  · constructor
    · rw [framesFrom_snoc, if_neg hdata, List.append_nil, hcount, h.counted]
    · rw [framesFrom_snoc, if_neg hdata, List.append_nil, positions_snoc, h.positions]
      exact List.append_nil _
    · rw [framesFrom_snoc, if_neg hdata, List.append_nil]
      exact h.selected
  · rw [if_pos hdata, List.length_append, List.length_singleton] at hbound
    have hnext : (t'.context a).packetsIn.toNat =
        count + ((framesFrom order a tr).length + 1) := by
      rw [hcount, UInt64.toNat_add, h.counted]
      exact (Nat.mod_eq_of_lt (by rwa [Nat.add_assoc])).trans (Nat.add_assoc ..)
    constructor
    · rw [framesFrom_snoc, if_pos hdata, List.length_append, List.length_singleton, hnext]
    · rw [framesFrom_snoc, if_pos hdata, List.length_append, List.length_singleton,
        positions_snoc, h.positions, hposition, hnext, Option.toList_some, residues_succ,
        Nat.add_right_comm count 1, Nat.add_assoc count]
    · intro e he
      rw [framesFrom_snoc, if_pos hdata] at he
      rcases List.mem_append.1 he with he | he
      · exact h.selected e he
      · obtain rfl := List.mem_singleton.1 he
        refine ⟨_, target, hposition, htarget, ?_⟩
        show writes = [] ∨ _
        rw [hwrites, AddressTable.copyTo]
        cases t target with
        | none => exact .inl rfl
        | some entry => exact .inr ⟨entry.boundFd, rfl⟩

theorem TakesTurns.run {l : List UInt32} (hl : l ≠ []) {t₀ t : AddressTable}
    {tr : List (Packet × (List Write × Option Nat))}
    (hrun : Machine.Run (GoesRound order a l) (selectStep order a) t₀ tr t)
    (hbound : (t₀.context a).packetsIn.toNat + (framesFrom order a tr).length < 2 ^ 64) :
    TakesTurns order a l (t₀.context a).packetsIn.toNat tr t := by
  induction hrun with
  | nil => exact .init t₀
  | @snoc tr t t' p out hrun hround hstep ih =>
    obtain ⟨writes, position⟩ := out
    refine (ih ?_).step hl hround hstep hbound
    rw [framesFrom_snoc, List.length_append] at hbound
    omega

/-- Over any stretch of a run in which the data frames of a source find it with the
    round-robin policy and one and the same list, each of them is forwarded by the
    position that it selects, and each position is selected equally often, rounded
    down or up; once each, if there are as many frames as positions. -/
theorem round_robin_balanced {l : List UInt32} (hl : l ≠ []) {t₀ t : AddressTable}
    {tr : List (Packet × (List Write × Option Nat))}
    (hrun : Machine.Run (GoesRound order a l) (selectStep order a) t₀ tr t)
    (hbound : (t₀.context a).packetsIn.toNat + (framesFrom order a tr).length < 2 ^ 64) :
    (∀ e ∈ framesFrom order a tr, Selected l e) ∧
      (positions tr).length = (framesFrom order a tr).length ∧
      (∀ k < l.length,
        (positions tr).count k = (framesFrom order a tr).length / l.length ∨
          (positions tr).count k =
            ((framesFrom order a tr).length + l.length - 1) / l.length) ∧
      ((framesFrom order a tr).length = l.length →
        ∀ k < l.length, (positions tr).count k = 1) := by
  have hturns := TakesTurns.run hl hrun hbound
  rw [hturns.positions]
  refine ⟨hturns.selected, length_residues .., fun k hk => count_residues _ _ hk,
    fun hround k hk => ?_⟩
  rw [hround]
  exact count_residues_self _ hk

instance GoesRound.decidable (order : ByteOrder) (a : UInt32) (l : List UInt32) (t : AddressTable)
    (p : Packet) : Decidable (GoesRound order a l t p) :=
  match h : t a with
  | none => decidable_of_iff (¬p.IsDataFrom order a) (by simp [GoesRound, h])
  | some entry =>
    decidable_of_iff (p.IsDataFrom order a →
      entry.forwardPolicy = GNW_POLICY_ROUNDROBIN ∧ entry.forward = l) (by simp [GoesRound, h])

/-- A source with three targets, itself among them; the frame of another source is not
    counted. -/
theorem round_robin_balanced_three :
    ∃ tr t, Machine.Run (GoesRound .little 7 [7, 8, 9]) (selectStep .little 7)
        AddressTable.empty tr t ∧
      (framesFrom .little 7 tr).length = 3 ∧
      (positions tr).count 0 = 1 ∧ (positions tr).count 1 = 1 ∧ (positions tr).count 2 = 1 := by
  let command (payload : List UInt8) : Packet :=
    ⟨4, frameBytes .little GNW_COMMAND 0xFFFFFFFF payload, fun _ => 0⟩
  let connect (target : UInt32) : Packet :=
    command (GNW_CMD_CONNECT :: (u32Bytes .little 7 ++ u32Bytes .little target))
  let data (source : UInt32) : Packet := ⟨4, frameBytes .little GNW_DATA source [0x41], fun _ => 0⟩
  have hsim : (Machine.simulate (GoesRound .little 7 [7, 8, 9]) (selectStep .little 7)
      AddressTable.empty [connect 7, connect 8, connect 9,
        command (GNW_CMD_POLICY :: 2 :: u32Bytes .little 7), data 7, data 8, data 7, data 7]).any
      (fun r => (framesFrom .little 7 r.2).length = 3) = true := by
    decide +kernel
  obtain ⟨tr, t, hrun, hthree⟩ := Machine.Run.exists_of_simulate hsim
  have hthree : (framesFrom .little 7 tr).length = 3 := of_decide_eq_true hthree
  have hbound : ((AddressTable.empty.context 7).packetsIn.toNat +
      (framesFrom .little 7 tr).length) < 2 ^ 64 := by
    rw [hthree]
    decide
  have hbalanced := (round_robin_balanced (by decide) hrun hbound).2.2.2 hthree
  exact ⟨tr, t, hrun, hthree, hbalanced 0 (by decide), hbalanced 1 (by decide),
    hbalanced 2 (by decide)⟩
