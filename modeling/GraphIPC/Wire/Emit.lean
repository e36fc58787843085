-- SUMMARY: GraphNetwork.c, gnw_emitPacket: what arrives on a descriptor and what is counted when writes are short or fail.
import GraphIPC.Base.Machine
import GraphIPC.Wire.Frame

/-!
# Emitting packets

Both emit functions pass a whole frame to one call of `write` and add what that returns to
the number of bytes written. Nothing looks at the result: the rest of a frame of which only
a part was accepted is not sent again, and a failed write is counted as -1.
-/

/-- `link_stats`, as far as the emit functions keep it. -/
structure GnwStats where
  bytesWritten : UInt64
  dataPackets : UInt64
  commandPackets : UInt64
  deriving DecidableEq, Repr

/-- A call of `gnw_emitDataPacket` or `gnw_emitCommandPacket`. -/
inductive EmitCall where
  | data (source : UInt32) (buffer : List UInt8) (length : Nat)
  | command (type : UInt8) (buffer : List UInt8) (length : Nat)
  deriving DecidableEq, Repr

/-- The number of bytes that `write` is called with, if it is called. -/
def EmitCall.size : EmitCall → Option Nat
  | .data _ _ length => if length = 0 then none else some (length + 11)
  | .command _ _ length => some (length + 11)

/-- What `write` returns: the number of bytes it accepted, or -1. -/
abbrev Written : Type := Option Nat

/-- What is added to the bytes written. -/
def Written.count : Written → UInt64
  | some n => UInt64.ofNat n
  | none => -1

/-- `gnw_emitPacket` -/
def gnwEmitPacket (written : Written) (stats : GnwStats) : GnwStats :=
  { stats with bytesWritten := stats.bytesWritten + written.count }

/-- A call of one of the emit functions, in which `write` returns `written` if it is called:
    the frame that is written and how many of its bytes are accepted. -/
def emitCall (order : ByteOrder) (stats : GnwStats) (e : EmitCall × Written) :
    Except Fault (GnwStats × Option (List UInt8 × Nat)) := do
  match e.1 with
  | .data source buffer length =>
    let packet ← gnwEmitDataPacket order source buffer length
    match packet with
    | none => return (stats, none)
    | some packet =>
      let stats := { stats with dataPackets := stats.dataPackets + 1 }
      return (gnwEmitPacket e.2 stats, some (packet, e.2.getD 0))
  | .command type buffer length =>
    let stats := { stats with commandPackets := stats.commandPackets + 1 }
    let packet ← gnwEmitCommandPacket order type buffer length
    return (gnwEmitPacket e.2 stats, some (packet, e.2.getD 0))

/-- A write accepts no more than it is called with. -/
def EmitAllowed (_ : GnwStats) (e : EmitCall × Written) : Prop :=
  ∀ size ∈ e.1.size, e.2.getD 0 ≤ size

instance decidableEmitAllowed (stats : GnwStats) (e : EmitCall × Written) :
    Decidable (EmitAllowed stats e) :=
  inferInstanceAs (Decidable (∀ size ∈ e.1.size, _))

/-- The calls on a descriptor, each with what was written. -/
abbrev EmitHistory : Type := List ((EmitCall × Written) × Option (List UInt8 × Nat))

/-- The writes that accepted something, each with the frame and the number of bytes. -/
def EmitHistory.sent (tr : EmitHistory) : List (List UInt8 × Nat) :=
  (tr.filterMap Prod.snd).filter fun write => 0 < write.2

/-- The bytes that arrived on the descriptor. -/
def EmitHistory.accepted (tr : EmitHistory) : List UInt8 :=
  ((EmitHistory.sent tr).map fun write => write.1.take write.2).flatten

/-- Whole frames, and at most one behind them of which a part is missing. -/
def Framed (sent : List (List UInt8 × Nat)) : Prop :=
  ∃ (frames : List (List UInt8)) (rest : List (List UInt8 × Nat)),
    sent = frames.map (fun frame => (frame, frame.length)) ++ rest ∧ rest.length ≤ 1 ∧
      ∀ write ∈ rest, write.2 < write.1.length

/-- What is to hold of a descriptor and of the counter after a history. -/
structure EmitKept (stats₀ : GnwStats) (tr : EmitHistory) (stats : GnwStats) : Prop where
  framed : Framed (EmitHistory.sent tr)
  counted : stats.bytesWritten.toNat =
    stats₀.bytesWritten.toNat + (EmitHistory.accepted tr).length

/-- A write that accepts some bytes of its frame, and not all. -/
def EmitCall.Short (e : EmitCall × Written) : Prop :=
  ∃ size n, e.1.size = some size ∧ e.2 = some n ∧ 0 < n ∧ n < size

/-- The write of a call does not fail, the counter has room for it, and if it accepts
    something then no earlier one was short. -/
def WriteFits (earlier : List (EmitCall × Written)) (bytesWritten : Nat) (e : EmitCall × Written) :
    Prop :=
  ∀ size, e.1.size = some size → ∃ n, e.2 = some n ∧ bytesWritten + n < 2 ^ 64 ∧
    (0 < n → ∀ e' ∈ earlier, ¬EmitCall.Short e')

/-! ## Frames and parts of frames -/

/-- One more write: if it accepts something, there was no part of a frame before it. -/
theorem framed_snoc_iff {sent : List (List UInt8 × Nat)} {write : List UInt8 × Nat}
    (hle : write.2 ≤ write.1.length) :
    Framed (sent ++ [write]) ↔ ∀ w ∈ sent, w.2 = w.1.length := by
  constructor
  · rintro ⟨frames, rest, happend, hone, -⟩ w hw
    -- all but the last write are among the whole frames
    have hfront : sent <+: frames.map fun frame => (frame, frame.length) := by
      have hprefix : sent <+: frames.map (fun frame => (frame, frame.length)) ++ rest := by
        rw [← happend]
        exact List.prefix_append sent [write]
      apply List.prefix_of_prefix_length_le hprefix (List.prefix_append _ rest)
      have hlength := congrArg List.length happend
      simp only [List.length_append, List.length_singleton] at hlength
      omega
    obtain ⟨frame, -, rfl⟩ := List.mem_map.1 (hfront.subset hw)
    rfl
  · intro hwhole
    have hframes : sent = (sent.map Prod.fst).map fun frame => (frame, frame.length) := by
      rw [List.map_map]
      conv_lhs => rw [← List.map_id sent]
      apply List.map_congr_left
      intro w hw
      exact Prod.ext rfl (hwhole w hw)
    rcases Nat.lt_or_eq_of_le hle with hlt | heq
    · refine ⟨sent.map Prod.fst, [write], congrArg (· ++ [write]) hframes, le_rfl, ?_⟩
      intro w hw
      rw [List.mem_singleton.1 hw]
      exact hlt
    · refine ⟨sent.map Prod.fst ++ [write.1], [], ?_, Nat.zero_le _, fun w hw => by cases hw⟩
      rw [List.append_nil, List.map_append, ← hframes, List.map_singleton, ← heq]

/-! ## One call -/

section Calls

variable {order : ByteOrder}

/-- A call writes the frame of its size, or nothing. -/
theorem emitCall_ok {stats stats' : GnwStats} {e : EmitCall × Written}
    {out : Option (List UInt8 × Nat)} (h : emitCall order stats e = .ok (stats', out)) :
    (e.1.size = none ∧ out = none ∧ stats'.bytesWritten = stats.bytesWritten) ∨
      ∃ frame : List UInt8, e.1.size = some frame.length ∧ out = some (frame, e.2.getD 0) ∧
        stats'.bytesWritten = stats.bytesWritten + e.2.count := by
  obtain ⟨call, written⟩ := e
  cases call with
  | data source buffer length =>
    simp only [emitCall, gnwEmitDataPacket] at h
    split at h
    · rename_i hzero
      cases h
      exact .inl ⟨if_pos hzero, rfl, rfl⟩
    · rename_i hpos
      simp only [Except.bind_eq_ok_iff] at h
      obtain ⟨emitted, ⟨packet, hpacket, hemitted⟩, h⟩ := h
      obtain ⟨hle, rfl⟩ := writePayload_ok hpacket
      cases hemitted
      cases h
      refine .inr ⟨_, ?_, rfl, rfl⟩
      rw [length_frameBytes, List.length_take_of_le hle]
      exact if_neg hpos
  | command type buffer length =>
    simp only [emitCall, gnwEmitCommandPacket, Except.bind_eq_ok_iff] at h
    obtain ⟨packet, hpacket, h⟩ := h
    obtain ⟨hle, rfl⟩ := writePayload_ok hpacket
    cases h
    refine .inr ⟨_, ?_, rfl, rfl⟩
    rw [length_frameBytes, List.length_take_of_le hle]
    rfl

/-- A call is recorded with its frame and with as many bytes as the frame has room for. -/
def Recorded (e : (EmitCall × Written) × Option (List UInt8 × Nat)) : Prop :=
  e.1.1.size = none ∧ e.2 = none ∨ ∃ frame : List UInt8, e.1.1.size = some frame.length ∧
    e.2 = some (frame, e.1.2.getD 0) ∧ e.1.2.getD 0 ≤ frame.length

variable {stats₀ stats : GnwStats} {tr : EmitHistory}

theorem recorded_of_run (hrun : Machine.Run EmitAllowed (emitCall order) stats₀ tr stats) :
    ∀ e ∈ tr, Recorded e := by
  induction hrun with
  | nil =>
    intro e he
    cases he
  | snoc hrun hallowed hstep ih =>
    intro e he
    rcases List.mem_append.1 he with hold | hlast
    · exact ih e hold
    · rw [List.mem_singleton.1 hlast]
      rcases emitCall_ok hstep with ⟨hsize, hout, -⟩ | ⟨frame, hsize, hout, -⟩
      · exact .inl ⟨hsize, hout⟩
      · exact .inr ⟨frame, hsize, hout, hallowed _ hsize⟩

/-- Every write before was whole just if no call before was a short one. -/
theorem sent_whole_iff (hrecorded : ∀ e ∈ tr, Recorded e) :
    (∀ write ∈ EmitHistory.sent tr, write.2 = write.1.length) ↔
      ∀ e ∈ tr.map Prod.fst, ¬EmitCall.Short e := by
  constructor
  · intro hwhole e he hshort
    obtain ⟨⟨e, out⟩, hmem, rfl⟩ := List.mem_map.1 he
    obtain ⟨size, n, hsize, hn, hpos, hlt⟩ := hshort
    rcases hrecorded _ hmem with ⟨hnone, -⟩ | ⟨frame, hframe, hout, -⟩
    · rw [hsize] at hnone
      cases hnone
    · have hwrite : (frame, n) ∈ EmitHistory.sent tr := by
        refine List.mem_filter.2 ⟨List.mem_filterMap.2 ⟨_, hmem, ?_⟩, by simpa using hpos⟩
        rw [hout, hn]
        rfl
      have heq := hwhole _ hwrite
      rw [hsize] at hframe
      cases hframe
      exact absurd heq hlt.ne
  · intro hshort write hwrite
    obtain ⟨hwrite, hpos⟩ := List.mem_filter.1 hwrite
    obtain ⟨⟨e, out⟩, hmem, rfl⟩ := List.mem_filterMap.1 hwrite
    rcases hrecorded _ hmem with ⟨-, hnone⟩ | ⟨frame, hframe, hout, hle⟩
    · cases hnone
    · dsimp only at hout hframe hle
      obtain rfl := Option.some.inj hout
      have hpos : 0 < e.2.getD 0 := by simpa using hpos
      obtain ⟨n, hn⟩ : ∃ n, e.2 = some n := by
        cases hwritten : e.2 with
        | none =>
          rw [hwritten] at hpos
          cases hpos
        | some n => exact ⟨n, rfl⟩
      have hget : e.2.getD 0 = n := by rw [hn, Option.getD_some]
      by_contra hne
      refine hshort e (List.mem_map.2 ⟨_, hmem, rfl⟩) ⟨_, n, hframe, hn, hget ▸ hpos, ?_⟩
      exact hget ▸ Nat.lt_of_le_of_ne hle hne

/-- What one more call adds to the writes that accepted something. -/
theorem sent_snoc (tr : EmitHistory) (e : EmitCall × Written) (out : Option (List UInt8 × Nat)) :
    EmitHistory.sent (tr ++ [(e, out)]) =
      EmitHistory.sent tr ++ out.toList.filter fun write => 0 < write.2 := by
  unfold EmitHistory.sent
  rw [List.filterMap_append, List.filter_append]
  cases out <;> rfl

/-- If nothing new was accepted, the counter is to stay. -/
theorem EmitKept.same_iff {tr' : EmitHistory} {stats' : GnwStats} (h : EmitKept stats₀ tr stats)
    (hsent : EmitHistory.sent tr' = EmitHistory.sent tr) :
    EmitKept stats₀ tr' stats' ↔ stats'.bytesWritten = stats.bytesWritten := by
  have haccepted : EmitHistory.accepted tr' = EmitHistory.accepted tr := by
    unfold EmitHistory.accepted
    rw [hsent]
  rw [← UInt64.toNat_inj, h.counted, ← haccepted]
  refine ⟨EmitKept.counted, fun hcounted => ⟨?_, hcounted⟩⟩
  rw [hsent]
  exact h.framed

/-- If bytes of a frame were accepted, the frames before are to be whole, and the counter is
    to be as many further. -/
theorem EmitKept.more_iff {tr' : EmitHistory} {stats' : GnwStats} (h : EmitKept stats₀ tr stats)
    {frame : List UInt8} {n : Nat} (hn : n ≤ frame.length)
    (hsent : EmitHistory.sent tr' = EmitHistory.sent tr ++ [(frame, n)]) :
    EmitKept stats₀ tr' stats' ↔ (∀ write ∈ EmitHistory.sent tr, write.2 = write.1.length) ∧
      stats'.bytesWritten.toNat = stats.bytesWritten.toNat + n := by
  have haccepted : (EmitHistory.accepted tr').length = (EmitHistory.accepted tr).length + n := by
    unfold EmitHistory.accepted
    rw [hsent, List.map_append, List.flatten_append, List.length_append, List.map_singleton,
      List.flatten_singleton, List.length_take_of_le hn]
  have hle : (frame, n).2 ≤ (frame, n).1.length := hn
  rw [h.counted, Nat.add_assoc, ← haccepted, ← framed_snoc_iff hle, ← hsent]
  exact ⟨fun hkept => ⟨hkept.framed, hkept.counted⟩, fun hkept => ⟨hkept.1, hkept.2⟩⟩

/-- A call keeps what is to hold just if its write fits. -/
theorem EmitKept.snoc_iff {stats' : GnwStats} {e : EmitCall × Written}
    {out : Option (List UInt8 × Nat)}
    (hrun : Machine.Run EmitAllowed (emitCall order) stats₀ tr stats)
    (h : EmitKept stats₀ tr stats) (hallowed : EmitAllowed stats e)
    (hstep : emitCall order stats e = .ok (stats', out)) :
    EmitKept stats₀ (tr ++ [(e, out)]) stats' ↔
      WriteFits (tr.map Prod.fst) stats.bytesWritten.toNat e := by
  obtain ⟨call, written⟩ := e
  have hsent := sent_snoc tr (call, written) out
  rcases emitCall_ok hstep with ⟨hsize, rfl, hbytes⟩ | ⟨frame, hsize, rfl, hbytes⟩
  · refine iff_of_true ((h.same_iff (hsent.trans (List.append_nil _))).2 hbytes) fun size hsome => ?_
    rw [hsize] at hsome
    cases hsome
  · have hfits : WriteFits (tr.map Prod.fst) stats.bytesWritten.toNat (call, written) ↔
        ∃ n, written = some n ∧ stats.bytesWritten.toNat + n < 2 ^ 64 ∧
          (0 < n → ∀ e' ∈ tr.map Prod.fst, ¬EmitCall.Short e') := by
      constructor
      · intro hfits
        exact hfits _ hsize
      · intro hfits size hsome
        exact hfits
    rw [hfits]
    have hlt := stats.bytesWritten.toNat_lt
    cases written with
    | none =>
      rw [h.same_iff (hsent.trans (List.append_nil _)), hbytes, ← UInt64.toNat_inj,
        UInt64.toNat_add]
      have hminus : (Written.count none).toNat = 2 ^ 64 - 1 := rfl
      refine iff_of_false (fun hsame => ?_) fun ⟨n, hn, _⟩ => by cases hn
      simp only [hminus] at hsame
      omega
    | some n =>
      have hn : n ≤ frame.length := hallowed _ hsize
      have hcount : stats'.bytesWritten.toNat = (stats.bytesWritten.toNat + n) % 2 ^ 64 := by
        rw [hbytes, UInt64.toNat_add, Written.count, UInt64.toNat_ofNat', Nat.add_mod_mod]
      rcases Nat.eq_zero_or_pos n with rfl | hpos
      · rw [h.same_iff (hsent.trans (List.append_nil _))]
        refine iff_of_true ?_ ⟨0, rfl, hlt, fun hpos => absurd hpos (Nat.lt_irrefl 0)⟩
        rw [← UInt64.toNat_inj, hcount, Nat.add_zero, Nat.mod_eq_of_lt hlt]
      · have hfilter : (some (frame, n)).toList.filter (fun write => decide (0 < write.2)) =
            [(frame, n)] := List.filter_cons_of_pos (decide_eq_true hpos)
        rw [h.more_iff hn (hsent.trans (congrArg _ hfilter)),
          sent_whole_iff (recorded_of_run hrun), hcount]
        constructor
        · rintro ⟨hshort, hcounted⟩
          refine ⟨n, rfl, ?_, fun _ => hshort⟩
          rw [← hcounted]
          exact Nat.mod_lt _ (by decide)
        · rintro ⟨_, hsome, hroom, hshort⟩
          cases hsome
          exact ⟨hshort hpos, Nat.mod_eq_of_lt hroom⟩

/-- All along a sequence of calls on a descriptor, what has arrived there is made of whole
    frames and at most one part behind them, and is counted exactly, just if no write
    fails, the counter does not overflow, and no write that accepts something comes after
    a short one. -/
theorem emit_kept_iff (hrun : Machine.Run EmitAllowed (emitCall order) stats₀ tr stats) :
    (∀ tr₁ tr₂ stats₁, tr = tr₁ ++ tr₂ →
        Machine.Run EmitAllowed (emitCall order) stats₀ tr₁ stats₁ → EmitKept stats₀ tr₁ stats₁) ↔
      ∀ tr₁ e tr₂ stats₁, tr = tr₁ ++ e :: tr₂ →
        Machine.Run EmitAllowed (emitCall order) stats₀ tr₁ stats₁ →
          WriteFits (tr₁.map Prod.fst) stats₁.bytesWritten.toNat e.1 := by
  apply hrun.always_iff
  · exact ⟨⟨[], [], rfl, Nat.zero_le _, fun w hw => by cases hw⟩, rfl⟩
  · intro tr₁ e out tr₂ stats₁ stats₂ _ hrun₁ h hallowed hstep
    exact h.snoc_iff hrun₁ hallowed hstep

end Calls

/-- A packet of one byte from the address 5. -/
def byteCall (byte : UInt8) : EmitCall := .data 5 [byte] 1

def byteFrame (byte : UInt8) : List UInt8 := frameBytes .little GNW_DATA 5 [byte]

def zeroStats : GnwStats := ⟨0, 0, 0⟩

/-- A run of calls, each with what is to be seen of it. -/
theorem emit_run {tr : EmitHistory} {stats : GnwStats}
    (h : Machine.simulate EmitAllowed (emitCall .little) zeroStats (tr.map Prod.fst) =
      some (stats, tr)) :
    Machine.Run EmitAllowed (emitCall .little) zeroStats tr stats :=
  Machine.Run.of_simulate h

/-- A whole frame and a part of the next, behind which nothing is sent. -/
theorem emit_kept_short :
    ∃ tr stats, Machine.Run EmitAllowed (emitCall .little) zeroStats tr stats ∧
      EmitHistory.accepted tr = byteFrame 0x41 ++ (byteFrame 0x42).take 5 ∧
      ∀ tr₁ tr₂ stats₁, tr = tr₁ ++ tr₂ →
        Machine.Run EmitAllowed (emitCall .little) zeroStats tr₁ stats₁ →
          EmitKept zeroStats tr₁ stats₁ := by
  have hfirst : Machine.Run EmitAllowed (emitCall .little) zeroStats
      [((byteCall 0x41, some 12), some (byteFrame 0x41, 12))] ⟨12, 1, 0⟩ := emit_run rfl
  have hboth : Machine.Run EmitAllowed (emitCall .little) zeroStats
      [((byteCall 0x41, some 12), some (byteFrame 0x41, 12)),
        ((byteCall 0x42, some 5), some (byteFrame 0x42, 5))] ⟨17, 2, 0⟩ := emit_run rfl
  refine ⟨_, _, hboth, rfl, (emit_kept_iff hboth).2 ?_⟩
  intro tr₁ e tr₂ stats₁ htr hrun₁
  rcases tr₁ with _ | ⟨e₁, _ | ⟨e₂, tr₁⟩⟩
  · cases htr
    obtain rfl := hrun₁.unique .nil
    intro size hsize
    exact ⟨12, rfl, by decide, fun _ e' he' => by cases he'⟩
  · cases htr
    obtain rfl := hrun₁.unique hfirst
    intro size hsize
    refine ⟨5, rfl, by decide, fun _ e' he' hshort => ?_⟩
    obtain ⟨size', n, hsize', hn, -, hlt⟩ := hshort
    rw [List.mem_singleton.1 he'] at hsize' hn
    cases hsize'
    cases hn
    exact absurd hlt (by decide)
  · simp at htr

/-- The rest of a frame is not sent when the next one is, and a write that fails leaves the
    counter of a link at which nothing was written at `2 ^ 64 - 1`. -/
theorem emit_kept_fails :
    (∃ tr stats, Machine.Run EmitAllowed (emitCall .little) zeroStats tr stats ∧
      EmitHistory.accepted tr = (byteFrame 0x41).take 5 ++ byteFrame 0x42 ∧
      ¬EmitKept zeroStats tr stats) ∧
    ∃ tr stats, Machine.Run EmitAllowed (emitCall .little) zeroStats tr stats ∧
      EmitHistory.accepted tr = [] ∧ stats.bytesWritten = 0xFFFFFFFFFFFFFFFF ∧
      ¬EmitKept zeroStats tr stats := by
  have hshort : Machine.Run EmitAllowed (emitCall .little) zeroStats
      [((byteCall 0x41, some 5), some (byteFrame 0x41, 5)),
        ((byteCall 0x42, some 12), some (byteFrame 0x42, 12))] ⟨17, 2, 0⟩ := emit_run rfl
  have hfailed : Machine.Run EmitAllowed (emitCall .little) zeroStats
      [((byteCall 0x41, none), some (byteFrame 0x41, 0))] ⟨0xFFFFFFFFFFFFFFFF, 1, 0⟩ := emit_run rfl
  refine ⟨⟨_, _, hshort, rfl, fun hkept => ?_⟩, _, _, hfailed, rfl, rfl, fun hkept => ?_⟩
  · have hle : (byteFrame 0x42, 12).2 ≤ (byteFrame 0x42, 12).1.length := by decide
    have hframed : Framed ([(byteFrame 0x41, 5)] ++ [(byteFrame 0x42, 12)]) := hkept.framed
    have hwhole := (framed_snoc_iff hle).1 hframed
    exact absurd (hwhole _ (List.mem_singleton_self _)) (by decide)
  · exact absurd hkept.counted (by decide)
