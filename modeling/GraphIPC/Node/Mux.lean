-- SUMMARY: GraphWrap.c, applyMuxPolicy: under which address the outputs of the sinks are sent.
import GraphIPC.Node.Dispatch
import GraphIPC.Node.LocalStream

/-!
# The output multiplexer

In the mode `noop` the output of a sink is to be sent under the address of the sink, and
in the mode `merge` under that of the node. What is passed to `applyMuxPolicy` is the
address of the node in both, so a sink keeps its own only if the two are the same.
-/

section Quiet

variable {c : DispatchConfig}

/-- No packet comes of a read of `data` from a local descriptor: either nothing was read,
    or there is room for an MTU behind it and no delimiter behind the head of what is in
    the buffer then. -/
def Dispatch.Quiet (n : Dispatch c) (fd : Int) (data : List UInt8) : Prop :=
  data = [] ∨ ∀ b, n.inputBuffer.bufferFor fd = some b →
    b.bufferTail + data.length + c.networkMtu ≤ c.bufferSize ∧
      ∀ byte ∈ (b.window ++ data).tail, isDelimiter c.argDelimiter byte = false

/-- The sink `address` has its output at the descriptor `fd`. -/
def Dispatch.Output (n : Dispatch c) (address : UInt32) (fd : Int) : Prop :=
  ∃ context, n.node.sinks.sinkTable.lookup address = some context ∧ context.wrapStdout.read = fd

/-- What is to hold of the packets that a round sends. -/
structure SourcesRight (n : Dispatch c) (round : Round) : Prop where
  noop : c.muxMode = .noop → ∀ address fd, round.read = some fd → n.Output address fd →
    ∀ packet ∈ round.packets, ∃ payload, packet = frameBytes c.order GNW_DATA address payload
  merge : c.muxMode = .merge → ∀ packet ∈ round.packets,
    ∃ payload, packet = frameBytes c.order GNW_DATA n.node.argAddress payload

/-- The round reads from the output of no sink but one that has the address of the node,
    or it sends nothing. -/
def Dispatch.MuxFits (n : Dispatch c) (poll : Poll) : Prop :=
  c.muxMode = .merge ∨ ∀ index fd, n.select poll = some (index, fd) → fd ≠ c.routerFd →
    ∀ address, n.Output address fd → address = n.node.argAddress ∨ n.Quiet fd (poll.data index)

end Quiet

/-! ## What a read sends -/

section Read

variable {c : NodeConfig} {source : UInt32} {delimiter fd : Int} {gone : Bool} {data : List UInt8}
  {inputBuffer inputBuffer' : InputBuffer c} {read : LocalRead}

/-- A read without data, or to a null pointer, sends nothing; any other sends what was
    kept and read. -/
theorem handleLocalData_cases
    (h : handleLocalData c source delimiter fd gone data inputBuffer = .ok (inputBuffer', read)) :
    read.packets = [] ∧ (data = [] ∨ inputBuffer.bufferFor fd = none) ∨
      ∃ b b', data ≠ [] ∧ inputBuffer.bufferFor fd = some b ∧
        sendLocal c source delimiter b data = .ok (b', read.packets) := by
  simp only [handleLocalData] at h
  split at h
  · rename_i hbuffer
    refine .inl ⟨?_, .inr hbuffer⟩
    split at h <;> cases h <;> rfl
  rename_i b hbuffer
  split at h
  · rename_i hlength
    refine .inl ⟨?_, .inl (List.length_eq_zero_iff.1 (by omega))⟩
    split at h <;> cases h <;> rfl
  · rename_i hlength
    rw [Except.bind_eq_ok_iff] at h
    obtain ⟨⟨b', packets⟩, hsend, h⟩ := h
    cases h
    refine .inr ⟨b, b', ?_, hbuffer, hsend⟩
    rintro rfl
    exact hlength Nat.one_pos

/-- All that is sent is sent under one source. -/
theorem sendLocal_source {b b' : LocalBuffer c.bufferSize} {packets : List (List UInt8)}
    (h : sendLocal c source delimiter b data = .ok (b', packets)) :
    (∃ pieces : List (List UInt8), packets = pieces.map (frameBytes c.order GNW_DATA source)) ∧
      (packets = [] ↔ b.bufferTail + data.length + c.networkMtu ≤ c.bufferSize ∧
        ∀ byte ∈ (b.window ++ data).tail, isDelimiter delimiter byte = false) := by
  by_cases hroom : b.bufferTail + data.length + c.networkMtu ≤ c.bufferSize
  · obtain ⟨b'', hsend, -⟩ := sendLocal_eq_drain source delimiter hroom
    rw [h] at hsend
    cases hsend
    refine ⟨⟨_, rfl⟩, ?_⟩
    rw [List.map_eq_nil_iff, drain_cutReader_fst_eq_nil_iff]
    exact (and_iff_right hroom).symm
  · obtain ⟨-, piece, -, -, rfl⟩ := sendLocal_of_full hroom h
    refine ⟨⟨[piece], rfl⟩, fun hnil => ?_, fun hquiet => absurd hquiet.1 hroom⟩
    cases hnil

end Read

/-! ## What a round sends -/

section Rounds

variable {c : DispatchConfig} {n n' : Dispatch c} {poll : Poll} {round : Round}

/-- The packets of a round come from the local descriptor it reads from, all of them under
    one source, and there are none just if the read is a quiet one. -/
theorem dispatch_packets (hstep : dispatch n poll = .ok (n', round)) :
    (∃ pieces : List (List UInt8), round.packets = pieces.map
        (frameBytes c.order GNW_DATA (applyMuxPolicy c n.node.argAddress n.node.argAddress))) ∧
      ∀ fd, round.read = some fd → ∃ index, n.select poll = some (index, fd) ∧
        (fd = c.routerFd → round.packets = []) ∧
        (fd ≠ c.routerFd → (round.packets = [] ↔ n.Quiet fd (poll.data index))) := by
  unfold dispatch at hstep
  cases hselect : n.select poll with
  | none =>
    rw [hselect] at hstep
    cases hstep
    exact ⟨⟨[], rfl⟩, fun fd hread => by cases hread⟩
  | some slot =>
    obtain ⟨index, fd⟩ := slot
    rw [hselect] at hstep
    dsimp only at hstep
    split at hstep
    · rename_i hfd
      simp only [Dispatch.remoteData, Except.bind_eq_ok_iff] at hstep
      obtain ⟨⟨inputBuffer, node, received⟩, -, hstep⟩ := hstep
      have hround : round.read = some fd ∧ round.packets = [] := by
        cases received <;> cases hstep <;> exact ⟨rfl, rfl⟩
      refine ⟨⟨[], hround.2⟩, fun fd' hread => ?_⟩
      rw [hround.1] at hread
      cases hread
      exact ⟨index, rfl, fun _ => hround.2, fun hne => absurd hfd hne⟩
    · rename_i hfd
      simp only [Dispatch.localData, Except.bind_eq_ok_iff] at hstep
      obtain ⟨⟨inputBuffer, read⟩, hlocal, hstep⟩ := hstep
      have hround : round.read = some fd ∧ round.packets = read.packets := by
        cases read <;> cases hstep <;> exact ⟨rfl, rfl⟩
      have hsent : (∃ pieces : List (List UInt8), read.packets = pieces.map (frameBytes c.order
            GNW_DATA (applyMuxPolicy c n.node.argAddress n.node.argAddress))) ∧
          (read.packets = [] ↔ n.Quiet fd (poll.data index)) := by
        rcases handleLocalData_cases hlocal with ⟨hnil, hnothing⟩ | ⟨b, b', hdata, hb, hsend⟩
        · refine ⟨⟨[], hnil⟩, iff_of_true hnil ?_⟩
          rcases hnothing with hdata | hb
          · exact .inl hdata
          · refine .inr fun b hb' => ?_
            rw [hb] at hb'
            cases hb'
        · obtain ⟨hpieces, hquiet⟩ := sendLocal_source hsend
          refine ⟨hpieces, hquiet.trans ⟨fun hroom => .inr fun b₁ hb₁ => ?_, fun hq => ?_⟩⟩
          · rw [hb] at hb₁
            cases hb₁
            exact hroom
          · rcases hq with hnil | hq
            · exact absurd hnil hdata
            · exact hq b hb
      rw [hround.2]
      refine ⟨hsent.1, fun fd' hread => ?_⟩
      rw [hround.1] at hread
      cases hread
      exact ⟨index, rfl, fun heq => absurd heq hfd, fun _ => hsent.2⟩

/-- The sources of a round are right just if the condition holds. -/
theorem sourcesRight_iff (hstep : dispatch n poll = .ok (n', round)) :
    SourcesRight n round ↔ n.MuxFits poll := by
  obtain ⟨⟨pieces, hpackets⟩, hread⟩ := dispatch_packets hstep
  have hsource : ∀ packet ∈ round.packets, ∃ payload, packet = frameBytes c.order GNW_DATA
      (applyMuxPolicy c n.node.argAddress n.node.argAddress) payload := by
    intro packet hpacket
    rw [hpackets] at hpacket
    obtain ⟨piece, -, rfl⟩ := List.mem_map.1 hpacket
    exact ⟨piece, rfl⟩
  have hnode : applyMuxPolicy c n.node.argAddress n.node.argAddress = n.node.argAddress := by
    unfold applyMuxPolicy
    cases c.muxMode <;> rfl
  rw [hnode] at hsource
  constructor
  · intro hright
    cases hmode : c.muxMode with
    | merge => exact .inl hmode
    | noop =>
      refine .inr fun index fd hselect hfd address houtput => ?_
      obtain ⟨fd', hfd'⟩ := Dispatch.reads_iff.2 ⟨_, hselect⟩ n' round hstep
      obtain ⟨index', hselect', -, hquiet⟩ := hread fd' hfd'
      rw [hselect] at hselect'
      cases hselect'
      cases hpacket : round.packets with
      | nil => exact .inr ((hquiet hfd).1 hpacket)
      | cons packet packets =>
        have hmem : packet ∈ round.packets := by
          rw [hpacket]
          exact List.mem_cons_self
        obtain ⟨payload, rfl⟩ := hright.noop hmode address fd hfd' houtput packet hmem
        obtain ⟨payload', hsame⟩ := hsource _ hmem
        exact .inl (frameBytes_source_inj hsame)
  · intro hfits
    refine ⟨fun hmode address fd hfd houtput packet hpacket => ?_, fun _ => hsource⟩
    obtain ⟨index, hselect, hremote, hquiet⟩ := hread fd hfd
    have hlocal : fd ≠ c.routerFd := by
      intro heq
      rw [hremote heq] at hpacket
      cases hpacket
    rcases hfits with hmerge | hfits
    · rw [hmode] at hmerge
      cases hmerge
    rcases hfits index fd hselect hlocal address houtput with rfl | hq
    · exact hsource packet hpacket
    · rw [(hquiet hlocal).2 hq] at hpacket
      cases hpacket

end Rounds

/-! ## Runs -/

/-- What is to hold of the packets of a whole run. -/
structure MuxKept {c : DispatchConfig} (n₀ : Dispatch c) (tr : List (Poll × Round)) : Prop where
  sources : ∀ tr₁ e tr₂ n, tr = tr₁ ++ e :: tr₂ →
    Machine.Run Dispatch.Allowed dispatch n₀ tr₁ n → SourcesRight n e.2
  /-- The outputs of two sinks have no source in common. -/
  apart : c.muxMode = .noop → ∀ tr₁ e tr₂ n tr₁' e' tr₂' n',
    tr = tr₁ ++ e :: tr₂ → Machine.Run Dispatch.Allowed dispatch n₀ tr₁ n →
    tr = tr₁' ++ e' :: tr₂' → Machine.Run Dispatch.Allowed dispatch n₀ tr₁' n' →
    ∀ address fd address' fd', e.2.read = some fd → n.Output address fd →
      e'.2.read = some fd' → n'.Output address' fd' → address ≠ address' →
        ∀ source payload payload', frameBytes c.order GNW_DATA source payload ∈ e.2.packets →
          frameBytes c.order GNW_DATA source payload' ∉ e'.2.packets

/-- The packets of every run of a node have the sources they are to have just if none of
    its rounds in the mode `noop` sends anything for a sink whose address is not that of
    the node. -/
theorem mux_kept_iff {c : DispatchConfig} {n₀ n : Dispatch c} {tr : List (Poll × Round)}
    (hrun : Machine.Run Dispatch.Allowed dispatch n₀ tr n) :
    MuxKept n₀ tr ↔ ∀ tr₁ e tr₂ n₁, tr = tr₁ ++ e :: tr₂ →
      Machine.Run Dispatch.Allowed dispatch n₀ tr₁ n₁ → n₁.MuxFits e.1 := by
  have hsources := hrun.forall_steps_iff (P := fun n e => SourcesRight n e.2)
    (Q := fun n e => n.MuxFits e.1) fun tr₁ n₁ poll round n₂ _ _ hstep => sourcesRight_iff hstep
  rw [← hsources]
  refine ⟨MuxKept.sources, fun hright => ⟨hright, ?_⟩⟩
  intro hmode tr₁ e tr₂ n₁ tr₁' e' tr₂' n₁' htr h₁ htr' h₁' address fd address' fd' hfd houtput hfd'
    houtput' hne source payload payload' hmem hmem'
  obtain ⟨_, hsame⟩ := (hright tr₁ e tr₂ n₁ htr h₁).noop hmode address fd hfd houtput _ hmem
  obtain ⟨_, hsame'⟩ := (hright tr₁' e' tr₂' n₁' htr' h₁').noop hmode address' fd' hfd' houtput' _ hmem'
  exact hne ((frameBytes_source_inj hsame).symm.trans (frameBytes_source_inj hsame'))

/-- A node with the address 5 that starts sinks. -/
def sinkOptions : Options where
  argAddress := 5
  argImmediate := false
  inputs := 0
  opened := [0, 1, 2, 3]

def sinkNode (c : DispatchConfig) : Dispatch c where
  node :=
    { argAddress := 5, stdout := []
      sinks :=
        { sinkTable := ∅, streamFd := 3 :: List.replicate 255 IGNORE_FD, nextLocalAddress := 0
          opened := [0, 1, 2, 3], calls := 0, actions := [] } }
  inputBuffer := Table.empty
  status := false

/-- Data for the sinks 9 and 10. -/
def sinkPolls : List Poll :=
  [Poll.of [(0, frameBytes .little GNW_DATA 9 [0x58])],
    Poll.of [(0, frameBytes .little GNW_DATA 10 [0x59])]]

/-- Then each of them puts out a line. -/
def outputPolls : List Poll := [Poll.of [(1, [0x41, 0x0A])], Poll.of [(2, [0x42, 0x0A])]]

def mergeConfig : DispatchConfig := { dispatchConfig with muxMode := .merge }

theorem mux_kept_merge :
    ∃ tr n, Machine.Run Dispatch.Allowed dispatch (sinkNode mergeConfig) tr n ∧
      tr.map (fun e => e.2.packets) = [[], [], [frameBytes .little GNW_DATA 5 [0x41]],
        [frameBytes .little GNW_DATA 5 [0x42]]] ∧
      MuxKept (sinkNode mergeConfig) tr := by
  have hsim : ((Machine.simulate Dispatch.Allowed dispatch (sinkNode mergeConfig)
      (sinkPolls ++ outputPolls)).any fun r => decide (r.2.map (fun e => e.2.packets) =
        [[], [], [frameBytes .little GNW_DATA 5 [0x41]], [frameBytes .little GNW_DATA 5 [0x42]]])) =
          true := by
    decide +kernel
  obtain ⟨tr, n, hrun, hpackets⟩ := Machine.Run.exists_of_simulate hsim
  exact ⟨tr, n, hrun, of_decide_eq_true hpackets,
    (mux_kept_iff hrun).2 fun tr₁ e tr₂ n₁ _ _ => .inl rfl⟩

/-- In the mode `noop` the outputs of the sinks 9 and 10 are sent under the address 5. -/
theorem mux_kept_fails :
    (∃ started, sinkOptions.start dispatchConfig = .ok (sinkNode dispatchConfig, started)) ∧
      ∃ tr n, Machine.Run Dispatch.Allowed dispatch (sinkNode dispatchConfig) tr n ∧
        tr.map (fun e => e.2.packets) = [[], [], [frameBytes .little GNW_DATA 5 [0x41]],
          [frameBytes .little GNW_DATA 5 [0x42]]] ∧
        ¬MuxKept (sinkNode dispatchConfig) tr := by
  have hsim : ((Machine.simulate Dispatch.Allowed dispatch (sinkNode dispatchConfig) sinkPolls).any
      fun r => decide (r.2.map (fun e => e.2.packets) = [[], []] ∧
        (r.1.node.sinks.sinkTable.lookup 9).map (fun context => context.wrapStdout.read) = some 6) &&
        (Machine.simulate Dispatch.Allowed dispatch r.1 outputPolls).any fun r' =>
          decide (r'.2.map (fun e => (e.2.read, e.2.packets)) =
            [(some 6, [frameBytes .little GNW_DATA 5 [0x41]]),
              (some 8, [frameBytes .little GNW_DATA 5 [0x42]])])) = true := by
    decide +kernel
  obtain ⟨tr₁, n₁, hrun₁, h₁⟩ := Machine.Run.exists_of_simulate hsim
  obtain ⟨h₁, hsim₂⟩ := Bool.and_eq_true_iff.1 h₁
  obtain ⟨hstarted, houtput⟩ := of_decide_eq_true h₁
  obtain ⟨tr₂, n₂, hrun₂, h₂⟩ := Machine.Run.exists_of_simulate hsim₂
  obtain ⟨e, tr₃, rfl, hfirst, hrest⟩ := List.map_eq_cons_iff.1 (of_decide_eq_true h₂)
  obtain ⟨hread, hpackets⟩ := Prod.mk.inj hfirst
  refine ⟨⟨_, rfl⟩, tr₁ ++ e :: tr₃, n₂, hrun₁.append hrun₂, ?_, fun hkept => ?_⟩
  · have hlast := congrArg (List.map Prod.snd) hrest
    rw [List.map_map] at hlast
    rw [List.map_append, hstarted, List.map_cons, hpackets]
    exact congrArg (fun rest => [[], []] ++ [frameBytes .little GNW_DATA 5 [0x41]] :: rest) hlast
  · obtain ⟨context, hlookup, hfd⟩ := Option.map_eq_some_iff.1 houtput
    have hright := hkept.sources tr₁ e tr₃ n₁ rfl hrun₁
    have hmem : frameBytes .little GNW_DATA 5 [0x41] ∈ e.2.packets := by
      rw [hpackets]
      exact List.mem_singleton_self _
    obtain ⟨payload, hsame⟩ := hright.noop rfl 9 6 hread ⟨context, hlookup, hfd⟩ _ hmem
    exact absurd (frameBytes_source_inj hsame) (by decide)
