-- SUMMARY: GraphWrap.c, addNewWatch over whole runs: when there is a slot for each descriptor that a node starts to watch.
import GraphIPC.Node.Dispatch

/-!
# The slots of a node

`stream_fd` has a fixed number of slots. A node takes one for every `-i`, one for the
connection to the router and one for every sink that it starts, and how many sinks there
are is up to the senders of its packets. `addNewWatch` looks for a free slot and does not
stop at the last one.
-/

/-! ## Steps of a node -/

/-- The header of a packet from the router. -/
def Incoming.header : Incoming → Header
  | .data packet => packet.header
  | .reply _ => ⟨GNW_MAGIC, GNW_VERSION, GNW_REPLY, 0xFFFFFFFF, 5⟩

/-- Its payload. -/
def Incoming.payload (order : ByteOrder) : Incoming → List UInt8
  | .data packet => packet.payload
  | .reply address => claimBytes order address

section Steps

variable {c : DispatchConfig}

/-- One round of the loop of `main`, also of a node that prints its data. -/
def nodeStep (n : SinkNode c.toSinkConfig) :
    SinkEvent → Except Fault (SinkNode c.toSinkConfig × List SinkAction)
  | .receive i => do
    let node ← c.handlePacket i.header (i.payload c.order) n.node
    return ({ n with node := { node with sinks := { node.sinks with actions := [] } } },
      node.sinks.actions)
  | .hangUp index fd => sinkStep c.argDelimiter n (.hangUp index fd)

/-- A node that does not print takes the step of its sinks. -/
theorem nodeStep_eq_sinkStep (hecho : c.argEcho = false) (n : SinkNode c.toSinkConfig)
    (e : SinkEvent) : nodeStep n e = sinkStep c.argDelimiter n e := by
  cases e with
  | receive i =>
    cases i with
    | data packet =>
      simp only [nodeStep, sinkStep, receive, DispatchConfig.handlePacket, hecho, Incoming.header,
        Incoming.payload, bind_assoc, pure_bind]
    | reply address =>
      simp only [nodeStep, sinkStep, receive, DispatchConfig.handlePacket, hecho, Incoming.header,
        Incoming.payload, bind_assoc, pure_bind]
  | hangUp index fd => rfl

/-- Only a descriptor that is watched is found closed, and it is looked at if the node has
    an address. The connection to the router ends the loop. -/
def SinkNode.Allowed (n : SinkNode c.toSinkConfig) : SinkEvent → Prop
  | .receive _ => True
  | .hangUp index fd => n.node.sinks.streamFd[index]? = some fd ∧ fd ≠ IGNORE_FD ∧
      fd ≠ c.routerFd ∧ n.node.argAddress ≠ 0

instance SinkNode.decidableAllowed (n : SinkNode c.toSinkConfig) : (e : SinkEvent) →
    Decidable (n.Allowed e)
  | .receive _ => inferInstanceAs (Decidable True)
  | .hangUp _ _ => inferInstanceAs (Decidable (_ ∧ _))

end Steps

/-! ## Starting a sink -/

/-- The descriptors of a pipe can be watched. -/
def Kernel.Valid (kernel : Kernel) : Prop :=
  ∀ n opened pipe, kernel.pipe n opened = some pipe → 0 ≤ pipe.read ∧ 0 ≤ pipe.write

theorem Kernel.Fresh.valid {kernel : Kernel} (h : kernel.Fresh) : kernel.Valid := by
  intro n opened pipe hpipe
  obtain ⟨pipe', hpipe', hread, hwrite, -⟩ := h n opened
  rw [hpipe] at hpipe'
  cases hpipe'
  exact ⟨hread, hwrite⟩

/-- The pipes of a sink, if both can be made. -/
def Kernel.sinkPipes (kernel : Kernel) (calls : Nat) (opened : List Int) :
    Option (Pipe × Pipe) := do
  let wrapStdin ← kernel.pipe calls opened
  let wrapStdout ← kernel.pipe (calls + 1) (wrapStdin.read :: wrapStdin.write :: opened)
  return (wrapStdin, wrapStdout)

/-- What can become of an attempt to start a sink. -/
inductive SpawnOutcome (kernel : Kernel) (s : Sinks) : Except Fault Sinks → Prop where
  | exits {message : String} : kernel.sinkPipes s.calls s.opened = none →
      SpawnOutcome kernel s (.error (.exit message))
  | full : kernel.sinkPipes s.calls s.opened ≠ none → s.freeSlots = 0 →
      SpawnOutcome kernel s (.error .outOfBounds)
  | started {s' : Sinks} {address : UInt32} {context : SinkContext} :
      kernel.sinkPipes s.calls s.opened ≠ none → 0 ≤ context.wrapStdout.read →
      addNewWatch context.wrapStdout.read s.streamFd = .ok s'.streamFd →
      spawnedSinks s'.actions = spawnedSinks s.actions ++ [(address, context)] →
      SpawnOutcome kernel s (.ok s')

theorem autoSpawn_outcome {c : SinkConfig} (hkernel : c.kernel.Valid) (address : UInt32)
    (s : Sinks) : SpawnOutcome c.kernel s (autoSpawn c address s) := by
  cases hstdin : c.kernel.pipe s.calls s.opened with
  | none =>
    have hspawn : autoSpawn c address s =
        .error (.exit "Could not create wrapper for subprocess stdin") := by
      simp only [autoSpawn, openPipe, hstdin, Except.error_bind]
    rw [hspawn]
    exact .exits (by simp [Kernel.sinkPipes, hstdin])
  | some wrapStdin =>
    cases hstdout : c.kernel.pipe (s.calls + 1)
        (wrapStdin.read :: wrapStdin.write :: s.opened) with
    | none =>
      have hspawn : autoSpawn c address s =
          .error (.exit "Could not create wrapper for subprocess stdout") := by
        simp only [autoSpawn, openPipe, hstdin, hstdout, Except.ok_bind, Except.error_bind]
      rw [hspawn]
      exact .exits (by simp [Kernel.sinkPipes, hstdin, hstdout])
    | some wrapStdout =>
      have hpipes : c.kernel.sinkPipes s.calls s.opened ≠ none := by
        simp [Kernel.sinkPipes, hstdin, hstdout]
      obtain ⟨hread, -⟩ := hkernel _ _ _ hstdout
      by_cases hslot : IGNORE_FD ∈ s.streamFd
      · obtain ⟨streamFd, hwatch, -⟩ := addNewWatch_of_mem hslot hread
        let context : SinkContext :=
          { pid := c.kernel.fork (s.calls + 1 + 1), wrapStdin, wrapStdout
            packetsIn := 0, bytesIn := 0 }
        simp only [autoSpawn, openPipe, hstdin, hstdout, Except.ok_bind, Sinks.close, hwatch,
          Except.pure_eq_ok]
        have hspawned : spawnedSinks (s.actions ++ [.spawn address context]) =
            spawnedSinks s.actions ++ [(address, context)] := by
          simp [spawnedSinks]
        exact .started hpipes hread hwatch hspawned
      · have hspawn : autoSpawn c address s = .error .outOfBounds := by
          simp only [autoSpawn, openPipe, hstdin, hstdout, Except.ok_bind, Sinks.close,
            addNewWatch_of_not_mem hslot, Except.error_bind]
        rw [hspawn]
        exact .full hpipes (List.count_eq_zero.2 hslot)

/-- Nothing but the descriptors and the sinks that were started matters, before or after. -/
theorem SpawnOutcome.bind {kernel : Kernel} {s s₀ : Sinks} {r : Except Fault Sinks}
    (h : SpawnOutcome kernel s₀ r) (hstreams : s₀.streamFd = s.streamFd)
    (hopened : s₀.opened = s.opened) (hcalls : s₀.calls = s.calls)
    (hactions : spawnedSinks s₀.actions = spawnedSinks s.actions)
    {f : Sinks → Except Fault Sinks}
    (hf : ∀ s₁, r = .ok s₁ → ∃ s₂, f s₁ = .ok s₂ ∧ s₂.streamFd = s₁.streamFd ∧
      spawnedSinks s₂.actions = spawnedSinks s₁.actions) :
    SpawnOutcome kernel s (r >>= f) := by
  cases h with
  | exits hpipes =>
    rw [hopened, hcalls] at hpipes
    exact .exits hpipes
  | full hpipes hslots =>
    rw [hopened, hcalls] at hpipes
    rw [Sinks.freeSlots, hstreams] at hslots
    exact .full hpipes hslots
  | started hpipes hread hwatch hspawned =>
    obtain ⟨s₂, hs₂, hstreams₂, hactions₂⟩ := hf _ rfl
    rw [hopened, hcalls] at hpipes
    rw [hstreams, ← hstreams₂] at hwatch
    rw [hactions, ← hactions₂] at hspawned
    rw [Except.ok_bind, hs₂]
    exact .started hpipes hread hwatch hspawned

/-- A packet for an address without a sink. -/
theorem writeToSink_outcome {c : SinkConfig} (hkernel : c.kernel.Valid) {argAddress : UInt32}
    {packet : DataPacket} {s : Sinks}
    (hnone : s.sinkTable.lookup (c.demuxAddress argAddress packet.source) = none) :
    SpawnOutcome c.kernel s (writeToSink c argAddress packet.header packet.payload s) := by
  have happly : ∃ s₀ address, s₀.streamFd = s.streamFd ∧ s₀.opened = s.opened ∧
      s₀.calls = s.calls ∧ spawnedSinks s₀.actions = spawnedSinks s.actions ∧
      applyDeMuxPolicy c argAddress packet.source s =
        autoSpawn c address s₀ >>= fun s₁ => pure (s₁, address) := by
    unfold SinkConfig.demuxAddress at hnone
    by_cases hmode : c.demuxMode = .spawn
    · simp only [applyDeMuxPolicy, hnone, if_pos hmode, getNextLocalAddress_eq c argAddress s,
        Except.ok_bind]
      refine ⟨_, _, ?_, ?_, ?_, ?_, rfl⟩
      · rfl
      · rfl
      · rfl
      · simp [spawnedSinks]
    · simp only [applyDeMuxPolicy, hnone, if_neg hmode, Except.pure_eq_ok, Except.ok_bind]
      exact ⟨s, _, rfl, rfl, rfl, rfl, rfl⟩
  obtain ⟨s₀, address, hstreams, hopened, hcalls, hactions, happly⟩ := happly
  unfold writeToSink
  rw [packet.header_source, happly, bind_assoc]
  simp only [pure_bind]
  refine (autoSpawn_outcome hkernel address s₀).bind hstreams hopened hcalls hactions
    fun s₁ _ => ?_
  cases s₁.sinkTable.lookup address with
  | none => exact ⟨s₁, rfl, rfl, rfl⟩
  | some context =>
    dsimp only
    rw [if_pos (le_of_eq packet.header_length)]
    exact ⟨_, rfl, rfl, by simp [spawnedSinks]⟩

/-! ## What is watched -/

/-- The number of descriptors that are watched. -/
def watched (streamFd : List Int) : Nat := streamFd.countP fun slot => slot ≠ IGNORE_FD

/-- Every slot is free or watched. -/
theorem watched_add_free (streamFd : List Int) :
    watched streamFd + streamFd.count IGNORE_FD = streamFd.length := by
  rw [List.length_eq_countP_add_countP (fun slot => slot = IGNORE_FD), Nat.add_comm]
  simp [watched, List.count, beq_eq_decide]

theorem watched_set_ignore {streamFd : List Int} {index : Nat} {fd : Int}
    (hindex : streamFd[index]? = some fd) (hne : fd ≠ IGNORE_FD) :
    watched (streamFd.set index IGNORE_FD) = watched streamFd - 1 := by
  obtain ⟨hlt, hslot⟩ := List.getElem?_eq_some_iff.1 hindex
  unfold watched
  rw [List.countP_set hlt, hslot]
  simp [hne]

/-- The watched descriptors of a node between two steps: how many there are, and that the
    node has nothing left to report. -/
structure Watched (count : Nat) (s : Sinks) : Prop where
  length : s.streamFd.length = MAX_INPUT_STREAMS
  count : watched s.streamFd = count
  actions : s.actions = []

theorem Watched.freeSlots {count : Nat} {s : Sinks} (h : Watched count s) :
    count + s.freeSlots = MAX_INPUT_STREAMS := by
  rw [← h.count, ← h.length]
  exact watched_add_free s.streamFd

/-- A descriptor that is watched from now on takes one of the slots that were free. -/
theorem Watched.addNewWatch {count : Nat} {s : Sinks} (h : Watched count s) {fd : Int} (hfd : 0 ≤ fd)
    {streamFd : List Int} (hwatch : addNewWatch fd s.streamFd = .ok streamFd) :
    count < MAX_INPUT_STREAMS ∧ watched streamFd = count + 1 ∧
      streamFd.length = MAX_INPUT_STREAMS ∧ ∃ index, index < MAX_INPUT_STREAMS ∧
        s.streamFd[index]? = some IGNORE_FD ∧ streamFd = s.streamFd.set index fd := by
  obtain ⟨index, hfree, hset⟩ := addNewWatch_ok hwatch
  obtain ⟨streamFd', hwatch', hcount⟩ := addNewWatch_of_mem (List.mem_of_getElem? hfree) hfd
  rw [hwatch] at hwatch'
  cases hwatch'
  have hlength : streamFd.length = MAX_INPUT_STREAMS := by
    rw [hset, List.length_set, h.length]
  have hbefore := h.freeSlots
  have hafter := watched_add_free streamFd
  unfold Sinks.freeSlots at hbefore
  refine ⟨by omega, by omega, hlength, index, ?_, hfree, hset⟩
  rw [← h.length]
  exact (List.getElem?_eq_some_iff.1 hfree).1

/-- What becomes of the slots in a step: a descriptor that the node starts to watch is put
    into one that was free, one that it does not watch any more is taken out of its own,
    and all others stay. -/
inductive KeepsSlots (streamFd : List Int) : SinkEvent → List SinkAction → List Int → Prop where
  | kept {i : Incoming} {actions : List SinkAction} : spawnedSinks actions = [] →
      KeepsSlots streamFd (.receive i) actions streamFd
  | added {i : Incoming} {actions : List SinkAction} {address : UInt32} {context : SinkContext}
      {index : Nat} : spawnedSinks actions = [(address, context)] → index < MAX_INPUT_STREAMS →
      streamFd[index]? = some IGNORE_FD →
      KeepsSlots streamFd (.receive i) actions (streamFd.set index context.wrapStdout.read)
  | closed {index : Nat} {fd : Int} : streamFd[index]? = some fd →
      KeepsSlots streamFd (.hangUp index fd) [] (streamFd.set index IGNORE_FD)

/-- How many descriptors are watched after a step. -/
def watchedAfter (count : Nat) : SinkEvent × List SinkAction → Nat
  | (.receive _, actions) => count + (spawnedSinks actions).length
  | (.hangUp _ _, _) => count - 1

section Node

variable {c : DispatchConfig}

/-- An event is handled as it should be: the node goes on with its slots in order, which
    it also does if it refuses to start a sink, or it exits with a message. -/
def SinkNode.WatchesRightly (n : SinkNode c.toSinkConfig) (e : SinkEvent) : Prop :=
  (∃ n' actions, nodeStep n e = .ok (n', actions) ∧
    KeepsSlots n.node.sinks.streamFd e actions n'.node.sinks.streamFd) ∨
  ∃ message, nodeStep n e = .error (.exit message)

/-- The node does not print, and the packet is for an address without a sink. -/
def SinkNode.Unknown (n : SinkNode c.toSinkConfig) (packet : DataPacket) : Prop :=
  c.argEcho = false ∧
    n.node.sinks.sinkTable.lookup (c.demuxAddress n.node.argAddress packet.source) = none

/-- An event that makes a node start a sink. -/
def SinkNode.StartsSink (n : SinkNode c.toSinkConfig) : SinkEvent → Prop
  | .receive (.data packet) => n.Unknown packet ∧
      c.kernel.sinkPipes n.node.sinks.calls n.node.sinks.opened ≠ none
  | .receive (.reply _) => False
  | .hangUp _ _ => False

/-- Any other packet leaves the slots as they are. -/
theorem nodeStep_receive_of_known {n : SinkNode c.toSinkConfig}
    (hactions : n.node.sinks.actions = []) {i : Incoming}
    (hknown : ∀ packet, i = .data packet → ¬n.Unknown packet) :
    ∃ n' actions, nodeStep n (.receive i) = .ok (n', actions) ∧
      n'.node.sinks.streamFd = n.node.sinks.streamFd ∧ n'.node.sinks.actions = [] ∧
      spawnedSinks actions = [] := by
  have hnone : spawnedSinks n.node.sinks.actions = [] := by
    rw [hactions]
    rfl
  cases i with
  | reply address =>
    have hreply : nodeStep n (.receive (.reply address)) =
        sinkStep c.argDelimiter n (.receive (.reply address)) := by
      have hpacket : c.handlePacket (Incoming.reply address).header
          (Incoming.payload c.order (.reply address)) n.node =
          nodeHandlePacket (writeToSink c.toSinkConfig n.node.argAddress) c.order false
            ⟨GNW_MAGIC, GNW_VERSION, GNW_REPLY, 0xFFFFFFFF, 5⟩ (claimBytes c.order address)
            n.node := rfl
      simp only [nodeStep, sinkStep, receive, hpacket, bind_assoc, pure_bind]
    have hreceive := @receive_reply c.toSinkConfig n.node address
    rw [hreply, sinkStep, hreceive]
    exact ⟨_, _, rfl, rfl, rfl, hnone⟩
  | data packet =>
    by_cases hecho : c.argEcho = true
    · have hpacket : c.handlePacket packet.header packet.payload n.node = .ok { n.node with
          stdout := n.node.stdout ++ packet.payload.take packet.header.length.toNat } := by
        rw [DispatchConfig.handlePacket, nodeHandlePacket, if_pos packet.header_type,
          handleDataPacket, if_pos hecho]
        rfl
      simp only [nodeStep, Incoming.header, Incoming.payload, hpacket]
      exact ⟨_, _, rfl, rfl, rfl, hnone⟩
    · have hecho : c.argEcho = false := Bool.eq_false_iff.2 hecho
      obtain ⟨context, hlookup⟩ := Option.ne_none_iff_exists'.1 fun hlookup =>
        hknown packet rfl ⟨hecho, hlookup⟩
      have hreceive := receive_data (writeToSink_known packet.header_length hlookup)
      rw [nodeStep_eq_sinkStep hecho, sinkStep, hreceive]
      refine ⟨_, _, rfl, rfl, rfl, ?_⟩
      simp [Sinks.deliver, hactions, spawnedSinks]

/-- A packet for an address without a sink. -/
theorem nodeStep_receive_of_unknown (hkernel : c.kernel.Valid) {n : SinkNode c.toSinkConfig}
    {packet : DataPacket} (hunknown : n.Unknown packet) :
    ∃ r, SpawnOutcome c.kernel n.node.sinks r ∧ nodeStep n (.receive (.data packet)) =
      r >>= fun s => .ok ({ n with node := { n.node with sinks := { s with actions := [] } } },
        s.actions) := by
  obtain ⟨hecho, hnone⟩ := hunknown
  refine ⟨_, writeToSink_outcome hkernel hnone, ?_⟩
  rw [nodeStep_eq_sinkStep hecho, sinkStep]
  cases hwrite : writeToSink c.toSinkConfig n.node.argAddress packet.header packet.payload
      n.node.sinks with
  | error e =>
    rw [receive_data_error hwrite]
    rfl
  | ok s =>
    rw [receive_data hwrite]
    rfl

/-- A search that runs past the last slot is not right. -/
theorem SinkNode.not_watchesRightly {n : SinkNode c.toSinkConfig} {e : SinkEvent}
    (hstep : nodeStep n e = .error .outOfBounds) : ¬n.WatchesRightly e := by
  rintro (⟨n', actions, hok, -⟩ | ⟨message, hexit⟩)
  · rw [hstep] at hok
    cases hok
  · rw [hstep] at hexit
    cases hexit

/-- What can become of an event. -/
theorem Watched.outcome (hkernel : c.kernel.Valid) {n : SinkNode c.toSinkConfig} {count : Nat}
    (h : Watched count n.node.sinks) {e : SinkEvent} (hallowed : n.Allowed e) :
    (∃ n' actions, nodeStep n e = .ok (n', actions) ∧
        KeepsSlots n.node.sinks.streamFd e actions n'.node.sinks.streamFd ∧
        Watched (watchedAfter count (e, actions)) n'.node.sinks ∧
        (n.StartsSink e → count < MAX_INPUT_STREAMS)) ∨
      (¬n.StartsSink e ∧ ∃ message, nodeStep n e = .error (.exit message)) ∨
      n.StartsSink e ∧ count = MAX_INPUT_STREAMS ∧ nodeStep n e = .error .outOfBounds := by
  have hslots := h.freeSlots
  cases e with
  | hangUp index fd =>
    obtain ⟨hindex, hne, -, -⟩ := hallowed
    obtain ⟨inputBuffer, hstep⟩ := sinkStep_hangUp c.argDelimiter hindex
    refine .inl ⟨_, _, hstep, .closed hindex, ⟨?_, ?_, h.actions⟩, False.elim⟩
    · rw [List.length_set, h.length]
    · rw [watched_set_ignore hindex hne, h.count]
      rfl
  | receive i =>
    by_cases hknown : ∀ packet, i = .data packet → ¬n.Unknown packet
    · obtain ⟨n', actions, hstep, hstreams, hactions, hspawned⟩ :=
        nodeStep_receive_of_known h.actions hknown
      refine .inl ⟨n', actions, hstep, ?_, ⟨?_, ?_, hactions⟩, fun hstarts => ?_⟩
      · rw [hstreams]
        exact .kept hspawned
      · rw [hstreams, h.length]
      · rw [hstreams, h.count, watchedAfter, hspawned]
        rfl
      · cases i with
        | data packet => exact absurd hstarts.1 (hknown packet rfl)
        | reply address => exact hstarts.elim
    · push Not at hknown
      obtain ⟨packet, rfl, hunknown⟩ := hknown
      obtain ⟨r, houtcome, hstep⟩ := nodeStep_receive_of_unknown hkernel hunknown
      rw [hstep]
      cases houtcome with
      | exits hpipes => exact .inr (.inl ⟨fun hstarts => hstarts.2 hpipes, _, rfl⟩)
      | full hpipes hfull => exact .inr (.inr ⟨⟨hunknown, hpipes⟩, by omega, rfl⟩)
      | started hpipes hread hwatch hspawned =>
        have hspawned := hspawned.trans (congrArg (spawnedSinks · ++ _) h.actions)
        obtain ⟨hcount, hwatched, hlength, index, hlt, hfree, hset⟩ := h.addNewWatch hread hwatch
        refine .inl ⟨_, _, rfl, ?_, ⟨hlength, ?_, rfl⟩, fun _ => hcount⟩
        · dsimp only
          rw [hset]
          exact .added hspawned hlt hfree
        · rw [watchedAfter, hspawned]
          exact hwatched

/-- An event is handled as it should be just if there is a slot for the sink that it makes
    the node start. -/
theorem Watched.watchesRightly_iff (hkernel : c.kernel.Valid) {n : SinkNode c.toSinkConfig}
    {count : Nat} (h : Watched count n.node.sinks) {e : SinkEvent} (hallowed : n.Allowed e) :
    n.WatchesRightly e ↔ (n.StartsSink e → count < MAX_INPUT_STREAMS) := by
  rcases h.outcome hkernel hallowed with ⟨n', actions, hstep, hkeeps, -, hslot⟩ |
    ⟨hstarts, hexit⟩ | ⟨hstarts, hfull, hstep⟩
  · exact iff_of_true (.inl ⟨n', actions, hstep, hkeeps⟩) hslot
  · exact iff_of_true (.inr hexit) fun hstarts' => absurd hstarts' hstarts
  · refine iff_of_false (SinkNode.not_watchesRightly hstep) fun hslot => ?_
    have hlt := hslot hstarts
    omega

theorem Watched.step (hkernel : c.kernel.Valid) {n n' : SinkNode c.toSinkConfig} {count : Nat}
    (h : Watched count n.node.sinks) {e : SinkEvent} (hallowed : n.Allowed e)
    {actions : List SinkAction} (hstep : nodeStep n e = .ok (n', actions)) :
    Watched (watchedAfter count (e, actions)) n'.node.sinks := by
  rcases h.outcome hkernel hallowed with ⟨n'', actions', hok, -, hwatched, -⟩ |
    ⟨-, message, hexit⟩ | ⟨-, -, hbounds⟩
  · rw [hstep] at hok
    cases hok
    exact hwatched
  · rw [hstep] at hexit
    cases hexit
  · rw [hstep] at hbounds
    cases hbounds

theorem Watched.run (hkernel : c.kernel.Valid) {n₀ n : SinkNode c.toSinkConfig} {count : Nat}
    (h : Watched count n₀.node.sinks) {tr : List (SinkEvent × List SinkAction)}
    (hrun : Machine.Run SinkNode.Allowed nodeStep n₀ tr n) :
    Watched (tr.foldl watchedAfter count) n.node.sinks := by
  induction hrun with
  | nil => exact h
  | snoc hrun hallowed hstep ih =>
    rw [List.foldl_append]
    exact ih.step hkernel hallowed hstep

end Node

/-! ## Starting a node -/

/-- The request for an address is always sent. -/
theorem Options.request_ok (o : Options) (order : ByteOrder) :
    ∃ frame, o.request order = .ok frame := by
  unfold Options.request
  split
  · exact ⟨_, gnwEmitCommandPacket_eq order GNW_COMMAND [GNW_CMD_NEW_ADDRESS]⟩
  · exact ⟨_, gnwEmitCommandPacket_claimBytes order o.argAddress⟩

/-- The sinks of a node before the first of them. -/
def Options.sinks (o : Options) (routerFd : Int) : Sinks where
  sinkTable := ∅
  streamFd := List.replicate o.inputs STDIN_FILENO ++
    routerFd :: List.replicate (MAX_INPUT_STREAMS - (o.inputs + 1)) IGNORE_FD
  nextLocalAddress := 0
  opened := o.opened
  calls := 0
  actions := []

section Start

variable {c : DispatchConfig}

/-- What a node watches when it enters the loop. -/
def Options.initial (o : Options) (c : DispatchConfig) (started : List SinkAction) : List Int :=
  List.replicate o.inputs STDIN_FILENO ++
    c.routerFd :: (spawnedSinks started).map fun sink => sink.2.wrapStdout.read

/-- A node enters the loop with each of its descriptors in a slot of its own, or exits with
    a message. -/
def Options.StartsRightly (o : Options) (c : DispatchConfig) : Prop :=
  (∃ n₀ started free, o.start c = .ok (n₀, started) ∧
    n₀.node.sinks.streamFd = o.initial c started ++ List.replicate free IGNORE_FD ∧
    n₀.node.sinks.streamFd.length = MAX_INPUT_STREAMS) ∨
  ∃ message, o.start c = .error (.exit message)

/-- There are enough slots for the start. -/
def Options.Fits (o : Options) (c : DispatchConfig) : Prop :=
  o.inputs + 1 ≤ MAX_INPUT_STREAMS ∧
    (o.argImmediate = true → c.kernel.sinkPipes 0 o.opened ≠ none →
      o.inputs + 1 < MAX_INPUT_STREAMS)

/-- How many descriptors are watched after a history. -/
def Options.watchedIn (o : Options) (started : List SinkAction)
    (tr : List (SinkEvent × List SinkAction)) : Nat :=
  tr.foldl watchedAfter (o.inputs + 1 + (spawnedSinks started).length)

variable (hrouter : c.routerFd ≠ IGNORE_FD)
include hrouter

/-- The start up to the first sink. -/
theorem Options.start_eq (o : Options) :
    ∃ frame, o.start c =
      if o.inputs + 1 ≤ MAX_INPUT_STREAMS then
        (if o.argImmediate = true then
          autoSpawn c.toSinkConfig o.argAddress (o.sinks c.routerFd)
        else .ok (o.sinks c.routerFd)) >>= fun s =>
          .ok (⟨⟨⟨o.argAddress, [], { s with actions := [] }⟩, Table.empty⟩, false⟩,
            .request frame :: s.actions)
      else .error .outOfBounds := by
  obtain ⟨frame, hframe⟩ := o.request_ok c.order
  refine ⟨frame, ?_⟩
  rw [Options.start, o.streamFd_eq hrouter]
  split
  · rw [hframe]
    simp only [Except.ok_bind, assertThat, Bool.false_and, Bool.false_eq_true, if_false,
      SinkStart.node]
    split
    · simp only [bind_assoc, Except.pure_eq_ok]
      rfl
    · rfl
  · rfl

/-- Only the slots behind those are free. -/
theorem Options.not_mem_initial (o : Options) :
    IGNORE_FD ∉ List.replicate o.inputs STDIN_FILENO ++ [c.routerFd] := by
  rw [List.mem_append, List.mem_singleton, not_or]
  exact ⟨fun hmem => absurd (List.eq_of_mem_replicate hmem) (by decide), hrouter.symm⟩

theorem Options.sinks_watched {o : Options} (hfits : o.inputs + 1 ≤ MAX_INPUT_STREAMS) :
    Watched (o.inputs + 1) (o.sinks c.routerFd) := by
  have hlength : (o.sinks c.routerFd).streamFd.length = MAX_INPUT_STREAMS := by
    simp only [Options.sinks, List.length_append, List.length_cons, List.length_replicate]
    omega
  have hfree : (o.sinks c.routerFd).streamFd.count IGNORE_FD =
      MAX_INPUT_STREAMS - (o.inputs + 1) := by
    rw [Options.sinks, List.append_cons, List.count_append,
      List.count_eq_zero_of_not_mem (o.not_mem_initial hrouter), List.count_replicate_self,
      Nat.zero_add]
  have hslots := watched_add_free (o.sinks c.routerFd).streamFd
  exact ⟨hlength, by omega, rfl⟩

/-- The first sink gets the slot behind the connection to the router. -/
theorem Options.addNewWatch_sinks {o : Options} {fd : Int} {streamFd : List Int}
    (h : addNewWatch fd (o.sinks c.routerFd).streamFd = .ok streamFd) :
    ∃ free, streamFd = List.replicate o.inputs STDIN_FILENO ++
      c.routerFd :: fd :: List.replicate free IGNORE_FD := by
  rw [Options.sinks, List.append_cons] at h
  cases hfree : MAX_INPUT_STREAMS - (o.inputs + 1) with
  | zero =>
    rw [hfree, List.replicate_zero, List.append_nil,
      addNewWatch_of_not_mem (o.not_mem_initial hrouter)] at h
    cases h
  | succ free =>
    rw [hfree, List.replicate_succ, addNewWatch_append (o.not_mem_initial hrouter)] at h
    cases h
    exact ⟨free, by rw [← List.append_cons]⟩

/-- What can become of the start. -/
theorem Options.start_outcome (hkernel : c.kernel.Valid) (o : Options) :
    (o.Fits c ∧ ∃ n₀ started free, o.start c = .ok (n₀, started) ∧
        n₀.node.sinks.streamFd = o.initial c started ++ List.replicate free IGNORE_FD ∧
        Watched (o.watchedIn started []) n₀.node.sinks) ∨
      (o.Fits c ∧ ∃ message, o.start c = .error (.exit message)) ∨
      ¬o.Fits c ∧ o.start c = .error .outOfBounds := by
  obtain ⟨frame, hstart⟩ := o.start_eq hrouter
  rw [hstart]
  by_cases hfits : o.inputs + 1 ≤ MAX_INPUT_STREAMS
  case neg => exact .inr (.inr ⟨fun h => hfits h.1, if_neg hfits⟩)
  have hwatched := o.sinks_watched hrouter hfits
  rw [if_pos hfits]
  by_cases himmediate : o.argImmediate = true
  case neg =>
    rw [if_neg himmediate]
    refine .inl ⟨⟨hfits, fun h => absurd h himmediate⟩, _, _,
      MAX_INPUT_STREAMS - (o.inputs + 1), rfl, ?_, hwatched⟩
    simp [Options.initial, Options.sinks, spawnedSinks]
  have houtcome := autoSpawn_outcome hkernel o.argAddress (o.sinks c.routerFd)
  have hslots := hwatched.freeSlots
  rw [if_pos himmediate]
  generalize autoSpawn c.toSinkConfig o.argAddress (o.sinks c.routerFd) = r at houtcome
  cases houtcome with
  | exits hpipes => exact .inr (.inl ⟨⟨hfits, fun _ h => absurd hpipes h⟩, _, rfl⟩)
  | full hpipes hfull =>
    refine .inr (.inr ⟨fun h => ?_, rfl⟩)
    have hlt := h.2 himmediate hpipes
    omega
  | @started s' address context hpipes hread hwatch hspawned =>
    obtain ⟨hcount, hafter, hlength, -⟩ := hwatched.addNewWatch hread hwatch
    obtain ⟨free, hstreams⟩ := o.addNewWatch_sinks hrouter hwatch
    have hstarted : spawnedSinks (.request frame :: s'.actions) = [(address, context)] := hspawned
    refine .inl ⟨⟨hfits, fun _ _ => hcount⟩, _, _, free, rfl, ?_, hlength, ?_, rfl⟩
    · rw [Options.initial, hstarted, hstreams]
      simp
    · rw [Options.watchedIn, hstarted, List.foldl_nil]
      exact hafter

/-- A node is started as it should be just if its descriptors fit. -/
theorem Options.startsRightly_iff (hkernel : c.kernel.Valid) (o : Options) :
    o.StartsRightly c ↔ o.Fits c := by
  rcases o.start_outcome hrouter hkernel with
    ⟨hfits, n₀, started, free, hstart, hstreams, hwatched⟩ | ⟨hfits, hexit⟩ | ⟨hfits, hstart⟩
  · exact iff_of_true (.inl ⟨n₀, started, free, hstart, hstreams, hwatched.length⟩) hfits
  · exact iff_of_true (.inr hexit) hfits
  · refine iff_of_false ?_ hfits
    rintro (⟨n₀, started, free, hok, -⟩ | ⟨message, hexit⟩)
    · rw [hstart] at hok
      cases hok
    · rw [hstart] at hexit
      cases hexit

theorem Options.start_watched (hkernel : c.kernel.Valid) {o : Options} {n₀ : Dispatch c}
    {started : List SinkAction} (hstart : o.start c = .ok (n₀, started)) :
    Watched (o.watchedIn started []) n₀.node.sinks := by
  rcases o.start_outcome hrouter hkernel with
    ⟨-, n₀', started', -, hok, -, hwatched⟩ | ⟨-, message, hexit⟩ | ⟨-, hbounds⟩
  · rw [hstart] at hok
    cases hok
    exact hwatched
  · rw [hstart] at hexit
    cases hexit
  · rw [hstart] at hbounds
    cases hbounds

end Start

/-- A node is started as it should be just if the slots suffice for what it watches then,
    and at every moment of every run it handles the next event as it should just if that
    starts no sink or fewer than 256 descriptors are watched: those of the start and the
    outputs of the sinks that were started since, without those that were closed. -/
theorem new_watch_iff {c : DispatchConfig} (hkernel : c.kernel.Valid)
    (hrouter : c.routerFd ≠ IGNORE_FD) (o : Options) :
    (o.StartsRightly c ↔ o.Fits c) ∧
      ∀ n₀ started, o.start c = .ok (n₀, started) →
        ∀ tr n, Machine.Run SinkNode.Allowed nodeStep n₀.toSinkNode tr n →
          watched n.node.sinks.streamFd = o.watchedIn started tr ∧
          ∀ e, n.Allowed e → (n.WatchesRightly e ↔
            (n.StartsSink e → o.watchedIn started tr < MAX_INPUT_STREAMS)) := by
  refine ⟨o.startsRightly_iff hrouter hkernel, fun n₀ started hstart tr n hrun => ?_⟩
  have hwatched := (Options.start_watched hrouter hkernel hstart).run hkernel hrun
  exact ⟨hwatched.count, fun e hallowed => hwatched.watchesRightly_iff hkernel hallowed⟩

/-- A node with one `-i` enters the loop, and the first packet starts a sink. -/
theorem new_watch_first :
    inputOptions.StartsRightly dispatchConfig ∧
      inputNode.toSinkNode.WatchesRightly (.receive (byteFrom 1)) := by
  have hiff := new_watch_iff lowestKernel_fresh.valid (c := dispatchConfig) (by decide) inputOptions
  refine ⟨hiff.1.2 ⟨by decide, by decide⟩, ?_⟩
  have hrun := hiff.2 _ _ inputOptions_start [] _ .nil
  exact (hrun.2 (.receive (byteFrom 1)) trivial).2 fun _ => by decide

/-! ## A packet from each of 256 sources -/

/-- A packet for an address without a sink, when there is a slot for one. -/
theorem Watched.newSink {c : DispatchConfig} (hkernel : c.kernel.Fresh)
    (hmode : c.demuxMode = .noop) {n : SinkNode c.toSinkConfig} {count : Nat}
    (h : Watched count n.node.sinks)
    (hcount : count < MAX_INPUT_STREAMS) {packet : DataPacket} (hunknown : n.Unknown packet) :
    ∃ n' actions, nodeStep n (.receive (.data packet)) = .ok (n', actions) ∧
      (spawnedSinks actions).length = 1 ∧
      ∀ address, address ≠ packet.source →
        n'.node.sinks.sinkTable.lookup address = n.node.sinks.sinkTable.lookup address := by
  obtain ⟨hecho, hnone⟩ := hunknown
  have haddress : c.demuxAddress n.node.argAddress packet.header.source = packet.source := by
    rw [SinkConfig.demuxAddress, hmode, packet.header_source]
    rfl
  have hslots := h.freeSlots
  obtain ⟨s', context, hspawned, hwrite⟩ := writeToSink_new hkernel hnone packet.header_length
    (by rw [hmode]; decide) (by omega)
  rw [haddress] at hspawned hwrite
  refine ⟨_, _, by rw [nodeStep_eq_sinkStep hecho, sinkStep, receive_data hwrite]; rfl, ?_,
    fun address hne => ?_⟩
  · simp [Sinks.deliver, hspawned.actions, h.actions, spawnedSinks]
  · refine (AList.lookup_insert_ne hne).trans ?_
    rw [hspawned.sinkTable]
    exact AList.lookup_insert_ne hne

/-- A node that was given an address. -/
def sourceOptions : Options where
  argAddress := 0x7000
  argImmediate := false
  inputs := 0
  opened := [0, 1, 2, 3]

def sourceNode : Dispatch dispatchConfig where
  node := ⟨0x7000, [], sourceOptions.sinks 3⟩
  inputBuffer := Table.empty
  status := false

/-- It receives packets from the sources 1, 2 and so on. -/
theorem exists_run_of_sources {sources : Nat} (h : sources < MAX_INPUT_STREAMS) :
    ∃ tr n, Machine.Run SinkNode.Allowed nodeStep sourceNode.toSinkNode tr n ∧
      tr.map Prod.fst =
        (List.range sources).map (fun k => .receive (byteFrom (UInt32.ofNat (k + 1)))) ∧
      Watched (sources + 1) n.node.sinks ∧
      ∀ source : UInt32, sources < source.toNat →
        n.node.sinks.sinkTable.lookup source = none := by
  induction sources with
  | zero =>
    have hrouter : dispatchConfig.routerFd ≠ IGNORE_FD := by decide
    exact ⟨[], _, .nil, rfl, sourceOptions.sinks_watched hrouter (by decide), fun _ _ => rfl⟩
  | succ sources ih =>
    obtain ⟨tr, n, hrun, htr, hwatched, hlookup⟩ := ih (by omega)
    let packet : DataPacket := ⟨UInt32.ofNat (sources + 1), [0x41], by decide⟩
    have hsource : packet.source.toNat = sources + 1 :=
      UInt32.toNat_ofNat_of_lt' (Nat.lt_trans h (by decide))
    have hunknown : n.Unknown packet := ⟨rfl, hlookup packet.source (by omega)⟩
    obtain ⟨n', actions, hstep, hspawned, hother⟩ :=
      hwatched.newSink lowestKernel_fresh rfl h hunknown
    have hallowed : n.Allowed (.receive (.data packet)) := trivial
    refine ⟨_, n', hrun.snoc hallowed hstep, ?_, ?_, fun source hlt => ?_⟩
    · rw [List.map_append, htr, List.range_succ, List.map_append]
      rfl
    · have hafter := hwatched.step lowestKernel_fresh.valid hallowed hstep
      rwa [watchedAfter, hspawned] at hafter
    · rw [hother source fun heq => by rw [heq] at hlt; omega]
      exact hlookup source (by omega)

/-- With packets from 255 sources every slot is taken, and the packet from the next one
    makes the search run past the last. -/
theorem new_watch_fails :
    (∃ started, sourceOptions.start dispatchConfig = .ok (sourceNode, started)) ∧
      ∃ tr n, Machine.Run SinkNode.Allowed nodeStep sourceNode.toSinkNode tr n ∧
        tr.map Prod.fst =
          (List.range 255).map (fun k => .receive (byteFrom (UInt32.ofNat (k + 1)))) ∧
        nodeStep n (.receive (byteFrom 256)) = .error .outOfBounds ∧
        ¬n.WatchesRightly (.receive (byteFrom 256)) := by
  obtain ⟨tr, n, hrun, htr, hwatched, hlookup⟩ := exists_run_of_sources (by decide : 255 < _)
  refine ⟨⟨_, rfl⟩, tr, n, hrun, htr, ?_⟩
  let packet : DataPacket := ⟨256, [0x41], by decide⟩
  have hfull : n.node.sinks.freeSlots = 0 := Nat.add_left_cancel hwatched.freeSlots
  have hwrite : writeToSink dispatchConfig.toSinkConfig n.node.argAddress packet.header
      packet.payload n.node.sinks = .error .outOfBounds :=
    writeToSink_full lowestKernel_fresh (hlookup 256 (by decide)) hfull
  have hstep : nodeStep n (.receive (byteFrom 256)) = .error .outOfBounds := by
    rw [nodeStep_eq_sinkStep rfl, sinkStep, byteFrom, receive_data_error hwrite]
    rfl
  exact ⟨hstep, SinkNode.not_watchesRightly hstep⟩
