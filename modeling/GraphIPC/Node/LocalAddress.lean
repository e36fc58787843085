-- SUMMARY: GraphWrap.c, getNextLocalAddress: when the address for a new process is one that nobody has.
import GraphIPC.Base.Word
import GraphIPC.Node.Demux

/-!
# Local addresses

In the mode `spawn` every call of `getNextLocalAddress` counts one further under the
local mask and takes the other bits from the address of the node. The count starts
again when it has gone through the mask, and no call looks at the table of sinks, so
what an address is worth depends on the numbers of the calls that the running sinks
were started by.
-/

/-- A process that was started: the number of the call that its address came from, what
    the address of the node was then, and its output. -/
structure LocalSink where
  call : Nat
  argAddress : UInt32
  stdout : Int
  deriving DecidableEq, Repr

/-- Two calls that return the same address: they count the same under the mask, and the
    node had the same block of addresses. -/
def LocalSink.Shares (mask : UInt32) (sink : LocalSink) (call : Nat) (argAddress : UInt32) : Prop :=
  sink.call % (mask.toNat + 1) = call % (mask.toNat + 1) ∧
    sink.argAddress &&& ~~~mask = argAddress &&& ~~~mask

instance LocalSink.decidableShares (mask : UInt32) (sink : LocalSink) (call : Nat)
    (argAddress : UInt32) : Decidable (sink.Shares mask call argAddress) :=
  inferInstanceAs (Decidable (_ ∧ _))

/-- The address of a node, the number of calls so far, and the sinks that are running. -/
structure LocalSinks where
  argAddress : UInt32
  calls : Nat
  running : List LocalSink

/-- A sink is started by the next call. One with the same address is forgotten. -/
def LocalSinks.spawn (mask : UInt32) (t : LocalSinks) (stdout : Int) : LocalSinks :=
  { t with
    calls := t.calls + 1
    running := (t.running.filter fun sink => ¬sink.Shares mask (t.calls + 1) t.argAddress) ++
      [⟨t.calls + 1, t.argAddress, stdout⟩] }

/-- What a step makes of the running sinks. -/
def LocalSinks.after (mask : UInt32) (t : LocalSinks) : SinkEvent × List SinkAction → LocalSinks
  | (.receive (.data _), actions) =>
    (spawnedSinks actions).foldl (fun t spawned => t.spawn mask spawned.2.wrapStdout.read) t
  | (.receive (.reply address), _) =>
    { t with argAddress := if t.argAddress = 0 then address else t.argAddress }
  | (.hangUp _ fd, _) => { t with running := t.running.filter fun sink => sink.stdout ≠ fd }

/-- The sinks of a node that was started with `started`. The one of `--immediate` has
    the address of the node itself, as if it were the call of this number. -/
def SinkStart.localSinks (start : SinkStart) (started : List SinkAction) : LocalSinks where
  argAddress := start.argAddress
  calls := 0
  running := (spawnedSinks started).map fun spawned =>
    ⟨start.argAddress.toNat, start.argAddress, spawned.2.wrapStdout.read⟩

/-- The running sinks after a history. -/
def localSinks (mask : UInt32) (start : SinkStart) (started : List SinkAction)
    (tr : List (SinkEvent × List SinkAction)) : LocalSinks :=
  tr.foldl (LocalSinks.after mask) (start.localSinks started)

/-- The next call counts neither to the address of the node nor to that of a sink. -/
structure LocalSinks.NextFree (mask : UInt32) (t : LocalSinks) : Prop where
  own : (t.calls + 1) % (mask.toNat + 1) ≠ t.argAddress.toNat % (mask.toNat + 1)
  running : ∀ sink ∈ t.running, ¬sink.Shares mask (t.calls + 1) t.argAddress

/-- What is to hold of an address that the next call returns, when it leaves the sinks
    `s` behind. -/
structure AddressFree (c : SinkConfig) (n : NodeState Sinks) (s : Sinks) (address : UInt32) :
    Prop where
  block : address &&& ~~~c.gnwLocalMask = n.argAddress &&& ~~~c.gnwLocalMask
  own : address ≠ n.argAddress
  sinks : ∀ key context, n.sinks.sinkTable.lookup key = some context → address ≠ key
  /-- `autoSpawn` overwrites no context. -/
  kept : ∀ s', autoSpawn c address s = .ok s' → ∀ key context,
    n.sinks.sinkTable.lookup key = some context → s'.sinkTable.lookup key = some context

/-! ## The addresses -/

/-- The address that a sink was started under. -/
def LocalSink.address (c : SinkConfig) (sink : LocalSink) : UInt32 :=
  c.localAddress sink.argAddress (UInt32.ofNat sink.call)

section Addresses

variable {c : SinkConfig}

/-- What is not under the mask is not counted. -/
theorem SinkConfig.localAddress_and (c : SinkConfig) (argAddress next : UInt32) :
    c.localAddress argAddress (next &&& c.gnwLocalMask) = c.localAddress argAddress next := by
  unfold localAddress
  rw [UInt32.and_assoc, UInt32.and_self]

/-- The address of a node is the local address of this number. -/
theorem SinkConfig.localAddress_self (c : SinkConfig) (argAddress : UInt32) :
    c.localAddress argAddress (UInt32.ofNat argAddress.toNat) = argAddress := by
  rw [UInt32.ofNat_toNat]
  exact UInt32.masked_self c.gnwLocalMask argAddress

variable (hmask : c.gnwLocalMask.LowBits)
include hmask

theorem SinkConfig.localAddress_eq_iff {call call' : Nat} {argAddress argAddress' : UInt32} :
    c.localAddress argAddress (UInt32.ofNat call) = c.localAddress argAddress' (UInt32.ofNat call') ↔
      call % (c.gnwLocalMask.toNat + 1) = call' % (c.gnwLocalMask.toNat + 1) ∧
        argAddress &&& ~~~c.gnwLocalMask = argAddress' &&& ~~~c.gnwLocalMask := by
  unfold localAddress
  rw [UInt32.masked_eq_iff, hmask.ofNat_and_eq_iff]

theorem LocalSink.shares_iff {sink : LocalSink} {call : Nat} {argAddress : UInt32} :
    sink.Shares c.gnwLocalMask call argAddress ↔
      sink.address c = c.localAddress argAddress (UInt32.ofNat call) :=
  (SinkConfig.localAddress_eq_iff hmask).symm

end Addresses

/-! ## Following the sinks -/

/-- The entry of an address is dropped. -/
theorem TableHolds.drop {live : List LiveSink} {s : Sinks} (h : TableHolds live s)
    (address : UInt32) :
    TableHolds (live.filter fun sink => sink.address ≠ address)
      { s with sinkTable := s.sinkTable.erase address } := by
  have hsub : (live.filter fun sink => sink.address ≠ address).Sublist live := List.filter_sublist
  have hmem : ∀ sink ∈ live.filter fun sink => sink.address ≠ address,
      sink ∈ live ∧ sink.address ≠ address := by
    intro sink hsink
    simpa using hsink
  refine ⟨h.addresses.sublist (hsub.map _), h.stdins.sublist (hsub.map _),
    h.stdouts.sublist (hsub.map _), fun sink hsink => h.opened sink (hmem sink hsink).1,
    fun sink hsink => ?_, fun key context hsome => ?_,
    fun sink hsink => h.written sink (hmem sink hsink).1⟩
  · rw [AList.lookup_erase_ne (hmem sink hsink).2]
    exact h.listed sink (hmem sink hsink).1
  · have hne : key ≠ address := by
      rintro rfl
      rw [AList.lookup_erase] at hsome
      cases hsome
    rw [AList.lookup_erase_ne hne] at hsome
    obtain ⟨sink, hsink, rfl⟩ := h.known key context hsome
    exact ⟨sink, List.mem_filter.2 ⟨hsink, by simpa using hne⟩, rfl⟩

/-- A sink that is started under the address of another takes its entry. -/
theorem TableHolds.respawn {live : List LiveSink} {s s' : Sinks} {address : UInt32}
    {context : SinkContext} (h : TableHolds live s) (hspawned : Spawned address s s' context) :
    TableHolds ((live.filter fun sink => sink.address ≠ address) ++
      [LiveSink.new (address, context)]) s' := by
  have hinsert : s.sinkTable.insert address context =
      (s.sinkTable.erase address).insert address context := by
    apply AList.ext
    rw [AList.entries_insert, AList.entries_insert]
    have hgone := List.notMem_keys_kerase address s.sinkTable.nodupKeys
    exact congrArg _ (List.kerase_of_notMem_keys hgone).symm
  exact (h.drop address).spawn { hspawned with sinkTable := hspawned.sinkTable.trans hinsert }
    (AList.lookup_erase ..)

/-- The sinks of a node, and the calls that their addresses came from. -/
structure LocalHolds (c : SinkConfig) (t : LocalSinks) (n : NodeState Sinks) : Prop where
  argAddress : n.argAddress = t.argAddress
  actions : n.sinks.actions = []
  nextLocalAddress : n.sinks.nextLocalAddress = UInt32.ofNat t.calls &&& c.gnwLocalMask
  table : ∃ live, TableHolds live n.sinks ∧
    (live.map fun sink => (sink.address, sink.stdout)) =
      t.running.map fun sink => (sink.address c, sink.stdout)

/-- Two lists with the same values, filtered by the values. -/
theorem filter_map_congr {α β γ : Type*} {f : α → γ} {g : β → γ} {l : List α} {l' : List β}
    (h : l.map f = l'.map g) (r : γ → Bool) :
    (l.filter fun a => r (f a)).map f = (l'.filter fun b => r (g b)).map g := by
  have hf : (l.filter fun a => r (f a)).map f = (l.map f).filter r := List.filter_map.symm
  have hg : (l'.filter fun b => r (g b)).map g = (l'.map g).filter r := List.filter_map.symm
  rw [hf, hg, h]

section Steps

variable {c : SinkConfig} {t : LocalSinks} {n : NodeState Sinks} (h : LocalHolds c t n)
include h

/-- An entry of the table is a running sink. -/
theorem LocalHolds.lookup_isSome_iff {key : UInt32} :
    (∃ context, n.sinks.sinkTable.lookup key = some context) ↔
      ∃ sink ∈ t.running, sink.address c = key := by
  obtain ⟨live, hlive, hsame⟩ := h.table
  have haddresses : live.map LiveSink.address = t.running.map (LocalSink.address c) := by
    have hfst := congrArg (List.map Prod.fst) hsame
    rwa [List.map_map, List.map_map] at hfst
  rw [← Option.isSome_iff_exists, Option.isSome_iff_ne_none, ne_eq, hlive.lookup_none_iff, not_not,
    haddresses, List.mem_map]

/-- The address that the next call returns. -/
theorem LocalHolds.next (hmask : c.gnwLocalMask.LowBits) :
    ∃ frame, getNextLocalAddress c n.argAddress n.sinks = .ok
      ({ n.sinks with
        nextLocalAddress := UInt32.ofNat (t.calls + 1) &&& c.gnwLocalMask
        actions := n.sinks.actions ++ [.request frame] },
        c.localAddress t.argAddress (UInt32.ofNat (t.calls + 1))) := by
  have hnext := getNextLocalAddress_eq c n.argAddress n.sinks
  dsimp only at hnext
  rw [h.nextLocalAddress, hmask.succ_and, c.localAddress_and] at hnext
  rw [← h.argAddress]
  exact ⟨_, hnext⟩

/-- A packet for a sink that is there. -/
theorem LocalHolds.known {packet : DataPacket} {context : SinkContext}
    (hlookup : n.sinks.sinkTable.lookup (c.demuxAddress n.argAddress packet.header.source) =
      some context) :
    ∃ n' actions, receive c n (.data packet) = .ok (n', actions) ∧ spawnedSinks actions = [] ∧
      LocalHolds c t n' := by
  obtain ⟨live, hlive, hsame⟩ := h.table
  obtain ⟨sink, hsink, haddress⟩ := hlive.known _ _ hlookup
  have hdeliver := hlive.deliver hsink (haddress ▸ hlookup) packet.header_length
  rw [haddress] at hdeliver
  refine ⟨_, _, receive_data (writeToSink_known packet.header_length hlookup), ?_, h.argAddress,
    rfl, h.nextLocalAddress, _, hdeliver.congr rfl rfl, ?_⟩
  · simp [Sinks.deliver, h.actions, spawnedSinks]
  · rw [List.map_map]
    exact hsame

/-- A packet that starts a sink. -/
theorem LocalHolds.new {packet : DataPacket} (hkernel : c.kernel.Fresh)
    (hmode : c.demuxMode = .spawn) (hmask : c.gnwLocalMask.LowBits)
    (hnone : n.sinks.sinkTable.lookup (c.demuxAddress n.argAddress packet.header.source) = none)
    (hslot : 0 < n.sinks.freeSlots) :
    ∃ n' actions spawned, receive c n (.data packet) = .ok (n', actions) ∧
      spawnedSinks actions = [spawned] ∧
      LocalHolds c (t.spawn c.gnwLocalMask spawned.2.wrapStdout.read) n' := by
  obtain ⟨frame, s', context, -, hspawned, hwrite⟩ :=
    writeToSink_new_spawn hkernel hnone packet.header_length hmode hslot
  rw [h.nextLocalAddress, hmask.succ_and, c.localAddress_and] at hspawned hwrite
  obtain ⟨live, hlive, hsame⟩ := h.table
  let address := c.localAddress n.argAddress (UInt32.ofNat (t.calls + 1))
  let new := LiveSink.new (address, context)
  have hrespawn : TableHolds ((live.filter fun sink => sink.address ≠ address) ++ [new]) s' := by
    apply TableHolds.respawn _ hspawned
    exact hlive.congr rfl rfl
  have hfound : s'.sinkTable.lookup new.address = some context := by
    rw [hspawned.sinkTable]
    exact AList.lookup_insert ..
  have hdeliver := hrespawn.deliver (List.mem_append_right _ (List.mem_singleton_self new)) hfound
    packet.header_length
  refine ⟨_, _, (address, context), receive_data hwrite, ?_, h.argAddress, rfl,
    hspawned.nextLocalAddress, _, hdeliver.congr rfl rfl, ?_⟩
  · simp [Sinks.deliver, hspawned.actions, h.actions, spawnedSinks, address]
  · have hshares : ∀ sink : LocalSink, ¬sink.Shares c.gnwLocalMask (t.calls + 1) t.argAddress ↔
        sink.address c ≠ address := by
      intro sink
      rw [LocalSink.shares_iff hmask, ← h.argAddress]
    have hothers := filter_map_congr hsame fun pair => decide (pair.1 ≠ address)
    rw [List.map_map]
    unfold LocalSinks.spawn
    simp only [hshares, List.map_append]
    rw [← hothers, ← h.argAddress]
    rfl

/-- The property of the next address, in terms of the calls. -/
theorem LocalHolds.free_iff (hmask : c.gnwLocalMask.LowBits) :
    (∃ s address, getNextLocalAddress c n.argAddress n.sinks = .ok (s, address) ∧
      AddressFree c n s address) ↔ t.NextFree c.gnwLocalMask := by
  obtain ⟨frame, hnext⟩ := h.next hmask
  have hself := c.localAddress_self t.argAddress
  constructor
  · rintro ⟨s, address, hget, hfree⟩
    rw [hnext] at hget
    cases hget
    refine ⟨fun hown => hfree.own ?_, fun sink hsink hshares => ?_⟩
    · rw [h.argAddress, (SinkConfig.localAddress_eq_iff hmask).2 ⟨hown, rfl⟩, hself]
    · obtain ⟨context, hlookup⟩ := h.lookup_isSome_iff.2 ⟨sink, hsink, rfl⟩
      exact hfree.sinks _ _ hlookup ((LocalSink.shares_iff hmask).1 hshares).symm
  · intro hfree
    have hnone : ¬∃ context, n.sinks.sinkTable.lookup
        (c.localAddress t.argAddress (UInt32.ofNat (t.calls + 1))) = some context := by
      intro hsome
      obtain ⟨sink, hsink, haddress⟩ := h.lookup_isSome_iff.1 hsome
      exact hfree.running sink hsink ((LocalSink.shares_iff hmask).2 haddress)
    refine ⟨_, _, hnext, ?_, fun hown => hfree.own ?_, ?_, ?_⟩
    · rw [h.argAddress]
      exact UInt32.masked_and_not ..
    · rw [h.argAddress] at hown
      exact ((SinkConfig.localAddress_eq_iff hmask).1 (hown.trans hself.symm)).1
    · rintro key context hlookup rfl
      exact absurd ⟨context, hlookup⟩ hnone
    · intro s' hspawn key context hlookup
      obtain ⟨new, htable, -⟩ := autoSpawn_ok hspawn
      have hne : key ≠ c.localAddress t.argAddress (UInt32.ofNat (t.calls + 1)) := by
        rintro rfl
        exact hnone ⟨context, hlookup⟩
      rw [htable, AList.lookup_insert_ne hne]
      exact hlookup

end Steps

/-! ## Runs -/

/-- A node starts counting at 0, and a sink that it starts with has its own address. -/
theorem SinkStart.node_ok {c : SinkConfig} {start : SinkStart} {n₀ : NodeState Sinks}
    {started : List SinkAction} (hstart : start.node c = .ok (n₀, started)) :
    n₀.sinks.nextLocalAddress = 0 ∧ ∀ spawned ∈ spawnedSinks started,
      spawned.1 = start.argAddress := by
  simp only [SinkStart.node] at hstart
  split at hstart
  · rw [Except.bind_eq_ok_iff] at hstart
    obtain ⟨s, hspawn, hstart⟩ := hstart
    obtain ⟨context, -, -, hnext, hactions⟩ := autoSpawn_ok hspawn
    cases hstart
    refine ⟨hnext, fun spawned hmem => ?_⟩
    rw [hactions] at hmem
    cases List.mem_singleton.1 hmem
    rfl
  · cases hstart
    exact ⟨rfl, fun spawned hmem => by cases hmem⟩

section Runs

variable {c : SinkConfig} {start : SinkStart} {started : List SinkAction}
  (hkernel : c.kernel.Fresh) (hmode : c.demuxMode = .spawn) (hmask : c.gnwLocalMask.LowBits)
include hkernel

/-- The sinks of a node that has just been started. -/
theorem SinkStart.localHolds {n₀ : NodeState Sinks} (hstart : start.node c = .ok (n₀, started)) :
    LocalHolds c (start.localSinks started) n₀ := by
  obtain ⟨hargAddress, hactions, htable⟩ := SinkStart.accounted hkernel hstart
  obtain ⟨hnext, haddresses⟩ := SinkStart.node_ok hstart
  refine ⟨hargAddress, hactions, ?_, _, htable, ?_⟩
  · rw [hnext]
    exact UInt32.zero_and.symm
  · unfold SinkStart.localSinks
    rw [List.map_map, List.map_map]
    apply List.map_congr_left
    intro spawned hspawned
    have haddress : (LiveSink.new spawned).address = start.argAddress := haddresses spawned hspawned
    simp only [Function.comp_apply, LocalSink.address, c.localAddress_self, haddress]
    rfl

include hmode hmask

/-- Every event that may happen is handled. -/
theorem LocalHolds.step {t : LocalSinks} {n n' : SinkNode c} {delimiter : Int}
    (h : LocalHolds c t n.node) {e : SinkEvent} (hallowed : start.Allowed c n e)
    {actions : List SinkAction} (hstep : sinkStep delimiter n e = .ok (n', actions)) :
    LocalHolds c (t.after c.gnwLocalMask (e, actions)) n'.node := by
  cases e with
  | receive i =>
    simp only [sinkStep, Except.bind_eq_ok_iff] at hstep
    obtain ⟨⟨node, actions⟩, hreceive, hstep⟩ := hstep
    cases hstep
    cases i with
    | data packet =>
      cases hlookup : n.node.sinks.sinkTable.lookup
          (c.demuxAddress n.node.argAddress packet.header.source) with
      | some context =>
        obtain ⟨node', actions', hknown, hspawned, hnext⟩ := h.known hlookup
        rw [hknown] at hreceive
        cases hreceive
        simp only [LocalSinks.after, hspawned]
        exact hnext
      | none =>
        obtain ⟨node', actions', spawned, hnew, hspawned, hnext⟩ :=
          h.new hkernel hmode hmask hlookup (hallowed hlookup)
        rw [hnew] at hreceive
        cases hreceive
        simp only [LocalSinks.after, hspawned]
        exact hnext
    | reply address =>
      rw [receive_reply] at hreceive
      cases hreceive
      refine ⟨?_, rfl, h.nextLocalAddress, ?_⟩
      · show (if n.node.argAddress = 0 then address else n.node.argAddress) = _
        rw [h.argAddress]
        rfl
      · obtain ⟨live, hlive, hsame⟩ := h.table
        exact ⟨live, hlive.congr rfl rfl, hsame⟩
  | hangUp index fd =>
    obtain ⟨live, hlive, hsame⟩ := h.table
    obtain ⟨inputBuffer, hclosed⟩ := sinkStep_hangUp delimiter hallowed.1
    obtain ⟨n'', hclosed', -, -, -, hrest⟩ := hlive.hangUp delimiter h.actions hallowed.1
    rw [hclosed] at hstep hclosed'
    cases hstep
    cases hclosed'
    exact ⟨h.argAddress, h.actions, h.nextLocalAddress, _, hrest,
      filter_map_congr hsame fun pair => decide (pair.2 ≠ fd)⟩

theorem LocalHolds.run {n₀ : NodeState Sinks} {delimiter : Int}
    (hstart : start.node c = .ok (n₀, started)) {tr : List (SinkEvent × List SinkAction)}
    {n : SinkNode c}
    (hrun : Machine.Run (start.Allowed c) (sinkStep delimiter) ⟨n₀, Table.empty⟩ tr n) :
    LocalHolds c (localSinks c.gnwLocalMask start started tr) n.node := by
  induction hrun with
  | nil => exact SinkStart.localHolds hkernel hstart
  | snoc hrun hallowed hstep ih =>
    rw [localSinks, List.foldl_append]
    exact ih.step hkernel hmode hmask hallowed hstep

omit hmask in
/-- If no sink is running, a packet starts one whose output can be closed, and then none
    is running again. -/
theorem LocalHolds.exists_round {argAddress : UInt32} {calls : Nat} {n : SinkNode c}
    (h : LocalHolds c ⟨argAddress, calls, []⟩ n.node) (hslot : IGNORE_FD ∈ n.node.sinks.streamFd)
    (hrouter : start.routerFd ∈ n.node.sinks.opened) (delimiter : Int) :
    ∃ tr n', Machine.Run (start.Allowed c) (sinkStep delimiter) n tr n' ∧
      tr.foldl (LocalSinks.after c.gnwLocalMask) ⟨argAddress, calls, []⟩ =
        ⟨argAddress, calls + 1, []⟩ ∧
      n'.node.sinks.streamFd = n.node.sinks.streamFd ∧ start.routerFd ∈ n'.node.sinks.opened := by
  have hfree : 0 < n.node.sinks.freeSlots := List.count_pos_iff.2 hslot
  let packet : DataPacket := ⟨0, [], by decide⟩
  have hnone : n.node.sinks.sinkTable.lookup
      (c.demuxAddress n.node.argAddress packet.header.source) = none := by
    apply Option.eq_none_iff_forall_ne_some.2
    intro context hlookup
    obtain ⟨sink, hsink, -⟩ := h.lookup_isSome_iff.1 ⟨context, hlookup⟩
    cases hsink
  obtain ⟨frame, s', context, hspawn, hspawned, hwrite⟩ :=
    writeToSink_new_spawn hkernel hnone packet.header_length hmode hfree
  generalize c.localAddress n.node.argAddress ((n.node.sinks.nextLocalAddress + 1) &&&
    c.gnwLocalMask) = address at hspawn hspawned hwrite
  -- the slot that the output of the sink is put into
  obtain ⟨index, hindex, hwatch⟩ : ∃ index, n.node.sinks.streamFd[index]? = some IGNORE_FD ∧
      s'.streamFd = n.node.sinks.streamFd.set index context.wrapStdout.read := by
    obtain ⟨context', hspawned', hwatch⟩ := autoSpawn_inv hkernel hspawn
    have hsame := hspawned.actions.symm.trans hspawned'.actions
    cases List.append_cancel_left hsame
    exact addNewWatch_ok hwatch
  have hback : n.node.sinks.streamFd.set index IGNORE_FD = n.node.sinks.streamFd := by
    obtain ⟨hlt, hget⟩ := List.getElem?_eq_some_iff.1 hindex
    rw [← hget, List.set_getElem_self]
  have hne : context.wrapStdout.read ≠ IGNORE_FD := by
    intro heq
    have hcount : s'.streamFd.count IGNORE_FD + 1 = n.node.sinks.streamFd.count IGNORE_FD :=
      hspawned.freeSlots
    rw [hwatch, heq, hback] at hcount
    omega
  have hrouter' : context.wrapStdout.read ≠ start.routerFd := by
    intro heq
    exact hspawned.stdout_fresh (heq ▸ hrouter)
  let n₁ : SinkNode c := { n with node := { n.node with sinks :=
    { s'.deliver address context packet.header.length packet.payload with actions := [] } } }
  let actions : List SinkAction :=
    [.request frame, .spawn address context, .write context.wrapStdin.write packet.payload]
  have hfirst : sinkStep delimiter n (.receive (.data packet)) = .ok (n₁, actions) := by
    have hactions : (s'.deliver address context packet.header.length packet.payload).actions =
        actions := by
      simp [Sinks.deliver, hspawned.actions, h.actions, actions]
    rw [sinkStep, receive_data hwrite, hactions]
    rfl
  have hallowed : start.Allowed c n (.receive (.data packet)) := fun _ => hfree
  have hwatched : n₁.node.sinks.streamFd[index]? = some context.wrapStdout.read := by
    show s'.streamFd[index]? = _
    obtain ⟨hlt, -⟩ := List.getElem?_eq_some_iff.1 hindex
    rw [hwatch, List.getElem?_set_self hlt]
  have hallowed' : start.Allowed c n₁ (.hangUp index context.wrapStdout.read) :=
    ⟨hwatched, hne, hrouter'⟩
  obtain ⟨inputBuffer, hsecond⟩ := sinkStep_hangUp delimiter hwatched
  refine ⟨_, _, (Machine.Run.single hallowed hfirst).append (.single hallowed' hsecond), ?_, ?_,
    hspawned.opened _ hrouter⟩
  · simp [LocalSinks.after, actions, spawnedSinks, LocalSinks.spawn]
  · show s'.streamFd.set index IGNORE_FD = _
    rw [hwatch, List.set_set, hback]

/-- A node without sinks can be brought to any number of calls. -/
theorem LocalHolds.exists_run {n₀ : NodeState Sinks} (hstart : start.node c = .ok (n₀, []))
    (hslot : IGNORE_FD ∈ n₀.sinks.streamFd) (hrouter : start.routerFd ∈ n₀.sinks.opened)
    (delimiter : Int) (calls : Nat) :
    ∃ tr n, Machine.Run (start.Allowed c) (sinkStep delimiter) ⟨n₀, Table.empty⟩ tr n ∧
      localSinks c.gnwLocalMask start [] tr = ⟨start.argAddress, calls, []⟩ ∧
      n.node.sinks.streamFd = n₀.sinks.streamFd ∧ start.routerFd ∈ n.node.sinks.opened := by
  induction calls with
  | zero => exact ⟨[], _, .nil, rfl, rfl, hrouter⟩
  | succ calls ih =>
    obtain ⟨tr, n, hrun, hsinks, hstreams, hrouter⟩ := ih
    have hholds := LocalHolds.run hkernel hmode hmask hstart hrun
    rw [hsinks] at hholds
    obtain ⟨tr', n', hround, hafter, hstreams', hrouter'⟩ :=
      hholds.exists_round hkernel hmode (hstreams ▸ hslot) hrouter delimiter
    refine ⟨tr ++ tr', n', hrun.append hround, ?_, hstreams'.trans hstreams, hrouter'⟩
    unfold localSinks at hsinks ⊢
    rw [List.foldl_append, hsinks, hafter]

/-- Every node that can start sinks comes to the point where the next one is to have the
    address of the node itself. -/
theorem exists_own_address {n₀ : NodeState Sinks} (hstart : start.node c = .ok (n₀, []))
    (hslot : IGNORE_FD ∈ n₀.sinks.streamFd) (hrouter : start.routerFd ∈ n₀.sinks.opened)
    (delimiter : Int) :
    ∃ tr n, Machine.Run (start.Allowed c) (sinkStep delimiter) ⟨n₀, Table.empty⟩ tr n ∧
      n.node.argAddress = start.argAddress ∧
      ∃ s, getNextLocalAddress c n.node.argAddress n.node.sinks = .ok (s, start.argAddress) := by
  let round := c.gnwLocalMask.toNat + 1
  -- the calls of the first round that count up to the address, and those of a whole round
  let calls := start.argAddress.toNat % round + c.gnwLocalMask.toNat
  have hcalls : (calls + 1) % round = start.argAddress.toNat % round := by
    rw [show calls + 1 = start.argAddress.toNat % round + round from rfl, Nat.add_mod_right,
      Nat.mod_mod]
  obtain ⟨tr, n, hrun, hsinks, -⟩ :=
    LocalHolds.exists_run hkernel hmode hmask hstart hslot hrouter delimiter calls
  have hholds := LocalHolds.run hkernel hmode hmask hstart hrun
  rw [hsinks] at hholds
  obtain ⟨frame, hnext⟩ := hholds.next hmask
  dsimp only at hnext
  have hown : c.localAddress start.argAddress (UInt32.ofNat (calls + 1)) = start.argAddress := by
    have hself := c.localAddress_self start.argAddress
    exact ((SinkConfig.localAddress_eq_iff hmask).2 ⟨hcalls, rfl⟩).trans hself
  rw [hown] at hnext
  exact ⟨tr, n, hrun, hholds.argAddress, _, hnext⟩

end Runs

/-- At every moment of a node in the mode `spawn`, the next address for a process lies in
    the block of the node, is not its own and not that of a running sink, just if neither
    the address of the node nor the call that such a sink was started by counts the same
    under the mask. -/
theorem local_address_free_iff {c : SinkConfig} (hkernel : c.kernel.Fresh)
    (hmode : c.demuxMode = .spawn) (hmask : c.gnwLocalMask.LowBits) {start : SinkStart}
    {n₀ : NodeState Sinks} {started : List SinkAction} (hstart : start.node c = .ok (n₀, started))
    {delimiter : Int} {tr : List (SinkEvent × List SinkAction)} {n : SinkNode c}
    (hrun : Machine.Run (start.Allowed c) (sinkStep delimiter) ⟨n₀, Table.empty⟩ tr n) :
    (∃ s address, getNextLocalAddress c n.node.argAddress n.node.sinks = .ok (s, address) ∧
        AddressFree c n.node s address) ↔
      (localSinks c.gnwLocalMask start started tr).NextFree c.gnwLocalMask :=
  (LocalHolds.run hkernel hmode hmask hstart hrun).free_iff hmask

theorem spawnConfig_lowBits : spawnConfig.gnwLocalMask.LowBits := ⟨12, by decide⟩

/-- A sink of the node 5 has come and gone, and another is running: the third is to have
    the address 3. -/
theorem local_address_free_third :
    ∃ tr n, Machine.Run (spawnStart.Allowed spawnConfig) (sinkStep 10) ⟨spawnNode, Table.empty⟩ tr n ∧
      ((localSinks 0xFFF spawnStart [] tr).running.map LocalSink.call) = [2] ∧
      ∃ s address, getNextLocalAddress spawnConfig n.node.argAddress n.node.sinks =
        .ok (s, address) ∧ AddressFree spawnConfig n.node s address := by
  have hsim : ((Machine.simulate (spawnStart.Allowed spawnConfig) (sinkStep 10)
      ⟨spawnNode, Table.empty⟩ [.receive (byteFrom 9), .hangUp 1 6, .receive (byteFrom 9)]).any
        fun r => decide ((localSinks 0xFFF spawnStart [] r.2).running.map LocalSink.call = [2] ∧
          (localSinks 0xFFF spawnStart [] r.2).calls = 2 ∧
          (localSinks 0xFFF spawnStart [] r.2).argAddress = 5)) = true := by
    decide +kernel
  obtain ⟨tr, n, hrun, hsinks⟩ := Machine.Run.exists_of_simulate hsim
  obtain ⟨hrunning, hcalls, hargAddress⟩ := of_decide_eq_true hsinks
  have hstart : spawnStart.node spawnConfig = .ok (spawnNode, []) := rfl
  refine ⟨tr, n, hrun, hrunning, (local_address_free_iff lowestKernel_fresh rfl spawnConfig_lowBits
    hstart hrun).2 ⟨?_, fun sink hsink hshares => ?_⟩⟩
  · show ((localSinks 0xFFF spawnStart [] tr).calls + 1) % 4096 ≠
      (localSinks 0xFFF spawnStart [] tr).argAddress.toNat % 4096
    rw [hcalls, hargAddress]
    decide
  · have hcall : sink.call ∈ (localSinks 0xFFF spawnStart [] tr).running.map LocalSink.call :=
      List.mem_map_of_mem hsink
    have hsame : sink.call % 4096 = ((localSinks 0xFFF spawnStart [] tr).calls + 1) % 4096 :=
      hshares.1
    rw [hrunning, List.mem_singleton] at hcall
    rw [hcall, hcalls] at hsame
    cases hsame

/-- A node whose address has no local bits, and one that runs a sink from the start. -/
def blockStart : SinkStart := { spawnStart with argAddress := 0x1000 }

def blockNode : NodeState Sinks := { spawnNode with argAddress := 0x1000 }

def immediateStart : SinkStart := { spawnStart with argAddress := 0x1001, argImmediate := true }

/-- The count of the node 0x1000 comes around to 0, and the sink is to have the address of
    the node. The node 0x1001 runs a sink under its own address, and the first packet
    puts another in its place. -/
theorem local_address_free_fails :
    (∃ tr n s, Machine.Run (blockStart.Allowed spawnConfig) (sinkStep 10)
        ⟨blockNode, Table.empty⟩ tr n ∧
      n.node.argAddress = 0x1000 ∧
      getNextLocalAddress spawnConfig n.node.argAddress n.node.sinks = .ok (s, 0x1000) ∧
      ¬AddressFree spawnConfig n.node s 0x1000) ∧
    (immediateStart.node spawnConfig >>= fun r => do
      let (n, actions) ← receive spawnConfig r.1 (byteFrom 9)
      return (((spawnedSinks r.2).map Prod.fst, (spawnedSinks actions).map Prod.fst),
        n.sinks.sinkTable.keys)).toOption = some (([0x1001], [0x1001]), [0x1001]) := by
  refine ⟨?_, by decide +kernel⟩
  have hstart : blockStart.node spawnConfig = .ok (blockNode, []) := rfl
  obtain ⟨tr, n, hrun, hargAddress, s, hnext⟩ := exists_own_address lowestKernel_fresh rfl
    spawnConfig_lowBits hstart (by decide) (by decide) 10
  exact ⟨tr, n, s, hrun, hargAddress, hnext, fun hfree => hfree.own hargAddress.symm⟩
