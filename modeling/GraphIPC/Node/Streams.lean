-- SUMMARY: GraphWrap.c in the mode spawn: when every stream has a process of its own.
import GraphIPC.Base.Machine
import GraphIPC.Node.Sinks
import Mathlib.Data.Finset.Card

/-!
# One process for each stream

In the mode `spawn` a node is to start a process for each stream, that is, for each
source address it receives data from. But a sink is looked up under the source of
the packet and put into the table under the next local address, so a stream finds
its sink again only if the address handed out for it is its own.
-/

/-- The packets a node received, each with what the node did. -/
abbrev SinkHistory : Type := List (Incoming × List SinkAction)

/-- The sinks that were started. -/
def spawnedSinks (actions : List SinkAction) : List (UInt32 × SinkContext) :=
  actions.filterMap fun action =>
    match action with
    | .spawn address context => some (address, context)
    | _ => none

/-- The writes, with their descriptors. -/
def sinkWrites (actions : List SinkAction) : List (Int × List UInt8) :=
  actions.filterMap fun action =>
    match action with
    | .write fd data => some (fd, data)
    | _ => none

/-- The stream that a packet belongs to. -/
def Incoming.stream : Incoming → Option UInt32
  | .data packet => some packet.source
  | .reply _ => none

/-- The streams of the packets, with repetitions. -/
def SinkHistory.streams (tr : SinkHistory) : List UInt32 := tr.filterMap fun e => e.1.stream

/-- The sinks that were started for the packets. -/
def SinkHistory.spawned (tr : SinkHistory) : List (UInt32 × SinkContext) :=
  tr.flatMap fun e => spawnedSinks e.2

/-- Every packet was written to the sink of its stream, and a sink was started for
    the first packet of a stream and for no other. -/
structure StreamsSeparate (started : List SinkAction) (tr : SinkHistory) : Prop where
  written : ∀ packet actions, (.data packet, actions) ∈ tr →
    ∃ fd, sinkWrites actions = [(fd, packet.payload)]
  same_iff : ∀ packet actions packet' actions', (.data packet, actions) ∈ tr →
    (.data packet', actions') ∈ tr →
      (packet.source = packet'.source ↔
        (sinkWrites actions).map Prod.fst = (sinkWrites actions').map Prod.fst)
  count : (spawnedSinks started).length + (SinkHistory.spawned tr).length =
    (SinkHistory.streams tr).toFinset.card
  once : ∀ tr₁ packet actions tr₂, tr = tr₁ ++ (.data packet, actions) :: tr₂ →
    packet.source ∈ SinkHistory.streams tr₁ → spawnedSinks actions = []

/-! ## The addresses that are handed out -/

/-- What becomes of the addresses if every new stream is handed the next one.
    `holder` tells to which stream a local address was handed last. -/
structure Streams where
  argAddress : UInt32
  nextLocalAddress : UInt32
  freeSlots : Nat
  seen : Finset UInt32
  holder : UInt32 → Option UInt32

def Streams.after (c : SinkConfig) (t : Streams) : Incoming → Streams
  | .data packet =>
    if packet.source ∈ t.seen then t
    else
      let nextLocalAddress := (t.nextLocalAddress + 1) &&& c.gnwLocalMask
      { t with
        nextLocalAddress
        freeSlots := t.freeSlots - 1
        seen := insert packet.source t.seen
        holder := Function.update t.holder (c.localAddress t.argAddress nextLocalAddress)
          (some packet.source) }
  | .reply address => { t with argAddress := if t.argAddress = 0 then address else t.argAddress }

/-- The streams of a node that has just been started. -/
def SinkStart.streams (start : SinkStart) : Streams where
  argAddress := start.argAddress
  nextLocalAddress := 0
  freeSlots := start.streamFd.count IGNORE_FD
  seen := ∅
  holder := fun _ => none

/-- The address of the stream was handed to nobody if the stream is new, and to the
    stream itself, and to no other since, if it is not. A new stream also needs a
    descriptor that can be watched. -/
def Streams.Settled (t : Streams) : Incoming → Prop
  | .data packet =>
    t.holder packet.source = (if packet.source ∈ t.seen then some packet.source else none) ∧
      (packet.source ∉ t.seen → 0 < t.freeSlots)
  | .reply _ => True

instance Streams.decidableSettled (t : Streams) : (i : Incoming) → Decidable (t.Settled i)
  | .data _ => inferInstanceAs (Decidable (_ ∧ _))
  | .reply _ => inferInstanceAs (Decidable True)

/-! ## Following the streams -/

/-- The sinks of a node after a history in which every packet went to the sink of
    its stream; `sink` is the descriptor of each stream's sink. -/
structure Follows (started : List SinkAction) (sink : UInt32 → Int) (tr : SinkHistory)
    (n : NodeState Sinks) (t : Streams) : Prop where
  argAddress : n.argAddress = t.argAddress
  nextLocalAddress : n.sinks.nextLocalAddress = t.nextLocalAddress
  freeSlots : n.sinks.freeSlots = t.freeSlots
  actions : n.sinks.actions = []
  seen : t.seen = (SinkHistory.streams tr).toFinset
  table : ∀ address, (n.sinks.sinkTable.lookup address).map (fun context => context.wrapStdin.write) =
    (t.holder address).map sink
  holder_seen : ∀ address stream, t.holder address = some stream → stream ∈ t.seen
  written : ∀ packet actions, (.data packet, actions) ∈ tr →
    sinkWrites actions = [(sink packet.source, packet.payload)]
  injective : ∀ stream ∈ t.seen, ∀ stream' ∈ t.seen, sink stream = sink stream' → stream = stream'
  opened : ∀ stream ∈ t.seen, sink stream ∈ n.sinks.opened
  count : (spawnedSinks started).length + (SinkHistory.spawned tr).length = t.seen.card
  once : ∀ tr₁ packet actions tr₂, tr = tr₁ ++ (.data packet, actions) :: tr₂ →
    packet.source ∈ SinkHistory.streams tr₁ → spawnedSinks actions = []

theorem SinkHistory.streams_append (tr tr' : SinkHistory) :
    SinkHistory.streams (tr ++ tr') = SinkHistory.streams tr ++ SinkHistory.streams tr' :=
  List.filterMap_append ..

theorem SinkHistory.spawned_append (tr tr' : SinkHistory) :
    SinkHistory.spawned (tr ++ tr') = SinkHistory.spawned tr ++ SinkHistory.spawned tr' :=
  List.flatMap_append ..

/-- A stream that was seen had a packet. -/
theorem SinkHistory.exists_of_mem_streams {tr : SinkHistory} {stream : UInt32}
    (h : stream ∈ SinkHistory.streams tr) :
    ∃ packet actions, (Incoming.data packet, actions) ∈ tr ∧ packet.source = stream := by
  obtain ⟨⟨i, actions⟩, hmem, hstream⟩ := List.mem_filterMap.1 h
  cases i with
  | data packet => exact ⟨packet, actions, hmem, Option.some.inj hstream⟩
  | reply address => cases hstream

/-- What is asked of every earlier packet and of the last is asked of all. -/
theorem forall_cut_snoc {α : Type*} {P : List α → α → Prop} {l : List α} {a : α}
    (hold : ∀ l₁ b l₂, l = l₁ ++ b :: l₂ → P l₁ b) (hlast : P l a) :
    ∀ l₁ b l₂, l ++ [a] = l₁ ++ b :: l₂ → P l₁ b := by
  intro l₁ b l₂ hcut
  rcases List.eq_nil_or_concat l₂ with rfl | ⟨l₃, d, rfl⟩
  · obtain ⟨rfl, hb⟩ := List.append_inj' hcut rfl
    cases hb
    exact hlast
  · have hcut' : l ++ [a] = (l₁ ++ b :: l₃) ++ [d] := by rw [hcut]; simp
    exact hold l₁ b l₃ (List.append_inj' hcut' rfl).1

/-- If the last packet started a sink only for a new stream, so did every packet. -/
theorem SinkHistory.once_snoc {tr : SinkHistory} {e : Incoming × List SinkAction}
    (hold : ∀ tr₁ packet actions tr₂, tr = tr₁ ++ (.data packet, actions) :: tr₂ →
      packet.source ∈ SinkHistory.streams tr₁ → spawnedSinks actions = [])
    (hlast : ∀ packet actions, e = (.data packet, actions) →
      packet.source ∈ SinkHistory.streams tr → spawnedSinks actions = [])
    (tr₁ : SinkHistory) (packet : DataPacket) (actions : List SinkAction) (tr₂ : SinkHistory)
    (hcut : tr ++ [e] = tr₁ ++ (.data packet, actions) :: tr₂)
    (hseen : packet.source ∈ SinkHistory.streams tr₁) : spawnedSinks actions = [] := by
  have hall := forall_cut_snoc (P := fun tr₁ e => ∀ packet actions, e = (.data packet, actions) →
    packet.source ∈ SinkHistory.streams tr₁ → spawnedSinks actions = [])
    (fun tr₁ e tr₂ hcut packet actions he => hold tr₁ packet actions tr₂ (he ▸ hcut)) hlast
  exact hall tr₁ _ tr₂ hcut packet actions rfl hseen

section Steps

variable {c : SinkConfig} {started : List SinkAction} {sink : UInt32 → Int} {tr : SinkHistory}
  {n : NodeState Sinks} {t : Streams} (h : Follows started sink tr n t)
include h

theorem Follows.mem_seen_iff {stream : UInt32} :
    stream ∈ t.seen ↔ stream ∈ SinkHistory.streams tr := by
  rw [h.seen, List.mem_toFinset]

/-- The stream of a packet was seen. -/
theorem Follows.source_seen {packet : DataPacket} {actions : List SinkAction}
    (hmem : (Incoming.data packet, actions) ∈ tr) : packet.source ∈ t.seen :=
  h.mem_seen_iff.2 (List.mem_filterMap.2 ⟨_, hmem, rfl⟩)

theorem Follows.separate : StreamsSeparate started tr := by
  refine ⟨fun packet actions hmem => ⟨_, h.written packet actions hmem⟩,
    fun packet actions packet' actions' hmem hmem' => ?_, by rw [h.count, h.seen], h.once⟩
  have hseen := h.source_seen hmem
  have hseen' := h.source_seen hmem'
  rw [h.written packet actions hmem, h.written packet' actions' hmem']
  constructor
  · intro heq
    simp [heq]
  · intro heq
    exact h.injective _ hseen _ hseen' (by simpa using heq)

/-- A reply leaves the sinks alone. -/
theorem Follows.reply (address : UInt32) :
    ∃ n', receive c n (.reply address) = .ok (n', []) ∧
      Follows started sink (tr ++ [(.reply address, [])]) n' (t.after c (.reply address)) := by
  have hstreams : SinkHistory.streams (tr ++ [(.reply address, [])]) = SinkHistory.streams tr := by
    rw [SinkHistory.streams_append]
    exact List.append_nil _
  have hreceive := receive_reply (c := c) (n := n) address
  rw [h.actions] at hreceive
  refine ⟨_, hreceive, ?_, h.nextLocalAddress, h.freeSlots, rfl, ?_, h.table, h.holder_seen, ?_,
    h.injective, h.opened, ?_, ?_⟩
  · show _ = if t.argAddress = 0 then address else t.argAddress
    rw [← h.argAddress]
  · rw [hstreams]
    exact h.seen
  · intro packet actions hmem
    exact h.written packet actions (by simpa using hmem)
  · rw [SinkHistory.spawned_append, List.length_append]
    exact h.count
  · apply SinkHistory.once_snoc h.once
    intro packet actions heq
    cases heq

/-- A source that was not handed out has no sink. -/
theorem Follows.lookup_none {packet : DataPacket} (hmode : c.demuxMode = .spawn)
    (hholder : t.holder packet.source = none) :
    n.sinks.sinkTable.lookup (c.demuxAddress n.argAddress packet.header.source) = none := by
  have htable := h.table packet.source
  rw [hholder] at htable
  rw [SinkConfig.demuxAddress, hmode, if_neg (by decide), packet.header_source]
  exact Option.map_eq_none_iff.1 htable

/-- A packet whose source was handed out goes to the stream that it was handed to
    last. -/
theorem Follows.receive_some {packet : DataPacket} {stream : UInt32}
    (hmode : c.demuxMode = .spawn) (hholder : t.holder packet.source = some stream) :
    ∃ context, context.wrapStdin.write = sink stream ∧
      receive c n (.data packet) =
        .ok ({ n with sinks :=
          { n.sinks.deliver packet.source context packet.header.length packet.payload with
            actions := [] } }, [.write (sink stream) packet.payload]) := by
  have hdemux : c.demuxAddress n.argAddress packet.header.source = packet.source := by
    rw [SinkConfig.demuxAddress, hmode, if_neg (by decide), packet.header_source]
  have htable := h.table packet.source
  rw [hholder] at htable
  obtain ⟨context, hlookup, hcontext⟩ := Option.map_eq_some_iff.1 htable
  have hwrite : writeToSink c n.argAddress packet.header packet.payload n.sinks =
      .ok (n.sinks.deliver packet.source context packet.header.length packet.payload) := by
    rw [← hdemux] at hlookup
    rw [writeToSink_known packet.header_length hlookup, hdemux]
  refine ⟨context, hcontext, ?_⟩
  rw [receive_data hwrite, ← hcontext]
  simp only [Sinks.deliver, h.actions, List.nil_append]

/-- A packet whose source was not handed out starts a sink. -/
theorem Follows.receive_none {packet : DataPacket} (hkernel : c.kernel.Fresh)
    (hmode : c.demuxMode = .spawn) (hholder : t.holder packet.source = none)
    (hslot : 0 < t.freeSlots) :
    let next := (t.nextLocalAddress + 1) &&& c.gnwLocalMask
    let realAddress := c.localAddress t.argAddress next
    ∃ frame s' context,
      Spawned realAddress { n.sinks with
        nextLocalAddress := next
        actions := n.sinks.actions ++ [.request frame] } s' context ∧
      receive c n (.data packet) =
        .ok ({ n with sinks :=
          { s'.deliver realAddress context packet.header.length packet.payload with
            actions := [] } },
          [.request frame, .spawn realAddress context,
            .write context.wrapStdin.write packet.payload]) := by
  rw [← h.nextLocalAddress, ← h.argAddress]
  have hnone := h.lookup_none hmode hholder
  obtain ⟨frame, s', context, -, hspawned, hwrite⟩ := writeToSink_new_spawn hkernel hnone
    packet.header_length hmode (by rw [h.freeSlots]; exact hslot)
  refine ⟨frame, s', context, hspawned, ?_⟩
  rw [receive_data hwrite]
  simp only [Sinks.deliver, hspawned.actions, h.actions]
  rfl

/-- A packet of a stream that was handed its own address. -/
theorem Follows.known {packet : DataPacket} (hmode : c.demuxMode = .spawn)
    (hholder : t.holder packet.source = some packet.source) :
    ∃ n' actions, receive c n (.data packet) = .ok (n', actions) ∧
      Follows started sink (tr ++ [(.data packet, actions)]) n' (t.after c (.data packet)) := by
  have hseen : packet.source ∈ t.seen := h.holder_seen _ _ hholder
  obtain ⟨context, hcontext, hreceive⟩ := h.receive_some hmode hholder
  have hafter : t.after c (.data packet) = t := if_pos hseen
  have hstreams : SinkHistory.streams
      (tr ++ [(.data packet, [.write (sink packet.source) packet.payload])]) =
        SinkHistory.streams tr ++ [packet.source] := SinkHistory.streams_append ..
  refine ⟨_, _, hreceive, ?_⟩
  rw [hafter]
  refine ⟨h.argAddress, h.nextLocalAddress, h.freeSlots, rfl, ?_, fun address => ?_,
    h.holder_seen, fun packet' actions hmem => ?_, h.injective, h.opened, ?_, ?_⟩
  · rw [hstreams, List.toFinset_append, ← h.seen]
    simp [Finset.insert_eq_of_mem hseen]
  · dsimp only [Sinks.deliver]
    by_cases haddress : address = packet.source
    · rw [haddress, hholder, AList.lookup_insert]
      exact congrArg some hcontext
    · rw [AList.lookup_insert_ne haddress]
      exact h.table address
  · rcases List.mem_append.1 hmem with hold | hnew
    · exact h.written packet' actions hold
    · cases List.mem_singleton.1 hnew
      rfl
  · rw [SinkHistory.spawned_append, List.length_append]
    exact h.count
  · apply SinkHistory.once_snoc h.once
    intro packet' actions heq hearlier
    cases heq
    rfl

omit h in
/-- The sinks of the streams that were seen, when a new stream gets one. -/
theorem update_sink_of_seen {seen : Finset UInt32} {stream new : UInt32} (hnew : new ∉ seen)
    (hseen : stream ∈ seen) (sink : UInt32 → Int) (fd : Int) :
    Function.update sink new fd stream = sink stream := by
  apply Function.update_of_ne
  rintro rfl
  exact hnew hseen

/-- The descriptors of the sinks are still open, so a new one is none of them. -/
theorem Follows.injective_update {new : UInt32} {fd : Int} (hnew : new ∉ t.seen)
    (hfd : fd ∉ n.sinks.opened) :
    ∀ stream ∈ insert new t.seen, ∀ stream' ∈ insert new t.seen,
      Function.update sink new fd stream = Function.update sink new fd stream' →
        stream = stream' := by
  have hfresh : ∀ stream ∈ t.seen, sink stream ≠ fd := by
    rintro stream hstream rfl
    exact hfd (h.opened stream hstream)
  intro stream hstream stream' hstream' heq
  rcases Finset.mem_insert.1 hstream with rfl | hold <;>
    rcases Finset.mem_insert.1 hstream' with rfl | hold'
  · rfl
  · rw [Function.update_self, update_sink_of_seen hnew hold'] at heq
    exact absurd heq.symm (hfresh _ hold')
  · rw [Function.update_self, update_sink_of_seen hnew hold] at heq
    exact absurd heq (hfresh _ hold)
  · rw [update_sink_of_seen hnew hold, update_sink_of_seen hnew hold'] at heq
    exact h.injective _ hold _ hold' heq

/-- A packet of a new stream whose address was handed to nobody. -/
theorem Follows.new {packet : DataPacket} (hkernel : c.kernel.Fresh)
    (hmode : c.demuxMode = .spawn) (hnew : packet.source ∉ t.seen)
    (hholder : t.holder packet.source = none) (hslot : 0 < t.freeSlots) :
    ∃ sink' n' actions, receive c n (.data packet) = .ok (n', actions) ∧
      Follows started sink' (tr ++ [(.data packet, actions)]) n' (t.after c (.data packet)) := by
  obtain ⟨frame, s', context, hspawned, hreceive⟩ := h.receive_none hkernel hmode hholder hslot
  let next := (t.nextLocalAddress + 1) &&& c.gnwLocalMask
  let realAddress := c.localAddress t.argAddress next
  let fd := context.wrapStdin.write
  let sink' := Function.update sink packet.source fd
  let actions : List SinkAction :=
    [.request frame, .spawn realAddress context, .write fd packet.payload]
  have hafter : t.after c (.data packet) = { t with
      nextLocalAddress := next
      freeSlots := t.freeSlots - 1
      seen := insert packet.source t.seen
      holder := Function.update t.holder realAddress (some packet.source) } := by
    rw [Streams.after, if_neg hnew]
  have hstreams : SinkHistory.streams (tr ++ [(.data packet, actions)]) =
      SinkHistory.streams tr ++ [packet.source] := SinkHistory.streams_append ..
  have hsink : ∀ stream ∈ t.seen, sink' stream = sink stream := fun stream hstream =>
    update_sink_of_seen hnew hstream sink fd
  have hself : sink' packet.source = fd := Function.update_self ..
  refine ⟨sink', _, actions, hreceive, ?_⟩
  rw [hafter]
  refine ⟨h.argAddress, hspawned.nextLocalAddress, ?_, rfl, ?_, fun address => ?_,
    fun address stream hstream => ?_, fun packet' actions' hmem => ?_,
    h.injective_update hnew hspawned.stdin_fresh, fun stream hstream => ?_, ?_, ?_⟩
  · have hcount : s'.freeSlots + 1 = n.sinks.freeSlots := hspawned.freeSlots
    rw [h.freeSlots] at hcount
    show s'.freeSlots = t.freeSlots - 1
    omega
  · rw [hstreams, List.toFinset_append, ← h.seen]
    simp
  · dsimp only [Sinks.deliver]
    by_cases haddress : address = realAddress
    · rw [haddress, AList.lookup_insert, Function.update_self]
      exact congrArg some hself.symm
    · rw [AList.lookup_insert_ne haddress, Function.update_of_ne haddress, hspawned.sinkTable,
        AList.lookup_insert_ne haddress]
      refine (h.table address).trans ?_
      cases hstream : t.holder address with
      | none => rfl
      | some stream => exact congrArg some (hsink _ (h.holder_seen _ _ hstream)).symm
  · dsimp only at hstream
    rw [Function.update_apply] at hstream
    split at hstream
    · cases hstream
      exact Finset.mem_insert_self ..
    · exact Finset.mem_insert_of_mem (h.holder_seen _ _ hstream)
  · rcases List.mem_append.1 hmem with hold | hlast
    · rw [hsink _ (h.source_seen hold)]
      exact h.written packet' actions' hold
    · cases List.mem_singleton.1 hlast
      rw [hself]
      rfl
  · rcases Finset.mem_insert.1 hstream with rfl | hold
    · rw [hself]
      exact hspawned.stdin_opened
    · rw [hsink _ hold]
      exact hspawned.opened _ (h.opened _ hold)
  · rw [SinkHistory.spawned_append, List.length_append, ← Nat.add_assoc, h.count,
      Finset.card_insert_of_notMem hnew]
    rfl
  · apply SinkHistory.once_snoc h.once
    intro packet' actions' heq hearlier
    cases heq
    exact absurd (h.mem_seen_iff.2 hearlier) hnew

/-- A packet of a stream that was not handed its own address goes to the sink of
    another stream, or starts another sink. -/
theorem Follows.spoils {i : Incoming} {n' : NodeState Sinks} {actions : List SinkAction}
    (hkernel : c.kernel.Fresh) (hmode : c.demuxMode = .spawn) (hsettled : ¬t.Settled i)
    (hreceive : receive c n i = .ok (n', actions)) :
    ¬StreamsSeparate started (tr ++ [(i, actions)]) := by
  intro hseparate
  cases i with
  | reply address => exact hsettled trivial
  | data packet =>
    have hlast : (Incoming.data packet, actions) ∈ tr ++ [(Incoming.data packet, actions)] := by
      simp
    cases hholder : t.holder packet.source with
    | some stream =>
      by_cases hown : stream = packet.source
      · rw [hown] at hholder
        have hseen := h.holder_seen _ _ hholder
        exact hsettled ⟨by rw [hholder, if_pos hseen], fun hnew => absurd hseen hnew⟩
      · obtain ⟨context, -, hsome⟩ := h.receive_some hmode hholder
        rw [hsome] at hreceive
        cases hreceive
        obtain ⟨packet₀, actions₀, hmem, hsource⟩ :=
          SinkHistory.exists_of_mem_streams (h.mem_seen_iff.1 (h.holder_seen _ _ hholder))
        have hwrites := h.written packet₀ actions₀ hmem
        have hsame := (hseparate.same_iff packet₀ actions₀ packet _ (by simp [hmem]) hlast).2
        refine hown (hsource.symm.trans (hsame ?_))
        rw [hwrites, hsource]
        rfl
    | none =>
      by_cases hslot : 0 < t.freeSlots
      · have hseen : packet.source ∈ t.seen := by
          by_contra hnew
          exact hsettled ⟨by rw [hholder, if_neg hnew], fun _ => hslot⟩
        obtain ⟨frame, s', context, -, hnone⟩ := h.receive_none hkernel hmode hholder hslot
        rw [hnone] at hreceive
        cases hreceive
        have honce := hseparate.once tr packet _ [] rfl (h.mem_seen_iff.1 hseen)
        cases honce
      · have hfull : n.sinks.freeSlots = 0 := by
          rw [h.freeSlots]
          omega
        rw [receive_data_error (writeToSink_full hkernel (h.lookup_none hmode hholder) hfull)]
          at hreceive
        cases hreceive

end Steps

/-- A node that was started without a sink. -/
theorem SinkStart.follows {c : SinkConfig} {start : SinkStart} {n₀ : NodeState Sinks}
    {started : List SinkAction} (himmediate : start.argImmediate = false)
    (hstart : start.node c = .ok (n₀, started)) :
    Follows started (fun _ => 0) [] n₀ start.streams := by
  unfold SinkStart.node at hstart
  rw [himmediate] at hstart
  cases hstart
  refine ⟨rfl, rfl, rfl, rfl, rfl, fun _ => rfl, fun _ _ hholder => ?_, fun _ _ hmem => ?_,
    fun _ hseen => ?_, fun _ hseen => ?_, rfl, fun tr₁ packet actions tr₂ hcut => ?_⟩
  · cases hholder
  · cases hmem
  · exact absurd hseen (Finset.notMem_empty _)
  · exact absurd hseen (Finset.notMem_empty _)
  · simp at hcut

/-- A node that was started with a sink has one more than it has streams. -/
theorem SinkStart.not_separate {c : SinkConfig} {start : SinkStart} {n₀ : NodeState Sinks}
    {started : List SinkAction} (hkernel : c.kernel.Fresh)
    (himmediate : start.argImmediate = true) (hstart : start.node c = .ok (n₀, started)) :
    ¬StreamsSeparate started [] := by
  intro hseparate
  have hcount := hseparate.count
  let s : Sinks :=
    { sinkTable := ∅, streamFd := start.streamFd, nextLocalAddress := 0, opened := start.opened
      calls := 0, actions := [] }
  simp only [SinkStart.node, himmediate, if_true] at hstart
  by_cases hslot : 0 < s.freeSlots
  · obtain ⟨s', context, hspawn, hspawned⟩ :=
      autoSpawn_spawned hkernel hslot start.argAddress
    rw [hspawn] at hstart
    cases hstart
    rw [hspawned.actions] at hcount
    cases hcount
  · rw [autoSpawn_error hkernel (s := s) (by omega)] at hstart
    cases hstart

/-- In the mode `spawn`, the packets of every stream go to a sink of their own all
    along just if no sink was started in advance, each stream that comes again was
    handed its own address, and each new one comes when its address was handed to
    no other and a descriptor can still be watched. -/
theorem streams_separate_iff {c : SinkConfig} (hkernel : c.kernel.Fresh)
    (hmode : c.demuxMode = .spawn) {start : SinkStart} {n₀ : NodeState Sinks}
    {started : List SinkAction} (hstart : start.node c = .ok (n₀, started))
    (inputs : List Incoming) :
    (∀ pre post, inputs = pre ++ post → ∃ n tr, Machine.exec (receive c) n₀ pre = .ok (n, tr) ∧
        StreamsSeparate started tr) ↔
      start.argImmediate = false ∧ ∀ pre i post, inputs = pre ++ i :: post →
        (pre.foldl (Streams.after c) start.streams).Settled i := by
  cases himmediate : start.argImmediate with
  | true =>
    refine ⟨fun halways => ?_, fun hsettled => by cases hsettled.1⟩
    obtain ⟨n, tr, hexec, hseparate⟩ := halways [] inputs rfl
    cases hexec
    exact absurd hseparate (SinkStart.not_separate hkernel himmediate hstart)
  | false =>
    have holds : ∀ tr n t, (∃ sink, Follows started sink tr n t) → StreamsSeparate started tr :=
      fun _ _ _ ⟨_, h⟩ => h.separate
    have follows : ∀ tr n t i, (∃ sink, Follows started sink tr n t) → t.Settled i →
        ∃ n' actions, receive c n i = .ok (n', actions) ∧
          ∃ sink, Follows started sink (tr ++ [(i, actions)]) n' (t.after c i) := by
      rintro tr n t i ⟨sink, h⟩ hsettled
      cases i with
      | reply address =>
        obtain ⟨n', hreceive, hnext⟩ := h.reply address
        exact ⟨n', [], hreceive, sink, hnext⟩
      | data packet =>
        obtain ⟨hholder, hslot⟩ := hsettled
        split at hholder
        · obtain ⟨n', actions, hreceive, hnext⟩ := h.known hmode hholder
          exact ⟨n', actions, hreceive, sink, hnext⟩
        · rename_i hnew
          obtain ⟨sink', n', actions, hreceive, hnext⟩ :=
            h.new hkernel hmode hnew hholder (hslot hnew)
          exact ⟨n', actions, hreceive, sink', hnext⟩
    have spoils : ∀ tr n t i n' actions, (∃ sink, Follows started sink tr n t) → ¬t.Settled i →
        receive c n i = .ok (n', actions) → ¬StreamsSeparate started (tr ++ [(i, actions)]) :=
      fun _ _ _ _ _ _ ⟨_, h⟩ hsettled hreceive => h.spoils hkernel hmode hsettled hreceive
    have hrule := Machine.exec_always_iff [] inputs follows holds spoils
      ⟨_, SinkStart.follows himmediate hstart⟩
    exact hrule.trans (and_iff_right rfl).symm

/-- A node in the mode `spawn`, with the address 5 and the standard streams and the
    connection to the router open. -/
def spawnConfig : SinkConfig where
  order := .little
  networkMtu := 1500
  malloc := fun _ => 0
  heap := 0
  networkMtu_pos := by decide
  networkMtu_lt := by decide
  demuxMode := .spawn
  gnwLocalMask := 0xFFF
  kernel := lowestKernel

def spawnStart : SinkStart where
  argAddress := 5
  argImmediate := false
  routerFd := 3
  streamFd := 3 :: List.replicate 255 IGNORE_FD
  opened := [0, 1, 2, 3]

/-- A packet of one byte. -/
def byteFrom (source : UInt32) : Incoming := .data ⟨source, [0x41], by decide⟩

def spawnNode : NodeState Sinks where
  argAddress := 5
  stdout := []
  sinks :=
    { sinkTable := ∅, streamFd := spawnStart.streamFd, nextLocalAddress := 0
      opened := spawnStart.opened, calls := 0, actions := [] }

/-- Two packets from the address 9: each of them starts a sink. -/
theorem streams_separate_fails :
    spawnStart.node spawnConfig = .ok (spawnNode, []) ∧
      ((Machine.exec (receive spawnConfig) spawnNode [byteFrom 9, byteFrom 9]).toOption.map
        fun r => ((SinkHistory.spawned r.2).length, (SinkHistory.streams r.2).toFinset.card)) =
          some (2, 1) ∧
      ¬∀ pre post, [byteFrom 9, byteFrom 9] = pre ++ post →
        ∃ n tr, Machine.exec (receive spawnConfig) spawnNode pre = .ok (n, tr) ∧
          StreamsSeparate [] tr := by
  have hcounts :
      ((Machine.exec (receive spawnConfig) spawnNode [byteFrom 9, byteFrom 9]).toOption.map
        fun r => ((SinkHistory.spawned r.2).length, (SinkHistory.streams r.2).toFinset.card)) =
          some (2, 1) := by decide +kernel
  refine ⟨rfl, hcounts, fun hall => ?_⟩
  obtain ⟨n, tr, hexec, hseparate⟩ := hall [byteFrom 9, byteFrom 9] [] rfl
  rw [hexec] at hcounts
  obtain ⟨hspawned, hstreams⟩ := Prod.mk.inj (Option.some.inj hcounts)
  have hcount := hseparate.count
  rw [hspawned, hstreams] at hcount
  cases hcount

set_option maxRecDepth 2048 in
/-- The first stream of a node is handed the address 1. If it is the stream 1, its
    packets go to one sink. -/
theorem streams_separate_own :
    spawnStart.node spawnConfig = .ok (spawnNode, []) ∧
      ∀ pre post, [byteFrom 1, byteFrom 1] = pre ++ post →
        ∃ n tr, Machine.exec (receive spawnConfig) spawnNode pre = .ok (n, tr) ∧
          StreamsSeparate [] tr := by
  have hstart : spawnStart.node spawnConfig = .ok (spawnNode, []) := rfl
  refine ⟨hstart, (streams_separate_iff lowestKernel_fresh rfl hstart _).2 ⟨rfl, ?_⟩⟩
  intro pre i post hcut
  match pre, hcut with
  | [], hcut =>
    cases hcut
    decide
  | [_], hcut =>
    cases hcut
    decide +kernel
  | _ :: _ :: pre, hcut => simp at hcut
