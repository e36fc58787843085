-- SUMMARY: GraphWrap.c in the modes noop and merge: which sinks are there after any packets and closures, and what each of them was given.
import GraphIPC.Node.Streams
import Mathlib.Data.List.Nodup

/-!
# One sink for each address

In the modes `noop` and `merge` a sink is started for the first packet of an
address and again for the first after the sink was gone. The sinks that are to be
there can be told from what happened so far: a sink is live from the step in which
it was started until its output is closed.
-/

/-- A node with the buffers of its descriptors. -/
structure SinkNode (c : SinkConfig) where
  node : NodeState Sinks
  inputBuffer : InputBuffer c.toNodeConfig

/-- What happens to a node: a packet arrives, or a descriptor `fd` that it watches
    in the slot `index` is closed at the other end. -/
inductive SinkEvent where
  | receive (i : Incoming)
  | hangUp (index : Nat) (fd : Int)

/-- One round of the loop of `main`. -/
def sinkStep {c : SinkConfig} (delimiter : Int) (n : SinkNode c) :
    SinkEvent → Except Fault (SinkNode c × List SinkAction)
  | .receive i => do
    let (node, actions) ← receive c n.node i
    return ({ n with node }, actions)
  | .hangUp index _ => do
    let fd ← readOr n.node.sinks.streamFd[index]?
    let (inputBuffer, read) ←
      handleLocalData c.toNodeConfig n.node.argAddress delimiter fd true [] n.inputBuffer
    match read with
    | .closed _ =>
      let sinks := closeSink fd n.node.sinks
      let sinks := { sinks with streamFd := sinks.streamFd.set index IGNORE_FD }
      return ({ node := { n.node with sinks }, inputBuffer }, [])
    | _ => return ({ n with inputBuffer }, [])

/-- There is a slot for the output of every sink that is started, and only
    descriptors that are watched are closed. The connection to the router is
    handled elsewhere. -/
def SinkStart.Allowed (c : SinkConfig) (start : SinkStart) (n : SinkNode c) : SinkEvent → Prop
  | .receive (.data packet) =>
    n.node.sinks.sinkTable.lookup (c.demuxAddress n.node.argAddress packet.source) = none →
      0 < n.node.sinks.freeSlots
  | .receive (.reply _) => True
  | .hangUp index fd =>
    n.node.sinks.streamFd[index]? = some fd ∧ fd ≠ IGNORE_FD ∧ fd ≠ start.routerFd

/-! ## The live sinks -/

/-- A sink that was started and is not gone: where its input and output are, the
    payloads that arrived for its address since, and the bytes written to it. -/
structure LiveSink where
  address : UInt32
  stdin : Int
  stdout : Int
  payloads : List (List UInt8)
  written : List UInt8

/-- A sink that has just been started. -/
def LiveSink.new (spawned : UInt32 × SinkContext) : LiveSink where
  address := spawned.1
  stdin := spawned.2.wrapStdin.write
  stdout := spawned.2.wrapStdout.read
  payloads := []
  written := []

/-- A sink after a packet for `address`, when `writes` was written. -/
def LiveSink.packet (address : UInt32) (payload : List UInt8) (writes : List (Int × List UInt8))
    (sink : LiveSink) : LiveSink :=
  { sink with
    payloads := if sink.address = address then sink.payloads ++ [payload] else sink.payloads
    written := sink.written ++
      ((writes.filter fun write => write.1 = sink.stdin).map Prod.snd).flatten }

/-- What a step makes of the live sinks. -/
def liveAfter (c : SinkConfig) (argAddress : UInt32) (live : List LiveSink) :
    SinkEvent × List SinkAction → List LiveSink
  | (.receive (.data packet), actions) =>
    (live ++ (spawnedSinks actions).map LiveSink.new).map
      (LiveSink.packet (c.demuxAddress argAddress packet.source) packet.payload
        (sinkWrites actions))
  | (.receive (.reply _), _) => live
  | (.hangUp _ fd, _) => live.filter fun sink => sink.stdout ≠ fd

/-- The live sinks after a history of a node that was started with `started`. -/
def liveSinks (c : SinkConfig) (start : SinkStart) (started : List SinkAction)
    (tr : List (SinkEvent × List SinkAction)) : List LiveSink :=
  tr.foldl (liveAfter c start.argAddress) ((spawnedSinks started).map LiveSink.new)

/-- The entry of the table that a live sink has. -/
structure LiveSink.Matches (sink : LiveSink) (context : SinkContext) : Prop where
  stdin : context.wrapStdin.write = sink.stdin
  stdout : context.wrapStdout.read = sink.stdout
  packetsIn : context.packetsIn = UInt64.ofNat sink.payloads.length
  bytesIn : context.bytesIn = UInt64.ofNat sink.payloads.flatten.length

theorem LiveSink.packet_self (sink : LiveSink) (payload : List UInt8) :
    sink.packet sink.address payload [(sink.stdin, payload)] =
      { sink with
        payloads := sink.payloads ++ [payload]
        written := sink.written ++ payload } := by
  simp [packet]

theorem LiveSink.packet_of_ne {sink : LiveSink} {address : UInt32} {fd : Int}
    (haddress : sink.address ≠ address) (hstdin : sink.stdin ≠ fd) (payload : List UInt8) :
    sink.packet address payload [(fd, payload)] = sink := by
  simp [packet, haddress, hstdin.symm]

/-- The entry of a sink after a packet. -/
theorem LiveSink.Matches.count {sink : LiveSink} {context : SinkContext} (h : sink.Matches context)
    {length : UInt32} {payload : List UInt8} (hlength : length.toNat = payload.length) :
    LiveSink.Matches { sink with
      payloads := sink.payloads ++ [payload]
      written := sink.written ++ payload } (context.count length) := by
  have hwide : length.toUInt64 = UInt64.ofNat payload.length := by
    apply UInt64.toNat_inj.1
    have hlt : payload.length < UInt64.size := hlength ▸ Nat.lt_trans length.toNat_lt (by decide)
    rw [UInt32.toNat_toUInt64, UInt64.toNat_ofNat_of_lt' hlt, hlength]
  refine ⟨h.stdin, h.stdout, ?_, ?_⟩
  · show context.packetsIn + 1 = UInt64.ofNat (sink.payloads ++ [payload]).length
    rw [h.packetsIn, List.length_append, UInt64.ofNat_add]
    rfl
  · show context.bytesIn + length.toUInt64 = UInt64.ofNat (sink.payloads ++ [payload]).flatten.length
    rw [h.bytesIn, hwide, List.flatten_append, List.length_append, UInt64.ofNat_add,
      List.flatten_singleton]

/-- One more element with a value of its own. -/
theorem nodup_map_snoc {α β : Type*} {f : α → β} {l : List α} {a : α} (h : (l.map f).Nodup)
    (ha : f a ∉ l.map f) : ((l ++ [a]).map f).Nodup := by
  rw [List.map_append, List.map_singleton, ← List.concat_eq_append, List.nodup_concat]
  exact ⟨ha, h⟩

/-- The table holds the live sinks, one for each address. -/
structure TableHolds (live : List LiveSink) (s : Sinks) : Prop where
  addresses : (live.map LiveSink.address).Nodup
  stdins : (live.map LiveSink.stdin).Nodup
  stdouts : (live.map LiveSink.stdout).Nodup
  opened : ∀ sink ∈ live, sink.stdin ∈ s.opened ∧ sink.stdout ∈ s.opened
  listed : ∀ sink ∈ live, ∃ context, s.sinkTable.lookup sink.address = some context ∧
    sink.Matches context
  known : ∀ address context, s.sinkTable.lookup address = some context →
    ∃ sink ∈ live, sink.address = address
  written : ∀ sink ∈ live, sink.written = sink.payloads.flatten

section Steps

variable {live : List LiveSink} {s : Sinks} (h : TableHolds live s)
include h

/-- An address has no entry just if it has no live sink. -/
theorem TableHolds.lookup_none_iff {address : UInt32} :
    s.sinkTable.lookup address = none ↔ address ∉ live.map LiveSink.address := by
  constructor
  · intro hnone hmem
    obtain ⟨sink, hsink, rfl⟩ := List.mem_map.1 hmem
    obtain ⟨context, hlookup, -⟩ := h.listed sink hsink
    rw [hnone] at hlookup
    cases hlookup
  · intro hmem
    cases hlookup : s.sinkTable.lookup address with
    | none => rfl
    | some context =>
      obtain ⟨sink, hsink, haddress⟩ := h.known address context hlookup
      exact absurd (List.mem_map.2 ⟨sink, hsink, haddress⟩) hmem

/-- A sink is started for an address that has none. -/
theorem TableHolds.spawn {s' : Sinks} {address : UInt32} {context : SinkContext}
    (hspawned : Spawned address s s' context) (hnone : s.sinkTable.lookup address = none) :
    TableHolds (live ++ [LiveSink.new (address, context)]) s' := by
  have hnew := h.lookup_none_iff.1 hnone
  have hstdin : context.wrapStdin.write ∉ live.map LiveSink.stdin := by
    intro hmem
    obtain ⟨sink, hsink, heq⟩ := List.mem_map.1 hmem
    exact hspawned.stdin_fresh (heq ▸ (h.opened sink hsink).1)
  have hstdout : context.wrapStdout.read ∉ live.map LiveSink.stdout := by
    intro hmem
    obtain ⟨sink, hsink, heq⟩ := List.mem_map.1 hmem
    exact hspawned.stdout_fresh (heq ▸ (h.opened sink hsink).2)
  refine ⟨nodup_map_snoc h.addresses hnew, nodup_map_snoc h.stdins hstdin,
    nodup_map_snoc h.stdouts hstdout, fun sink hsink => ?_, fun sink hsink => ?_,
    fun address' context' hlookup => ?_, fun sink hsink => ?_⟩
  · rcases List.mem_append.1 hsink with hold | hlast
    · exact ⟨hspawned.opened _ (h.opened sink hold).1, hspawned.opened _ (h.opened sink hold).2⟩
    · cases List.mem_singleton.1 hlast
      exact ⟨hspawned.stdin_opened, hspawned.stdout_opened⟩
  · rw [hspawned.sinkTable]
    rcases List.mem_append.1 hsink with hold | hlast
    · have hne : sink.address ≠ address := by
        rintro rfl
        exact hnew (List.mem_map_of_mem hold)
      rw [AList.lookup_insert_ne hne]
      exact h.listed sink hold
    · cases List.mem_singleton.1 hlast
      refine ⟨context, AList.lookup_insert .., rfl, rfl, ?_, ?_⟩
      · rw [hspawned.packetsIn]
        rfl
      · rw [hspawned.bytesIn]
        rfl
  · rw [hspawned.sinkTable] at hlookup
    by_cases haddress : address' = address
    · exact ⟨_, List.mem_append_right _ (List.mem_singleton_self _), haddress.symm⟩
    · rw [AList.lookup_insert_ne haddress] at hlookup
      obtain ⟨sink, hsink, heq⟩ := h.known address' context' hlookup
      exact ⟨sink, List.mem_append_left _ hsink, heq⟩
  · rcases List.mem_append.1 hsink with hold | hlast
    · exact h.written sink hold
    · cases List.mem_singleton.1 hlast
      rfl

/-- A packet is written to the sink of its address. -/
theorem TableHolds.deliver {sink : LiveSink} (hsink : sink ∈ live) {context : SinkContext}
    (hlookup : s.sinkTable.lookup sink.address = some context) {length : UInt32}
    {payload : List UInt8} (hlength : length.toNat = payload.length) :
    TableHolds
      (live.map (LiveSink.packet sink.address payload [(context.wrapStdin.write, payload)]))
      (s.deliver sink.address context length payload) := by
  have hmatches : sink.Matches context := by
    obtain ⟨context', hlookup', hmatches⟩ := h.listed sink hsink
    rw [hlookup] at hlookup'
    cases hlookup'
    exact hmatches
  rw [hmatches.stdin]
  have hother : ∀ other ∈ live, other ≠ sink →
      other.packet sink.address payload [(sink.stdin, payload)] = other := by
    intro other hmem hne
    refine LiveSink.packet_of_ne (fun heq => hne ?_) (fun heq => hne ?_) payload
    · exact List.inj_on_of_nodup_map h.addresses hmem hsink heq
    · exact List.inj_on_of_nodup_map h.stdins hmem hsink heq
  refine ⟨?_, ?_, ?_, fun sink' hsink' => ?_, fun sink' hsink' => ?_,
    fun address' context' hlookup' => ?_, fun sink' hsink' => ?_⟩
  · rw [List.map_map]
    exact h.addresses
  · rw [List.map_map]
    exact h.stdins
  · rw [List.map_map]
    exact h.stdouts
  · obtain ⟨old, hold, rfl⟩ := List.mem_map.1 hsink'
    exact h.opened old hold
  · obtain ⟨old, hold, rfl⟩ := List.mem_map.1 hsink'
    by_cases heq : old = sink
    · rw [heq, LiveSink.packet_self]
      exact ⟨context.count length, AList.lookup_insert .., hmatches.count hlength⟩
    · have hne : old.address ≠ sink.address := fun haddress =>
        heq (List.inj_on_of_nodup_map h.addresses hold hsink haddress)
      rw [hother old hold heq]
      obtain ⟨context', hlookup', hmatches'⟩ := h.listed old hold
      exact ⟨context', (AList.lookup_insert_ne hne).trans hlookup', hmatches'⟩
  · by_cases haddress : address' = sink.address
    · exact ⟨_, List.mem_map_of_mem hsink, haddress.symm⟩
    · have hold : s.sinkTable.lookup address' = some context' :=
        (AList.lookup_insert_ne haddress).symm.trans hlookup'
      obtain ⟨old, hmem, heq⟩ := h.known address' context' hold
      exact ⟨_, List.mem_map_of_mem hmem, heq⟩
  · obtain ⟨old, hold, rfl⟩ := List.mem_map.1 hsink'
    by_cases heq : old = sink
    · rw [heq, LiveSink.packet_self]
      show sink.written ++ payload = (sink.payloads ++ [payload]).flatten
      rw [h.written sink hsink, List.flatten_append, List.flatten_singleton]
    · rw [hother old hold heq]
      exact h.written old hold

/-- A closed descriptor takes the sink out of the table whose output it is. -/
theorem TableHolds.closeSink_cases (fd : Int) :
    (∃ sink ∈ live, sink.stdout = fd ∧
        closeSink fd s = { s with sinkTable := s.sinkTable.erase sink.address }) ∨
      (∀ sink ∈ live, sink.stdout ≠ fd) ∧ closeSink fd s = s := by
  unfold closeSink
  cases hfind : s.sinkTable.entries.find? fun entry => decide (entry.2.wrapStdout.read = fd) with
  | some entry =>
    left
    have hread : entry.2.wrapStdout.read = fd := by simpa using List.find?_some hfind
    have hlookup : s.sinkTable.lookup entry.1 = some entry.2 :=
      AList.mem_lookup_iff.2 (List.mem_of_find?_eq_some hfind)
    obtain ⟨sink, hsink, haddress⟩ := h.known _ _ hlookup
    obtain ⟨context, hlookup', hmatches⟩ := h.listed sink hsink
    rw [haddress, hlookup] at hlookup'
    cases hlookup'
    exact ⟨sink, hsink, hmatches.stdout.symm.trans hread, by rw [haddress]⟩
  | none =>
    right
    refine ⟨fun sink hsink hfd => ?_, rfl⟩
    obtain ⟨context, hlookup, hmatches⟩ := h.listed sink hsink
    have hentry := List.find?_eq_none.1 hfind _ (AList.mem_lookup_iff.1 hlookup)
    exact hentry (by simpa using hmatches.stdout.trans hfd)

theorem TableHolds.close (fd : Int) :
    TableHolds (live.filter fun sink => sink.stdout ≠ fd) (closeSink fd s) := by
  have hopened : (closeSink fd s).opened = s.opened := by rw [closeSink_eq]
  -- an entry stays just if its output is another descriptor
  have hlookup : ∀ sink ∈ live, sink.stdout ≠ fd →
      (closeSink fd s).sinkTable.lookup sink.address = s.sinkTable.lookup sink.address := by
    intro sink hsink hne
    rcases h.closeSink_cases fd with ⟨closed, hclosed, hfd, hclose⟩ | ⟨-, hclose⟩
    · have haddress : sink.address ≠ closed.address := by
        intro heq
        have hsame := List.inj_on_of_nodup_map h.addresses hsink hclosed heq
        exact hne (hsame ▸ hfd)
      rw [hclose]
      exact AList.lookup_erase_ne haddress
    · rw [hclose]
  have hgone : ∀ sink ∈ live, sink.stdout = fd →
      (closeSink fd s).sinkTable.lookup sink.address = none := by
    intro sink hsink hfd
    rcases h.closeSink_cases fd with ⟨closed, hclosed, hfd', hclose⟩ | ⟨hother, -⟩
    · have hsame := List.inj_on_of_nodup_map h.stdouts hsink hclosed (hfd.trans hfd'.symm)
      rw [hclose, hsame]
      exact AList.lookup_erase ..
    · exact absurd hfd (hother sink hsink)
  have hsub : (live.filter fun sink => sink.stdout ≠ fd).Sublist live := List.filter_sublist
  have hmem : ∀ sink ∈ live.filter fun sink => sink.stdout ≠ fd,
      sink ∈ live ∧ sink.stdout ≠ fd := by
    intro sink hsink
    simpa using hsink
  refine ⟨h.addresses.sublist (hsub.map _), h.stdins.sublist (hsub.map _),
    h.stdouts.sublist (hsub.map _), fun sink hsink => ?_, fun sink hsink => ?_,
    fun address context hsome => ?_, fun sink hsink => h.written sink (hmem sink hsink).1⟩
  · rw [hopened]
    exact h.opened sink (hmem sink hsink).1
  · rw [hlookup sink (hmem sink hsink).1 (hmem sink hsink).2]
    exact h.listed sink (hmem sink hsink).1
  · have hold : ∃ context, s.sinkTable.lookup address = some context := by
      rcases h.closeSink_cases fd with ⟨closed, -, -, hclose⟩ | ⟨-, hclose⟩
      · rw [hclose] at hsome
        by_cases haddress : address = closed.address
        · rw [haddress, AList.lookup_erase] at hsome
          cases hsome
        · exact ⟨context, (AList.lookup_erase_ne haddress).symm.trans hsome⟩
      · exact ⟨context, hclose ▸ hsome⟩
    obtain ⟨context', hold⟩ := hold
    obtain ⟨sink, hsink, rfl⟩ := h.known _ _ hold
    have hne : sink.stdout ≠ fd := by
      intro hfd
      rw [hgone sink hsink hfd] at hsome
      cases hsome
    exact ⟨sink, List.mem_filter.2 ⟨hsink, by simpa using hne⟩, rfl⟩

end Steps

/-! ## Runs -/

/-- Only the table and the open descriptors matter. -/
theorem TableHolds.congr {live : List LiveSink} {s s' : Sinks} (h : TableHolds live s)
    (htable : s'.sinkTable = s.sinkTable) (hopened : s'.opened = s.opened) :
    TableHolds live s' := by
  refine ⟨h.addresses, h.stdins, h.stdouts, ?_, ?_, ?_, h.written⟩
  · rw [hopened]
    exact h.opened
  · rw [htable]
    exact h.listed
  · rw [htable]
    exact h.known

/-- A data packet is written to the live sink of its address, which is started just
    if there is none. -/
theorem TableHolds.data {c : SinkConfig} {live : List LiveSink} {n : NodeState Sinks}
    (h : TableHolds live n.sinks) (hactions : n.sinks.actions = []) (hkernel : c.kernel.Fresh)
    (hmode : c.demuxMode ≠ .spawn) (packet : DataPacket)
    (hslot : n.sinks.sinkTable.lookup (c.demuxAddress n.argAddress packet.source) = none →
      0 < n.sinks.freeSlots) :
    ∃ n' actions, receive c n (.data packet) = .ok (n', actions) ∧
      n'.argAddress = n.argAddress ∧ n'.sinks.actions = [] ∧
      (spawnedSinks actions).map Prod.fst =
        (if c.demuxAddress n.argAddress packet.source ∈ live.map LiveSink.address then []
          else [c.demuxAddress n.argAddress packet.source]) ∧
      TableHolds (liveAfter c n.argAddress live (.receive (.data packet), actions)) n'.sinks := by
  cases hlookup : n.sinks.sinkTable.lookup (c.demuxAddress n.argAddress packet.source) with
  | some context =>
    obtain ⟨sink, hsink, haddress⟩ := h.known _ _ hlookup
    have hmem : c.demuxAddress n.argAddress packet.source ∈ live.map LiveSink.address :=
      List.mem_map.2 ⟨sink, hsink, haddress⟩
    refine ⟨_, _, receive_data (writeToSink_known packet.header_length hlookup), rfl, rfl, ?_, ?_⟩
    · rw [if_pos hmem]
      simp [Sinks.deliver, hactions, spawnedSinks]
    · have hdeliver := h.deliver hsink (haddress ▸ hlookup) packet.header_length
      rw [haddress] at hdeliver
      have hafter : liveAfter c n.argAddress live (.receive (.data packet),
          (n.sinks.deliver (c.demuxAddress n.argAddress packet.header.source) context
            packet.header.length packet.payload).actions) =
          live.map (LiveSink.packet (c.demuxAddress n.argAddress packet.source) packet.payload
            [(context.wrapStdin.write, packet.payload)]) := by
        simp [liveAfter, Sinks.deliver, hactions, spawnedSinks, sinkWrites]
      rw [hafter]
      exact hdeliver.congr rfl rfl
  | none =>
    have hmem := h.lookup_none_iff.1 hlookup
    obtain ⟨s', context, hspawned, hwrite⟩ :=
      writeToSink_new hkernel hlookup packet.header_length hmode (hslot hlookup)
    refine ⟨_, _, receive_data hwrite, rfl, rfl, ?_, ?_⟩
    · rw [if_neg hmem]
      simp [Sinks.deliver, hspawned.actions, hactions, spawnedSinks]
    · let new := LiveSink.new (c.demuxAddress n.argAddress packet.source, context)
      have hnew : new ∈ live ++ [new] := by simp
      have hfound : s'.sinkTable.lookup new.address = some context := by
        rw [hspawned.sinkTable]
        exact AList.lookup_insert ..
      have hdeliver := (h.spawn hspawned hlookup).deliver hnew hfound packet.header_length
      have hafter : liveAfter c n.argAddress live (.receive (.data packet),
          (s'.deliver (c.demuxAddress n.argAddress packet.header.source) context
            packet.header.length packet.payload).actions) =
          (live ++ [new]).map (LiveSink.packet new.address packet.payload
            [(context.wrapStdin.write, packet.payload)]) := by
        simp [liveAfter, Sinks.deliver, hspawned.actions, hactions, spawnedSinks, sinkWrites, new,
          LiveSink.new]
      rw [hafter]
      exact hdeliver.congr rfl rfl

/-- A descriptor that is closed is not watched any more, and a sink whose output it was
    is taken out. -/
theorem sinkStep_hangUp {c : SinkConfig} (delimiter : Int) {n : SinkNode c} {index : Nat} {fd : Int}
    (hindex : n.node.sinks.streamFd[index]? = some fd) :
    ∃ inputBuffer, sinkStep delimiter n (.hangUp index fd) = .ok ({
      node := { n.node with sinks := { n.node.sinks with
        sinkTable := (closeSink fd n.node.sinks).sinkTable
        streamFd := n.node.sinks.streamFd.set index IGNORE_FD } }
      inputBuffer }, []) := by
  have hclosed : ∃ inputBuffer, handleLocalData c.toNodeConfig n.node.argAddress delimiter fd true []
      n.inputBuffer = .ok (inputBuffer, .closed (fd = STDIN_FILENO)) := by
    unfold handleLocalData
    rcases getLocalBuffer c.toNodeConfig fd n.inputBuffer with ⟨inputBuffer, _ | buffer⟩
    · exact ⟨_, rfl⟩
    · exact ⟨_, rfl⟩
  obtain ⟨inputBuffer, hlocal⟩ := hclosed
  refine ⟨inputBuffer, ?_⟩
  rw [sinkStep, hindex, readOr_some, Except.ok_bind, hlocal, Except.ok_bind, closeSink_eq]
  rfl

/-- The live sinks after a descriptor is closed. -/
theorem TableHolds.hangUp {c : SinkConfig} {live : List LiveSink} {n : SinkNode c} (delimiter : Int)
    (h : TableHolds live n.node.sinks) (hactions : n.node.sinks.actions = []) {index : Nat} {fd : Int}
    (hindex : n.node.sinks.streamFd[index]? = some fd) :
    ∃ n', sinkStep delimiter n (.hangUp index fd) = .ok (n', []) ∧
      n'.node.argAddress = n.node.argAddress ∧ n'.node.sinks.actions = [] ∧
      n'.node.sinks.sinkTable = (closeSink fd n.node.sinks).sinkTable ∧
      TableHolds (live.filter fun sink => sink.stdout ≠ fd) n'.node.sinks := by
  obtain ⟨inputBuffer, hstep⟩ := sinkStep_hangUp delimiter hindex
  have hclose := h.close fd
  rw [closeSink_eq] at hclose
  exact ⟨_, hstep, rfl, hactions, rfl, hclose.congr rfl rfl⟩

/-- The sinks of a node that has just been started, with one of them if it is to
    start at once. -/
theorem SinkStart.accounted {c : SinkConfig} {start : SinkStart} {n₀ : NodeState Sinks}
    {started : List SinkAction} (hkernel : c.kernel.Fresh)
    (hstart : start.node c = .ok (n₀, started)) :
    n₀.argAddress = start.argAddress ∧ n₀.sinks.actions = [] ∧
      TableHolds ((spawnedSinks started).map LiveSink.new) n₀.sinks := by
  let s : Sinks :=
    { sinkTable := ∅, streamFd := start.streamFd, nextLocalAddress := 0, opened := start.opened
      calls := 0, actions := [] }
  have hempty : TableHolds [] s := by
    refine ⟨List.nodup_nil, List.nodup_nil, List.nodup_nil, fun _ hsink => ?_, fun _ hsink => ?_,
      fun address context hlookup => ?_, fun _ hsink => ?_⟩
    · cases hsink
    · cases hsink
    · rw [AList.lookup_empty] at hlookup
      cases hlookup
    · cases hsink
  cases himmediate : start.argImmediate with
  | false =>
    simp only [SinkStart.node, himmediate] at hstart
    cases hstart
    exact ⟨rfl, rfl, hempty⟩
  | true =>
    simp only [SinkStart.node, himmediate, if_true] at hstart
    by_cases hslot : 0 < s.freeSlots
    · obtain ⟨s', context, hspawn, hspawned⟩ := autoSpawn_spawned hkernel hslot start.argAddress
      rw [hspawn] at hstart
      cases hstart
      rw [hspawned.actions]
      exact ⟨rfl, rfl, (hempty.spawn hspawned (AList.lookup_empty _)).congr rfl rfl⟩
    · rw [autoSpawn_error hkernel (s := s) (by omega)] at hstart
      cases hstart

theorem liveSinks_snoc (c : SinkConfig) (start : SinkStart) (started : List SinkAction)
    (tr : List (SinkEvent × List SinkAction)) (e : SinkEvent × List SinkAction) :
    liveSinks c start started (tr ++ [e]) =
      liveAfter c start.argAddress (liveSinks c start started tr) e := by
  rw [liveSinks, List.foldl_append]
  rfl

section Runs

variable {c : SinkConfig} {start : SinkStart} {started : List SinkAction}
  (hkernel : c.kernel.Fresh) (hmode : c.demuxMode ≠ .spawn) (haddress : start.argAddress ≠ 0)
include hkernel hmode haddress

/-- Every event that may happen is handled, and the table holds the live sinks
    again. -/
theorem TableHolds.step {tr : List (SinkEvent × List SinkAction)} {n : SinkNode c}
    (harg : n.node.argAddress = start.argAddress) (hactions : n.node.sinks.actions = [])
    (h : TableHolds (liveSinks c start started tr) n.node.sinks) {e : SinkEvent}
    (hallowed : start.Allowed c n e) (delimiter : Int) :
    ∃ n' actions, sinkStep delimiter n e = .ok (n', actions) ∧
      n'.node.argAddress = start.argAddress ∧ n'.node.sinks.actions = [] ∧
      TableHolds (liveSinks c start started (tr ++ [(e, actions)])) n'.node.sinks := by
  cases e with
  | receive i =>
    cases i with
    | data packet =>
      obtain ⟨node, actions, hreceive, harg', hactions', -, hafter⟩ :=
        h.data hactions hkernel hmode packet hallowed
      refine ⟨{ n with node }, actions, by rw [sinkStep, hreceive]; rfl, harg'.trans harg, hactions',
        ?_⟩
      rw [liveSinks_snoc, ← harg]
      exact hafter
    | reply address =>
      have hreceive := receive_reply (c := c) (n := n.node) address
      refine ⟨_, _, by rw [sinkStep, hreceive]; rfl, ?_, rfl, ?_⟩
      · dsimp only
        rw [harg, if_neg haddress]
      · rw [liveSinks_snoc]
        exact h.congr rfl rfl
  | hangUp index fd =>
    obtain ⟨n', hstep, harg', hactions', -, hafter⟩ := h.hangUp delimiter hactions hallowed.1
    exact ⟨n', [], hstep, harg'.trans harg, hactions', by rw [liveSinks_snoc]; exact hafter⟩

/-- The table holds the live sinks at every moment. -/
theorem TableHolds.run {n₀ : NodeState Sinks} {delimiter : Int} (hstart : start.node c = .ok (n₀, started))
    {tr : List (SinkEvent × List SinkAction)} {n : SinkNode c}
    (hrun : Machine.Run (start.Allowed c) (sinkStep delimiter) ⟨n₀, Table.empty⟩ tr n) :
    n.node.argAddress = start.argAddress ∧ n.node.sinks.actions = [] ∧
      TableHolds (liveSinks c start started tr) n.node.sinks := by
  induction hrun with
  | nil => exact SinkStart.accounted hkernel hstart
  | @snoc tr n n' e actions hrun hallowed hstep ih =>
    obtain ⟨harg, hactions, h⟩ := ih
    obtain ⟨n'', actions', hstep', hnext⟩ :=
      h.step hkernel hmode haddress harg hactions hallowed delimiter
    rw [hstep] at hstep'
    cases hstep'
    exact hnext

end Runs

/-- What is to hold of the sinks of a node after a history `tr`, and of the next
    event. -/
structure SinksAccounted {c : SinkConfig} (delimiter : Int) (start : SinkStart)
    (started : List SinkAction) (tr : List (SinkEvent × List SinkAction)) (n : SinkNode c) :
    Prop where
  /-- No address has two sinks. -/
  addresses : ((liveSinks c start started tr).map LiveSink.address).Nodup
  known : ∀ address, (n.node.sinks.sinkTable.lookup address).isSome ↔
    address ∈ (liveSinks c start started tr).map LiveSink.address
  /-- The table has the descriptors of every live sink, and counts its packets and
      their bytes. -/
  listed : ∀ sink ∈ liveSinks c start started tr, ∃ context,
    n.node.sinks.sinkTable.lookup sink.address = some context ∧ sink.Matches context
  written : ∀ sink ∈ liveSinks c start started tr, sink.written = sink.payloads.flatten
  /-- A packet starts a sink just if its address has none. -/
  packet : ∀ packet, start.Allowed c n (.receive (.data packet)) →
    ∃ n' actions, sinkStep delimiter n (.receive (.data packet)) = .ok (n', actions) ∧
      (spawnedSinks actions).map Prod.fst =
        (if c.demuxAddress start.argAddress packet.source ∈
            (liveSinks c start started tr).map LiveSink.address then []
          else [c.demuxAddress start.argAddress packet.source])
  reply : ∀ address, ∃ n', sinkStep delimiter n (.receive (.reply address)) = .ok (n', [])
  /-- A closed output removes its sink, and nothing else. -/
  outputs : ((liveSinks c start started tr).map LiveSink.stdout).Nodup
  hangUp : ∀ index fd, start.Allowed c n (.hangUp index fd) →
    ∃ n', sinkStep delimiter n (.hangUp index fd) = .ok (n', []) ∧
      ((∃ sink ∈ liveSinks c start started tr, sink.stdout = fd ∧
          n'.node.sinks.sinkTable = n.node.sinks.sinkTable.erase sink.address) ∨
        (∀ sink ∈ liveSinks c start started tr, sink.stdout ≠ fd) ∧
          n'.node.sinks.sinkTable = n.node.sinks.sinkTable)

/-- At every moment of a node that is not in the mode `spawn`, there is one sink for
    each address that had a packet since its last sink was gone. It was given the
    payloads of exactly the packets for this address since it was started, and they
    are counted. -/
theorem sinks_accounted {c : SinkConfig} {delimiter : Int} {start : SinkStart}
    {started : List SinkAction} (hkernel : c.kernel.Fresh) (hmode : c.demuxMode ≠ .spawn)
    (haddress : start.argAddress ≠ 0) {n₀ : NodeState Sinks}
    (hstart : start.node c = .ok (n₀, started)) {tr : List (SinkEvent × List SinkAction)}
    {n : SinkNode c}
    (hrun : Machine.Run (start.Allowed c) (sinkStep delimiter) ⟨n₀, Table.empty⟩ tr n) :
    SinksAccounted delimiter start started tr n := by
  obtain ⟨harg, hactions, h⟩ := TableHolds.run hkernel hmode haddress hstart hrun
  refine ⟨h.addresses, fun address => ?_, h.listed, h.written, fun packet hallowed => ?_,
    fun address => ?_, h.stdouts, fun index fd hallowed => ?_⟩
  · rw [← not_iff_not, Option.not_isSome_iff_eq_none]
    exact h.lookup_none_iff
  · obtain ⟨node, actions, hreceive, -, -, hspawned, -⟩ :=
      h.data hactions hkernel hmode packet hallowed
    rw [harg] at hspawned
    exact ⟨{ n with node }, actions, by rw [sinkStep, hreceive]; rfl, hspawned⟩
  · have hreceive := receive_reply (c := c) (n := n.node) address
    rw [hactions] at hreceive
    exact ⟨_, by rw [sinkStep, hreceive]; rfl⟩
  · obtain ⟨n', hstep, -, -, htable, -⟩ := h.hangUp delimiter hactions hallowed.1
    refine ⟨n', hstep, ?_⟩
    rw [htable]
    rcases h.closeSink_cases fd with ⟨sink, hsink, hfd, hclose⟩ | ⟨hnone, hclose⟩
    · exact .inl ⟨sink, hsink, hfd, by rw [hclose]⟩
    · exact .inr ⟨hnone, by rw [hclose]⟩

instance SinkStart.decidableAllowed (c : SinkConfig) (start : SinkStart) (n : SinkNode c) :
    (e : SinkEvent) → Decidable (start.Allowed c n e)
  | .receive (.data _) => inferInstanceAs (Decidable (_ → _))
  | .receive (.reply _) => inferInstanceAs (Decidable True)
  | .hangUp _ _ => inferInstanceAs (Decidable (_ ∧ _))

def noopConfig : SinkConfig := { spawnConfig with demuxMode := .noop }

/-- A sink is started for the address 9, its output is closed, and another packet
    starts another sink. -/
theorem sinks_accounted_again :
    ∃ tr n, Machine.Run (spawnStart.Allowed noopConfig) (sinkStep 10) ⟨spawnNode, Table.empty⟩ tr n ∧
      (tr.map fun e => (spawnedSinks e.2).map Prod.fst) = [[9], [], [9]] ∧
      SinksAccounted 10 spawnStart [] tr n := by
  have hsim : ((Machine.simulate (spawnStart.Allowed noopConfig) (sinkStep 10)
      ⟨spawnNode, Table.empty⟩ [.receive (byteFrom 9), .hangUp 1 6, .receive (byteFrom 9)]).any
        fun r => decide ((r.2.map fun e => (spawnedSinks e.2).map Prod.fst) = [[9], [], [9]])) =
          true := by
    decide +kernel
  obtain ⟨tr, n, hrun, hspawned⟩ := Machine.Run.exists_of_simulate hsim
  have hstart : spawnStart.node noopConfig = .ok (spawnNode, []) := rfl
  exact ⟨tr, n, hrun, of_decide_eq_true hspawned,
    sinks_accounted lowestKernel_fresh (by decide) (by decide) hstart hrun⟩
