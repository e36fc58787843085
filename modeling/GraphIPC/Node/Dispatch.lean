-- SUMMARY: GraphWrap.c, main: a whole node, which in each round of its loop reads from the first descriptor that is ready.
import GraphIPC.Node.Demux
import GraphIPC.Node.HandleRemoteData

/-!
# The dispatch loop of a node

A node watches its connection to the router, the outputs of its sinks and, with `-i`,
its standard input. In each round it looks for the first descriptor that is ready, and
goes no further: if that is a local one and the node has no address yet, the round is
over without a read, whatever else is ready.
-/

/-- `MUX_NOOP` and `MUX_MERGE` -/
inductive MuxMode where
  | noop
  | merge
  deriving DecidableEq, Repr

/-- What a node depends on as a whole. -/
structure DispatchConfig extends SinkConfig where
  argEcho : Bool
  muxMode : MuxMode
  argDelimiter : Int
  routerFd : Int

/-- `applyMuxPolicy` -/
def applyMuxPolicy (c : DispatchConfig) (argAddress address : UInt32) : UInt32 :=
  match c.muxMode with
  | .noop => address
  | .merge => argAddress

/-- The packet handler of a node. -/
def DispatchConfig.handlePacket (c : DispatchConfig) (header : Header) (payload : List UInt8)
    (n : NodeState Sinks) : Except Fault (NodeState Sinks) :=
  nodeHandlePacket (writeToSink c.toSinkConfig n.argAddress) c.order c.argEcho header payload n

/-- A node with the `status` that ends its loop. -/
structure Dispatch (c : DispatchConfig) extends SinkNode c.toSinkConfig where
  status : Bool

/-- The answer of `poll`: the slots of `stream_fd` that have events, what a read of the
    descriptor in a slot returns, and whether it is closed at the other end. -/
structure Poll where
  revents : Nat → Bool
  data : Nat → List UInt8
  gone : Nat → Bool

/-- What is seen of a round: the descriptor that was read from, the packets that were
    sent for it, and what the sinks were made to do. -/
structure Round where
  read : Option Int
  packets : List (List UInt8)
  actions : List SinkAction
  deriving DecidableEq, Repr

/-- A round without a read. -/
def Round.idle : Round := ⟨none, [], []⟩

/-- The first slot with events. -/
def firstReady (streamFd : List Int) (poll : Poll) : Option Nat :=
  (List.range streamFd.length).find? poll.revents

section Rounds

variable {c : DispatchConfig}

/-- The slot that a round reads from: the first with events, but for a local descriptor of
    a node without an address. -/
def Dispatch.select (n : Dispatch c) (poll : Poll) : Option (Nat × Int) := do
  let index ← firstReady n.node.sinks.streamFd poll
  let fd ← n.node.sinks.streamFd[index]?
  if fd = c.routerFd then some (index, fd)
  else if n.node.argAddress ≠ 0 then some (index, fd)
  else none

/-- The call of `handleRemoteData` for the slot `index`. -/
def Dispatch.remoteData (n : Dispatch c) (index : Nat) (fd : Int) (data : List UInt8) :
    Except Fault (Dispatch c × Round) := do
  let (inputBuffer, node, received) ←
    handleRemoteData c.toNodeConfig c.handlePacket c.routerFd fd data n.inputBuffer n.node
  let round : Round := { read := some fd, packets := [], actions := node.sinks.actions }
  let sinks := { node.sinks with actions := [] }
  match received with
  | .closed shutdown =>
    let sinks := { sinks with streamFd := sinks.streamFd.set index IGNORE_FD }
    return (⟨⟨{ node with sinks }, inputBuffer⟩, n.status || shutdown⟩, round)
  | .arrived => return (⟨⟨{ node with sinks }, inputBuffer⟩, n.status⟩, round)

/-- The call of `handleLocalData` for the slot `index`. Both of its calls of
    `applyMuxPolicy` pass the address of the node. -/
def Dispatch.localData (n : Dispatch c) (index : Nat) (fd : Int) (gone : Bool) (data : List UInt8) :
    Except Fault (Dispatch c × Round) := do
  let source := applyMuxPolicy c n.node.argAddress n.node.argAddress
  let (inputBuffer, read) ←
    handleLocalData c.toNodeConfig source c.argDelimiter fd gone data n.inputBuffer
  let round : Round := { read := some fd, packets := read.packets, actions := [] }
  match read with
  | .closed shutdown =>
    let sinks := closeSink fd n.node.sinks
    let sinks := { sinks with streamFd := sinks.streamFd.set index IGNORE_FD }
    return (⟨⟨{ n.node with sinks }, inputBuffer⟩, n.status || shutdown⟩, round)
  | _ => return (⟨⟨n.node, inputBuffer⟩, n.status⟩, round)

/-- One round of the loop of `main`. -/
def dispatch (n : Dispatch c) (poll : Poll) : Except Fault (Dispatch c × Round) :=
  match n.select poll with
  | none => .ok (n, .idle)
  | some (index, fd) =>
    if fd = c.routerFd then n.remoteData index fd (poll.data index)
    else n.localData index fd (poll.gone index) (poll.data index)

/-- The loop goes on, and `poll` finds nothing in a slot that is to be ignored. -/
def Dispatch.Allowed (n : Dispatch c) (poll : Poll) : Prop :=
  n.status = false ∧ ∀ index < n.node.sinks.streamFd.length,
    n.node.sinks.streamFd[index]? = some IGNORE_FD → poll.revents index = false

instance Dispatch.decidableAllowed (n : Dispatch c) (poll : Poll) : Decidable (n.Allowed poll) :=
  inferInstanceAs (Decidable (_ ∧ _))

end Rounds

/-! ## Starting a node -/

def MAX_INPUT_STREAMS : Nat := 256

/-- The arguments of a node: the address, or 0, whether a sink is started at once, and how
    often `-i` is given. -/
structure Options where
  argAddress : UInt32
  argImmediate : Bool
  inputs : Nat
  opened : List Int

/-- What is watched at the beginning: the standard input for every `-i`, and then the
    connection to the router. -/
def Options.streamFd (o : Options) (routerFd : Int) : Except Fault (List Int) := do
  let streamFd ← (List.replicate o.inputs STDIN_FILENO).foldlM
    (fun streamFd fd => addNewWatch fd streamFd) (List.replicate MAX_INPUT_STREAMS IGNORE_FD)
  addNewWatch routerFd streamFd

/-- The request for an address. -/
def Options.request (o : Options) (order : ByteOrder) : Except Fault (List UInt8) :=
  if o.argAddress = 0 then gnwEmitCommandPacket order GNW_COMMAND [GNW_CMD_NEW_ADDRESS] 1
  else
    let ptr : Cursor := ⟨List.replicate 5 0, 0⟩
    let ptr := packetWriteU8 ptr GNW_CMD_NEW_ADDRESS
    let ptr := packetWriteU32 order ptr o.argAddress
    gnwEmitCommandPacket order GNW_COMMAND ptr.block 5

/-- The node when it enters the loop, and what it has done until then. -/
def Options.start (o : Options) (c : DispatchConfig) :
    Except Fault (Dispatch c × List SinkAction) := do
  let streamFd ← o.streamFd c.routerFd
  let frame ← o.request c.order
  assertThat false (!o.argImmediate || o.argAddress != 0)
    "Tried to start a new node in immediate mode without a valid address! STOP."
  let sinkStart : SinkStart :=
    { argAddress := o.argAddress, argImmediate := o.argImmediate, routerFd := c.routerFd
      streamFd, opened := o.opened }
  let (node, actions) ← sinkStart.node c.toSinkConfig
  return (⟨⟨node, Table.empty⟩, false⟩, .request frame :: actions)

/-! ## What is watched -/

/-- The standard input is watched in the first slots and the connection to the router in
    the slot behind them, and nowhere else. -/
structure Watches (inputs : Nat) (routerFd : Int) (streamFd opened : List Int) : Prop where
  slots : ∃ rest, streamFd = List.replicate inputs STDIN_FILENO ++ routerFd :: rest ∧
    STDIN_FILENO ∉ rest ∧ routerFd ∉ rest
  stdin_opened : STDIN_FILENO ∈ opened
  router_opened : routerFd ∈ opened

section Watches

variable {inputs : Nat} {routerFd : Int} {streamFd opened : List Int}
  (h : Watches inputs routerFd streamFd opened)
include h

/-- The slot of the connection to the router. -/
theorem Watches.router_slot : streamFd[inputs]? = some routerFd := by
  obtain ⟨rest, rfl, -⟩ := h.slots
  simp

/-- In front of it there is only the standard input. -/
theorem Watches.stdin_of_lt {index : Nat} (hindex : index < inputs) :
    streamFd[index]? = some STDIN_FILENO := by
  obtain ⟨rest, rfl, -⟩ := h.slots
  rw [List.getElem?_append_left (by simpa using hindex)]
  exact List.getElem?_replicate_of_lt hindex

/-- Behind it there is neither. -/
theorem Watches.rest_of_lt {index : Nat} (hindex : inputs < index) :
    streamFd[index]? ≠ some STDIN_FILENO ∧ streamFd[index]? ≠ some routerFd := by
  obtain ⟨rest, rfl, hstdin, hrouter⟩ := h.slots
  obtain ⟨behind, rfl⟩ := Nat.exists_eq_add_of_lt hindex
  have hslot : (List.replicate inputs STDIN_FILENO ++ routerFd :: rest)[inputs + behind + 1]? =
      rest[behind]? := by
    rw [List.getElem?_append_right (by simp; omega), List.length_replicate,
      show inputs + behind + 1 - inputs = behind + 1 by omega, List.getElem?_cons_succ]
  rw [hslot]
  exact ⟨fun hmem => hstdin (List.mem_of_getElem? hmem), fun hmem =>
    hrouter (List.mem_of_getElem? hmem)⟩

/-- A slot behind the connection to the router may be given another descriptor. -/
theorem Watches.set {index : Nat} (hindex : inputs < index) {fd : Int} (hstdin : fd ≠ STDIN_FILENO)
    (hrouter : fd ≠ routerFd) : Watches inputs routerFd (streamFd.set index fd) opened := by
  obtain ⟨rest, rfl, hstdin', hrouter'⟩ := h.slots
  obtain ⟨behind, rfl⟩ := Nat.exists_eq_add_of_lt hindex
  refine ⟨⟨rest.set behind fd, ?_, fun hmem => ?_, fun hmem => ?_⟩, h.stdin_opened, h.router_opened⟩
  · rw [List.set_append_right _ _ (by simp; omega), List.length_replicate,
      show inputs + behind + 1 - inputs = behind + 1 by omega, List.set_cons_succ]
  · rcases List.mem_or_eq_of_mem_set hmem with hmem | heq
    · exact hstdin' hmem
    · exact hstdin heq.symm
  · rcases List.mem_or_eq_of_mem_set hmem with hmem | heq
    · exact hrouter' hmem
    · exact hrouter heq.symm

/-- Every other slot lies behind it. -/
theorem Watches.lt_of_ne {index : Nat} {fd : Int} (hindex : streamFd[index]? = some fd)
    (hstdin : fd ≠ STDIN_FILENO) (hrouter : fd ≠ routerFd) : inputs < index := by
  rcases lt_trichotomy index inputs with hlt | rfl | hlt
  · rw [h.stdin_of_lt hlt] at hindex
    exact absurd (Option.some.inj hindex).symm hstdin
  · rw [h.router_slot] at hindex
    exact absurd (Option.some.inj hindex).symm hrouter
  · exact hlt

/-- A new descriptor is watched behind the others. -/
theorem Watches.addNewWatch (hrouter : routerFd ≠ IGNORE_FD) {fd : Int} {streamFd' : List Int}
    (hfresh : fd ∉ opened) (hwatch : addNewWatch fd streamFd = .ok streamFd') :
    Watches inputs routerFd streamFd' opened := by
  obtain ⟨index, hfree, rfl⟩ := addNewWatch_ok hwatch
  apply h.set (h.lt_of_ne hfree (by decide) hrouter.symm)
  · rintro rfl
    exact hfresh h.stdin_opened
  · rintro rfl
    exact hfresh h.router_opened

end Watches

/-- A sink's output is watched behind the others. -/
theorem Watches.autoSpawn {c : SinkConfig} (hkernel : c.kernel.Fresh) {inputs : Nat} {routerFd : Int}
    (hrouter : routerFd ≠ IGNORE_FD) {address : UInt32} {s s' : Sinks}
    (h : Watches inputs routerFd s.streamFd s.opened) (hspawn : autoSpawn c address s = .ok s') :
    Watches inputs routerFd s'.streamFd s'.opened := by
  obtain ⟨context, hspawned, hwatch⟩ := autoSpawn_inv hkernel hspawn
  have hwatched := h.addNewWatch hrouter hspawned.stdout_fresh hwatch
  exact ⟨hwatched.slots, hspawned.opened _ h.stdin_opened, hspawned.opened _ h.router_opened⟩

/-- No frame takes the standard input or the connection to the router out. -/
theorem Watches.handlePacket {c : DispatchConfig} (hkernel : c.kernel.Fresh)
    (hrouter : c.routerFd ≠ IGNORE_FD) {inputs : Nat} {header : Header} {payload : List UInt8}
    {n n' : NodeState Sinks} (hhandle : c.handlePacket header payload n = .ok n')
    (h : Watches inputs c.routerFd n.sinks.streamFd n.sinks.opened) :
    Watches inputs c.routerFd n'.sinks.streamFd n'.sinks.opened := by
  rcases nodeHandlePacket_sinks _ hhandle with heq | hwrite
  · rw [heq]
    exact h
  rcases writeToSink_cases hwrite with ⟨hstreams, hopened⟩ |
    ⟨address, s₀, s₁, hstreams₀, hopened₀, hspawn, hstreams, hopened⟩
  · rw [hstreams, hopened]
    exact h
  · rw [hstreams, hopened]
    rw [← hstreams₀, ← hopened₀] at h
    exact h.autoSpawn hkernel hrouter hspawn

section Runs

variable {c : DispatchConfig}

/-- A round reads from the first slot with events. -/
theorem Dispatch.select_eq_some_iff {n : Dispatch c} {poll : Poll} {index : Nat} {fd : Int} :
    n.select poll = some (index, fd) ↔
      firstReady n.node.sinks.streamFd poll = some index ∧
        n.node.sinks.streamFd[index]? = some fd ∧ (fd = c.routerFd ∨ n.node.argAddress ≠ 0) := by
  simp only [select, Option.bind_eq_bind, Option.bind_eq_some_iff]
  constructor
  · rintro ⟨index', hfirst, fd', hfd, hselect⟩
    split at hselect
    · rename_i hrouter
      cases hselect
      exact ⟨hfirst, hfd, .inl hrouter⟩
    split at hselect
    · rename_i haddress
      cases hselect
      exact ⟨hfirst, hfd, .inr haddress⟩
    · cases hselect
  · rintro ⟨hfirst, hfd, hread⟩
    refine ⟨index, hfirst, fd, hfd, ?_⟩
    rcases hread with hrouter | haddress
    · rw [if_pos hrouter]
    · rw [if_pos haddress, ite_self]

/-- A round reads from a descriptor just if it has selected one. -/
theorem Dispatch.reads_iff {n : Dispatch c} {poll : Poll} :
    (∀ n' round, dispatch n poll = .ok (n', round) → ∃ fd, round.read = some fd) ↔
      ∃ slot, n.select poll = some slot := by
  unfold dispatch
  cases hselect : n.select poll with
  | none =>
    constructor
    · intro hreads
      obtain ⟨fd, hread⟩ := hreads n .idle rfl
      cases hread
    · rintro ⟨slot, hslot⟩
      cases hslot
  | some slot =>
    obtain ⟨index, fd⟩ := slot
    refine ⟨fun _ => ⟨_, rfl⟩, fun _ n' round hstep => ⟨fd, ?_⟩⟩
    dsimp only at hstep
    split at hstep
    · simp only [Dispatch.remoteData, Except.bind_eq_ok_iff] at hstep
      obtain ⟨⟨inputBuffer, node, received⟩, -, hstep⟩ := hstep
      cases received <;> cases hstep <;> rfl
    · simp only [Dispatch.localData, Except.bind_eq_ok_iff] at hstep
      obtain ⟨⟨inputBuffer, read⟩, -, hstep⟩ := hstep
      cases read <;> cases hstep <;> rfl

variable (hkernel : c.kernel.Fresh) (hrouter : c.routerFd ≠ IGNORE_FD)
include hkernel hrouter

/-- As long as the loop goes on, the standard input and the connection to the router stay
    where they are. -/
theorem Watches.step {inputs : Nat} {n n' : Dispatch c} {poll : Poll} {round : Round}
    (h : Watches inputs c.routerFd n.node.sinks.streamFd n.node.sinks.opened)
    (hstep : dispatch n poll = .ok (n', round)) (hgoes : n'.status = false) :
    Watches inputs c.routerFd n'.node.sinks.streamFd n'.node.sinks.opened := by
  unfold dispatch at hstep
  cases hselect : n.select poll with
  | none =>
    rw [hselect] at hstep
    cases hstep
    exact h
  | some slot =>
    obtain ⟨index, fd⟩ := slot
    obtain ⟨-, hindex, -⟩ := Dispatch.select_eq_some_iff.1 hselect
    rw [hselect] at hstep
    dsimp only at hstep
    split at hstep
    · rename_i hfd
      simp only [Dispatch.remoteData, Except.bind_eq_ok_iff] at hstep
      obtain ⟨⟨inputBuffer, node, received⟩, hremote, hstep⟩ := hstep
      have hkept := (handleRemoteData_preserves
        (P := fun n => Watches inputs c.routerFd n.sinks.streamFd n.sinks.opened)
        (fun _ _ _ _ hhandle hn => hn.handlePacket hkernel hrouter hhandle) hremote).1 h
      cases received with
      | closed shutdown =>
        have hshutdown := handleRemoteData_closed hremote
        cases hstep
        rw [hshutdown, decide_eq_true hfd, Bool.or_true] at hgoes
        cases hgoes
      | arrived =>
        cases hstep
        exact hkept
    · rename_i hfd
      simp only [Dispatch.localData, Except.bind_eq_ok_iff] at hstep
      obtain ⟨⟨inputBuffer, read⟩, hlocal, hstep⟩ := hstep
      cases read with
      | closed shutdown =>
        have hshutdown := handleLocalData_closed hlocal
        cases hstep
        have hne : fd ≠ STDIN_FILENO := by
          intro heq
          rw [hshutdown, decide_eq_true heq, Bool.or_true] at hgoes
          cases hgoes
        dsimp only
        rw [closeSink_eq]
        exact h.set (h.lt_of_ne hindex hne hfd) (by decide) hrouter.symm
      | nothing =>
        cases hstep
        exact h
      | sent packets =>
        cases hstep
        exact h

omit hkernel hrouter in
/-- The first free slot is the one behind those that are used. -/
theorem addNewWatch_append {used rest : List Int} (hused : IGNORE_FD ∉ used) (fd : Int) :
    addNewWatch fd (used ++ IGNORE_FD :: rest) = .ok (used ++ fd :: rest) := by
  have hnone : (used.findIdx? fun slot => decide (slot = IGNORE_FD)) = none := by
    rw [List.findIdx?_eq_none_iff]
    intro slot hslot
    have hne : slot ≠ IGNORE_FD := fun heq => hused (heq ▸ hslot)
    simpa using hne
  unfold addNewWatch
  rw [List.findIdx?_append, hnone, List.findIdx?_cons]
  simp

omit hkernel hrouter in
/-- Descriptors that are watched one after the other get the slots behind those that are
    used, as long as there are any. -/
theorem foldlM_addNewWatch {used fds : List Int} (hused : IGNORE_FD ∉ used) (hfds : IGNORE_FD ∉ fds)
    (free : Nat) :
    fds.foldlM (fun streamFd fd => addNewWatch fd streamFd)
        (used ++ List.replicate free IGNORE_FD) =
      if fds.length ≤ free then
        .ok (used ++ fds ++ List.replicate (free - fds.length) IGNORE_FD)
      else .error .outOfBounds := by
  induction fds generalizing used free with
  | nil => simp
  | cons fd fds ih =>
    obtain ⟨hfd, hfds⟩ := not_or.1 (List.mem_cons.not.1 hfds)
    rw [List.foldlM_cons]
    cases free with
    | zero =>
      rw [List.replicate_zero, List.append_nil, addNewWatch_of_not_mem hused]
      simp
    | succ free =>
      have hused' : IGNORE_FD ∉ used ++ [fd] := by
        rw [List.mem_append, List.mem_singleton, not_or]
        exact ⟨hused, hfd⟩
      rw [List.replicate_succ, addNewWatch_append hused, Except.ok_bind, List.append_cons,
        ih hused' hfds]
      simp [List.append_assoc]

omit hkernel hrouter in
/-- What is watched when the options have been read and the router is connected. -/
theorem Options.streamFd_eq (o : Options) {routerFd : Int} (hrouter : routerFd ≠ IGNORE_FD) :
    o.streamFd routerFd =
      if o.inputs + 1 ≤ MAX_INPUT_STREAMS then
        .ok (List.replicate o.inputs STDIN_FILENO ++
          routerFd :: List.replicate (MAX_INPUT_STREAMS - (o.inputs + 1)) IGNORE_FD)
      else .error .outOfBounds := by
  have hfds : IGNORE_FD ∉ List.replicate o.inputs STDIN_FILENO ++ [routerFd] := by
    rw [List.mem_append, List.mem_singleton, not_or]
    exact ⟨fun hmem => absurd (List.eq_of_mem_replicate hmem) (by decide), hrouter.symm⟩
  have hall := foldlM_addNewWatch List.not_mem_nil hfds MAX_INPUT_STREAMS
  simp only [List.nil_append, List.foldlM_append, List.foldlM_cons, List.foldlM_nil,
    bind_pure] at hall
  simpa [Options.streamFd] using hall

/-- What a node watches when it enters the loop. -/
theorem Options.watches {o : Options} {n₀ : Dispatch c} {started : List SinkAction}
    (hopened : STDIN_FILENO ∈ o.opened ∧ c.routerFd ∈ o.opened)
    (hstart : o.start c = .ok (n₀, started)) :
    Watches o.inputs c.routerFd n₀.node.sinks.streamFd n₀.node.sinks.opened := by
  simp only [Options.start, Except.bind_eq_ok_iff] at hstart
  obtain ⟨streamFd, hstreams, frame, -, -, -, ⟨node, actions⟩, hnode, hstart⟩ := hstart
  cases hstart
  have hwatches : Watches o.inputs c.routerFd streamFd o.opened := by
    rw [o.streamFd_eq hrouter] at hstreams
    split at hstreams
    · cases hstreams
      refine ⟨⟨_, rfl, fun hmem => ?_, fun hmem => ?_⟩, hopened.1, hopened.2⟩
      · exact absurd (List.eq_of_mem_replicate hmem) (by decide)
      · exact hrouter (List.eq_of_mem_replicate hmem)
    · cases hstreams
  simp only [SinkStart.node] at hnode
  split at hnode
  · rw [Except.bind_eq_ok_iff] at hnode
    obtain ⟨s, hspawn, hnode⟩ := hnode
    have hspawned : Watches o.inputs c.routerFd s.streamFd s.opened := by
      refine Watches.autoSpawn hkernel hrouter ?_ hspawn
      exact hwatches
    cases hnode
    exact hspawned
  · cases hnode
    exact hwatches

theorem Watches.run {o : Options} {n₀ n : Dispatch c} {started : List SinkAction}
    (hopened : STDIN_FILENO ∈ o.opened ∧ c.routerFd ∈ o.opened)
    (hstart : o.start c = .ok (n₀, started)) {tr : List (Poll × Round)}
    (hrun : Machine.Run Dispatch.Allowed dispatch n₀ tr n) (hgoes : n.status = false) :
    Watches o.inputs c.routerFd n.node.sinks.streamFd n.node.sinks.opened := by
  induction hrun with
  | nil => exact Options.watches hkernel hrouter hopened hstart
  | snoc hrun hallowed hstep ih => exact (ih hallowed.1).step hkernel hrouter hstep hgoes

/-- As long as a node goes on, a round in which the connection to the router is ready
    reads from a descriptor just if the node has an address or its standard input is not
    ready. -/
theorem dispatch_reads_iff (hstdin : c.routerFd ≠ STDIN_FILENO) {o : Options} {n₀ n : Dispatch c}
    {started : List SinkAction} (hopened : STDIN_FILENO ∈ o.opened ∧ c.routerFd ∈ o.opened)
    (hstart : o.start c = .ok (n₀, started)) {tr : List (Poll × Round)}
    (hrun : Machine.Run Dispatch.Allowed dispatch n₀ tr n) {poll : Poll} (hpoll : n.Allowed poll)
    (hready : ∃ index, n.node.sinks.streamFd[index]? = some c.routerFd ∧
      poll.revents index = true) :
    (∀ n' round, dispatch n poll = .ok (n', round) → ∃ fd, round.read = some fd) ↔
      n.node.argAddress ≠ 0 ∨ ∀ index, n.node.sinks.streamFd[index]? = some STDIN_FILENO →
        poll.revents index = false := by
  have h := Watches.run hkernel hrouter hopened hstart hrun hpoll.1
  obtain ⟨index, hindex, hready⟩ := hready
  -- the connection to the router is ready in its slot
  obtain rfl : index = o.inputs := by
    rcases lt_trichotomy index o.inputs with hlt | heq | hlt
    · rw [h.stdin_of_lt hlt] at hindex
      exact absurd (Option.some.inj hindex).symm hstdin
    · exact heq
    · exact absurd hindex (h.rest_of_lt hlt).2
  have hlength : o.inputs < n.node.sinks.streamFd.length := (List.getElem?_eq_some_iff.1 hindex).1
  obtain ⟨first, hfirst⟩ : ∃ first, firstReady n.node.sinks.streamFd poll = some first := by
    rw [← Option.isSome_iff_exists, firstReady, List.find?_isSome]
    exact ⟨o.inputs, List.mem_range.2 hlength, hready⟩
  obtain ⟨hevents, hrange, hbefore⟩ := List.find?_range_eq_some.1 hfirst
  have hle : first ≤ o.inputs := by
    by_contra hlt
    have hnot := hbefore o.inputs (by omega)
    rw [hready] at hnot
    cases hnot
  rw [Dispatch.reads_iff]
  constructor
  · rintro ⟨⟨slot, fd⟩, hselect⟩
    obtain ⟨hslot, hfd, hread⟩ := Dispatch.select_eq_some_iff.1 hselect
    rw [hfirst] at hslot
    cases hslot
    rcases hread with rfl | haddress
    · right
      intro index hindex'
      -- the standard input lies in front of the slot that is read from
      have hlt : index < o.inputs := by
        by_contra hge
        rcases Nat.lt_or_eq_of_le (Nat.le_of_not_lt hge) with hlt | rfl
        · exact (h.rest_of_lt hlt).1 hindex'
        · rw [hindex] at hindex'
          exact hstdin (Option.some.inj hindex')
      have hfirst' : ¬first < o.inputs := by
        intro hlt
        rw [h.stdin_of_lt hlt] at hfd
        exact hstdin (Option.some.inj hfd).symm
      simpa using hbefore index (by omega)
    · exact .inl haddress
  · intro hcondition
    have hlt : first < n.node.sinks.streamFd.length := by omega
    refine ⟨(first, n.node.sinks.streamFd[first]), Dispatch.select_eq_some_iff.2
      ⟨hfirst, List.getElem?_eq_getElem hlt, ?_⟩⟩
    rcases hcondition with haddress | hquiet
    · exact .inr haddress
    · left
      obtain rfl : first = o.inputs := by
        by_contra hne
        have hnot := hquiet first (h.stdin_of_lt (by omega))
        rw [hevents] at hnot
        cases hnot
      rw [List.getElem?_eq_getElem hlt] at hindex
      exact Option.some.inj hindex

end Runs

/-! ## A node that waits for its address -/

/-- A node with rounds that select nothing stays as it is. -/
theorem dispatch_stuck {c : DispatchConfig} {n : Dispatch c} {polls : List Poll}
    (h : ∀ poll ∈ polls, n.select poll = none) :
    Machine.exec dispatch n polls = .ok (n, polls.map fun poll => (poll, Round.idle)) := by
  induction polls with
  | nil => rfl
  | cons poll polls ih =>
    have hidle : dispatch n poll = .ok (n, .idle) := by
      rw [dispatch, h poll List.mem_cons_self]
    have hrest := ih fun poll' hpoll' => h poll' (List.mem_cons_of_mem poll hpoll')
    simp only [Machine.exec, hidle, hrest, List.map_cons]

/-- The slots that are ready, each with what a read of it returns. -/
def Poll.of (slots : List (Nat × List UInt8)) : Poll where
  revents index := (slots.lookup index).isSome
  data index := (slots.lookup index).getD []
  gone _ := false

def dispatchConfig : DispatchConfig where
  order := .little
  networkMtu := 10
  malloc := fun _ => 0
  heap := 0x1000
  networkMtu_pos := by decide
  networkMtu_lt := by decide
  demuxMode := .noop
  gnwLocalMask := 0xFFF
  kernel := lowestKernel
  argEcho := false
  muxMode := .noop
  argDelimiter := 10
  routerFd := 3

/-- A node that forwards its standard input and was given no address. -/
def inputOptions : Options where
  argAddress := 0
  argImmediate := false
  inputs := 1
  opened := [0, 1, 2, 3]

def inputNode : Dispatch dispatchConfig where
  node :=
    { argAddress := 0, stdout := []
      sinks :=
        { sinkTable := ∅, streamFd := 0 :: 3 :: List.replicate 254 IGNORE_FD, nextLocalAddress := 0
          opened := [0, 1, 2, 3], calls := 0, actions := [] } }
  inputBuffer := Table.empty
  status := false

/-- The reply of the router. -/
def addressReply : List UInt8 :=
  frameBytes .little GNW_REPLY 0xFFFFFFFF (claimBytes .little 0x7000)

theorem inputOptions_start :
    inputOptions.start dispatchConfig =
      .ok (inputNode, [.request (frameBytes .little GNW_COMMAND 0xFFFFFFFF [GNW_CMD_NEW_ADDRESS])]) := by
  rfl

/-- The standard input has a line, and the reply of the router is there. -/
def replyPoll : Poll := Poll.of [(0, [0x41, 0x0A]), (1, addressReply)]

/-- The reply arrives before there is any input, and then both are ready: the input is
    read. -/
theorem dispatch_reads_reply :
    ∃ tr n, Machine.Run Dispatch.Allowed dispatch inputNode tr n ∧
      tr.map (fun e => e.2.read) = [some 3] ∧
      ∀ n' round, dispatch n replyPoll = .ok (n', round) → ∃ fd, round.read = some fd := by
  have hsim : ((Machine.simulate Dispatch.Allowed dispatch inputNode
      [Poll.of [(1, addressReply)]]).any fun r => decide
        (r.2.map (fun e => e.2.read) = [some 3] ∧ r.1.node.argAddress = 0x7000 ∧
          r.1.status = false ∧ r.1.node.sinks.streamFd = inputNode.node.sinks.streamFd)) = true := by
    decide +kernel
  obtain ⟨tr, n, hrun, hn⟩ := Machine.Run.exists_of_simulate hsim
  obtain ⟨hread, haddress, hstatus, hstreams⟩ := of_decide_eq_true hn
  have hpoll : n.Allowed replyPoll := by
    refine ⟨hstatus, ?_⟩
    rw [hstreams]
    decide +kernel
  have hready : ∃ index, n.node.sinks.streamFd[index]? = some dispatchConfig.routerFd ∧
      replyPoll.revents index = true := ⟨1, by rw [hstreams]; rfl, rfl⟩
  refine ⟨tr, n, hrun, hread, (dispatch_reads_iff lowestKernel_fresh (by decide) (by decide)
    (by decide) inputOptions_start hrun hpoll hready).2 (.inl ?_)⟩
  rw [haddress]
  decide

/-- The node waits for its address, its standard input is ready, and the reply of the router
    is not read, in however many rounds. -/
theorem dispatch_reads_fails :
    inputOptions.start dispatchConfig = .ok (inputNode,
        [.request (frameBytes .little GNW_COMMAND 0xFFFFFFFF [GNW_CMD_NEW_ADDRESS])]) ∧
      inputNode.Allowed replyPoll ∧ replyPoll.revents 1 = true ∧
      (¬∀ n' round, dispatch inputNode replyPoll = .ok (n', round) → ∃ fd, round.read = some fd) ∧
      ∀ polls : List Poll, (∀ poll ∈ polls, poll.revents 0 = true) →
        Machine.exec dispatch inputNode polls =
          .ok (inputNode, polls.map fun poll => (poll, Round.idle)) := by
  have hnone : ∀ poll : Poll, poll.revents 0 = true → inputNode.select poll = none := by
    intro poll hready
    have hfirst : firstReady inputNode.node.sinks.streamFd poll = some 0 := by
      apply List.find?_range_eq_some.2
      have hslots := List.length_pos_of_ne_nil
        (List.cons_ne_nil (0 : Int) (3 :: List.replicate 254 IGNORE_FD))
      exact ⟨hready, List.mem_range.2 hslots, fun _ hlt => absurd hlt (Nat.not_lt_zero _)⟩
    rw [Dispatch.select, hfirst]
    rfl
  refine ⟨inputOptions_start, ⟨rfl, by decide +kernel⟩, rfl, fun hreads => ?_,
    fun polls hpolls => ?_⟩
  · obtain ⟨slot, hslot⟩ := Dispatch.reads_iff.1 hreads
    rw [hnone replyPoll rfl] at hslot
    cases hslot
  · exact dispatch_stuck fun poll hpoll => hnone poll (hpolls poll hpoll)
