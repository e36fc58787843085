-- SUMMARY: The router and any number of whole nodes around it: their steps, the bytes between them, and what a run did.
import Mathlib.Data.Fintype.Basic
import GraphIPC.System.Attached

/-!
# Any number of nodes around the router

The nodes take the rounds of their loops in any order with the steps of the router. Each
may send its standard input, print what it gets or run processes, whose outputs it sends,
and an address is the one it was started with or one the router gives it. Other clients of
the router may come and go and send what they like, and the router may drop a node. What
the processes that nodes run put out, and when, is left open.
-/

/-- What the processes are started with, and the nodes as they enter their loops. -/
structure Network (ι : Type) where
  router : RouterConfig
  node : ι → DispatchConfig
  /-- The processes run on hosts of one byte order. -/
  order_node : ∀ i, (node i).order = router.order
  options : ι → Options
  first : (i : ι) → Dispatch (node i)
  started : ι → List SinkAction
  start_eq : ∀ i, (options i).start (node i) = .ok (first i, started i)

variable {ι : Type}

/-- The states of the processes and the bytes in flight. -/
structure NetworkState (n : Network ι) where
  router : Router n.router
  connection : ι → Connection
  /-- The bytes a node has written and the router has not read. -/
  up : ι → List UInt8
  /-- The bytes the router has written and the node has not read. -/
  down : ι → List UInt8
  node : (i : ι) → Dispatch (n.node i)

/-- The nodes have entered their loops. -/
def NetworkState.init (n : Network ι) (listenFd : Int) : NetworkState n where
  router := Router.init n.router listenFd
  connection _ := .waiting
  up i := ((n.started i).filterMap SinkAction.frame).flatten
  down _ := []
  node := n.first

/-- What a node asks for an address with when it starts. -/
def Network.request (n : Network ι) (i : ι) : List UInt8 :=
  frameBytes n.router.order GNW_COMMAND 0xFFFFFFFF
    (if (n.options i).argAddress = 0 then [GNW_CMD_NEW_ADDRESS]
      else claimBytes n.router.order (n.options i).argAddress)

theorem Options.request_eq (o : Options) (order : ByteOrder) :
    o.request order = .ok (frameBytes order GNW_COMMAND 0xFFFFFFFF
      (if o.argAddress = 0 then [GNW_CMD_NEW_ADDRESS] else claimBytes order o.argAddress)) := by
  unfold request
  split
  · exact gnwEmitCommandPacket_eq order GNW_COMMAND [GNW_CMD_NEW_ADDRESS]
  · exact gnwEmitCommandPacket_claimBytes order o.argAddress

/-- A node as it enters its loop: it has asked for an address and read nothing. -/
theorem Network.start_ok (n : Network ι) (i : ι) :
    (n.started i).filterMap SinkAction.frame = [n.request i] ∧
      (n.first i).node.argAddress = (n.options i).argAddress ∧ (n.first i).node.stdout = [] ∧
      (n.first i).node.sinks.actions = [] ∧ (n.first i).inputBuffer = Table.empty := by
  have hstart := n.start_eq i
  simp only [Options.start, Options.request_eq, Except.bind_eq_ok_iff] at hstart
  obtain ⟨streamFd, -, frame, hframe, -, -, ⟨node, actions⟩, hnode, hstart⟩ := hstart
  cases hframe
  have hspawn : ∃ s : Sinks, actions = s.actions ∧
      s.actions.filterMap SinkAction.frame = [] ∧ node.argAddress = (n.options i).argAddress ∧
      node.stdout = [] ∧ node.sinks.actions = [] := by
    rw [SinkStart.node] at hnode
    dsimp only at hnode
    split at hnode
    · rw [Except.bind_eq_ok_iff] at hnode
      obtain ⟨s, hspawn, hnode⟩ := hnode
      cases hnode
      obtain ⟨context, -, -, -, hactions⟩ := autoSpawn_ok hspawn
      exact ⟨s, rfl, by simp [hactions, SinkAction.frame], rfl, rfl, rfl⟩
    · cases hnode
      exact ⟨_, rfl, rfl, rfl, rfl, rfl⟩
  obtain ⟨s, rfl, hnone, hargAddress, hstdout, hactions⟩ := hspawn
  rw [Except.pure_eq_ok, Except.ok.injEq, Prod.mk.injEq] at hstart
  obtain ⟨hfirst, hstarted⟩ := hstart
  rw [← hfirst, ← hstarted]
  refine ⟨?_, hargAddress, hstdout, hactions, rfl⟩
  simp only [List.filterMap_cons, SinkAction.frame, hnone, request, n.order_node i]

/-- A step of one of the processes. A step of the router is labelled with the node whose
    connection it is about, if it is that of a node. -/
inductive NetworkAction (ι : Type) where
  | accept (client : Option ι) (remoteFd : Option Int)
  | event (client : Option ι) (slot : Fin MAX_MONITOR_FDS) (revents : UInt16)
    (data : List UInt8) (rand : Nat → RandResult)
  | round (i : ι) (poll : Poll)

/-- What came of a step. -/
inductive NetworkSeen (ι : Type) where
  | router (client : Option ι) (output : Output) (delivered : ι → List Write)
  /-- A round of a node, with the bytes it has read. -/
  | round (i : ι) (data : List UInt8) (round : Round)

/-! ## The steps -/

/-- What the router has written to a connection. -/
def Connection.delivered (connection : Connection) : Output → List Write
  | .handled _ _ _ _ writes =>
    match connection with
    | .established fd => writes.filter fun w => w.fd = fd
    | _ => []
  | _ => []

theorem Connection.written_eq (connection : Connection) (output : Output) :
    connection.written output = (connection.delivered output).flatMap Write.bytes := by
  cases output <;> cases connection <;> rfl

theorem Connection.mem_of_mem_delivered {connection : Connection} {fd : Int} {data : List UInt8}
    {discarded : Nat} {call : Option Packet} {writes : List Write} {w : Write}
    (h : w ∈ connection.delivered (.handled fd data discarded call writes)) : w ∈ writes := by
  cases connection with
  | established fd' => exact List.mem_of_mem_filter h
  | _ => cases h

/-- How many bytes of its connection to the router a node has read in a round. -/
def Round.taken (round : Round) (routerFd : Int) (data : List UInt8) : Nat :=
  if round.read = some routerFd then data.length else 0

variable [DecidableEq ι]

/-- The network after a step of the router. -/
def NetworkState.routed {n : Network ι} (s : NetworkState n) (client : Option ι)
    (router : Router n.router) (output : Output) : NetworkState n :=
  { s with
    router
    connection := fun i => (s.connection i).after (client = some i) output
    up := fun i => (s.up i).drop ((s.connection i).taken output)
    down := fun i => s.down i ++ (s.connection i).written output }

/-- The network after a round of a node. -/
def NetworkState.rounded {n : Network ι} (s : NetworkState n) (i : ι) (data : List UInt8)
    (node : Dispatch (n.node i)) (round : Round) : NetworkState n :=
  { s with
    node := Function.update s.node i node
    up := Function.update s.up i (s.up i ++ round.frames.flatten)
    down := Function.update s.down i
      ((s.down i).drop (round.taken (n.node i).routerFd data)) }

/-- One step of one of the processes. -/
def NetworkState.step (n : Network ι) (s : NetworkState n) :
    NetworkAction ι → Except Fault (NetworkState n × NetworkSeen ι)
  | .accept client remoteFd => do
    let (router, output) ← Router.step n.router s.router (.accept remoteFd)
    return (s.routed client router output,
      .router client output fun i => (s.connection i).delivered output)
  | .event client slot revents data rand => do
    let (router, output) ← Router.step n.router s.router (.event slot revents data rand)
    return (s.routed client router output,
      .router client output fun i => (s.connection i).delivered output)
  | .round i poll => do
    let (node, round) ← dispatch (s.node i) poll
    let data := (s.node i).received poll
    return (s.rounded i data node round, .round i data round)

/-- The steps that do not fail. -/
inductive NetworkState.Effect (n : Network ι) (s : NetworkState n) :
    NetworkAction ι → NetworkState n → NetworkSeen ι → Prop where
  | accept {client : Option ι} {remoteFd : Option Int} {router : Router n.router}
      {output : Output} :
      Router.Effect n.router s.router (.accept remoteFd) router output →
      Effect n s (.accept client remoteFd) (s.routed client router output)
        (.router client output fun i => (s.connection i).delivered output)
  | event {client : Option ι} {slot : Fin MAX_MONITOR_FDS} {revents : UInt16}
      {data : List UInt8} {rand : Nat → RandResult} {router : Router n.router}
      {output : Output} :
      Router.Effect n.router s.router (.event slot revents data rand) router output →
      Effect n s (.event client slot revents data rand) (s.routed client router output)
        (.router client output fun i => (s.connection i).delivered output)
  | round {i : ι} {poll : Poll} {node : Dispatch (n.node i)} {round : Round} :
      dispatch (s.node i) poll = .ok (node, round) →
      Effect n s (.round i poll) (s.rounded i ((s.node i).received poll) node round)
        (.round i ((s.node i).received poll) round)

/-- Every step that does not fail is one of these. -/
theorem NetworkState.effect_of_step {n : Network ι} {s s' : NetworkState n}
    {action : NetworkAction ι} {seen : NetworkSeen ι}
    (h : NetworkState.step n s action = .ok (s', seen)) :
    NetworkState.Effect n s action s' seen := by
  cases action with
  | accept client remoteFd =>
    rw [step, Except.bind_eq_ok_iff] at h
    obtain ⟨⟨router, output⟩, hrouter, h⟩ := h
    cases h
    exact .accept (Router.effect_of_step hrouter)
  | event client slot revents data rand =>
    rw [step, Except.bind_eq_ok_iff] at h
    obtain ⟨⟨router, output⟩, hrouter, h⟩ := h
    cases h
    exact .event (Router.effect_of_step hrouter)
  | round i poll =>
    rw [step, Except.bind_eq_ok_iff] at h
    obtain ⟨⟨node, round⟩, hround, h⟩ := h
    cases h
    exact .round hround

/-- A step is one of the router or a round of a node. -/
theorem NetworkState.router_or_round {n : Network ι} {s s' : NetworkState n}
    {action : NetworkAction ι} {seen : NetworkSeen ι}
    (h : NetworkState.step n s action = .ok (s', seen)) :
    (∃ client act router output, Router.Effect n.router s.router act router output ∧
      s' = s.routed client router output ∧
      seen = .router client output fun i => (s.connection i).delivered output) ∨
    ∃ i data node round, s' = s.rounded i data node round ∧ seen = .round i data round := by
  cases NetworkState.effect_of_step h with
  | accept heffect => exact .inl ⟨_, _, _, _, heffect, rfl, rfl⟩
  | event heffect => exact .inl ⟨_, _, _, _, heffect, rfl, rfl⟩
  | round => exact .inr ⟨_, _, _, _, rfl, rfl⟩

/-- What the operating system may do in a step: a node connects once, and a read
    returns the next bytes of its stream. -/
def NetworkState.Allowed (n : Network ι) (s : NetworkState n) : NetworkAction ι → Prop
  | .accept client remoteFd =>
    Router.Allowed n.router s.router (.accept remoteFd) ∧
      ∀ i, client = some i → s.connection i = .waiting
  | .event client slot revents data rand =>
    Router.Allowed n.router s.router (.event slot revents data rand) ∧
      ∀ i, (s.connection i = .established (s.router.pollList slot).fd ↔ client = some i) ∧
        (client = some i → data <+: s.up i)
  | .round i poll => (s.node i).Allowed poll ∧ (s.node i).Readable (s.down i) poll

instance NetworkState.Allowed.decidable [Fintype ι] (n : Network ι) (s : NetworkState n)
    (action : NetworkAction ι) : Decidable (NetworkState.Allowed n s action) :=
  match action with
  | .accept _ _ => inferInstanceAs (Decidable (_ ∧ _))
  | .event _ _ _ _ _ => inferInstanceAs (Decidable (_ ∧ _))
  | .round _ _ => inferInstanceAs (Decidable (_ ∧ _))

/-- Runs of the network. -/
abbrev NetworkState.Run (n : Network ι) :
    NetworkState n → List (NetworkAction ι × NetworkSeen ι) → NetworkState n → Prop :=
  Machine.Run (NetworkState.Allowed n) (NetworkState.step n)

/-! ## What a run did -/

namespace NetworkSeen

/-- The frame that the router has served in a step. -/
def frame : NetworkSeen ι → Option (List UInt8)
  | .router _ (.handled _ _ _ call _) _ => call.map Packet.buffer
  | _ => none

/-- The frame of a client that the router has served in a step. -/
def frameFrom (client : Option ι) : NetworkSeen ι → Option (List UInt8)
  | .router client' (.handled _ _ _ call _) _ =>
    if client' = client then call.map Packet.buffer else none
  | _ => none

/-- What the router has written to a node in a step. -/
def writesTo (i : ι) : NetworkSeen ι → List Write
  | .router _ _ delivered => delivered i
  | _ => []

/-- What a node has done in a step. -/
def roundOf (i : ι) : NetworkSeen ι → Option (List UInt8 × Round)
  | .round i' data r => if i' = i then some (data, r) else none
  | _ => none

end NetworkSeen

/-- The steps of a run with what came of them. -/
abbrev NetworkHistory (ι : Type) : Type := List (NetworkAction ι × NetworkSeen ι)

namespace NetworkHistory

/-- The frames of a client that the router has served, in order. -/
def framesOf (client : Option ι) (tr : NetworkHistory ι) : List (List UInt8) :=
  tr.filterMap fun e => e.2.frameFrom client

/-- What the router has written to a node, in order. -/
def writesTo (i : ι) (tr : NetworkHistory ι) : List Write :=
  tr.flatMap fun e => e.2.writesTo i

/-- The rounds of a node, with the bytes that were read in each. -/
def rounds (i : ι) (tr : NetworkHistory ι) : List (List UInt8 × Round) :=
  tr.filterMap fun e => e.2.roundOf i

/-- The frames that a node has sent since it entered its loop. -/
def sentOf (i : ι) (tr : NetworkHistory ι) : List (List UInt8) :=
  (rounds i tr).flatMap fun e => e.2.frames

/-- What a node has handed to its processes, one packet at a time. -/
def handedOf (i : ι) (tr : NetworkHistory ι) : List (List UInt8) :=
  (rounds i tr).flatMap fun e => e.2.handed

variable (tr : NetworkHistory ι) (e : NetworkAction ι × NetworkSeen ι)

@[simp] theorem framesOf_snoc (client : Option ι) :
    framesOf client (tr ++ [e]) = framesOf client tr ++ (e.2.frameFrom client).toList := by
  cases h : e.2.frameFrom client <;> simp [framesOf, h]

omit [DecidableEq ι] in
@[simp] theorem writesTo_snoc (i : ι) :
    writesTo i (tr ++ [e]) = writesTo i tr ++ e.2.writesTo i := by
  simp [writesTo]

@[simp] theorem rounds_snoc (i : ι) :
    rounds i (tr ++ [e]) = rounds i tr ++ (e.2.roundOf i).toList := by
  cases h : e.2.roundOf i <;> simp [rounds, h]

end NetworkHistory
