-- SUMMARY: The router, a node that sends its standard input and one that prints: their steps and the bytes between them.
import GraphIPC.Node.HandleLocalData
import GraphIPC.Node.HandlePacket
import GraphIPC.Node.Remote
import GraphIPC.Node.Sinks
import GraphIPC.Router.Connection
import GraphIPC.Router.Selection

/-!
# Two nodes and the router between them

Three processes take their steps in any order: a node in input mode, a node in output
mode and the router. Other clients of the router may come and go and send what they
like. A connection carries bytes in order, and a read takes any piece off their front.
The nodes have claimed their addresses when they start; they wrap no process of their
own.
-/

/-- The two nodes. -/
inductive Side where
  | input
  | output
  deriving DecidableEq, Repr

/-- What the three processes are started with. -/
structure Link (σ : Type) where
  router : RouterConfig
  node : Side → NodeConfig
  /-- The processes run on hosts of one byte order. -/
  order_node : ∀ side, (node side).order = router.order
  address : Side → UInt32
  address_ne : ∀ side, address side ≠ 0
  delimiter : Int
  /-- The descriptor of a node for its connection to the router. -/
  routerFd : Side → Int
  routerFd_ne : ∀ side, routerFd side ≠ STDIN_FILENO
  /-- What a node that is not in output mode does with data. -/
  toSink : Header → List UInt8 → σ → Except Fault σ

/-- The connection of a node, as the router sees it. -/
inductive Connection where
  | waiting
  | established (fd : Int)
  | lost
  deriving DecidableEq, Repr

variable {σ : Type}

/-- The states of the processes and the bytes in flight. -/
structure System (l : Link σ) where
  router : Router l.router
  connection : Side → Connection
  /-- The bytes a node has written and the router has not read. -/
  up : Side → List UInt8
  /-- The bytes the router has written and the node has not read. -/
  down : Side → List UInt8
  inputBuffer : (side : Side) → InputBuffer (l.node side)
  node : Side → NodeState σ

/-- The frame a node claims its address with when it starts. -/
def Link.claim (l : Link σ) (side : Side) : List UInt8 :=
  frameBytes (l.node side).order GNW_COMMAND 0xFFFFFFFF
    (claimBytes (l.node side).order (l.address side))

theorem Link.claim_eq (l : Link σ) (side : Side) :
    gnwEmitCommandPacket (l.node side).order GNW_COMMAND
        (claimBytes (l.node side).order (l.address side)) 5 = .ok (l.claim side) :=
  gnwEmitCommandPacket_eq (l.node side).order GNW_COMMAND _

/-- The processes have started. -/
def System.init (l : Link σ) (listenFd : Int) (sinks : Side → σ) : System l where
  router := Router.init l.router listenFd
  connection _ := .waiting
  up := l.claim
  down _ := []
  inputBuffer _ := Table.empty
  node side := { argAddress := l.address side, stdout := [], sinks := sinks side }

/-- A step of one of the processes. -/
inductive SystemAction where
  /-- The router accepts a connection, of a node or of another client. -/
  | accept (client : Option Side) (remoteFd : Option Int)
  /-- The router looks at an entry of its poll list. -/
  | event (slot : Fin MAX_MONITOR_FDS) (revents : UInt16) (data : List UInt8)
    (rand : Nat → RandResult)
  /-- The input node reads its standard input. -/
  | readStdin (data : List UInt8)
  /-- A node reads from the router. -/
  | readRouter (side : Side) (data : List UInt8)

/-- What came of a step. -/
inductive Seen where
  /-- A step of the router, on a connection of a node or of another client. -/
  | router (client : Option Side) (output : Output)
  | stdin (read : LocalRead)
  | received (received : Received)

/-! ## The steps -/

/-- The node whose connection a descriptor of the router is. -/
def System.client {l : Link σ} (s : System l) (fd : Int) : Option Side :=
  if s.connection .input = .established fd then some .input
  else if s.connection .output = .established fd then some .output
  else none

/-- The bytes that are written to a descriptor. -/
def bytesTo (fd : Int) (writes : List Write) : List UInt8 :=
  (writes.filter fun w => w.fd = fd).flatMap Write.bytes

/-- A connection after a step of the router; `mine` tells whether it is the one that
    asked to be accepted. -/
def Connection.after (connection : Connection) (mine : Bool) : Output → Connection
  | .accepted fd => if mine then .established fd else connection
  | .closed fd => if connection = .established fd then .lost else connection
  | _ => connection

/-- How many bytes the router has read from a connection in a step. -/
def Connection.taken (connection : Connection) : Output → Nat
  | .handled fd data _ _ _ => if connection = .established fd then data.length else 0
  | _ => 0

/-- The bytes the router has written to a connection in a step. -/
def Connection.written (connection : Connection) : Output → List UInt8
  | .handled _ _ _ _ writes =>
    match connection with
    | .established fd => bytesTo fd writes
    | _ => []
  | _ => []

/-- The system after a step of the router. -/
def System.routed {l : Link σ} (s : System l) (client : Option Side) (router : Router l.router)
    (output : Output) : System l :=
  { s with
    router
    connection := fun side => (s.connection side).after (client = some side) output
    up := fun side => (s.up side).drop ((s.connection side).taken output)
    down := fun side => s.down side ++ (s.connection side).written output }

/-- One step of one of the processes. A node whose standard input hangs up shuts down,
    and its connection with it; so its reads are not `gone`. -/
def System.step (l : Link σ) (s : System l) : SystemAction → Except Fault (System l × Seen)
  | .accept client remoteFd => do
    let (router, output) ← Router.step l.router s.router (.accept remoteFd)
    return (s.routed client router output, .router client output)
  | .event slot revents data rand => do
    let client := s.client (s.router.pollList slot).fd
    let (router, output) ← Router.step l.router s.router (.event slot revents data rand)
    return (s.routed client router output, .router client output)
  | .readStdin data => do
    let (inputBuffer, read) ← handleLocalData (l.node .input) (s.node .input).argAddress
      l.delimiter STDIN_FILENO false data (s.inputBuffer .input)
    return ({ s with
      inputBuffer := Function.update s.inputBuffer .input inputBuffer
      up := Function.update s.up .input (s.up .input ++ read.packets.flatten) }, .stdin read)
  | .readRouter side data => do
    let (inputBuffer, node, received) ← handleRemoteData (l.node side)
      (nodeHandlePacket l.toSink (l.node side).order (side = .output)) (l.routerFd side)
      (l.routerFd side) data (s.inputBuffer side) (s.node side)
    return ({ s with
      inputBuffer := Function.update s.inputBuffer side inputBuffer
      node := Function.update s.node side node
      down := Function.update s.down side ((s.down side).drop data.length) }, .received received)

/-- The steps that do not fail. -/
inductive System.Effect (l : Link σ) (s : System l) : SystemAction → System l → Seen → Prop where
  | accept {client : Option Side} {remoteFd : Option Int} {router : Router l.router}
      {output : Output} :
      Router.Effect l.router s.router (.accept remoteFd) router output →
      Effect l s (.accept client remoteFd) (s.routed client router output) (.router client output)
  | event {slot : Fin MAX_MONITOR_FDS} {revents : UInt16} {data : List UInt8}
      {rand : Nat → RandResult} {client : Option Side} {router : Router l.router}
      {output : Output} :
      client = s.client (s.router.pollList slot).fd →
      Router.Effect l.router s.router (.event slot revents data rand) router output →
      Effect l s (.event slot revents data rand) (s.routed client router output)
        (.router client output)
  | readStdin {data : List UInt8} {inputBuffer : InputBuffer (l.node .input)} {read : LocalRead} :
      handleLocalData (l.node .input) (s.node .input).argAddress l.delimiter STDIN_FILENO false
        data (s.inputBuffer .input) = .ok (inputBuffer, read) →
      Effect l s (.readStdin data)
        { s with
          inputBuffer := Function.update s.inputBuffer .input inputBuffer
          up := Function.update s.up .input (s.up .input ++ read.packets.flatten) } (.stdin read)
  | readRouter {side : Side} {data : List UInt8} {inputBuffer : InputBuffer (l.node side)}
      {node : NodeState σ} {received : Received} :
      handleRemoteData (l.node side)
        (nodeHandlePacket l.toSink (l.node side).order (side = .output)) (l.routerFd side)
        (l.routerFd side) data (s.inputBuffer side) (s.node side) =
          .ok (inputBuffer, node, received) →
      Effect l s (.readRouter side data)
        { s with
          inputBuffer := Function.update s.inputBuffer side inputBuffer
          node := Function.update s.node side node
          down := Function.update s.down side ((s.down side).drop data.length) }
        (.received received)

/-- Every step that does not fail is one of these. -/
theorem System.effect_of_step {l : Link σ} {s s' : System l} {action : SystemAction} {seen : Seen}
    (h : System.step l s action = .ok (s', seen)) : System.Effect l s action s' seen := by
  cases action with
  | accept client remoteFd =>
    rw [step, Except.bind_eq_ok_iff] at h
    obtain ⟨⟨router, output⟩, hrouter, h⟩ := h
    cases h
    exact .accept (Router.effect_of_step hrouter)
  | event slot revents data rand =>
    rw [step, Except.bind_eq_ok_iff] at h
    obtain ⟨⟨router, output⟩, hrouter, h⟩ := h
    cases h
    exact .event rfl (Router.effect_of_step hrouter)
  | readStdin data =>
    rw [step, Except.bind_eq_ok_iff] at h
    obtain ⟨⟨inputBuffer, read⟩, hread, h⟩ := h
    cases h
    exact .readStdin hread
  | readRouter side data =>
    rw [step, Except.bind_eq_ok_iff] at h
    obtain ⟨⟨inputBuffer, node, received⟩, hread, h⟩ := h
    cases h
    exact .readRouter hread

/-- A read of local data returns at most what it was asked for, and not so much that
    the input node would make its emergency send. -/
def LocalAllowed (c : NodeConfig) (inputBuffer : InputBuffer c) (data : List UInt8) : Prop :=
  ∀ b, inputBuffer.bufferFor STDIN_FILENO = some b →
    data.length ≤ b.capacity ∧ (data ≠ [] → ¬Emergency c b data)

/-- What the operating system may do in a step: a node connects once, and a read
    returns the next bytes of its stream. -/
def System.Allowed (l : Link σ) (s : System l) : SystemAction → Prop
  | .accept client remoteFd =>
    Router.Allowed l.router s.router (.accept remoteFd) ∧
      ∀ side, client = some side → s.connection side = .waiting
  | .event slot revents data rand =>
    Router.Allowed l.router s.router (.event slot revents data rand) ∧
      ∀ side, s.connection side = .established (s.router.pollList slot).fd → data <+: s.up side
  | .readStdin data => LocalAllowed (l.node .input) (s.inputBuffer .input) data
  | .readRouter side data =>
    data <+: s.down side ∧
      RemoteAllowed (l.node side) (l.routerFd side) (s.inputBuffer side) data

instance Side.decidableForall (p : Side → Prop) [DecidablePred p] : Decidable (∀ side, p side) :=
  decidable_of_iff (p .input ∧ p .output)
    ⟨fun h side => by cases side; exacts [h.1, h.2], fun h => ⟨h .input, h .output⟩⟩

instance LocalAllowed.decidable (c : NodeConfig) (inputBuffer : InputBuffer c)
    (data : List UInt8) : Decidable (LocalAllowed c inputBuffer data) :=
  match h : inputBuffer.bufferFor STDIN_FILENO with
  | none => .isTrue (by simp [LocalAllowed, h])
  | some b =>
    decidable_of_iff (data.length ≤ b.capacity ∧ (data ≠ [] → ¬Emergency c b data))
      (by simp [LocalAllowed, h])

instance System.Allowed.decidable (l : Link σ) (s : System l) (action : SystemAction) :
    Decidable (System.Allowed l s action) :=
  match action with
  | .accept _ _ => inferInstanceAs (Decidable (_ ∧ _))
  | .event _ _ _ _ => inferInstanceAs (Decidable (_ ∧ _))
  | .readStdin _ => inferInstanceAs (Decidable (LocalAllowed ..))
  | .readRouter _ _ => inferInstanceAs (Decidable (_ ∧ _))

/-- Runs of the three processes. -/
abbrev System.Run (l : Link σ) : System l → List (SystemAction × Seen) → System l → Prop :=
  Machine.Run (System.Allowed l) (System.step l)

/-! ## What a run did -/

/-- The bytes a step reads from the standard input. -/
def SystemAction.stdin : SystemAction → List UInt8
  | .readStdin data => data
  | _ => []

/-- The bytes that were read from the standard input. -/
def stdinRead (tr : List (SystemAction × Seen)) : List UInt8 :=
  tr.flatMap fun e => e.1.stdin

/-- A request that the router has served: the node that sent it, if it was one of the
    two, the descriptor it came in on and what it asks. -/
structure Served where
  client : Option Side
  fd : Int
  request : Request
  deriving DecidableEq, Repr

/-- The request served in a step. -/
def Seen.served (order : ByteOrder) : Seen → Option Served
  | .router client (.handled _ _ _ (some packet) _) =>
    (packet.request order).map fun r => { client, fd := r.1, request := r.2 }
  | _ => none

theorem Seen.served_handled {order : ByteOrder} {p : Packet} {r : Request}
    (hparse : Request.parse order p.buffer p.rand = .ok r) (client : Option Side) (fd : Int)
    (data : List UInt8) (discarded : Nat) (writes : List Write) :
    (Seen.router client (.handled fd data discarded (some p) writes)).served order =
      some { client, fd := p.fd, request := r } := by
  simp [served, Packet.request, hparse, Except.toOption]

/-- The requests served in a run, in order. -/
def servedIn (order : ByteOrder) (tr : List (SystemAction × Seen)) : List Served :=
  tr.filterMap fun e => e.2.served order

/-- The requests as the control plane of the router sees them. -/
def History.ofServed (requests : List Served) : History :=
  requests.map fun e => (e.fd, e.request)

@[simp] theorem stdinRead_snoc (tr : List (SystemAction × Seen)) (action : SystemAction)
    (seen : Seen) :
    stdinRead (tr ++ [(action, seen)]) = stdinRead tr ++ action.stdin := by
  simp [stdinRead]

@[simp] theorem servedIn_snoc (order : ByteOrder) (tr : List (SystemAction × Seen))
    (action : SystemAction) (seen : Seen) :
    servedIn order (tr ++ [(action, seen)]) = servedIn order tr ++ (seen.served order).toList := by
  cases h : seen.served order <;> simp [servedIn, h]
