-- SUMMARY: In a network of whole nodes and other clients, no byte is torn out of its piece, moved or made up.
import GraphIPC.System.Traffic

/-!
# No byte is torn, moved or made up

A node puts what it reads into frames, the router serves these frames in order and hands
them on whole, and a node prints the data in them in the order they come, or hands it to
its processes one frame at a time. So whatever is connected to what and however the
processes take turns, what is printed or handed on are data of frames that were written to
this node, and what was served from a node is what it has cut off its streams, in order.
-/

variable {ι : Type} {n : Network ι}

/-- The request for an address is no data. -/
theorem Network.printed_request (n : Network ι) (i : ι) :
    printed n.router.order (n.request i) = [] := by
  rw [request, printed_frameBytes, if_neg (by decide)]

/-- What a node sends are frames. -/
theorem FromNode.wellFormed {order : ByteOrder} {argAddress : UInt32} {f : List UInt8}
    (h : FromNode order argAddress f) : WellFormed order f := by
  rcases h with ⟨address, rfl⟩ | ⟨-, piece, rfl, hlength⟩
  · refine ⟨_, _, _, rfl, ?_⟩
    rw [length_claimBytes]
    omega
  · exact ⟨_, _, piece, rfl, hlength⟩

open NetworkHistory

variable [DecidableEq ι]

/-- Where all the frames are. -/
structure InTransit (s : NetworkState n) (tr : NetworkHistory ι)
    (coming : ι → List (List UInt8)) : Prop where
  traffic : Traffic s coming
  sent : ∀ i, framesOf (some i) tr ++ coming i = n.request i :: sentOf i tr
  attached : ∀ i, Attached (n.options i).argAddress (s.node i) (s.down i)
    ((writesTo i tr).map Write.bytes) (rounds i tr)

namespace InTransit

variable {s : NetworkState n} {tr : NetworkHistory ι} {coming : ι → List (List UInt8)}

theorem init (n : Network ι) (listenFd : Int) :
    InTransit (NetworkState.init n listenFd) [] fun i => [n.request i] where
  traffic := .init n listenFd
  sent _ := rfl
  attached i := by
    obtain ⟨-, hargAddress, hstdout, hidle, hbuffer⟩ := n.start_ok i
    exact .init hargAddress hstdout hidle hbuffer

variable (h : InTransit s tr coming)
include h

/-- A step of the router moves frames off the way to it and puts frames on their way from
    it. -/
theorem routed {action : NetworkAction ι} {client : Option ι} {router : Router n.router}
    {output : Output} {coming' : ι → List (List UInt8)}
    (htraffic : Traffic (s.routed client router output) coming')
    (hserved : ∀ i, ((NetworkSeen.router client output fun i =>
      (s.connection i).delivered output).frameFrom (some i)).toList ++ coming' i = coming i)
    (hwritten : ∀ i, ∀ w ∈ (s.connection i).delivered output, ForNode n.router.order w.bytes) :
    InTransit (s.routed client router output)
      (tr ++ [(action, .router client output fun i => (s.connection i).delivered output)])
      coming' where
  traffic := htraffic
  sent i := by
    rw [framesOf_snoc, List.append_assoc, hserved i, h.sent i]
    simp [sentOf, NetworkSeen.roundOf]
  attached i := by
    have hnew : ∀ f ∈ ((s.connection i).delivered output).map Write.bytes,
        ForNode (n.node i).order f := by
      intro f hf
      obtain ⟨w, hw, rfl⟩ := List.mem_map.1 hf
      rw [n.order_node i]
      exact hwritten i w hw
    have hattached := (h.attached i).write hnew
    rw [writesTo_snoc, rounds_snoc, List.map_append]
    simpa [NetworkSeen.writesTo, NetworkSeen.roundOf, NetworkState.routed, Connection.written_eq,
      List.flatMap] using hattached

/-- A step of the router. -/
theorem router {act : Act} {action : NetworkAction ι} {client : Option ι}
    {router : Router n.router} {output : Output}
    (hallowed : Router.Allowed n.router s.router act)
    (heffect : Router.Effect n.router s.router act router output)
    (haccept : ∀ remoteFd, act = .accept remoteFd →
      ∀ i, client = some i → s.connection i = .waiting)
    (hevent : ∀ slot revents data rand, act = .event slot revents data rand →
      ∀ i, (s.connection i = .established (s.router.pollList slot).fd ↔ client = some i) ∧
        (client = some i → data <+: s.up i)) :
    ∃ coming', InTransit (s.routed client router output)
      (tr ++ [(action, .router client output fun i => (s.connection i).delivered output)])
      coming' := by
  have heffect' := heffect
  cases heffect with
  | nothing =>
    refine ⟨coming, h.routed ?_ (fun _ => rfl) fun i w hw => ?_⟩
    · simpa [NetworkState.routed, Connection.after, Connection.taken, Connection.written]
        using h.traffic
    · cases hw
  | accepted hentry hfree hfd =>
    refine ⟨coming, h.routed ?_ (fun _ => rfl) fun i w hw => ?_⟩
    · exact h.traffic.accepted hallowed (haccept _ rfl) hentry hfree hfd
    · cases hw
  | closed hslot hfd hlive hdead =>
    refine ⟨coming, h.routed ?_ (fun _ => rfl) fun i w hw => ?_⟩
    · exact h.traffic.closed hallowed hslot hfd hlive hdead
    · cases hw
  | @handled fd slot _ revents data rand _ _ _ _ _ _ hfd =>
    have hclient := hevent slot revents data rand rfl
    rw [hfd] at hclient
    obtain ⟨coming', htraffic, hserved⟩ := h.traffic.handled hallowed heffect' hclient
    refine ⟨coming', h.routed htraffic hserved fun i w hw => ?_⟩
    exact heffect'.forNode (Connection.mem_of_mem_delivered hw)

/-- A round of a node takes frames off the way to it and puts frames on their way from it. -/
theorem round {i : ι} {poll : Poll} {action : NetworkAction ι} {node : Dispatch (n.node i)}
    {round : Round} (hrunning : (s.node i).status = false)
    (hread : (s.node i).Readable (s.down i) poll)
    (hround : dispatch (s.node i) poll = .ok (node, round)) :
    InTransit (s.rounded i ((s.node i).received poll) node round)
      (tr ++ [(action, .round i ((s.node i).received poll) round)])
      (Function.update coming i (coming i ++ round.frames)) := by
  have hattached := (h.attached i).round hrunning
    (dispatch_rounded (h.attached i).idle hread hround)
  have hframes : ∀ f ∈ round.frames, WellFormed n.router.order f := by
    intro f hf
    rw [← n.order_node i]
    refine (hattached.sends f ?_).wellFormed
    simp [hf]
  refine ⟨(h.traffic.sent i hframes).of_eq rfl rfl rfl, fun j => ?_, fun j => ?_⟩
  · rw [framesOf_snoc, sentOf, rounds_snoc, List.flatMap_append]
    by_cases hj : j = i
    · subst hj
      simp only [NetworkSeen.frameFrom, NetworkSeen.roundOf, if_true, Function.update_self,
        Option.toList_none, Option.toList_some, List.append_nil, ← List.append_assoc, h.sent j]
      simp [sentOf]
    · rw [Function.update_of_ne hj]
      simpa [NetworkSeen.frameFrom, NetworkSeen.roundOf, Ne.symm hj, sentOf] using h.sent j
  · rw [writesTo_snoc, rounds_snoc]
    by_cases hj : j = i
    · subst hj
      simpa [NetworkSeen.writesTo, NetworkSeen.roundOf, NetworkState.rounded, Round.taken]
        using hattached
    · simpa [NetworkSeen.writesTo, NetworkSeen.roundOf, NetworkState.rounded, hj, Ne.symm hj]
        using h.attached j

/-- Every step moves frames on and loses none. -/
theorem step {action : NetworkAction ι} {s' : NetworkState n} {seen : NetworkSeen ι}
    (hallowed : NetworkState.Allowed n s action)
    (hstep : NetworkState.step n s action = .ok (s', seen)) :
    ∃ coming', InTransit s' (tr ++ [(action, seen)]) coming' := by
  cases NetworkState.effect_of_step hstep with
  | accept heffect =>
    refine h.router hallowed.1 heffect ?_ nofun
    rintro _ - i hclient
    exact hallowed.2 i hclient
  | event heffect =>
    refine h.router hallowed.1 heffect nofun ?_
    intro slot' revents' data' rand' heq
    cases heq
    exact hallowed.2
  | round hround => exact ⟨_, h.round hallowed.1.1 hallowed.2 hround⟩

/-- What was served from a node are the first frames it has sent. -/
theorem served_begins (i : ι) : framesOf (some i) tr <+: n.request i :: sentOf i tr :=
  ⟨coming i, h.sent i⟩

/-- The data that was served from a node is the first that it has sent. -/
theorem printed_begins (i : ι) :
    (framesOf (some i) tr).flatMap (printed n.router.order) <+:
      (sentOf i tr).flatMap (printed n.router.order) := by
  have hdata := congrArg (List.flatMap (printed n.router.order)) (h.sent i)
  rw [List.flatMap_append, List.flatMap_cons, n.printed_request, List.nil_append] at hdata
  exact ⟨_, hdata⟩

/-- A node sends claims, and data under its own address. -/
theorem fromNode {i : ι} {f : List UInt8} (hf : f ∈ sentOf i tr) :
    FromNode n.router.order (s.node i).node.argAddress f := by
  rw [← n.order_node i]
  exact (h.attached i).sends f hf

/-- What a node prints is the beginning of the data that was written to it. -/
theorem stdout_begins {i : ι} (hecho : (n.node i).argEcho = true) :
    (s.node i).node.stdout <+: (writesTo i tr).flatMap fun w => printed n.router.order w.bytes := by
  obtain ⟨taken, pending, hwritten, -, -, hstdout, -⟩ := (h.attached i).takes
  rw [hstdout hecho, ← List.flatMap_map Write.bytes, hwritten, List.flatMap_append, n.order_node i]
  exact List.prefix_append ..

/-- What a node hands to its processes are the first payloads that were written to it. -/
theorem handed_begins {i : ι} (hecho : (n.node i).argEcho = false) :
    handedOf i tr <+: ((writesTo i tr).map Write.bytes).filterMap (dataOf n.router.order) := by
  obtain ⟨taken, pending, hwritten, -, -, -, hhanded⟩ := (h.attached i).takes
  rw [handedOf, hhanded hecho, hwritten, List.filterMap_append, n.order_node i]
  exact List.prefix_append ..

end InTransit

/-- What a run of a network keeps to. -/
structure NetworkHistory.Faithful (n : Network ι) (tr : NetworkHistory ι)
    (s : NetworkState n) : Prop where
  /-- The frames that were served from a node are the first it has sent, its request first. -/
  served : ∀ i, framesOf (some i) tr <+: n.request i :: sentOf i tr
  /-- These are claims of addresses, and data under the one address of the node. -/
  sent : ∀ i, ∀ f ∈ sentOf i tr, FromNode n.router.order (s.node i).node.argAddress f
  /-- What is no claim was cut off what one of the descriptors gave. -/
  sources : ∀ i, ∀ f ∈ sentOf i tr, (∃ address, f = claimFrame n.router.order address) ∨
    ∃ fd, fd ≠ (n.node i).routerFd ∧ f ∈ packetsFrom fd (rounds i tr)
  /-- What is cut off is in order. What was kept in a buffer when its descriptor was closed is
      left out. -/
  streams : ∀ i fd, fd ≠ (n.node i).routerFd → List.Sublist
    ((packetsFrom fd (rounds i tr)).flatMap (printed n.router.order)) (readFrom fd (rounds i tr))
  /-- Of the standard input nothing is left out. -/
  stdin : ∀ i, STDIN_FILENO ≠ (n.node i).routerFd →
    (packetsFrom STDIN_FILENO (rounds i tr)).flatMap (printed n.router.order) <+:
      readFrom STDIN_FILENO (rounds i tr)
  /-- Data that is written in a step is that of the frame that is served in it, whole. -/
  written : ∀ e ∈ tr, ∀ i, ∀ w ∈ e.2.writesTo i,
    printed n.router.order w.bytes = [] ∨ e.2.frame = some w.bytes
  /-- What a node in output mode has printed is the beginning of the data written to it. -/
  printed : ∀ i, (n.node i).argEcho = true →
    (s.node i).node.stdout <+: (writesTo i tr).flatMap fun w => printed n.router.order w.bytes
  /-- Any other hands what is written to it to its processes, one payload at a time. -/
  handed : ∀ i, (n.node i).argEcho = false →
    handedOf i tr <+: ((writesTo i tr).map Write.bytes).filterMap (dataOf n.router.order)

/-- What the router writes in a step is no data or what it has served. -/
theorem NetworkState.written_of_step {s s' : NetworkState n} {action : NetworkAction ι}
    {seen : NetworkSeen ι} (hstep : NetworkState.step n s action = .ok (s', seen)) {i : ι}
    {w : Write} (hw : w ∈ seen.writesTo i) :
    printed n.router.order w.bytes = [] ∨ seen.frame = some w.bytes := by
  rcases NetworkState.router_or_round hstep with
    ⟨client, act, router, output, heffect, -, rfl⟩ | ⟨i', data, node, round, -, rfl⟩
  · replace hw : w ∈ (s.connection i).delivered output := hw
    cases output with
    | handled => exact (heffect.written (Connection.mem_of_mem_delivered hw)).2
    | _ => cases hw
  · cases hw

theorem NetworkState.Run.inTransit {listenFd : Int} {s : NetworkState n} {tr : NetworkHistory ι}
    (hrun : NetworkState.Run n (NetworkState.init n listenFd) tr s) :
    ∃ coming, InTransit s tr coming := by
  refine Machine.Run.induct (P := fun tr s => ∃ coming, InTransit s tr coming)
    ⟨_, .init n listenFd⟩ ?_ hrun
  rintro tr s action seen s' - ⟨coming, htransit⟩ hallowed hstep
  exact htransit.step hallowed hstep

theorem NetworkState.Run.written {s₀ s : NetworkState n} {tr : NetworkHistory ι}
    (hrun : NetworkState.Run n s₀ tr s) :
    ∀ e ∈ tr, ∀ i, ∀ w ∈ e.2.writesTo i,
      printed n.router.order w.bytes = [] ∨ e.2.frame = some w.bytes := by
  refine Machine.Run.induct (P := fun tr _ => ∀ e ∈ tr, ∀ i, ∀ w ∈ e.2.writesTo i,
    printed n.router.order w.bytes = [] ∨ e.2.frame = some w.bytes) (by simp) ?_ hrun
  rintro tr s action seen s' - hwritten - hstep e he i w hw
  rcases List.mem_append.1 he with he | he
  · exact hwritten e he i w hw
  · rw [List.mem_singleton.1 he] at hw ⊢
    exact NetworkState.written_of_step hstep hw

/-- Whatever is connected to what, whoever else talks to the router and however the
    processes take turns: what was served from a node is what it has cut off its streams, in
    order, and nothing is printed or handed to a process but whole pieces, in the order they
    were written, each of them as it was served. -/
theorem network_faithful {listenFd : Int} {s : NetworkState n} {tr : NetworkHistory ι}
    (hrun : NetworkState.Run n (NetworkState.init n listenFd) tr s) : tr.Faithful n s := by
  obtain ⟨coming, htransit⟩ := hrun.inTransit
  constructor
  · exact htransit.served_begins
  · exact fun i f hf => htransit.fromNode hf
  · intro i f hf
    rw [← n.order_node i]
    exact (htransit.attached i).mem_frames hf
  · intro i fd hfd
    rw [← n.order_node i]
    exact (List.sublist_append_left _ _).trans ((htransit.attached i).streams fd hfd).kept
  · intro i hstdin
    rw [← n.order_node i]
    exact (((htransit.attached i).streams _ hstdin).stdin rfl).1
  · exact hrun.written
  · exact fun i hecho => htransit.stdout_begins hecho
  · exact fun i hecho => htransit.handed_begins hecho

/-! ### A run -/

/-- Two nodes that send, one of them without an address of its own, and one that prints. -/
def smallNetworkOptions (i : Fin 3) : Options where
  argAddress := if i = 0 then 9 else if i = 1 then 0 else 7
  argImmediate := false
  inputs := if i = 2 then 0 else 1
  opened := [0, 1, 2, 3]

def smallNetwork : Network (Fin 3) where
  router := smallRouter
  node i := { dispatchConfig with argEcho := i = 2 }
  order_node _ := rfl
  options := smallNetworkOptions
  first i :=
    { node :=
        { argAddress := (smallNetworkOptions i).argAddress, stdout := []
          sinks :=
            { sinkTable := ∅, nextLocalAddress := 0, opened := [0, 1, 2, 3], calls := 0
              streamFd :=
                if i = 2 then 3 :: List.replicate 255 IGNORE_FD
                else 0 :: 3 :: List.replicate 254 IGNORE_FD
              actions := [] } }
      inputBuffer := Table.empty
      status := false }
  started i := [.request (frameBytes .little GNW_COMMAND 0xFFFFFFFF
    (if (smallNetworkOptions i).argAddress = 0 then [GNW_CMD_NEW_ADDRESS]
      else claimBytes .little (smallNetworkOptions i).argAddress))]
  start_eq := fun
    | 0 => rfl
    | 1 => rfl
    | 2 => rfl

/-- Another client connects both senders to the third node. The second sender has to wait
    for the address that the router chooses. -/
def smallNetworkActions : List (NetworkAction (Fin 3)) :=
  let connect (source : UInt32) := frameBytes .little GNW_COMMAND 0xFFFFFFFF
    (GNW_CMD_CONNECT :: (u32Bytes .little source ++ u32Bytes .little 7))
  let first := frameBytes .little GNW_DATA 9 [0x68, 0x69]
  let second := frameBytes .little GNW_DATA 0x5000 [0x79, 0x6F]
  let down := claimReply .little 7 ++ first ++ second
  let rand := fun _ => 0x5123
  [.accept (some 2) (some 4), .accept (some 0) (some 5), .accept (some 1) (some 6),
    .accept none (some 7), .event (some 2) 1 POLLIN (smallNetwork.request 2) rand,
    .event (some 0) 2 POLLIN (smallNetwork.request 0) rand,
    .event (some 1) 3 POLLIN (smallNetwork.request 1) rand,
    .event none 4 POLLIN (connect 9) rand, .event none 4 POLLIN (connect 0x5000) rand,
    .round 0 (.of [(0, [0x68, 0x69, 0x0A])]), .round 1 (.of [(1, claimReply .little 0x5000)]),
    .round 1 (.of [(0, [0x79, 0x6F, 0x0A])]), .event (some 0) 2 POLLIN first rand,
    .event (some 1) 3 POLLIN second rand, .round 2 (.of [(0, down.take 20)]),
    .round 2 (.of [(0, down.drop 20)])]

/-- The first sender of the network in front of two targets in turn. -/
def smallShareActions : List (NetworkAction (Fin 3)) :=
  let command (payload : List UInt8) := frameBytes .little GNW_COMMAND 0xFFFFFFFF payload
  let connect (target : UInt32) := command
    (GNW_CMD_CONNECT :: (u32Bytes .little 9 ++ u32Bytes .little target))
  let data (payload : List UInt8) := frameBytes .little GNW_DATA 9 payload
  let rand := fun _ => 0x5123
  [.accept (some 2) (some 4), .accept (some 0) (some 5), .accept (some 1) (some 6),
    .accept none (some 7), .event (some 2) 1 POLLIN (smallNetwork.request 2) rand,
    .event (some 0) 2 POLLIN (smallNetwork.request 0) rand,
    .event (some 1) 3 POLLIN (smallNetwork.request 1) rand,
    .event none 4 POLLIN (connect 7) rand, .event none 4 POLLIN (connect 0x5000) rand,
    .event none 4 POLLIN (command (GNW_CMD_POLICY :: 2 :: u32Bytes .little 9)) rand,
    .round 0 (.of [(0, [0x68, 0x0A])]), .round 0 (.of [(0, [0x69, 0x0A])]),
    .event (some 0) 2 POLLIN (data [0x68]) rand,
    .event (some 0) 2 POLLIN (data [0x0A, 0x69]) rand]

theorem network_faithful_merge :
    ∃ tr s, NetworkState.Run smallNetwork (NetworkState.init smallNetwork 3) tr s ∧
      (s.node 2).node.stdout = [0x68, 0x69, 0x79, 0x6F] ∧
      NetworkHistory.Faithful smallNetwork tr s := by
  have hsim : (Machine.simulate (NetworkState.Allowed smallNetwork)
      (NetworkState.step smallNetwork) (NetworkState.init smallNetwork 3)
      smallNetworkActions).any (fun r => (r.1.node 2).node.stdout = [0x68, 0x69, 0x79, 0x6F]) =
        true := by
    decide +kernel
  obtain ⟨tr, s, hrun, hlast⟩ := Machine.Run.exists_of_simulate hsim
  have hfaithful := network_faithful hrun
  exact ⟨tr, s, hrun, of_decide_eq_true hlast, hfaithful⟩
