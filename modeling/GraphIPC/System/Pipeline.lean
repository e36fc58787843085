-- SUMMARY: Pipelines over the network: what the last node prints is made by the processes in between of the standard input of the first.
import GraphIPC.System.Connected

/-!
# Pipelines

Nodes are connected one behind the other, and each but the first and the last runs a
process. If a process makes a stream of a stream, so does the whole pipeline: the last node
prints what the processes make of the standard input of the first, one after the other,
just as with pipes between the processes.
-/

/-! ## Streams made of streams -/

/-- What a process makes of its input. More input takes nothing back. -/
structure StreamFn where
  toFun : List UInt8 → List UInt8
  mono : ∀ {input input' : List UInt8}, input <+: input' → toFun input <+: toFun input'

/-- A process that passes everything on. -/
def StreamFn.id : StreamFn := ⟨fun input => input, fun h => h⟩

/-- One process behind another. -/
def StreamFn.comp (g f : StreamFn) : StreamFn :=
  ⟨fun input => g.toFun (f.toFun input), fun h => g.mono (f.mono h)⟩

/-- A node in the middle of a pipeline: the descriptor it reads the output of its process
    from, and what the process does. -/
structure Stage (ι : Type) where
  node : ι
  fd : Int
  transform : StreamFn

/-- What the processes of a pipeline do together. -/
def through {ι : Type} : List (Stage ι) → StreamFn
  | [] => .id
  | stage :: stages => (through stages).comp stage.transform

/-! ## The data of a node -/

/-- The payloads of frames are the data in them. -/
theorem flatten_filterMap_dataOf (order : ByteOrder) (frames : List (List UInt8)) :
    (frames.filterMap (dataOf order)).flatten = frames.flatMap (printed order) := by
  induction frames with
  | nil => rfl
  | cons f frames ih =>
    by_cases htype : (callOf order f).1.type = GNW_DATA
    · have hdata : dataOf order f = some (callOf order f).2 := if_pos htype
      rw [List.filterMap_cons_some hdata, List.flatten_cons, ih, List.flatMap_cons, printed,
        if_pos htype]
    · have hnone : dataOf order f = none := if_neg htype
      rw [List.filterMap_cons_none hnone, ih, List.flatMap_cons, printed, if_neg htype,
        List.nil_append]

variable {ι : Type} {n : Network ι} [DecidableEq ι]

namespace NetworkHistory

/-- The data that a node has sent, in order. -/
def dataSent (order : ByteOrder) (i : ι) (tr : NetworkHistory ι) : List UInt8 :=
  (sentOf i tr).flatMap (printed order)

/-- The data that was written to a node, in order. -/
def dataFor (order : ByteOrder) (j : ι) (tr : NetworkHistory ι) : List UInt8 :=
  (writesTo j tr).flatMap fun w => printed order w.bytes

end NetworkHistory

open NetworkHistory

/-! ## From one node to the next -/

/-- Node `i` is connected to node `j`, and nobody else sends data there. -/
structure Feeds (s : NetworkState n) (tr : NetworkHistory ι) (i j : ι) : Prop where
  connected : Connected n.router.order tr i j
  present : s.connection j ≠ .lost
  alone : ∀ e ∈ tr, e.2.frameFrom (some i) = none →
    ∀ w ∈ e.2.writesTo j, printed n.router.order w.bytes = []

theorem feeds_iff {s : NetworkState n} {tr : NetworkHistory ι} {i j : ι} :
    Feeds s tr i j ↔ Connected n.router.order tr i j ∧ s.connection j ≠ .lost ∧
      ∀ e ∈ tr, e.2.frameFrom (some i) = none →
        ∀ w ∈ e.2.writesTo j, printed n.router.order w.bytes = [] :=
  ⟨fun h => ⟨h.connected, h.present, h.alone⟩, fun h => ⟨h.1, h.2.1, h.2.2⟩⟩

instance (s : NetworkState n) (tr : NetworkHistory ι) (i j : ι) : Decidable (Feeds s tr i j) :=
  decidable_of_iff _ feeds_iff.symm

/-- What is written to a node that one other node feeds is what that one passes on. -/
theorem Feeds.dataFor_eq {s : NetworkState n} {tr : NetworkHistory ι} {i j : ι}
    (h : Feeds s tr i j) :
    dataFor n.router.order j tr = passed n.router.order i j tr := by
  rw [dataFor, NetworkHistory.writesTo, List.flatMap_assoc, NetworkHistory.passed]
  refine List.flatMap_congr fun e he => ?_
  obtain ⟨action, seen⟩ := e
  cases seen with
  | router client output delivered =>
    by_cases hclient : client = some i
    · exact (if_pos hclient).symm
    · have hframe : (NetworkSeen.router client output delivered).frameFrom (some i) = none := by
        cases output with
        | handled => exact if_neg hclient
        | _ => rfl
      have hnone := List.flatMap_eq_nil_iff.2 (h.alone _ he hframe)
      exact hnone.trans (if_neg hclient).symm
  | round => rfl

/-- What is written to the second node is what the first has sent. -/
theorem NetworkState.Run.fed {listenFd : Int} {s : NetworkState n} {tr : NetworkHistory ι}
    {i j : ι} (hrun : NetworkState.Run n (NetworkState.init n listenFd) tr s)
    (h : Feeds s tr i j) :
    dataFor n.router.order j tr <+: dataSent n.router.order i tr ∧
      (s.NothingUp i → dataFor n.router.order j tr = dataSent n.router.order i tr) := by
  have harrives := NetworkState.Run.arrives hrun
    (NetworkState.Run.bridged hrun h.connected h.present)
  rw [h.dataFor_eq]
  exact ⟨harrives.begins, harrives.all⟩

/-! ## Through a node -/

/-- A node reads from one process and the router alone. What it reads from the process is
    made of what it hands on, and has not come to its end. -/
structure Wraps (n : Network ι) (tr : NetworkHistory ι) (stage : Stage ι) : Prop where
  handsOn : (n.node stage.node).argEcho = false
  apart : stage.fd ≠ (n.node stage.node).routerFd
  only : ∀ e ∈ rounds stage.node tr, ∀ fd ∈ e.2.read,
    fd = stage.fd ∨ fd = (n.node stage.node).routerFd
  flowing : ∀ e ∈ rounds stage.node tr, e.2.read = some stage.fd → e.1 ≠ []
  output : readFrom stage.fd (rounds stage.node tr) <+:
    stage.transform.toFun (handedOf stage.node tr).flatten

theorem wraps_iff {tr : NetworkHistory ι} {stage : Stage ι} :
    Wraps n tr stage ↔ (n.node stage.node).argEcho = false ∧
      stage.fd ≠ (n.node stage.node).routerFd ∧
      (∀ e ∈ rounds stage.node tr, ∀ fd ∈ e.2.read,
        fd = stage.fd ∨ fd = (n.node stage.node).routerFd) ∧
      (∀ e ∈ rounds stage.node tr, e.2.read = some stage.fd → e.1 ≠ []) ∧
      readFrom stage.fd (rounds stage.node tr) <+:
        stage.transform.toFun (handedOf stage.node tr).flatten :=
  ⟨fun h => ⟨h.handsOn, h.apart, h.only, h.flowing, h.output⟩,
    fun h => ⟨h.1, h.2.1, h.2.2.1, h.2.2.2.1, h.2.2.2.2⟩⟩

instance (tr : NetworkHistory ι) (stage : Stage ι) : Decidable (Wraps n tr stage) :=
  letI (e : List UInt8 × Round) : Decidable (∀ fd ∈ e.2.read,
      fd = stage.fd ∨ fd = (n.node stage.node).routerFd) := Option.decidableForallMem _
  decidable_of_iff _ wraps_iff.symm

/-- A node has handed on what was written to it, its process has put out what it makes of
    it, and what the node has sent of that is served. -/
structure Finished (s : NetworkState n) (tr : NetworkHistory ι) (stage : Stage ι) : Prop where
  up : s.NothingUp stage.node
  down : s.NothingDown stage.node
  output : readFrom stage.fd (rounds stage.node tr) =
    stage.transform.toFun (handedOf stage.node tr).flatten

theorem finished_iff {s : NetworkState n} {tr : NetworkHistory ι} {stage : Stage ι} :
    Finished s tr stage ↔ s.NothingUp stage.node ∧ s.NothingDown stage.node ∧
      readFrom stage.fd (rounds stage.node tr) =
        stage.transform.toFun (handedOf stage.node tr).flatten :=
  ⟨fun h => ⟨h.up, h.down, h.output⟩, fun h => ⟨h.1, h.2.1, h.2.2⟩⟩

instance (s : NetworkState n) (tr : NetworkHistory ι) (stage : Stage ι) :
    Decidable (Finished s tr stage) := decidable_of_iff _ finished_iff.symm

/-- Of the bytes that a descriptor gave, those that the node does not keep: it keeps what no
    delimiter follows yet. -/
def NetworkState.unkept (s : NetworkState n) (i : ι) (fd : Int) (bytes : List UInt8) : List UInt8 :=
  bytes.take (bytes.length - ((s.node i).window fd).length)

omit [DecidableEq ι] in
theorem NetworkState.unkept_eq {s : NetworkState n} {i : ι} {fd : Int} {sent bytes : List UInt8}
    (h : sent ++ (s.node i).window fd = bytes) : s.unkept i fd bytes = sent := by
  subst h
  simp [unkept]

/-- What a node sends is what its process makes of what was written to the node. -/
theorem NetworkState.Run.wrapped {listenFd : Int} {s : NetworkState n} {tr : NetworkHistory ι}
    {stage : Stage ι} (hrun : NetworkState.Run n (NetworkState.init n listenFd) tr s)
    (h : Wraps n tr stage) :
    dataSent n.router.order stage.node tr <+:
        stage.transform.toFun (dataFor n.router.order stage.node tr) ∧
      (Finished s tr stage → dataSent n.router.order stage.node tr = s.unkept stage.node stage.fd
        (stage.transform.toFun (dataFor n.router.order stage.node tr))) := by
  obtain ⟨coming, htransit⟩ := hrun.inTransit
  have hattached := htransit.attached stage.node
  have hdata : dataFor n.router.order stage.node tr =
      (((writesTo stage.node tr).map Write.bytes).filterMap (dataOf n.router.order)).flatten := by
    rw [flatten_filterMap_dataOf, List.flatMap_map, dataFor]
  have hsent : dataSent n.router.order stage.node tr ++ (s.node stage.node).window stage.fd =
      readFrom stage.fd (rounds stage.node tr) := by
    rw [← (hattached.streams _ h.apart).flowing h.flowing, ← hattached.printed_sent h.only,
      n.order_node stage.node]
    rfl
  rw [hdata]
  constructor
  · have hhanded := htransit.handed_begins h.handsOn
    obtain ⟨rest, hrest⟩ := hhanded
    calc dataSent n.router.order stage.node tr
      _ <+: readFrom stage.fd (rounds stage.node tr) := ⟨_, hsent⟩
      _ <+: stage.transform.toFun (handedOf stage.node tr).flatten := h.output
      _ <+: _ := stage.transform.mono ⟨rest.flatten, by rw [← List.flatten_append, hrest]⟩
  · intro hfinished
    rw [← (htransit.taken_of_nothingDown hfinished.down).2 h.handsOn, ← hfinished.output,
      NetworkState.unkept_eq hsent]

/-! ## From end to end -/

/-- The nodes between `i` and `k` hand on what `i` sends, one to the next. -/
def Pipeline (s : NetworkState n) (tr : NetworkHistory ι) : ι → List (Stage ι) → ι → Prop
  | i, [], k => Feeds s tr i k
  | i, stage :: stages, k =>
    Feeds s tr i stage.node ∧ Wraps n tr stage ∧ Pipeline s tr stage.node stages k

/-- What the processes of a pipeline do together, each but for what its node keeps. -/
def throughUnkept (s : NetworkState n) : List (Stage ι) → List UInt8 → List UInt8
  | [], input => input
  | stage :: stages, input =>
    throughUnkept s stages (s.unkept stage.node stage.fd (stage.transform.toFun input))

/-- What arrives at the end of a pipeline is what its processes make of what was sent at its
    beginning. -/
theorem NetworkState.Run.piped {listenFd : Int} {s : NetworkState n} {tr : NetworkHistory ι}
    (hrun : NetworkState.Run n (NetworkState.init n listenFd) tr s) {i k : ι}
    {stages : List (Stage ι)} (h : Pipeline s tr i stages k) :
    dataFor n.router.order k tr <+: (through stages).toFun (dataSent n.router.order i tr) ∧
      (s.NothingUp i → (∀ stage ∈ stages, Finished s tr stage) →
        dataFor n.router.order k tr =
          throughUnkept s stages (dataSent n.router.order i tr)) := by
  induction stages generalizing i with
  | nil =>
    obtain ⟨hbegins, hall⟩ := NetworkState.Run.fed hrun h
    exact ⟨hbegins, fun hup _ => hall hup⟩
  | cons stage stages ih =>
    obtain ⟨hfeeds, hwraps, hrest⟩ := h
    obtain ⟨hfed, hfedAll⟩ := NetworkState.Run.fed hrun hfeeds
    obtain ⟨hwrapped, hwrappedAll⟩ := NetworkState.Run.wrapped hrun hwraps
    obtain ⟨hbegins, hall⟩ := ih hrest
    constructor
    · exact hbegins.trans ((through stages).mono (hwrapped.trans (stage.transform.mono hfed)))
    · intro hup hfinished
      have hthis := hfinished stage List.mem_cons_self
      rw [hall hthis.up fun stage' hmem => hfinished stage' (List.mem_cons_of_mem _ hmem),
        hwrappedAll hthis, hfedAll hup]
      rfl

/-- Nothing is under way in a pipeline. -/
structure Settled (s : NetworkState n) (tr : NetworkHistory ι) (i : ι) (stages : List (Stage ι))
    (k : ι) : Prop where
  running : (s.node i).status = false
  up : s.NothingUp i
  finished : ∀ stage ∈ stages, Finished s tr stage
  down : s.NothingDown k

theorem settled_iff {s : NetworkState n} {tr : NetworkHistory ι} {i k : ι}
    {stages : List (Stage ι)} :
    Settled s tr i stages k ↔ (s.node i).status = false ∧ s.NothingUp i ∧
      (∀ stage ∈ stages, Finished s tr stage) ∧ s.NothingDown k :=
  ⟨fun h => ⟨h.running, h.up, h.finished, h.down⟩, fun h => ⟨h.1, h.2.1, h.2.2.1, h.2.2.2⟩⟩

instance (s : NetworkState n) (tr : NetworkHistory ι) (i : ι) (stages : List (Stage ι)) (k : ι) :
    Decidable (Settled s tr i stages k) := decidable_of_iff _ settled_iff.symm

/-- However the processes of a pipeline and all others take turns, what its last node has
    printed is the beginning of what its processes make of the standard input of its first
    node, and all of it as soon as nothing is under way, but for what each of the nodes keeps. -/
theorem network_pipeline {listenFd : Int} {s : NetworkState n} {tr : NetworkHistory ι}
    (hrun : NetworkState.Run n (NetworkState.init n listenFd) tr s) {i k : ι}
    {stages : List (Stage ι)} (hpipeline : Pipeline s tr i stages k)
    (honly : OnlyStdin (n.node i).routerFd i tr) (hstdin : STDIN_FILENO ≠ (n.node i).routerFd)
    (hecho : (n.node k).argEcho = true) :
    (s.node k).node.stdout <+:
        (through stages).toFun (readFrom STDIN_FILENO (rounds i tr)) ∧
      (Settled s tr i stages k → (s.node k).node.stdout = throughUnkept s stages
        (s.unkept i STDIN_FILENO (readFrom STDIN_FILENO (rounds i tr)))) := by
  obtain ⟨coming, htransit⟩ := hrun.inTransit
  obtain ⟨hbegins, hall⟩ := NetworkState.Run.piped hrun hpipeline
  have hattached := htransit.attached i
  obtain ⟨hread, hreadAll⟩ := (hattached.streams _ hstdin).stdin rfl
  have hsent : dataSent n.router.order i tr =
      (packetsFrom STDIN_FILENO (rounds i tr)).flatMap (printed (n.node i).order) := by
    rw [← hattached.printed_sent honly, n.order_node i]
    rfl
  constructor
  · rw [← hsent] at hread
    exact ((htransit.stdout_begins hecho).trans hbegins).trans ((through stages).mono hread)
  · intro hsettled
    rw [(htransit.taken_of_nothingDown hsettled.down).1 hecho,
      NetworkState.unkept_eq (hreadAll hsettled.running), ← hsent]
    exact hall hsettled.up hsettled.finished

/-! ### A run -/

/-- A process that puts a line break behind each byte. -/
def smallStage (node : Fin 3) : Stage (Fin 3) where
  node
  fd := 6
  transform :=
    { toFun := fun input => input.flatMap fun byte => [byte, 0x0A]
      mono := by
        rintro input - ⟨rest, rfl⟩
        exact ⟨rest.flatMap fun byte => [byte, 0x0A], (List.flatMap_append ..).symm⟩ }

/-- Another client connects the first node to the second and the second to the third. -/
def smallPipelineActions (first second third : Fin 3) : List (NetworkAction (Fin 3)) :=
  let connect (source target : UInt32) := frameBytes .little GNW_COMMAND 0xFFFFFFFF
    (GNW_CMD_CONNECT :: (u32Bytes .little source ++ u32Bytes .little target))
  let data (source : UInt32) (payload : List UInt8) := frameBytes .little GNW_DATA source payload
  let rand := fun _ => 0x5123
  [.accept (some third) (some 4), .accept (some first) (some 5), .accept (some second) (some 6),
    .accept none (some 7), .event (some third) 1 POLLIN (smallNetwork.request third) rand,
    .event (some first) 2 POLLIN (smallNetwork.request first) rand,
    .event (some second) 3 POLLIN (smallNetwork.request second) rand,
    .event none 4 POLLIN (connect 9 0x5000) rand, .event none 4 POLLIN (connect 0x5000 7) rand,
    .round second (.of [(1, claimReply .little 0x5000)]),
    .round first (.of [(0, [0x68, 0x69, 0x0A])]),
    .event (some first) 2 POLLIN (data 9 [0x68, 0x69]) rand,
    .round second (.of [(1, data 9 [0x68, 0x69])]),
    .round second (.of [(2, [0x68, 0x0A, 0x69, 0x0A])]),
    .event (some second) 3 POLLIN (data 0x5000 [0x68]) rand,
    .event (some second) 3 POLLIN (data 0x5000 [0x0A, 0x69]) rand,
    .round third (.of [(0, claimReply .little 7 ++ data 0x5000 [0x68])]),
    .round third (.of [(0, data 0x5000 [0x0A, 0x69])])]

theorem network_pipeline_lines :
    ∃ tr s, NetworkState.Run smallNetwork (NetworkState.init smallNetwork 3) tr s ∧
      (s.node 2).node.stdout = [0x68, 0x0A, 0x69] ∧
      (s.node 2).node.stdout <+:
        (through [smallStage 1]).toFun (readFrom STDIN_FILENO (rounds 0 tr)) ∧
      (s.node 2).node.stdout = throughUnkept s [smallStage 1]
        (s.unkept 0 STDIN_FILENO (readFrom STDIN_FILENO (rounds 0 tr))) := by
  have hsim : (Machine.simulate (NetworkState.Allowed smallNetwork)
      (NetworkState.step smallNetwork) (NetworkState.init smallNetwork 3)
      (smallPipelineActions 0 1 2)).any (fun r => Feeds r.1 r.2 0 1 &&
        Wraps smallNetwork r.2 (smallStage 1) && Feeds r.1 r.2 1 2 && OnlyStdin 3 0 r.2 &&
        Settled r.1 r.2 0 [smallStage 1] 2 &&
        (r.1.node 2).node.stdout = [0x68, 0x0A, 0x69]) = true := by
    decide +kernel
  obtain ⟨tr, s, hrun, hlast⟩ := Machine.Run.exists_of_simulate hsim
  simp only [Bool.and_eq_true, decide_eq_true_eq] at hlast
  obtain ⟨⟨⟨⟨⟨hfirst, hwraps⟩, hsecond⟩, honly⟩, hsettled⟩, hstdout⟩ := hlast
  have hpipeline : Pipeline s tr 0 [smallStage 1] 2 := ⟨hfirst, hwraps, hsecond⟩
  have hprinted := network_pipeline hrun hpipeline honly (by decide) rfl
  exact ⟨tr, s, hrun, hstdout, hprinted.1, hprinted.2 hsettled⟩
