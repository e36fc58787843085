-- SUMMARY: What the output node has printed is the beginning of what the input node has read, as long as no other edge leads to its connection.
import GraphIPC.System.Routing

/-!
# From the standard input to the standard output

The bytes that the input node has read lie, in order, in five places behind those that
were printed: in the buffer of the output node, on their way to it, in the buffer of the
router, on their way to that, and in the buffer of the input node. Between the nodes
they are cut into frames, and the router hands each frame on as it is. Every step moves
bytes from one place to the next, or is none of their business.
-/

variable {σ : Type} {l : Link σ}

/-! ## The input node -/

/-- The frame of a piece of the standard input. -/
def Link.dataFrame (l : Link σ) (piece : List UInt8) : List UInt8 :=
  frameBytes l.router.order GNW_DATA (l.address .input) piece

/-- Where the bytes are that the input node has read and the router has not served: in
    frames on the way to the router, behind the claim if that is still to come, and in
    the buffer of the node. -/
structure Sending (l : Link σ) (node : NodeState σ) (inputBuffer : InputBuffer (l.node .input))
    (read : List UInt8) (coming : List (List UInt8)) (served : List UInt8) : Prop where
  address : node.argAddress = l.address .input
  kept : ∃ b, ∃ pieces : List (List UInt8), inputBuffer.bufferFor STDIN_FILENO = some b ∧
    served ++ pieces.flatten ++ b.window = read ∧
    (coming = pieces.map l.dataFrame ∨ coming = l.claim .input :: pieces.map l.dataFrame)

namespace Sending

variable {node node' : NodeState σ} {inputBuffer inputBuffer' : InputBuffer (l.node .input)}
  {read : List UInt8} {coming : List (List UInt8)} {served : List UInt8}

theorem init (l : Link σ) (sinks : σ) :
    Sending l { argAddress := l.address .input, stdout := [], sinks } Table.empty []
      [l.claim .input] [] where
  address := rfl
  kept := ⟨(l.node .input).newBuffer, [], InputBuffer.bufferFor_of_none _ rfl, rfl, .inr rfl⟩

/-- A read of the standard input: what is cut off is sent. -/
theorem readStdin (h : Sending l node inputBuffer read coming served) {data : List UInt8}
    (hallowed : LocalAllowed (l.node .input) inputBuffer data) {localRead : LocalRead}
    (hread : handleLocalData (l.node .input) node.argAddress l.delimiter STDIN_FILENO false data
      inputBuffer = .ok (inputBuffer', localRead)) :
    Sending l node inputBuffer' (read ++ data) (coming ++ localRead.packets) served ∧
      ∀ packet ∈ localRead.packets, WellFormed l.router.order packet := by
  obtain ⟨b, pieces, hb, hbytes, hcoming⟩ := h.kept
  by_cases hdata : data = []
  · -- nothing was there to be read
    subst hdata
    have hget : getLocalBuffer (l.node .input) STDIN_FILENO inputBuffer =
        ((getLocalBuffer (l.node .input) STDIN_FILENO inputBuffer).1, some b) := by
      rw [← hb]
      rfl
    have hnothing : (getLocalBuffer (l.node .input) STDIN_FILENO inputBuffer).1 = inputBuffer' ∧
        LocalRead.nothing = localRead := by
      rw [handleLocalData, hget] at hread
      simpa using hread
    obtain ⟨rfl, rfl⟩ := hnothing
    refine ⟨⟨h.address, b, pieces, ?_, ?_, ?_⟩, ?_⟩
    · rw [bufferFor_getLocalBuffer]
      exact hb
    · rw [hbytes, List.append_nil]
    · simpa [LocalRead.packets] using hcoming
    · simp [LocalRead.packets]
  · obtain ⟨hcapacity, hcalm⟩ := hallowed b hb
    obtain ⟨packets, pieces', b', rfl, hpieces, hb', hcut⟩ :=
      handleLocalData_pieces hread hb (List.length_pos_iff.2 hdata) (hcalm hdata)
    have hpackets : packets = pieces'.map l.dataFrame := by
      rw [hpieces.packets, h.address, l.order_node]
      rfl
    refine ⟨⟨h.address, b', pieces ++ pieces', hb', ?_, ?_⟩, ?_⟩
    · rw [List.flatten_append, ← hbytes]
      simp only [List.append_assoc, hcut]
    · rw [LocalRead.packets, hpackets, List.map_append]
      rcases hcoming with hcoming | hcoming
      · exact .inl (by rw [hcoming])
      · exact .inr (by rw [hcoming, List.cons_append])
    · intro packet hmem
      rw [LocalRead.packets, hpackets, List.mem_map] at hmem
      obtain ⟨piece, hpiece, rfl⟩ := hmem
      have hsize := (hpieces.bounds piece hpiece).2
      have hmtu := (l.node .input).networkMtu_lt
      exact ⟨_, _, piece, rfl, by simp only [NodeConfig.bufferSize] at hsize; omega⟩

/-- What the router sends to the input node changes nothing. -/
theorem readRouter (h : Sending l node inputBuffer read coming served) {argEcho : Bool}
    {data : List UInt8} {received : Received}
    (hread : handleRemoteData (l.node .input)
      (nodeHandlePacket l.toSink (l.node .input).order argEcho) (l.routerFd .input)
      (l.routerFd .input) data inputBuffer node = .ok (inputBuffer', node', received)) :
    Sending l node' inputBuffer' read coming served := by
  have hkeep := handleRemoteData_preserves (P := fun n => n.argAddress = l.address .input) ?_ hread
  · obtain ⟨b, pieces, hb, hbytes, hcoming⟩ := h.kept
    refine ⟨hkeep.1 h.address, b, pieces, ?_, hbytes, hcoming⟩
    rw [hkeep.2 _ (l.routerFd_ne .input).symm]
    exact hb
  · intro header payload n n' hhandle haddress
    have hne : n.argAddress ≠ 0 := haddress ▸ l.address_ne .input
    exact (nodeHandlePacket_argAddress _ hhandle hne).trans haddress

/-- The first frame on the way is the claim, or a piece of what was read. -/
theorem coming_cons (h : Sending l node inputBuffer read coming served) {f : List UInt8}
    {fs : List (List UInt8)} (hcoming : coming = f :: fs) :
    (f = l.claim .input ∧ Sending l node inputBuffer read fs served) ∨
      ∃ piece, f = l.dataFrame piece ∧ Sending l node inputBuffer read fs (served ++ piece) := by
  obtain ⟨b, pieces, hb, hbytes, hframes | hframes⟩ := h.kept
  · rw [hframes] at hcoming
    obtain ⟨piece, pieces', rfl, hpiece, hrest⟩ := List.map_eq_cons_iff.1 hcoming
    refine .inr ⟨piece, hpiece.symm, h.address, b, pieces', hb, ?_, .inl hrest.symm⟩
    rw [← hbytes]
    simp
  · rw [hframes] at hcoming
    obtain ⟨hclaim, hrest⟩ := List.cons.inj hcoming
    exact .inl ⟨hclaim.symm, h.address, b, pieces, hb, hbytes, .inl hrest.symm⟩

end Sending

/-! ## The output node -/

/-- What an output node prints of a frame. -/
def printed (order : ByteOrder) (frame : List UInt8) : List UInt8 :=
  if (callOf order frame).1.type = GNW_DATA then (callOf order frame).2 else []

@[simp] theorem printed_frameBytes (order : ByteOrder) (type : UInt8) (source : UInt32)
    (payload : List UInt8) :
    printed order (frameBytes order type source payload) =
      if type = GNW_DATA then payload else [] := by
  rw [printed, callOf_frameBytes]

/-- The output node prints the payloads of the data frames, in order. -/
theorem handleAll_stdout {order : ByteOrder} {toSink : Header → List UInt8 → σ → Except Fault σ}
    {frames : List (List UInt8)} (hframes : ∀ f ∈ frames, WellFormed order f) {n n' : NodeState σ}
    (h : handleAll order (nodeHandlePacket toSink order true) frames n = .ok n') :
    n'.stdout = n.stdout ++ frames.flatMap (printed order) := by
  induction frames generalizing n with
  | nil =>
    cases h
    simp
  | cons f frames ih =>
    rw [handleAll, List.foldlM_cons, Except.bind_eq_ok_iff] at h
    obtain ⟨n₁, hfirst, h⟩ := h
    obtain ⟨type, source, payload, rfl, hlength⟩ := hframes f List.mem_cons_self
    rw [callOf_frameBytes] at hfirst
    have hprint := nodeHandlePacket_stdout toSink hfirst (by simp; omega)
    rw [ih (fun f hf => hframes f (List.mem_cons_of_mem _ hf)) h, hprint, List.flatMap_cons,
      printed_frameBytes, List.append_assoc]

/-- Where the bytes are that the router has handed on: those that are not printed lie in
    frames in the buffer of the output node and on the way to it. -/
structure Arriving (l : Link σ) (node : NodeState σ) (inputBuffer : InputBuffer (l.node .output))
    (down passed : List UInt8) : Prop where
  kept : ∃ b, ∃ frames : List (List UInt8), inputBuffer.bufferFor (l.routerFd .output) = some b ∧
    b.window ++ down = frames.flatten ∧ (∀ f ∈ frames, WellFormed l.router.order f) ∧
    node.stdout ++ frames.flatMap (printed l.router.order) = passed

namespace Arriving

variable {node node' : NodeState σ} {inputBuffer inputBuffer' : InputBuffer (l.node .output)}
  {down passed : List UInt8}

theorem init (l : Link σ) (sinks : σ) :
    Arriving l { argAddress := l.address .output, stdout := [], sinks } Table.empty [] [] where
  kept := ⟨(l.node .output).newBuffer, [], InputBuffer.bufferFor_of_none _ rfl, rfl, by simp, rfl⟩

/-- A frame is written to the output node. -/
theorem written (h : Arriving l node inputBuffer down passed) {f : List UInt8}
    (hf : WellFormed l.router.order f) :
    Arriving l node inputBuffer (down ++ f) (passed ++ printed l.router.order f) := by
  obtain ⟨b, frames, hb, hbytes, hframes, hpassed⟩ := h.kept
  refine ⟨b, frames ++ [f], hb, ?_, ?_, ?_⟩
  · rw [← List.append_assoc, hbytes]
    simp
  · intro f' hf'
    rcases List.mem_append.1 hf' with hf' | hf'
    · exact hframes f' hf'
    · exact List.mem_singleton.1 hf' ▸ hf
  · rw [← hpassed]
    simp

/-- A read of the output node prints what has arrived as a whole. -/
theorem readRouter (h : Arriving l node inputBuffer down passed) {data : List UInt8}
    (hnext : data <+: down)
    (hallowed : RemoteAllowed (l.node .output) (l.routerFd .output) inputBuffer data)
    {received : Received}
    (hread : handleRemoteData (l.node .output)
      (nodeHandlePacket l.toSink (l.node .output).order true) (l.routerFd .output)
      (l.routerFd .output) data inputBuffer node = .ok (inputBuffer', node', received)) :
    Arriving l node' inputBuffer' (down.drop data.length) passed := by
  obtain ⟨b, frames, hb, hbytes, hframes, hpassed⟩ := h.kept
  obtain ⟨rest, rfl⟩ := hnext
  rw [List.drop_left]
  rw [← List.append_assoc] at hbytes
  have horder := l.order_node .output
  obtain ⟨taken, frames', rfl, htaken, hrest⟩ :=
    Reader.drain_frames (fun f hf => (hframes f hf).isFrame) hbytes
  have htaken' : ∀ f ∈ taken, WellFormed l.router.order f := fun f hf =>
    hframes f (List.mem_append_left _ hf)
  rw [← horder] at htaken hrest
  have hlong : ∀ f ∈ ((frameReader (l.node .output).order).drain (b.window ++ data)).1,
      11 ≤ f.length := by
    intro f hf
    rw [htaken] at hf
    obtain ⟨type, source, payload, rfl, -⟩ := htaken' f hf
    rw [length_frameBytes]
    omega
  obtain ⟨inputBuffer'', b', hb', hwindow, heq⟩ := handleRemoteData_eq
    (nodeHandlePacket l.toSink (l.node .output).order true) (l.routerFd .output) hb hallowed.1
    (hallowed.2 b hb) hlong node
  rw [htaken] at heq
  rw [heq] at hread
  cases hhandle : handleAll (l.node .output).order
      (nodeHandlePacket l.toSink (l.node .output).order true) taken node with
  | error e => simp [hhandle] at hread
  | ok n =>
    rw [hhandle] at hread
    cases hread
    refine ⟨b', frames', hb', ?_, fun f hf => hframes f (List.mem_append_right _ hf), ?_⟩
    · rw [hwindow]
      exact hrest
    · have hprint := handleAll_stdout (horder.symm ▸ htaken') hhandle
      rw [hprint, ← hpassed, horder]
      simp

end Arriving

/-! ## What the router writes to the output node -/

theorem Connection.written_handled {connection : Connection} {fd' : Int}
    (h : connection = .established fd') (fd : Int) (data : List UInt8) (discarded : Nat)
    (call : Option Packet) (writes : List Write) :
    connection.written (.handled fd data discarded call writes) = bytesTo fd' writes := by
  rw [h]
  rfl

theorem Connection.written_handled_eq_nil {connection : Connection} {fd : Int}
    {data : List UInt8} {discarded : Nat} {call : Option Packet} {writes : List Write}
    (h : ∀ fd', connection = .established fd' → bytesTo fd' writes = []) :
    connection.written (.handled fd data discarded call writes) = [] := by
  cases connection with
  | established fd' => exact h fd' rfl
  | _ => rfl

/-- The claim of a node is a request for its address. -/
theorem Link.parse_claim (l : Link σ) (side : Side) (rand : Nat → RandResult) :
    Request.parse l.router.order (l.claim side) rand = .ok (.newAddress (l.address side)) := by
  rw [claim, l.order_node]
  exact Asks.parse (.newAddress 0xFFFFFFFF (l.address side) rfl)

/-- The frame of a piece is data of the input node. -/
theorem Link.parse_dataFrame (l : Link σ) (piece : List UInt8) (rand : Nat → RandResult) :
    Request.parse l.router.order (l.dataFrame piece) rand = .ok (.data (l.address .input)) :=
  Asks.parse (.data _ piece (gnwParseHeader_frameBytes true l.router.order ..) rfl)

namespace Routing

variable {s : System l} {requests : List Served} {coming : Side → List (List UInt8)}
  (h : Routing s requests coming)
include h

/-- Another client writes nothing to the output node. -/
theorem stranger_silent {fd fd' : Int} (hclient : s.client fd = none)
    (hside : s.connection .output = .established fd') {r : Request}
    (hspeaker : r ≠ .data (l.address .input)) (honly : OnlySource l requests fd')
    {buffer : List UInt8} {rand : Nat → RandResult} {t : AddressTable} {writes : List Write}
    (hperformed : Performed l.router.order fd buffer rand s.router.tables.addressTable r t writes) :
    bytesTo fd' writes = [] := by
  have hne : fd ≠ fd' := by
    rintro rfl
    rw [h.client_eq hside] at hclient
    cases hclient
  cases r with
  | data source =>
    refine hperformed.bytesTo_stranger h.refines (h.live .output fd' hside).1 ?_
    intro target hedge hbound
    obtain ⟨fd'', hmem⟩ := History.mem_forward.1 hedge
    obtain ⟨e, he, -, hrequest⟩ := History.mem_ofServed.1 hmem
    have hsource := (honly e he source target hrequest hbound).1
    exact hspeaker (by rw [hsource])
  | _ =>
    apply hperformed.bytesTo_other
    · intro source heq
      cases heq
    · exact fun _ _ => hne

/-- Data of the input node is written to the output node, once, unless another
    connection has claimed the address since. -/
theorem broadcast {fd fd' : Int} (hside : s.connection .output = .established fd')
    (hundisturbed : Undisturbed l (requests ++
      [{ client := some .input, fd, request := .data (l.address .input) }]))
    (honly : OnlySource l requests fd') {buffer : List UInt8} {rand : Nat → RandResult}
    {t : AddressTable} {writes : List Write}
    (hperformed : Performed l.router.order fd buffer rand s.router.tables.addressTable
      (.data (l.address .input)) t writes) :
    bytesTo fd' writes =
      if (History.ofServed requests).boundFd (l.address .output) = fd' then buffer else [] := by
  obtain ⟨⟨e, he, hrequest⟩, -⟩ := hundisturbed.first requests _ [] rfl rfl
  have hmem : (e.fd, Request.connect (l.address .input) (l.address .output)) ∈
      History.ofServed requests := History.mem_ofServed.2 ⟨e, he, rfl, hrequest⟩
  have hedge : l.address .output ∈ (History.ofServed requests).forward (l.address .input) :=
    History.mem_forward.2 ⟨e.fd, hmem⟩
  refine hperformed.bytesTo_broadcast h.refines (h.live .output fd' hside).1 ?_ ?_ ?_ ?_
  · apply History.policy_broadcast
    intro r hr policy hpolicy
    obtain ⟨e', he', rfl⟩ := List.mem_map.1 hr
    exact hundisturbed.policy e' (List.mem_append_left _ he') policy hpolicy
  · refine List.any_eq_true.2 ⟨_, hmem, ?_⟩
    simp [Request.introduces]
  · have hpos := List.count_pos_iff.2 hedge
    have hone := hundisturbed.of_append.connect
    rw [History.count_forward, History.ofServed, List.countP_map] at hpos ⊢
    simp only [Function.comp_def] at hpos ⊢
    omega
  · intro target htarget hbound
    obtain ⟨fd'', hmem'⟩ := History.mem_forward.1 htarget
    obtain ⟨e', he', -, hrequest'⟩ := History.mem_ofServed.1 hmem'
    exact (honly e' he' _ target hrequest' hbound).2

end Routing

/-! ## The bytes of a run -/

/-- Where the bytes are that the input node has read. Unless the output node has lost its
    address for good, all that was served was handed on to it. -/
structure Carried (s : System l) (read : List UInt8) (requests : List Served)
    (coming : Side → List (List UInt8)) (served passed : List UInt8) : Prop where
  routing : Routing s requests coming
  sending : Sending l (s.node .input) (s.inputBuffer .input) read (coming .input) served
  arriving : Arriving l (s.node .output) (s.inputBuffer .output) (s.down .output) passed
  passed_prefix : passed <+: served
  complete : passed = served ∨ (coming .output = [] ∧
    ∀ fd, s.connection .output = .established fd →
      (History.ofServed requests).boundFd (l.address .output) ≠ fd)

namespace Carried

variable {s : System l} {read : List UInt8} {requests : List Served}
  {coming : Side → List (List UInt8)} {served passed : List UInt8}

theorem init (l : Link σ) (listenFd : Int) (sinks : Side → σ) :
    Carried (System.init l listenFd sinks) [] [] (fun side => [l.claim side]) [] [] where
  routing := .init l listenFd sinks
  sending := .init l (sinks .input)
  arriving := .init l (sinks .output)
  passed_prefix := List.prefix_rfl
  complete := .inl rfl

variable (h : Carried s read requests coming served passed)
include h

/-- What is printed is the beginning of what was read. -/
theorem stdout_prefix : (s.node .output).stdout <+: read := by
  obtain ⟨-, frames, -, -, -, hpassed⟩ := h.arriving.kept
  obtain ⟨b, pieces, -, hread, -⟩ := h.sending.kept
  calc (s.node .output).stdout
    _ <+: passed := ⟨_, hpassed⟩
    _ <+: served := h.passed_prefix
    _ <+: read := ⟨pieces.flatten ++ b.window, by rw [← hread, List.append_assoc]⟩

/-! ### The steps of the router -/

/-- A step of the router that writes nothing to the output node. -/
theorem quiet {client : Option Side} {router : Router l.router} {output : Output}
    {new : List Served} {coming' : Side → List (List UInt8)}
    (hrouting : Routing (s.routed client router output) (requests ++ new) coming')
    (hwritten : (s.connection .output).written output = [])
    (hinput : Sending l (s.node .input) (s.inputBuffer .input) read (coming' .input) served)
    (houtput : coming' .output = coming .output)
    (hbound : coming .output = [] → ∀ fd,
      (s.connection .output).after (client = some .output) output = .established fd →
      (∀ fd', s.connection .output = .established fd' →
        (History.ofServed requests).boundFd (l.address .output) ≠ fd') →
      (History.ofServed (requests ++ new)).boundFd (l.address .output) ≠ fd) :
    Carried (s.routed client router output) read (requests ++ new) coming' served passed where
  routing := hrouting
  sending := hinput
  arriving := by
    show Arriving l (s.node .output) (s.inputBuffer .output)
      (s.down .output ++ (s.connection .output).written output) passed
    rw [hwritten, List.append_nil]
    exact h.arriving
  passed_prefix := h.passed_prefix
  complete := by
    rcases h.complete with hall | ⟨hnone, hlost⟩
    · exact .inl hall
    · exact .inr ⟨houtput.trans hnone, fun fd hfd => hbound hnone fd hfd hlost⟩

/-- A connection is accepted. -/
theorem accepted {client : Option Side} {fd : Int} {entry : Fin MAX_MONITOR_FDS}
    {pollStruct : PollFd} (hallowed : Router.Allowed l.router s.router (.accept (some fd)))
    (hclient : ∀ side, client = some side → s.connection side = .waiting) (hentry : entry ≠ 0)
    (hfree : (s.router.pollList entry).fd = -1) (hfd : pollStruct.fd = fd) :
    Carried (s.routed client
      { s.router with pollList := setEntry s.router.pollList entry pollStruct } (.accepted fd))
      read (requests ++ []) coming served passed := by
  refine h.quiet ?_ rfl h.sending rfl ?_
  · rw [List.append_nil]
    exact h.routing.accepted hallowed hclient hentry hfree hfd
  · intro hnone fd' hafter hlost
    rw [List.append_nil]
    simp only [Connection.after] at hafter
    split at hafter
    · -- the output node has not sent its claim when it connects
      rename_i hmine
      have hclaim := h.routing.waiting (hclient .output (of_decide_eq_true hmine))
      rw [hclaim] at hnone
      cases hnone
    · exact hlost fd' hafter

/-- Another client is dropped. -/
theorem closed {act : Act} {client : Option Side} {fd : Int} {slot : Fin MAX_MONITOR_FDS}
    {pollStruct : PollFd} (hallowed : Router.Allowed l.router s.router act) (hslot : slot ≠ 0)
    (hfd : (s.router.pollList slot).fd = fd) (hlive : fd ≠ -1) (hdead : pollStruct.fd = -1)
    (hother : ∀ side, s.connection side ≠ .established fd) :
    Carried (s.routed client
      { tables := { s.router.tables with
          localBuffer := s.router.tables.localBuffer.erase fd }
        pollList := setEntry s.router.pollList slot pollStruct } (.closed fd))
      read (requests ++ []) coming served passed := by
  refine h.quiet ?_ rfl h.sending rfl ?_
  · rw [List.append_nil]
    exact h.routing.closed hallowed hslot hfd hlive hdead hother
  · intro _ fd' hafter hlost
    rw [List.append_nil]
    rw [Connection.after, if_neg (hother .output)] at hafter
    exact hlost fd' hafter

/-- A request from elsewhere does not give its address back to the output node. -/
theorem boundFd_ne {e : Served} (hclient : s.client e.fd ≠ some .output) {fd : Int}
    (hside : s.connection .output = .established fd)
    (hlost : (History.ofServed requests).boundFd (l.address .output) ≠ fd) :
    (History.ofServed (requests ++ [e])).boundFd (l.address .output) ≠ fd := by
  rw [History.ofServed_snoc]
  apply History.boundFd_snoc_ne e.request _ hlost
  rintro rfl
  exact hclient (h.routing.client_eq hside)

section Handled

variable {client : Option Side} {router : Router l.router} {fd : Int} {data : List UInt8}
  {discarded : Nat} {p : Packet} {writes : List Write} {t : AddressTable}

/-- A frame of another client. -/
theorem stranger {r : Request}
    (hrouting : Routing (s.routed client router (.handled fd data discarded (some p) writes))
      (requests ++ [{ client := none, fd, request := r }]) coming)
    (hclient : s.client fd = none)
    (hperformed : Performed l.router.order fd p.buffer p.rand s.router.tables.addressTable r t
      writes)
    (hundisturbed : Undisturbed l (requests ++ [{ client := none, fd, request := r }]))
    (honly : ∀ fd', s.connection .output = .established fd' → OnlySource l requests fd') :
    Carried (s.routed client router (.handled fd data discarded (some p) writes)) read
      (requests ++ [{ client := none, fd, request := r }]) coming served passed := by
  refine h.quiet hrouting ?_ h.sending rfl ?_
  · apply Connection.written_handled_eq_nil
    intro fd' hside
    apply h.routing.stranger_silent hclient hside _ (honly fd' hside) hperformed
    intro hdata
    have hspeaker := hundisturbed.speaker _ (List.mem_append_right _ List.mem_cons_self) hdata
    cases hspeaker
  · intro _ fd' hside hlost
    apply h.boundFd_ne _ hside (hlost fd' hside)
    rw [hclient]
    exact nofun

/-- The claim of the input node, which is answered to this node only. -/
theorem inputClaim {fs : List (List UInt8)} {coming' : Side → List (List UInt8)}
    (hrouting : Routing (s.routed client router (.handled fd data discarded (some p) writes))
      (requests ++ [{ client := some .input, fd, request := .newAddress (l.address .input) }])
      coming')
    (hclient : s.client fd = some .input) (hcoming' : coming' = Function.update coming .input fs)
    (hsending : Sending l (s.node .input) (s.inputBuffer .input) read fs served)
    (hperformed : Performed l.router.order fd p.buffer p.rand s.router.tables.addressTable
      (.newAddress (l.address .input)) t writes) :
    Carried (s.routed client router (.handled fd data discarded (some p) writes)) read
      (requests ++ [{ client := some .input, fd, request := .newAddress (l.address .input) }])
      coming' served passed := by
  subst hcoming'
  have hother : s.client fd ≠ some .output := by
    rw [hclient]
    exact nofun
  refine h.quiet hrouting ?_ ?_ (Function.update_of_ne (by decide) ..) ?_
  · apply Connection.written_handled_eq_nil
    intro fd' hside
    apply hperformed.bytesTo_other
    · exact nofun
    · rintro _ - rfl
      exact hother (h.routing.client_eq hside)
  · rw [Function.update_self]
    exact hsending
  · intro _ fd' hside hlost
    exact h.boundFd_ne hother hside (hlost fd' hside)

/-- The claim of the output node, and the reply to it. -/
theorem outputClaim {fs : List (List UInt8)} {coming' : Side → List (List UInt8)}
    (hrouting : Routing (s.routed client router (.handled fd data discarded (some p) writes))
      (requests ++ [{ client := some .output, fd, request := .newAddress (l.address .output) }])
      coming')
    (hclient : s.client fd = some .output) (hcoming : coming .output = p.buffer :: fs)
    (hcoming' : coming' = Function.update coming .output fs)
    (hperformed : Performed l.router.order fd p.buffer p.rand s.router.tables.addressTable
      (.newAddress (l.address .output)) t writes) :
    Carried (s.routed client router (.handled fd data discarded (some p) writes)) read
      (requests ++ [{ client := some .output, fd, request := .newAddress (l.address .output) }])
      coming' served passed := by
  subst hcoming'
  have hside := Routing.of_client_eq hclient
  have hall : passed = served := by
    rcases h.complete with hall | ⟨hnone, -⟩
    · exact hall
    · rw [hcoming] at hnone
      cases hnone
  have hwritten := hperformed.bytesTo_claim
  rw [← Connection.written_handled hside fd data discarded (some p) writes] at hwritten
  refine ⟨hrouting, ?_, ?_, h.passed_prefix, .inl hall⟩
  · rw [Function.update_of_ne (by decide)]
    exact h.sending
  · have harriving := h.arriving.written (f := (AddressTable.newAddressReply l.router.order fd
      (l.address .output)).bytes) ⟨_, _, _, rfl, by simp⟩
    rw [AddressTable.newAddressReply, printed_frameBytes, if_neg (by decide),
      List.append_nil] at harriving
    show Arriving l (s.node .output) (s.inputBuffer .output)
      (s.down .output ++ (s.connection .output).written _) passed
    rw [hwritten]
    exact harriving

/-- A piece of the standard input: it is handed on, unless the output node has lost its
    address. -/
theorem piece {piece : List UInt8} {fs : List (List UInt8)} {coming' : Side → List (List UInt8)}
    (hrouting : Routing (s.routed client router (.handled fd data discarded (some p) writes))
      (requests ++ [{ client := some .input, fd, request := .data (l.address .input) }]) coming')
    (hclient : s.client fd = some .input) (hcoming : coming .input = l.dataFrame piece :: fs)
    (hbuffer : p.buffer = l.dataFrame piece) (hcoming' : coming' = Function.update coming .input fs)
    (hsending : Sending l (s.node .input) (s.inputBuffer .input) read fs (served ++ piece))
    (hperformed : Performed l.router.order fd p.buffer p.rand s.router.tables.addressTable
      (.data (l.address .input)) t writes)
    (hopen : s.connection .output ≠ .lost)
    (hundisturbed : Undisturbed l
      (requests ++ [{ client := some .input, fd, request := .data (l.address .input) }]))
    (honly : ∀ fd', s.connection .output = .established fd' → OnlySource l requests fd') :
    ∃ passed', Carried (s.routed client router (.handled fd data discarded (some p) writes)) read
      (requests ++ [{ client := some .input, fd, request := .data (l.address .input) }])
      coming' (served ++ piece) passed' := by
  subst hcoming'
  have houtput : Function.update coming .input fs .output = coming .output :=
    Function.update_of_ne (by decide) ..
  have hsending' : Sending l (s.node .input) (s.inputBuffer .input) read
      (Function.update coming .input fs .input) (served ++ piece) := by
    rw [Function.update_self]
    exact hsending
  -- the output node has connected and claimed its address
  obtain ⟨-, e, he, heclient, -⟩ := hundisturbed.first requests _ [] rfl rfl
  have hnone : coming .output = [] := h.routing.claimed ⟨e, he, heclient⟩
  obtain ⟨fd', hside⟩ : ∃ fd', s.connection .output = .established fd' := by
    cases hconnection : s.connection .output with
    | waiting =>
      have hclaim := h.routing.waiting hconnection
      rw [hclaim] at hnone
      cases hnone
    | established fd' => exact ⟨fd', rfl⟩
    | lost => exact absurd hconnection hopen
  have hwritten := h.routing.broadcast hside hundisturbed (honly fd' hside) hperformed
  rw [← Connection.written_handled hside fd data discarded (some p) writes] at hwritten
  by_cases hmine : (History.ofServed requests).boundFd (l.address .output) = fd'
  · rw [if_pos hmine, hbuffer] at hwritten
    have hall : passed = served := by
      rcases h.complete with hall | ⟨-, hlost⟩
      · exact hall
      · exact absurd hmine (hlost fd' hside)
    have hframe : WellFormed l.router.order (l.dataFrame piece) :=
      h.routing.frames .input _ (hcoming ▸ List.mem_cons_self)
    have harriving := h.arriving.written hframe
    rw [Link.dataFrame, printed_frameBytes, if_pos rfl] at harriving
    refine ⟨passed ++ piece, hrouting, hsending', ?_, ?_, .inl (by rw [hall])⟩
    · show Arriving l (s.node .output) (s.inputBuffer .output)
        (s.down .output ++ (s.connection .output).written _) (passed ++ piece)
      rw [hwritten]
      exact harriving
    · rw [hall]
  · rw [if_neg hmine] at hwritten
    refine ⟨passed, hrouting, hsending', ?_, ?_, .inr ⟨houtput.trans hnone, ?_⟩⟩
    · show Arriving l (s.node .output) (s.inputBuffer .output)
        (s.down .output ++ (s.connection .output).written _) passed
      rw [hwritten, List.append_nil]
      exact h.arriving
    · exact h.passed_prefix.trans (List.prefix_append ..)
    · intro fd'' hside''
      have hsame : fd' = fd'' := Connection.established.inj (hside.symm.trans hside'')
      apply h.boundFd_ne _ hside'' (hsame ▸ hmine)
      rw [hclient]
      exact nofun

end Handled

/-- A read of the router: data of the input node is handed on, and all else is no data
    to the output node. -/
theorem handled {act : Act} {router : Router l.router} {fd : Int} {data : List UInt8}
    {discarded : Nat} {call : Option Packet} {writes : List Write}
    (hallowed : Router.Allowed l.router s.router act)
    (heffect : Router.Effect l.router s.router act router (.handled fd data discarded call writes))
    (hnext : ∀ side, s.connection side = .established fd → data <+: s.up side)
    (hopen : s.connection .output ≠ .lost)
    (hundisturbed : Undisturbed l (requests ++ ((Seen.router (s.client fd)
      (.handled fd data discarded call writes)).served l.router.order).toList))
    (honly : ∀ fd', s.connection .output = .established fd' → OnlySource l requests fd') :
    ∃ coming' served' passed',
      Carried (s.routed (s.client fd) router (.handled fd data discarded call writes)) read
        (requests ++ ((Seen.router (s.client fd)
          (.handled fd data discarded call writes)).served l.router.order).toList)
        coming' served' passed' := by
  obtain ⟨coming', hhandled, hrouting⟩ := h.routing.handled hallowed heffect hnext
  generalize ((Seen.router (s.client fd)
    (.handled fd data discarded call writes)).served l.router.order).toList = new at *
  cases hhandled with
  | idle =>
    refine ⟨coming, served, passed, h.quiet hrouting ?_ h.sending rfl ?_⟩
    · exact Connection.written_handled_eq_nil fun _ _ => rfl
    · intro _ fd' hside hlost
      rw [List.append_nil]
      exact hlost fd' hside
  | stranger hclient _ hperformed =>
    exact ⟨_, _, _, h.stranger hrouting hclient hperformed hundisturbed honly⟩
  | @node side p r t _ fs hclient hcoming hparse hperformed =>
    cases side with
    | input =>
      rcases h.sending.coming_cons hcoming with ⟨hclaim, hsending⟩ | ⟨piece, hpiece, hsending⟩
      · rw [hclaim, l.parse_claim] at hparse
        cases hparse
        exact ⟨_, _, _, h.inputClaim hrouting hclient rfl hsending hperformed⟩
      · have hfirst : coming .input = l.dataFrame piece :: fs := by rw [hcoming, hpiece]
        rw [hpiece, l.parse_dataFrame] at hparse
        cases hparse
        exact ⟨_, _, h.piece hrouting hclient hfirst hpiece rfl hsending hperformed hopen
          hundisturbed honly⟩
    | output =>
      rw [(h.routing.output_cons hcoming).1, l.parse_claim] at hparse
      cases hparse
      exact ⟨_, _, _, h.outputClaim hrouting hclient hcoming rfl hperformed⟩

/-- A step of the router, of whatever kind. -/
theorem router {act : Act} {client : Option Side} {router : Router l.router} {output : Output}
    (hallowed : Router.Allowed l.router s.router act)
    (heffect : Router.Effect l.router s.router act router output)
    (haccept : ∀ remoteFd, act = .accept remoteFd →
      ∀ side, client = some side → s.connection side = .waiting)
    (hevent : ∀ slot revents data rand, act = .event slot revents data rand →
      client = s.client (s.router.pollList slot).fd ∧
        ∀ side, s.connection side = .established (s.router.pollList slot).fd → data <+: s.up side)
    (hopen : ∀ side, (s.routed client router output).connection side ≠ .lost)
    (hundisturbed : Undisturbed l
      (requests ++ ((Seen.router client output).served l.router.order).toList))
    (honly : ∀ fd, s.connection .output = .established fd → OnlySource l requests fd) :
    ∃ coming' served' passed',
      Carried (s.routed client router output) read
        (requests ++ ((Seen.router client output).served l.router.order).toList)
        coming' served' passed' := by
  have heffect' := heffect
  cases heffect with
  | nothing =>
    refine ⟨coming, served, passed, h.quiet ?_ rfl h.sending rfl ?_⟩
    · simpa [Seen.served, System.routed, Connection.after, Connection.taken,
        Connection.written] using h.routing
    · intro _ fd hside hlost
      simpa [Seen.served] using hlost fd hside
  | accepted hentry hfree hfd =>
    exact ⟨coming, served, passed, h.accepted hallowed (haccept _ rfl) hentry hfree hfd⟩
  | @closed _ fd slot pollStruct hslot hfd hlive hdead =>
    have hother : ∀ side, s.connection side ≠ .established fd := by
      intro side hside
      apply hopen side
      exact if_pos hside
    exact ⟨coming, served, passed, h.closed hallowed hslot hfd hlive hdead hother⟩
  | @handled fd slot pollStruct revents data rand _ _ _ _ _ _ hfd =>
    obtain ⟨rfl, hnext⟩ := hevent slot revents data rand rfl
    rw [hfd] at hnext hundisturbed ⊢
    exact h.handled hallowed heffect' hnext (hopen .output) hundisturbed honly

/-! ### Every step -/

/-- The input node reads its standard input. -/
theorem readStdin {data : List UInt8}
    (hallowed : LocalAllowed (l.node .input) (s.inputBuffer .input) data)
    {inputBuffer : InputBuffer (l.node .input)} {localRead : LocalRead}
    (hread : handleLocalData (l.node .input) (s.node .input).argAddress l.delimiter STDIN_FILENO
      false data (s.inputBuffer .input) = .ok (inputBuffer, localRead)) :
    Carried { s with
        inputBuffer := Function.update s.inputBuffer .input inputBuffer
        up := Function.update s.up .input (s.up .input ++ localRead.packets.flatten) }
      (read ++ data) requests
      (Function.update coming .input (coming .input ++ localRead.packets)) served passed := by
  obtain ⟨hsending, hpackets⟩ := h.sending.readStdin hallowed hread
  have hsame : Function.update s.inputBuffer .input inputBuffer .output =
      s.inputBuffer .output := Function.update_of_ne (by decide) ..
  constructor
  · exact (h.routing.sent hpackets).of_eq rfl rfl rfl
  · simpa using hsending
  · show Arriving l (s.node .output) (Function.update s.inputBuffer .input inputBuffer .output)
      (s.down .output) passed
    rw [hsame]
    exact h.arriving
  · exact h.passed_prefix
  · rw [Function.update_of_ne (by decide)]
    exact h.complete

/-- A node reads from the router. -/
theorem readRouter {side : Side} {data : List UInt8} (hnext : data <+: s.down side)
    (hallowed : RemoteAllowed (l.node side) (l.routerFd side) (s.inputBuffer side) data)
    {inputBuffer : InputBuffer (l.node side)} {node : NodeState σ} {received : Received}
    (hread : handleRemoteData (l.node side)
      (nodeHandlePacket l.toSink (l.node side).order (side = .output)) (l.routerFd side)
      (l.routerFd side) data (s.inputBuffer side) (s.node side) =
        .ok (inputBuffer, node, received)) :
    Carried { s with
        inputBuffer := Function.update s.inputBuffer side inputBuffer
        node := Function.update s.node side node
        down := Function.update s.down side ((s.down side).drop data.length) }
      read requests coming served passed := by
  have hrouting : Routing { s with
      inputBuffer := Function.update s.inputBuffer side inputBuffer
      node := Function.update s.node side node
      down := Function.update s.down side ((s.down side).drop data.length) } requests coming :=
    h.routing.of_eq rfl rfl rfl
  cases side with
  | input =>
    refine ⟨hrouting, ?_, ?_, h.passed_prefix, h.complete⟩
    · simpa using h.sending.readRouter hread
    · simpa using h.arriving
  | output =>
    refine ⟨hrouting, ?_, ?_, h.passed_prefix, h.complete⟩
    · simpa using h.sending
    · simpa using h.arriving.readRouter hnext hallowed (by simpa using hread)

/-- Every step moves the bytes on. -/
theorem step {action : SystemAction} {s' : System l} {seen : Seen}
    (hallowed : System.Allowed l s action) (hstep : System.step l s action = .ok (s', seen))
    (hopen : ∀ side, s'.connection side ≠ .lost)
    (hundisturbed : Undisturbed l (requests ++ (seen.served l.router.order).toList))
    (honly : ∀ fd, s.connection .output = .established fd → OnlySource l requests fd) :
    ∃ coming' served' passed', Carried s' (read ++ action.stdin)
      (requests ++ (seen.served l.router.order).toList) coming' served' passed' := by
  cases System.effect_of_step hstep with
  | accept heffect =>
    simp only [SystemAction.stdin, List.append_nil]
    refine h.router hallowed.1 heffect ?_ nofun hopen hundisturbed honly
    rintro _ - side hclient
    exact hallowed.2 side hclient
  | event hclient heffect =>
    simp only [SystemAction.stdin, List.append_nil]
    refine h.router hallowed.1 heffect nofun ?_ hopen hundisturbed honly
    intro slot' revents' data' rand' heq
    cases heq
    exact ⟨hclient, hallowed.2⟩
  | @readStdin data inputBuffer localRead hread =>
    refine ⟨Function.update coming .input (coming .input ++ localRead.packets), served, passed, ?_⟩
    simpa [Seen.served, SystemAction.stdin] using h.readStdin hallowed hread
  | readRouter hread =>
    refine ⟨coming, served, passed, ?_⟩
    simpa [Seen.served, SystemAction.stdin] using h.readRouter hallowed.1 hallowed.2 hread

end Carried

/-! ## The runs -/

/-- A lost connection stays lost. -/
theorem System.lost_step {s s' : System l} {action : SystemAction} {seen : Seen} {side : Side}
    (hallowed : System.Allowed l s action) (hstep : System.step l s action = .ok (s', seen))
    (hlost : s.connection side = .lost) : s'.connection side = .lost := by
  cases System.effect_of_step hstep with
  | @accept client _ _ output =>
    have hother : client ≠ some side := by
      intro hmine
      have hwaiting := hallowed.2 side hmine
      rw [hlost] at hwaiting
      cases hwaiting
    show (s.connection side).after (client = some side) output = .lost
    rw [hlost]
    cases output <;> simp [Connection.after, hother]
  | @event _ _ _ _ client _ output _ heffect =>
    show (s.connection side).after (client = some side) output = .lost
    rw [hlost]
    cases heffect <;> simp [Connection.after]
  | readStdin => exact hlost
  | readRouter => exact hlost

/-- Wherever the bytes are, none is lost on the way. -/
theorem System.Run.carried {listenFd : Int} {sinks : Side → σ} {s : System l}
    {tr : List (SystemAction × Seen)} (h : System.Run l (System.init l listenFd sinks) tr s)
    (hopen : ∀ side, s.connection side ≠ .lost)
    (hundisturbed : Undisturbed l (servedIn l.router.order tr))
    (honly : ∀ tr₁ tr₂ s₁, tr = tr₁ ++ tr₂ → System.Run l (System.init l listenFd sinks) tr₁ s₁ →
      ∀ fd, s₁.connection .output = .established fd →
        OnlySource l (servedIn l.router.order tr₁) fd) :
    ∃ coming served passed,
      Carried s (stdinRead tr) (servedIn l.router.order tr) coming served passed := by
  induction h with
  | nil => exact ⟨_, _, _, .init l listenFd sinks⟩
  | @snoc tr s s' action seen hrun hallowed hstep ih =>
    rw [servedIn_snoc] at hundisturbed
    have hopen' : ∀ side, s.connection side ≠ .lost := fun side hlost =>
      hopen side (System.lost_step hallowed hstep hlost)
    obtain ⟨coming, served, passed, hcarried⟩ := ih hopen' hundisturbed.of_append
      fun tr₁ tr₂ s₁ htr => honly tr₁ (tr₂ ++ [(action, seen)]) s₁ (by rw [htr, List.append_assoc])
    rw [stdinRead_snoc, servedIn_snoc]
    exact hcarried.step hallowed hstep hopen hundisturbed (honly tr [(action, seen)] s rfl hrun)

/-- Whatever the pieces are in which the nodes and the router read, whatever the
    delimiter is and however the processes and other clients take turns: if at every
    moment the input node alone is connected to what is bound to the connection of the
    output node, then what that has printed is the beginning of what the input node has
    read. -/
theorem end_to_end {listenFd : Int} {sinks : Side → σ} {s : System l}
    {tr : List (SystemAction × Seen)} (hrun : System.Run l (System.init l listenFd sinks) tr s)
    (hopen : ∀ side, s.connection side ≠ .lost)
    (hundisturbed : Undisturbed l (servedIn l.router.order tr))
    (honly : ∀ tr₁ tr₂ s₁, tr = tr₁ ++ tr₂ → System.Run l (System.init l listenFd sinks) tr₁ s₁ →
      ∀ fd, s₁.connection .output = .established fd →
        OnlySource l (servedIn l.router.order tr₁) fd) :
    (s.node .output).stdout <+: stdinRead tr := by
  obtain ⟨coming, served, passed, hcarried⟩ := hrun.carried hopen hundisturbed honly
  exact hcarried.stdout_prefix

/-! ### A run -/

/-- Two nodes with buffers of twenty bytes, on both sides of a router with an MTU of 32. -/
def smallLink : Link Unit where
  router := smallRouter
  node _ := smallNode
  order_node _ := rfl
  address
    | .input => 9
    | .output => 7
  address_ne side := by cases side <;> decide
  delimiter := 0x0A
  routerFd _ := 3
  routerFd_ne _ := by decide
  toSink _ _ _ := .ok ()

/-- The reads end inside frames on both sides of the router, and one of them takes in two
    frames. -/
def smallLinkActions : List SystemAction :=
  let connect := frameBytes .little GNW_COMMAND 0xFFFFFFFF
    (GNW_CMD_CONNECT :: (u32Bytes .little 9 ++ u32Bytes .little 7))
  let claim := smallLink.claim .input
  let first := smallLink.dataFrame [0x68, 0x69]
  let second := smallLink.dataFrame [0x0A, 0x79]
  let reply := frameBytes .little GNW_REPLY 0xFFFFFFFF (GNW_CMD_NEW_ADDRESS :: u32Bytes .little 7)
  let down := reply ++ first ++ second
  let rand := fun _ => 0
  [.accept (some .output) (some 4), .accept (some .input) (some 5), .accept none (some 6),
    .event 1 POLLIN (smallLink.claim .output) rand, .event 3 POLLIN connect rand,
    .readStdin [0x68, 0x69, 0x0A], .event 2 POLLIN (claim.take 10) rand,
    .event 2 POLLIN (claim.drop 10 ++ first.take 3) rand, .readStdin [0x79, 0x0A],
    .event 2 POLLIN (first.drop 3) rand, .event 2 POLLIN second rand,
    .readRouter .output (down.take 20), .readRouter .output ((down.drop 20).take 16),
    .readRouter .output (down.drop 36)]

/-- The requests that are served in this run. -/
def smallLinkRequests : List Served :=
  [{ client := some .output, fd := 4, request := .newAddress 7 },
    { client := none, fd := 6, request := .connect 9 7 },
    { client := some .input, fd := 5, request := .newAddress 9 },
    { client := some .input, fd := 5, request := .data 9 },
    { client := some .input, fd := 5, request := .data 9 }]

/-- The only connection that is asked for in it is that of the two nodes. -/
theorem smallLinkRequests_connect {e : Served} (he : e ∈ smallLinkRequests)
    {source target : UInt32} (hrequest : e.request = .connect source target) :
    source = smallLink.address .input ∧ target = smallLink.address .output := by
  simp only [smallLinkRequests, List.mem_cons, List.not_mem_nil, or_false] at he
  rcases he with rfl | rfl | rfl | rfl | rfl <;> cases hrequest
  exact ⟨rfl, rfl⟩

theorem smallLinkRequests_undisturbed : Undisturbed smallLink smallLinkRequests where
  speaker := by decide
  policy := by
    intro e he policy hrequest
    simp only [smallLinkRequests, List.mem_cons, List.not_mem_nil, or_false] at he
    rcases he with rfl | rfl | rfl | rfl | rfl <;> cases hrequest
  connect := by decide
  first := by
    intro pre e post hsplit hdata
    rcases pre with _ | ⟨e₁, _ | ⟨e₂, _ | ⟨e₃, pre⟩⟩⟩
    · obtain ⟨rfl, -⟩ := List.cons.inj hsplit
      cases hdata
    · obtain ⟨rfl, -⟩ := List.cons.inj (List.cons.inj hsplit).2
      cases hdata
    · obtain ⟨rfl, -⟩ := List.cons.inj (List.cons.inj (List.cons.inj hsplit).2).2
      cases hdata
    · obtain ⟨rfl, hrest⟩ := List.cons.inj hsplit
      obtain ⟨rfl, -⟩ := List.cons.inj hrest
      exact ⟨⟨_, List.mem_cons_of_mem _ List.mem_cons_self, rfl⟩, _, List.mem_cons_self, rfl, rfl⟩

theorem end_to_end_pieces :
    ∃ tr s, System.Run smallLink (System.init smallLink 3 fun _ => ()) tr s ∧
      (s.node .output).stdout = [0x68, 0x69, 0x0A, 0x79] ∧
      (s.node .output).stdout <+: stdinRead tr := by
  have hsim : (Machine.simulate (System.Allowed smallLink) (System.step smallLink)
      (System.init smallLink 3 fun _ => ()) smallLinkActions).any (fun r =>
        (r.1.node .output).stdout = [0x68, 0x69, 0x0A, 0x79] &&
        decide (∀ side, r.1.connection side ≠ .lost) &&
        servedIn .little r.2 = smallLinkRequests) = true := by
    decide +kernel
  obtain ⟨tr, s, hrun, hlast⟩ := Machine.Run.exists_of_simulate hsim
  simp only [Bool.and_eq_true, decide_eq_true_eq] at hlast
  obtain ⟨⟨hstdout, hopen⟩, hserved⟩ := hlast
  refine ⟨tr, s, hrun, hstdout, end_to_end hrun hopen (hserved ▸ smallLinkRequests_undisturbed) ?_⟩
  intro tr₁ tr₂ s₁ htr _ fd _ e he source target hrequest _
  have hmem : e ∈ servedIn .little tr := by
    rw [htr, servedIn, List.filterMap_append]
    exact List.mem_append_left _ he
  exact smallLinkRequests_connect (hserved ▸ hmem) hrequest

/-! ### A run in which another source is printed -/

/-- A client claims an address and hangs up, and the output node is given its
    descriptor. Then a source that is connected to this address sends a byte. -/
def strayActions : List SystemAction :=
  let command (payload : List UInt8) := frameBytes .little GNW_COMMAND 0xFFFFFFFF payload
  let connect (source target : UInt32) :=
    command (GNW_CMD_CONNECT :: (u32Bytes .little source ++ u32Bytes .little target))
  let stray := frameBytes .little GNW_DATA 3 [0x5A]
  let reply := frameBytes .little GNW_REPLY 0xFFFFFFFF (GNW_CMD_NEW_ADDRESS :: u32Bytes .little 7)
  let rand := fun _ => 0
  [.accept none (some 4),
    .event 1 POLLIN (command (GNW_CMD_NEW_ADDRESS :: u32Bytes .little 8)) rand,
    .event 1 (POLLIN ||| POLLHUP) [] rand, .accept (some .output) (some 4),
    .event 1 POLLIN (smallLink.claim .output) rand, .accept (some .input) (some 5),
    .event 2 POLLIN (smallLink.claim .input) rand, .accept none (some 6),
    .event 3 POLLIN (connect 9 7) rand, .event 3 POLLIN (connect 3 8) rand,
    .event 3 POLLIN stray rand, .readRouter .output reply, .readRouter .output stray]

/-- The requests that are served in this run. -/
def strayRequests : List Served :=
  [{ client := none, fd := 4, request := .newAddress 8 },
    { client := some .output, fd := 4, request := .newAddress 7 },
    { client := some .input, fd := 5, request := .newAddress 9 },
    { client := none, fd := 6, request := .connect 9 7 },
    { client := none, fd := 6, request := .connect 3 8 },
    { client := none, fd := 6, request := .data 3 }]

theorem strayRequests_undisturbed : Undisturbed smallLink strayRequests where
  speaker := by decide
  policy := by
    intro e he policy hrequest
    simp only [strayRequests, List.mem_cons, List.not_mem_nil, or_false] at he
    rcases he with rfl | rfl | rfl | rfl | rfl | rfl <;> cases hrequest
  connect := by decide
  first := by
    intro pre e post hsplit hdata
    have he : e ∈ strayRequests := by simp [hsplit]
    simp only [strayRequests, List.mem_cons, List.not_mem_nil, or_false] at he
    rcases he with rfl | rfl | rfl | rfl | rfl | rfl <;> cases hdata

/-- It is not enough that no other source is connected to the address of the output
    node: the address of the client that hung up is still bound to the descriptor, and
    what is printed was never read. -/
theorem end_to_end_fails :
    ¬∀ tr s, System.Run smallLink (System.init smallLink 3 fun _ => ()) tr s →
      (∀ side, s.connection side ≠ .lost) → Undisturbed smallLink (servedIn .little tr) →
      (∀ e ∈ servedIn .little tr, ∀ source,
        e.request = .connect source (smallLink.address .output) →
          source = smallLink.address .input) →
      (s.node .output).stdout <+: stdinRead tr := by
  have hsim : (Machine.simulate (System.Allowed smallLink) (System.step smallLink)
      (System.init smallLink 3 fun _ => ()) strayActions).any (fun r =>
        ((r.1.node .output).stdout = [0x5A] && stdinRead r.2 = []) &&
        decide (∀ side, r.1.connection side ≠ .lost) &&
        servedIn .little r.2 = strayRequests) = true := by
    decide +kernel
  obtain ⟨tr, s, hrun, hlast⟩ := Machine.Run.exists_of_simulate hsim
  simp only [Bool.and_eq_true, decide_eq_true_eq] at hlast
  obtain ⟨⟨⟨hstdout, hread⟩, hopen⟩, hserved⟩ := hlast
  have honly : ∀ e ∈ servedIn .little tr, ∀ source,
      e.request = .connect source (smallLink.address .output) →
        source = smallLink.address .input := by
    intro e he source hrequest
    rw [hserved] at he
    simp only [strayRequests, List.mem_cons, List.not_mem_nil, or_false] at he
    rcases he with rfl | rfl | rfl | rfl | rfl | rfl <;> cases hrequest
    rfl
  intro hprefix
  have hstray := hprefix tr s hrun hopen (hserved ▸ strayRequests_undisturbed) honly
  rw [hstdout, hread] at hstray
  exact absurd hstray (by decide)
