-- SUMMARY: One round of a whole node: what it takes from the router and its streams, what it sends, and what it hands to its processes.
import GraphIPC.Node.Mux
import GraphIPC.System.EndToEnd

/-!
# A round of a node

A round reads from one descriptor. From the router it takes the frames that have arrived
as a whole, in order; their data is printed, or handed to the processes of the node one
payload at a time, and the first reply with an address that is not zero gives the node its
own. From any other descriptor it sends what it cuts off. All that is needed of a node in
a network is said here once.
-/

/-! ## What is sent, and what is handed on -/

/-- The frame that an action sends to the router. -/
def SinkAction.frame : SinkAction → Option (List UInt8)
  | .request frame => some frame
  | _ => none

/-- The bytes that an action hands to a process. -/
def SinkAction.data : SinkAction → Option (List UInt8)
  | .write _ data => some data
  | _ => none

/-- The frames that a round sends to the router. -/
def Round.frames (round : Round) : List (List UInt8) :=
  round.actions.filterMap SinkAction.frame ++ round.packets

/-- What a round hands to the processes, one packet at a time. -/
def Round.handed (round : Round) : List (List UInt8) := round.actions.filterMap SinkAction.data

/-- The payload of a data frame. -/
def dataOf (order : ByteOrder) (frame : List UInt8) : Option (List UInt8) :=
  if (callOf order frame).1.type = GNW_DATA then some (callOf order frame).2 else none

/-- The address that a frame for a node has if it is no data. -/
def replyOf (order : ByteOrder) (frame : List UInt8) : Option UInt32 :=
  if (callOf order frame).1.type = GNW_DATA then none
  else (packetReadU32 order ((callOf order frame).2.drop 1)).map Prod.fst

/-- The address of a node after a reply. -/
def learn (argAddress address : UInt32) : UInt32 :=
  if argAddress = 0 then address else argAddress

/-- The reply that gives an address to a node. -/
def claimReply (order : ByteOrder) (address : UInt32) : List UInt8 :=
  frameBytes order GNW_REPLY 0xFFFFFFFF (claimBytes order address)

/-- The frame that claims an address. -/
def claimFrame (order : ByteOrder) (address : UInt32) : List UInt8 :=
  frameBytes order GNW_COMMAND 0xFFFFFFFF (claimBytes order address)

/-- What the router writes to nodes: data, and replies to claims. -/
def ForNode (order : ByteOrder) (frame : List UInt8) : Prop :=
  WellFormed order frame ∧ ((callOf order frame).1.type = GNW_DATA ∨
    ∃ address, frame = claimReply order address)

theorem dataOf_claimReply (order : ByteOrder) (address : UInt32) :
    dataOf order (claimReply order address) = none := by
  rw [dataOf, claimReply, callOf_frameBytes, if_neg types_distinct.2.2]

theorem printed_claimFrame (order : ByteOrder) (address : UInt32) :
    printed order (claimFrame order address) = [] := by
  rw [claimFrame, printed_frameBytes, if_neg (by decide)]

theorem replyOf_claimReply (order : ByteOrder) (address : UInt32) :
    replyOf order (claimReply order address) = some address := by
  have hread := packetReadU32_u32Bytes order address []
  rw [List.append_nil] at hread
  rw [replyOf, claimReply, callOf_frameBytes, if_neg types_distinct.2.2]
  simp [claimBytes, hread]

/-! ## The frames that a node takes -/

section Take

variable {c : SinkConfig} {argAddress : UInt32} {s s' : Sinks}

/-- What was done is more than before by claims of addresses and what was handed on. -/
structure Hands (order : ByteOrder) (s s' : Sinks) (handed : List (List UInt8)) : Prop where
  data : s'.actions.filterMap SinkAction.data = s.actions.filterMap SinkAction.data ++ handed
  claims : ∀ f ∈ s'.actions.filterMap SinkAction.frame,
    f ∈ s.actions.filterMap SinkAction.frame ∨ ∃ address, f = claimFrame order address

theorem Hands.refl (order : ByteOrder) (s : Sinks) : Hands order s s [] where
  data := (List.append_nil _).symm
  claims _ hf := .inl hf

theorem Hands.trans {order : ByteOrder} {s₁ : Sinks} {handed handed' : List (List UInt8)}
    (h : Hands order s s₁ handed) (h' : Hands order s₁ s' handed') :
    Hands order s s' (handed ++ handed') where
  data := by rw [h'.data, h.data, List.append_assoc]
  claims f hf := (h'.claims f hf).elim (h.claims f) .inr

/-- A process that is started is handed nothing yet. -/
theorem autoSpawn_hands {address : UInt32} (h : autoSpawn c address s = .ok s') :
    Hands c.order s s' [] ∧ ∃ context, s'.sinkTable.lookup address = some context := by
  obtain ⟨context, htable, -, -, hactions⟩ := autoSpawn_ok h
  refine ⟨⟨?_, fun f hf => .inl ?_⟩, context, ?_⟩
  · simp [hactions, SinkAction.data]
  · simpa [hactions, SinkAction.frame] using hf
  · rw [htable, AList.lookup_insert]

/-- The sink that is looked up for a packet is there. -/
theorem applyDeMuxPolicy_hands {address source : UInt32}
    (h : applyDeMuxPolicy c argAddress address s = .ok (s', source)) :
    Hands c.order s s' [] ∧ ∃ context, s'.sinkTable.lookup source = some context := by
  simp only [applyDeMuxPolicy] at h
  split at h
  · rename_i context hlookup
    cases h
    exact ⟨Hands.refl c.order s, context, hlookup⟩
  split at h
  · -- a new local address is claimed first
    rw [getNextLocalAddress_eq c argAddress s, Except.ok_bind, Except.bind_eq_ok_iff] at h
    obtain ⟨s₁, hspawn, h⟩ := h
    cases h
    obtain ⟨hands, hlookup⟩ := autoSpawn_hands hspawn
    refine ⟨?_, hlookup⟩
    show Hands c.order s s' ([] ++ [])
    refine Hands.trans ⟨?_, ?_⟩ hands
    · simp [SinkAction.data]
    · intro f hf
      simp only [List.filterMap_append, List.mem_append] at hf
      exact hf.imp_right fun hf => ⟨_, List.mem_singleton.1 hf⟩
  · simp only [Except.pure_eq_ok, Except.ok_bind, Except.bind_eq_ok_iff] at h
    obtain ⟨s₁, hspawn, h⟩ := h
    cases h
    exact autoSpawn_hands hspawn

/-- A packet is handed to one process, whole. -/
theorem writeToSink_hands {header : Header} {payload : List UInt8}
    (hlength : header.length.toNat = payload.length)
    (h : writeToSink c argAddress header payload s = .ok s') : Hands c.order s s' [payload] := by
  simp only [writeToSink, Except.bind_eq_ok_iff] at h
  obtain ⟨⟨s₁, source⟩, happly, h⟩ := h
  obtain ⟨hands, context, hlookup⟩ := applyDeMuxPolicy_hands happly
  refine hands.trans ?_
  dsimp only at h
  rw [hlookup] at h
  dsimp only at h
  rw [if_pos (le_of_eq hlength), hlength, List.take_length] at h
  cases h
  refine ⟨by simp [SinkAction.data], fun f hf => .inl ?_⟩
  simpa [SinkAction.frame] using hf

end Take

variable {c : DispatchConfig}

/-- What a node makes of the frames it takes from the router. -/
structure Takes (c : DispatchConfig) (n n' : NodeState Sinks) (frames : List (List UInt8)) :
    Prop where
  argAddress : n'.argAddress = (frames.filterMap (replyOf c.order)).foldl learn n.argAddress
  stdout : c.argEcho = true → n'.stdout = n.stdout ++ frames.flatMap (printed c.order)
  handed : c.argEcho = false →
    Hands c.order n.sinks n'.sinks (frames.filterMap (dataOf c.order))
  sinks : c.argEcho = true → n'.sinks = n.sinks

namespace Takes

variable {n n₁ n' : NodeState Sinks} {frames frames' : List (List UInt8)}

theorem nil (n : NodeState Sinks) : Takes c n n [] where
  argAddress := rfl
  stdout _ := (List.append_nil _).symm
  handed _ := Hands.refl c.order n.sinks
  sinks _ := rfl

theorem trans (h : Takes c n n₁ frames) (h' : Takes c n₁ n' frames') :
    Takes c n n' (frames ++ frames') where
  argAddress := by rw [h'.argAddress, h.argAddress, List.filterMap_append, List.foldl_append]
  stdout hecho := by
    rw [h'.stdout hecho, h.stdout hecho, List.flatMap_append, List.append_assoc]
  handed hecho := by
    rw [List.filterMap_append]
    exact (h.handed hecho).trans (h'.handed hecho)
  sinks hecho := (h'.sinks hecho).trans (h.sinks hecho)

/-- Data is printed or handed to a process, and leaves the address alone. -/
theorem of_data {source : UInt32} {payload : List UInt8} (hlength : payload.length + 11 < 2 ^ 32)
    (h : c.handlePacket (callOf c.order (frameBytes c.order GNW_DATA source payload)).1
      (callOf c.order (frameBytes c.order GNW_DATA source payload)).2 n = .ok n') :
    Takes c n n' [frameBytes c.order GNW_DATA source payload] := by
  have hsize : (UInt32.ofNat payload.length).toNat = payload.length := by
    have hlt : payload.length < 2 ^ 32 := by omega
    rw [UInt32.toNat_ofNat_of_lt' hlt]
  rw [callOf_frameBytes, DispatchConfig.handlePacket, nodeHandlePacket, if_pos rfl,
    handleDataPacket] at h
  have hreply : [frameBytes c.order GNW_DATA source payload].filterMap (replyOf c.order) = [] := by
    simp [replyOf]
  split at h
  · rename_i hecho
    cases h
    refine ⟨by rw [hreply]; rfl, fun _ => ?_, fun hno => ?_, fun _ => rfl⟩
    · simp [hsize]
    · rw [hecho] at hno
      cases hno
  · rename_i hecho
    simp only [Except.bind_eq_ok_iff] at h
    obtain ⟨sinks, hsink, h⟩ := h
    cases h
    refine ⟨by rw [hreply]; rfl, fun hyes => absurd hyes hecho, fun _ => ?_,
      fun hyes => absurd hyes hecho⟩
    have hands := writeToSink_hands (by exact hsize) hsink
    simpa [dataOf] using hands

/-- A reply is the address of a node that has none. -/
theorem of_reply {address : UInt32}
    (h : c.handlePacket (callOf c.order (claimReply c.order address)).1
      (callOf c.order (claimReply c.order address)).2 n = .ok n') :
    Takes c n n' [claimReply c.order address] := by
  have hread := packetReadU32_u32Bytes c.order address []
  rw [List.append_nil] at hread
  have hn' : n' = { n with argAddress := learn n.argAddress address } := by
    have hlength : ¬(UInt32.ofNat (claimBytes c.order address).length < 1) := by
      rw [length_claimBytes]
      decide
    rw [claimReply, callOf_frameBytes, DispatchConfig.handlePacket, nodeHandlePacket,
      if_neg types_distinct.2.2, if_pos (.inr rfl)] at h
    have hdirective : packetReadU8 (claimBytes c.order address) =
        some (GNW_CMD_NEW_ADDRESS, u32Bytes c.order address) := packetReadU8_cons ..
    simp only [handleCommandPacket, hdirective, hread, readOr_some, Except.ok_bind, if_neg hlength,
      if_true] at h
    split at h <;> rename_i hzero
    · cases h
      simp [learn, hzero]
    · cases h
      simp [learn, hzero]
  subst hn'
  have hprinted : printed c.order (claimReply c.order address) = [] := by
    rw [claimReply, printed_frameBytes, if_neg types_distinct.2.2]
  constructor
  · simp [replyOf_claimReply]
  · simp [hprinted]
  · simpa [dataOf_claimReply] using fun _ => Hands.refl c.order n.sinks
  · exact fun _ => rfl

/-- A node takes the frames of the router one by one. -/
theorem of_handleAll (hframes : ∀ f ∈ frames, ForNode c.order f)
    (h : handleAll c.order c.handlePacket frames n = .ok n') : Takes c n n' frames := by
  induction frames generalizing n with
  | nil =>
    cases h
    exact nil _
  | cons f frames ih =>
    rw [handleAll, List.foldlM_cons, Except.bind_eq_ok_iff] at h
    obtain ⟨n₁, hfirst, h⟩ := h
    show Takes c n n' ([f] ++ frames)
    refine Takes.trans ?_ (ih (fun f hf => hframes f (List.mem_cons_of_mem _ hf)) h)
    obtain ⟨⟨type, source, payload, hf, hlength⟩, htype | ⟨address, hreply⟩⟩ :=
      hframes f List.mem_cons_self
    · rw [hf, callOf_frameBytes] at htype
      obtain rfl : type = GNW_DATA := htype
      subst hf
      exact of_data hlength hfirst
    · subst hreply
      exact of_reply hfirst

end Takes

/-! ## The reads of a round -/

/-- The bytes that a round reads. -/
def Dispatch.received (n : Dispatch c) (poll : Poll) : List UInt8 :=
  match n.select poll with
  | some (index, _) => poll.data index
  | none => []

/-- What a read may return: no more than it asks for, and nothing to a null pointer. From
    the router come the next bytes on the way; what comes from elsewhere leaves room for
    an MTU. -/
def Dispatch.MayRead (n : Dispatch c) (down : List UInt8) (fd : Int) (data : List UInt8) : Prop :=
  match n.inputBuffer.bufferFor fd with
  | some b => data.length ≤ b.capacity ∧
      if fd = c.routerFd then data <+: down else data ≠ [] → ¬Emergency c.toNodeConfig b data
  | none => data = []

/-- What the read of a round may return. -/
def Dispatch.Readable (n : Dispatch c) (down : List UInt8) (poll : Poll) : Prop :=
  match n.select poll with
  | some (index, fd) => n.MayRead down fd (poll.data index)
  | none => True

instance (n : Dispatch c) (down : List UInt8) (fd : Int) (data : List UInt8) :
    Decidable (n.MayRead down fd data) := by
  unfold Dispatch.MayRead
  split <;> infer_instance

instance (n : Dispatch c) (down : List UInt8) (poll : Poll) :
    Decidable (n.Readable down poll) := by
  unfold Dispatch.Readable
  split <;> infer_instance

/-- The bytes that were read from a descriptor and are not used yet. -/
def Dispatch.window (n : Dispatch c) (fd : Int) : List UInt8 :=
  ((n.inputBuffer.bufferFor fd).map LocalBuffer.window).getD []

/-- The frames on the way to the handler of a node, in its buffer and behind it. -/
structure Dispatch.Inbox (n : Dispatch c) (down : List UInt8) (frames : List (List UInt8)) :
    Prop where
  kept : ∃ b, n.inputBuffer.bufferFor c.routerFd = some b ∧ b.window ++ down = frames.flatten

/-- What a round takes from the router. -/
structure RoundTakes (n n' : Dispatch c) (round : Round) (frames : List (List UInt8)) :
    Prop where
  argAddress : n'.node.argAddress =
    (frames.filterMap (replyOf c.order)).foldl learn n.node.argAddress
  stdout : c.argEcho = true →
    n'.node.stdout = n.node.stdout ++ frames.flatMap (printed c.order)
  handed : c.argEcho = false → round.handed = frames.filterMap (dataOf c.order)
  claims : ∀ f ∈ round.actions.filterMap SinkAction.frame, ∃ address, f = claimFrame c.order address

/-- What becomes of the bytes from a descriptor: they are sent or kept in order, or the
    descriptor is closed and what was kept is gone. -/
inductive Cuts (n n' : Dispatch c) (fd : Int) (read pieces : List UInt8) : Prop where
  | kept : pieces ++ n'.window fd = n.window fd ++ read → Cuts n n' fd read pieces
  | closed : pieces = [] → read = [] → n'.window fd = [] →
      (fd = STDIN_FILENO → n'.status = true) → Cuts n n' fd read pieces

/-- What a round sends: pieces of what the descriptor it reads had, under the address of
    the node. -/
structure RoundSends (n n' : Dispatch c) (data : List UInt8) (round : Round) : Prop where
  sent : ∃ pieces : List (List UInt8),
    round.packets = pieces.map (frameBytes c.order GNW_DATA n.node.argAddress) ∧
      (∀ piece ∈ pieces, piece.length + 11 < 2 ^ 32) ∧
      (pieces ≠ [] → n.node.argAddress ≠ 0 ∧ ∃ fd, fd ≠ c.routerFd ∧ round.read = some fd) ∧
      ∀ fd, fd ≠ c.routerFd →
        Cuts n n' fd (if round.read = some fd then data else [])
          (if round.read = some fd then pieces.flatten else [])
  untouched : ∀ fd, fd ≠ c.routerFd → round.read ≠ some fd → n'.window fd = n.window fd

/-- What a round does. -/
structure Rounded (n n' : Dispatch c) (down data : List UInt8) (round : Round) : Prop where
  idle : n'.node.sinks.actions = []
  inbound : ∀ frames, n.Inbox down frames → (∀ f ∈ frames, ForNode c.order f) →
    ∃ taken frames', frames = taken ++ frames' ∧ RoundTakes n n' round taken ∧
      (n'.status = false →
        n'.Inbox (down.drop (if round.read = some c.routerFd then data.length else 0)) frames')
  outbound : RoundSends n n' data round

section Rounds

variable {n n' : Dispatch c} {down data : List UInt8} {round : Round}

theorem applyMuxPolicy_self (c : DispatchConfig) (argAddress : UInt32) :
    applyMuxPolicy c argAddress argAddress = argAddress := by
  unfold applyMuxPolicy
  split <;> rfl

/-- A round that reads nothing does nothing. -/
theorem Rounded.nothing (hidle : n.node.sinks.actions = []) (down : List UInt8) :
    Rounded n n down [] Round.idle where
  idle := hidle
  inbound frames hinbox _ := by
    refine ⟨[], frames, rfl, ⟨rfl, fun _ => (List.append_nil _).symm, fun _ => rfl,
      fun f hf => ?_⟩, fun _ => ?_⟩
    · cases hf
    · simpa [Round.idle] using hinbox
  outbound := by
    refine ⟨⟨[], rfl, by simp, fun hne => absurd rfl hne, fun fd _ => .kept ?_⟩,
      fun _ _ _ => rfl⟩
    simp [Round.idle]

/-- A node that handles frames takes them in the round. -/
theorem RoundTakes.of_handleAll {node : NodeState Sinks} {frames : List (List UInt8)}
    (hidle : n.node.sinks.actions = []) (hframes : ∀ f ∈ frames, ForNode c.order f)
    (h : handleAll c.order c.handlePacket frames n.node = .ok node)
    (hargAddress : n'.node.argAddress = node.argAddress) (hstdout : n'.node.stdout = node.stdout)
    (hactions : round.actions = node.sinks.actions) : RoundTakes n n' round frames := by
  have htakes := Takes.of_handleAll hframes h
  refine ⟨hargAddress.trans htakes.argAddress, fun hecho => hstdout.trans (htakes.stdout hecho),
    fun hecho => ?_, fun f hf => ?_⟩
  · have hdata := (htakes.handed hecho).data
    rw [hidle] at hdata
    rw [Round.handed, hactions, hdata]
    rfl
  · rw [hactions] at hf
    cases hecho : c.argEcho with
    | true =>
      rw [htakes.sinks hecho, hidle] at hf
      cases hf
    | false =>
      have hclaims := (htakes.handed hecho).claims f hf
      rw [hidle] at hclaims
      exact hclaims.resolve_left fun hf => by cases hf

/-- A read from the router that returns nothing ends the node. -/
theorem handleRemoteData_nothing {τ : Type} {c : NodeConfig}
    {handle : Header → List UInt8 → τ → Except Fault τ} {fd : Int} {data : List UInt8}
    {inputBuffer inputBuffer' : InputBuffer c} {t t' : τ} {received : Received}
    (hnothing : data = [] ∨ inputBuffer.bufferFor fd = none)
    (h : handleRemoteData c handle fd fd data inputBuffer t = .ok (inputBuffer', t', received)) :
    t' = t ∧ received = .closed true := by
  simp only [handleRemoteData] at h
  split at h
  · cases h
    exact ⟨rfl, by simp⟩
  · rename_i b hb
    have hempty : data = [] := hnothing.resolve_right fun hnone => by
      rw [InputBuffer.bufferFor, hb] at hnone
      cases hnone
    subst hempty
    cases h
    exact ⟨rfl, by simp⟩

/-- A read that returns something has arrived. -/
theorem handleRemoteData_arrived {τ : Type} {c : NodeConfig}
    {handle : Header → List UInt8 → τ → Except Fault τ} {routerFd fd : Int} {data : List UInt8}
    {inputBuffer inputBuffer' : InputBuffer c} {t t' : τ} {received : Received}
    {b : LocalBuffer c.bufferSize} (hb : inputBuffer.bufferFor fd = some b)
    (hdata : 0 < data.length)
    (h : handleRemoteData c handle routerFd fd data inputBuffer t =
      .ok (inputBuffer', t', received)) : received = .arrived := by
  rw [handleRemoteData, getLocalBuffer_of_bufferFor hb] at h
  simp only at h
  rw [if_neg (by omega)] at h
  split at h
  · simp only [Except.bind_eq_ok_iff] at h
    obtain ⟨⟨b', t''⟩, -, h⟩ := h
    cases h
    rfl
  · cases h

/-- A read of a stream of frames hands the handler those that have arrived as a whole. -/
theorem handleRemoteData_frames {τ : Type} {c : NodeConfig} {order : ByteOrder}
    (horder : c.order = order) {handle : Header → List UInt8 → τ → Except Fault τ}
    {routerFd fd : Int} {inputBuffer inputBuffer' : InputBuffer c} {b : LocalBuffer c.bufferSize}
    (hb : inputBuffer.bufferFor fd = some b) {down data : List UInt8} {frames : List (List UInt8)}
    (hbytes : b.window ++ down = frames.flatten) (hframes : ∀ f ∈ frames, WellFormed order f)
    (hnext : data <+: down) (hallowed : RemoteAllowed c fd inputBuffer data) {t t' : τ}
    {received : Received}
    (hread : handleRemoteData c handle routerFd fd data inputBuffer t =
      .ok (inputBuffer', t', received)) :
    ∃ taken frames' b', frames = taken ++ frames' ∧ inputBuffer'.bufferFor fd = some b' ∧
      b'.window ++ down.drop data.length = frames'.flatten ∧
      handleAll c.order handle taken t = .ok t' := by
  subst horder
  obtain ⟨rest, rfl⟩ := hnext
  rw [List.drop_left]
  rw [← List.append_assoc] at hbytes
  obtain ⟨taken, frames', rfl, htaken, hrest⟩ :=
    Reader.drain_frames (fun f hf => (hframes f hf).isFrame) hbytes
  have hlong : ∀ f ∈ ((frameReader c.order).drain (b.window ++ data)).1, 11 ≤ f.length := by
    intro f hf
    rw [htaken] at hf
    obtain ⟨type, source, payload, rfl, -⟩ := hframes f (List.mem_append_left _ hf)
    rw [length_frameBytes]
    omega
  obtain ⟨inputBuffer'', b', hb', hwindow, heq⟩ :=
    handleRemoteData_eq handle routerFd hb hallowed.1 (hallowed.2 b hb) hlong t
  rw [htaken] at heq
  rw [heq] at hread
  cases hhandle : handleAll c.order handle taken t with
  | error e => simp [hhandle] at hread
  | ok t'' =>
    rw [hhandle] at hread
    cases hread
    exact ⟨taken, frames', b', rfl, hb', by rw [hwindow, hrest], hhandle⟩

/-- A read from the router takes the frames that are there as a whole. -/
theorem Dispatch.remoteData_rounded {index : Nat} (hidle : n.node.sinks.actions = [])
    (hread : n.MayRead down c.routerFd data)
    (h : n.remoteData index c.routerFd data = .ok (n', round)) :
    Rounded n n' down data round := by
  simp only [remoteData, Except.bind_eq_ok_iff] at h
  obtain ⟨⟨inputBuffer, node, received⟩, hremote, h⟩ := h
  have hkeep := handleRemoteData_preserves (P := fun _ => True) (fun _ _ _ _ _ h => h) hremote
  have houtbound : n'.inputBuffer = inputBuffer → round.packets = [] →
      round.read = some c.routerFd → RoundSends n n' data round := by
    intro hbuffer hpackets hrouter
    have hwindow : ∀ fd, fd ≠ c.routerFd → n'.window fd = n.window fd := by
      intro fd hfd
      rw [window, window, hbuffer, hkeep.2 fd hfd]
    refine ⟨⟨[], hpackets, by simp, fun hne => absurd rfl hne, fun fd hfd => .kept ?_⟩,
      fun fd hfd _ => hwindow fd hfd⟩
    have hother : ¬(some c.routerFd = some fd) := fun heq => hfd (Option.some.inj heq).symm
    rw [hrouter, if_neg hother, if_neg hother, hwindow fd hfd]
    simp
  by_cases hnothing : data = [] ∨ n.inputBuffer.bufferFor c.routerFd = none
  · obtain ⟨rfl, rfl⟩ := handleRemoteData_nothing hnothing hremote
    cases h
    refine ⟨rfl, fun frames _ _ => ?_, houtbound rfl rfl rfl⟩
    refine ⟨[], frames, rfl, ⟨rfl, fun _ => (List.append_nil _).symm, fun _ => ?_, fun f hf => ?_⟩,
      fun hrunning => by simp at hrunning⟩
    · simp [Round.handed, hidle]
    · simp [hidle] at hf
  · obtain ⟨hdata, hbuffer⟩ := not_or.1 hnothing
    obtain ⟨b, hb⟩ := Option.ne_none_iff_exists'.1 hbuffer
    have hpos : 0 < data.length := List.length_pos_iff.2 hdata
    obtain rfl := handleRemoteData_arrived hb hpos hremote
    cases h
    simp only [MayRead, hb, if_true] at hread
    refine ⟨rfl, fun frames hinbox hframes => ?_, houtbound rfl rfl rfl⟩
    obtain ⟨b₀, hb₀, hbytes⟩ := hinbox.kept
    obtain rfl : b = b₀ := Option.some.inj (hb.symm.trans hb₀)
    have hallowed : RemoteAllowed c.toNodeConfig c.routerFd n.inputBuffer data :=
      ⟨hpos, fun b₁ hb₁ => by rw [hb] at hb₁; cases hb₁; exact hread.1⟩
    obtain ⟨taken, frames', b', rfl, hb', hrest, hhandle⟩ :=
      handleRemoteData_frames rfl hb hbytes (fun f hf => (hframes f hf).1) hread.2 hallowed hremote
    refine ⟨taken, frames', rfl, ?_, fun _ => ⟨b', hb', ?_⟩⟩
    · exact RoundTakes.of_handleAll hidle (fun f hf => hframes f (List.mem_append_left _ hf))
        hhandle rfl rfl rfl
    · rw [if_pos rfl]
      exact hrest

/-- A read that returns nothing leaves the buffer as it is, or ends it. -/
theorem handleLocalData_nothing {c : NodeConfig} {source : UInt32} {delimiter fd : Int}
    {gone : Bool} {data : List UInt8} {inputBuffer inputBuffer' : InputBuffer c}
    {read : LocalRead} (hnothing : data = [] ∨ inputBuffer.bufferFor fd = none)
    (h : handleLocalData c source delimiter fd gone data inputBuffer = .ok (inputBuffer', read)) :
    (read = .closed (fd = STDIN_FILENO) ∧ inputBuffer'.bufferFor fd = none) ∨
      (read = .nothing ∧ inputBuffer'.bufferFor fd = inputBuffer.bufferFor fd) := by
  have hfailed : (.ok (if gone then
        (destroyLocalBuffer c fd (getLocalBuffer c fd inputBuffer).1,
          LocalRead.closed (fd = STDIN_FILENO))
      else ((getLocalBuffer c fd inputBuffer).1, LocalRead.nothing)) :
        Except Fault (InputBuffer c × LocalRead)) = .ok (inputBuffer', read) →
      (read = .closed (fd = STDIN_FILENO) ∧ inputBuffer'.bufferFor fd = none) ∨
        (read = .nothing ∧ inputBuffer'.bufferFor fd = inputBuffer.bufferFor fd) := by
    intro hfailed
    split at hfailed
    · cases hfailed
      refine .inl ⟨rfl, ?_⟩
      have hthere : ((getLocalBuffer c fd inputBuffer).1 fd).isSome := by
        rw [getLocalBuffer]
        cases hentry : inputBuffer fd <;> simp [hentry]
      rw [destroyLocalBuffer, if_pos hthere, InputBuffer.bufferFor_set]
    · cases hfailed
      exact .inr ⟨rfl, bufferFor_getLocalBuffer inputBuffer fd fd⟩
  simp only [handleLocalData] at h
  split at h
  · exact hfailed h
  · rename_i b hb
    have hempty : data = [] := hnothing.resolve_right fun hnone => by
      rw [InputBuffer.bufferFor, hb] at hnone
      cases hnone
    subst hempty
    exact hfailed h

/-- A read from another descriptor sends what it cuts off. -/
theorem Dispatch.localData_rounded {index : Nat} {fd : Int} {gone : Bool} (hfd : fd ≠ c.routerFd)
    (hne : n.node.argAddress ≠ 0) (hidle : n.node.sinks.actions = [])
    (hread : n.MayRead down fd data) (h : n.localData index fd gone data = .ok (n', round)) :
    Rounded n n' down data round := by
  simp only [localData, Except.bind_eq_ok_iff] at h
  obtain ⟨⟨inputBuffer, read⟩, hlocal, h⟩ := h
  rw [applyMuxPolicy_self] at hlocal
  have hround : round = { read := some fd, packets := read.packets, actions := [] } ∧
      n'.inputBuffer = inputBuffer ∧ n'.node.argAddress = n.node.argAddress ∧
      n'.node.stdout = n.node.stdout ∧ n'.node.sinks.actions = n.node.sinks.actions ∧
      n'.status = (n.status || read = .closed true) := by
    cases read with
    | closed shutdown =>
      cases h
      refine ⟨rfl, rfl, rfl, rfl, ?_, by simp⟩
      rw [closeSink_eq]
    | nothing | sent =>
      cases h
      exact ⟨rfl, rfl, rfl, rfl, rfl, by simp⟩
  obtain ⟨rfl, hbuffer, hargAddress, hstdout, hactions, hstatus⟩ := hround
  have hother : ∀ fd', fd' ≠ fd → n'.inputBuffer.bufferFor fd' = n.inputBuffer.bufferFor fd' := by
    intro fd' hne'
    rw [hbuffer, handleLocalData_bufferFor hlocal hne']
  have hrouter : ¬(some fd = some c.routerFd) := fun heq => hfd (Option.some.inj heq)
  refine ⟨hactions.trans hidle, fun frames hinbox _ => ?_, ?_⟩
  · refine ⟨[], frames, rfl, ⟨hargAddress, fun _ => ?_, fun _ => rfl, fun f hf => by cases hf⟩,
      fun _ => ?_⟩
    · rw [hstdout]
      exact (List.append_nil _).symm
    · obtain ⟨b, hb, hbytes⟩ := hinbox.kept
      refine ⟨b, (hother _ (Ne.symm hfd)).trans hb, ?_⟩
      rw [if_neg hrouter]
      exact hbytes
  · have huntouched : ∀ fd', fd' ≠ c.routerFd → some fd ≠ some fd' →
        n'.window fd' = n.window fd' := by
      intro fd' _ hne'
      rw [window, window, hother fd' fun heq => hne' (by rw [heq])]
    have hcuts : ∀ pieces : List (List UInt8), Cuts n n' fd data pieces.flatten →
        ∀ fd', fd' ≠ c.routerFd → Cuts n n' fd' (if some fd = some fd' then data else [])
          (if some fd = some fd' then pieces.flatten else []) := by
      intro pieces hcut fd' _
      by_cases heq : fd' = fd
      · subst heq
        rwa [if_pos rfl, if_pos rfl]
      · have hno : ¬(some fd = some fd') := fun h => heq (Option.some.inj h).symm
        rw [if_neg hno, if_neg hno]
        exact .kept (by rw [window, window, hother fd' heq]; simp)
    by_cases hnothing : data = [] ∨ n.inputBuffer.bufferFor fd = none
    · have hempty : data = [] := by
        rcases hnothing with hempty | hnone
        · exact hempty
        · simpa [MayRead, hnone] using hread
      subst hempty
      rcases handleLocalData_nothing hnothing hlocal with ⟨rfl, hnone⟩ | ⟨rfl, hsame⟩
      · refine ⟨⟨[], rfl, by simp, fun hne => absurd rfl hne, hcuts [] (.closed rfl rfl ?_ ?_)⟩,
          huntouched⟩
        · rw [window, hbuffer, hnone]
          rfl
        · rintro rfl
          simp [hstatus]
      · refine ⟨⟨[], rfl, by simp, fun hne => absurd rfl hne, hcuts [] (.kept ?_)⟩, huntouched⟩
        rw [window, window, hbuffer, hsame]
        simp
    · obtain ⟨hdata, hsome⟩ := not_or.1 hnothing
      obtain ⟨b, hb⟩ := Option.ne_none_iff_exists'.1 hsome
      simp only [MayRead, hb, if_neg hfd] at hread
      obtain ⟨packets, pieces, b', rfl, hpieces, hb', hcut⟩ :=
        handleLocalData_pieces hlocal hb (List.length_pos_iff.2 hdata) (hread.2 hdata)
      refine ⟨⟨pieces, hpieces.packets, fun piece hpiece => ?_, fun _ => ⟨hne, fd, hfd, rfl⟩,
        hcuts pieces (.kept ?_)⟩, huntouched⟩
      · have hsize := (hpieces.bounds piece hpiece).2
        have hmtu := c.networkMtu_lt
        simp only [NodeConfig.bufferSize] at hsize
        omega
      · rw [window, window, hbuffer, hb', hb]
        exact hcut

/-- One round of the loop of a node. -/
theorem dispatch_rounded {poll : Poll} (hidle : n.node.sinks.actions = [])
    (hread : n.Readable down poll) (h : dispatch n poll = .ok (n', round)) :
    Rounded n n' down (n.received poll) round := by
  unfold Dispatch.Readable at hread
  unfold dispatch at h
  unfold Dispatch.received
  cases hselect : n.select poll with
  | none =>
    rw [hselect] at h
    cases h
    exact Rounded.nothing hidle down
  | some slot =>
    obtain ⟨index, fd⟩ := slot
    rw [hselect] at h hread
    dsimp only at h hread ⊢
    split at h
    · rename_i hfd
      subst hfd
      exact Dispatch.remoteData_rounded hidle hread h
    · rename_i hfd
      have hne : n.node.argAddress ≠ 0 := by
        obtain ⟨-, -, hlocal⟩ := Dispatch.select_eq_some_iff.1 hselect
        exact hlocal.resolve_left hfd
      exact Dispatch.localData_rounded hfd hne hidle hread h

end Rounds
