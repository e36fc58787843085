-- SUMMARY: A node over many rounds: it takes what was written to it frame by frame, and sends nothing but its claims and pieces of its streams.
import GraphIPC.System.Round

/-!
# A node that is attached to the router

Whatever its streams are cut into, a node that runs has taken some of the frames that were
written to it, in order and each as a whole, and the others are in its buffer and behind
it. What it has sent are claims of addresses and data under the one address it has.
-/

variable {c : DispatchConfig}

/-- What a node has read from a descriptor. -/
def readFrom (fd : Int) (rounds : List (List UInt8 × Round)) : List UInt8 :=
  rounds.flatMap fun e => if e.2.read = some fd then e.1 else []

/-- The packets that a node has sent of what it has read from a descriptor. -/
def packetsFrom (fd : Int) (rounds : List (List UInt8 × Round)) : List (List UInt8) :=
  rounds.flatMap fun e => if e.2.read = some fd then e.2.packets else []

@[simp] theorem readFrom_snoc (fd : Int) (rounds : List (List UInt8 × Round))
    (e : List UInt8 × Round) :
    readFrom fd (rounds ++ [e]) = readFrom fd rounds ++ if e.2.read = some fd then e.1 else [] := by
  simp [readFrom]

@[simp] theorem packetsFrom_snoc (fd : Int) (rounds : List (List UInt8 × Round))
    (e : List UInt8 × Round) :
    packetsFrom fd (rounds ++ [e]) =
      packetsFrom fd rounds ++ if e.2.read = some fd then e.2.packets else [] := by
  simp [packetsFrom]

/-! ## The address of a node -/

/-- An address that is not zero is not learnt again. -/
theorem foldl_learn_of_ne {argAddress : UInt32} (hne : argAddress ≠ 0) (addresses : List UInt32) :
    addresses.foldl learn argAddress = argAddress := by
  induction addresses with
  | nil => rfl
  | cons address addresses ih => rw [List.foldl_cons, learn, if_neg hne, ih]

/-- A node without an address takes the first that is not zero. -/
theorem foldl_learn_zero (addresses : List UInt32) :
    addresses.foldl learn 0 = (addresses.find? (· ≠ 0)).getD 0 := by
  induction addresses with
  | nil => rfl
  | cons address addresses ih =>
    rw [List.foldl_cons, learn, if_pos rfl]
    by_cases hzero : address = 0
    · subst hzero
      simpa using ih
    · rw [foldl_learn_of_ne hzero, List.find?_cons_of_pos (by simpa using hzero)]
      rfl

/-! ## Many rounds -/

/-- What a node sends: claims of addresses, and data under its own. -/
def FromNode (order : ByteOrder) (argAddress : UInt32) (frame : List UInt8) : Prop :=
  (∃ address, frame = claimFrame order address) ∨
    argAddress ≠ 0 ∧ ∃ piece, frame = frameBytes order GNW_DATA argAddress piece ∧
      piece.length + 11 < 2 ^ 32

/-- Where the bytes are that a descriptor gave: sent in order or still in the buffer. What
    was in the buffer when it was closed is gone. -/
structure Streamed (node : Dispatch c) (rounds : List (List UInt8 × Round)) (fd : Int) : Prop where
  kept : List.Sublist ((packetsFrom fd rounds).flatMap (printed c.order) ++ node.window fd)
    (readFrom fd rounds)
  /-- The standard input of a node that runs was not closed. -/
  stdin : fd = STDIN_FILENO →
    (packetsFrom fd rounds).flatMap (printed c.order) <+: readFrom fd rounds ∧
    (node.status = false →
      (packetsFrom fd rounds).flatMap (printed c.order) ++ node.window fd = readFrom fd rounds)
  /-- Nothing is gone while each read returns something. -/
  flowing : (∀ e ∈ rounds, e.2.read = some fd → e.1 ≠ []) →
    (packetsFrom fd rounds).flatMap (printed c.order) ++ node.window fd = readFrom fd rounds

/-- A node that was started with an address, after its rounds; `written` are the frames that
    were written to it, and `down` are the bytes of them that it has not read. -/
structure Attached (argAddress : UInt32) (node : Dispatch c) (down : List UInt8)
    (written : List (List UInt8)) (rounds : List (List UInt8 × Round)) : Prop where
  idle : node.node.sinks.actions = []
  forNode : ∀ f ∈ written, ForNode c.order f
  takes : ∃ taken pending, written = taken ++ pending ∧
    (node.status = false → node.Inbox down pending) ∧
    node.node.argAddress = (taken.filterMap (replyOf c.order)).foldl learn argAddress ∧
    (c.argEcho = true → node.node.stdout = taken.flatMap (printed c.order)) ∧
    (c.argEcho = false →
      (rounds.flatMap fun e => e.2.handed) = taken.filterMap (dataOf c.order))
  sends : ∀ f ∈ rounds.flatMap fun e => e.2.frames, FromNode c.order node.node.argAddress f
  sources : ∀ e ∈ rounds, e.2.packets ≠ [] → ∃ fd, fd ≠ c.routerFd ∧ e.2.read = some fd
  claims : ∀ e ∈ rounds, ∀ f ∈ e.2.actions.filterMap SinkAction.frame,
    ∃ address, f = claimFrame c.order address
  streams : ∀ fd, fd ≠ c.routerFd → Streamed node rounds fd

namespace Attached

variable {argAddress : UInt32} {node node' : Dispatch c} {down : List UInt8}
  {written : List (List UInt8)} {rounds : List (List UInt8 × Round)}

/-- A node that has done nothing yet. -/
theorem init (hargAddress : node.node.argAddress = argAddress) (hstdout : node.node.stdout = [])
    (hidle : node.node.sinks.actions = []) (hbuffer : node.inputBuffer = Table.empty) :
    Attached argAddress node [] [] [] := by
  have hempty : ∀ fd, node.inputBuffer.bufferFor fd = some c.newBuffer := by
    intro fd
    rw [hbuffer]
    exact InputBuffer.bufferFor_of_none _ rfl
  have hwindow : ∀ fd, node.window fd = [] := by
    intro fd
    rw [Dispatch.window, hempty fd]
    rfl
  refine ⟨hidle, by simp, ⟨[], [], rfl, fun _ => ⟨_, hempty _, rfl⟩, hargAddress, fun _ => hstdout,
    fun _ => rfl⟩, by simp, by simp, by simp, fun fd _ => ⟨?_, fun _ => ?_, fun _ => ?_⟩⟩
  all_goals simp [packetsFrom, readFrom, hwindow]

variable (h : Attached argAddress node down written rounds)
include h

/-- What is sent is a claim or comes from a descriptor that was read. -/
theorem mem_frames {f : List UInt8} (hf : f ∈ rounds.flatMap fun e => e.2.frames) :
    (∃ address, f = claimFrame c.order address) ∨
      ∃ fd, fd ≠ c.routerFd ∧ f ∈ packetsFrom fd rounds := by
  obtain ⟨e, he, hf⟩ := List.mem_flatMap.1 hf
  rcases List.mem_append.1 hf with hf | hf
  · exact .inl (h.claims e he f hf)
  · obtain ⟨fd, hfd, hread⟩ := h.sources e he (List.ne_nil_of_mem hf)
    exact .inr ⟨fd, hfd, List.mem_flatMap.2 ⟨e, he, by rwa [if_pos hread]⟩⟩

/-- Frames are written to the node. -/
theorem write {new : List (List UInt8)} (hnew : ∀ f ∈ new, ForNode c.order f) :
    Attached argAddress node (down ++ new.flatten) (written ++ new) rounds := by
  obtain ⟨taken, pending, rfl, hinbox, hrest⟩ := h.takes
  refine ⟨h.idle, fun f hf => ?_, ⟨taken, pending ++ new, ?_, fun hrunning => ?_, hrest⟩, h.sends,
    h.sources, h.claims, h.streams⟩
  · exact (List.mem_append.1 hf).elim (h.forNode f) (hnew f)
  · rw [List.append_assoc]
  · obtain ⟨b, hb, hbytes⟩ := (hinbox hrunning).kept
    exact ⟨b, hb, by rw [← List.append_assoc, hbytes, List.flatten_append]⟩

omit h in
/-- What was sent under an address stays under it. -/
theorem fromNode_learn {addresses : List UInt32} {f : List UInt8}
    (hf : FromNode c.order node.node.argAddress f) :
    FromNode c.order (addresses.foldl learn node.node.argAddress) f := by
  rcases hf with hclaim | ⟨hne, piece, hframe, hlength⟩
  · exact .inl hclaim
  · rw [foldl_learn_of_ne hne]
    exact .inr ⟨hne, piece, hframe, hlength⟩

/-- A round of the node. -/
theorem round {data : List UInt8} {round : Round} (hrunning : node.status = false)
    (hround : Rounded node node' down data round) :
    Attached argAddress node' (down.drop (if round.read = some c.routerFd then data.length else 0))
      written (rounds ++ [(data, round)]) := by
  obtain ⟨taken, pending, rfl, hinbox, hargAddress, hstdout, hhanded⟩ := h.takes
  obtain ⟨new, pending', rfl, htakes, hinbox'⟩ := hround.inbound pending (hinbox hrunning)
    fun f hf => h.forNode f (List.mem_append_right _ hf)
  obtain ⟨pieces, hpackets, hsizes, hsource, hcuts⟩ := hround.outbound.sent
  refine ⟨hround.idle, h.forNode, ⟨taken ++ new, pending', ?_, hinbox', ?_, fun hecho => ?_,
    fun hecho => ?_⟩, ?_, fun e he => ?_, fun e he => ?_, fun fd hfd => ?_⟩
  · rw [List.append_assoc]
  · rw [htakes.argAddress, hargAddress, List.filterMap_append, List.foldl_append]
  · rw [htakes.stdout hecho, hstdout hecho, List.flatMap_append]
  · rw [List.flatMap_append, hhanded hecho, List.filterMap_append, ← htakes.handed hecho]
    simp
  · intro f hf
    rw [htakes.argAddress]
    rw [List.flatMap_append, List.mem_append] at hf
    rcases hf with hf | hf
    · exact fromNode_learn (h.sends f hf)
    · simp only [List.flatMap_cons, List.flatMap_nil, List.append_nil, Round.frames,
        List.mem_append] at hf
      rcases hf with hf | hf
      · exact .inl (htakes.claims f hf)
      · rw [hpackets, List.mem_map] at hf
        obtain ⟨piece, hpiece, rfl⟩ := hf
        refine fromNode_learn (.inr ⟨(hsource ?_).1, piece, rfl, hsizes piece hpiece⟩)
        exact List.ne_nil_of_mem hpiece
  · intro hne
    rcases List.mem_append.1 he with he | he
    · exact h.sources e he hne
    · obtain rfl := List.mem_singleton.1 he
      refine (hsource fun hnil => hne ?_).2
      rw [hpackets, hnil]
      rfl
  · rcases List.mem_append.1 he with he | he
    · exact h.claims e he
    · obtain rfl := List.mem_singleton.1 he
      exact htakes.claims
  · have hsent : (if round.read = some fd then round.packets else []).flatMap (printed c.order) =
        if round.read = some fd then pieces.flatten else [] := by
      split
      · rw [hpackets, List.flatMap_map]
        simp
      · rfl
    have hold := h.streams fd hfd
    constructor
    · rw [packetsFrom_snoc, readFrom_snoc, List.flatMap_append, hsent, List.append_assoc]
      cases hcuts fd hfd with
      | kept hcut =>
        rw [hcut, ← List.append_assoc]
        exact hold.kept.append (List.Sublist.refl _)
      | closed hpieces hread hwindow _ =>
        rw [hpieces, hread, hwindow]
        simpa using (List.sublist_append_left _ _).trans hold.kept
    · rintro rfl
      obtain ⟨hbegins, hall⟩ := hold.stdin rfl
      rw [packetsFrom_snoc, readFrom_snoc, List.flatMap_append, hsent]
      cases hcuts STDIN_FILENO hfd with
      | kept hcut =>
        have hnow := hall hrunning
        have hafter : (packetsFrom STDIN_FILENO rounds).flatMap (printed c.order) ++
            (if round.read = some STDIN_FILENO then pieces.flatten else []) ++
            node'.window STDIN_FILENO = readFrom STDIN_FILENO rounds ++
            (if round.read = some STDIN_FILENO then data else []) := by
          rw [List.append_assoc, hcut, ← List.append_assoc, hnow]
        exact ⟨⟨_, hafter⟩, fun _ => hafter⟩
      | closed hpieces hread _ hstatus =>
        rw [hpieces, hread, List.append_nil, List.append_nil]
        exact ⟨hbegins, fun hrunning' => by rw [hstatus rfl] at hrunning'; cases hrunning'⟩
    · intro hflowing
      have hnow := hold.flowing fun e he => hflowing e (List.mem_append_left _ he)
      rw [packetsFrom_snoc, readFrom_snoc, List.flatMap_append, hsent, List.append_assoc, ← hnow,
        List.append_assoc]
      congr 1
      by_cases hread : round.read = some fd
      · have hdata : data ≠ [] := hflowing (data, round) (by simp) hread
        have hcut := hcuts fd hfd
        rw [if_pos hread, if_pos hread] at hcut
        rw [if_pos hread, if_pos hread]
        cases hcut with
        | kept hcut => exact hcut
        | closed _ hnone => exact absurd hnone hdata
      · rw [if_neg hread, if_neg hread, List.append_nil, List.nil_append]
        exact hround.outbound.untouched fd hfd hread

end Attached
