-- SUMMARY: What the router does with the connections of two nodes among others: the frames on their way to it, and the requests it serves.
import GraphIPC.Router.Reassembly
import GraphIPC.System.Delivery

/-!
# The connections of the two nodes

Whatever other clients do, the bytes that a node has sent and the router has not used
are a sequence of frames: the first of them lie in its reassembly buffer, the others are
in flight. A read either takes the first frame of this sequence out and serves it, or
serves nothing.
-/

variable {σ : Type} {l : Link σ}

/-- A frame as the emit functions build them, of a size that fits its length field. -/
def WellFormed (order : ByteOrder) (frame : List UInt8) : Prop :=
  ∃ type source payload, frame = frameBytes order type source payload ∧
    payload.length + 11 < 2 ^ 32

theorem WellFormed.isFrame {order : ByteOrder} {frame : List UInt8} (h : WellFormed order frame) :
    (frameReader order).IsFrame frame := by
  obtain ⟨type, source, payload, rfl, hlength⟩ := h
  exact isFrame_frameBytes hlength

theorem Link.wellFormed_claim (l : Link σ) (side : Side) :
    WellFormed l.router.order (l.claim side) :=
  ⟨_, _, _, by rw [claim, l.order_node], by rw [length_claimBytes]; omega⟩

/-- The bytes of the connection of a node that the router has read and not used. -/
def System.held (s : System l) (side : Side) : List UInt8 :=
  match s.connection side with
  | .established fd => (s.router.tables.buffer fd).window
  | _ => []

theorem System.held_of_established {s : System l} {side : Side} {fd : Int}
    (h : s.connection side = .established fd) :
    s.held side = (s.router.tables.buffer fd).window := by
  simp only [held, h]

theorem System.held_of_waiting {s : System l} {side : Side} (h : s.connection side = .waiting) :
    s.held side = [] := by
  simp only [held, h]

/-- The connections of the two nodes, and the frames that are on the way to the handler
    of the router on each of them. -/
structure Routing (s : System l) (requests : List Served) (coming : Side → List (List UInt8)) :
    Prop where
  sound : s.router.Sound
  refines : (History.ofServed requests).Refines s.router.tables.addressTable
  live : ∀ side fd, s.connection side = .established fd →
    fd ≠ -1 ∧ ∃ slot, slot ≠ 0 ∧ (s.router.pollList slot).fd = fd
  apart : ∀ fd, s.connection .input = .established fd → s.connection .output ≠ .established fd
  upward : ∀ side, s.held side ++ s.up side = (coming side).flatten
  frames : ∀ side, ∀ f ∈ coming side, WellFormed l.router.order f
  output : coming .output = [l.claim .output] ∨ coming .output = []
  waiting : s.connection .output = .waiting → coming .output = [l.claim .output]
  claimed : (∃ e ∈ requests, e.client = some .output) → coming .output = []

namespace Routing

variable {s : System l} {requests : List Served} {coming : Side → List (List UInt8)}

theorem init (l : Link σ) (listenFd : Int) (sinks : Side → σ) :
    Routing (System.init l listenFd sinks) [] fun side => [l.claim side] where
  sound := Router.sound_init _ _
  refines := .nil
  live := by
    intro side fd h
    cases h
  apart := by
    intro fd h
    cases h
  upward side := by simp [System.held, System.init]
  frames side f hf := by
    rw [List.mem_singleton.1 hf]
    exact l.wellFormed_claim side
  output := .inl rfl
  waiting _ := rfl
  claimed := by simp

variable (h : Routing s requests coming)
include h

/-- The steps of the nodes leave what the router sees of their connections. -/
theorem of_eq {s' : System l} (hrouter : s'.router = s.router)
    (hconnection : s'.connection = s.connection) (hup : s'.up = s.up) :
    Routing s' requests coming := by
  obtain ⟨router, connection, up, down, inputBuffer, node⟩ := s'
  cases hrouter
  cases hconnection
  cases hup
  exact ⟨h.sound, h.refines, h.live, h.apart, h.upward, h.frames, h.output, h.waiting, h.claimed⟩

/-- The input node sends frames. -/
theorem sent {packets : List (List UInt8)} (hpackets : ∀ f ∈ packets, WellFormed l.router.order f) :
    Routing { s with up := Function.update s.up .input (s.up .input ++ packets.flatten) } requests
      (Function.update coming .input (coming .input ++ packets)) := by
  have hcoming : Function.update coming .input (coming .input ++ packets) .output =
      coming .output := Function.update_of_ne (by decide) ..
  constructor
  · exact h.sound
  · exact h.refines
  · exact h.live
  · exact h.apart
  · intro side
    have hupward := h.upward side
    cases side with
    | input =>
      show s.held .input ++ Function.update s.up .input (s.up .input ++ packets.flatten) .input = _
      rw [Function.update_self, Function.update_self, List.flatten_append, ← hupward,
        List.append_assoc]
    | output =>
      show s.held .output ++
        Function.update s.up .input (s.up .input ++ packets.flatten) .output = _
      rw [hcoming, Function.update_of_ne (by decide)]
      exact hupward
  · intro side f hf
    cases side with
    | input =>
      rw [Function.update_self] at hf
      rcases List.mem_append.1 hf with hf | hf
      · exact h.frames .input f hf
      · exact hpackets f hf
    | output =>
      rw [hcoming] at hf
      exact h.frames .output f hf
  · rw [hcoming]
    exact h.output
  · rw [hcoming]
    exact h.waiting
  · rw [hcoming]
    exact h.claimed

/-- Only its claim is on the way from the output node. -/
theorem output_cons {f : List UInt8} {fs : List (List UInt8)} (hcoming : coming .output = f :: fs) :
    f = l.claim .output ∧ fs = [] := by
  rcases h.output with hone | hnone
  · rw [hcoming] at hone
    exact List.cons.inj hone
  · rw [hcoming] at hnone
    cases hnone

/-- A descriptor is the connection of at most one node. -/
theorem client_eq {side : Side} {fd : Int} (hside : s.connection side = .established fd) :
    s.client fd = some side := by
  unfold System.client
  cases side with
  | input => rw [if_pos hside]
  | output =>
    rw [if_neg fun hinput => h.apart fd hinput hside, if_pos hside]

omit h in
theorem of_client_eq {side : Side} {fd : Int} (hclient : s.client fd = some side) :
    s.connection side = .established fd := by
  unfold System.client at hclient
  split at hclient
  · cases hclient
    assumption
  · split at hclient
    · cases hclient
      assumption
    · cases hclient

/-- A new connection gets a descriptor of its own and an empty buffer. -/
theorem accepted {client : Option Side} {fd : Int} {entry : Fin MAX_MONITOR_FDS}
    {pollStruct : PollFd} (hallowed : Router.Allowed l.router s.router (.accept (some fd)))
    (hclient : ∀ side, client = some side → s.connection side = .waiting) (hentry : entry ≠ 0)
    (hfree : (s.router.pollList entry).fd = -1) (hfd : pollStruct.fd = fd) :
    Routing (s.routed client
      { s.router with pollList := setEntry s.router.pollList entry pollStruct } (.accepted fd))
      requests coming := by
  have hnonneg : 0 ≤ fd := hallowed.1
  have hfresh : ∀ slot, (s.router.pollList slot).fd ≠ fd := hallowed.2
  have hnew : ∀ side, s.connection side ≠ .established fd := by
    intro side hside
    obtain ⟨-, slot, -, hslot⟩ := h.live side fd hside
    exact hfresh slot hslot
  have hafter : ∀ side fd', (s.routed client
      { s.router with pollList := setEntry s.router.pollList entry pollStruct }
      (.accepted fd)).connection side = .established fd' →
      (client = some side ∧ fd' = fd) ∨ s.connection side = .established fd' := by
    intro side fd' hside
    simp only [System.routed, Connection.after] at hside
    split at hside
    · rename_i hmine
      cases hside
      exact .inl ⟨of_decide_eq_true hmine, rfl⟩
    · exact .inr hside
  constructor
  · exact h.sound.effect hallowed (.accepted hentry hfree hfd)
  · exact h.refines
  · intro side fd' hside
    rcases hafter side fd' hside with ⟨-, rfl⟩ | hold
    · exact ⟨by omega, entry, hentry, by simp [System.routed, hfd]⟩
    · obtain ⟨hne, slot, hslot, hslotfd⟩ := h.live side fd' hold
      have hother : slot ≠ entry := by
        rintro rfl
        exact hne (hslotfd.symm.trans hfree)
      exact ⟨hne, slot, hslot, by simpa [System.routed, setEntry_of_ne hother] using hslotfd⟩
  · intro fd' hinput houtput
    rcases hafter .input fd' hinput with ⟨hmine, rfl⟩ | hold
    · rcases hafter .output fd' houtput with ⟨hmine', -⟩ | hold'
      · rw [hmine] at hmine'
        cases hmine'
      · exact hnew .output hold'
    · rcases hafter .output fd' houtput with ⟨-, rfl⟩ | hold'
      · exact hnew .input hold
      · exact h.apart fd' hold hold'
  · intro side
    rw [← h.upward side]
    by_cases hmine : client = some side
    · have hnone : s.router.tables.localBuffer fd = none := by
        cases hbuffer : s.router.tables.localBuffer fd with
        | none => rfl
        | some b =>
          obtain ⟨-, slot, -, hslot⟩ := h.sound.buffers fd (by rw [hbuffer]; rfl)
          exact absurd hslot (hfresh slot)
      rw [System.held_of_waiting (hclient side hmine)]
      simp [System.held, System.routed, Connection.after, Connection.taken, hmine, Tables.buffer,
        hnone]
    · simp [System.held, System.routed, Connection.after, Connection.taken, hmine]
  · exact h.frames
  · exact h.output
  · intro hwaiting
    apply h.waiting
    simp only [System.routed, Connection.after] at hwaiting
    split at hwaiting
    · cases hwaiting
    · exact hwaiting
  · exact h.claimed

/-- Another client is dropped. -/
theorem closed {act : Act} {client : Option Side} {fd : Int} {slot : Fin MAX_MONITOR_FDS}
    {pollStruct : PollFd} (hallowed : Router.Allowed l.router s.router act) (hslot : slot ≠ 0)
    (hfd : (s.router.pollList slot).fd = fd) (hlive : fd ≠ -1) (hdead : pollStruct.fd = -1)
    (hother : ∀ side, s.connection side ≠ .established fd) :
    Routing (s.routed client
      { tables := { s.router.tables with
          localBuffer := s.router.tables.localBuffer.erase fd }
        pollList := setEntry s.router.pollList slot pollStruct } (.closed fd))
      requests coming := by
  have hsame : ∀ side, (s.connection side).after (client = some side) (.closed fd) =
      s.connection side := fun side => if_neg (hother side)
  constructor
  · exact h.sound.effect hallowed (Router.Effect.closed hslot hfd hlive hdead)
  · exact h.refines
  · intro side fd' hside
    simp only [System.routed, hsame] at hside
    obtain ⟨hne, slot', hslot', hfd'⟩ := h.live side fd' hside
    have hne' : slot' ≠ slot := by
      rintro rfl
      rw [hfd] at hfd'
      exact hother side (hfd' ▸ hside)
    exact ⟨hne, slot', hslot', by simpa [System.routed, setEntry_of_ne hne'] using hfd'⟩
  · intro fd' hinput houtput
    simp only [System.routed, hsame] at hinput houtput
    exact h.apart fd' hinput houtput
  · intro side
    rw [← h.upward side]
    cases hconnection : s.connection side with
    | established fd' =>
      have hne : fd' ≠ fd := by
        rintro rfl
        exact hother side hconnection
      simp [System.held, System.routed, hsame, hconnection, Connection.taken, Tables.buffer,
        Table.erase_of_ne hne]
    | _ => simp [System.held, System.routed, hsame, hconnection, Connection.taken]
  · exact h.frames
  · exact h.output
  · intro hwaiting
    simp only [System.routed, hsame] at hwaiting
    exact h.waiting hwaiting
  · exact h.claimed

/-! ## A read of the router -/

/-- A read takes out the first frame on the way, or leaves them all on the way. -/
theorem absorbed {side : Side} {fd : Int} (hside : s.connection side = .established fd)
    {data : List UInt8} (hnext : data <+: s.up side) {local_ : LocalBuffer l.router.bufferSize}
    {extract : Extract}
    (habsorb : absorb l.router (s.router.tables.buffer fd) data = .ok (local_, extract)) :
    (∃ f fs, coming side = f :: fs ∧ extract.packet = some f ∧
      local_.window ++ (s.up side).drop data.length = fs.flatten) ∨
    (extract.packet = none ∧
      local_.window ++ (s.up side).drop data.length = (coming side).flatten) := by
  obtain ⟨rest, hup⟩ := hnext
  have hupward := h.upward side
  rw [System.held_of_established hside, ← hup, ← List.append_assoc] at hupward
  rw [← hup, List.drop_left]
  have hframes : ∀ f ∈ coming side, (frameReader l.router.order).IsFrame f := fun f hf =>
    (h.frames side f hf).isFrame
  rcases (absorbed_of_absorb habsorb).frames hframes ⟨rest, hupward⟩ with
    ⟨f, fs, hcoming, hpacket, hwindow⟩ | ⟨hpacket, hwindow, -⟩
  · refine .inl ⟨f, fs, hcoming, hpacket, ?_⟩
    rw [hwindow, hcoming, List.flatten_cons, List.append_assoc] at hupward
    exact List.append_cancel_left hupward
  · refine .inr ⟨hpacket, ?_⟩
    rw [hwindow]
    exact hupward

/-- What a read of the router on a connection did: it completed no frame, or it served
    the first frame on the way from a node or a frame of another client. -/
inductive Handled (s : System l) (coming : Side → List (List UInt8)) (fd : Int) :
    Option Packet → List Write → List Served → (Side → List (List UInt8)) → Prop where
  | idle : Handled s coming fd none [] [] coming
  | stranger {p : Packet} {r : Request} {t : AddressTable} {writes : List Write} :
      s.client fd = none → Request.parse l.router.order p.buffer p.rand = .ok r →
      Performed l.router.order fd p.buffer p.rand s.router.tables.addressTable r t writes →
      Handled s coming fd (some p) writes [{ client := none, fd, request := r }] coming
  | node {side : Side} {p : Packet} {r : Request} {t : AddressTable} {writes : List Write}
      {fs : List (List UInt8)} :
      s.client fd = some side → coming side = p.buffer :: fs →
      Request.parse l.router.order p.buffer p.rand = .ok r →
      Performed l.router.order fd p.buffer p.rand s.router.tables.addressTable r t writes →
      Handled s coming fd (some p) writes [{ client := some side, fd, request := r }]
        (Function.update coming side fs)

/-- The frames on the way after a read are some of those before, and those that were
    served are requests. -/
theorem served {client : Option Side} {fd : Int} {slot : Fin MAX_MONITOR_FDS} {pollStruct : PollFd}
    {act : Act} {local_ : LocalBuffer l.router.bufferSize} {data : List UInt8}
    {discarded : Nat} {call : Option Packet} {writes : List Write} {new : List Served}
    {coming' : Side → List (List UInt8)} {router : Router l.router}
    (hallowed : Router.Allowed l.router s.router act)
    (heffect : Router.Effect l.router s.router act router (.handled fd data discarded call writes))
    (hbuffer : router.tables.localBuffer = s.router.tables.localBuffer.set fd local_)
    (hlist : router.pollList = setEntry s.router.pollList slot pollStruct)
    (hslot : (s.router.pollList slot).fd = fd) (hpoll : pollStruct.fd = fd)
    (hrefines : (History.ofServed (requests ++ new)).Refines router.tables.addressTable)
    (hfed : ∀ side, s.connection side = .established fd →
      local_.window ++ (s.up side).drop data.length = (coming' side).flatten)
    (hsame : ∀ side, s.connection side ≠ .established fd → coming' side = coming side)
    (hsub : ∀ side, coming' side <:+ coming side)
    (hnew : ∀ e ∈ new, e.client = some .output → coming' .output = []) :
    Routing (s.routed client router (.handled fd data discarded call writes))
      (requests ++ new) coming' := by
  constructor
  · exact h.sound.effect hallowed heffect
  · exact hrefines
  · intro side fd' hside
    obtain ⟨hne, slot', hslot', hfd'⟩ := h.live side fd' hside
    refine ⟨hne, slot', hslot', ?_⟩
    show (router.pollList slot').fd = fd'
    rw [hlist, setEntry_fd (hpoll.trans hslot.symm), hfd']
  · exact h.apart
  · intro side
    by_cases hside : s.connection side = .established fd
    · rw [← hfed side hside]
      simp [System.held, System.routed, Connection.after, Connection.taken, hside, Tables.buffer,
        hbuffer]
    · rw [hsame side hside, ← h.upward side]
      cases hconnection : s.connection side with
      | established fd' =>
        have hne : fd' ≠ fd := by
          rintro rfl
          exact hside hconnection
        simp [System.held, System.routed, Connection.after, Connection.taken, hconnection, hne,
          Tables.buffer, hbuffer]
      | _ => simp [System.held, System.routed, Connection.after, Connection.taken, hconnection]
  · exact fun side f hf => h.frames side f ((hsub side).subset hf)
  · have hsuffix := hsub .output
    rcases h.output with hcoming | hcoming
    · rw [hcoming, List.suffix_cons_iff] at hsuffix
      exact hsuffix.imp_right List.suffix_nil.1
    · rw [hcoming] at hsuffix
      exact .inr (List.suffix_nil.1 hsuffix)
  · intro hwaiting
    have hwaiting : s.connection .output = .waiting := hwaiting
    rw [hsame .output (by simp [hwaiting])]
    exact h.waiting hwaiting
  · rintro ⟨e, he, hclient⟩
    rcases List.mem_append.1 he with he | he
    · have hsuffix := hsub .output
      rw [h.claimed ⟨e, he, hclient⟩] at hsuffix
      exact List.suffix_nil.1 hsuffix
    · exact hnew e he hclient

/-- A read of the router leaves the connections in order. -/
theorem handled {act : Act} {router : Router l.router} {fd : Int} {data : List UInt8}
    {discarded : Nat} {call : Option Packet} {writes : List Write}
    (hallowed : Router.Allowed l.router s.router act)
    (heffect : Router.Effect l.router s.router act router (.handled fd data discarded call writes))
    (hnext : ∀ side, s.connection side = .established fd → data <+: s.up side) :
    ∃ coming',
      Handled s coming fd call writes
        ((Seen.router (s.client fd) (.handled fd data discarded call writes)).served
          l.router.order).toList coming' ∧
      Routing (s.routed (s.client fd) router (.handled fd data discarded call writes))
        (requests ++ ((Seen.router (s.client fd)
          (.handled fd data discarded call writes)).served l.router.order).toList) coming' := by
  have heffect' := heffect
  cases heffect with
  | @handled _ slot pollStruct revents _ rand local_ extract _ t _ hslot hfd hlive hpoll hdata
      habsorb hcall hperform =>
    cases hpacket : extract.packet with
    | none =>
      rw [hpacket] at hcall
      cases hcall
      cases hperform
      refine ⟨coming, .idle, ?_⟩
      refine h.served hallowed heffect' rfl rfl hfd hpoll (by simpa [Seen.served] using h.refines)
        ?_ (fun _ _ => rfl) (fun _ => List.suffix_rfl) (by simp [Seen.served])
      intro side hside
      rcases h.absorbed hside (hnext side hside) habsorb with ⟨f, fs, -, hsome, -⟩ | ⟨-, hrest⟩
      · rw [hpacket] at hsome
        cases hsome
      · exact hrest
    | some packet =>
      rw [hpacket] at hcall
      subst hcall
      obtain ⟨r, hparse, hperformed⟩ := performed_of_handlePacket hperform
      have hserved : (Seen.router (s.client fd) (.handled fd data extract.discarded
          (some { fd, buffer := packet, rand }) writes)).served l.router.order =
          some { client := s.client fd, fd, request := r } :=
        Seen.served_handled hparse ..
      have hrefines : (History.ofServed (requests ++
          [{ client := s.client fd, fd, request := r }])).Refines t := by
        have := h.refines.performed hperformed
        simpa [History.ofServed] using this
      simp only [Option.map_some, hserved, Option.toList_some]
      cases hclient : s.client fd with
      | none =>
        have hnone : ∀ side, s.connection side ≠ .established fd := by
          intro side hside
          rw [h.client_eq hside] at hclient
          cases hclient
        rw [hclient] at hrefines
        refine ⟨coming, .stranger hclient hparse hperformed, ?_⟩
        exact h.served hallowed heffect' rfl rfl hfd hpoll hrefines
          (fun side hside => absurd hside (hnone side)) (fun _ _ => rfl)
          (fun _ => List.suffix_rfl) (by simp)
      | some side =>
        have hside := of_client_eq hclient
        have honly : ∀ side', s.connection side' = .established fd → side' = side := by
          intro side' hside'
          rw [h.client_eq hside'] at hclient
          exact Option.some.inj hclient
        rw [hclient] at hrefines
        rcases h.absorbed hside (hnext side hside) habsorb with
          ⟨f, fs, hcoming, hsome, hrest⟩ | ⟨hnone, -⟩
        · rw [hpacket] at hsome
          cases hsome
          refine ⟨Function.update coming side fs, .node hclient hcoming hparse hperformed, ?_⟩
          refine h.served hallowed heffect' rfl rfl hfd hpoll hrefines ?_ ?_ ?_ ?_
          · intro side' hside'
            obtain rfl := honly side' hside'
            rw [Function.update_self, hrest]
          · intro side' hside'
            have hne : side' ≠ side := by
              rintro rfl
              exact hside' hside
            exact Function.update_of_ne hne fs coming
          · intro side'
            by_cases heq : side' = side
            · subst heq
              rw [Function.update_self, hcoming]
              exact List.suffix_cons ..
            · rw [Function.update_of_ne heq]
          · intro e he heclient
            rw [List.mem_singleton.1 he] at heclient
            cases heclient
            rw [Function.update_self]
            exact (h.output_cons hcoming).2
        · rw [hpacket] at hnone
          cases hnone

end Routing
