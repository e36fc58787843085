-- SUMMARY: The connections of a network at the router: the frames on the way to it, and what may be written on them.
import GraphIPC.Router.Isolation
import GraphIPC.System.Network

/-!
# The connections of a network

Whatever other clients send, each byte that the router writes to anyone belongs to a
reply or to a frame that it has just served, and what it serves is a frame that could
have been built. The bytes that a node has sent and the router has not used are a
sequence of frames, of which a read serves the first or none.
-/

/-! ## What is served, and what is written for it -/

/-- A request is read off no less than a header. -/
theorem Request.length_of_parse {order : ByteOrder} {buffer : List UInt8}
    {rand : Nat → RandResult} {r : Request} (h : Request.parse order buffer rand = .ok r) :
    11 ≤ buffer.length := by
  by_contra hshort
  have hnone := readHeader_short order (Nat.lt_of_not_le hshort)
  rw [parse, gnwParseHeader, hnone] at h
  simp only [assertThat] at h
  split at h <;> cases h

/-- A request is read off a header. -/
theorem Request.header_of_parse {order : ByteOrder} {buffer : List UInt8}
    {rand : Nat → RandResult} {r : Request} (h : Request.parse order buffer rand = .ok r) :
    ∃ header payload, gnwParseHeader true order buffer = .ok (header, payload) ∧
      callOf order buffer = (header, payload) := by
  rw [parse, Except.bind_eq_ok_iff] at h
  obtain ⟨-, -, h⟩ := h
  rw [Except.bind_eq_ok_iff] at h
  obtain ⟨⟨header, payload⟩, hheader, -⟩ := h
  refine ⟨header, payload, hheader, ?_⟩
  rw [gnwParseHeader] at hheader
  cases hsome : readHeader order buffer with
  | none => simp [hsome] at hheader
  | some called =>
    simp only [hsome, readOr_some, Except.ok_bind, Except.bind_eq_ok_iff] at hheader
    obtain ⟨-, -, -, -, hsame⟩ := hheader
    cases hsame
    rw [callOf, hsome]
    rfl

/-- What is read as data says so. -/
theorem Request.type_of_parse_data {order : ByteOrder} {buffer : List UInt8}
    {rand : Nat → RandResult} {source : UInt32}
    (h : Request.parse order buffer rand = .ok (.data source)) :
    (callOf order buffer).1.type = GNW_DATA := by
  by_contra htype
  obtain ⟨header, payload, hheader, hcall⟩ := Request.header_of_parse h
  rw [hcall] at htype
  simp only [parse, hheader, htype, if_false, Except.ok_bind, Except.bind_eq_ok_iff] at h
  obtain ⟨-, -, h⟩ := h
  split at h
  · split at h
    · cases h
    simp only [Except.bind_eq_ok_iff] at h
    obtain ⟨⟨directive, next⟩, -, h⟩ := h
    split at h
    · split at h
      · simp only [Except.bind_eq_ok_iff] at h
        obtain ⟨_, -, h⟩ := h
        cases h
      · cases h
    split at h
    · simp only [Except.bind_eq_ok_iff] at h
      obtain ⟨_, -, _, -, h⟩ := h
      cases h
    split at h
    · cases h
    split at h
    · simp only [Except.bind_eq_ok_iff] at h
      obtain ⟨_, -, _, -, h⟩ := h
      cases h
    · cases h
  · cases h

/-- What a read hands out is a frame, whoever sent the bytes. -/
theorem wellFormed_of_absorb {c : RouterConfig} {b b' : LocalBuffer c.bufferSize}
    {data : List UInt8} {x : Extract} (h : absorb c b data = .ok (b', x)) {f : List UInt8}
    (hpacket : x.packet = some f) (hlength : 11 ≤ f.length) : WellFormed c.order f := by
  have hx : x = (digest c.order (b.window ++ data)).2 := congrArg Prod.snd (absorb_digest h)
  rw [hx, digest] at hpacket
  generalize resync c.order (b.window ++ data) (b.window ++ data).length = r at hpacket
  split at hpacket
  · rename_i hpos
    have hf := Option.some.inj hpacket
    have hle := gnwNextPacket_le c.order (r.1.take r.2)
    rw [List.length_take] at hle
    have htake : (r.1.take r.2).take (gnwNextPacket c.order (r.1.take r.2)).toNat = f := by
      rw [List.take_take, Nat.min_eq_left (by omega)]
      exact hf
    have heleven : 11 ≤ (gnwNextPacket c.order (r.1.take r.2)).toNat := by
      rw [← hf, List.length_take] at hlength
      omega
    obtain ⟨type, source, payload, hframe, hfits⟩ :=
      exists_frameBytes_of_gnwNextPacket (Int.toNat_of_nonneg hpos.le).symm heleven
    exact ⟨type, source, payload, htake.symm.trans hframe, hfits⟩
  · cases hpacket

/-- A reply is no data. -/
theorem printed_newAddressReply (order : ByteOrder) (fd : Int) (address : UInt32) :
    printed order (AddressTable.newAddressReply order fd address).bytes = [] := by
  rw [AddressTable.newAddressReply, printed_frameBytes, if_neg (by decide)]

namespace Performed

variable {order : ByteOrder} {fd : Int} {buffer : List UInt8} {rand : Nat → RandResult}
  {t t' : AddressTable} {r : Request} {writes : List Write}
  (h : Performed order fd buffer rand t r t' writes)
include h

/-- All that is written for a frame are copies of it or a reply. -/
theorem bytes_cases {w : Write} (hw : w ∈ writes) :
    w.bytes = buffer ∨ ∃ address, w = AddressTable.newAddressReply order fd address := by
  cases h with
  | claimed address => exact .inr ⟨address, List.mem_singleton.1 hw⟩
  | @forwarded source entry targets hsource htargets =>
    obtain ⟨target, -, hcopy⟩ := List.mem_filterMap.1 hw
    rw [AddressTable.copyTo, Option.map_eq_some_iff] at hcopy
    obtain ⟨entry', -, rfl⟩ := hcopy
    exact .inl rfl
  | _ => cases hw

/-- So it is made of frames. -/
theorem wellFormed (hbuffer : WellFormed order buffer) {w : Write} (hw : w ∈ writes) :
    WellFormed order w.bytes := by
  rcases h.bytes_cases hw with hcopy | ⟨address, rfl⟩
  · rwa [hcopy]
  · exact ⟨_, _, _, rfl, by simp⟩

/-- The data in it is that of the frame. -/
theorem printed_cases {w : Write} (hw : w ∈ writes) :
    w.bytes = buffer ∨ printed order w.bytes = [] := by
  rcases h.bytes_cases hw with hcopy | ⟨address, rfl⟩
  · exact .inl hcopy
  · exact .inr (printed_newAddressReply order fd address)

end Performed

/-- What is written besides data is the reply to a claim, on the connection it came from. -/
theorem Performed.data_or_reply {order : ByteOrder} {fd : Int} {buffer : List UInt8}
    {rand : Nat → RandResult} {t t' : AddressTable} {r : Request} {writes : List Write}
    (h : Performed order fd buffer rand t r t' writes)
    (hparse : Request.parse order buffer rand = .ok r) {w : Write} (hw : w ∈ writes) :
    (callOf order w.bytes).1.type = GNW_DATA ∨
      ∃ address, r = .newAddress address ∧ w.fd = fd ∧ w.bytes = claimReply order address := by
  cases h with
  | claimed address =>
    obtain rfl := List.mem_singleton.1 hw
    exact .inr ⟨address, rfl, rfl, rfl⟩
  | forwarded =>
    obtain ⟨target, -, hcopy⟩ := List.mem_filterMap.1 hw
    rw [AddressTable.copyTo, Option.map_eq_some_iff] at hcopy
    obtain ⟨entry, -, rfl⟩ := hcopy
    exact .inl (Request.type_of_parse_data hparse)
  | _ => cases hw

namespace Router.Effect

variable {c : RouterConfig} {s router : Router c} {act : Act} {fd : Int} {data : List UInt8}
  {discarded : Nat} {writes : List Write}

/-- A read that completes no frame writes nothing. -/
theorem idle (heffect : Router.Effect c s act router (.handled fd data discarded none writes)) :
    writes = [] ∧ router.tables.addressTable = s.tables.addressTable := by
  cases heffect with
  | @handled _ _ _ _ _ rand _ extract _ t _ _ _ _ _ _ _ hcall hperform =>
    cases hperform
    exact ⟨rfl, rfl⟩

/-- A read that completes a frame serves it. -/
theorem performed {p : Packet}
    (heffect : Router.Effect c s act router (.handled fd data discarded (some p) writes)) :
    p.fd = fd ∧ WellFormed c.order p.buffer ∧
      ∃ r, Request.parse c.order p.buffer p.rand = .ok r ∧
        Performed c.order p.fd p.buffer p.rand s.tables.addressTable r
          router.tables.addressTable writes := by
  cases heffect with
  | @handled _ _ _ _ _ rand _ extract _ t _ _ _ _ _ _ habsorb hcall hperform =>
    obtain ⟨packet, hpacket, rfl⟩ := Option.map_eq_some_iff.1 hcall.symm
    obtain ⟨r, hparse, hperformed⟩ := performed_of_handlePacket hperform
    exact ⟨rfl, wellFormed_of_absorb habsorb hpacket (Request.length_of_parse hparse), r, hparse,
      hperformed⟩

/-- All that is written for a read are frames, and what data they carry is that of the
    frame that was served. -/
theorem written {call : Option Packet}
    (heffect : Router.Effect c s act router (.handled fd data discarded call writes)) {w : Write}
    (hw : w ∈ writes) :
    WellFormed c.order w.bytes ∧
      (printed c.order w.bytes = [] ∨ call.map Packet.buffer = some w.bytes) := by
  cases call with
  | none =>
    rw [heffect.idle.1] at hw
    cases hw
  | some p =>
    obtain ⟨-, hframe, r, -, hperformed⟩ := heffect.performed
    refine ⟨hperformed.wellFormed hframe hw, ?_⟩
    rcases hperformed.printed_cases hw with hcopy | hnone
    · exact .inr (congrArg some hcopy.symm)
    · exact .inl hnone

/-- All that is written for a read is for nodes. -/
theorem forNode {call : Option Packet}
    (heffect : Router.Effect c s act router (.handled fd data discarded call writes)) {w : Write}
    (hw : w ∈ writes) : ForNode c.order w.bytes := by
  refine ⟨(heffect.written hw).1, ?_⟩
  cases call with
  | none =>
    rw [heffect.idle.1] at hw
    cases hw
  | some p =>
    obtain ⟨-, -, r, hparse, hperformed⟩ := heffect.performed
    rcases hperformed.data_or_reply hparse hw with hdata | ⟨address, -, -, hreply⟩
    · exact .inl hdata
    · exact .inr ⟨address, hreply⟩

end Router.Effect

/-! ## The connections of the nodes -/

variable {ι : Type} {n : Network ι}

theorem Network.wellFormed_request (n : Network ι) (i : ι) :
    WellFormed n.router.order (n.request i) := by
  refine ⟨_, _, _, rfl, ?_⟩
  split
  · decide
  · rw [length_claimBytes]
    omega

/-- The bytes of the connection of a node that the router has read and not used. -/
def NetworkState.held (s : NetworkState n) (i : ι) : List UInt8 :=
  match s.connection i with
  | .established fd => (s.router.tables.buffer fd).window
  | _ => []

theorem NetworkState.held_of_established {s : NetworkState n} {i : ι} {fd : Int}
    (h : s.connection i = .established fd) :
    s.held i = (s.router.tables.buffer fd).window := by
  simp only [held, h]

theorem NetworkState.held_of_waiting {s : NetworkState n} {i : ι}
    (h : s.connection i = .waiting) : s.held i = [] := by
  simp only [held, h]

/-- The connections of the nodes, and the frames that are on the way to the handler of
    the router on each of them. Nothing is on its way where the connection is lost. -/
structure Traffic (s : NetworkState n) (coming : ι → List (List UInt8)) : Prop where
  sound : s.router.Sound
  live : ∀ i fd, s.connection i = .established fd →
    fd ≠ -1 ∧ ∃ slot, slot ≠ 0 ∧ (s.router.pollList slot).fd = fd
  apart : ∀ i j fd, s.connection i = .established fd → s.connection j = .established fd → i = j
  upward : ∀ i, s.connection i ≠ .lost → s.held i ++ s.up i = (coming i).flatten
  frames : ∀ i, ∀ f ∈ coming i, WellFormed n.router.order f

namespace Traffic

variable {s : NetworkState n} {coming : ι → List (List UInt8)}

theorem init (n : Network ι) (listenFd : Int) :
    Traffic (NetworkState.init n listenFd) fun i => [n.request i] where
  sound := Router.sound_init _ _
  live := by
    intro i fd h
    cases h
  apart := by
    intro i j fd h
    cases h
  upward i _ := by simp [NetworkState.held, NetworkState.init, (n.start_ok i).1]
  frames i f hf := by
    rw [List.mem_singleton.1 hf]
    exact n.wellFormed_request i

variable (h : Traffic s coming)
include h

/-- The steps of the nodes leave what the router sees of their connections. -/
theorem of_eq {s' : NetworkState n} (hrouter : s'.router = s.router)
    (hconnection : s'.connection = s.connection) (hup : s'.up = s.up) : Traffic s' coming := by
  obtain ⟨router, connection, up, down, node⟩ := s'
  cases hrouter
  cases hconnection
  cases hup
  exact ⟨h.sound, h.live, h.apart, h.upward, h.frames⟩

variable [DecidableEq ι]

/-- A node sends frames. -/
theorem sent (i : ι) {packets : List (List UInt8)}
    (hpackets : ∀ f ∈ packets, WellFormed n.router.order f) :
    Traffic { s with up := Function.update s.up i (s.up i ++ packets.flatten) }
      (Function.update coming i (coming i ++ packets)) := by
  refine ⟨h.sound, h.live, h.apart, ?_, ?_⟩
  · intro j hopen
    show s.held j ++ Function.update s.up i (s.up i ++ packets.flatten) j = _
    by_cases hj : j = i
    · subst hj
      rw [Function.update_self, Function.update_self, List.flatten_append,
        ← h.upward j hopen, List.append_assoc]
    · rw [Function.update_of_ne hj, Function.update_of_ne hj]
      exact h.upward j hopen
  · intro j f hf
    by_cases hj : j = i
    · subst hj
      rw [Function.update_self, List.mem_append] at hf
      exact hf.elim (h.frames j f) (hpackets f)
    · rw [Function.update_of_ne hj] at hf
      exact h.frames j f hf

/-- A new connection gets a descriptor of its own and an empty buffer. -/
theorem accepted {client : Option ι} {fd : Int} {entry : Fin MAX_MONITOR_FDS}
    {pollStruct : PollFd} (hallowed : Router.Allowed n.router s.router (.accept (some fd)))
    (hclient : ∀ i, client = some i → s.connection i = .waiting) (hentry : entry ≠ 0)
    (hfree : (s.router.pollList entry).fd = -1) (hfd : pollStruct.fd = fd) :
    Traffic (s.routed client
      { s.router with pollList := setEntry s.router.pollList entry pollStruct } (.accepted fd))
      coming := by
  have hnonneg : 0 ≤ fd := hallowed.1
  have hfresh : ∀ slot, (s.router.pollList slot).fd ≠ fd := hallowed.2
  have hnew : ∀ i, s.connection i ≠ .established fd := by
    intro i hi
    obtain ⟨-, slot, -, hslot⟩ := h.live i fd hi
    exact hfresh slot hslot
  have hafter : ∀ i fd', (s.routed client
      { s.router with pollList := setEntry s.router.pollList entry pollStruct }
      (.accepted fd)).connection i = .established fd' →
      (client = some i ∧ fd' = fd) ∨ s.connection i = .established fd' := by
    intro i fd' hi
    simp only [NetworkState.routed, Connection.after] at hi
    split at hi
    · rename_i hmine
      cases hi
      exact .inl ⟨of_decide_eq_true hmine, rfl⟩
    · exact .inr hi
  constructor
  · exact h.sound.effect hallowed (.accepted hentry hfree hfd)
  · intro i fd' hi
    rcases hafter i fd' hi with ⟨-, rfl⟩ | hold
    · exact ⟨by omega, entry, hentry, by simp [NetworkState.routed, hfd]⟩
    · obtain ⟨hne, slot, hslot, hslotfd⟩ := h.live i fd' hold
      have hother : slot ≠ entry := by
        rintro rfl
        exact hne (hslotfd.symm.trans hfree)
      exact ⟨hne, slot, hslot,
        by simpa [NetworkState.routed, setEntry_of_ne hother] using hslotfd⟩
  · intro i j fd' hi hj
    rcases hafter i fd' hi with ⟨hmine, rfl⟩ | hold
    · rcases hafter j fd' hj with ⟨hmine', -⟩ | hold'
      · exact Option.some.inj (hmine.symm.trans hmine')
      · exact absurd hold' (hnew j)
    · rcases hafter j fd' hj with ⟨-, rfl⟩ | hold'
      · exact absurd hold (hnew i)
      · exact h.apart i j fd' hold hold'
  · intro i hopen
    by_cases hmine : client = some i
    · have hwaiting := hclient i hmine
      have hnone : s.router.tables.localBuffer fd = none := by
        cases hbuffer : s.router.tables.localBuffer fd with
        | none => rfl
        | some b =>
          obtain ⟨-, slot, -, hslot⟩ := h.sound.buffers fd (by rw [hbuffer]; rfl)
          exact absurd hslot (hfresh slot)
      rw [← h.upward i (by simp [hwaiting]), NetworkState.held_of_waiting hwaiting]
      simp [NetworkState.held, NetworkState.routed, Connection.after, Connection.taken, hmine,
        Tables.buffer, hnone]
    · have hsame : (s.connection i).after (client = some i) (.accepted fd) = s.connection i := by
        simp [Connection.after, hmine]
      simp only [NetworkState.routed, hsame] at hopen
      rw [← h.upward i hopen]
      simp [NetworkState.held, NetworkState.routed, Connection.after, Connection.taken, hmine]
  · exact h.frames

/-- A connection is dropped. What was on its way there is on no way any more. -/
theorem closed {act : Act} {client : Option ι} {fd : Int} {slot : Fin MAX_MONITOR_FDS}
    {pollStruct : PollFd} (hallowed : Router.Allowed n.router s.router act) (hslot : slot ≠ 0)
    (hfd : (s.router.pollList slot).fd = fd) (hlive : fd ≠ -1) (hdead : pollStruct.fd = -1) :
    Traffic (s.routed client
      { tables := { s.router.tables with
          localBuffer := s.router.tables.localBuffer.erase fd }
        pollList := setEntry s.router.pollList slot pollStruct } (.closed fd)) coming := by
  have hafter : ∀ i, (s.connection i).after (client = some i) (.closed fd) ≠ .lost →
      s.connection i ≠ .established fd ∧
      (s.connection i).after (client = some i) (.closed fd) = s.connection i := by
    intro i hi
    by_cases hmine : s.connection i = .established fd
    · exact absurd (if_pos hmine) hi
    · exact ⟨hmine, if_neg hmine⟩
  have hold : ∀ i fd', (s.connection i).after (client = some i) (.closed fd) =
      .established fd' → fd' ≠ fd ∧ s.connection i = .established fd' := by
    intro i fd' hi
    obtain ⟨hother, hsame⟩ := hafter i (by simp [hi])
    rw [hsame] at hi
    exact ⟨fun heq => hother (heq ▸ hi), hi⟩
  constructor
  · exact h.sound.effect hallowed (Router.Effect.closed hslot hfd hlive hdead)
  · intro i fd' hi
    obtain ⟨hother, hi⟩ := hold i fd' hi
    obtain ⟨hne, slot', hslot', hfd'⟩ := h.live i fd' hi
    have hne' : slot' ≠ slot := by
      rintro rfl
      exact hother (hfd'.symm.trans hfd)
    exact ⟨hne, slot', hslot', by simpa [NetworkState.routed, setEntry_of_ne hne'] using hfd'⟩
  · intro i j fd' hi hj
    exact h.apart i j fd' (hold i fd' hi).2 (hold j fd' hj).2
  · intro i hopen
    obtain ⟨hother, hsame⟩ := hafter i hopen
    rw [← h.upward i (hsame ▸ hopen)]
    cases hconnection : s.connection i with
    | established fd' =>
      have hne : fd' ≠ fd := by
        rintro rfl
        exact hother hconnection
      rw [hconnection] at hsame
      simp [NetworkState.held, NetworkState.routed, hsame, hconnection, Connection.taken,
        Tables.buffer, Table.erase_of_ne hne]
    | _ =>
      rw [hconnection] at hsame
      simp [NetworkState.held, NetworkState.routed, hsame, hconnection, Connection.taken]
  · exact h.frames

omit [DecidableEq ι] in
/-- A read takes out the first frame on the way, or leaves them all on the way. -/
theorem absorbed {i : ι} {fd : Int} (hi : s.connection i = .established fd)
    {data : List UInt8} (hnext : data <+: s.up i) {local_ : LocalBuffer n.router.bufferSize}
    {extract : Extract}
    (habsorb : absorb n.router (s.router.tables.buffer fd) data = .ok (local_, extract)) :
    ∃ fs, extract.packet.toList ++ fs = coming i ∧
      local_.window ++ (s.up i).drop data.length = fs.flatten := by
  obtain ⟨rest, hup⟩ := hnext
  have hupward := h.upward i (by simp [hi])
  rw [NetworkState.held_of_established hi, ← hup, ← List.append_assoc] at hupward
  rw [← hup, List.drop_left]
  have hframes : ∀ f ∈ coming i, (frameReader n.router.order).IsFrame f := fun f hf =>
    (h.frames i f hf).isFrame
  rcases (absorbed_of_absorb habsorb).frames hframes ⟨rest, hupward⟩ with
    ⟨f, fs, hcoming, hpacket, hwindow⟩ | ⟨hpacket, hwindow, -⟩
  · refine ⟨fs, by rw [hpacket, hcoming]; rfl, ?_⟩
    rw [hwindow, hcoming, List.flatten_cons, List.append_assoc] at hupward
    exact List.append_cancel_left hupward
  · refine ⟨coming i, by rw [hpacket]; rfl, ?_⟩
    rw [hwindow]
    exact hupward

/-- The frames on the way after a read are some of those before. -/
theorem served {client : Option ι} {fd : Int} {slot : Fin MAX_MONITOR_FDS} {pollStruct : PollFd}
    {act : Act} {local_ : LocalBuffer n.router.bufferSize} {data : List UInt8}
    {discarded : Nat} {call : Option Packet} {writes : List Write}
    {coming' : ι → List (List UInt8)} {router : Router n.router}
    (hallowed : Router.Allowed n.router s.router act)
    (heffect : Router.Effect n.router s.router act router (.handled fd data discarded call writes))
    (hbuffer : router.tables.localBuffer = s.router.tables.localBuffer.set fd local_)
    (hlist : router.pollList = setEntry s.router.pollList slot pollStruct)
    (hslot : (s.router.pollList slot).fd = fd) (hpoll : pollStruct.fd = fd)
    (hfed : ∀ i, s.connection i = .established fd →
      local_.window ++ (s.up i).drop data.length = (coming' i).flatten)
    (hsame : ∀ i, s.connection i ≠ .established fd → coming' i = coming i)
    (hsub : ∀ i, coming' i <:+ coming i) :
    Traffic (s.routed client router (.handled fd data discarded call writes)) coming' := by
  constructor
  · exact h.sound.effect hallowed heffect
  · intro i fd' hi
    obtain ⟨hne, slot', hslot', hfd'⟩ := h.live i fd' hi
    refine ⟨hne, slot', hslot', ?_⟩
    show (router.pollList slot').fd = fd'
    rw [hlist, setEntry_fd (hpoll.trans hslot.symm), hfd']
  · exact h.apart
  · intro i hopen
    by_cases hi : s.connection i = .established fd
    · rw [← hfed i hi]
      simp [NetworkState.held, NetworkState.routed, Connection.after, Connection.taken, hi,
        Tables.buffer, hbuffer]
    · rw [hsame i hi, ← h.upward i hopen]
      cases hconnection : s.connection i with
      | established fd' =>
        have hne : fd' ≠ fd := by
          rintro rfl
          exact hi hconnection
        simp [NetworkState.held, NetworkState.routed, Connection.after, Connection.taken,
          hconnection, hne, Tables.buffer, hbuffer]
      | _ =>
        simp [NetworkState.held, NetworkState.routed, Connection.after, Connection.taken,
          hconnection]
  · exact fun i f hf => h.frames i f ((hsub i).subset hf)

/-- A read of the router serves the first frame on its way from a node, or none. -/
theorem handled {act : Act} {client : Option ι} {router : Router n.router} {fd : Int}
    {data : List UInt8} {discarded : Nat} {call : Option Packet} {writes : List Write}
    (hallowed : Router.Allowed n.router s.router act)
    (heffect : Router.Effect n.router s.router act router (.handled fd data discarded call writes))
    (hclient : ∀ i, (s.connection i = .established fd ↔ client = some i) ∧
      (client = some i → data <+: s.up i)) :
    ∃ coming', Traffic (s.routed client router (.handled fd data discarded call writes)) coming' ∧
      ∀ i, (if client = some i then call.map Packet.buffer else none).toList ++ coming' i =
        coming i := by
  have heffect' := heffect
  cases heffect with
  | @handled _ slot pollStruct revents _ rand local_ extract _ t _ hslot hfd hlive hpoll hdata
      habsorb hcall hperform =>
    have hpacket : call.map Packet.buffer = extract.packet := by
      rw [hcall, Option.map_map]
      exact Option.map_id'
    rw [hpacket]
    cases client with
    | none =>
      have hother : ∀ i, s.connection i ≠ .established fd := fun i hi => by
        cases (hclient i).1.1 hi
      refine ⟨coming, ?_, fun i => rfl⟩
      exact h.served hallowed heffect' rfl rfl hfd hpoll (fun i hi => absurd hi (hother i))
        (fun _ _ => rfl) fun _ => List.suffix_rfl
    | some i =>
      obtain ⟨fs, hcoming, hrest⟩ :=
        h.absorbed ((hclient i).1.2 rfl) ((hclient i).2 rfl) habsorb
      have honly : ∀ j, s.connection j = .established fd → j = i := fun j hj =>
        (Option.some.inj ((hclient j).1.1 hj)).symm
      refine ⟨Function.update coming i fs, ?_, ?_⟩
      · refine h.served hallowed heffect' rfl rfl hfd hpoll ?_ ?_ ?_
        · intro j hj
          obtain rfl := honly j hj
          rw [Function.update_self, hrest]
        · intro j hj
          have hne : j ≠ i := by
            rintro rfl
            exact hj ((hclient j).1.2 rfl)
          exact Function.update_of_ne hne fs coming
        · intro j
          by_cases hj : j = i
          · subst hj
            rw [Function.update_self]
            exact ⟨_, hcoming⟩
          · rw [Function.update_of_ne hj]
      · intro j
        by_cases hj : j = i
        · subst hj
          rw [if_pos rfl, Function.update_self, hcoming]
        · rw [if_neg fun heq => hj (Option.some.inj heq).symm, Function.update_of_ne hj]
          rfl

end Traffic
