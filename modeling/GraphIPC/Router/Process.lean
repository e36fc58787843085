-- SUMMARY: GraphRouter.c, router_process: the poll list, the connections that come and go, and the steps of the router.
import GraphIPC.Base.Machine
import GraphIPC.Router.HandleEvent

/-!
# The router process

One step of the router is one iteration of the body of its poll loop: a
connection is accepted, or one entry of the poll list that has events is looked
at. The operating system chooses the step. It hands out descriptor numbers that
are not in use, also such as were closed before, and a read returns at most as
many bytes as were asked for.
-/

abbrev MAX_MONITOR_FDS : Nat := 128

instance MAX_MONITOR_FDS.neZero : NeZero MAX_MONITOR_FDS := ⟨by decide⟩

/-- The state of the router between two steps. -/
structure Router (c : RouterConfig) where
  tables : Tables c
  pollList : Fin MAX_MONITOR_FDS → PollFd

/-- The router after it has started to listen. -/
def Router.init (c : RouterConfig) (listenFd : Int) : Router c where
  tables := { addressTable := khInit, localBuffer := Table.empty }
  pollList i := if i = 0 then ⟨listenFd, POLLIN, 0⟩ else ⟨-1, 0, 0⟩

/-- What happens in one step: `accept` returned a descriptor or failed, or the
    poll list has events in a slot, and a read there returns `data`. -/
inductive Act where
  | accept (remoteFd : Option Int)
  | event (slot : Fin MAX_MONITOR_FDS) (revents : UInt16) (data : List UInt8) (rand : Nat → RandResult)

/-- The first entry from the second on that is not monitored. -/
def freeEntry (pollList : Fin MAX_MONITOR_FDS → PollFd) : Option (Fin MAX_MONITOR_FDS) :=
  (List.finRange MAX_MONITOR_FDS).find? fun entry => entry ≠ 0 && (pollList entry).fd = -1

/-- The poll list with one entry replaced. -/
def setEntry (pollList : Fin MAX_MONITOR_FDS → PollFd) (entry : Fin MAX_MONITOR_FDS)
    (pollStruct : PollFd) : Fin MAX_MONITOR_FDS → PollFd :=
  Function.update pollList entry pollStruct

/-- One step of `router_process`. -/
def Router.step (c : RouterConfig) (s : Router c) : Act → Except Fault (Router c × Output)
  | .accept none => .ok (s, .nothing)
  | .accept (some remoteFd) =>
    match freeEntry s.pollList with
    | none => .error .outOfBounds -- the entry behind the last one is looked at
    | some entry =>
      let pollStruct := { s.pollList entry with fd := remoteFd, events := POLLIN }
      .ok ({ s with pollList := setEntry s.pollList entry pollStruct }, .accepted remoteFd)
  | .event slot revents data rand => do
    let pollStruct := { s.pollList slot with revents }
    if slot = 0 ∨ pollStruct.fd = -1 ∨ revents = 0 then
      return (s, .nothing)
    let (tables, pollStruct, output) ←
      if revents &&& POLLHUP = POLLHUP then .ok (dropClient s.tables pollStruct)
      else handleEvent c s.tables pollStruct data rand
    return ({ tables, pollList := setEntry s.pollList slot { pollStruct with revents := 0 } },
      output)

/-- What the operating system may do: it never hands out a descriptor number
    that is in use, and a read fills at most the buffer it was given. -/
def Router.Allowed (c : RouterConfig) (s : Router c) : Act → Prop
  | .accept none => True
  | .accept (some remoteFd) => 0 ≤ remoteFd ∧ ∀ entry, (s.pollList entry).fd ≠ remoteFd
  | .event _ _ data _ => data.length ≤ c.networkMtu

instance (c : RouterConfig) (s : Router c) (act : Act) : Decidable (Router.Allowed c s act) :=
  match act with
  | .accept none => inferInstanceAs (Decidable True)
  | .accept (some _) => inferInstanceAs (Decidable (_ ∧ _))
  | .event _ _ _ _ => inferInstanceAs (Decidable (_ ≤ _))

/-- Runs of the router. -/
abbrev Router.Run (c : RouterConfig) : Router c → List (Act × Output) → Router c → Prop :=
  Machine.Run (Router.Allowed c) (Router.step c)

@[simp] theorem setEntry_self (pollList : Fin MAX_MONITOR_FDS → PollFd)
    (entry : Fin MAX_MONITOR_FDS) (pollStruct : PollFd) :
    setEntry pollList entry pollStruct entry = pollStruct :=
  Function.update_self ..

@[simp] theorem setEntry_of_ne {entry entry' : Fin MAX_MONITOR_FDS} (h : entry' ≠ entry)
    (pollList : Fin MAX_MONITOR_FDS → PollFd) (pollStruct : PollFd) :
    setEntry pollList entry pollStruct entry' = pollList entry' :=
  Function.update_of_ne h ..

/-- An entry that keeps its descriptor changes no descriptor of the list. -/
theorem setEntry_fd {pollList : Fin MAX_MONITOR_FDS → PollFd} {slot : Fin MAX_MONITOR_FDS}
    {pollStruct : PollFd} (h : pollStruct.fd = (pollList slot).fd) (i : Fin MAX_MONITOR_FDS) :
    (setEntry pollList slot pollStruct i).fd = (pollList i).fd := by
  by_cases hi : i = slot
  · rw [hi, setEntry_self, h]
  · rw [setEntry_of_ne hi]

/-- A step that looks at a live entry fails just if the event does. -/
theorem Router.step_error_iff {c : RouterConfig} {s : Router c} {slot : Fin MAX_MONITOR_FDS}
    {revents : UInt16} {data : List UInt8} {rand : Nat → RandResult} {e : Fault}
    (hslot : slot ≠ 0) (hlive : (s.pollList slot).fd ≠ -1) (hrevents : revents ≠ 0)
    (hhup : revents &&& POLLHUP ≠ POLLHUP) :
    Router.step c s (.event slot revents data rand) = .error e ↔
      handleEvent c s.tables { s.pollList slot with revents } data rand = .error e := by
  simp only [step, hslot, hlive, hrevents, hhup, or_self, if_false]
  cases handleEvent c s.tables { s.pollList slot with revents } data rand <;> simp

/-! ## What a step can do -/

/-- The effect of a call of `handle_packet`, if there is one, on the address
    table. -/
def callEffect (order : ByteOrder) (t : AddressTable) : Option Packet →
    Except Fault (AddressTable × List Write)
  | none => .ok (t, [])
  | some p => handlePacket order p.fd p.buffer p.rand t

/-- The steps that do not fail. -/
inductive Router.Effect (c : RouterConfig) (s : Router c) : Act → Router c → Output → Prop where
  | nothing (act : Act) : Effect c s act s .nothing
  | accepted {fd : Int} {entry : Fin MAX_MONITOR_FDS} {pollStruct : PollFd} :
      entry ≠ 0 → (s.pollList entry).fd = -1 → pollStruct.fd = fd →
      Effect c s (.accept (some fd))
        { s with pollList := setEntry s.pollList entry pollStruct } (.accepted fd)
  | closed {act : Act} {fd : Int} {slot : Fin MAX_MONITOR_FDS} {pollStruct : PollFd} :
      slot ≠ 0 → (s.pollList slot).fd = fd → fd ≠ -1 → pollStruct.fd = -1 →
      Effect c s act
        { tables := { s.tables with localBuffer := s.tables.localBuffer.erase fd }
          pollList := setEntry s.pollList slot pollStruct } (.closed fd)
  | handled {fd : Int} {slot : Fin MAX_MONITOR_FDS} {pollStruct : PollFd} {revents : UInt16}
      {data : List UInt8} {rand : Nat → RandResult} {local_ : LocalBuffer c.bufferSize}
      {extract : Extract} {call : Option Packet} {t : AddressTable} {writes : List Write} :
      slot ≠ 0 → (s.pollList slot).fd = fd → fd ≠ -1 → pollStruct.fd = fd → data ≠ [] →
      absorb c (s.tables.buffer fd) data = .ok (local_, extract) →
      call = extract.packet.map (fun packet => { fd, buffer := packet, rand }) →
      callEffect c.order s.tables.addressTable call = .ok (t, writes) →
      Effect c s (.event slot revents data rand)
        { tables := { addressTable := t, localBuffer := s.tables.localBuffer.set fd local_ }
          pollList := setEntry s.pollList slot pollStruct }
        (.handled fd data extract.discarded call writes)

theorem freeEntry_eq_some {pollList : Fin MAX_MONITOR_FDS → PollFd}
    {entry : Fin MAX_MONITOR_FDS} (h : freeEntry pollList = some entry) :
    entry ≠ 0 ∧ (pollList entry).fd = -1 := by
  simpa using List.find?_some h

/-- Every step that does not fail is one of these. -/
theorem Router.effect_of_step {c : RouterConfig} {s s' : Router c} {act : Act} {o : Output}
    (h : Router.step c s act = .ok (s', o)) : Router.Effect c s act s' o := by
  match act with
  | .accept none =>
    cases h
    exact .nothing _
  | .accept (some fd) =>
    simp only [step] at h
    split at h
    · cases h
    · rename_i entry hentry
      cases h
      obtain ⟨hzero, hfree⟩ := freeEntry_eq_some hentry
      exact .accepted hzero hfree rfl
  | .event slot revents data rand =>
    simp only [step] at h
    split at h
    · cases h
      exact .nothing _
    rename_i hlive
    simp only [not_or] at hlive
    obtain ⟨hslot, hfd, -⟩ := hlive
    split at h
    · cases h
      exact .closed hslot rfl hfd rfl
    simp only [handleEvent] at h
    split at h
    · cases h
      exact .closed hslot rfl hfd rfl
    rename_i hread
    simp only [not_or, not_lt] at hread
    have hdata : data ≠ [] := List.length_pos_iff.1 hread.2
    cases habsorb : absorb c (s.tables.buffer (s.pollList slot).fd) data with
    | error e => simp [habsorb] at h
    | ok r =>
      obtain ⟨local_, extract⟩ := r
      simp only [habsorb, Except.ok_bind] at h
      cases hpacket : extract.packet with
      | none =>
        simp only [hpacket, Except.pure_eq_ok, Except.ok_bind, Except.ok.injEq, Prod.mk.injEq] at h
        obtain ⟨rfl, rfl⟩ := h
        exact .handled hslot rfl hfd rfl hdata habsorb (by rw [hpacket]; rfl) rfl
      | some packet =>
        cases hhandle : handlePacket c.order (s.pollList slot).fd packet rand
            s.tables.addressTable with
        | error e => simp [hpacket, hhandle] at h
        | ok r =>
          simp only [hpacket, hhandle, Except.pure_eq_ok, Except.ok_bind, Except.ok.injEq,
            Prod.mk.injEq] at h
          obtain ⟨rfl, rfl⟩ := h
          exact .handled hslot rfl hfd rfl hdata habsorb (by rw [hpacket]; rfl) hhandle

/-! ## The poll list -/

/-- What holds of the poll list and the buffers in every state the router
    reaches: live entries have descriptors of their own, and only they have
    buffers. -/
structure Router.Sound {c : RouterConfig} (s : Router c) : Prop where
  distinct : ∀ i j, (s.pollList i).fd = (s.pollList j).fd → (s.pollList i).fd ≠ -1 → i = j
  buffers : ∀ fd, (s.tables.localBuffer fd).isSome →
    fd ≠ -1 ∧ ∃ i, i ≠ 0 ∧ (s.pollList i).fd = fd

theorem Router.sound_init (c : RouterConfig) (listenFd : Int) : (init c listenFd).Sound where
  distinct := by
    intro i j heq hlive
    by_cases hi : i = 0 <;> by_cases hj : j = 0
    · exact hi.trans hj.symm
    · simp only [init, hi, hj, if_true, if_false] at heq hlive
      exact absurd heq hlive
    · simp [init, hi] at hlive
    · simp [init, hi] at hlive
  buffers := by
    intro fd h
    simp [init, Table.empty] at h

theorem Router.Sound.effect {c : RouterConfig} {s s' : Router c} {act : Act} {o : Output}
    (hs : s.Sound) (hallowed : Router.Allowed c s act) (h : Router.Effect c s act s' o) :
    s'.Sound := by
  cases h with
  | nothing => exact hs
  | @accepted fd entry pollStruct hentry hfree hfd =>
    have hfresh : ∀ i, (s.pollList i).fd ≠ fd := hallowed.2
    constructor
    · intro i j heq hlive
      by_cases hi : i = entry <;> by_cases hj : j = entry
      · rw [hi, hj]
      · subst hi
        simp only [setEntry_self, setEntry_of_ne hj, hfd] at heq
        exact absurd heq.symm (hfresh j)
      · subst hj
        simp only [setEntry_self, setEntry_of_ne hi, hfd] at heq
        exact absurd heq (hfresh i)
      · simp only [setEntry_of_ne hi, setEntry_of_ne hj] at heq hlive
        exact hs.distinct i j heq hlive
    · intro fd' hsome
      obtain ⟨hne, i, hi, hfd'⟩ := hs.buffers fd' hsome
      have hie : i ≠ entry := by
        rintro rfl
        exact hne (hfd'.symm.trans hfree)
      exact ⟨hne, i, hi, by simpa only [setEntry_of_ne hie] using hfd'⟩
  | @closed _ fd slot pollStruct hslot hfd hlive hdead =>
    constructor
    · intro i j heq hi'
      by_cases hi : i = slot <;> by_cases hj : j = slot
      · rw [hi, hj]
      · subst hi
        simp only [setEntry_self] at hi'
        exact absurd hdead hi'
      · subst hj
        simp only [setEntry_self, setEntry_of_ne hi] at heq hi'
        exact absurd (heq.trans hdead) hi'
      · simp only [setEntry_of_ne hi, setEntry_of_ne hj] at heq hi'
        exact hs.distinct i j heq hi'
    · intro fd' hsome
      have hne : fd' ≠ fd := by
        rintro rfl
        simp at hsome
      simp only [Table.erase_of_ne hne] at hsome
      obtain ⟨hne', i, hi, hfd'⟩ := hs.buffers fd' hsome
      have his : i ≠ slot := by
        rintro rfl
        exact hne (hfd'.symm.trans hfd)
      exact ⟨hne', i, hi, by simpa only [setEntry_of_ne his] using hfd'⟩
  | @handled fd slot pollStruct _ _ _ local_ _ _ _ _ hslot hfd hlive hsame _ _ _ _ =>
    have hkeep := setEntry_fd (hsame.trans hfd.symm)
    constructor
    · intro i j heq hi'
      simp only [hkeep] at heq hi'
      exact hs.distinct i j heq hi'
    · intro fd' hsome
      by_cases hne : fd' = fd
      · subst hne
        exact ⟨hlive, slot, hslot, by rw [hkeep, hfd]⟩
      · simp only [Table.set_of_ne hne] at hsome
        obtain ⟨hne', i, hi, hfd'⟩ := hs.buffers fd' hsome
        exact ⟨hne', i, hi, by rw [hkeep, hfd']⟩

/-- The poll list is sound in every state the router reaches. -/
theorem Router.Sound.run {c : RouterConfig} {s₀ s : Router c} {tr : List (Act × Output)}
    (hs₀ : s₀.Sound) (h : Router.Run c s₀ tr s) : s.Sound := by
  refine Machine.Run.induct (P := fun _ s => s.Sound) hs₀ ?_ h
  intro _ _ _ _ _ _ hs hallowed hstep
  exact hs.effect hallowed (effect_of_step hstep)

/-! ## A router to run -/

/-- A router with an MTU of 32 bytes. -/
def smallRouter : RouterConfig where
  order := .little
  networkMtu := 32
  malloc _ := 0
  networkMtu_pos := by decide
  networkMtu_lt := by decide
