-- SUMMARY: Which connection a forwarded copy reaches, when descriptor numbers are handed out again.
import GraphIPC.Router.Control
import GraphIPC.Router.Process

/-!
# Bindings and connections

An address is bound to the descriptor number of the connection that claimed it
last. The number outlives the connection: neither way of dropping a client
looks at the bindings, and the operating system hands the number out again. The
history of the router tells which connection a number stands for and which
connection claimed an address; a copy reaches the right one just if the claimant
is still there.
-/

/-- What the history says about connections, which are numbered in the order
    they were accepted. -/
structure Registry where
  /-- The descriptor each connection was accepted with. -/
  accepted : List Int
  /-- The connection a descriptor number stands for now. -/
  holder : Int → Option Nat
  /-- The connection that claimed an address last. -/
  claimant : UInt32 → Option Nat

namespace Registry

/-- Before any connection. -/
def empty : Registry where
  accepted := []
  holder _ := none
  claimant _ := none

/-- A frame that was passed to `handle_packet` may be a claim. -/
def call (order : ByteOrder) (g : Registry) (p : Packet) : Registry :=
  match Request.parse order p.buffer p.rand with
  | .ok (.newAddress address) =>
    { g with claimant := Function.update g.claimant address (g.holder p.fd) }
  | _ => g

/-- One step of the router. -/
def observe (order : ByteOrder) (g : Registry) : Output → Registry
  | .nothing => g
  | .accepted fd =>
    { g with
      accepted := g.accepted ++ [fd]
      holder := Function.update g.holder fd (some g.accepted.length) }
  | .closed fd => { g with holder := Function.update g.holder fd none }
  | .handled _ _ _ none _ => g
  | .handled _ _ _ (some p) _ => g.call order p

/-- What a whole history says. -/
def of (order : ByteOrder) (tr : List (Act × Output)) : Registry :=
  tr.foldl (fun g e => g.observe order e.2) empty

@[simp] theorem of_snoc (order : ByteOrder) (tr : List (Act × Output)) (e : Act × Output) :
    of order (tr ++ [e]) = (of order tr).observe order e.2 := by
  simp [of]

/-- The connection is still there. -/
def Open (g : Registry) (conn : Nat) : Prop := ∃ fd, g.holder fd = some conn

end Registry

/-- Every copy made in a step is written to an open connection that is itself the
    latest claimant of the address the copy is for. -/
def Delivered (g : Registry) : Output → Prop
  | .handled _ _ _ _ writes => ∀ w ∈ writes, ∀ target, w.target = some target →
      ∃ conn, g.holder w.fd = some conn ∧ g.claimant target = some conn
  | _ => True

/-- If a data frame is handled in a step, then each known target that the policy
    of its source selects has been claimed, and its latest claimant is still
    connected. -/
def TargetsConnected (order : ByteOrder) (g : Registry) (t : AddressTable) : Output → Prop
  | .handled _ _ _ (some p) _ => ∀ source entry targets,
      Request.parse order p.buffer p.rand = .ok (.data source) → t source = some entry →
      (entry.countIn p.buffer.length).targets p.rand = .ok targets →
      ∀ target ∈ targets, (t target).isSome →
        ∃ conn, g.claimant target = some conn ∧ g.Open conn
  | _ => True

/-! ## The invariant -/

/-- What one call of `handle_packet` does to the bindings. -/
structure Rebound (t t' : AddressTable) (claims : UInt32 → Bool) (fd : Int) : Prop where
  known : ∀ a, (t a).isSome ∨ claims a → (t' a).isSome
  boundFd : ∀ a, (t'.context a).boundFd = if claims a then fd else (t.context a).boundFd

theorem Rebound.refl (t : AddressTable) (fd : Int) : Rebound t t (fun _ => false) fd where
  known a h := by simpa using h
  boundFd _ := rfl

/-- Setting the context of one address. -/
theorem Rebound.set {t : AddressTable} {a : UInt32} {entry : Context} {claims : UInt32 → Bool}
    {fd : Int} (hclaims : ∀ b, b ≠ a → claims b = false)
    (hentry : entry.boundFd = if claims a then fd else (t.context a).boundFd) :
    Rebound t (t.set a entry) claims fd := by
  constructor
  · intro b hb
    by_cases hba : b = a
    · subst hba; simp
    · simpa [Table.set_of_ne hba, hclaims b hba] using hb
  · intro b
    by_cases hba : b = a
    · subst hba; simpa [AddressTable.context] using hentry
    · simp [AddressTable.context, Table.set_of_ne hba, hclaims b hba]

theorem Performed.rebound {order : ByteOrder} {fd : Int} {buffer : List UInt8}
    {rand : Nat → RandResult} {t t' : AddressTable} {r : Request} {writes : List Write}
    (h : Performed order fd buffer rand t r t' writes) :
    Rebound t t' (fun a => r.claims a) fd := by
  cases h with
  | claimed address =>
    refine Rebound.set (fun b hb => ?_) (by simp [Request.claims])
    simp [Request.claims, Ne.symm hb]
  | connected source target => exact Rebound.set (fun _ _ => rfl) rfl
  | policySet htarget =>
    refine Rebound.set (fun _ _ => rfl) ?_
    simp [Request.claims, t.context_of_some htarget]
  | policyIgnored => exact Rebound.refl t fd
  | @forwarded source entry targets hsource htargets =>
    have hcredit := AddressTable.credit_set_countIn hsource buffer.length targets
    constructor
    · intro a ha
      simpa [hcredit a, Request.claims] using ha
    · intro a
      cases hta : t a with
      | none => simp [AddressTable.context, hcredit a, hta, Request.claims]
      | some c =>
        simp only [AddressTable.context, hcredit a, hta, Option.map_some, Option.getD_some,
          Request.claims]
        split <;> rfl
  | dropped => exact Rebound.refl t fd
  | unhandled => exact Rebound.refl t fd

/-- How the registry and the state of the router belong together. -/
structure Registry.Bound {c : RouterConfig} (g : Registry) (s : Router c) : Prop where
  held : ∀ fd conn, g.holder fd = some conn → g.accepted[conn]? = some fd
  live : ∀ i, i ≠ 0 → (s.pollList i).fd ≠ -1 → ∃ conn, g.holder (s.pollList i).fd = some conn
  claimed : ∀ a conn, g.claimant a = some conn → (s.tables.addressTable a).isSome ∧
    g.accepted[conn]? = some (s.tables.addressTable.context a).boundFd
  unclaimed : ∀ a, g.claimant a = none → (s.tables.addressTable.context a).boundFd = -1

theorem Registry.bound_init (c : RouterConfig) (listenFd : Int) :
    Registry.empty.Bound (Router.init c listenFd) where
  held := by simp [empty]
  live := by
    intro i hi hlive
    simp [Router.init, hi] at hlive
  claimed := by simp [empty]
  unclaimed _ _ := rfl

section Steps

variable {c : RouterConfig} {g : Registry} {s : Router c} (hg : g.Bound s)
include hg

/-- A new connection takes the next number, and its descriptor stands for it. -/
theorem Registry.Bound.accepted {fd : Int} {entry : Fin MAX_MONITOR_FDS} {pollStruct : PollFd}
    (hallowed : Router.Allowed c s (.accept (some fd))) (hfd : pollStruct.fd = fd) :
    (g.observe c.order (.accepted fd)).Bound
      { s with pollList := setEntry s.pollList entry pollStruct } := by
  have hgrow : ∀ (conn : Nat) (fd' : Int), g.accepted[conn]? = some fd' →
      (g.accepted ++ [fd])[conn]? = some fd' := by
    intro conn fd' hconn
    rw [List.getElem?_append_left (List.getElem?_eq_some_iff.1 hconn).1, hconn]
  constructor
  · intro fd' conn hholder
    by_cases hne : fd' = fd
    · subst hne
      obtain rfl : g.accepted.length = conn := by simpa [observe] using hholder
      simp [observe]
    · simp only [observe, Function.update_of_ne hne] at hholder
      exact hgrow _ _ (hg.held fd' conn hholder)
  · intro i hi hlive
    by_cases hie : i = entry
    · subst hie
      exact ⟨g.accepted.length, by simp [observe, hfd]⟩
    · simp only [setEntry_of_ne hie] at hlive ⊢
      have hne : (s.pollList i).fd ≠ fd := hallowed.2 i
      obtain ⟨conn, hconn⟩ := hg.live i hi hlive
      exact ⟨conn, by simp only [observe, Function.update_of_ne hne, hconn]⟩
  · intro a conn hconn
    obtain ⟨hknown, hbound⟩ := hg.claimed a conn hconn
    exact ⟨hknown, hgrow _ _ hbound⟩
  · exact hg.unclaimed

/-- The descriptor of a dropped connection stands for none, and no other entry has it. -/
theorem Registry.Bound.closed (hs : s.Sound) {fd : Int} {slot : Fin MAX_MONITOR_FDS}
    {pollStruct : PollFd} {localBuffer : Table Int (LocalBuffer c.bufferSize)}
    (hfd : (s.pollList slot).fd = fd) (hdead : pollStruct.fd = -1) :
    (g.observe c.order (.closed fd)).Bound
      { tables := { s.tables with localBuffer }
        pollList := setEntry s.pollList slot pollStruct } := by
  constructor
  · intro fd' conn hholder
    by_cases hne : fd' = fd
    · subst hne
      simp [observe] at hholder
    · simp only [observe, Function.update_of_ne hne] at hholder
      exact hg.held fd' conn hholder
  · intro i hi hlive
    by_cases his : i = slot
    · subst his
      simp only [setEntry_self] at hlive
      exact absurd hdead hlive
    · simp only [setEntry_of_ne his] at hlive ⊢
      have hne : (s.pollList i).fd ≠ fd := by
        intro heq
        exact his (hs.distinct i slot (heq.trans hfd.symm) hlive)
      obtain ⟨conn, hconn⟩ := hg.live i hi hlive
      exact ⟨conn, by simp only [observe, Function.update_of_ne hne, hconn]⟩
  · exact hg.claimed
  · exact hg.unclaimed

omit hg in
/-- A frame makes the connection it came on the claimant of the addresses it claims. -/
theorem Registry.claimant_call {order : ByteOrder} {p : Packet} {r : Request} {conn : Nat}
    (hparse : Request.parse order p.buffer p.rand = .ok r) (hconn : g.holder p.fd = some conn)
    (a : UInt32) :
    (g.call order p).claimant a = if r.claims a then some conn else g.claimant a := by
  cases r with
  | newAddress address =>
    by_cases ha : a = address
    · subst ha
      simp [call, hparse, Request.claims, hconn]
    · simp [call, hparse, Request.claims, Function.update_of_ne ha, Ne.symm ha]
  | _ => simp [call, hparse, Request.claims]

omit hg in
theorem Registry.holder_call (order : ByteOrder) (p : Packet) :
    (g.call order p).holder = g.holder ∧ (g.call order p).accepted = g.accepted := by
  rw [call]
  split <;> exact ⟨rfl, rfl⟩

/-- A frame on a connection claims for this connection. -/
theorem Registry.Bound.called {s' : Router c} {p : Packet} {r : Request} {conn : Nat}
    {writes : List Write} (hconn : g.holder p.fd = some conn)
    (hparse : Request.parse c.order p.buffer p.rand = .ok r)
    (hperformed : Performed c.order p.fd p.buffer p.rand s.tables.addressTable r
      s'.tables.addressTable writes)
    (hlive : ∀ i, i ≠ 0 → (s'.pollList i).fd ≠ -1 →
      ∃ conn, g.holder (s'.pollList i).fd = some conn) :
    (g.call c.order p).Bound s' := by
  obtain ⟨hknown, hbound⟩ := hperformed.rebound
  obtain ⟨hholder, haccepted⟩ := g.holder_call c.order p
  constructor
  · rw [hholder, haccepted]
    exact hg.held
  · rw [hholder]
    exact hlive
  · intro a conn' ha
    rw [g.claimant_call hparse hconn] at ha
    rw [haccepted, hbound a]
    split at ha
    · rename_i hclaims
      cases ha
      rw [if_pos hclaims]
      exact ⟨hknown a (.inr hclaims), hg.held _ _ hconn⟩
    · rename_i hclaims
      obtain ⟨hsome, hclaimed⟩ := hg.claimed a conn' ha
      rw [if_neg hclaims]
      exact ⟨hknown a (.inl hsome), hclaimed⟩
  · intro a ha
    rw [g.claimant_call hparse hconn] at ha
    rw [hbound a]
    split at ha
    · cases ha
    · rename_i hclaims
      rw [if_neg hclaims]
      exact hg.unclaimed a ha

/-- A step keeps registry and state together. -/
theorem Registry.Bound.effect {s' : Router c} {act : Act} {o : Output} (hs : s.Sound)
    (hallowed : Router.Allowed c s act) (h : Router.Effect c s act s' o) :
    (g.observe c.order o).Bound s' := by
  cases h with
  | nothing => exact hg
  | accepted _ _ hfd => exact hg.accepted hallowed hfd
  | closed _ hfd _ hdead => exact hg.closed hs hfd hdead
  | @handled fd slot pollStruct revents data rand local_ extract call t writes hslot hfd hlive
      hsame hdata habsorb hcall heffect =>
    have hlive' : ∀ i, i ≠ 0 → (setEntry s.pollList slot pollStruct i).fd ≠ -1 →
        ∃ conn, g.holder (setEntry s.pollList slot pollStruct i).fd = some conn := by
      intro i hi
      rw [setEntry_fd (hsame.trans hfd.symm)]
      exact hg.live i hi
    cases call with
    | none =>
      cases heffect
      exact ⟨hg.held, hlive', hg.claimed, hg.unclaimed⟩
    | some p =>
      obtain rfl : p.fd = fd := by
        obtain ⟨packet, -, rfl⟩ := Option.map_eq_some_iff.1 hcall.symm
        rfl
      obtain ⟨r, hparse, hperformed⟩ := performed_of_handlePacket heffect
      obtain ⟨conn, hconn⟩ := hg.live slot hslot (by rw [hfd]; exact hlive)
      rw [hfd] at hconn
      exact hg.called hconn hparse hperformed hlive'

end Steps

/-- The registry of the history belongs to the state in every run. -/
theorem Registry.bound_run {c : RouterConfig} {listenFd : Int} {tr : List (Act × Output)}
    {s : Router c} (h : Router.Run c (Router.init c listenFd) tr s) :
    s.Sound ∧ (Registry.of c.order tr).Bound s := by
  refine Machine.Run.induct (P := fun tr s => s.Sound ∧ (Registry.of c.order tr).Bound s)
    ⟨Router.sound_init c listenFd, Registry.bound_init c listenFd⟩ ?_ h
  rintro tr s act o s' - ⟨hs, hg⟩ hallowed hstep
  have heffect := Router.effect_of_step hstep
  rw [Registry.of_snoc]
  exact ⟨hs.effect hallowed heffect, hg.effect hs hallowed heffect⟩

/-! ## Where copies go -/

/-- In one step, the copies reach the latest claimants just if those are still
    connected. -/
theorem Registry.Bound.delivered_step {c : RouterConfig} {g : Registry} {s s' : Router c}
    {act : Act} {o : Output} (hg : g.Bound s) (h : Router.Effect c s act s' o) :
    Delivered g o ↔ TargetsConnected c.order g s.tables.addressTable o := by
  cases h with
  | nothing => exact Iff.rfl
  | accepted => exact Iff.rfl
  | closed => exact Iff.rfl
  | @handled fd slot pollStruct revents data rand local_ extract call t writes _ _ _ _ _ _ _
      heffect =>
    cases call with
    | none =>
      cases heffect
      simp [Delivered, TargetsConnected]
    | some p =>
      obtain ⟨r, hparse, hperformed⟩ := performed_of_handlePacket heffect
      cases hperformed with
      | @forwarded source entry targets hsource htargets =>
        -- a copy for a known target goes to the descriptor it is bound to
        have hcopy : ∀ target ∈ targets, ∀ c', s.tables.addressTable target = some c' →
            ((∃ conn, g.holder c'.boundFd = some conn ∧ g.claimant target = some conn) ↔
              ∃ conn, g.claimant target = some conn ∧ g.Open conn) := by
          intro target _ c' hc'
          constructor
          · rintro ⟨conn, hholder, hclaimant⟩
            exact ⟨conn, hclaimant, _, hholder⟩
          · rintro ⟨conn, hclaimant, fd', hholder⟩
            have haccepted := (hg.claimed target conn hclaimant).2
            rw [AddressTable.context_of_some hc', hg.held fd' conn hholder] at haccepted
            obtain rfl := Option.some.inj haccepted
            exact ⟨conn, hholder, hclaimant⟩
        constructor
        · intro hdelivered source' entry' targets' hparse' hsource' htargets' target htarget hknown
          rw [hparse] at hparse'
          cases hparse'
          rw [hsource] at hsource'
          cases hsource'
          rw [htargets] at htargets'
          cases htargets'
          obtain ⟨c', hc'⟩ := Option.isSome_iff_exists.1 hknown
          have hw : { fd := c'.boundFd, bytes := p.buffer, target := some target } ∈
              targets.filterMap (s.tables.addressTable.copyTo p.buffer) :=
            List.mem_filterMap.2 ⟨target, htarget, by simp [AddressTable.copyTo, hc']⟩
          exact (hcopy target htarget c' hc').1 (hdelivered _ hw target rfl)
        · intro hconnected w hw target hwtarget
          obtain ⟨target', htarget, hcopied⟩ := List.mem_filterMap.1 hw
          obtain ⟨c', hc', rfl⟩ := Option.map_eq_some_iff.1 hcopied
          obtain rfl : target' = target := by simpa using hwtarget
          exact (hcopy target' htarget c' hc').2
            (hconnected source entry targets hparse hsource htargets target' htarget (by simp [hc']))
      | dropped hsource =>
        refine ⟨fun _ source entry targets hparse' hentry => ?_, fun _ => by simp [Delivered]⟩
        rw [hparse] at hparse'
        cases hparse'
        rw [hsource] at hentry
        cases hentry
      | claimed address =>
        simp [Delivered, TargetsConnected, hparse, AddressTable.newAddressReply]
      | _ => simp [Delivered, TargetsConnected, hparse]

/-- In every run, every copy reaches an open connection that is the latest
    claimant of the address it is for, just if no copy is ever made for an address
    that nobody claimed or whose latest claimant has left. -/
theorem delivered_iff {c : RouterConfig} {listenFd : Int} {tr : List (Act × Output)}
    {s : Router c} (h : Router.Run c (Router.init c listenFd) tr s) :
    (∀ tr₁ e tr₂, tr = tr₁ ++ e :: tr₂ → Delivered (Registry.of c.order tr₁) e.2) ↔
      ∀ tr₁ e tr₂ s₁, tr = tr₁ ++ e :: tr₂ → Router.Run c (Router.init c listenFd) tr₁ s₁ →
        TargetsConnected c.order (Registry.of c.order tr₁) s₁.tables.addressTable e.2 := by
  -- the equivalence holds of every single step
  have hstep : ∀ tr₁ act o tr₂ s₁, tr = tr₁ ++ (act, o) :: tr₂ →
      Router.Run c (Router.init c listenFd) tr₁ s₁ →
      (Delivered (Registry.of c.order tr₁) o ↔
        TargetsConnected c.order (Registry.of c.order tr₁) s₁.tables.addressTable o) := by
    rintro tr₁ act o tr₂ s₁ rfl hrun₁
    have hcut : tr₁ ++ (act, o) :: tr₂ = (tr₁ ++ [(act, o)]) ++ tr₂ := by simp
    rw [hcut] at h
    obtain ⟨s₂, hrun₂, -⟩ := h.split
    obtain ⟨s₁', hrun₁', -, hs₂⟩ := hrun₂.snoc_inv
    obtain rfl := hrun₁.unique hrun₁'
    exact (Registry.bound_run hrun₁).2.delivered_step (Router.effect_of_step hs₂)
  constructor
  · rintro hall tr₁ ⟨act, o⟩ tr₂ s₁ htr hrun₁
    exact (hstep tr₁ act o tr₂ s₁ htr hrun₁).1 (hall tr₁ _ tr₂ htr)
  · rintro hall tr₁ ⟨act, o⟩ tr₂ htr
    obtain ⟨s₁, hrun₁, -⟩ := (htr ▸ h).split
    exact (hstep tr₁ act o tr₂ s₁ htr hrun₁).2 (hall tr₁ _ tr₂ s₁ htr hrun₁)

/-- A client claims address 5 and hangs up. The next client is given the same
    descriptor number, connects 9 to 5 and sends data from 9: it gets the copy
    that is for 5. -/
def reuseActs : List Act :=
  let command (payload : List UInt8) : Act :=
    .event 1 POLLIN (frameBytes .little GNW_COMMAND 0xFFFFFFFF payload) fun _ => 0
  [.accept (some 4), command (GNW_CMD_NEW_ADDRESS :: u32Bytes .little 5),
    .event 1 (POLLIN ||| POLLHUP) [] fun _ => 0, .accept (some 4),
    command (GNW_CMD_CONNECT :: (u32Bytes .little 9 ++ u32Bytes .little 5)),
    .event 1 POLLIN (frameBytes .little GNW_DATA 9 [0x41]) fun _ => 0]

/-- The write of a step that made just one. -/
def Output.onlyWrite : Output → Option Write
  | .handled _ _ _ _ [w] => some w
  | _ => none

theorem Output.eq_of_onlyWrite {o : Output} {w : Write} (h : o.onlyWrite = some w) :
    ∃ fd data discarded call, o = .handled fd data discarded call [w] := by
  unfold onlyWrite at h
  split at h
  · cases h
    exact ⟨_, _, _, _, rfl⟩
  · cases h

theorem reuseActs_run :
    ∃ tr s, Router.Run smallRouter (Router.init smallRouter 3) tr s ∧
      ∃ act fd data discarded call w, tr.getLast? = some (act, .handled fd data discarded call [w]) ∧
        w.fd = 4 ∧ w.target = some 5 ∧ (Registry.of .little tr.dropLast).holder 4 = some 1 ∧
        (Registry.of .little tr.dropLast).claimant 5 = some 0 := by
  have hsim : (Machine.simulate (Router.Allowed smallRouter) (Router.step smallRouter)
      (Router.init smallRouter 3) reuseActs).any (fun r =>
        (r.2.getLast?.bind fun e => e.2.onlyWrite) =
          some ⟨4, frameBytes .little GNW_DATA 9 [0x41], some 5⟩ &&
        (Registry.of .little r.2.dropLast).holder 4 = some 1 &&
        (Registry.of .little r.2.dropLast).claimant 5 = some 0) = true := by
    decide +kernel
  obtain ⟨tr, s, hrun, hlast⟩ := Machine.Run.exists_of_simulate hsim
  simp only [Bool.and_eq_true, decide_eq_true_eq] at hlast
  obtain ⟨⟨hwrite, hholder⟩, hclaimant⟩ := hlast
  obtain ⟨⟨act, o⟩, he, hw⟩ := Option.bind_eq_some_iff.1 hwrite
  obtain ⟨fd, data, discarded, call, rfl⟩ := Output.eq_of_onlyWrite hw
  exact ⟨tr, s, hrun, act, fd, data, discarded, call, _, he, rfl, rfl, hholder, hclaimant⟩

/-- A copy that a client gets for an address it never claimed. -/
theorem delivered_fails :
    ∃ tr s, Router.Run smallRouter (Router.init smallRouter 3) tr s ∧
      ¬∀ tr₁ e tr₂, tr = tr₁ ++ e :: tr₂ → Delivered (Registry.of .little tr₁) e.2 := by
  obtain ⟨tr, s, hrun, act, fd, data, discarded, call, w, hw, hfd, htarget, hholder,
    hclaimant⟩ := reuseActs_run
  refine ⟨tr, s, hrun, fun hall => ?_⟩
  have htr := List.dropLast_append_getLast? _ hw
  obtain ⟨conn, hholder', hclaimant'⟩ := hall _ _ [] htr.symm w (by simp) 5 htarget
  rw [hfd, hholder] at hholder'
  rw [hclaimant, ← hholder'] at hclaimant'
  cases hclaimant'

/-- In that run some target has lost its latest claimant. -/
theorem delivered_iff_reuse :
    ∃ tr s, Router.Run smallRouter (Router.init smallRouter 3) tr s ∧
      ¬∀ tr₁ e tr₂ s₁, tr = tr₁ ++ e :: tr₂ →
        Router.Run smallRouter (Router.init smallRouter 3) tr₁ s₁ →
        TargetsConnected .little (Registry.of .little tr₁) s₁.tables.addressTable e.2 := by
  obtain ⟨tr, s, hrun, act, fd, data, discarded, call, w, hw, hfd, htarget, hholder,
    hclaimant⟩ := reuseActs_run
  refine ⟨tr, s, hrun, fun hall => ?_⟩
  have htr := List.dropLast_append_getLast? _ hw
  have hdelivered : ∀ tr₁ e tr₂, tr = tr₁ ++ e :: tr₂ →
      Delivered (Registry.of .little tr₁) e.2 := (delivered_iff hrun).2 hall
  obtain ⟨conn, hholder', hclaimant'⟩ := hdelivered _ _ [] htr.symm w (by simp) 5 htarget
  rw [hfd, hholder] at hholder'
  rw [hclaimant, ← hholder'] at hclaimant'
  cases hclaimant'
