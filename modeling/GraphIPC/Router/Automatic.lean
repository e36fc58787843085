-- SUMMARY: Addresses the router draws itself: when one is zero, or is another client's already.
import GraphIPC.Router.Binding
import Mathlib.Data.Nat.Bitwise

/-!
# Automatic addresses

A request that names no address is given the upper twenty bits of a random number. The
router looks the address up, but only to see whether it needs a new entry: it takes
what it drew, also if that is zero, which stands for no address, or an address that
another client has.
-/

/-- The address that is drawn with a result of `rand()`. -/
def drawAddress (rand : RandResult) : UInt32 := 0xFFFFF000 &&& UInt32.ofNat rand

/-- The lower twelve bits of the random number are cleared. -/
theorem toNat_drawAddress (rand : RandResult) :
    (drawAddress rand).toNat = rand.val / 4096 * 4096 := by
  have hrand : (UInt32.ofNat rand.val).toNat = rand.val :=
    UInt32.toNat_ofNat_of_lt' (rand.isLt.trans (by decide))
  rw [drawAddress, UInt32.toNat_and, hrand]
  apply Nat.eq_of_testBit_eq
  intro k
  have hmask : (0xFFFFF000 : UInt32).toNat = (2 ^ 20 - 1) * 2 ^ 12 := by decide
  rw [hmask, Nat.testBit_and, show 4096 = 2 ^ 12 from rfl, Nat.testBit_mul_two_pow,
    Nat.testBit_mul_two_pow, Nat.testBit_two_pow_sub_one, Nat.testBit_div_two_pow]
  by_cases hlow : 12 ≤ k
  · rw [Nat.sub_add_cancel hlow]
    by_cases hhigh : k < 32
    · simp [hlow, show k - 12 < 20 by omega]
    · have hbit : rand.val.testBit k = false := by
        apply Nat.testBit_lt_two_pow
        exact rand.isLt.trans_le (Nat.pow_le_pow_right (by decide) (by omega))
      simp [hbit]
  · simp [hlow]

theorem drawAddress_ne_zero_iff {rand : RandResult} :
    drawAddress rand ≠ 0 ↔ 4096 ≤ rand.val := by
  rw [Ne, ← UInt32.toNat_inj, toNat_drawAddress, UInt32.toNat_zero]
  omega

/-- A request for an address that names none. -/
def Packet.asksAny (order : ByteOrder) (p : Packet) : Bool :=
  match gnwParseHeader true order p.buffer with
  | .error _ => false
  | .ok (header, payload) =>
    header.type = GNW_COMMAND && header.length ≠ 0 && header.length ≠ 5 &&
      (packetReadU8 payload).map Prod.fst = some GNW_CMD_NEW_ADDRESS

/-- It claims the address that is drawn. -/
theorem Packet.parse_of_asksAny {order : ByteOrder} {p : Packet} (h : p.asksAny order = true) :
    Request.parse order p.buffer p.rand = .ok (.newAddress (drawAddress (p.rand 0))) := by
  unfold asksAny at h
  split at h
  · cases h
  rename_i header payload hparse
  simp only [Bool.and_eq_true, decide_eq_true_eq, Option.map_eq_some_iff] at h
  obtain ⟨⟨⟨htype, hzero⟩, hfive⟩, ⟨directive, next⟩, hread, rfl⟩ := h
  have hpos : 0 < p.buffer.length := by
    rw [List.length_pos_iff]
    intro hnil
    rw [hnil, gnwParseHeader_nil] at hparse
    cases hparse
  simp [Request.parse, hpos, hparse, htype, hzero, hfive, hread, drawAddress]

/-- A reply tells its address. -/
theorem newAddressReply_inj {order : ByteOrder} {fd : Int} {a b : UInt32}
    (h : AddressTable.newAddressReply order fd a = AddressTable.newAddressReply order fd b) :
    a = b := by
  have hbytes := frameBytes_injective order GNW_REPLY 0xFFFFFFFF (congrArg Write.bytes h)
  exact u32Bytes_inj.1 (List.cons.inj hbytes).2

/-! ## The ledger -/

/-- What the history says about connections, with the addresses that were drawn for
    them. -/
structure Ledger where
  registry : Registry
  drawn : List (Nat × UInt32)

namespace Ledger

/-- The address that is drawn in a step, and the connection it is drawn for. -/
def draw (order : ByteOrder) (g : Registry) : Output → List (Nat × UInt32)
  | .handled _ _ _ (some p) _ =>
    if p.asksAny order then
      (g.holder p.fd).toList.map fun conn => (conn, drawAddress (p.rand 0))
    else []
  | _ => []

/-- One step of the router. -/
def observe (order : ByteOrder) (l : Ledger) (o : Output) : Ledger where
  registry := l.registry.observe order o
  drawn := l.drawn ++ draw order l.registry o

/-- What a whole history says. -/
def of (order : ByteOrder) (tr : List (Act × Output)) : Ledger :=
  tr.foldl (fun l e => l.observe order e.2) ⟨.empty, []⟩

@[simp] theorem of_snoc (order : ByteOrder) (tr : List (Act × Output)) (e : Act × Output) :
    of order (tr ++ [e]) = (of order tr).observe order e.2 := by
  simp [of]

@[simp] theorem registry_of (order : ByteOrder) (tr : List (Act × Output)) :
    (of order tr).registry = Registry.of order tr := by
  induction tr using List.reverseRecOn with
  | nil => rfl
  | append_singleton tr e ih => rw [of_snoc, Registry.of_snoc, observe, ih]

/-- A connection has an address if it claimed it last, or if it was drawn for it. -/
def Has (l : Ledger) (conn : Nat) (a : UInt32) : Prop :=
  l.registry.claimant a = some conn ∨ (conn, a) ∈ l.drawn

/-- Another connection that is still there has the address. -/
def Taken (l : Ledger) (conn : Nat) (a : UInt32) : Prop :=
  ∃ other, other ≠ conn ∧ l.registry.Open other ∧ l.Has other a

/-- No address was drawn for two connections that are both still there. -/
def Apart (l : Ledger) : Prop :=
  ∀ conn conn' a, l.registry.Open conn → l.registry.Open conn' →
    (conn, a) ∈ l.drawn → (conn', a) ∈ l.drawn → conn = conn'

/-- A request that names no address is answered with one that is not zero and that no
    other client has. -/
def AnswersFresh (order : ByteOrder) (l : Ledger) : Output → Prop
  | .handled _ _ _ (some p) writes => p.asksAny order = true →
      ∃ conn a, l.registry.holder p.fd = some conn ∧
        writes = [AddressTable.newAddressReply order p.fd a] ∧ a ≠ 0 ∧ ¬l.Taken conn a
  | _ => True

/-- The random number is not below 4096, and the next lower multiple of 4096 is not an
    address that another client has. -/
def DrawsFresh (order : ByteOrder) (l : Ledger) : Output → Prop
  | .handled _ _ _ (some p) _ => p.asksAny order = true →
      4096 ≤ (p.rand 0).val ∧
        ∀ conn other a, l.registry.holder p.fd = some conn → other ≠ conn →
          l.registry.Open other → l.Has other a →
            a.toNat ≠ (p.rand 0).val / 4096 * 4096
  | _ => True

section Steps

variable {c : RouterConfig} {l : Ledger} {s s' : Router c} {act : Act} {o : Output}

theorem mem_draw {order : ByteOrder} {g : Registry} {conn : Nat} {a : UInt32}
    (h : (conn, a) ∈ draw order g o) :
    ∃ fd data discarded p writes, o = .handled fd data discarded (some p) writes ∧
      p.asksAny order = true ∧ g.holder p.fd = some conn ∧ a = drawAddress (p.rand 0) := by
  unfold draw at h
  split at h
  · rename_i fd data discarded p writes
    split at h
    · rename_i hasks
      obtain ⟨conn', hholder, heq⟩ := List.mem_map.1 h
      cases heq
      exact ⟨fd, data, discarded, p, writes, rfl, hasks, Option.mem_toList.1 hholder, rfl⟩
    · cases h
  · cases h

/-- In one step, the answer is fresh just if the draw is. -/
theorem answersFresh_iff (hg : l.registry.Bound s) (h : Router.Effect c s act s' o) :
    AnswersFresh c.order l o ↔ DrawsFresh c.order l o := by
  cases h with
  | nothing => exact Iff.rfl
  | accepted => exact Iff.rfl
  | closed => exact Iff.rfl
  | @handled fd slot pollStruct revents data rand local_ extract call t writes hslot hfd hlive
      hsame hdata habsorb hcall heffect =>
    cases call with
    | none => exact Iff.rfl
    | some p =>
      obtain rfl : p.fd = fd := by
        obtain ⟨packet, -, rfl⟩ := Option.map_eq_some_iff.1 hcall.symm
        rfl
      by_cases hasks : p.asksAny c.order = true
      · obtain ⟨conn, hconn⟩ := hg.live slot hslot (by rw [hfd]; exact hlive)
        rw [hfd] at hconn
        obtain ⟨r, hparse, hperformed⟩ := performed_of_handlePacket heffect
        rw [Packet.parse_of_asksAny hasks] at hparse
        cases hparse
        cases hperformed
        constructor
        · intro hfresh _
          obtain ⟨conn', a, hconn', hwrites, hzero, hfree⟩ := hfresh hasks
          obtain rfl := newAddressReply_inj (List.singleton_inj.1 hwrites)
          refine ⟨drawAddress_ne_zero_iff.1 hzero, ?_⟩
          intro conn'' other a hconn'' hother hopen hhas heq
          obtain rfl := Option.some.inj (hconn'.symm.trans hconn'')
          rw [← toNat_drawAddress] at heq
          obtain rfl := UInt32.toNat_inj.1 heq
          exact hfree ⟨other, hother, hopen, hhas⟩
        · intro hfresh _
          obtain ⟨hzero, hfree⟩ := hfresh hasks
          refine ⟨conn, _, hconn, rfl, drawAddress_ne_zero_iff.2 hzero, ?_⟩
          rintro ⟨other, hother, hopen, hhas⟩
          exact hfree conn other _ hconn hother hopen hhas (toNat_drawAddress _)
      · exact ⟨fun _ h => absurd h hasks, fun _ h => absurd h hasks⟩

/-- A step opens no connection but the next one. -/
theorem open_of_observe {g : Registry} {order : ByteOrder} {conn : Nat}
    (h : (g.observe order o).Open conn) (hlt : conn < g.accepted.length) : g.Open conn := by
  obtain ⟨fd, hfd⟩ := h
  cases o with
  | nothing => exact ⟨fd, hfd⟩
  | accepted fd' =>
    by_cases heq : fd = fd'
    · subst heq
      have hconn : g.accepted.length = conn := by simpa [Registry.observe] using hfd
      omega
    · exact ⟨fd, by simpa [Registry.observe, Function.update_of_ne heq] using hfd⟩
  | closed fd' =>
    by_cases heq : fd = fd'
    · subst heq
      simp [Registry.observe] at hfd
    · exact ⟨fd, by simpa [Registry.observe, Function.update_of_ne heq] using hfd⟩
  | handled fd' data discarded call writes =>
    cases call with
    | none => exact ⟨fd, hfd⟩
    | some p =>
      simp only [Registry.observe, (g.holder_call order p).1] at hfd
      exact ⟨fd, hfd⟩

theorem length_accepted_le (g : Registry) (order : ByteOrder) (o : Output) :
    g.accepted.length ≤ (g.observe order o).accepted.length := by
  cases o with
  | accepted fd => simp [Registry.observe]
  | handled fd data discarded call writes =>
    cases call with
    | none => exact le_refl _
    | some p => simp only [Registry.observe, (g.holder_call order p).2, le_refl]
  | _ => exact le_refl _

/-- Addresses were drawn for connections that have been accepted, and for no two that are
    still there the same. -/
structure Sound (l : Ledger) : Prop where
  accepted : ∀ conn a, (conn, a) ∈ l.drawn → conn < l.registry.accepted.length
  apart : l.Apart

theorem Sound.init : Sound ⟨.empty, []⟩ where
  accepted _ _ h := by cases h
  apart _ _ _ _ _ h := by cases h

/-- A fresh draw keeps the addresses apart. -/
theorem Sound.observe (h : l.Sound) (hg : l.registry.Bound s)
    (hfresh : DrawsFresh c.order l o) : (l.observe c.order o).Sound := by
  have haccepted : ∀ conn a, (conn, a) ∈ (l.observe c.order o).drawn →
      conn < l.registry.accepted.length := by
    intro conn a hmem
    rcases List.mem_append.1 hmem with hmem | hmem
    · exact h.accepted conn a hmem
    · obtain ⟨_, _, _, p, _, -, -, hholder, -⟩ := mem_draw hmem
      exact (List.getElem?_eq_some_iff.1 (hg.held _ _ hholder)).1
  -- nobody else has what is drawn
  have hnew : ∀ conn conn' a, l.registry.Open conn' → (conn, a) ∈ draw c.order l.registry o →
      (conn', a) ∈ l.drawn → conn' = conn := by
    intro conn conn' a hopen hdraw hmem
    obtain ⟨_, _, _, p, _, rfl, hasks, hholder, rfl⟩ := mem_draw hdraw
    by_contra hne
    exact (hfresh hasks).2 conn conn' _ hholder hne hopen (.inr hmem) (toNat_drawAddress _)
  constructor
  · exact fun conn a hmem => (haccepted conn a hmem).trans_le (length_accepted_le ..)
  · intro conn conn' a hopen hopen' hmem hmem'
    have hopen := open_of_observe hopen (haccepted conn a hmem)
    have hopen' := open_of_observe hopen' (haccepted conn' a hmem')
    rcases List.mem_append.1 hmem with hmem | hmem
    · rcases List.mem_append.1 hmem' with hmem' | hmem'
      · exact h.apart conn conn' a hopen hopen' hmem hmem'
      · exact hnew conn' conn a hopen hmem' hmem
    · rcases List.mem_append.1 hmem' with hmem' | hmem'
      · exact (hnew conn conn' a hopen' hmem hmem').symm
      · obtain ⟨_, _, _, p, _, rfl, -, hholder, -⟩ := mem_draw hmem
        obtain ⟨_, _, _, p', _, heq, -, hholder', -⟩ := mem_draw hmem'
        cases heq
        exact Option.some.inj (hholder.symm.trans hholder')

end Steps

end Ledger

/-- In every run, every request that names no address is answered with one that is not
    zero and that no other client has, and no address is ever drawn for two clients that
    are both still there, just if every random number that is drawn is not below 4096
    and names no address that another client has. -/
theorem automatic_fresh_iff {c : RouterConfig} {listenFd : Int} {tr : List (Act × Output)}
    {s : Router c} (h : Router.Run c (Router.init c listenFd) tr s) :
    ((∀ tr₁ e tr₂, tr = tr₁ ++ e :: tr₂ →
        Ledger.AnswersFresh c.order (Ledger.of c.order tr₁) e.2) ∧
      ∀ tr₁ tr₂, tr = tr₁ ++ tr₂ → (Ledger.of c.order tr₁).Apart) ↔
      ∀ tr₁ e tr₂, tr = tr₁ ++ e :: tr₂ →
        Ledger.DrawsFresh c.order (Ledger.of c.order tr₁) e.2 := by
  have hiff : (∀ tr₁ e tr₂, tr = tr₁ ++ e :: tr₂ →
      Ledger.AnswersFresh c.order (Ledger.of c.order tr₁) e.2) ↔
      ∀ tr₁ e tr₂, tr = tr₁ ++ e :: tr₂ →
        Ledger.DrawsFresh c.order (Ledger.of c.order tr₁) e.2 := by
    apply h.forall_iff
    intro tr₁ s₁ act o s₂ hrun _ hstep
    have hg := (Registry.bound_run hrun).2
    rw [← Ledger.registry_of] at hg
    exact Ledger.answersFresh_iff hg (Router.effect_of_step hstep)
  rw [hiff]
  refine ⟨And.left, fun hall => ⟨hall, fun tr₁ tr₂ htr => ?_⟩⟩
  suffices hsound : (Ledger.of c.order tr₁).Sound from hsound.apart
  induction tr₁ using List.reverseRecOn generalizing tr₂ with
  | nil => exact .init
  | append_singleton tr₁ e ih =>
    have hcut : tr = tr₁ ++ e :: tr₂ := by rw [htr, List.append_assoc, List.singleton_append]
    obtain ⟨s₁, hrun, -⟩ := (hcut ▸ h).split
    have hg := (Registry.bound_run hrun).2
    rw [← Ledger.registry_of] at hg
    rw [Ledger.of_snoc]
    exact (ih _ hcut).observe hg (hall tr₁ e tr₂ hcut)

/-- Two clients ask for any address, and `rand()` returns the same number modulo 4096
    apart. -/
def sharedActs : List Act :=
  let ask (slot : Fin MAX_MONITOR_FDS) (rand : RandResult) : Act :=
    .event slot POLLIN (frameBytes .little GNW_COMMAND 0xFFFFFFFF [GNW_CMD_NEW_ADDRESS])
      fun _ => rand
  [.accept (some 4), .accept (some 5), ask 1 0x5123, ask 2 0x5456]

theorem sharedActs_run :
    ∃ tr s, Router.Run smallRouter (Router.init smallRouter 3) tr s ∧
      ¬(Ledger.of .little tr).Apart := by
  have hsim : (Machine.simulate (Router.Allowed smallRouter) (Router.step smallRouter)
      (Router.init smallRouter 3) sharedActs).any (fun r =>
        (Ledger.of .little r.2).drawn = [(0, 0x5000), (1, 0x5000)] &&
        (Ledger.of .little r.2).registry.holder 4 = some 0 &&
        (Ledger.of .little r.2).registry.holder 5 = some 1) = true := by
    decide +kernel
  obtain ⟨tr, s, hrun, hlast⟩ := Machine.Run.exists_of_simulate hsim
  simp only [Bool.and_eq_true, decide_eq_true_eq] at hlast
  obtain ⟨⟨hdrawn, hfirst⟩, hsecond⟩ := hlast
  refine ⟨tr, s, hrun, fun hapart => ?_⟩
  have hsame := hapart 0 1 0x5000 ⟨4, hfirst⟩ ⟨5, hsecond⟩ (by rw [hdrawn]; decide)
    (by rw [hdrawn]; decide)
  exact absurd hsame (by decide)

/-- Both are answered with the same address. -/
theorem automatic_fresh_fails :
    ∃ tr s, Router.Run smallRouter (Router.init smallRouter 3) tr s ∧
      ¬((∀ tr₁ e tr₂, tr = tr₁ ++ e :: tr₂ →
          Ledger.AnswersFresh .little (Ledger.of .little tr₁) e.2) ∧
        ∀ tr₁ tr₂, tr = tr₁ ++ tr₂ → (Ledger.of .little tr₁).Apart) := by
  obtain ⟨tr, s, hrun, hshared⟩ := sharedActs_run
  exact ⟨tr, s, hrun, fun hfresh => hshared (hfresh.2 tr [] (List.append_nil tr).symm)⟩

/-- In that run some draw is not fresh. -/
theorem automatic_fresh_iff_shared :
    ∃ tr s, Router.Run smallRouter (Router.init smallRouter 3) tr s ∧
      ¬∀ tr₁ e tr₂, tr = tr₁ ++ e :: tr₂ →
        Ledger.DrawsFresh .little (Ledger.of .little tr₁) e.2 := by
  obtain ⟨tr, s, hrun, hshared⟩ := sharedActs_run
  refine ⟨tr, s, hrun, fun hdraws => ?_⟩
  have hfresh := (automatic_fresh_iff hrun).2 hdraws
  exact hshared (hfresh.2 tr [] (List.append_nil tr).symm)
