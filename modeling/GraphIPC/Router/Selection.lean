-- SUMMARY: When the target selection of a data frame divides by zero, in terms of the commands handled before.
import GraphIPC.Router.Control

/-!
# The target selection

Two policies divide by the length of the forward list. The list is built by one
command and the policy is set by another, and nothing orders the two: an address
that was claimed and given such a policy has no list yet. Its next data frame is
not dropped, as it is under the third policy, but ends the router.
-/

/-! ## Histories of calls -/

/-- The router handles frames one after the other, whatever they hold. -/
abbrev ServeRun (order : ByteOrder) :
    AddressTable → List (Packet × List Write) → AddressTable → Prop :=
  Machine.Run (fun _ _ => True) (serve order)

/-- The request of a frame, with the descriptor it came in on. -/
def Packet.request (order : ByteOrder) (p : Packet) : Option (Int × Request) :=
  (Request.parse order p.buffer p.rand).toOption.map fun r => (p.fd, r)

/-- The requests that were handled. -/
def requests (order : ByteOrder) (tr : List (Packet × List Write)) : History :=
  tr.filterMap fun e => e.1.request order

/-- Whatever frames were handled, the table holds what their requests determine. -/
theorem ServeRun.refines {order : ByteOrder} {tr : List (Packet × List Write)} {t : AddressTable}
    (h : ServeRun order AddressTable.empty tr t) : (requests order tr).Refines t := by
  refine Machine.Run.induct (P := fun tr t => (requests order tr).Refines t) .nil ?_ h
  intro tr t p writes t' _ ht _ hserve
  obtain ⟨r, hparse, hperformed⟩ := performed_of_handlePacket hserve
  have hrequest : requests order (tr ++ [(p, writes)]) = requests order tr ++ [(p.fd, r)] := by
    simp [requests, Packet.request, hparse, Except.toOption]
  rw [hrequest]
  exact ht.performed hperformed

/-! ## The selection -/

/-- A policy that takes a remainder by the length of the forward list. -/
def Divides (policy : Int) : Prop := policy = GNW_POLICY_ANYCAST ∨ policy = GNW_POLICY_ROUNDROBIN

instance (policy : Int) : Decidable (Divides policy) := inferInstanceAs (Decidable (_ ∨ _))

/-- Without targets such a policy divides by zero. -/
theorem Context.targets_of_divides {rand : Nat → RandResult} {entry : Context}
    (hpolicy : Divides entry.forwardPolicy) (hforward : entry.forward = []) :
    entry.targets rand = .error .divisionByZero := by
  unfold targets
  rcases hpolicy with hpolicy | hpolicy
  · simp [hpolicy, hforward, policies_distinct, remainder]
  · simp [hpolicy, hforward, policies_distinct, remainder]

/-- What is asked of the selection for a frame from `source`: it does not divide by
    zero or read outside the list, and without a list the frame is dropped. -/
structure SelectsSafely (order : ByteOrder) (t : AddressTable) (p : Packet) (source : UInt32) :
    Prop where
  divisor : serve order t p ≠ .error .divisionByZero
  index : serve order t p ≠ .error .outOfBounds
  drops : (t.context source).forward = [] → ∃ t', serve order t p = .ok (t', [])

/-- A frame that is served without copies where there is no list is served safely. -/
theorem SelectsSafely.of_ok {order : ByteOrder} {t t' : AddressTable} {p : Packet}
    {source : UInt32} {writes : List Write} (h : serve order t p = .ok (t', writes))
    (hdrops : (t.context source).forward = [] → writes = []) :
    SelectsSafely order t p source where
  divisor := by simp [h]
  index := by simp [h]
  drops hforward := ⟨t', by rw [h, hdrops hforward]⟩

/-- A data frame is forwarded by its source. -/
theorem serve_data {order : ByteOrder} {p : Packet} {header : Header} {payload : List UInt8}
    (hparse : gnwParseHeader true order p.buffer = .ok (header, payload))
    (htype : header.type = GNW_DATA) (t : AddressTable) :
    serve order t p = forwardData p.buffer header.source p.rand t := by
  rw [serve, handlePacket_eq, Request.parse_data p.rand hparse htype]
  rfl

/-- The selection for a data frame is safe just if no policy that divides was asked
    for a source that nobody connected to anything. -/
theorem selects_safely_iff {order : ByteOrder} {tr : List (Packet × List Write)}
    {t : AddressTable} {p : Packet} {header : Header} {payload : List UInt8}
    (hrun : ServeRun order AddressTable.empty tr t)
    (hparse : gnwParseHeader true order p.buffer = .ok (header, payload))
    (htype : header.type = GNW_DATA) :
    SelectsSafely order t p header.source ↔
      (Divides ((requests order tr).policy header.source) →
        (requests order tr).forward header.source ≠ []) := by
  have ht := hrun.refines
  have hserve := serve_data hparse htype t
  cases hsource : t header.source with
  | none =>
    rw [AddressTable.forwardData_of_none hsource] at hserve
    have hknown : (requests order tr).known header.source = false := by
      rw [← ht.known, hsource]
      rfl
    have hpolicy : (requests order tr).policy header.source = GNW_POLICY_BROADCAST := by
      rw [History.policy, History.policies, History.dropWhile_of_not_known hknown]
      rfl
    refine ⟨fun _ hdivides => ?_, fun _ => .of_ok hserve fun _ => rfl⟩
    rw [hpolicy] at hdivides
    exact absurd hdivides (by decide)
  | some entry =>
    rw [AddressTable.forwardData_of_some hsource] at hserve
    rw [← ht.policy _ entry hsource, ← ht.forward _ entry hsource]
    constructor
    · intro hsafe hdivides hforward
      have htargets : (entry.countIn p.buffer.length).targets p.rand = .error .divisionByZero :=
        Context.targets_of_divides hdivides hforward
      rw [htargets] at hserve
      exact hsafe.divisor hserve
    · intro hcond
      obtain ⟨targets, htargets, -⟩ : ∃ targets,
          (entry.countIn p.buffer.length).targets p.rand = .ok targets ∧
          (entry.countIn p.buffer.length).Selects targets := Context.targets_selects p.rand hcond
      rw [htargets] at hserve
      refine .of_ok hserve fun hforward => ?_
      rw [t.context_of_some hsource] at hforward
      have hsubset : targets ⊆ (entry.countIn p.buffer.length).forward :=
        Context.targets_subset htargets
      change targets ⊆ entry.forward at hsubset
      rw [hforward, List.subset_nil] at hsubset
      rw [hsubset]
      rfl

/-! ## Two runs -/

/-- A claim of address 5 and a policy for it. -/
def claimAndPolicy (policy : UInt8) : List Packet :=
  let command (payload : List UInt8) : Packet :=
    ⟨4, frameBytes .little GNW_COMMAND 0xFFFFFFFF payload, fun _ => 0⟩
  [command (GNW_CMD_NEW_ADDRESS :: u32Bytes .little 5),
    command (GNW_CMD_POLICY :: policy :: u32Bytes .little 5)]

/-- A data frame from address 5. -/
def dataFromFive : Packet := ⟨4, frameBytes .little GNW_DATA 5 [0x41], fun _ => 0⟩

/-- The policy is anycast, and no edge was ever added. -/
theorem selects_safely_fails :
    ∃ tr t, ServeRun .little AddressTable.empty tr t ∧
      serve .little t dataFromFive = .error .divisionByZero ∧
      ¬SelectsSafely .little t dataFromFive 5 := by
  have hsim : (Machine.simulate (fun _ _ => True) (serve .little) AddressTable.empty
      (claimAndPolicy 1)).any (fun r =>
        (serve .little r.1 dataFromFive).errorOf = some .divisionByZero) = true := by
    decide +kernel
  obtain ⟨tr, t, hrun, herror⟩ := Machine.Run.exists_of_simulate hsim
  have hserve := Except.errorOf_eq_some_iff.1 (of_decide_eq_true herror)
  exact ⟨tr, t, hrun, hserve, fun hsafe => hsafe.divisor hserve⟩

/-- The policy is broadcast, and again no edge was ever added. -/
theorem selects_safely_broadcast :
    ∃ tr t, ServeRun .little AddressTable.empty tr t ∧ SelectsSafely .little t dataFromFive 5 := by
  have hsim : (Machine.simulate (fun _ _ => True) (serve .little) AddressTable.empty
      (claimAndPolicy 0)).any (fun r =>
        ¬Divides ((requests .little r.2).policy 5)) = true := by
    decide +kernel
  obtain ⟨tr, t, hrun, hpolicy⟩ := Machine.Run.exists_of_simulate hsim
  have hparse := gnwParseHeader_frameBytes true .little GNW_DATA 5 [0x41]
  exact ⟨tr, t, hrun, (selects_safely_iff (p := dataFromFive) hrun hparse rfl).2
    fun hdivides => absurd hdivides (of_decide_eq_true hpolicy)⟩
