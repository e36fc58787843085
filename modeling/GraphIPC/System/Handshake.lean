-- SUMMARY: The addresses in a network: every claim is answered once, and the router knows the address of a node before it serves data that comes from there.
import GraphIPC.System.Passing

/-!
# The address of a node

A node sends nothing before its request for an address, and data only once it has an
address. One that is started without takes it from the first reply that has one, and the
replies that are written to a node are the answers to its own claims. So all data of a node
goes under one address, and the router has served a claim of the node for it before.
-/

/-! ## The answers to claims -/

/-- The address that a request claims. -/
def Request.claimed : Request → Option UInt32
  | .newAddress address => some address
  | _ => none

/-- Data is no reply. -/
theorem replyOf_of_data {order : ByteOrder} {frame : List UInt8}
    (htype : (callOf order frame).1.type = GNW_DATA) : replyOf order frame = none :=
  if_pos htype

/-- A claim is answered, and nothing else is. -/
theorem Performed.answer {order : ByteOrder} {fd : Int} {buffer : List UInt8}
    {rand : Nat → RandResult} {t t' : AddressTable} {r : Request} {writes : List Write}
    (h : Performed order fd buffer rand t r t' writes)
    (hparse : Request.parse order buffer rand = .ok r) :
    (∃ address, r.claimed = some address ∧
      writes = [AddressTable.newAddressReply order fd address]) ∨
    (r.claimed = none ∧ ∀ w ∈ writes, (callOf order w.bytes).1.type = GNW_DATA) := by
  have hcases := fun w (hw : w ∈ writes) => h.data_or_reply hparse hw
  cases h with
  | claimed address => exact .inl ⟨address, rfl, rfl⟩
  | forwarded =>
    refine .inr ⟨rfl, fun w hw => (hcases w hw).resolve_right ?_⟩
    rintro ⟨address, hr, -⟩
    cases hr
  | _ => exact .inr ⟨rfl, by simp⟩

/-- The replies that a step of the router writes to a connection are the answer to the claim
    that it has served from there. -/
theorem Router.Effect.replies {c : RouterConfig} {s router : Router c} {act : Act}
    {output : Output} (heffect : Router.Effect c s act router output) {connection : Connection}
    (mine : Prop) [Decidable mine]
    (hmine : ∀ fd data discarded call writes, output = .handled fd data discarded call writes →
      (connection = .established fd ↔ mine)) :
    ((connection.delivered output).map Write.bytes).filterMap (replyOf c.order) =
      if mine then ((output.request c.order).bind fun e => e.2.claimed).toList else [] := by
  cases output with
  | handled fd data discarded call writes =>
    specialize hmine _ _ _ _ _ rfl
    cases call with
    | none =>
      rw [heffect.idle.1]
      cases connection <;> simp [Connection.delivered, Output.request]
    | some p =>
      obtain ⟨hfd, -, r, hparse, hperformed⟩ := heffect.performed
      have hrequest : (Output.handled fd data discarded (some p) writes).request c.order =
          some (fd, r) := by
        simp [Output.request, Packet.request, hparse, hfd, Except.toOption]
      rw [hrequest, Option.bind_some]
      rcases hperformed.answer hparse with ⟨address, hclaimed, rfl⟩ | ⟨hclaimed, hdata⟩
      · -- the reply goes where the claim came from
        have hreply : replyOf c.order (AddressTable.newAddressReply c.order p.fd address).bytes =
            some address := replyOf_claimReply c.order address
        have hto : (AddressTable.newAddressReply c.order p.fd address).fd = fd := hfd
        rw [hclaimed]
        by_cases hestablished : connection = .established fd
        · rw [if_pos (hmine.1 hestablished)]
          subst hestablished
          simp [Connection.delivered, hto, hreply]
        · rw [if_neg fun h => hestablished (hmine.2 h)]
          cases connection with
          | established fd' =>
            have hother : ¬fd = fd' := fun heq => hestablished (by rw [heq])
            simp [Connection.delivered, hto, hother]
          | _ => rfl
      · have hnone : ((connection.delivered (.handled fd data discarded (some p) writes)).map
            Write.bytes).filterMap (replyOf c.order) = [] := by
          rw [List.filterMap_eq_nil_iff]
          intro f hf
          obtain ⟨w, hw, rfl⟩ := List.mem_map.1 hf
          exact replyOf_of_data (hdata w (Connection.mem_of_mem_delivered hw))
        rw [hnone, hclaimed]
        simp
  | _ => simp [Connection.delivered, Output.request]

variable {ι : Type} {n : Network ι} [DecidableEq ι]

/-- The address that the router has given a node in a step. -/
def NetworkSeen.claimOf (order : ByteOrder) (i : ι) : NetworkSeen ι → Option UInt32
  | .router client output _ =>
    if client = some i then (output.request order).bind fun e => e.2.claimed else none
  | _ => none

namespace NetworkHistory

/-- The addresses that the router has given a node, in order. -/
def claimsOf (order : ByteOrder) (i : ι) (tr : NetworkHistory ι) : List UInt32 :=
  tr.filterMap fun e => e.2.claimOf order i

@[simp] theorem claimsOf_snoc (order : ByteOrder) (i : ι) (tr : NetworkHistory ι)
    (e : NetworkAction ι × NetworkSeen ι) :
    claimsOf order i (tr ++ [e]) = claimsOf order i tr ++ (e.2.claimOf order i).toList := by
  cases h : e.2.claimOf order i <;> simp [claimsOf, h]

/-- An address that was given to a node is known. -/
theorem known_of_mem_claimsOf {order : ByteOrder} {i : ι} {tr : NetworkHistory ι}
    {address : UInt32} (h : address ∈ claimsOf order i tr) :
    (requests order tr).known address = true := by
  obtain ⟨⟨action, seen⟩, he, hclaim⟩ := List.mem_filterMap.1 h
  cases seen with
  | router client output delivered =>
    simp only [NetworkSeen.claimOf] at hclaim
    split at hclaim
    · obtain ⟨⟨fd, r⟩, hrequest, hclaimed⟩ := Option.bind_eq_some_iff.1 hclaim
      cases r with
      | newAddress =>
        cases hclaimed
        refine List.any_eq_true.2 ⟨(fd, .newAddress address), ?_, by simp [Request.introduces]⟩
        exact List.mem_filterMap.2 ⟨_, he, hrequest⟩
      | _ => cases hclaimed
    · cases hclaim
  | _ => cases hclaim

end NetworkHistory

open NetworkHistory

/-- What a step writes to a node besides data answers the claim that it serves of the node. -/
theorem NetworkState.answered_of_step {s s' : NetworkState n} {action : NetworkAction ι}
    {seen : NetworkSeen ι} (hallowed : NetworkState.Allowed n s action)
    (hstep : NetworkState.step n s action = .ok (s', seen)) (i : ι) :
    ((seen.writesTo i).map Write.bytes).filterMap (replyOf n.router.order) =
      (seen.claimOf n.router.order i).toList := by
  cases NetworkState.effect_of_step hstep with
  | @accept client remoteFd router output heffect =>
    refine (heffect.replies (client = some i) ?_).trans ?_
    · rintro _ _ _ _ _ rfl
      cases heffect
    · rw [NetworkSeen.claimOf]
      split <;> rfl
  | @event client slot revents data rand router output heffect =>
    refine (heffect.replies (client = some i) ?_).trans ?_
    · rintro _ _ _ _ _ rfl
      cases heffect with
      | handled _ hfd => exact hfd ▸ (hallowed.2 i).1
    · rw [NetworkSeen.claimOf]
      split <;> rfl
  | round => rfl

theorem NetworkState.Run.answered {s₀ s : NetworkState n} {tr : NetworkHistory ι}
    (hrun : NetworkState.Run n s₀ tr s) (i : ι) :
    ((writesTo i tr).map Write.bytes).filterMap (replyOf n.router.order) =
      claimsOf n.router.order i tr := by
  refine Machine.Run.induct (P := fun tr _ =>
    ((writesTo i tr).map Write.bytes).filterMap (replyOf n.router.order) =
      claimsOf n.router.order i tr) rfl ?_ hrun
  intro tr s action seen s' _ hanswered hallowed hstep
  rw [writesTo_snoc, List.map_append, List.filterMap_append, hanswered, claimsOf_snoc,
    NetworkState.answered_of_step hallowed hstep i]

/-! ## The address that a node has -/

/-- An address that a node may go under, if it was given the addresses `claims`: the one it
    was started with, or the first it was given. Zero is none yet. -/
structure Holds (argAddress : UInt32) (claims : List UInt32) (address : UInt32) : Prop where
  given : argAddress ≠ 0 → address = argAddress
  asked : argAddress = 0 → address = 0 ∨ claims.find? (· ≠ 0) = some address

/-- A node goes by the replies that it has taken. -/
theorem Attached.holds {c : DispatchConfig} {argAddress : UInt32} {node : Dispatch c}
    {down : List UInt8} {written : List (List UInt8)} {rounds : List (List UInt8 × Round)}
    (h : Attached argAddress node down written rounds) :
    Holds argAddress (written.filterMap (replyOf c.order)) node.node.argAddress := by
  obtain ⟨taken, pending, rfl, -, haddress, -⟩ := h.takes
  refine ⟨fun hne => ?_, fun hzero => ?_⟩
  · rw [haddress, foldl_learn_of_ne hne]
  · rw [haddress, hzero, foldl_learn_zero, List.filterMap_append, List.find?_append]
    cases hfind : (taken.filterMap (replyOf c.order)).find? (· ≠ 0) with
    | none => exact .inl rfl
    | some address => exact .inr rfl

omit [DecidableEq ι] in
/-- The request of a node is read as a claim of its address, or of any. -/
theorem Network.parse_request {i : ι} {rand : Nat → RandResult} {r : Request}
    (h : Request.parse n.router.order (n.request i) rand = .ok r) :
    ∃ address, r = .newAddress address ∧
      ((n.options i).argAddress ≠ 0 → address = (n.options i).argAddress) := by
  by_cases hzero : (n.options i).argAddress = 0
  · have hasks : n.request i =
        frameBytes n.router.order GNW_COMMAND 0xFFFFFFFF [GNW_CMD_NEW_ADDRESS] := by
      rw [request, if_pos hzero]
    rw [Asks.parse (.anyAddress 0xFFFFFFFF hasks)] at h
    exact ⟨_, (Except.ok.inj h).symm, fun hne => absurd hzero hne⟩
  · have hasks : n.request i = frameBytes n.router.order GNW_COMMAND 0xFFFFFFFF
        (GNW_CMD_NEW_ADDRESS :: u32Bytes n.router.order (n.options i).argAddress) := by
      rw [request, if_neg hzero]
      rfl
    rw [Asks.parse (.newAddress 0xFFFFFFFF (n.options i).argAddress hasks)] at h
    exact ⟨_, (Except.ok.inj h).symm, fun _ => rfl⟩

omit [DecidableEq ι] in
/-- The request of a node is no data. -/
theorem Network.type_request (i : ι) :
    (callOf n.router.order (n.request i)).1.type = GNW_COMMAND := by
  rw [request, callOf_frameBytes]

/-! ## The addresses in a run -/

/-- The first claim of a node that is served is that of its request. -/
structure Requested (n : Network ι) (tr : NetworkHistory ι) (i : ι) : Prop where
  unasked : framesOf (some i) tr = [] → claimsOf n.router.order i tr = []
  asked : framesOf (some i) tr ≠ [] → ∃ address claims,
    claimsOf n.router.order i tr = address :: claims ∧
      ((n.options i).argAddress ≠ 0 → address = (n.options i).argAddress)

/-- A step that serves no frame of a node gives it no address. -/
theorem NetworkSeen.claimOf_of_frameFrom {order : ByteOrder} {i : ι} {seen : NetworkSeen ι}
    (h : seen.frameFrom (some i) = none) : seen.claimOf order i = none := by
  cases seen with
  | router client output delivered =>
    simp only [claimOf]
    split
    · rename_i hmine
      cases output with
      | handled _ _ _ call =>
        cases call with
        | none => rfl
        | some p => simp [frameFrom, hmine] at h
      | _ => rfl
    · rfl
  | _ => rfl

/-- The request of a frame that a step serves. -/
theorem NetworkState.claimOf_of_step {s s' : NetworkState n} {action : NetworkAction ι}
    {seen : NetworkSeen ι} (hstep : NetworkState.step n s action = .ok (s', seen)) {i : ι}
    {f : List UInt8} (hframe : seen.frameFrom (some i) = some f) :
    ∃ r rand, Request.parse n.router.order f rand = .ok r ∧
      seen.claimOf n.router.order i = r.claimed := by
  rcases NetworkState.router_or_round hstep with
    ⟨client, act, router, output, heffect, -, rfl⟩ | ⟨i', data, node, round, -, rfl⟩
  · cases output with
    | handled fd data discarded call writes =>
      simp only [NetworkSeen.frameFrom] at hframe
      split at hframe
      · rename_i hmine
        obtain ⟨p, rfl, rfl⟩ := Option.map_eq_some_iff.1 hframe
        obtain ⟨-, -, r, hparse, -⟩ := heffect.performed
        exact ⟨r, p.rand, hparse, by
          simp [NetworkSeen.claimOf, hmine, Output.request, Packet.request, hparse,
            Except.toOption]⟩
      · cases hframe
    | _ => cases hframe
  · cases hframe

theorem NetworkState.Run.requested {listenFd : Int} {s : NetworkState n} {tr : NetworkHistory ι}
    (hrun : NetworkState.Run n (NetworkState.init n listenFd) tr s) (i : ι) :
    Requested n tr i := by
  refine Machine.Run.induct (P := fun tr _ => Requested n tr i)
    ⟨fun _ => rfl, fun hne => absurd rfl hne⟩ ?_ hrun
  intro tr s action seen s' hrun hrequested hallowed hstep
  cases hframe : seen.frameFrom (some i) with
  | none =>
    refine ⟨?_, ?_⟩
    all_goals rw [framesOf_snoc, claimsOf_snoc, hframe, NetworkSeen.claimOf_of_frameFrom hframe,
      Option.toList_none, Option.toList_none, List.append_nil, List.append_nil]
    · exact hrequested.unasked
    · exact hrequested.asked
  | some f =>
    refine ⟨fun hnil => ?_, fun _ => ?_⟩
    · simp [hframe] at hnil
    by_cases hserved : framesOf (some i) tr = []
    · -- the first frame of a node is its request
      obtain ⟨coming, htransit⟩ := NetworkState.Run.inTransit (hrun.snoc hallowed hstep)
      have hsent := htransit.sent i
      rw [framesOf_snoc, hframe, hserved] at hsent
      obtain ⟨rfl, -⟩ := List.cons.inj hsent
      obtain ⟨r, rand, hparse, hclaim⟩ := NetworkState.claimOf_of_step hstep hframe
      obtain ⟨address, rfl, haddress⟩ := Network.parse_request hparse
      refine ⟨address, [], ?_, haddress⟩
      rw [claimsOf_snoc, hrequested.unasked hserved, hclaim]
      rfl
    · obtain ⟨address, claims, hclaims, haddress⟩ := hrequested.asked hserved
      exact ⟨address, claims ++ (seen.claimOf n.router.order i).toList, by simp [hclaims], haddress⟩

/-- Data that is served from a node is of the first address that it was given. -/
theorem NetworkState.Run.sourceOf {listenFd : Int} {s s' : NetworkState n}
    {tr : NetworkHistory ι} (hrun : NetworkState.Run n (NetworkState.init n listenFd) tr s)
    {action : NetworkAction ι} {seen : NetworkSeen ι} (hallowed : NetworkState.Allowed n s action)
    (hstep : NetworkState.step n s action = .ok (s', seen)) {i : ι} {source : UInt32}
    (hsource : source ∈ seen.sourceOf n.router.order i) :
    source ≠ 0 ∧ (claimsOf n.router.order i tr).find? (· ≠ 0) = some source := by
  obtain ⟨f, hframe, hdata⟩ := Option.bind_eq_some_iff.1 hsource
  split at hdata
  swap
  · cases hdata
  rename_i htype
  obtain rfl := Option.some.inj hdata
  -- the frame is the next that the node has sent
  obtain ⟨coming, htransit⟩ := hrun.inTransit
  obtain ⟨coming', htransit'⟩ := NetworkState.Run.inTransit (hrun.snoc hallowed hstep)
  have hquiet : seen.roundOf i = none := by
    cases seen with
    | round => cases hframe
    | router => rfl
  have hnext := htransit'.sent i
  rw [framesOf_snoc, hframe, sentOf, rounds_snoc, hquiet, Option.toList_none, List.append_nil,
    Option.toList_some] at hnext
  have hserved : framesOf (some i) tr ≠ [] := by
    intro hnil
    rw [hnil] at hnext
    obtain ⟨rfl, -⟩ := List.cons.inj hnext
    rw [Network.type_request] at htype
    cases htype
  obtain ⟨first, frames, hfirst⟩ := List.exists_cons_of_ne_nil hserved
  rw [hfirst, List.cons_append, List.cons_append] at hnext
  have hmem : f ∈ sentOf i tr := by
    rw [sentOf, ← (List.cons.inj hnext).2]
    simp
  rcases htransit.fromNode hmem with ⟨address, rfl⟩ | ⟨hne, piece, rfl, -⟩
  · rw [claimFrame, callOf_frameBytes] at htype
    cases htype
  rw [callOf_frameBytes]
  refine ⟨hne, ?_⟩
  have hholds := (htransit.attached i).holds
  rw [n.order_node i, NetworkState.Run.answered hrun i] at hholds
  by_cases hzero : (n.options i).argAddress = 0
  · exact (hholds.asked hzero).resolve_left hne
  · obtain ⟨address, claims, hclaims, hasked⟩ := (NetworkState.Run.requested hrun i).asked hserved
    rw [hclaims, hasked hzero, hholds.given hzero]
    exact List.find?_cons_of_pos (by simpa using hzero)

/-- What a run keeps to with the address of a node. -/
structure NetworkHistory.Addressed (n : Network ι) (tr : NetworkHistory ι) (s : NetworkState n)
    (i : ι) : Prop where
  /-- The replies that were written to a node answer its claims, one by one. -/
  answered : ((writesTo i tr).map Write.bytes).filterMap (replyOf n.router.order) =
    claimsOf n.router.order i tr
  address : Holds (n.options i).argAddress (claimsOf n.router.order i tr)
    (s.node i).node.argAddress
  /-- Data is served under the first address that the node was given, and that is known. -/
  served : WheneverServed n.router.order i tr fun tr₁ source =>
    source ≠ 0 ∧ (claimsOf n.router.order i tr₁).find? (· ≠ 0) = some source ∧
      (requests n.router.order tr₁).known source = true

/-- In every run of a network each claim of a node is answered once, a node goes under the
    address it was started with or the first it was given, and whenever data of a node is
    served, it is under the first address that the node was given, and this address is
    known. -/
theorem network_addressed {listenFd : Int} {s : NetworkState n} {tr : NetworkHistory ι}
    (hrun : NetworkState.Run n (NetworkState.init n listenFd) tr s) (i : ι) :
    tr.Addressed n s i := by
  obtain ⟨coming, htransit⟩ := hrun.inTransit
  refine ⟨NetworkState.Run.answered hrun i, ?_, ?_⟩
  · have hholds := (htransit.attached i).holds
    rwa [n.order_node i, NetworkState.Run.answered hrun i] at hholds
  · rintro tr₁ ⟨action, seen⟩ tr₂ rfl source hsource
    obtain ⟨s₁, s₂, hrun₁, hallowed, hstep⟩ := Machine.Run.cut hrun
    obtain ⟨hne, hfirst⟩ := NetworkState.Run.sourceOf hrun₁ hallowed hstep hsource
    exact ⟨hne, hfirst, known_of_mem_claimsOf (List.mem_of_find?_eq_some hfirst)⟩

/-- The second sender is started without an address, and sends under the one it was given. -/
theorem network_addressed_merge :
    ∃ tr s, NetworkState.Run smallNetwork (NetworkState.init smallNetwork 3) tr s ∧
      claimsOf .little 1 tr = [0x5000] ∧ (framesOf (some 1) tr).length = 2 ∧
      NetworkHistory.Addressed smallNetwork tr s 1 := by
  have hsim : (Machine.simulate (NetworkState.Allowed smallNetwork)
      (NetworkState.step smallNetwork) (NetworkState.init smallNetwork 3)
      smallNetworkActions).any (fun r => claimsOf .little 1 r.2 = [0x5000] &&
        (framesOf (some 1) r.2).length = 2) = true := by
    decide +kernel
  obtain ⟨tr, s, hrun, hlast⟩ := Machine.Run.exists_of_simulate hsim
  simp only [Bool.and_eq_true, decide_eq_true_eq] at hlast
  have haddressed := network_addressed hrun 1
  exact ⟨tr, s, hrun, hlast.1, hlast.2, haddressed⟩
