-- SUMMARY: What passes from one node of a network to another: how often each piece, and that nothing is missing when all is quiet.
import GraphIPC.System.Integrity

/-!
# From node to node

How often a frame is written to a connection is a matter of the requests that were
served before it: once for each target it was selected for that is bound to this
connection. A policy that takes one target writes it to one connection at most. A
broadcast source with just one target at a node passes everything on to this node, and
when nothing is on its way any more, all of it is printed.
-/

/-! ## The copies of a frame -/

/-- The targets that a policy may select for a frame, by the requests served so far. -/
structure History.Selects (h : History) (source : UInt32) (targets : List UInt32) : Prop where
  broadcast : h.policy source = GNW_POLICY_BROADCAST → targets = h.forward source
  single : Divides (h.policy source) → ∃ target, targets = [target]

/-- The copies for a list of targets that go to one descriptor. -/
theorem filter_copies {h : History} {t : AddressTable} (ht : h.Refines t) {fd : Int}
    (hfd : fd ≠ -1) (buffer : List UInt8) (targets : List UInt32) :
    ((targets.filterMap (t.copyTo buffer)).filter fun w => w.fd = fd).map Write.bytes =
      List.replicate (targets.countP fun target => h.boundFd target = fd) buffer := by
  induction targets with
  | nil => rfl
  | cons target targets ih =>
    cases htarget : t target with
    | none =>
      have hunbound : h.boundFd target ≠ fd := by
        intro hbound
        have hknown := History.known_of_boundFd hbound hfd
        rw [← ht.known, htarget] at hknown
        cases hknown
      have hnone : t.copyTo buffer target = none := by simp [AddressTable.copyTo, htarget]
      rw [List.filterMap_cons_none hnone, ih, List.countP_cons_of_neg (by simpa using hunbound)]
    | some entry =>
      have hbound := ht.boundFd target entry htarget
      have hsome : t.copyTo buffer target =
          some { fd := entry.boundFd, bytes := buffer, target := some target } := by
        simp [AddressTable.copyTo, htarget]
      rw [List.filterMap_cons_some hsome]
      by_cases heq : h.boundFd target = fd
      · have hmine : entry.boundFd = fd := hbound.trans heq
        rw [List.filter_cons_of_pos (by simpa using hmine), List.map_cons, ih,
          List.countP_cons_of_pos (by simpa using heq), List.replicate_succ]
      · have hother : entry.boundFd ≠ fd := fun hmine => heq (hbound.symm.trans hmine)
        rw [List.filter_cons_of_neg (by simpa using hother), ih,
          List.countP_cons_of_neg (by simpa using heq)]

/-- Data is copied to each target that was selected for it. -/
theorem Performed.copies {order : ByteOrder} {fd : Int} {buffer : List UInt8}
    {rand : Nat → RandResult} {h : History} {t t' : AddressTable} {source : UInt32}
    {writes : List Write} (hp : Performed order fd buffer rand t (.data source) t' writes)
    (ht : h.Refines t) :
    ∃ targets, h.Selects source targets ∧ writes = targets.filterMap (t.copyTo buffer) := by
  cases hp with
  | @forwarded _ entry targets hsource htargets =>
    have hforward : (entry.countIn buffer.length).forward = h.forward source :=
      ht.forward source entry hsource
    have hpolicy : (entry.countIn buffer.length).forwardPolicy = h.policy source :=
      ht.policy source entry hsource
    refine ⟨targets, ⟨fun hbroadcast => ?_, fun hdivides => ?_⟩, rfl⟩
    · rw [Context.targets_broadcast (hpolicy.trans hbroadcast)] at htargets
      cases htargets
      exact hforward
    · rw [← hpolicy] at hdivides
      have hne : (entry.countIn buffer.length).forward ≠ [] := by
        intro hnil
        rw [Context.targets_of_divides hdivides hnil] at htargets
        cases htargets
      obtain ⟨targets', htargets', hselects⟩ :=
        Context.targets_selects rand fun _ => hne
      rw [htargets] at htargets'
      cases htargets'
      obtain ⟨target, -, hsingle⟩ := hselects.single hdivides
      exact ⟨target, hsingle⟩
  | dropped hsource =>
    have hunknown : h.known source = false := by
      rw [← ht.known, hsource]
      rfl
    refine ⟨[], ⟨fun _ => (History.forward_of_not_known hunknown).symm, fun hdivides => ?_⟩, rfl⟩
    have hpolicy : h.policy source = GNW_POLICY_BROADCAST := by
      rw [History.policy, History.policies, History.dropWhile_of_not_known hunknown]
      rfl
    rw [hpolicy] at hdivides
    exact absurd hdivides (by decide)

/-- A frame that says it is data is read as such. -/
theorem Request.parse_of_callOf {order : ByteOrder} {buffer : List UInt8}
    {rand : Nat → RandResult} {r : Request} (h : Request.parse order buffer rand = .ok r)
    (htype : (callOf order buffer).1.type = GNW_DATA) :
    r = .data (callOf order buffer).1.source := by
  obtain ⟨header, payload, hheader, hcall⟩ := Request.header_of_parse h
  rw [hcall] at htype ⊢
  rw [Request.parse_data rand hheader htype] at h
  exact (Except.ok.inj h).symm

/-! ## What passes in a step -/

/-- The request that the router has served in a step. -/
def Output.request (order : ByteOrder) : Output → Option (Int × Request)
  | .handled _ _ _ (some p) _ => p.request order
  | _ => none

/-- A step leaves the table that its request determines. -/
theorem Router.Effect.refines {c : RouterConfig} {s router : Router c} {act : Act}
    {output : Output} (heffect : Router.Effect c s act router output) {h : History}
    (ht : h.Refines s.tables.addressTable) :
    History.Refines (h ++ (output.request c.order).toList) router.tables.addressTable := by
  cases output with
  | handled fd data discarded call writes =>
    cases call with
    | none => simpa [Output.request, heffect.idle.2] using ht
    | some p =>
      obtain ⟨-, -, r, hparse, hperformed⟩ := heffect.performed
      simpa [Output.request, Packet.request, hparse, Except.toOption] using
        ht.performed hperformed
  | _ =>
    cases heffect
    all_goals simpa [Output.request] using ht

variable {ι : Type} {n : Network ι}

/-- The request that the router has served in a step of the network. -/
def NetworkSeen.request (order : ByteOrder) : NetworkSeen ι → Option (Int × Request)
  | .router _ output _ => output.request order
  | _ => none

/-- The requests served in a run, in order. -/
def NetworkHistory.requests (order : ByteOrder) (tr : NetworkHistory ι) : History :=
  tr.filterMap fun e => e.2.request order

theorem NetworkHistory.requests_snoc (order : ByteOrder) (tr : NetworkHistory ι)
    (e : NetworkAction ι × NetworkSeen ι) :
    NetworkHistory.requests order (tr ++ [e]) =
      NetworkHistory.requests order tr ++ (e.2.request order).toList := by
  cases h : e.2.request order <;> simp [requests, h]

/-- How many of the targets of a frame are bound to a connection. -/
def History.copiesTo (h : History) (targets : List UInt32) : Connection → Nat
  | .established fd => targets.countP fun target => h.boundFd target = fd
  | _ => 0

variable [DecidableEq ι]

namespace NetworkSeen

/-- The source of the data that the router has served from a node in a step. -/
def sourceOf (order : ByteOrder) (i : ι) (seen : NetworkSeen ι) : Option UInt32 :=
  (seen.frameFrom (some i)).bind fun f =>
    if (callOf order f).1.type = GNW_DATA then some (callOf order f).1.source else none

/-- The data of a node that the router has written to another in a step. -/
def passed (order : ByteOrder) (i j : ι) : NetworkSeen ι → List UInt8
  | .router client _ delivered =>
    if client = some i then (delivered j).flatMap fun w => printed order w.bytes else []
  | _ => []

end NetworkSeen

/-- The data of a node that the router has written to another, in order. -/
def NetworkHistory.passed (order : ByteOrder) (i j : ι) (tr : NetworkHistory ι) : List UInt8 :=
  tr.flatMap fun e => e.2.passed order i j

@[simp] theorem NetworkHistory.passed_snoc (order : ByteOrder) (i j : ι) (tr : NetworkHistory ι)
    (e : NetworkAction ι × NetworkSeen ι) :
    NetworkHistory.passed order i j (tr ++ [e]) =
      NetworkHistory.passed order i j tr ++ e.2.passed order i j := by
  simp [passed]

/-- What a step passes on of a node: nothing, or the frame that it serves, to each node as
    often as one of the targets is bound to its connection. -/
inductive Passes (n : Network ι) (s : NetworkState n) (h : History) (i : ι)
    (seen : NetworkSeen ι) : Prop where
  | nothing : seen.frameFrom (some i) = none →
      (∀ j, seen.passed n.router.order i j = []) → Passes n s h i seen
  | frame (f : List UInt8) (targets : List UInt32) : seen.frameFrom (some i) = some f →
      (∀ source, seen.sourceOf n.router.order i = some source → h.Selects source targets) →
      (∀ j, seen.passed n.router.order i j =
        (List.replicate (h.copiesTo targets (s.connection j))
          (printed n.router.order f)).flatten) → Passes n s h i seen

/-- Data that was copied to a connection. -/
theorem flatMap_delivered {connection : Connection} (hlive : connection ≠ .established (-1))
    {h : History} {t : AddressTable} (ht : h.Refines t) (order : ByteOrder) (buffer : List UInt8)
    (targets : List UInt32) (fd : Int) (data : List UInt8) (discarded : Nat)
    (call : Option Packet) :
    ((connection.delivered (.handled fd data discarded call
        (targets.filterMap (t.copyTo buffer)))).flatMap fun w => printed order w.bytes) =
      (List.replicate (h.copiesTo targets connection) (printed order buffer)).flatten := by
  cases connection with
  | established fd' =>
    have hfd : fd' ≠ -1 := fun heq => hlive (by rw [heq])
    have hcopies := filter_copies ht hfd buffer targets
    calc ((targets.filterMap (t.copyTo buffer)).filter fun w => w.fd = fd').flatMap
          (fun w => printed order w.bytes)
      _ = (((targets.filterMap (t.copyTo buffer)).filter fun w => w.fd = fd').map
          Write.bytes).flatMap (printed order) := (List.flatMap_map ..).symm
      _ = _ := by rw [hcopies, List.flatMap, List.map_replicate]; rfl
  | _ => rfl

/-- A read passes on nothing or the frame it serves. -/
theorem Traffic.passes_handled {s : NetworkState n} {coming : ι → List (List UInt8)}
    (htraffic : Traffic s coming) {h : History} (ht : h.Refines s.router.tables.addressTable)
    {act : Act} {router : Router n.router} {fd : Int} {data : List UInt8} {discarded : Nat}
    {call : Option Packet} {writes : List Write}
    (heffect : Router.Effect n.router s.router act router
      (.handled fd data discarded call writes)) (i : ι) :
    Passes n s h i (.router (some i) (.handled fd data discarded call writes) fun j =>
      (s.connection j).delivered (.handled fd data discarded call writes)) := by
  have hlive : ∀ j, s.connection j ≠ .established (-1) := fun j hj =>
    (htraffic.live j _ hj).1 rfl
  cases call with
  | none =>
    rw [heffect.idle.1]
    refine .nothing (if_pos rfl) fun j => ?_
    cases hj : s.connection j <;> simp [NetworkSeen.passed, Connection.delivered, hj]
  | some p =>
    obtain ⟨-, -, r, hparse, hperformed⟩ := heffect.performed
    by_cases htype : (callOf n.router.order p.buffer).1.type = GNW_DATA
    · rw [Request.parse_of_callOf hparse htype] at hperformed
      obtain ⟨targets, hselects, rfl⟩ := hperformed.copies ht
      refine .frame p.buffer targets (if_pos rfl) ?_ fun j => ?_
      · intro source hsource
        simp only [NetworkSeen.sourceOf, NetworkSeen.frameFrom, if_true, Option.map_some,
          Option.bind_some, htype, Option.some.injEq] at hsource
        rwa [← hsource]
      · exact (if_pos rfl).trans (flatMap_delivered (hlive j) ht ..)
    · have hnone : printed n.router.order p.buffer = [] := if_neg htype
      refine .frame p.buffer [] (if_pos rfl) ?_ fun j => ?_
      · intro source hsource
        simp [NetworkSeen.sourceOf, NetworkSeen.frameFrom, htype] at hsource
      · have hall : ∀ w ∈ (s.connection j).delivered
            (.handled fd data discarded (some p) writes),
            printed n.router.order w.bytes = [] := by
          intro w hw
          rcases (heffect.written (Connection.mem_of_mem_delivered hw)).2 with hw | hw
          · exact hw
          · rw [← Option.some.inj hw]
            exact hnone
        have hempty := List.flatMap_eq_nil_iff.2 hall
        rw [hnone]
        exact ((if_pos rfl).trans hempty).trans (by simp)

/-- Every step passes on nothing or the frame it serves. -/
theorem Traffic.passes {s s' : NetworkState n} {coming : ι → List (List UInt8)}
    (htraffic : Traffic s coming) {h : History} (ht : h.Refines s.router.tables.addressTable)
    {action : NetworkAction ι} {seen : NetworkSeen ι}
    (hstep : NetworkState.step n s action = .ok (s', seen)) (i : ι) : Passes n s h i seen := by
  rcases NetworkState.router_or_round hstep with
    ⟨client, act, router, output, heffect, -, rfl⟩ | ⟨i', data, node, round, -, rfl⟩
  · by_cases hclient : client = some i
    · subst hclient
      cases output with
      | handled => exact htraffic.passes_handled ht heffect i
      | _ => exact .nothing rfl fun _ => if_pos rfl
    · refine .nothing ?_ fun j => if_neg hclient
      cases output with
      | handled => exact if_neg hclient
      | _ => rfl
  · exact .nothing rfl fun _ => rfl

/-! ## What passes in a run -/

open NetworkHistory

theorem NetworkState.Run.refines {listenFd : Int} {s : NetworkState n}
    {tr : NetworkHistory ι}
    (hrun : NetworkState.Run n (NetworkState.init n listenFd) tr s) :
    (requests n.router.order tr).Refines s.router.tables.addressTable := by
  refine Machine.Run.induct (P := fun tr s =>
    (requests n.router.order tr).Refines s.router.tables.addressTable) .nil ?_ hrun
  intro tr s action seen s' _ ht _ hstep
  rw [requests_snoc]
  rcases NetworkState.router_or_round hstep with
    ⟨client, act, router, output, heffect, rfl, rfl⟩ | ⟨i', data, node, round, rfl, rfl⟩
  · exact heffect.refines ht
  · simpa [NetworkSeen.request, NetworkState.rounded] using ht

/-- The last step of a run passes on nothing or the frame it serves. -/
theorem NetworkState.Run.passes {listenFd : Int} {s s' : NetworkState n}
    {tr : NetworkHistory ι} {action : NetworkAction ι} {seen : NetworkSeen ι}
    (hrun : NetworkState.Run n (NetworkState.init n listenFd) tr s)
    (hstep : NetworkState.step n s action = .ok (s', seen)) (i : ι) :
    Passes n s (requests n.router.order tr) i seen := by
  obtain ⟨coming, htransit⟩ := hrun.inTransit
  exact htransit.traffic.passes hrun.refines hstep i

/-- Whenever data of a node is served, the history so far and the source of the data have
    a property. -/
def WheneverServed (order : ByteOrder) (i : ι) (tr : NetworkHistory ι)
    (P : NetworkHistory ι → UInt32 → Prop) : Prop :=
  ∀ tr₁ e tr₂, tr = tr₁ ++ e :: tr₂ → ∀ source ∈ e.2.sourceOf order i, P tr₁ source

theorem WheneverServed.of_snoc {order : ByteOrder} {i : ι} {tr : NetworkHistory ι}
    {e : NetworkAction ι × NetworkSeen ι} {P : NetworkHistory ι → UInt32 → Prop}
    (h : WheneverServed order i (tr ++ [e]) P) :
    WheneverServed order i tr P ∧ ∀ source ∈ e.2.sourceOf order i, P tr source :=
  ⟨fun tr₁ e' tr₂ htr => h tr₁ e' (tr₂ ++ [e]) (by rw [htr, List.append_assoc, List.cons_append]),
    h tr e [] rfl⟩

theorem wheneverServed_iff (order : ByteOrder) (i : ι) (tr : NetworkHistory ι)
    (P : NetworkHistory ι → UInt32 → Prop) :
    WheneverServed order i tr P ↔
      ∀ k : Fin tr.length, ∀ source ∈ tr[k].2.sourceOf order i, P (tr.take k) source := by
  constructor
  · intro h k
    refine h (tr.take k) tr[k] (tr.drop (k + 1)) ?_
    rw [Fin.getElem_fin, List.getElem_cons_drop, List.take_append_drop]
  · intro h tr₁ e tr₂ htr
    subst htr
    simpa using h ⟨tr₁.length, by simp⟩

instance WheneverServed.decidable (order : ByteOrder) (i : ι) (tr : NetworkHistory ι)
    (P : NetworkHistory ι → UInt32 → Prop) [∀ tr, DecidablePred (P tr)] :
    Decidable (WheneverServed order i tr P) :=
  -- the source is in an option: no search over all addresses
  letI (k : Fin tr.length) :
      Decidable (∀ source ∈ tr[k].2.sourceOf order i, P (tr.take k) source) :=
    Option.decidableForallMem _
  letI : Decidable (∀ k : Fin tr.length, ∀ source ∈ tr[k].2.sourceOf order i,
      P (tr.take k) source) := Nat.decidableForallFin _
  decidable_of_iff _ (wheneverServed_iff order i tr P).symm

/-- What a step makes of the connection of a node. -/
def NetworkSeen.connectionAfter (i : ι) (connection : Connection) : NetworkSeen ι → Connection
  | .router client output _ => connection.after (client = some i) output
  | _ => connection

/-- The connection of a node after a run. -/
def NetworkHistory.connectionOf (i : ι) (tr : NetworkHistory ι) : Connection :=
  tr.foldl (fun connection e => e.2.connectionAfter i connection) .waiting

theorem NetworkState.Run.connection_eq {listenFd : Int} {s : NetworkState n}
    {tr : NetworkHistory ι}
    (hrun : NetworkState.Run n (NetworkState.init n listenFd) tr s) (i : ι) :
    s.connection i = connectionOf i tr := by
  refine Machine.Run.induct (P := fun tr s => s.connection i = connectionOf i tr) rfl ?_ hrun
  intro tr s action seen s' _ hconnection _ hstep
  rw [connectionOf, List.foldl_append, ← connectionOf, ← hconnection]
  cases NetworkState.effect_of_step hstep <;> rfl

/-- Data of `source` goes to one target that is bound to the connection. -/
structure Bridge (h : History) (source : UInt32) (connection : Connection) : Prop where
  broadcast : h.policy source = GNW_POLICY_BROADCAST
  copiesTo : h.copiesTo (h.forward source) connection = 1

instance Bridge.decidable (h : History) (source : UInt32) (connection : Connection) :
    Decidable (Bridge h source connection) :=
  decidable_of_iff (h.policy source = GNW_POLICY_BROADCAST ∧
    h.copiesTo (h.forward source) connection = 1) ⟨fun h => ⟨h.1, h.2⟩, fun h => ⟨h.1, h.2⟩⟩

/-- Whenever data of node `i` is served, there is a bridge for it to node `j`. -/
abbrev Bridged (order : ByteOrder) (tr : NetworkHistory ι) (i j : ι) : Prop :=
  WheneverServed order i tr fun tr₁ source =>
    Bridge (requests order tr₁) source (connectionOf j tr₁)

/-- Whenever data of node `i` is served, one target is selected for it. -/
abbrev SharedOut (order : ByteOrder) (tr : NetworkHistory ι) (i : ι) : Prop :=
  WheneverServed order i tr fun tr₁ source => Divides ((requests order tr₁).policy source)

/-- What is no data is not printed. -/
theorem NetworkSeen.printed_of_sourceOf {order : ByteOrder} {i : ι} {seen : NetworkSeen ι}
    {f : List UInt8} (hframe : seen.frameFrom (some i) = some f)
    (hsource : seen.sourceOf order i = none) : printed order f = [] := by
  rw [sourceOf, hframe, Option.bind_some] at hsource
  split at hsource
  · cases hsource
  · rename_i htype
    exact if_neg htype

/-- Over a bridge a step passes on what it serves. -/
theorem Passes.bridged {s : NetworkState n} {h : History} {i j : ι} {seen : NetworkSeen ι}
    (hpasses : Passes n s h i seen)
    (hbridge : ∀ source ∈ seen.sourceOf n.router.order i, Bridge h source (s.connection j)) :
    seen.passed n.router.order i j =
      (seen.frameFrom (some i)).toList.flatMap (printed n.router.order) := by
  cases hpasses with
  | nothing hframe hpassed =>
    rw [hframe, hpassed j]
    rfl
  | frame f targets hframe hselects hpassed =>
    rw [hframe, hpassed j]
    cases hsource : seen.sourceOf n.router.order i with
    | none => simp [NetworkSeen.printed_of_sourceOf hframe hsource]
    | some source =>
      obtain ⟨hbroadcast, hone⟩ := hbridge source hsource
      rw [(hselects source hsource).broadcast hbroadcast, hone]
      simp

theorem NetworkState.Run.passed_eq {listenFd : Int} {s : NetworkState n}
    {tr : NetworkHistory ι} {i j : ι}
    (hrun : NetworkState.Run n (NetworkState.init n listenFd) tr s)
    (hbridged : Bridged n.router.order tr i j) :
    NetworkHistory.passed n.router.order i j tr =
      (framesOf (some i) tr).flatMap (printed n.router.order) := by
  induction hrun with
  | nil => rfl
  | @snoc tr s s' action seen hrun hallowed hstep ih =>
    obtain ⟨hbridged, hbridge⟩ := hbridged.of_snoc
    rw [← NetworkState.Run.connection_eq hrun j] at hbridge
    rw [NetworkHistory.passed_snoc, framesOf_snoc, List.flatMap_append, ih hbridged,
      (NetworkState.Run.passes hrun hstep i).bridged hbridge]

/-- No byte of a node is on its way to the handler of the router. -/
structure NetworkState.NothingUp (s : NetworkState n) (i : ι) : Prop where
  notLost : s.connection i ≠ .lost
  held : s.held i = []
  up : s.up i = []

/-- No byte is on its way from the router to a node that runs. -/
structure NetworkState.NothingDown (s : NetworkState n) (i : ι) : Prop where
  running : (s.node i).status = false
  down : s.down i = []
  window : (s.node i).window (n.node i).routerFd = []

omit [DecidableEq ι] in
theorem NetworkState.nothingUp_iff {s : NetworkState n} {i : ι} :
    s.NothingUp i ↔ s.connection i ≠ .lost ∧ s.held i = [] ∧ s.up i = [] :=
  ⟨fun h => ⟨h.notLost, h.held, h.up⟩, fun h => ⟨h.1, h.2.1, h.2.2⟩⟩

omit [DecidableEq ι] in
theorem NetworkState.nothingDown_iff {s : NetworkState n} {i : ι} :
    s.NothingDown i ↔ (s.node i).status = false ∧ s.down i = [] ∧
      (s.node i).window (n.node i).routerFd = [] :=
  ⟨fun h => ⟨h.running, h.down, h.window⟩, fun h => ⟨h.1, h.2.1, h.2.2⟩⟩

instance (s : NetworkState n) (i : ι) : Decidable (s.NothingUp i) :=
  decidable_of_iff _ NetworkState.nothingUp_iff.symm

instance (s : NetworkState n) (i : ι) : Decidable (s.NothingDown i) :=
  decidable_of_iff _ NetworkState.nothingDown_iff.symm

/-- A sequence of frames without bytes has no frames. -/
theorem eq_nil_of_flatten_eq_nil {order : ByteOrder} {frames : List (List UInt8)}
    (hframes : ∀ f ∈ frames, WellFormed order f) (hnil : frames.flatten = []) : frames = [] := by
  cases frames with
  | nil => rfl
  | cons f frames =>
    have hempty : f = [] := List.flatten_eq_nil_iff.1 hnil f List.mem_cons_self
    obtain ⟨type, source, payload, hframe, -⟩ := hframes f List.mem_cons_self
    rw [hempty] at hframe
    cases hframe

/-- With nothing on the way, what was served from a node is all it has sent. -/
theorem InTransit.served_of_nothingUp {s : NetworkState n} {tr : NetworkHistory ι}
    {coming : ι → List (List UInt8)} (h : InTransit s tr coming) {i : ι} (hup : s.NothingUp i) :
    (framesOf (some i) tr).flatMap (printed n.router.order) =
      (sentOf i tr).flatMap (printed n.router.order) := by
  have hnil : coming i = [] := by
    refine eq_nil_of_flatten_eq_nil (h.traffic.frames i) ?_
    rw [← h.traffic.upward i hup.notLost, hup.held, hup.up]
    rfl
  have hsent := h.sent i
  rw [hnil, List.append_nil] at hsent
  rw [hsent, List.flatMap_cons, n.printed_request, List.nil_append]

/-- With nothing on the way, a node has taken all that was written to it. -/
theorem InTransit.taken_of_nothingDown {s : NetworkState n} {tr : NetworkHistory ι}
    {coming : ι → List (List UInt8)} (h : InTransit s tr coming) {j : ι}
    (hdown : s.NothingDown j) :
    ((n.node j).argEcho = true → (s.node j).node.stdout =
      (writesTo j tr).flatMap fun w => printed n.router.order w.bytes) ∧
    ((n.node j).argEcho = false → handedOf j tr =
      ((writesTo j tr).map Write.bytes).filterMap (dataOf n.router.order)) := by
  obtain ⟨taken, pending, hwritten, hinbox, -, hstdout, hhanded⟩ := (h.attached j).takes
  have hpending : ∀ f ∈ pending, WellFormed n.router.order f := by
    intro f hf
    rw [← n.order_node j]
    exact ((h.attached j).forNode f (hwritten ▸ List.mem_append_right _ hf)).1
  have hnil : pending = [] := by
    refine eq_nil_of_flatten_eq_nil hpending ?_
    obtain ⟨b, hb, hbytes⟩ := (hinbox hdown.running).kept
    have hwindow := hdown.window
    rw [Dispatch.window, hb] at hwindow
    rw [← hbytes, hdown.down, List.append_nil]
    exact hwindow
  rw [hnil, List.append_nil] at hwritten
  refine ⟨fun hecho => ?_, fun hecho => ?_⟩
  · rw [hstdout hecho, ← List.flatMap_map Write.bytes, hwritten, n.order_node j]
  · rw [handedOf, hhanded hecho, hwritten, n.order_node j]

/-- The node has read from nothing but its standard input and the router. -/
def NetworkHistory.OnlyStdin (routerFd : Int) (i : ι) (tr : NetworkHistory ι) : Prop :=
  ∀ e ∈ rounds i tr, ∀ fd ∈ e.2.read, fd = STDIN_FILENO ∨ fd = routerFd

instance (routerFd : Int) (i : ι) (tr : NetworkHistory ι) :
    Decidable (OnlyStdin routerFd i tr) :=
  letI (e : List UInt8 × Round) :
      Decidable (∀ fd ∈ e.2.read, fd = STDIN_FILENO ∨ fd = routerFd) :=
    Option.decidableForallMem _
  List.decidableBAll _ _

/-- A node with one stream has sent what was cut off it. -/
theorem Attached.printed_sent {c : DispatchConfig} {argAddress : UInt32} {node : Dispatch c}
    {down : List UInt8} {written : List (List UInt8)} {rounds : List (List UInt8 × Round)}
    {fd : Int} (h : Attached argAddress node down written rounds)
    (honly : ∀ e ∈ rounds, ∀ fd' ∈ e.2.read, fd' = fd ∨ fd' = c.routerFd) :
    (rounds.flatMap fun e => e.2.frames).flatMap (printed c.order) =
      (packetsFrom fd rounds).flatMap (printed c.order) := by
  rw [packetsFrom, List.flatMap_assoc, List.flatMap_assoc]
  refine List.flatMap_congr fun e he => ?_
  have hclaims : (e.2.actions.filterMap SinkAction.frame).flatMap (printed c.order) = [] := by
    rw [List.flatMap_eq_nil_iff]
    intro f hf
    obtain ⟨address, rfl⟩ := h.claims e he f hf
    exact printed_claimFrame c.order address
  rw [Round.frames, List.flatMap_append, hclaims, List.nil_append]
  split
  · rfl
  · rename_i hread
    have hnone : e.2.packets = [] := by
      by_contra hne
      obtain ⟨fd', hfd, hsome⟩ := h.sources e he hne
      rcases honly e he fd' hsome with rfl | hrouter
      · exact hread hsome
      · exact hfd hrouter
    rw [hnone]

/-- What node `i` sends arrives at node `j`: what is passed on is the beginning of the data
    that was sent. When no byte is under way, it is all of it, and all that was written to
    node `j` is printed or handed to a process. -/
structure Arrives (n : Network ι) (s : NetworkState n) (tr : NetworkHistory ι) (i j : ι) :
    Prop where
  begins : passed n.router.order i j tr <+: (sentOf i tr).flatMap (printed n.router.order)
  all : s.NothingUp i →
    passed n.router.order i j tr = (sentOf i tr).flatMap (printed n.router.order)
  /-- What no delimiter follows yet is kept. -/
  stdin : s.NothingUp i → OnlyStdin (n.node i).routerFd i tr →
    (s.node i).status = false → STDIN_FILENO ≠ (n.node i).routerFd →
    passed n.router.order i j tr ++ (s.node i).window STDIN_FILENO =
      readFrom STDIN_FILENO (rounds i tr)
  printed : s.NothingDown j → (n.node j).argEcho = true →
    (s.node j).node.stdout = (writesTo j tr).flatMap fun w => printed n.router.order w.bytes
  handed : s.NothingDown j → (n.node j).argEcho = false →
    handedOf j tr = ((writesTo j tr).map Write.bytes).filterMap (dataOf n.router.order)

/-- Over a bridge all that is sent arrives. -/
theorem NetworkState.Run.arrives {listenFd : Int} {s : NetworkState n} {tr : NetworkHistory ι}
    {i j : ι} (hrun : NetworkState.Run n (NetworkState.init n listenFd) tr s)
    (hbridged : Bridged n.router.order tr i j) : Arrives n s tr i j := by
  obtain ⟨coming, htransit⟩ := hrun.inTransit
  have hpassed := NetworkState.Run.passed_eq hrun hbridged
  refine ⟨?_, fun hup => ?_, fun hup honly hrunning hstdin => ?_, fun hdown => ?_, fun hdown => ?_⟩
  · rw [hpassed]
    exact htransit.printed_begins i
  · rw [hpassed, htransit.served_of_nothingUp hup]
  · have hattached := htransit.attached i
    rw [hpassed, htransit.served_of_nothingUp hup, ← n.order_node i,
      ← (hattached.streams _ hstdin |>.stdin rfl).2 hrunning, sentOf, hattached.printed_sent honly]
  · exact (htransit.taken_of_nothingDown hdown).1
  · exact (htransit.taken_of_nothingDown hdown).2

/-- If there is always a bridge from node `i` to node `j`, what is passed from the one to
    the other is what was served of the first, each piece once and in order. When no byte of
    the two is under way, it is all that the first has sent, and the second has printed it or
    handed it to its processes, with what else was written to it. -/
theorem network_passes {listenFd : Int} {s : NetworkState n} {tr : NetworkHistory ι} {i j : ι}
    (hrun : NetworkState.Run n (NetworkState.init n listenFd) tr s)
    (hbridged : Bridged n.router.order tr i j) : Arrives n s tr i j :=
  hrun.arrives hbridged

theorem network_passes_merge :
    ∃ tr s, NetworkState.Run smallNetwork (NetworkState.init smallNetwork 3) tr s ∧
      passed .little 0 2 tr = [0x68, 0x69] ∧ s.NothingUp 0 ∧ s.NothingDown 2 ∧
      Arrives smallNetwork s tr 0 2 := by
  have hsim : (Machine.simulate (NetworkState.Allowed smallNetwork)
      (NetworkState.step smallNetwork) (NetworkState.init smallNetwork 3)
      smallNetworkActions).any (fun r => Bridged .little r.2 0 2 && r.1.NothingUp 0 &&
        r.1.NothingDown 2 && passed .little 0 2 r.2 = [0x68, 0x69]) = true := by
    decide +kernel
  obtain ⟨tr, s, hrun, hlast⟩ := Machine.Run.exists_of_simulate hsim
  simp only [Bool.and_eq_true, decide_eq_true_eq] at hlast
  obtain ⟨⟨⟨hbridged, hup⟩, hdown⟩, hpassed⟩ := hlast
  have harrives := network_passes hrun hbridged
  exact ⟨tr, s, hrun, hpassed, hup, hdown, harrives⟩

/-! ## What is shared out -/

/-- A frame that one target was selected for is passed on to one node at most. -/
theorem Passes.shared {s : NetworkState n} {coming : ι → List (List UInt8)}
    (htraffic : Traffic s coming) {h : History} {i : ι} {seen : NetworkSeen ι}
    (hpasses : Passes n s h i seen)
    (hdivides : ∀ source ∈ seen.sourceOf n.router.order i, Divides (h.policy source)) :
    ∃ owner : Option ι, ∀ j, seen.passed n.router.order i j =
      if owner = some j then
        (seen.frameFrom (some i)).toList.flatMap (printed n.router.order) else [] := by
  cases hpasses with
  | nothing _ hpassed => exact ⟨none, hpassed⟩
  | frame f targets hframe hselects hpassed =>
    cases hsource : seen.sourceOf n.router.order i with
    | none =>
      have hnone := NetworkSeen.printed_of_sourceOf hframe hsource
      exact ⟨none, fun j => by simp [hpassed j, hnone]⟩
    | some source =>
      obtain ⟨target, rfl⟩ := (hselects source hsource).single (hdivides source hsource)
      by_cases howner : ∃ j, s.connection j = .established (h.boundFd target)
      · obtain ⟨j, hj⟩ := howner
        refine ⟨some j, fun k => ?_⟩
        rw [hpassed k, hframe]
        by_cases hk : k = j
        · subst hk
          simp [hj, History.copiesTo]
        · have hzero : h.copiesTo [target] (s.connection k) = 0 := by
            cases hconnection : s.connection k with
            | established fd =>
              have hne : h.boundFd target ≠ fd := by
                rintro rfl
                exact hk (htraffic.apart k j _ hconnection hj)
              simp [History.copiesTo, hne]
            | _ => rfl
          rw [hzero, if_neg fun heq => hk (Option.some.inj heq).symm]
          rfl
      · refine ⟨none, fun k => ?_⟩
        have hzero : h.copiesTo [target] (s.connection k) = 0 := by
          cases hconnection : s.connection k with
          | established fd =>
            have hne : h.boundFd target ≠ fd := by
              rintro rfl
              exact howner ⟨k, hconnection⟩
            simp [History.copiesTo, hne]
          | _ => rfl
        rw [hpassed k, hzero]
        simp

/-- The pieces that went to a node. -/
def shareOf (shares : List (List UInt8 × Option ι)) (j : ι) : List UInt8 :=
  ((shares.filter fun share => share.2 = some j).map Prod.fst).flatten

/-- Under a policy that takes one target, what was served of a node is shared out: each
    piece is passed on to one node or to none, and each node gets its pieces in order. -/
theorem network_shares {listenFd : Int} {s : NetworkState n}
    {tr : NetworkHistory ι} {i : ι}
    (hrun : NetworkState.Run n (NetworkState.init n listenFd) tr s)
    (hshared : SharedOut n.router.order tr i) :
    ∃ shares : List (List UInt8 × Option ι),
      (shares.map Prod.fst).flatten <+: (sentOf i tr).flatMap (printed n.router.order) ∧
        ∀ j, NetworkHistory.passed n.router.order i j tr = shareOf shares j := by
  have hshares : ∃ shares : List (List UInt8 × Option ι),
      (shares.map Prod.fst).flatten =
        (framesOf (some i) tr).flatMap (printed n.router.order) ∧
      ∀ j, NetworkHistory.passed n.router.order i j tr = shareOf shares j := by
    induction hrun with
    | nil => exact ⟨[], rfl, fun _ => rfl⟩
    | @snoc tr s s' action seen hrun hallowed hstep ih =>
      obtain ⟨hshared, hdivides⟩ := hshared.of_snoc
      obtain ⟨shares, hserved, hpassed⟩ := ih hshared
      obtain ⟨coming, htransit⟩ := NetworkState.Run.inTransit hrun
      obtain ⟨owner, howner⟩ :=
        (NetworkState.Run.passes hrun hstep i).shared htransit.traffic hdivides
      refine ⟨shares ++ [((seen.frameFrom (some i)).toList.flatMap (printed n.router.order),
        owner)], ?_, fun j => ?_⟩
      · rw [framesOf_snoc, List.flatMap_append, List.map_append, List.flatten_append, hserved]
        simp
      · rw [NetworkHistory.passed_snoc, hpassed j, howner j]
        by_cases hj : owner = some j <;> simp [shareOf, hj]
  obtain ⟨shares, hserved, hpassed⟩ := hshares
  refine ⟨shares, ?_, hpassed⟩
  obtain ⟨coming, htransit⟩ := hrun.inTransit
  rw [hserved]
  exact htransit.printed_begins i

theorem network_shares_turns :
    ∃ tr s, NetworkState.Run smallNetwork
        (NetworkState.init smallNetwork 3) tr s ∧
      NetworkHistory.passed .little 0 2 tr = [0x0A, 0x69] ∧
      NetworkHistory.passed .little 0 1 tr = [0x68] ∧
      ∃ shares : List (List UInt8 × Option (Fin 3)),
        (shares.map Prod.fst).flatten <+: (sentOf 0 tr).flatMap (printed .little) ∧
          ∀ j, NetworkHistory.passed .little 0 j tr = shareOf shares j := by
  have hsim : (Machine.simulate (NetworkState.Allowed smallNetwork)
      (NetworkState.step smallNetwork) (NetworkState.init smallNetwork 3)
      smallShareActions).any (fun r => SharedOut .little r.2 (0 : Fin 3) &&
        NetworkHistory.passed .little 0 2 r.2 = [0x0A, 0x69] &&
        NetworkHistory.passed .little 0 1 r.2 = [0x68]) = true := by
    decide +kernel
  obtain ⟨tr, s, hrun, hlast⟩ := Machine.Run.exists_of_simulate hsim
  simp only [Bool.and_eq_true, decide_eq_true_eq] at hlast
  obtain ⟨⟨hshared, hsecond⟩, hfirst⟩ := hlast
  have hshares := network_shares hrun hshared
  exact ⟨tr, s, hrun, hsecond, hfirst, hshares⟩
