-- SUMMARY: Connecting nodes by address: an address leads to the last client that claimed it, and a connected node gets everything.
import GraphIPC.System.Handshake

/-!
# Nodes that are connected

An address is bound to the connection that last claimed it. So a node that has claimed an
address gets what is sent there, until another client claims the address or the router
drops the node: it is enough to connect two nodes once to have all of one printed by the
other.
-/

variable {ι : Type} {n : Network ι} [DecidableEq ι]

open NetworkHistory

/-! ## Who an address is bound to -/

namespace NetworkSeen

/-- The client that the router has served a claim of an address for in a step. -/
def claimant (order : ByteOrder) (address : UInt32) : NetworkSeen ι → Option (Option ι)
  | .router client output _ =>
    if (output.request order).any fun e => e.2.claims address then some client else none
  | _ => none

end NetworkSeen

namespace NetworkHistory

/-- The clients that have claimed an address, in order. -/
def claimants (order : ByteOrder) (address : UInt32) (tr : NetworkHistory ι) : List (Option ι) :=
  tr.filterMap fun e => e.2.claimant order address

omit [DecidableEq ι] in
@[simp] theorem claimants_snoc (order : ByteOrder) (address : UInt32) (tr : NetworkHistory ι)
    (e : NetworkAction ι × NetworkSeen ι) :
    claimants order address (tr ++ [e]) =
      claimants order address tr ++ (e.2.claimant order address).toList := by
  cases h : e.2.claimant order address <;> simp [claimants, h]

/-- The client that was the last to claim an address. -/
def owner (order : ByteOrder) (address : UInt32) (tr : NetworkHistory ι) : Option (Option ι) :=
  (claimants order address tr).getLast?

end NetworkHistory

/-- What a node has claimed is bound to its connection until another client claims it. -/
structure Owned (s : NetworkState n) (tr : NetworkHistory ι) (i : ι) : Prop where
  waiting : s.connection i = .waiting → ∀ address, some i ∉ claimants n.router.order address tr
  established : ∀ fd, s.connection i = .established fd → ∀ address,
    owner n.router.order address tr = some (some i) →
      (requests n.router.order tr).boundFd address = fd

namespace Owned

variable {s : NetworkState n} {tr : NetworkHistory ι} {i : ι} (h : Owned s tr i)
include h

omit [DecidableEq ι] in
/-- A step that serves no request changes no owner. A connection starts without addresses. -/
theorem of_quiet {action : NetworkAction ι} {s' : NetworkState n} {seen : NetworkSeen ι}
    (hrequest : seen.request n.router.order = none)
    (hwaiting : s'.connection i = .waiting → s.connection i = .waiting)
    (hestablished : ∀ fd, s'.connection i = .established fd →
      s.connection i = .established fd ∨ s.connection i = .waiting) :
    Owned s' (tr ++ [(action, seen)]) i := by
  have hclaimant : ∀ address, seen.claimant n.router.order address = none := by
    intro address
    cases seen with
    | router client output delivered =>
      have hnone : output.request n.router.order = none := hrequest
      simp [NetworkSeen.claimant, hnone]
    | _ => rfl
  refine ⟨fun hwait address => ?_, fun fd hestab address howner => ?_⟩
  · rw [claimants_snoc, hclaimant, Option.toList_none, List.append_nil]
    exact h.waiting (hwaiting hwait) address
  · rw [owner, claimants_snoc, hclaimant, Option.toList_none, List.append_nil] at howner
    rw [requests_snoc, hrequest, Option.toList_none, List.append_nil]
    rcases hestablished fd hestab with hold | hold
    · exact h.established fd hold address howner
    · exact absurd (List.mem_of_getLast? howner) (h.waiting hold address)

/-- A claim binds the address to the connection that it came on. -/
theorem claimed {action : NetworkAction ι} {client : Option ι} {router : Router n.router}
    {output : Output} {seen : NetworkSeen ι} {fd : Int} {r : Request}
    (hseen : seen = .router client output fun i => (s.connection i).delivered output)
    (hsame : (s.routed client router output).connection i = s.connection i)
    (hrequest : output.request n.router.order = some (fd, r))
    (hclient : s.connection i = .established fd ↔ client = some i) :
    Owned (s.routed client router output) (tr ++ [(action, seen)]) i := by
  have hclaimant : ∀ address, seen.claimant n.router.order address =
      if r.claims address then some client else none := by
    intro address
    simp [hseen, NetworkSeen.claimant, hrequest]
  have hseenRequest : seen.request n.router.order = some (fd, r) := by
    rw [hseen]
    exact hrequest
  refine ⟨fun hwaiting address hmem => ?_, fun fd' hestablished address howner => ?_⟩
  · rw [claimants_snoc, hclaimant, List.mem_append] at hmem
    rcases hmem with hmem | hmem
    · exact h.waiting (hsame ▸ hwaiting) address hmem
    · have hmine : client = some i := by
        split at hmem
        · exact (List.mem_singleton.1 hmem).symm
        · cases hmem
      rw [hsame, hclient.2 hmine] at hwaiting
      cases hwaiting
  · rw [hsame] at hestablished
    rw [requests_snoc, hseenRequest, Option.toList_some, History.boundFd_snoc]
    rw [owner, claimants_snoc, hclaimant] at howner
    split
    · rename_i hclaims
      rw [if_pos hclaims] at howner
      have hmine : client = some i := by simpa using howner
      rw [hclient.2 hmine] at hestablished
      exact (Connection.established.inj hestablished)
    · rename_i hclaims
      rw [if_neg hclaims, Option.toList_none, List.append_nil] at howner
      exact h.established fd' hestablished address howner

/-- A step of the router. -/
theorem router {action : NetworkAction ι} {act : Act} {client : Option ι}
    {router : Router n.router} {output : Output} {seen : NetworkSeen ι}
    (hseen : seen = .router client output fun i => (s.connection i).delivered output)
    (heffect : Router.Effect n.router s.router act router output)
    (haccept : client = some i → ∀ remoteFd, act = .accept remoteFd → s.connection i = .waiting)
    (hclient : ∀ fd data discarded call writes, output = .handled fd data discarded call writes →
      (s.connection i = .established fd ↔ client = some i)) :
    Owned (s.routed client router output) (tr ++ [(action, seen)]) i := by
  cases output with
  | nothing => exact h.of_quiet (by rw [hseen]; rfl) id fun _ => .inl
  | accepted fd =>
    have hquiet : seen.request n.router.order = none := by
      rw [hseen]
      rfl
    by_cases hmine : client = some i
    · cases heffect with
      | accepted =>
        refine h.of_quiet hquiet (fun _ => haccept hmine _ rfl) fun _ _ => ?_
        exact .inr (haccept hmine _ rfl)
    · have hsame : (s.connection i).after (client = some i) (.accepted fd) = s.connection i := by
        simp [Connection.after, hmine]
      refine h.of_quiet hquiet (fun hwait => hsame ▸ hwait) fun _ hestab => .inl ?_
      exact hsame ▸ hestab
  | closed fd =>
    have hquiet : seen.request n.router.order = none := by
      rw [hseen]
      rfl
    refine h.of_quiet hquiet (fun hwait => ?_) fun _ hestab => .inl ?_
    · simp only [NetworkState.routed, Connection.after] at hwait
      split at hwait
      · cases hwait
      · exact hwait
    · simp only [NetworkState.routed, Connection.after] at hestab
      split at hestab
      · cases hestab
      · exact hestab
  | handled fd data discarded call writes =>
    cases call with
    | none => exact h.of_quiet (by rw [hseen]; rfl) id fun _ => .inl
    | some p =>
      obtain ⟨hfd, -, r, hparse, -⟩ := heffect.performed
      have hrequest : (Output.handled fd data discarded (some p) writes).request n.router.order =
          some (fd, r) := by
        simp [Output.request, Packet.request, hparse, hfd, Except.toOption]
      exact h.claimed hseen rfl hrequest (hclient _ _ _ _ _ rfl)

/-- Every step keeps what a node has claimed bound to its connection. -/
theorem step {action : NetworkAction ι} {s' : NetworkState n} {seen : NetworkSeen ι}
    (hallowed : NetworkState.Allowed n s action)
    (hstep : NetworkState.step n s action = .ok (s', seen)) :
    Owned s' (tr ++ [(action, seen)]) i := by
  cases NetworkState.effect_of_step hstep with
  | accept heffect =>
    refine h.router rfl heffect (fun hmine _ _ => hallowed.2 i hmine) ?_
    rintro _ _ _ _ _ rfl
    cases heffect
  | event heffect =>
    refine h.router rfl heffect (fun _ _ hact => by cases hact) ?_
    rintro _ _ _ _ _ rfl
    cases heffect with
    | handled _ hfd =>
      rw [← hfd]
      exact (hallowed.2 i).1
  | _ => exact h.of_quiet rfl id fun _ => .inl

end Owned

theorem NetworkState.Run.owned {listenFd : Int} {s : NetworkState n}
    {tr : NetworkHistory ι}
    (hrun : NetworkState.Run n (NetworkState.init n listenFd) tr s) (i : ι) :
    Owned s tr i := by
  refine Machine.Run.induct (P := fun tr s => Owned s tr i) ⟨fun _ _ => by simp [claimants],
    fun _ hestablished => by cases hestablished⟩ ?_ hrun
  rintro tr s action seen s' - howned hallowed hstep
  exact howned.step hallowed hstep

/-- A connection that is lost is not made again. -/
theorem NetworkState.Run.lost {s₀ s : NetworkState n} {tr : NetworkHistory ι}
    (hrun : NetworkState.Run n s₀ tr s) {i : ι} (hlost : s₀.connection i = .lost) :
    s.connection i = .lost := by
  refine Machine.Run.induct (P := fun _ s => s.connection i = .lost) hlost ?_ hrun
  rintro tr s action seen s' - hlost hallowed hstep
  have hrouter : ∀ {client : Option ι} {output : Output},
      (client = some i → ∀ fd, output ≠ .accepted fd) →
      (s.connection i).after (client = some i) output = .lost := by
    intro client output haccept
    cases output with
    | accepted fd =>
      have hother : ¬client = some i := fun hmine => haccept hmine fd rfl
      simp [Connection.after, hother, hlost]
    | closed fd => simp [Connection.after, hlost]
    | _ => exact hlost
  cases NetworkState.effect_of_step hstep with
  | accept heffect =>
    refine hrouter fun hmine fd _ => ?_
    have hwaiting := hallowed.2 i hmine
    rw [hlost] at hwaiting
    cases hwaiting
  | event heffect =>
    refine hrouter fun _ fd => ?_
    rintro rfl
    cases heffect
  | _ => exact hlost

/-! ## Nodes that are connected -/

/-- Whenever data of node `i` is served, its source is connected to one address, which
    node `j` was the last to claim. -/
abbrev Connected (order : ByteOrder) (tr : NetworkHistory ι) (i j : ι) : Prop :=
  WheneverServed order i tr fun tr₁ source =>
    (requests order tr₁).policy source = GNW_POLICY_BROADCAST ∧
      ((requests order tr₁).forward source).map (fun target => owner order target tr₁) =
        [some (some j)]

omit [DecidableEq ι] in
/-- The address of a node that is there is a bridge to it. -/
theorem Owned.bridge {s : NetworkState n} {tr : NetworkHistory ι} {j : ι} (h : Owned s tr j)
    (hopen : s.connection j ≠ .lost) {source : UInt32}
    (hbroadcast : (requests n.router.order tr).policy source = GNW_POLICY_BROADCAST)
    (hforward : ((requests n.router.order tr).forward source).map
      (fun target => owner n.router.order target tr) = [some (some j)]) :
    Bridge (requests n.router.order tr) source (s.connection j) := by
  refine ⟨hbroadcast, ?_⟩
  obtain ⟨target, htarget, howner⟩ := List.map_eq_singleton_iff.1 hforward
  rw [htarget]
  cases hconnection : s.connection j with
  | waiting => exact absurd (List.mem_of_getLast? howner) (h.waiting hconnection target)
  | established fd => simp [History.copiesTo, h.established fd hconnection target howner]
  | lost => exact absurd hconnection hopen

/-- A connection to the address of a node that is there is always a bridge to it. -/
theorem NetworkState.Run.bridged {listenFd : Int} {s : NetworkState n} {tr : NetworkHistory ι}
    {i j : ι} (hrun : NetworkState.Run n (NetworkState.init n listenFd) tr s)
    (hconnected : Connected n.router.order tr i j) (hopen : s.connection j ≠ .lost) :
    Bridged n.router.order tr i j := by
  rintro tr₁ e tr₂ rfl source hsource
  obtain ⟨hbroadcast, hforward⟩ := hconnected tr₁ e tr₂ rfl source hsource
  obtain ⟨s₁, hrun₁, hrest⟩ := Machine.Run.split hrun
  rw [← NetworkState.Run.connection_eq hrun₁ j]
  refine (NetworkState.Run.owned hrun₁ j).bridge (fun hlost => hopen ?_) hbroadcast hforward
  exact NetworkState.Run.lost hrest hlost

/-- If node `i` is connected to the address of node `j`, and the router does not drop node
    `j`, what the first sends arrives at the second. -/
theorem network_connected {listenFd : Int} {s : NetworkState n} {tr : NetworkHistory ι} {i j : ι}
    (hrun : NetworkState.Run n (NetworkState.init n listenFd) tr s)
    (hconnected : Connected n.router.order tr i j) (hopen : s.connection j ≠ .lost) :
    Arrives n s tr i j :=
  NetworkState.Run.arrives hrun (NetworkState.Run.bridged hrun hconnected hopen)

theorem network_connected_merge :
    ∃ tr s, NetworkState.Run smallNetwork (NetworkState.init smallNetwork 3) tr s ∧
      passed .little 1 2 tr = [0x79, 0x6F] ∧ s.NothingUp 1 ∧ s.NothingDown 2 ∧
      Arrives smallNetwork s tr 1 2 := by
  have hsim : (Machine.simulate (NetworkState.Allowed smallNetwork)
      (NetworkState.step smallNetwork) (NetworkState.init smallNetwork 3)
      smallNetworkActions).any (fun r => Connected .little r.2 1 2 &&
        r.1.connection 2 = .established 4 && r.1.NothingUp 1 && r.1.NothingDown 2 &&
        passed .little 1 2 r.2 = [0x79, 0x6F]) = true := by
    decide +kernel
  obtain ⟨tr, s, hrun, hlast⟩ := Machine.Run.exists_of_simulate hsim
  simp only [Bool.and_eq_true, decide_eq_true_eq] at hlast
  obtain ⟨⟨⟨⟨hconnected, hopen⟩, hup⟩, hdown⟩, hpassed⟩ := hlast
  have harrives := network_connected hrun hconnected (by simp [hopen])
  exact ⟨tr, s, hrun, hpassed, hup, hdown, harrives⟩
