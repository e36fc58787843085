-- SUMMARY: The control plane of the router refines a model that knows nothing but the requests received so far.
import GraphIPC.Base.Machine
import GraphIPC.Router.Forward
import Mathlib.Data.List.TakeWhile

/-!
# The control plane

What the address table says about an address is determined by the requests the
router has handled: which addresses were claimed or connected, which edges were
added, which policy was set last and which connection claimed last. The abstract
model states this as functions of the history of requests alone.
-/

namespace AddressTable

/-- The context of an address, or the one it would be set up with. -/
def context (t : AddressTable) (a : UInt32) : Context := (t a).getD setupContext

theorem context_of_some {t : AddressTable} {a : UInt32} {entry : Context} (h : t a = some entry) :
    t.context a = entry := by
  simp [context, h]

theorem context_of_none {t : AddressTable} {a : UInt32} (h : t a = none) :
    t.context a = setupContext := by
  simp [context, h]

/-- Bind an address to a descriptor and keep whatever else is known of it. -/
def claim (t : AddressTable) (fd : Int) (address : UInt32) : AddressTable :=
  t.set address { t.context address with boundFd := fd }

/-- Add an edge at the end and keep whatever else is known of its source. -/
def connect (t : AddressTable) (source target : UInt32) : AddressTable :=
  t.set source { t.context source with forward := (t.context source).forward ++ [target] }

/-- A claim and a connection may be made in either order. -/
theorem connect_claim (t : AddressTable) (fd : Int) (address source target : UInt32) :
    (t.claim fd address).connect source target = (t.connect source target).claim fd address := by
  by_cases h : address = source
  · subst h
    simp [claim, connect, context]
  · have hne : source ≠ address := fun heq => h heq.symm
    simp only [claim, connect, context, Table.set_of_ne h, Table.set_of_ne hne]
    exact Table.set_comm h ..

/-! ## The commands over a finite map -/

/-- A new address gets a new context, and a known one keeps its own. -/
theorem findOrSetup_eq (address : UInt32) (t : AddressTable) :
    findOrSetup address t = .ok (t.set address (t.context address), some address) := by
  cases h : t address with
  | none =>
    have hmissing : isMissing t (none : Option UInt32) = .ok true := rfl
    simp [findOrSetup, Table.khGet_of_none h, hmissing, Table.khPut_of_none h,
      Table.khSetValue_of_some (Table.set_self ..), context_of_none h]
  | some entry =>
    have hend : some address ≠ khEnd t := by simp [khEnd]
    simp [findOrSetup, Table.khGet_of_some h, isMissing, hend, Table.khExist_of_some h,
      context_of_some h, Table.set_of_eq h]

/-- The reply to a claim. -/
def newAddressReply (order : ByteOrder) (fd : Int) (address : UInt32) : Write where
  fd := fd
  bytes := frameBytes order GNW_REPLY 0xFFFFFFFF (GNW_CMD_NEW_ADDRESS :: u32Bytes order address)
  target := none

theorem cmdNewAddress_eq (order : ByteOrder) (fd : Int) (address : UInt32) (t : AddressTable) :
    cmdNewAddress order fd address t =
      .ok (t.claim fd address, [newAddressReply order fd address]) := by
  have hreply : (packetWriteU32 order (packetWriteU8 ⟨[0, 0, 0, 0, 0], 0⟩ GNW_CMD_NEW_ADDRESS)
      address) = ⟨GNW_CMD_NEW_ADDRESS :: u32Bytes order address, 5⟩ := rfl
  have hemit := gnwEmitCommandPacket_eq order GNW_REPLY
    (GNW_CMD_NEW_ADDRESS :: u32Bytes order address)
  rw [List.length_cons, length_u32Bytes] at hemit
  have hself := Table.set_self t address (t.context address)
  simp [cmdNewAddress, findOrSetup_eq, Table.khValue_of_some hself,
    Table.khSetValue_of_some hself, hreply, hemit, claim, newAddressReply]

theorem cmdConnect_eq (source target : UInt32) (t : AddressTable) :
    cmdConnect source target t = .ok (t.connect source target, []) := by
  have hend : ∀ t : AddressTable, some source ≠ khEnd t := by simp [khEnd]
  have hself := Table.set_self t source (t.context source)
  simp [cmdConnect, findOrSetup_eq, hend, Table.khValue_of_some hself,
    Table.khSetValue_of_some hself, connect]

/-- `GNW_CMD_POLICY` on an unknown address is ignored. -/
theorem cmdPolicy_of_none {t : AddressTable} {target : UInt32} (h : t target = none)
    (policy : UInt8) : cmdPolicy policy target t = .ok (t, []) := by
  have hend : khEnd t = (none : Option UInt32) := rfl
  simp [cmdPolicy, Table.khGet_of_none h, hend]

/-- `GNW_CMD_POLICY` sets the policy of a known address, if the policy has a name
    to be logged under. -/
theorem cmdPolicy_of_some {t : AddressTable} {target : UInt32} {entry : Context}
    (h : t target = some entry) {policy : UInt8} (hpolicy : policy.toNat < 4) :
    cmdPolicy policy target t =
      .ok (t.set target { entry with forwardPolicy := policy.toNat }, []) := by
  have hend : some target ≠ khEnd t := by simp [khEnd]
  have hname : policy.toNat < policyStr.length := hpolicy
  simp [cmdPolicy, Table.khGet_of_some h, hend, Table.khValue_of_some h,
    Table.khSetValue_of_some h, List.getElem?_eq_getElem hname]

/-- A policy without a name is looked up behind the end of the names. -/
theorem cmdPolicy_of_unnamed {t : AddressTable} {target : UInt32} {entry : Context}
    (h : t target = some entry) {policy : UInt8} (hpolicy : 4 ≤ policy.toNat) :
    cmdPolicy policy target t = .error .outOfBounds := by
  have hend : some target ≠ khEnd t := by simp [khEnd]
  have hname : policyStr.length ≤ policy.toNat := hpolicy
  simp [cmdPolicy, Table.khGet_of_some h, hend, Table.khValue_of_some h,
    Table.khSetValue_of_some h, List.getElem?_eq_none hname]

end AddressTable

/-- The outcomes of a request. -/
inductive Performed (order : ByteOrder) (fd : Int) (buffer : List UInt8) (rand : Nat → RandResult)
    (t : AddressTable) : Request → AddressTable → List Write → Prop where
  | claimed (address : UInt32) :
      Performed order fd buffer rand t (.newAddress address) (t.claim fd address)
        [AddressTable.newAddressReply order fd address]
  | connected (source target : UInt32) :
      Performed order fd buffer rand t (.connect source target) (t.connect source target) []
  | policySet {policy : UInt8} {target : UInt32} {entry : Context} :
      t target = some entry →
      Performed order fd buffer rand t (.setPolicy policy target)
        (t.set target { entry with forwardPolicy := policy.toNat }) []
  | policyIgnored {policy : UInt8} {target : UInt32} : t target = none →
      Performed order fd buffer rand t (.setPolicy policy target) t []
  | forwarded {source : UInt32} {entry : Context} {targets : List UInt32} :
      t source = some entry → (entry.countIn buffer.length).targets rand = .ok targets →
      Performed order fd buffer rand t (.data source)
        (AddressTable.credit (t.set source (entry.countIn buffer.length)) buffer.length targets)
        (targets.filterMap (t.copyTo buffer))
  | dropped {source : UInt32} : t source = none →
      Performed order fd buffer rand t (.data source) t []
  | unhandled : Performed order fd buffer rand t .unhandled t []

/-- A call of `handle_packet` that does not fail has one of these outcomes. -/
theorem performed_of_handlePacket {order : ByteOrder} {fd : Int} {buffer : List UInt8}
    {rand : Nat → RandResult} {t t' : AddressTable} {writes : List Write}
    (h : handlePacket order fd buffer rand t = .ok (t', writes)) :
    ∃ r, Request.parse order buffer rand = .ok r ∧
      Performed order fd buffer rand t r t' writes := by
  rw [handlePacket_eq, Except.bind_eq_ok_iff] at h
  obtain ⟨r, hparse, h⟩ := h
  refine ⟨r, hparse, ?_⟩
  cases r with
  | newAddress address =>
    rw [Request.perform, AddressTable.cmdNewAddress_eq] at h
    cases h
    exact .claimed address
  | connect source target =>
    rw [Request.perform, AddressTable.cmdConnect_eq] at h
    cases h
    exact .connected source target
  | setPolicy policy target =>
    rw [Request.perform] at h
    cases htarget : t target with
    | none =>
      rw [AddressTable.cmdPolicy_of_none htarget] at h
      cases h
      exact .policyIgnored htarget
    | some entry =>
      by_cases hpolicy : policy.toNat < 4
      · rw [AddressTable.cmdPolicy_of_some htarget hpolicy] at h
        cases h
        exact .policySet htarget
      · rw [AddressTable.cmdPolicy_of_unnamed htarget (by omega)] at h
        cases h
  | data source =>
    rw [Request.perform] at h
    cases hsource : t source with
    | none =>
      rw [AddressTable.forwardData_of_none hsource] at h
      cases h
      exact .dropped hsource
    | some entry =>
      rw [AddressTable.forwardData_of_some hsource, Except.bind_eq_ok_iff] at h
      obtain ⟨targets, htargets, h⟩ := h
      cases h
      exact .forwarded hsource htargets
  | unhandled =>
    cases h
    exact .unhandled

/-! ## The model -/

/-- The requests handled so far, each with the descriptor it came in on. -/
abbrev History : Type := List (Int × Request)

/-- A request that makes an address known. -/
def Request.introduces (a : UInt32) : Request → Bool
  | .newAddress address => address = a
  | .connect source _ => source = a
  | _ => false

/-- The edge that a request adds to an address. -/
def Request.edge (a : UInt32) : Request → Option UInt32
  | .connect source target => if source = a then some target else none
  | _ => none

/-- The policy that a request asks for an address. -/
def Request.policy (a : UInt32) : Request → Option UInt8
  | .setPolicy policy target => if target = a then some policy else none
  | _ => none

/-- Whether a request claims an address. -/
def Request.claims (a : UInt32) : Request → Bool
  | .newAddress address => address = a
  | _ => false

theorem Request.edge_of_not_introduces {a : UInt32} {r : Request} (h : r.introduces a = false) :
    r.edge a = none := by
  cases r <;> simp_all [introduces, edge]

theorem Request.claims_of_not_introduces {a : UInt32} {r : Request}
    (h : r.introduces a = false) : r.claims a = false := by
  cases r <;> simp_all [introduces, claims]

theorem Request.policy_of_introduces {a : UInt32} {r : Request} (h : r.introduces a = true) :
    r.policy a = none := by
  cases r <;> simp_all [introduces, policy]

namespace History

variable (h : History) (a : UInt32)

/-- An address is known once it was claimed or was the source of a connection. -/
def known : Bool := h.any fun e => e.2.introduces a

/-- The targets connected to an address, in the order they were. -/
def forward : List UInt32 := h.filterMap fun e => e.2.edge a

/-- The policies asked for an address since it is known. -/
def policies : List UInt8 :=
  (h.dropWhile fun e => !e.2.introduces a).filterMap fun e => e.2.policy a

/-- The last policy asked for an address since it is known. -/
def policy : Int := ((h.policies a).getLast?.map fun p => (p.toNat : Int)).getD GNW_POLICY_BROADCAST

/-- The descriptor of the last claim of an address. -/
def boundFd : Int := ((h.filter fun e => e.2.claims a).getLast?.map Prod.fst).getD (-1)

/-! ### One request more -/

section Snoc

variable {h a} (fd : Int) (r : Request)

theorem known_snoc : History.known (h ++ [(fd, r)]) a = (h.known a || r.introduces a) := by
  simp [known]

theorem forward_snoc :
    History.forward (h ++ [(fd, r)]) a = h.forward a ++ (r.edge a).toList := by
  cases hr : r.edge a <;> simp [forward, hr]

theorem boundFd_snoc :
    History.boundFd (h ++ [(fd, r)]) a = if r.claims a then fd else h.boundFd a := by
  cases hr : r.claims a <;> simp [boundFd, hr]

/-- Nobody asked anything of an address that is not known. -/
theorem not_introduces_of_not_known (hknown : h.known a = false) :
    ∀ e ∈ h, e.2.introduces a = false := by
  simpa [known] using hknown

theorem dropWhile_of_not_known (hknown : h.known a = false) :
    (h.dropWhile fun e => !e.2.introduces a) = [] := by
  rw [List.dropWhile_eq_nil_iff]
  intro e he
  rw [not_introduces_of_not_known hknown e he]
  rfl

theorem dropWhile_of_known (hknown : h.known a = true) :
    (h.dropWhile fun e => !e.2.introduces a) ≠ [] := by
  rw [Ne, List.dropWhile_eq_nil_iff]
  intro hall
  obtain ⟨e, he, hintro⟩ := List.any_eq_true.1 hknown
  simpa [hintro] using hall e he

theorem forward_of_not_known (hknown : h.known a = false) : h.forward a = [] := by
  rw [forward, List.filterMap_eq_nil_iff]
  intro e he
  exact Request.edge_of_not_introduces (not_introduces_of_not_known hknown e he)

theorem boundFd_of_not_known (hknown : h.known a = false) : h.boundFd a = -1 := by
  have hnil : (h.filter fun e => e.2.claims a) = [] := by
    rw [List.filter_eq_nil_iff]
    intro e he
    rw [Request.claims_of_not_introduces (not_introduces_of_not_known hknown e he)]
    decide
  rw [boundFd, hnil]
  rfl

theorem policy_snoc :
    History.policy (h ++ [(fd, r)]) a =
      if h.known a then ((r.policy a).map fun p => (p.toNat : Int)).getD (h.policy a)
      else GNW_POLICY_BROADCAST := by
  cases hknown : h.known a with
  | false =>
    have hlast : ([(fd, r)].dropWhile fun e => !e.2.introduces a).filterMap
        (fun e => e.2.policy a) = [] := by
      cases hr : r.introduces a with
      | false => simp [hr]
      | true => simp [hr, Request.policy_of_introduces hr]
    rw [policy, policies, List.dropWhile_append, dropWhile_of_not_known hknown]
    simp [hlast]
  | true =>
    have hdrop := dropWhile_of_known hknown
    have hempty : (h.dropWhile fun e => !e.2.introduces a).isEmpty = false := by
      simpa using hdrop
    rw [policy, policies, List.dropWhile_append, if_neg (by simpa using hdrop)]
    cases hr : r.policy a <;> simp [hr, policy, policies]

end Snoc

/-- A table that holds what the history determines, and nothing else. -/
structure Refines (h : History) (t : AddressTable) : Prop where
  known : ∀ a, (t a).isSome = h.known a
  forward : ∀ a entry, t a = some entry → entry.forward = h.forward a
  policy : ∀ a entry, t a = some entry → entry.forwardPolicy = h.policy a
  boundFd : ∀ a entry, t a = some entry → entry.boundFd = h.boundFd a

namespace Refines

variable {h : History} {t : AddressTable}

theorem nil : Refines [] (fun _ => none) where
  known _ := rfl
  forward _ _ h := by cases h
  policy _ _ h := by cases h
  boundFd _ _ h := by cases h

theorem context_forward (ht : Refines h t) (a : UInt32) : (t.context a).forward = h.forward a := by
  cases ha : t a with
  | some entry => rw [t.context_of_some ha, ht.forward a entry ha]
  | none =>
    have hknown : h.known a = false := by rw [← ht.known a, ha]; rfl
    rw [t.context_of_none ha, forward_of_not_known hknown]
    rfl

theorem context_policy (ht : Refines h t) (a : UInt32) :
    (t.context a).forwardPolicy = if h.known a then h.policy a else GNW_POLICY_BROADCAST := by
  cases ha : t a with
  | some entry =>
    have hknown : h.known a = true := by rw [← ht.known a, ha]; rfl
    rw [t.context_of_some ha, ht.policy a entry ha, if_pos hknown]
  | none =>
    have hknown : h.known a = false := by rw [← ht.known a, ha]; rfl
    rw [t.context_of_none ha, hknown]
    rfl

theorem context_boundFd (ht : Refines h t) (a : UInt32) :
    (t.context a).boundFd = h.boundFd a := by
  cases ha : t a with
  | some entry => rw [t.context_of_some ha, ht.boundFd a entry ha]
  | none =>
    have hknown : h.known a = false := by rw [← ht.known a, ha]; rfl
    rw [t.context_of_none ha, boundFd_of_not_known hknown]
    rfl

/-- A request that touches an address sets its context and no other. -/
theorem set (ht : Refines h t) {fd : Int} {r : Request} {a : UInt32} {entry : Context}
    (hknown : h.known a || r.introduces a)
    (hforward : entry.forward = h.forward a ++ (r.edge a).toList)
    (hpolicy : entry.forwardPolicy =
      if h.known a then ((r.policy a).map fun p => (p.toNat : Int)).getD (h.policy a)
      else GNW_POLICY_BROADCAST)
    (hbound : entry.boundFd = if r.claims a then fd else h.boundFd a)
    (hother : ∀ b, b ≠ a → r.introduces b = false ∧ r.policy b = none) :
    Refines (h ++ [(fd, r)]) (t.set a entry) := by
  have hknown' : ∀ b c, t b = some c → h.known b = true := by
    intro b c hb
    rw [← ht.known b, hb]
    rfl
  constructor
  · intro b
    by_cases hba : b = a
    · subst hba
      simp [known_snoc, hknown]
    · simp [known_snoc, Table.set_of_ne hba, ht.known, (hother b hba).1]
  · intro b c hb
    by_cases hba : b = a
    · subst hba
      obtain rfl : entry = c := by simpa using hb
      rw [hforward, forward_snoc]
    · rw [Table.set_of_ne hba] at hb
      simp [forward_snoc, Request.edge_of_not_introduces (hother b hba).1, ht.forward b c hb]
  · intro b c hb
    by_cases hba : b = a
    · subst hba
      obtain rfl : entry = c := by simpa using hb
      rw [hpolicy, policy_snoc]
    · rw [Table.set_of_ne hba] at hb
      simp [policy_snoc, (hother b hba).2, hknown' b c hb, ht.policy b c hb]
  · intro b c hb
    by_cases hba : b = a
    · subst hba
      obtain rfl : entry = c := by simpa using hb
      rw [hbound, boundFd_snoc]
    · rw [Table.set_of_ne hba] at hb
      simp [boundFd_snoc, Request.claims_of_not_introduces (hother b hba).1, ht.boundFd b c hb]

/-- A request that touches no address leaves the table, but for what it
    counts. -/
theorem unchanged (ht : Refines h t) {fd : Int} {r : Request} {t' : AddressTable}
    {count : UInt32 → Context → Context} (ht' : ∀ a, t' a = (t a).map (count a))
    (hcount : ∀ a entry, (count a entry).forward = entry.forward ∧
      (count a entry).forwardPolicy = entry.forwardPolicy ∧
      (count a entry).boundFd = entry.boundFd)
    (hr : ∀ a, r.introduces a = false ∧ (h.known a → r.policy a = none)) :
    Refines (h ++ [(fd, r)]) t' := by
  have hsome : ∀ a c, t' a = some c → ∃ entry, t a = some entry ∧ c = count a entry ∧
      h.known a = true := by
    intro a c hc
    rw [ht' a] at hc
    obtain ⟨entry, ha, rfl⟩ := Option.map_eq_some_iff.1 hc
    refine ⟨entry, ha, rfl, ?_⟩
    rw [← ht.known a, ha]
    rfl
  constructor
  · intro a
    simp [known_snoc, ht' a, ht.known a, (hr a).1]
  · intro a c hc
    obtain ⟨entry, ha, rfl, -⟩ := hsome a c hc
    simp [forward_snoc, Request.edge_of_not_introduces (hr a).1, (hcount a entry).1,
      ht.forward a entry ha]
  · intro a c hc
    obtain ⟨entry, ha, rfl, hknown⟩ := hsome a c hc
    simp [policy_snoc, (hr a).2 hknown, hknown, (hcount a entry).2.1, ht.policy a entry ha]
  · intro a c hc
    obtain ⟨entry, ha, rfl, -⟩ := hsome a c hc
    simp [boundFd_snoc, Request.claims_of_not_introduces (hr a).1, (hcount a entry).2.2,
      ht.boundFd a entry ha]

/-- The table after a request holds what the longer history determines. -/
theorem performed (ht : Refines h t) {order : ByteOrder} {fd : Int} {buffer : List UInt8}
    {rand : Nat → RandResult} {r : Request} {t' : AddressTable} {writes : List Write}
    (hr : Performed order fd buffer rand t r t' writes) : Refines (h ++ [(fd, r)]) t' := by
  cases hr with
  | claimed address =>
    refine ht.set (by simp [Request.introduces]) ?_ ?_ (by simp [Request.claims]) ?_
    · simp [Request.edge, ht.context_forward]
    · simp [Request.policy, ht.context_policy]
    · intro b hb
      simp [Request.introduces, Request.policy, Ne.symm hb]
  | connected source target =>
    refine ht.set (by simp [Request.introduces]) ?_ ?_ ?_ ?_
    · simp [Request.edge, ht.context_forward]
    · simp [Request.policy, ht.context_policy]
    · simp [Request.claims, ht.context_boundFd]
    · intro b hb
      simp [Request.introduces, Request.policy, Ne.symm hb]
  | @policySet policy target entry htarget =>
    have hknown : h.known target = true := by rw [← ht.known, htarget]; rfl
    refine ht.set (by simp [hknown]) ?_ ?_ ?_ ?_
    · simp [Request.edge, ht.forward target entry htarget]
    · simp [Request.policy, hknown]
    · simp [Request.claims, ht.boundFd target entry htarget]
    · intro b hb
      simp [Request.introduces, Request.policy, Ne.symm hb]
  | @policyIgnored policy target htarget =>
    have hknown : h.known target = false := by rw [← ht.known, htarget]; rfl
    refine ht.unchanged (fun a => Option.map_id'.symm) (fun _ _ => ⟨rfl, rfl, rfl⟩)
      fun a => ⟨rfl, fun ha => ?_⟩
    have hne : target ≠ a := fun heq => by rw [heq, ha] at hknown; cases hknown
    simp [Request.policy, hne]
  | @forwarded source entry targets hsource htargets =>
    have hcredit := AddressTable.credit_set_countIn hsource buffer.length targets
    refine ht.unchanged hcredit (fun a c => ?_) fun a => ⟨rfl, fun _ => rfl⟩
    split <;> exact ⟨rfl, rfl, rfl⟩
  | dropped =>
    exact ht.unchanged (fun a => Option.map_id'.symm) (fun _ _ => ⟨rfl, rfl, rfl⟩)
      fun a => ⟨rfl, fun _ => rfl⟩
  | unhandled =>
    exact ht.unchanged (fun a => Option.map_id'.symm) (fun _ _ => ⟨rfl, rfl, rfl⟩)
      fun a => ⟨rfl, fun _ => rfl⟩

/-- A request that can be served is. -/
theorem perform (ht : Refines h t) {order : ByteOrder} {fd : Int} {buffer : List UInt8}
    {rand : Nat → RandResult} {r : Request}
    (hpolicy : ∀ policy a, r = .setPolicy policy a → policy.toNat < 4)
    (hdata : ∀ source, r = .data source → h.known source ∧ h.forward source ≠ []) :
    ∃ t' writes, r.perform order fd buffer rand t = .ok (t', writes) ∧
      Performed order fd buffer rand t r t' writes := by
  cases r with
  | newAddress address =>
    exact ⟨_, _, AddressTable.cmdNewAddress_eq order fd address t, .claimed address⟩
  | connect source target =>
    exact ⟨_, _, AddressTable.cmdConnect_eq source target t, .connected source target⟩
  | setPolicy policy target =>
    cases htarget : t target with
    | none => exact ⟨_, _, AddressTable.cmdPolicy_of_none htarget policy, .policyIgnored htarget⟩
    | some entry =>
      exact ⟨_, _, AddressTable.cmdPolicy_of_some htarget (hpolicy policy target rfl),
        .policySet htarget⟩
  | data source =>
    obtain ⟨hknown, hforward⟩ := hdata source rfl
    rw [← ht.known, Option.isSome_iff_exists] at hknown
    obtain ⟨entry, hsource⟩ := hknown
    rw [← ht.forward source entry hsource] at hforward
    obtain ⟨targets, htargets, -⟩ :
        ∃ targets, (entry.countIn buffer.length).targets rand = .ok targets ∧
          (entry.countIn buffer.length).Selects targets :=
      Context.targets_selects rand fun _ => hforward
    refine ⟨_, _, ?_, .forwarded hsource htargets⟩
    rw [Request.perform, AddressTable.forwardData_of_some hsource, htargets]
    rfl
  | unhandled => exact ⟨_, _, rfl, .unhandled⟩

end Refines

end History

/-! ## The refinement -/

/-- `handle_packet` as a machine that serves one packet at a time. -/
def serve (order : ByteOrder) (t : AddressTable) (p : Packet) :
    Except Fault (AddressTable × List Write) :=
  handlePacket order p.fd p.buffer p.rand t

/-- The table before any address is known. -/
def AddressTable.empty : AddressTable := khInit

/-- A packet that holds a well-formed request; a data frame comes from a source
    that is known and forwards to somebody. -/
structure Admissible (order : ByteOrder) (h : History) (p : Packet) (r : Request) : Prop where
  asks : Asks order p.buffer p.rand r
  data : ∀ source, r = .data source → h.known source ∧ h.forward source ≠ []

/-- The history that a list of packets leaves, each given with its request. -/
def History.of (ps : List (Packet × Request)) : History := ps.map fun pr => (pr.1.fd, pr.2)

/-- Packets that are each admissible after those before them. -/
inductive AllAdmissible (order : ByteOrder) : List (Packet × Request) → Prop where
  | nil : AllAdmissible order []
  | snoc {ps : List (Packet × Request)} {p : Packet} {r : Request} :
      AllAdmissible order ps → Admissible order (History.of ps) p r →
      AllAdmissible order (ps ++ [(p, r)])

theorem AllAdmissible.asks {order : ByteOrder} {ps : List (Packet × Request)}
    (h : AllAdmissible order ps) : ∀ pr ∈ ps, Asks order pr.1.buffer pr.1.rand pr.2 := by
  induction h with
  | nil => simp
  | snoc _ hp ih =>
    intro pr hpr
    rcases List.mem_append.1 hpr with hpr | hpr
    · exact ih pr hpr
    · obtain rfl := List.mem_singleton.1 hpr
      exact hp.asks

/-- Two lists of packets that differ in the order of a claim and a connection
    that follow each other. -/
def Swapped (ps ps' : List (Packet × Request)) : Prop :=
  ∃ ps₁ ps₂ p q address source target,
    ps = ps₁ ++ [(p, .newAddress address), (q, .connect source target)] ++ ps₂ ∧
    ps' = ps₁ ++ [(q, .connect source target), (p, .newAddress address)] ++ ps₂

/-- An admissible packet is served, and the table then holds what the longer
    history determines. -/
theorem serve_refines {order : ByteOrder} {h : History} {t : AddressTable} {p : Packet}
    {r : Request} (ht : h.Refines t) (hp : Admissible order h p r) :
    ∃ t' writes, serve order t p = .ok (t', writes) ∧ History.Refines (h ++ [(p.fd, r)]) t' := by
  have hpolicy : ∀ policy a, r = .setPolicy policy a → policy.toNat < 4 := by
    rintro policy a rfl
    cases hp.asks with
    | setPolicy _ _ _ hlt _ =>
      have : policy.toNat < 3 := UInt8.lt_iff_toNat_lt.1 hlt
      omega
  obtain ⟨t', writes, hperform, hperformed⟩ := ht.perform hpolicy hp.data
  refine ⟨t', writes, ?_, ht.performed hperformed⟩
  rw [serve, handlePacket_eq, hp.asks.parse, Except.ok_bind, hperform]

/-- Any list of admissible packets is served, and the table then holds what the
    requests determine. -/
theorem exec_serve {order : ByteOrder} {ps : List (Packet × Request)}
    (hps : AllAdmissible order ps) :
    ∃ t tr, Machine.exec (serve order) AddressTable.empty (ps.map Prod.fst) = .ok (t, tr) ∧
      (History.of ps).Refines t := by
  induction hps with
  | nil => exact ⟨_, [], rfl, History.Refines.nil⟩
  | @snoc ps p r _ hp ih =>
    obtain ⟨t, tr, hexec, ht⟩ := ih
    obtain ⟨t', writes, hserve, ht'⟩ := serve_refines ht hp
    refine ⟨t', tr ++ [(p, writes)], ?_, ?_⟩
    · rw [List.map_append, Machine.exec_append hexec]
      simp [Machine.exec, hserve]
    · simpa [History.of] using ht'

/-- A claim and a connection lead to the same table in either order. -/
theorem exec_swap {order : ByteOrder} {p q : Packet} {address source target : UInt32}
    (hp : Asks order p.buffer p.rand (.newAddress address))
    (hq : Asks order q.buffer q.rand (.connect source target)) (t : AddressTable) :
    ∃ t' tr tr', Machine.exec (serve order) t [p, q] = .ok (t', tr) ∧
      Machine.exec (serve order) t [q, p] = .ok (t', tr') := by
  let reply := AddressTable.newAddressReply order p.fd address
  have hclaim : ∀ t, serve order t p = .ok (t.claim p.fd address, [reply]) := fun t => by
    rw [serve, handlePacket_eq, hp.parse, Except.ok_bind]
    exact AddressTable.cmdNewAddress_eq order p.fd address t
  have hconnect : ∀ t, serve order t q = .ok (t.connect source target, []) := fun t => by
    rw [serve, handlePacket_eq, hq.parse, Except.ok_bind]
    exact AddressTable.cmdConnect_eq source target t
  refine ⟨(t.claim p.fd address).connect source target, [(p, [reply]), (q, [])],
    [(q, []), (p, [reply])], ?_, ?_⟩
  · simp [Machine.exec, hclaim, hconnect]
  · simp [Machine.exec, hclaim, hconnect, AddressTable.connect_claim]

/-- The control plane. Every sequence of well-formed claims, connections and
    policies, with forwarded data in between, is served and leaves exactly what
    the requests determine; and it leaves the same table when a claim and a
    connection that follow each other are swapped. -/
theorem control_plane {order : ByteOrder} {ps : List (Packet × Request)}
    (hps : AllAdmissible order ps) :
    ∃ t tr, Machine.exec (serve order) AddressTable.empty (ps.map Prod.fst) = .ok (t, tr) ∧
      (History.of ps).Refines t ∧
      ∀ ps', Swapped ps ps' ∨ Swapped ps' ps →
        ∃ tr', Machine.exec (serve order) AddressTable.empty (ps'.map Prod.fst) = .ok (t, tr') := by
  obtain ⟨t, tr, hexec, ht⟩ := exec_serve hps
  refine ⟨t, tr, hexec, ht, ?_⟩
  have hasks := hps.asks
  rintro ps' (⟨ps₁, ps₂, p, q, address, source, target, rfl, rfl⟩ |
    ⟨ps₁, ps₂, p, q, address, source, target, rfl, rfl⟩)
  all_goals
    have hp := hasks (p, .newAddress address) (by simp)
    have hq := hasks (q, .connect source target) (by simp)
    simp only [List.map_append] at hexec ⊢
    obtain ⟨_, _, hfront⟩ := Machine.exec_append_inv hexec
    obtain ⟨t₁, tr₁, h₁⟩ := Machine.exec_append_inv hfront
    obtain ⟨t₂, u, u', hpq, hqp⟩ := exec_swap hp hq t₁
    have hpq' := Machine.exec_append h₁ [p, q]
    have hqp' := Machine.exec_append h₁ [q, p]
    rw [hpq] at hpq'
    rw [hqp] at hqp'
  · exact Machine.exec_exchange hpq' hqp' hexec
  · exact Machine.exec_exchange hqp' hpq' hexec

/-- An edge set up before the claim of its source survives the claim, and data
    follows it. -/
theorem control_plane_connect_claim :
    let connect : Packet := ⟨3, frameBytes .little GNW_COMMAND 0xFFFFFFFF
      (GNW_CMD_CONNECT :: (u32Bytes .little 5 ++ u32Bytes .little 6)), fun _ => 0⟩
    let claim : Packet := ⟨4, frameBytes .little GNW_COMMAND 0xFFFFFFFF
      (GNW_CMD_NEW_ADDRESS :: u32Bytes .little 5), fun _ => 0⟩
    let data : Packet := ⟨4, frameBytes .little GNW_DATA 5 [0x41], fun _ => 0⟩
    ∃ t tr, Machine.exec (serve .little) AddressTable.empty [connect, claim, data] = .ok (t, tr) ∧
      ∃ entry, t 5 = some entry ∧ entry.forward = [6] ∧ entry.boundFd = 4 := by
  intro connect claim data
  have hconnect : Admissible .little [] connect (.connect 5 6) :=
    ⟨.connect _ _ _ rfl, fun _ h => by cases h⟩
  have hclaim : Admissible .little [(3, .connect 5 6)] claim (.newAddress 5) :=
    ⟨.newAddress _ _ rfl, fun _ h => by cases h⟩
  have hdata : Admissible .little [(3, .connect 5 6), (4, .newAddress 5)] data (.data 5) :=
    ⟨.data _ _ (gnwParseHeader_frameBytes ..) rfl, fun _ h => by cases h; decide⟩
  obtain ⟨t, tr, hexec, ht, -⟩ := control_plane (.snoc (.snoc (.snoc .nil hconnect) hclaim) hdata)
  have hknown : (t 5).isSome = true := ht.known 5
  obtain ⟨entry, hentry⟩ := Option.isSome_iff_exists.1 hknown
  exact ⟨t, tr, hexec, entry, hentry, ht.forward 5 entry hentry, ht.boundFd 5 entry hentry⟩
