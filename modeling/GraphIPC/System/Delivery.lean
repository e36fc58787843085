-- SUMMARY: What the router writes to the connection of the output node, and the conditions under which only one source speaks to it.
import GraphIPC.System.Link

/-!
# What reaches the output node

The connections and bindings are those of the requests served so far. The output node
is connected to one source only if no edge but that of this source leads to an address
that is bound to its connection. Then the router writes data to this connection just
when the input node sends it, and writes it once.
-/

variable {σ : Type}

/-! ## The assumptions about other clients -/

/-- The input node is alone with its address, its policy is broadcast, it is connected
    to the output node by one request, and before its first data is served it is
    connected and the output node has claimed its address. -/
structure Undisturbed (l : Link σ) (requests : List Served) : Prop where
  speaker : ∀ e ∈ requests, e.request = .data (l.address .input) → e.client = some .input
  policy : ∀ e ∈ requests, ∀ policy, e.request = .setPolicy policy (l.address .input) →
    (policy.toNat : Int) = GNW_POLICY_BROADCAST
  connect : requests.countP
    (fun e => e.request = .connect (l.address .input) (l.address .output)) ≤ 1
  first : ∀ pre e post, requests = pre ++ e :: post → e.request = .data (l.address .input) →
    (∃ e' ∈ pre, e'.request = .connect (l.address .input) (l.address .output)) ∧
      ∃ e' ∈ pre, e'.client = some .output ∧ e'.request = .newAddress (l.address .output)

/-- Every edge to an address that is bound to the descriptor is that from the input node
    to the output node. -/
def OnlySource (l : Link σ) (requests : List Served) (fd : Int) : Prop :=
  ∀ e ∈ requests, ∀ source target, e.request = .connect source target →
    (History.ofServed requests).boundFd target = fd →
      source = l.address .input ∧ target = l.address .output

/-- What was assumed of more requests holds of the first of them. -/
theorem Undisturbed.of_append {l : Link σ} {requests requests' : List Served}
    (h : Undisturbed l (requests ++ requests')) : Undisturbed l requests where
  speaker e he := h.speaker e (List.mem_append_left _ he)
  policy e he := h.policy e (List.mem_append_left _ he)
  connect := by
    have hle := h.connect
    rw [List.countP_append] at hle
    omega
  first pre e post hsplit := h.first pre e (post ++ requests') (by simp [hsplit])

/-! ## Edges in a history -/

theorem History.ofServed_snoc (requests : List Served) (e : Served) :
    History.ofServed (requests ++ [e]) = History.ofServed requests ++ [(e.fd, e.request)] := by
  simp [ofServed]

theorem History.mem_ofServed {requests : List Served} {fd : Int} {r : Request} :
    (fd, r) ∈ History.ofServed requests ↔ ∃ e ∈ requests, e.fd = fd ∧ e.request = r := by
  simp [ofServed]

namespace History

variable {h : History}

/-- The targets of an address are those of the connections that were asked for. -/
theorem mem_forward {source target : UInt32} :
    target ∈ h.forward source ↔ ∃ fd, (fd, .connect source target) ∈ h := by
  unfold forward
  rw [List.mem_filterMap]
  constructor
  · rintro ⟨⟨fd, r⟩, hmem, hedge⟩
    cases r with
    | connect source' target' =>
      simp only [Request.edge] at hedge
      split at hedge
      · rename_i heq
        cases hedge
        subst heq
        exact ⟨fd, hmem⟩
      · cases hedge
    | _ => cases hedge
  · rintro ⟨fd, hmem⟩
    exact ⟨(fd, .connect source target), hmem, by simp [Request.edge]⟩

/-- An address is listed once for each time its connection was asked for. -/
theorem count_forward (source target : UInt32) :
    (h.forward source).count target = h.countP (fun e => e.2 = .connect source target) := by
  induction h with
  | nil => rfl
  | cons e h ih =>
    obtain ⟨fd, r⟩ := e
    have hsplit : forward ((fd, r) :: h) source = (r.edge source).toList ++ forward h source := by
      cases hr : r.edge source <;> simp [forward, hr]
    rw [hsplit, List.count_append, ih, List.countP_cons]
    cases r with
    | connect source' target' =>
      by_cases hs : source' = source
      · by_cases ht : target' = target
        · simp [Request.edge, hs, ht, Nat.add_comm]
        · simp [Request.edge, hs, ht]
      · simp [Request.edge, hs]
    | _ => simp [Request.edge]

/-- A policy that nobody changed to another than broadcast. -/
theorem policy_broadcast {a : UInt32}
    (hpolicy : ∀ e ∈ h, ∀ policy, e.2 = .setPolicy policy a →
      (policy.toNat : Int) = GNW_POLICY_BROADCAST) : h.policy a = GNW_POLICY_BROADCAST := by
  unfold policy
  cases hlast : (h.policies a).getLast? with
  | none => rfl
  | some p =>
    have hmem : p ∈ h.policies a := List.mem_of_getLast? hlast
    unfold policies at hmem
    obtain ⟨⟨fd, r⟩, he, hp⟩ := List.mem_filterMap.1 hmem
    have he' : (fd, r) ∈ h := (List.dropWhile_suffix _).subset he
    cases r with
    | setPolicy policy target =>
      simp only [Request.policy] at hp
      split at hp
      · rename_i heq
        cases hp
        exact hpolicy _ he' p (by rw [heq])
      · cases hp
    | _ => cases hp

/-- The descriptor of an address that was claimed is that of its claims. -/
theorem known_of_boundFd {a : UInt32} {fd : Int} (hbound : h.boundFd a = fd) (hfd : fd ≠ -1) :
    h.known a = true := by
  by_contra hknown
  rw [Bool.not_eq_true] at hknown
  exact hfd (hbound.symm.trans (boundFd_of_not_known hknown))

/-- A request from another connection does not bind an address to the descriptor. -/
theorem boundFd_snoc_ne {a : UInt32} {fd fd' : Int} (r : Request) (hfd : fd' ≠ fd)
    (hbound : h.boundFd a ≠ fd) : History.boundFd (h ++ [(fd', r)]) a ≠ fd := by
  rw [boundFd_snoc]
  split
  · exact hfd
  · exact hbound

end History

/-! ## The bytes written -/

@[simp] theorem bytesTo_nil (fd : Int) : bytesTo fd [] = [] := rfl

theorem bytesTo_append (fd : Int) (writes writes' : List Write) :
    bytesTo fd (writes ++ writes') = bytesTo fd writes ++ bytesTo fd writes' := by
  simp [bytesTo]

/-- A list of targets gets one copy for each that is bound to the descriptor. -/
theorem bytesTo_copies {h : History} {t : AddressTable} (ht : h.Refines t) {fd : Int}
    (hfd : fd ≠ -1) (buffer : List UInt8) (targets : List UInt32) :
    bytesTo fd (targets.filterMap (t.copyTo buffer)) =
      (targets.filter fun target => h.boundFd target = fd).flatMap fun _ => buffer := by
  induction targets with
  | nil => rfl
  | cons target targets ih =>
    cases htarget : t target with
    | none =>
      have hunbound : h.boundFd target ≠ fd := by
        intro hbound
        have hknown := History.known_of_boundFd hbound hfd
        rw [← ht.known, htarget] at hknown
        cases hknown
      have hnone : t.copyTo buffer target = none := by simp [AddressTable.copyTo, htarget]
      rw [List.filterMap_cons_none hnone, ih, List.filter_cons_of_neg (by simpa using hunbound)]
    | some entry =>
      have hbound := ht.boundFd target entry htarget
      have hsome : t.copyTo buffer target =
          some { fd := entry.boundFd, bytes := buffer, target := some target } := by
        simp [AddressTable.copyTo, htarget]
      rw [List.filterMap_cons_some hsome, ← List.singleton_append, bytesTo_append, ih]
      by_cases heq : h.boundFd target = fd
      · rw [List.filter_cons_of_pos (by simpa using heq)]
        simp [bytesTo, hbound, heq]
      · rw [List.filter_cons_of_neg (by simpa using heq)]
        simp [bytesTo, hbound, heq]

/-- A request that is neither data nor a claim on the descriptor writes nothing to it. -/
theorem Performed.bytesTo_other {order : ByteOrder} {fd fd' : Int} {buffer : List UInt8}
    {rand : Nat → RandResult} {t t' : AddressTable} {r : Request} {writes : List Write}
    (h : Performed order fd' buffer rand t r t' writes) (hdata : ∀ source, r ≠ .data source)
    (hclaim : ∀ a, r = .newAddress a → fd' ≠ fd) : bytesTo fd writes = [] := by
  cases h with
  | claimed address => simp [bytesTo, AddressTable.newAddressReply, hclaim address rfl]
  | forwarded => exact absurd rfl (hdata _)
  | _ => rfl

/-- A claim writes its reply. -/
theorem Performed.bytesTo_claim {order : ByteOrder} {fd : Int} {buffer : List UInt8}
    {rand : Nat → RandResult} {t t' : AddressTable} {address : UInt32} {writes : List Write}
    (h : Performed order fd buffer rand t (.newAddress address) t' writes) :
    bytesTo fd writes = (AddressTable.newAddressReply order fd address).bytes := by
  cases h with
  | claimed => simp [bytesTo, AddressTable.newAddressReply]

/-- Data of a source without an edge to the connection is not written to it. -/
theorem Performed.bytesTo_stranger {order : ByteOrder} {fd fd' : Int} {buffer : List UInt8}
    {rand : Nat → RandResult} {h : History} {t t' : AddressTable} {source : UInt32}
    {writes : List Write} (hp : Performed order fd' buffer rand t (.data source) t' writes)
    (ht : h.Refines t) (hfd : fd ≠ -1)
    (hedges : ∀ target ∈ h.forward source, h.boundFd target ≠ fd) : bytesTo fd writes = [] := by
  cases hp with
  | @forwarded _ entry targets hsource htargets =>
    have hsub : targets ⊆ (entry.countIn buffer.length).forward := Context.targets_subset htargets
    have hforward : (entry.countIn buffer.length).forward = h.forward source :=
      ht.forward source entry hsource
    have hnone : targets.filter (fun target => h.boundFd target = fd) = [] := by
      rw [List.filter_eq_nil_iff]
      intro target hmem
      have hedge : target ∈ h.forward source := hforward ▸ hsub hmem
      simpa using hedges target hedge
    rw [bytesTo_copies ht hfd, hnone]
    rfl
  | dropped => rfl

/-- Broadcast data of a source with one edge to the connection is written to it once. -/
theorem Performed.bytesTo_broadcast {order : ByteOrder} {fd fd' : Int} {buffer : List UInt8}
    {rand : Nat → RandResult} {h : History} {t t' : AddressTable} {source b : UInt32}
    {writes : List Write} (hp : Performed order fd' buffer rand t (.data source) t' writes)
    (ht : h.Refines t) (hfd : fd ≠ -1) (hpolicy : h.policy source = GNW_POLICY_BROADCAST)
    (hknown : h.known source = true) (hone : (h.forward source).count b = 1)
    (hedges : ∀ target ∈ h.forward source, h.boundFd target = fd → target = b) :
    bytesTo fd writes = if h.boundFd b = fd then buffer else [] := by
  cases hp with
  | @forwarded _ entry targets hsource htargets =>
    have hbroadcast : (entry.countIn buffer.length).forwardPolicy = GNW_POLICY_BROADCAST :=
      (ht.policy source entry hsource).trans hpolicy
    rw [Context.targets_broadcast hbroadcast] at htargets
    cases htargets
    have hforward : (entry.countIn buffer.length).forward = h.forward source :=
      ht.forward source entry hsource
    rw [bytesTo_copies ht hfd, hforward]
    split
    · rename_i hbound
      have hall : ∀ x ∈ (h.forward source).filter (fun target => h.boundFd target = fd),
          x = b := by
        intro x hx
        rw [List.mem_filter] at hx
        exact hedges x hx.1 (by simpa using hx.2)
      have hcount : ((h.forward source).filter fun target => h.boundFd target = fd).count b =
          1 := by
        rw [List.count_filter (by simpa using hbound)]
        exact hone
      have hreplicate := List.eq_replicate_iff.2 ⟨rfl, hall⟩
      rw [hreplicate, List.count_replicate_self] at hcount
      rw [hreplicate, hcount]
      simp
    · rename_i hbound
      have hnone : (h.forward source).filter (fun target => h.boundFd target = fd) = [] := by
        rw [List.filter_eq_nil_iff]
        intro target hmem heq
        have heq : h.boundFd target = fd := by simpa using heq
        exact hbound (hedges target hmem heq ▸ heq)
      rw [hnone]
      rfl
  | dropped hsource =>
    rw [← ht.known, hsource] at hknown
    cases hknown
