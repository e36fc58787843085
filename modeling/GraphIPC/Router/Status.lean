-- SUMMARY: The address table that the router prints in every round: the walk ends and lists each known address once.
import GraphIPC.Router.KhashRouter

/-!
# The printed address table

Before it polls, `router_process` walks over the address table and prints a line for each
entry. At an entry that is marked as closed the walk starts over at the same entry, without
end. No packet marks an entry as closed.
-/

def GNW_STATE_CLOSE : Int := 0xFE

/-- A line of the printed table, without the byte counts in their units. -/
structure StatusLine where
  address : UInt32
  policy : String
  targets : List UInt32
  packetsIn : UInt64
  packetsOut : UInt64
  bound : String
  deriving DecidableEq, Repr

/-- The line of an entry. -/
def Context.statusLine (entry : Context) (address : UInt32) : StatusLine where
  address := address
  policy :=
    if entry.forward.length = 0 then "\x7bdrop\x7d to \x7b∅\x7d"
    else if entry.forwardPolicy = GNW_POLICY_BROADCAST then "\x7bbroadcast\x7d"
    else if entry.forwardPolicy = GNW_POLICY_ANYCAST then "\x7banycast\x7d"
    else if entry.forwardPolicy = GNW_POLICY_ROUNDROBIN then "\x7bround-robin\x7d"
    else "\x7bBAD POLICY\x7d"
  targets := entry.forward
  packetsIn := entry.packetsIn
  packetsOut := entry.packetsOut
  bound := if entry.boundFd > -1 then "BOUND" else "---"

/-- The loop from `kh_begin` to `kh_end`. The `continue` at a closed entry leaves out the
    `iter++` at the end of the body. -/
def statusLoop {checked : Bool} (t : Khash checked Context) :
    (fuel iter : Nat) → Except Fault (List StatusLine)
  | 0, _ => .error .unfinished
  | fuel + 1, iter => do
    if iter = khEnd t then return []
    if ← khExist t iter then
      let key ← readOr t.keys[iter]?
      let entry ← khValue t iter
      if entry.state = GNW_STATE_CLOSE then
        statusLoop t fuel iter
      else
        return entry.statusLine key :: (← statusLoop t fuel (iter + 1))
    else
      statusLoop t fuel (iter + 1)

/-- The walk, with one round for each bucket and one to see the end. -/
def printStatus {checked : Bool} (t : Khash checked Context) : Except Fault (List StatusLine) :=
  statusLoop t (t.nBuckets + 1) 0

/-! ## Open entries -/

/-- No entry is marked as closed. -/
def AddressTable.AllOpen (t : AddressTable) : Prop :=
  ∀ a entry, t a = some entry → entry.state = GNW_STATE_OPEN

namespace AddressTable.AllOpen

variable {t : AddressTable} (h : t.AllOpen)
include h

theorem context (a : UInt32) : (t.context a).state = GNW_STATE_OPEN := by
  cases ha : t a with
  | none => rw [t.context_of_none ha, setupContext]
  | some entry => rw [t.context_of_some ha, h a entry ha]

theorem set {a : UInt32} {entry : Context} (hentry : entry.state = GNW_STATE_OPEN) :
    AllOpen (t.set a entry) := by
  intro b entry' hb
  rw [Table.set_apply] at hb
  split at hb
  · cases hb
    exact hentry
  · exact h b entry' hb

/-- No packet marks an entry as closed. -/
theorem performed {order : ByteOrder} {fd : Int} {buffer : List UInt8} {rand : Nat → RandResult}
    {t' : AddressTable} {r : Request} {writes : List Write}
    (hperformed : Performed order fd buffer rand t r t' writes) : t'.AllOpen := by
  cases hperformed with
  | claimed address => exact h.set (h.context address)
  | connected source target => exact h.set (h.context source)
  | policySet htarget =>
    have hstate := h _ _ htarget
    exact h.set hstate
  | policyIgnored => exact h
  | @forwarded source entry targets hsource _ =>
    have hstate := h _ _ hsource
    have hset : AllOpen (t.set source (entry.countIn buffer.length)) := h.set hstate
    intro a entry' ha
    obtain ⟨entry₁, ha₁, rfl⟩ := Option.map_eq_some_iff.1 ha
    exact hset a entry₁ ha₁
  | dropped => exact h
  | unhandled => exact h

end AddressTable.AllOpen

/-- All entries are open in every state that the router reaches. -/
theorem Router.allOpen {c : RouterConfig} {listenFd : Int} {tr : List (Act × Output)} {s : Router c}
    (hrun : Router.Run c (.init c listenFd) tr s) : s.tables.addressTable.AllOpen := by
  refine hrun.induct (P := fun _ s => s.tables.addressTable.AllOpen) ?_ ?_
  · intro a entry ha
    cases ha
  · intro tr s act o s₁ _ h _ hstep
    cases Router.effect_of_step hstep with
    | nothing => exact h
    | accepted => exact h
    | closed => exact h
    | @handled _ _ _ _ _ _ _ _ call _ _ _ _ _ _ _ _ _ hcall =>
      cases call with
      | none =>
        cases hcall
        exact h
      | some p =>
        obtain ⟨r, -, hperformed⟩ := performed_of_handlePacket hcall
        exact h.performed hperformed

/-! ## The walk -/

namespace Khash.Models

variable {checked : Bool} {t : Khash checked Context} {m : AddressTable} (hm : t.Models m)
include hm

/-- Without closed entries the walk goes once over the buckets. -/
theorem statusLoop_eq (hopen : m.AllOpen) {fuel iter : Nat} (hiter : iter ≤ t.nBuckets)
    (hfuel : t.nBuckets < iter + fuel) :
    statusLoop t fuel iter = .ok ((List.range' iter (t.nBuckets - iter)).filterMap fun i =>
      (t.slot i).map fun e => e.2.statusLine e.1) := by
  induction fuel generalizing iter with
  | zero => omega
  | succ fuel ih =>
    rw [statusLoop]
    by_cases hend : iter = t.nBuckets
    · simp [khEnd, hend]
    have hlt : iter < t.nBuckets := by omega
    have hrange : List.range' iter (t.nBuckets - iter) =
        iter :: List.range' (iter + 1) (t.nBuckets - (iter + 1)) := by
      rw [← List.range'_succ]
      congr 1
      omega
    have hrest := ih (by omega : iter + 1 ≤ t.nBuckets) (by omega)
    rcases hm.bucket hlt with ⟨hslot, hexist⟩ | ⟨k, v, hslot, hexist, hkey, hvalue⟩
    · simp [khEnd, hend, hexist, hrest, hrange, hslot]
    · have hstate : v.state ≠ GNW_STATE_CLOSE := by
        rw [hopen k v (hm.holds.value iter k v hslot)]
        decide
      simp [khEnd, hend, hexist, hkey, hvalue, hstate, hrest, hrange, hslot]

/-- The walk prints the entries of the map, each of them once. -/
theorem printStatus (hopen : m.AllOpen) :
    ∃ lines, printStatus t = .ok lines ∧ (lines.map StatusLine.address).Nodup ∧
      ∀ line, line ∈ lines ↔ ∃ a entry, m a = some entry ∧ line = entry.statusLine a := by
  have hlines := hm.statusLoop_eq hopen (Nat.zero_le _) (by omega : t.nBuckets < 0 + (t.nBuckets + 1))
  have hmap : (List.range' 0 (t.nBuckets - 0)).filterMap (fun i =>
      (t.slot i).map fun e => e.2.statusLine e.1) =
      ((List.range t.nBuckets).filterMap t.slot).map fun e => e.2.statusLine e.1 := by
    rw [List.map_filterMap, Nat.sub_zero, List.range_eq_range']
  rw [hmap] at hlines
  refine ⟨_, hlines, ?_, fun line => ?_⟩
  · rw [List.map_map]
    exact hm.nodup_keys _ List.nodup_range
  · simp only [List.mem_map, Prod.exists, hm.mem_slots]
    constructor
    · rintro ⟨a, entry, ha, rfl⟩
      exact ⟨a, entry, ha, rfl⟩
    · rintro ⟨a, entry, ha, rfl⟩
      exact ⟨a, entry, ha, rfl⟩

end Khash.Models

/-- In every state that the router reaches, the walk over its address table ends, and
    prints one line for each known address. -/
theorem router_status (c : RouterConfig) (listenFd : Int) {tr : List (Act × Output)}
    {s : KhRouter false c} (hrun : KhRouter.Run c (.init false c listenFd) tr s)
    (hsize : s.tables.addressTable.size < 2 ^ 30) :
    ∃ s' lines, Router.Run c (.init c listenFd) tr s' ∧
      printStatus s.tables.addressTable = .ok lines ∧ (lines.map StatusLine.address).Nodup ∧
      ∀ line, line ∈ lines ↔
        ∃ a entry, s'.tables.addressTable a = some entry ∧ line = entry.statusLine a := by
  obtain ⟨s', hrun', hrefines⟩ := KhRouter.refines_of_run hrun hsize
  obtain ⟨lines, hlines, hnodup, hmem⟩ :=
    hrefines.tables.addresses.printStatus (Router.allOpen hrun')
  exact ⟨s', lines, hrun', hlines, hnodup, hmem⟩

theorem router_status_claim :
    ∃ tr s s' lines, KhRouter.Run smallRouter (.init false smallRouter 3) tr s ∧ tr.length = 4 ∧
      Router.Run smallRouter (.init smallRouter 3) tr s' ∧
      printStatus s.tables.addressTable = .ok lines ∧ (lines.map StatusLine.address).Nodup ∧
      ∀ line, line ∈ lines ↔
        ∃ a entry, s'.tables.addressTable a = some entry ∧ line = entry.statusLine a := by
  have hsim : (Machine.simulate (KhRouter.Allowed smallRouter) (KhRouter.step smallRouter)
      (KhRouter.init false smallRouter 3) claimAndSend).any (fun r =>
        r.2.length = 4 && r.1.tables.addressTable.size < 2 ^ 30) = true := by
    decide +kernel
  obtain ⟨tr, s, hrun, hlast⟩ := Machine.Run.exists_of_simulate hsim
  simp only [Bool.and_eq_true, decide_eq_true_eq] at hlast
  obtain ⟨s', lines, h⟩ := router_status smallRouter 3 hrun hlast.2
  exact ⟨tr, s, s', lines, hrun, hlast.1, h⟩
