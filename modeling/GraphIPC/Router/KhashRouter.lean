-- SUMMARY: The router process over khash.h refines the router process over finite maps, run by run.
import GraphIPC.Router.KhashTable
import GraphIPC.Router.Control
import GraphIPC.Router.Process

/-!
# The router over khash.h

`router_process` keeps its addresses and its buffers in two khash tables. Here both are the
tables of `khash.h` as it is written, with every lookup, insertion and deletion that the
event handler makes. The router over finite maps makes the same runs: descriptors are
small enough to be keys, only connections that are open have buffers, and addresses are
never given up.
-/

/-- `address_table` and `local_buffer`. The pointers of a buffer that was given up are
    null. -/
structure KhTables (checked : Bool) (c : RouterConfig) where
  addressTable : Khash checked Context
  localBuffer : Khash checked (Option (LocalBuffer c.bufferSize))

variable {checked : Bool} {c : RouterConfig}

/-- The buffer of a descriptor that is dropped is freed, and its key deleted. -/
def KhTables.killBuffer (s : KhTables checked c) (fd : Int) : Except Fault (KhTables checked c) := do
  let iter ← khGet s.localBuffer (UInt32.ofInt fd)
  if iter ≠ khEnd s.localBuffer then
    let localBuffer ← khSetValue s.localBuffer iter none
    let delHint ← khGet localBuffer (UInt32.ofInt fd)
    let localBuffer ← localBuffer.del delHint
    return { s with localBuffer }
  return s

/-- The buffer of a descriptor is made if it is not there. -/
def KhTables.makeBuffer (s : KhTables checked c) (fd : Int) :
    Except Fault (Khash checked (Option (LocalBuffer c.bufferSize))) := do
  let iter ← khGet s.localBuffer (UInt32.ofInt fd)
  if iter = khEnd s.localBuffer then
    let (localBuffer, iter) ← khPut s.localBuffer (UInt32.ofInt fd)
    khSetValue localBuffer iter (some (newBuffer c))
  else
    return s.localBuffer

/-- Drop a connection. -/
def KhTables.dropClient (s : KhTables checked c) (pollStruct : PollFd) :
    Except Fault (KhTables checked c × PollFd × Output) := do
  let s ← s.killBuffer pollStruct.fd
  return (s, { fd := -1, events := 0, revents := 0 }, .closed pollStruct.fd)

/-- `handle_event` -/
def khHandleEvent (c : RouterConfig) (s : KhTables checked c) (pollStruct : PollFd)
    (data : List UInt8) (rand : Nat → RandResult) :
    Except Fault (KhTables checked c × PollFd × Output) :=
  if pollStruct.revents &&& POLLIN ≠ POLLIN ∨ data.length < 1 then
    s.dropClient pollStruct
  else do
    let localBuffer ← s.makeBuffer pollStruct.fd
    let iter ← khGet localBuffer (UInt32.ofInt pollStruct.fd)
    match ← khValue localBuffer iter with
    | none => .error (.assertion "Buffer reference was null!")
    | some local_ =>
      let (local_, extract) ← absorb c local_ data
      let localBuffer ← khSetValue localBuffer iter (some local_)
      match extract.packet with
      | none =>
        return ({ s with localBuffer }, pollStruct,
          .handled pollStruct.fd data extract.discarded none [])
      | some packet =>
        let (addressTable, writes) ← handlePacket c.order pollStruct.fd packet rand s.addressTable
        return ({ addressTable, localBuffer }, pollStruct,
          .handled pollStruct.fd data extract.discarded
            (some { fd := pollStruct.fd, buffer := packet, rand }) writes)

/-- The state of the router between two steps. -/
structure KhRouter (checked : Bool) (c : RouterConfig) where
  tables : KhTables checked c
  pollList : Fin MAX_MONITOR_FDS → PollFd

namespace KhRouter

/-- The router after it has started to listen. -/
def init (checked : Bool) (c : RouterConfig) (listenFd : Int) : KhRouter checked c where
  tables := { addressTable := khInit, localBuffer := khInit }
  pollList i := if i = 0 then ⟨listenFd, POLLIN, 0⟩ else ⟨-1, 0, 0⟩

/-- One step of `router_process`. -/
def step (c : RouterConfig) (s : KhRouter checked c) : Act → Except Fault (KhRouter checked c × Output)
  | .accept none => .ok (s, .nothing)
  | .accept (some remoteFd) =>
    match freeEntry s.pollList with
    | none => .error .outOfBounds
    | some entry =>
      let pollStruct := { s.pollList entry with fd := remoteFd, events := POLLIN }
      .ok ({ s with pollList := setEntry s.pollList entry pollStruct }, .accepted remoteFd)
  | .event slot revents data rand => do
    let pollStruct := { s.pollList slot with revents }
    if slot = 0 ∨ pollStruct.fd = -1 ∨ revents = 0 then
      return (s, .nothing)
    let (tables, pollStruct, output) ←
      if revents &&& POLLHUP = POLLHUP then s.tables.dropClient pollStruct
      else khHandleEvent c s.tables pollStruct data rand
    return ({ tables, pollList := setEntry s.pollList slot { pollStruct with revents := 0 } },
      output)

/-- What the operating system may do. A descriptor is an `int`. -/
def Allowed (c : RouterConfig) (s : KhRouter checked c) : Act → Prop
  | .accept none => True
  | .accept (some remoteFd) =>
    0 ≤ remoteFd ∧ remoteFd < 2 ^ 31 ∧ ∀ entry, (s.pollList entry).fd ≠ remoteFd
  | .event _ _ data _ => data.length ≤ c.networkMtu

instance (c : RouterConfig) (s : KhRouter checked c) (act : Act) : Decidable (Allowed c s act) :=
  match act with
  | .accept none => inferInstanceAs (Decidable True)
  | .accept (some _) => inferInstanceAs (Decidable (_ ∧ _ ∧ _))
  | .event _ _ _ _ => inferInstanceAs (Decidable (_ ≤ _))

end KhRouter

/-- Runs of the router over khash. -/
abbrev KhRouter.Run (c : RouterConfig) :
    KhRouter checked c → List (Act × Output) → KhRouter checked c → Prop :=
  Machine.Run (KhRouter.Allowed c) (KhRouter.step c)

/-! ## Descriptors as keys -/

/-- A descriptor that may be a key. -/
def IsDescriptor (fd : Int) : Prop := 0 ≤ fd ∧ fd < 2 ^ 31

theorem IsDescriptor.toNat_ofInt {fd : Int} (h : IsDescriptor fd) :
    ((UInt32.ofInt fd).toNat : Int) = fd := by
  obtain ⟨hpos, hlt⟩ := h
  have hmod : fd % 2 ^ 32 = fd := Int.emod_eq_of_lt hpos (by omega)
  rw [UInt32.ofInt, hmod, UInt32.toNat_ofNat', Nat.mod_eq_of_lt (by omega), Int.toNat_of_nonneg hpos]

theorem IsDescriptor.eq_ofInt_iff {fd : Int} (h : IsDescriptor fd) (key : UInt32) :
    key = UInt32.ofInt fd ↔ (key.toNat : Int) = fd := by
  constructor
  · rintro rfl
    exact h.toNat_ofInt
  · intro heq
    have hsame : key.toNat = (UInt32.ofInt fd).toNat := by
      have hfd := h.toNat_ofInt
      omega
    exact UInt32.toNat_inj.1 hsame

/-- The buffers, by the keys that their descriptors are. -/
def Tables.byKey (s : Tables c) : Table UInt32 (Option (LocalBuffer c.bufferSize)) :=
  fun key => (s.localBuffer key.toNat).map some

theorem Tables.byKey_ofInt (s : Tables c) {fd : Int} (h : IsDescriptor fd) :
    s.byKey (UInt32.ofInt fd) = (s.localBuffer fd).map some := by
  rw [byKey, h.toNat_ofInt]

theorem Tables.byKey_set (s : Tables c) {fd : Int} (h : IsDescriptor fd)
    (local_ : LocalBuffer c.bufferSize) (t : AddressTable) :
    ({ addressTable := t, localBuffer := s.localBuffer.set fd local_ } : Tables c).byKey =
      s.byKey.set (UInt32.ofInt fd) (some local_) := by
  funext key
  simp only [byKey, Table.set_apply, h.eq_ofInt_iff]
  split <;> rfl

theorem Tables.byKey_erase (s : Tables c) {fd : Int} (h : IsDescriptor fd) (t : AddressTable) :
    ({ addressTable := t, localBuffer := s.localBuffer.erase fd } : Tables c).byKey =
      s.byKey.erase (UInt32.ofInt fd) := by
  funext key
  simp only [byKey, Table.erase_apply, h.eq_ofInt_iff]
  split <;> rfl

/-! ## The tables refine the finite maps -/

/-- Both tables hold what the finite maps are. -/
structure KhTables.Refines (s : KhTables checked c) (s' : Tables c) : Prop where
  addresses : s.addressTable.Models s'.addressTable
  buffers : s.localBuffer.Models s'.byKey

namespace KhTables.Refines

variable {s : KhTables checked c} {s' : Tables c} (h : s.Refines s')
include h

/-- Dropping a connection deletes its buffer, if it has one. -/
theorem dropClient (pollStruct : PollFd) (hfd : IsDescriptor pollStruct.fd) :
    ∃ s₁, s.dropClient pollStruct =
        .ok (s₁, { fd := -1, events := 0, revents := 0 }, .closed pollStruct.fd) ∧
      s₁.Refines { s' with localBuffer := s'.localBuffer.erase pollStruct.fd } := by
  cases hkey : s'.byKey (UInt32.ofInt pollStruct.fd) with
  | none =>
    have hget : khGet s.localBuffer (UInt32.ofInt pollStruct.fd) = .ok (khEnd s.localBuffer) :=
      h.buffers.get_of_none hkey
    refine ⟨s, by simp [KhTables.dropClient, killBuffer, hget], h.addresses, ?_⟩
    rw [Tables.byKey_erase _ hfd, Table.erase, ← hkey, Function.update_eq_self]
    exact h.buffers
  | some value =>
    obtain ⟨i, hi, hget⟩ := h.buffers.get_of_some hkey
    obtain ⟨b₁, hset, hm₁, hi₁, -⟩ := h.buffers.setValue hi none
    obtain ⟨b₂, hdel, hm₂, -⟩ := hm₁.del hi₁
    have hget : khGet s.localBuffer (UInt32.ofInt pollStruct.fd) = .ok i := hget
    have hget₁ : khGet b₁ (UInt32.ofInt pollStruct.fd) = .ok i := hm₁.get_of_slot hi₁
    have hend : i ≠ khEnd s.localBuffer := (h.buffers.lt_of_slot hi).ne
    refine ⟨⟨s.addressTable, b₂⟩, ?_, h.addresses, ?_⟩
    · simp [KhTables.dropClient, killBuffer, hget, hend, hset, hget₁, hdel]
    · rw [Tables.byKey_erase _ hfd]
      have herase : (s'.byKey.set (UInt32.ofInt pollStruct.fd) none).erase
          (UInt32.ofInt pollStruct.fd) = s'.byKey.erase (UInt32.ofInt pollStruct.fd) :=
        Function.update_idem ..
      rwa [herase] at hm₂

/-- The buffer of a connection is found or made. -/
theorem makeBuffer {fd : Int} (hfd : IsDescriptor fd) (hsize : s.localBuffer.size < 2 ^ 30) :
    ∃ b i, s.makeBuffer fd = .ok b ∧ khGet b (UInt32.ofInt fd) = .ok i ∧
      khValue b i = .ok (some (s'.buffer fd)) ∧ ∀ local_, ∃ b', khSetValue b i (some local_) = .ok b' ∧
        b'.Models (s'.byKey.set (UInt32.ofInt fd) (some local_)) := by
  cases hkey : s'.localBuffer fd with
  | none =>
    have hnone : s'.byKey (UInt32.ofInt fd) = none := by rw [s'.byKey_ofInt hfd, hkey]; rfl
    have hget : khGet s.localBuffer (UInt32.ofInt fd) = .ok (khEnd s.localBuffer) :=
      h.buffers.get_of_none hnone
    obtain ⟨b₁, i, v, hput, hi₁, hm₁, -⟩ := h.buffers.put hsize (UInt32.ofInt fd)
    obtain ⟨b₂, hset, hm₂, hi₂, -⟩ := hm₁.setValue hi₁ (some (newBuffer c))
    have hput : khPut s.localBuffer (UInt32.ofInt fd) = .ok (b₁, i) := hput
    refine ⟨b₂, i, by simp [KhTables.makeBuffer, hget, hput, hset], hm₂.get_of_slot hi₂, ?_, ?_⟩
    · rw [Tables.buffer, hkey]
      exact (hm₂.khValue_of_slot hi₂).2
    · intro local_
      obtain ⟨b₃, hset₃, hm₃, -, -⟩ := hm₂.setValue hi₂ (some local_)
      simp only [Table.set_set] at hm₃
      exact ⟨b₃, hset₃, hm₃⟩
  | some local_ =>
    have hsome : s'.byKey (UInt32.ofInt fd) = some (some local_) := by
      rw [s'.byKey_ofInt hfd, hkey]
      rfl
    obtain ⟨i, hi, hget⟩ := h.buffers.get_of_some hsome
    have hget : khGet s.localBuffer (UInt32.ofInt fd) = .ok i := hget
    have hend : i ≠ khEnd s.localBuffer := (h.buffers.lt_of_slot hi).ne
    refine ⟨s.localBuffer, i, by simp [KhTables.makeBuffer, hget, hend], hget, ?_, ?_⟩
    · rw [Tables.buffer, hkey]
      exact (h.buffers.khValue_of_slot hi).2
    · intro local'
      obtain ⟨b', hset, hm', -, -⟩ := h.buffers.setValue hi (some local')
      exact ⟨b', hset, hm'⟩

/-- An event is handled as over the finite maps, if the frame that is complete is. -/
theorem handleEvent_agree {stops : Prop} (pollStruct : PollFd) (data : List UInt8)
    (rand : Nat → RandResult) (hfd : IsDescriptor pollStruct.fd)
    (hsize : s.localBuffer.size < 2 ^ 30)
    (hcall : ∀ local_ extract packet, absorb c (s'.buffer pollStruct.fd) data = .ok (local_, extract) →
      extract.packet = some packet → Except.Agree stops Khash.SameWrites
        (handlePacket c.order pollStruct.fd packet rand s.addressTable)
        (handlePacket c.order pollStruct.fd packet rand s'.addressTable)) :
    Except.Agree stops (fun r r' => r.1.Refines r'.1 ∧ r.2 = r'.2)
      (khHandleEvent c s pollStruct data rand) (handleEvent c s' pollStruct data rand) := by
  rw [khHandleEvent, handleEvent]
  split
  · obtain ⟨s₁, hdrop, hs₁⟩ := h.dropClient pollStruct hfd
    rw [hdrop]
    exact .ok ⟨hs₁, rfl⟩
  obtain ⟨b, i, hmake, hget, hvalue, hset⟩ := h.makeBuffer hfd hsize
  simp only [hmake, hget, hvalue, Except.ok_bind]
  refine .bind_same fun r habsorb => ?_
  obtain ⟨local_, extract⟩ := r
  obtain ⟨b', hset', hm'⟩ := hset local_
  simp only [hset', Except.ok_bind]
  cases hpacket : extract.packet with
  | none =>
    refine .ok ⟨⟨h.addresses, ?_⟩, rfl⟩
    rwa [Tables.byKey_set _ hfd]
  | some packet =>
    refine (hcall local_ extract packet habsorb hpacket).bind ?_
    rintro ⟨t, writes⟩ ⟨m, writes'⟩ - - ⟨hm, hwrites⟩
    simp only at hm hwrites
    subst hwrites
    refine .ok ⟨⟨hm, ?_⟩, rfl⟩
    rwa [Tables.byKey_set _ hfd]

end KhTables.Refines

/-! ## The steps of the router -/

/-- The tables hold what the finite maps are, and the poll lists are the same. Only
    descriptors are monitored. -/
structure KhRouter.Refines (s : KhRouter checked c) (s' : Router c) : Prop where
  tables : s.tables.Refines s'.tables
  pollList : s.pollList = s'.pollList
  sound : s'.Sound
  descriptors : ∀ i, i ≠ 0 → (s'.pollList i).fd ≠ -1 → IsDescriptor (s'.pollList i).fd

theorem KhRouter.refines_init (checked : Bool) (c : RouterConfig) (listenFd : Int) :
    (KhRouter.init checked c listenFd).Refines (Router.init c listenFd) where
  tables := ⟨Khash.models_init, Khash.models_init⟩
  pollList := rfl
  sound := Router.sound_init c listenFd
  descriptors i hi hlive := by
    simp [Router.init, hi] at hlive

/-- The source of a data frame is known, and so are the targets that are selected. -/
def AddressTable.knows (t : AddressTable) (rand : Nat → RandResult) (source : UInt32)
    (length : Nat) : Bool :=
  (t source).any fun entry =>
    match (entry.countIn length).targets rand with
    | .ok targets => targets.all fun target => (t target).isSome
    | .error _ => true

/-- If the handling of an event comes to a data frame, its addresses are known. -/
def Router.knowsTargets (c : RouterConfig) (s : Router c) : Act → Bool
  | .event slot _ data rand =>
    match absorb c (s.tables.buffer (s.pollList slot).fd) data with
    | .ok (_, extract) => extract.packet.all fun packet =>
      match Request.parse c.order packet rand with
      | .ok (.data source) => s.tables.addressTable.knows rand source packet.length
      | _ => true
    | .error _ => true
  | _ => true

theorem AddressTable.isSome_of_knows {t : AddressTable} {rand : Nat → RandResult} {source : UInt32}
    {length : Nat} (h : t.knows rand source length = true) {address : UInt32}
    (hlooks : LooksUp t rand source length address) : (t address).isSome := by
  cases hkey : t source with
  | none => simp [knows, hkey] at h
  | some entry =>
    cases hlooks with
    | source => simp [hkey]
    | @target hint entry' targets _ hget hend hvalue htargets hmem =>
      rw [Table.khGet_of_some hkey] at hget
      cases hget
      rw [Table.khValue_of_some hkey] at hvalue
      cases hvalue
      simp only [knows, hkey, Option.any_some, htargets, List.all_eq_true] at h
      exact h address hmem

namespace KhRouter.Refines

variable {s : KhRouter checked c} {s' : Router c} (h : s.Refines s')
include h

/-- No more buffers than clients. -/
theorem localBuffer_size : s.tables.localBuffer.size < MAX_MONITOR_FDS := by
  rw [h.tables.buffers.size_eq]
  have hsubset : {key | (s'.tables.byKey key).isSome} ⊆
      (fun i => UInt32.ofInt (s'.pollList i).fd) '' {i | i ≠ 0} := by
    intro key hkey
    have hsome : (s'.tables.localBuffer key.toNat).isSome := by
      have hkey' : (s'.tables.byKey key).isSome := hkey
      rwa [Tables.byKey, Option.isSome_map] at hkey'
    obtain ⟨hne, i, hi, hfd⟩ := h.sound.buffers _ hsome
    have hdescriptor := h.descriptors i hi (by rw [hfd]; exact hne)
    exact ⟨i, hi, ((hdescriptor.eq_ofInt_iff key).2 hfd.symm).symm⟩
  have hclients : {i : Fin MAX_MONITOR_FDS | i ≠ 0}.ncard = MAX_MONITOR_FDS - 1 := by
    have hset : {i : Fin MAX_MONITOR_FDS | i ≠ 0} = ↑(Finset.univ.erase (0 : Fin MAX_MONITOR_FDS)) := by
      ext i
      simp
    rw [hset, Set.ncard_coe_finset, Finset.card_erase_of_mem (Finset.mem_univ 0), Finset.card_univ,
      Fintype.card_fin]
  have hle := Set.ncard_le_ncard hsubset (Set.toFinite _)
  have himage := Set.ncard_image_le (f := fun i => UInt32.ofInt (s'.pollList i).fd)
    (Set.toFinite {i : Fin MAX_MONITOR_FDS | i ≠ 0})
  rw [hclients] at himage
  exact (hle.trans himage).trans_lt (by decide)

/-- A step is the step over the finite maps. -/
theorem step_agree {stops : Prop} (hsize : s.tables.addressTable.size < 2 ^ 30) {act : Act}
    (hknows : stops ∨ Router.knowsTargets c s' act = true) :
    Except.Agree stops
      (fun r r' => r.1.tables.Refines r'.1.tables ∧ r.1.pollList = r'.1.pollList ∧ r.2 = r'.2)
      (KhRouter.step c s act) (Router.step c s' act) := by
  cases act with
  | accept remoteFd =>
    cases remoteFd with
    | none => exact .ok ⟨h.tables, h.pollList, rfl⟩
    | some remoteFd =>
      simp only [KhRouter.step, Router.step, h.pollList]
      cases freeEntry s'.pollList with
      | none => exact .error _
      | some entry => exact .ok ⟨h.tables, rfl, rfl⟩
  | event slot revents data rand =>
    simp only [KhRouter.step, Router.step, h.pollList]
    split
    · exact .ok ⟨h.tables, h.pollList, rfl⟩
    rename_i hlive
    simp only [not_or] at hlive
    have hfd : IsDescriptor (s'.pollList slot).fd := h.descriptors slot hlive.1 hlive.2.1
    have hclose : ∀ {r : KhTables checked c × PollFd × Output} {r' : Tables c × PollFd × Output},
        r.1.Refines r'.1 ∧ r.2 = r'.2 → @Except.Agree Fault _ _ stops
          (fun r r' => r.1.tables.Refines r'.1.tables ∧ r.1.pollList = r'.1.pollList ∧ r.2 = r'.2)
          (.ok (KhRouter.mk r.1 (setEntry s'.pollList slot { r.2.1 with revents := 0 }), r.2.2))
          (.ok (Router.mk r'.1 (setEntry s'.pollList slot { r'.2.1 with revents := 0 }), r'.2.2)) := by
      rintro ⟨tables, r⟩ ⟨tables', r'⟩ ⟨htables, hsame⟩
      simp only at htables hsame
      subst hsame
      exact .ok ⟨htables, rfl, rfl⟩
    split
    · obtain ⟨s₁, hdrop, hs₁⟩ := h.tables.dropClient { s'.pollList slot with revents } hfd
      rw [hdrop]
      exact hclose ⟨hs₁, rfl⟩
    · refine (h.tables.handleEvent_agree { s'.pollList slot with revents } data rand hfd
        (h.localBuffer_size.trans (by decide)) ?_).bind fun r r' _ _ hr => hclose hr
      intro local_ extract packet habsorb hpacket
      refine h.tables.addresses.handlePacket_agree hsize ⟨_, packet, rand⟩ ?_
      intro source address hparse hlooks hnone
      rcases hknows with hstops | hknows
      · exact .inl hstops
      · have hframe : s'.tables.addressTable.knows rand source packet.length = true := by
          simpa [Router.knowsTargets, habsorb, hpacket, hparse] using hknows
        have hsome := AddressTable.isSome_of_knows hframe hlooks
        rw [hnone] at hsome
        cases hsome

/-- The relation holds again after a step that both routers take. -/
theorem step {s₁ : KhRouter checked c} {s₁' : Router c} {act : Act} {o : Output}
    (hallowed : KhRouter.Allowed c s act) (hstep : Router.step c s' act = .ok (s₁', o))
    (htables : s₁.tables.Refines s₁'.tables) (hpoll : s₁.pollList = s₁'.pollList) :
    Router.Allowed c s' act ∧ s₁.Refines s₁' := by
  have hallowed' : Router.Allowed c s' act := by
    cases act with
    | accept remoteFd =>
      cases remoteFd with
      | none => trivial
      | some remoteFd => exact ⟨hallowed.1, fun entry => h.pollList ▸ hallowed.2.2 entry⟩
    | event slot revents data rand => exact hallowed
  have heffect := Router.effect_of_step hstep
  refine ⟨hallowed', htables, hpoll, h.sound.effect hallowed' heffect, ?_⟩
  intro i hi hlive
  cases heffect with
  | nothing => exact h.descriptors i hi hlive
  | @accepted fd entry pollStruct hentry hfree hfd =>
    by_cases hie : i = entry
    · simp only [hie, setEntry_self, hfd]
      exact ⟨hallowed.1, hallowed.2.1⟩
    · simp only [setEntry_of_ne hie] at hlive ⊢
      exact h.descriptors i hi hlive
  | @closed _ fd slot pollStruct hslot hfd hlive' hdead =>
    by_cases his : i = slot
    · simp only [his, setEntry_self] at hlive
      exact absurd hdead hlive
    · simp only [setEntry_of_ne his] at hlive ⊢
      exact h.descriptors i hi hlive
  | @handled fd slot pollStruct _ _ _ _ _ _ _ _ hslot hfd hlive' hsame _ _ _ _ =>
    have hkeep := setEntry_fd (hsame.trans hfd.symm)
    simp only [hkeep] at hlive ⊢
    exact h.descriptors i hi hlive

end KhRouter.Refines

/-! ## Addresses are never given up -/

theorem Khash.size_le_of_put {Value : Type} [Inhabited Value] {t t' : Khash checked Value}
    {key : UInt32} {i : Nat} (h : t.put key = .ok (t', i)) : t.size ≤ t'.size := by
  have hroom : ∀ {t₁ : Khash checked Value}, t.makeRoom = .ok t₁ → t₁.size = t.size := by
    intro t₁ hroom
    have hresize : ∀ {n : Nat}, t.resizeTo n = .ok t₁ → t₁.size = t.size := by
      intro n hresize
      rw [resizeTo] at hresize
      split at hresize
      · cases hresize
        rfl
      · obtain ⟨r, -, hresize⟩ := Except.bind_eq_ok_iff.1 hresize
        cases hresize
        rfl
    rw [makeRoom] at hroom
    split at hroom
    · split at hroom
      · exact hresize hroom
      · exact hresize hroom
    · cases hroom
      rfl
  simp only [put, Except.bind_eq_ok_iff] at h
  obtain ⟨t₁, hmake, x, -, -, -, empty, -, h⟩ := h
  rw [← hroom hmake]
  split at h
  · simp only [Except.bind_eq_ok_iff] at h
    obtain ⟨keys, -, flags, -, h⟩ := h
    cases h
    exact Nat.le_succ _
  simp only [Except.bind_eq_ok_iff] at h
  obtain ⟨deleted, -, h⟩ := h
  split at h
  · simp only [Except.bind_eq_ok_iff] at h
    obtain ⟨keys, -, flags, -, h⟩ := h
    cases h
    exact Nat.le_succ _
  · cases h
    exact Nat.le_refl _

theorem Khash.size_of_setValue {Value : Type} [Inhabited Value] {t t' : Khash checked Value}
    {i : Nat} {v : Value} (h : khSetValue t i v = .ok t') : t'.size = t.size := by
  simp only [khSetValue, Except.bind_eq_ok_iff] at h
  obtain ⟨-, -, vals, -, h⟩ := h
  cases h
  rfl

/-- No packet makes the address table smaller. -/
theorem Khash.size_le_of_handlePacket {order : ByteOrder} {fd : Int} {buffer : List UInt8}
    {rand : Nat → RandResult} {t t' : Khash checked Context} {writes : List Write}
    (h : handlePacket order fd buffer rand t = .ok (t', writes)) : t.size ≤ t'.size := by
  refine handlePacket_preserves (P := fun t₁ : Khash checked Context => t.size ≤ t₁.size) ?_ ?_
    (Nat.le_refl _) h
  · exact fun hle hput => hle.trans (Khash.size_le_of_put hput)
  · exact fun hle hset => hle.trans (Khash.size_of_setValue hset).ge

/-- No packet takes an address out of the address table. -/
theorem AddressTable.isSome_of_handlePacket {order : ByteOrder} {fd : Int} {buffer : List UInt8}
    {rand : Nat → RandResult} {t t' : AddressTable} {writes : List Write}
    (h : handlePacket order fd buffer rand t = .ok (t', writes)) {address : UInt32}
    (ha : (t address).isSome) : (t' address).isSome := by
  refine handlePacket_preserves (P := fun t : AddressTable => (t address).isSome) ?_ ?_ ha h
  · intro t₁ t₂ key i hsome hput
    simp only [khPut, Except.ok.injEq, Prod.mk.injEq] at hput
    obtain ⟨rfl, -⟩ := hput
    split
    · exact hsome
    · rw [Table.set_apply]
      split
      · rfl
      · exact hsome
  · intro t₁ t₂ i v hsome hset
    obtain ⟨key, -, -, rfl⟩ := Table.khSetValue_ok hset
    rw [Table.set_apply]
    split
    · rfl
    · exact hsome

theorem KhTables.size_of_dropClient {s : KhTables checked c} {pollStruct : PollFd}
    {r : KhTables checked c × PollFd × Output} (h : s.dropClient pollStruct = .ok r) :
    r.1.addressTable.size = s.addressTable.size := by
  simp only [dropClient, killBuffer, Except.bind_eq_ok_iff] at h
  obtain ⟨s₁, ⟨iter, -, h₁⟩, h⟩ := h
  cases h
  split at h₁
  · simp only [Except.bind_eq_ok_iff] at h₁
    obtain ⟨b₁, -, delHint, -, b₂, -, h₁⟩ := h₁
    cases h₁
    rfl
  · cases h₁
    rfl

theorem khHandleEvent_size {s : KhTables checked c} {pollStruct : PollFd} {data : List UInt8}
    {rand : Nat → RandResult} {r : KhTables checked c × PollFd × Output}
    (h : khHandleEvent c s pollStruct data rand = .ok r) :
    s.addressTable.size ≤ r.1.addressTable.size := by
  rw [khHandleEvent] at h
  split at h
  · exact (KhTables.size_of_dropClient h).ge
  simp only [Except.bind_eq_ok_iff] at h
  obtain ⟨b, -, iter, -, value, -, h⟩ := h
  cases value with
  | none => cases h
  | some local_ =>
    simp only [Except.bind_eq_ok_iff] at h
    obtain ⟨⟨local', extract⟩, -, b', -, h⟩ := h
    cases hpacket : extract.packet with
    | none =>
      dsimp only at h
      rw [hpacket] at h
      cases h
      exact Nat.le_refl _
    | some packet =>
      dsimp only at h
      rw [hpacket] at h
      simp only [Except.bind_eq_ok_iff] at h
      obtain ⟨⟨t, writes⟩, hhandle, h⟩ := h
      cases h
      exact Khash.size_le_of_handlePacket hhandle

theorem KhRouter.step_size {s s₁ : KhRouter checked c} {act : Act} {o : Output}
    (h : KhRouter.step c s act = .ok (s₁, o)) :
    s.tables.addressTable.size ≤ s₁.tables.addressTable.size := by
  cases act with
  | accept remoteFd =>
    cases remoteFd with
    | none =>
      cases h
      exact Nat.le_refl _
    | some remoteFd =>
      simp only [step] at h
      split at h
      · cases h
      · cases h
        exact Nat.le_refl _
  | event slot revents data rand =>
    simp only [step] at h
    split at h
    · cases h
      exact Nat.le_refl _
    split at h
    · obtain ⟨r, hdrop, h⟩ := Except.bind_eq_ok_iff.1 h
      cases h
      exact (KhTables.size_of_dropClient hdrop).ge
    · obtain ⟨r, hevent, h⟩ := Except.bind_eq_ok_iff.1 h
      cases h
      exact khHandleEvent_size hevent

theorem Router.step_keeps {s s₁ : Router c} {act : Act} {o : Output}
    (h : Router.step c s act = .ok (s₁, o)) {address : UInt32}
    (ha : (s.tables.addressTable address).isSome) : (s₁.tables.addressTable address).isSome := by
  cases Router.effect_of_step h with
  | nothing => exact ha
  | accepted => exact ha
  | closed => exact ha
  | @handled _ _ _ _ _ _ _ _ call _ _ _ _ _ _ _ _ _ hcall =>
    cases call with
    | none =>
      cases hcall
      exact ha
    | some p => exact AddressTable.isSome_of_handlePacket hcall ha

/-- A packet makes at most one address known. -/
theorem Performed.new_address {order : ByteOrder} {fd : Int} {buffer : List UInt8}
    {rand : Nat → RandResult} {t t' : AddressTable} {r : Request} {writes : List Write}
    (h : Performed order fd buffer rand t r t' writes) :
    ∃ a, ∀ b, (t' b).isSome → b = a ∨ (t b).isSome := by
  have hset : ∀ {a b : UInt32} {entry : Context}, (t.set a entry b).isSome → b = a ∨ (t b).isSome := by
    intro a b entry hb
    rw [Table.set_apply] at hb
    split at hb
    · exact .inl (by assumption)
    · exact .inr hb
  cases h with
  | claimed address => exact ⟨address, fun b hb => hset hb⟩
  | connected source target => exact ⟨source, fun b hb => hset hb⟩
  | @policySet policy target entry _ => exact ⟨target, fun b hb => hset hb⟩
  | policyIgnored => exact ⟨0, fun b hb => .inr hb⟩
  | @forwarded source entry targets _ _ =>
    refine ⟨source, fun b hb => hset (?_ : (t.set source (entry.countIn buffer.length) b).isSome)⟩
    rwa [AddressTable.credit, Option.isSome_map] at hb
  | dropped => exact ⟨0, fun b hb => .inr hb⟩
  | unhandled => exact ⟨0, fun b hb => .inr hb⟩

/-- No more addresses are known than steps were made. -/
theorem Router.ncard_addresses_le {allowed : Router c → Act → Prop} {listenFd : Int}
    {tr : List (Act × Output)} {s : Router c}
    (hrun : Machine.Run allowed (Router.step c) (.init c listenFd) tr s) :
    {a | (s.tables.addressTable a).isSome}.ncard ≤ tr.length := by
  have hfinite : Finite UInt32 := Finite.of_injective UInt32.toFin fun _ _ => UInt32.toFin_inj.1
  refine hrun.induct (P := fun tr s => {a | (s.tables.addressTable a).isSome}.ncard ≤ tr.length) ?_ ?_
  · have hempty : {a | ((Router.init c listenFd).tables.addressTable a).isSome} = ∅ := by
      ext a
      simp [Router.init, khInit, Table.empty]
    rw [hempty, Set.ncard_empty]
    exact Nat.zero_le _
  · intro tr s act o s₁ _ hle _ hstep
    have hnew : ∃ a, {b | (s₁.tables.addressTable b).isSome} ⊆
        insert a {b | (s.tables.addressTable b).isSome} := by
      cases Router.effect_of_step hstep with
      | nothing => exact ⟨0, Set.subset_insert ..⟩
      | accepted => exact ⟨0, Set.subset_insert ..⟩
      | closed => exact ⟨0, Set.subset_insert ..⟩
      | @handled _ _ _ _ _ _ _ _ call _ _ _ _ _ _ _ _ _ hcall =>
        cases call with
        | none =>
          cases hcall
          exact ⟨0, Set.subset_insert ..⟩
        | some p =>
          obtain ⟨r, -, hperformed⟩ := performed_of_handlePacket hcall
          exact hperformed.new_address
    obtain ⟨a, hsubset⟩ := hnew
    have hinsert := Set.ncard_insert_le a {b | (s.tables.addressTable b).isSome}
    have hgrows := Set.ncard_le_ncard hsubset (Set.toFinite _)
    rw [List.length_append, List.length_singleton]
    omega

/-! ## Runs -/

/-- A client claims address 5, sends a data frame from it and is gone. -/
def claimAndSend : List Act :=
  [.accept (some 4),
    .event 1 POLLIN (frameBytes .little GNW_COMMAND 0 (GNW_CMD_NEW_ADDRESS :: u32Bytes .little 5))
      fun _ => 0,
    .event 1 POLLIN (frameBytes .little GNW_DATA 5 [0x41]) fun _ => 0,
    .event 1 POLLHUP [] fun _ => 0]

theorem KhRouter.refines_of_run {listenFd : Int} {tr : List (Act × Output)} {s : KhRouter false c}
    (hrun : KhRouter.Run c (.init false c listenFd) tr s)
    (hsize : s.tables.addressTable.size < 2 ^ 30) :
    ∃ s', Router.Run c (.init c listenFd) tr s' ∧ s.Refines s' := by
  refine hrun.follow (P := fun s => s.tables.addressTable.size < 2 ^ 30) ?_ ?_ hsize
    (KhRouter.refines_init false c listenFd)
  · intro s act o s₁ _ hstep hlater
    exact (KhRouter.step_size hstep).trans_lt hlater
  · intro s s' act o s₁ h hsize hallowed hstep
    obtain ⟨⟨s₁', o'⟩, hstep', htables, hpoll, ho⟩ :=
      (h.step_agree hsize (.inl trivial)).of_ok_left hstep
    simp only at htables hpoll ho
    subst ho
    obtain ⟨hallowed', h₁⟩ := h.step hallowed hstep' htables hpoll
    exact ⟨s₁', hallowed', hstep', h₁⟩

/-- Whatever the router over khash.h does, as long as it knows fewer than 2^30 addresses:
    the router over finite maps does the same, reading, discarding, handling and writing the
    same bytes, and both tables hold what the maps are. -/
theorem khash_router_refines (c : RouterConfig) (listenFd : Int) {tr : List (Act × Output)}
    {s : KhRouter false c} (hrun : KhRouter.Run c (.init false c listenFd) tr s)
    (hsize : s.tables.addressTable.size < 2 ^ 30) :
    ∃ s', Router.Run c (.init c listenFd) tr s' ∧ s.Refines s' :=
  KhRouter.refines_of_run hrun hsize

theorem khash_router_refines_claim :
    ∃ tr s s', KhRouter.Run smallRouter (.init false smallRouter 3) tr s ∧ tr.length = 4 ∧
      Router.Run smallRouter (.init smallRouter 3) tr s' ∧ KhRouter.Refines s s' := by
  have hsim : (Machine.simulate (KhRouter.Allowed smallRouter) (KhRouter.step smallRouter)
      (KhRouter.init false smallRouter 3) claimAndSend).any (fun r =>
        r.2.length = 4 && r.1.tables.addressTable.size < 2 ^ 30) = true := by
    decide +kernel
  obtain ⟨tr, s, hrun, hlast⟩ := Machine.Run.exists_of_simulate hsim
  simp only [Bool.and_eq_true, decide_eq_true_eq] at hlast
  obtain ⟨s', hrun', hrefines⟩ := khash_router_refines smallRouter 3 hrun hlast.2
  exact ⟨tr, s, s', hrun, hlast.1, hrun', hrefines⟩

/-- A descriptor is an `int`. -/
def Act.fdFits : Act → Bool
  | .accept (some remoteFd) => remoteFd < 2 ^ 31
  | _ => true

/-- What the operating system may do when every descriptor is an `int`, and the data frames
    that it delivers have known addresses only. -/
def Router.AllowedKnown (c : RouterConfig) (s : Router c) (act : Act) : Prop :=
  Router.Allowed c s act ∧ act.fdFits = true ∧ Router.knowsTargets c s act = true

instance (c : RouterConfig) (s : Router c) (act : Act) : Decidable (Router.AllowedKnown c s act) :=
  inferInstanceAs (Decidable (_ ∧ _ ∧ _))

/-- Whatever the router over finite maps does while data frames come from and go to known
    addresses: the router over khash.h does the same, and never looks at a bucket that is not
    there, at a buffer that was freed or at flags behind the last ones. -/
theorem khash_router_follows (checked : Bool) (c : RouterConfig) (listenFd : Int)
    {tr : List (Act × Output)} {s' : Router c}
    (hrun : Machine.Run (Router.AllowedKnown c) (Router.step c) (.init c listenFd) tr s')
    (hsize : {a | (s'.tables.addressTable a).isSome}.ncard < 2 ^ 30) :
    ∃ s, KhRouter.Run c (.init checked c listenFd) tr s ∧ s.Refines s' := by
  have hfinite : Finite UInt32 := Finite.of_injective UInt32.toFin fun _ _ => UInt32.toFin_inj.1
  refine hrun.follow (R := fun s' (s : KhRouter checked c) => s.Refines s')
    (P := fun s' => {a | (s'.tables.addressTable a).isSome}.ncard < 2 ^ 30) ?_ ?_ hsize
    (KhRouter.refines_init checked c listenFd)
  · intro s' act o s₁' _ hstep hlater
    have hsubset : {a | (s'.tables.addressTable a).isSome} ⊆
        {a | (s₁'.tables.addressTable a).isSome} := fun a ha => Router.step_keeps hstep ha
    exact (Set.ncard_le_ncard hsubset (Set.toFinite _)).trans_lt hlater
  · rintro s' s act o s₁' h hsize ⟨hallowed, hfd, hknows⟩ hstep'
    have hroom : s.tables.addressTable.size < 2 ^ 30 := by rwa [h.tables.addresses.size_eq]
    obtain ⟨⟨s₁, o'⟩, hstep, htables, hpoll, ho⟩ :=
      (h.step_agree hroom (.inr hknows)).of_ok_right hstep'
    simp only at htables hpoll ho
    subst ho
    have hallowed' : KhRouter.Allowed c s act := by
      cases act with
      | accept remoteFd =>
        cases remoteFd with
        | none => trivial
        | some remoteFd =>
          exact ⟨hallowed.1, of_decide_eq_true hfd, fun entry => h.pollList ▸ hallowed.2 entry⟩
      | event slot revents data rand => exact hallowed
    exact ⟨s₁, hallowed', hstep, (h.step hallowed' hstep' htables hpoll).2⟩

theorem khash_router_follows_claim :
    ∃ tr s s', Router.Run smallRouter (.init smallRouter 3) tr s' ∧ tr.length = 4 ∧
      KhRouter.Run smallRouter (.init true smallRouter 3) tr s ∧ KhRouter.Refines s s' := by
  have hsim : (Machine.simulate (Router.AllowedKnown smallRouter) (Router.step smallRouter)
      (Router.init smallRouter 3) claimAndSend).any (fun r => r.2.length = 4) = true := by
    decide +kernel
  obtain ⟨tr, s', hrun', hlast⟩ := Machine.Run.exists_of_simulate hsim
  have hlength : tr.length = 4 := by simpa using hlast
  have haddresses := Router.ncard_addresses_le hrun'
  obtain ⟨s, hrun, hrefines⟩ := khash_router_follows true smallRouter 3 hrun'
    (by rw [hlength] at haddresses; omega)
  exact ⟨tr, s, s', hrun'.mono fun _ _ h => h.1, hlength, hrun, hrefines⟩
