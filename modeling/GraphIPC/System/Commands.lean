-- SUMMARY: Which commands the two decoders handle inside their payload, over every frame that gnw_nextPacket accepts.
import GraphIPC.Node.HandlePacket
import GraphIPC.Node.Remote
import GraphIPC.Router.Control

/-!
# The payload of a command

The router and the node each take a command apart with a decoder of their own.
Each directive has arguments of a fixed size behind it, and the length a frame
declares may be anything. The router tests that there is a directive, the node
reads one before it tests, and neither tests that the arguments are there.
-/

/-! ## Accepted frames -/

/-- The header at the front of a buffer. -/
def headerOf (order : ByteOrder) (xs : List UInt8) : Header := (callOf order xs).1

/-- The payload that the header at the front of a buffer declares. -/
def payloadOf (order : ByteOrder) (xs : List UInt8) : List UInt8 :=
  (xs.drop 11).take (declaredLength order xs)

/-- The size of the frame that the header at the front of a buffer declares has
    32 bits. -/
def SizeFits (order : ByteOrder) (xs : List UInt8) : Prop :=
  11 + declaredLength order xs < 2 ^ 32

section Accepted

variable {order : ByteOrder} {xs : List UInt8} (hnext : 0 < gnwNextPacket order xs)
include hnext

/-- The header of an accepted frame passes the checks of `gnw_parse_header`. -/
theorem readHeader_accepted :
    (∀ ys, readHeader order (xs ++ ys) = some (headerOf order xs, xs.drop 11 ++ ys)) ∧
      (headerOf order xs).magic = GNW_MAGIC ∧ (headerOf order xs).version = GNW_VERSION ∧
      (headerOf order xs).length.toNat = declaredLength order xs := by
  obtain ⟨hlen, hstart, -, -⟩ := gnwNextPacket_pos hnext
  obtain ⟨header, hread, hlength⟩ := readHeader_forall order hlen
  obtain ⟨header', hread', hmagic, hversion, -⟩ := readHeader_append order hlen []
  have hself := hread []
  rw [hself] at hread'
  obtain ⟨rfl, -⟩ := by simpa using hread'
  have hheader : headerOf order xs = header := by
    rw [List.append_nil] at hself
    rw [headerOf, callOf, hself]
    rfl
  rw [hheader]
  refine ⟨hread, ?_, ?_, hlength.symm⟩
  · exact Option.some.inj (hmagic.symm.trans hstart.1)
  · exact Option.some.inj (hversion.symm.trans hstart.2)

/-- A size that fits is the answer of `gnw_nextPacket`. -/
theorem gnwNextPacket_of_sizeFits (hfits : SizeFits order xs) :
    gnwNextPacket order xs = (11 + declaredLength order xs : Nat) ∧
      11 + declaredLength order xs ≤ xs.length := by
  obtain ⟨-, -, hsize, hle⟩ := gnwNextPacket_pos hnext
  rw [SizeFits] at hfits
  rw [Nat.mod_eq_of_lt hfits] at hsize hle
  exact ⟨hsize, hle⟩

/-- Another size is answered with less than a header. -/
theorem gnwNextPacket_of_not_sizeFits (hfits : ¬SizeFits order xs) :
    gnwNextPacket order xs < 11 := by
  obtain ⟨-, -, hsize, -⟩ := gnwNextPacket_pos hnext
  have hlt := declaredLength_lt order xs
  rw [SizeFits] at hfits
  omega

theorem length_payloadOf (hfits : SizeFits order xs) :
    (payloadOf order xs).length = declaredLength order xs := by
  obtain ⟨-, hle⟩ := gnwNextPacket_of_sizeFits hnext hfits
  rw [payloadOf, List.length_take, List.length_drop]
  omega

/-- The frame taken out of the buffer holds the declared payload. -/
theorem gnwParseHeader_take (hfits : SizeFits order xs) :
    gnwParseHeader true order (xs.take (gnwNextPacket order xs).toNat) =
      .ok (headerOf order xs, payloadOf order xs) := by
  obtain ⟨hread, hmagic, hversion, hlength⟩ := readHeader_accepted hnext
  obtain ⟨hsize, hle⟩ := gnwNextPacket_of_sizeFits hnext hfits
  have hframe : 11 ≤ (xs.take (11 + declaredLength order xs)).length := by
    rw [List.length_take]
    omega
  obtain ⟨header, hread', -⟩ := readHeader_forall order hframe
  have hheader : header = headerOf order xs := by
    have hwhole := hread' (xs.drop (11 + declaredLength order xs))
    rw [List.take_append_drop] at hwhole
    have hself := hread []
    rw [List.append_nil, hwhole] at hself
    exact congrArg Prod.fst (Option.some.inj hself)
  have hself := hread' []
  rw [List.append_nil, List.append_nil, List.drop_take, Nat.add_sub_cancel_left, hheader] at hself
  rw [hsize, Int.toNat_natCast, gnwParseHeader, hself, readOr_some, Except.ok_bind]
  simp [hmagic, hversion, payloadOf]

/-- The frame taken out of the buffer is too short for its header. -/
theorem gnwParseHeader_take_short (hfits : ¬SizeFits order xs) :
    gnwParseHeader true order (xs.take (gnwNextPacket order xs).toNat) = .error .outOfBounds := by
  have hlt := gnwNextPacket_of_not_sizeFits hnext hfits
  have hshort : (xs.take (gnwNextPacket order xs).toNat).length < 11 := by
    rw [List.length_take]
    omega
  rw [gnwParseHeader, readHeader_short order hshort]
  rfl

end Accepted

/-! ## Well-formed commands -/

/-- The bytes the router reads behind a directive. A claim is made with or without
    an address, so its directive alone is enough. -/
def routerArguments (directive : UInt8) : Nat :=
  if directive = GNW_CMD_CONNECT then 8 else if directive = GNW_CMD_POLICY then 5 else 0

/-- The bytes a node reads behind a directive. -/
def nodeArguments (directive : UInt8) : Nat :=
  if directive = GNW_CMD_NEW_ADDRESS then 4 else 0

/-- A payload holds a directive and the arguments it takes. -/
def LongEnough (arguments : UInt8 → Nat) : List UInt8 → Prop
  | [] => False
  | directive :: next => arguments directive ≤ next.length

instance (arguments : UInt8 → Nat) (payload : List UInt8) :
    Decidable (LongEnough arguments payload) :=
  match payload with
  | [] => inferInstanceAs (Decidable False)
  | _ :: _ => inferInstanceAs (Decidable (_ ≤ _))

/-- A policy is one that has a name to be logged under. -/
def NamedPolicy (payload : List UInt8) : Prop :=
  ∀ policy next, payload = GNW_CMD_POLICY :: policy :: next → policy.toNat < policyStr.length

/-- A policy that is set for a known address is one that has a name. -/
def NamedPolicyIfKnown (order : ByteOrder) (t : AddressTable) (payload : List UInt8) : Prop :=
  ∀ policy next target rest, payload = GNW_CMD_POLICY :: policy :: next →
    packetReadU32 order next = some (target, rest) → t target ≠ none →
    policy.toNat < policyStr.length

/-- What is asked of a decoder: it returns, so it has not read behind the payload
    or outside a table, and a command that is not well formed changes nothing. -/
def Handles {τ : Type} (result : Except Fault τ) (unchanged : τ) (wellFormed : Prop) : Prop :=
  ∃ s, result = .ok s ∧ (¬wellFormed → s = unchanged)

theorem not_handles_error {τ : Type} {e : Fault} {unchanged : τ} {wellFormed : Prop} :
    ¬Handles (.error e) unchanged wellFormed := by
  rintro ⟨s, h, -⟩
  cases h

theorem not_handles_of_errorOf {τ : Type} {result : Except Fault τ} {unchanged : τ}
    {wellFormed : Prop} (h : result.errorOf = some .outOfBounds) :
    ¬Handles result unchanged wellFormed := by
  rw [Except.errorOf_eq_some_iff.1 h]
  exact not_handles_error

theorem handles_unchanged {τ : Type} {unchanged : τ} {wellFormed : Prop} :
    Handles (.ok unchanged) unchanged wellFormed := ⟨unchanged, rfl, fun _ => rfl⟩

theorem handles_of_wellFormed {τ : Type} {s unchanged : τ} {wellFormed : Prop}
    (h : wellFormed) : Handles (.ok s) unchanged wellFormed := ⟨s, rfl, fun hnot => absurd h hnot⟩

/-! ## The decoder of the router -/

/-- The request that the router reads off the payload of a command. -/
def Request.ofCommand (order : ByteOrder) (rand : Nat → RandResult) :
    List UInt8 → Except Fault Request
  | [] => .ok .unhandled
  | directive :: next =>
    if directive = GNW_CMD_NEW_ADDRESS then
      if next.length = 4 then do
        let (addressReq, _) ← readOr (packetReadU32 order next)
        return .newAddress addressReq
      else .ok (.newAddress (0xFFFFF000 &&& UInt32.ofNat (rand 0)))
    else if directive = GNW_CMD_CONNECT then do
      let (source, next) ← readOr (packetReadU32 order next)
      let (target, _) ← readOr (packetReadU32 order next)
      return .connect source target
    else if directive = GNW_CMD_DISCONNECT then .ok .unhandled
    else if directive = GNW_CMD_POLICY then do
      let (policy, next) ← readOr (packetReadU8 next)
      let (target, _) ← readOr (packetReadU32 order next)
      return .setPolicy policy target
    else .ok .unhandled

/-- The request of a command frame is that of its payload. -/
theorem Request.parse_command {order : ByteOrder} {buffer : List UInt8} {header : Header}
    {payload : List UInt8} (rand : Nat → RandResult)
    (hparse : gnwParseHeader true order buffer = .ok (header, payload))
    (htype : header.type = GNW_COMMAND) (hlength : header.length.toNat = payload.length) :
    Request.parse order buffer rand = Request.ofCommand order rand payload := by
  have hpos : 0 < buffer.length := by
    rw [List.length_pos_iff]
    rintro rfl
    rw [gnwParseHeader_nil] at hparse
    cases hparse
  have hcount : ∀ n : UInt32, header.length = n ↔ payload.length = n.toNat := fun n => by
    rw [← hlength, UInt32.toNat_inj]
  simp only [Request.parse, hpos, decide_true, assertThat_true, Except.ok_bind, hparse, htype,
    if_true, hcount]
  cases payload with
  | nil => rfl
  | cons directive next =>
    have hfive : (directive :: next).length = (5 : UInt32).toNat ↔ next.length = 4 := by
      have heq : (5 : UInt32).toNat = 5 := rfl
      rw [List.length_cons, heq]
      omega
    have hzero : ¬(directive :: next).length = (0 : UInt32).toNat := by simp
    rw [if_neg hzero]
    simp only [hfive, packetReadU8_cons, readOr_some, Except.ok_bind, Request.ofCommand]
    rfl

/-- What the router reads off a payload, case by case. -/
inductive Request.Reads (order : ByteOrder) : List UInt8 → Except Fault Request → Prop where
  | empty : Reads order [] (.ok .unhandled)
  | short {directive : UInt8} {next : List UInt8} :
      next.length < routerArguments directive →
      Reads order (directive :: next) (.error .outOfBounds)
  | claim {next : List UInt8} (address : UInt32) :
      Reads order (GNW_CMD_NEW_ADDRESS :: next) (.ok (.newAddress address))
  | connect {next : List UInt8} (source target : UInt32) : 8 ≤ next.length →
      Reads order (GNW_CMD_CONNECT :: next) (.ok (.connect source target))
  | policy {policy : UInt8} {next : List UInt8} {target : UInt32} : 4 ≤ next.length →
      packetReadU32 order next = some (target, next.drop 4) →
      Reads order (GNW_CMD_POLICY :: policy :: next) (.ok (.setPolicy policy target))
  | unhandled {directive : UInt8} {next : List UInt8} :
      routerArguments directive = 0 → directive ≠ GNW_CMD_POLICY →
      Reads order (directive :: next) (.ok .unhandled)

theorem Request.ofCommand_reads (order : ByteOrder) (rand : Nat → RandResult)
    (payload : List UInt8) : Reads order payload (ofCommand order rand payload) := by
  cases payload with
  | nil => exact .empty
  | cons directive next =>
    rw [ofCommand]
    split
    · rename_i hnew
      subst hnew
      split
      · rename_i hlength
        rcases packetReadU32_cases order next with ⟨hshort, -⟩ | ⟨-, address, hread⟩
        · omega
        · rw [hread]
          exact .claim address
      · exact .claim _
    split
    · rename_i hconnect
      subst hconnect
      rcases packetReadU32_cases order next with ⟨hshort, hread⟩ | ⟨hlong, source, hread⟩
      · rw [hread]
        exact .short (by simp only [routerArguments, if_true]; omega)
      rcases packetReadU32_cases order (next.drop 4) with ⟨hshort', hread'⟩ | ⟨hlong', target, hread'⟩
      · rw [List.length_drop] at hshort'
        simp only [hread, hread', readOr_some, readOr_none, Except.ok_bind, Except.error_bind]
        exact .short (by simp only [routerArguments, if_true]; omega)
      · rw [List.length_drop] at hlong'
        simp only [hread, hread', readOr_some, Except.ok_bind]
        exact .connect source target (by omega)
    rename_i hconnect
    split
    · rename_i hdisconnect
      subst hdisconnect
      exact .unhandled rfl (by decide)
    split
    · rename_i hpolicy
      subst hpolicy
      have harguments : routerArguments GNW_CMD_POLICY = 5 := rfl
      cases next with
      | nil => exact .short (by rw [harguments, List.length_nil]; omega)
      | cons policy next =>
        rcases packetReadU32_cases order next with ⟨hshort, hread⟩ | ⟨hlong, target, hread⟩
        · simp only [packetReadU8_cons, readOr_some, Except.ok_bind, hread]
          exact .short (by rw [harguments, List.length_cons]; omega)
        · simp only [packetReadU8_cons, readOr_some, Except.ok_bind, hread]
          exact .policy hlong hread
    · rename_i hpolicy
      exact .unhandled (by rw [routerArguments, if_neg hconnect, if_neg hpolicy]) hpolicy

/-- The router on the payload of a command. -/
theorem handles_perform_iff {order : ByteOrder} {fd : Int} {buffer : List UInt8}
    {rand : Nat → RandResult} {t : AddressTable} {payload : List UInt8} :
    Handles (Request.ofCommand order rand payload >>= Request.perform order fd buffer rand t)
        (t, []) (LongEnough routerArguments payload ∧ NamedPolicy payload) ↔
      (payload = [] ∨ LongEnough routerArguments payload) ∧
        NamedPolicyIfKnown order t payload := by
  have hreads := Request.ofCommand_reads order rand payload
  generalize Request.ofCommand order rand payload = result at hreads
  cases hreads with
  | empty => exact ⟨fun _ => ⟨.inl rfl, fun _ _ _ _ h => by cases h⟩, fun _ => handles_unchanged⟩
  | @short directive next hshort =>
    refine ⟨fun h => absurd h not_handles_error, ?_⟩
    rintro ⟨hempty | hlong, -⟩
    · cases hempty
    · exact absurd hshort (Nat.not_lt.2 hlong)
  | @claim next address =>
    have hlong : LongEnough routerArguments (GNW_CMD_NEW_ADDRESS :: next) := Nat.zero_le _
    refine ⟨fun _ => ⟨.inr hlong, fun _ _ _ _ h => by cases h⟩, fun _ => ?_⟩
    rw [Except.ok_bind, Request.perform, AddressTable.cmdNewAddress_eq]
    exact handles_of_wellFormed ⟨hlong, fun _ _ h => by cases h⟩
  | @connect next source target hlength =>
    have hlong : LongEnough routerArguments (GNW_CMD_CONNECT :: next) := hlength
    refine ⟨fun _ => ⟨.inr hlong, fun _ _ _ _ h => by cases h⟩, fun _ => ?_⟩
    rw [Except.ok_bind, Request.perform, AddressTable.cmdConnect_eq]
    exact handles_of_wellFormed ⟨hlong, fun _ _ h => by cases h⟩
  | @policy policy next target hlength hread =>
    have hlong : LongEnough routerArguments (GNW_CMD_POLICY :: policy :: next) :=
      Nat.succ_le_succ hlength
    rw [Except.ok_bind, Request.perform]
    cases htarget : t target with
    | none =>
      rw [AddressTable.cmdPolicy_of_none htarget]
      refine ⟨fun _ => ⟨.inr hlong, ?_⟩, fun _ => handles_unchanged⟩
      rintro policy' next' target' rest' ⟨⟩ hread' hknown
      rw [hread] at hread'
      cases hread'
      exact absurd htarget hknown
    | some entry =>
      have hfour : policyStr.length = 4 := rfl
      constructor
      · intro h
        refine ⟨.inr hlong, ?_⟩
        rintro policy' next' target' rest' ⟨⟩ - -
        by_contra hunnamed
        rw [AddressTable.cmdPolicy_of_unnamed htarget (by omega)] at h
        exact not_handles_error h
      · rintro ⟨-, hnamed⟩
        have hlt := hnamed policy next target _ rfl hread (by simp [htarget])
        rw [AddressTable.cmdPolicy_of_some htarget hlt]
        refine handles_of_wellFormed ⟨hlong, ?_⟩
        rintro policy' next' ⟨⟩
        exact hlt
  | @unhandled directive next hzero hpolicy =>
    have hlong : LongEnough routerArguments (directive :: next) := by
      rw [LongEnough, hzero]
      exact Nat.zero_le _
    refine ⟨fun _ => ⟨.inr hlong, ?_⟩, fun _ => handles_unchanged⟩
    rintro policy' next' target' rest' ⟨⟩
    exact absurd rfl hpolicy

/-! ## The decoder of a node -/

variable {σ : Type} (toSink : Header → List UInt8 → σ → Except Fault σ)

/-- What a round of `handleRemoteData` does with a frame at the front of its
    buffer. -/
def remoteFrame (order : ByteOrder)
    (handlePacket : Header → List UInt8 → NodeState σ → Except Fault (NodeState σ))
    (buffer : List UInt8) (n : NodeState σ) : Except Fault (NodeState σ) := do
  let (header, ptr) ← gnwParseHeader false order buffer
  let payload ← copyPayload (11 + header.length).toNat ptr header.length.toNat
  handlePacket header payload n

/-- The loop of `handleRemoteData` is made of such rounds. -/
theorem remoteLoop_of_pos {c : NodeConfig}
    (handlePacket : Header → List UInt8 → NodeState σ → Except Fault (NodeState σ)) (fuel : Nat)
    {b : LocalBuffer c.bufferSize} (hnext : 0 < gnwNextPacket c.order b.window) (n : NodeState σ) :
    remoteLoop c handlePacket (fuel + 1) b n =
      remoteFrame c.order handlePacket b.buffer n >>=
        remoteLoop c handlePacket fuel
          (b.shift (11 + (headerOf c.order b.window).length).toNat) := by
  obtain ⟨hread, -⟩ := readHeader_accepted hnext
  have hbuffer : b.window ++ b.buffer.drop b.bufferTail = b.buffer := List.take_append_drop ..
  have hread := hread (b.buffer.drop b.bufferTail)
  rw [hbuffer] at hread
  have hparse : gnwParseHeader false c.order b.buffer =
      .ok (headerOf c.order b.window, b.window.drop 11 ++ b.buffer.drop b.bufferTail) := by
    rw [gnwParseHeader, hread]
    rfl
  simp only [remoteLoop, remoteFrame, hparse, Except.ok_bind, bind_assoc]
  rw [if_neg (by omega), if_neg (by omega)]

/-- The payload that is copied, if the size of the array is not reduced to less. -/
theorem remoteFrame_eq {order : ByteOrder}
    (handlePacket : Header → List UInt8 → NodeState σ → Except Fault (NodeState σ))
    {xs : List UInt8} (hnext : 0 < gnwNextPacket order xs) (ys : List UInt8) (n : NodeState σ) :
    (SizeFits order xs → remoteFrame order handlePacket (xs ++ ys) n =
        handlePacket (headerOf order xs) (payloadOf order xs) n) ∧
      (¬SizeFits order xs →
        remoteFrame order handlePacket (xs ++ ys) n = .error .outOfBounds) := by
  obtain ⟨hread, -, -, hlength⟩ := readHeader_accepted hnext
  have hparse : gnwParseHeader false order (xs ++ ys) =
      .ok (headerOf order xs, xs.drop 11 ++ ys) := by
    rw [gnwParseHeader, hread]
    rfl
  have heleven : (11 : UInt32).toNat = 11 := rfl
  have hlt := declaredLength_lt order xs
  rw [remoteFrame, hparse, Except.ok_bind]
  simp only
  rw [UInt32.toNat_add, heleven, hlength]
  constructor
  · intro hfits
    obtain ⟨-, hle⟩ := gnwNextPacket_of_sizeFits hnext hfits
    have hdrop : declaredLength order xs ≤ (xs.drop 11).length := by
      rw [List.length_drop]
      omega
    rw [SizeFits] at hfits
    rw [copyPayload, if_pos ⟨by omega, by rw [List.length_append]; omega⟩,
      List.take_append_of_le_length hdrop]
    rfl
  · intro hfits
    rw [SizeFits] at hfits
    rw [copyPayload, if_neg (by omega)]
    rfl

omit toSink in
/-- A node on the payload of a command. -/
theorem handles_handleCommandPacket_iff {order : ByteOrder} {header : Header}
    {payload : List UInt8} (hlength : header.length.toNat = payload.length) {n : NodeState σ} :
    Handles (handleCommandPacket order header payload n) n (LongEnough nodeArguments payload) ↔
      LongEnough nodeArguments payload := by
  cases payload with
  | nil => exact ⟨fun h => absurd h not_handles_error, fun h => absurd h id⟩
  | cons directive next =>
    have hpos : ¬header.length < 1 := by
      rw [UInt32.lt_iff_toNat_lt, hlength, List.length_cons]
      exact Nat.not_lt.2 (Nat.succ_le_succ (Nat.zero_le _))
    rw [handleCommandPacket, packetReadU8_cons, readOr_some, Except.ok_bind]
    simp only
    rw [if_neg hpos]
    split
    · rename_i hnew
      subst hnew
      have harguments : nodeArguments GNW_CMD_NEW_ADDRESS = 4 := rfl
      rw [LongEnough, harguments]
      rcases packetReadU32_cases order next with ⟨hshort, hread⟩ | ⟨hlong, address, hread⟩
      · rw [hread]
        exact ⟨fun h => absurd h not_handles_error, fun h => absurd hshort (Nat.not_lt.2 h)⟩
      · rw [hread, readOr_some, Except.ok_bind]
        refine ⟨fun _ => hlong, fun _ => ?_⟩
        split
        · exact handles_of_wellFormed hlong
        · exact handles_unchanged
    · rename_i hnew
      have harguments : nodeArguments directive = 0 := by rw [nodeArguments, if_neg hnew]
      rw [LongEnough, harguments]
      exact ⟨fun _ => Nat.zero_le _, fun _ => handles_unchanged⟩

/-! ## Both decoders -/

/-- What is asked of the router for the command in front of a buffer. -/
def RouterHandles (order : ByteOrder) (fd : Int) (rand : Nat → RandResult) (t : AddressTable)
    (xs : List UInt8) : Prop :=
  (headerOf order xs).type = GNW_COMMAND →
    Handles (handlePacket order fd (xs.take (gnwNextPacket order xs).toNat) rand t) (t, [])
      (SizeFits order xs ∧ LongEnough routerArguments (payloadOf order xs) ∧
        NamedPolicy (payloadOf order xs))

/-- What is asked of a node for the command in front of a buffer, with the bytes
    behind the tail. -/
def NodeHandles (order : ByteOrder) (argEcho : Bool) (n : NodeState σ) (xs ys : List UInt8) :
    Prop :=
  (headerOf order xs).type = GNW_COMMAND ∨ (headerOf order xs).type = GNW_REPLY →
    Handles (remoteFrame order (nodeHandlePacket toSink order argEcho) (xs ++ ys) n) n
      (SizeFits order xs ∧ LongEnough nodeArguments (payloadOf order xs))

/-- The router handles a command without reading behind its payload or outside its
    table of names just if the declared size fits, the payload is empty or long
    enough, and a policy for a known address has a name. A node does just if the
    declared size fits and the payload is long enough. -/
theorem commands_handled_iff {order : ByteOrder} {xs : List UInt8}
    (hnext : 0 < gnwNextPacket order xs) (fd : Int) (rand : Nat → RandResult) (t : AddressTable)
    (argEcho : Bool) (n : NodeState σ) (ys : List UInt8) :
    (RouterHandles order fd rand t xs ↔
        ((headerOf order xs).type = GNW_COMMAND → SizeFits order xs ∧
          (payloadOf order xs = [] ∨ LongEnough routerArguments (payloadOf order xs)) ∧
          NamedPolicyIfKnown order t (payloadOf order xs))) ∧
      (NodeHandles toSink order argEcho n xs ys ↔
        ((headerOf order xs).type = GNW_COMMAND ∨ (headerOf order xs).type = GNW_REPLY →
          SizeFits order xs ∧ LongEnough nodeArguments (payloadOf order xs))) := by
  have hpos : 0 < (xs.take (gnwNextPacket order xs).toNat).length := by
    obtain ⟨hlen, -⟩ := gnwNextPacket_pos hnext
    rw [List.length_take]
    omega
  obtain ⟨-, -, -, hlength⟩ := readHeader_accepted hnext
  have hframe := remoteFrame_eq (nodeHandlePacket toSink order argEcho) hnext ys n
  by_cases hfits : SizeFits order xs
  · have hparse := gnwParseHeader_take hnext hfits
    rw [← length_payloadOf hnext hfits] at hlength
    constructor
    · refine imp_congr_right fun htype => ?_
      rw [handlePacket_eq, Request.parse_command rand hparse htype hlength]
      simpa only [hfits, true_and] using handles_perform_iff
    · refine imp_congr_right fun htype => ?_
      have hdata : ¬(headerOf order xs).type = GNW_DATA := by
        rcases htype with htype | htype
        · rw [htype]
          decide
        · rw [htype]
          decide
      rw [hframe.1 hfits, nodeHandlePacket, if_neg hdata, if_pos htype]
      simpa only [hfits, true_and] using handles_handleCommandPacket_iff hlength
  · constructor
    · refine imp_congr_right fun _ => ?_
      have herror : handlePacket order fd (xs.take (gnwNextPacket order xs).toNat) rand t =
          .error .outOfBounds := by
        simp only [handlePacket, hpos, decide_true, assertThat_true, Except.ok_bind,
          gnwParseHeader_take_short hnext hfits, Except.error_bind]
      rw [herror]
      exact ⟨fun h => absurd h not_handles_error, fun h => absurd h.1 hfits⟩
    · refine imp_congr_right fun _ => ?_
      rw [hframe.2 hfits]
      exact ⟨fun h => absurd h not_handles_error, fun h => absurd h.1 hfits⟩

/-- A connection without its two addresses and a policy that has no name, on the
    router, and a reply without a directive, on a node. -/
theorem commands_handled_fails :
    (∃ xs, 0 < gnwNextPacket .little xs ∧
      ¬RouterHandles .little 4 (fun _ => 0) AddressTable.empty xs) ∧
    (∃ xs t, 0 < gnwNextPacket .little xs ∧ ¬RouterHandles .little 4 (fun _ => 0) t xs) ∧
    ∃ xs, 0 < gnwNextPacket .little xs ∧
      ¬NodeHandles (fun _ _ (s : Unit) => .ok s) .little true ⟨5, [], ()⟩ xs [] := by
  refine ⟨⟨frameBytes .little GNW_COMMAND 0 [GNW_CMD_CONNECT], by decide, fun h => ?_⟩,
    ⟨frameBytes .little GNW_COMMAND 0 (GNW_CMD_POLICY :: 9 :: u32Bytes .little 5),
      AddressTable.empty.set 5 setupContext, by decide, fun h => ?_⟩,
    ⟨frameBytes .little GNW_REPLY 0 [], by decide, fun h => ?_⟩⟩
  · exact not_handles_of_errorOf (by decide) (h (by decide))
  · exact not_handles_of_errorOf (by decide) (h (by decide))
  · exact not_handles_of_errorOf (by decide) (h (by decide))

/-- A connection with both addresses. -/
theorem commands_handled_connect :
    RouterHandles .little 4 (fun _ => 0) AddressTable.empty
      (frameBytes .little GNW_COMMAND 0
        (GNW_CMD_CONNECT :: (u32Bytes .little 1 ++ u32Bytes .little 2))) := by
  refine (commands_handled_iff (fun _ _ (s : Unit) => .ok s) (by decide) 4 (fun _ => 0)
    AddressTable.empty true ⟨5, [], ()⟩ []).1.2 fun _ => ⟨by unfold SizeFits; decide,
      .inr (by decide), ?_⟩
  intro policy next target rest hpayload
  have hconnect : GNW_CMD_CONNECT = GNW_CMD_POLICY := List.head_eq_of_cons_eq hpayload
  exact absurd hconnect (by decide)
