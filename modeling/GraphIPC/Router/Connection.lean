-- SUMMARY: What a single connection does to its reassembly buffer, in any run of the router.
import GraphIPC.Router.Process

/-!
# One connection of the router

The buffer of a connection is a machine of its own: it is fed the pieces that
are read and hands out frames. Every run of the router, with whatever other
clients do in between, runs this machine for each of its connections.
-/

/-! ## One read -/

/-- The number of bytes a read took out of the buffer as a frame. -/
def Extract.taken (x : Extract) : Nat := (x.packet.map List.length).getD 0

theorem resync_of_nonneg {order : ByteOrder} {buffer : List UInt8} {bufferSize : Nat}
    (h : 0 ≤ gnwNextPacket order (buffer.take bufferSize)) :
    resync order buffer bufferSize = (buffer, bufferSize) := by
  cases bufferSize with
  | zero => rfl
  | succ bufferSize => rw [resync, if_neg (by omega)]

theorem resync_of_neg {order : ByteOrder} {buffer : List UInt8} {bufferSize : Nat}
    (h : gnwNextPacket order (buffer.take bufferSize) < 0) :
    (resync order buffer bufferSize).2 < bufferSize := by
  cases bufferSize with
  | zero => simp [gnwNextPacket] at h
  | succ bufferSize =>
    rw [resync, if_pos h]
    exact Nat.lt_succ_of_le (resync_snd_le ..)

/-- Without anything to discard, the resynchronisation loop does nothing. -/
theorem LocalBuffer.resynced_of_nonneg {size : Nat} {order : ByteOrder} {b : LocalBuffer size}
    (h : 0 ≤ gnwNextPacket order b.window) : b.resynced order = b := by
  obtain ⟨buffer, bufferTail, hlength, htail⟩ := b
  simp only [resynced, resync_of_nonneg h]

theorem takeFrame_none {size : Nat} {order : ByteOrder} {b : LocalBuffer size} {bufferSize : Nat}
    (hsize : bufferSize ≤ size) (h : ¬0 < gnwNextPacket order (b.buffer.take bufferSize)) :
    takeFrame order b bufferSize hsize = .ok (b, none) := by
  rw [takeFrame, if_neg h]

/-- The assertion against an under-run holds: a frame is no longer than the
    bytes it is taken from. -/
theorem takeFrame_some {size : Nat} {order : ByteOrder} {b : LocalBuffer size} {bufferSize : Nat}
    (hsize : bufferSize ≤ size) (htail : bufferSize ≤ b.bufferTail)
    (h : 0 < gnwNextPacket order (b.buffer.take bufferSize)) :
    ∃ b' : LocalBuffer size, takeFrame order b bufferSize hsize =
        .ok (b', some (b.buffer.take (gnwNextPacket order (b.buffer.take bufferSize)).toNat)) ∧
      b'.buffer = (packetShift b.buffer bufferSize
        (gnwNextPacket order (b.buffer.take bufferSize)).toNat).buffer ∧
      b'.bufferTail =
        b.bufferTail - (gnwNextPacket order (b.buffer.take bufferSize)).toNat := by
  have hle := gnwNextPacket_le order (b.buffer.take bufferSize)
  rw [List.length_take] at hle
  rw [takeFrame, if_pos h, if_pos (by omega)]
  exact ⟨_, rfl, rfl, rfl⟩

/-- What a read that did not fail did. -/
structure Absorbed (c : RouterConfig) (b : LocalBuffer c.bufferSize) (data : List UInt8)
    (b' : LocalBuffer c.bufferSize) (x : Extract) : Prop where
  fits : b.bufferTail + data.length < c.bufferSize
  tail : b'.bufferTail + x.taken = b.bufferTail + data.length
  left : x.discarded ≤ b'.bufferTail
  discards : gnwNextPacket c.order (b.window ++ data) < 0 → 0 < x.discarded
  clean : 0 ≤ gnwNextPacket c.order (b.window ++ data) →
    x.discarded = 0 ∧
    b'.window = (b.window ++ data).drop (gnwNextPacket c.order (b.window ++ data)).toNat ∧
    x.packet = if 0 < gnwNextPacket c.order (b.window ++ data) then
      some ((b.window ++ data).take (gnwNextPacket c.order (b.window ++ data)).toNat) else none

theorem absorb_of_not_fits {c : RouterConfig} {b : LocalBuffer c.bufferSize} {data : List UInt8}
    (h : c.bufferSize ≤ b.bufferTail + data.length) :
    absorb c b data = .error (.assertion "BUFFER OVERFLOW") := by
  rw [absorb, dif_neg (by omega)]

/-- A read that leaves a byte of the buffer free does not fail. -/
theorem absorb_of_fits {c : RouterConfig} {b : LocalBuffer c.bufferSize} {data : List UInt8}
    (h : b.bufferTail + data.length < c.bufferSize) :
    ∃ b' x, absorb c b data = .ok (b', x) ∧ Absorbed c b data b' x := by
  let stored := b.append data h.le
  let bufferSize := (resync c.order stored.buffer stored.bufferTail).2
  have hle : bufferSize ≤ stored.bufferTail := resync_snd_le ..
  have hwindow : stored.window = b.window ++ data := LocalBuffer.window_append b data h.le
  have hneg : gnwNextPacket c.order (b.window ++ data) < 0 → bufferSize < stored.bufferTail := by
    rw [← hwindow]
    exact resync_of_neg
  have hnonneg : 0 ≤ gnwNextPacket c.order (b.window ++ data) →
      bufferSize = stored.bufferTail ∧ stored.resynced c.order = stored := by
    rw [← hwindow]
    exact fun h => ⟨congrArg Prod.snd (resync_of_nonneg h), LocalBuffer.resynced_of_nonneg h⟩
  have habsorb : absorb c b data =
      (fun r => (r.1, { discarded := stored.bufferTail - bufferSize, packet := r.2 })) <$>
        takeFrame c.order (stored.resynced c.order) bufferSize
          (hle.trans stored.bufferTail_le) := by
    rw [absorb, dif_pos (by omega)]
    rfl
  have hsize : bufferSize ≤ c.bufferSize := hle.trans stored.bufferTail_le
  have hclean : 0 ≤ gnwNextPacket c.order (b.window ++ data) →
      (stored.resynced c.order).buffer.take bufferSize = b.window ++ data := by
    intro hn
    obtain ⟨hsize', hsame⟩ := hnonneg hn
    rw [hsame, hsize', ← hwindow]
    rfl
  by_cases hpos : 0 < gnwNextPacket c.order ((stored.resynced c.order).buffer.take bufferSize)
  · -- a frame is taken out
    obtain ⟨b', htake, hbuffer, htail⟩ :=
      takeFrame_some (b := stored.resynced c.order) hsize hle hpos
    have hready := gnwNextPacket_le c.order ((stored.resynced c.order).buffer.take bufferSize)
    rw [List.length_take, LocalBuffer.length_buffer] at hready
    refine ⟨b', _, by rw [habsorb, htake]; rfl, h, ?_, ?_, fun hn => ?_, fun hn => ?_⟩
    · simp only [Extract.taken, Option.map_some, Option.getD_some, List.length_take,
        LocalBuffer.length_buffer, htail]
      show stored.bufferTail - _ + _ = _
      have : stored.bufferTail = b.bufferTail + data.length := rfl
      omega
    · rw [htail]
      show stored.bufferTail - _ ≤ stored.bufferTail - _
      omega
    · have := hneg hn
      show 0 < stored.bufferTail - bufferSize
      omega
    · obtain ⟨hsize', hsame⟩ := hnonneg hn
      rw [hclean hn] at hpos htail hbuffer
      have hfront : (gnwNextPacket c.order (b.window ++ data)).toNat ≤ bufferSize := by
        rw [hclean hn] at hready
        omega
      refine ⟨by simp [hsize'], ?_, ?_⟩
      · rw [← hclean hn, ← take_packetShift (by rw [LocalBuffer.length_buffer]; exact hsize),
          hclean hn, LocalBuffer.window, hbuffer, htail, hsize']
        rfl
      · rw [if_pos hpos, ← hclean hn, List.take_take, hclean hn, Nat.min_eq_left hfront]
  · refine ⟨_, _, by rw [habsorb, takeFrame_none hsize hpos]; rfl, h, ?_, ?_, fun hn => ?_,
      fun hn => ?_⟩
    · rfl
    · exact Nat.sub_le ..
    · have := hneg hn
      show 0 < stored.bufferTail - bufferSize
      omega
    · obtain ⟨hsize', hsame⟩ := hnonneg hn
      rw [hclean hn] at hpos
      have hzero : (gnwNextPacket c.order (b.window ++ data)).toNat = 0 := by omega
      refine ⟨by simp [hsize'], ?_, by rw [if_neg hpos]⟩
      rw [hsame, hwindow, hzero, List.drop_zero]

/-- A read that did not fail did what it is specified to do. -/
theorem absorbed_of_absorb {c : RouterConfig} {b b' : LocalBuffer c.bufferSize}
    {data : List UInt8} {x : Extract} (h : absorb c b data = .ok (b', x)) :
    Absorbed c b data b' x := by
  by_cases hfits : b.bufferTail + data.length < c.bufferSize
  · obtain ⟨b'', x', h', hspec⟩ := absorb_of_fits hfits
    rw [h'] at h
    cases h
    exact hspec
  · rw [absorb_of_not_fits (by omega)] at h
    cases h

/-! ## The machine of a connection -/

/-- A piece that was read, and what the read did. -/
abbrev Exchange : Type := List UInt8 × Extract

/-- Runs of the buffer of a connection: every read returns between one byte and
    the MTU. -/
abbrev LocalBuffer.Run (c : RouterConfig) :
    LocalBuffer c.bufferSize → List Exchange → LocalBuffer c.bufferSize → Prop :=
  Machine.Run (fun _ data => data ≠ [] ∧ data.length ≤ c.networkMtu) (absorb c)

/-- The bytes that were read. -/
def received (xs : List Exchange) : List UInt8 := (xs.map Prod.fst).flatten

/-- The frames that were passed to `handle_packet`. -/
def passed (xs : List Exchange) : List (List UInt8) := xs.filterMap fun x => x.2.packet

/-- The number of bytes that were discarded. -/
def discarded (xs : List Exchange) : Nat := (xs.map fun x => x.2.discarded).sum

@[simp] theorem received_snoc (xs : List Exchange) (x : Exchange) :
    received (xs ++ [x]) = received xs ++ x.1 := by
  simp [received]

@[simp] theorem passed_snoc (xs : List Exchange) (x : Exchange) :
    passed (xs ++ [x]) = passed xs ++ x.2.packet.toList := by
  cases h : x.2.packet <;> simp [passed, h]

@[simp] theorem discarded_snoc (xs : List Exchange) (x : Exchange) :
    discarded (xs ++ [x]) = discarded xs + x.2.discarded := by
  simp [discarded]

/-- What a step did to the connection on a descriptor. -/
def Output.exchange (fd : Int) : Output → Option Exchange
  | .handled fd' data discarded call _ =>
    if fd' = fd then some (data, { discarded, packet := call.map Packet.buffer }) else none
  | _ => none

/-- What was exchanged with the connection on a descriptor. -/
def exchanges (fd : Int) (tr : List (Act × Output)) : List Exchange :=
  tr.filterMap fun e => e.2.exchange fd

theorem exchanges_snoc (fd : Int) (tr : List (Act × Output)) (e : Act × Output) :
    exchanges fd (tr ++ [e]) = exchanges fd tr ++ (e.2.exchange fd).toList := by
  cases h : e.2.exchange fd <;> simp [exchanges, h]

/-- A step leaves the buffer of a connection alone, or feeds it what was read. -/
theorem Router.Effect.buffer {c : RouterConfig} {s s' : Router c} {act : Act} {o : Output}
    (h : Router.Effect c s act s' o) {fd : Int} (hopen : ∀ fd', o = .closed fd' → fd' ≠ fd) :
    (o.exchange fd = none ∧ s'.tables.buffer fd = s.tables.buffer fd) ∨
      ∃ revents rand slot x, o.exchange fd = some x ∧ act = .event slot revents x.1 rand ∧
        x.1 ≠ [] ∧ absorb c (s.tables.buffer fd) x.1 = .ok (s'.tables.buffer fd, x.2) := by
  cases h with
  | nothing => exact .inl ⟨rfl, rfl⟩
  | accepted => exact .inl ⟨rfl, rfl⟩
  | @closed _ fd' =>
    have hne : fd ≠ fd' := (hopen fd' rfl).symm
    exact .inl ⟨rfl, by simp [Tables.buffer, Table.erase_of_ne hne]⟩
  | @handled fd' slot pollStruct revents data rand local_ extract call t writes _ _ _ _ hdata
      habsorb hcall _ =>
    by_cases hfd : fd' = fd
    · subst hfd
      have hpacket : call.map Packet.buffer = extract.packet := by
        rw [hcall, Option.map_map]
        exact Option.map_id'
      refine .inr ⟨revents, rand, slot, (data, extract), ?_, rfl, hdata, ?_⟩
      · simp [Output.exchange, hpacket]
      · simpa [Tables.buffer] using habsorb
    · refine .inl ⟨by simp [Output.exchange, hfd], ?_⟩
      simp [Tables.buffer, Table.set_of_ne (Ne.symm hfd)]

/-! ## The connections of the router -/

/-- The state of the router right after a connection was accepted on `fd`. -/
def Router.Accepted (c : RouterConfig) (fd : Int) (s : Router c) : Prop :=
  ∃ listenFd tr s₀, Router.Run c (Router.init c listenFd) tr s₀ ∧
    Router.Allowed c s₀ (.accept (some fd)) ∧
    Router.step c s₀ (.accept (some fd)) = .ok (s, .accepted fd)

/-- The connection on `fd` is not dropped in any step of a history. -/
def StaysOpen (fd : Int) (tr : List (Act × Output)) : Prop :=
  ∀ e ∈ tr, ∀ fd', e.2 = .closed fd' → fd' ≠ fd

/-- No connection is dropped in any step of a history. -/
def dropsNone (tr : List (Act × Output)) : Bool :=
  tr.all fun e => match e.2 with
    | .closed _ => false
    | _ => true

theorem StaysOpen.of_dropsNone {tr : List (Act × Output)} (h : dropsNone tr = true) (fd : Int) :
    StaysOpen fd tr := by
  intro e he fd' hclosed
  have hkeep := List.all_eq_true.1 h e he
  simp [hclosed] at hkeep

theorem StaysOpen.of_append {fd : Int} {tr tr' : List (Act × Output)}
    (h : StaysOpen fd (tr ++ tr')) : StaysOpen fd tr := fun e he =>
  h e (List.mem_append_left tr' he)

/-- A connection starts with an empty buffer, also when its descriptor number was
    used before. -/
theorem Router.Accepted.buffer {c : RouterConfig} {fd : Int} {s : Router c}
    (h : Router.Accepted c fd s) : s.tables.buffer fd = newBuffer c := by
  obtain ⟨listenFd, tr, s₀, hrun, hallowed, hstep⟩ := h
  have hsound := (Router.sound_init c listenFd).run hrun
  have hnone : s₀.tables.localBuffer fd = none := by
    cases hbuffer : s₀.tables.localBuffer fd with
    | none => rfl
    | some b =>
      obtain ⟨-, i, -, hi⟩ := hsound.buffers fd (by rw [hbuffer]; rfl)
      exact absurd hi (hallowed.2 i)
  have htables : s.tables = s₀.tables := by
    simp only [step] at hstep
    split at hstep
    · cases hstep
    · cases hstep
      rfl
  rw [htables, Tables.buffer, hnone]
  rfl

/-- Every run of the router runs the machine of each of its connections. -/
theorem Router.Run.connection {c : RouterConfig} {fd : Int} {s₀ s : Router c}
    {tr : List (Act × Output)} (haccepted : Router.Accepted c fd s₀)
    (h : Router.Run c s₀ tr s) (hopen : StaysOpen fd tr) :
    LocalBuffer.Run c (newBuffer c) (exchanges fd tr) (s.tables.buffer fd) := by
  induction h with
  | nil => rw [haccepted.buffer]; exact .nil
  | @snoc tr s s' act o _ hallowed hstep ih =>
    have hopen' : ∀ fd', o = .closed fd' → fd' ≠ fd := hopen (act, o) (by simp)
    rw [exchanges_snoc]
    rcases (effect_of_step hstep).buffer hopen' with
      ⟨hnone, hbuffer⟩ | ⟨revents, rand, slot, x, hsome, rfl, hdata, habsorb⟩
    · rw [hnone, hbuffer]
      simpa using ih hopen.of_append
    · rw [hsome]
      exact .snoc (ih hopen.of_append) ⟨hdata, hallowed⟩ habsorb

/-- A property of the buffer of a connection holds after every step of the router
    just if every read of the connection meets the condition under which reads
    keep it. -/
theorem Router.Run.connection_always_iff {c : RouterConfig} {fd : Int} {s₀ s : Router c}
    {tr : List (Act × Output)} (haccepted : Router.Accepted c fd s₀)
    (h : Router.Run c s₀ tr s) (hopen : StaysOpen fd tr)
    {P : List Exchange → LocalBuffer c.bufferSize → Prop}
    {Q : List Exchange → LocalBuffer c.bufferSize → Exchange → Prop} (init : P [] (newBuffer c))
    (preserved : ∀ xs x xs' b b', exchanges fd tr = xs ++ x :: xs' →
      LocalBuffer.Run c (newBuffer c) xs b → P xs b → absorb c b x.1 = .ok (b', x.2) →
      (P (xs ++ [x]) b' ↔ Q xs b x)) :
    (∀ tr₁ tr₂ s₁, tr = tr₁ ++ tr₂ → Router.Run c s₀ tr₁ s₁ →
      P (exchanges fd tr₁) (s₁.tables.buffer fd)) ↔
    ∀ tr₁ e tr₂ s₁, tr = tr₁ ++ e :: tr₂ → Router.Run c s₀ tr₁ s₁ →
      ∀ x, e.2.exchange fd = some x → Q (exchanges fd tr₁) (s₁.tables.buffer fd) x := by
  refine Machine.Run.always_iff
    (P := fun tr₁ s₁ => P (exchanges fd tr₁) (s₁.tables.buffer fd))
    (Q := fun tr₁ s₁ e => ∀ x, e.2.exchange fd = some x →
      Q (exchanges fd tr₁) (s₁.tables.buffer fd) x) h ?_ ?_
  · rw [haccepted.buffer]
    exact init
  · intro tr₁ act o tr₂ s₁ s₂ htr hrun₁ hP _ hstep
    have hopen₁ : StaysOpen fd tr₁ := (htr ▸ hopen).of_append
    have hopen' : ∀ fd', o = .closed fd' → fd' ≠ fd := hopen (act, o) (by simp [htr])
    have hconn := Router.Run.connection haccepted hrun₁ hopen₁
    rw [exchanges_snoc]
    rcases (effect_of_step hstep).buffer hopen' with
      ⟨hnone, hbuffer⟩ | ⟨_, _, _, x, hsome, -, -, habsorb⟩
    · simp [hnone, hbuffer, hP]
    · have hcut : exchanges fd tr = exchanges fd tr₁ ++ x :: exchanges fd tr₂ := by
        rw [htr]
        simp [exchanges, hsome]
      have hiff := preserved _ x _ _ _ hcut hconn hP habsorb
      simpa [hsome] using hiff

/-- A router that has just accepted its first connection. -/
def smallRouterAccepted : Router smallRouter where
  tables := (Router.init smallRouter 3).tables
  pollList := setEntry (Router.init smallRouter 3).pollList 1 ⟨4, POLLIN, 0⟩

theorem smallRouterAccepted_accepted : Router.Accepted smallRouter 4 smallRouterAccepted :=
  ⟨3, [], Router.init smallRouter 3, .nil, by decide +kernel, rfl⟩

/-- The frame with which a client claims address 9. -/
def smallClaim : List UInt8 :=
  frameBytes .little GNW_COMMAND 0xFFFFFFFF (GNW_CMD_NEW_ADDRESS :: u32Bytes .little 9)
