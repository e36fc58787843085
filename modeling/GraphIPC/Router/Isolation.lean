-- SUMMARY: The frames a connection is credited with depend on its own reads alone, whatever else the router does.
import GraphIPC.Router.Connection

/-!
# Isolation of connections

The buffer of a connection is a block that may have held anything before, in a
table whose entries come and go with descriptor numbers that are used again. What
a read makes of it is a function of the bytes pending in it, so the same reads
lead to the same frames in any two runs.
-/

/-! ## What a read depends on -/

/-- Bytes taken off the front of a piece of a buffer, seen through a larger
    window. -/
theorem take_buffer_packetShift {buffer : List UInt8} {m n : Nat} (k : Nat) (hn : n ≤ m) :
    (packetShift buffer n k).buffer.take m = (packetShift (buffer.take m) n k).buffer := by
  have hmoved : ((buffer.take m).drop k).take (n - k) = (buffer.drop k).take (n - k) := by
    rw [List.drop_take, List.take_take, Nat.min_eq_left (by omega)]
  have hlen : ((buffer.drop k).take (n - k)).length ≤ m := by
    rw [List.length_take]
    omega
  simp only [packetShift, Memory.store, hmoved, List.take_zero, List.nil_append, Nat.zero_add]
  rw [List.take_append, List.take_of_length_le hlen, List.drop_take]

/-- The resynchronisation loop, seen through a larger window. -/
theorem resync_take (order : ByteOrder) {buffer : List UInt8} {m n : Nat} (hn : n ≤ m)
    (hm : m ≤ buffer.length) :
    resync order (buffer.take m) n =
      ((resync order buffer n).1.take m, (resync order buffer n).2) := by
  induction n generalizing buffer with
  | zero => rfl
  | succ n ih =>
    have htake : (buffer.take m).take (n + 1) = buffer.take (n + 1) := by
      rw [List.take_take, Nat.min_eq_left hn]
    have hlen : (packetShift buffer (n + 1) 1).buffer.length = buffer.length :=
      length_packetShift (hn.trans hm)
    rw [resync, resync, htake]
    split
    · rw [← take_buffer_packetShift 1 hn, ih (by omega) (by omega)]
    · rfl

/-- What a read makes of the bytes that are pending with it: those it keeps, and
    what it discards and hands out. -/
def digest (order : ByteOrder) (pending : List UInt8) : List UInt8 × Extract :=
  let r := resync order pending pending.length
  let readyBytes := gnwNextPacket order (r.1.take r.2)
  let discarded := pending.length - r.2
  if readyBytes > 0 then
    ((packetShift r.1 r.2 readyBytes.toNat).buffer.take (pending.length - readyBytes.toNat),
      { discarded, packet := some (r.1.take readyBytes.toNat) })
  else (r.1, { discarded, packet := none })

/-- A read that does not fail makes of the buffer what it makes of the bytes
    pending, wherever they lie and whatever lies behind them. -/
theorem absorb_digest {c : RouterConfig} {b b' : LocalBuffer c.bufferSize} {data : List UInt8}
    {x : Extract} (h : absorb c b data = .ok (b', x)) :
    (b'.window, x) = digest c.order (b.window ++ data) := by
  have hfits := (absorbed_of_absorb h).fits
  let stored := b.append data hfits.le
  have hwindow : stored.window = b.window ++ data := b.window_append data hfits.le
  let r := resync c.order stored.buffer stored.bufferTail
  have hle : r.2 ≤ stored.bufferTail := resync_snd_le ..
  have htail := stored.bufferTail_le
  have hsize : r.2 ≤ c.bufferSize := hle.trans htail
  have hresync : resync c.order stored.window stored.window.length =
      (r.1.take stored.bufferTail, r.2) := by
    rw [stored.length_window]
    exact resync_take c.order (Nat.le_refl _) (by rw [stored.length_buffer]; exact htail)
  have hnext : (r.1.take stored.bufferTail).take r.2 = r.1.take r.2 := by
    rw [List.take_take, Nat.min_eq_left hle]
  have habsorb : absorb c b data =
      (fun t => (t.1, { discarded := stored.bufferTail - r.2, packet := t.2 })) <$>
        takeFrame c.order (stored.resynced c.order) r.2 hsize := by
    rw [absorb, dif_pos (by omega)]
    rfl
  rw [habsorb] at h
  rw [← hwindow, digest, hresync, stored.length_window]
  simp only [hnext]
  by_cases hpos : 0 < gnwNextPacket c.order (r.1.take r.2)
  · obtain ⟨b'', htake, hbuffer, htail'⟩ :=
      takeFrame_some (b := stored.resynced c.order) hsize hle hpos
    have hready := gnwNextPacket_le c.order (r.1.take r.2)
    rw [List.length_take] at hready
    have hfront : (gnwNextPacket c.order (r.1.take r.2)).toNat ≤ stored.bufferTail := by omega
    rw [htake] at h
    cases h
    rw [if_pos hpos, LocalBuffer.window, hbuffer, htail', ← take_buffer_packetShift _ hle,
      List.take_take, Nat.min_eq_left (Nat.sub_le ..), List.take_take, Nat.min_eq_left hfront]
    rfl
  · rw [takeFrame_none hsize hpos] at h
    cases h
    rw [if_neg hpos]
    rfl

/-! ## Two runs of a buffer -/

/-- The pieces that were read. -/
def pieces (xs : List Exchange) : List (List UInt8) := xs.map Prod.fst

/-- The same reads lead to the same exchanges and to the same bytes held, in
    buffers of any two routers of one byte order. -/
theorem LocalBuffer.Run.isolated {c c' : RouterConfig} (horder : c'.order = c.order)
    {xs xs' : List Exchange} {b : LocalBuffer c.bufferSize} {b' : LocalBuffer c'.bufferSize}
    (h : LocalBuffer.Run c (newBuffer c) xs b) (h' : LocalBuffer.Run c' (newBuffer c') xs' b')
    (hpieces : pieces xs' = pieces xs) : xs' = xs ∧ b'.window = b.window := by
  induction h generalizing xs' b' with
  | nil =>
    have hnil : xs' = [] := List.map_eq_nil_iff.1 hpieces
    subst hnil
    obtain rfl := h'.unique .nil
    exact ⟨rfl, rfl⟩
  | @snoc xs b b₁ data x _ _ hstep ih =>
    cases xs' using List.reverseRecOn with
    | nil => simp [pieces] at hpieces
    | append_singleton xs' e =>
      obtain ⟨data', x'⟩ := e
      obtain ⟨b₁', hrun', -, hstep'⟩ := h'.snoc_inv
      simp only [pieces, List.map_append, List.map_cons, List.map_nil] at hpieces
      obtain ⟨hfront, hdata⟩ := List.append_inj' hpieces rfl
      obtain rfl : data' = data := List.head_eq_of_cons_eq hdata
      obtain ⟨rfl, hwindow⟩ := ih hrun' hfront
      have hdigest := absorb_digest hstep
      have hdigest' := absorb_digest hstep'
      rw [horder, hwindow, ← hdigest] at hdigest'
      obtain ⟨hwindow', rfl⟩ := Prod.mk.inj hdigest'
      exact ⟨rfl, hwindow'⟩

/-! ## A connection that is the only one -/

/-- The router that has just accepted its first connection. -/
def Router.alone (c : RouterConfig) (listenFd fd : Int) : Router c where
  tables := (Router.init c listenFd).tables
  pollList := setEntry (Router.init c listenFd).pollList 1 ⟨fd, POLLIN, 0⟩

theorem Router.alone_accepted (c : RouterConfig) {listenFd fd : Int} (hfd : 0 ≤ fd)
    (hne : listenFd ≠ fd) : Router.Accepted c fd (Router.alone c listenFd fd) := by
  refine ⟨listenFd, [], Router.init c listenFd, .nil, ⟨hfd, fun entry => ?_⟩, ?_⟩
  · by_cases hentry : entry = 0
    · simpa [init, hentry] using hne
    · simp only [init, hentry, if_false]
      omega
  · have hfree : freeEntry (Router.init c listenFd).pollList = some 1 := rfl
    simp only [step, hfree]
    rfl

/-- The read of one piece in the slot of that connection. -/
def soloAct (rand : Nat → RandResult) (data : List UInt8) : Act := .event 1 POLLIN data rand

/-- A run in which nothing but reads on that connection happens. -/
structure Solo (c : RouterConfig) (listenFd fd : Int) (rand : Nat → RandResult)
    (xs : List Exchange) (tr : List (Act × Output)) (s : Router c) : Prop where
  run : Router.Run c (Router.alone c listenFd fd) tr s
  acts : tr.map Prod.fst = (pieces xs).map (soloAct rand)
  entry : (s.pollList 1).fd = fd
  opened : StaysOpen fd tr
  exchanges : exchanges fd tr = xs

/-- One read more. -/
theorem Solo.snoc {c : RouterConfig} {listenFd fd : Int} {rand : Nat → RandResult}
    {xs : List Exchange} {tr : List (Act × Output)} {s s' : Router c} {data : List UInt8}
    {x : Extract} {call : Option Packet} {writes : List Write}
    (hsolo : Solo c listenFd fd rand xs tr s) (hmtu : data.length ≤ c.networkMtu)
    (hstep : Router.step c s (soloAct rand data) =
      .ok (s', .handled fd data x.discarded call writes))
    (hcall : call.map Packet.buffer = x.packet) (hentry : (s'.pollList 1).fd = fd) :
    Solo c listenFd fd rand (xs ++ [(data, x)])
      (tr ++ [(soloAct rand data, .handled fd data x.discarded call writes)]) s' where
  run := .snoc hsolo.run hmtu hstep
  acts := by simp [hsolo.acts, pieces]
  entry := hentry
  opened := by
    intro e he fd' hclosed
    rcases List.mem_append.1 he with he | he
    · exact hsolo.opened e he fd' hclosed
    · obtain rfl := List.mem_singleton.1 he
      cases hclosed
  exchanges := by simp [exchanges_snoc, hsolo.exchanges, Output.exchange, hcall]

/-- Alone, the next read does the same, unless `handle_packet` stops the process
    on the frame that it hands out. -/
theorem Solo.read {c : RouterConfig} {listenFd fd : Int} {rand : Nat → RandResult}
    {xs : List Exchange} {b b' : LocalBuffer c.bufferSize} {data : List UInt8} {x : Extract}
    {tr : List (Act × Output)} {s : Router c} (hsolo : Solo c listenFd fd rand xs tr s)
    (hfd : 0 ≤ fd) (hwindow : (s.tables.buffer fd).window = b.window) (hdata : data ≠ [])
    (hmtu : data.length ≤ c.networkMtu) (habsorb : absorb c b data = .ok (b', x)) :
    (∃ tr' s', Solo c listenFd fd rand (xs ++ [(data, x)]) tr' s') ∨
      ∃ packet e, x.packet = some packet ∧
        handlePacket c.order fd packet rand s.tables.addressTable = .error e := by
  have htail : (s.tables.buffer fd).bufferTail = b.bufferTail := by
    rw [← LocalBuffer.length_window, hwindow, LocalBuffer.length_window]
  have hfits := (absorbed_of_absorb habsorb).fits
  obtain ⟨b'', x', habsorb', -⟩ := absorb_of_fits (b := s.tables.buffer fd) (htail ▸ hfits)
  -- both buffers hold the same bytes
  have hdigest := absorb_digest habsorb
  have hdigest' := absorb_digest habsorb'
  rw [hwindow, ← hdigest] at hdigest'
  obtain ⟨-, rfl⟩ := Prod.mk.inj hdigest'
  have hlive : fd ≠ -1 := by omega
  have hlength : ¬data.length < 1 := by
    have := List.length_pos_iff.2 hdata
    omega
  have hhup : ¬POLLIN &&& POLLHUP = POLLHUP := by decide
  have hrevents : ¬POLLIN = 0 := by decide
  let after (t : AddressTable) : Router c :=
    { tables := { addressTable := t, localBuffer := s.tables.localBuffer.set fd b'' }
      pollList := setEntry s.pollList 1 ⟨fd, (s.pollList 1).events, 0⟩ }
  cases hpacket : x'.packet with
  | none =>
    have hstep : Router.step c s (soloAct rand data) =
        .ok (after s.tables.addressTable, .handled fd data x'.discarded none []) := by
      simp [soloAct, Router.step, handleEvent, hlive, hrevents, hhup, hlength, hsolo.entry,
        habsorb', hpacket, after]
    exact .inl ⟨_, _, hsolo.snoc hmtu hstep hpacket.symm rfl⟩
  | some packet =>
    cases hhandle : handlePacket c.order fd packet rand s.tables.addressTable with
    | error e => exact .inr ⟨packet, e, rfl, hhandle⟩
    | ok r =>
      have hstep : Router.step c s (soloAct rand data) =
          .ok (after r.1, .handled fd data x'.discarded (some ⟨fd, packet, rand⟩) r.2) := by
        simp [soloAct, Router.step, handleEvent, hlive, hrevents, hhup, hlength, hsolo.entry,
          habsorb', hpacket, hhandle, after]
      exact .inl ⟨_, _, hsolo.snoc hmtu hstep hpacket.symm rfl⟩

/-- Alone, a connection whose reads were those of any other run goes through the
    same exchanges, all of them or up to a frame on which `handle_packet` stops the
    process. -/
theorem Solo.follow {c : RouterConfig} {listenFd fd : Int} (rand : Nat → RandResult)
    (hfd : 0 ≤ fd) (hne : listenFd ≠ fd) {xs : List Exchange} {b : LocalBuffer c.bufferSize}
    (h : LocalBuffer.Run c (newBuffer c) xs b) :
    ∃ xs₁ tr s, Solo c listenFd fd rand xs₁ tr s ∧
      (xs₁ = xs ∨ ∃ x packet e, xs₁ ++ [x] <+: xs ∧ x.2.packet = some packet ∧
        handlePacket c.order fd packet rand s.tables.addressTable = .error e) := by
  have haccepted := Router.alone_accepted c hfd hne
  induction h with
  | nil =>
    have hopen : StaysOpen fd [] := fun _ he => by cases he
    exact ⟨[], [], _, ⟨.nil, rfl, rfl, hopen, rfl⟩, .inl rfl⟩
  | @snoc xs b b' data x hxs hallowed hstep ih =>
    obtain ⟨xs₁, tr, s, hsolo, hall | ⟨x₁, packet, e, hprefix, hpacket, herror⟩⟩ := ih
    · subst hall
      have hconn := Router.Run.connection haccepted hsolo.run hsolo.opened
      rw [hsolo.exchanges] at hconn
      have hwindow := (LocalBuffer.Run.isolated rfl hxs hconn rfl).2
      rcases hsolo.read hfd hwindow hallowed.1 hallowed.2 hstep with
        ⟨tr', s', hsolo'⟩ | ⟨packet, e, hpacket, herror⟩
      · exact ⟨_, tr', s', hsolo', .inl rfl⟩
      · exact ⟨_, tr, s, hsolo, .inr ⟨(data, x), packet, e, List.prefix_rfl, hpacket, herror⟩⟩
    · exact ⟨xs₁, tr, s, hsolo,
        .inr ⟨x₁, packet, e, hprefix.trans (List.prefix_append ..), hpacket, herror⟩⟩

/-! ## Any run -/

/-- In every run of the router the live entries of the poll list have descriptors of
    their own and only they have buffers. The frames handed out for a connection
    depend on its reads only: they are those of any other run, of any router and
    connection, with the same reads; and alone, the same reads lead to the same
    frames for as long as the process keeps running. -/
theorem connections_isolated (c : RouterConfig) (listenFd : Int) :
    (∀ tr s, Router.Run c (Router.init c listenFd) tr s → s.Sound) ∧
    ∀ fd s₀ tr s, Router.Accepted c fd s₀ → Router.Run c s₀ tr s → StaysOpen fd tr →
      (∀ c' fd' s₀' tr' s', c'.order = c.order → Router.Accepted c' fd' s₀' →
        Router.Run c' s₀' tr' s' → StaysOpen fd' tr' →
        pieces (exchanges fd' tr') = pieces (exchanges fd tr) →
        passed (exchanges fd' tr') = passed (exchanges fd tr)) ∧
      (listenFd ≠ fd → ∀ rand, ∃ xs₁ tr₁ s₁, Solo c listenFd fd rand xs₁ tr₁ s₁ ∧
        (xs₁ = exchanges fd tr ∨ ∃ x packet e, xs₁ ++ [x] <+: exchanges fd tr ∧
          x.2.packet = some packet ∧
          handlePacket c.order fd packet rand s₁.tables.addressTable = .error e)) := by
  refine ⟨fun tr s hrun => (Router.sound_init c listenFd).run hrun, ?_⟩
  intro fd s₀ tr s haccepted hrun hopen
  have hconn := Router.Run.connection haccepted hrun hopen
  constructor
  · intro c' fd' s₀' tr' s' horder haccepted' hrun' hopen' hpieces
    have hconn' := Router.Run.connection haccepted' hrun' hopen'
    rw [(LocalBuffer.Run.isolated horder hconn hconn' hpieces).1]
  · intro hne rand
    have hfd : 0 ≤ fd := by
      obtain ⟨_, _, _, -, hallowed, -⟩ := haccepted
      exact hallowed.1
    exact Solo.follow rand hfd hne hconn

/-- A client claims its address and sends two halves of a frame, without and with
    another client's half frame between them. -/
theorem connections_isolated_between :
    ∃ tr s tr' s', Router.Run smallRouter smallRouterAccepted tr s ∧
      Router.Run smallRouter smallRouterAccepted tr' s' ∧ tr.length = 3 ∧ tr'.length = 5 ∧
      passed (exchanges 4 tr') = passed (exchanges 4 tr) := by
  let frame := frameBytes .little GNW_DATA 9 [0x41]
  let cut := [smallClaim, frame.take 7, frame.drop 7]
  let claim : Act := .event 1 POLLIN smallClaim fun _ => 0
  let first : Act := .event 1 POLLIN (frame.take 7) fun _ => 0
  let second : Act := .event 1 POLLIN (frame.drop 7) fun _ => 0
  have hsim : (Machine.simulate (Router.Allowed smallRouter) (Router.step smallRouter)
      smallRouterAccepted [claim, first, second]).any (fun r => dropsNone r.2 &&
        r.2.length = 3 && pieces (exchanges 4 r.2) = cut) = true := by
    decide +kernel
  have hsim' : (Machine.simulate (Router.Allowed smallRouter) (Router.step smallRouter)
      smallRouterAccepted [claim, first, .accept (some 5),
        .event 2 POLLIN (frame.take 6) fun _ => 0, second]).any (fun r => dropsNone r.2 &&
        r.2.length = 5 && pieces (exchanges 4 r.2) = cut) = true := by
    decide +kernel
  obtain ⟨tr, s, hrun, hlast⟩ := Machine.Run.exists_of_simulate hsim
  obtain ⟨tr', s', hrun', hlast'⟩ := Machine.Run.exists_of_simulate hsim'
  simp only [Bool.and_eq_true, decide_eq_true_eq] at hlast hlast'
  obtain ⟨⟨hopen, hlength⟩, hpieces⟩ := hlast
  obtain ⟨⟨hopen', hlength'⟩, hpieces'⟩ := hlast'
  have hisolated := ((connections_isolated smallRouter 3).2 4 smallRouterAccepted tr s
    smallRouterAccepted_accepted hrun (.of_dropsNone hopen 4)).1
  exact ⟨tr, s, tr', s', hrun, hrun', hlength, hlength',
    hisolated smallRouter 4 smallRouterAccepted tr' s' rfl smallRouterAccepted_accepted hrun'
      (.of_dropsNone hopen' 4) (hpieces'.trans hpieces.symm)⟩
