-- SUMMARY: When the reassembly buffer of the router holds what it should and hands out every frame.
import GraphIPC.Router.Connection

/-!
# The reassembly buffer

The tail pointer of a buffer moves forward by what is read and back by the frame
that is handed out, and by nothing else: bytes that the resynchronisation loop
discards stay accounted for at the tail. And a read hands out one frame at most,
however many it completed. Two laws one expects of the buffer hold exactly as long
as these two things do not show.
-/

/-- The tail pointer, in terms of what was read and what was handed out. -/
theorem LocalBuffer.Run.tail {c : RouterConfig} {xs : List Exchange}
    {b : LocalBuffer c.bufferSize} (h : LocalBuffer.Run c (newBuffer c) xs b) :
    b.bufferTail + (passed xs).flatten.length = (received xs).length := by
  induction h with
  | nil => rfl
  | @snoc xs b b' data x _ _ hstep ih =>
    have htail := (absorbed_of_absorb hstep).tail
    have htaken : (x.packet.toList).flatten.length = x.taken := by
      cases hx : x.packet <;> simp [Extract.taken, hx]
    simp only [received_snoc, passed_snoc, List.flatten_append, List.length_append, htaken]
    omega

/-! ## No byte is lost or used twice -/

/-- The bytes held are the end of those received, and all before them were passed
    on or discarded. -/
structure Accounted (xs : List Exchange) (window : List UInt8) : Prop where
  suffix : window <:+ received xs
  length : (received xs).length = (passed xs).flatten.length + discarded xs + window.length

/-- The buffer of a connection is accounted for after every event just if no event
    discards bytes: whenever there are enough bytes for a header, a frame starts
    where the last one ended. -/
theorem accounted_iff {c : RouterConfig} {fd : Int} {s₀ s : Router c} {tr : List (Act × Output)}
    (haccepted : Router.Accepted c fd s₀) (hrun : Router.Run c s₀ tr s)
    (hopen : StaysOpen fd tr) :
    (∀ tr₁ tr₂ s₁, tr = tr₁ ++ tr₂ → Router.Run c s₀ tr₁ s₁ →
      Accounted (exchanges fd tr₁) (s₁.tables.buffer fd).window) ↔
    ∀ tr₁ e tr₂ s₁, tr = tr₁ ++ e :: tr₂ → Router.Run c s₀ tr₁ s₁ →
      ∀ x, e.2.exchange fd = some x →
        ((s₁.tables.buffer fd).window ++ x.1).length < 11 ∨
          StartsFrame ((s₁.tables.buffer fd).window ++ x.1) := by
  refine Router.Run.connection_always_iff
    (P := fun xs b => Accounted xs b.window)
    (Q := fun _ b x => (b.window ++ x.1).length < 11 ∨ StartsFrame (b.window ++ x.1))
    haccepted hrun hopen ⟨List.nil_suffix, rfl⟩ ?_
  intro xs x xs' b b' _ hb hP habsorb
  have hspec := absorbed_of_absorb habsorb
  have htail := hspec.tail
  have hbefore := hP.length
  have htaken : (x.2.packet.toList).flatten.length = x.2.taken := by
    cases hx : x.2.packet <;> simp [Extract.taken, hx]
  have hneg : gnwNextPacket c.order (b.window ++ x.1) < 0 ↔
      11 ≤ (b.window ++ x.1).length ∧ ¬StartsFrame (b.window ++ x.1) := gnwNextPacket_neg_iff
  constructor
  · -- a discarded byte would be counted twice
    intro hP'
    by_contra hbad
    rw [not_or, not_lt] at hbad
    have hpos := hspec.discards (hneg.2 hbad)
    have hafter := hP'.length
    simp only [received_snoc, passed_snoc, discarded_snoc, List.flatten_append,
      List.length_append, htaken, LocalBuffer.length_window] at hafter hbefore
    omega
  · intro hgood
    have hnonneg : 0 ≤ gnwNextPacket c.order (b.window ++ x.1) := by
      by_contra hlt
      obtain ⟨hlen, hstart⟩ := hneg.1 (by omega)
      rcases hgood with hgood | hgood
      · omega
      · exact hstart hgood
    obtain ⟨hzero, hwindow, -⟩ := hspec.clean hnonneg
    constructor
    · obtain ⟨front, hfront⟩ := hP.suffix
      rw [hwindow, received_snoc]
      exact (List.drop_suffix ..).trans ⟨front, by rw [← List.append_assoc, hfront]⟩
    · simp only [received_snoc, passed_snoc, discarded_snoc, List.flatten_append,
        List.length_append, htaken, LocalBuffer.length_window] at hbefore ⊢
      omega

/-- A claim; one byte of garbage and a frame of 13 bytes, without its last byte; then
    its last byte. -/
def garbageActs : List Act :=
  let frame := frameBytes .little GNW_DATA 9 [0x41, 0x42]
  [.event 1 POLLIN smallClaim fun _ => 0,
    .event 1 POLLIN (0x00 :: frame.take 12) fun _ => 0,
    .event 1 POLLIN (frame.drop 12) fun _ => 0]

/-- After garbage a stale byte is parsed: the last byte of the frame that is
    handed out is not the one that was sent. -/
theorem garbageActs_run :
    ∃ tr s, Router.Run smallRouter smallRouterAccepted tr s ∧ StaysOpen 4 tr ∧
      received (exchanges 4 tr) =
        smallClaim ++ 0x00 :: frameBytes .little GNW_DATA 9 [0x41, 0x42] ∧
      passed (exchanges 4 tr) = [smallClaim, frameBytes .little GNW_DATA 9 [0x41, 0x41]] ∧
      discarded (exchanges 4 tr) = 1 ∧ (s.tables.buffer 4).window.length = 1 := by
  have hsim : (Machine.simulate (Router.Allowed smallRouter) (Router.step smallRouter)
      smallRouterAccepted garbageActs).any (fun r => dropsNone r.2 &&
        received (exchanges 4 r.2) =
          smallClaim ++ 0x00 :: frameBytes .little GNW_DATA 9 [0x41, 0x42] &&
        passed (exchanges 4 r.2) =
          [smallClaim, frameBytes .little GNW_DATA 9 [0x41, 0x41]] &&
        discarded (exchanges 4 r.2) = 1 && (r.1.tables.buffer 4).window.length = 1) = true := by
    decide +kernel
  obtain ⟨tr, s, hrun, hlast⟩ := Machine.Run.exists_of_simulate hsim
  simp only [Bool.and_eq_true, decide_eq_true_eq] at hlast
  obtain ⟨⟨⟨⟨hopen, hreceived⟩, hpassed⟩, hdiscarded⟩, hwindow⟩ := hlast
  exact ⟨tr, s, hrun, .of_dropsNone hopen 4, hreceived, hpassed, hdiscarded, hwindow⟩

theorem accounted_fails :
    ∃ tr s, Router.Run smallRouter smallRouterAccepted tr s ∧ StaysOpen 4 tr ∧
      received (exchanges 4 tr) =
        smallClaim ++ 0x00 :: frameBytes .little GNW_DATA 9 [0x41, 0x42] ∧
      passed (exchanges 4 tr) = [smallClaim, frameBytes .little GNW_DATA 9 [0x41, 0x41]] ∧
      ¬∀ tr₁ tr₂ s₁, tr = tr₁ ++ tr₂ → Router.Run smallRouter smallRouterAccepted tr₁ s₁ →
        Accounted (exchanges 4 tr₁) (s₁.tables.buffer 4).window := by
  obtain ⟨tr, s, hrun, hopen, hreceived, hpassed, hdiscarded, hwindow⟩ := garbageActs_run
  refine ⟨tr, s, hrun, hopen, hreceived, hpassed, fun hall => ?_⟩
  have hlength := (hall tr [] s (by simp) hrun).length
  rw [hreceived, hpassed, hdiscarded, hwindow] at hlength
  simp at hlength

/-- In the run with garbage some read finds no frame where the last one ended. -/
theorem accounted_iff_garbage :
    ∃ tr s, Router.Run smallRouter smallRouterAccepted tr s ∧
      ¬∀ tr₁ e tr₂ s₁, tr = tr₁ ++ e :: tr₂ →
        Router.Run smallRouter smallRouterAccepted tr₁ s₁ → ∀ x, e.2.exchange 4 = some x →
          ((s₁.tables.buffer 4).window ++ x.1).length < 11 ∨
            StartsFrame ((s₁.tables.buffer 4).window ++ x.1) := by
  obtain ⟨tr, s, hrun, hopen, hreceived, hpassed, hdiscarded, hwindow⟩ := garbageActs_run
  refine ⟨tr, s, hrun, fun hall => ?_⟩
  have haccounted := (accounted_iff smallRouterAccepted_accepted hrun hopen).2 hall
  have hlength := (haccounted tr [] s (by simp) hrun).length
  rw [hreceived, hpassed, hdiscarded, hwindow] at hlength
  simp at hlength

/-! ## Every complete frame is handed out -/

/-- The frames whose last byte is among the first `n` bytes of a stream of
    frames. -/
def completeFrames (frames : List (List UInt8)) (n : Nat) : List (List UInt8) :=
  Segments.complete (frames.map fun f => ([], f)) n

@[simp] theorem completeFrames_nil (n : Nat) : completeFrames [] n = [] := rfl

theorem completeFrames_cons (f : List UInt8) (frames : List (List UInt8)) (n : Nat) :
    completeFrames (f :: frames) n =
      if f.length ≤ n then f :: completeFrames frames (n - f.length) else [] := by
  simp [completeFrames, Segments.complete]

/-- Behind frames that are there, the rest of the stream decides. -/
theorem completeFrames_append (frames frames' : List (List UInt8)) (n : Nat) :
    completeFrames (frames ++ frames') (frames.flatten.length + n) =
      frames ++ completeFrames frames' n := by
  induction frames with
  | nil => simp
  | cons f frames ih =>
    have hle : f.length ≤ f.length + frames.flatten.length + n := by omega
    have hrest : f.length + frames.flatten.length + n - f.length = frames.flatten.length + n := by
      omega
    rw [List.cons_append, completeFrames_cons, List.flatten_cons, List.length_append, if_pos hle,
      hrest, ih, List.cons_append]

/-- Before the first byte no frame is complete. -/
theorem completeFrames_zero {order : ByteOrder} {frames : List (List UInt8)}
    (hframes : ∀ f ∈ frames, (frameReader order).IsFrame f) : completeFrames frames 0 = [] := by
  cases frames with
  | nil => rfl
  | cons f fs =>
    have hpos := (hframes f (by simp)).length_pos
    rw [completeFrames_cons, if_neg (by omega)]

/-- Every frame that was received whole was handed out, in order, and the bytes
    that are left hold no whole frame. -/
structure UpToDate (order : ByteOrder) (frames : List (List UInt8)) (xs : List Exchange)
    (window : List UInt8) : Prop where
  passed_eq : passed xs = completeFrames frames (received xs).length
  rest : gnwNextPacket order window = 0

/-- On a stream of frames, what was handed out and what is held are the first of
    the frames and the beginning of the others. -/
structure Split (frames : List (List UInt8)) (xs : List Exchange) (window : List UInt8)
    (frames' : List (List UInt8)) : Prop where
  frames_eq : frames = passed xs ++ frames'
  received_eq : received xs = (passed xs).flatten ++ window
  window_prefix : window <+: frames'.flatten

/-- The frames that `gnw_nextPacket` finds. -/
theorem gnwNextPacket_of_isFrame {order : ByteOrder} {f : List UInt8}
    (hf : (frameReader order).IsFrame f) (ys : List UInt8) :
    gnwNextPacket order (f ++ ys) = f.length := by
  have hnext := hf.next_append ys
  have hpos := hf.length_pos
  simp only [frameReader] at hnext
  split at hnext
  · cases hnext
  · split at hnext
    · cases hnext
    · have hlen := Verdict.take.inj hnext
      omega

/-- A piece of a frame is not taken for one. -/
theorem gnwNextPacket_of_prefix {order : ByteOrder} {f p : List UInt8}
    (hf : (frameReader order).IsFrame f) (hp : p <+: f) (hlen : p.length < f.length) :
    gnwNextPacket order p = 0 := by
  have hnext := hf.next_prefix p hp hlen
  simp only [frameReader] at hnext
  split at hnext
  · cases hnext
  · split at hnext
    · assumption
    · cases hnext

/-- A read on a stream of frames hands out the next frame if it is there, and
    keeps what is there otherwise. -/
theorem Absorbed.frames {c : RouterConfig} {frames : List (List UInt8)}
    {b b' : LocalBuffer c.bufferSize} {data : List UInt8} {x : Extract}
    (hspec : Absorbed c b data b' x) (hframes : ∀ f ∈ frames, (frameReader c.order).IsFrame f)
    (hpending : b.window ++ data <+: frames.flatten) :
    (∃ f fs, frames = f :: fs ∧ x.packet = some f ∧ b.window ++ data = f ++ b'.window) ∨
    (x.packet = none ∧ b'.window = b.window ++ data ∧
      completeFrames frames (b.window ++ data).length = []) := by
  cases frames with
  | nil =>
    -- the stream is at its end
    have hnil : b.window ++ data = [] := List.prefix_nil.1 hpending
    have hzero : gnwNextPacket c.order (b.window ++ data) = 0 := by
      rw [hnil]
      rfl
    obtain ⟨-, hwindow, hpacket⟩ := hspec.clean hzero.ge
    rw [hzero] at hwindow hpacket
    exact .inr ⟨hpacket, hwindow, rfl⟩
  | cons f fs =>
    have hf := hframes f (by simp)
    rw [List.flatten_cons] at hpending
    rcases prefix_append_cases hpending with ⟨p, hp, -⟩ | ⟨hp, hlt⟩
    · -- the next frame is complete
      have hnext : gnwNextPacket c.order (b.window ++ data) = f.length := by
        rw [hp]
        exact gnwNextPacket_of_isFrame hf p
      have hpos := hf.length_pos
      obtain ⟨-, hwindow, hpacket⟩ := hspec.clean (by omega)
      rw [hnext, Int.toNat_natCast, hp] at hwindow hpacket
      rw [List.drop_left] at hwindow
      rw [if_pos (by omega), List.take_left] at hpacket
      exact .inl ⟨f, fs, rfl, hpacket, by rw [hp, hwindow]⟩
    · -- its end is missing
      have hzero := gnwNextPacket_of_prefix hf hp hlt
      obtain ⟨-, hwindow, hpacket⟩ := hspec.clean hzero.ge
      rw [hzero] at hwindow hpacket
      exact .inr ⟨hpacket, hwindow, by rw [completeFrames_cons, if_neg (by omega)]⟩

/-- So the stream stays split after a read. -/
theorem Split.absorb {c : RouterConfig} {frames frames' : List (List UInt8)}
    {xs : List Exchange} {b b' : LocalBuffer c.bufferSize} {x : Exchange}
    (h : Split frames xs b.window frames') (hframes : ∀ f ∈ frames', (frameReader c.order).IsFrame f)
    (hpending : b.window ++ x.1 <+: frames'.flatten) (hspec : Absorbed c b x.1 b' x.2) :
    (∃ f fs, frames' = f :: fs ∧ x.2.packet = some f ∧ b.window ++ x.1 = f ++ b'.window ∧
      Split frames (xs ++ [x]) b'.window fs) ∨
    (x.2.packet = none ∧ b'.window = b.window ++ x.1 ∧
      completeFrames frames' (b.window ++ x.1).length = [] ∧
      Split frames (xs ++ [x]) b'.window frames') := by
  rcases hspec.frames hframes hpending with
    ⟨f, fs, rfl, hpacket, hwindow⟩ | ⟨hpacket, hwindow, hnone⟩
  · refine .inl ⟨f, fs, rfl, hpacket, hwindow, ?_, ?_, ?_⟩
    · simp [hpacket, h.frames_eq]
    · simp [hpacket, h.received_eq, hwindow]
    · rw [hwindow, List.flatten_cons] at hpending
      exact (List.prefix_append_right_inj f).1 hpending
  · refine .inr ⟨hpacket, hwindow, hnone, ?_, ?_, ?_⟩
    · simpa [hpacket] using h.frames_eq
    · simp [hpacket, h.received_eq, hwindow]
    · rw [hwindow]
      exact hpending

/-- What is pending continues the stream. -/
theorem Split.pending {frames frames' : List (List UInt8)} {xs : List Exchange}
    {window data : List UInt8} (h : Split frames xs window frames')
    (hstream : received xs ++ data <+: frames.flatten) : window ++ data <+: frames'.flatten := by
  rw [h.received_eq, h.frames_eq, List.flatten_append, List.append_assoc] at hstream
  exact (List.prefix_append_right_inj _).1 hstream

/-- On a stream of frames the buffer always splits it. -/
theorem LocalBuffer.Run.split {c : RouterConfig} {frames : List (List UInt8)}
    (hframes : ∀ f ∈ frames, (frameReader c.order).IsFrame f) {xs : List Exchange}
    {b : LocalBuffer c.bufferSize} (h : LocalBuffer.Run c (newBuffer c) xs b)
    (hstream : received xs <+: frames.flatten) : ∃ frames', Split frames xs b.window frames' := by
  induction h with
  | nil => exact ⟨frames, rfl, rfl, List.nil_prefix⟩
  | @snoc xs b b' data x _ _ hstep ih =>
    rw [received_snoc] at hstream
    obtain ⟨frames', hsplit⟩ := ih ((List.prefix_append ..).trans hstream)
    have hframes' : ∀ f ∈ frames', (frameReader c.order).IsFrame f := fun f hf =>
      hframes f (by rw [hsplit.frames_eq]; exact List.mem_append_right _ hf)
    have hspec := absorbed_of_absorb hstep
    rcases hsplit.absorb (x := (data, x)) hframes' (hsplit.pending hstream) hspec with
      ⟨f, fs, -, -, -, hsplit'⟩ | ⟨-, -, -, hsplit'⟩
    · exact ⟨fs, hsplit'⟩
    · exact ⟨frames', hsplit'⟩

/-- The frames that are complete were handed out, or are in the window. -/
theorem Split.complete_eq {frames frames' : List (List UInt8)} {xs : List Exchange}
    {window : List UInt8} (h : Split frames xs window frames') :
    completeFrames frames (received xs).length =
      passed xs ++ completeFrames frames' window.length := by
  rw [h.received_eq, List.length_append]
  conv_lhs => rw [h.frames_eq]
  exact completeFrames_append ..

/-- The buffer is up to date just if it holds no whole frame. -/
theorem Split.settled_iff {order : ByteOrder} {frames frames' : List (List UInt8)}
    {xs : List Exchange} {window : List UInt8} (h : Split frames xs window frames')
    (hframes : ∀ f ∈ frames', (frameReader order).IsFrame f) :
    UpToDate order frames xs window ↔ completeFrames frames' window.length = [] := by
  have hcomplete := h.complete_eq
  constructor
  · intro hup
    have hpassed := hup.passed_eq
    rw [hcomplete] at hpassed
    exact List.self_eq_append_right.1 hpassed
  · intro hnone
    refine ⟨by rw [hcomplete, hnone, List.append_nil], ?_⟩
    cases frames' with
    | nil =>
      rw [List.prefix_nil.1 h.window_prefix]
      rfl
    | cons f fs =>
      rw [completeFrames_cons] at hnone
      split at hnone
      · cases hnone
      · have hlt : window.length < f.length := by omega
        have hpre : window <+: f :=
          List.prefix_of_prefix_length_le h.window_prefix (List.prefix_append f fs.flatten) hlt.le
        exact gnwNextPacket_of_prefix (hframes f (by simp)) hpre hlt

/-- On a stream of frames that the emit functions built, every complete frame is
    handed out in the event that completes it just if no read completes more than
    one. -/
theorem upToDate_iff {c : RouterConfig} {fd : Int} {s₀ s : Router c} {tr : List (Act × Output)}
    {frames : List (List UInt8)} (haccepted : Router.Accepted c fd s₀)
    (hrun : Router.Run c s₀ tr s) (hopen : StaysOpen fd tr)
    (hframes : ∀ f ∈ frames, IsEmitted c.order f ∧ f.length ≤ c.networkMtu)
    (hstream : received (exchanges fd tr) <+: frames.flatten) :
    (∀ tr₁ tr₂ s₁, tr = tr₁ ++ tr₂ → Router.Run c s₀ tr₁ s₁ →
      UpToDate c.order frames (exchanges fd tr₁) (s₁.tables.buffer fd).window) ↔
    ∀ tr₁ e tr₂ s₁, tr = tr₁ ++ e :: tr₂ → Router.Run c s₀ tr₁ s₁ →
      ∀ x, e.2.exchange fd = some x →
        (completeFrames frames ((received (exchanges fd tr₁)).length + x.1.length)).length ≤
          (completeFrames frames (received (exchanges fd tr₁)).length).length + 1 := by
  have hframes' : ∀ f ∈ frames, (frameReader c.order).IsFrame f := by
    intro f hf
    obtain ⟨hemitted, hle⟩ := hframes f hf
    have := c.networkMtu_lt
    exact hemitted.isFrame (by omega)
  refine Router.Run.connection_always_iff
    (P := fun xs b => UpToDate c.order frames xs b.window)
    (Q := fun xs _ x => (completeFrames frames ((received xs).length + x.1.length)).length ≤
      (completeFrames frames (received xs).length).length + 1)
    haccepted hrun hopen ⟨(completeFrames_zero hframes').symm, rfl⟩ ?_
  · intro xs x xs' b b' hcut hb hP habsorb
    have hpre : received xs ++ x.1 <+: frames.flatten := by
      refine List.IsPrefix.trans ?_ hstream
      rw [hcut]
      simp [received]
    obtain ⟨rest, hsplit⟩ := hb.split hframes' ((List.prefix_append ..).trans hpre)
    have hrest : ∀ f ∈ rest, (frameReader c.order).IsFrame f := fun f hf =>
      hframes' f (by rw [hsplit.frames_eq]; exact List.mem_append_right _ hf)
    have hbefore := hP.passed_eq
    have hcount : completeFrames frames ((received xs).length + x.1.length) =
        passed xs ++ completeFrames rest (b.window ++ x.1).length := by
      have hlen : (received xs).length + x.1.length =
          (passed xs).flatten.length + (b.window ++ x.1).length := by
        rw [hsplit.received_eq, List.length_append, List.length_append]
        omega
      rw [hlen]
      conv_lhs => rw [hsplit.frames_eq]
      exact completeFrames_append ..
    rw [hcount, ← hbefore, List.length_append]
    rcases hsplit.absorb hrest (hsplit.pending hpre) (absorbed_of_absorb habsorb) with
      ⟨f, fs, rfl, -, hwindow, hsplit'⟩ | ⟨-, hwindow, hnone, hsplit'⟩
    · -- one frame is handed out; are there more?
      rw [hsplit'.settled_iff fun g hg => hrest g (List.mem_cons_of_mem f hg), hwindow,
        List.length_append, completeFrames_cons, if_pos (Nat.le_add_right ..),
        Nat.add_sub_cancel_left, List.length_cons]
      constructor
      · intro hnil
        rw [hnil]
        simp
      · intro hle
        exact List.length_eq_zero_iff.1 (by omega)
    · rw [hsplit'.settled_iff hrest, hwindow, hnone]
      simp

/-- A claim, and a frame of twelve bytes, twice. -/
def burstFrames : List (List UInt8) :=
  let frame := frameBytes .little GNW_DATA 9 [0x41]
  [smallClaim, frame, frame]

theorem burstFrames_emitted :
    ∀ f ∈ burstFrames, IsEmitted smallRouter.order f ∧ f.length ≤ smallRouter.networkMtu := by
  have hclaim := gnwEmitCommandPacket_eq smallRouter.order GNW_COMMAND
    (GNW_CMD_NEW_ADDRESS :: u32Bytes .little 9)
  have hdata := gnwEmitDataPacket_eq smallRouter.order 9 [0x41]
  intro f hf
  simp only [burstFrames, List.mem_cons, List.not_mem_nil, or_false, or_self] at hf
  rcases hf with rfl | rfl
  · exact ⟨.inr ⟨GNW_COMMAND, _, hclaim⟩, by decide⟩
  · exact ⟨.inl ⟨9, [0x41], hdata⟩, by decide⟩

/-- The claim arrives alone, and both data frames in one read: one of them is handed
    out. -/
theorem burstFrames_run :
    ∃ tr s, Router.Run smallRouter smallRouterAccepted tr s ∧ StaysOpen 4 tr ∧
      received (exchanges 4 tr) = burstFrames.flatten ∧
      passed (exchanges 4 tr) = burstFrames.take 2 := by
  have hsim : (Machine.simulate (Router.Allowed smallRouter) (Router.step smallRouter)
      smallRouterAccepted [.event 1 POLLIN smallClaim fun _ => 0,
        .event 1 POLLIN (burstFrames.drop 1).flatten fun _ => 0]).any (fun r =>
        dropsNone r.2 && received (exchanges 4 r.2) = burstFrames.flatten &&
        passed (exchanges 4 r.2) = burstFrames.take 2) = true := by
    decide +kernel
  obtain ⟨tr, s, hrun, hlast⟩ := Machine.Run.exists_of_simulate hsim
  simp only [Bool.and_eq_true, decide_eq_true_eq] at hlast
  obtain ⟨⟨hopen, hreceived⟩, hpassed⟩ := hlast
  exact ⟨tr, s, hrun, .of_dropsNone hopen 4, hreceived, hpassed⟩

theorem upToDate_fails :
    ∃ tr s, Router.Run smallRouter smallRouterAccepted tr s ∧ StaysOpen 4 tr ∧
      (∀ f ∈ burstFrames, IsEmitted .little f ∧ f.length ≤ 32) ∧
      received (exchanges 4 tr) <+: burstFrames.flatten ∧
      ¬∀ tr₁ tr₂ s₁, tr = tr₁ ++ tr₂ → Router.Run smallRouter smallRouterAccepted tr₁ s₁ →
        UpToDate .little burstFrames (exchanges 4 tr₁) (s₁.tables.buffer 4).window := by
  obtain ⟨tr, s, hrun, hopen, hreceived, hpassed⟩ := burstFrames_run
  refine ⟨tr, s, hrun, hopen, burstFrames_emitted, by rw [hreceived], fun hall => ?_⟩
  have hup := (hall tr [] s (by simp) hrun).passed_eq
  rw [hreceived, hpassed] at hup
  exact absurd hup (by decide)

/-- In the run with the burst some read completes more than one frame. -/
theorem upToDate_iff_burst :
    ∃ tr s, Router.Run smallRouter smallRouterAccepted tr s ∧
      ¬∀ tr₁ e tr₂ s₁, tr = tr₁ ++ e :: tr₂ →
        Router.Run smallRouter smallRouterAccepted tr₁ s₁ → ∀ x, e.2.exchange 4 = some x →
          (completeFrames burstFrames
            ((received (exchanges 4 tr₁)).length + x.1.length)).length ≤
          (completeFrames burstFrames (received (exchanges 4 tr₁)).length).length + 1 := by
  obtain ⟨tr, s, hrun, hopen, hreceived, hpassed⟩ := burstFrames_run
  refine ⟨tr, s, hrun, fun hall => ?_⟩
  have hstream : received (exchanges 4 tr) <+: burstFrames.flatten := by rw [hreceived]
  have hup := (upToDate_iff smallRouterAccepted_accepted hrun hopen burstFrames_emitted hstream).2
    hall
  have hpassed' := (hup tr [] s (by simp) hrun).passed_eq
  rw [hreceived, hpassed] at hpassed'
  exact absurd hpassed' (by decide)
