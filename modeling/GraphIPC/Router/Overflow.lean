-- SUMMARY: When the reassembly buffer of the router overflows, in terms of the frames that a client sends and of the reads they arrive in.
import GraphIPC.Router.Control
import GraphIPC.Router.Isolation
import GraphIPC.Router.Reassembly

/-!
# The overflow assertion

A frame may be longer than the buffer of a connection, and a read hands out one frame
at most: a client whose frames are completed faster than its connection is read leaves
some of them behind. On a stream of frames nothing else fills the buffer, so what it
holds is known from the frames and from the pieces in which they are read.
-/

/-! ## The assertion -/

/-- No assertion of the reader of requests has the message of the overflow. -/
theorem Request.parse_ne_overflow (order : ByteOrder) (buffer : List UInt8) (rand : Nat → RandResult) :
    Request.parse order buffer rand ≠ .error (.assertion "BUFFER OVERFLOW") := by
  unfold Request.parse gnwParseHeader
  refine Except.bind_ne_error (assertThat_ne (by decide)) fun _ => ?_
  refine Except.bind_ne_error ?_ fun (header, payload) => ?_
  · refine Except.bind_ne_error (readOr_ne_assertion _ _) fun r => ?_
    refine Except.bind_ne_error (assertThat_ne (by decide)) fun _ => ?_
    exact Except.bind_ne_error (assertThat_ne (by decide)) fun _ => by simp
  · dsimp only
    split
    · split
      · simp
      refine Except.bind_ne_error (readOr_ne_assertion _ _) fun r => ?_
      split
      · split
        · exact Except.bind_ne_error (readOr_ne_assertion _ _) fun _ => by simp
        · simp
      split
      · refine Except.bind_ne_error (readOr_ne_assertion _ _) fun _ => ?_
        exact Except.bind_ne_error (readOr_ne_assertion _ _) fun _ => by simp
      split
      · simp
      split
      · refine Except.bind_ne_error (readOr_ne_assertion _ _) fun _ => ?_
        exact Except.bind_ne_error (readOr_ne_assertion _ _) fun _ => by simp
      · simp
    · split <;> simp

theorem Context.targets_ne_assertion (rand : Nat → RandResult) (entry : Context) (message : String) :
    entry.targets rand ≠ .error (.assertion message) := by
  have hremainder : ∀ x n, remainder x n ≠ .error (.assertion message) := by
    intro x n
    unfold remainder
    split <;> simp
  have hkv : ∀ v index, kvA v index ≠ .error (.assertion message) := by
    intro v index
    unfold kvA
    split
    · simp
    · exact readOr_ne_assertion _ _
  unfold Context.targets
  split
  · simp
  split
  · refine Except.bind_ne_error (hremainder _ _) fun _ => ?_
    exact Except.bind_ne_error (hkv _ _) fun _ => by simp
  split
  · refine Except.bind_ne_error (hremainder _ _) fun _ => ?_
    exact Except.bind_ne_error (hkv _ _) fun _ => by simp
  · simp

/-- `handle_packet` has no assertion with the message of the overflow. -/
theorem handlePacket_ne_overflow (order : ByteOrder) (fd : Int) (buffer : List UInt8)
    (rand : Nat → RandResult) (t : AddressTable) :
    handlePacket order fd buffer rand t ≠ .error (.assertion "BUFFER OVERFLOW") := by
  rw [handlePacket_eq]
  refine Except.bind_ne_error (Request.parse_ne_overflow _ _ _) fun r => ?_
  cases r with
  | newAddress address =>
    rw [Request.perform, AddressTable.cmdNewAddress_eq]
    simp
  | connect source target =>
    rw [Request.perform, AddressTable.cmdConnect_eq]
    simp
  | setPolicy policy target =>
    rw [Request.perform]
    cases htarget : t target with
    | none => simp [AddressTable.cmdPolicy_of_none htarget]
    | some entry =>
      by_cases hpolicy : policy.toNat < 4
      · simp [AddressTable.cmdPolicy_of_some htarget hpolicy]
      · simp [AddressTable.cmdPolicy_of_unnamed htarget (Nat.le_of_not_lt hpolicy)]
  | data source =>
    rw [Request.perform]
    cases hsource : t source with
    | none => simp [AddressTable.forwardData_of_none hsource]
    | some entry =>
      rw [AddressTable.forwardData_of_some hsource]
      exact Except.bind_ne_error (Context.targets_ne_assertion _ _ _) fun _ => by simp
  | unhandled => simp [Request.perform]

/-- A read makes the router exit for the overflow just if it would leave no byte
    of the buffer free: the rest of the event has no such assertion. -/
theorem handleEvent_overflow_iff {c : RouterConfig} {s : Tables c} {pollStruct : PollFd}
    {data : List UInt8} (rand : Nat → RandResult) (hin : pollStruct.revents &&& POLLIN = POLLIN)
    (hlength : ¬data.length < 1) :
    handleEvent c s pollStruct data rand = .error (.assertion "BUFFER OVERFLOW") ↔
      c.bufferSize ≤ (s.buffer pollStruct.fd).bufferTail + data.length := by
  have hread : ¬(pollStruct.revents &&& POLLIN ≠ POLLIN ∨ data.length < 1) := by
    simp [hin, hlength]
  rw [handleEvent, if_neg hread]
  by_cases hfits : (s.buffer pollStruct.fd).bufferTail + data.length < c.bufferSize
  · obtain ⟨b', x, habsorb, -⟩ := absorb_of_fits hfits
    rw [habsorb, Except.ok_bind]
    refine ⟨fun h => ?_, fun h => absurd hfits (Nat.not_lt_of_le h)⟩
    simp only at h
    split at h
    · cases h
    · exact absurd h (Except.bind_ne_error (handlePacket_ne_overflow _ _ _ _ _) fun _ => by simp)
  · rw [absorb_of_not_fits (Nat.le_of_not_lt hfits)]
    exact ⟨fun _ => Nat.le_of_not_lt hfits, fun _ => rfl⟩

/-- A read on a connection does so just if the bytes received, less those of the
    frames handed out, would then fill the buffer: bytes that were discarded still
    count. -/
theorem Router.step_overflow_iff {c : RouterConfig} {fd : Int} {s₀ s : Router c}
    {tr : List (Act × Output)} {slot : Fin MAX_MONITOR_FDS} {revents : UInt16}
    {data : List UInt8} (rand : Nat → RandResult) (haccepted : Router.Accepted c fd s₀)
    (hrun : Router.Run c s₀ tr s) (hopen : StaysOpen fd tr) (hslot : slot ≠ 0)
    (hfd : (s.pollList slot).fd = fd) (hin : revents &&& POLLIN = POLLIN)
    (hhup : revents &&& POLLHUP ≠ POLLHUP) (hdata : data ≠ []) :
    Router.step c s (.event slot revents data rand) = .error (.assertion "BUFFER OVERFLOW") ↔
      c.networkMtu * 20 + (passed (exchanges fd tr)).flatten.length ≤
        (received (exchanges fd tr)).length + data.length := by
  have htail := (Router.Run.connection haccepted hrun hopen).tail
  have hlive : fd ≠ -1 := by
    obtain ⟨_, _, _, -, hallowed, -⟩ := haccepted
    have := hallowed.1
    omega
  have hrevents : revents ≠ 0 := by
    rintro rfl
    exact absurd hin (by decide)
  have hlength : ¬data.length < 1 := by
    have := List.length_pos_iff.2 hdata
    omega
  have hbuffer : (s.tables.buffer (s.pollList slot).fd).bufferTail +
      (passed (exchanges fd tr)).flatten.length = (received (exchanges fd tr)).length := by
    rw [hfd]
    exact htail
  rw [Router.step_error_iff hslot (hfd ▸ hlive) hrevents hhup,
    handleEvent_overflow_iff rand hin hlength]
  dsimp only [RouterConfig.bufferSize] at hbuffer ⊢
  omega

/-! ## The frames handed out -/

@[simp] theorem pieces_snoc (xs : List Exchange) (x : Exchange) :
    pieces (xs ++ [x]) = pieces xs ++ [x.1] := by
  simp [pieces]

/-- The number of frames that are due after the reads of `cut` and `cut'`: those that
    the reads of `cut` have completed, and one for each read since. -/
def due (frames : List (List UInt8)) (cut cut' : List (List UInt8)) : Nat :=
  (completeFrames frames cut.flatten.length).length + cut'.length

/-- No more frames were handed out than were due, whatever moment one counts from, and
    from some moment on as many. -/
structure HandedOut (frames : List (List UInt8)) (xs : List Exchange) : Prop where
  le_due : ∀ cut cut', pieces xs = cut ++ cut' → (passed xs).length ≤ due frames cut cut'
  eq_due : ∃ cut cut', pieces xs = cut ++ cut' ∧ (passed xs).length = due frames cut cut'

theorem HandedOut.nil {order : ByteOrder} {frames : List (List UInt8)}
    (hframes : ∀ f ∈ frames, (frameReader order).IsFrame f) : HandedOut frames [] where
  le_due _ _ _ := Nat.zero_le _
  eq_due := by
    have hnone := completeFrames_zero hframes
    exact ⟨[], [], rfl, by simp [due, hnone, passed]⟩

/-- One read more: it hands out one frame of those that are complete, or all of them
    were handed out before. -/
theorem HandedOut.snoc {frames : List (List UInt8)} {xs : List Exchange} {x : Exchange}
    (h : HandedOut frames xs)
    (hcomplete : (passed (xs ++ [x])).length ≤
      (completeFrames frames (received (xs ++ [x])).length).length)
    (hone : (passed (xs ++ [x])).length = (passed xs).length + 1 ∨
      (passed (xs ++ [x])).length = (passed xs).length ∧
        (completeFrames frames (received (xs ++ [x])).length).length = (passed xs).length) :
    HandedOut frames (xs ++ [x]) where
  le_due cut cut' hcut := by
    cases cut' using List.reverseRecOn with
    | nil =>
      rw [List.append_nil] at hcut
      rw [due, ← hcut]
      exact hcomplete
    | append_singleton cut' piece =>
      rw [pieces_snoc, ← List.append_assoc] at hcut
      have hle := h.le_due cut cut' (List.append_inj' hcut rfl).1
      simp only [due, List.length_append, List.length_singleton] at hle ⊢
      omega
  eq_due := by
    rcases hone with hone | ⟨hsame, hall⟩
    · -- every read since that moment has handed out a frame, and so does this one
      obtain ⟨cut, cut', hcut, heq⟩ := h.eq_due
      refine ⟨cut, cut' ++ [x.1], by rw [pieces_snoc, hcut, List.append_assoc], ?_⟩
      simp only [due, List.length_append, List.length_singleton] at heq ⊢
      omega
    · exact ⟨pieces (xs ++ [x]), [], by simp, hsame.trans hall.symm⟩

/-- On a stream of frames the frames that are handed out are known from the reads. -/
theorem LocalBuffer.Run.handedOut {c : RouterConfig} {frames : List (List UInt8)}
    (hframes : ∀ f ∈ frames, (frameReader c.order).IsFrame f) {xs : List Exchange}
    {b : LocalBuffer c.bufferSize} (h : LocalBuffer.Run c (newBuffer c) xs b)
    (hstream : received xs <+: frames.flatten) : HandedOut frames xs := by
  induction h with
  | nil => exact .nil hframes
  | @snoc xs b b' data x hrun _ hstep ih =>
    rw [received_snoc] at hstream
    have hbefore : received xs <+: frames.flatten := (List.prefix_append ..).trans hstream
    obtain ⟨frames', hsplit⟩ := LocalBuffer.Run.split hframes hrun hbefore
    have hframes' : ∀ f ∈ frames', (frameReader c.order).IsFrame f := fun f hf =>
      hframes f (by rw [hsplit.frames_eq]; exact List.mem_append_right _ hf)
    rcases hsplit.absorb (x := (data, x)) hframes' (hsplit.pending hstream)
      (absorbed_of_absorb hstep) with
      ⟨f, fs, -, hpacket, -, hsplit'⟩ | ⟨hpacket, hwindow, hnone, hsplit'⟩
    · have hcomplete := congrArg List.length hsplit'.complete_eq
      rw [List.length_append] at hcomplete
      refine (ih hbefore).snoc (by omega) (.inl ?_)
      rw [passed_snoc, hpacket]
      simp
    · have hcomplete := hsplit'.complete_eq
      rw [hwindow, hnone, List.append_nil] at hcomplete
      have hsame : passed (xs ++ [(data, x)]) = passed xs := by
        rw [passed_snoc, hpacket]
        simp
      refine (ih hbefore).snoc (by rw [hcomplete]) (.inr ?_)
      rw [hcomplete, hsame]
      exact ⟨rfl, rfl⟩

/-- What was handed out are the first of the frames. -/
theorem Split.passed_eq_take {frames frames' : List (List UInt8)} {xs : List Exchange}
    {window : List UInt8} (h : Split frames xs window frames') :
    passed xs = frames.take (passed xs).length := by
  rw [h.frames_eq, List.take_left]

/-! ## When the buffer overflows -/

/-- A read on a connection that carries frames makes the router exit for the overflow
    just if, counted from some moment on, the bytes received exceed the frames that are
    due by as much as the buffer holds. -/
theorem overflow_iff {c : RouterConfig} {fd : Int} {s₀ s : Router c} {tr : List (Act × Output)}
    {slot : Fin MAX_MONITOR_FDS} {revents : UInt16} {data : List UInt8} (rand : Nat → RandResult)
    {frames : List (List UInt8)} (haccepted : Router.Accepted c fd s₀)
    (hrun : Router.Run c s₀ tr s) (hopen : StaysOpen fd tr) (hslot : slot ≠ 0)
    (hfd : (s.pollList slot).fd = fd) (hin : revents &&& POLLIN = POLLIN)
    (hhup : revents &&& POLLHUP ≠ POLLHUP) (hdata : data ≠ [])
    (hframes : ∀ f ∈ frames, (frameReader c.order).IsFrame f)
    (hstream : received (exchanges fd tr) ++ data <+: frames.flatten) :
    Router.step c s (.event slot revents data rand) = .error (.assertion "BUFFER OVERFLOW") ↔
      ∃ cut cut', pieces (exchanges fd tr) = cut ++ cut' ∧
        c.networkMtu * 20 + (frames.take (due frames cut cut')).flatten.length ≤
          (received (exchanges fd tr)).length + data.length := by
  have hconn := Router.Run.connection haccepted hrun hopen
  have hbefore : received (exchanges fd tr) <+: frames.flatten :=
    (List.prefix_append ..).trans hstream
  obtain ⟨frames', hsplit⟩ := LocalBuffer.Run.split hframes hconn hbefore
  have hhanded := LocalBuffer.Run.handedOut hframes hconn hbefore
  rw [Router.step_overflow_iff rand haccepted hrun hopen hslot hfd hin hhup hdata]
  have hpassed := hsplit.passed_eq_take
  constructor
  · intro hover
    obtain ⟨cut, cut', hcut, hdue⟩ := hhanded.eq_due
    refine ⟨cut, cut', hcut, ?_⟩
    rwa [← hdue, ← hpassed]
  · rintro ⟨cut, cut', hcut, hover⟩
    have hprefix : passed (exchanges fd tr) <+: frames.take (due frames cut cut') := by
      rw [hpassed]
      exact List.take_prefix_take_left (hhanded.le_due cut cut' hcut)
    have hle := hprefix.flatten.length_le
    omega

/-- A frame that declares a thousand bytes. -/
def hostileFrame : List UInt8 := frameBytes .little GNW_DATA 9 (List.replicate 1000 0)

/-- The beginning of this frame, in pieces of 32 bytes. -/
def hostileActs : List Act :=
  .event 1 POLLIN (hostileFrame.take 32) (fun _ => 0) ::
    List.replicate 18 (.event 1 POLLIN (List.replicate 32 0) fun _ => 0)

/-- The twentieth read that returns a whole MTU makes the router exit. -/
theorem hostileActs_run :
    ∃ tr s, Router.Run smallRouter smallRouterAccepted tr s ∧ StaysOpen 4 tr ∧
      (s.pollList 1).fd = 4 ∧ received (exchanges 4 tr) = hostileFrame.take 608 ∧
      Router.step smallRouter s (.event 1 POLLIN (List.replicate 32 0) fun _ => 0) =
        .error (.assertion "BUFFER OVERFLOW") := by
  have hsim : (Machine.simulate (Router.Allowed smallRouter) (Router.step smallRouter)
      smallRouterAccepted hostileActs).any (fun r => dropsNone r.2 &&
        (r.1.pollList 1).fd = (4 : Int) && received (exchanges 4 r.2) = hostileFrame.take 608 &&
        match Router.step smallRouter r.1 (.event 1 POLLIN (List.replicate 32 0) fun _ => 0) with
        | .error e => e = .assertion "BUFFER OVERFLOW"
        | .ok _ => false) = true := by
    decide +kernel
  obtain ⟨tr, s, hrun, hlast⟩ := Machine.Run.exists_of_simulate hsim
  simp only [Bool.and_eq_true, decide_eq_true_eq] at hlast
  obtain ⟨⟨⟨hopen, hfd⟩, hreceived⟩, hstep⟩ := hlast
  refine ⟨tr, s, hrun, .of_dropsNone hopen 4, hfd, hreceived, ?_⟩
  split at hstep
  · rename_i e he
    rw [he, of_decide_eq_true hstep]
  · cases hstep

/-- No client can make the assertion fail: refuted by a client that declares more
    than the buffer holds. -/
theorem overflow_fails :
    ¬∀ fd s₀ tr s slot revents data rand, Router.Accepted smallRouter fd s₀ →
      Router.Run smallRouter s₀ tr s → Router.Allowed smallRouter s (.event slot revents data rand) →
      Router.step smallRouter s (.event slot revents data rand) ≠
        .error (.assertion "BUFFER OVERFLOW") := by
  intro hnever
  obtain ⟨tr, s, hrun, -, -, -, hstep⟩ := hostileActs_run
  exact hnever 4 _ tr s 1 POLLIN (List.replicate 32 0) _ smallRouterAccepted_accepted hrun
    (by simp [Router.Allowed, smallRouter]) hstep

/-- Counted from the last read on no frame is due, and the bytes received are by then as
    many as the buffer holds. -/
theorem overflow_iff_hostile :
    ∃ tr s, Router.Run smallRouter smallRouterAccepted tr s ∧
      ∃ cut cut', pieces (exchanges 4 tr) = cut ++ cut' ∧
        32 * 20 + ([hostileFrame].take (due [hostileFrame] cut cut')).flatten.length ≤
          (received (exchanges 4 tr)).length + 32 := by
  obtain ⟨tr, s, hrun, hopen, hfd, hreceived, hstep⟩ := hostileActs_run
  refine ⟨tr, s, hrun, ?_⟩
  have hframes : ∀ f ∈ [hostileFrame], (frameReader smallRouter.order).IsFrame f := by
    intro f hf
    obtain rfl := List.mem_singleton.1 hf
    exact isFrame_frameBytes (by rw [List.length_replicate]; decide)
  have hstream : received (exchanges 4 tr) ++ List.replicate 32 0 <+: [hostileFrame].flatten := by
    rw [hreceived]
    decide +kernel
  have hiff := overflow_iff (fun _ => 0) smallRouterAccepted_accepted hrun hopen
    (by decide) hfd (by decide : POLLIN &&& POLLIN = POLLIN) (by decide)
    (by decide : List.replicate 32 (0 : UInt8) ≠ []) hframes hstream
  exact hiff.1 hstep

/-! ## A client that is read fast enough -/

/-- No read completes more than one frame. -/
def Paced (frames cut : List (List UInt8)) : Prop :=
  ∀ cut₁ piece cut₂, cut = cut₁ ++ piece :: cut₂ →
    (completeFrames frames (cut₁ ++ [piece]).flatten.length).length ≤
      (completeFrames frames cut₁.flatten.length).length + 1

/-- Then all frames that are complete are due. -/
theorem Paced.le_due {frames cut cut' : List (List UInt8)} (h : Paced frames (cut ++ cut')) :
    (completeFrames frames (cut ++ cut').flatten.length).length ≤ due frames cut cut' := by
  induction cut' using List.reverseRecOn with
  | nil => simp [due]
  | append_singleton cut' piece ih =>
    have hlast := h (cut ++ cut') piece [] (by simp)
    have hbefore := ih fun cut₁ piece' cut₂ hcut =>
      h cut₁ piece' (cut₂ ++ [piece]) (by rw [← List.append_assoc, hcut]; simp)
    rw [← List.append_assoc]
    simp only [due, List.length_append, List.length_singleton] at hlast hbefore ⊢
    omega

/-- Behind the frames that are complete there is less than a frame. -/
theorem lt_of_completeFrames {frames : List (List UInt8)} {n k : Nat}
    (hlong : ∀ f ∈ frames, f.length ≤ k) (hk : 0 < k) (hn : n ≤ frames.flatten.length) :
    n < (frames.take (completeFrames frames n).length).flatten.length + k := by
  induction frames generalizing n with
  | nil =>
    have hzero : n = 0 := by simpa using hn
    simpa [hzero] using hk
  | cons f frames ih =>
    rw [completeFrames_cons]
    split
    · rw [List.flatten_cons, List.length_append] at hn
      have hrest := ih (n := n - f.length) (fun g hg => hlong g (List.mem_cons_of_mem f hg))
        (by omega)
      rw [List.length_cons, List.take_succ_cons, List.flatten_cons, List.length_append]
      omega
    · have hf := hlong f List.mem_cons_self
      simp only [List.length_nil, List.take_zero, List.flatten_nil]
      omega

/-- A client whose frames fit the buffer with a read to spare, and of whose frames no
    read completes more than one, does not make the buffer overflow. -/
theorem paced_never_overflows {c : RouterConfig} {fd : Int} {s₀ s : Router c}
    {tr : List (Act × Output)} {slot : Fin MAX_MONITOR_FDS} {revents : UInt16}
    {data : List UInt8} (rand : Nat → RandResult) {frames : List (List UInt8)}
    (haccepted : Router.Accepted c fd s₀) (hrun : Router.Run c s₀ tr s) (hopen : StaysOpen fd tr)
    (hslot : slot ≠ 0) (hfd : (s.pollList slot).fd = fd) (hin : revents &&& POLLIN = POLLIN)
    (hhup : revents &&& POLLHUP ≠ POLLHUP) (hdata : data ≠ []) (hmtu : data.length ≤ c.networkMtu)
    (hframes : ∀ f ∈ frames, (frameReader c.order).IsFrame f ∧ f.length ≤ c.networkMtu * 19)
    (hstream : received (exchanges fd tr) ++ data <+: frames.flatten)
    (hpaced : Paced frames (pieces (exchanges fd tr))) :
    Router.step c s (.event slot revents data rand) ≠ .error (.assertion "BUFFER OVERFLOW") := by
  have hmtu_pos := c.networkMtu_pos
  have hbefore := ((List.prefix_append ..).trans hstream).length_le
  intro hover
  obtain ⟨cut, cut', hcut, hfull⟩ := (overflow_iff rand haccepted hrun hopen hslot hfd hin hhup
    hdata (fun f hf => (hframes f hf).1) hstream).1 hover
  -- all frames that are complete are due, and the rest is less than one
  have hdue := (hcut ▸ hpaced).le_due
  rw [← hcut] at hdue
  have hrest := lt_of_completeFrames (fun f hf => (hframes f hf).2) (by omega) hbefore
  have hle := (List.take_prefix_take_left (l := frames) hdue).flatten.length_le
  have hsame : (received (exchanges fd tr)).length =
      (pieces (exchanges fd tr)).flatten.length := rfl
  rw [hsame] at hfull hrest
  omega
