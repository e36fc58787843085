-- SUMMARY: The calls of the packet handler that a stream from the router leads to, however it is cut into reads.
import GraphIPC.Base.Machine
import GraphIPC.Node.HandleRemoteData
import GraphIPC.Wire.Frame

/-!
# The stream from the router

`handleRemoteData` drains its buffer with the reader of frames, so the calls it
makes depend on the bytes received and not on the reads they came in. On a stream
of frames that fit the buffer, with garbage between them that reads as no magic,
what is left after a read is less than a header or a piece of the next frame, and
there is room for more.
-/

/-! ## The loop as a reader of frames -/

/-- The header and payload of a whole frame. -/
def callOf (order : ByteOrder) (frame : List UInt8) : Header × List UInt8 :=
  (readHeader order frame).getD default

@[simp] theorem callOf_frameBytes (order : ByteOrder) (type : UInt8) (source : UInt32)
    (payload : List UInt8) :
    callOf order (frameBytes order type source payload) =
      ({ magic := GNW_MAGIC, version := GNW_VERSION, type, source,
         length := UInt32.ofNat payload.length }, payload) := by
  have hread := readHeader_frameBytes order type source payload []
  rw [List.append_nil, List.append_nil] at hread
  rw [callOf, hread]
  rfl

/-- What a round of the loop does on a frame that is there as a whole, if its
    size was not reduced to less than a header. -/
theorem parse_frame {order : ByteOrder} {xs : List UInt8} {n : Nat} (ys : List UInt8)
    (hnext : gnwNextPacket order xs = n) (hlen : 11 ≤ n) :
    ∃ header ptr, gnwParseHeader false order (xs ++ ys) = .ok (header, ptr) ∧
      (11 + header.length).toNat = n ∧
      copyPayload n ptr header.length.toNat = .ok (xs.drop 11 |>.take (n - 11)) ∧
      callOf order (xs.take n) = (header, xs.drop 11 |>.take (n - 11)) := by
  have hpos : 0 < gnwNextPacket order xs := by omega
  obtain ⟨hxs, -, hsize, hle⟩ := gnwNextPacket_pos hpos
  have hn : (11 + declaredLength order xs) % 2 ^ 32 = n := by omega
  have hdeclared := declaredLength_lt order xs
  have hframe : 11 ≤ (xs.take n).length := by
    rw [List.length_take]
    omega
  obtain ⟨header, hread, hlength⟩ := readHeader_forall order hframe
  -- the header of the frame is that of the buffer
  have hbuffer : ∀ ys, readHeader order (xs ++ ys) = some (header, xs.drop 11 ++ ys) := by
    intro ys
    have hwhole := hread (xs.drop n ++ ys)
    rw [← List.append_assoc, List.take_append_drop] at hwhole
    rw [hwhole, ← List.append_assoc]
    congr
    rw [← List.drop_append_of_le_length hframe, List.take_append_drop]
  have hheader : header.length.toNat = n - 11 := by
    rw [← hlength, ← declaredLength_append hframe (xs.drop n), List.take_append_drop]
    omega
  have hsum : (11 + header.length).toNat = n := by
    rw [UInt32.toNat_add, hheader]
    have heleven : (11 : UInt32).toNat = 11 := rfl
    omega
  refine ⟨header, xs.drop 11 ++ ys, ?_, hsum, ?_, ?_⟩
  · simp [gnwParseHeader, hbuffer, assertThat]
  · have hfits : n - 11 ≤ (xs.drop 11).length := by
      rw [List.length_drop]
      omega
    rw [copyPayload, if_pos ⟨by omega, by rw [hheader, List.length_append]; omega⟩, hheader,
      List.take_append_of_le_length hfits]
  · have hsingle := hread []
    rw [List.append_nil, List.append_nil] at hsingle
    rw [callOf, hsingle, Option.getD_some, List.drop_take]

variable {σ : Type}

/-- Call the packet handler on each frame of a list, in order. -/
def handleAll (order : ByteOrder) (handlePacket : Header → List UInt8 → σ → Except Fault σ)
    (frames : List (List UInt8)) (s : σ) : Except Fault σ :=
  frames.foldlM (fun s frame => handlePacket (callOf order frame).1 (callOf order frame).2 s) s

/-- The loop drains the buffer, and calls the handler on the frames it takes. -/
theorem remoteLoop_eq {c : NodeConfig} (handlePacket : Header → List UInt8 → σ → Except Fault σ)
    {fuel : Nat} {b : LocalBuffer c.bufferSize} (hfuel : b.bufferTail ≤ fuel)
    (hframes : ∀ f ∈ ((frameReader c.order).drain b.window).1, 11 ≤ f.length) (s : σ) :
    ∃ b' : LocalBuffer c.bufferSize, b'.window = ((frameReader c.order).drain b.window).2 ∧
      remoteLoop c handlePacket fuel b s = (b', ·) <$>
        handleAll c.order handlePacket ((frameReader c.order).drain b.window).1 s := by
  induction fuel generalizing b s with
  | zero =>
    have hwindow : b.window = [] := by
      rw [← List.length_eq_zero_iff, b.length_window]
      omega
    have hwait : (frameReader c.order).next [] = .wait := by simp [frameReader, gnwNextPacket]
    rw [hwindow, Reader.drain_of_wait _ hwait]
    exact ⟨b, hwindow, rfl⟩
  | succ fuel ih =>
    rw [remoteLoop]
    obtain hzero | hneg | hpos : gnwNextPacket c.order b.window = 0 ∨
        gnwNextPacket c.order b.window < 0 ∨ 0 < gnwNextPacket c.order b.window := by omega
    · have hwait : (frameReader c.order).next b.window = .wait := by
        simp [frameReader, hzero]
      rw [Reader.drain_of_wait _ hwait]
      exact ⟨b, rfl, by simp only [hzero, if_true]; rfl⟩
    · have hskip : (frameReader c.order).next b.window = .skip := by
        simp [frameReader, hneg]
      have htail := Reader.length_pos_of_skip _ hskip
      rw [b.length_window] at htail
      rw [Reader.drain_of_skip _ hskip, ← b.window_shift] at hframes ⊢
      obtain ⟨b', hwindow, hloop⟩ := ih (b := b.shift 1)
        (by show b.bufferTail - 1 ≤ fuel; omega) hframes s
      refine ⟨b', hwindow, ?_⟩
      rw [← hloop]
      simp only
      rw [if_neg (by omega), if_pos hneg]
    · obtain ⟨n, hn⟩ : ∃ n : Nat, gnwNextPacket c.order b.window = n :=
        ⟨_, (Int.toNat_of_nonneg hpos.le).symm⟩
      have htake : (frameReader c.order).next b.window = .take n := by
        simp only [frameReader]
        rw [if_neg (by omega), if_neg (by omega), hn, Int.toNat_natCast]
      rw [Reader.drain_of_take _ htake, ← b.window_shift] at hframes ⊢
      have hle := Reader.take_bounds _ htake
      rw [b.length_window] at hle
      have hlen : 11 ≤ n := by
        have hfirst := hframes _ List.mem_cons_self
        rw [List.length_take] at hfirst
        omega
      obtain ⟨header, ptr, hparse, hsize, hcopy, hcall⟩ :=
        parse_frame (b.buffer.drop b.bufferTail) hn hlen
      have hbuffer : b.window ++ b.buffer.drop b.bufferTail = b.buffer := List.take_append_drop ..
      rw [hbuffer] at hparse
      have hrest := ih (b := b.shift n) (by show b.bufferTail - n ≤ fuel; omega)
        fun f hf => hframes f (List.mem_cons_of_mem _ hf)
      have hstep : handleAll c.order handlePacket (b.window.take n ::
          ((frameReader c.order).drain (b.shift n).window).1) s =
          (handlePacket header (b.window.drop 11 |>.take (n - 11)) s >>= handleAll c.order
            handlePacket ((frameReader c.order).drain (b.shift n).window).1) := by
        rw [handleAll, List.foldlM_cons, hcall]
        rfl
      simp only
      rw [if_neg (by omega), if_neg (by omega), hparse, Except.ok_bind]
      simp only
      rw [hsize, hcopy, Except.ok_bind, hstep]
      cases hhandle : handlePacket header (b.window.drop 11 |>.take (n - 11)) s with
      | error e =>
        obtain ⟨b', hwindow, -⟩ := hrest s
        exact ⟨b', hwindow, rfl⟩
      | ok s' =>
        obtain ⟨b', hwindow, hloop⟩ := hrest s'
        exact ⟨b', hwindow, hloop⟩

/-! ## Reads -/

/-- A read from the router: the handler is called on the frames that are complete
    with it, in order, and what is left stays in the buffer. -/
theorem handleRemoteData_eq {c : NodeConfig}
    (handlePacket : Header → List UInt8 → σ → Except Fault σ) (routerFd : Int) {fd : Int}
    {data : List UInt8} {inputBuffer : InputBuffer c} {b : LocalBuffer c.bufferSize}
    (hb : inputBuffer.bufferFor fd = some b) (hdata : 0 < data.length)
    (hcapacity : data.length ≤ b.capacity)
    (hframes : ∀ f ∈ ((frameReader c.order).drain (b.window ++ data)).1, 11 ≤ f.length) (s : σ) :
    ∃ inputBuffer' b', InputBuffer.bufferFor inputBuffer' fd = some b' ∧
      b'.window = ((frameReader c.order).drain (b.window ++ data)).2 ∧
      handleRemoteData c handlePacket routerFd fd data inputBuffer s =
        (fun s' => (inputBuffer', s', Received.arrived)) <$> handleAll c.order handlePacket
          ((frameReader c.order).drain (b.window ++ data)).1 s := by
  have hfits : b.bufferTail + data.length ≤ c.bufferSize := by
    rw [LocalBuffer.capacity] at hcapacity
    have htail := b.bufferTail_le
    omega
  have hwindow : (b.append data hfits).window = b.window ++ data := b.window_append data hfits
  rw [← hwindow] at hframes ⊢
  obtain ⟨b', hwindow', hloop⟩ := remoteLoop_eq handlePacket (Nat.le_refl _) hframes s
  refine ⟨(getLocalBuffer c fd inputBuffer).1.set fd (some b'), b', by simp, hwindow', ?_⟩
  rw [handleRemoteData, getLocalBuffer_of_bufferFor hb]
  simp only
  rw [if_neg (by omega), dif_pos hfits, hloop]
  cases handleAll c.order handlePacket _ s <;> rfl

/-! ## Runs -/

theorem IsEmitted.eleven_le {order : ByteOrder} {f : List UInt8} (h : IsEmitted order f) :
    11 ≤ f.length := by
  obtain ⟨type, source, payload, rfl⟩ := h.exists_frameBytes
  rw [length_frameBytes]
  omega

/-- A call of the packet handler: what it was given. -/
abbrev Call : Type := Header × List UInt8

/-- The packet handler as an observer that keeps the calls. -/
def logCall (header : Header) (payload : List UInt8) (calls : List Call) :
    Except Fault (List Call) :=
  .ok (calls ++ [(header, payload)])

theorem handleAll_logCall (order : ByteOrder) (frames : List (List UInt8)) (calls : List Call) :
    handleAll order logCall frames calls = .ok (calls ++ frames.map (callOf order)) := by
  induction frames generalizing calls with
  | nil => simp [handleAll]
  | cons frame frames ih =>
    have hstep : handleAll order logCall (frame :: frames) calls =
        handleAll order logCall frames (calls ++ [callOf order frame]) := rfl
    rw [hstep, ih, List.append_assoc]
    rfl

/-- `handleRemoteData` on one read: the calls it makes. -/
def remoteStep (c : NodeConfig) (routerFd fd : Int) (inputBuffer : InputBuffer c)
    (data : List UInt8) : Except Fault (InputBuffer c × (List Call × Received)) := do
  let (inputBuffer, calls, received) ←
    handleRemoteData c logCall routerFd fd data inputBuffer []
  return (inputBuffer, (calls, received))

/-- A read that returns something, and no more than it was asked for. -/
def RemoteAllowed (c : NodeConfig) (fd : Int) (inputBuffer : InputBuffer c)
    (data : List UInt8) : Prop :=
  0 < data.length ∧ ∀ b, inputBuffer.bufferFor fd = some b → data.length ≤ b.capacity

instance (c : NodeConfig) (fd : Int) (inputBuffer : InputBuffer c) (data : List UInt8) :
    Decidable (RemoteAllowed c fd inputBuffer data) :=
  match h : inputBuffer.bufferFor fd with
  | none => decidable_of_iff (0 < data.length) (by simp [RemoteAllowed, h])
  | some b =>
    decidable_of_iff (0 < data.length ∧ data.length ≤ b.capacity) (by simp [RemoteAllowed, h])

/-- The reads from one descriptor, and what came of each. -/
abbrev RemoteRun (c : NodeConfig) (routerFd fd : Int) :
    InputBuffer c → List (List UInt8 × (List Call × Received)) → InputBuffer c → Prop :=
  Machine.Run (RemoteAllowed c fd) (remoteStep c routerFd fd)

/-- All bytes that were read. -/
def readBytes {ω : Type} (tr : List (List UInt8 × ω)) : List UInt8 := tr.flatMap Prod.fst

/-- All calls that were made. -/
def callsMade (tr : List (List UInt8 × (List Call × Received))) : List Call :=
  tr.flatMap fun e => e.2.1

/-- A stream that the emit functions sent, with garbage before, between and after
    the frames. -/
def Announces (order : ByteOrder) (size : Nat) : List (List UInt8 × List UInt8) → List UInt8 → Prop
  | [], tail => NoMagic tail []
  | (g, f) :: segs, tail =>
    NoMagic g (f ++ Segments.stream segs tail) ∧ IsEmitted order f ∧ f.length ≤ size ∧
      Announces order size segs tail

theorem Announces.clean {order : ByteOrder} {size : Nat} (hsize : size < 2 ^ 32)
    {segs : List (List UInt8 × List UInt8)} {tail : List UInt8}
    (h : Announces order size segs tail) : Segments.Clean (frameReader order) segs tail := by
  induction segs with
  | nil => exact h.isNoise
  | cons s segs ih =>
    obtain ⟨hnoise, hemitted, hlength, hrest⟩ := h
    exact ⟨hnoise.isNoise, hemitted.isFrame (by omega), ih hrest⟩

theorem Announces.mem {order : ByteOrder} {size : Nat} {segs : List (List UInt8 × List UInt8)}
    {tail : List UInt8} (h : Announces order size segs tail) {s : List UInt8 × List UInt8}
    (hs : s ∈ segs) : IsEmitted order s.2 ∧ s.2.length ≤ size := by
  induction segs with
  | nil => cases hs
  | cons s' segs ih =>
    obtain ⟨-, hemitted, hlength, hrest⟩ := h
    rcases List.mem_cons.1 hs with rfl | hs
    · exact ⟨hemitted, hlength⟩
    · exact ih hrest hs

/-- Only frames of the stream are ever complete. -/
theorem Segments.mem_complete {α : Type*} {segs : List (List α × List α)} {n : Nat} {f : List α}
    (h : f ∈ Segments.complete segs n) : ∃ s ∈ segs, s.2 = f := by
  induction segs generalizing n with
  | nil => cases h
  | cons s segs ih =>
    obtain ⟨g, f'⟩ := s
    rw [complete] at h
    split at h
    · rcases List.mem_cons.1 h with rfl | h
      · exact ⟨_, List.mem_cons_self, rfl⟩
      · obtain ⟨s, hs, rfl⟩ := ih h
        exact ⟨s, List.mem_cons_of_mem _ hs, rfl⟩
    · cases h

/-! ## The calls of a run -/

section Runs

variable {c : NodeConfig} {routerFd fd : Int} {segs : List (List UInt8 × List UInt8)}
  {tail : List UInt8}

/-- What draining a piece of the stream takes and leaves. -/
theorem Announces.drain (h : Announces c.order c.bufferSize segs tail) {p : List UInt8}
    (hp : p <+: Segments.stream segs tail) :
    ((frameReader c.order).drain p).1 = Segments.complete segs p.length ∧
      (∀ f ∈ ((frameReader c.order).drain p).1, IsEmitted c.order f ∧ f.length ≤ c.bufferSize) ∧
      ((frameReader c.order).drain p).2.length < c.bufferSize := by
  have hsize := c.networkMtu_lt
  have hpos := c.networkMtu_pos
  have hlt : c.bufferSize < 2 ^ 32 := by
    rw [NodeConfig.bufferSize]
    omega
  obtain ⟨hcomplete, hrest⟩ := Segments.drain_clean (h.clean hlt) hp
  refine ⟨hcomplete, fun f hf => ?_, ?_⟩
  · rw [hcomplete] at hf
    obtain ⟨s, hs, rfl⟩ := Segments.mem_complete hf
    exact h.mem hs
  · rcases hrest with hshort | ⟨s, hs, hpiece⟩
    · have hheader : (frameReader c.order).header = 11 := rfl
      rw [NodeConfig.bufferSize]
      omega
    · exact lt_of_lt_of_le hpiece (h.mem hs).2

/-- The buffer and the calls after some reads: those of draining all the bytes in
    one go. -/
structure Drained (c : NodeConfig) (fd : Int) (tr : List (List UInt8 × (List Call × Received)))
    (inputBuffer : InputBuffer c) (b : LocalBuffer c.bufferSize) : Prop where
  buffer : inputBuffer.bufferFor fd = some b
  window : b.window = ((frameReader c.order).drain (readBytes tr)).2
  calls : callsMade tr = ((frameReader c.order).drain (readBytes tr)).1.map (callOf c.order)
  arrived : ∀ e ∈ tr, e.2.2 = .arrived

/-- One more read is handled, and the buffer and the calls are again those of
    draining all the bytes. -/
theorem Drained.step {tr : List (List UInt8 × (List Call × Received))} {inputBuffer : InputBuffer c}
    {b : LocalBuffer c.bufferSize} (hd : Drained c fd tr inputBuffer b) {data : List UInt8}
    (hallowed : RemoteAllowed c fd inputBuffer data)
    (hframes : ∀ f ∈ ((frameReader c.order).drain (readBytes tr ++ data)).1, 11 ≤ f.length) :
    ∃ inputBuffer' calls b', remoteStep c routerFd fd inputBuffer data =
        .ok (inputBuffer', (calls, .arrived)) ∧
      Drained c fd (tr ++ [(data, (calls, .arrived))]) inputBuffer' b' := by
  have happend := (frameReader c.order).drain_append (readBytes tr) data
  rw [← hd.window] at happend
  have hframes' : ∀ f ∈ ((frameReader c.order).drain (b.window ++ data)).1, 11 ≤ f.length := by
    intro f hf
    apply hframes f
    rw [happend]
    exact List.mem_append_right _ hf
  obtain ⟨inputBuffer', b', hb', hwindow', hstep⟩ := handleRemoteData_eq logCall routerFd hd.buffer
    hallowed.1 (hallowed.2 b hd.buffer) hframes' []
  rw [handleAll_logCall, List.nil_append, Except.ok_map] at hstep
  refine ⟨inputBuffer', _, b', by rw [remoteStep, hstep]; rfl, ?_⟩
  have hread : ∀ calls : List Call, readBytes (tr ++ [(data, (calls, Received.arrived))]) =
      readBytes tr ++ data := fun _ => by simp [readBytes]
  constructor
  · exact hb'
  · rw [hwindow', hread, happend]
  · rw [hread, happend, List.map_append, ← hd.calls]
    simp [callsMade]
  · intro e he
    rcases List.mem_append.1 he with he | he
    · exact hd.arrived e he
    · rw [List.mem_singleton.1 he]

/-- Whatever the reads are, the buffer and the calls are those of draining all
    the bytes. -/
theorem Drained.run {inputBuffer₀ inputBuffer : InputBuffer c} (hnew : inputBuffer₀ fd = none)
    {stream : List UInt8}
    (hframes : ∀ p, p <+: stream → ∀ f ∈ ((frameReader c.order).drain p).1, 11 ≤ f.length)
    {tr : List (List UInt8 × (List Call × Received))}
    (hrun : RemoteRun c routerFd fd inputBuffer₀ tr inputBuffer)
    (hstream : readBytes tr <+: stream) : ∃ b, Drained c fd tr inputBuffer b := by
  revert hstream
  refine Machine.Run.induct (P := fun tr inputBuffer =>
    readBytes tr <+: stream → ∃ b, Drained c fd tr inputBuffer b) ?_ ?_ hrun
  · intro _
    have hwait : (frameReader c.order).next [] = .wait := by simp [frameReader, gnwNextPacket]
    exact ⟨c.newBuffer, InputBuffer.bufferFor_of_none _ hnew,
      by simp [readBytes, Reader.drain_of_wait _ hwait],
      by simp [readBytes, callsMade, Reader.drain_of_wait _ hwait], by simp⟩
  · intro tr inputBuffer data o inputBuffer' _ ih hallowed hstep hstream
    have hread : readBytes (tr ++ [(data, o)]) = readBytes tr ++ data := by simp [readBytes]
    rw [hread] at hstream
    obtain ⟨b, hd⟩ := ih ((List.prefix_append ..).trans hstream)
    obtain ⟨inputBuffer'', calls, b', hstep', hd'⟩ : ∃ inputBuffer' calls b',
        remoteStep c routerFd fd inputBuffer data = .ok (inputBuffer', (calls, .arrived)) ∧
        Drained c fd (tr ++ [(data, (calls, .arrived))]) inputBuffer' b' :=
      hd.step hallowed (hframes _ hstream)
    rw [hstep] at hstep'
    cases hstep'
    exact ⟨b', hd'⟩

/-- On a stream that the emit functions sent, no frame is too short. -/
theorem Announces.eleven_le (h : Announces c.order c.bufferSize segs tail) (p : List UInt8)
    (hp : p <+: Segments.stream segs tail) :
    ∀ f ∈ ((frameReader c.order).drain p).1, 11 ≤ f.length := fun f hf =>
  ((h.drain hp).2.1 f hf).1.eleven_le

/-- The calls that a node makes on a stream from the router. However the stream
    is cut into reads, the handler has been called with exactly the frames that
    are complete, in order; the tail stays within the buffer, there is room for
    another read, and another read of the stream is handled. -/
theorem remote_calls {inputBuffer₀ inputBuffer : InputBuffer c} (hnew : inputBuffer₀ fd = none)
    (hannounces : Announces c.order c.bufferSize segs tail)
    {tr : List (List UInt8 × (List Call × Received))}
    (hrun : RemoteRun c routerFd fd inputBuffer₀ tr inputBuffer)
    (hstream : readBytes tr <+: Segments.stream segs tail) :
    (callsMade tr).map (fun call => frameBytes c.order call.1.type call.1.source call.2) =
        Segments.complete segs (readBytes tr).length ∧
      (∀ call ∈ callsMade tr, call.1.length.toNat = call.2.length) ∧
      (∀ e ∈ tr, e.2.2 = .arrived) ∧
      ∃ b, inputBuffer.bufferFor fd = some b ∧ b.bufferTail ≤ c.bufferSize ∧ 0 < b.capacity ∧
        ∀ data, RemoteAllowed c fd inputBuffer data →
          readBytes tr ++ data <+: Segments.stream segs tail →
          ∃ inputBuffer' calls, remoteStep c routerFd fd inputBuffer data =
            .ok (inputBuffer', (calls, .arrived)) := by
  obtain ⟨b, hd⟩ := Drained.run hnew hannounces.eleven_le hrun hstream
  obtain ⟨hcomplete, hemitted, hrest⟩ := hannounces.drain hstream
  have hlt : c.bufferSize < 2 ^ 32 := by
    have hsize := c.networkMtu_lt
    rw [NodeConfig.bufferSize]
    omega
  -- each call is the header and payload of a frame that was sent
  have hcall : ∀ f ∈ ((frameReader c.order).drain (readBytes tr)).1,
      frameBytes c.order (callOf c.order f).1.type (callOf c.order f).1.source
          (callOf c.order f).2 = f ∧
        (callOf c.order f).1.length.toNat = (callOf c.order f).2.length := by
    intro f hf
    obtain ⟨type, source, payload, rfl⟩ := (hemitted f hf).1.exists_frameBytes
    have hlength := (hemitted _ hf).2
    rw [length_frameBytes] at hlength
    rw [callOf_frameBytes]
    exact ⟨rfl, by simp; omega⟩
  refine ⟨?_, ?_, hd.arrived, b, hd.buffer, b.bufferTail_le, ?_, ?_⟩
  · rw [← hcomplete, hd.calls, List.map_map]
    exact (List.map_congr_left fun f hf => (hcall f hf).1).trans (List.map_id _)
  · intro call hmem
    rw [hd.calls] at hmem
    obtain ⟨f, hf, rfl⟩ := List.mem_map.1 hmem
    exact (hcall f hf).2
  · rw [← hd.window, b.length_window] at hrest
    rw [LocalBuffer.capacity]
    omega
  · intro data hallowed hstream'
    obtain ⟨inputBuffer', calls, -, hstep, -⟩ :=
      hd.step hallowed (hannounces.eleven_le _ hstream')
    exact ⟨inputBuffer', calls, hstep⟩

end Runs

/-- A node whose buffers have twenty bytes. -/
def smallNode : NodeConfig where
  order := .little
  networkMtu := 1
  malloc _ := 0
  heap := 0x10000
  networkMtu_pos := by decide
  networkMtu_lt := by decide

/-- Two frames behind a stray magic byte, in reads that end inside both. -/
theorem remote_calls_pieces :
    let f := frameBytes .little GNW_DATA 9 [0x41, 0x42]
    ∃ tr inputBuffer, RemoteRun smallNode 3 3 Table.empty tr inputBuffer ∧
      (callsMade tr).map (fun call => frameBytes .little call.1.type call.1.source call.2) =
        [f, f] := by
  intro f
  let segs : List (List UInt8 × List UInt8) := [([0x55], f), ([], f)]
  let stream := Segments.stream segs []
  let reads := [stream.take 7, (stream.drop 7).take 13, stream.drop 20]
  have hnoise : ∀ rest, NoMagic [] rest := fun rest u v huv hv => by simp_all
  have hstray : NoMagic [0x55] (f ++ Segments.stream [([], f)] []) := by
    intro u v huv hv
    cases u with
    | nil =>
      obtain rfl : v = [0x55] := huv.symm
      decide
    | cons x u => simp_all
  have hemitted : IsEmitted .little f := .inl ⟨9, [0x41, 0x42], by decide⟩
  have hannounces : Announces smallNode.order smallNode.bufferSize segs [] :=
    ⟨hstray, hemitted, by decide, hnoise _, hemitted, by decide, hnoise _⟩
  have hsim : (Machine.simulate (RemoteAllowed smallNode 3) (remoteStep smallNode 3 3) Table.empty
      reads).any (fun r => readBytes r.2 = stream) = true := by
    decide +kernel
  obtain ⟨tr, inputBuffer, hrun, hread⟩ := Machine.Run.exists_of_simulate hsim
  have hread : readBytes tr = stream := of_decide_eq_true hread
  have hcalls := (remote_calls rfl hannounces hrun (hread ▸ List.prefix_rfl)).1
  refine ⟨tr, inputBuffer, hrun, hcalls.trans ?_⟩
  rw [hread]
  decide
