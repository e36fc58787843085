-- SUMMARY: What a node makes of a local stream: the stream cut in front of each delimiter, however it is read.
import GraphIPC.Base.Cut
import GraphIPC.Base.Machine
import GraphIPC.Node.HandleLocalData

/-!
# Local streams

As long as no read fills the buffer up, what `handleLocalData` sends of a local stream
and what it keeps are given by the stream alone: it is cut in front of each delimiter.
A read that fills the buffer up makes the node send it with the tail pointer for its
length, and the end of the stream throws away what was kept.
-/

/-- Whether a byte is the delimiter, as the loop compares them. -/
def isDelimiter (delimiter : Int) (byte : UInt8) : Bool := (byte.toNat : Int) = delimiter

/-- The reader whose frames are the pieces of a local stream. -/
abbrev localReader (delimiter : Int) : Reader UInt8 := cutReader (isDelimiter delimiter)

/-- A read of a local stream that is still there: the packets that are emitted. A read
    that would block has no data. -/
def localStep (c : NodeConfig) (source : UInt32) (delimiter fd : Int) (inputBuffer : InputBuffer c)
    (data : List UInt8) : Except Fault (InputBuffer c × List (List UInt8)) := do
  let (inputBuffer, read) ← handleLocalData c source delimiter fd false data inputBuffer
  return (inputBuffer, read.packets)

/-- The bytes that were read. -/
def bytesRead (tr : List (List UInt8 × List (List UInt8))) : List UInt8 :=
  (tr.map Prod.fst).flatten

/-- The packets that were emitted. -/
def packetsSent (tr : List (List UInt8 × List (List UInt8))) : List (List UInt8) :=
  (tr.map Prod.snd).flatten

section History

variable (tr : List (List UInt8 × List (List UInt8))) (data : List UInt8)
  (packets : List (List UInt8))

@[simp] theorem bytesRead_nil : bytesRead [] = [] := rfl

@[simp] theorem packetsSent_nil : packetsSent [] = [] := rfl

@[simp] theorem bytesRead_snoc : bytesRead (tr ++ [(data, packets)]) = bytesRead tr ++ data := by
  simp [bytesRead]

@[simp] theorem packetsSent_snoc :
    packetsSent (tr ++ [(data, packets)]) = packetsSent tr ++ packets := by
  simp [packetsSent]

end History

/-! ## The loop -/

section Loop

variable {c : NodeConfig} (source : UInt32) {delimiter : Int}

/-- Behind the head nothing was seen yet. -/
theorem seen_head {w : List UInt8} : ∀ x ∈ (w.take 1).tail, isDelimiter delimiter x = false := by
  intro x hx
  rw [← List.drop_one, List.drop_take, Nat.sub_self, List.take_zero] at hx
  cases hx

/-- A window without a delimiter behind its head is kept. -/
theorem drain_of_seen {w : List UInt8} {cursor : Nat} (hlength : w.length ≤ cursor)
    (hseen : ∀ x ∈ (w.take cursor).tail, isDelimiter delimiter x = false) :
    (localReader delimiter).drain w = ([], w) := by
  apply Reader.drain_of_wait
  apply cutReader_wait_iff.2
  rwa [List.take_of_length_le hlength] at hseen

/-- The loop drains the buffer: it goes on from a cursor up to which there is no
    delimiter but at the head. -/
theorem localLoop_eq_drain {fuel cursor : Nat} {b : LocalBuffer c.bufferSize} (hcursor : 0 < cursor)
    (hfuel : b.bufferTail ≤ fuel + cursor)
    (hseen : ∀ x ∈ (b.window.take cursor).tail, isDelimiter delimiter x = false) :
    ∃ b', localLoop c source delimiter fuel cursor b =
        .ok (b', ((localReader delimiter).drain b.window).1.map
          (frameBytes c.order GNW_DATA source)) ∧
      b'.window = ((localReader delimiter).drain b.window).2 := by
  induction fuel generalizing cursor b with
  | zero =>
    rw [drain_of_seen (by rw [b.length_window]; omega) hseen]
    exact ⟨b, rfl, rfl⟩
  | succ fuel ih =>
    unfold localLoop
    split
    · rename_i htail
      have hlength : cursor < b.window.length := by rwa [b.length_window]
      rw [b.getElem?_buffer htail, List.getElem?_eq_getElem hlength, readOr_some, Except.ok_bind]
      split
      · rename_i hbyte
        have htake : (localReader delimiter).next b.window = .take cursor :=
          cutReader_take_of hcursor hlength (decide_eq_true hbyte) hseen
        have hne : b.window.take cursor ≠ [] := by
          apply List.ne_nil_of_length_pos
          rw [List.length_take]
          omega
        have hfuel' : (b.shift cursor).bufferTail ≤ fuel + 1 := by
          simp only [LocalBuffer.shift]
          omega
        obtain ⟨b', hrest, hwindow⟩ := ih Nat.one_pos hfuel' seen_head
        rw [b.window_shift] at hrest hwindow
        rw [gnwEmitDataPacket_take c.order source (b.le_length_buffer htail.le),
          b.take_buffer htail.le, if_neg hne, (localReader delimiter).drain_of_take htake]
        simp only [Except.ok_bind, hrest]
        exact ⟨b', rfl, hwindow⟩
      · rename_i hbyte
        apply ih (Nat.succ_pos cursor) (by omega)
        intro x hx
        rw [List.take_succ_eq_append_getElem hlength, List.tail_append_of_ne_nil] at hx
        · rcases List.mem_append.1 hx with hx | hx
          · exact hseen x hx
          · rw [List.mem_singleton.1 hx]
            exact decide_eq_false hbyte
        · apply List.ne_nil_of_length_pos
          rw [List.length_take]
          omega
    · rename_i htail
      rw [drain_of_seen (by rwa [b.length_window, ← Nat.not_lt]) hseen]
      exact ⟨b, rfl, rfl⟩

/-- The loop drains the buffer from its head on: a delimiter there is stepped over. -/
theorem localLoop_head (delimiter : Int) (b : LocalBuffer c.bufferSize) :
    ∃ b', localLoop c source delimiter b.bufferTail 0 b =
        .ok (b', ((localReader delimiter).drain b.window).1.map
          (frameBytes c.order GNW_DATA source)) ∧
      b'.window = ((localReader delimiter).drain b.window).2 := by
  cases htail : b.bufferTail with
  | zero =>
    rw [drain_of_seen (by rw [b.length_window, htail]; omega) seen_head]
    exact ⟨b, rfl, rfl⟩
  | succ fuel =>
    have hlt : 0 < b.bufferTail := by omega
    have hlength : 0 < b.window.length := by rwa [b.length_window]
    unfold localLoop
    rw [if_pos hlt, b.getElem?_buffer hlt, List.getElem?_eq_getElem hlength, readOr_some,
      Except.ok_bind]
    split
    · have hshift : (b.shift 0).window = b.window := by rw [b.window_shift, List.drop_zero]
      have hfuel : (b.shift 0).bufferTail ≤ fuel + 1 := by
        simp only [LocalBuffer.shift]
        omega
      obtain ⟨b', hrest, hwindow⟩ :=
        localLoop_eq_drain source Nat.one_pos hfuel seen_head
      rw [hshift] at hrest hwindow
      simp only [gnwEmitDataPacket, if_true, Except.pure_eq_ok, Except.ok_bind]
      rw [hrest]
      exact ⟨b', rfl, hwindow⟩
    · exact localLoop_eq_drain source Nat.one_pos (by omega) seen_head

/-- A read that leaves room for an MTU: what was kept is drained with what arrived. -/
theorem sendLocal_eq_drain (delimiter : Int) {b : LocalBuffer c.bufferSize} {data : List UInt8}
    (hroom : b.bufferTail + data.length + c.networkMtu ≤ c.bufferSize) :
    ∃ b', sendLocal c source delimiter b data =
        .ok (b', ((localReader delimiter).drain (b.window ++ data)).1.map
          (frameBytes c.order GNW_DATA source)) ∧
      b'.window = ((localReader delimiter).drain (b.window ++ data)).2 := by
  have hfits : b.bufferTail + data.length ≤ c.bufferSize := by omega
  have hcalm : ¬Emergency c b data := by
    unfold Emergency
    omega
  obtain ⟨b', hloop, hwindow⟩ :=
    localLoop_head source delimiter (b.append data hfits)
  rw [b.window_append data hfits] at hloop hwindow
  refine ⟨b', ?_, hwindow⟩
  rw [sendLocal, dif_pos hfits, if_neg hcalm]
  exact hloop

variable {source}

/-- A read that does not leave it: if the node survives, it has sent as many bytes
    as the tail pointer tells, and keeps none. -/
theorem sendLocal_of_full {b b' : LocalBuffer c.bufferSize} {data : List UInt8}
    {packets : List (List UInt8)}
    (hfull : ¬b.bufferTail + data.length + c.networkMtu ≤ c.bufferSize)
    (h : sendLocal c source delimiter b data = .ok (b', packets)) :
    b'.window = [] ∧ ∃ piece : List UInt8,
      piece.length = c.heap + (b.bufferTail + data.length) ∧ piece.length ≤ c.bufferSize ∧
      packets = [frameBytes c.order GNW_DATA source piece] := by
  unfold sendLocal at h
  split at h
  · rename_i hfits
    have hemergency : Emergency c b data := by
      unfold Emergency
      omega
    rw [if_pos hemergency, Except.bind_eq_ok_iff] at h
    obtain ⟨packet, hemit, h⟩ := h
    have hle := gnwEmitDataPacket_le hemit
    have hpos : 0 < b.bufferTail + data.length := by
      have hmtu := c.networkMtu_pos
      simp only [NodeConfig.bufferSize] at hfull
      omega
    have hlength : ((b.append data hfits).buffer.take
        (c.heap + (b.append data hfits).bufferTail)).length =
          c.heap + (b.bufferTail + data.length) := List.length_take_of_le hle
    rw [gnwEmitDataPacket_take c.order source hle,
      if_neg (List.ne_nil_of_length_pos (by omega))] at hemit
    cases hemit
    cases h
    rw [(b.append data hfits).length_buffer] at hle
    exact ⟨rfl, _, hlength, hlength.trans_le hle, rfl⟩
  · cases h

end Loop

/-! ## Reads -/

section Step

variable {c : NodeConfig} (source : UInt32) (delimiter : Int) {fd : Int}
  {inputBuffer : InputBuffer c} {b : LocalBuffer c.bufferSize} (hb : inputBuffer.bufferFor fd = some b)
include hb

/-- A read without data changes nothing. -/
theorem localStep_nil :
    ∃ inputBuffer', localStep c source delimiter fd inputBuffer [] = .ok (inputBuffer', []) ∧
      inputBuffer'.bufferFor fd = some b := by
  refine ⟨(getLocalBuffer c fd inputBuffer).1, ?_, ?_⟩
  · rw [localStep, handleLocalData, getLocalBuffer_of_bufferFor hb]
    rfl
  · rw [bufferFor_getLocalBuffer, hb]

/-- A read with data is sent, and the rest is the buffer's. -/
theorem localStep_eq_send {data : List UInt8} (hdata : data ≠ []) :
    localStep c source delimiter fd inputBuffer data =
      sendLocal c source delimiter b data >>= fun r =>
        .ok ((getLocalBuffer c fd inputBuffer).1.set fd (some r.1), r.2) := by
  have hlength : ¬data.length < 1 := by
    have hpos := List.length_pos_iff.2 hdata
    omega
  rw [localStep, handleLocalData, getLocalBuffer_of_bufferFor hb]
  simp only [if_neg hlength]
  cases sendLocal c source delimiter b data <;> rfl

/-- A read that leaves room for an MTU. -/
theorem localStep_eq_drain {data : List UInt8} (hdata : data ≠ [])
    (hroom : b.bufferTail + data.length + c.networkMtu ≤ c.bufferSize) :
    ∃ inputBuffer' b', localStep c source delimiter fd inputBuffer data =
        .ok (inputBuffer', ((localReader delimiter).drain (b.window ++ data)).1.map
          (frameBytes c.order GNW_DATA source)) ∧
      inputBuffer'.bufferFor fd = some b' ∧
      b'.window = ((localReader delimiter).drain (b.window ++ data)).2 := by
  obtain ⟨b', hsend, hwindow⟩ := sendLocal_eq_drain source delimiter hroom
  refine ⟨(getLocalBuffer c fd inputBuffer).1.set fd (some b'), b', ?_,
    InputBuffer.bufferFor_set .., hwindow⟩
  rw [localStep_eq_send source delimiter hb hdata, hsend, Except.ok_bind]

variable {source delimiter}

/-- A read that does not leave it, and the node survives. -/
theorem localStep_of_full {data : List UInt8} {inputBuffer' : InputBuffer c}
    {packets : List (List UInt8)} (hdata : data ≠ [])
    (hfull : ¬b.bufferTail + data.length + c.networkMtu ≤ c.bufferSize)
    (h : localStep c source delimiter fd inputBuffer data = .ok (inputBuffer', packets)) :
    (∃ b', inputBuffer'.bufferFor fd = some b' ∧ b'.window = []) ∧ ∃ piece : List UInt8,
      piece.length = c.heap + (b.bufferTail + data.length) ∧ piece.length ≤ c.bufferSize ∧
      packets = [frameBytes c.order GNW_DATA source piece] := by
  rw [localStep_eq_send _ _ hb hdata, Except.bind_eq_ok_iff] at h
  obtain ⟨⟨b', packets'⟩, hsend, h⟩ := h
  cases h
  obtain ⟨hwindow, hpiece⟩ := sendLocal_of_full hfull hsend
  exact ⟨⟨b', InputBuffer.bufferFor_set .., hwindow⟩, hpiece⟩

end Step

/-! ## Runs -/

/-- What the node has made of the stream that it read at `fd`. -/
structure LocalCut (c : NodeConfig) (source : UInt32) (delimiter fd : Int)
    (tr : List (List UInt8 × List (List UInt8))) (inputBuffer : InputBuffer c)
    (stream : List UInt8) : Prop where
  read : bytesRead tr = stream
  packets : packetsSent tr =
    ((localReader delimiter).drain stream).1.map (frameBytes c.order GNW_DATA source)
  bounds : ∀ piece ∈ ((localReader delimiter).drain stream).1, piece.length ≤ c.bufferSize
  buffer : ∃ b, inputBuffer.bufferFor fd = some b ∧
    b.window = ((localReader delimiter).drain stream).2

namespace LocalCut

variable {c : NodeConfig} {source : UInt32} {delimiter fd : Int} {inputBuffer : InputBuffer c}
  {tr : List (List UInt8 × List (List UInt8))} {stream : List UInt8}

/-- A descriptor that nothing was read from. -/
theorem init (hnew : inputBuffer fd = none) :
    LocalCut c source delimiter fd [] inputBuffer [] := by
  have hdrain : (localReader delimiter).drain [] = ([], []) := Reader.drain_of_wait _ rfl
  refine ⟨rfl, by rw [hdrain]; rfl, by simp [hdrain], c.newBuffer, ?_, by rw [hdrain]; rfl⟩
  exact inputBuffer.bufferFor_of_none hnew

variable (h : LocalCut c source delimiter fd tr inputBuffer stream)
include h

/-- The bytes that are kept are those from the last delimiter on. -/
theorem exists_buffer : ∃ b, inputBuffer.bufferFor fd = some b ∧
    b.window = fromLast (isDelimiter delimiter) stream := by
  obtain ⟨b, hb, hwindow⟩ := h.buffer
  exact ⟨b, hb, hwindow.trans (drain_cutReader_snd stream)⟩

/-- A read that leaves room for an MTU. -/
theorem step {data : List UInt8}
    (hroom : data ≠ [] → (fromLast (isDelimiter delimiter) stream).length + data.length +
      c.networkMtu ≤ c.bufferSize) :
    ∃ inputBuffer' packets,
      localStep c source delimiter fd inputBuffer data = .ok (inputBuffer', packets) ∧
      LocalCut c source delimiter fd (tr ++ [(data, packets)]) inputBuffer' (stream ++ data) := by
  obtain ⟨b, hb, hwindow⟩ := h.buffer
  by_cases hdata : data = []
  · subst hdata
    obtain ⟨inputBuffer', hstep, hb'⟩ :=
      localStep_nil source delimiter hb
    refine ⟨inputBuffer', [], hstep, ?_⟩
    rw [List.append_nil]
    exact ⟨by simp [h.read], by simp [h.packets], h.bounds, b, hb', hwindow⟩
  · have hroom := hroom hdata
    rw [← drain_cutReader_snd, ← hwindow, b.length_window] at hroom
    obtain ⟨inputBuffer', b', hstep, hb', hwindow'⟩ :=
      localStep_eq_drain source delimiter hb hdata hroom
    have happend := (localReader delimiter).drain_append stream data
    rw [← hwindow] at happend
    refine ⟨inputBuffer', _, hstep, ?_, ?_, ?_, b', hb', ?_⟩
    · rw [bytesRead_snoc, h.read]
    · rw [packetsSent_snoc, h.packets, happend, List.map_append]
    · intro piece hpiece
      rw [happend] at hpiece
      rcases List.mem_append.1 hpiece with hpiece | hpiece
      · exact h.bounds piece hpiece
      · have hle := (localReader delimiter).length_le_of_mem_drain hpiece
        rw [List.length_append, b.length_window] at hle
        omega
    · rw [hwindow', happend]

end LocalCut
