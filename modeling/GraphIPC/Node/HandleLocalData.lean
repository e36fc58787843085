-- SUMMARY: GraphWrap.c, handleLocalData: what is read locally, cut before each delimiter and sent to the router.
import GraphIPC.Node.LocalBuffer
import GraphIPC.Wire.Frame

/-!
# Local data

What a node reads from a local stream is collected in a buffer. Whenever a
delimiter follows, what lies in front of it is sent to the router as one data
frame; the delimiter stays and starts the next piece. A buffer that is almost
full is sent at once.
-/

/-- The loop of `handleLocalData`, from `cursor` on: the packets that are
    emitted. Each round brings the cursor one byte closer to the tail. -/
def localLoop (c : NodeConfig) (source : UInt32) (delimiter : Int) :
    (fuel cursor : Nat) → LocalBuffer c.bufferSize →
    Except Fault (LocalBuffer c.bufferSize × List (List UInt8))
  | 0, _, buffer => .ok (buffer, [])
  | fuel + 1, cursor, buffer =>
    if cursor < buffer.bufferTail then do
      let byte ← readOr buffer.buffer[cursor]?
      -- a byte is compared with a `char`
      if byte.toNat = delimiter then
        let packet ← gnwEmitDataPacket c.order source buffer.buffer cursor
        assertThat false (cursor ≤ c.bufferSize)
          "Cursor blew off the end of the local buffer!"
        let (buffer, packets) ← localLoop c source delimiter fuel 1 (buffer.shift cursor)
        return (buffer, packet.toList ++ packets)
      else localLoop c source delimiter fuel (cursor + 1) buffer
    else .ok (buffer, [])

/-- The tail moved back to the head. -/
def LocalBuffer.clear {size : Nat} (b : LocalBuffer size) : LocalBuffer size where
  buffer := b.buffer
  bufferTail := 0
  length_buffer := b.length_buffer
  bufferTail_le := Nat.zero_le _

/-- What is left of the buffer after `data` was read is less than the MTU. -/
def Emergency (c : NodeConfig) (b : LocalBuffer c.bufferSize) (data : List UInt8) : Prop :=
  c.bufferSize - (b.bufferTail + data.length) < c.networkMtu

instance (c : NodeConfig) (b : LocalBuffer c.bufferSize) (data : List UInt8) :
    Decidable (Emergency c b data) := inferInstanceAs (Decidable (_ < _))

/-- The part of `handleLocalData` that follows a read that returned `data`: the
    packets that are emitted. -/
def sendLocal (c : NodeConfig) (source : UInt32) (delimiter : Int)
    (buffer : LocalBuffer c.bufferSize) (data : List UInt8) :
    Except Fault (LocalBuffer c.bufferSize × List (List UInt8)) :=
  if hfits : buffer.bufferTail + data.length ≤ c.bufferSize then
    if Emergency c buffer data then do
      let buffer := buffer.append data hfits
      -- the tail pointer is passed for the length
      let packet ←
        gnwEmitDataPacket c.order source buffer.buffer (c.heap + buffer.bufferTail)
      return (buffer.clear, packet.toList)
    else
      let buffer := buffer.append data hfits
      localLoop c source delimiter buffer.bufferTail 0 buffer
  else .error .outOfBounds

def STDIN_FILENO : Int := 0

/-- What a call of `handleLocalData` came to. -/
inductive LocalRead where
  /-- The stream is gone, and the node shuts down if it was the standard input. -/
  | closed (shutdown : Bool)
  | nothing
  | sent (packets : List (List UInt8))
  deriving DecidableEq, Repr

/-- The packets a read of local data has sent. -/
def LocalRead.packets : LocalRead → List (List UInt8)
  | .sent packets => packets
  | _ => []

/-- `handleLocalData`, but for the table of processes. A failed read and the end
    of the stream have no data, and so has a read to a null pointer; `gone` tells
    whether the events or the descriptor show that the stream is closed. -/
def handleLocalData (c : NodeConfig) (source : UInt32) (delimiter : Int) (fd : Int) (gone : Bool)
    (data : List UInt8) (inputBuffer : InputBuffer c) :
    Except Fault (InputBuffer c × LocalRead) :=
  let (inputBuffer, buffer) := getLocalBuffer c fd inputBuffer
  let failed : InputBuffer c × LocalRead :=
    if gone then (destroyLocalBuffer c fd inputBuffer, .closed (fd = STDIN_FILENO))
    else (inputBuffer, .nothing)
  match buffer with
  | none => .ok failed
  | some buffer =>
    if data.length < 1 then .ok failed
    else do
      let (buffer, packets) ← sendLocal c source delimiter buffer data
      return (inputBuffer.set fd (some buffer), .sent packets)

/-- A node shuts down just if the stream that is closed is its standard input. -/
theorem handleLocalData_closed {c : NodeConfig} {source : UInt32} {delimiter fd : Int} {gone : Bool}
    {data : List UInt8} {inputBuffer inputBuffer' : InputBuffer c} {shutdown : Bool}
    (h : handleLocalData c source delimiter fd gone data inputBuffer =
      .ok (inputBuffer', .closed shutdown)) : shutdown = decide (fd = STDIN_FILENO) := by
  have hfailed : ∀ inputBuffer₁ : InputBuffer c,
      (.ok (if gone then (destroyLocalBuffer c fd inputBuffer₁, LocalRead.closed (fd = STDIN_FILENO))
        else (inputBuffer₁, LocalRead.nothing)) : Except Fault (InputBuffer c × LocalRead)) =
        .ok (inputBuffer', .closed shutdown) → shutdown = decide (fd = STDIN_FILENO) := by
    intro inputBuffer₁ hfailed
    split at hfailed
    · cases hfailed
      rfl
    · cases hfailed
  simp only [handleLocalData] at h
  split at h
  · exact hfailed _ h
  split at h
  · exact hfailed _ h
  · simp only [Except.bind_eq_ok_iff] at h
    obtain ⟨⟨buffer, packets⟩, -, h⟩ := h
    cases h

/-- A read leaves the buffers of other descriptors alone. -/
theorem handleLocalData_bufferFor {c : NodeConfig} {source : UInt32} {delimiter fd fd' : Int}
    {gone : Bool} {data : List UInt8} {inputBuffer inputBuffer' : InputBuffer c} {read : LocalRead}
    (h : handleLocalData c source delimiter fd gone data inputBuffer = .ok (inputBuffer', read))
    (hne : fd' ≠ fd) : inputBuffer'.bufferFor fd' = inputBuffer.bufferFor fd' := by
  have hget := bufferFor_getLocalBuffer inputBuffer fd fd'
  have hfailed : (.ok (if gone then
        (destroyLocalBuffer c fd (getLocalBuffer c fd inputBuffer).1,
          LocalRead.closed (fd = STDIN_FILENO))
      else ((getLocalBuffer c fd inputBuffer).1, LocalRead.nothing)) :
        Except Fault (InputBuffer c × LocalRead)) = .ok (inputBuffer', read) →
      inputBuffer'.bufferFor fd' = inputBuffer.bufferFor fd' := by
    intro hfailed
    split at hfailed
    · cases hfailed
      exact (destroyLocalBuffer_of_ne _ hne).trans hget
    · cases hfailed
      exact hget
  simp only [handleLocalData] at h
  split at h
  · exact hfailed h
  split at h
  · exact hfailed h
  · simp only [Except.bind_eq_ok_iff] at h
    obtain ⟨⟨buffer, packets⟩, -, h⟩ := h
    cases h
    exact (InputBuffer.bufferFor_set_of_ne _ hne _).trans hget

/-! ## The pieces -/

/-- The pieces that `packets` carry, none of them empty or longer than the
    buffer. -/
structure Pieces (c : NodeConfig) (source : UInt32) (packets pieces : List (List UInt8)) : Prop where
  packets : packets = pieces.map (frameBytes c.order GNW_DATA source)
  bounds : ∀ piece ∈ pieces, piece ≠ [] ∧ piece.length ≤ c.bufferSize

theorem Pieces.nil (c : NodeConfig) (source : UInt32) : Pieces c source [] [] :=
  ⟨rfl, fun _ h => by cases h⟩

/-- The loop sends the buffer piece by piece, and keeps the last one. -/
theorem localLoop_pieces {c : NodeConfig} {source : UInt32} {delimiter : Int} {fuel cursor : Nat}
    {b b' : LocalBuffer c.bufferSize} {packets : List (List UInt8)}
    (h : localLoop c source delimiter fuel cursor b = .ok (b', packets)) :
    ∃ pieces, Pieces c source packets pieces ∧ pieces.flatten ++ b'.window = b.window := by
  induction fuel generalizing cursor b packets with
  | zero =>
    cases h
    exact ⟨[], Pieces.nil c source, rfl⟩
  | succ fuel ih =>
    rw [localLoop] at h
    split at h
    · rename_i hcursor
      simp only [Except.bind_eq_ok_iff] at h
      obtain ⟨byte, -, h⟩ := h
      split at h
      · simp only [Except.bind_eq_ok_iff] at h
        obtain ⟨packet, hemit, -, -, ⟨b₁, packets₁⟩, hrest, h⟩ := h
        cases h
        obtain ⟨pieces, hpieces, hflatten⟩ := ih hrest
        have hlength : (b.window.take cursor).length ≤ c.bufferSize :=
          (List.length_take_le _ _).trans (hcursor.le.trans b.bufferTail_le)
        rw [b.window_shift] at hflatten
        rw [gnwEmitDataPacket_take c.order source (b.le_length_buffer hcursor.le),
          b.take_buffer hcursor.le] at hemit
        cases hemit
        split
        · rename_i hempty
          refine ⟨pieces, by simpa using hpieces, ?_⟩
          rw [hflatten]
          conv_rhs => rw [← List.take_append_drop cursor b.window, hempty, List.nil_append]
        · rename_i hne
          refine ⟨b.window.take cursor :: pieces, ⟨?_, ?_⟩, ?_⟩
          · simp [hpieces.packets]
          · intro piece hmem
            rcases List.mem_cons.1 hmem with rfl | hmem
            · exact ⟨hne, hlength⟩
            · exact hpieces.bounds piece hmem
          · rw [List.flatten_cons, List.append_assoc, hflatten, List.take_append_drop]
      · exact ih h
    · cases h
      exact ⟨[], Pieces.nil c source, rfl⟩

/-- Away from the emergency, what is sent and what is kept make up what was there
    and what was read. -/
theorem sendLocal_pieces {c : NodeConfig} {source : UInt32} {delimiter : Int}
    {b b' : LocalBuffer c.bufferSize} {data : List UInt8} {packets : List (List UInt8)}
    (h : sendLocal c source delimiter b data = .ok (b', packets)) (hcalm : ¬Emergency c b data) :
    ∃ pieces, Pieces c source packets pieces ∧
      pieces.flatten ++ b'.window = b.window ++ data := by
  by_cases hfits : b.bufferTail + data.length ≤ c.bufferSize
  · simp only [sendLocal, dif_pos hfits, if_neg hcalm] at h
    rw [← b.window_append data hfits]
    exact localLoop_pieces h
  · rw [sendLocal, dif_neg hfits] at h
    cases h

/-- A read of local data, away from the emergency. -/
theorem handleLocalData_pieces {c : NodeConfig} {source : UInt32} {delimiter fd : Int} {gone : Bool}
    {data : List UInt8} {inputBuffer inputBuffer' : InputBuffer c} {b : LocalBuffer c.bufferSize}
    {read : LocalRead}
    (h : handleLocalData c source delimiter fd gone data inputBuffer = .ok (inputBuffer', read))
    (hb : inputBuffer.bufferFor fd = some b) (hdata : 0 < data.length)
    (hcalm : ¬Emergency c b data) :
    ∃ packets pieces b', read = .sent packets ∧ Pieces c source packets pieces ∧
      inputBuffer'.bufferFor fd = some b' ∧ pieces.flatten ++ b'.window = b.window ++ data := by
  rw [handleLocalData, getLocalBuffer_of_bufferFor hb] at h
  simp only at h
  rw [if_neg (by omega), Except.bind_eq_ok_iff] at h
  obtain ⟨⟨b', packets⟩, hsend, h⟩ := h
  cases h
  obtain ⟨pieces, hpieces, hflatten⟩ := sendLocal_pieces hsend hcalm
  exact ⟨packets, pieces, b', rfl, hpieces, InputBuffer.bufferFor_set .., hflatten⟩
