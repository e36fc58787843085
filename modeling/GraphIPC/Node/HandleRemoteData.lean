-- SUMMARY: GraphWrap.c, handleRemoteData: the frames of the router taken out of the buffer, one call of the packet handler each.
import GraphIPC.Node.LocalBuffer
import GraphIPC.Wire.GraphNetwork

/-!
# Data from the router

After every read from its router connection, a node takes all frames that are
complete off the front of the buffer and passes them to its packet handler. The
handler is a parameter here: it works on the rest of the state of the node and
does not touch the buffer.
-/

variable {σ : Type}

/-- Copy `length` bytes to an array of `size` bytes. -/
def copyPayload (size : Nat) (ptr : List UInt8) (length : Nat) : Except Fault (List UInt8) :=
  if length ≤ size ∧ length ≤ ptr.length then .ok (ptr.take length) else .error .outOfBounds

/-- The loop of `handleRemoteData`. Each round takes at least one byte off the
    buffer. -/
def remoteLoop (c : NodeConfig) (handlePacket : Header → List UInt8 → σ → Except Fault σ) :
    (fuel : Nat) → LocalBuffer c.bufferSize → σ → Except Fault (LocalBuffer c.bufferSize × σ)
  | 0, buffer, s => .ok (buffer, s)
  | fuel + 1, buffer, s =>
    let readyBytes := gnwNextPacket c.order buffer.window
    if readyBytes = 0 then .ok (buffer, s)
    else if readyBytes < 0 then remoteLoop c handlePacket fuel (buffer.shift 1) s
    else do
      let (header, ptr) ← gnwParseHeader false c.order buffer.buffer
      -- the size of the array is computed in 32 bits
      let size := (11 + header.length).toNat
      let payload ← copyPayload size ptr header.length.toNat
      let buffer := buffer.shift size
      let s ← handlePacket header payload s
      remoteLoop c handlePacket fuel buffer s

/-- What a call of `handleRemoteData` found. -/
inductive Received where
  /-- The connection is closed, and the node shuts down if it was the router's. -/
  | closed (shutdown : Bool)
  /-- Bytes arrived. -/
  | arrived
  deriving DecidableEq, Repr

/-- `handleRemoteData`. A failed read and the end of the stream have no data, and
    so has a read to a null pointer. -/
def handleRemoteData (c : NodeConfig)
    (handlePacket : Header → List UInt8 → σ → Except Fault σ) (routerFd fd : Int)
    (data : List UInt8) (inputBuffer : InputBuffer c) (s : σ) :
    Except Fault (InputBuffer c × σ × Received) :=
  let (inputBuffer, buffer) := getLocalBuffer c fd inputBuffer
  match buffer with
  | none => .ok (destroyLocalBuffer c fd inputBuffer, s, .closed (fd = routerFd))
  | some buffer =>
    if data.length < 1 then
      .ok (destroyLocalBuffer c fd inputBuffer, s, .closed (fd = routerFd))
    else if hfits : buffer.bufferTail + data.length ≤ c.bufferSize then do
      let buffer := buffer.append data hfits
      let (buffer, s) ← remoteLoop c handlePacket buffer.bufferTail buffer s
      return (inputBuffer.set fd (some buffer), s, .arrived)
    else .error .outOfBounds

/-- A node shuts down just if the connection that is closed is the router's. -/
theorem handleRemoteData_closed {c : NodeConfig}
    {handlePacket : Header → List UInt8 → σ → Except Fault σ} {routerFd fd : Int}
    {data : List UInt8} {inputBuffer inputBuffer' : InputBuffer c} {s s' : σ} {shutdown : Bool}
    (h : handleRemoteData c handlePacket routerFd fd data inputBuffer s =
      .ok (inputBuffer', s', .closed shutdown)) : shutdown = decide (fd = routerFd) := by
  simp only [handleRemoteData] at h
  split at h
  · cases h
    rfl
  split at h
  · cases h
    rfl
  split at h
  · simp only [Except.bind_eq_ok_iff] at h
    obtain ⟨⟨buffer, s₁⟩, -, h⟩ := h
    cases h
  · cases h

/-! ## What the handler keeps -/

/-- What every call of the packet handler keeps is kept by the loop. -/
theorem remoteLoop_preserves {c : NodeConfig}
    {handlePacket : Header → List UInt8 → σ → Except Fault σ} {P : σ → Prop}
    (hP : ∀ header payload s s', handlePacket header payload s = .ok s' → P s → P s')
    {fuel : Nat} {buffer buffer' : LocalBuffer c.bufferSize} {s s' : σ}
    (h : remoteLoop c handlePacket fuel buffer s = .ok (buffer', s')) (hs : P s) : P s' := by
  induction fuel generalizing buffer s with
  | zero =>
    cases h
    exact hs
  | succ fuel ih =>
    simp only [remoteLoop] at h
    split at h
    · cases h
      exact hs
    split at h
    · exact ih h hs
    · simp only [Except.bind_eq_ok_iff] at h
      obtain ⟨⟨header, ptr⟩, -, payload, -, s₁, hhandle, h⟩ := h
      exact ih h (hP header payload s s₁ hhandle hs)

/-- What every call of the packet handler keeps is kept by a read, and so are the
    buffers of the other descriptors. -/
theorem handleRemoteData_preserves {c : NodeConfig}
    {handlePacket : Header → List UInt8 → σ → Except Fault σ} {P : σ → Prop}
    (hP : ∀ header payload s s', handlePacket header payload s = .ok s' → P s → P s')
    {routerFd fd : Int} {data : List UInt8} {inputBuffer inputBuffer' : InputBuffer c} {s s' : σ}
    {received : Received}
    (h : handleRemoteData c handlePacket routerFd fd data inputBuffer s =
      .ok (inputBuffer', s', received)) :
    (P s → P s') ∧
      ∀ fd', fd' ≠ fd → inputBuffer'.bufferFor fd' = inputBuffer.bufferFor fd' := by
  simp only [handleRemoteData] at h
  have hget := bufferFor_getLocalBuffer inputBuffer fd
  split at h
  · cases h
    exact ⟨id, fun fd' hne => (destroyLocalBuffer_of_ne _ hne).trans (hget fd')⟩
  split at h
  · cases h
    exact ⟨id, fun fd' hne => (destroyLocalBuffer_of_ne _ hne).trans (hget fd')⟩
  split at h
  · simp only [Except.bind_eq_ok_iff] at h
    obtain ⟨⟨buffer, s₁⟩, hloop, h⟩ := h
    cases h
    exact ⟨remoteLoop_preserves hP hloop,
      fun fd' hne => (InputBuffer.bufferFor_set_of_ne _ hne _).trans (hget fd')⟩
  · cases h
