-- SUMMARY: GraphWrap.c, handlePacket: what a node does with the frames it gets from the router.
import GraphIPC.Fault
import GraphIPC.Wire.Frame

/-!
# The packet handler of a node

A node in output mode prints the payload of data frames; another node passes it
on to a process it runs. Commands and replies may tell the node its address. The
processes of a node are a parameter here, with the handler of data frames for
them.
-/

/-- The state of a node that its packet handler works on. -/
structure NodeState (σ : Type) where
  argAddress : UInt32
  stdout : List UInt8
  sinks : σ

variable {σ : Type} (toSink : Header → List UInt8 → σ → Except Fault σ)

/-- `handleDataPacket` -/
def handleDataPacket (argEcho : Bool) (header : Header) (payload : List UInt8)
    (n : NodeState σ) : Except Fault (NodeState σ) := do
  if argEcho then
    return { n with stdout := n.stdout ++ payload.take header.length.toNat }
  return { n with sinks := ← toSink header payload n.sinks }

omit toSink in
/-- `handleCommandPacket`. A read behind the payload is a fault, also where the
    array it was copied to still has bytes that nobody has set. -/
def handleCommandPacket (order : ByteOrder) (header : Header) (payload : List UInt8)
    (n : NodeState σ) : Except Fault (NodeState σ) := do
  let (directive, next) ← readOr (packetReadU8 payload)
  if header.length < 1 then
    return n
  if directive = GNW_CMD_NEW_ADDRESS then
    let (address, _) ← readOr (packetReadU32 order next)
    -- a node that has an address takes the reply for one of an inner node
    if n.argAddress = 0 then
      return { n with argAddress := address }
    return n
  return n

/-- `handlePacket` -/
def nodeHandlePacket (order : ByteOrder) (argEcho : Bool) (header : Header)
    (payload : List UInt8) (n : NodeState σ) : Except Fault (NodeState σ) :=
  if header.type = GNW_DATA then handleDataPacket toSink argEcho header payload n
  else if header.type = GNW_COMMAND ∨ header.type = GNW_REPLY then
    handleCommandPacket order header payload n
  else .ok n

/-! ## What a frame changes -/

omit toSink in
/-- A command does not print or touch the sinks, and it leaves an address that is known. -/
theorem handleCommandPacket_ok {order : ByteOrder} {header : Header} {payload : List UInt8}
    {n n' : NodeState σ} (h : handleCommandPacket order header payload n = .ok n') :
    n'.stdout = n.stdout ∧ n'.sinks = n.sinks ∧
      (n.argAddress ≠ 0 → n'.argAddress = n.argAddress) := by
  simp only [handleCommandPacket, Except.bind_eq_ok_iff] at h
  obtain ⟨⟨directive, next⟩, -, h⟩ := h
  split at h
  · cases h
    exact ⟨rfl, rfl, fun _ => rfl⟩
  split at h
  · simp only [Except.bind_eq_ok_iff] at h
    obtain ⟨⟨address, rest⟩, -, h⟩ := h
    split at h
    · rename_i hzero
      cases h
      exact ⟨rfl, rfl, fun hne => absurd hzero hne⟩
    · cases h
      exact ⟨rfl, rfl, fun _ => rfl⟩
  · cases h
    exact ⟨rfl, rfl, fun _ => rfl⟩

/-- An address that is known stays. -/
theorem nodeHandlePacket_argAddress {order : ByteOrder} {argEcho : Bool} {header : Header}
    {payload : List UInt8} {n n' : NodeState σ}
    (h : nodeHandlePacket toSink order argEcho header payload n = .ok n')
    (hne : n.argAddress ≠ 0) : n'.argAddress = n.argAddress := by
  rw [nodeHandlePacket] at h
  split at h
  · rw [handleDataPacket] at h
    split at h
    · cases h
      rfl
    · simp only [Except.bind_eq_ok_iff] at h
      obtain ⟨sinks, -, h⟩ := h
      cases h
      rfl
  split at h
  · exact (handleCommandPacket_ok h).2.2 hne
  · cases h
    rfl

/-- Only a data frame is passed on to the sinks. -/
theorem nodeHandlePacket_sinks {order : ByteOrder} {argEcho : Bool} {header : Header}
    {payload : List UInt8} {n n' : NodeState σ}
    (h : nodeHandlePacket toSink order argEcho header payload n = .ok n') :
    n'.sinks = n.sinks ∨ toSink header payload n.sinks = .ok n'.sinks := by
  rw [nodeHandlePacket] at h
  split at h
  · rw [handleDataPacket] at h
    split at h
    · cases h
      exact .inl rfl
    · simp only [Except.bind_eq_ok_iff] at h
      obtain ⟨sinks, hsink, h⟩ := h
      cases h
      exact .inr hsink
  split at h
  · exact .inl (handleCommandPacket_ok h).2.1
  · cases h
    exact .inl rfl

/-- In output mode, exactly the payload of data frames is printed. -/
theorem nodeHandlePacket_stdout {order : ByteOrder} {header : Header} {payload : List UInt8}
    {n n' : NodeState σ} (h : nodeHandlePacket toSink order true header payload n = .ok n')
    (hlength : header.length.toNat = payload.length) :
    n'.stdout = n.stdout ++ if header.type = GNW_DATA then payload else [] := by
  rw [nodeHandlePacket] at h
  split at h
  · rename_i hdata
    cases h
    rw [if_pos hdata, hlength, List.take_length]
  rename_i hdata
  rw [if_neg hdata, List.append_nil]
  split at h
  · exact (handleCommandPacket_ok h).1
  · cases h
    rfl
