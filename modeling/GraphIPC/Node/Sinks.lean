-- SUMMARY: GraphWrap.c, autoSpawn, applyDeMuxPolicy and handleDataPacket: the processes a node runs and what they are given.
import GraphIPC.Node.HandleLocalData
import GraphIPC.Node.HandlePacket
import Mathlib.Data.List.AList

/-!
# The sinks of a node

A node that does not print its data runs processes, its sinks. A data packet is
written to the standard input of the sink that `sinkTable` has for its address; if
there is none, one is started. Its standard output is watched, and when that is
closed the sink is taken out of the table. The hash table is taken as a finite map
whose entries are visited in some order, and `fork` as one that does not fail.
-/

/-- `DEMUX_NOOP`, `DEMUX_SPAWN` and `DEMUX_MERGE` -/
inductive DemuxMode where
  | noop
  | spawn
  | merge
  deriving DecidableEq, Repr

/-- The two descriptors of a pipe, `PIPE_READ` and `PIPE_WRITE`. -/
structure Pipe where
  read : Int
  write : Int
  deriving DecidableEq, Repr

/-- `sink_context_t`, without the address, which is never set, and the counters of what
    was sent, which never change. -/
structure SinkContext where
  pid : Int
  wrapStdin : Pipe
  wrapStdout : Pipe
  packetsIn : UInt64
  bytesIn : UInt64
  deriving DecidableEq, Repr

/-- What the kernel answers: the pipe that the `n`-th call of `pipe` makes while
    the descriptors `opened` are open, and the process that the fork after it makes. -/
structure Kernel where
  pipe : (n : Nat) → (opened : List Int) → Option Pipe
  fork : (n : Nat) → Int

/-- What the sinks of a node depend on. -/
structure SinkConfig extends NodeConfig where
  demuxMode : DemuxMode
  gnwLocalMask : UInt32
  kernel : Kernel

/-- What is seen of a node from outside. -/
inductive SinkAction where
  /-- A frame is sent to the router. -/
  | request (frame : List UInt8)
  /-- A process is started. -/
  | spawn (address : UInt32) (context : SinkContext)
  /-- Bytes are written to a descriptor. -/
  | write (fd : Int) (data : List UInt8)
  deriving DecidableEq, Repr

/-- The table of sinks, with the descriptors that are watched and those that are
    open, the number of calls of `pipe` so far, and what the node did, oldest first. -/
structure Sinks where
  sinkTable : AList fun _ : UInt32 => SinkContext
  streamFd : List Int
  nextLocalAddress : UInt32
  opened : List Int
  calls : Nat
  actions : List SinkAction

/-- `IGNORE_FD`, a free slot of `stream_fd`. -/
def IGNORE_FD : Int := -1

/-- `addNewWatch`. The search for a free slot does not stop at the last. -/
def addNewWatch (fd : Int) (streamFd : List Int) : Except Fault (List Int) :=
  match streamFd.findIdx? fun slot => slot = IGNORE_FD with
  | some index => .ok (streamFd.set index fd)
  | none => .error .outOfBounds

/-- `getNextLocalAddress`: the address is claimed at the router, whose answer is
    not waited for. -/
def getNextLocalAddress (c : SinkConfig) (argAddress : UInt32) (s : Sinks) :
    Except Fault (Sinks × UInt32) := do
  let nextLocalAddress := (s.nextLocalAddress + 1) &&& c.gnwLocalMask
  let realAddress :=
    (nextLocalAddress &&& c.gnwLocalMask) ||| (argAddress &&& ~~~c.gnwLocalMask)
  let ptr : Cursor := ⟨List.replicate 5 0, 0⟩
  let ptr := packetWriteU8 ptr GNW_CMD_NEW_ADDRESS
  let ptr := packetWriteU32 c.order ptr realAddress
  let frame ← gnwEmitCommandPacket c.order GNW_COMMAND ptr.block 5
  return ({ s with nextLocalAddress, actions := s.actions ++ [.request frame] }, realAddress)

/-- `pipe`, after which `autoSpawn` gives up if there is none. -/
def openPipe (c : SinkConfig) (message : String) (s : Sinks) : Except Fault (Sinks × Pipe) :=
  match c.kernel.pipe s.calls s.opened with
  | none => .error (.exit message)
  | some pipe =>
    .ok ({ s with opened := pipe.read :: pipe.write :: s.opened, calls := s.calls + 1 }, pipe)

/-- `close` -/
def Sinks.close (s : Sinks) (fd : Int) : Sinks := { s with opened := s.opened.erase fd }

/-- `autoSpawn`, as the parent goes on. -/
def autoSpawn (c : SinkConfig) (address : UInt32) (s : Sinks) : Except Fault Sinks := do
  let (s, wrapStdin) ← openPipe c "Could not create wrapper for subprocess stdin" s
  let (s, wrapStdout) ← openPipe c "Could not create wrapper for subprocess stdout" s
  let context : SinkContext :=
    { pid := c.kernel.fork s.calls, wrapStdin, wrapStdout
      packetsIn := 0, bytesIn := 0 }
  let s := (s.close wrapStdin.read).close wrapStdout.write
  let streamFd ← addNewWatch wrapStdout.read s.streamFd
  return { s with
    sinkTable := s.sinkTable.insert address context
    streamFd
    actions := s.actions ++ [.spawn address context] }

/-- `applyDeMuxPolicy`: the address under which the sink of a packet is looked up
    again. -/
def applyDeMuxPolicy (c : SinkConfig) (argAddress address : UInt32) (s : Sinks) :
    Except Fault (Sinks × UInt32) := do
  let address := if c.demuxMode = .merge then argAddress else address
  match s.sinkTable.lookup address with
  | some _ => return (s, address)
  | none =>
    let (s, address) ←
      if c.demuxMode = .spawn then getNextLocalAddress c argAddress s else pure (s, address)
    let s ← autoSpawn c address s
    return (s, address)

/-- The part of `handleDataPacket` that follows if the node does not print. -/
def writeToSink (c : SinkConfig) (argAddress : UInt32) (header : Header) (payload : List UInt8)
    (s : Sinks) : Except Fault Sinks := do
  let (s, source) ← applyDeMuxPolicy c argAddress header.source s
  match s.sinkTable.lookup source with
  | none => return s
  | some context =>
    let data ← if header.length.toNat ≤ payload.length then
        pure (payload.take header.length.toNat) else throw .outOfBounds
    let context := { context with
      packetsIn := context.packetsIn + 1
      bytesIn := context.bytesIn + header.length.toUInt64 }
    return { s with
      sinkTable := s.sinkTable.insert source context
      actions := s.actions ++ [.write context.wrapStdin.write data] }

/-- The part of `handleLocalData` that takes the sink out whose output is at `fd`. -/
def closeSink (fd : Int) (s : Sinks) : Sinks :=
  match s.sinkTable.entries.find? fun entry => entry.2.wrapStdout.read = fd with
  | some entry => { s with sinkTable := s.sinkTable.erase entry.1 }
  | none => s

/-- Only the table changes when a sink is gone. -/
theorem closeSink_eq (fd : Int) (s : Sinks) :
    closeSink fd s = { s with sinkTable := (closeSink fd s).sinkTable } := by
  unfold closeSink
  split <;> rfl

/-! ## Starting a process -/

/-- Every call of `pipe` succeeds, with two descriptors that are not in use. -/
def Kernel.Fresh (kernel : Kernel) : Prop :=
  ∀ n opened, ∃ pipe, kernel.pipe n opened = some pipe ∧ 0 ≤ pipe.read ∧ 0 ≤ pipe.write ∧
    pipe.read ∉ opened ∧ pipe.write ∉ opened ∧ pipe.read ≠ pipe.write

/-- The lowest descriptor from `fd` on that is not in use. -/
def lowestFree : (rounds : Nat) → (opened : List Int) → (fd : Int) → Int
  | 0, _, fd => fd
  | rounds + 1, opened, fd =>
    if fd ∈ opened then lowestFree rounds (opened.erase fd) (fd + 1) else fd

theorem lowestFree_not_mem {rounds : Nat} {opened : List Int} (h : opened.length ≤ rounds)
    (fd : Int) : lowestFree rounds opened fd ∉ opened ∧ fd ≤ lowestFree rounds opened fd := by
  induction rounds generalizing opened fd with
  | zero =>
    obtain rfl : opened = [] := List.length_eq_zero_iff.1 (Nat.le_zero.1 h)
    exact ⟨List.not_mem_nil, le_refl fd⟩
  | succ rounds ih =>
    unfold lowestFree
    split
    · rename_i hused
      have hlength := List.length_erase_of_mem hused
      obtain ⟨hfree, hle⟩ := @ih (opened.erase fd) (by omega) (fd + 1)
      refine ⟨fun hmem => hfree ?_, by omega⟩
      rwa [List.mem_erase_of_ne (by omega)]
    · rename_i hfree
      exact ⟨hfree, le_refl fd⟩

/-- A kernel that hands out the lowest descriptors that are free. -/
def lowestKernel : Kernel where
  pipe _ opened :=
    let read := lowestFree opened.length opened 0
    some ⟨read, lowestFree (opened.length + 1) (read :: opened) 0⟩
  fork n := 100 + n

theorem lowestKernel_fresh : lowestKernel.Fresh := by
  intro n opened
  obtain ⟨hread, hpos⟩ := lowestFree_not_mem (le_refl opened.length) 0
  have hlength : (lowestFree opened.length opened 0 :: opened).length ≤ opened.length + 1 :=
    le_refl _
  obtain ⟨hwrite, hpos'⟩ := lowestFree_not_mem hlength 0
  obtain ⟨hne, hwrite⟩ := not_or.1 (List.mem_cons.not.1 hwrite)
  exact ⟨_, rfl, hpos, hpos', hread, hwrite, Ne.symm hne⟩

/-- The number of descriptors that can still be watched. -/
def Sinks.freeSlots (s : Sinks) : Nat := s.streamFd.count IGNORE_FD

/-- A new watch takes one free slot. -/
theorem addNewWatch_of_mem {streamFd : List Int} {fd : Int} (h : IGNORE_FD ∈ streamFd)
    (hfd : 0 ≤ fd) :
    ∃ streamFd', addNewWatch fd streamFd = .ok streamFd' ∧
      streamFd'.count IGNORE_FD + 1 = streamFd.count IGNORE_FD := by
  unfold addNewWatch
  cases hfind : streamFd.findIdx? fun slot => decide (slot = IGNORE_FD) with
  | none =>
    rw [List.findIdx?_eq_none_iff] at hfind
    simpa using hfind IGNORE_FD h
  | some index =>
    refine ⟨streamFd.set index fd, rfl, ?_⟩
    obtain ⟨hindex, hslot, -⟩ := List.findIdx?_eq_some_iff_getElem.1 hfind
    have hslot : streamFd[index] = IGNORE_FD := by simpa using hslot
    have hne : fd ≠ IGNORE_FD := by
      unfold IGNORE_FD
      omega
    have hcount := List.count_pos_iff.2 h
    rw [List.count_set hindex, hslot]
    simp [hne]
    omega

/-- Without a free slot the search runs past the last one. -/
theorem addNewWatch_of_not_mem {streamFd : List Int} (h : IGNORE_FD ∉ streamFd) (fd : Int) :
    addNewWatch fd streamFd = .error .outOfBounds := by
  unfold addNewWatch
  have hfind : (streamFd.findIdx? fun slot => decide (slot = IGNORE_FD)) = none := by
    rw [List.findIdx?_eq_none_iff]
    intro slot hslot
    have hne : slot ≠ IGNORE_FD := fun heq => h (heq ▸ hslot)
    simpa using hne
  rw [hfind]

/-- A new watch is put into a free slot. -/
theorem addNewWatch_ok {streamFd streamFd' : List Int} {fd : Int}
    (h : addNewWatch fd streamFd = .ok streamFd') :
    ∃ index, streamFd[index]? = some IGNORE_FD ∧ streamFd' = streamFd.set index fd := by
  unfold addNewWatch at h
  split at h
  · rename_i index hfind
    cases h
    obtain ⟨hindex, hslot, -⟩ := List.findIdx?_eq_some_iff_getElem.1 hfind
    exact ⟨index, List.getElem?_eq_some_iff.2 ⟨hindex, by simpa using hslot⟩, rfl⟩
  · cases h

/-- A pipe changes neither the table nor what is watched. -/
theorem openPipe_ok {c : SinkConfig} {message : String} {s s' : Sinks} {pipe : Pipe}
    (h : openPipe c message s = .ok (s', pipe)) :
    s'.sinkTable = s.sinkTable ∧ s'.streamFd = s.streamFd ∧
      s'.nextLocalAddress = s.nextLocalAddress ∧ s'.actions = s.actions := by
  unfold openPipe at h
  split at h
  · cases h
  · cases h
    exact ⟨rfl, rfl, rfl, rfl⟩

/-- A process that is started is put into the table, and its output is watched. -/
theorem autoSpawn_ok {c : SinkConfig} {address : UInt32} {s s' : Sinks}
    (h : autoSpawn c address s = .ok s') :
    ∃ context, s'.sinkTable = s.sinkTable.insert address context ∧
      addNewWatch context.wrapStdout.read s.streamFd = .ok s'.streamFd ∧
      s'.nextLocalAddress = s.nextLocalAddress ∧
      s'.actions = s.actions ++ [.spawn address context] := by
  simp only [autoSpawn, Except.bind_eq_ok_iff] at h
  obtain ⟨⟨s₁, wrapStdin⟩, hstdin, ⟨s₂, wrapStdout⟩, hstdout, streamFd, hwatch, h⟩ := h
  obtain ⟨htable₁, hstreams₁, hnext₁, hactions₁⟩ := openPipe_ok hstdin
  obtain ⟨htable₂, hstreams₂, hnext₂, hactions₂⟩ := openPipe_ok hstdout
  cases h
  rw [← htable₁, ← htable₂, ← hstreams₁, ← hstreams₂, ← hactions₁, ← hactions₂]
  exact ⟨_, rfl, hwatch, hnext₂.trans hnext₁, rfl⟩

/-- What `autoSpawn` does with the answers of a kernel that has descriptors left. -/
structure Spawned (address : UInt32) (s s' : Sinks) (context : SinkContext) : Prop where
  sinkTable : s'.sinkTable = s.sinkTable.insert address context
  nextLocalAddress : s'.nextLocalAddress = s.nextLocalAddress
  actions : s'.actions = s.actions ++ [.spawn address context]
  freeSlots : s'.freeSlots + 1 = s.freeSlots
  packetsIn : context.packetsIn = 0
  bytesIn : context.bytesIn = 0
  stdin_fresh : context.wrapStdin.write ∉ s.opened
  stdout_fresh : context.wrapStdout.read ∉ s.opened
  stdin_opened : context.wrapStdin.write ∈ s'.opened
  stdout_opened : context.wrapStdout.read ∈ s'.opened
  opened : ∀ fd ∈ s.opened, fd ∈ s'.opened

theorem autoSpawn_spawned {c : SinkConfig} (hkernel : c.kernel.Fresh) {s : Sinks}
    (hslot : 0 < s.freeSlots) (address : UInt32) :
    ∃ s' context, autoSpawn c address s = .ok s' ∧ Spawned address s s' context := by
  obtain ⟨wrapStdin, hstdin, -, -, hread, hwrite, hne⟩ := hkernel s.calls s.opened
  obtain ⟨wrapStdout, hstdout, hpos, -, hread', hwrite', hne'⟩ :=
    hkernel (s.calls + 1) (wrapStdin.read :: wrapStdin.write :: s.opened)
  simp only [List.mem_cons, not_or] at hread' hwrite'
  obtain ⟨streamFd, hwatch, hcount⟩ := addNewWatch_of_mem (List.count_pos_iff.1 hslot) hpos
  let context : SinkContext :=
    { pid := c.kernel.fork (s.calls + 1 + 1), wrapStdin, wrapStdout
      packetsIn := 0, bytesIn := 0 }
  let opened := wrapStdout.read :: wrapStdout.write :: wrapStdin.read :: wrapStdin.write :: s.opened
  let s' : Sinks := { s with
    sinkTable := s.sinkTable.insert address context
    streamFd
    opened := (opened.erase wrapStdin.read).erase wrapStdout.write
    calls := s.calls + 1 + 1
    actions := s.actions ++ [.spawn address context] }
  have hkeep : ∀ fd ∈ opened, fd ≠ wrapStdin.read → fd ≠ wrapStdout.write → fd ∈ s'.opened := by
    intro fd hmem hread hwrite
    show fd ∈ (opened.erase wrapStdin.read).erase wrapStdout.write
    rw [List.mem_erase_of_ne hwrite, List.mem_erase_of_ne hread]
    exact hmem
  refine ⟨s', context, ?_, rfl, rfl, rfl, hcount, rfl, rfl, hwrite, hread'.2.2, ?_, ?_,
    fun fd hfd => ?_⟩
  · simp only [autoSpawn, openPipe, hstdin, hstdout, Except.ok_bind, Sinks.close, hwatch]
    rfl
  · exact hkeep _ (by simp [opened, context]) hne.symm (Ne.symm hwrite'.2.1)
  · exact hkeep _ (by simp [opened, context]) hread'.1 hne'
  · have hread₁ : fd ≠ wrapStdin.read := fun heq => hread (heq ▸ hfd)
    have hwrite₁ : fd ≠ wrapStdout.write := fun heq => hwrite'.2.2 (heq ▸ hfd)
    exact hkeep fd (by simp [opened, hfd]) hread₁ hwrite₁

/-- No process is started that could not be watched. -/
theorem autoSpawn_error {c : SinkConfig} (hkernel : c.kernel.Fresh) {s : Sinks}
    (hslot : s.freeSlots = 0) (address : UInt32) :
    autoSpawn c address s = .error .outOfBounds := by
  obtain ⟨wrapStdin, hstdin, -⟩ := hkernel s.calls s.opened
  obtain ⟨wrapStdout, hstdout, -⟩ :=
    hkernel (s.calls + 1) (wrapStdin.read :: wrapStdin.write :: s.opened)
  have hnone : IGNORE_FD ∉ s.streamFd := List.count_eq_zero.1 hslot
  simp only [autoSpawn, openPipe, hstdin, hstdout, Except.ok_bind, Sinks.close,
    addNewWatch_of_not_mem hnone, Except.error_bind]

/-- What `autoSpawn` has done if it returns. -/
theorem autoSpawn_inv {c : SinkConfig} (hkernel : c.kernel.Fresh) {address : UInt32} {s s' : Sinks}
    (h : autoSpawn c address s = .ok s') :
    ∃ context, Spawned address s s' context ∧
      addNewWatch context.wrapStdout.read s.streamFd = .ok s'.streamFd := by
  cases hslots : s.freeSlots with
  | zero =>
    rw [autoSpawn_error hkernel hslots] at h
    cases h
  | succ slots =>
    obtain ⟨s₁, context, hspawn, hspawned⟩ :=
      autoSpawn_spawned hkernel (by omega : 0 < s.freeSlots) address
    rw [h] at hspawn
    cases hspawn
    obtain ⟨context', htable, hwatch, -⟩ := autoSpawn_ok h
    have hsame : some context' = some context := by
      rw [← AList.lookup_insert s.sinkTable, ← htable, hspawned.sinkTable, AList.lookup_insert]
    cases hsame
    exact ⟨context, hspawned, hwatch⟩

/-! ## A data packet -/

/-- The local address that `getNextLocalAddress` hands out as its `next`-th. -/
def SinkConfig.localAddress (c : SinkConfig) (argAddress next : UInt32) : UInt32 :=
  (next &&& c.gnwLocalMask) ||| (argAddress &&& ~~~c.gnwLocalMask)

/-- The request for an address. -/
def claimBytes (order : ByteOrder) (address : UInt32) : List UInt8 :=
  GNW_CMD_NEW_ADDRESS :: u32Bytes order address

@[simp] theorem length_claimBytes (order : ByteOrder) (address : UInt32) :
    (claimBytes order address).length = 5 := rfl

/-- The bytes that the request is built from. -/
theorem packetWrite_claimBytes (order : ByteOrder) (address : UInt32) :
    (packetWriteU32 order (packetWriteU8 ⟨List.replicate 5 0, 0⟩ GNW_CMD_NEW_ADDRESS)
      address).block = claimBytes order address := by
  rw [packetWriteU32, packetWriteU8, Cursor.put_put (Nat.zero_le _)]
  exact Memory.store_all rfl

/-- The request is sent. -/
theorem gnwEmitCommandPacket_claimBytes (order : ByteOrder) (address : UInt32) :
    gnwEmitCommandPacket order GNW_COMMAND (packetWriteU32 order
        (packetWriteU8 ⟨List.replicate 5 0, 0⟩ GNW_CMD_NEW_ADDRESS) address).block 5 =
      .ok (frameBytes order GNW_COMMAND 0xFFFFFFFF (claimBytes order address)) := by
  rw [packetWrite_claimBytes]
  exact gnwEmitCommandPacket_eq order GNW_COMMAND (claimBytes order address)

theorem getNextLocalAddress_eq (c : SinkConfig) (argAddress : UInt32) (s : Sinks) :
    let next := (s.nextLocalAddress + 1) &&& c.gnwLocalMask
    let realAddress := c.localAddress argAddress next
    getNextLocalAddress c argAddress s = .ok ({ s with
      nextLocalAddress := next
      actions := s.actions ++
        [.request (frameBytes c.order GNW_COMMAND 0xFFFFFFFF (claimBytes c.order realAddress))] },
      realAddress) := by
  intro next realAddress
  exact congrArg (fun r : Except Fault (List UInt8) => r >>= _)
    (gnwEmitCommandPacket_claimBytes c.order realAddress)

/-- The address under which the sink of a packet is looked up first. -/
def SinkConfig.demuxAddress (c : SinkConfig) (argAddress source : UInt32) : UInt32 :=
  if c.demuxMode = .merge then argAddress else source

/-- A context after a packet of `length` bytes. -/
def SinkContext.count (context : SinkContext) (length : UInt32) : SinkContext :=
  { context with
    packetsIn := context.packetsIn + 1
    bytesIn := context.bytesIn + length.toUInt64 }

/-- The payload of a packet is written to the sink at `address`. -/
def Sinks.deliver (s : Sinks) (address : UInt32) (context : SinkContext) (length : UInt32)
    (payload : List UInt8) : Sinks :=
  { s with
    sinkTable := s.sinkTable.insert address (context.count length)
    actions := s.actions ++ [.write context.wrapStdin.write payload] }

section Packet

variable {c : SinkConfig} {argAddress : UInt32} {header : Header} {payload : List UInt8} {s : Sinks}

/-- A packet whose sink is there starts nothing. -/
theorem writeToSink_known (hlength : header.length.toNat = payload.length) {context : SinkContext}
    (h : s.sinkTable.lookup (c.demuxAddress argAddress header.source) = some context) :
    writeToSink c argAddress header payload s =
      .ok (s.deliver (c.demuxAddress argAddress header.source) context header.length payload) := by
  have happly : applyDeMuxPolicy c argAddress header.source s =
      .ok (s, c.demuxAddress argAddress header.source) := by
    unfold SinkConfig.demuxAddress at h ⊢
    simp only [applyDeMuxPolicy, h]
    rfl
  unfold writeToSink
  rw [happly, Except.ok_bind]
  dsimp only
  rw [h]
  dsimp only
  rw [if_pos (le_of_eq hlength), hlength, List.take_length]
  rfl

/-- What happens to a packet after its sink was started. -/
theorem writeToSink_of_apply (hlength : header.length.toNat = payload.length) {s₀ s₁ : Sinks}
    {address : UInt32} {context : SinkContext}
    (happly : applyDeMuxPolicy c argAddress header.source s = .ok (s₁, address))
    (hspawned : Spawned address s₀ s₁ context) :
    writeToSink c argAddress header payload s =
      .ok (s₁.deliver address context header.length payload) := by
  have hlookup : s₁.sinkTable.lookup address = some context := by
    rw [hspawned.sinkTable, AList.lookup_insert]
  unfold writeToSink
  rw [happly, Except.ok_bind]
  dsimp only
  rw [hlookup]
  dsimp only
  rw [if_pos (le_of_eq hlength), hlength, List.take_length]
  rfl

variable (hkernel : c.kernel.Fresh)
  (hnone : s.sinkTable.lookup (c.demuxAddress argAddress header.source) = none)
include hkernel hnone

/-- A packet whose sink is not there starts one at the address it was looked up
    under. -/
theorem writeToSink_new (hlength : header.length.toNat = payload.length)
    (hmode : c.demuxMode ≠ .spawn) (hslot : 0 < s.freeSlots) :
    ∃ s' context, Spawned (c.demuxAddress argAddress header.source) s s' context ∧
      writeToSink c argAddress header payload s =
        .ok (s'.deliver (c.demuxAddress argAddress header.source) context header.length
          payload) := by
  obtain ⟨s', context, hspawn, hspawned⟩ :=
    autoSpawn_spawned hkernel hslot (c.demuxAddress argAddress header.source)
  refine ⟨s', context, hspawned, writeToSink_of_apply hlength ?_ hspawned⟩
  unfold SinkConfig.demuxAddress at hnone hspawn ⊢
  simp only [applyDeMuxPolicy, hnone, if_neg hmode, Except.pure_eq_ok, Except.ok_bind, hspawn]

/-- In the mode `spawn` it starts one at the next local address. -/
theorem writeToSink_new_spawn (hlength : header.length.toNat = payload.length)
    (hmode : c.demuxMode = .spawn) (hslot : 0 < s.freeSlots) :
    let next := (s.nextLocalAddress + 1) &&& c.gnwLocalMask
    let realAddress := c.localAddress argAddress next
    ∃ frame s' context,
      autoSpawn c realAddress { s with
        nextLocalAddress := next
        actions := s.actions ++ [.request frame] } = .ok s' ∧
      Spawned realAddress { s with
        nextLocalAddress := next
        actions := s.actions ++ [.request frame] } s' context ∧
      writeToSink c argAddress header payload s =
        .ok (s'.deliver realAddress context header.length payload) := by
  intro next realAddress
  have hnext := getNextLocalAddress_eq c argAddress s
  obtain ⟨s', context, hspawn, hspawned⟩ := autoSpawn_spawned hkernel
    (s := { s with
      nextLocalAddress := next
      actions := s.actions ++
        [.request (frameBytes c.order GNW_COMMAND 0xFFFFFFFF (claimBytes c.order realAddress))] })
    hslot realAddress
  refine ⟨_, s', context, hspawn, hspawned, writeToSink_of_apply hlength ?_ hspawned⟩
  unfold SinkConfig.demuxAddress at hnone
  simp only [applyDeMuxPolicy, hnone, if_pos hmode, hnext, Except.ok_bind]
  exact congrArg (fun r : Except Fault Sinks => r >>= fun s => pure (s, realAddress)) hspawn

/-- No sink is started that could not be watched. -/
theorem writeToSink_full (hslot : s.freeSlots = 0) :
    writeToSink c argAddress header payload s = .error .outOfBounds := by
  have happly : applyDeMuxPolicy c argAddress header.source s = .error .outOfBounds := by
    unfold SinkConfig.demuxAddress at hnone
    simp only [applyDeMuxPolicy, hnone]
    by_cases hmode : c.demuxMode = .spawn
    · simp only [if_pos hmode, getNextLocalAddress_eq c argAddress s, Except.ok_bind]
      rw [autoSpawn_error hkernel (by exact hslot)]
      rfl
    · simp only [if_neg hmode, Except.pure_eq_ok, Except.ok_bind, autoSpawn_error hkernel hslot]
      rfl
  unfold writeToSink
  rw [happly]
  rfl

end Packet

/-- What a data packet does to the descriptors: nothing, unless it starts a sink. -/
theorem writeToSink_cases {c : SinkConfig} {argAddress : UInt32} {header : Header}
    {payload : List UInt8} {s s' : Sinks} (h : writeToSink c argAddress header payload s = .ok s') :
    (s'.streamFd = s.streamFd ∧ s'.opened = s.opened) ∨
      ∃ address s₀ s₁, s₀.streamFd = s.streamFd ∧ s₀.opened = s.opened ∧
        autoSpawn c address s₀ = .ok s₁ ∧ s'.streamFd = s₁.streamFd ∧ s'.opened = s₁.opened := by
  simp only [writeToSink, Except.bind_eq_ok_iff] at h
  obtain ⟨⟨s₁, source⟩, happly, h⟩ := h
  have hafter : s'.streamFd = s₁.streamFd ∧ s'.opened = s₁.opened := by
    dsimp only at h
    split at h
    · cases h
      exact ⟨rfl, rfl⟩
    · split at h
      · cases h
        exact ⟨rfl, rfl⟩
      · cases h
  simp only [applyDeMuxPolicy] at happly
  split at happly
  · cases happly
    exact .inl hafter
  right
  split at happly
  · rw [getNextLocalAddress_eq c argAddress s, Except.ok_bind, Except.bind_eq_ok_iff] at happly
    obtain ⟨s₂, hspawn, happly⟩ := happly
    cases happly
    refine ⟨_, _, s₁, ?_, ?_, hspawn, hafter⟩ <;> rfl
  · simp only [Except.pure_eq_ok, Except.ok_bind, Except.bind_eq_ok_iff] at happly
    obtain ⟨s₂, hspawn, happly⟩ := happly
    cases happly
    exact ⟨_, s, s₁, rfl, rfl, hspawn, hafter⟩

/-! ## What a node receives -/

/-- A data packet, which carries as many bytes as its header can declare. -/
structure DataPacket where
  source : UInt32
  payload : List UInt8
  length_lt : payload.length < 2 ^ 32

def DataPacket.header (packet : DataPacket) : Header :=
  { magic := GNW_MAGIC, version := GNW_VERSION, type := GNW_DATA, source := packet.source
    length := UInt32.ofNat packet.payload.length }

@[simp] theorem DataPacket.header_type (packet : DataPacket) : packet.header.type = GNW_DATA := rfl

@[simp] theorem DataPacket.header_source (packet : DataPacket) :
    packet.header.source = packet.source := rfl

theorem DataPacket.header_length (packet : DataPacket) :
    packet.header.length.toNat = packet.payload.length := by
  have hlt := packet.length_lt
  rw [header, UInt32.toNat_ofNat_of_lt' hlt]

/-- A packet from the router: data, or the answer to a request for an address. -/
inductive Incoming where
  | data (packet : DataPacket)
  | reply (address : UInt32)

/-- The call of `handlePacket` in a node that does not print, with what the node
    does meanwhile. -/
def receive (c : SinkConfig) (n : NodeState Sinks) (i : Incoming) :
    Except Fault (NodeState Sinks × List SinkAction) := do
  let toSink := writeToSink c n.argAddress
  let n ← match i with
    | .data packet => nodeHandlePacket toSink c.order false packet.header packet.payload n
    | .reply address =>
      nodeHandlePacket toSink c.order false ⟨GNW_MAGIC, GNW_VERSION, GNW_REPLY, 0xFFFFFFFF, 5⟩
        (claimBytes c.order address) n
  return ({ n with sinks := { n.sinks with actions := [] } }, n.sinks.actions)

/-- How a node is started, as far as its sinks depend on it. -/
structure SinkStart where
  argAddress : UInt32
  argImmediate : Bool
  routerFd : Int
  streamFd : List Int
  opened : List Int

/-- The node at the beginning of the loop of `main`. -/
def SinkStart.node (start : SinkStart) (c : SinkConfig) :
    Except Fault (NodeState Sinks × List SinkAction) := do
  let s : Sinks :=
    { sinkTable := ∅, streamFd := start.streamFd, nextLocalAddress := 0, opened := start.opened
      calls := 0, actions := [] }
  let s ← if start.argImmediate then autoSpawn c start.argAddress s else pure s
  return (⟨start.argAddress, [], { s with actions := [] }⟩, s.actions)

section Receive

variable {c : SinkConfig} {n : NodeState Sinks}

/-- A data packet is passed on to the sinks. -/
theorem receive_data {packet : DataPacket} {s : Sinks}
    (h : writeToSink c n.argAddress packet.header packet.payload n.sinks = .ok s) :
    receive c n (.data packet) =
      .ok ({ n with sinks := { s with actions := [] } }, s.actions) := by
  have hpacket : nodeHandlePacket (writeToSink c n.argAddress) c.order false packet.header
      packet.payload n = .ok { n with sinks := s } := by
    rw [nodeHandlePacket, if_pos packet.header_type, handleDataPacket, h]
    rfl
  simp only [receive, hpacket]
  rfl

theorem receive_data_error {packet : DataPacket} {e : Fault}
    (h : writeToSink c n.argAddress packet.header packet.payload n.sinks = .error e) :
    receive c n (.data packet) = .error e := by
  have hpacket : nodeHandlePacket (writeToSink c n.argAddress) c.order false packet.header
      packet.payload n = .error e := by
    rw [nodeHandlePacket, if_pos packet.header_type, handleDataPacket, h]
    rfl
  simp only [receive, hpacket]
  rfl

/-- A reply is the address of the node if it has none. -/
theorem receive_reply (address : UInt32) :
    receive c n (.reply address) =
      .ok ({ n with
        argAddress := if n.argAddress = 0 then address else n.argAddress
        sinks := { n.sinks with actions := [] } }, n.sinks.actions) := by
  have hread : packetReadU32 c.order (u32Bytes c.order address) = some (address, []) := by
    simpa using packetReadU32_u32Bytes c.order address []
  have hpacket : nodeHandlePacket (writeToSink c n.argAddress) c.order false
      ⟨GNW_MAGIC, GNW_VERSION, GNW_REPLY, 0xFFFFFFFF, 5⟩ (claimBytes c.order address) n =
        .ok { n with argAddress := if n.argAddress = 0 then address else n.argAddress } := by
    rw [nodeHandlePacket, if_neg types_distinct.2.2, if_pos (.inr rfl), handleCommandPacket,
      claimBytes, packetReadU8_cons, readOr_some, Except.ok_bind]
    dsimp only
    rw [if_neg (by decide), if_pos rfl, hread, readOr_some, Except.ok_bind]
    split <;> rfl
  simp only [receive, hpacket]
  rfl

end Receive
