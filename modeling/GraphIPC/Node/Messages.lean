-- SUMMARY: The messages of a local stream: what is conserved, that reads do not matter, the delimiter, the end.
import GraphIPC.Node.LocalStream
import GraphIPC.Node.Remote

/-!
# The messages of a local stream

While the buffer has room, no byte of a local stream is lost and its messages do not
depend on the reads. Three things go wrong. A read that fills the buffer up is sent with
a pointer for its length. A delimiter from 0x80 on is a negative `char` and compares
with no byte. What the buffer holds at the end of the stream is freed with it.
-/

section Messages

variable {c : NodeConfig} {source : UInt32} {delimiter fd : Int}

/-! ## Conservation -/

/-- What was sent and what is kept make up what was read, and no piece that was sent
    is longer than the buffer. -/
def Conserved (c : NodeConfig) (source : UInt32) (fd : Int)
    (tr : List (List UInt8 × List (List UInt8))) (inputBuffer : InputBuffer c) : Prop :=
  ∃ pieces b, Pieces c source (packetsSent tr) pieces ∧ inputBuffer.bufferFor fd = some b ∧
    pieces.flatten ++ b.window = bytesRead tr

/-- The bytes of the stream that are still kept and those of a read leave room for an
    MTU in the buffer. -/
def Room (c : NodeConfig) (delimiter : Int) (stream data : List UInt8) : Prop :=
  data ≠ [] → (fromLast (isDelimiter delimiter) stream).length + data.length + c.networkMtu ≤
    c.bufferSize

theorem LocalCut.pieces {tr : List (List UInt8 × List (List UInt8))} {inputBuffer : InputBuffer c}
    {stream : List UInt8} (h : LocalCut c source delimiter fd tr inputBuffer stream) :
    Pieces c source (packetsSent tr) ((localReader delimiter).drain stream).1 :=
  ⟨h.packets, fun piece hpiece => ⟨Reader.ne_nil_of_mem_drain _ hpiece, h.bounds piece hpiece⟩⟩

theorem LocalCut.flatten (delimiter : Int) (stream : List UInt8) :
    ((localReader delimiter).drain stream).1.flatten ++ ((localReader delimiter).drain stream).2 =
      stream := Reader.flatten_drain cutReader_ne_skip stream

theorem LocalCut.conserved {tr : List (List UInt8 × List (List UInt8))}
    {inputBuffer : InputBuffer c} {stream : List UInt8}
    (h : LocalCut c source delimiter fd tr inputBuffer stream) :
    Conserved c source fd tr inputBuffer := by
  obtain ⟨b, hb, hwindow⟩ := h.buffer
  refine ⟨_, b, h.pieces, hb, ?_⟩
  rw [hwindow, LocalCut.flatten, h.read]

/-- A read that leaves room is carried out, and the stream is cut further. -/
theorem LocalCut.follows (tr : List (List UInt8 × List (List UInt8))) (inputBuffer : InputBuffer c)
    (stream data : List UInt8) (h : LocalCut c source delimiter fd tr inputBuffer stream)
    (hroom : Room c delimiter stream data) :
    ∃ inputBuffer' packets,
      localStep c source delimiter fd inputBuffer data = .ok (inputBuffer', packets) ∧
        LocalCut c source delimiter fd (tr ++ [(data, packets)]) inputBuffer' (stream ++ data) :=
  h.step hroom

/-- A read that leaves no room sends more than there is. -/
theorem LocalCut.not_conserved {tr : List (List UInt8 × List (List UInt8))}
    {inputBuffer inputBuffer' : InputBuffer c} {stream data : List UInt8}
    {packets : List (List UInt8)} (hheap : 0 < c.heap)
    (h : LocalCut c source delimiter fd tr inputBuffer stream)
    (hroom : ¬Room c delimiter stream data)
    (hstep : localStep c source delimiter fd inputBuffer data = .ok (inputBuffer', packets)) :
    ¬Conserved c source fd (tr ++ [(data, packets)]) inputBuffer' := by
  rintro ⟨pieces, b', hpieces, hb', hflatten⟩
  obtain ⟨b, hb, hwindow⟩ := h.buffer
  obtain ⟨hdata, hfull⟩ := Classical.not_imp.1 hroom
  rw [← drain_cutReader_snd, ← hwindow, b.length_window] at hfull
  obtain ⟨⟨b₁, hb₁, hempty⟩, piece, hlength, -, rfl⟩ := localStep_of_full hb hdata hfull hstep
  have hsame : pieces = ((localReader delimiter).drain stream).1 ++ [piece] := by
    apply List.map_injective_iff.2 (frameBytes_injective c.order GNW_DATA source)
    rw [← hpieces.packets, packetsSent_snoc, h.packets, List.map_append]
    rfl
  obtain rfl : b₁ = b' := Option.some.inj (hb₁.symm.trans hb')
  have hread := congrArg List.length hflatten
  have hstream := congrArg List.length (LocalCut.flatten delimiter stream)
  rw [hsame, hempty, bytesRead_snoc, h.read] at hread
  rw [← hwindow] at hstream
  simp only [List.length_append, List.flatten_append, List.flatten_cons, List.flatten_nil,
    List.length_nil, b.length_window] at hread hstream
  omega

theorem foldl_append_eq (stream : List UInt8) (reads : List (List UInt8)) :
    reads.foldl (fun stream data => stream ++ data) stream = stream ++ reads.flatten := by
  induction reads generalizing stream with
  | nil => simp
  | cons data reads ih => rw [List.foldl_cons, ih, List.flatten_cons, List.append_assoc]

/-- All along the reads of a stream every byte is either sent or kept, in order, just if
    every read leaves room for an MTU. -/
theorem conserved_iff_room (hheap : 0 < c.heap) {inputBuffer : InputBuffer c}
    (hnew : inputBuffer fd = none) (reads : List (List UInt8)) :
    (∀ pre post, reads = pre ++ post → ∃ inputBuffer' tr,
      Machine.exec (localStep c source delimiter fd) inputBuffer pre = .ok (inputBuffer', tr) ∧
        Conserved c source fd tr inputBuffer') ↔
      ∀ pre data post, reads = pre ++ data :: post → Room c delimiter pre.flatten data := by
  have holds : ∀ tr s stream, LocalCut c source delimiter fd tr s stream →
      Conserved c source fd tr s := fun tr s stream h => h.conserved
  have spoils : ∀ tr s stream data s' packets, LocalCut c source delimiter fd tr s stream →
      ¬Room c delimiter stream data →
        localStep c source delimiter fd s data = .ok (s', packets) →
          ¬Conserved c source fd (tr ++ [(data, packets)]) s' :=
    fun tr s stream data s' packets h hroom hstep => h.not_conserved hheap hroom hstep
  have hrule := Machine.exec_always_iff [] reads LocalCut.follows holds spoils (LocalCut.init hnew)
  simpa only [foldl_append_eq, List.nil_append] using hrule

/-- A first read that fills the buffer: the node reads far behind it. -/
theorem conserved_fails :
    ¬∀ pre post, [List.replicate 20 (0x41 : UInt8)] = pre ++ post → ∃ inputBuffer' tr,
      Machine.exec (localStep smallNode 9 10 0) Table.empty pre = .ok (inputBuffer', tr) ∧
        Conserved smallNode 9 0 tr inputBuffer' := by
  intro h
  obtain ⟨inputBuffer', tr, hexec, -⟩ := h [List.replicate 20 0x41] [] rfl
  have hfault : (Machine.exec (localStep smallNode 9 10 0) Table.empty
      [List.replicate 20 0x41]).errorOf = some .outOfBounds := by
    decide +kernel
  rw [hexec] at hfault
  cases hfault

/-- Three reads that end inside messages. -/
theorem conserved_small :
    ∃ inputBuffer' tr, Machine.exec (localStep smallNode 9 10 0) Table.empty
        [[0x41, 0x0A], [0x42], [0x43, 0x0A, 0x0A]] = .ok (inputBuffer', tr) ∧
      Conserved smallNode 9 0 tr inputBuffer' := by
  have hroom : ∀ pre data post, [[0x41, 0x0A], [0x42], [0x43, 0x0A, 0x0A]] = pre ++ data :: post →
      Room smallNode 10 pre.flatten data := by
    intro pre data post hsplit
    rcases pre with _ | ⟨x, _ | ⟨y, _ | ⟨z, pre⟩⟩⟩
    · obtain ⟨rfl, -⟩ := by simpa using hsplit
      exact fun _ => by decide
    · obtain ⟨rfl, rfl, -⟩ := by simpa using hsplit
      exact fun _ => by decide
    · obtain ⟨rfl, rfl, rfl, -⟩ := by simpa using hsplit
      exact fun _ => by decide
    · simp at hsplit
  have hnew : (Table.empty : InputBuffer smallNode) 0 = none := rfl
  exact (conserved_iff_room (by decide) hnew _).2 hroom _ [] (List.append_nil _).symm

/-! ## Reads do not matter -/

/-- After a read at least an MTU of the buffer is free, as the node computes it. -/
def LeavesRoom (c : NodeConfig) (fd : Int) (inputBuffer : InputBuffer c) (data : List UInt8) :
    Prop :=
  ∀ b, inputBuffer.bufferFor fd = some b →
    data ≠ [] → b.bufferTail + data.length + c.networkMtu ≤ c.bufferSize

instance LeavesRoom.decidable (c : NodeConfig) (fd : Int) (inputBuffer : InputBuffer c)
    (data : List UInt8) : Decidable (LeavesRoom c fd inputBuffer data) :=
  match h : inputBuffer.bufferFor fd with
  | none => .isTrue (by simp [LeavesRoom, h])
  | some b =>
    decidable_of_iff (data ≠ [] → b.bufferTail + data.length + c.networkMtu ≤ c.bufferSize)
      (by simp [LeavesRoom, h])

/-- A run of reads after each of which at least an MTU of the buffer is free. -/
abbrev LocalRun (c : NodeConfig) (source : UInt32) (delimiter fd : Int) :
    InputBuffer c → List (List UInt8 × List (List UInt8)) → InputBuffer c → Prop :=
  Machine.Run (LeavesRoom c fd) (localStep c source delimiter fd)

theorem LocalCut.leavesRoom_iff {tr : List (List UInt8 × List (List UInt8))}
    {inputBuffer : InputBuffer c} {stream : List UInt8}
    (h : LocalCut c source delimiter fd tr inputBuffer stream) (data : List UInt8) :
    LeavesRoom c fd inputBuffer data ↔ Room c delimiter stream data := by
  obtain ⟨b, hb, hwindow⟩ := h.exists_buffer
  unfold LeavesRoom Room
  simp only [hb, Option.some.injEq, forall_eq', ← hwindow, b.length_window]

/-- What was read in a run is cut. -/
theorem LocalRun.localCut {inputBuffer₀ inputBuffer : InputBuffer c}
    {tr : List (List UInt8 × List (List UInt8))} (hnew : inputBuffer₀ fd = none)
    (hrun : LocalRun c source delimiter fd inputBuffer₀ tr inputBuffer) :
    LocalCut c source delimiter fd tr inputBuffer (bytesRead tr) := by
  apply Machine.Run.induct (P := fun tr s => LocalCut c source delimiter fd tr s (bytesRead tr))
    (LocalCut.init hnew) _ hrun
  intro tr s data packets s' _ hcut hleaves hstep
  obtain ⟨s'', packets', hstep', hcut'⟩ := hcut.step ((hcut.leavesRoom_iff data).1 hleaves)
  rw [hstep] at hstep'
  cases hstep'
  rwa [bytesRead_snoc]

/-- Two runs over the same bytes, however they are cut into reads, send the same packets
    and keep the same bytes, and no read fails. -/
theorem messages_confluent {inputBuffer₀ inputBuffer₀' inputBuffer inputBuffer' : InputBuffer c}
    (hnew : inputBuffer₀ fd = none) (hnew' : inputBuffer₀' fd = none)
    {tr tr' : List (List UInt8 × List (List UInt8))}
    (hrun : LocalRun c source delimiter fd inputBuffer₀ tr inputBuffer)
    (hrun' : LocalRun c source delimiter fd inputBuffer₀' tr' inputBuffer')
    (hsame : bytesRead tr' = bytesRead tr) :
    packetsSent tr' = packetsSent tr ∧
      ∃ b b', inputBuffer.bufferFor fd = some b ∧ inputBuffer'.bufferFor fd = some b' ∧
        b'.window = b.window ∧
        ∀ data, LeavesRoom c fd inputBuffer data → ∃ inputBuffer₁ packets,
          localStep c source delimiter fd inputBuffer data = .ok (inputBuffer₁, packets) := by
  have hcut := hrun.localCut hnew
  have hcut' := hrun'.localCut hnew'
  rw [hsame] at hcut'
  obtain ⟨b, hb, hwindow⟩ := hcut.buffer
  obtain ⟨b', hb', hwindow'⟩ := hcut'.buffer
  refine ⟨?_, b, b', hb, hb', ?_, fun data hleaves => ?_⟩
  · rw [hcut'.packets, hcut.packets]
  · rw [hwindow', hwindow]
  · obtain ⟨inputBuffer₁, packets, hstep, -⟩ := hcut.step ((hcut.leavesRoom_iff data).1 hleaves)
    exact ⟨inputBuffer₁, packets, hstep⟩

/-- A delimiter first, two in a row and one at the end of a read: in one read and in
    four. -/
theorem messages_confluent_small :
    ∃ tr tr' inputBuffer inputBuffer', LocalRun smallNode 9 10 0 Table.empty tr inputBuffer ∧
      LocalRun smallNode 9 10 0 Table.empty tr' inputBuffer' ∧ tr.length = 1 ∧ tr'.length = 4 ∧
      packetsSent tr' = packetsSent tr := by
  let stream : List UInt8 := [0x0A, 0x41, 0x42, 0x0A, 0x0A, 0x43]
  let reads : List (List UInt8) := [[0x0A], [0x41, 0x42, 0x0A], [0x0A], [0x43]]
  have hsim : (Machine.simulate (LeavesRoom smallNode 0) (localStep smallNode 9 10 0) Table.empty
      [stream]).any (fun r => r.2.length = 1 && bytesRead r.2 = stream) = true := by
    decide +kernel
  have hsim' : (Machine.simulate (LeavesRoom smallNode 0) (localStep smallNode 9 10 0) Table.empty
      reads).any (fun r => r.2.length = 4 && bytesRead r.2 = stream) = true := by
    decide +kernel
  obtain ⟨tr, inputBuffer, hrun, hlast⟩ := Machine.Run.exists_of_simulate hsim
  obtain ⟨tr', inputBuffer', hrun', hlast'⟩ := Machine.Run.exists_of_simulate hsim'
  simp only [Bool.and_eq_true, decide_eq_true_eq] at hlast hlast'
  have hpackets := (messages_confluent rfl rfl hrun hrun' (hlast'.2.trans hlast.2.symm)).1
  exact ⟨tr, tr', inputBuffer, inputBuffer', hrun, hrun', hlast.1, hlast'.1, hpackets⟩

/-! ## The delimiter -/

/-- A plain `char` as an `int`, where `char` is signed. -/
def charValue (char : UInt8) : Int := char.toInt8.toInt

/-- The byte of a C string at an index; behind the string lies its terminating zero. -/
def cStringAt (s : List UInt8) (index : Nat) : UInt8 := s.getD index 0

/-- `ARG_DELIMITER`: the byte that the option stores in `arg_delimiter`. -/
def argDelimiter (optarg : List UInt8) : UInt8 :=
  if cStringAt optarg 0 = '\\'.toUInt8 then
    if cStringAt optarg 1 = '\\'.toUInt8 then '\\'.toUInt8
    else if cStringAt optarg 1 = '0'.toUInt8 then 0
    else if cStringAt optarg 1 = 'r'.toUInt8 then '\r'.toUInt8
    else if cStringAt optarg 1 = 'n'.toUInt8 then '\n'.toUInt8
    else if cStringAt optarg 1 = 't'.toUInt8 then '\t'.toUInt8
    else cStringAt optarg 1
  else cStringAt optarg 0

/-- Every byte can be set. -/
theorem argDelimiter_surjective : Function.Surjective argDelimiter := by
  intro d
  by_cases hescape : d = '\\'.toUInt8
  · exact ⟨['\\'.toUInt8, '\\'.toUInt8], by rw [hescape]; rfl⟩
  · exact ⟨[d], if_neg hescape⟩

/-- A stream cut immediately before each occurrence of a byte, without the empty piece
    in front of a stream that starts with it. -/
def cutBefore (d : UInt8) (stream : List UInt8) : List (List UInt8) :=
  stream.splitBy fun _ byte => byte ≠ d

/-- The bytes below 0x80 are the ones whose `char` is not negative. -/
theorem charValue_of_lt {d : UInt8} (h : d < 0x80) : charValue d = d.toNat := by
  have hlt : d.toInt8.toBitVec.toNat < 128 := UInt8.lt_iff_toNat_lt.1 h
  exact BitVec.toInt_eq_toNat_of_lt (by omega)

theorem charValue_neg {d : UInt8} (h : ¬d < 0x80) : charValue d < 0 := by
  have hge : ¬d.toBitVec.toNat < 128 := fun hlt => h (UInt8.lt_iff_toNat_lt.2 hlt)
  have hlt := d.toBitVec.isLt
  show d.toBitVec.toInt < 0
  rw [BitVec.toInt_eq_toNat_cond, if_neg (by omega)]
  omega

/-- A delimiter below 0x80 is found where it is. -/
theorem isDelimiter_of_lt {d : UInt8} (h : d < 0x80) :
    isDelimiter (charValue d) = fun byte => decide (byte = d) := by
  funext byte
  rw [isDelimiter, charValue_of_lt h]
  apply decide_eq_decide.2
  rw [Int.natCast_inj]
  exact UInt8.toNat_inj

/-- Any other is found nowhere. -/
theorem isDelimiter_of_not_lt {d : UInt8} (h : ¬d < 0x80) (byte : UInt8) :
    isDelimiter (charValue d) byte = false := by
  have hneg := charValue_neg h
  apply decide_eq_false
  omega

/-- The pieces of a stream are those that a reader for the byte takes, and the one it
    keeps. -/
theorem cutBefore_eq_drain {d : UInt8} {stream : List UInt8} (hne : stream ≠ []) :
    cutBefore d stream = ((cutReader fun byte => decide (byte = d)).drain stream).1 ++
      [((cutReader fun byte => decide (byte = d)).drain stream).2] := by
  rw [← splitBy_eq_drain hne]
  unfold cutBefore
  simp only [ne_eq, decide_not]

/-- The stream as it should be cut: the packets that were sent are its pieces but the
    last, which is kept. -/
def CutBefore (c : NodeConfig) (source : UInt32) (fd : Int) (d : UInt8)
    (tr : List (List UInt8 × List (List UInt8))) (inputBuffer : InputBuffer c) : Prop :=
  packetsSent tr =
      (cutBefore d (bytesRead tr)).dropLast.map (frameBytes c.order GNW_DATA source) ∧
    ∃ b, inputBuffer.bufferFor fd = some b ∧
      b.window = (cutBefore d (bytesRead tr)).getLast?.getD []

section CutBefore

variable {d : UInt8} {tr : List (List UInt8 × List (List UInt8))} {inputBuffer : InputBuffer c}
  (h : LocalCut c source (charValue d) fd tr inputBuffer (bytesRead tr))
include h

theorem LocalCut.cutBefore_of_lt (hd : d < 0x80) : CutBefore c source fd d tr inputBuffer := by
  obtain ⟨b, hb, hwindow⟩ := h.buffer
  have hpackets := h.packets
  unfold localReader at hpackets hwindow
  rw [isDelimiter_of_lt hd] at hpackets hwindow
  unfold CutBefore
  by_cases hne : bytesRead tr = []
  · have hdrain : (cutReader fun byte => decide (byte = d)).drain [] = ([], []) :=
      Reader.drain_of_wait _ rfl
    rw [hne, hdrain] at hpackets hwindow
    rw [hne]
    exact ⟨hpackets, b, hb, hwindow⟩
  · rw [cutBefore_eq_drain hne, List.dropLast_concat, List.getLast?_concat]
    exact ⟨hpackets, b, hb, hwindow⟩

/-- A delimiter that is not found cuts nothing. -/
theorem LocalCut.cutBefore_of_not_lt (hd : ¬d < 0x80) :
    CutBefore c source fd d tr inputBuffer ↔ d ∉ (bytesRead tr).tail := by
  obtain ⟨b, hb, hwindow⟩ := h.buffer
  have hpackets := h.packets
  have hdrain : (localReader (charValue d)).drain (bytesRead tr) = ([], bytesRead tr) := by
    apply Reader.drain_of_wait
    exact cutReader_wait_iff.2 fun byte _ => isDelimiter_of_not_lt hd byte
  rw [hdrain] at hpackets hwindow
  constructor
  · rintro ⟨hsent, -⟩ hmem
    have hne : bytesRead tr ≠ [] := by
      intro hnil
      rw [hnil] at hmem
      cases hmem
    rw [hpackets, cutBefore_eq_drain hne, List.dropLast_concat, List.map_nil, eq_comm,
      List.map_eq_nil_iff] at hsent
    have hwhole := Reader.flatten_drain cutReader_ne_skip
      (r := cutReader fun byte => decide (byte = d)) (bytesRead tr)
    have hwait := (cutReader fun byte => decide (byte = d)).next_drain_rest (bytesRead tr)
    rw [hsent, List.flatten_nil, List.nil_append] at hwhole
    rw [hwhole] at hwait
    simpa using cutReader_wait_iff.1 hwait d hmem
  · intro hmem
    have htail : ∀ byte ∈ (bytesRead tr).tail, decide (byte = d) = false :=
      fun byte hbyte => decide_eq_false fun heq => hmem (heq ▸ hbyte)
    have hcut : cutBefore d (bytesRead tr) = if bytesRead tr = [] then [] else [bytesRead tr] := by
      split
      · rename_i hnil
        rw [hnil]
        rfl
      · rename_i hne
        rw [← splitBy_of_tail hne htail, cutBefore]
        simp only [ne_eq, decide_not]
    refine ⟨?_, b, hb, ?_⟩
    · rw [hpackets, hcut]
      split <;> rfl
    · rw [hwindow, hcut]
      split
      · assumption
      · rfl

end CutBefore

/-- In a run that leaves room, the stream is cut immediately before each occurrence of
    the byte that the option names, just if the byte is below 0x80 or the stream has
    it nowhere behind its first byte. -/
theorem cutBefore_iff {inputBuffer₀ inputBuffer : InputBuffer c} {optarg : List UInt8}
    {tr : List (List UInt8 × List (List UInt8))} (hnew : inputBuffer₀ fd = none)
    (hrun : LocalRun c source (charValue (argDelimiter optarg)) fd inputBuffer₀ tr inputBuffer) :
    CutBefore c source fd (argDelimiter optarg) tr inputBuffer ↔
      argDelimiter optarg < 0x80 ∨ argDelimiter optarg ∉ (bytesRead tr).tail := by
  have hcut := hrun.localCut hnew
  by_cases hd : argDelimiter optarg < 0x80
  · exact iff_of_true (hcut.cutBefore_of_lt hd) (.inl hd)
  · rw [hcut.cutBefore_of_not_lt hd, or_iff_right hd]

/-- The byte 0xFF for a delimiter: the two halves of a stream are not told apart. -/
theorem cutBefore_fails :
    ∃ tr inputBuffer, LocalRun smallNode 9 (charValue (argDelimiter [0xFF])) 0 Table.empty tr
        inputBuffer ∧ bytesRead tr = [0x41, 0xFF, 0x42] ∧ packetsSent tr = [] ∧
      ¬CutBefore smallNode 9 0 (argDelimiter [0xFF]) tr inputBuffer := by
  have hsim : (Machine.simulate (LeavesRoom smallNode 0)
      (localStep smallNode 9 (charValue (argDelimiter [0xFF])) 0) Table.empty
      [[0x41, 0xFF, 0x42]]).any
        (fun r => bytesRead r.2 = [0x41, 0xFF, 0x42] && packetsSent r.2 = []) = true := by
    decide +kernel
  obtain ⟨tr, inputBuffer, hrun, hlast⟩ := Machine.Run.exists_of_simulate hsim
  simp only [Bool.and_eq_true, decide_eq_true_eq] at hlast
  refine ⟨tr, inputBuffer, hrun, hlast.1, hlast.2, ?_⟩
  rintro ⟨hsent, -⟩
  rw [hlast.1, hlast.2] at hsent
  exact absurd hsent (by decide)

/-- A tab for a delimiter, named by its escape. -/
theorem cutBefore_small :
    ∃ tr inputBuffer, LocalRun smallNode 9 (charValue (argDelimiter [0x5C, 0x74])) 0 Table.empty tr
        inputBuffer ∧ bytesRead tr = [0x09, 0x41, 0x09, 0x42] ∧
      CutBefore smallNode 9 0 (argDelimiter [0x5C, 0x74]) tr inputBuffer := by
  have hsim : (Machine.simulate (LeavesRoom smallNode 0)
      (localStep smallNode 9 (charValue (argDelimiter [0x5C, 0x74])) 0) Table.empty
      [[0x09, 0x41], [0x09, 0x42]]).any
        (fun r => bytesRead r.2 = [0x09, 0x41, 0x09, 0x42]) = true := by
    decide +kernel
  obtain ⟨tr, inputBuffer, hrun, hread⟩ := Machine.Run.exists_of_simulate hsim
  have hnew : (Table.empty : InputBuffer smallNode) 0 = none := rfl
  exact ⟨tr, inputBuffer, hrun, of_decide_eq_true hread,
    (cutBefore_iff hnew hrun).2 (.inl (by decide))⟩

/-! ## The end of a stream -/

/-- All that was read has been sent when the node is done with the end of the stream,
    where `read` returns nothing and `poll` tells that the stream hung up. -/
def AllSent (c : NodeConfig) (source : UInt32) (delimiter fd : Int) (inputBuffer : InputBuffer c)
    (reads : List (List UInt8)) : Prop :=
  ∃ inputBuffer₁ tr inputBuffer₂ read pieces,
    Machine.exec (localStep c source delimiter fd) inputBuffer reads = .ok (inputBuffer₁, tr) ∧
    handleLocalData c source delimiter fd true [] inputBuffer₁ = .ok (inputBuffer₂, read) ∧
    Pieces c source (packetsSent tr ++ read.packets) pieces ∧ pieces.flatten = reads.flatten

/-- The end of a stream sends nothing. -/
theorem handleLocalData_gone (inputBuffer : InputBuffer c) :
    ∃ inputBuffer', handleLocalData c source delimiter fd true [] inputBuffer =
      .ok (inputBuffer', .closed (fd = STDIN_FILENO)) := by
  refine ⟨destroyLocalBuffer c fd (getLocalBuffer c fd inputBuffer).1, ?_⟩
  unfold handleLocalData
  cases hget : getLocalBuffer c fd inputBuffer with
  | mk inputBuffer₁ buffer => cases buffer <;> rfl

/-- A read that the node survives has cut the stream: no block that `malloc` returns lies so
    low that the tail pointer passes for a length. -/
theorem LocalCut.preserved (hheap : c.bufferSize ≤ c.heap)
    (tr : List (List UInt8 × List (List UInt8))) (inputBuffer : InputBuffer c)
    (stream data : List UInt8) (inputBuffer' : InputBuffer c) (packets : List (List UInt8))
    (h : LocalCut c source delimiter fd tr inputBuffer stream)
    (hstep : localStep c source delimiter fd inputBuffer data = .ok (inputBuffer', packets)) :
    LocalCut c source delimiter fd (tr ++ [(data, packets)]) inputBuffer' (stream ++ data) := by
  by_cases hroom : Room c delimiter stream data
  · obtain ⟨s', packets', hstep', hcut⟩ := h.step hroom
    rw [hstep] at hstep'
    cases hstep'
    exact hcut
  · obtain ⟨b, hb, hwindow⟩ := h.exists_buffer
    obtain ⟨hdata, hfull⟩ := Classical.not_imp.1 hroom
    rw [← hwindow, b.length_window] at hfull
    obtain ⟨-, piece, hlength, hle, -⟩ := localStep_of_full hb hdata hfull hstep
    have hpos := List.length_pos_iff.2 hdata
    omega

/-- All of a stream has been sent at its end just if nothing was read from it. -/
theorem allSent_iff (hheap : c.bufferSize ≤ c.heap) {inputBuffer : InputBuffer c}
    (hnew : inputBuffer fd = none) (reads : List (List UInt8)) :
    AllSent c source delimiter fd inputBuffer reads ↔ reads.flatten = [] := by
  have hinit : LocalCut c source delimiter fd [] inputBuffer [] := LocalCut.init hnew
  constructor
  · rintro ⟨inputBuffer₁, tr, inputBuffer₂, read, pieces, hexec, hclose, hpieces, hflatten⟩
    have hcut := Machine.exec_preserves (LocalCut.preserved hheap) hinit hexec
    obtain ⟨_, hgone⟩ := handleLocalData_gone (c := c) inputBuffer₁
    rw [hgone] at hclose
    cases hclose
    rw [List.nil_append, foldl_append_eq, List.nil_append] at hcut
    have hsame : pieces = ((localReader delimiter).drain reads.flatten).1 := by
      apply List.map_injective_iff.2 (frameBytes_injective c.order GNW_DATA source)
      rw [← hpieces.packets, ← hcut.packets]
      exact List.append_nil _
    have hall := LocalCut.flatten delimiter reads.flatten
    rw [← hsame, hflatten, List.append_right_eq_self, drain_cutReader_snd] at hall
    exact fromLast_eq_nil_iff.1 hall
  · intro hnone
    have hroom : ∀ pre data post, reads = pre ++ data :: post →
        Room c delimiter (pre.foldl (fun stream data => stream ++ data) []) data := by
      rintro pre data post rfl hdata
      simp only [List.flatten_append, List.flatten_cons, List.append_eq_nil_iff] at hnone
      exact absurd hnone.2.1 hdata
    obtain ⟨inputBuffer₁, tr, hexec, hcut⟩ := Machine.exec_follows LocalCut.follows hinit hroom
    obtain ⟨inputBuffer₂, hgone⟩ := handleLocalData_gone (c := c) inputBuffer₁
    have hpackets := hcut.packets
    have hdrain : (localReader delimiter).drain [] = ([], []) := Reader.drain_of_wait _ rfl
    rw [List.nil_append, foldl_append_eq, List.nil_append, hnone, hdrain] at hpackets
    refine ⟨inputBuffer₁, tr, inputBuffer₂, _, [], hexec, hgone, ?_, hnone.symm⟩
    rw [hpackets]
    exact Pieces.nil c source

/-- A message and its newline, and then the end of the input: the newline is lost. -/
theorem allSent_fails : ¬AllSent smallNode 9 10 0 Table.empty [[0x41, 0x0A]] := by
  rintro ⟨inputBuffer₁, tr, inputBuffer₂, read, pieces, hexec, hclose, hpieces, hflatten⟩
  have hsent : ((Machine.exec (localStep smallNode 9 10 0) Table.empty [[0x41, 0x0A]]).map
      fun r => packetsSent r.2) = .ok [frameBytes .little GNW_DATA 9 [0x41]] := by
    decide +kernel
  rw [hexec] at hsent
  have hsent : packetsSent tr = [frameBytes .little GNW_DATA 9 [0x41]] := Except.ok.inj hsent
  obtain ⟨_, hgone⟩ := handleLocalData_gone (c := smallNode) inputBuffer₁
  rw [hgone] at hclose
  cases hclose
  have hpackets := hpieces.packets
  rw [hsent] at hpackets
  have hsame : pieces = [[0x41]] := by
    apply List.map_injective_iff.2 (frameBytes_injective .little GNW_DATA 9)
    exact hpackets.symm.trans (List.append_nil _)
  rw [hsame] at hflatten
  exact absurd hflatten (by decide)

/-- A stream that ends before anything came. -/
theorem allSent_nothing : AllSent smallNode 9 10 0 Table.empty [] := by
  have hnew : (Table.empty : InputBuffer smallNode) 0 = none := rfl
  exact (allSent_iff (by decide) hnew []).2 rfl

end Messages
