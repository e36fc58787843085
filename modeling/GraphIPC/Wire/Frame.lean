-- SUMMARY: What gnw_nextPacket decides about any buffer, and how it reads the frames the emit functions build.
import GraphIPC.Base.Stream
import GraphIPC.Wire.GraphNetwork

/-!
# Reading the frames that were built

The layout of a built frame, the cases of `gnw_nextPacket`, and the reader of
frames it amounts to. The size of a frame is computed in 32 bits, so a header
that declares almost `2 ^ 32` bytes is taken for a frame of at most ten.
-/

/-- The bytes of a frame: header, then payload. -/
def frameBytes (order : ByteOrder) (type : UInt8) (source : UInt32) (payload : List UInt8) :
    List UInt8 :=
  [GNW_MAGIC, GNW_VERSION, type] ++ u32Bytes order source ++
    u32Bytes order (UInt32.ofNat payload.length) ++ payload

@[simp] theorem length_frameBytes (order : ByteOrder) (type : UInt8) (source : UInt32)
    (payload : List UInt8) : (frameBytes order type source payload).length = payload.length + 11 := by
  simp only [frameBytes, List.length_append, length_u32Bytes, List.length_cons, List.length_nil]
  omega

/-- The header tells nothing of the payload but its length: frames with the same
    header fields differ in their payloads. -/
theorem frameBytes_injective (order : ByteOrder) (type : UInt8) (source : UInt32) :
    Function.Injective (frameBytes order type source) := by
  intro payload payload' h
  have hdrop : ∀ payload, (frameBytes order type source payload).drop 11 = payload :=
    fun payload => rfl
  rw [← hdrop payload, h, hdrop payload']

/-- Frames with different sources differ. -/
theorem frameBytes_source_inj {order : ByteOrder} {type : UInt8} {source source' : UInt32}
    {payload payload' : List UInt8}
    (h : frameBytes order type source payload = frameBytes order type source' payload') :
    source = source' := by
  have htake : ∀ source payload,
      ((frameBytes order type source payload).drop 3).take 4 = u32Bytes order source :=
    fun source payload => rfl
  apply u32Bytes_inj.1
  rw [← htake source payload, h, htake source' payload']

/-! ## Building -/

/-- Bytes put behind each other. -/
theorem Cursor.put_put {ptr : Cursor} (h : ptr.pos ≤ ptr.block.length) (xs ys : List UInt8) :
    (ptr.put xs).put ys = ptr.put (xs ++ ys) := by
  simp only [Cursor.put, Memory.store_store h, List.length_append, Nat.add_assoc]

/-- The header both emit functions write, as one run of bytes. -/
theorem writeHeader_eq (order : ByteOrder) (type : UInt8) (source : UInt32) (length : Nat) :
    writeHeader order type source length =
      Cursor.put ⟨List.replicate (length + 11) 0, 0⟩
        ([GNW_MAGIC, GNW_VERSION, type] ++ u32Bytes order source ++
          u32Bytes order (UInt32.ofNat length)) := by
  have hput : ∀ xs ys : List UInt8, (Cursor.put ⟨List.replicate (length + 11) 0, 0⟩ xs).put ys =
      Cursor.put ⟨List.replicate (length + 11) 0, 0⟩ (xs ++ ys) := Cursor.put_put (Nat.zero_le _)
  simp only [writeHeader, packetWriteU8, packetWriteU32, hput, List.cons_append, List.nil_append]

/-- The front of a buffer makes a whole frame. -/
theorem writePayload_take (order : ByteOrder) (type : UInt8) (source : UInt32)
    {buffer : List UInt8} {length : Nat} (h : length ≤ buffer.length) :
    writePayload (writeHeader order type source length) buffer length =
      .ok (frameBytes order type source (buffer.take length)) := by
  have htake : (buffer.take length).length = length := List.length_take_of_le h
  rw [writePayload, if_pos h, writeHeader_eq, Cursor.put_put (Nat.zero_le _)]
  generalize buffer.take length = payload at htake
  subst htake
  have hall : Memory.store (List.replicate (payload.length + 11) 0) 0
      (frameBytes order type source payload) = frameBytes order type source payload :=
    Memory.store_all (by simp)
  exact congrArg Except.ok hall

/-- A packet that was built carries the front of the buffer. -/
theorem writePayload_ok {order : ByteOrder} {type : UInt8} {source : UInt32} {buffer : List UInt8}
    {length : Nat} {packet : List UInt8}
    (h : writePayload (writeHeader order type source length) buffer length = .ok packet) :
    length ≤ buffer.length ∧ packet = frameBytes order type source (buffer.take length) := by
  by_cases hle : length ≤ buffer.length
  · rw [writePayload_take order type source hle] at h
    exact ⟨hle, (Except.ok.inj h).symm⟩
  · rw [writePayload, if_neg hle] at h
    cases h

/-- `gnw_emitDataPacket` sends the front of a buffer behind a header; an empty payload it
    does not send. -/
theorem gnwEmitDataPacket_take (order : ByteOrder) (source : UInt32) {buffer : List UInt8}
    {length : Nat} (h : length ≤ buffer.length) :
    gnwEmitDataPacket order source buffer length =
      .ok (if buffer.take length = [] then none
        else some (frameBytes order GNW_DATA source (buffer.take length))) := by
  have hempty : buffer.take length = [] ↔ length = 0 := by
    rw [← List.length_eq_zero_iff, List.length_take_of_le h]
  by_cases hzero : length = 0
  · rw [gnwEmitDataPacket, if_pos hzero, if_pos (hempty.2 hzero)]
    rfl
  · rw [gnwEmitDataPacket, if_neg hzero, if_neg (mt hempty.1 hzero),
      writePayload_take order GNW_DATA source h]
    rfl

/-- No packet is built from more than the buffer holds. -/
theorem gnwEmitDataPacket_le {order : ByteOrder} {source : UInt32} {buffer : List UInt8}
    {length : Nat} {packet : Option (List UInt8)}
    (h : gnwEmitDataPacket order source buffer length = .ok packet) :
    length ≤ buffer.length := by
  by_cases hzero : length = 0
  · rw [hzero]
    exact Nat.zero_le _
  · rw [gnwEmitDataPacket, if_neg hzero, Except.bind_eq_ok_iff] at h
    obtain ⟨packet, hpacket, -⟩ := h
    exact (writePayload_ok hpacket).1

/-- A whole buffer as the payload. -/
theorem gnwEmitDataPacket_eq (order : ByteOrder) (source : UInt32) (payload : List UInt8) :
    gnwEmitDataPacket order source payload payload.length =
      .ok (if payload = [] then none else some (frameBytes order GNW_DATA source payload)) := by
  rw [gnwEmitDataPacket_take order source le_rfl, List.take_length]

/-- `gnw_emitCommandPacket` sends its payload behind a header that names no
    source. -/
theorem gnwEmitCommandPacket_eq (order : ByteOrder) (type : UInt8) (payload : List UInt8) :
    gnwEmitCommandPacket order type payload payload.length =
      .ok (frameBytes order type 0xFFFFFFFF payload) := by
  rw [gnwEmitCommandPacket, writePayload_take order type 0xFFFFFFFF le_rfl, List.take_length]

/-! ## The header -/

/-- The payload length the header of a buffer declares. -/
def declaredLength (order : ByteOrder) (buffer : List UInt8) : Nat :=
  match packetReadU32 order (buffer.drop 7) with
  | some (length, _) => length.toNat
  | none => 0

theorem declaredLength_lt (order : ByteOrder) (buffer : List UInt8) :
    declaredLength order buffer < 2 ^ 32 := by
  unfold declaredLength
  split
  · exact UInt32.toNat_lt _
  · decide

/-- Eleven bytes are enough for a header, and no later byte changes it. -/
theorem readHeader_append (order : ByteOrder) {xs : List UInt8} (h : 11 ≤ xs.length)
    (ys : List UInt8) :
    ∃ header, readHeader order (xs ++ ys) = some (header, xs.drop 11 ++ ys) ∧
      xs.head? = some header.magic ∧ xs[1]? = some header.version ∧
      declaredLength order xs = header.length.toNat := by
  match xs, h with
  | m :: v :: t :: s₀ :: s₁ :: s₂ :: s₃ :: l₀ :: l₁ :: l₂ :: l₃ :: xs, _ =>
    exact ⟨_, rfl, rfl, rfl, rfl⟩

/-- The header of a prefix is the header of whatever it is a prefix of. -/
theorem readHeader_forall (order : ByteOrder) {xs : List UInt8} (h : 11 ≤ xs.length) :
    ∃ header, (∀ ys, readHeader order (xs ++ ys) = some (header, xs.drop 11 ++ ys)) ∧
      declaredLength order xs = header.length.toNat := by
  match xs, h with
  | m :: v :: t :: s₀ :: s₁ :: s₂ :: s₃ :: l₀ :: l₁ :: l₂ :: l₃ :: xs, _ =>
    exact ⟨_, fun _ => rfl, rfl⟩

/-- Less than eleven bytes are no header. -/
theorem readHeader_short (order : ByteOrder) {xs : List UInt8} (h : xs.length < 11) :
    readHeader order xs = none := by
  rw [Option.eq_none_iff_forall_not_mem]
  rintro ⟨header, ptr⟩ hread
  simp only [readHeader, Option.mem_def, Option.bind_eq_bind, Option.bind_eq_some_iff] at hread
  obtain ⟨_, h₁, _, h₂, _, h₃, _, h₄, _, h₅, -⟩ := hread
  have h₁ := packetReadU8_length h₁
  have h₂ := packetReadU8_length h₂
  have h₃ := packetReadU8_length h₃
  have h₄ := packetReadU32_length h₄
  have h₅ := packetReadU32_length h₅
  omega

/-- The bytes a header was read from. -/
theorem readHeader_eq_some {order : ByteOrder} {xs ys : List UInt8} {header : Header}
    (h : readHeader order xs = some (header, ys)) :
    xs = [header.magic, header.version, header.type] ++ u32Bytes order header.source ++
      u32Bytes order header.length ++ ys := by
  simp only [readHeader, Option.bind_eq_bind, Option.bind_eq_some_iff] at h
  obtain ⟨⟨magic, ptr₁⟩, h₁, ⟨version, ptr₂⟩, h₂, ⟨type, ptr₃⟩, h₃, ⟨source, ptr₄⟩, h₄,
    ⟨length, ptr₅⟩, h₅, h⟩ := h
  cases h
  simp only at h₂ h₃ h₄ h₅
  rw [packetReadU8_eq_some h₁, packetReadU8_eq_some h₂, packetReadU8_eq_some h₃,
    packetReadU32_eq_some h₄, packetReadU32_eq_some h₅]
  simp

/-- The header of a built frame. -/
theorem readHeader_frameBytes (order : ByteOrder) (type : UInt8) (source : UInt32)
    (payload ys : List UInt8) :
    readHeader order (frameBytes order type source payload ++ ys) =
      some ({ magic := GNW_MAGIC, version := GNW_VERSION, type, source,
              length := UInt32.ofNat payload.length }, payload ++ ys) := by
  simp [readHeader, frameBytes]

/-- `gnw_nextPacket`, case by case. -/
theorem gnwNextPacket_eq {order : ByteOrder} {xs : List UInt8} (h : 11 ≤ xs.length) :
    gnwNextPacket order xs =
      if xs.head? ≠ some GNW_MAGIC then (-1 : Int)
      else if xs[1]? ≠ some GNW_VERSION then (-2 : Int)
      else if (11 + declaredLength order xs) % 2 ^ 32 ≤ xs.length then
        ((11 + declaredLength order xs) % 2 ^ 32 : Nat)
      else 0 := by
  obtain ⟨header, hread, -, hversion, hlength⟩ := readHeader_append order h []
  have hsum : (11 + header.length).toNat = (11 + declaredLength order xs) % 2 ^ 32 := by
    rw [hlength, UInt32.toNat_add]; rfl
  rw [List.append_nil] at hread
  simp only [gnwNextPacket, if_neg (Nat.not_lt.2 h), hread, hversion, hsum, ne_eq,
    Option.some.injEq]

theorem gnwNextPacket_short {order : ByteOrder} {xs : List UInt8} (h : xs.length < 11) :
    gnwNextPacket order xs = 0 := by
  simp [gnwNextPacket, h]

/-! ## The decision -/

/-- The first two bytes are those of a frame of this version. -/
def StartsFrame (xs : List UInt8) : Prop :=
  xs.head? = some GNW_MAGIC ∧ xs[1]? = some GNW_VERSION

instance (xs : List UInt8) : Decidable (StartsFrame xs) :=
  inferInstanceAs (Decidable (_ ∧ _))

theorem StartsFrame.append {xs : List UInt8} (h : StartsFrame xs) (ys : List UInt8) :
    StartsFrame (xs ++ ys) := by
  match xs, h with
  | [_], h => simp [StartsFrame] at h
  | _ :: _ :: xs, h => exact h

theorem StartsFrame.of_append {xs ys : List UInt8} (hlen : 2 ≤ xs.length)
    (h : StartsFrame (xs ++ ys)) : StartsFrame xs := by
  match xs, hlen with
  | _ :: _ :: xs, _ => exact h

/-- On a header of the right magic and version the size decides, taken in 32
    bits. -/
theorem gnwNextPacket_of_startsFrame (order : ByteOrder) {xs : List UInt8} (h : 11 ≤ xs.length)
    (hstart : StartsFrame xs) :
    gnwNextPacket order xs =
      if (11 + declaredLength order xs) % 2 ^ 32 ≤ xs.length then
        (((11 + declaredLength order xs) % 2 ^ 32 : Nat) : Int)
      else 0 := by
  rw [gnwNextPacket_eq h, if_neg (not_not.2 hstart.1), if_neg (not_not.2 hstart.2)]

/-- Without the right magic and version the buffer is rejected. -/
theorem gnwNextPacket_of_not_startsFrame {order : ByteOrder} {xs : List UInt8}
    (h : 11 ≤ xs.length) (hstart : ¬StartsFrame xs) : gnwNextPacket order xs < 0 := by
  rw [gnwNextPacket_eq h]
  split
  · decide
  · rename_i hmagic
    have hversion : xs[1]? ≠ some GNW_VERSION := fun hv => hstart ⟨not_not.1 hmagic, hv⟩
    rw [if_pos hversion]
    decide

theorem gnwNextPacket_neg_iff {order : ByteOrder} {xs : List UInt8} :
    gnwNextPacket order xs < 0 ↔ 11 ≤ xs.length ∧ ¬StartsFrame xs := by
  constructor
  · intro hneg
    by_cases hlen : xs.length < 11
    · rw [gnwNextPacket_short hlen] at hneg
      exact absurd hneg (by decide)
    · refine ⟨by omega, fun hstart => ?_⟩
      rw [gnwNextPacket_of_startsFrame order (by omega) hstart] at hneg
      split at hneg <;> omega
  · rintro ⟨hlen, hstart⟩
    exact gnwNextPacket_of_not_startsFrame hlen hstart

/-- A positive answer: the size of the frame in 32 bits, and all of it is
    there. -/
theorem gnwNextPacket_pos {order : ByteOrder} {xs : List UInt8}
    (h : 0 < gnwNextPacket order xs) :
    11 ≤ xs.length ∧ StartsFrame xs ∧
      gnwNextPacket order xs = ((11 + declaredLength order xs) % 2 ^ 32 : Nat) ∧
      (11 + declaredLength order xs) % 2 ^ 32 ≤ xs.length := by
  by_cases hlen : xs.length < 11
  · rw [gnwNextPacket_short hlen] at h
    exact absurd h (by decide)
  by_cases hstart : StartsFrame xs
  · rw [gnwNextPacket_of_startsFrame order (by omega) hstart] at h ⊢
    split at h
    · rename_i hle
      rw [if_pos hle]
      exact ⟨by omega, hstart, rfl, hle⟩
    · exact absurd h (by decide)
  · have hneg : gnwNextPacket order xs < 0 :=
      gnwNextPacket_of_not_startsFrame (by omega) hstart
    omega

/-- The size of a buffer bounds the answer. -/
theorem gnwNextPacket_le (order : ByteOrder) (xs : List UInt8) :
    gnwNextPacket order xs ≤ xs.length := by
  by_cases hpos : 0 < gnwNextPacket order xs
  · obtain ⟨-, -, heq, hle⟩ := gnwNextPacket_pos hpos
    omega
  · omega

/-- The declared length does not change when more bytes arrive. -/
theorem declaredLength_append {order : ByteOrder} {xs : List UInt8} (h : 11 ≤ xs.length)
    (ys : List UInt8) : declaredLength order (xs ++ ys) = declaredLength order xs := by
  obtain ⟨_, hread, -, -, hlength⟩ := readHeader_append order h ys
  obtain ⟨_, hread', -, -, hlength'⟩ :=
    readHeader_append order (by simp; omega : 11 ≤ (xs ++ ys).length) []
  rw [List.append_nil, hread] at hread'
  obtain ⟨rfl, -⟩ := by simpa using hread'
  rw [hlength, hlength']

/-- Whatever bytes the reader takes for a frame of a header and more, the emit functions
    could have built them. -/
theorem exists_frameBytes_of_gnwNextPacket {order : ByteOrder} {xs : List UInt8} {n : Nat}
    (h : gnwNextPacket order xs = n) (hn : 11 ≤ n) :
    ∃ type source payload, xs.take n = frameBytes order type source payload ∧
      payload.length + 11 < 2 ^ 32 := by
  have hpos : 0 < gnwNextPacket order xs := by omega
  obtain ⟨hlen, ⟨hmagic, hversion⟩, hsize, hle⟩ := gnwNextPacket_pos hpos
  have hdeclared := declaredLength_lt order xs
  have hn' : n = 11 + declaredLength order xs := by omega
  obtain ⟨header, hread, hmagic', hversion', hlength⟩ := readHeader_append order hlen []
  rw [List.append_nil, List.append_nil] at hread
  have hmagic : header.magic = GNW_MAGIC := Option.some.inj (hmagic'.symm.trans hmagic)
  have hversion : header.version = GNW_VERSION := Option.some.inj (hversion'.symm.trans hversion)
  have hpayload : ((xs.drop 11).take header.length.toNat).length = header.length.toNat := by
    rw [List.length_take_of_le]
    rw [List.length_drop]
    omega
  refine ⟨header.type, header.source, (xs.drop 11).take header.length.toNat, ?_, by omega⟩
  rw [frameBytes, hpayload, UInt32.ofNat_toNat, ← hmagic, ← hversion]
  conv_lhs => rw [readHeader_eq_some hread]
  rw [hn', hlength]
  show List.take (([header.magic, header.version, header.type] ++ u32Bytes order header.source ++
    u32Bytes order header.length).length + header.length.toNat) _ = _
  rw [List.take_length_add_append]

/-- A rejection stands, whatever arrives later. -/
theorem gnwNextPacket_append_of_neg {order : ByteOrder} {xs : List UInt8}
    (h : gnwNextPacket order xs < 0) (ys : List UInt8) : gnwNextPacket order (xs ++ ys) < 0 := by
  rw [gnwNextPacket_neg_iff] at h ⊢
  exact ⟨by simp; omega, fun hstart => h.2 (hstart.of_append (by omega))⟩

/-- An accepted frame stays accepted, whatever arrives later. -/
theorem gnwNextPacket_append_of_pos {order : ByteOrder} {xs : List UInt8}
    (h : 0 < gnwNextPacket order xs) (ys : List UInt8) :
    gnwNextPacket order (xs ++ ys) = gnwNextPacket order xs := by
  obtain ⟨hlen, hstart, heq, hle⟩ := gnwNextPacket_pos h
  rw [gnwNextPacket_of_startsFrame order (by simp; omega) (hstart.append ys),
    declaredLength_append hlen, heq, if_pos (by simp; omega)]

/-- The reader of frames that `gnw_nextPacket` amounts to. -/
def frameReader (order : ByteOrder) : Reader UInt8 where
  header := 11
  next xs :=
    if gnwNextPacket order xs < 0 then .skip
    else if gnwNextPacket order xs = 0 then .wait
    else .take (gnwNextPacket order xs).toNat
  header_pos := by decide
  wait_of_short := by
    intro xs h
    simp [gnwNextPacket_short h]
  take_bounds := by
    intro xs n h
    have hle := gnwNextPacket_le order xs
    split at h
    · cases h
    · split at h
      · cases h
      · cases h
        omega
  skip_append := by
    intro xs ys h
    have hneg : gnwNextPacket order xs < 0 := by
      by_contra hneg
      rw [if_neg hneg] at h
      split at h <;> cases h
    rw [if_pos (gnwNextPacket_append_of_neg hneg ys)]
  take_append := by
    intro xs n ys h
    have hpos : 0 < gnwNextPacket order xs := by
      by_contra hpos
      split at h
      · cases h
      · rw [if_pos (by omega)] at h
        cases h
    rw [gnwNextPacket_append_of_pos hpos]
    exact h

/-! ## The contract of `gnw_nextPacket`

Both callers size an array by a positive answer, copy that many bytes and read
header and payload from the copy; they drop a byte on a negative answer and wait
for more on zero. -/

structure NextPacketContract (order : ByteOrder) (xs : List UInt8) : Prop where
  positive : 0 < gnwNextPacket order xs →
    StartsFrame xs ∧ gnwNextPacket order xs = 11 + declaredLength order xs ∧
      gnwNextPacket order xs ≤ xs.length
  negative : gnwNextPacket order xs < 0 ↔ 11 ≤ xs.length ∧ ¬StartsFrame xs
  zero : gnwNextPacket order xs = 0 ↔
    xs.length < 11 ∨ StartsFrame xs ∧ xs.length < 11 + declaredLength order xs

/-- The contract is kept as long as the size of the declared frame, or its
    absence, survives the reduction to 32 bits. -/
theorem nextPacketContract_iff (order : ByteOrder) (xs : List UInt8) :
    NextPacketContract order xs ↔
      (11 ≤ xs.length → StartsFrame xs →
        11 + declaredLength order xs < 2 ^ 32 ∨
          11 + declaredLength order xs = 2 ^ 32 ∧ xs.length < 2 ^ 32) := by
  have hlt := declaredLength_lt order xs
  by_cases hlen : xs.length < 11
  · have hzero : gnwNextPacket order xs = 0 := gnwNextPacket_short hlen
    refine ⟨fun _ h => absurd h (by omega), fun _ => ⟨?_, gnwNextPacket_neg_iff, ?_⟩⟩
    · intro hpos; omega
    · simp [hzero, hlen]
  by_cases hstart : StartsFrame xs
  · have hlen' : 11 ≤ xs.length := by omega
    have heq := gnwNextPacket_of_startsFrame order hlen' hstart
    constructor
    · intro hcontract _ _
      by_contra hover
      -- the 32-bit sum is at most ten, or zero with all of the frame there
      by_cases hsum : 11 + declaredLength order xs = 2 ^ 32
      · have hzero : gnwNextPacket order xs = 0 := by rw [heq, hsum]; simp
        have := hcontract.zero.1 hzero
        simp only [hstart, true_and] at this
        omega
      · have hwrap : (11 + declaredLength order xs) % 2 ^ 32 =
            11 + declaredLength order xs - 2 ^ 32 := by omega
        rw [hwrap, if_pos (by omega)] at heq
        have := (hcontract.positive (by omega)).2.1
        omega
    · intro hfits
      refine ⟨fun hpos => ?_, gnwNextPacket_neg_iff, ?_⟩
      · obtain ⟨-, -, hsize, hle⟩ := gnwNextPacket_pos hpos
        have := hfits (by omega) hstart
        refine ⟨hstart, ?_, by omega⟩
        omega
      · have := hfits (by omega) hstart
        rw [heq]
        simp only [hlen, hstart, true_and, false_or]
        split <;> omega
  · have hneg : gnwNextPacket order xs < 0 :=
      gnwNextPacket_of_not_startsFrame (by omega) hstart
    refine ⟨fun _ _ h => absurd h hstart, fun _ => ⟨?_, gnwNextPacket_neg_iff, ?_⟩⟩
    · intro hpos; omega
    · simp only [hlen, hstart, false_and, or_false, iff_false]
      omega

/-- A header that declares `2 ^ 32 - 1` bytes is taken for a whole frame of
    ten. -/
theorem nextPacketContract_fails :
    ¬NextPacketContract .little [0x55, 0x02, 0x10, 0, 0, 0, 0, 0xFF, 0xFF, 0xFF, 0xFF] := by
  intro hcontract
  have hten : gnwNextPacket .little
      [0x55, 0x02, 0x10, 0, 0, 0, 0, 0xFF, 0xFF, 0xFF, 0xFF] = 10 := by decide
  have := (hcontract.positive (by rw [hten]; decide)).2.1
  rw [hten] at this
  omega

/-! ## Frames and noise -/

/-- A frame that one of the two emit functions sent. -/
def IsEmitted (order : ByteOrder) (frame : List UInt8) : Prop :=
  (∃ source payload, gnwEmitDataPacket order source payload payload.length = .ok (some frame)) ∨
    ∃ type payload, gnwEmitCommandPacket order type payload payload.length = .ok frame

theorem IsEmitted.exists_frameBytes {order : ByteOrder} {frame : List UInt8}
    (h : IsEmitted order frame) :
    ∃ type source payload, frame = frameBytes order type source payload := by
  rcases h with ⟨source, payload, h⟩ | ⟨type, payload, h⟩
  · rw [gnwEmitDataPacket_eq] at h
    split at h <;> cases h
    exact ⟨GNW_DATA, source, payload, rfl⟩
  · rw [gnwEmitCommandPacket_eq] at h
    cases h
    exact ⟨type, 0xFFFFFFFF, payload, rfl⟩

theorem declaredLength_frameBytes (order : ByteOrder) (type : UInt8) (source : UInt32)
    {payload : List UInt8} (h : payload.length < 2 ^ 32) :
    declaredLength order (frameBytes order type source payload) = payload.length := by
  obtain ⟨header, hread, -, -, hlength⟩ :=
    readHeader_append order
      (by simp : 11 ≤ (frameBytes order type source payload).length) []
  rw [readHeader_frameBytes] at hread
  obtain ⟨rfl, -⟩ := by simpa using hread
  rw [hlength]
  simpa using h

theorem startsFrame_frameBytes (order : ByteOrder) (type : UInt8) (source : UInt32)
    (payload : List UInt8) : StartsFrame (frameBytes order type source payload) := ⟨rfl, rfl⟩

/-- A built frame of a size that fits 32 bits is read whole, and not before its
    last byte is there. -/
theorem isFrame_frameBytes {order : ByteOrder} {type : UInt8} {source : UInt32}
    {payload : List UInt8} (h : payload.length + 11 < 2 ^ 32) :
    (frameReader order).IsFrame (frameBytes order type source payload) := by
  have hstart := startsFrame_frameBytes order type source payload
  have hfits : payload.length < 2 ^ 32 := by omega
  have hdeclared := declaredLength_frameBytes order type source hfits
  constructor
  · intro ys
    have hnext : gnwNextPacket order (frameBytes order type source payload ++ ys) =
        (payload.length + 11 : Nat) := by
      rw [gnwNextPacket_of_startsFrame order (by simp; omega) (hstart.append ys),
        declaredLength_append (by simp), hdeclared, Nat.mod_eq_of_lt (by omega),
        if_pos (by simp; omega), Nat.add_comm]
    simp only [frameReader, hnext, length_frameBytes]
    rw [if_neg (by omega), if_neg (by omega), Int.toNat_natCast]
  · intro p hp hlt
    have hnext : gnwNextPacket order p = 0 := by
      by_cases hshort : p.length < 11
      · exact gnwNextPacket_short hshort
      obtain ⟨rest, hrest⟩ := hp
      rw [← hrest] at hstart hdeclared hlt
      rw [declaredLength_append (by omega)] at hdeclared
      rw [gnwNextPacket_of_startsFrame order (by omega) (hstart.of_append (by omega)), hdeclared,
        Nat.mod_eq_of_lt (by omega), if_neg]
      have : payload.length + 11 = (p ++ rest).length := by rw [hrest, length_frameBytes]
      omega
    simp [frameReader, hnext]

theorem IsEmitted.isFrame {order : ByteOrder} {frame : List UInt8} (h : IsEmitted order frame)
    (hlen : frame.length < 2 ^ 32) : (frameReader order).IsFrame frame := by
  obtain ⟨type, source, payload, rfl⟩ := h.exists_frameBytes
  exact isFrame_frameBytes (by simpa using hlen)

/-- Bytes in front of `rest` from none of which the stream reads magic and
    version. -/
def NoMagic (g rest : List UInt8) : Prop :=
  ∀ u v, g = u ++ v → v ≠ [] → ¬StartsFrame (v ++ rest)

theorem NoMagic.isNoise {order : ByteOrder} {g rest : List UInt8} (h : NoMagic g rest) :
    (frameReader order).IsNoise g rest := by
  intro u v hg hv p hp hlen
  have hlen : 11 ≤ p.length := hlen
  have hneg : gnwNextPacket order p < 0 := by
    refine gnwNextPacket_of_not_startsFrame hlen fun hstart => h u v hg hv ?_
    obtain ⟨ys, hys⟩ := hp
    rw [← hys]
    exact hstart.append ys
  simp [frameReader, hneg]
