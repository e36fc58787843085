-- SUMMARY: Lists of typed fields, arrays among them, are read back as they were written.
import GraphIPC.System.HostOrder

/-!
# Reading fields back

The array functions of `lib/packet.c` copy bytes as they are and take half words
one at a time. Whatever the fields, a run of `packet_write_*` calls stores one
run of bytes, and the `packet_read_*` calls for the same fields take it apart
again on a host of the same kind.
-/

/-! ## Arrays -/

/-- Write an array of bytes. The array is the list of the `length` cells at `data`. -/
def packetWriteU8Buffer (buffer : Cursor) (data : List UInt8) : Cursor :=
  buffer.put data

/-- Write an array of half words, one after the other. -/
def packetWriteU16Buffer (order : ByteOrder) (buffer : Cursor) : List UInt16 → Cursor
  | [] => buffer
  | data :: ptr => packetWriteU16Buffer order (packetWriteU16 order buffer data) ptr

def packetReadU8Buffer (length : Nat) (buffer : List UInt8) : Option (List UInt8 × List UInt8) :=
  if length ≤ buffer.length then some (buffer.take length, buffer.drop length) else none

def packetReadU16Buffer (order : ByteOrder) :
    Nat → List UInt8 → Option (List UInt16 × List UInt8)
  | 0, buffer => some ([], buffer)
  | length + 1, buffer => do
    let (data, buffer) ← packetReadU16 order buffer
    let (ptr, buffer) ← packetReadU16Buffer order length buffer
    some (data :: ptr, buffer)

/-- The bytes of an array of half words on a host. -/
def u16BufferBytes (order : ByteOrder) (data : List UInt16) : List UInt8 :=
  data.flatMap (u16Bytes order)

@[simp] theorem length_u16BufferBytes (order : ByteOrder) (data : List UInt16) :
    (u16BufferBytes order data).length = 2 * data.length := by
  induction data with
  | nil => rfl
  | cons d data ih =>
    rw [u16BufferBytes, List.flatMap_cons, List.length_append, length_u16Bytes,
      ← u16BufferBytes, ih, List.length_cons]
    omega

theorem packetReadU8Buffer_append (data buffer : List UInt8) :
    packetReadU8Buffer data.length (data ++ buffer) = some (data, buffer) := by
  have hle : data.length ≤ (data ++ buffer).length := by simp
  rw [packetReadU8Buffer, if_pos hle, List.take_left, List.drop_left]

theorem packetReadU16Buffer_append (order : ByteOrder) (data : List UInt16)
    (buffer : List UInt8) :
    packetReadU16Buffer order data.length (u16BufferBytes order data ++ buffer) =
      some (data, buffer) := by
  induction data with
  | nil => rfl
  | cons d data ih =>
    have hbytes : u16BufferBytes order (d :: data) ++ buffer =
        u16Bytes order d ++ (u16BufferBytes order data ++ buffer) := by
      simp [u16BufferBytes]
    rw [hbytes, List.length_cons, packetReadU16Buffer, packetReadU16_u16Bytes]
    simp [ih]

/-- A pointer stays inside its block while there is room. -/
theorem Cursor.put_pos_le {ptr : Cursor} {data : List UInt8}
    (h : ptr.pos + data.length ≤ ptr.block.length) :
    (ptr.put data).pos ≤ (ptr.put data).block.length := by
  rw [Cursor.put, Memory.length_store h]
  exact h

theorem packetWriteU16Buffer_eq (order : ByteOrder) (data : List UInt16) {buffer : Cursor}
    (h : buffer.pos + (u16BufferBytes order data).length ≤ buffer.block.length) :
    packetWriteU16Buffer order buffer data = buffer.put (u16BufferBytes order data) := by
  induction data generalizing buffer with
  | nil => simp [packetWriteU16Buffer, u16BufferBytes, Cursor.put]
  | cons d data ih =>
    rw [length_u16BufferBytes, List.length_cons] at h
    have hlen : (buffer.put (u16Bytes order d)).block.length = buffer.block.length :=
      Memory.length_store (by rw [length_u16Bytes]; omega)
    have hroom : (buffer.put (u16Bytes order d)).pos + (u16BufferBytes order data).length ≤
        (buffer.put (u16Bytes order d)).block.length := by
      rw [hlen, length_u16BufferBytes]
      simp only [Cursor.put, length_u16Bytes]
      omega
    rw [packetWriteU16Buffer, packetWriteU16, ih hroom, Cursor.put_put (by omega)]
    simp [u16BufferBytes]

/-! ## Fields -/

/-- What a run of `packet_write_*` calls is given: integers, and arrays of any length. -/
inductive PacketField where
  | integer (field : WireField)
  | u8Buffer (data : List UInt8)
  | u16Buffer (data : List UInt16)
  deriving DecidableEq, Repr

/-- What the `packet_read_*` call for a field is given: the type, and the length
    of an array. -/
inductive FieldShape where
  | u8
  | u16
  | u32
  | u8Buffer (length : Nat)
  | u16Buffer (length : Nat)
  deriving DecidableEq, Repr

namespace PacketField

def shape : PacketField → FieldShape
  | .integer (.u8 _) => .u8
  | .integer (.u16 _) => .u16
  | .integer (.u32 _) => .u32
  | .u8Buffer data => .u8Buffer data.length
  | .u16Buffer data => .u16Buffer data.length

/-- The call that writes a field. -/
def write (order : ByteOrder) (buffer : Cursor) : PacketField → Cursor
  | .integer field => field.write order buffer
  | .u8Buffer data => packetWriteU8Buffer buffer data
  | .u16Buffer data => packetWriteU16Buffer order buffer data

/-- The bytes of a field on a host. -/
def bytes (order : ByteOrder) : PacketField → List UInt8
  | .integer field => field.bytes order
  | .u8Buffer data => data
  | .u16Buffer data => u16BufferBytes order data

end PacketField

namespace FieldShape

/-- The number of bytes of a field. -/
def size : FieldShape → Nat
  | .u8 => 1
  | .u16 => 2
  | .u32 => 4
  | .u8Buffer length => length
  | .u16Buffer length => 2 * length

/-- The call that reads a field. -/
def read (order : ByteOrder) : FieldShape → List UInt8 → Option (PacketField × List UInt8)
  | .u8, buffer => do
    let (data, buffer) ← packetReadU8 buffer
    some (.integer (.u8 data), buffer)
  | .u16, buffer => do
    let (data, buffer) ← packetReadU16 order buffer
    some (.integer (.u16 data), buffer)
  | .u32, buffer => do
    let (data, buffer) ← packetReadU32 order buffer
    some (.integer (.u32 data), buffer)
  | .u8Buffer length, buffer => do
    let (data, buffer) ← packetReadU8Buffer length buffer
    some (.u8Buffer data, buffer)
  | .u16Buffer length, buffer => do
    let (data, buffer) ← packetReadU16Buffer order length buffer
    some (.u16Buffer data, buffer)

end FieldShape

/-- Read fields one behind the other. -/
def readFields (order : ByteOrder) :
    List FieldShape → List UInt8 → Option (List PacketField × List UInt8)
  | [], buffer => some ([], buffer)
  | shape :: shapes, buffer => do
    let (field, buffer) ← shape.read order buffer
    let (fields, buffer) ← readFields order shapes buffer
    some (field :: fields, buffer)

/-- The number of bytes of a list of fields. -/
def fieldsSize (fields : List PacketField) : Nat :=
  (fields.map fun field => field.shape.size).sum

namespace PacketField

theorem length_bytes (order : ByteOrder) (field : PacketField) :
    (field.bytes order).length = field.shape.size := by
  cases field with
  | integer field => cases field <;> rfl
  | u8Buffer data => rfl
  | u16Buffer data => exact length_u16BufferBytes order data

/-- Every call stores the bytes of its field at the pointer. -/
theorem write_eq (order : ByteOrder) (field : PacketField) {buffer : Cursor}
    (h : buffer.pos + field.shape.size ≤ buffer.block.length) :
    field.write order buffer = buffer.put (field.bytes order) := by
  cases field with
  | integer field => exact field.write_eq order buffer
  | u8Buffer data => rfl
  | u16Buffer data =>
    refine packetWriteU16Buffer_eq order data ?_
    rwa [length_u16BufferBytes]

/-- A field is read from its bytes, whatever follows them. -/
theorem read_bytes (order : ByteOrder) (field : PacketField) (buffer : List UInt8) :
    field.shape.read order (field.bytes order ++ buffer) = some (field, buffer) := by
  cases field with
  | integer field => cases field <;> simp [shape, FieldShape.read, bytes, WireField.bytes]
  | u8Buffer data => simp [shape, FieldShape.read, bytes, packetReadU8Buffer_append]
  | u16Buffer data => simp [shape, FieldShape.read, bytes, packetReadU16Buffer_append]

end PacketField

theorem length_fieldsBytes (order : ByteOrder) (fields : List PacketField) :
    (fields.flatMap (PacketField.bytes order)).length = fieldsSize fields := by
  rw [List.length_flatMap, fieldsSize]
  simp only [PacketField.length_bytes]

/-- A run of calls stores the bytes of the fields one behind the other. -/
theorem foldl_writeField (order : ByteOrder) (fields : List PacketField) {buffer : Cursor}
    (h : buffer.pos + fieldsSize fields ≤ buffer.block.length) :
    fields.foldl (PacketField.write order) buffer =
      buffer.put (fields.flatMap (PacketField.bytes order)) := by
  induction fields generalizing buffer with
  | nil => simp [Cursor.put]
  | cons field fields ih =>
    have hsum : fieldsSize (field :: fields) = field.shape.size + fieldsSize fields := by
      simp [fieldsSize]
    rw [hsum] at h
    have hfirst : buffer.pos + (field.bytes order).length ≤ buffer.block.length := by
      rw [field.length_bytes order]
      omega
    have hroom : (buffer.put (field.bytes order)).pos + fieldsSize fields ≤
        (buffer.put (field.bytes order)).block.length := by
      have hlen : (buffer.put (field.bytes order)).block.length = buffer.block.length :=
        Memory.length_store hfirst
      have hpos : (buffer.put (field.bytes order)).pos = buffer.pos + field.shape.size := by
        rw [Cursor.put, field.length_bytes order]
      omega
    rw [List.foldl_cons, field.write_eq order (by omega), ih hroom,
      Cursor.put_put (by omega), List.flatMap_cons]

/-- Fields are read from their bytes. -/
theorem readFields_bytes (order : ByteOrder) (fields : List PacketField)
    (buffer : List UInt8) :
    readFields order (fields.map PacketField.shape)
        (fields.flatMap (PacketField.bytes order) ++ buffer) = some (fields, buffer) := by
  induction fields with
  | nil => rfl
  | cons field fields ih =>
    rw [List.map_cons, List.flatMap_cons, List.append_assoc, readFields, field.read_bytes order]
    simp [ih]

/-- Fields that are written where there is room for them are read back from the
    same place on the same host: the values are the same, reading ends where
    writing did, and the block is what it was in front and behind. -/
theorem fields_read_back (order : ByteOrder) (fields : List PacketField) (start : Cursor)
    (hroom : start.pos + fieldsSize fields ≤ start.block.length) :
    let written := fields.foldl (PacketField.write order) start
    readFields order (fields.map PacketField.shape) (written.block.drop start.pos) =
        some (fields, written.block.drop written.pos) ∧
      written.pos = start.pos + fieldsSize fields ∧
      written.block.length = start.block.length ∧
      written.block.take start.pos = start.block.take start.pos ∧
      written.block.drop written.pos = start.block.drop written.pos := by
  intro written
  let data := fields.flatMap (PacketField.bytes order)
  have hdata : data.length = fieldsSize fields := length_fieldsBytes order fields
  have hput : written = start.put data := foldl_writeField order fields hroom
  have hpos : written.pos = start.pos + data.length := by rw [hput]; rfl
  have hblock : written.block = Memory.store start.block start.pos data := by rw [hput]; rfl
  have hfront : start.pos ≤ start.block.length := by omega
  -- the block is its old front, the new bytes, and its old back
  have hdrop : written.block.drop start.pos = data ++ start.block.drop written.pos := by
    rw [hblock, hpos, Memory.store, List.append_assoc, List.drop_left' (by simp [hfront])]
  have hback : written.block.drop written.pos = start.block.drop written.pos := by
    rw [hpos, hblock, Memory.drop_store hfront]
  refine ⟨?_, ?_, ?_, ?_, hback⟩
  · rw [hdrop, hback]
    exact readFields_bytes order fields _
  · rw [hpos, hdata]
  · rw [hblock, Memory.length_store (by rw [hdata]; exact hroom)]
  · rw [hblock, Memory.store, List.append_assoc, List.take_left' (by simp [hfront])]

/-- A byte, an array of two half words and a word in the middle of a used block. -/
theorem fields_read_back_sample :
    readFields .little [.u8, .u16Buffer 2, .u32]
        ((([.integer (.u8 7), .u16Buffer [258, 3], .integer (.u32 0x01020304)] :
          List PacketField).foldl (PacketField.write .little)
            ⟨List.replicate 12 0xFF, 2⟩).block.drop 2) =
      some ([.integer (.u8 7), .u16Buffer [258, 3], .integer (.u32 0x01020304)], [0xFF]) := by
  obtain ⟨hread, -⟩ := fields_read_back .little
    [.integer (.u8 7), .u16Buffer [258, 3], .integer (.u32 0x01020304)]
    ⟨List.replicate 12 0xFF, 2⟩ (by decide)
  exact hread
