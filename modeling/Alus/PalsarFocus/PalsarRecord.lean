import Alus.Etad.Text

/-!
# The fields of a record

`Record` (`palsar_record.cc`) reads fields of a record of a PALSAR file. Offsets are counted from
one. Before a field is read, `VerifyOffset` compares its end with the size of the record.

A reading is kept together with the positions of the bytes that it reads, counted from the first
byte of the record. The value of a floating-point text is left open.
-/

namespace Alus.PalsarFocus

open Alus.Lib
open Alus.Etad (isSpace stoi)
open Outcome (require)

/-! ## Readings -/

/-- A computation with the positions of the bytes that it reads. -/
structure Reading (α : Type) where
  bytesRead : List Int
  result : Outcome α

namespace Reading

variable {α β : Type}

/-- Nothing is read. -/
def of (result : Outcome α) : Reading α := ⟨[], result⟩

def bind (x : Reading α) (f : α → Reading β) : Reading β :=
  match x.result with
  | .ok a => ⟨x.bytesRead ++ (f a).bytesRead, (f a).result⟩
  | .throws => ⟨x.bytesRead, .throws⟩
  | .undefined => ⟨x.bytesRead, .undefined⟩

instance : Monad Reading where
  pure a := of (.ok a)
  bind := bind

theorem of_ok_bind (a : α) (f : α → Reading β) : (of (.ok a) >>= f) = f a := rfl

theorem of_throws_bind (f : α → Reading β) : (of .throws >>= f) = of .throws := rfl

theorem ok_bind (positions : List Int) (a : α) (f : α → Reading β) :
    (Reading.mk positions (.ok a) >>= f) =
      ⟨positions ++ (f a).bytesRead, (f a).result⟩ := rfl

theorem undefined_bind (positions : List Int) (f : α → Reading β) :
    (Reading.mk positions (.undefined : Outcome α) >>= f) = ⟨positions, .undefined⟩ := rfl

end Reading

/-! ## The record -/

/-- The longest string, `std::string::max_size()`. -/
def stringMaxSize : Nat := 2 ^ 63 - 2

/-- `Record`, which its callers have checked to lie in the file. -/
structure Record where
  fileData : List UInt8
  recordName : String
  recordOffset : Nat
  recordSize : Nat
  in_file : recordOffset + recordSize ≤ fileData.length
  in_memory : fileData.length ≤ stringMaxSize

/-- `std::stoll`: the value and how many characters it took. -/
def stoll (text : String) : Outcome (Int × Nat) :=
  let spaces := (text.toList.takeWhile isSpace).length
  let (sign, signLength, rest) : Int × Nat × List Char :=
    match text.toList.drop spaces with
    | '-' :: rest => (-1, 1, rest)
    | '+' :: rest => (1, 1, rest)
    | rest => (1, 0, rest)
  let digits := rest.takeWhile Char.isDigit
  let value := sign * digits.foldl (fun n (c : Char) => 10 * n + ((c.toNat : Int) - 48)) 0
  if digits ≠ [] ∧ Fits 64 value then .ok (value, spaces + signLength + digits.length)
  else .throws

/-- A `std::string` of bytes. -/
def stringOf (bytes : List UInt8) : String :=
  String.ofList (bytes.map fun b => Char.ofNat b.toNat)

/-- The number of bytes in big-endian order: `__builtin_bswap32` of four of them. -/
def bigEndian (bytes : List UInt8) : Nat := bytes.foldl (fun n b => n * 256 + b.toNat) 0

namespace Record

variable (r : Record)

/-- `VerifyOffset`. The end of the field is a `size_t`. -/
def verifyOffset (offset fieldSize : Nat) : Outcome Unit :=
  require ((offset + (2 ^ 64 - 1) + fieldSize) % 2 ^ 64 < r.recordSize)

/-- The bytes from `Data() + offset - 1` on. -/
def bytesAt (offset size : Nat) : Reading (List UInt8) where
  bytesRead := (List.range size).map fun (k : Nat) => (offset : Int) - 1 + (k : Int)
  result :=
    if 1 ≤ r.recordOffset + offset ∧ r.recordOffset + offset - 1 + size ≤ r.fileData.length then
      .ok ((r.fileData.drop (r.recordOffset + offset - 1)).take size)
    else .undefined

/-- `std::string s(Data() + offset - 1, size)`. -/
def stringAt (offset size : Nat) : Reading (List UInt8) :=
  if size ≤ stringMaxSize then r.bytesAt offset size else .of .throws

/-- `PrintBytes`. What is logged of the bytes is left out. -/
def printBytes (offset fieldSize : Nat) : Reading Unit := do
  let _ ← r.bytesAt offset fieldSize
  return ()

/-- A field whose text is converted: an exception of the conversion is thrown again after its bytes
have been printed. -/
def readConverted {α : Type} (convert : String → Outcome α) (fieldSize : Nat)
    (dataOffset : UInt32) : Reading α := do
  Reading.of (r.verifyOffset dataOffset.toNat fieldSize)
  let s ← r.stringAt dataOffset.toNat fieldSize
  match convert (stringOf s) with
  | .throws => do
    r.printBytes dataOffset.toNat fieldSize
    Reading.of .throws
  | res => Reading.of res

section Texts

variable {T : Type} (stod : String → Outcome T)

/-- `ReadF16`. -/
def readF16 (dataOffset : UInt32) : Reading T := r.readConverted stod 16 dataOffset

/-- `ReadF8`. -/
def readF8 (dataOffset : UInt32) : Reading T := r.readConverted stod 8 dataOffset

/-- `ReadD22`. -/
def readD22 (dataOffset : UInt32) : Reading T := r.readConverted stod 22 dataOffset

end Texts

/-- `std::stoi`, of which `ReadI4` returns the value as `uint32_t`. -/
def toI4 (s : String) : Outcome Nat := do
  let (value, _) ← stoi s
  return (value % 2 ^ 32).toNat

/-- `std::stoll`, of which `ReadI6` and `ReadI8` return the value as `uint64_t`. -/
def toI8 (s : String) : Outcome Nat := do
  let (value, _) ← stoll s
  return (value % 2 ^ 64).toNat

/-- `ReadI4`. -/
def readI4 (dataOffset : UInt32) : Reading Nat := r.readConverted toI4 4 dataOffset

/-- `ReadI6`. -/
def readI6 (dataOffset : UInt32) : Reading Nat := r.readConverted toI8 6 dataOffset

/-- `ReadI8`. -/
def readI8 (dataOffset : UInt32) : Reading Nat := r.readConverted toI8 8 dataOffset

/-- `ReadAn`. -/
def readAn (dataOffset : UInt32) (n : UInt64) : Reading String := do
  Reading.of (r.verifyOffset dataOffset.toNat n.toNat)
  let s ← r.stringAt dataOffset.toNat n.toNat
  return stringOf s

/-- `ReadB1`. -/
def readB1 (dataOffset : UInt32) : Reading Nat := do
  Reading.of (r.verifyOffset dataOffset.toNat 1)
  let b ← r.bytesAt dataOffset.toNat 1
  return bigEndian b

/-- `ReadB4`. -/
def readB4 (dataOffset : UInt32) : Reading Nat := do
  Reading.of (r.verifyOffset dataOffset.toNat 4)
  let b ← r.bytesAt dataOffset.toNat 4
  return bigEndian b

/-! ## Fields of a record -/

/-- The bytes of the record. -/
def bytes : List UInt8 := (r.fileData.drop r.recordOffset).take r.recordSize

/-- The bytes of a field. -/
def field (offset size : Nat) : List UInt8 := (r.bytes.drop (offset - 1)).take size

/-- The field lies in the record. -/
def HasField (offset size : Nat) : Prop := 1 ≤ offset ∧ offset - 1 + size ≤ r.recordSize

/-- A field of the record is read, and nothing else. -/
structure ReadsField {α : Type} (offset size : Nat) (value : List UInt8 → Outcome α)
    (reading : Reading α) : Prop where
  inside : r.HasField offset size →
    (∀ p, p ∈ reading.bytesRead ↔ (offset : Int) - 1 ≤ p ∧ p < (offset : Int) - 1 + (size : Int)) ∧
      reading.result = value (r.field offset size)
  outside : ¬ r.HasField offset size → reading.bytesRead = [] ∧ reading.result = .throws

/-- The field does not end with the record. At offset zero the record is shorter than the field,
unless this has no bytes. -/
def BoundHolds (offset size : Nat) : Prop :=
  if offset = 0 then size = 0 ∨ r.recordSize < size else offset - 1 + size ≠ r.recordSize

/-! ## Positions and bytes -/

variable {r} {offset size : Nat}

theorem mem_bytesRead {p : Int} : p ∈ (r.bytesAt offset size).bytesRead ↔
    (offset : Int) - 1 ≤ p ∧ p < (offset : Int) - 1 + (size : Int) := by
  show p ∈ (List.range size).map (fun (k : Nat) => (offset : Int) - 1 + (k : Int)) ↔ _
  rw [List.mem_map]
  apply Iff.intro
  · intro h
    cases h with
    | intro k hk =>
      have hless := List.mem_range.mp hk.1
      omega
  · intro h
    exact ⟨(p - ((offset : Int) - 1)).toNat, List.mem_range.mpr (by omega), by omega⟩

theorem bytesRead_ne_nil (hsize : size ≠ 0) : (r.bytesAt offset size).bytesRead ≠ [] := by
  apply List.ne_nil_of_mem
  exact mem_bytesRead.mpr ⟨le_refl _, by omega⟩

/-- The bytes of a field of the record are in the file. -/
theorem bytesAt_result (h : r.HasField offset size) :
    (r.bytesAt offset size).result = .ok (r.field offset size) := by
  have hfile := r.in_file
  have hstart : r.recordOffset + offset - 1 = r.recordOffset + (offset - 1) := by
    have := h.1
    omega
  have hend := h.2
  show (if 1 ≤ r.recordOffset + offset ∧
    r.recordOffset + offset - 1 + size ≤ r.fileData.length then _ else _) = _
  rw [if_pos ⟨by have := h.1; omega, by omega⟩, field, bytes, List.drop_take, List.drop_drop,
    List.take_take, hstart, Nat.min_eq_left (by omega)]

theorem HasField.size_le (h : r.HasField offset size) : size ≤ stringMaxSize := by
  have hfile := r.in_file
  have hmemory := r.in_memory
  have hend := h.2
  omega

/-! ## The comparison -/

theorem verifyOffset_of_lt (hoffset : 1 ≤ offset) (hend : offset - 1 + size < r.recordSize) :
    r.verifyOffset offset size = .ok () := by
  have hfile := r.in_file
  have hmemory := r.in_memory
  unfold stringMaxSize at hmemory
  exact Outcome.require_of (by omega)

/-- A field that ends with the record or behind it is refused, unless its end wraps. -/
theorem verifyOffset_of_le (hoffset : 1 ≤ offset) (hend : r.recordSize ≤ offset - 1 + size)
    (hwrap : offset - 1 + size < 2 ^ 64) : r.verifyOffset offset size = .throws :=
  Outcome.require_of_not (by omega)

theorem verifyOffset_zero (hsize : size < 2 ^ 64) :
    r.verifyOffset 0 size = require (size ≠ 0 ∧ size ≤ r.recordSize) := by
  have hfile := r.in_file
  have hmemory := r.in_memory
  unfold stringMaxSize at hmemory
  unfold verifyOffset
  congr 1
  rw [eq_iff_iff]
  omega

/-! ## Reading a field -/

/-- What the functions do: the offset is verified, the bytes are taken, and used. -/
def readWith {α : Type} (r : Record) (offset size : Nat) (use : List UInt8 → Reading α) :
    Reading α := do
  Reading.of (r.verifyOffset offset size)
  let s ← r.stringAt offset size
  use s

section Use

variable {α : Type} {use : List UInt8 → Reading α} {value : List UInt8 → Outcome α}

theorem readWith_of_refused (h : r.verifyOffset offset size = .throws) :
    readWith r offset size use = .of .throws := by
  rw [readWith, h, Reading.of_throws_bind]

theorem readWith_of_accepted (h : r.verifyOffset offset size = .ok ()) :
    readWith r offset size use = r.stringAt offset size >>= use := by
  rw [readWith, h, Reading.of_ok_bind]

/-- A field that ends in the record before its last byte. -/
theorem readsField_inside (huse : r.HasField offset size → ∀ s, (∀ p ∈ (use s).bytesRead,
      (offset : Int) - 1 ≤ p ∧ p < (offset : Int) - 1 + (size : Int)) ∧ (use s).result = value s)
    (hoffset : 1 ≤ offset) (hend : offset - 1 + size < r.recordSize) :
    r.ReadsField offset size value (readWith r offset size use) := by
  have hfield : r.HasField offset size := ⟨hoffset, hend.le⟩
  have hbytes : r.bytesAt offset size =
      ⟨(r.bytesAt offset size).bytesRead, .ok (r.field offset size)⟩ := by
    rw [← bytesAt_result hfield]
  have hread : readWith r offset size use =
      ⟨(r.bytesAt offset size).bytesRead ++ (use (r.field offset size)).bytesRead,
        (use (r.field offset size)).result⟩ := by
    rw [readWith_of_accepted (verifyOffset_of_lt hoffset hend), stringAt, if_pos hfield.size_le,
      hbytes, Reading.ok_bind]
  refine ⟨fun _ => ⟨fun p => ?_, ?_⟩, fun hnot => absurd hfield hnot⟩
  · rw [hread, List.mem_append, mem_bytesRead]
    exact ⟨fun h => h.elim id fun hused => (huse hfield _).1 p hused, .inl⟩
  · rw [hread]
    exact (huse hfield _).2

/-- A field that ends with the record is refused. -/
theorem not_readsField_at_end (hvalue : size = 0 → ∀ s, value s ≠ .throws)
    (hsize : size < 2 ^ 64) (hoffset : 1 ≤ offset) (hend : offset - 1 + size = r.recordSize) :
    ¬ r.ReadsField offset size value (readWith r offset size use) := by
  intro h
  have hfile := r.in_file
  have hmemory := r.in_memory
  unfold stringMaxSize at hmemory
  have hinside := h.inside ⟨hoffset, hend.le⟩
  rw [readWith_of_refused (verifyOffset_of_le hoffset hend.ge (by omega))] at hinside
  by_cases hzero : size = 0
  · exact hvalue hzero _ hinside.2.symm
  · exact absurd ((hinside.1 ((offset : Int) - 1)).mpr ⟨le_refl _, by omega⟩) List.not_mem_nil

/-- A field that ends behind the record is refused, also where its end wraps: then it is longer
than a string. -/
theorem readsField_behind (hoffset : 1 ≤ offset) (hless : offset < 2 ^ 32)
    (hend : r.recordSize < offset - 1 + size) :
    r.ReadsField offset size value (readWith r offset size use) := by
  have hnot : ¬ r.HasField offset size := fun h => absurd h.2 (not_le.mpr hend)
  have hread : readWith r offset size use = .of .throws := by
    by_cases hwrap : offset - 1 + size < 2 ^ 64
    · exact readWith_of_refused (verifyOffset_of_le hoffset hend.le hwrap)
    · have hlong : ¬ size ≤ stringMaxSize := by
        unfold stringMaxSize
        omega
      cases hverify : r.verifyOffset offset size with
      | ok _ =>
        rw [readWith_of_accepted hverify, stringAt, if_neg hlong]
        rfl
      | throws => exact readWith_of_refused hverify
      | undefined => exact absurd hverify (Outcome.require_ne_undefined _)
  refine ⟨fun h => absurd h hnot, fun _ => ?_⟩
  rw [hread]
  exact ⟨rfl, rfl⟩

/-- Offset zero is refused where the record is shorter than the field, and read otherwise. -/
theorem readsField_zero_iff (hsize : size < 2 ^ 64) :
    r.ReadsField 0 size value (readWith r 0 size use) ↔ size = 0 ∨ r.recordSize < size := by
  have hnot : ¬ r.HasField 0 size := fun h => absurd h.1 (by decide)
  have hverify := verifyOffset_zero (r := r) hsize
  by_cases haccepted : size ≠ 0 ∧ size ≤ r.recordSize
  · rw [Outcome.require_of haccepted] at hverify
    have hshort : size ≤ stringMaxSize := by
      have hfile := r.in_file
      have hmemory := r.in_memory
      omega
    apply iff_of_false
    · intro h
      have houtside := (h.outside hnot).1
      rw [readWith_of_accepted hverify, stringAt, if_pos hshort] at houtside
      have hne : (r.bytesAt 0 size).bytesRead ≠ [] := bytesRead_ne_nil haccepted.1
      revert houtside
      show (Reading.bind (r.bytesAt 0 size) use).bytesRead ≠ []
      unfold Reading.bind
      cases (r.bytesAt 0 size).result with
      | ok s => exact List.append_ne_nil_of_left_ne_nil hne _
      | throws => exact hne
      | undefined => exact hne
    · omega
  · rw [Outcome.require_of_not haccepted] at hverify
    apply iff_of_true
    · refine ⟨fun h => absurd h hnot, fun _ => ?_⟩
      rw [readWith_of_refused hverify]
      exact ⟨rfl, rfl⟩
    · omega

/-- What is read by every function that verifies the offset first. -/
theorem readsField_iff (huse : r.HasField offset size → ∀ s, (∀ p ∈ (use s).bytesRead,
      (offset : Int) - 1 ≤ p ∧ p < (offset : Int) - 1 + (size : Int)) ∧ (use s).result = value s)
    (hvalue : size = 0 → ∀ s, value s ≠ .throws) (hoffset : offset < 2 ^ 32)
    (hsize : size < 2 ^ 64) :
    r.ReadsField offset size value (readWith r offset size use) ↔ r.BoundHolds offset size := by
  unfold BoundHolds
  by_cases hzero : offset = 0
  · rw [if_pos hzero, hzero]
    exact readsField_zero_iff hsize
  · rw [if_neg hzero]
    rcases Nat.lt_trichotomy (offset - 1 + size) r.recordSize with hend | hend | hend
    · exact iff_of_true (readsField_inside huse (by omega) hend) hend.ne
    · exact iff_of_false (not_readsField_at_end hvalue hsize (by omega) hend) fun h => h hend
    · exact iff_of_true (readsField_behind (by omega) hoffset hend) hend.ne'

end Use

/-! ## The functions -/

/-- The bytes of a conversion that fails are read again to be printed. -/
theorem readConverted_iff {α : Type} (r : Record) (convert : String → Outcome α) {size : Nat}
    (hpos : 0 < size) (hsize : size < 2 ^ 64) (dataOffset : UInt32) :
    r.ReadsField dataOffset.toNat size (fun s => convert (stringOf s))
      (r.readConverted convert size dataOffset) ↔ r.BoundHolds dataOffset.toNat size := by
  apply readsField_iff
  · intro hfield s
    have hprint : r.printBytes dataOffset.toNat size =
        ⟨(r.bytesAt dataOffset.toNat size).bytesRead ++ [], .ok ()⟩ := by
      show Reading.bind (r.bytesAt dataOffset.toNat size) _ = _
      rw [Reading.bind, bytesAt_result hfield]
      rfl
    cases hconvert : convert (stringOf s) with
    | ok a => exact ⟨fun p hp => absurd hp List.not_mem_nil, rfl⟩
    | undefined => exact ⟨fun p hp => absurd hp List.not_mem_nil, rfl⟩
    | throws =>
      dsimp only
      rw [hprint]
      refine ⟨fun p hp => ?_, rfl⟩
      have hprinted : p ∈ (r.bytesAt dataOffset.toNat size).bytesRead ++ [] ++ [] := hp
      rw [List.append_nil, List.append_nil] at hprinted
      exact mem_bytesRead.mp hprinted
  · exact fun hzero => absurd hzero hpos.ne'
  · exact dataOffset.toNat_lt
  · exact hsize

/-- A function that uses the bytes as they are. -/
theorem readWith_pure_iff {α : Type} (r : Record) (f : List UInt8 → α) {size : Nat}
    (hsize : size < 2 ^ 64) (dataOffset : UInt32) :
    r.ReadsField dataOffset.toNat size (fun s => .ok (f s))
      (readWith r dataOffset.toNat size fun s => pure (f s)) ↔
        r.BoundHolds dataOffset.toNat size := by
  apply readsField_iff
  · exact fun _ s => ⟨fun p hp => absurd hp List.not_mem_nil, rfl⟩
  · exact fun _ s h => (nomatch h)
  · exact dataOffset.toNat_lt
  · exact hsize

theorem readB1_eq (r : Record) (dataOffset : UInt32) :
    r.readB1 dataOffset = readWith r dataOffset.toNat 1 fun b => pure (bigEndian b) := rfl

theorem readB4_eq (r : Record) (dataOffset : UInt32) :
    r.readB4 dataOffset = readWith r dataOffset.toNat 4 fun b => pure (bigEndian b) := rfl

/-- Every function reads the fields of the record, and no others, exactly where the field does not
end with the record and the offset is not zero. -/
theorem readsFields_iff (r : Record) {T : Type} (stod : String → Outcome T) (dataOffset : UInt32)
    (n : UInt64) :
    (r.ReadsField dataOffset.toNat 16 (fun s => stod (stringOf s)) (r.readF16 stod dataOffset) ↔
      r.BoundHolds dataOffset.toNat 16) ∧
    (r.ReadsField dataOffset.toNat 8 (fun s => stod (stringOf s)) (r.readF8 stod dataOffset) ↔
      r.BoundHolds dataOffset.toNat 8) ∧
    (r.ReadsField dataOffset.toNat 22 (fun s => stod (stringOf s)) (r.readD22 stod dataOffset) ↔
      r.BoundHolds dataOffset.toNat 22) ∧
    (r.ReadsField dataOffset.toNat 4 (fun s => toI4 (stringOf s)) (r.readI4 dataOffset) ↔
      r.BoundHolds dataOffset.toNat 4) ∧
    (r.ReadsField dataOffset.toNat 6 (fun s => toI8 (stringOf s)) (r.readI6 dataOffset) ↔
      r.BoundHolds dataOffset.toNat 6) ∧
    (r.ReadsField dataOffset.toNat 8 (fun s => toI8 (stringOf s)) (r.readI8 dataOffset) ↔
      r.BoundHolds dataOffset.toNat 8) ∧
    (r.ReadsField dataOffset.toNat n.toNat (fun s => .ok (stringOf s)) (r.readAn dataOffset n) ↔
      r.BoundHolds dataOffset.toNat n.toNat) ∧
    (r.ReadsField dataOffset.toNat 1 (fun s => .ok (bigEndian s)) (r.readB1 dataOffset) ↔
      r.BoundHolds dataOffset.toNat 1) ∧
    (r.ReadsField dataOffset.toNat 4 (fun s => .ok (bigEndian s)) (r.readB4 dataOffset) ↔
      r.BoundHolds dataOffset.toNat 4) := by
  refine ⟨?_, ?_, ?_, ?_, ?_, ?_, ?_, ?_, ?_⟩
  · exact readConverted_iff r stod (by decide) (by decide) dataOffset
  · exact readConverted_iff r stod (by decide) (by decide) dataOffset
  · exact readConverted_iff r stod (by decide) (by decide) dataOffset
  · exact readConverted_iff r toI4 (by decide) (by decide) dataOffset
  · exact readConverted_iff r toI8 (by decide) (by decide) dataOffset
  · exact readConverted_iff r toI8 (by decide) (by decide) dataOffset
  · exact readWith_pure_iff r stringOf n.toNat_lt dataOffset
  · exact readB1_eq r dataOffset ▸ readWith_pure_iff r bigEndian (by decide) dataOffset
  · exact readB4_eq r dataOffset ▸ readWith_pure_iff r bigEndian (by decide) dataOffset

/-- A file of two records, and the second of them. -/
def secondRecord : Record where
  fileData := [0, 0, 0, 1, 0, 0, 0, 2]
  recordName := "Second"
  recordOffset := 4
  recordSize := 4
  in_file := by decide
  in_memory := by decide

/-- The field that is all of the record is refused, and at offset zero a byte of the record before
is read. -/
theorem not_readsField_whole :
    ¬ secondRecord.ReadsField 1 4 (fun s => .ok (bigEndian s)) (secondRecord.readB4 1) ∧
      ¬ secondRecord.ReadsField 0 4 (fun s => .ok (bigEndian s)) (secondRecord.readB4 0) := by
  apply And.intro
  · intro h
    have hread : (secondRecord.readB4 1).result = .throws := by decide
    have hvalue := (h.inside ⟨by decide, by decide⟩).2
    rw [hread] at hvalue
    cases hvalue
  · intro h
    have hread : (secondRecord.readB4 0).result = .ok 16777216 := by decide
    have hrefused := (h.outside fun hfield => absurd hfield.1 (by decide)).2
    rw [hread] at hrefused
    cases hrefused

end Record

end Alus.PalsarFocus
