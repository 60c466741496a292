import Mathlib

/-! Little-endian integers on byte lists, and fixed-width fields read off the
front of a buffer. A natural number becomes `width` bytes, least significant
first. A `Field` is a layout of values in a fixed number of bytes that reads
back what it writes. `get` reads a field the way `bytes::Buf`'s `get_*` methods
do, and it fails exactly where those panic, when fewer bytes remain than the
field takes. -/
namespace LittleEndian

/-- The `width` little-endian bytes of `n`; bits above `8 * width` are dropped. -/
def toBytes : Nat → Nat → List UInt8
  | 0, _ => []
  | width + 1, n => UInt8.ofNat (n % 256) :: toBytes width (n / 256)

/-- The natural number whose little-endian bytes are the list. -/
def ofBytes : List UInt8 → Nat
  | [] => 0
  | b :: bs => b.toNat + 256 * ofBytes bs

@[simp] theorem length_toBytes (width n : Nat) : (toBytes width n).length = width := by
  induction width generalizing n with
  | zero => rfl
  | succ width ih => simp [toBytes, ih]

theorem ofBytes_toBytes (width n : Nat) : ofBytes (toBytes width n) = n % 256 ^ width := by
  induction width generalizing n with
  | zero => simp [toBytes, ofBytes, Nat.mod_one]
  | succ width ih =>
      have hByte : (UInt8.ofNat (n % 256)).toNat = n % 256 := by simp
      rw [toBytes, ofBytes, ih, hByte, pow_succ, Nat.mul_comm (256 ^ width) 256, Nat.mod_mul]

theorem ofBytes_lt (bytes : List UInt8) : ofBytes bytes < 256 ^ bytes.length := by
  induction bytes with
  | nil => simp [ofBytes]
  | cons b bs ih =>
      have hb : b.toNat < 256 := b.toNat_lt
      rw [ofBytes, List.length_cons, pow_succ]
      nlinarith

/-- Writing a buffer's value back in as many bytes gives the buffer. -/
theorem toBytes_ofBytes (bytes : List UInt8) : toBytes bytes.length (ofBytes bytes) = bytes := by
  induction bytes with
  | nil => rfl
  | cons b bs ih =>
      have hb : b.toNat < 256 := b.toNat_lt
      have hLow : (b.toNat + 256 * ofBytes bs) % 256 = b.toNat := by omega
      have hHigh : (b.toNat + 256 * ofBytes bs) / 256 = ofBytes bs := by omega
      simp only [List.length_cons, toBytes, ofBytes, hLow, hHigh, UInt8.ofNat_toNat, ih]

/-! ## Fields -/

/-- A layout of values of `α` in `width` bytes that reads back what it writes
and writes back what it reads. -/
structure Field (α : Type) where
  width : Nat
  encode : α → List UInt8
  decode : List UInt8 → α
  length_encode : ∀ a, (encode a).length = width
  decode_encode : ∀ a, decode (encode a) = a
  encode_decode : ∀ bytes, bytes.length = width → encode (decode bytes) = bytes

/-- The field of an unsigned integer of `width` bytes, given by its value. -/
def Field.ofNat {α : Type} (width : Nat) (toNat : α → Nat) (ofNat : Nat → α)
    (toNat_lt : ∀ a, toNat a < 256 ^ width) (ofNat_toNat : ∀ a, ofNat (toNat a) = a)
    (toNat_ofNat : ∀ n, n < 256 ^ width → toNat (ofNat n) = n) : Field α where
  width := width
  encode a := toBytes width (toNat a)
  decode bytes := ofNat (ofBytes bytes)
  length_encode _ := length_toBytes _ _
  decode_encode a := by rw [ofBytes_toBytes, Nat.mod_eq_of_lt (toNat_lt a), ofNat_toNat]
  encode_decode bytes h := by
    have hLt := ofBytes_lt bytes
    rw [h] at hLt
    rw [toNat_ofNat _ hLt, ← h, toBytes_ofBytes]

/-- `put_u8` and `get_u8`. -/
def u8 : Field UInt8 :=
  Field.ofNat 1 UInt8.toNat UInt8.ofNat UInt8.toNat_lt (fun _ => UInt8.ofNat_toNat)
    (fun _ h => UInt8.toNat_ofNat_of_lt h)

/-- `put_u16_le` and `get_u16_le`. -/
def u16 : Field UInt16 :=
  Field.ofNat 2 UInt16.toNat UInt16.ofNat UInt16.toNat_lt (fun _ => UInt16.ofNat_toNat)
    (fun _ h => UInt16.toNat_ofNat_of_lt h)

/-- `put_u32_le` and `get_u32_le`. -/
def u32 : Field UInt32 :=
  Field.ofNat 4 UInt32.toNat UInt32.ofNat UInt32.toNat_lt (fun _ => UInt32.ofNat_toNat)
    (fun _ h => UInt32.toNat_ofNat_of_lt h)

/-- `put_u64_le` and `get_u64_le`. -/
def u64 : Field UInt64 :=
  Field.ofNat 8 UInt64.toNat UInt64.ofNat UInt64.toNat_lt (fun _ => UInt64.ofNat_toNat)
    (fun _ h => UInt64.toNat_ofNat_of_lt h)

/-- `put_i16_le` and `get_i16_le`: the two's-complement bits of the value. -/
def i16 : Field Int16 :=
  Field.ofNat 2 (fun a => a.toUInt16.toNat) (fun n => (UInt16.ofNat n).toInt16)
    (fun a => UInt16.toNat_lt a.toUInt16) (fun _ => by simp)
    (fun _ h => by simp only [UInt16.toUInt16_toInt16]; exact UInt16.toNat_ofNat_of_lt h)

@[simp] theorem width_u8 : u8.width = 1 := rfl

@[simp] theorem width_u16 : u16.width = 2 := rfl

@[simp] theorem width_u32 : u32.width = 4 := rfl

@[simp] theorem width_u64 : u64.width = 8 := rfl

@[simp] theorem width_i16 : i16.width = 2 := rfl

/-! ## Reading a buffer -/

/-- A `get` past the end of the buffer, where `Buf::get_*` panics: the bytes
the field needed and the bytes that remained. -/
structure Underflow where
  needed : Nat
  remaining : Nat
  deriving DecidableEq, Repr

/-- Read one field off the front of the buffer and advance past it. -/
def get {α : Type} (field : Field α) (bytes : List UInt8) : Except Underflow (α × List UInt8) :=
  if bytes.length < field.width then .error ⟨field.width, bytes.length⟩
  else .ok (field.decode (bytes.take field.width), bytes.drop field.width)

variable {α : Type} {field : Field α}

theorem get_of_le {bytes : List UInt8} (h : field.width ≤ bytes.length) :
    get field bytes = .ok (field.decode (bytes.take field.width), bytes.drop field.width) := by
  simp [get, Nat.not_lt.mpr h]

/-- A field written in front of any bytes is read back, and the read stops
where the field ends. -/
theorem get_encode_append (a : α) (rest : List UInt8) :
    get field (field.encode a ++ rest) = .ok (a, rest) := by
  have hLength := field.length_encode a
  rw [get_of_le (by simp [hLength]), ← hLength, List.take_left, List.drop_left, field.decode_encode]

theorem get_encode (a : α) : get field (field.encode a) = .ok (a, []) := by
  have hRead : get field (field.encode a ++ []) = .ok (a, []) := get_encode_append a []
  simpa using hRead

/-- A read consumed exactly the encoding of what it returned. -/
theorem eq_of_get {bytes rest : List UInt8} {a : α} (h : get field bytes = .ok (a, rest)) :
    bytes = field.encode a ++ rest := by
  unfold get at h
  split_ifs at h with hShort
  cases h
  rw [field.encode_decode _ (by simp; omega), List.take_append_drop]

/-- A read with enough bytes left succeeds, and splits the buffer into the
encoding of the value read and the rest. -/
theorem exists_get_eq_ok (field : Field α) (bytes : List UInt8) (h : field.width ≤ bytes.length) :
    ∃ a rest, get field bytes = .ok (a, rest) ∧ bytes = field.encode a ++ rest ∧
      rest.length = bytes.length - field.width := by
  refine ⟨_, _, get_of_le h, eq_of_get (get_of_le h), List.length_drop⟩

@[simp] theorem encode_u8 (b : UInt8) : u8.encode b = [b] := by
  show toBytes 1 b.toNat = [b]
  simp [toBytes, Nat.mod_eq_of_lt b.toNat_lt]

theorem get_u8_cons (b : UInt8) (rest : List UInt8) : get u8 (b :: rest) = .ok (b, rest) := by
  have hRead : get u8 (u8.encode b ++ rest) = .ok (b, rest) := get_encode_append b rest
  rwa [encode_u8, List.singleton_append] at hRead

/-- A read fails only past the end of the buffer. -/
theorem get_ne_error {bytes : List UInt8} (h : field.width ≤ bytes.length) (e : Underflow) :
    get field bytes ≠ .error e := by
  rw [get_of_le h]
  intro hError
  cases hError

end LittleEndian
