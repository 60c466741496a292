import Mathlib

/-! Fixed-width big-endian integers on byte lists: the layout of network byte
order. A natural number becomes exactly `width` bytes, most significant
first, and a byte list is read back as a natural. The fixed-width readers and
writers of `u16`, `u32`, `u64` and `u128` are instances of the two maps. -/
namespace BigEndian

/-- The `width` big-endian bytes of `n`; bits above `8 * width` are dropped,
as a fixed-width store drops them. -/
def toBytes : Nat → Nat → List UInt8
  | 0, _ => []
  | width + 1, n => UInt8.ofNat (n / 256 ^ width % 256) :: toBytes width n

/-- The natural number whose big-endian bytes are the list. -/
def ofBytes : List UInt8 → Nat
  | [] => 0
  | b :: bs => b.toNat * 256 ^ bs.length + ofBytes bs

/-- The bytes of a buffer between two offsets, as the slice `bytes[start..stop]`. -/
def slice (bytes : List UInt8) (start stop : Nat) : List UInt8 :=
  (bytes.drop start).take (stop - start)

@[simp] theorem length_toBytes (width n : Nat) : (toBytes width n).length = width := by
  induction width with
  | zero => rfl
  | succ width ih => simp [toBytes, ih]

theorem ofBytes_toBytes (width n : Nat) : ofBytes (toBytes width n) = n % 256 ^ width := by
  induction width with
  | zero => simp [toBytes, ofBytes, Nat.mod_one]
  | succ width ih =>
      have hByte : (UInt8.ofNat (n / 256 ^ width % 256)).toNat = n / 256 ^ width % 256 := by
        simp
      rw [toBytes, ofBytes, length_toBytes, ih, hByte, pow_succ, Nat.mod_mul]
      ring

theorem ofBytes_toBytes_of_lt {width n : Nat} (h : n < 256 ^ width) :
    ofBytes (toBytes width n) = n := by
  rw [ofBytes_toBytes, Nat.mod_eq_of_lt h]

theorem ofBytes_lt (bytes : List UInt8) : ofBytes bytes < 256 ^ bytes.length := by
  induction bytes with
  | nil => simp [ofBytes]
  | cons b bs ih =>
      have hb : b.toNat < 256 := b.toNat_lt
      have hStep : b.toNat * 256 ^ bs.length + ofBytes bs < 256 * 256 ^ bs.length := by
        nlinarith
      simpa [ofBytes, pow_succ, Nat.mul_comm] using hStep

/-- Only the low `width` bytes of a value are written. -/
theorem toBytes_mod (width n : Nat) : toBytes width (n % 256 ^ width) = toBytes width n := by
  induction width generalizing n with
  | zero => rfl
  | succ width ih =>
      have hHead : n % 256 ^ (width + 1) / 256 ^ width % 256 = n / 256 ^ width % 256 := by
        rw [pow_succ, Nat.mod_mul_right_div_self, Nat.mod_mod]
      have hTail : toBytes width (n % 256 ^ (width + 1)) = toBytes width n := by
        rw [← ih (n % 256 ^ (width + 1)), Nat.mod_mod_of_dvd _ (pow_dvd_pow 256 (Nat.le_succ width)),
          ih]
      rw [toBytes, toBytes, hHead, hTail]

/-- Reading the bytes back and writing them again gives the same bytes. -/
theorem toBytes_ofBytes (bytes : List UInt8) : toBytes bytes.length (ofBytes bytes) = bytes := by
  induction bytes with
  | nil => rfl
  | cons b bs ih =>
      have hb : b.toNat < 256 := b.toNat_lt
      have hLow : ofBytes bs < 256 ^ bs.length := ofBytes_lt bs
      have hPos : 0 < 256 ^ bs.length := by positivity
      have hDiv : (b.toNat * 256 ^ bs.length + ofBytes bs) / 256 ^ bs.length = b.toNat := by
        rw [Nat.add_comm, Nat.add_mul_div_right _ _ hPos, Nat.div_eq_of_lt hLow, Nat.zero_add]
      have hRest : toBytes bs.length (b.toNat * 256 ^ bs.length + ofBytes bs) = bs := by
        have hMod : (b.toNat * 256 ^ bs.length + ofBytes bs) % 256 ^ bs.length = ofBytes bs := by
          rw [Nat.add_comm, Nat.add_mul_mod_self_right, Nat.mod_eq_of_lt hLow]
        rw [← toBytes_mod, hMod, ih]
      simp only [List.length_cons, toBytes, ofBytes, hDiv, Nat.mod_eq_of_lt hb,
        UInt8.ofNat_toNat, hRest]

theorem ofBytes_append (front back : List UInt8) :
    ofBytes (front ++ back) = ofBytes front * 256 ^ back.length + ofBytes back := by
  induction front with
  | nil => simp [ofBytes]
  | cons b bs ih =>
      simp only [List.cons_append, ofBytes, List.length_append, ih, pow_add]
      ring

/-- The high bytes of a wide value are the big-endian bytes of its quotient. -/
theorem toBytes_add (high low n : Nat) :
    toBytes (high + low) n = toBytes high (n / 256 ^ low) ++ toBytes low n := by
  induction high with
  | zero => simp [toBytes]
  | succ high ih =>
      rw [Nat.add_right_comm, toBytes, ih, toBytes, Nat.div_div_eq_div_mul, ← pow_add,
        Nat.add_comm low high]
      rfl

/-! ## Slices -/

@[simp] theorem length_slice (bytes : List UInt8) (start stop : Nat) :
    (slice bytes start stop).length = min (stop - start) (bytes.length - start) := by
  simp [slice]

/-- A field written between a known prefix and any suffix is read back by the
slice at its offsets. This is the one fact every fixed-offset decoder uses. -/
theorem slice_middle (front middle back : List UInt8) {start stop : Nat}
    (hStart : front.length = start) (hStop : start + middle.length = stop) :
    slice (front ++ middle ++ back) start stop = middle := by
  subst hStart hStop
  simp [slice]

/-- A slice past a prefix of known length is a slice of the rest. -/
@[simp] theorem slice_append_of_le (front rest : List UInt8) {start stop : Nat}
    (h : front.length ≤ start) :
    slice (front ++ rest) start stop = slice rest (start - front.length) (stop - front.length) := by
  obtain ⟨extra, rfl⟩ := Nat.exists_eq_add_of_le h
  simp [slice, List.drop_append, Nat.sub_add_eq,
    List.drop_eq_nil_of_le (Nat.le_add_right front.length extra)]

/-- A slice from the start that ends inside the first field is a prefix of it. -/
@[simp] theorem slice_append_zero_of_le (front rest : List UInt8) {stop : Nat}
    (h : stop ≤ front.length) : slice (front ++ rest) 0 stop = front.take stop := by
  simp [slice, List.take_append, Nat.sub_eq_zero_of_le h]

/-- A slice from the start covering exactly the first field is that field. -/
@[simp] theorem slice_append_zero (front rest : List UInt8) {stop : Nat}
    (h : front.length = stop) : slice (front ++ rest) 0 stop = front := by
  subst h
  simp [slice]

/-- Adjacent slices join into one. -/
theorem slice_append_slice (bytes : List UInt8) {start middle stop : Nat} (h₁ : start ≤ middle)
    (h₂ : middle ≤ stop) : slice bytes start middle ++ slice bytes middle stop = slice bytes start stop := by
  have hSplit : stop - start = (middle - start) + (stop - middle) := by omega
  rw [slice, slice, slice, hSplit, List.take_add, List.drop_drop, Nat.add_sub_cancel' h₁]

theorem slice_zero (bytes : List UInt8) (stop : Nat) : slice bytes 0 stop = bytes.take stop := by
  simp [slice]

/-- The first `n` bytes of a buffer, one read at a time. -/
theorem take_eq_map_getD (bytes : List UInt8) {n : Nat} (h : n ≤ bytes.length) :
    bytes.take n = (List.range n).map fun i => bytes.getD i 0 := by
  apply List.ext_getElem (by simp [h])
  intro i h₁ h₂
  have hi : i < bytes.length := by simp at h₁; omega
  simp [List.getElem?_eq_getElem hi]

/-! ## Fixed-width integers -/

/-- `u16::to_be_bytes`. -/
def u16 (x : UInt16) : List UInt8 := toBytes 2 x.toNat

/-- `u16::from_be_bytes` on the first two bytes. -/
def readU16 (bytes : List UInt8) : UInt16 := UInt16.ofNat (ofBytes bytes)

/-- `u32::to_be_bytes`. -/
def u32 (x : UInt32) : List UInt8 := toBytes 4 x.toNat

/-- `u32::from_be_bytes`. -/
def readU32 (bytes : List UInt8) : UInt32 := UInt32.ofNat (ofBytes bytes)

/-- `u64::to_be_bytes`. -/
def u64 (x : UInt64) : List UInt8 := toBytes 8 x.toNat

/-- `u64::from_be_bytes`. -/
def readU64 (bytes : List UInt8) : UInt64 := UInt64.ofNat (ofBytes bytes)

/-- `u128::to_be_bytes`; the 128-bit value is a bit vector. -/
def u128 (x : BitVec 128) : List UInt8 := toBytes 16 x.toNat

/-- `u128::from_be_bytes`. -/
def readU128 (bytes : List UInt8) : BitVec 128 := BitVec.ofNat 128 (ofBytes bytes)

@[simp] theorem length_u16 (x : UInt16) : (u16 x).length = 2 := length_toBytes _ _
@[simp] theorem length_u32 (x : UInt32) : (u32 x).length = 4 := length_toBytes _ _
@[simp] theorem length_u64 (x : UInt64) : (u64 x).length = 8 := length_toBytes _ _
@[simp] theorem length_u128 (x : BitVec 128) : (u128 x).length = 16 := length_toBytes _ _

@[simp] theorem readU16_u16 (x : UInt16) : readU16 (u16 x) = x := by
  have h : x.toNat < 256 ^ 2 := x.toNat_lt
  simp [readU16, u16, ofBytes_toBytes_of_lt h]

@[simp] theorem readU32_u32 (x : UInt32) : readU32 (u32 x) = x := by
  have h : x.toNat < 256 ^ 4 := x.toNat_lt
  simp [readU32, u32, ofBytes_toBytes_of_lt h]

@[simp] theorem readU64_u64 (x : UInt64) : readU64 (u64 x) = x := by
  have h : x.toNat < 256 ^ 8 := x.toNat_lt
  simp [readU64, u64, ofBytes_toBytes_of_lt h]

@[simp] theorem readU128_u128 (x : BitVec 128) : readU128 (u128 x) = x := by
  have h : x.toNat < 256 ^ 16 := x.isLt
  simp [readU128, u128, ofBytes_toBytes_of_lt h]

/-- Two bytes read as a `u16` are written back unchanged. -/
theorem u16_readU16 {bytes : List UInt8} (h : bytes.length = 2) : u16 (readU16 bytes) = bytes := by
  have hLt : ofBytes bytes < 2 ^ 16 := by simpa [h] using ofBytes_lt bytes
  rw [u16, readU16, UInt16.toNat_ofNat_of_lt' hLt, ← h, toBytes_ofBytes]

theorem u32_readU32 {bytes : List UInt8} (h : bytes.length = 4) : u32 (readU32 bytes) = bytes := by
  have hLt : ofBytes bytes < 2 ^ 32 := by simpa [h] using ofBytes_lt bytes
  rw [u32, readU32, UInt32.toNat_ofNat_of_lt' hLt, ← h, toBytes_ofBytes]

theorem u64_readU64 {bytes : List UInt8} (h : bytes.length = 8) : u64 (readU64 bytes) = bytes := by
  have hLt : ofBytes bytes < 2 ^ 64 := by simpa [h] using ofBytes_lt bytes
  rw [u64, readU64, UInt64.toNat_ofNat_of_lt' hLt, ← h, toBytes_ofBytes]

theorem u128_readU128 {bytes : List UInt8} (h : bytes.length = 16) :
    u128 (readU128 bytes) = bytes := by
  have hLt : ofBytes bytes < 2 ^ 128 := by simpa [h] using ofBytes_lt bytes
  rw [u128, readU128, BitVec.toNat_ofNat, Nat.mod_eq_of_lt hLt, ← h, toBytes_ofBytes]

/-- The first four bytes of a `u128` are the `u32` of its top 32 bits. -/
theorem u128_eq_high_append (x : BitVec 128) :
    u128 x = u32 (UInt32.ofNat (x.toNat / 2 ^ 96)) ++ toBytes 12 x.toNat := by
  have hHigh : x.toNat / 2 ^ 96 < 2 ^ 32 := by
    have := x.isLt
    omega
  rw [u128, show (16 : Nat) = 4 + 12 from rfl, toBytes_add, u32,
    UInt32.toNat_ofNat_of_lt' hHigh]
  norm_num

end BigEndian
