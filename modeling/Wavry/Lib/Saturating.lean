import Mathlib

/-! Saturating and checked arithmetic on machine words: a saturating result
stops at the end of the range instead of wrapping, and a checked one is
missing where the exact result would not fit. A debug build checks plain
arithmetic too: where a release build wraps (and takes a shift amount modulo
the width), it panics. -/
namespace Saturating

/-- `u64::saturating_sub`. -/
def saturatingSub (a b : UInt64) : UInt64 := if b ≤ a then a - b else 0

@[simp] theorem toNat_saturatingSub (a b : UInt64) :
    (saturatingSub a b).toNat = a.toNat - b.toNat := by
  unfold saturatingSub
  split_ifs with h
  · exact UInt64.toNat_sub_of_le _ _ h
  · have := UInt64.lt_iff_toNat_lt.mp (UInt64.not_le.mp h)
    simp only [UInt64.toNat_zero]
    omega

/-- `u32::saturating_add`. -/
def saturatingAdd32 (a b : UInt32) : UInt32 :=
  if a.toNat + b.toNat < 2 ^ 32 then a + b else 0xFFFFFFFF

/-- A saturating sum is the exact sum, cut at the top of the range. -/
theorem toNat_saturatingAdd32 (a b : UInt32) :
    (saturatingAdd32 a b).toNat = min (a.toNat + b.toNat) (2 ^ 32 - 1) := by
  unfold saturatingAdd32
  split_ifs with h
  · rw [UInt32.toNat_add, Nat.mod_eq_of_lt h]
    omega
  · have : (0xFFFFFFFF : UInt32).toNat = 2 ^ 32 - 1 := rfl
    omega

/-- Below the top of the range the sum is exact. -/
theorem toNat_saturatingAdd32_of_lt {a b : UInt32} (h : a.toNat + b.toNat < 2 ^ 32) :
    (saturatingAdd32 a b).toNat = a.toNat + b.toNat := by
  simp only [saturatingAdd32, h, if_true, UInt32.toNat_add]
  exact Nat.mod_eq_of_lt h

/-- A count below some other word goes up by exactly one. -/
theorem toNat_saturatingAdd32_one {a b : UInt32} (h : a.toNat < b.toNat) :
    (saturatingAdd32 a 1).toNat = a.toNat + 1 := by
  have hBound : a.toNat + (1 : UInt32).toNat < 2 ^ 32 := by
    have := b.toNat_lt
    rw [UInt32.toNat_one]
    omega
  rw [toNat_saturatingAdd32_of_lt hBound, UInt32.toNat_one]

/-- `u64::checked_mul`. -/
def checkedMul (a b : UInt64) : Option UInt64 :=
  if a.toNat * b.toNat < 2 ^ 64 then some (a * b) else none

/-- Two 32-bit values never overflow a 64-bit product; the bound is written
as `simp` writes `2 ^ 64`. -/
theorem toNat_mul_toNat_lt (a b : UInt32) : a.toNat * b.toNat < 18446744073709551616 :=
  calc a.toNat * b.toNat < 2 ^ 32 * 2 ^ 32 := Nat.mul_lt_mul'' a.toNat_lt b.toNat_lt
    _ = 18446744073709551616 := by rw [← Nat.pow_add]

theorem checkedMul_toUInt64 (a b : UInt32) :
    checkedMul a.toUInt64 b.toUInt64 = some (UInt64.ofNat (a.toNat * b.toNat)) := by
  have hProd : a.toUInt64.toNat * b.toUInt64.toNat < 2 ^ 64 := by
    rw [UInt32.toNat_toUInt64, UInt32.toNat_toUInt64]
    exact toNat_mul_toNat_lt a b
  rw [checkedMul, if_pos hProd, Option.some.injEq]
  apply UInt64.toNat_inj.mp
  rw [UInt64.toNat_mul, Nat.mod_eq_of_lt hProd, UInt32.toNat_toUInt64, UInt32.toNat_toUInt64,
    UInt64.toNat_ofNat_of_lt' (toNat_mul_toNat_lt a b)]

/-- A release build sums `u32` values modulo 2^32, as iterating `+` does. -/
theorem toNat_sum32 (xs : List UInt32) : xs.sum.toNat = (xs.map UInt32.toNat).sum % 2 ^ 32 := by
  induction xs with
  | nil => rfl
  | cons x xs ih =>
      rw [List.sum_cons, UInt32.toNat_add, ih, List.map_cons, List.sum_cons, Nat.add_mod_mod]

/-! ## Debug builds -/

/-- The panics of a debug build's overflow checks. -/
inductive ArithPanic where
  | addOverflow
  | subOverflow
  | shlOverflow
  deriving DecidableEq, Repr

section DebugAdd

variable {α : Type} [Add α] (toNat : α → Nat) (size : Nat)

/-- `a + b` in a debug build of a word type of `size` values. -/
def debugAdd (a b : α) : Except ArithPanic α :=
  if toNat a + toNat b < size then .ok (a + b) else .error .addOverflow

variable {toNat size} {a b : α}

theorem debugAdd_of_lt (h : toNat a + toNat b < size) : debugAdd toNat size a b = .ok (a + b) :=
  if_pos h

theorem debugAdd_of_le (h : size ≤ toNat a + toNat b) :
    debugAdd toNat size a b = .error .addOverflow :=
  if_neg (Nat.not_lt.mpr h)

end DebugAdd

section DebugSub

variable {α : Type} [Sub α] (toNat : α → Nat)

/-- `a - b` in a debug build of an unsigned word type. -/
def debugSub (a b : α) : Except ArithPanic α :=
  if toNat b ≤ toNat a then .ok (a - b) else .error .subOverflow

variable {toNat} {a b : α}

theorem debugSub_of_le (h : toNat b ≤ toNat a) : debugSub toNat a b = .ok (a - b) :=
  if_pos h

theorem debugSub_of_lt (h : toNat a < toNat b) : debugSub toNat a b = .error .subOverflow :=
  if_neg (Nat.not_le.mpr h)

end DebugSub

/-- `u32` addition in a debug build. -/
def debugAdd32 : UInt32 → UInt32 → Except ArithPanic UInt32 := debugAdd UInt32.toNat (2 ^ 32)

/-- `u64` addition in a debug build. -/
def debugAdd64 : UInt64 → UInt64 → Except ArithPanic UInt64 := debugAdd UInt64.toNat (2 ^ 64)

/-- `u32` subtraction in a debug build. -/
def debugSub32 : UInt32 → UInt32 → Except ArithPanic UInt32 := debugSub UInt32.toNat

/-- `u64` subtraction in a debug build. -/
def debugSub64 : UInt64 → UInt64 → Except ArithPanic UInt64 := debugSub UInt64.toNat

/-- `x << k` on a `w`-bit word in a debug build: a shift by the width or more
panics. -/
def debugShl {w : Nat} (x : BitVec w) (k : Nat) : Except ArithPanic (BitVec w) :=
  if k < w then .ok (x <<< k) else .error .shlOverflow

theorem debugShl_of_lt {w : Nat} (x : BitVec w) {k : Nat} (h : k < w) : debugShl x k = .ok (x <<< k) :=
  if_pos h

/-! ## Order and casts -/

/-- `u32::min`, read on the values. -/
@[simp] theorem toNat_min32 (a b : UInt32) : (min a b).toNat = min a.toNat b.toNat := by
  change (if a ≤ b then a else b).toNat = _
  split_ifs with h
  · rw [UInt32.le_iff_toNat_le] at h
    omega
  · rw [UInt32.le_iff_toNat_le] at h
    omega

/-- `u32::max`, read on the values. -/
@[simp] theorem toNat_max32 (a b : UInt32) : (max a b).toNat = max a.toNat b.toNat := by
  change (if a ≤ b then b else a).toNat = _
  split_ifs with h
  · rw [UInt32.le_iff_toNat_le] at h
    omega
  · rw [UInt32.le_iff_toNat_le] at h
    omega

section Trunc

variable {K : Type} [Semiring K] [LinearOrder K] [FloorSemiring K]

/-- `x as u32` for a float `x` that is not NaN: rounded toward zero, and
saturating at both ends of the range. -/
def truncU32 (x : K) : UInt32 := UInt32.ofNat (min ⌊x⌋₊ (2 ^ 32 - 1))

theorem toNat_truncU32 (x : K) : (truncU32 x).toNat = min ⌊x⌋₊ (2 ^ 32 - 1) := by
  have hFits : min ⌊x⌋₊ (2 ^ 32 - 1) < 2 ^ 32 := by omega
  exact UInt32.toNat_ofNat_of_lt hFits

variable [IsStrictOrderedRing K]

/-- A value at most a natural number truncates to at most that number. -/
theorem toNat_truncU32_le {x : K} {n : Nat} (h : x ≤ n) : (truncU32 x).toNat ≤ n := by
  rw [toNat_truncU32]
  have hFloor : ⌊x⌋₊ ≤ n := by
    simpa using Nat.floor_le_floor h
  omega

theorem truncU32_le {x : K} {n : UInt32} (h : x ≤ n.toNat) : truncU32 x ≤ n := by
  rw [UInt32.le_iff_toNat_le]
  exact toNat_truncU32_le h

@[simp] theorem truncU32_natCast (n : UInt32) : truncU32 (n.toNat : K) = n := by
  apply UInt32.toNat_inj.mp
  rw [toNat_truncU32, Nat.floor_natCast]
  have := n.toNat_lt
  omega

end Trunc

end Saturating
