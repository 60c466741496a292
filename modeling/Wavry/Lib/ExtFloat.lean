import Mathlib

/-! Binary floating point seen through the values a program can compare: NaN,
the two infinities and the finite values, each finite value a rational. An
operation on two finite values computes the exact rational result and hands it
to a rounding, which is a parameter: round to nearest even in single precision
is one, exact arithmetic another. NaN propagates, an infinity absorbs finite
values, the invalid combinations (`∞ - ∞`, `0 * ∞`, `∞ / ∞`, `0 / 0`) give
NaN, and every comparison with NaN is false. The two zeros are one zero; a
zero divisor is taken as positive. -/

/-- A floating-point value. -/
inductive ExtFloat where
  | nan
  | posInf
  | negInf
  | finite (q : ℚ)
  deriving DecidableEq, Repr

namespace ExtFloat

/-- A rounding of exact results to the format. Zero is representable, so an
exact zero stays zero. -/
structure Rounding where
  round : ℚ → ExtFloat
  round_zero : round 0 = finite 0

/-- Exact arithmetic: every rational is its own value. -/
def Rounding.exact : Rounding := ⟨finite, rfl⟩

/-! ## Comparisons -/

/-- `<`: false whenever an argument is NaN. -/
def lt : ExtFloat → ExtFloat → Bool
  | finite p, finite q => decide (p < q)
  | negInf, finite _ => true
  | negInf, posInf => true
  | finite _, posInf => true
  | _, _ => false

/-- `<=`: false whenever an argument is NaN. -/
def le : ExtFloat → ExtFloat → Bool
  | nan, _ => false
  | _, nan => false
  | finite p, finite q => decide (p ≤ q)
  | negInf, _ => true
  | _, posInf => true
  | _, _ => false

instance : LT ExtFloat := ⟨fun a b => a.lt b = true⟩
instance : LE ExtFloat := ⟨fun a b => a.le b = true⟩

instance (a b : ExtFloat) : Decidable (a < b) := inferInstanceAs (Decidable (a.lt b = true))
instance (a b : ExtFloat) : Decidable (a ≤ b) := inferInstanceAs (Decidable (a.le b = true))

@[simp] theorem lt_iff_lt (a b : ExtFloat) : a.lt b = true ↔ a < b := Iff.rfl

@[simp] theorem le_iff_le (a b : ExtFloat) : a.le b = true ↔ a ≤ b := Iff.rfl

@[simp] theorem not_lt_nan (a : ExtFloat) : ¬ a < nan := by
  cases a <;> simp [LT.lt, lt]

@[simp] theorem not_nan_lt (a : ExtFloat) : ¬ nan < a := by
  cases a <;> simp [LT.lt, lt]

@[simp] theorem finite_lt_finite (p q : ℚ) : finite p < finite q ↔ p < q := by
  simp [LT.lt, lt]

@[simp] theorem finite_le_finite (p q : ℚ) : finite p ≤ finite q ↔ p ≤ q := by
  simp [LE.le, le]

/-! ## Arithmetic -/

def neg : ExtFloat → ExtFloat
  | nan => nan
  | posInf => negInf
  | negInf => posInf
  | finite q => finite (-q)

section Arithmetic

variable (r : Rounding)

def add : ExtFloat → ExtFloat → ExtFloat
  | nan, _ => nan
  | _, nan => nan
  | posInf, negInf => nan
  | negInf, posInf => nan
  | posInf, _ => posInf
  | _, posInf => posInf
  | negInf, _ => negInf
  | _, negInf => negInf
  | finite p, finite q => r.round (p + q)

def sub (a b : ExtFloat) : ExtFloat := add r a b.neg

/-- An infinity times a finite `p`: NaN at zero, else the infinity with the
product's sign. -/
def scaleInf (positive : Bool) (p : ℚ) : ExtFloat :=
  if p = 0 then nan else if (0 < p) = positive then posInf else negInf

def mul : ExtFloat → ExtFloat → ExtFloat
  | nan, _ => nan
  | _, nan => nan
  | finite p, finite q => r.round (p * q)
  | finite p, posInf => scaleInf true p
  | posInf, finite p => scaleInf true p
  | finite p, negInf => scaleInf false p
  | negInf, finite p => scaleInf false p
  | posInf, posInf => posInf
  | negInf, negInf => posInf
  | _, _ => negInf

def div : ExtFloat → ExtFloat → ExtFloat
  | nan, _ => nan
  | _, nan => nan
  | finite p, finite q => if q = 0 then scaleInf true p else r.round (p / q)
  | finite _, _ => finite 0
  | posInf, finite q => if 0 ≤ q then posInf else negInf
  | negInf, finite q => if 0 ≤ q then negInf else posInf
  | _, _ => nan

/-- `Iterator::sum`: left to right from zero. -/
def sum (xs : List ExtFloat) : ExtFloat := xs.foldl (add r) (finite 0)

end Arithmetic

/-- `f32::min`: a NaN argument gives way to the other one. -/
def min : ExtFloat → ExtFloat → ExtFloat
  | nan, b => b
  | a, nan => a
  | a, b => if a ≤ b then a else b

/-- `f32::clamp` for bounds in order: below `lo` gives `lo`, above `hi`
gives `hi`, and NaN stays NaN. -/
def clamp (x lo hi : ExtFloat) : ExtFloat :=
  let x := if x < lo then lo else x
  if hi < x then hi else x

/-! ## Multiplying by zero

A product with a zero factor is zero, NaN when the other factor is infinite or
NaN, and in no case positive: a weight of zero can never make a value pass a
`> 0` test, whatever the other factor was. -/

theorem mul_zero_eq (r : Rounding) (a : ExtFloat) : mul r a (finite 0) = finite 0 ∨ mul r a (finite 0) = nan := by
  cases a with
  | finite p => exact .inl (by rw [mul, mul_zero, r.round_zero])
  | _ => exact .inr (by simp [mul, scaleInf])

theorem not_pos_mul_zero (r : Rounding) (a : ExtFloat) : ¬ finite 0 < mul r a (finite 0) := by
  rcases mul_zero_eq r a with hZero | hNan
  · rw [hZero, finite_lt_finite]
    exact lt_irrefl 0
  · rw [hNan]
    exact not_lt_nan _

end ExtFloat
