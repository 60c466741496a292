import Mathlib

/-! Cell-wise XOR of buffers of unequal lengths. A buffer is XORed into the
front of another as far as both reach; a missing cell counts as zero. Over any
type whose XOR is an abelian group in which every element is its own inverse,
XORing a list of buffers into a zero buffer and then XORing all but one of them
back out leaves the remaining buffer, zero-padded to the common length. This
is single-erasure recovery by parity. -/
namespace XorPad

universe u

/-- XOR with a zero is an abelian group of exponent two. -/
class XorGroup (α : Type u) [XorOp α] [Zero α] : Prop where
  assoc : ∀ a b c : α, a ^^^ b ^^^ c = a ^^^ (b ^^^ c)
  comm : ∀ a b : α, a ^^^ b = b ^^^ a
  xor_zero : ∀ a : α, a ^^^ 0 = a
  xor_self : ∀ a : α, a ^^^ a = 0

instance : XorGroup UInt8 :=
  ⟨UInt8.xor_assoc, UInt8.xor_comm, fun _ => UInt8.xor_zero, fun _ => UInt8.xor_self⟩

variable {α : Type u}

/-- XOR `src` into the front of `dst`. Cells of `dst` past the end of `src`
are kept; cells of `src` past the end of `dst` are ignored. -/
def xorInto [XorOp α] : List α → List α → List α
  | d :: ds, s :: ss => (d ^^^ s) :: xorInto ds ss
  | ds, [] => ds
  | [], _ :: _ => []

/-- `src` cut or zero-padded to exactly `len` cells. -/
def pad [Zero α] (len : Nat) (src : List α) : List α :=
  (List.range len).map fun i => src.getD i 0

/-- The XOR of the cells at index `i` of every buffer, a missing cell being zero. -/
def cellXor [XorOp α] [Zero α] (srcs : List (List α)) (i : Nat) : α :=
  srcs.foldr (fun src acc => src.getD i 0 ^^^ acc) 0

@[simp] theorem length_xorInto [XorOp α] (dst src : List α) : (xorInto dst src).length = dst.length := by
  induction dst generalizing src with
  | nil => cases src <;> rfl
  | cons d ds ih =>
      cases src with
      | nil => rfl
      | cons s ss => simp [xorInto, ih]

@[simp] theorem length_pad [Zero α] (len : Nat) (src : List α) : (pad len src).length = len := by
  simp [pad]

theorem getElem?_pad [Zero α] (len : Nat) (src : List α) (i : Nat) :
    (pad len src)[i]? = if i < len then some (src.getD i 0) else none := by
  by_cases h : i < len <;> simp [pad, h]

section Group

variable [XorOp α] [Zero α]

@[simp] theorem cellXor_nil (i : Nat) : cellXor ([] : List (List α)) i = 0 := rfl

@[simp] theorem cellXor_cons (src : List α) (srcs : List (List α)) (i : Nat) :
    cellXor (src :: srcs) i = src.getD i 0 ^^^ cellXor srcs i := rfl

variable [XorGroup α]

theorem zero_xor (a : α) : 0 ^^^ a = a := by
  rw [XorGroup.comm, XorGroup.xor_zero]

theorem xor_cancel_left (a b : α) : a ^^^ (a ^^^ b) = b := by
  rw [← XorGroup.assoc, XorGroup.xor_self, zero_xor]

theorem getElem?_xorInto (dst src : List α) (i : Nat) :
    (xorInto dst src)[i]? = dst[i]?.map (· ^^^ src.getD i 0) := by
  induction dst generalizing src i with
  | nil => cases src <;> simp [xorInto]
  | cons d ds ih =>
      cases src with
      | nil => cases i <;> simp [xorInto, XorGroup.xor_zero]
      | cons s ss => cases i <;> simp [xorInto, ih]

/-! Buffers of one length XOR as their cells do. -/

theorem xorInto_assoc {a b c : List α} (hab : a.length = b.length) (hbc : b.length = c.length) :
    xorInto (xorInto a b) c = xorInto a (xorInto b c) := by
  induction a generalizing b c with
  | nil => cases b <;> cases c <;> rfl
  | cons x xs ih =>
      cases b with
      | nil => simp at hab
      | cons y ys =>
          cases c with
          | nil => simp at hbc
          | cons z zs =>
              simp only [List.length_cons, Nat.add_right_cancel_iff] at hab hbc
              simp [xorInto, XorGroup.assoc, ih hab hbc]

theorem xorInto_cancel_left {a b : List α} (h : a.length = b.length) : xorInto a (xorInto a b) = b := by
  induction a generalizing b with
  | nil => cases b <;> simp_all [xorInto]
  | cons x xs ih =>
      cases b with
      | nil => simp at h
      | cons y ys =>
          simp only [List.length_cons, Nat.add_right_cancel_iff] at h
          simp [xorInto, xor_cancel_left, ih h]

/-- XORing a whole list of buffers into `dst` adds each cell's XOR. -/
theorem getElem?_foldl_xorInto (dst : List α) (srcs : List (List α)) (i : Nat) :
    (srcs.foldl xorInto dst)[i]? = dst[i]?.map (· ^^^ cellXor srcs i) := by
  induction srcs generalizing dst with
  | nil => simp [XorGroup.xor_zero]
  | cons src srcs ih =>
      rw [List.foldl_cons, ih, getElem?_xorInto, Option.map_map]
      congr 1
      funext d
      simp [XorGroup.assoc]

theorem cellXor_append (front back : List (List α)) (i : Nat) :
    cellXor (front ++ back) i = cellXor front i ^^^ cellXor back i := by
  induction front with
  | nil => simp [zero_xor]
  | cons src front ih => simp [ih, XorGroup.assoc]

/-- The parity of every buffer, XORed with the parity of all but one, is the
missing buffer's cell. -/
theorem cellXor_erase (before after : List (List α)) (lost : List α) (i : Nat) :
    cellXor (before ++ lost :: after) i ^^^ cellXor (before ++ after) i = lost.getD i 0 := by
  rw [cellXor_append, cellXor_append, cellXor_cons]
  have hInner : lost.getD i 0 ^^^ cellXor after i ^^^ (cellXor before i ^^^ cellXor after i) =
      cellXor before i ^^^ lost.getD i 0 := by
    rw [XorGroup.comm (lost.getD i 0), XorGroup.comm (cellXor after i ^^^ lost.getD i 0),
      XorGroup.assoc, xor_cancel_left]
  rw [XorGroup.assoc, hInner, xor_cancel_left]

/-- Single-erasure recovery: the parity of all buffers over a zero buffer of
length `len`, with every buffer but `lost` XORed back in, is `lost` padded
or cut to `len`. -/
theorem foldl_xorInto_recover (len : Nat) (before after : List (List α)) (lost : List α) :
    (before ++ after).foldl xorInto ((before ++ lost :: after).foldl xorInto (List.replicate len 0)) =
      pad len lost := by
  apply List.ext_getElem?
  intro i
  rw [getElem?_foldl_xorInto, getElem?_foldl_xorInto, getElem?_pad]
  by_cases h : i < len
  · have hZero : (List.replicate len (0 : α))[i]? = some 0 := by simp [h]
    rw [hZero, if_pos h, Option.map_some, Option.map_some, zero_xor, cellXor_erase]
  · simp [h]

end Group

/-- Padding a buffer to at least its own length and cutting it back to its
length returns it. -/
theorem take_pad [Zero α] {len : Nat} {src : List α} (h : src.length ≤ len) :
    (pad len src).take src.length = src := by
  apply List.ext_getElem?
  intro i
  by_cases hi : i < src.length
  · have hLen : i < len := by omega
    simp [pad, hi, hLen]
  · simp only [List.getElem?_take, if_neg hi, List.getElem?_eq_none (Nat.le_of_not_lt hi)]

end XorPad
