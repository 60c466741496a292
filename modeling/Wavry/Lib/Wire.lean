import Mathlib

/-! Two pieces every fixed-layout codec is made of. An encoder that checks
that its buffer is long enough and then copies its fields to the front
leaves the fields' bytes followed by the rest of the buffer, and returns how
many it wrote. A `TryFrom` table decodes a tag by finding the value whose
code it is, and fails on any other tag. -/
namespace Wire

universe u v w

variable {α : Type u} {β : Type v} {ε : Type w}

/-- Write `bytes` at the front of `buf`, failing with `tooShort buf.len
bytes.len` when they do not fit. -/
def writePrefix (tooShort : Nat → Nat → ε) (buf bytes : List UInt8) :
    Except ε (Nat × List UInt8) :=
  if buf.length < bytes.length then .error (tooShort buf.length bytes.length)
  else .ok (bytes.length, bytes ++ buf.drop bytes.length)

section WritePrefix

variable {tooShort : Nat → Nat → ε} {buf bytes : List UInt8}

theorem writePrefix_of_le (h : bytes.length ≤ buf.length) :
    writePrefix tooShort buf bytes = .ok (bytes.length, bytes ++ buf.drop bytes.length) := by
  simp [writePrefix, Nat.not_lt.mpr h]

theorem writePrefix_eq_ok {n : Nat} {out : List UInt8}
    (h : writePrefix tooShort buf bytes = .ok (n, out)) :
    bytes.length ≤ buf.length ∧ n = bytes.length ∧ out = bytes ++ buf.drop bytes.length := by
  unfold writePrefix at h
  split_ifs at h with hShort
  cases h
  exact ⟨Nat.not_lt.mp hShort, rfl, rfl⟩

/-- What was written is what the first `n` bytes of the result hold. -/
theorem take_of_writePrefix {n : Nat} {out : List UInt8}
    (h : writePrefix tooShort buf bytes = .ok (n, out)) : out.take n = bytes := by
  obtain ⟨-, rfl, rfl⟩ := writePrefix_eq_ok h
  simp

/-- Writing over a buffer the bytes it already starts with leaves it as it is. -/
theorem writePrefix_of_isPrefix (h : bytes <+: buf) :
    writePrefix tooShort buf bytes = .ok (bytes.length, buf) := by
  obtain ⟨rest, rfl⟩ := h
  rw [writePrefix_of_le (by simp)]
  simp

/-- The converse of a decoder: writing a buffer's own first `n` bytes over it. -/
theorem writePrefix_take {n : Nat} (h : n ≤ buf.length) :
    writePrefix tooShort buf (buf.take n) = .ok (n, buf) := by
  rw [writePrefix_of_isPrefix (List.take_prefix n buf), List.length_take, Nat.min_eq_left h]

end WritePrefix

/-- A `TryFrom` table over the list `all` of a type's values. -/
def decodeTag [DecidableEq β] (all : List α) (code : α → β) (unknown : β → ε) (tag : β) :
    Except ε α :=
  match all.find? (fun a => code a = tag) with
  | some a => .ok a
  | none => .error (unknown tag)

section DecodeTag

variable [DecidableEq β] {all : List α} {code : α → β} {unknown : β → ε}

/-- Decoding gives back a value's code when no two values share one. -/
theorem decodeTag_code (hInj : ∀ a ∈ all, ∀ b ∈ all, code a = code b → a = b) {a : α}
    (ha : a ∈ all) : decodeTag all code unknown (code a) = .ok a := by
  unfold decodeTag
  cases hFind : all.find? (fun b => code b = code a) with
  | none =>
      have := List.find?_eq_none.mp hFind a ha
      simp at this
  | some b =>
      have hb := List.mem_of_find?_eq_some hFind
      have hCode : code b = code a := by simpa using List.find?_some hFind
      rw [hInj b hb a ha hCode]

/-- A decoded value has the tag it was decoded from as its code. -/
theorem code_of_decodeTag {tag : β} {a : α} (h : decodeTag all code unknown tag = .ok a) :
    code a = tag := by
  unfold decodeTag at h
  cases hFind : all.find? (fun b => code b = tag) with
  | none => rw [hFind] at h; cases h
  | some b =>
      rw [hFind] at h
      cases h
      simpa using List.find?_some hFind

end DecodeTag

/-- What a successful `map` of a decoder returned. -/
theorem map_eq_ok {f : α → β} {x : Except ε α} {b : β} (h : x.map f = .ok b) :
    ∃ a, x = .ok a ∧ f a = b := by
  cases x with
  | error e => cases h
  | ok a => exact ⟨a, rfl, by injection h⟩

/-- What an evaluation of a computation's result says of the value it returned. -/
theorem eq_of_toOption_map {g : α → β} {x : Except ε α} {a : α} {b : β} (h : x = .ok a)
    (hEval : x.toOption.map g = some b) : g a = b := by
  subst h
  exact Option.some.inj hEval

/-- What a successful `bind` of a decoder went through. -/
theorem bind_eq_ok {f : α → Except ε β} {x : Except ε α} {b : β} (h : x.bind f = .ok b) :
    ∃ a, x = .ok a ∧ f a = .ok b := by
  cases x with
  | error e => cases h
  | ok a => exact ⟨a, rfl, h⟩

/-! The monad's own steps, for `simp` to run a decoder's `do` block on reads it
knows succeed. -/

@[simp] theorem ok_bind {γ : Type u} (a : α) (f : α → Except ε γ) : (Except.ok a >>= f) = f a :=
  rfl

@[simp] theorem error_bind {γ : Type u} (e : ε) (f : α → Except ε γ) :
    (Except.error e >>= f) = .error e :=
  rfl

@[simp] theorem pure_eq_ok (a : α) : (pure a : Except ε α) = .ok a := rfl

@[simp] theorem throw_eq_error (e : ε) : (throw e : Except ε α) = .error e := rfl

/-- A check that fails with an error passes exactly where its guard is false. -/
@[simp] theorem ite_error_eq_ok {c : Prop} [Decidable c] {e : ε} {x : Except ε α} {a : α} :
    (if c then .error e else x) = .ok a ↔ ¬c ∧ x = .ok a := by
  split_ifs with h <;> simp [h]

end Wire
