import Mathlib

/-! Splitting a sequence into consecutive pieces of a fixed size, the last one
possibly shorter, as an iterator over a slice takes them. The number of pieces
is the length divided by the size, rounded up, and the pieces joined give the
sequence back. The piece at an index can also be taken on its own, and
written back at its offset into another sequence, as a file receiving pieces
in any order is written. -/
namespace Chunks

universe u

variable {α : Type u}

/-- Division rounding up, as `usize::div_ceil` computes it. -/
def divCeil (n d : Nat) : Nat :=
  if n % d > 0 then n / d + 1 else n / d

/-- `chunks` with a bound on the number of pieces taken. -/
def chunksAux (size : Nat) : Nat → List α → List (List α)
  | 0, _ => []
  | fuel + 1, xs =>
      match xs with
      | [] => []
      | _ :: _ => xs.take size :: chunksAux size fuel (xs.drop size)

/-- `slice::chunks(size)`: pieces of `size` elements from the front, the last
one shorter when `size` does not divide the length. -/
def chunks (xs : List α) (size : Nat) : List (List α) := chunksAux size xs.length xs

theorem divCeil_zero (d : Nat) : divCeil 0 d = 0 := by
  simp [divCeil]

/-- Taking one piece off a non-empty sequence takes one off the count. -/
theorem divCeil_eq_sub_add_one {n d : Nat} (hd : 0 < d) (hn : 0 < n) :
    divCeil n d = divCeil (n - d) d + 1 := by
  by_cases hLe : d ≤ n
  · have hSplit : n = (n - d) + d := by omega
    have hMod : n % d = (n - d) % d := by
      conv_lhs => rw [hSplit]
      exact Nat.add_mod_right _ _
    have hDiv : n / d = (n - d) / d + 1 := by
      conv_lhs => rw [hSplit]
      exact Nat.add_div_right _ hd
    unfold divCeil
    rw [hMod, hDiv]
    split_ifs <;> rfl
  · have hSub : n - d = 0 := by omega
    have hMod : n % d = n := Nat.mod_eq_of_lt (by omega)
    have hDiv : n / d = 0 := Nat.div_eq_of_lt (by omega)
    simp [divCeil, hSub, hMod, hDiv, hn]

/-- Enough pieces allowed: the pieces number `divCeil` of the length and join
to the sequence. -/
theorem length_drop_le_of_le {size fuel : Nat} {xs : List α}
    (h : xs.length ≤ (fuel + 1) * size) : (xs.drop size).length ≤ fuel * size := by
  rw [List.length_drop]
  rw [Nat.succ_mul] at h
  omega

theorem chunksAux_spec {size : Nat} (hSize : 0 < size) :
    ∀ (fuel : Nat) (xs : List α), xs.length ≤ fuel * size →
      (chunksAux size fuel xs).length = divCeil xs.length size ∧
        (chunksAux size fuel xs).flatten = xs := by
  intro fuel
  induction fuel with
  | zero =>
      intro xs hLen
      have hNil : xs = [] := List.eq_nil_of_length_eq_zero (by simpa using hLen)
      subst hNil
      simp [chunksAux, divCeil_zero]
  | succ fuel ih =>
      intro xs hLen
      cases xs with
      | nil => simp [chunksAux, divCeil_zero]
      | cons x rest =>
          obtain ⟨hCount, hJoin⟩ := ih _ (length_drop_le_of_le hLen)
          refine ⟨?_, ?_⟩
          · rw [chunksAux, List.length_cons, hCount, List.length_drop]
            exact (divCeil_eq_sub_add_one hSize (by simp)).symm
          · rw [chunksAux, List.flatten_cons, hJoin, List.take_append_drop]

theorem length_chunks {size : Nat} (hSize : 0 < size) (xs : List α) :
    (chunks xs size).length = divCeil xs.length size :=
  (chunksAux_spec hSize xs.length xs (Nat.le_mul_of_pos_right _ hSize)).1

theorem flatten_chunks {size : Nat} (hSize : 0 < size) (xs : List α) :
    (chunks xs size).flatten = xs :=
  (chunksAux_spec hSize xs.length xs (Nat.le_mul_of_pos_right _ hSize)).2

/-- The piece at index `i`: `size` elements from `i * size` on, fewer at the
end. -/
def chunkAt (xs : List α) (size i : Nat) : List α := (xs.drop (i * size)).take size

theorem length_chunkAt (xs : List α) (size i : Nat) :
    (chunkAt xs size i).length = min size (xs.length - i * size) := by
  simp [chunkAt]

theorem getElem?_chunkAt (xs : List α) (size i j : Nat) :
    (chunkAt xs size i)[j]? = if j < size then xs[i * size + j]? else none := by
  simp [chunkAt, List.getElem?_take, List.getElem?_drop]

/-- A piece below the count starts inside the sequence. -/
theorem mul_lt_of_lt_divCeil {n size i : Nat} (hSize : 0 < size) (h : i < divCeil n size) :
    i * size < n := by
  unfold divCeil at h
  split_ifs at h with hMod
  · have hLe : i * size ≤ n := (Nat.le_div_iff_mul_le hSize).mp (by omega)
    have hNe : i * size ≠ n := fun hEq => by
      rw [← hEq, Nat.mul_mod_left] at hMod
      exact absurd hMod (by decide)
    omega
  · have := (Nat.lt_div_iff_mul_lt hSize).mp h
    omega

/-- Every element lies in a piece below the count. -/
theorem div_lt_divCeil {n size j : Nat} (hSize : 0 < size) (hj : j < n) :
    j / size < divCeil n size := by
  have hDiv : j / size ≤ n / size := Nat.div_le_div_right (by omega)
  unfold divCeil
  split_ifs with hMod
  · omega
  · have hExact : n / size * size = n := Nat.div_mul_cancel (Nat.dvd_of_mod_eq_zero (by omega))
    exact (Nat.div_lt_iff_lt_mul hSize).mpr (by omega)

theorem getElem?_chunksAux {size : Nat} (hSize : 0 < size) :
    ∀ (fuel : Nat) (xs : List α), xs.length ≤ fuel * size → ∀ i,
      (chunksAux size fuel xs)[i]? =
        if i < divCeil xs.length size then some (chunkAt xs size i) else none := by
  intro fuel
  induction fuel with
  | zero =>
      intro xs hLen i
      have hNil : xs = [] := List.eq_nil_of_length_eq_zero (by simpa using hLen)
      subst hNil
      simp [chunksAux, divCeil_zero]
  | succ fuel ih =>
      intro xs hLen i
      cases xs with
      | nil => simp [chunksAux, divCeil_zero]
      | cons x rest =>
          have hCount := divCeil_eq_sub_add_one hSize (by simp : 0 < (x :: rest).length)
          cases i with
          | zero =>
              have hPos : divCeil (x :: rest).length size ≠ 0 := by
                rw [hCount]
                exact Nat.succ_ne_zero _
              simp only [List.length_cons] at hPos
              simp [chunksAux, chunkAt, hPos]
          | succ k =>
              have hShift : chunkAt ((x :: rest).drop size) size k = chunkAt (x :: rest) size (k + 1) := by
                simp only [chunkAt, List.drop_drop, Nat.succ_mul, Nat.add_comm]
              rw [chunksAux, List.getElem?_cons_succ, ih _ (length_drop_le_of_le hLen) k, hCount,
                List.length_drop, hShift]
              simp

/-- The pieces are the pieces at each index below the count. -/
theorem chunks_eq_map_range {size : Nat} (hSize : 0 < size) (xs : List α) :
    chunks xs size = (List.range (divCeil xs.length size)).map (chunkAt xs size) := by
  apply List.ext_getElem?
  intro i
  rw [chunks, getElem?_chunksAux hSize xs.length xs (Nat.le_mul_of_pos_right _ hSize),
    List.getElem?_map]
  by_cases hi : i < divCeil xs.length size
  · rw [if_pos hi, List.getElem?_range hi]
    rfl
  · rw [if_neg hi, List.getElem?_eq_none (by simpa using Nat.le_of_not_lt hi)]
    rfl

/-- `seek(offset)` then `write_all(data)` on a file's contents: `data`
overwrites from `offset` on, and a file shorter than `offset` is first filled
out with `fill`. -/
def writeAt (fill : α) (file : List α) (offset : Nat) (data : List α) : List α :=
  file.take offset ++ List.replicate (offset - file.length) fill ++ data ++
    file.drop (offset + data.length)

/-- `seek(offset)` then `read_exact` of `len` elements, which fails past the end. -/
def readExact (file : List α) (offset len : Nat) : Option (List α) :=
  if offset + len ≤ file.length then some ((file.drop offset).take len) else none

section WriteAt

variable {fill : α} {file data : List α} {offset : Nat}

theorem length_writeAt_of_le (h : offset + data.length ≤ file.length) :
    (writeAt fill file offset data).length = file.length := by
  simp [writeAt]
  omega

theorem getElem?_writeAt_of_le (h : offset + data.length ≤ file.length) (j : Nat) :
    (writeAt fill file offset data)[j]? =
      if offset ≤ j ∧ j < offset + data.length then data[j - offset]? else file[j]? := by
  have hFill : offset - file.length = 0 := by omega
  have hMin : min offset file.length = offset := by omega
  simp only [writeAt, hFill, List.replicate_zero, List.append_nil, List.getElem?_append,
    List.length_append, List.length_take, hMin, List.getElem?_take, List.getElem?_drop]
  split_ifs <;> first | rfl | omega | (congr 1; omega)

theorem readExact_of_le {len : Nat} (h : offset + len ≤ file.length) :
    readExact file offset len = some ((file.drop offset).take len) := by
  simp [readExact, h]

end WriteAt

/-- Writing the piece at index `i` of `xs` at its offset into a file as long
as `xs`: the file holds `xs`'s elements in that piece, and its own elsewhere. -/
theorem getElem?_writeAt_chunkAt {fill : α} {size i : Nat} {xs file : List α} (hSize : 0 < size)
    (hLen : file.length = xs.length) (hi : i * size < xs.length) (j : Nat) :
    (writeAt fill file (i * size) (chunkAt xs size i))[j]? =
      if j / size = i then xs[j]? else file[j]? := by
  have hFits : i * size + (chunkAt xs size i).length ≤ file.length := by
    rw [length_chunkAt]
    omega
  rw [getElem?_writeAt_of_le hFits, length_chunkAt, getElem?_chunkAt]
  have hDiv := Nat.div_eq_iff hSize (x := j) (y := i)
  by_cases hIn : i * size ≤ j ∧ j < i * size + min size (xs.length - i * size)
  · have hj : j / size = i := hDiv.mpr (by omega)
    rw [if_pos hIn, if_pos (by omega), if_pos hj, Nat.add_sub_cancel' hIn.1]
  · rw [if_neg hIn]
    split_ifs with hj
    · have hPast : xs.length ≤ j := by have := hDiv.mp hj; omega
      rw [List.getElem?_eq_none hPast, List.getElem?_eq_none (by omega)]
    · rfl

end Chunks
