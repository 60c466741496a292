import Mathlib

/-! Lists read position by position, as a table of concurrent requests is
read: each position follows a list of inputs, in one shape below a boundary
and in another from it on. A scheduler that takes the requests in order moves
the boundary by setting one position at a time. -/
namespace Positions

universe u v

variable {α : Type u} {β : Type v}

/-- Setting the position at the boundary to its first shape moves the
boundary by one. -/
theorem getElem?_set_boundary {l : List β} {xs : List α} {count : Nat} {below above : α → β}
    (h : ∀ i, l[i]? = xs[i]?.map fun x => if i < count then below x else above x)
    {x : α} (hx : xs[count]? = some x) (i : Nat) :
    (l.set count (below x))[i]? = xs[i]?.map fun x => if i < count + 1 then below x else above x := by
  have hLength : count < l.length := by
    have hAt := h count
    rw [hx] at hAt
    exact (List.getElem?_eq_some_iff.mp hAt).1
  rw [List.getElem?_set, h i]
  by_cases hi : count = i
  · subst hi
    simp [hx, hLength]
  · rw [if_neg hi]
    by_cases hLt : i < count
    · simp [hLt, Nat.lt_succ_of_lt hLt]
    · have hNot : ¬i < count + 1 := by omega
      simp [hLt, hNot]

/-- With every position below the boundary, the boundary can be read as
zero for the next shape. -/
theorem getElem?_of_boundary_length {l : List β} {xs : List α} {below above : α → β}
    (h : ∀ i, l[i]? = xs[i]?.map fun x => if i < xs.length then below x else above x) (i : Nat) :
    l[i]? = xs[i]?.map below := by
  rw [h i]
  cases hx : xs[i]? with
  | none => rfl
  | some x =>
      have hi : i < xs.length := (List.getElem?_eq_some_iff.mp hx).1
      simp [hi]

end Positions
