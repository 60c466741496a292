import Mathlib

/-! A window of consecutive keys `[start, start + n)` kept in `n` slots, key
`k` in slot `k % n`, as a circular reorder buffer keeps it. The window's keys
fill the slots one to one: writing the slot of a key changes that key alone,
and emptying the slot of `start` while moving `start` up by one drops `start`
and nothing else.

Over the slots stands the abstract window they are for: a start, and a map
from keys to values that holds nothing outside `[start, start + size)`, with
the operations of a reorder window: store a key (sliding the window forward
when the key lies beyond it), take a key out, and hand out the keys from
`start` on up to the first gap. -/

namespace CircularWindow

universe u

variable {α : Type u}

/-- `k` lies in `[start, start + n)`. -/
def InWindow (start n k : Nat) : Prop := start ≤ k ∧ k < start + n

instance (start n k : Nat) : Decidable (InWindow start n k) :=
  inferInstanceAs (Decidable (_ ∧ _))

/-- Two keys of one window in the same slot are equal: they differ by less
than `n`, and by a multiple of it. -/
theorem eq_of_mod_eq {start n j k : Nat} (hj : InWindow start n j) (hk : InWindow start n k)
    (h : j % n = k % n) : j = k := by
  have hOrdered : ∀ {a b : Nat}, InWindow start n a → InWindow start n b → a % n = b % n →
      b ≤ a → a = b := by
    intro a b ha hb hab hLe
    have hDvd : n ∣ a - b := Nat.dvd_of_mod_eq_zero (Nat.sub_mod_eq_zero_of_mod_eq hab)
    have hZero : a - b = 0 := Nat.eq_zero_of_dvd_of_lt hDvd (by unfold InWindow at ha hb; omega)
    omega
  rcases le_total k j with hLe | hLe
  · exact hOrdered hj hk h hLe
  · exact (hOrdered hk hj h.symm hLe).symm

/-! ## Slots -/

/-- What the slots hold for key `k`: the value of its slot inside the window,
nothing outside. -/
def view (slots : List (Option α)) (n start k : Nat) : Option α :=
  if InWindow start n k then slots[k % n]?.join else none

section Slots

variable {slots : List (Option α)} {n start : Nat}

@[simp] theorem view_of_not_inWindow {k : Nat} (hk : ¬ InWindow start n k) :
    view slots n start k = none := if_neg hk

theorem view_of_inWindow {k : Nat} (hk : InWindow start n k) :
    view slots n start k = slots[k % n]?.join := if_pos hk

theorem mod_lt_of_inWindow {k : Nat} (hk : InWindow start n k) : k % n < n :=
  Nat.mod_lt _ (by unfold InWindow at hk; omega)

variable (hLen : slots.length = n)
include hLen

/-- Writing the slot of a key of the window changes that key alone. -/
theorem view_set {k : Nat} (hk : InWindow start n k) (x : Option α) :
    view (slots.set (k % n) x) n start = Function.update (view slots n start) k x := by
  funext j
  by_cases hj : InWindow start n j
  · rw [view_of_inWindow hj, List.getElem?_set]
    by_cases hSame : j = k
    · subst hSame
      simp [hLen, mod_lt_of_inWindow hj]
    · have hSlot : k % n ≠ j % n := fun h => hSame (eq_of_mod_eq hj hk h.symm)
      rw [if_neg hSlot, Function.update_of_ne hSame, view_of_inWindow hj]
  · have hNe : j ≠ k := fun h => hj (h ▸ hk)
    rw [view_of_not_inWindow hj, Function.update_of_ne hNe, view_of_not_inWindow hj]

/-- Emptying the slot of `start` and moving `start` up by one drops `start`:
the key that enters the window at its far end reads the emptied slot. -/
theorem view_set_advance (hn : 0 < n) (k : Nat) :
    view (slots.set (start % n) none) n (start + 1) k =
      if start + 1 ≤ k then view slots n start k else none := by
  by_cases hNew : InWindow (start + 1) n k
  · have hStart : start + 1 ≤ k := hNew.1
    rw [if_pos hStart, view_of_inWindow hNew, List.getElem?_set]
    by_cases hEdge : k = start + n
    · have hSlot : start % n = k % n := by rw [hEdge, Nat.add_mod_right]
      have hOld : ¬ InWindow start n k := by unfold InWindow; omega
      rw [if_pos hSlot, view_of_not_inWindow hOld]
      simp [hLen, Nat.mod_lt _ hn]
    · have hOld : InWindow start n k := by unfold InWindow at hNew ⊢; omega
      have hFirst : InWindow start n start := by unfold InWindow; omega
      have hSlot : start % n ≠ k % n := fun h => by
        have := eq_of_mod_eq hFirst hOld h
        omega
      rw [if_neg hSlot, view_of_inWindow hOld]
  · rw [view_of_not_inWindow hNew]
    split
    · have hOld : ¬ InWindow start n k := by unfold InWindow at hNew ⊢; omega
      rw [view_of_not_inWindow hOld]
    · rfl

end Slots

/-! ## Sums over a window -/

section Sums

variable {β : Type*} [AddCancelCommMonoid β]

/-- Reading `n` consecutive slots from any offset, around the end, visits
each slot once. -/
theorem sum_range_add_mod (g : Nat → β) (n s : Nat) :
    ∑ i ∈ Finset.range n, g ((s + i) % n) = ∑ i ∈ Finset.range n, g i := by
  induction s with
  | zero =>
    refine Finset.sum_congr rfl fun i hi => ?_
    rw [zero_add, Nat.mod_eq_of_lt (Finset.mem_range.mp hi)]
  | succ s ih =>
    have hWrap : g ((s + n) % n) = g ((s + 0) % n) := by rw [Nat.add_mod_right, add_zero]
    have hShift : ∑ i ∈ Finset.range n, g ((s + (i + 1)) % n) + g ((s + 0) % n) =
        ∑ i ∈ Finset.range n, g ((s + i) % n) + g ((s + 0) % n) := by
      rw [← Finset.sum_range_succ' (fun i => g ((s + i) % n)), Finset.sum_range_succ, hWrap]
    have hStep : ∑ i ∈ Finset.range n, g ((s + 1 + i) % n) =
        ∑ i ∈ Finset.range n, g ((s + i) % n) := by
      simp only [Nat.add_right_comm s 1, Nat.add_assoc s _ 1]
      exact add_right_cancel hShift
    rw [hStep, ih]

theorem sum_range_getElem? (f : Option α → β) (slots : List (Option α)) :
    ∑ i ∈ Finset.range slots.length, f slots[i]?.join = (slots.map f).sum := by
  induction slots with
  | nil => simp
  | cons slot slots ih =>
    rw [List.length_cons, Finset.sum_range_succ']
    simp only [List.getElem?_cons_succ, List.getElem?_cons_zero, Option.join_some, ih,
      List.map_cons, List.sum_cons]
    exact add_comm _ _

/-- Summing over the keys of the window is summing over the slots. -/
theorem sum_view {slots : List (Option α)} {n : Nat} (hLen : slots.length = n) (f : Option α → β)
    (start : Nat) :
    ∑ k ∈ Finset.Ico start (start + n), f (view slots n start k) = (slots.map f).sum := by
  have hRead : ∀ k ∈ Finset.Ico start (start + n),
      f (view slots n start k) = f slots[k % n]?.join := by
    intro k hk
    rw [view_of_inWindow (Finset.mem_Ico.mp hk)]
  rw [Finset.sum_congr rfl hRead, Finset.sum_Ico_eq_sum_range, Nat.add_sub_cancel_left,
    sum_range_add_mod (fun i => f slots[i]?.join), ← hLen, sum_range_getElem?]

/-- Writing one slot changes the sum by the old and the new value. -/
theorem sum_map_set_add (f : Option α → β) {slots : List (Option α)} {i : Nat}
    (hi : i < slots.length) (x : Option α) :
    ((slots.set i x).map f).sum + f slots[i] = (slots.map f).sum + f x := by
  induction slots generalizing i with
  | nil => exact absurd hi (Nat.not_lt_zero _)
  | cons slot slots ih =>
    cases i with
    | zero =>
      simp only [List.set_cons_zero, List.map_cons, List.sum_cons, List.getElem_cons_zero]
      abel
    | succ i =>
      simp only [List.set_cons_succ, List.map_cons, List.sum_cons, List.getElem_cons_succ,
        add_assoc, ih (Nat.lt_of_succ_lt_succ hi)]

end Sums

/-! ## The abstract window -/

/-- A window of keys `[start, start + size)` and the values held for them. -/
@[ext]
structure Window (α : Type u) where
  size : Nat
  start : Nat
  entries : Nat → Option α
  size_pos : 0 < size
  eq_none : ∀ k, ¬ InWindow start size k → entries k = none

namespace Window

/-- The window of `size` keys from `0`, holding nothing. -/
def empty (size : Nat) (h : 0 < size) : Window α :=
  ⟨size, 0, fun _ => none, h, fun _ _ => rfl⟩

/-- Move the start up by `count`, dropping the keys that fall out. -/
def slide (w : Window α) (count : Nat) : Window α where
  size := w.size
  start := w.start + count
  entries k := if w.start + count ≤ k then w.entries k else none
  size_pos := w.size_pos
  eq_none k hk := by
    split
    · exact w.eq_none k fun h => hk (by unfold InWindow at h ⊢; omega)
    · rfl

/-- Hold `x` for a key of the window. -/
def set (w : Window α) (k : Nat) (x : α) (hk : InWindow w.start w.size k) : Window α :=
  { w with
    entries := Function.update w.entries k (some x)
    eq_none := fun j hj => by
      rw [Function.update_of_ne (fun h : j = k => hj (h ▸ hk))]
      exact w.eq_none j hj }

/-- Hold nothing for `k`. -/
def erase (w : Window α) (k : Nat) : Window α :=
  { w with
    entries := Function.update w.entries k none
    eq_none := fun j hj => by
      by_cases h : j = k
      · rw [h, Function.update_self]
      · rw [Function.update_of_ne h]
        exact w.eq_none j hj }

/-- Store `x` under `k`. A key below the window is refused; a key beyond it
first slides the window just far enough to be its last key. -/
def insert (w : Window α) (k : Nat) (x : α) : Option (Window α) :=
  if hk : k < w.start then none
  else some ((w.slide (k + 1 - (w.start + w.size))).set k x (by
    have := w.size_pos
    show w.start + (k + 1 - (w.start + w.size)) ≤ k ∧
      k < w.start + (k + 1 - (w.start + w.size)) + w.size
    omega))

/-- Take out the value held for `k`. -/
def get (w : Window α) (k : Nat) : Option α × Window α := (w.entries k, w.erase k)

theorem exists_absent (w : Window α) : ∃ i, (w.entries (w.start + i)).isNone := by
  refine ⟨w.size, ?_⟩
  rw [w.eq_none _ (by unfold InWindow; omega)]
  rfl

/-- How many keys from `start` on are held without a gap. -/
def runLength (w : Window α) : Nat := Nat.find w.exists_absent

/-- Hand out the values of the keys from `start` up to the first gap, and
slide past them. -/
def flush (w : Window α) : List α × Window α :=
  ((List.range w.runLength).filterMap fun i => w.entries (w.start + i), w.slide w.runLength)

/-- The total weight of the values held. -/
def memory (weight : α → Nat) (w : Window α) : Nat :=
  ∑ k ∈ Finset.Ico w.start (w.start + w.size), ((w.entries k).map weight).getD 0

variable (w : Window α)

@[simp] theorem size_slide (count : Nat) : (w.slide count).size = w.size := rfl

@[simp] theorem start_slide (count : Nat) : (w.slide count).start = w.start + count := rfl

theorem slide_zero : w.slide 0 = w := by
  refine Window.ext rfl rfl (funext fun k => ?_)
  show (if w.start + 0 ≤ k then w.entries k else none) = w.entries k
  split
  · rfl
  · exact (w.eq_none k fun h => by unfold InWindow at h; omega).symm

theorem slide_slide (a b : Nat) : (w.slide a).slide b = w.slide (a + b) := by
  refine Window.ext rfl (Nat.add_assoc _ _ _) (funext fun k => ?_)
  show (if w.start + a + b ≤ k then (if w.start + a ≤ k then w.entries k else none) else none) =
    (if w.start + (a + b) ≤ k then w.entries k else none)
  by_cases h : w.start + (a + b) ≤ k
  · rw [if_pos (by omega), if_pos (by omega), if_pos h]
  · rw [if_neg (by omega), if_neg h]

theorem erase_of_eq_none {k : Nat} (h : w.entries k = none) : w.erase k = w := by
  refine Window.ext rfl rfl (funext fun j => ?_)
  show Function.update w.entries k none j = w.entries j
  by_cases hj : j = k
  · rw [hj, Function.update_self, h]
  · rw [Function.update_of_ne hj]

theorem insert_of_lt {k : Nat} (hk : k < w.start) (x : α) : w.insert k x = none := dif_pos hk

theorem insert_of_inWindow {k : Nat} (hk : InWindow w.start w.size k) (x : α) :
    w.insert k x = some (w.set k x hk) := by
  have hStay : k + 1 - (w.start + w.size) = 0 := by unfold InWindow at hk; omega
  rw [insert, dif_neg (Nat.not_lt.mpr hk.1)]
  congr 1
  refine Window.ext rfl (congrArg (w.start + ·) hStay) ?_
  show Function.update (w.slide (k + 1 - (w.start + w.size))).entries k (some x) =
    Function.update w.entries k (some x)
  rw [hStay, slide_zero]

/-- A stored key beyond the window becomes the window's last key. -/
theorem start_of_insert {k : Nat} {x : α} {w' : Window α} (h : w.insert k x = some w') :
    w'.start = w.start + (k + 1 - (w.start + w.size)) := by
  unfold insert at h
  split at h
  · cases h
  · cases h
    rfl

theorem runLength_le : w.runLength ≤ w.size := by
  refine Nat.find_min' _ ?_
  rw [w.eq_none _ (by unfold InWindow; omega)]
  rfl

theorem runLength_of_eq_none (h : w.entries w.start = none) : w.runLength = 0 :=
  (Nat.find_eq_zero _).mpr (by rw [Nat.add_zero, h]; rfl)

/-- The keys of the window slid by one, read from its start. -/
theorem entries_slide_one (i : Nat) :
    (w.slide 1).entries ((w.slide 1).start + i) = w.entries (w.start + (i + 1)) := by
  show (if w.start + 1 ≤ w.start + 1 + i then w.entries (w.start + 1 + i) else none) = _
  rw [if_pos (Nat.le_add_right _ _), Nat.add_assoc, Nat.add_comm 1 i]

theorem runLength_of_eq_some {x : α} (h : w.entries w.start = some x) :
    w.runLength = (w.slide 1).runLength + 1 := by
  have hSucc : ∃ i, (w.entries (w.start + (i + 1))).isNone := by
    obtain ⟨i, hi⟩ := (w.slide 1).exists_absent
    exact ⟨i, by rwa [entries_slide_one] at hi⟩
  unfold runLength
  rw [Nat.find_comp_succ w.exists_absent hSucc (by simp [h])]
  congr 1
  exact Nat.find_congr' fun {i} => by rw [entries_slide_one]

theorem flush_of_eq_none (h : w.entries w.start = none) : w.flush = ([], w) := by
  rw [flush, runLength_of_eq_none w h, slide_zero]
  rfl

/-- A held start is handed out first, and the rest is the flush of the window
slid by one. -/
theorem flush_of_eq_some {x : α} (h : w.entries w.start = some x) :
    w.flush = (x :: (w.slide 1).flush.1, (w.slide 1).flush.2) := by
  rw [flush, flush, runLength_of_eq_some w h, List.range_succ_eq_map, List.filterMap_cons,
    Nat.add_zero, h, List.filterMap_map, slide_slide, Nat.add_comm 1]
  simp only [Function.comp_def, Nat.succ_eq_add_one, entries_slide_one]

end Window

end CircularWindow
