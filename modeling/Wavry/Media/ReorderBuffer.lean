import Wavry.Lib.CircularWindow

/-! `ReorderBuffer` of `wavry-media/src/buffer_pool.rs`: a circular array of
`window_size` slots for the payloads of the packet ids `[window_start,
window_start + window_size)`, id `k` in slot `k % window_size`.

What the buffer is for is a `CircularWindow.Window` of payloads, and
`toWindow` reads it off the slots. `get` and `flush_ordered` are the window's
get and flush on every buffer, and they keep `memory_usage_bytes` the size of
the payloads held. `insert` is the window's insert only for an id inside the
window on a slot that holds nothing: `insert` slides the window only for an id
past `window_start + window_size`, and then only up to `id - window_size`
(never more than `window_size`), so an id at the window's end or beyond lands
in the slot of an id the window still holds. A stored payload's bytes are added
without taking off those of the payload it replaces.

Ids are `Nat`: the buffer's `u32` arithmetic on them does not overflow while
`window_start + window_size` does not. -/

namespace Wavry.Media

open CircularWindow

/-- `ReorderError`. -/
inductive ReorderError
  | packetTooOld
  deriving DecidableEq, Repr

/-- `ReorderBuffer`, with a slot of `buffer` for each id of the window. A
window size of zero is left out: `insert`, `get` and `flush_ordered` all take
a remainder by it. -/
structure ReorderBuffer where
  buffer : List (Option (List UInt8))
  maxSeen : Nat
  windowStart : Nat
  windowSize : Nat
  bufferSizeBytes : Nat
  length_buffer : buffer.length = windowSize
  windowSize_pos : 0 < windowSize

namespace ReorderBuffer

/-- `new`. -/
def new (windowSize : Nat) (h : 0 < windowSize) : ReorderBuffer where
  buffer := List.replicate windowSize none
  maxSeen := 0
  windowStart := 0
  windowSize := windowSize
  bufferSizeBytes := 0
  length_buffer := List.length_replicate
  windowSize_pos := h

/-- Write slot `idx`. -/
def setSlot (b : ReorderBuffer) (idx : Nat) (slot : Option (List UInt8)) : ReorderBuffer :=
  { b with
    buffer := b.buffer.set idx slot
    length_buffer := by rw [List.length_set, b.length_buffer] }

/-- `self.buffer[idx].take()`, with a taken payload's bytes off
`buffer_size_bytes` (`saturating_sub`). -/
def take (b : ReorderBuffer) (idx : Nat) : Option (List UInt8) × ReorderBuffer :=
  match b.buffer[idx]?.join with
  | some data =>
    let emptied := b.setSlot idx none
    (some data, { emptied with bufferSizeBytes := b.bufferSizeBytes - data.length })
  | none => (none, b)

/-- `self.window_start += 1`. -/
def advance (b : ReorderBuffer) : ReorderBuffer := { b with windowStart := b.windowStart + 1 }

/-- One round of `slide_window`'s loop. -/
def slideOne (b : ReorderBuffer) : ReorderBuffer :=
  (b.take (b.windowStart % b.windowSize)).2.advance

/-- `slide_window`. -/
def slideWindow (b : ReorderBuffer) (count : Nat) : ReorderBuffer :=
  slideOne^[min count b.windowSize] b

/-- `insert`. -/
def insert (b : ReorderBuffer) (packetId : Nat) (data : List UInt8) :
    Except ReorderError ReorderBuffer :=
  if packetId < b.windowStart then .error .packetTooOld
  else
    let b := if packetId > b.windowStart + b.windowSize then
      b.slideWindow (packetId - b.windowStart - b.windowSize) else b
    let b := b.setSlot (packetId % b.windowSize) (some data)
    .ok { b with bufferSizeBytes := b.bufferSizeBytes + data.length, maxSeen := max b.maxSeen packetId }

/-- `get`. -/
def get (b : ReorderBuffer) (packetId : Nat) : Option (List UInt8) × ReorderBuffer :=
  if packetId < b.windowStart ∨ packetId ≥ b.windowStart + b.windowSize then (none, b)
  else b.take (packetId % b.windowSize)

/-- The loop of `flush_ordered`, for at most `fuel` rounds. Each round empties
an occupied slot, and `flushOrdered` gives it a round more than the window has
slots, so the loop always ends at an empty slot (`flushOrdered_refines`). -/
def flushLoop (b : ReorderBuffer) : Nat → List (List UInt8) × ReorderBuffer
  | 0 => ([], b)
  | fuel + 1 =>
    match b.take (b.windowStart % b.windowSize) with
    | (some data, b') =>
      let rest := b'.advance.flushLoop fuel
      (data :: rest.1, rest.2)
    | (none, b') => ([], b')

/-- `flush_ordered`. -/
def flushOrdered (b : ReorderBuffer) : List (List UInt8) × ReorderBuffer :=
  b.flushLoop (b.windowSize + 1)

/-- `memory_usage_bytes`. -/
def memoryUsageBytes (b : ReorderBuffer) : Nat := b.bufferSizeBytes

/-! ## The window the buffer holds -/

/-- The window of payloads the slots hold. -/
def toWindow (b : ReorderBuffer) : Window (List UInt8) where
  size := b.windowSize
  start := b.windowStart
  entries := view b.buffer b.windowSize b.windowStart
  size_pos := b.windowSize_pos
  eq_none _ hk := view_of_not_inWindow hk

/-- The bytes of a slot's payload. -/
def slotBytes (slot : Option (List UInt8)) : Nat := (slot.map List.length).getD 0

/-- The bytes of the payloads in the slots. -/
def storedBytes (b : ReorderBuffer) : Nat := (b.buffer.map slotBytes).sum

/-- `memory_usage_bytes` is the size of the payloads of the window. -/
def BytesTracked (b : ReorderBuffer) : Prop := b.memoryUsageBytes = b.toWindow.memory List.length

section Lemmas

variable (b : ReorderBuffer)

theorem memory_toWindow : b.toWindow.memory List.length = b.storedBytes :=
  sum_view b.length_buffer slotBytes b.windowStart

theorem bytesTracked_iff : b.BytesTracked ↔ b.bufferSizeBytes = b.storedBytes := by
  rw [BytesTracked, memory_toWindow]
  rfl

theorem toWindow_new (n : Nat) (h : 0 < n) : (new n h).toWindow = Window.empty n h := by
  refine Window.ext rfl rfl (funext fun k => ?_)
  show view (List.replicate n none) n 0 k = none
  unfold view
  split
  · rw [List.getElem?_replicate]
    split <;> rfl
  · rfl

theorem bytesTracked_new (n : Nat) (h : 0 < n) : (new n h).BytesTracked := by
  rw [bytesTracked_iff]
  simp [new, storedBytes, slotBytes]

theorem lt_length_of_lt {idx : Nat} (hIdx : idx < b.windowSize) : idx < b.buffer.length := by
  rw [b.length_buffer]
  exact hIdx

/-! ### Slots -/

theorem take_of_some {idx : Nat} {data : List UInt8} (h : b.buffer[idx]?.join = some data) :
    b.take idx = (some data, { b.setSlot idx none with bufferSizeBytes := b.bufferSizeBytes - data.length }) := by
  rw [take, h]

theorem take_of_none {idx : Nat} (h : b.buffer[idx]?.join = none) : b.take idx = (none, b) := by
  rw [take, h]

theorem fst_take (idx : Nat) : (b.take idx).1 = b.buffer[idx]?.join := by
  cases h : b.buffer[idx]?.join with
  | none => rw [take_of_none b h]
  | some data => rw [take_of_some b h]

@[simp] theorem windowStart_take (idx : Nat) : (b.take idx).2.windowStart = b.windowStart := by
  cases h : b.buffer[idx]?.join with
  | none => rw [take_of_none b h]
  | some data => rw [take_of_some b h]; rfl

@[simp] theorem windowSize_take (idx : Nat) : (b.take idx).2.windowSize = b.windowSize := by
  cases h : b.buffer[idx]?.join with
  | none => rw [take_of_none b h]
  | some data => rw [take_of_some b h]; rfl

theorem toWindow_entries : b.toWindow.entries = view b.buffer b.windowSize b.windowStart := rfl

/-- Taking a slot leaves it empty, also when it was. -/
theorem buffer_take {idx : Nat} (hIdx : idx < b.windowSize) :
    (b.take idx).2.buffer = b.buffer.set idx none := by
  cases h : b.buffer[idx]?.join with
  | some data => rw [take_of_some b h]; rfl
  | none =>
    have hLt := b.lt_length_of_lt hIdx
    have hSlot : b.buffer[idx] = none := by
      rwa [List.getElem?_eq_getElem hLt, Option.join_some] at h
    rw [take_of_none b h, ← hSlot, List.set_getElem_self]

theorem storedBytes_setSlot {idx : Nat} (hIdx : idx < b.windowSize) (slot : Option (List UInt8)) :
    (b.setSlot idx slot).storedBytes + slotBytes b.buffer[idx]?.join = b.storedBytes + slotBytes slot := by
  rw [List.getElem?_eq_getElem (b.lt_length_of_lt hIdx), Option.join_some]
  exact sum_map_set_add slotBytes (b.lt_length_of_lt hIdx) slot

theorem bytesTracked_take {idx : Nat} (hIdx : idx < b.windowSize) (h : b.BytesTracked) :
    (b.take idx).2.BytesTracked := by
  cases hSlot : b.buffer[idx]?.join with
  | none => rwa [take_of_none b hSlot]
  | some data =>
    rw [take_of_some b hSlot, bytesTracked_iff]
    have hStored := b.storedBytes_setSlot hIdx none
    rw [hSlot] at hStored
    rw [bytesTracked_iff] at h
    show b.bufferSizeBytes - data.length = (b.setSlot idx none).storedBytes
    simp only [slotBytes, Option.map_some, Option.getD_some, Option.map_none, Option.getD_none] at hStored
    omega

section Window

variable {k : Nat} (hk : InWindow b.windowStart b.windowSize k)
include hk

theorem toWindow_setSlot_some (data : List UInt8) :
    (b.setSlot (k % b.windowSize) (some data)).toWindow = b.toWindow.set k data hk :=
  Window.ext rfl rfl (view_set b.length_buffer hk _)

theorem toWindow_take : (b.take (k % b.windowSize)).2.toWindow = b.toWindow.erase k := by
  refine Window.ext (b.windowSize_take _) (b.windowStart_take _) ?_
  rw [toWindow_entries, buffer_take b (mod_lt_of_inWindow hk), windowSize_take, windowStart_take]
  exact view_set b.length_buffer hk none

theorem fst_take_of_inWindow : (b.take (k % b.windowSize)).1 = b.toWindow.entries k := by
  rw [fst_take]
  exact (view_of_inWindow hk).symm

end Window

/-! ### Sliding -/

theorem inWindow_start : InWindow b.windowStart b.windowSize b.windowStart :=
  ⟨le_refl _, Nat.lt_add_of_pos_right b.windowSize_pos⟩

/-- One round of `slide_window` is the window slid by one. -/
theorem toWindow_slideOne : b.slideOne.toWindow = b.toWindow.slide 1 := by
  have hStart : b.slideOne.windowStart = b.windowStart + 1 := by
    rw [slideOne, advance, windowStart_take]
  refine Window.ext (b.windowSize_take _) hStart (funext fun k => ?_)
  rw [toWindow_entries, hStart]
  show view (b.take (b.windowStart % b.windowSize)).2.buffer
    (b.take (b.windowStart % b.windowSize)).2.windowSize (b.windowStart + 1) k = _
  rw [buffer_take b (mod_lt_of_inWindow b.inWindow_start), windowSize_take]
  exact view_set_advance b.length_buffer b.windowSize_pos k

theorem bytesTracked_slideOne (h : b.BytesTracked) : b.slideOne.BytesTracked := by
  have hTaken := (bytesTracked_iff _).mp (bytesTracked_take b (mod_lt_of_inWindow b.inWindow_start) h)
  rw [bytesTracked_iff]
  exact hTaken

theorem toWindow_iterate_slideOne (m : Nat) : (slideOne^[m] b).toWindow = b.toWindow.slide m := by
  induction m generalizing b with
  | zero => exact (Window.slide_zero _).symm
  | succ m ih =>
    rw [Function.iterate_succ_apply, ih, toWindow_slideOne, Window.slide_slide, Nat.add_comm]

theorem bytesTracked_iterate_slideOne (m : Nat) (h : b.BytesTracked) : (slideOne^[m] b).BytesTracked := by
  induction m generalizing b with
  | zero => exact h
  | succ m ih => exact ih _ (bytesTracked_slideOne b h)

theorem toWindow_slideWindow (count : Nat) :
    (b.slideWindow count).toWindow = b.toWindow.slide (min count b.windowSize) :=
  toWindow_iterate_slideOne b _

/-! ### `insert` -/

theorem insert_of_lt {packetId : Nat} (h : packetId < b.windowStart) (data : List UInt8) :
    b.insert packetId data = .error .packetTooOld := if_pos h

theorem insert_of_inWindow {k : Nat} (hk : InWindow b.windowStart b.windowSize k) (data : List UInt8) :
    b.insert k data = .ok { b.setSlot (k % b.windowSize) (some data) with
      bufferSizeBytes := b.bufferSizeBytes + data.length, maxSeen := max b.maxSeen k } := by
  have hStay : ¬ k > b.windowStart + b.windowSize := by unfold InWindow at hk; omega
  rw [insert, if_neg (Nat.not_lt.mpr hk.1)]
  simp only [hStay, if_false]
  rfl

/-- An id at the window's end or beyond is stored with the window ending at
or before it: `insert` slides the window too little by one. -/
theorem windowStart_insert_of_le {k : Nat} (hk : b.windowStart + b.windowSize ≤ k) {data : List UInt8}
    {b' : ReorderBuffer} (h : b.insert k data = .ok b') : b'.windowStart + b.windowSize ≤ k := by
  rw [insert, if_neg (by omega)] at h
  cases h
  show (if k > b.windowStart + b.windowSize then
      b.slideWindow (k - b.windowStart - b.windowSize) else b).windowStart + b.windowSize ≤ k
  split
  · have hStart := congrArg Window.start (b.toWindow_slideWindow (k - b.windowStart - b.windowSize))
    change (b.slideWindow _).windowStart = b.windowStart + min _ b.windowSize at hStart
    rw [hStart]
    omega
  · exact hk

theorem exists_insert_eq_ok {k : Nat} (hk : ¬ k < b.windowStart) (data : List UInt8) :
    ∃ b', b.insert k data = .ok b' :=
  ⟨_, if_neg hk⟩

/-- Inside the window the byte count stays right exactly when the slot held
no bytes. -/
theorem bytesTracked_insert_iff {k : Nat} (hk : InWindow b.windowStart b.windowSize k) (data : List UInt8)
    (h : b.BytesTracked) {b' : ReorderBuffer} (hIns : b.insert k data = .ok b') :
    b'.BytesTracked ↔ slotBytes (b.toWindow.entries k) = 0 := by
  rw [insert_of_inWindow b hk] at hIns
  cases hIns
  have hStored := b.storedBytes_setSlot (mod_lt_of_inWindow hk) (some data)
  rw [bytesTracked_iff] at h
  rw [bytesTracked_iff]
  show b.bufferSizeBytes + data.length = (b.setSlot (k % b.windowSize) (some data)).storedBytes ↔
    slotBytes (view b.buffer b.windowSize b.windowStart k) = 0
  rw [view_of_inWindow hk]
  simp only [slotBytes, Option.map_some, Option.getD_some] at hStored ⊢
  omega

/-- `insert` is the window's insert, byte count included, exactly for an id
inside the window whose slot held no bytes. Below the window both refuse. -/
theorem insert_refines_iff (h : b.BytesTracked) (packetId : Nat) (data : List UInt8) :
    (Option.map toWindow (b.insert packetId data).toOption = b.toWindow.insert packetId data ∧
      ∀ b', b.insert packetId data = .ok b' → b'.BytesTracked) ↔
    packetId < b.windowStart + b.windowSize ∧ slotBytes (b.toWindow.entries packetId) = 0 := by
  by_cases hLow : packetId < b.windowStart
  · have hOut : ¬ InWindow b.windowStart b.windowSize packetId := fun hk => absurd hk.1 (by omega)
    have hNone : b.toWindow.entries packetId = none := b.toWindow.eq_none _ hOut
    rw [insert_of_lt b hLow, Window.insert_of_lt _ hLow]
    have := b.windowSize_pos
    exact iff_of_true ⟨rfl, fun b' hIns => nomatch hIns⟩ ⟨by omega, by rw [hNone]; rfl⟩
  by_cases hIn : packetId < b.windowStart + b.windowSize
  · have hk : InWindow b.windowStart b.windowSize packetId := ⟨Nat.not_lt.mp hLow, hIn⟩
    obtain ⟨b', hIns⟩ := b.exists_insert_eq_ok hLow data
    have hWindow : b'.toWindow = b.toWindow.set packetId data hk := by
      rw [insert_of_inWindow b hk] at hIns
      cases hIns
      exact b.toWindow_setSlot_some hk data
    rw [hIns, Window.insert_of_inWindow _ hk, ← bytesTracked_insert_iff b hk data h hIns]
    simp only [Except.toOption, Option.map_some, hWindow, true_and, hIn]
    exact ⟨fun hAll => hAll b' rfl, fun hTracked b'' hEq => by cases hEq; exact hTracked⟩
  · obtain ⟨b', hIns⟩ := b.exists_insert_eq_ok hLow data
    have hShort := b.windowStart_insert_of_le (Nat.not_lt.mp hIn) hIns
    rw [hIns]
    simp only [hIn, false_and, iff_false, not_and]
    intro hEq
    have hSlid := Window.start_of_insert _ hEq.symm
    change b'.windowStart = b.windowStart + (packetId + 1 - (b.windowStart + b.windowSize)) at hSlid
    omega

/-! ### `get` and `flush_ordered` -/

/-- `get` is the window's get, and keeps the byte count right. -/
theorem get_refines (h : b.BytesTracked) (packetId : Nat) :
    (b.get packetId).1 = (b.toWindow.get packetId).1 ∧
      (b.get packetId).2.toWindow = (b.toWindow.get packetId).2 ∧ (b.get packetId).2.BytesTracked := by
  by_cases hk : InWindow b.windowStart b.windowSize packetId
  · have hGet : b.get packetId = b.take (packetId % b.windowSize) := by
      rw [get, if_neg (by unfold InWindow at hk; omega)]
    rw [hGet]
    exact ⟨b.fst_take_of_inWindow hk, b.toWindow_take hk,
      bytesTracked_take b (mod_lt_of_inWindow hk) h⟩
  · have hGet : b.get packetId = (none, b) := by
      rw [get, if_pos (by unfold InWindow at hk; omega)]
    have hNone : b.toWindow.entries packetId = none := b.toWindow.eq_none _ hk
    rw [hGet]
    exact ⟨hNone.symm, (Window.erase_of_eq_none _ hNone).symm, h⟩

/-- Given more rounds than the window's run of held ids, the loop of
`flush_ordered` is the window's flush. The induction is on the rounds; each
one hands out the start and slides the window by one. -/
theorem flushLoop_refines (fuel : Nat) (hFuel : b.toWindow.runLength < fuel) (h : b.BytesTracked) :
    (b.flushLoop fuel).1 = b.toWindow.flush.1 ∧ (b.flushLoop fuel).2.toWindow = b.toWindow.flush.2 ∧
      (b.flushLoop fuel).2.BytesTracked := by
  induction fuel generalizing b with
  | zero => exact absurd hFuel (Nat.not_lt_zero _)
  | succ fuel ih =>
    have hFirst := b.fst_take_of_inWindow b.inWindow_start
    rw [fst_take] at hFirst
    cases hSlot : b.toWindow.entries b.windowStart with
    | none =>
      rw [hSlot] at hFirst
      rw [flushLoop, take_of_none b hFirst, Window.flush_of_eq_none _ hSlot]
      exact ⟨rfl, rfl, h⟩
    | some data =>
      rw [hSlot] at hFirst
      have hNext : (b.toWindow.slide 1).runLength < fuel := by
        have := Window.runLength_of_eq_some _ hSlot
        omega
      have hRest := ih b.slideOne (by rwa [toWindow_slideOne]) (bytesTracked_slideOne b h)
      rw [toWindow_slideOne] at hRest
      have hLoop : b.flushLoop (fuel + 1) =
          (data :: (b.slideOne.flushLoop fuel).1, (b.slideOne.flushLoop fuel).2) := by
        rw [flushLoop, slideOne, take_of_some b hFirst]
      rw [hLoop, Window.flush_of_eq_some _ hSlot]
      exact ⟨congrArg (data :: ·) hRest.1, hRest.2.1, hRest.2.2⟩

theorem flushOrdered_refines (h : b.BytesTracked) :
    b.flushOrdered.1 = b.toWindow.flush.1 ∧ b.flushOrdered.2.toWindow = b.toWindow.flush.2 ∧
      b.flushOrdered.2.BytesTracked :=
  b.flushLoop_refines _ (Nat.lt_succ_of_le b.toWindow.runLength_le) h

end Lemmas

/-- From any buffer whose byte count is right, `get` and `flush_ordered` are
the abstract window's get and flush and keep the count right, while `insert`
is the window's insert, count included, exactly for an id inside the window
whose slot held no bytes: an id at `window_start + window_size` or beyond is
stored in a window one id short of sliding far enough, and a payload replacing
another has its bytes counted on top of the old ones. -/
theorem reorderBuffer_window_iff (b : ReorderBuffer) (hTracked : b.BytesTracked) :
    (∀ packetId, (b.get packetId).1 = (b.toWindow.get packetId).1 ∧
      (b.get packetId).2.toWindow = (b.toWindow.get packetId).2 ∧ (b.get packetId).2.BytesTracked) ∧
    (b.flushOrdered.1 = b.toWindow.flush.1 ∧ b.flushOrdered.2.toWindow = b.toWindow.flush.2 ∧
      b.flushOrdered.2.BytesTracked) ∧
    (∀ packetId data,
      (Option.map toWindow (b.insert packetId data).toOption = b.toWindow.insert packetId data ∧
        ∀ b', b.insert packetId data = .ok b' → b'.BytesTracked) ↔
      packetId < b.windowStart + b.windowSize ∧ slotBytes (b.toWindow.entries packetId) = 0) :=
  ⟨b.get_refines hTracked, b.flushOrdered_refines hTracked, b.insert_refines_iff hTracked⟩

/-- After `insert(0, [1])` into a new buffer of two slots, `insert(2, [2])`
is not the window's insert: the window would slide to start at `1`, while the
buffer keeps its start and writes `[2]` into the slot of id `0`. -/
theorem reorderBuffer_window_iff_edge :
    ∃ b, (new 2 (by decide)).insert 0 [1] = .ok b ∧ b.BytesTracked ∧
      ¬ (Option.map toWindow (b.insert 2 [2]).toOption = b.toWindow.insert 2 [2] ∧
        ∀ b', b.insert 2 [2] = .ok b' → b'.BytesTracked) := by
  let b : ReorderBuffer := ⟨[some [1], none], 0, 0, 2, 1, rfl, by decide⟩
  have hTracked : b.BytesTracked := (bytesTracked_iff b).mpr rfl
  refine ⟨b, rfl, hTracked, fun hRefines => ?_⟩
  have hEdge := ((reorderBuffer_window_iff _ hTracked).2.2 2 [2]).mp hRefines
  exact absurd hEdge.1 (by decide)

/-! ## Runs of calls -/

/-- A call of the buffer's interface. -/
inductive Call
  | insert (packetId : Nat) (data : List UInt8)
  | get (packetId : Nat)
  | flushOrdered

/-- What a call gives back: whether `insert` returned `Ok`, what `get` took
out, what `flush_ordered` handed out. -/
inductive Reply
  | inserted (accepted : Bool)
  | got (data : Option (List UInt8))
  | flushed (packets : List (List UInt8))
  deriving DecidableEq, Repr

/-- One call on the buffer; a refused insert leaves it as it was. -/
def call (b : ReorderBuffer) : Call → Reply × ReorderBuffer
  | .insert packetId data =>
    match b.insert packetId data with
    | .ok b' => (.inserted true, b')
    | .error _ => (.inserted false, b)
  | .get packetId => (.got (b.get packetId).1, (b.get packetId).2)
  | .flushOrdered => (.flushed b.flushOrdered.1, b.flushOrdered.2)

def run (b : ReorderBuffer) : List Call → List Reply × ReorderBuffer
  | [] => ([], b)
  | c :: calls =>
    let rest := (b.call c).2.run calls
    ((b.call c).1 :: rest.1, rest.2)

/-- One call on the window the buffer is for. -/
def windowCall (w : Window (List UInt8)) : Call → Reply × Window (List UInt8)
  | .insert packetId data =>
    match w.insert packetId data with
    | some w' => (.inserted true, w')
    | none => (.inserted false, w)
  | .get packetId => (.got (w.get packetId).1, (w.get packetId).2)
  | .flushOrdered => (.flushed w.flush.1, w.flush.2)

def windowRun (w : Window (List UInt8)) : List Call → List Reply × Window (List UInt8)
  | [] => ([], w)
  | c :: calls =>
    let rest := windowRun (windowCall w c).2 calls
    ((windowCall w c).1 :: rest.1, rest.2)

/-- Each insert of the run is for an id inside the window whose slot holds no
bytes at the time it comes. -/
def InsertsInWindow : Window (List UInt8) → List Call → Prop
  | _, [] => True
  | w, c :: calls =>
    (∀ packetId data, c = .insert packetId data →
      packetId < w.start + w.size ∧ slotBytes (w.entries packetId) = 0) ∧
    InsertsInWindow (windowCall w c).2 calls

theorem call_refines (b : ReorderBuffer) (h : b.BytesTracked) (c : Call)
    (hIns : ∀ packetId data, c = .insert packetId data →
      packetId < b.windowStart + b.windowSize ∧ slotBytes (b.toWindow.entries packetId) = 0) :
    (b.call c).1 = (windowCall b.toWindow c).1 ∧ (b.call c).2.toWindow = (windowCall b.toWindow c).2 ∧
      (b.call c).2.BytesTracked := by
  cases c with
  | insert packetId data =>
    obtain ⟨hRefines, hTracked⟩ := (b.insert_refines_iff h packetId data).mpr (hIns packetId data rfl)
    cases hResult : b.insert packetId data with
    | error e =>
      have hNone : b.toWindow.insert packetId data = none := by
        rw [← hRefines, hResult]
        rfl
      simp only [call, windowCall, hResult, hNone, true_and]
      exact h
    | ok b' =>
      have hSome : b.toWindow.insert packetId data = some b'.toWindow := by
        rw [← hRefines, hResult]
        rfl
      simp only [call, windowCall, hResult, hSome, true_and]
      exact hTracked b' hResult
  | get packetId =>
    obtain ⟨hGot, hWindow, hTracked⟩ := b.get_refines h packetId
    exact ⟨congrArg Reply.got hGot, hWindow, hTracked⟩
  | flushOrdered =>
    obtain ⟨hFlushed, hWindow, hTracked⟩ := b.flushOrdered_refines h
    exact ⟨congrArg Reply.flushed hFlushed, hWindow, hTracked⟩

/-- A run whose inserts stay inside the window on ids holding nothing gives
back what the window gives back and ends holding the window's final state,
with its byte count right. The induction is on the calls, carried by
`call_refines` and the byte count. -/
theorem run_refines (calls : List Call) :
    ∀ b : ReorderBuffer, b.BytesTracked → InsertsInWindow b.toWindow calls →
      (b.run calls).1 = (windowRun b.toWindow calls).1 ∧
        (b.run calls).2.toWindow = (windowRun b.toWindow calls).2 ∧ (b.run calls).2.BytesTracked := by
  induction calls with
  | nil => exact fun b h _ => ⟨rfl, rfl, h⟩
  | cons c calls ih =>
    intro b h hIns
    obtain ⟨hReply, hWindow, hTracked⟩ := b.call_refines h c hIns.1
    have hRest := ih (b.call c).2 hTracked (by rw [hWindow]; exact hIns.2)
    rw [hWindow] at hRest
    exact ⟨by rw [run, windowRun, hReply, hRest.1], hRest.2.1, hRest.2.2⟩

/-- From `new`, every run whose inserts stay inside the window on ids holding
nothing is a run of the abstract window: the same replies, the same final
window, and a byte count that stays right. -/
theorem run_new_refines (n : Nat) (hn : 0 < n) (calls : List Call)
    (hIns : InsertsInWindow (Window.empty n hn) calls) :
    ((new n hn).run calls).1 = (windowRun (Window.empty n hn) calls).1 ∧
      ((new n hn).run calls).2.toWindow = (windowRun (Window.empty n hn) calls).2 ∧
      ((new n hn).run calls).2.BytesTracked := by
  have hRun := run_refines calls (new n hn) (bytesTracked_new n hn) (by rwa [toWindow_new])
  rwa [toWindow_new] at hRun

/-- Two packets in reverse order, a `get` of the later one, and a flush. -/
def reversedCalls : List Call := [.insert 1 [7], .insert 0 [5], .get 1, .flushOrdered]

theorem run_new_refines_reversed :
    ((new 4 (by decide)).run reversedCalls).1 = (windowRun (Window.empty 4 (by decide)) reversedCalls).1 ∧
      ((new 4 (by decide)).run reversedCalls).2.toWindow =
        (windowRun (Window.empty 4 (by decide)) reversedCalls).2 ∧
      ((new 4 (by decide)).run reversedCalls).2.BytesTracked := by
  have hIns : InsertsInWindow (Window.empty 4 (by decide)) reversedCalls := by
    simp only [reversedCalls, InsertsInWindow]
    refine ⟨fun p d h => ?_, fun p d h => ?_, fun _ _ h => Call.noConfusion h,
      fun _ _ h => Call.noConfusion h, trivial⟩
    · cases h
      exact ⟨by decide, rfl⟩
    · cases h
      exact ⟨by decide, rfl⟩
  exact run_new_refines 4 (by decide) reversedCalls hIns

end ReorderBuffer

end Wavry.Media
