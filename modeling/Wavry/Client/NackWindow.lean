import Mathlib
import Wavry.Lib.Saturating

/-! Loss detection on the client (`wavry-client` media). The window keeps the
highest packet id seen and the ids received and reported missing within
`window` of it. A packet more than one above the highest reports the ids of
the gap, at most `window` of them below the new id, that were neither received
nor reported before; both sets are then cut to `highest - window` and up. -/
namespace Wavry.Client

open Saturating

/-- `NACK_WINDOW_SIZE`. -/
def nackWindowSize : UInt64 := 128

structure NackWindow where
  window : UInt64
  highest : Option UInt64
  received : Finset UInt64
  missing : Finset UInt64

namespace NackWindow

def new (window : UInt64) : NackWindow := ⟨window, none, ∅, ∅⟩

/-- The ids of `min_start..=gap_end`, in order. -/
def gapIds (minStart gapEnd : UInt64) : List UInt64 :=
  (List.range (gapEnd.toNat + 1 - minStart.toNat)).map fun k => minStart + UInt64.ofNat k

/-- One iteration of the gap loop: report an id neither received nor reported. -/
def reportGap (received : Finset UInt64) (acc : Finset UInt64 × List UInt64) (id : UInt64) :
    Finset UInt64 × List UInt64 :=
  if id ∉ received ∧ id ∉ acc.1 then (insert id acc.1, acc.2 ++ [id]) else acc

/-- `evict_old`: keep the ids from `highest - window` (saturating) up. -/
def evictOld (w : NackWindow) : NackWindow :=
  match w.highest with
  | some highest =>
      let cutoff := saturatingSub highest w.window
      { w with
        received := w.received.filter (cutoff ≤ ·)
        missing := w.missing.filter (cutoff ≤ ·) }
  | none => w

/-- The first half of `on_packet`: the watermark moves, and a gap of more
than one id reports its ids. `highest + 1` is `u64` arithmetic, wrapping as a
release build does. -/
def advance (w : NackWindow) (packetId : UInt64) : NackWindow × List UInt64 :=
  match w.highest with
  | some highest =>
      if packetId > highest + 1 then
        let gapStart := highest + 1
        let gapEnd := packetId - 1
        let minStart := max (saturatingSub packetId w.window) gapStart
        let (missing, newlyMissing) :=
          (gapIds minStart gapEnd).foldl (reportGap w.received) (w.missing, [])
        ({ w with missing := missing, highest := some packetId }, newlyMissing)
      else if packetId > highest then ({ w with highest := some packetId }, [])
      else (w, [])
  | none => ({ w with highest := some packetId }, [])

/-- `on_packet`: the newly missing ids, in increasing order. -/
def onPacket (w : NackWindow) (packetId : UInt64) : NackWindow × List UInt64 :=
  let (w, newlyMissing) := w.advance packetId
  ({ w with received := insert packetId w.received, missing := w.missing.erase packetId }.evictOld,
    newlyMissing)

/-- The reports of a run of packets. -/
def run (w : NackWindow) : List UInt64 → List (List UInt64)
  | [] => []
  | packetId :: rest => (w.onPacket packetId).2 :: run (w.onPacket packetId).1 rest

/-- After `u64::MAX` the watermark wraps: id 3, received first, is reported
missing when 4 arrives. -/
theorem run_reports_received_after_max :
    (new 1).run [3, 0xFFFFFFFFFFFFFFFF, 4] = [[], [0xFFFFFFFFFFFFFFFE], [3]] := by
  decide

/-! ## The gap loop -/

theorem toNat_add_ofNat {a : UInt64} {k : Nat} (h : a.toNat + k < 2 ^ 64) :
    (a + UInt64.ofNat k).toNat = a.toNat + k := by
  rw [UInt64.toNat_add, UInt64.toNat_ofNat', Nat.mod_eq_of_lt (by omega : k < 2 ^ 64),
    Nat.mod_eq_of_lt h]

theorem mem_gapIds {minStart gapEnd x : UInt64} :
    x ∈ gapIds minStart gapEnd ↔ minStart ≤ x ∧ x ≤ gapEnd := by
  have hEnd : gapEnd.toNat < 2 ^ 64 := gapEnd.toNat_lt
  simp only [gapIds, List.mem_map, List.mem_range, UInt64.le_iff_toNat_le]
  constructor
  · rintro ⟨k, hk, rfl⟩
    rw [toNat_add_ofNat (by omega)]
    omega
  · rintro ⟨hLo, hHi⟩
    refine ⟨x.toNat - minStart.toNat, by omega, ?_⟩
    apply UInt64.toNat_inj.mp
    rw [toNat_add_ofNat (by omega)]
    omega

theorem nodup_gapIds (minStart gapEnd : UInt64) : (gapIds minStart gapEnd).Nodup := by
  have hEnd : gapEnd.toNat < 2 ^ 64 := gapEnd.toNat_lt
  apply List.Nodup.map_on _ List.nodup_range
  intro k hk l hl hEq
  have hk' := List.mem_range.mp hk
  have hl' := List.mem_range.mp hl
  have := congrArg UInt64.toNat hEq
  rw [toNat_add_ofNat (by omega), toNat_add_ofNat (by omega)] at this
  omega

/-- Over ids neither received nor reported, and distinct, the loop reports
every one of them, in order. -/
theorem foldl_reportGap (received : Finset UInt64) (ids : List UInt64) (hNodup : ids.Nodup) :
    ∀ (missing : Finset UInt64) (acc : List UInt64),
      (∀ id ∈ ids, id ∉ received ∧ id ∉ missing) →
      ids.foldl (reportGap received) (missing, acc) = (missing ∪ ids.toFinset, acc ++ ids) := by
  induction ids with
  | nil => intro missing acc _; simp
  | cons id rest ih =>
      intro missing acc hFresh
      obtain ⟨hNotRest, hRestNodup⟩ := List.nodup_cons.mp hNodup
      have hHead := hFresh id (List.mem_cons_self ..)
      have hStep : reportGap received (missing, acc) id = (insert id missing, acc ++ [id]) := by
        simp [reportGap, hHead.1, hHead.2]
      have hRestFresh : ∀ id' ∈ rest, id' ∉ received ∧ id' ∉ insert id missing := by
        intro id' hMem
        obtain ⟨hRec, hMis⟩ := hFresh id' (List.mem_cons_of_mem _ hMem)
        refine ⟨hRec, ?_⟩
        rw [Finset.mem_insert, not_or]
        exact ⟨fun hEq => hNotRest (hEq ▸ hMem), hMis⟩
      rw [List.foldl_cons, hStep, ih hRestNodup _ _ hRestFresh]
      simp [Finset.insert_union, Finset.union_insert]

/-! ## One packet, while the watermark does not wrap -/

/-- What the window keeps of a run that passed the ids `passed` and reported
the ids `reported`. -/
structure Inv (w : NackWindow) (passed reported : Finset UInt64) : Prop where
  empty : w.highest = none → passed = ∅ ∧ reported = ∅ ∧ w.received = ∅ ∧ w.missing = ∅
  highest_mem : ∀ h, w.highest = some h → h ∈ passed
  le_highest : ∀ h, w.highest = some h → ∀ x ∈ passed ∪ reported, x ≤ h
  received_sub : w.received ⊆ passed
  missing_not_mem : ∀ x ∈ w.missing, x ∉ passed
  range : ∀ h, w.highest = some h → ∀ x ∈ w.received ∪ w.missing,
    saturatingSub h w.window ≤ x ∧ x ≤ h

theorem inv_new (window : UInt64) : (new window).Inv ∅ ∅ :=
  ⟨fun _ => ⟨rfl, rfl, rfl, rfl⟩, by simp [new], by simp [new], by simp [new], by simp [new],
    by simp [new]⟩

/-- Eviction gives the window its range back once every id kept is at most
the highest. -/
theorem inv_evictOld {w : NackWindow} {passed reported : Finset UInt64} {h : UInt64}
    (hHighest : w.highest = some h) (hMem : h ∈ passed)
    (hLe : ∀ x ∈ passed ∪ reported, x ≤ h) (hReceived : w.received ⊆ passed)
    (hMissing : ∀ x ∈ w.missing, x ∉ passed) (hBelow : ∀ x ∈ w.received ∪ w.missing, x ≤ h) :
    w.evictOld.Inv passed reported := by
  have hEvict : w.evictOld = { w with
      received := w.received.filter (saturatingSub h w.window ≤ ·)
      missing := w.missing.filter (saturatingSub h w.window ≤ ·) } := by
    simp [evictOld, hHighest]
  rw [hEvict]
  refine ⟨fun hNone => by simp [hHighest] at hNone, fun h' hh' => ?_, fun h' hh' => ?_,
    (Finset.filter_subset _ _).trans hReceived, fun x hx => hMissing x (Finset.mem_of_mem_filter x hx),
    fun h' hh' x hx => ?_⟩
  · simp only [hHighest, Option.some.injEq] at hh'
    exact hh' ▸ hMem
  · simp only [hHighest, Option.some.injEq] at hh'
    exact hh' ▸ hLe
  · simp only [hHighest, Option.some.injEq] at hh'
    subst hh'
    rcases Finset.mem_union.mp hx with hRec | hMis
    · exact ⟨(Finset.mem_filter.mp hRec).2, hBelow x (Finset.mem_union_left _ (Finset.mem_of_mem_filter x hRec))⟩
    · exact ⟨(Finset.mem_filter.mp hMis).2, hBelow x (Finset.mem_union_right _ (Finset.mem_of_mem_filter x hMis))⟩

/-- What one call must give: the invariant for the ids passed and reported
with this call, reports that are new, distinct and never passed before, and
every id of a gap that is within the window below the new id. -/
structure Reports (w : NackWindow) (passed reported : Finset UInt64) (packetId : UInt64)
    (r : NackWindow × List UInt64) : Prop where
  inv : r.1.Inv (insert packetId passed) (reported ∪ r.2.toFinset)
  nodup : r.2.Nodup
  fresh : ∀ x ∈ r.2, x ∉ passed ∧ x ∉ reported
  complete : ∀ h, w.highest = some h → h + 1 < packetId → ∀ x, h < x → x < packetId →
    saturatingSub packetId w.window ≤ x → x ∈ r.2
  window_eq : r.1.window = w.window

@[simp] theorem window_evictOld (w : NackWindow) : w.evictOld.window = w.window := by
  unfold evictOld
  split <;> rfl

theorem onPacket_of_advance {w next : NackWindow} {packetId : UInt64} {out : List UInt64}
    (h : w.advance packetId = (next, out)) :
    w.onPacket packetId =
      ({ next with
          received := insert packetId next.received
          missing := next.missing.erase packetId }.evictOld, out) := by
  simp [onPacket, h]

theorem snd_onPacket {w next : NackWindow} {packetId : UInt64} {out : List UInt64}
    (h : w.advance packetId = (next, out)) : (w.onPacket packetId).2 = out := by
  rw [onPacket_of_advance h]

theorem window_advance (w : NackWindow) (packetId : UInt64) :
    (w.advance packetId).1.window = w.window := by
  unfold advance
  split
  · split_ifs <;> rfl
  · rfl

theorem window_onPacket (w : NackWindow) (packetId : UInt64) :
    (w.onPacket packetId).1.window = w.window := by
  cases hAdv : w.advance packetId with
  | mk next out =>
      have hWindow : next.window = w.window := by
        simpa [hAdv] using window_advance w packetId
      simp [onPacket_of_advance hAdv, hWindow]

/-- The invariant after a call, from what the first half of the call leaves:
its new highest `top` bounds everything, the received ids were passed, and the
missing ones, bar this id, were not. -/
theorem inv_onPacket {w next : NackWindow} {passed reported : Finset UInt64}
    {packetId top : UInt64} {out : List UInt64} (hAdv : w.advance packetId = (next, out))
    (hTop : next.highest = some top) (hMem : top ∈ insert packetId passed)
    (hLe : ∀ x ∈ insert packetId passed ∪ (reported ∪ out.toFinset), x ≤ top)
    (hReceived : next.received ⊆ passed)
    (hMissing : ∀ x ∈ next.missing.erase packetId, x ∉ insert packetId passed)
    (hBelow : ∀ x ∈ insert packetId next.received ∪ next.missing.erase packetId, x ≤ top) :
    (w.onPacket packetId).1.Inv (insert packetId passed)
      (reported ∪ (w.onPacket packetId).2.toFinset) := by
  rw [onPacket_of_advance hAdv]
  exact inv_evictOld hTop hMem hLe (Finset.insert_subset_insert _ hReceived) hMissing hBelow

section Step

variable {w : NackWindow} {passed reported : Finset UInt64} {packetId h : UInt64}

theorem advance_of_none (hw : w.highest = none) :
    w.advance packetId = ({ w with highest := some packetId }, []) := by
  simp [advance, hw]

/-- A gap whose ids are all new reports them all, from the window's start or
just above the old highest, whichever is later. -/
theorem advance_of_gap (hw : w.highest = some h) (hGap : h + 1 < packetId)
    (hFresh : ∀ x ∈ gapIds (max (saturatingSub packetId w.window) (h + 1)) (packetId - 1),
      x ∉ w.received ∧ x ∉ w.missing) :
    w.advance packetId =
      ({ w with
          missing := w.missing ∪
            (gapIds (max (saturatingSub packetId w.window) (h + 1)) (packetId - 1)).toFinset
          highest := some packetId },
        gapIds (max (saturatingSub packetId w.window) (h + 1)) (packetId - 1)) := by
  simp only [advance, hw, gt_iff_lt, if_pos hGap]
  rw [foldl_reportGap _ _ (nodup_gapIds _ _) _ _ hFresh, List.nil_append]

theorem advance_of_next (hw : w.highest = some h) (hGap : ¬ h + 1 < packetId)
    (hGt : h < packetId) : w.advance packetId = ({ w with highest := some packetId }, []) := by
  simp [advance, hw, hGap, hGt]

theorem advance_of_le (hw : w.highest = some h) (hGap : ¬ h + 1 < packetId)
    (hLe : ¬ h < packetId) : w.advance packetId = (w, []) := by
  simp [advance, hw, hGap, hLe]

/-- Nothing the window knows of lies above its highest id. -/
theorem Inv.not_mem_of_lt (hInv : w.Inv passed reported) (hw : w.highest = some h) {x : UInt64}
    (hx : h < x) : x ∉ passed ∧ x ∉ reported ∧ x ∉ w.received ∧ x ∉ w.missing := by
  have hAbove : ¬ x ≤ h := UInt64.not_le.mpr hx
  refine ⟨fun hMem => hAbove (hInv.le_highest h hw x (Finset.mem_union_left _ hMem)),
    fun hMem => hAbove (hInv.le_highest h hw x (Finset.mem_union_right _ hMem)),
    fun hMem => hAbove (hInv.le_highest h hw x (Finset.mem_union_left _ (hInv.received_sub hMem))),
    fun hMem => hAbove (hInv.range h hw x (Finset.mem_union_right _ hMem)).2⟩

theorem Inv.not_mem_of_mem_erase (hInv : w.Inv passed reported) {x : UInt64}
    (hx : x ∈ w.missing.erase packetId) : x ∉ insert packetId passed := by
  obtain ⟨hNe, hMis⟩ := Finset.mem_erase.mp hx
  rw [Finset.mem_insert, not_or]
  exact ⟨hNe, hInv.missing_not_mem x hMis⟩

/-- Without a gap, everything passed or reported stays at most the new
highest `top`. -/
theorem Inv.le_of_mem_insert (hInv : w.Inv passed reported) (hw : w.highest = some h)
    {top : UInt64} (hPacket : packetId ≤ top) (hTop : h ≤ top) :
    ∀ x ∈ insert packetId passed ∪ (reported ∪ ([] : List UInt64).toFinset), x ≤ top := by
  intro x hx
  rw [List.toFinset_nil, Finset.union_empty, Finset.insert_union, Finset.mem_insert] at hx
  rcases hx with rfl | hOld
  · exact hPacket
  · exact UInt64.le_trans (hInv.le_highest h hw x hOld) hTop

theorem Inv.le_of_mem_kept (hInv : w.Inv passed reported) (hw : w.highest = some h)
    {top : UInt64} (hPacket : packetId ≤ top) (hTop : h ≤ top) :
    ∀ x ∈ insert packetId w.received ∪ w.missing.erase packetId, x ≤ top := by
  intro x hx
  rw [Finset.insert_union, Finset.mem_insert] at hx
  rcases hx with rfl | hKept
  · exact hPacket
  · rcases Finset.mem_union.mp hKept with hRec | hMis
    · exact UInt64.le_trans (hInv.range h hw x (Finset.mem_union_left _ hRec)).2 hTop
    · exact UInt64.le_trans
        (hInv.range h hw x (Finset.mem_union_right _ (Finset.mem_of_mem_erase hMis))).2 hTop

theorem reports_of_none (hInv : w.Inv passed reported) (hw : w.highest = none) :
    Reports w passed reported packetId (w.onPacket packetId) := by
  obtain ⟨rfl, rfl, hRec, hMis⟩ := hInv.empty hw
  have hAdv : w.advance packetId = _ := advance_of_none hw
  refine ⟨inv_onPacket hAdv rfl (Finset.mem_insert_self _ _) (by simp) (by simp [hRec])
      (by simp [hMis]) (by simp [hRec, hMis]), ?_, ?_, by simp [hw], window_onPacket w packetId⟩ <;>
    simp [snd_onPacket hAdv]

theorem reports_of_next (hInv : w.Inv passed reported) (hw : w.highest = some h)
    (hGap : ¬ h + 1 < packetId) (hGt : h < packetId) :
    Reports w passed reported packetId (w.onPacket packetId) := by
  have hLe : h ≤ packetId := UInt64.le_of_lt hGt
  have hAdv := advance_of_next hw hGap hGt
  refine ⟨inv_onPacket hAdv rfl (Finset.mem_insert_self _ _)
      (hInv.le_of_mem_insert hw (UInt64.le_refl _) hLe) hInv.received_sub
      (fun x hx => hInv.not_mem_of_mem_erase hx) (hInv.le_of_mem_kept hw (UInt64.le_refl _) hLe),
    by simp [snd_onPacket hAdv], by simp [snd_onPacket hAdv], ?_, window_onPacket w packetId⟩
  intro h' hh' hGap'
  rw [hw, Option.some.injEq] at hh'
  exact absurd (hh' ▸ hGap') hGap

theorem reports_of_le (hInv : w.Inv passed reported) (hw : w.highest = some h)
    (hGap : ¬ h + 1 < packetId) (hNotGt : ¬ h < packetId) :
    Reports w passed reported packetId (w.onPacket packetId) := by
  have hLe : packetId ≤ h := UInt64.not_lt.mp hNotGt
  have hAdv := advance_of_le hw hGap hNotGt
  refine ⟨inv_onPacket hAdv hw (Finset.mem_insert_of_mem (hInv.highest_mem h hw))
      (hInv.le_of_mem_insert hw hLe (UInt64.le_refl _)) hInv.received_sub
      (fun x hx => hInv.not_mem_of_mem_erase hx) (hInv.le_of_mem_kept hw hLe (UInt64.le_refl _)),
    by simp [snd_onPacket hAdv], by simp [snd_onPacket hAdv], ?_, window_onPacket w packetId⟩
  intro h' hh' hGap'
  rw [hw, Option.some.injEq] at hh'
  exact absurd (hh' ▸ hGap') hGap

/-- The gap case: every report lies strictly between the old highest and the
new id, so it was never passed or reported. -/
theorem reports_of_gap (hInv : w.Inv passed reported) (hw : w.highest = some h)
    (hNoWrap : h.toNat + 1 < 2 ^ 64) (hGap : h + 1 < packetId) :
    Reports w passed reported packetId (w.onPacket packetId) := by
  have hSucc : (h + 1).toNat = h.toNat + 1 := by
    rw [UInt64.toNat_add, UInt64.toNat_one, Nat.mod_eq_of_lt hNoWrap]
  have hGapNat : h.toNat + 1 < packetId.toNat := hSucc ▸ UInt64.lt_iff_toNat_lt.mp hGap
  have hPred : (packetId - 1).toNat = packetId.toNat - 1 :=
    UInt64.toNat_sub_of_le _ _ (UInt64.le_iff_toNat_le.mpr (by simp only [UInt64.toNat_one]; omega))
  have hMemGap : ∀ x, x ∈ gapIds (max (saturatingSub packetId w.window) (h + 1)) (packetId - 1) ↔
      packetId.toNat - w.window.toNat ≤ x.toNat ∧ h.toNat < x.toNat ∧ x.toNat < packetId.toNat := by
    intro x
    rw [mem_gapIds, UInt64.le_iff_toNat_le, UInt64.le_iff_toNat_le, UInt64.toNat_max,
      toNat_saturatingSub, hSucc, hPred]
    omega
  have hAbove : ∀ x ∈ gapIds (max (saturatingSub packetId w.window) (h + 1)) (packetId - 1),
      x ∉ passed ∧ x ∉ reported ∧ x ∉ w.received ∧ x ∉ w.missing := fun x hx =>
    hInv.not_mem_of_lt hw (UInt64.lt_iff_toNat_lt.mpr ((hMemGap x).mp hx).2.1)
  have hAdv := advance_of_gap hw hGap fun x hx => (hAbove x hx).2.2
  have hLt : ∀ x ∈ passed ∪ reported, x.toNat < packetId.toNat := fun x hx => by
    have := UInt64.le_iff_toNat_le.mp (hInv.le_highest h hw x hx)
    omega
  refine ⟨inv_onPacket hAdv rfl (Finset.mem_insert_self _ _) ?_ hInv.received_sub ?_ ?_,
    by simpa [snd_onPacket hAdv] using nodup_gapIds _ _, ?_, ?_, window_onPacket w packetId⟩
  · intro x hx
    rw [UInt64.le_iff_toNat_le]
    simp only [Finset.mem_union, Finset.mem_insert, List.mem_toFinset] at hx
    rcases hx with (rfl | hPassed) | hReported | hInGap
    · exact Nat.le_refl _
    · exact Nat.le_of_lt (hLt x (Finset.mem_union_left _ hPassed))
    · exact Nat.le_of_lt (hLt x (Finset.mem_union_right _ hReported))
    · exact Nat.le_of_lt ((hMemGap x).mp hInGap).2.2
  · intro x hx
    obtain ⟨hNe, hKept⟩ := Finset.mem_erase.mp hx
    rw [Finset.mem_insert, not_or]
    rcases Finset.mem_union.mp hKept with hMis | hInGap
    · exact ⟨hNe, hInv.missing_not_mem x hMis⟩
    · exact ⟨hNe, (hAbove x (List.mem_toFinset.mp hInGap)).1⟩
  · intro x hx
    rw [UInt64.le_iff_toNat_le]
    simp only [Finset.mem_union, Finset.mem_insert, Finset.mem_erase, List.mem_toFinset] at hx
    rcases hx with (rfl | hRec) | ⟨-, hMis | hInGap⟩
    · exact Nat.le_refl _
    · exact Nat.le_of_lt (hLt x (Finset.mem_union_left _ (hInv.received_sub hRec)))
    · have := UInt64.le_iff_toNat_le.mp (hInv.range h hw x (Finset.mem_union_right _ hMis)).2
      omega
    · exact Nat.le_of_lt ((hMemGap x).mp hInGap).2.2
  · intro x hx
    rw [snd_onPacket hAdv] at hx
    exact ⟨(hAbove x hx).1, (hAbove x hx).2.1⟩
  · intro h' hh' _ x hAfter hBefore hWindow
    rw [hw, Option.some.injEq] at hh'
    subst hh'
    rw [snd_onPacket hAdv, hMemGap]
    have := UInt64.le_iff_toNat_le.mp hWindow
    rw [toNat_saturatingSub] at this
    exact ⟨this, UInt64.lt_iff_toNat_lt.mp hAfter, UInt64.lt_iff_toNat_lt.mp hBefore⟩

/-- One call, from any state that keeps the invariant and whose highest id is
not `u64::MAX`. -/
theorem onPacket_reports (hInv : w.Inv passed reported)
    (hNoWrap : ∀ h, w.highest = some h → h.toNat + 1 < 2 ^ 64) (packetId : UInt64) :
    Reports w passed reported packetId (w.onPacket packetId) := by
  cases hw : w.highest with
  | none => exact reports_of_none hInv hw
  | some h =>
      by_cases hGap : h + 1 < packetId
      · exact reports_of_gap hInv hw (hNoWrap h hw) hGap
      · by_cases hGt : h < packetId
        · exact reports_of_next hInv hw hGap hGt
        · exact reports_of_le hInv hw hGap hGt

end Step

/-! ## Whole runs -/

/-- The window after a run of packets. -/
def stateAfter (w : NackWindow) (ids : List UInt64) : NackWindow :=
  ids.foldl (fun w packetId => (w.onPacket packetId).1) w

@[simp] theorem stateAfter_cons (w : NackWindow) (packetId : UInt64) (ids : List UInt64) :
    w.stateAfter (packetId :: ids) = (w.onPacket packetId).1.stateAfter ids := rfl

@[simp] theorem window_stateAfter (ids : List UInt64) :
    ∀ w : NackWindow, (w.stateAfter ids).window = w.window := by
  induction ids with
  | nil => intro w; rfl
  | cons packetId ids ih => intro w; rw [stateAfter_cons, ih, window_onPacket]

/-- The reports of a run split where the run does. -/
theorem run_append (w : NackWindow) (pre post : List UInt64) :
    w.run (pre ++ post) = w.run pre ++ (w.stateAfter pre).run post := by
  induction pre generalizing w with
  | nil => rfl
  | cons packetId pre ih => simp [run, ih]

theorem toNat_add_one_lt {x : UInt64} (hx : x ≠ 0xFFFFFFFFFFFFFFFF) : x.toNat + 1 < 2 ^ 64 := by
  have hLt := x.toNat_lt
  refine Nat.lt_of_le_of_ne hLt fun hEq => hx (UInt64.toNat_inj.mp ?_)
  simp only [UInt64.reduceToNat]
  omega

section Run

variable {passed reported : Finset UInt64}

/-- A window that has only seen ids below `u64::MAX` never wraps its watermark. -/
theorem Inv.noWrap {w : NackWindow} (hInv : w.Inv passed reported)
    (hPassed : ∀ x ∈ passed, x ≠ 0xFFFFFFFFFFFFFFFF) :
    ∀ h, w.highest = some h → h.toNat + 1 < 2 ^ 64 :=
  fun h hh => toNat_add_one_lt (hPassed h (hInv.highest_mem h hh))

theorem Inv.disjoint {w : NackWindow} (hInv : w.Inv passed reported) :
    Disjoint w.received w.missing :=
  Finset.disjoint_left.mpr fun _ hRec hMis =>
    hInv.missing_not_mem _ hMis (hInv.received_sub hRec)

/-- Every state of a run keeps the invariant for what the run passed and
reported; the induction is on the run, one call at a time. -/
theorem inv_stateAfter (ids : List UInt64) :
    ∀ (w : NackWindow) (passed reported : Finset UInt64), w.Inv passed reported →
      (∀ x ∈ passed, x ≠ 0xFFFFFFFFFFFFFFFF) → (∀ x ∈ ids, x ≠ 0xFFFFFFFFFFFFFFFF) →
      (w.stateAfter ids).Inv (passed ∪ ids.toFinset) (reported ∪ (w.run ids).flatten.toFinset) := by
  induction ids with
  | nil => intro w passed reported hInv _ _; simpa [stateAfter, run] using hInv
  | cons packetId ids ih =>
      intro w passed reported hInv hPassed hIds
      have hStep := onPacket_reports hInv (hInv.noWrap hPassed) packetId
      have hNext := ih _ _ _ hStep.inv
        (Finset.forall_mem_insert _ _ _ |>.mpr ⟨hIds packetId List.mem_cons_self, hPassed⟩)
        fun x hx => hIds x (List.mem_cons_of_mem _ hx)
      have hPassedEq : passed ∪ (packetId :: ids).toFinset = insert packetId passed ∪ ids.toFinset := by
        rw [List.toFinset_cons, Finset.union_insert, Finset.insert_union]
      have hReportedEq : reported ∪ (w.run (packetId :: ids)).flatten.toFinset =
          reported ∪ (w.onPacket packetId).2.toFinset ∪
            ((w.onPacket packetId).1.run ids).flatten.toFinset := by
        simp [run, List.toFinset_append, Finset.union_assoc]
      rw [stateAfter_cons, hPassedEq, hReportedEq]
      exact hNext

/-- No id is reported twice over a run, nor one reported before it. -/
theorem nodup_run (ids : List UInt64) :
    ∀ (w : NackWindow) (passed reported : Finset UInt64), w.Inv passed reported →
      (∀ x ∈ passed, x ≠ 0xFFFFFFFFFFFFFFFF) → (∀ x ∈ ids, x ≠ 0xFFFFFFFFFFFFFFFF) →
      (w.run ids).flatten.Nodup ∧ ∀ x ∈ (w.run ids).flatten, x ∉ reported := by
  induction ids with
  | nil => intro w passed reported _ _ _; simp [run]
  | cons packetId ids ih =>
      intro w passed reported hInv hPassed hIds
      have hStep := onPacket_reports hInv (hInv.noWrap hPassed) packetId
      obtain ⟨hRestNodup, hRestFresh⟩ := ih _ _ _ hStep.inv
        (Finset.forall_mem_insert _ _ _ |>.mpr ⟨hIds packetId List.mem_cons_self, hPassed⟩)
        fun x hx => hIds x (List.mem_cons_of_mem _ hx)
      have hLater : ∀ x ∈ ((w.onPacket packetId).1.run ids).flatten,
          x ∉ reported ∧ x ∉ (w.onPacket packetId).2 := fun x hx => by
        simpa [not_or] using hRestFresh x hx
      simp only [run, List.flatten_cons]
      refine ⟨List.nodup_append.mpr ⟨hStep.nodup, hRestNodup, ?_⟩, ?_⟩
      · intro a ha b hb hEq
        exact (hLater b hb).2 (hEq ▸ ha)
      · intro x hx
        rcases List.mem_append.mp hx with hNow | hRest
        · exact (hStep.fresh x hNow).2
        · exact (hLater x hRest).1

end Run

/-- Over every run from a fresh window in which `u64::MAX` was not passed
before, each call reports only ids never passed or reported earlier in the
run, distinct, and every id of a gap within the window below the new id. -/
theorem run_reports (window : UInt64) (pre : List UInt64)
    (hNoMax : ∀ x ∈ pre, x ≠ 0xFFFFFFFFFFFFFFFF) (packetId : UInt64) :
    Reports ((new window).stateAfter pre) pre.toFinset ((new window).run pre).flatten.toFinset
      packetId (((new window).stateAfter pre).onPacket packetId) := by
  have hInv := inv_stateAfter pre (new window) ∅ ∅ (inv_new window) (by simp) hNoMax
  rw [Finset.empty_union, Finset.empty_union] at hInv
  exact onPacket_reports hInv (hInv.noWrap fun x hx => hNoMax x (List.mem_toFinset.mp hx)) packetId

/-- After every call of such a run the received and missing ids are apart, and
all lie in `[highest - window, highest]`. -/
theorem run_sets (window : UInt64) (ids : List UInt64)
    (hNoMax : ∀ x ∈ ids, x ≠ 0xFFFFFFFFFFFFFFFF) :
    Disjoint ((new window).stateAfter ids).received ((new window).stateAfter ids).missing ∧
      ∀ h, ((new window).stateAfter ids).highest = some h →
        ∀ x ∈ ((new window).stateAfter ids).received ∪ ((new window).stateAfter ids).missing,
          saturatingSub h window ≤ x ∧ x ≤ h := by
  have hInv := inv_stateAfter ids (new window) ∅ ∅ (inv_new window) (by simp) hNoMax
  have hWindow : ((new window).stateAfter ids).window = window := window_stateAfter ids (new window)
  refine ⟨hInv.disjoint, fun h hh x hx => ?_⟩
  rw [← hWindow]
  exact hInv.range h hh x hx

/-- And no id is reported twice over the whole run. -/
theorem run_nodup (window : UInt64) (ids : List UInt64)
    (hNoMax : ∀ x ∈ ids, x ≠ 0xFFFFFFFFFFFFFFFF) : ((new window).run ids).flatten.Nodup :=
  (nodup_run ids (new window) ∅ ∅ (inv_new window) (by simp) hNoMax).1

end NackWindow

end Wavry.Client
