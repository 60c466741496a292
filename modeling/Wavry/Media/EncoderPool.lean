import Wavry.Lib.AssocMap
import Wavry.Lib.Saturating

/-! The reference-frame manager and the staging-buffer pool of the encoder
pool (wavry-media, encoder_pool.rs).

The manager keeps the frames the encoder may still reference and drops the
oldest past a limit. Its pruning loop is a `while` whose guard the body cannot
falsify when the limit is 0, so it is modelled on explicit fuel: `none` means
the rounds ran out.

The pool tracks staging buffers by id and reclaims those unused for more than a
timeout. Its abstract model is a ledger of the registrations not yet reclaimed;
the pool refines it exactly as long as every registration gets a fresh id. -/

namespace Wavry.Media

open Saturating

/-! ## Reference frames -/

/-- `ReferenceFrame`. -/
structure ReferenceFrame where
  frameId : UInt64
  isKeyframe : Bool
  sizeMb : UInt32
  deriving DecidableEq, Repr

/-- `ReferenceFrameManager`. -/
structure ReferenceFrameManager where
  references : List ReferenceFrame
  maxReferences : Nat
  deriving DecidableEq, Repr

namespace ReferenceFrameManager

/-- `ReferenceFrameManager::new`. -/
def new (maxReferences : Nat) : ReferenceFrameManager := ⟨[], maxReferences⟩

/-- The loop of `update` that removes the oldest references,
`while len >= max_references { if !is_empty { remove(0) } }`, run for at most
`fuel` rounds. -/
def pruneOldest (maxReferences : Nat) : Nat → List ReferenceFrame → Option (List ReferenceFrame)
  | 0, _ => none
  | fuel + 1, references =>
      if references.length ≥ maxReferences then
        pruneOldest maxReferences fuel
          (if !references.isEmpty then references.eraseIdx 0 else references)
      else some references

/-- `ReferenceFrameManager::update`, with `fuel` rounds for its pruning loop.
A new keyframe first releases the references that are not keyframes. -/
def update (fuel : Nat) (m : ReferenceFrameManager) (newFrameId : UInt64) (isKeyframe : Bool)
    (sizeMb : UInt32) : Option ReferenceFrameManager := do
  let retained := if isKeyframe then m.references.filter (·.isKeyframe) else m.references
  let references ← pruneOldest m.maxReferences fuel retained
  pure { m with references := references ++ [⟨newFrameId, isKeyframe, sizeMb⟩] }

/-- `total_memory_mb`, summed as a release build does. -/
def totalMemoryMb (m : ReferenceFrameManager) : UInt32 := (m.references.map (·.sizeMb)).sum

/-- `reference_count`. -/
def referenceCount (m : ReferenceFrameManager) : Nat := m.references.length

/-! ### The pruning loop -/

/-- With a limit of 0 the guard `len >= 0` always holds: no number of rounds
ends the loop. -/
theorem pruneOldest_zero (fuel : Nat) (references : List ReferenceFrame) :
    pruneOldest 0 fuel references = none := by
  induction fuel generalizing references with
  | zero => rfl
  | succ fuel ih => simp only [pruneOldest, Nat.zero_le, if_true, ih]

/-- Every run of the loop that ends has a positive limit and keeps the newest
`max_references - 1` references. -/
theorem pruneOldest_eq_some {maxReferences fuel : Nat} {references out : List ReferenceFrame}
    (h : pruneOldest maxReferences fuel references = some out) :
    0 < maxReferences ∧ out = references.drop (references.length + 1 - maxReferences) := by
  induction fuel generalizing references with
  | zero => cases h
  | succ fuel ih =>
      simp only [pruneOldest] at h
      split at h
      · rename_i hFull
        cases references with
        | nil =>
            have hZero : maxReferences = 0 := by simpa using hFull
            subst hZero
            rw [pruneOldest_zero] at h
            cases h
        | cons oldest rest =>
            obtain ⟨hPos, rfl⟩ := ih (by simpa using h)
            refine ⟨hPos, ?_⟩
            simp only [List.length_cons] at hFull ⊢
            rw [show rest.length + 1 + 1 - maxReferences = rest.length + 1 - maxReferences + 1 by
              omega, List.drop_succ_cons]
      · rename_i hRoom
        cases h
        exact ⟨by omega, by rw [Nat.sub_eq_zero_of_le (by omega), List.drop_zero]⟩

/-- One round more than there are references is always enough under a positive
limit. -/
theorem pruneOldest_isSome {maxReferences fuel : Nat} {references : List ReferenceFrame}
    (hPos : 0 < maxReferences) (hFuel : references.length < fuel) :
    (pruneOldest maxReferences fuel references).isSome := by
  induction fuel generalizing references with
  | zero => omega
  | succ fuel ih =>
      simp only [pruneOldest]
      split
      · cases references with
        | nil =>
            rename_i hFull
            simp only [List.length_nil, ge_iff_le, Nat.le_zero] at hFull
            omega
        | cons oldest rest =>
            exact ih (by simp only [List.length_cons] at hFuel; simpa using hFuel)
      · rfl

/-! ### Update -/

/-- What one `update` that ends does: a positive limit, and the references left
by the keyframe rule, cut to their newest `max_references - 1`, then the new
frame. -/
theorem update_eq_some {fuel : Nat} {m m' : ReferenceFrameManager} {newFrameId : UInt64}
    {isKeyframe : Bool} {sizeMb : UInt32}
    (h : update fuel m newFrameId isKeyframe sizeMb = some m') :
    0 < m.maxReferences ∧ m'.maxReferences = m.maxReferences ∧
      ∃ retained : List ReferenceFrame, retained.Sublist m.references ∧
        (isKeyframe = true → ∀ r ∈ retained, r.isKeyframe = true) ∧
        m'.references = retained.drop (retained.length + 1 - m.maxReferences) ++
          [⟨newFrameId, isKeyframe, sizeMb⟩] := by
  let retained := if isKeyframe then m.references.filter (·.isKeyframe) else m.references
  have hSub : retained.Sublist m.references := by
    by_cases hKey : isKeyframe <;> simp [retained, hKey]
  have hKeys : isKeyframe = true → ∀ r ∈ retained, r.isKeyframe = true := by
    rintro hKey r hMem
    simp only [retained, hKey, if_true, List.mem_filter] at hMem
    exact hMem.2
  cases hLoop : pruneOldest m.maxReferences fuel retained with
  | none => simp [update, retained, hLoop] at h
  | some out =>
      simp only [retained] at hLoop
      simp only [update, hLoop, Option.bind_eq_bind, Option.bind_some, Option.pure_def,
        Option.some.injEq] at h
      subst h
      obtain ⟨hPos, hOut⟩ := pruneOldest_eq_some hLoop
      exact ⟨hPos, rfl, retained, hSub, hKeys, by rw [hOut]⟩

theorem update_eq_none_of_maxReferences_eq_zero {m : ReferenceFrameManager}
    (h : m.maxReferences = 0) (fuel : Nat) (newFrameId : UInt64) (isKeyframe : Bool)
    (sizeMb : UInt32) : update fuel m newFrameId isKeyframe sizeMb = none := by
  simp [update, h, pruneOldest_zero]

theorem update_isSome {m : ReferenceFrameManager} (hPos : 0 < m.maxReferences) {fuel : Nat}
    (hFuel : m.references.length < fuel) (newFrameId : UInt64) (isKeyframe : Bool)
    (sizeMb : UInt32) : (update fuel m newFrameId isKeyframe sizeMb).isSome := by
  have hLength : (if isKeyframe then m.references.filter (·.isKeyframe) else m.references).length
      < fuel := by
    split
    · exact lt_of_le_of_lt (List.length_filter_le _ _) hFuel
    · exact hFuel
  obtain ⟨out, hOut⟩ := Option.isSome_iff_exists.mp (pruneOldest_isSome hPos hLength)
  simp [update, hOut]

/-- After an `update` that ends, the list holds at most `max_references`
frames and ends with the new one, keeps the insertion order, and holds only
keyframes after a keyframe. -/
theorem references_update {fuel : Nat} {m m' : ReferenceFrameManager} {newFrameId : UInt64}
    {isKeyframe : Bool} {sizeMb : UInt32}
    (h : update fuel m newFrameId isKeyframe sizeMb = some m') :
    m'.references.length ≤ m.maxReferences ∧
      m'.references.getLast? = some ⟨newFrameId, isKeyframe, sizeMb⟩ ∧
      m'.references.Sublist (m.references ++ [⟨newFrameId, isKeyframe, sizeMb⟩]) ∧
      (isKeyframe = true → ∀ r ∈ m'.references, r.isKeyframe = true) := by
  obtain ⟨hPos, -, retained, hSub, hKeys, hRefs⟩ := update_eq_some h
  rw [hRefs]
  refine ⟨?_, List.getLast?_concat, ((List.drop_sublist _ _).trans hSub).append_right _, ?_⟩
  · simp only [List.length_append, List.length_drop, List.length_singleton]
    omega
  · rintro hKey r hMem
    rcases List.mem_append.mp hMem with hOld | hNew
    · exact hKeys hKey r (List.mem_of_mem_drop hOld)
    · rw [List.mem_singleton.mp hNew]
      exact hKey

theorem referenceFrameManager_update_spec (m : ReferenceFrameManager) (newFrameId : UInt64)
    (isKeyframe : Bool) (sizeMb : UInt32) :
    (m.maxReferences = 0 → ∀ fuel, update fuel m newFrameId isKeyframe sizeMb = none) ∧
    (0 < m.maxReferences → ∀ fuel, m.references.length < fuel →
      (update fuel m newFrameId isKeyframe sizeMb).isSome) ∧
    ∀ fuel m', update fuel m newFrameId isKeyframe sizeMb = some m' →
      m'.references.length ≤ max m.maxReferences 1 ∧
      m'.references.getLast? = some ⟨newFrameId, isKeyframe, sizeMb⟩ ∧
      m'.references.Sublist (m.references ++ [⟨newFrameId, isKeyframe, sizeMb⟩]) ∧
      (isKeyframe = true → ∀ r ∈ m'.references.dropLast, r.isKeyframe = true) := by
  refine ⟨fun h fuel => update_eq_none_of_maxReferences_eq_zero h fuel _ _ _,
    fun hPos fuel hFuel => update_isSome hPos hFuel _ _ _, fun fuel m' h => ?_⟩
  obtain ⟨hLength, hLast, hSub, hKeys⟩ := references_update h
  refine ⟨le_max_of_le_left hLength, hLast, hSub, fun hKey r hMem => ?_⟩
  exact hKeys hKey r (List.mem_of_mem_dropLast hMem)

theorem referenceFrameManager_update_spec_new :
    (∀ fuel, update fuel (new 0) 7 true 5 = none) ∧ (update 1 (new 1) 7 true 5).isSome ∧
      ([⟨7, true, 5⟩] : List ReferenceFrame).length ≤ max 1 1 ∧
      ([⟨7, true, 5⟩] : List ReferenceFrame).getLast? = some ⟨7, true, 5⟩ := by
  have hSpent := (referenceFrameManager_update_spec (new 0) 7 true 5).1 rfl
  have hEnds := (referenceFrameManager_update_spec (new 1) 7 true 5).2.1 (by decide) 1 (by decide)
  have hResult := (referenceFrameManager_update_spec (new 1) 7 true 5).2.2 1 ⟨[⟨7, true, 5⟩], 1⟩
    (by decide)
  exact ⟨hSpent, hEnds, hResult.1, hResult.2.1⟩

/-! ### Sequences of updates -/

/-- A sequence of `update` calls, each given one round more than there are
references, which `update_isSome` shows is enough under a positive limit. -/
def run : ReferenceFrameManager → List ReferenceFrame → Option ReferenceFrameManager
  | m, [] => some m
  | m, frame :: frames =>
      (update (m.references.length + 1) m frame.frameId frame.isKeyframe frame.sizeMb).bind
        (run · frames)

/-- With a limit of 0 the first call of any sequence never returns. -/
theorem run_cons_of_maxReferences_eq_zero {m : ReferenceFrameManager} (h : m.maxReferences = 0)
    (frame : ReferenceFrame) (frames : List ReferenceFrame) : run m (frame :: frames) = none := by
  simp [run, update_eq_none_of_maxReferences_eq_zero h]

/-- Under a positive limit every sequence of calls returns, and leaves the
frames it kept in insertion order, at most `max_references` of them, the last
one added last. -/
theorem run_spec {m : ReferenceFrameManager} (hPos : 0 < m.maxReferences)
    (frames : List ReferenceFrame) :
    ∃ m', run m frames = some m' ∧ m'.maxReferences = m.maxReferences ∧
      m'.references.Sublist (m.references ++ frames) ∧
      (frames ≠ [] → m'.references.length ≤ m.maxReferences ∧
        m'.references.getLast? = frames.getLast?) := by
  induction frames generalizing m with
  | nil => exact ⟨m, rfl, rfl, by simp, fun h => absurd rfl h⟩
  | cons frame frames ih =>
      obtain ⟨next, hNext⟩ := Option.isSome_iff_exists.mp
        (update_isSome hPos (Nat.lt_succ_self _) frame.frameId frame.isKeyframe frame.sizeMb)
      obtain ⟨-, hMax, -⟩ := update_eq_some hNext
      obtain ⟨hLength, hLast, hSub, -⟩ := references_update hNext
      obtain ⟨final, hRun, hFinalMax, hFinalSub, hFinalLast⟩ := ih (hMax ▸ hPos)
      refine ⟨final, by simp [run, hNext, hRun], hFinalMax.trans hMax, ?_, fun _ => ?_⟩
      · have := hFinalSub.trans (hSub.append_right frames)
        simpa using this
      · cases frames with
        | nil =>
            simp only [run, Option.some.injEq] at hRun
            subst hRun
            exact ⟨hLength, by simpa using hLast⟩
        | cons second rest =>
            obtain ⟨hFinalLength, hFinalLast⟩ := hFinalLast (List.cons_ne_nil _ _)
            exact ⟨hMax ▸ hFinalLength, by rw [hFinalLast, List.getLast?_cons_cons]⟩

end ReferenceFrameManager

/-! ## Staging buffers -/

/-- `StagingBuffer`. -/
structure StagingBuffer where
  id : UInt64
  sizeBytes : UInt32
  lastUsedFrameId : UInt64
  deriving DecidableEq, Repr

/-- `StagingBufferPool`: the hash map as its entries, keyed by buffer id. -/
structure StagingBufferPool where
  buffers : AssocMap UInt64 StagingBuffer
  maxTotalBytes : UInt32
  reclaimTimeoutFrames : UInt64
  currentFrameId : UInt64

/-- `MemoryPressure`. -/
inductive MemoryPressure where
  | critical
  | high
  | medium
  | low
  deriving DecidableEq, Repr

/-- The filter of `advance_frame`: a buffer is reclaimed once more than
`timeout` frames have passed since its last use. -/
def dueForReclaim (timeout current : UInt64) (buf : StagingBuffer) : Bool :=
  saturatingSub current buf.lastUsedFrameId > timeout

namespace StagingBufferPool

/-- `StagingBufferPool::new`. -/
def new (maxTotalBytes : UInt32) (reclaimTimeoutFrames : UInt64) : StagingBufferPool :=
  ⟨AssocMap.empty, maxTotalBytes, reclaimTimeoutFrames, 0⟩

/-- `register`: the id is the number of buffers tracked, and `insert` replaces
whatever that id held. -/
def register (p : StagingBufferPool) (sizeBytes : UInt32) : StagingBufferPool × UInt64 :=
  let id := UInt64.ofNat p.buffers.size
  ({ p with buffers := p.buffers.insert id ⟨id, sizeBytes, p.currentFrameId⟩ }, id)

/-- `use_buffer`. -/
def useBuffer (p : StagingBufferPool) (id : UInt64) : StagingBufferPool :=
  { p with buffers := p.buffers.update id fun buf => { buf with lastUsedFrameId := p.currentFrameId } }

/-- `advance_frame`: the frame counter wraps as in a release build; the ids due
for reclaim are collected first and then removed one by one. -/
def advanceFrame (p : StagingBufferPool) : StagingBufferPool :=
  let current := p.currentFrameId + 1
  let toRemove := (p.buffers.entries.filter fun entry =>
    dueForReclaim p.reclaimTimeoutFrames current entry.2).map Prod.fst
  { p with currentFrameId := current, buffers := toRemove.foldl AssocMap.erase p.buffers }

/-- `total_memory_bytes`, summed as a release build does. -/
def totalMemoryBytes (p : StagingBufferPool) : UInt32 :=
  (p.buffers.entries.map fun entry => entry.2.sizeBytes).sum

/-- `memory_pressure`, with the release build's wrapping `max_total_bytes * 3`. -/
def memoryPressure (p : StagingBufferPool) : MemoryPressure :=
  let used := p.totalMemoryBytes
  if used > p.maxTotalBytes then .critical
  else if used > p.maxTotalBytes * 3 / 4 then .high
  else if used > p.maxTotalBytes / 2 then .medium
  else .low

@[simp] theorem buffers_register (p : StagingBufferPool) (sizeBytes : UInt32) :
    (p.register sizeBytes).1.buffers = p.buffers.insert (UInt64.ofNat p.buffers.size)
      ⟨UInt64.ofNat p.buffers.size, sizeBytes, p.currentFrameId⟩ := rfl

@[simp] theorem id_register (p : StagingBufferPool) (sizeBytes : UInt32) :
    (p.register sizeBytes).2 = UInt64.ofNat p.buffers.size := rfl

@[simp] theorem currentFrameId_register (p : StagingBufferPool) (sizeBytes : UInt32) :
    (p.register sizeBytes).1.currentFrameId = p.currentFrameId := rfl

@[simp] theorem reclaimTimeoutFrames_register (p : StagingBufferPool) (sizeBytes : UInt32) :
    (p.register sizeBytes).1.reclaimTimeoutFrames = p.reclaimTimeoutFrames := rfl

/-- Collecting the ids and removing them is a `retain` of the buffers not due. -/
theorem entries_advanceFrame (p : StagingBufferPool) :
    p.advanceFrame.buffers.entries = p.buffers.entries.filter fun entry =>
      !dueForReclaim p.reclaimTimeoutFrames (p.currentFrameId + 1) entry.2 :=
  AssocMap.entries_foldl_erase_filter p.buffers _

end StagingBufferPool

/-! ### The ledger of registrations

What the pool is for: every registration stays counted, under the id it was
given, until more than the timeout has passed since its last use. -/

/-- The buffers registered and not yet reclaimed, in registration order. -/
structure Ledger where
  live : List StagingBuffer
  reclaimTimeoutFrames : UInt64
  currentFrameId : UInt64

namespace Ledger

def new (reclaimTimeoutFrames : UInt64) : Ledger := ⟨[], reclaimTimeoutFrames, 0⟩

/-- A registration under `id` adds a buffer; none is replaced. -/
def register (L : Ledger) (id : UInt64) (sizeBytes : UInt32) : Ledger :=
  { L with live := L.live ++ [⟨id, sizeBytes, L.currentFrameId⟩] }

def useBuffer (L : Ledger) (id : UInt64) : Ledger :=
  { L with live := L.live.map fun buf =>
      if buf.id = id then { buf with lastUsedFrameId := L.currentFrameId } else buf }

def advanceFrame (L : Ledger) : Ledger :=
  let current := L.currentFrameId + 1
  { L with currentFrameId := current,
           live := L.live.filter fun buf => !dueForReclaim L.reclaimTimeoutFrames current buf }

/-- The exact sum of the sizes of the buffers registered and not yet reclaimed. -/
def totalBytes (L : Ledger) : Nat := (L.live.map fun buf => buf.sizeBytes.toNat).sum

end Ledger

/-- A buffer as the pool's map stores it. -/
def StagingBuffer.entry (buf : StagingBuffer) : UInt64 × StagingBuffer := (buf.id, buf)

/-- The pool holds exactly the ledger's buffers, each under its own id, and
counts frames with the same timeout. -/
structure Refines (p : StagingBufferPool) (L : Ledger) : Prop where
  perm : p.buffers.entries.Perm (L.live.map StagingBuffer.entry)
  reclaimTimeoutFrames_eq : p.reclaimTimeoutFrames = L.reclaimTimeoutFrames
  currentFrameId_eq : p.currentFrameId = L.currentFrameId

namespace Refines

variable {p : StagingBufferPool} {L : Ledger}

theorem new (maxTotalBytes : UInt32) (reclaimTimeoutFrames : UInt64) :
    Refines (StagingBufferPool.new maxTotalBytes reclaimTimeoutFrames)
      (Ledger.new reclaimTimeoutFrames) :=
  ⟨List.Perm.refl _, rfl, rfl⟩

theorem map_fst (hR : Refines p L) :
    (p.buffers.entries.map Prod.fst).Perm (L.live.map StagingBuffer.id) := by
  simpa [List.map_map, Function.comp_def, StagingBuffer.entry] using hR.perm.map Prod.fst

/-- The ledger's ids are distinct, because the map's keys are. -/
theorem nodup_ids (hR : Refines p L) : (L.live.map StagingBuffer.id).Nodup :=
  hR.map_fst.nodup_iff.mp p.buffers.nodup

theorem mem_keys_iff (hR : Refines p L) (id : UInt64) :
    id ∈ p.buffers.keys ↔ id ∈ L.live.map StagingBuffer.id :=
  hR.map_fst.mem_iff

/-- Every stored buffer carries the id it is stored under. -/
theorem fst_eq_id (hR : Refines p L) {entry : UInt64 × StagingBuffer}
    (h : entry ∈ p.buffers.entries) : entry.1 = entry.2.id := by
  obtain ⟨buf, -, rfl⟩ := List.mem_map.mp (hR.perm.subset h)
  rfl

/-- A registration refines the ledger's exactly when its id is fresh: an id
already tracked is stored over, and the ledger then holds it twice. -/
theorem register_iff (hR : Refines p L) (sizeBytes : UInt32) :
    Refines (p.register sizeBytes).1 (L.register (p.register sizeBytes).2 sizeBytes) ↔
      (p.register sizeBytes).2 ∉ p.buffers.keys := by
  simp only [StagingBufferPool.id_register]
  set id := UInt64.ofNat p.buffers.size
  constructor
  · rintro hNext hTracked
    have hTwice := hNext.nodup_ids
    simp only [Ledger.register, List.map_append, List.map_singleton, List.nodup_append] at hTwice
    exact hTwice.2.2 id ((hR.mem_keys_iff id).mp hTracked) id (List.mem_singleton_self _) rfl
  · rintro hFresh
    have hNone : p.buffers.get id = none := by
      simpa [AssocMap.mem_keys_iff] using hFresh
    refine ⟨?_, hR.reclaimTimeoutFrames_eq, hR.currentFrameId_eq⟩
    rw [StagingBufferPool.buffers_register, AssocMap.entries_insert_of_get_eq_none _ _ hNone]
    simp only [Ledger.register, List.map_append, List.map_singleton, hR.currentFrameId_eq]
    exact (hR.perm.cons _).trans (List.perm_append_singleton _ _).symm

theorem useBuffer (hR : Refines p L) (id : UInt64) :
    Refines (p.useBuffer id) (L.useBuffer id) := by
  refine ⟨?_, hR.reclaimTimeoutFrames_eq, hR.currentFrameId_eq⟩
  let touch : UInt64 × StagingBuffer → UInt64 × StagingBuffer := fun entry =>
    (entry.1, if entry.1 = id then { entry.2 with lastUsedFrameId := L.currentFrameId } else entry.2)
  have hCommute : (L.useBuffer id).live.map StagingBuffer.entry =
      (L.live.map StagingBuffer.entry).map touch := by
    simp only [Ledger.useBuffer, List.map_map]
    refine List.map_congr_left fun buf _ => ?_
    by_cases hId : buf.id = id <;> simp [touch, StagingBuffer.entry, hId]
  show (p.buffers.entries.map fun entry => (entry.1, if entry.1 = id then
    { entry.2 with lastUsedFrameId := p.currentFrameId } else entry.2)).Perm _
  rw [hCommute, hR.currentFrameId_eq]
  exact hR.perm.map touch

theorem advanceFrame (hR : Refines p L) : Refines p.advanceFrame L.advanceFrame := by
  refine ⟨?_, hR.reclaimTimeoutFrames_eq, congrArg (· + 1) hR.currentFrameId_eq⟩
  rw [StagingBufferPool.entries_advanceFrame, hR.reclaimTimeoutFrames_eq, hR.currentFrameId_eq]
  simpa [Ledger.advanceFrame, List.filter_map, Function.comp_def, StagingBuffer.entry] using
    hR.perm.filter (fun entry => !dueForReclaim L.reclaimTimeoutFrames (L.currentFrameId + 1) entry.2)

/-- The pool's count is the ledger's exact sum, modulo 2^32. -/
theorem totalMemoryBytes (hR : Refines p L) :
    p.totalMemoryBytes.toNat = L.totalBytes % 2 ^ 32 := by
  rw [StagingBufferPool.totalMemoryBytes, toNat_sum32, List.map_map, Ledger.totalBytes]
  congr 1
  simpa [List.map_map, Function.comp_def, StagingBuffer.entry] using
    (hR.perm.map fun entry => entry.2.sizeBytes.toNat).sum_eq

end Refines

theorem stagingBufferPool_refines_iff {p : StagingBufferPool} {L : Ledger} (hR : Refines p L) :
    (∀ sizeBytes, Refines (p.register sizeBytes).1 (L.register (p.register sizeBytes).2 sizeBytes) ↔
      (p.register sizeBytes).2 ∉ p.buffers.keys) ∧
    (∀ id, Refines (p.useBuffer id) (L.useBuffer id)) ∧
    Refines p.advanceFrame L.advanceFrame ∧
    p.totalMemoryBytes.toNat = L.totalBytes % 2 ^ 32 :=
  ⟨hR.register_iff, hR.useBuffer, hR.advanceFrame, hR.totalMemoryBytes⟩

/-! ### Sequences of calls -/

/-- The calls a client makes on the pool. -/
inductive PoolCall where
  | register (sizeBytes : UInt32)
  | useBuffer (id : UInt64)
  | advanceFrame
  deriving DecidableEq, Repr

/-- One call on the pool and on the ledger; a registration enters the ledger
under the id the pool returned. -/
def stepBoth (state : StagingBufferPool × Ledger) : PoolCall → StagingBufferPool × Ledger
  | .register sizeBytes =>
      ((state.1.register sizeBytes).1, state.2.register (state.1.register sizeBytes).2 sizeBytes)
  | .useBuffer id => (state.1.useBuffer id, state.2.useBuffer id)
  | .advanceFrame => (state.1.advanceFrame, state.2.advanceFrame)

def runBoth (state : StagingBufferPool × Ledger) (calls : List PoolCall) :
    StagingBufferPool × Ledger :=
  calls.foldl stepBoth state

/-- Whether a call, made on `p`, is a registration under an id already tracked. -/
def reusesId (p : StagingBufferPool) : PoolCall → Bool
  | .register sizeBytes => decide ((p.register sizeBytes).2 ∈ p.buffers.keys)
  | _ => false

/-- Whether no registration of a sequence reuses a tracked id. -/
def freshRegisters (state : StagingBufferPool × Ledger) : List PoolCall → Bool
  | [] => true
  | call :: calls => !reusesId state.1 call && freshRegisters (stepBoth state call) calls

theorem Refines.stepBoth {state : StagingBufferPool × Ledger} (hR : Refines state.1 state.2)
    {call : PoolCall} (hFresh : reusesId state.1 call = false) :
    Refines (Wavry.Media.stepBoth state call).1 (Wavry.Media.stepBoth state call).2 := by
  cases call with
  | register sizeBytes =>
      exact (hR.register_iff sizeBytes).mpr (of_decide_eq_false (by simpa [reusesId] using hFresh))
  | useBuffer id => exact hR.useBuffer id
  | advanceFrame => exact hR.advanceFrame

/-- Along any sequence whose registrations all get fresh ids, the pool keeps
refining the ledger, so its count is the exact sum of the live registrations
modulo 2^32. -/
theorem Refines.runBoth {state : StagingBufferPool × Ledger} (hR : Refines state.1 state.2)
    {calls : List PoolCall} (hFresh : freshRegisters state calls = true) :
    Refines (Wavry.Media.runBoth state calls).1 (Wavry.Media.runBoth state calls).2 := by
  induction calls generalizing state with
  | nil => exact hR
  | cons call calls ih =>
      simp only [freshRegisters, Bool.and_eq_true, Bool.not_eq_eq_eq_not, Bool.not_true]
        at hFresh
      exact ih (hR.stepBoth hFresh.1) hFresh.2

/-- Timeout 1: buffer 0 is reclaimed at frame 2 while buffer 1 is live, so the
third registration gets id 1 again and replaces buffer 1. -/
theorem stagingBufferPool_refines_iff_reuse :
    (runBoth (StagingBufferPool.new 1000 1, Ledger.new 1)
        [.register 100, .advanceFrame, .register 200, .advanceFrame]).1.buffers.keys = [1] ∧
      ¬ Refines (runBoth (StagingBufferPool.new 1000 1, Ledger.new 1)
          [.register 100, .advanceFrame, .register 200, .advanceFrame, .register 300]).1
        (runBoth (StagingBufferPool.new 1000 1, Ledger.new 1)
          [.register 100, .advanceFrame, .register 200, .advanceFrame, .register 300]).2 ∧
      StagingBufferPool.totalMemoryBytes (runBoth (StagingBufferPool.new 1000 1, Ledger.new 1)
          [.register 100, .advanceFrame, .register 200, .advanceFrame, .register 300]).1 = 300 ∧
      Ledger.totalBytes (runBoth (StagingBufferPool.new 1000 1, Ledger.new 1)
          [.register 100, .advanceFrame, .register 200, .advanceFrame, .register 300]).2 = 500 := by
  have hR : Refines (runBoth (StagingBufferPool.new 1000 1, Ledger.new 1)
        [.register 100, .advanceFrame, .register 200, .advanceFrame]).1
      (runBoth (StagingBufferPool.new 1000 1, Ledger.new 1)
        [.register 100, .advanceFrame, .register 200, .advanceFrame]).2 :=
    (Refines.new 1000 1).runBoth (by decide)
  have hReuse := ((stagingBufferPool_refines_iff hR).1 300).not
  refine ⟨by decide, fun hNext => ?_, by decide, by decide⟩
  exact absurd (hReuse.mpr (by decide)) (not_not.mpr hNext)

end Wavry.Media
