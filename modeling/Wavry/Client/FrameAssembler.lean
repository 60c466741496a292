import Mathlib
import Wavry.Lib.AssocMap
import Wavry.Lib.Saturating
import Wavry.RiftCore.Video

/-! Reassembly of video frames on the client (`wavry-client` media). Chunks
are kept by frame id until every index of the frame has arrived; the frame is
then handed out, its chunks joined in index order, and its entry removed.
Entries older than the timeout are dropped at every push. Nothing remembers a
delivered frame, so chunks of it that arrive later start a new entry. -/
namespace Wavry.Client

open Wavry.RiftCore Saturating

/-- `FRAME_TIMEOUT_US`. -/
def frameTimeoutUs : UInt64 := 50000

structure FrameBuffer where
  firstSeenUs : UInt64
  timestampUs : UInt64
  keyframe : Bool
  chunkCount : UInt32
  chunks : List (Option (List UInt8))
  captureDurationUs : UInt32
  encodeDurationUs : UInt32

structure AssembledFrame where
  frameId : UInt64
  timestampUs : UInt64
  keyframe : Bool
  data : List UInt8
  captureDurationUs : UInt32
  encodeDurationUs : UInt32
  deriving DecidableEq, Repr

structure FrameAssembler where
  timeoutUs : UInt64
  frames : AssocMap UInt64 FrameBuffer

namespace FrameBuffer

/-- The entry `or_insert_with` makes for the first chunk of a frame. -/
def ofChunk (now : UInt64) (chunk : VideoChunk) : FrameBuffer :=
  { firstSeenUs := now
    timestampUs := chunk.timestampUs
    keyframe := chunk.keyframe
    chunkCount := chunk.chunkCount
    chunks := List.replicate chunk.chunkCount.toNat none
    captureDurationUs := chunk.captureUs
    encodeDurationUs := chunk.encodeUs }

/-- Store a chunk's payload at its index; an index out of range is ignored. -/
def place (entry : FrameBuffer) (chunk : VideoChunk) : FrameBuffer :=
  if chunk.chunkIndex < entry.chunkCount then
    { entry with chunks := entry.chunks.set chunk.chunkIndex.toNat (some chunk.payload) }
  else entry

end FrameBuffer

namespace FrameAssembler

def new (timeoutUs : UInt64) : FrameAssembler := ⟨timeoutUs, AssocMap.empty⟩

/-- `FrameAssembler::push` at time `now`. -/
def push (a : FrameAssembler) (now : UInt64) (chunk : VideoChunk) :
    FrameAssembler × Option AssembledFrame :=
  let frames := a.frames.retain fun _ frame => saturatingSub now frame.firstSeenUs < a.timeoutUs
  let entry := ((frames.get chunk.frameId).getD (FrameBuffer.ofChunk now chunk)).place chunk
  if entry.chunks.all Option.isSome then
    ({ a with frames := frames.erase chunk.frameId },
      some { frameId := chunk.frameId
             timestampUs := entry.timestampUs
             keyframe := entry.keyframe
             data := (entry.chunks.filterMap id).flatten
             captureDurationUs := entry.captureDurationUs
             encodeDurationUs := entry.encodeDurationUs })
  else ({ a with frames := frames.insert chunk.frameId entry }, none)

/-- A run of pushes, each at its time, with every result. -/
def pushAll (a : FrameAssembler) : List (UInt64 × VideoChunk) → FrameAssembler × List (Option AssembledFrame)
  | [] => (a, [])
  | (now, chunk) :: rest =>
      let (a', out) := a.push now chunk
      let (a'', outs) := a'.pushAll rest
      (a'', out :: outs)

end FrameAssembler

/-! ## The delivery rule of one frame -/

/-- The rule the assembler follows for one frame of `count` chunks: collect
the indices pushed since the last delivery, and deliver when they cover
every index. -/
def coverStep (count : Nat) (seen : Finset ℕ) (index : Nat) : Finset ℕ × Bool :=
  if ∀ j < count, j ∈ insert index seen then (∅, true) else (insert index seen, false)

/-- The rule over a run of pushes: deliveries of frame `frameId` only. -/
def coverRun (frameId : UInt64) (count : Nat) : Finset ℕ → List VideoChunk → List Bool
  | _, [] => []
  | seen, chunk :: rest =>
      if chunk.frameId = frameId then
        (coverStep count seen chunk.chunkIndex.toNat).2 ::
          coverRun frameId count (coverStep count seen chunk.chunkIndex.toNat).1 rest
      else false :: coverRun frameId count seen rest

namespace FrameAssembler

@[simp] theorem timeoutUs_push (a : FrameAssembler) (now : UInt64) (chunk : VideoChunk) :
    (a.push now chunk).1.timeoutUs = a.timeoutUs := by
  unfold push
  dsimp only
  split_ifs <;> rfl

/-- A push only hands out the frame of the chunk pushed. -/
theorem frameId_push {a : FrameAssembler} {now : UInt64} {chunk : VideoChunk}
    {frame : AssembledFrame} (h : (a.push now chunk).2 = some frame) :
    frame.frameId = chunk.frameId := by
  unfold push at h
  dsimp only at h
  split_ifs at h
  · cases h
    rfl

/-- A push touches no entry but its own frame's and those that timed out. -/
theorem get_push_of_ne (a : FrameAssembler) (now : UInt64) (chunk : VideoChunk) {frameId : UInt64}
    (hNe : frameId ≠ chunk.frameId) :
    (a.push now chunk).1.frames.get frameId =
      (a.frames.get frameId).filter fun frame => saturatingSub now frame.firstSeenUs < a.timeoutUs := by
  unfold push
  dsimp only
  split_ifs <;> simp [hNe]

end FrameAssembler

/-- The entry of a frame with chunks `cs` once the indices `seen` have
arrived, first seen at `firstSeen`. -/
def entryFor (cs : List VideoChunk) (timestampUs : UInt64) (keyframe : Bool)
    (captureUs encodeUs : UInt32) (firstSeen : UInt64) (seen : Finset ℕ) : FrameBuffer :=
  { firstSeenUs := firstSeen
    timestampUs := timestampUs
    keyframe := keyframe
    chunkCount := UInt32.ofNat cs.length
    chunks := cs.mapIdx fun i c => if i ∈ seen then some c.payload else none
    captureDurationUs := captureUs
    encodeDurationUs := encodeUs }

/-- Where the assembler stands on frame `frameId` with chunks `cs`: no entry
while no index is pending, and otherwise the entry of the pending indices,
first seen at a time inside the window. -/
def Tracks (cs : List VideoChunk) (frameId timestampUs : UInt64) (keyframe : Bool)
    (captureUs encodeUs : UInt32) (inWindow : UInt64 → Prop) (a : FrameAssembler)
    (seen : Finset ℕ) : Prop :=
  (seen = ∅ ∧ a.frames.get frameId = none) ∨
    (seen ≠ ∅ ∧ ∃ t, inWindow t ∧
      a.frames.get frameId = some (entryFor cs timestampUs keyframe captureUs encodeUs t seen))

section Frame

variable {frameId timestampUs : UInt64} {keyframe : Bool} {payload : List UInt8}
  {captureUs encodeUs : UInt32} {cs : List VideoChunk}

theorem all_isSome_entryFor (firstSeen : UInt64) (seen : Finset ℕ) :
    (entryFor cs timestampUs keyframe captureUs encodeUs firstSeen seen).chunks.all Option.isSome ↔
      ∀ j < cs.length, j ∈ seen := by
  simp only [entryFor, List.all_eq_true, List.mem_iff_getElem, List.length_mapIdx]
  constructor
  · intro h j hj
    have := h _ ⟨j, hj, rfl⟩
    by_contra hNot
    simp [hNot] at this
  · rintro h x ⟨i, hi, rfl⟩
    simp [h i hi]

variable (hcs : FrameChunks frameId timestampUs keyframe payload captureUs encodeUs cs)
include hcs

theorem chunkCount_eq_ofNat {c : VideoChunk} (hc : c ∈ cs) :
    c.chunkCount = UInt32.ofNat cs.length := by
  apply UInt32.toNat_inj.mp
  rw [hcs.chunkCount c hc, UInt32.toNat_ofNat_of_lt' (by simpa [UInt32.size] using hcs.length_lt)]

/-- The first chunk of a frame makes the entry with nothing seen. -/
theorem ofChunk_eq_entryFor (now : UInt64) {c : VideoChunk} (hc : c ∈ cs) :
    FrameBuffer.ofChunk now c = entryFor cs timestampUs keyframe captureUs encodeUs now ∅ := by
  obtain ⟨hTime, hKey, hCapture, hEncode⟩ := hcs.fields c hc
  have hChunks : List.replicate c.chunkCount.toNat (none : Option (List UInt8)) =
      cs.mapIdx fun i c => if i ∈ (∅ : Finset ℕ) then some c.payload else none := by
    apply List.ext_getElem (by simp [hcs.chunkCount c hc])
    intro i h₁ h₂
    simp
  simp only [FrameBuffer.ofChunk, entryFor]
  rw [hChunks, hTime, hKey, hCapture, hEncode, chunkCount_eq_ofNat hcs hc]

/-- Placing chunk `j` adds `j` to what was seen. -/
theorem place_entryFor (firstSeen : UInt64) (seen : Finset ℕ) {j : Nat} (hj : j < cs.length) :
    (entryFor cs timestampUs keyframe captureUs encodeUs firstSeen seen).place cs[j] =
      entryFor cs timestampUs keyframe captureUs encodeUs firstSeen (insert j seen) := by
  have hIndex := hcs.chunkIndex j hj
  have hLt : cs[j].chunkIndex < UInt32.ofNat cs.length := by
    rw [UInt32.lt_iff_toNat_lt, hIndex,
      UInt32.toNat_ofNat_of_lt' (by simpa [UInt32.size] using hcs.length_lt)]
    exact hj
  simp only [FrameBuffer.place, if_pos hLt, entryFor, hIndex, FrameBuffer.mk.injEq, true_and,
    and_true]
  apply List.ext_getElem (by simp)
  intro i h₁ h₂
  by_cases hij : i = j
  · subst hij
    simp
  · simp [Ne.symm hij, hij]

/-- A complete entry joins to the frame. -/
theorem data_entryFor (firstSeen : UInt64) {seen : Finset ℕ} (h : ∀ j < cs.length, j ∈ seen) :
    ((entryFor cs timestampUs keyframe captureUs encodeUs firstSeen seen).chunks.filterMap id).flatten =
      payload := by
  have hSome : (cs.mapIdx fun i c => if i ∈ seen then some c.payload else none) =
      cs.map fun c => some c.payload := by
    apply List.ext_getElem (by simp)
    intro i h₁ h₂
    simp [h i (by simpa using h₁)]
  rw [entryFor, hSome, List.filterMap_map]
  simpa using hcs.flatten_payload

/-! ## Whole runs -/

omit hcs in
/-- Entries first seen inside the window survive every push made inside it. -/
theorem filter_get_of_tracks {inWindow : UInt64 → Prop} {a : FrameAssembler} {seen : Finset ℕ}
    (hTrack : Tracks cs frameId timestampUs keyframe captureUs encodeUs inWindow a seen)
    (hWindow : ∀ t u, inWindow t → inWindow u → saturatingSub t u < a.timeoutUs)
    {now : UInt64} (hNow : inWindow now) :
    (a.frames.get frameId).filter (fun frame => saturatingSub now frame.firstSeenUs < a.timeoutUs) =
      a.frames.get frameId := by
  rcases hTrack with ⟨-, hNone⟩ | ⟨-, t, ht, hSome⟩
  · simp [hNone]
  · simp [hSome, entryFor, hWindow now t hNow ht]

/-- A push of chunk `j` of the frame follows the delivery rule: the pending
indices grow by `j`, and the frame goes out, whole, when they cover all. -/
theorem push_tracks_own {inWindow : UInt64 → Prop} {a : FrameAssembler} {seen : Finset ℕ}
    (hTrack : Tracks cs frameId timestampUs keyframe captureUs encodeUs inWindow a seen)
    (hWindow : ∀ t u, inWindow t → inWindow u → saturatingSub t u < a.timeoutUs)
    {now : UInt64} (hNow : inWindow now) {j : Nat} (hj : j < cs.length) :
    Tracks cs frameId timestampUs keyframe captureUs encodeUs inWindow (a.push now cs[j]).1
        (coverStep cs.length seen j).1 ∧
      (a.push now cs[j]).2 = if (coverStep cs.length seen j).2 then
        some ⟨frameId, timestampUs, keyframe, payload, captureUs, encodeUs⟩ else none := by
  have hId : cs[j].frameId = frameId := hcs.frameId_eq _ (List.getElem_mem hj)
  have hKept : (a.frames.retain fun _ frame =>
      decide (saturatingSub now frame.firstSeenUs < a.timeoutUs)).get frameId =
        a.frames.get frameId := by
    rw [AssocMap.get_retain]
    exact filter_get_of_tracks hTrack hWindow hNow
  obtain ⟨t, ht, hEntry⟩ : ∃ t, inWindow t ∧
      ((a.frames.retain fun _ frame =>
        decide (saturatingSub now frame.firstSeenUs < a.timeoutUs)).get frameId).getD
          (FrameBuffer.ofChunk now cs[j]) =
        entryFor cs timestampUs keyframe captureUs encodeUs t seen := by
    rcases hTrack with ⟨rfl, hNone⟩ | ⟨-, t, ht, hSome⟩
    · exact ⟨now, hNow, by rw [hKept, hNone]; exact ofChunk_eq_entryFor hcs now (List.getElem_mem hj)⟩
    · exact ⟨t, ht, by rw [hKept, hSome]; rfl⟩
  unfold FrameAssembler.push
  dsimp only
  rw [hId, hEntry, place_entryFor hcs t seen hj]
  by_cases hAll : ∀ i < cs.length, i ∈ insert j seen
  · rw [if_pos ((all_isSome_entryFor t _).mpr hAll)]
    simp only [coverStep, if_pos hAll]
    refine ⟨.inl ⟨rfl, by simp⟩, ?_⟩
    rw [data_entryFor hcs t hAll]
    simp [entryFor]
  · rw [if_neg (mt (all_isSome_entryFor t _).mp hAll)]
    simp only [coverStep, if_neg hAll]
    exact ⟨.inr ⟨Finset.insert_ne_empty _ _, t, ht, by simp⟩, rfl⟩

omit hcs in
/-- A push of another frame's chunk leaves this frame's entry alone and
hands out no frame of it. -/
theorem push_tracks_other {inWindow : UInt64 → Prop} {a : FrameAssembler} {seen : Finset ℕ}
    (hTrack : Tracks cs frameId timestampUs keyframe captureUs encodeUs inWindow a seen)
    (hWindow : ∀ t u, inWindow t → inWindow u → saturatingSub t u < a.timeoutUs)
    {now : UInt64} (hNow : inWindow now) {chunk : VideoChunk} (hNe : chunk.frameId ≠ frameId) :
    Tracks cs frameId timestampUs keyframe captureUs encodeUs inWindow (a.push now chunk).1 seen ∧
      (a.push now chunk).2.filter (fun frame => frame.frameId = frameId) = none := by
  have hGet := FrameAssembler.get_push_of_ne a now chunk (Ne.symm hNe)
  rw [filter_get_of_tracks hTrack hWindow hNow] at hGet
  constructor
  · rcases hTrack with ⟨hEmpty, hNone⟩ | ⟨hPending, t, ht, hSome⟩
    · exact .inl ⟨hEmpty, hGet.trans hNone⟩
    · exact .inr ⟨hPending, t, ht, hGet.trans hSome⟩
  · cases hOut : (a.push now chunk).2 with
    | none => rfl
    | some frame => simp [FrameAssembler.frameId_push hOut, hNe]

/-- Over a run of pushes inside the window, with this frame's chunks taken
from `cs`, the assembler hands out this frame exactly when the delivery rule
says, and always whole. -/
theorem pushAll_tracks {inWindow : UInt64 → Prop} (pushes : List (UInt64 × VideoChunk)) :
    ∀ (a : FrameAssembler) (seen : Finset ℕ),
      Tracks cs frameId timestampUs keyframe captureUs encodeUs inWindow a seen →
      (∀ t u, inWindow t → inWindow u → saturatingSub t u < a.timeoutUs) →
      (∀ p ∈ pushes, inWindow p.1) → (∀ p ∈ pushes, p.2.frameId = frameId → p.2 ∈ cs) →
      (a.pushAll pushes).2.map (fun out => out.filter fun frame => frame.frameId = frameId) =
        (coverRun frameId cs.length seen (pushes.map Prod.snd)).map fun delivered =>
          if delivered then some ⟨frameId, timestampUs, keyframe, payload, captureUs, encodeUs⟩
          else none := by
  induction pushes with
  | nil => intros; rfl
  | cons push rest ih =>
      obtain ⟨now, chunk⟩ := push
      intro a seen hTrack hWindow hTimes hChunks
      have hNow : inWindow now := hTimes _ (List.mem_cons_self ..)
      have hRestTimes : ∀ p ∈ rest, inWindow p.1 := fun p hp => hTimes p (List.mem_cons_of_mem _ hp)
      have hRestChunks : ∀ p ∈ rest, p.2.frameId = frameId → p.2 ∈ cs :=
        fun p hp => hChunks p (List.mem_cons_of_mem _ hp)
      have hNextWindow : ∀ t u, inWindow t → inWindow u →
          saturatingSub t u < (a.push now chunk).1.timeoutUs := by
        rw [FrameAssembler.timeoutUs_push]
        exact hWindow
      by_cases hOwn : chunk.frameId = frameId
      · obtain ⟨j, hj, rfl⟩ := List.mem_iff_getElem.mp (hChunks _ (List.mem_cons_self ..) hOwn)
        obtain ⟨hNext, hOut⟩ := push_tracks_own hcs hTrack hWindow hNow hj
        have hIndex := hcs.chunkIndex j hj
        simp only [FrameAssembler.pushAll, coverRun, if_pos hOwn, hIndex, List.map_cons, List.map,
          ih _ _ hNext hNextWindow hRestTimes hRestChunks, hOut]
        split_ifs <;> simp
      · obtain ⟨hNext, hOut⟩ := push_tracks_other hTrack hWindow hNow hOwn
        simp only [FrameAssembler.pushAll, coverRun, if_neg hOwn, List.map_cons, List.map,
          ih _ _ hNext hNextWindow hRestTimes hRestChunks, hOut, Bool.false_eq_true, if_false]

end Frame

/-- Video frame reassembly: push the chunks of a frame, cut by
`chunk_video_payload`, into an assembler holding nothing of it, in any order,
with any duplicates and among chunks of other frames, all within the timeout.
The frame is handed out exactly at the pushes where the indices pushed since
its last delivery first cover all of them, and each time whole, with its
timestamp, keyframe flag and durations. -/
theorem frameAssembler_delivers {frameId timestampUs : UInt64} {keyframe : Bool}
    {payload : List UInt8} {maxPayload : Nat} {captureUs encodeUs : UInt32}
    {cs : List VideoChunk}
    (h : chunkVideoPayload frameId timestampUs keyframe payload maxPayload captureUs encodeUs =
      .ok cs)
    (a : FrameAssembler) (hFresh : a.frames.get frameId = none)
    (pushes : List (UInt64 × VideoChunk))
    (hChunks : ∀ p ∈ pushes, p.2.frameId = frameId → p.2 ∈ cs)
    (hTimes : ∀ p ∈ pushes, ∀ q ∈ pushes, saturatingSub p.1 q.1 < a.timeoutUs) :
    (a.pushAll pushes).2.map (fun out => out.filter fun frame => frame.frameId = frameId) =
      (coverRun frameId cs.length ∅ (pushes.map Prod.snd)).map fun delivered =>
        if delivered then some ⟨frameId, timestampUs, keyframe, payload, captureUs, encodeUs⟩
        else none := by
  have hWindow : ∀ t u, (∃ p ∈ pushes, p.1 = t) → (∃ q ∈ pushes, q.1 = u) →
      saturatingSub t u < a.timeoutUs := by
    rintro t u ⟨p, hp, rfl⟩ ⟨q, hq, rfl⟩
    exact hTimes p hp q hq
  exact pushAll_tracks (chunkVideoPayload_frameChunks h) pushes a ∅ (.inl ⟨rfl, hFresh⟩) hWindow
    (fun p hp => ⟨p, hp, rfl⟩) hChunks

theorem frameAssembler_delivers_reordered :
    ((FrameAssembler.new frameTimeoutUs).pushAll
        [(0, ⟨9, 1, 2, 100, true, [3], 0, 0⟩), (1, ⟨4, 0, 1, 90, false, [5], 0, 0⟩),
          (2, ⟨9, 0, 2, 100, true, [1, 2], 0, 0⟩), (3, ⟨9, 0, 2, 100, true, [1, 2], 0, 0⟩)]).2.map
        (fun out => out.filter fun frame => frame.frameId = 9) =
      (coverRun 9 2 ∅ [⟨9, 1, 2, 100, true, [3], 0, 0⟩, ⟨4, 0, 1, 90, false, [5], 0, 0⟩,
          ⟨9, 0, 2, 100, true, [1, 2], 0, 0⟩, ⟨9, 0, 2, 100, true, [1, 2], 0, 0⟩]).map
        fun delivered => if delivered then some ⟨9, 100, true, [1, 2, 3], 0, 0⟩ else none :=
  @frameAssembler_delivers 9 100 true [1, 2, 3] 2 0 0
    [⟨9, 0, 2, 100, true, [1, 2], 0, 0⟩, ⟨9, 1, 2, 100, true, [3], 0, 0⟩]
    (by decide) _ rfl _ (by decide) (by decide)

/-- A frame of one chunk, pushed twice: it is handed out twice. -/
theorem frameAssembler_single_chunk_twice :
    chunkVideoPayload 9 100 true [1] 1300 0 0 = .ok [⟨9, 0, 1, 100, true, [1], 0, 0⟩] ∧
      ((FrameAssembler.new frameTimeoutUs).pushAll
          [(0, ⟨9, 0, 1, 100, true, [1], 0, 0⟩), (1, ⟨9, 0, 1, 100, true, [1], 0, 0⟩)]).2 =
        [some ⟨9, 100, true, [1], 0, 0⟩, some ⟨9, 100, true, [1], 0, 0⟩] := by
  decide

end Wavry.Client
