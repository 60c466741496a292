import Wavry.Lib.Chunks

/-! Video frames on the wire (`rift-core`): a frame is cut into chunks of at
most `max_payload` bytes, each carrying the frame's id, timestamp, keyframe
flag and durations, its own index and the number of chunks. -/
namespace Wavry.RiftCore

open Chunks

inductive ChunkError where
  | invalidMaxPayload
  | tooManyChunks
  deriving DecidableEq, Repr

/-- The `VideoChunk` protocol message. -/
structure VideoChunk where
  frameId : UInt64
  chunkIndex : UInt32
  chunkCount : UInt32
  timestampUs : UInt64
  keyframe : Bool
  payload : List UInt8
  captureUs : UInt32
  encodeUs : UInt32
  deriving DecidableEq, Repr

/-- `chunk_video_payload`. -/
def chunkVideoPayload (frameId timestampUs : UInt64) (keyframe : Bool) (payload : List UInt8)
    (maxPayload : Nat) (captureUs encodeUs : UInt32) : Except ChunkError (List VideoChunk) :=
  if maxPayload = 0 then .error .invalidMaxPayload
  else
    let chunkCount := divCeil payload.length maxPayload
    if chunkCount > 4294967295 then .error .tooManyChunks
    else
      .ok ((chunks payload maxPayload).mapIdx fun index chunk =>
        { frameId := frameId
          chunkIndex := UInt32.ofNat index
          chunkCount := UInt32.ofNat chunkCount
          timestampUs := timestampUs
          keyframe := keyframe
          payload := chunk
          captureUs := captureUs
          encodeUs := encodeUs })

/-- What every chunk of one frame shares, and where it stands: the chunk at
position `i` has index `i`, the count is the number of chunks, and the
payloads in order join to the frame. -/
structure FrameChunks (frameId timestampUs : UInt64) (keyframe : Bool) (payload : List UInt8)
    (captureUs encodeUs : UInt32) (cs : List VideoChunk) : Prop where
  length_lt : cs.length < 2 ^ 32
  chunkIndex : ∀ (i : Nat) (h : i < cs.length), (cs[i].chunkIndex).toNat = i
  chunkCount : ∀ c ∈ cs, c.chunkCount.toNat = cs.length
  frameId_eq : ∀ c ∈ cs, c.frameId = frameId
  fields : ∀ c ∈ cs, c.timestampUs = timestampUs ∧ c.keyframe = keyframe ∧
    c.captureUs = captureUs ∧ c.encodeUs = encodeUs
  flatten_payload : (cs.map VideoChunk.payload).flatten = payload

theorem chunkVideoPayload_frameChunks {frameId timestampUs : UInt64} {keyframe : Bool}
    {payload : List UInt8} {maxPayload : Nat} {captureUs encodeUs : UInt32} {cs : List VideoChunk}
    (h : chunkVideoPayload frameId timestampUs keyframe payload maxPayload captureUs encodeUs =
      .ok cs) :
    FrameChunks frameId timestampUs keyframe payload captureUs encodeUs cs := by
  unfold chunkVideoPayload at h
  dsimp only at h
  split_ifs at h with hZero hMany
  cases h
  have hSize : 0 < maxPayload := Nat.pos_of_ne_zero hZero
  have hCount := length_chunks hSize payload
  have hLt : (chunks payload maxPayload).length < 2 ^ 32 := by
    rw [hCount]
    omega
  refine ⟨by simpa using hLt, fun i hi => ?_, fun c hc => ?_, fun c hc => ?_, fun c hc => ?_, ?_⟩
  · simp only [List.length_mapIdx] at hi
    simp [UInt32.toNat_ofNat_of_lt' (show i < UInt32.size by simp only [UInt32.size]; omega)]
  · obtain ⟨i, hi, rfl⟩ := List.mem_iff_getElem.mp hc
    simp only [List.length_mapIdx] at hi ⊢
    simp [UInt32.toNat_ofNat_of_lt' (show divCeil payload.length maxPayload < UInt32.size by
      simp only [UInt32.size]; omega), hCount]
  · obtain ⟨i, hi, rfl⟩ := List.mem_iff_getElem.mp hc
    simp
  · obtain ⟨i, hi, rfl⟩ := List.mem_iff_getElem.mp hc
    simp
  · have hMap : ((chunks payload maxPayload).mapIdx fun index chunk =>
        ({ frameId := frameId, chunkIndex := UInt32.ofNat index,
           chunkCount := UInt32.ofNat (divCeil payload.length maxPayload),
           timestampUs := timestampUs, keyframe := keyframe, payload := chunk,
           captureUs := captureUs, encodeUs := encodeUs } : VideoChunk)).map VideoChunk.payload =
        chunks payload maxPayload := by
      apply List.ext_getElem (by simp)
      intro i h₁ h₂
      simp
    rw [hMap, flatten_chunks hSize]

end Wavry.RiftCore
