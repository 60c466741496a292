import Wavry.Lib.AssocMap
import Wavry.Lib.Saturating
import Wavry.RiftCore.Fec

/-! The client's FEC cache (`wavry-client` media). The client keeps the
plaintext of recent packets by packet id, at most `MAX_FEC_CACHE` of them, and
when a parity packet arrives scans the ids of its group: with exactly one id
absent, the parity XORed with every present payload is the absent payload,
zero-padded to the group's longest, and is cut back to the length the parity
packet records for it. -/
namespace Wavry.Client

open XorPad Wavry.RiftCore Saturating

/-- `MAX_FEC_CACHE`. -/
def maxFecCache : Nat := 256

/-- `FecCache`: packet payloads by packet id. -/
structure FecCache where
  packets : AssocMap UInt64 (List UInt8)

namespace FecCache

def new : FecCache := ⟨AssocMap.empty⟩

/-- `FecCache::insert`: a full cache first drops its smallest packet id. -/
def insert (c : FecCache) (packetId : UInt64) (data : List UInt8) : FecCache :=
  let packets :=
    if maxFecCache ≤ c.packets.size then
      match c.packets.keys.min? with
      | some minId => c.packets.erase minId
      | none => c.packets
    else c.packets
  ⟨packets.insert packetId data⟩

/-! ## Insertion -/

/-- Below the bound nothing is evicted: `insert` is a plain map update. -/
theorem get_insert_of_lt (c : FecCache) (packetId : UInt64) (data : List UInt8)
    (h : c.packets.size < maxFecCache) (key : UInt64) :
    (c.insert packetId data).packets.get key =
      if key = packetId then some data else c.packets.get key := by
  simp [insert, Nat.not_le.mpr h]

/-- One insertion keeps the cache within `MAX_FEC_CACHE` entries: a full cache
evicts its smallest id, which is present, before it inserts. -/
theorem size_insert_le (c : FecCache) (packetId : UInt64) (data : List UInt8)
    (h : c.packets.size ≤ maxFecCache) : (c.insert packetId data).packets.size ≤ maxFecCache := by
  unfold insert
  by_cases hFull : maxFecCache ≤ c.packets.size
  · cases hMin : c.packets.keys.min? with
    | none =>
        have hEmpty : c.packets.keys = [] := List.min?_eq_none_iff.mp hMin
        have hZero : c.packets.size = 0 := by
          simpa [AssocMap.keys, AssocMap.size] using congrArg List.length hEmpty
        simp only [maxFecCache] at hFull
        omega
    | some minId =>
        have hErase := c.packets.size_erase_lt (List.min?_mem hMin)
        have hInsert := (c.packets.erase minId).size_insert_le packetId data
        simp only [if_pos hFull]
        omega
  · have hInsert := c.packets.size_insert_le packetId data
    simp only [if_neg hFull]
    omega

/-- Over any run of insertions from a cache within the bound, the bound holds. -/
theorem size_foldl_insert_le (c : FecCache) (h : c.packets.size ≤ maxFecCache)
    (inserts : List (UInt64 × List UInt8)) :
    (inserts.foldl (fun c x => c.insert x.1 x.2) c).packets.size ≤ maxFecCache := by
  induction inserts generalizing c with
  | nil => exact h
  | cons x xs ih => exact ih _ (c.size_insert_le x.1 x.2 h)

/-- The loop variables of `try_recover`. -/
structure Scan where
  missingId : Option UInt64
  missingIndex : Option Nat
  recoveredPayload : List UInt8
  presentCount : UInt32

/-- One iteration of the scan over the group's offsets; `none` is the early
return when a second packet is missing. -/
def scanOffset (c : FecCache) (fec : FecPacket) (s : Scan) (offset : Nat) : Option Scan :=
  let pid := fec.firstPacketId + UInt64.ofNat offset
  match c.packets.get pid with
  | some p =>
      some { s with recoveredPayload := xorInto s.recoveredPayload p,
                    presentCount := s.presentCount + 1 }
  | none =>
      if s.missingId.isSome then none
      else some { s with missingId := some pid, missingIndex := some offset }

/-- `FecCache::try_recover`. The offsets run over `0..shard_count - 1` in
`u32` arithmetic and the count of present packets is compared with
`shard_count - 2`, also in `u32`. -/
def tryRecover (c : FecCache) (fec : FecPacket) : Option (List UInt8) := do
  let s ← (List.range (fec.shardCount - 1).toNat).foldlM (c.scanOffset fec)
    ⟨none, none, fec.payload, 0⟩
  if s.presentCount = fec.shardCount - 2 then
    match s.missingIndex with
    | some idx =>
        match fec.shardLengths[idx]? with
        | some actualLen => some (s.recoveredPayload.take actualLen.toNat)
        | none => some s.recoveredPayload
    | none => some s.recoveredPayload
  else none

/-! ## The scan -/

section Scan

variable (c : FecCache) (fec : FecPacket)

theorem scanOffset_of_present {s : Scan} {offset : Nat} {p : List UInt8}
    (h : c.packets.get (fec.firstPacketId + UInt64.ofNat offset) = some p) :
    c.scanOffset fec s offset =
      some { s with recoveredPayload := xorInto s.recoveredPayload p,
                    presentCount := s.presentCount + 1 } := by
  simp [scanOffset, h]

theorem scanOffset_of_missing {s : Scan} {offset : Nat}
    (h : c.packets.get (fec.firstPacketId + UInt64.ofNat offset) = none)
    (hFirst : s.missingId = none) :
    c.scanOffset fec s offset =
      some { s with missingId := some (fec.firstPacketId + UInt64.ofNat offset),
                    missingIndex := some offset } := by
  simp [scanOffset, h, hFirst]

/-- Offsets whose packets are all cached are XORed in, in order, and counted. -/
theorem foldlM_scanOffset_of_present (payloadAt : Nat → List UInt8) (offsets : List Nat)
    (h : ∀ o ∈ offsets, c.packets.get (fec.firstPacketId + UInt64.ofNat o) = some (payloadAt o))
    (s : Scan) :
    offsets.foldlM (c.scanOffset fec) s =
      some { s with recoveredPayload := (offsets.map payloadAt).foldl xorInto s.recoveredPayload,
                    presentCount := s.presentCount + UInt32.ofNat offsets.length } := by
  induction offsets generalizing s with
  | nil => simp
  | cons o os ih =>
      have hHead := scanOffset_of_present c fec (s := s) (h o (List.mem_cons_self ..))
      rw [List.foldlM_cons, hHead, Option.bind_eq_bind, Option.bind_some,
        ih (fun o' ho' => h o' (List.mem_cons_of_mem _ ho'))]
      simp [UInt32.add_assoc, UInt32.add_comm 1, List.length_cons, UInt32.ofNat_add]

/-- A completed scan met at most one missing packet, and none if one had been
met before it started. -/
theorem foldlM_scanOffset_eq_some {offsets : List Nat} {s s' : Scan}
    (h : offsets.foldlM (c.scanOffset fec) s = some s') {o : Nat} (ho : o ∈ offsets)
    (hMissing : c.packets.get (fec.firstPacketId + UInt64.ofNat o) = none) :
    s.missingId = none ∧ ∀ o' ∈ offsets,
      c.packets.get (fec.firstPacketId + UInt64.ofNat o') = none → o' = o := by
  induction offsets generalizing s o with
  | nil => cases ho
  | cons a os ih =>
      rw [List.foldlM_cons] at h
      obtain ⟨s₁, hStep, hRest⟩ := Option.bind_eq_some_iff.mp h
      cases hGet : c.packets.get (fec.firstPacketId + UInt64.ofNat a) with
      | some p =>
          rw [scanOffset_of_present c fec hGet, Option.some_inj] at hStep
          have hOther : ∀ o' ∈ a :: os,
              c.packets.get (fec.firstPacketId + UInt64.ofNat o') = none → o' ∈ os := by
            intro o' ho' hNone
            rcases List.mem_cons.mp ho' with rfl | hMem
            · rw [hGet] at hNone; cases hNone
            · exact hMem
          obtain ⟨hFirst, hOnly⟩ := ih hRest (hOther o ho hMissing) hMissing
          refine ⟨by rw [← hFirst, ← hStep], fun o' ho' hNone => ?_⟩
          exact hOnly o' (hOther o' ho' hNone) hNone
      | none =>
          cases hMark : s.missingId with
          | some id => simp [scanOffset, hGet, hMark] at hStep
          | none =>
              rw [scanOffset_of_missing c fec hGet hMark, Option.some_inj] at hStep
              have hNoneAfter : ∀ o' ∈ os,
                  c.packets.get (fec.firstPacketId + UInt64.ofNat o') ≠ none := by
                intro o' ho' hNone
                have := (ih hRest ho' hNone).1
                rw [← hStep] at this
                cases this
              have hIsA : ∀ o' ∈ a :: os,
                  c.packets.get (fec.firstPacketId + UInt64.ofNat o') = none → o' = a := by
                intro o' ho' hNone
                rcases List.mem_cons.mp ho' with rfl | hMem
                · rfl
                · exact absurd hNone (hNoneAfter o' hMem)
              refine ⟨rfl, fun o' ho' hNone => ?_⟩
              rw [hIsA o' ho' hNone, hIsA o ho hMissing]

/-- The offsets of a group, split around offset `j`. -/
theorem range_eq_around {m j : Nat} (hj : j < m) :
    List.range m = List.range j ++ j :: (List.range (m - j - 1)).map (j + 1 + ·) := by
  have hSplit := @List.range_add (j + 1) (m - j - 1)
  rw [show j + 1 + (m - j - 1) = m by omega, List.range_succ] at hSplit
  simpa using hSplit

theorem getElem?_eq_some_getD {payloads : List (List UInt8)} {i : Nat} (h : i < payloads.length) :
    payloads[i]? = some (payloads.getD i []) := by
  simp [h]

theorem map_getD_range (payloads : List (List UInt8)) {j : Nat} (hj : j ≤ payloads.length) :
    (List.range j).map (fun o => payloads.getD o []) = payloads.take j := by
  apply List.ext_getElem (by simp; omega)
  intro i h₁ h₂
  simp only [List.length_map, List.length_range] at h₁
  simp [List.getElem?_eq_getElem (show i < payloads.length by omega)]

theorem map_getD_range_shift (payloads : List (List UInt8)) (j : Nat) :
    ((List.range (payloads.length - j - 1)).map (j + 1 + ·)).map (fun o => payloads.getD o []) =
      payloads.drop (j + 1) := by
  apply List.ext_getElem (by simp; omega)
  intro i h₁ h₂
  simp only [List.length_map, List.length_range] at h₁
  simp [List.getElem?_eq_getElem (show j + 1 + i < payloads.length by omega)]

/-- The scan over a group whose only uncached packet is the one at offset `j`
XORs in every other payload, in order, marks `j` and counts the rest. -/
theorem foldlM_range_of_one_missing (payloads : List (List UInt8)) {j : Nat}
    (hj : j < payloads.length)
    (hPresent : ∀ i < payloads.length, i ≠ j →
      c.packets.get (fec.firstPacketId + UInt64.ofNat i) = payloads[i]?)
    (hMissing : c.packets.get (fec.firstPacketId + UInt64.ofNat j) = none)
    (s : Scan) (hs : s.missingId = none) :
    (List.range payloads.length).foldlM (c.scanOffset fec) s =
      some { missingId := some (fec.firstPacketId + UInt64.ofNat j)
             missingIndex := some j
             recoveredPayload :=
               (payloads.take j ++ payloads.drop (j + 1)).foldl xorInto s.recoveredPayload
             presentCount := s.presentCount + UInt32.ofNat (payloads.length - 1) } := by
  have hAt : ∀ i < payloads.length, i ≠ j →
      c.packets.get (fec.firstPacketId + UInt64.ofNat i) = some (payloads.getD i []) :=
    fun i hi hij => (hPresent i hi hij).trans (getElem?_eq_some_getD hi)
  have hBefore : ∀ o ∈ List.range j,
      c.packets.get (fec.firstPacketId + UInt64.ofNat o) = some (payloads.getD o []) := by
    intro o ho
    have := List.mem_range.mp ho
    exact hAt o (by omega) (by omega)
  have hAfter : ∀ o ∈ (List.range (payloads.length - j - 1)).map (j + 1 + ·),
      c.packets.get (fec.firstPacketId + UInt64.ofNat o) = some (payloads.getD o []) := by
    intro o ho
    obtain ⟨k, hk, rfl⟩ := List.mem_map.mp ho
    have := List.mem_range.mp hk
    exact hAt _ (by omega) (by omega)
  rw [range_eq_around hj, List.foldlM_append,
    foldlM_scanOffset_of_present c fec _ _ hBefore, Option.bind_eq_bind, Option.bind_some,
    List.foldlM_cons, scanOffset_of_missing c fec hMissing, Option.bind_eq_bind, Option.bind_some,
    foldlM_scanOffset_of_present c fec _ _ hAfter]
  rotate_left
  · exact hs
  have hCount : UInt32.ofNat j + UInt32.ofNat (payloads.length - j - 1) =
      UInt32.ofNat (payloads.length - 1) := by
    rw [← UInt32.ofNat_add]
    congr 1
    omega
  rw [map_getD_range payloads hj.le, map_getD_range_shift]
  simp [List.foldl_append, UInt32.add_assoc, hCount]

/-- A scan that stopped early recovers nothing. -/
theorem tryRecover_of_foldlM_none
    (h : (List.range (fec.shardCount - 1).toNat).foldlM (c.scanOffset fec)
      ⟨none, none, fec.payload, 0⟩ = none) : c.tryRecover fec = none := by
  simp [tryRecover, h]

/-- `try_recover` with exactly the packet at offset `j` missing returns the
parity XORed with every other payload, cut to the length recorded for shard `j`. -/
theorem tryRecover_of_one_missing (payloads : List (List UInt8)) {j : Nat}
    (hj : j < payloads.length)
    (hShards : (fec.shardCount - 1).toNat = payloads.length)
    (hCount : fec.shardCount - 2 = UInt32.ofNat (payloads.length - 1))
    (hPresent : ∀ i < payloads.length, i ≠ j →
      c.packets.get (fec.firstPacketId + UInt64.ofNat i) = payloads[i]?)
    (hMissing : c.packets.get (fec.firstPacketId + UInt64.ofNat j) = none)
    {len : UInt32} (hLen : fec.shardLengths[j]? = some len) :
    c.tryRecover fec =
      some (((payloads.take j ++ payloads.drop (j + 1)).foldl xorInto fec.payload).take len.toNat) := by
  rw [tryRecover, hShards, foldlM_range_of_one_missing c fec payloads hj hPresent hMissing _ rfl]
  simp [hCount, hLen]

/-- With every packet of the group cached the count is one too many. -/
theorem tryRecover_of_all_present
    (hPresent : ∀ i < (fec.shardCount - 1).toNat,
      (c.packets.get (fec.firstPacketId + UInt64.ofNat i)).isSome) :
    c.tryRecover fec = none := by
  have hAt : ∀ o ∈ List.range (fec.shardCount - 1).toNat,
      c.packets.get (fec.firstPacketId + UInt64.ofNat o) =
        some ((c.packets.get (fec.firstPacketId + UInt64.ofNat o)).getD []) := by
    intro o ho
    have hSome := hPresent o (List.mem_range.mp ho)
    cases hGet : c.packets.get (fec.firstPacketId + UInt64.ofNat o) with
    | none => rw [hGet] at hSome; cases hSome
    | some p => rfl
  have hNe : fec.shardCount - 1 ≠ fec.shardCount - 2 := by grind
  rw [tryRecover, foldlM_scanOffset_of_present c fec _ _ hAt]
  simp [hNe]

/-- With two different packets of the group missing the scan stops early. -/
theorem tryRecover_of_two_missing {i₁ i₂ : Nat} (h₁ : i₁ < (fec.shardCount - 1).toNat)
    (h₂ : i₂ < (fec.shardCount - 1).toNat) (hNe : i₁ ≠ i₂)
    (hMissing₁ : c.packets.get (fec.firstPacketId + UInt64.ofNat i₁) = none)
    (hMissing₂ : c.packets.get (fec.firstPacketId + UInt64.ofNat i₂) = none) :
    c.tryRecover fec = none := by
  apply tryRecover_of_foldlM_none
  cases hScan : (List.range (fec.shardCount - 1).toNat).foldlM (c.scanOffset fec)
      ⟨none, none, fec.payload, 0⟩ with
  | none => rfl
  | some s =>
      have hOnly := (foldlM_scanOffset_eq_some c fec hScan (List.mem_range.mpr h₁) hMissing₁).2
      exact absurd (hOnly i₂ (List.mem_range.mpr h₂) hMissing₂) (Ne.symm hNe)

end Scan

/-! ## Debug builds

A debug build checks the arithmetic of `try_recover`: `shard_count - 1`,
`first_packet_id + offset`, `present_count += 1` and `shard_count - 2` panic
where the exact result does not fit. Wherever none of them does, what runs is
the release loop above. -/

/-- One iteration of the scan in a debug build. -/
def scanOffsetChecked (c : FecCache) (fec : FecPacket) (s : Scan) (offset : Nat) :
    Except ArithPanic (Option Scan) := do
  let pid ← debugAdd64 fec.firstPacketId (UInt64.ofNat offset)
  match c.packets.get pid with
  | some p =>
      let presentCount ← debugAdd32 s.presentCount 1
      pure (some { s with recoveredPayload := xorInto s.recoveredPayload p, presentCount })
  | none =>
      pure (if s.missingId.isSome then none
        else some { s with missingId := some pid, missingIndex := some offset })

/-- The scan in a debug build; `none` is the early return. -/
def scanChecked (c : FecCache) (fec : FecPacket) : List Nat → Scan → Except ArithPanic (Option Scan)
  | [], s => pure (some s)
  | offset :: rest, s => do
      match ← c.scanOffsetChecked fec s offset with
      | none => pure none
      | some s => c.scanChecked fec rest s

/-- `FecCache::try_recover` in a debug build. -/
def tryRecoverChecked (c : FecCache) (fec : FecPacket) : Except ArithPanic (Option (List UInt8)) := do
  let bound ← debugSub32 fec.shardCount 1
  match ← c.scanChecked fec (List.range bound.toNat) ⟨none, none, fec.payload, 0⟩ with
  | none => pure none
  | some s =>
      let target ← debugSub32 fec.shardCount 2
      pure (if s.presentCount = target then
          match s.missingIndex with
          | some idx =>
              match fec.shardLengths[idx]? with
              | some actualLen => some (s.recoveredPayload.take actualLen.toNat)
              | none => some s.recoveredPayload
          | none => some s.recoveredPayload
        else none)

section Checked

variable (c : FecCache) (fec : FecPacket)

theorem toNat_shardCount_sub {k : UInt32} (h : k.toNat ≤ fec.shardCount.toNat) :
    (fec.shardCount - k).toNat = fec.shardCount.toNat - k.toNat :=
  UInt32.toNat_sub_of_le _ _ (UInt32.le_iff_toNat_le.mpr h)

/-- Where the packet id and the count fit, an iteration is the release one. -/
theorem scanOffsetChecked_of_fits {s : Scan} {offset : Nat}
    (hPid : fec.firstPacketId.toNat + offset < 2 ^ 64) (hCount : s.presentCount.toNat + 1 < 2 ^ 32) :
    c.scanOffsetChecked fec s offset = .ok (c.scanOffset fec s offset) := by
  have hOffset : (UInt64.ofNat offset).toNat = offset :=
    UInt64.toNat_ofNat_of_lt' (Nat.lt_of_le_of_lt (Nat.le_add_left _ _) hPid)
  have hAdd : debugAdd64 fec.firstPacketId (UInt64.ofNat offset) =
      .ok (fec.firstPacketId + UInt64.ofNat offset) :=
    debugAdd_of_lt (by rw [hOffset]; exact hPid)
  have hInc : debugAdd32 s.presentCount 1 = .ok (s.presentCount + 1) :=
    debugAdd_of_lt (by simpa using hCount)
  simp only [scanOffsetChecked, scanOffset, hAdd, bind, Except.bind]
  cases c.packets.get (fec.firstPacketId + UInt64.ofNat offset) with
  | some p => simp [hInc, pure, Except.pure]
  | none => rfl

/-- An iteration counts at most one more present packet. -/
theorem presentCount_scanOffset_le {s s' : Scan} {offset : Nat}
    (h : c.scanOffset fec s offset = some s') (hCount : s.presentCount.toNat + 1 < 2 ^ 32) :
    s'.presentCount.toNat ≤ s.presentCount.toNat + 1 := by
  cases hGet : c.packets.get (fec.firstPacketId + UInt64.ofNat offset) with
  | some p =>
      rw [scanOffset_of_present c fec hGet, Option.some.injEq] at h
      subst h
      simp only [UInt32.toNat_add, UInt32.toNat_one]
      omega
  | none =>
      cases hMark : s.missingId with
      | some id => simp [scanOffset, hGet, hMark] at h
      | none =>
          rw [scanOffset_of_missing c fec hGet hMark, Option.some.injEq] at h
          subst h
          exact Nat.le_succ _

/-- A loop whose packet ids and count all fit is the release loop. -/
theorem scanChecked_of_fits (offsets : List Nat) (hPid : ∀ o ∈ offsets, fec.firstPacketId.toNat + o < 2 ^ 64)
    (s : Scan) (hCount : s.presentCount.toNat + offsets.length < 2 ^ 32) :
    c.scanChecked fec offsets s = .ok (offsets.foldlM (c.scanOffset fec) s) := by
  induction offsets generalizing s with
  | nil => rfl
  | cons o rest ih =>
      have hStep := scanOffsetChecked_of_fits c fec (s := s) (hPid o List.mem_cons_self)
        (by simp only [List.length_cons] at hCount; omega)
      simp only [scanChecked, hStep, bind, Except.bind, List.foldlM_cons]
      cases hScan : c.scanOffset fec s o with
      | none => rfl
      | some s' =>
          have hLe := presentCount_scanOffset_le c fec hScan
            (by simp only [List.length_cons] at hCount; omega)
          exact ih (fun o' ho' => hPid o' (List.mem_cons_of_mem _ ho')) s'
            (by simp only [List.length_cons] at hCount; omega)

/-- For a group of at least two shards whose packet ids stay below `2^64`, a
debug build recovers exactly what the release build does. -/
theorem tryRecoverChecked_of_fits (hShards : 2 ≤ fec.shardCount.toNat)
    (hIds : fec.firstPacketId.toNat + (fec.shardCount.toNat - 2) < 2 ^ 64) :
    c.tryRecoverChecked fec = .ok (c.tryRecover fec) := by
  have hBound : debugSub32 fec.shardCount 1 = .ok (fec.shardCount - 1) :=
    debugSub_of_le (by simp; omega)
  have hTarget : debugSub32 fec.shardCount 2 = .ok (fec.shardCount - 2) :=
    debugSub_of_le (by simpa using hShards)
  have hLength : (fec.shardCount - 1).toNat = fec.shardCount.toNat - 1 :=
    toNat_shardCount_sub fec (by simp; omega)
  have hScan := scanChecked_of_fits c fec (List.range (fec.shardCount - 1).toNat)
    (fun o ho => by
      have := List.mem_range.mp ho
      omega)
    ⟨none, none, fec.payload, 0⟩
    (by
      have := fec.shardCount.toNat_lt
      simp only [List.length_range, UInt32.toNat_zero]
      omega)
  simp only [tryRecoverChecked, tryRecover, hBound, hScan, hTarget, bind, Except.bind]
  cases (List.range (fec.shardCount - 1).toNat).foldlM (c.scanOffset fec) ⟨none, none, fec.payload, 0⟩ with
  | none => rfl
  | some s => rfl

/-- A group of no shard underflows `shard_count - 1`; a group of one has an
empty loop and underflows `shard_count - 2`. -/
theorem tryRecoverChecked_of_lt_two (hShards : fec.shardCount.toNat < 2) :
    c.tryRecoverChecked fec = .error .subOverflow := by
  by_cases hZero : fec.shardCount.toNat = 0
  · have hBound : debugSub32 fec.shardCount 1 = .error .subOverflow :=
      debugSub_of_lt (by simp [hZero])
    simp [tryRecoverChecked, hBound, bind, Except.bind]
  · have hOne : fec.shardCount.toNat = 1 := by omega
    have hBound : debugSub32 fec.shardCount 1 = .ok (fec.shardCount - 1) :=
      debugSub_of_le (by simp [hOne])
    have hEmpty : (fec.shardCount - 1).toNat = 0 := by
      rw [toNat_shardCount_sub fec (by simp [hOne]), hOne]
      rfl
    have hTarget : debugSub32 fec.shardCount 2 = .error .subOverflow :=
      debugSub_of_lt (by simp [hOne])
    simp [tryRecoverChecked, hBound, hEmpty, hTarget, scanChecked, bind, Except.bind, pure,
      Except.pure]

/-- A group of three or more shards starting at `u64::MAX` overflows the id
of offset 1, and the scan always gets there: an early return needs a second
missing packet, and offset 1 is where it would be looked up. -/
theorem tryRecoverChecked_of_first_max (hFirst : fec.firstPacketId = 0xFFFFFFFFFFFFFFFF)
    (hShards : 3 ≤ fec.shardCount.toNat) : c.tryRecoverChecked fec = .error .addOverflow := by
  have hBound : debugSub32 fec.shardCount 1 = .ok (fec.shardCount - 1) :=
    debugSub_of_le (by simp; omega)
  have hLength : 2 ≤ (fec.shardCount - 1).toNat := by
    rw [toNat_shardCount_sub fec (by simp; omega)]
    simp only [UInt32.toNat_one]
    omega
  obtain ⟨rest, hRange⟩ : ∃ rest, List.range (fec.shardCount - 1).toNat = 0 :: 1 :: rest :=
    ⟨(List.range ((fec.shardCount - 1).toNat - 2)).map (2 + ·), by
      rw [show (fec.shardCount - 1).toNat = 2 + ((fec.shardCount - 1).toNat - 2) by omega,
        List.range_add]
      simp [List.range_succ]⟩
  have hSecondId : debugAdd64 fec.firstPacketId 1 = .error .addOverflow :=
    debugAdd_of_le (by simp [hFirst])
  have hSecond : ∀ s : Scan, c.scanChecked fec (1 :: rest) s = .error .addOverflow := by
    intro s
    simp [scanChecked, scanOffsetChecked, hSecondId, bind, Except.bind]
  obtain ⟨s₁, hs₁⟩ : ∃ s₁, c.scanOffsetChecked fec ⟨none, none, fec.payload, 0⟩ 0 = .ok (some s₁) := by
    rw [scanOffsetChecked_of_fits c fec (by simp [hFirst]) (by simp)]
    cases hGet : c.packets.get (fec.firstPacketId + UInt64.ofNat 0) with
    | some p => exact ⟨_, by rw [scanOffset_of_present c fec hGet]⟩
    | none => exact ⟨_, by rw [scanOffset_of_missing c fec hGet rfl]⟩
  have hScan : c.scanChecked fec (0 :: 1 :: rest) ⟨none, none, fec.payload, 0⟩ =
      .error .addOverflow := by
    rw [scanChecked, hs₁]
    exact hSecond s₁
  simp only [tryRecoverChecked, hBound, hRange, hScan, bind, Except.bind]

/-- Attacker-chosen fields make a debug build's `try_recover` panic whatever
the cache holds: a group of no shard or of one underflows `shard_count - 1` or
`shard_count - 2`, and a group of three or more starting at `u64::MAX`
overflows its second packet id. -/
theorem tryRecoverChecked_panics :
    (fec.shardCount.toNat < 2 → c.tryRecoverChecked fec = .error .subOverflow) ∧
      (fec.firstPacketId = 0xFFFFFFFFFFFFFFFF → 3 ≤ fec.shardCount.toNat →
        c.tryRecoverChecked fec = .error .addOverflow) :=
  ⟨tryRecoverChecked_of_lt_two c fec, tryRecoverChecked_of_first_max c fec⟩

end Checked

/-- On an empty cache, a parity packet claiming one shard and one claiming
three shards from `u64::MAX` both panic. -/
theorem tryRecoverChecked_panics_new :
    (1 : UInt32).toNat < 2 ∧
      new.tryRecoverChecked ⟨0, 0, 1, 0, [], []⟩ = .error .subOverflow ∧
      (0xFFFFFFFFFFFFFFFF : UInt64) = 0xFFFFFFFFFFFFFFFF ∧ 3 ≤ (3 : UInt32).toNat ∧
      new.tryRecoverChecked ⟨0, 0xFFFFFFFFFFFFFFFF, 3, 0, [], []⟩ = .error .addOverflow :=
  ⟨by decide, (tryRecoverChecked_panics new ⟨0, 0, 1, 0, [], []⟩).1 (by decide), rfl, by decide,
    (tryRecoverChecked_panics new ⟨0, 0xFFFFFFFFFFFFFFFF, 3, 0, [], []⟩).2 rfl (by decide)⟩

end FecCache

/-! ## From the builder to recovery -/

open FecBuilder

/-- What the parity packet `fec` of a group sent under consecutive ids from
`first` gives the client: any one missing payload back, exactly, from a cache
holding the others, and nothing when no payload or two are missing. -/
def RecoversGroup (fec : FecPacket) (first : UInt64) (payloads : List (List UInt8)) : Prop :=
  (∀ (c : FecCache) (j : Nat), j < payloads.length →
    (∀ i < payloads.length, i ≠ j → c.packets.get (first + UInt64.ofNat i) = payloads[i]?) →
    c.packets.get (first + UInt64.ofNat j) = none → c.tryRecover fec = payloads[j]?) ∧
  (∀ c : FecCache, (∀ i < payloads.length, c.packets.get (first + UInt64.ofNat i) = payloads[i]?) →
    c.tryRecover fec = none) ∧
  (∀ (c : FecCache) (i₁ i₂ : Nat), i₁ < payloads.length → i₂ < payloads.length → i₁ ≠ i₂ →
    c.packets.get (first + UInt64.ofNat i₁) = none →
    c.packets.get (first + UInt64.ofNat i₂) = none → c.tryRecover fec = none)

section Group

variable {shardCount : UInt32} {payloads : List (List UInt8)}

theorem toNat_groupPacket_shardCount_sub_one (groupId first : UInt64)
    (hn : 2 ≤ shardCount.toNat) (hLen : payloads.length = shardCount.toNat - 1) :
    ((groupPacket shardCount groupId first payloads).shardCount - 1).toNat = payloads.length := by
  rw [hLen]
  exact toNat_sub_of_two_le hn (by decide)

theorem groupPacket_shardCount_sub_two (groupId first : UInt64)
    (hn : 2 ≤ shardCount.toNat) (hLen : payloads.length = shardCount.toNat - 1) :
    (groupPacket shardCount groupId first payloads).shardCount - 2 =
      UInt32.ofNat (payloads.length - 1) := by
  have hSub := toNat_sub_of_two_le hn (k := 2) (by decide)
  have h32 : shardCount.toNat < 2 ^ 32 := shardCount.toNat_lt
  apply UInt32.toNat_inj.mp
  rw [show (groupPacket shardCount groupId first payloads).shardCount = shardCount from rfl, hSub,
    UInt32.toNat_ofNat_of_lt' (by simp only [UInt32.size]; omega), hLen]
  simp only [UInt32.reduceToNat]
  omega

/-- Single-loss recovery from a group's parity packet: the missing payload
zero-padded to the group's longest, cut to its length as a `u32`. -/
theorem tryRecover_groupPacket (c : FecCache) (groupId first : UInt64)
    (hn : 2 ≤ shardCount.toNat) (hLen : payloads.length = shardCount.toNat - 1)
    {j : Nat} (hj : j < payloads.length)
    (hPresent : ∀ i < payloads.length, i ≠ j →
      c.packets.get (first + UInt64.ofNat i) = payloads[i]?)
    (hMissing : c.packets.get (first + UInt64.ofNat j) = none) :
    c.tryRecover (groupPacket shardCount groupId first payloads) =
      some ((pad (maxLength payloads) payloads[j]).take
        (UInt32.ofNat payloads[j].length).toNat) := by
  have hLength : (groupPacket shardCount groupId first payloads).shardLengths[j]? =
      some (UInt32.ofNat payloads[j].length) := by
    simp [groupPacket, hj]
  have hParity : xorParity payloads (maxLength payloads) =
      payloads.foldl xorInto (List.replicate (maxLength payloads) 0) :=
    xorParity_eq_foldl fun p hp => length_le_maxLength hp
  have hSplit : payloads = payloads.take j ++ payloads[j] :: payloads.drop (j + 1) := by
    rw [List.getElem_cons_drop, List.take_append_drop]
  rw [FecCache.tryRecover_of_one_missing c _ payloads hj
    (toNat_groupPacket_shardCount_sub_one groupId first hn hLen)
    (groupPacket_shardCount_sub_two groupId first hn hLen) hPresent hMissing hLength]
  congr 2
  calc (payloads.take j ++ payloads.drop (j + 1)).foldl xorInto
        (xorParity payloads (maxLength payloads))
      = (payloads.take j ++ payloads.drop (j + 1)).foldl xorInto
          ((payloads.take j ++ payloads[j] :: payloads.drop (j + 1)).foldl xorInto
            (List.replicate (maxLength payloads) 0)) := by rw [hParity, ← hSplit]
    _ = pad (maxLength payloads) payloads[j] := foldl_xorInto_recover _ _ _ _

/-- Every group whose payloads are shorter than `2^32` bytes is recovered by
its own parity packet. -/
theorem recoversGroup_groupPacket (groupId first : UInt64)
    (hn : 2 ≤ shardCount.toNat) (hLen : payloads.length = shardCount.toNat - 1)
    (hShort : ∀ p ∈ payloads, p.length < 2 ^ 32) :
    RecoversGroup (groupPacket shardCount groupId first payloads) first payloads := by
  have hShards := toNat_groupPacket_shardCount_sub_one groupId first hn hLen
  refine ⟨fun c j hj hPresent hMissing => ?_, fun c hPresent => ?_,
    fun c i₁ i₂ h₁ h₂ hNe hMissing₁ hMissing₂ => ?_⟩
  · have hFits : (UInt32.ofNat payloads[j].length).toNat = payloads[j].length :=
      UInt32.toNat_ofNat_of_lt' (hShort _ (List.getElem_mem hj))
    rw [tryRecover_groupPacket c groupId first hn hLen hj hPresent hMissing, hFits,
      take_pad (length_le_maxLength (List.getElem_mem hj)), List.getElem?_eq_getElem hj]
  · apply FecCache.tryRecover_of_all_present
    intro i hi
    rw [hShards] at hi
    simp [groupPacket, hPresent i hi, hi]
  · rw [← hShards] at h₁ h₂
    exact FecCache.tryRecover_of_two_missing c _ h₁ h₂ hNe hMissing₁ hMissing₂

end Group

/-- XOR-FEC end to end: a builder from `FecBuilder::new n` fed whole groups of
`n - 1` payloads under consecutive ids that do not pass `u64::MAX` emits, at
the last push of the `k`-th group and only there, the parity packet of group
id `k` over that group's payloads alone; the client recovers any single loss
of the group from it, and a debug build's `try_recover` returns the same
without panicking. -/
theorem fec_groups_recover (n : UInt32) (hn : 2 ≤ n.toNat)
    (groups : List (UInt64 × List (List UInt8)))
    (hSizes : ∀ g ∈ groups, g.2.length = n.toNat - 1)
    (hIds : ∀ g ∈ groups, g.1.toNat + (n.toNat - 2) < 2 ^ 64)
    (hShort : ∀ g ∈ groups, ∀ p ∈ g.2, p.length < 2 ^ 32) :
    ∃ b, FecBuilder.new n = .ok b ∧
      (b.pushAll (groups.flatMap fun g => groupInput g.1 g.2)).2 =
        (groups.mapIdx fun k g => List.replicate (n.toNat - 2) none ++
          [some (groupPacket n (UInt64.ofNat k) g.1 g.2)]).flatten ∧
      ∀ k g, groups[k]? = some g →
        RecoversGroup (groupPacket n (UInt64.ofNat k) g.1 g.2) g.1 g.2 ∧
        ∀ c : FecCache, c.tryRecoverChecked (groupPacket n (UInt64.ofNat k) g.1 g.2) =
          .ok (c.tryRecover (groupPacket n (UInt64.ofNat k) g.1 g.2)) := by
  obtain ⟨b, hNew, hFresh, hCount, hGroup⟩ := FecBuilder.new_eq_ok hn
  refine ⟨b, hNew, ?_, fun k g hg => ?_⟩
  · rw [pushAll_groups b hFresh groups (hCount ▸ hSizes)]
    simp [hCount, hGroup]
  · have hMem := List.mem_of_getElem? hg
    exact ⟨recoversGroup_groupPacket _ _ hn (hSizes g hMem) (hShort g hMem),
      fun c => FecCache.tryRecoverChecked_of_fits c _ hn (hIds g hMem)⟩

theorem fec_groups_recover_two_groups :
    2 ≤ (3 : UInt32).toNat ∧
      ∃ b, FecBuilder.new 3 = .ok b ∧
        (b.pushAll ([(5, [[1, 2], [3]]), (9, [[], [4]])].flatMap fun g => groupInput g.1 g.2)).2 =
          ([((5 : UInt64), [[(1 : UInt8), 2], [3]]), (9, [[], [4]])].mapIdx fun k g =>
            List.replicate ((3 : UInt32).toNat - 2) none ++
              [some (groupPacket 3 (UInt64.ofNat k) g.1 g.2)]).flatten ∧
        ∀ k g, [((5 : UInt64), [[(1 : UInt8), 2], [3]]), (9, [[], [4]])][k]? = some g →
          RecoversGroup (groupPacket 3 (UInt64.ofNat k) g.1 g.2) g.1 g.2 ∧
          ∀ c : FecCache, c.tryRecoverChecked (groupPacket 3 (UInt64.ofNat k) g.1 g.2) =
            .ok (c.tryRecover (groupPacket 3 (UInt64.ofNat k) g.1 g.2)) :=
  ⟨by decide, fec_groups_recover 3 (by decide) _ (by decide) (by decide) (by decide)⟩

/-- A payload of `2^32` bytes: its length is recorded as `0u32`, and the
recovered payload is cut to nothing. -/
theorem fec_recover_four_gib_payload :
    ∃ b q, FecBuilder.new 3 = .ok b ∧
      (b.pushAll (groupInput 0 [List.replicate (2 ^ 32) 0, []])).2 = [none, some q] ∧
      (FecCache.new.insert 1 []).tryRecover q = some [] ∧
      ([] : List UInt8) ≠ List.replicate (2 ^ 32) 0 := by
  obtain ⟨b, hNew, hFresh, hCount, -⟩ := FecBuilder.new_eq_ok (show 2 ≤ (3 : UInt32).toNat by decide)
  have hTwo : 2 ≤ b.shardCount.toNat := by rw [hCount]; decide
  have hLen : [List.replicate (2 ^ 32) (0 : UInt8), []].length = b.shardCount.toNat - 1 := by
    rw [hCount]; rfl
  have hSmall : FecCache.new.packets.size < maxFecCache := by decide
  have hPresent : ∀ i < 2, i ≠ 0 → (FecCache.new.insert 1 []).packets.get (0 + UInt64.ofNat i) =
      [List.replicate (2 ^ 32) (0 : UInt8), []][i]? := by
    intro i hi hNe
    obtain rfl : i = 1 := by omega
    rw [FecCache.get_insert_of_lt _ _ _ hSmall]
    simp only [List.getElem?_cons_succ, List.getElem?_cons_zero]
    rfl
  have hMissing : (FecCache.new.insert 1 []).packets.get (0 + UInt64.ofNat 0) = none := by
    rw [FecCache.get_insert_of_lt _ _ _ hSmall]
    rfl
  refine ⟨b, groupPacket b.shardCount b.groupId 0 [List.replicate (2 ^ 32) 0, []], hNew, ?_, ?_, ?_⟩
  · rw [pushAll_group b hFresh 0 _ hLen]
    simp only [List.length_cons, List.length_nil]
    rfl
  · rw [tryRecover_groupPacket (FecCache.new.insert 1 []) b.groupId 0 hTwo hLen Nat.zero_lt_two
      hPresent hMissing, List.getElem_cons_zero, List.length_replicate, UInt32.toNat_ofNat',
      Nat.mod_self, List.take_zero]
  · intro h
    have hLength := congrArg List.length h
    rw [List.length_replicate] at hLength
    cases hLength

end Wavry.Client
