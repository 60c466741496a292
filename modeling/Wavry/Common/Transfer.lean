import Mathlib
import Wavry.Common.FileTransfer

/-! A transfer from an `OutgoingFile` to an `IncomingFile`, driven as the
tests of `file_transfer.rs` drive one: the sender's chunks go onto a wire that
may lose, reorder or repeat them, and the sender may be sent back to the
receiver's first missing chunk. Over every such run no call fails, the
receiver's count is the number of distinct chunks written, it is complete
exactly when every chunk has been written, and then its part file is the
file. -/
namespace Wavry.Common

open Chunks Saturating

/-- An offer that describes the file `F`: its size, a chunk size, and the
number of pieces that size cuts `F` into. -/
structure Describes (offer : FileOffer) (F : List UInt8) : Prop where
  fileSize : offer.fileSize.toNat = F.length
  chunkSize_pos : 0 < offer.chunkSize.toNat
  totalChunks : offer.totalChunks.toNat = divCeil F.length offer.chunkSize.toNat

/-- A chunk the sender may put on the wire: the piece of `F` at its index. -/
structure IsChunkOf (offer : FileOffer) (F : List UInt8) (c : FileChunkData) : Prop where
  fileId : c.fileId = offer.fileId
  index_lt : c.chunkIndex.toNat < offer.totalChunks.toNat
  payload : c.payload = chunkAt F offer.chunkSize.toNat c.chunkIndex.toNat

/-- The sender reading `F`, its cursor at most the number of chunks. -/
structure Sending (offer : FileOffer) (F : List UInt8) (s : OutgoingFile) : Prop where
  offer_eq : s.offer = offer
  file_eq : s.file = F
  cursor_le : s.nextChunkIndex.toNat ≤ offer.totalChunks.toNat

/-- The receiver after the chunks at the indices `written` have been written:
a chunk is flagged exactly when it was written, the count is the number of
distinct ones, and the part file holds `F`'s bytes in every written chunk. -/
structure Receiving (offer : FileOffer) (F : List UInt8) (written : List Nat)
    (f : IncomingFile) : Prop where
  offer_eq : f.offer = offer
  written_lt : ∀ i ∈ written, i < offer.totalChunks.toNat
  received : ∀ i < offer.totalChunks.toNat, f.received[i]? = some (decide (i ∈ written))
  count : f.receivedCount.toNat = written.toFinset.card
  file_length : f.file.length = F.length
  file : ∀ j, j / offer.chunkSize.toNat ∈ written → f.file[j]? = F[j]?

/-- The offer `from_path` builds for `F`, once the receiver has accepted it,
describes `F`. -/
theorem describes_of_fromPath {digest : List UInt8 → Vector UInt8 32} {path : List Char}
    {F : List UInt8} {fileId chunkSize maxFileBytes : UInt64} {sender : OutgoingFile}
    (hSize : F.length ≤ maxFileBytes.toNat)
    (hSender : OutgoingFile.fromPath digest path F fileId chunkSize maxFileBytes = .ok sender)
    (hValid : OfferValid sender.offer maxFileBytes) : Describes sender.offer F := by
  obtain ⟨-, -, -, _, _, -, -, rfl⟩ := OutgoingFile.fromPath_eq_ok hSender
  have hLength : (UInt64.ofNat F.length).toNat = F.length :=
    UInt64.toNat_ofNat_of_lt' (Nat.lt_of_le_of_lt hSize maxFileBytes.toNat_lt)
  obtain ⟨hCount, -⟩ := chunkCount_eq_ok hValid.totalChunks
  refine ⟨hLength, ?_, ?_⟩
  · exact Nat.pos_of_ne_zero fun h => hValid.chunkSize (UInt32.toNat_inj.mp h)
  · rw [hCount, hLength, UInt32.toNat_toUInt64]

section Geometry

variable {offer : FileOffer} {F : List UInt8}

/-- Every chunk starts inside the file. -/
theorem Describes.mul_lt (hD : Describes offer F) {i : Nat} (hi : i < offer.totalChunks.toNat) :
    i * offer.chunkSize.toNat < F.length :=
  mul_lt_of_lt_divCeil hD.chunkSize_pos (hD.totalChunks ▸ hi)

/-- The piece of `F` at an index is as long as `expected_chunk_len` says. -/
theorem Describes.length_chunkAt (hD : Describes offer F) (i : Nat) :
    (chunkAt F offer.chunkSize.toNat i).length =
      min (offer.fileSize.toNat - i * offer.chunkSize.toNat) offer.chunkSize.toNat := by
  rw [Chunks.length_chunkAt, hD.fileSize, Nat.min_comm]

end Geometry

section Sender

variable {offer : FileOffer} {F : List UInt8} {s : OutgoingFile}

/-- With the cursor before the last chunk, `next_chunk` returns the piece of
`F` at the cursor and moves it on by one. -/
theorem Sending.nextChunk_of_lt (hD : Describes offer F) (h : Sending offer F s)
    (hLt : s.nextChunkIndex.toNat < offer.totalChunks.toNat) :
    ∃ s', s.nextChunk = .ok (s', some ⟨offer.fileId, s.nextChunkIndex,
        chunkAt F offer.chunkSize.toNat s.nextChunkIndex.toNat⟩) ∧
      Sending offer F s' ∧ s'.nextChunkIndex.toNat = s.nextChunkIndex.toNat + 1 := by
  have hNext := OutgoingFile.nextChunk_of_lt (h.offer_eq ▸ hLt) (h.offer_eq ▸ hD.chunkSize_pos)
    (h.offer_eq ▸ hD.fileSize ▸ hD.mul_lt hLt) (by rw [h.file_eq, h.offer_eq, hD.fileSize])
  rw [h.offer_eq, h.file_eq] at hNext
  have hCursor := toNat_saturatingAdd32_one hLt
  exact ⟨_, hNext, ⟨rfl, rfl, by simp only [hCursor]; omega⟩, hCursor⟩

/-- `next_chunk` never fails, and whatever it returns is a chunk of `F`. -/
theorem Sending.nextChunk (hD : Describes offer F) (h : Sending offer F s) :
    ∃ s' chunk, s.nextChunk = .ok (s', chunk) ∧ Sending offer F s' ∧
      ∀ c ∈ chunk.toList, IsChunkOf offer F c := by
  by_cases hFinished : s.finished = true
  · exact ⟨s, none, OutgoingFile.nextChunk_of_finished hFinished, h, by simp⟩
  · have hLt : s.nextChunkIndex.toNat < offer.totalChunks.toNat := by
      have := UInt32.not_le.mp (by simpa [OutgoingFile.finished] using hFinished)
      rw [← h.offer_eq]
      exact UInt32.lt_iff_toNat_lt.mp this
    obtain ⟨s', hNext, hSending, -⟩ := h.nextChunk_of_lt hD hLt
    refine ⟨s', _, hNext, hSending, fun c hc => ?_⟩
    simp only [Option.toList_some, List.mem_singleton] at hc
    subst hc
    exact ⟨rfl, hLt, rfl⟩

/-- Sending the sender back to an index up to the number of chunks never fails. -/
theorem Sending.setNextChunk (h : Sending offer F s) {chunkIndex : UInt32}
    (hLe : chunkIndex.toNat ≤ offer.totalChunks.toNat) :
    ∃ s', s.setNextChunk chunkIndex = .ok s' ∧ Sending offer F s' :=
  ⟨_, OutgoingFile.setNextChunk_of_le (h.offer_eq ▸ hLe), ⟨h.offer_eq, h.file_eq, hLe⟩⟩

end Sender

section Receiver

variable {offer : FileOffer} {F : List UInt8} {written : List Nat} {f : IncomingFile}

theorem receiving_new {maxFileBytes : UInt64} (hD : Describes offer F)
    (hNew : IncomingFile.new offer maxFileBytes = .ok f) : Receiving offer F [] f := by
  obtain ⟨-, hOffer, -, hFile, hReceived, hCount⟩ := IncomingFile.new_eq_ok hNew
  refine ⟨hOffer, by simp, fun i hi => ?_, by simp [hCount], ?_, by simp⟩
  · simp [hReceived, hi]
  · rw [hFile, List.length_replicate, hD.fileSize]

/-- Fewer chunks written than there are, while one is still missing. -/
theorem Receiving.card_lt (h : Receiving offer F written f) {i : Nat}
    (hi : i < offer.totalChunks.toNat) (hNew : i ∉ written) :
    written.toFinset.card < offer.totalChunks.toNat := by
  have hSub : written.toFinset ⊆ (Finset.range offer.totalChunks.toNat).erase i := by
    intro k hk
    rw [List.mem_toFinset] at hk
    exact Finset.mem_erase.mpr
      ⟨fun hEq => hNew (hEq ▸ hk), Finset.mem_range.mpr (h.written_lt k hk)⟩
  calc written.toFinset.card ≤ ((Finset.range offer.totalChunks.toNat).erase i).card :=
        Finset.card_le_card hSub
    _ < offer.totalChunks.toNat := by
        rw [Finset.card_erase_of_mem (Finset.mem_range.mpr hi), Finset.card_range]
        omega

/-- A chunk written again changes nothing. -/
theorem Receiving.rewrite (h : Receiving offer F written f) {i : Nat} (hSeen : i ∈ written) :
    Receiving offer F (i :: written) f := by
  refine ⟨h.offer_eq, fun k hk => ?_, fun k hk => ?_, ?_, h.file_length, fun j hj => ?_⟩
  · rcases List.mem_cons.mp hk with rfl | hk
    exacts [h.written_lt k hSeen, h.written_lt k hk]
  · rw [h.received k hk]
    by_cases hki : k = i
    · subst hki
      simp [hSeen]
    · simp [hki]
  · rw [h.count, List.toFinset_cons, Finset.insert_eq_of_mem (List.mem_toFinset.mpr hSeen)]
  · rcases List.mem_cons.mp hj with hEq | hj
    exacts [h.file j (hEq ▸ hSeen), h.file j hj]

/-- Writing a chunk of `F` never fails and keeps the receiver describing
what has been written. -/
theorem Receiving.writeChunk (hD : Describes offer F) (h : Receiving offer F written f)
    {c : FileChunkData} (hc : IsChunkOf offer F c) :
    ∃ f' complete, f.writeChunk c.chunkIndex c.payload = .ok (f', complete) ∧
      Receiving offer F (c.chunkIndex.toNat :: written) f' := by
  have hIdx : c.chunkIndex.toNat < f.offer.totalChunks.toNat := h.offer_eq ▸ hc.index_lt
  have hLen : c.payload.length = min (f.offer.fileSize.toNat -
      c.chunkIndex.toNat * f.offer.chunkSize.toNat) f.offer.chunkSize.toNat := by
    rw [hc.payload, hD.length_chunkAt, h.offer_eq]
  have hFlag := h.received _ hc.index_lt
  by_cases hSeen : c.chunkIndex.toNat ∈ written
  · refine ⟨f, _, f.writeChunk_of_received hIdx hLen (by simpa [hSeen] using hFlag),
      h.rewrite hSeen⟩
  · obtain ⟨f', hWrite, hOffer, -, hFile, hReceived, hCount⟩ :=
      f.writeChunk_of_not_received hIdx hLen (by simpa [hSeen] using hFlag)
    have hCountLt : f.receivedCount.toNat < offer.totalChunks.toNat :=
      h.count ▸ h.card_lt hc.index_lt hSeen
    have hIn := hD.mul_lt hc.index_lt
    refine ⟨f', _, hWrite, ⟨hOffer.trans h.offer_eq, fun k hk => ?_, fun k hk => ?_, ?_, ?_,
      fun j hj => ?_⟩⟩
    · rcases List.mem_cons.mp hk with rfl | hk
      exacts [hc.index_lt, h.written_lt k hk]
    · rw [hReceived, List.getElem?_set, h.received k hk]
      by_cases hki : c.chunkIndex.toNat = k
      · subst hki
        simp [f.received_length, hIdx]
      · simp [hki, Ne.symm hki]
    · rw [hCount, toNat_saturatingAdd32_one hCountLt, h.count, List.toFinset_cons,
        Finset.card_insert_of_notMem (by simpa using hSeen)]
    · rw [hFile, h.offer_eq, length_writeAt_of_le, h.file_length]
      rw [hc.payload, hD.length_chunkAt, h.file_length, hD.fileSize]
      omega
    · rw [hFile, h.offer_eq, hc.payload,
        getElem?_writeAt_chunkAt hD.chunkSize_pos h.file_length hIn]
      split_ifs with hChunk
      · rfl
      · rcases List.mem_cons.mp hj with hEq | hj
        exacts [absurd hEq hChunk, h.file j hj]

/-- The receiver is complete exactly when every chunk has been written. -/
theorem Receiving.isComplete_iff (h : Receiving offer F written f) :
    f.isComplete = true ↔ ∀ i < offer.totalChunks.toNat, i ∈ written := by
  have hSub : written.toFinset ⊆ Finset.range offer.totalChunks.toNat := fun k hk =>
    Finset.mem_range.mpr (h.written_lt k (List.mem_toFinset.mp hk))
  have hCount : f.isComplete = true ↔ written.toFinset.card = offer.totalChunks.toNat := by
    simp only [IncomingFile.isComplete, beq_iff_eq, ← UInt32.toNat_inj, h.count, h.offer_eq]
  rw [hCount]
  constructor
  · intro hCard i hi
    have hEq := Finset.eq_of_subset_of_card_le hSub (by rw [Finset.card_range, hCard])
    exact List.mem_toFinset.mp (hEq ▸ Finset.mem_range.mpr hi)
  · intro hAll
    have hEq : written.toFinset = Finset.range offer.totalChunks.toNat :=
      Finset.Subset.antisymm hSub fun i hi =>
        List.mem_toFinset.mpr (hAll i (Finset.mem_range.mp hi))
    rw [hEq, Finset.card_range]

/-- Once every chunk has been written the part file is `F`. -/
theorem Receiving.file_eq (hD : Describes offer F) (h : Receiving offer F written f)
    (hAll : ∀ i < offer.totalChunks.toNat, i ∈ written) : f.file = F := by
  apply List.ext_getElem?
  intro j
  by_cases hj : j < F.length
  · exact h.file j (hAll _ (hD.totalChunks ▸ div_lt_divCeil hD.chunkSize_pos hj))
  · rw [List.getElem?_eq_none (by rw [h.file_length]; omega), List.getElem?_eq_none (by omega)]

end Receiver

/-- What the harness does next: take a chunk from the sender, give the
receiver one put on the wire, or send the sender back. -/
inductive TransferEvent where
  /-- `next_chunk` on the sender; a chunk it returns goes onto the wire -/
  | send
  /-- `write_chunk` with the `k`-th chunk put on the wire, if there is one -/
  | deliver (k : Nat)
  /-- `set_next_chunk(next_missing_chunk())` -/
  | resume
  deriving DecidableEq, Repr

structure Transfer where
  sender : OutgoingFile
  receiver : IncomingFile
  /-- Every chunk the sender has returned, in order. -/
  wire : List FileChunkData
  /-- The indices of the chunks given to the receiver, latest first. -/
  written : List Nat

namespace Transfer

def start (sender : OutgoingFile) (receiver : IncomingFile) : Transfer := ⟨sender, receiver, [], []⟩

def step (t : Transfer) : TransferEvent → Except FileTransferError Transfer
  | .send =>
      match t.sender.nextChunk with
      | .error e => .error e
      | .ok (sender, chunk) => .ok { t with sender, wire := t.wire ++ chunk.toList }
  | .deliver k =>
      match t.wire[k]? with
      | none => .ok t
      | some c =>
          match t.receiver.writeChunk c.chunkIndex c.payload with
          | .error e => .error e
          | .ok (receiver, _) =>
              .ok { t with receiver, written := c.chunkIndex.toNat :: t.written }
  | .resume =>
      match t.sender.setNextChunk t.receiver.nextMissingChunk with
      | .error e => .error e
      | .ok sender => .ok { t with sender }

/-- The events in order; the first failing call ends the run. -/
def run (t : Transfer) : List TransferEvent → Except FileTransferError Transfer
  | [] => .ok t
  | e :: es =>
      match t.step e with
      | .error err => .error err
      | .ok t' => t'.run es

/-- Both sides working on `F`, with only chunks of `F` on the wire. -/
structure Inv (offer : FileOffer) (F : List UInt8) (t : Transfer) : Prop where
  sender : Sending offer F t.sender
  receiver : Receiving offer F t.written t.receiver
  wire : ∀ c ∈ t.wire, IsChunkOf offer F c

variable {offer : FileOffer} {F : List UInt8} {t : Transfer}

theorem Inv.step (hD : Describes offer F) (h : t.Inv offer F) (e : TransferEvent) :
    ∃ t', t.step e = .ok t' ∧ t'.Inv offer F := by
  cases e with
  | send =>
      obtain ⟨sender, chunk, hNext, hSending, hChunk⟩ := h.sender.nextChunk hD
      refine ⟨{ t with sender, wire := t.wire ++ chunk.toList }, by simp [Transfer.step, hNext],
        ⟨hSending, h.receiver, fun c hc => ?_⟩⟩
      rcases List.mem_append.mp hc with hc | hc
      exacts [h.wire c hc, hChunk c hc]
  | deliver k =>
      cases hWire : t.wire[k]? with
      | none => exact ⟨t, by simp [Transfer.step, hWire], h⟩
      | some c =>
          obtain ⟨receiver, complete, hWrite, hReceiving⟩ :=
            h.receiver.writeChunk hD (h.wire c (List.mem_of_getElem? hWire))
          exact ⟨{ t with receiver, written := c.chunkIndex.toNat :: t.written },
            by simp [Transfer.step, hWire, hWrite], ⟨h.sender, hReceiving, h.wire⟩⟩
  | resume =>
      have hLe := t.receiver.toNat_nextMissingChunk_le
      rw [h.receiver.offer_eq] at hLe
      obtain ⟨sender, hSet, hSending⟩ := h.sender.setNextChunk hLe
      exact ⟨{ t with sender }, by simp [Transfer.step, hSet],
        ⟨hSending, h.receiver, h.wire⟩⟩

/-- No run fails, and every run keeps the invariant. -/
theorem Inv.run (hD : Describes offer F) (h : t.Inv offer F) (events : List TransferEvent) :
    ∃ t', t.run events = .ok t' ∧ t'.Inv offer F := by
  induction events generalizing t with
  | nil => exact ⟨t, rfl, h⟩
  | cons e es ih =>
      obtain ⟨t', hStep, hInv⟩ := h.step hD e
      obtain ⟨t'', hRun, hInv'⟩ := ih hInv
      exact ⟨t'', by simp [Transfer.run, hStep, hRun], hInv'⟩

/-- From the cursor at `k`, `m` sends that stay within the file put the
pieces at `k, …, k + m - 1` on the wire, in order. -/
theorem Inv.run_sends (hD : Describes offer F) (h : t.Inv offer F) {k m : Nat}
    (hCursor : t.sender.nextChunkIndex.toNat = k) (hkm : k + m ≤ offer.totalChunks.toNat) :
    ∃ t', t.run (List.replicate m .send) = .ok t' ∧
      t'.wire = t.wire ++ ((List.range' k m).map fun i =>
        ⟨offer.fileId, UInt32.ofNat i, chunkAt F offer.chunkSize.toNat i⟩) ∧ t'.Inv offer F := by
  induction m generalizing t k with
  | zero => exact ⟨t, rfl, by simp, h⟩
  | succ m ih =>
      have hLt : t.sender.nextChunkIndex.toNat < offer.totalChunks.toNat := by omega
      obtain ⟨sender, hNext, hSending, hNextCursor⟩ := h.sender.nextChunk_of_lt hD hLt
      let t₁ : Transfer :=
        { t with sender, wire := t.wire ++ [⟨offer.fileId, t.sender.nextChunkIndex,
          chunkAt F offer.chunkSize.toNat t.sender.nextChunkIndex.toNat⟩] }
      have hStep : t.step .send = .ok t₁ := by simp [Transfer.step, hNext, t₁]
      have hInv₁ : t₁.Inv offer F := by
        refine ⟨hSending, h.receiver, fun c hc => ?_⟩
        rcases List.mem_append.mp hc with hc | hc
        · exact h.wire c hc
        · rw [List.mem_singleton] at hc
          subst hc
          exact ⟨rfl, hLt, rfl⟩
      obtain ⟨t', hRun, hWire, hInv'⟩ :=
        ih hInv₁ (k := k + 1) (by simp [t₁, hNextCursor, hCursor]) (by omega)
      refine ⟨t', by simp [List.replicate_succ, Transfer.run, hStep, hRun], ?_, hInv'⟩
      rw [hWire, List.range'_succ]
      simp [t₁, ← hCursor]

/-- A step only appends to the wire and only adds to what was written. -/
theorem step_keeps {t' : Transfer} {e : TransferEvent} (h : t.step e = .ok t') :
    t.wire <+: t'.wire ∧ t.written ⊆ t'.written := by
  cases e with
  | send =>
      simp only [Transfer.step] at h
      split at h
      · cases h
      · cases h
        exact ⟨List.prefix_append _ _, List.Subset.refl _⟩
  | deliver k =>
      simp only [Transfer.step] at h
      split at h
      · cases h
        exact ⟨List.prefix_refl _, List.Subset.refl _⟩
      · split at h
        · cases h
        · cases h
          exact ⟨List.prefix_refl _, List.subset_cons_self _ _⟩
  | resume =>
      simp only [Transfer.step] at h
      split at h
      · cases h
      · cases h
        exact ⟨List.prefix_refl _, List.Subset.refl _⟩

theorem run_cons_eq_ok {t' : Transfer} {e : TransferEvent} {es : List TransferEvent}
    (h : t.run (e :: es) = .ok t') : ∃ t₁, t.step e = .ok t₁ ∧ t₁.run es = .ok t' := by
  simp only [Transfer.run] at h
  split at h
  · cases h
  · next t₁ hStep => exact ⟨t₁, hStep, h⟩

/-- A run only appends to the wire and only adds to what was written. -/
theorem run_keeps {t' : Transfer} {es : List TransferEvent} (h : t.run es = .ok t') :
    t.wire <+: t'.wire ∧ t.written ⊆ t'.written := by
  induction es generalizing t with
  | nil =>
      cases h
      exact ⟨List.prefix_refl _, List.Subset.refl _⟩
  | cons e es ih =>
      obtain ⟨t₁, hStep, hRun⟩ := run_cons_eq_ok h
      obtain ⟨hWire, hWritten⟩ := step_keeps hStep
      obtain ⟨hWire', hWritten'⟩ := ih hRun
      exact ⟨hWire.trans hWire', List.Subset.trans hWritten hWritten'⟩

theorem run_append_of_ok {t₁ : Transfer} {es : List TransferEvent} (h : t.run es = .ok t₁)
    (more : List TransferEvent) : t.run (es ++ more) = t₁.run more := by
  induction es generalizing t with
  | nil =>
      cases h
      rfl
  | cons e es ih =>
      obtain ⟨t₂, hStep, hRun⟩ := run_cons_eq_ok h
      simp only [List.cons_append, Transfer.run, hStep]
      exact ih hRun

/-- Delivering the `k`-th chunk on the wire anywhere in a run leaves its
index written at the end of the run. -/
theorem run_delivers {t' : Transfer} {es : List TransferEvent} (h : t.run es = .ok t') {k : Nat}
    (hk : .deliver k ∈ es) {c : FileChunkData} (hc : t.wire[k]? = some c) :
    c.chunkIndex.toNat ∈ t'.written := by
  induction es generalizing t with
  | nil => cases hk
  | cons e es ih =>
      obtain ⟨t₁, hStep, hRun⟩ := run_cons_eq_ok h
      rcases List.mem_cons.mp hk with rfl | hk
      · have hWritten : c.chunkIndex.toNat ∈ t₁.written := by
          simp only [Transfer.step, hc] at hStep
          split at hStep
          · cases hStep
          · cases hStep
            exact List.mem_cons_self
        exact (run_keeps hRun).2 hWritten
      · obtain ⟨rest, hPrefix⟩ := (step_keeps hStep).1
        refine ih hRun hk ?_
        rw [← hPrefix, List.getElem?_append_left (List.getElem?_eq_some_iff.mp hc).1]
        exact hc

end Transfer

section RoundTrip

variable {digest : List UInt8 → Vector UInt8 32} {path : List Char} {F : List UInt8}
  {fileId chunkSize maxFileBytes : UInt64} {sender : OutgoingFile} {receiver : IncomingFile}

/-- A sender from `from_path` and a receiver that accepted its offer start a
transfer in the invariant. -/
theorem Transfer.inv_start (hSize : F.length ≤ maxFileBytes.toNat)
    (hSender : OutgoingFile.fromPath digest path F fileId chunkSize maxFileBytes = .ok sender)
    (hReceiver : IncomingFile.new sender.offer maxFileBytes = .ok receiver) :
    Describes sender.offer F ∧ (Transfer.start sender receiver).Inv sender.offer F := by
  have hD := describes_of_fromPath hSize hSender (IncomingFile.new_eq_ok hReceiver).1
  obtain ⟨hFile, hCursor, -⟩ := OutgoingFile.fromPath_fresh hSender
  exact ⟨hD, ⟨rfl, hFile, by simp [Transfer.start, hCursor]⟩, receiving_new hD hReceiver,
    by simp [Transfer.start]⟩

/-- The sender alone reads out the whole file: from the start, one send for
each chunk puts on the wire the pieces `slice::chunks` cuts the file into,
the `k`-th under index `k`. -/
theorem transfer_sends_file (hSize : F.length ≤ maxFileBytes.toNat)
    (hSender : OutgoingFile.fromPath digest path F fileId chunkSize maxFileBytes = .ok sender)
    (hReceiver : IncomingFile.new sender.offer maxFileBytes = .ok receiver) :
    ∃ t, (Transfer.start sender receiver).run
        (List.replicate sender.offer.totalChunks.toNat .send) = .ok t ∧ t.Inv sender.offer F ∧
      t.wire.map FileChunkData.payload = chunks F sender.offer.chunkSize.toNat ∧
      ∀ k < sender.offer.totalChunks.toNat, ∃ c, t.wire[k]? = some c ∧ c.chunkIndex.toNat = k := by
  obtain ⟨hD, hStart⟩ := Transfer.inv_start hSize hSender hReceiver
  have hCursor := (OutgoingFile.fromPath_fresh hSender).2.1
  obtain ⟨t, hRun, hWire, hInv⟩ := hStart.run_sends hD (k := 0)
    (m := sender.offer.totalChunks.toNat) (by simp [Transfer.start, hCursor]) (by omega)
  have hPayloads : t.wire.map FileChunkData.payload = chunks F sender.offer.chunkSize.toNat := by
    rw [hWire, chunks_eq_map_range hD.chunkSize_pos, ← hD.totalChunks, List.range_eq_range']
    simp [Transfer.start, Function.comp_def]
  refine ⟨t, hRun, hInv, hPayloads, fun k hk =>
    ⟨⟨sender.offer.fileId, UInt32.ofNat k, chunkAt F sender.offer.chunkSize.toNat k⟩, ?_, ?_⟩⟩
  · simp [hWire, Transfer.start, List.getElem?_range' hk]
  · have hBound := sender.offer.totalChunks.toNat_lt
    exact UInt32.toNat_ofNat_of_lt' (by simp only [UInt32.size]; omega)

/-- A transfer from `from_path` to a receiver that accepted its offer:
whatever the wire does and however often the sender is sent back, every call
succeeds, the receiver counts the distinct chunks written, it is complete
exactly when all have been written, and its part file is then the file.
And once the sender has put each of its chunks on the wire, any events that
deliver every one of them at least once complete the file, which `finalize`
then accepts. -/
theorem transfer_writes_file (digest : List UInt8 → Vector UInt8 32) (path : List Char)
    (F : List UInt8) (fileId chunkSize maxFileBytes : UInt64) (hSize : F.length ≤ maxFileBytes.toNat)
    {sender : OutgoingFile}
    (hSender : OutgoingFile.fromPath digest path F fileId chunkSize maxFileBytes = .ok sender)
    {receiver : IncomingFile} (hReceiver : IncomingFile.new sender.offer maxFileBytes = .ok receiver)
    (events : List TransferEvent) :
    (∃ t, (Transfer.start sender receiver).run events = .ok t ∧
      t.receiver.receivedCount.toNat = t.written.toFinset.card ∧
      (t.receiver.isComplete = true ↔ ∀ i < sender.offer.totalChunks.toNat, i ∈ t.written) ∧
      (t.receiver.isComplete = true → t.receiver.file = F)) ∧
    ((∀ k < sender.offer.totalChunks.toNat, .deliver k ∈ events) →
      ∃ sent t, (Transfer.start sender receiver).run
          (List.replicate sender.offer.totalChunks.toNat .send) = .ok sent ∧
        sent.wire.map FileChunkData.payload = chunks F sender.offer.chunkSize.toNat ∧
        sent.run events = .ok t ∧ t.receiver.isComplete = true ∧ t.receiver.file = F ∧
        t.receiver.finalize digest = .ok t.receiver.finalName) := by
  obtain ⟨hD, hStart⟩ := Transfer.inv_start hSize hSender hReceiver
  refine ⟨?_, fun hDelivered => ?_⟩
  · obtain ⟨t, hRun, hInv⟩ := hStart.run hD events
    exact ⟨t, hRun, hInv.receiver.count, hInv.receiver.isComplete_iff,
      fun hComplete => hInv.receiver.file_eq hD (hInv.receiver.isComplete_iff.mp hComplete)⟩
  · obtain ⟨sent, hSends, hSent, hPayloads, hIndices⟩ := transfer_sends_file hSize hSender hReceiver
    obtain ⟨t, hRun, hInv⟩ := hSent.run hD events
    have hAll : ∀ i < sender.offer.totalChunks.toNat, i ∈ t.written := by
      intro i hi
      obtain ⟨c, hc, hIndex⟩ := hIndices i hi
      exact hIndex ▸ Transfer.run_delivers hRun (hDelivered i hi) hc
    have hComplete := hInv.receiver.isComplete_iff.mpr hAll
    have hFile := hInv.receiver.file_eq hD hAll
    refine ⟨sent, t, hSends, hPayloads, hRun, hComplete, hFile,
      IncomingFile.finalize_of_complete digest hComplete ?_⟩
    rw [hFile, hInv.receiver.offer_eq, (OutgoingFile.fromPath_fresh hSender).2.2]

theorem transfer_writes_file_hello :
    ∃ sender receiver,
      OutgoingFile.fromPath (fun _ => Vector.replicate 32 0)
        ['h', 'e', 'l', 'l', 'o', '.', 't', 'x', 't'] [104, 101, 108, 108, 111, 32, 119, 97, 118, 114, 121]
        42 4 defaultMaxFileBytes = .ok sender ∧
      IncomingFile.new sender.offer defaultMaxFileBytes = .ok receiver ∧
      (∃ t, (Transfer.start sender receiver).run
          [.send, .send, .send, .deliver 2, .deliver 0, .resume, .send, .deliver 3, .deliver 3] = .ok t ∧
        t.receiver.receivedCount.toNat = t.written.toFinset.card ∧
        (t.receiver.isComplete = true ↔ ∀ i < sender.offer.totalChunks.toNat, i ∈ t.written) ∧
        (t.receiver.isComplete = true →
          t.receiver.file = [104, 101, 108, 108, 111, 32, 119, 97, 118, 114, 121])) ∧
      ∃ sent t, (Transfer.start sender receiver).run
          (List.replicate sender.offer.totalChunks.toNat .send) = .ok sent ∧
        sent.wire.map FileChunkData.payload =
          chunks [104, 101, 108, 108, 111, 32, 119, 97, 118, 114, 121] sender.offer.chunkSize.toNat ∧
        sent.run [.deliver 2, .deliver 2, .resume, .send, .deliver 0, .deliver 1] = .ok t ∧
        t.receiver.isComplete = true ∧
        t.receiver.file = [104, 101, 108, 108, 111, 32, 119, 97, 118, 114, 121] ∧
        t.receiver.finalize (fun _ => Vector.replicate 32 0) = .ok t.receiver.finalName := by
  obtain ⟨sender, hSender, hTotal, receiver, hReceiver⟩ : ∃ s, OutgoingFile.fromPath
      (fun _ => Vector.replicate 32 0) ['h', 'e', 'l', 'l', 'o', '.', 't', 'x', 't']
      [104, 101, 108, 108, 111, 32, 119, 97, 118, 114, 121] 42 4 defaultMaxFileBytes = .ok s ∧
      s.offer.totalChunks = 3 ∧ ∃ r, IncomingFile.new s.offer defaultMaxFileBytes = .ok r :=
    ⟨_, rfl, rfl, _, rfl⟩
  have hRound := transfer_writes_file _ _ _ _ _ _ (by decide) hSender hReceiver
  exact ⟨sender, receiver, hSender, hReceiver,
    (hRound [.send, .send, .send, .deliver 2, .deliver 0, .resume, .send, .deliver 3, .deliver 3]).1,
    (hRound [.deliver 2, .deliver 2, .resume, .send, .deliver 0, .deliver 1]).2
      (by rw [hTotal]; decide)⟩

end RoundTrip

end Wavry.Common
