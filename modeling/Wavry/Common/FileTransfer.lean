import Wavry.Lib.Chunks
import Wavry.Lib.Saturating
import Wavry.Lib.Text
import Wavry.Lib.Wire

/-! File transfer between peers (`wavry-common` `file_transfer.rs`). A sender
offers a file and reads it out in chunks of a fixed size; the receiver checks
the offer, keeps a flag for each chunk, and writes each new chunk at its
offset into a part file sized to the file. A file is its contents as bytes
and a path is its text, read as a Unix path; `usize` is 64 bits wide. SHA-256
is a parameter: any function to 32 bytes. -/
namespace Wavry.Common

open Chunks Saturating Text

def defaultMaxFileBytes : UInt64 := 1024 * 1024 * 1024
def defaultChunkSize : UInt64 := 900
def maxFilenameBytes : Nat := 255

structure FileOffer where
  fileId : UInt64
  filename : List Char
  fileSize : UInt64
  checksumSha256 : List Char
  chunkSize : UInt32
  totalChunks : UInt32
  deriving DecidableEq, Repr

structure FileChunkData where
  fileId : UInt64
  chunkIndex : UInt32
  payload : List UInt8
  deriving DecidableEq, Repr

/-- The errors of the modelled functions, one for each message. -/
inductive FileTransferError where
  /-- "file_id must be non-zero" -/
  | fileIdZero
  /-- "chunk_size must be non-zero" -/
  | chunkSizeZero
  /-- "empty files are not supported: (path)" -/
  | emptyFile (path : List Char)
  /-- "file (path) exceeds max size (max) bytes (got (size))" -/
  | exceedsMaxSize (path : List Char) (maxFileBytes fileSize : UInt64)
  /-- "invalid filename: (name)", with the path or the offered name -/
  | invalidFilename (name : List Char)
  /-- "file_size must be non-zero" -/
  | fileSizeZero
  /-- "chunk count exceeds protocol limits" -/
  | chunkCountExceedsLimits
  /-- "invalid filename in offer" -/
  | invalidFilenameInOffer
  /-- "file exceeds configured maximum" -/
  | fileExceedsMaximum
  /-- "total_chunks must be non-zero" -/
  | totalChunksZero
  /-- "invalid total_chunks: expected (expected), got (got)" -/
  | invalidTotalChunks (expected got : UInt32)
  /-- "invalid checksum_sha256" -/
  | invalidChecksum
  /-- "chunk index out of bounds" -/
  | chunkIndexOutOfBounds
  /-- "chunk offset overflow" -/
  | chunkOffsetOverflow
  /-- "chunk index (index) out of range for (total) chunks" -/
  | chunkIndexOutOfRange (chunkIndex totalChunks : UInt32)
  /-- "unexpected payload length for chunk (index): expected (expected), got (got)" -/
  | unexpectedPayloadLength (chunkIndex : UInt32) (expected got : Nat)
  /-- "read failed for (filename)" -/
  | readFailed (filename : List Char)
  /-- "file (filename) is incomplete ((received)/(total))" -/
  | incomplete (filename : List Char) (receivedCount totalChunks : UInt32)
  /-- "checksum mismatch for (filename): expected (expected), got (got)" -/
  | checksumMismatch (filename expected got : List Char)
  deriving DecidableEq, Repr

/-- The characters `sanitize_filename` keeps; any other becomes `_`. -/
def isSafeFilenameChar (ch : Char) : Bool :=
  ch.isAlphanum || ch == '.' || ch == '_' || ch == '-' || ch == ' '

/-- The loop of `sanitize_filename`: push each character, or `_` in its
place, and stop once `clean` holds `MAX_FILENAME_BYTES` bytes. -/
def pushSafe (clean : List Char) : List Char → List Char
  | [] => clean
  | ch :: rest =>
      let clean := clean ++ [if isSafeFilenameChar ch then ch else '_']
      if utf8Len clean ≥ maxFilenameBytes then clean else pushSafe clean rest

/-- `sanitize_filename`. -/
def sanitizeFilename (input : List Char) : Option (List Char) :=
  let trimmed := trim input
  if trimmed.isEmpty then none
  else
    match fileName trimmed with
    | none => none
    | some base =>
        let clean := trimMatches (· == '.') (trim (pushSafe [] base))
        if clean.isEmpty || clean == ['.'] || clean == ['.', '.'] then none else some clean

section Sanitize

theorem isAscii_of_isSafeFilenameChar {c : Char} (h : isSafeFilenameChar c = true) : IsAscii c := by
  simp only [isSafeFilenameChar, Char.isAlphanum, Char.isAlpha, Char.isUpper, Char.isLower,
    Char.isDigit, Bool.or_eq_true, Bool.and_eq_true, decide_eq_true_eq, beq_iff_eq] at h
  rcases h with (((((⟨-, h⟩ | ⟨-, h⟩) | ⟨-, h⟩) | rfl) | rfl) | rfl) | rfl
  all_goals first | decide | exact isAscii_of_val_le h (by decide)

/-- The character pushed in `ch`'s place is safe. -/
theorem isSafeFilenameChar_pushed (ch : Char) :
    isSafeFilenameChar (if isSafeFilenameChar ch then ch else '_') = true := by
  split_ifs with hSafe
  exacts [hSafe, by decide]

/-- Every character `pushSafe` adds is a safe one. -/
theorem mem_pushSafe {acc l : List Char} {c : Char} (h : c ∈ pushSafe acc l) :
    c ∈ acc ∨ isSafeFilenameChar c = true := by
  induction l generalizing acc with
  | nil => exact .inl h
  | cons ch rest ih =>
      have hSafe := isSafeFilenameChar_pushed ch
      unfold pushSafe at h
      dsimp only at h
      generalize (if isSafeFilenameChar ch then ch else '_') = pushed at h hSafe
      have hPushed : ∀ d ∈ acc ++ [pushed], d ∈ acc ∨ isSafeFilenameChar d = true := by
        intro d hd
        rcases List.mem_append.mp hd with hd | hd
        · exact .inl hd
        · exact .inr (List.mem_singleton.mp hd ▸ hSafe)
      split_ifs at h
      · exact hPushed c h
      · rcases ih h with hc | hc
        exacts [hPushed c hc, .inr hc]

theorem length_pushSafe_le (acc l : List Char) : (pushSafe acc l).length ≤ acc.length + l.length := by
  induction l generalizing acc with
  | nil => simp [pushSafe]
  | cons ch rest ih =>
      unfold pushSafe
      dsimp only
      generalize (if isSafeFilenameChar ch then ch else '_') = pushed
      split_ifs
      · simp
      · have := ih (acc ++ [pushed])
        simp only [List.length_append, List.length_cons, List.length_nil] at this ⊢
        omega

/-- Pushing only ASCII, the loop stops at `MAX_FILENAME_BYTES` characters. -/
theorem length_pushSafe_le_max {acc : List Char} (hAcc : ∀ c ∈ acc, IsAscii c)
    (hLt : acc.length < maxFilenameBytes) (l : List Char) :
    (pushSafe acc l).length ≤ maxFilenameBytes := by
  induction l generalizing acc with
  | nil => exact Nat.le_of_lt hLt
  | cons ch rest ih =>
      have hSafe := isSafeFilenameChar_pushed ch
      unfold pushSafe
      dsimp only
      generalize (if isSafeFilenameChar ch then ch else '_') = pushed at hSafe ⊢
      have hAscii : ∀ c ∈ acc ++ [pushed], IsAscii c := by
        intro c hc
        rcases List.mem_append.mp hc with hc | hc
        · exact hAcc c hc
        · exact isAscii_of_isSafeFilenameChar (List.mem_singleton.mp hc ▸ hSafe)
      rw [utf8Len_of_isAscii hAscii]
      split_ifs with hFull
      · simp only [List.length_append, List.length_singleton]
        omega
      · exact ih hAscii (by simpa using hFull)

/-- A name of safe characters within the limit goes through the loop as it is. -/
theorem pushSafe_of_safe {acc l : List Char} (hAcc : ∀ c ∈ acc, IsAscii c)
    (hSafe : ∀ c ∈ l, isSafeFilenameChar c = true) (hLen : acc.length + l.length ≤ maxFilenameBytes) :
    pushSafe acc l = acc ++ l := by
  induction l generalizing acc with
  | nil => simp [pushSafe]
  | cons ch rest ih =>
      have hCh : isSafeFilenameChar ch = true := hSafe ch List.mem_cons_self
      have hAscii : ∀ c ∈ acc ++ [ch], IsAscii c := by
        intro c hc
        rcases List.mem_append.mp hc with hc | hc
        · exact hAcc c hc
        · rw [List.mem_singleton.mp hc]
          exact isAscii_of_isSafeFilenameChar hCh
      unfold pushSafe
      simp only [hCh, if_true]
      rw [utf8Len_of_isAscii hAscii]
      split_ifs with hFull
      · have hRest : rest = [] := by
          simp only [List.length_append, List.length_cons, List.length_nil] at hFull hLen
          exact List.eq_nil_of_length_eq_zero (by omega)
        simp [hRest]
      · rw [ih hAscii (fun c hc => hSafe c (List.mem_cons_of_mem ch hc))
          (by simp only [List.length_append, List.length_cons, List.length_nil] at hLen ⊢; omega)]
        simp

/-- What a successful `sanitize_filename` went through. -/
theorem sanitizeFilename_eq_some {input name : List Char} (h : sanitizeFilename input = some name) :
    ∃ base, fileName (trim input) = some base ∧
      name = trimMatches (· == '.') (trim (pushSafe [] base)) ∧
      name ≠ [] ∧ name ≠ ['.'] ∧ name ≠ ['.', '.'] := by
  unfold sanitizeFilename at h
  dsimp only at h
  split_ifs at h
  split at h
  · cases h
  · next base hBase =>
      split_ifs at h with hBad
      cases h
      simp only [Bool.or_eq_true, List.isEmpty_iff, beq_iff_eq, not_or] at hBad
      exact ⟨base, hBase, rfl, hBad.1.1, hBad.1.2, hBad.2⟩

/-- What `sanitize_filename` returns: safe characters only, at most
`MAX_FILENAME_BYTES` of them, not empty, and no `.` at either end. -/
structure SanitizedName (name : List Char) : Prop where
  safe : ∀ c ∈ name, isSafeFilenameChar c = true
  length_le : name.length ≤ maxFilenameBytes
  ne_nil : name ≠ []
  head : ∀ c ∈ name.head?, (c == '.') = false
  last : ∀ c ∈ name.getLast?, (c == '.') = false

theorem sanitizedName_of_eq_some {input name : List Char} (h : sanitizeFilename input = some name) :
    SanitizedName name := by
  obtain ⟨base, -, rfl, hNil, -, -⟩ := sanitizeFilename_eq_some h
  refine ⟨fun c hc => ?_, ?_, hNil, fun _ => head?_trimMatches, fun _ => getLast?_trimMatches⟩
  · rcases mem_pushSafe (mem_of_mem_trimMatches (mem_of_mem_trimMatches hc)) with hc | hc
    exacts [absurd hc List.not_mem_nil, hc]
  · calc _ ≤ (trim (pushSafe [] base)).length := length_trimMatches_le _ _
      _ ≤ (pushSafe [] base).length := length_trimMatches_le _ _
      _ ≤ maxFilenameBytes := length_pushSafe_le_max (by simp) (by decide) base

/-- A sanitized name with no blank at either end sanitizes to itself. -/
theorem sanitizeFilename_of_sanitizedName {name : List Char} (hName : SanitizedName name)
    (hTrim : trim name = name) : sanitizeFilename name = some name := by
  have hHead := hName.head
  have hDot : name ≠ ['.'] := fun hEq => by simp [hEq] at hHead
  have hDotDot : name ≠ ['.', '.'] := fun hEq => by simp [hEq] at hHead
  have hSep : '/' ∉ name := fun hMem => absurd (hName.safe '/' hMem) (by decide)
  have hPush : pushSafe [] name = name :=
    (pushSafe_of_safe (by simp) hName.safe (by simpa using hName.length_le)).trans
      (List.nil_append _)
  have hDots : trimMatches (· == '.') name = name := trimMatches_eq_self hName.head hName.last
  unfold sanitizeFilename
  simp [hTrim, hName.ne_nil, fileName_self hSep hName.ne_nil hDot hDotDot, hPush, hDots, hDot,
    hDotDot]

/-- A name that sanitizes to itself has no blank at either end: every step
of `sanitize_filename` can only shorten it. -/
theorem trim_eq_of_sanitizeFilename {name : List Char} (h : sanitizeFilename name = some name) :
    trim name = name := by
  obtain ⟨base, hBase, hEq, -⟩ := sanitizeFilename_eq_some h
  apply trimMatches_eq_of_length
  have hLe : name.length ≤ (trim name).length :=
    calc name.length ≤ (trim (pushSafe [] base)).length := hEq ▸ length_trimMatches_le _ _
      _ ≤ (pushSafe [] base).length := length_trimMatches_le _ _
      _ ≤ base.length := by simpa using length_pushSafe_le [] base
      _ ≤ (trim name).length := (sublist_of_fileName hBase).length_le
  exact Nat.le_antisymm (length_trimMatches_le _ _) hLe

/-- `sanitize_filename` is stable on one of its results exactly when that
result has no blank at either end. -/
theorem sanitizeFilename_self_iff {input name : List Char} (h : sanitizeFilename input = some name) :
    sanitizeFilename name = some name ↔ trim name = name :=
  ⟨trim_eq_of_sanitizeFilename, sanitizeFilename_of_sanitizedName (sanitizedName_of_eq_some h)⟩

/-- The suffix of the part file, `format!("{sanitized}.part")`. -/
def partSuffix : List Char := ".part".toList

/-- A sanitized name and its part file name are each one component more than
the directory they are joined to: neither holds a separator, and neither is
`.` or `..`. -/
theorem components_joinPath_sanitized {name : List Char} (hName : SanitizedName name)
    (outputDir : List Char) :
    components (joinPath outputDir name) = components outputDir ++ [name] ∧
      components (joinPath outputDir (name ++ partSuffix)) =
        components outputDir ++ [name ++ partSuffix] := by
  have hDot : name ≠ ['.'] := fun hEq => by simpa [hEq] using hName.head
  have hSep : '/' ∉ name := fun hMem => absurd (hName.safe '/' hMem) (by decide)
  have hPartSep : '/' ∉ name ++ partSuffix := by
    rw [List.mem_append, not_or]
    exact ⟨hSep, by decide⟩
  have hPartNil : name ++ partSuffix ≠ [] := List.append_ne_nil_of_right_ne_nil _ (by decide)
  have hPartDot : name ++ partSuffix ≠ ['.'] := fun hEq => by
    have := congrArg List.length hEq
    simp [partSuffix] at this
  exact ⟨components_joinPath outputDir hSep hName.ne_nil hDot,
    components_joinPath outputDir hPartSep hPartNil hPartDot⟩

theorem sanitizeFilename_direct_child {s n : List Char} (h : sanitizeFilename s = some n) :
    n ≠ [] ∧ utf8Len n ≤ maxFilenameBytes ∧
      (∀ c ∈ n, IsAscii c ∧ (c.isAlphanum = true ∨ c ∈ ['.', '_', '-', ' '])) ∧
      n.head? ≠ some '.' ∧ n.getLast? ≠ some '.' ∧ n ≠ ['.'] ∧ n ≠ ['.', '.'] ∧
      ∀ outputDir, components (joinPath outputDir n) = components outputDir ++ [n] ∧
        components (joinPath outputDir (n ++ partSuffix)) =
          components outputDir ++ [n ++ partSuffix] := by
  have hName := sanitizedName_of_eq_some h
  have hAscii : ∀ c ∈ n, IsAscii c := fun c hc => isAscii_of_isSafeFilenameChar (hName.safe c hc)
  have hHead : n.head? ≠ some '.' := fun hc => by simpa using hName.head '.' hc
  have hLast : n.getLast? ≠ some '.' := fun hc => by simpa using hName.last '.' hc
  have hDot : n ≠ ['.'] := fun hEq => hHead (by rw [hEq]; rfl)
  have hDotDot : n ≠ ['.', '.'] := fun hEq => hHead (by rw [hEq]; rfl)
  refine ⟨hName.ne_nil, (utf8Len_of_isAscii hAscii).trans_le hName.length_le,
    fun c hc => ⟨hAscii c hc, ?_⟩, hHead, hLast, hDot, hDotDot,
    components_joinPath_sanitized hName⟩
  have hSafe := hName.safe c hc
  simp only [isSafeFilenameChar, Bool.or_eq_true, beq_iff_eq] at hSafe
  simp only [List.mem_cons, List.not_mem_nil, or_false]
  tauto

theorem sanitizeFilename_direct_child_traversal :
    sanitizeFilename "../etc/passwd".toList = some "passwd".toList ∧
      ∀ outputDir, components (joinPath outputDir "passwd".toList) =
        components outputDir ++ ["passwd".toList] := by
  have hSanitized : sanitizeFilename "../etc/passwd".toList = some "passwd".toList := by decide
  exact ⟨hSanitized, fun outputDir =>
    ((sanitizeFilename_direct_child hSanitized).2.2.2.2.2.2.2 outputDir).1⟩

end Sanitize

/-- `sha256_file_hex`. -/
def sha256FileHex (digest : List UInt8 → Vector UInt8 32) (contents : List UInt8) : List Char :=
  hexEncode (digest contents).toList

/-- `chunk_count`; `u64::div_ceil` is exact. -/
def chunkCount (fileSize chunkSize : UInt64) : Except FileTransferError UInt32 :=
  if chunkSize = 0 then .error .chunkSizeZero
  else
    let count := divCeil fileSize.toNat chunkSize.toNat
    if count = 0 then .error .fileSizeZero
    else if count > 0xFFFFFFFF then .error .chunkCountExceedsLimits
    else .ok (UInt32.ofNat count)

theorem chunkCount_eq_ok {fileSize chunkSize : UInt64} {count : UInt32}
    (h : chunkCount fileSize chunkSize = .ok count) :
    count.toNat = divCeil fileSize.toNat chunkSize.toNat ∧ chunkSize ≠ 0 := by
  simp only [chunkCount, Wire.ite_error_eq_ok, Except.ok.injEq] at h
  obtain ⟨hSize, hZero, hLimit, rfl⟩ := h
  exact ⟨UInt32.toNat_ofNat_of_lt' (by simp [UInt32.size]; omega), hSize⟩

theorem chunkCount_of_lt {fileSize chunkSize : UInt64} (hSize : chunkSize ≠ 0)
    (hPos : 0 < divCeil fileSize.toNat chunkSize.toNat)
    (hLt : divCeil fileSize.toNat chunkSize.toNat < 2 ^ 32) :
    chunkCount fileSize chunkSize = .ok (UInt32.ofNat (divCeil fileSize.toNat chunkSize.toNat)) := by
  unfold chunkCount
  rw [if_neg hSize, if_neg (by omega), if_neg (by omega)]

/-- `validate_offer`. -/
def validateOffer (offer : FileOffer) (maxFileBytes : UInt64) : Except FileTransferError Unit :=
  if offer.fileId = 0 then .error .fileIdZero
  else if (sanitizeFilename offer.filename).isNone then .error .invalidFilenameInOffer
  else if offer.fileSize = 0 then .error .fileSizeZero
  else if offer.fileSize > maxFileBytes then .error .fileExceedsMaximum
  else if offer.chunkSize = 0 then .error .chunkSizeZero
  else if offer.totalChunks = 0 then .error .totalChunksZero
  else
    match chunkCount offer.fileSize offer.chunkSize.toUInt64 with
    | .error e => .error e
    | .ok expected =>
        if expected ≠ offer.totalChunks then .error (.invalidTotalChunks expected offer.totalChunks)
        else if utf8Len offer.checksumSha256 ≠ 64 || !offer.checksumSha256.all Char.isHexDigit then
          .error .invalidChecksum
        else .ok ()

/-- What `validate_offer` accepts. -/
structure OfferValid (offer : FileOffer) (maxFileBytes : UInt64) : Prop where
  fileId : offer.fileId ≠ 0
  filename : (sanitizeFilename offer.filename).isSome
  fileSize_ne : offer.fileSize ≠ 0
  fileSize_le : offer.fileSize ≤ maxFileBytes
  chunkSize : offer.chunkSize ≠ 0
  totalChunks_ne : offer.totalChunks ≠ 0
  totalChunks : chunkCount offer.fileSize offer.chunkSize.toUInt64 = .ok offer.totalChunks
  checksum_len : utf8Len offer.checksumSha256 = 64
  checksum_hex : offer.checksumSha256.all Char.isHexDigit

theorem validateOffer_eq_ok {offer : FileOffer} {maxFileBytes : UInt64} :
    validateOffer offer maxFileBytes = .ok () ↔ OfferValid offer maxFileBytes := by
  constructor
  · intro h
    simp only [validateOffer, Wire.ite_error_eq_ok] at h
    obtain ⟨hId, hName, hZero, hMax, hSize, hTotal, h⟩ := h
    split at h
    · cases h
    · next expected hCount =>
        simp only [Wire.ite_error_eq_ok, ne_eq, Decidable.not_not] at h
        obtain ⟨rfl, hChecksum, -⟩ := h
        simp only [Bool.or_eq_true, decide_eq_true_eq, Bool.not_eq_true', not_or,
          Bool.not_eq_false] at hChecksum
        have hSanitized : (sanitizeFilename offer.filename).isSome := by
          simpa [Option.isNone_iff_eq_none, Option.isSome_iff_ne_none] using hName
        exact ⟨hId, hSanitized, hZero, UInt64.not_lt.mp hMax, hSize, hTotal, hCount,
          by simpa using hChecksum.1, hChecksum.2⟩
  · intro hValid
    have hMax : ¬offer.fileSize > maxFileBytes := UInt64.not_lt.mpr hValid.fileSize_le
    have hName : (sanitizeFilename offer.filename).isNone = false := by
      simpa using hValid.filename
    simp [validateOffer, hValid.fileId, hName, hValid.fileSize_ne, hMax, hValid.chunkSize,
      hValid.totalChunks_ne, hValid.totalChunks, hValid.checksum_len, hValid.checksum_hex]

/-- `expected_chunk_len`: the chunk's size, or what is left of the file. -/
def expectedChunkLen (offer : FileOffer) (chunkIndex : UInt32) : Except FileTransferError Nat :=
  if chunkIndex ≥ offer.totalChunks then .error .chunkIndexOutOfBounds
  else
    match checkedMul chunkIndex.toUInt64 offer.chunkSize.toUInt64 with
    | none => .error .chunkOffsetOverflow
    | some offset => .ok (min (saturatingSub offer.fileSize offset) offer.chunkSize.toUInt64).toNat

theorem not_ge_of_toNat_lt {a b : UInt32} (h : a.toNat < b.toNat) : ¬a ≥ b :=
  UInt32.not_le.mpr (UInt32.lt_iff_toNat_lt.mpr h)

theorem expectedChunkLen_of_lt {offer : FileOffer} {chunkIndex : UInt32}
    (h : chunkIndex.toNat < offer.totalChunks.toNat) :
    expectedChunkLen offer chunkIndex =
      .ok (min (offer.fileSize.toNat - chunkIndex.toNat * offer.chunkSize.toNat)
        offer.chunkSize.toNat) := by
  have hProd := toNat_mul_toNat_lt chunkIndex offer.chunkSize
  unfold expectedChunkLen
  rw [if_neg (not_ge_of_toNat_lt h), checkedMul_toUInt64]
  simp only [UInt64.toNat_min, toNat_saturatingSub,
    UInt64.toNat_ofNat_of_lt' (show _ < UInt64.size from hProd), UInt32.toNat_toUInt64]

/-- The sending side. The field `next_chunk` goes by its getter's name,
`next_chunk_index`; `header_sent` and `paused` are left out: nothing
modelled reads them. -/
structure OutgoingFile where
  offer : FileOffer
  /-- The file's contents. -/
  file : List UInt8
  nextChunkIndex : UInt32

namespace OutgoingFile

/-- `OutgoingFile::from_path` for the regular file at `path` holding
`contents`. -/
def fromPath (digest : List UInt8 → Vector UInt8 32) (path : List Char) (contents : List UInt8)
    (fileId chunkSize maxFileBytes : UInt64) : Except FileTransferError OutgoingFile :=
  if fileId = 0 then .error .fileIdZero
  else if chunkSize = 0 then .error .chunkSizeZero
  else
    let fileSize := UInt64.ofNat contents.length
    if fileSize = 0 then .error (.emptyFile path)
    else if fileSize > maxFileBytes then .error (.exceedsMaxSize path maxFileBytes fileSize)
    else
      match (fileName path).bind sanitizeFilename with
      | none => .error (.invalidFilename path)
      | some filename =>
          match chunkCount fileSize chunkSize with
          | .error e => .error e
          | .ok totalChunks =>
              .ok ⟨⟨fileId, filename, fileSize, sha256FileHex digest contents, chunkSize.toUInt32,
                totalChunks⟩, contents, 0⟩

/-- Everything a successful `from_path` checked, and the sender it built. -/
theorem fromPath_eq_ok {digest : List UInt8 → Vector UInt8 32} {path : List Char}
    {contents : List UInt8} {fileId chunkSize maxFileBytes : UInt64} {s : OutgoingFile}
    (h : fromPath digest path contents fileId chunkSize maxFileBytes = .ok s) :
    fileId ≠ 0 ∧ UInt64.ofNat contents.length ≠ 0 ∧ UInt64.ofNat contents.length ≤ maxFileBytes ∧
      ∃ filename totalChunks, (fileName path).bind sanitizeFilename = some filename ∧
        chunkCount (UInt64.ofNat contents.length) chunkSize = .ok totalChunks ∧
        s = ⟨⟨fileId, filename, UInt64.ofNat contents.length, sha256FileHex digest contents,
          chunkSize.toUInt32, totalChunks⟩, contents, 0⟩ := by
  simp only [fromPath, Wire.ite_error_eq_ok] at h
  obtain ⟨hId, -, hEmpty, hMax, h⟩ := h
  split at h
  · cases h
  · next filename hName =>
      split at h
      · cases h
      · next totalChunks hCount =>
          cases h
          exact ⟨hId, hEmpty, UInt64.not_lt.mp hMax, filename, totalChunks, hName, hCount, rfl⟩

/-- A sender fresh from `from_path` holds the file, its cursor on the first
chunk, and the file's checksum in its offer. -/
theorem fromPath_fresh {digest : List UInt8 → Vector UInt8 32} {path : List Char}
    {contents : List UInt8} {fileId chunkSize maxFileBytes : UInt64} {s : OutgoingFile}
    (h : fromPath digest path contents fileId chunkSize maxFileBytes = .ok s) :
    s.file = contents ∧ s.nextChunkIndex = 0 ∧ s.offer.checksumSha256 = sha256FileHex digest contents := by
  obtain ⟨-, -, -, _, _, -, -, rfl⟩ := fromPath_eq_ok h
  exact ⟨rfl, rfl, rfl⟩

def finished (s : OutgoingFile) : Bool := s.nextChunkIndex ≥ s.offer.totalChunks

def setNextChunk (s : OutgoingFile) (chunkIndex : UInt32) : Except FileTransferError OutgoingFile :=
  if chunkIndex > s.offer.totalChunks then
    .error (.chunkIndexOutOfRange chunkIndex s.offer.totalChunks)
  else .ok { s with nextChunkIndex := chunkIndex }

theorem setNextChunk_of_le {s : OutgoingFile} {chunkIndex : UInt32}
    (h : chunkIndex.toNat ≤ s.offer.totalChunks.toNat) :
    s.setNextChunk chunkIndex = .ok { s with nextChunkIndex := chunkIndex } := by
  simp [setNextChunk, UInt32.not_lt.mpr (UInt32.le_iff_toNat_le.mpr h)]

/-- `next_chunk`: the chunk at the cursor, read from the file, and the cursor
moved on. -/
def nextChunk (s : OutgoingFile) : Except FileTransferError (OutgoingFile × Option FileChunkData) :=
  if s.finished then .ok (s, none)
  else
    let chunkIndex := s.nextChunkIndex
    match checkedMul chunkIndex.toUInt64 s.offer.chunkSize.toUInt64 with
    | none => .error .chunkOffsetOverflow
    | some offset =>
        match expectedChunkLen s.offer chunkIndex with
        | .error e => .error e
        | .ok chunkLen =>
            if chunkLen = 0 then .ok ({ s with nextChunkIndex := s.offer.totalChunks }, none)
            else
              match readExact s.file offset.toNat chunkLen with
              | none => .error (.readFailed s.offer.filename)
              | some payload =>
                  .ok ({ s with nextChunkIndex := saturatingAdd32 s.nextChunkIndex 1 },
                    some ⟨s.offer.fileId, chunkIndex, payload⟩)

theorem nextChunk_of_finished {s : OutgoingFile} (h : s.finished = true) :
    s.nextChunk = .ok (s, none) := by
  simp [nextChunk, h]

/-- Before the last chunk, from a file as long as offered, `next_chunk` reads
the chunk at the cursor and moves it on by one. -/
theorem nextChunk_of_lt {s : OutgoingFile}
    (hLt : s.nextChunkIndex.toNat < s.offer.totalChunks.toNat) (hSize : 0 < s.offer.chunkSize.toNat)
    (hIn : s.nextChunkIndex.toNat * s.offer.chunkSize.toNat < s.offer.fileSize.toNat)
    (hFile : s.file.length = s.offer.fileSize.toNat) :
    s.nextChunk = .ok ({ s with nextChunkIndex := saturatingAdd32 s.nextChunkIndex 1 },
      some ⟨s.offer.fileId, s.nextChunkIndex,
        chunkAt s.file s.offer.chunkSize.toNat s.nextChunkIndex.toNat⟩) := by
  have hNotFinished : s.finished = false := by
    simpa [finished] using UInt32.lt_iff_toNat_lt.mpr hLt
  have hProd := toNat_mul_toNat_lt s.nextChunkIndex s.offer.chunkSize
  have hRead : readExact s.file (s.nextChunkIndex.toNat * s.offer.chunkSize.toNat)
      (min (s.offer.fileSize.toNat - s.nextChunkIndex.toNat * s.offer.chunkSize.toNat)
        s.offer.chunkSize.toNat) =
      some (chunkAt s.file s.offer.chunkSize.toNat s.nextChunkIndex.toNat) := by
    rw [readExact_of_le (by omega), chunkAt, List.take_eq_take_min (i := s.offer.chunkSize.toNat),
      List.length_drop, hFile, Nat.min_comm]
  have hLenPos : min (s.offer.fileSize.toNat - s.nextChunkIndex.toNat * s.offer.chunkSize.toNat)
      s.offer.chunkSize.toNat ≠ 0 := by omega
  simp [nextChunk, hNotFinished, checkedMul_toUInt64, expectedChunkLen_of_lt hLt, hLenPos,
    Nat.mod_eq_of_lt hProd, hRead]

end OutgoingFile

/-- The receiving side. `final_path` is the sanitized name the file is
stored under (the output directory and the part file's path are left out);
`file` is the part file's contents. The flags are one for each chunk. -/
structure IncomingFile where
  offer : FileOffer
  finalName : List Char
  file : List UInt8
  received : List Bool
  receivedCount : UInt32
  received_length : received.length = offer.totalChunks.toNat

namespace IncomingFile

/-- `IncomingFile::new`: the part file is created empty and then sized to the
file, so it starts as zeros. -/
def new (offer : FileOffer) (maxFileBytes : UInt64) : Except FileTransferError IncomingFile :=
  match validateOffer offer maxFileBytes with
  | .error e => .error e
  | .ok () =>
      match sanitizeFilename offer.filename with
      | none => .error (.invalidFilename offer.filename)
      | some sanitized =>
          .ok ⟨offer, sanitized, List.replicate offer.fileSize.toNat 0,
            List.replicate offer.totalChunks.toNat false, 0, List.length_replicate⟩

/-- `final_path = output_dir.join(&sanitized)`. -/
def finalPath (outputDir : List Char) (f : IncomingFile) : List Char :=
  joinPath outputDir f.finalName

/-- `part_path = output_dir.join(format!("{sanitized}.part"))`. -/
def partPath (outputDir : List Char) (f : IncomingFile) : List Char :=
  joinPath outputDir (f.finalName ++ partSuffix)

def isComplete (f : IncomingFile) : Bool := f.receivedCount == f.offer.totalChunks

def nextMissingChunk (f : IncomingFile) : UInt32 :=
  match f.received.findIdx? fun seen => !seen with
  | some idx => UInt32.ofNat idx
  | none => f.offer.totalChunks

/-- What a successful `IncomingFile::new` checked and built. -/
theorem new_eq_ok {offer : FileOffer} {maxFileBytes : UInt64} {f : IncomingFile}
    (h : IncomingFile.new offer maxFileBytes = .ok f) :
    OfferValid offer maxFileBytes ∧ f.offer = offer ∧
      sanitizeFilename offer.filename = some f.finalName ∧
      f.file = List.replicate offer.fileSize.toNat 0 ∧
      f.received = List.replicate offer.totalChunks.toNat false ∧ f.receivedCount = 0 := by
  unfold IncomingFile.new at h
  split at h
  · cases h
  · next hValid =>
      split at h
      · cases h
      · next sanitized hName =>
          cases h
          exact ⟨validateOffer_eq_ok.mp hValid, rfl, hName, rfl, rfl, rfl⟩

/-- Both files of a new transfer are direct children of the output
directory, whatever the offer's file name. -/
theorem components_paths_new {offer : FileOffer} {maxFileBytes : UInt64} {f : IncomingFile}
    (h : IncomingFile.new offer maxFileBytes = .ok f) (outputDir : List Char) :
    components (f.finalPath outputDir) = components outputDir ++ [f.finalName] ∧
      components (f.partPath outputDir) = components outputDir ++ [f.finalName ++ partSuffix] :=
  components_joinPath_sanitized (sanitizedName_of_eq_some (new_eq_ok h).2.2.1) outputDir

/-- The first chunk not yet received is at most the number of chunks. -/
theorem toNat_nextMissingChunk_le (f : IncomingFile) :
    f.nextMissingChunk.toNat ≤ f.offer.totalChunks.toNat := by
  unfold nextMissingChunk
  split
  · next idx hFind =>
      obtain ⟨hLt, -⟩ := List.findIdx?_eq_some_iff_getElem.mp hFind
      rw [f.received_length] at hLt
      have hBound := f.offer.totalChunks.toNat_lt
      rw [UInt32.toNat_ofNat_of_lt' (by simp only [UInt32.size]; omega)]
      omega
  · exact Nat.le_refl _

theorem index_lt_length (f : IncomingFile) {chunkIndex : UInt32}
    (h : ¬chunkIndex ≥ f.offer.totalChunks) : chunkIndex.toNat < f.received.length := by
  rw [f.received_length]
  exact UInt32.lt_iff_toNat_lt.mp (UInt32.not_le.mp h)

/-- `write_chunk`: a chunk not seen before is written at its offset and
flagged; either way the answer is whether the file is complete. -/
def writeChunk (f : IncomingFile) (chunkIndex : UInt32) (payload : List UInt8) :
    Except FileTransferError (IncomingFile × Bool) :=
  if hIdx : chunkIndex ≥ f.offer.totalChunks then
    .error (.chunkIndexOutOfRange chunkIndex f.offer.totalChunks)
  else
    match expectedChunkLen f.offer chunkIndex with
    | .error e => .error e
    | .ok expected =>
        if payload.length ≠ expected then
          .error (.unexpectedPayloadLength chunkIndex expected payload.length)
        else
          have hLt := f.index_lt_length hIdx
          if !f.received[chunkIndex.toNat] then
            match checkedMul chunkIndex.toUInt64 f.offer.chunkSize.toUInt64 with
            | none => .error .chunkOffsetOverflow
            | some offset =>
                let f : IncomingFile :=
                  { f with
                    file := writeAt 0 f.file offset.toNat payload
                    received := f.received.set chunkIndex.toNat true
                    receivedCount := saturatingAdd32 f.receivedCount 1
                    received_length := by rw [List.length_set, f.received_length] }
                .ok (f, f.isComplete)
          else .ok (f, f.isComplete)

section WriteChunk

variable (f : IncomingFile) {chunkIndex : UInt32} {payload : List UInt8}
  (hIdx : chunkIndex.toNat < f.offer.totalChunks.toNat)
  (hLen : payload.length = min (f.offer.fileSize.toNat - chunkIndex.toNat * f.offer.chunkSize.toNat)
    f.offer.chunkSize.toNat)
include hIdx hLen

/-- A chunk written before is not written again. -/
theorem writeChunk_of_received (hSeen : f.received[chunkIndex.toNat]? = some true) :
    f.writeChunk chunkIndex payload = .ok (f, f.isComplete) := by
  have hNotGe := not_ge_of_toNat_lt hIdx
  have hLt := f.index_lt_length hNotGe
  have hFlag : f.received[chunkIndex.toNat] = true := by
    simpa [List.getElem?_eq_getElem hLt] using hSeen
  simp [writeChunk, hNotGe, expectedChunkLen_of_lt hIdx, hLen, hFlag]

/-- A new chunk is written at its offset, flagged and counted. -/
theorem writeChunk_of_not_received (hNew : f.received[chunkIndex.toNat]? = some false) :
    ∃ f', f.writeChunk chunkIndex payload = .ok (f', f'.isComplete) ∧ f'.offer = f.offer ∧
      f'.finalName = f.finalName ∧
      f'.file = writeAt 0 f.file (chunkIndex.toNat * f.offer.chunkSize.toNat) payload ∧
      f'.received = f.received.set chunkIndex.toNat true ∧
      f'.receivedCount = saturatingAdd32 f.receivedCount 1 := by
  have hNotGe := not_ge_of_toNat_lt hIdx
  have hLt := f.index_lt_length hNotGe
  have hFlag : f.received[chunkIndex.toNat] = false := by
    simpa [List.getElem?_eq_getElem hLt] using hNew
  have hProd := toNat_mul_toNat_lt chunkIndex f.offer.chunkSize
  refine ⟨{ f with
      file := writeAt 0 f.file (chunkIndex.toNat * f.offer.chunkSize.toNat) payload
      received := f.received.set chunkIndex.toNat true
      receivedCount := saturatingAdd32 f.receivedCount 1
      received_length := by rw [List.length_set, f.received_length] },
    ?_, rfl, rfl, rfl, rfl, rfl⟩
  simp [writeChunk, hNotGe, expectedChunkLen_of_lt hIdx, hLen, hFlag, checkedMul_toUInt64,
    Nat.mod_eq_of_lt hProd]

end WriteChunk

/-- `finalize`, up to the move: a complete part file whose checksum is the
offer's goes to the final name (`unique_destination_path`, which looks at the
directory, is left out). -/
def finalize (digest : List UInt8 → Vector UInt8 32) (f : IncomingFile) :
    Except FileTransferError (List Char) :=
  if !f.isComplete then .error (.incomplete f.offer.filename f.receivedCount f.offer.totalChunks)
  else
    let checksum := sha256FileHex digest f.file
    if checksum ≠ f.offer.checksumSha256 then
      .error (.checksumMismatch f.offer.filename f.offer.checksumSha256 checksum)
    else .ok f.finalName

theorem finalize_of_complete (digest : List UInt8 → Vector UInt8 32) {f : IncomingFile}
    (hComplete : f.isComplete = true)
    (hChecksum : sha256FileHex digest f.file = f.offer.checksumSha256) :
    f.finalize digest = .ok f.finalName := by
  simp [finalize, hComplete, hChecksum]

end IncomingFile

end Wavry.Common
