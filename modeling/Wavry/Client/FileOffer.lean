import Wavry.Common.FileTransfer

/-! A file offer on the wire (`wavry-client` `client.rs`: `offer_to_proto` and
`offer_from_proto`; `wavry-server` has the same two functions). The receiver
rebuilds the offer from the header, lowercases its checksum, checks it with
`validate_offer`, and stores the file under the sanitized name. For an offer
from `OutgoingFile::from_path` with a chunk size that fits in 32 bits, all of
this gives back the sender's offer and name exactly when sanitizing left no
blank at either end of the name; `sanitize_filename` trims blanks before it
trims dots, so a name such as `a .` or `. .` leaves one. -/
namespace Wavry.Client

open Wavry.Common Text Chunks Saturating

/-- `rift_core::FileHeader`. -/
structure FileHeader where
  fileId : UInt64
  filename : List Char
  fileSize : UInt64
  checksumSha256 : List Char
  chunkSize : UInt32
  totalChunks : UInt32
  deriving DecidableEq, Repr

def offerToProto (offer : FileOffer) : FileHeader :=
  ⟨offer.fileId, offer.filename, offer.fileSize, offer.checksumSha256, offer.chunkSize,
    offer.totalChunks⟩

/-- `offer_from_proto`: `to_ascii_lowercase` on the checksum, then
`validate_offer`. -/
def offerFromProto (header : FileHeader) (maxFileBytes : UInt64) :
    Except FileTransferError FileOffer :=
  let offer : FileOffer := ⟨header.fileId, header.filename, header.fileSize,
    header.checksumSha256.map Char.toLower, header.chunkSize, header.totalChunks⟩
  match validateOffer offer maxFileBytes with
  | .error e => .error e
  | .ok () => .ok offer

/-- A valid offer with a lowercase checksum comes back from the wire as it
went. -/
theorem offerFromProto_offerToProto {offer : FileOffer} {maxFileBytes : UInt64}
    (hValid : validateOffer offer maxFileBytes = .ok ())
    (hLower : offer.checksumSha256.map Char.toLower = offer.checksumSha256) :
    offerFromProto (offerToProto offer) maxFileBytes = .ok offer := by
  simp [offerFromProto, offerToProto, hLower, hValid]

section FromPath

variable {digest : List UInt8 → Vector UInt8 32} {path : List Char} {F : List UInt8}
  {fileId chunkSize maxFileBytes : UInt64} {s : OutgoingFile}

/-- `sha256_file_hex` writes 64 lowercase hex digits. -/
theorem checksum_fromPath_valid
    (hSender : OutgoingFile.fromPath digest path F fileId chunkSize maxFileBytes = .ok s) :
    utf8Len s.offer.checksumSha256 = 64 ∧ s.offer.checksumSha256.all Char.isHexDigit ∧
      s.offer.checksumSha256.map Char.toLower = s.offer.checksumSha256 := by
  obtain ⟨-, -, -, _, _, -, -, rfl⟩ := OutgoingFile.fromPath_eq_ok hSender
  rw [sha256FileHex]
  refine ⟨?_, List.all_eq_true.mpr fun c hc => isHexDigit_of_mem_hexEncode hc,
    map_toLower_hexEncode _⟩
  rw [utf8Len_of_isAscii fun c hc => isAscii_of_mem_hexEncode hc, length_hexEncode,
    Vector.length_toList]

/-- The offer `from_path` builds passes `validate_offer` when its chunk size
fits in 32 bits and its name sanitizes to itself. -/
theorem validateOffer_fromPath
    (hSender : OutgoingFile.fromPath digest path F fileId chunkSize maxFileBytes = .ok s)
    (hChunk : chunkSize.toNat < 2 ^ 32)
    (hName : sanitizeFilename s.offer.filename = some s.offer.filename) :
    validateOffer s.offer maxFileBytes = .ok () := by
  obtain ⟨hLen, hHex, -⟩ := checksum_fromPath_valid hSender
  obtain ⟨hId, hEmpty, hMax, filename, totalChunks, -, hCount, rfl⟩ :=
    OutgoingFile.fromPath_eq_ok hSender
  have hWide : chunkSize.toUInt32.toUInt64 = chunkSize := by
    apply UInt64.toNat_inj.mp
    rw [UInt32.toNat_toUInt64, UInt64.toNat_toUInt32]
    exact Nat.mod_eq_of_lt hChunk
  obtain ⟨hTotal, hSizeNe⟩ := chunkCount_eq_ok hCount
  have hPos : 0 < totalChunks.toNat := by
    simp only [chunkCount, Wire.ite_error_eq_ok] at hCount
    rw [hTotal]
    omega
  have hChunkNe : chunkSize.toUInt32 ≠ 0 := fun h => hSizeNe (by rw [← hWide, h]; rfl)
  have hTotalNe : totalChunks ≠ 0 := fun h => by
    rw [h] at hPos
    exact absurd hPos (by decide)
  have hRecount :
      chunkCount (UInt64.ofNat F.length) chunkSize.toUInt32.toUInt64 = .ok totalChunks := by
    rw [hWide]
    exact hCount
  exact validateOffer_eq_ok.mpr ⟨hId, by simp [hName], hEmpty, hMax, hChunkNe, hTotalNe, hRecount,
    hLen, hHex⟩

/-- For an offer from `from_path` with a chunk size that fits in 32 bits, the
receiver accepts it, gets it back from the wire unchanged and stores the file
under the name offered, exactly when sanitizing left no blank at either end
of that name. -/
theorem offer_agrees_iff
    (hSender : OutgoingFile.fromPath digest path F fileId chunkSize maxFileBytes = .ok s)
    (hChunk : chunkSize.toNat < 2 ^ 32) :
    (validateOffer s.offer maxFileBytes = .ok () ∧
        offerFromProto (offerToProto s.offer) maxFileBytes = .ok s.offer ∧
        sanitizeFilename s.offer.filename = some s.offer.filename) ↔
      trim s.offer.filename = s.offer.filename := by
  have hSanitized : (fileName path).bind sanitizeFilename = some s.offer.filename := by
    obtain ⟨-, -, -, _, _, hName, -, rfl⟩ := OutgoingFile.fromPath_eq_ok hSender
    exact hName
  obtain ⟨base, -, hBase⟩ := Option.bind_eq_some_iff.mp hSanitized
  constructor
  · rintro ⟨-, -, hName⟩
    exact trim_eq_of_sanitizeFilename hName
  · intro hTrim
    have hName := (sanitizeFilename_self_iff hBase).mpr hTrim
    have hValid := validateOffer_fromPath hSender hChunk hName
    have hLower := (checksum_fromPath_valid hSender).2.2
    exact ⟨hValid, offerFromProto_offerToProto hValid hLower, hName⟩

end FromPath

/-- Three files the sender offers and the receiver does not take as offered:
one named `. .` (sanitized to a blank, which the receiver rejects), one named
`a .` (offered as `a `, stored as `a`), and one sent with a chunk size of
`2 ^ 32` (narrowed to zero in the offer, which the receiver rejects). -/
theorem fromPath_offer_disagrees :
    (∃ s, OutgoingFile.fromPath (fun _ => Vector.replicate 32 0) ['.', ' ', '.'] [0] 1 900
        defaultMaxFileBytes = .ok s ∧ s.offer.filename = [' '] ∧
      validateOffer s.offer defaultMaxFileBytes = .error .invalidFilenameInOffer ∧
      offerFromProto (offerToProto s.offer) defaultMaxFileBytes = .error .invalidFilenameInOffer ∧
      sanitizeFilename s.offer.filename = none) ∧
    (∃ s r, OutgoingFile.fromPath (fun _ => Vector.replicate 32 0) ['a', ' ', '.'] [0] 1 900
        defaultMaxFileBytes = .ok s ∧ s.offer.filename = ['a', ' '] ∧
      offerFromProto (offerToProto s.offer) defaultMaxFileBytes = .ok s.offer ∧
      IncomingFile.new s.offer defaultMaxFileBytes = .ok r ∧ r.finalName = ['a']) ∧
    (∃ s, OutgoingFile.fromPath (fun _ => Vector.replicate 32 0) ['a'] [0, 0] 1 4294967296
        defaultMaxFileBytes = .ok s ∧ s.offer.chunkSize = 0 ∧
      validateOffer s.offer defaultMaxFileBytes = .error .chunkSizeZero) :=
  ⟨⟨_, rfl, rfl, rfl, rfl, rfl⟩, ⟨_, _, rfl, rfl, rfl, rfl, rfl⟩, ⟨_, rfl, rfl, rfl⟩⟩

end Wavry.Client
