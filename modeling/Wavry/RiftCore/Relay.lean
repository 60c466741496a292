import Wavry.Lib.Wire
import Wavry.RiftCore.Packet

/-! The relay wire protocol of `rift-core`: a 20-byte header (magic, version,
packet type, flags, 16-byte session id) and the payloads of the lease and
forward packets. Every encoder checks its buffer's length and writes its
fields at the front; every decoder reads them back at fixed offsets. The
session id is the UUID's 16 bytes, read as one big-endian 128-bit word. -/
namespace Wavry.RiftCore

open BigEndian Wire

def relayMagic : UInt8 := 0x57

def relayVersion : UInt8 := 1

def relayHeaderSize : Nat := 20

def relayMaxPacketSize : Nat := 1500

inductive RelayError where
  | tooShort (length minimum : Nat)
  | invalidMagic (found expected : UInt8)
  | unsupportedVersion (found expected : UInt8)
  | unknownPacketType (value : UInt8)
  | invalidPeerRole (value : UInt8)
  | unknownRejectReason (value : UInt16)
  deriving DecidableEq, Repr

inductive RelayPacketType where
  | leasePresent
  | leaseAck
  | leaseReject
  | leaseRenew
  | forward
  deriving DecidableEq, Repr

inductive PeerRole where
  | client
  | server
  deriving DecidableEq, Repr

inductive LeaseRejectReason where
  | expired
  | invalidSignature
  | wrongRelay
  | sessionFull
  | banned
  | rateLimited
  deriving DecidableEq, Repr

/-! ## Tag tables -/

namespace RelayPacketType

/-- The `#[repr(u8)]` discriminants. -/
def toU8 : RelayPacketType → UInt8
  | leasePresent => 0x01
  | leaseAck => 0x02
  | leaseReject => 0x03
  | leaseRenew => 0x04
  | forward => 0x10

def all : List RelayPacketType := [leasePresent, leaseAck, leaseReject, leaseRenew, forward]

/-- `TryFrom<u8>`. -/
def tryFrom (value : UInt8) : Except RelayError RelayPacketType :=
  decodeTag all toU8 .unknownPacketType value

@[simp] theorem tryFrom_toU8 (t : RelayPacketType) : tryFrom t.toU8 = .ok t :=
  decodeTag_code (by decide) (by cases t <;> decide)

theorem code_of_tryFrom {value : UInt8} {t : RelayPacketType} (h : tryFrom value = .ok t) :
    t.toU8 = value :=
  code_of_decodeTag h

end RelayPacketType

namespace PeerRole

def toU8 : PeerRole → UInt8
  | client => 0
  | server => 1

def all : List PeerRole := [client, server]

def tryFrom (value : UInt8) : Except RelayError PeerRole :=
  decodeTag all toU8 .invalidPeerRole value

@[simp] theorem tryFrom_toU8 (r : PeerRole) : tryFrom r.toU8 = .ok r :=
  decodeTag_code (by decide) (by cases r <;> decide)

theorem code_of_tryFrom {value : UInt8} {r : PeerRole} (h : tryFrom value = .ok r) :
    r.toU8 = value :=
  code_of_decodeTag h

end PeerRole

namespace LeaseRejectReason

/-- The `#[repr(u16)]` discriminants. -/
def toU16 : LeaseRejectReason → UInt16
  | expired => 0x0001
  | invalidSignature => 0x0002
  | wrongRelay => 0x0003
  | sessionFull => 0x0004
  | banned => 0x0005
  | rateLimited => 0x0006

def all : List LeaseRejectReason :=
  [expired, invalidSignature, wrongRelay, sessionFull, banned, rateLimited]

def tryFrom (value : UInt16) : Except RelayError LeaseRejectReason :=
  decodeTag all toU16 .unknownRejectReason value

@[simp] theorem tryFrom_toU16 (r : LeaseRejectReason) : tryFrom r.toU16 = .ok r :=
  decodeTag_code (by decide) (by cases r <;> decide)

theorem code_of_tryFrom {value : UInt16} {r : LeaseRejectReason} (h : tryFrom value = .ok r) :
    r.toU16 = value :=
  code_of_decodeTag h

end LeaseRejectReason

/-! ## The header -/

structure RelayHeader where
  version : UInt8
  packetType : RelayPacketType
  flags : UInt8
  sessionId : BitVec 128
  deriving DecidableEq, Repr

namespace RelayHeader

/-- `RelayHeader::new`. -/
def new (packetType : RelayPacketType) (sessionId : BitVec 128) : RelayHeader :=
  ⟨relayVersion, packetType, 0, sessionId⟩

/-- The 20 bytes `encode` writes. -/
def bytes (h : RelayHeader) : List UInt8 :=
  [relayMagic, h.version, h.packetType.toU8, h.flags] ++ u128 h.sessionId

@[simp] theorem length_bytes (h : RelayHeader) : h.bytes.length = relayHeaderSize := by
  simp [bytes, relayHeaderSize]

def encode (h : RelayHeader) (buf : List UInt8) : Except RelayError (Nat × List UInt8) :=
  writePrefix .tooShort buf h.bytes

def decode (buf : List UInt8) : Except RelayError RelayHeader :=
  if buf.length < relayHeaderSize then .error (.tooShort buf.length relayHeaderSize)
  else if buf.getD 0 0 ≠ relayMagic then .error (.invalidMagic (buf.getD 0 0) relayMagic)
  else
    let version := buf.getD 1 0
    if version ≠ relayVersion then .error (.unsupportedVersion version relayVersion)
    else
      (RelayPacketType.tryFrom (buf.getD 2 0)).map fun packetType =>
        ⟨version, packetType, buf.getD 3 0, readU128 (slice buf 4 20)⟩

def quickCheck (buf : List UInt8) : Bool :=
  relayHeaderSize ≤ buf.length && buf.getD 0 0 == relayMagic && buf.getD 1 0 == relayVersion

end RelayHeader

/-! ## Payloads -/

structure LeasePresentPayload where
  peerRole : PeerRole
  leaseToken : List UInt8
  deriving DecidableEq, Repr

/-- The token length goes out as `token_len as u16`. -/
def LeasePresentPayload.bytes (p : LeasePresentPayload) : List UInt8 :=
  [p.peerRole.toU8] ++ u16 (UInt16.ofNat p.leaseToken.length) ++ p.leaseToken

def LeasePresentPayload.encode (p : LeasePresentPayload) (buf : List UInt8) :
    Except RelayError (Nat × List UInt8) :=
  writePrefix .tooShort buf p.bytes

def LeasePresentPayload.decode (buf : List UInt8) : Except RelayError LeasePresentPayload :=
  if buf.length < 3 then .error (.tooShort buf.length 3)
  else
    (PeerRole.tryFrom (buf.getD 0 0)).bind fun peerRole =>
      let tokenLen := (readU16 (slice buf 1 3)).toNat
      if buf.length < 3 + tokenLen then .error (.tooShort buf.length (3 + tokenLen))
      else .ok ⟨peerRole, slice buf 3 (3 + tokenLen)⟩

structure LeaseAckPayload where
  expiresMs : UInt64
  softLimitKbps : UInt32
  hardLimitKbps : UInt32
  deriving DecidableEq, Repr

def LeaseAckPayload.size : Nat := 16

def LeaseAckPayload.bytes (p : LeaseAckPayload) : List UInt8 :=
  u64 p.expiresMs ++ u32 p.softLimitKbps ++ u32 p.hardLimitKbps

def LeaseAckPayload.encode (p : LeaseAckPayload) (buf : List UInt8) :
    Except RelayError (Nat × List UInt8) :=
  writePrefix .tooShort buf p.bytes

def LeaseAckPayload.decode (buf : List UInt8) : Except RelayError LeaseAckPayload :=
  if buf.length < size then .error (.tooShort buf.length size)
  else .ok ⟨readU64 (slice buf 0 8), readU32 (slice buf 8 12), readU32 (slice buf 12 16)⟩

structure LeaseRejectPayload where
  reason : LeaseRejectReason
  deriving DecidableEq, Repr

def LeaseRejectPayload.size : Nat := 2

def LeaseRejectPayload.encode (p : LeaseRejectPayload) (buf : List UInt8) :
    Except RelayError (Nat × List UInt8) :=
  writePrefix .tooShort buf (u16 p.reason.toU16)

def LeaseRejectPayload.decode (buf : List UInt8) : Except RelayError LeaseRejectPayload :=
  if buf.length < size then .error (.tooShort buf.length size)
  else (LeaseRejectReason.tryFrom (readU16 (slice buf 0 2))).map fun reason => ⟨reason⟩

structure ForwardPayloadHeader where
  sequence : UInt64
  deriving DecidableEq, Repr

def ForwardPayloadHeader.size : Nat := 8

def ForwardPayloadHeader.encode (p : ForwardPayloadHeader) (buf : List UInt8) :
    Except RelayError (Nat × List UInt8) :=
  writePrefix .tooShort buf (u64 p.sequence)

def ForwardPayloadHeader.decode (buf : List UInt8) : Except RelayError ForwardPayloadHeader :=
  if buf.length < size then .error (.tooShort buf.length size)
  else .ok ⟨readU64 (slice buf 0 8)⟩

/-- The datagram a peer sends to present its lease (`present_relay_lease`,
which presents the client role). -/
def leaseDatagram (sessionId : BitVec 128) (role : PeerRole) (token : List UInt8) : List UInt8 :=
  (RelayHeader.new .leasePresent sessionId).bytes ++ LeasePresentPayload.bytes ⟨role, token⟩

/-- A forward datagram whose payload starts with a forward payload header. -/
def forwardDatagram (sessionId : BitVec 128) (sequence : UInt64) (body : List UInt8) : List UInt8 :=
  (RelayHeader.new .forward sessionId).bytes ++ u64 sequence ++ body

/-- The replay sequence number of a forwarded payload, as both relays'
`extract_forward_sequence` read it: the packet id of a RIFT packet, or else
the forward payload header's sequence. The error texts are only logged. -/
def forwardSequence (payload : List UInt8) : Option UInt64 :=
  if riftMagic.isPrefixOf payload then
    match PhysicalPacket.decode kermit payload with
    | .ok packet => some packet.packetId
    | .error _ => none
  else
    match ForwardPayloadHeader.decode payload with
    | .ok header => some header.sequence
    | .error _ => none

/-! ## Round trips -/

namespace RelayHeader

/-- A header of the current version is read back from its bytes, whatever
follows them. -/
theorem decode_bytes_append {h : RelayHeader} (hVersion : h.version = relayVersion)
    (rest : List UInt8) : decode (h.bytes ++ rest) = .ok h := by
  have hSlice : slice (h.bytes ++ rest) 4 20 = u128 h.sessionId :=
    slice_middle [relayMagic, h.version, h.packetType.toU8, h.flags] _ rest rfl (by simp)
  have hLength : relayHeaderSize ≤ (h.bytes ++ rest).length := by simp
  unfold decode
  rw [if_neg (Nat.not_lt.mpr hLength), hSlice]
  simp [bytes, ← hVersion, Except.map]

theorem quickCheck_bytes_append {h : RelayHeader} (hVersion : h.version = relayVersion)
    (rest : List UInt8) : quickCheck (h.bytes ++ rest) = true := by
  simp [quickCheck, bytes, hVersion, relayHeaderSize]

/-- Encoding into any buffer of at least 20 bytes succeeds, and the buffer
then decodes to the header and passes the quick check. -/
theorem decode_encode {h : RelayHeader} (hVersion : h.version = relayVersion) {buf : List UInt8}
    (hLength : relayHeaderSize ≤ buf.length) :
    ∃ out, h.encode buf = .ok (relayHeaderSize, out) ∧ decode out = .ok h ∧
      quickCheck out = true := by
  refine ⟨h.bytes ++ buf.drop relayHeaderSize, ?_, decode_bytes_append hVersion _,
    quickCheck_bytes_append hVersion _⟩
  rw [encode, writePrefix_of_le (by simpa using hLength), length_bytes]

/-- Whatever `decode` accepts, encoding the header over the same buffer
writes the bytes already there. -/
theorem encode_of_decode {buf : List UInt8} {h : RelayHeader} (hDecode : decode buf = .ok h) :
    h.encode buf = .ok (relayHeaderSize, buf) := by
  unfold decode at hDecode
  dsimp only at hDecode
  split_ifs at hDecode with hShort hMagic hVersion
  obtain ⟨packetType, hType, rfl⟩ := map_eq_ok hDecode
  have hLength : 20 ≤ buf.length := Nat.not_lt.mp hShort
  have hFour : buf.take 4 = [buf.getD 0 0, buf.getD 1 0, buf.getD 2 0, buf.getD 3 0] := by
    rw [take_eq_map_getD buf (by omega)]
    rfl
  have hId : u128 (readU128 (slice buf 4 20)) = slice buf 4 20 :=
    u128_readU128 (by simp only [length_slice]; omega)
  have hBytes : bytes ⟨buf.getD 1 0, packetType, buf.getD 3 0, readU128 (slice buf 4 20)⟩ =
      buf.take relayHeaderSize := by
    rw [bytes, hId, show relayHeaderSize = 4 + 16 from rfl, List.take_add, hFour,
      RelayPacketType.code_of_tryFrom hType, ← not_not.mp hMagic]
    rfl
  rw [encode, hBytes, writePrefix_take (Nat.not_lt.mp hShort)]

end RelayHeader

namespace LeasePresentPayload

/-- What `decode` reads back from a payload's bytes: the role, and for token
the `len % 65536` bytes after the length field, since the length went out as
a `u16`. -/
theorem decode_bytes_append (p : LeasePresentPayload) (rest : List UInt8) :
    decode (p.bytes ++ rest) =
      .ok ⟨p.peerRole, (p.leaseToken ++ rest).take (p.leaseToken.length % 65536)⟩ := by
  have hSplit : p.bytes ++ rest =
      [p.peerRole.toU8] ++ u16 (UInt16.ofNat p.leaseToken.length) ++ (p.leaseToken ++ rest) := by
    simp [bytes]
  have hLenField : slice (p.bytes ++ rest) 1 3 = u16 (UInt16.ofNat p.leaseToken.length) := by
    rw [hSplit]
    exact slice_middle _ _ _ rfl (by simp)
  have hTokenLen : (readU16 (slice (p.bytes ++ rest) 1 3)).toNat = p.leaseToken.length % 65536 := by
    rw [hLenField, readU16_u16, UInt16.toNat_ofNat']
  have hToken : ∀ m, slice (p.bytes ++ rest) 3 (3 + m) = (p.leaseToken ++ rest).take m := by
    intro m
    rw [hSplit, slice_append_of_le _ _ (by simp)]
    simp [slice_zero]
  have hLength : (p.bytes ++ rest).length = 3 + p.leaseToken.length + rest.length := by
    simp [bytes]
    omega
  have hRole : (p.bytes ++ rest).getD 0 0 = p.peerRole.toU8 := by simp [bytes]
  have hFits : ¬(p.bytes ++ rest).length < 3 + p.leaseToken.length % 65536 := by
    have := Nat.mod_le p.leaseToken.length 65536
    omega
  unfold decode
  rw [if_neg (by omega), hRole, PeerRole.tryFrom_toU8]
  dsimp only [Except.bind]
  rw [hTokenLen, if_neg hFits, hToken]

/-- A payload whose token is shorter than 64 KiB is read back from what its
encoder wrote. -/
theorem decode_encode {p : LeasePresentPayload} {buf out : List UInt8} {n : Nat}
    (hEncode : p.encode buf = .ok (n, out)) (hShort : p.leaseToken.length < 65536) :
    decode (out.take n) = .ok p := by
  rw [take_of_writePrefix hEncode, ← List.append_nil p.bytes, decode_bytes_append,
    Nat.mod_eq_of_lt hShort, List.append_nil, List.take_length]

/-- Any token of 64 KiB over a buffer of its 65539 bytes: the encoder
writes them all, with the length field `65536 as u16 = 0`, and the decoder
reads back an empty token. -/
theorem decode_encode_of_length_eq {peerRole : PeerRole} {token buf : List UInt8}
    (hToken : token.length = 65536) (hBuf : buf.length = 65539) :
    ∃ out, (⟨peerRole, token⟩ : LeasePresentPayload).encode buf = .ok (65539, out) ∧
      decode (out.take 65539) = .ok ⟨peerRole, []⟩ := by
  have hLength : (⟨peerRole, token⟩ : LeasePresentPayload).bytes.length = 65539 := by
    rw [bytes, List.length_append, List.length_append, List.length_singleton, length_u16, hToken]
  refine ⟨(⟨peerRole, token⟩ : LeasePresentPayload).bytes, ?_, ?_⟩
  · rw [encode, writePrefix_of_le (by rw [hLength, hBuf]), hLength, List.drop_eq_nil_of_le (by omega),
      List.append_nil]
  · rw [List.take_of_length_le (Nat.le_of_eq hLength), ← List.append_nil (bytes _),
      decode_bytes_append, hToken, Nat.mod_self, List.take_zero]

/-- A token of 64 KiB: the encoder writes all 65539 bytes, with the length
field `65536 as u16 = 0`, and the decoder reads back an empty token. -/
theorem decode_encode_token_65536 :
    ∃ out, (⟨.client, List.replicate 65536 0⟩ : LeasePresentPayload).encode
        (List.replicate 65539 0) = .ok (65539, out) ∧
      decode (out.take 65539) = .ok ⟨.client, []⟩ :=
  decode_encode_of_length_eq List.length_replicate List.length_replicate

/-- Whatever `decode` accepts, encoding it over the same buffer writes the
bytes already there. -/
theorem encode_of_decode {buf : List UInt8} {p : LeasePresentPayload} (hDecode : decode buf = .ok p) :
    p.encode buf = .ok (3 + p.leaseToken.length, buf) := by
  unfold decode at hDecode
  split_ifs at hDecode with hShort
  obtain ⟨peerRole, hRole, hRest⟩ := bind_eq_ok hDecode
  dsimp only at hRest
  split_ifs at hRest with hTooShort
  cases hRest
  have hTokenLength : (slice buf 3 (3 + (readU16 (slice buf 1 3)).toNat)).length =
      (readU16 (slice buf 1 3)).toNat := by
    simp only [length_slice]
    omega
  have hFirst : [peerRole.toU8] = slice buf 0 1 := by
    rw [slice_zero, take_eq_map_getD buf (by omega), PeerRole.code_of_tryFrom hRole]
    rfl
  have hLenField : u16 (UInt16.ofNat (readU16 (slice buf 1 3)).toNat) = slice buf 1 3 := by
    rw [UInt16.ofNat_toNat]
    exact u16_readU16 (by simp only [length_slice]; omega)
  have hBytes : bytes ⟨peerRole, slice buf 3 (3 + (readU16 (slice buf 1 3)).toNat)⟩ =
      buf.take (3 + (readU16 (slice buf 1 3)).toNat) := by
    rw [bytes, hTokenLength, hFirst, hLenField, slice_append_slice buf (by omega) (by omega),
      slice_append_slice buf (by omega) (by omega), slice_zero]
  rw [encode, hBytes, hTokenLength, writePrefix_take (by omega)]

end LeasePresentPayload

namespace LeaseAckPayload

theorem decode_bytes_append (p : LeaseAckPayload) (rest : List UInt8) :
    decode (p.bytes ++ rest) = .ok p := by
  have hExpires : slice (p.bytes ++ rest) 0 8 = u64 p.expiresMs := by
    rw [show p.bytes ++ rest = [] ++ u64 p.expiresMs ++ (u32 p.softLimitKbps ++ u32 p.hardLimitKbps ++ rest)
      by simp [bytes]]
    exact slice_middle _ _ _ rfl (by simp)
  have hSoft : slice (p.bytes ++ rest) 8 12 = u32 p.softLimitKbps := by
    rw [show p.bytes ++ rest = u64 p.expiresMs ++ u32 p.softLimitKbps ++ (u32 p.hardLimitKbps ++ rest)
      by simp [bytes]]
    exact slice_middle _ _ _ (by simp) (by simp)
  have hHard : slice (p.bytes ++ rest) 12 16 = u32 p.hardLimitKbps := by
    rw [show p.bytes ++ rest = (u64 p.expiresMs ++ u32 p.softLimitKbps) ++ u32 p.hardLimitKbps ++ rest
      by simp [bytes]]
    exact slice_middle _ _ _ (by simp) (by simp)
  have hLength : size ≤ (p.bytes ++ rest).length := by
    simp [bytes, size]
    omega
  unfold decode
  rw [if_neg (Nat.not_lt.mpr hLength), hExpires, hSoft, hHard]
  simp

theorem decode_encode {p : LeaseAckPayload} {buf out : List UInt8} {n : Nat}
    (hEncode : p.encode buf = .ok (n, out)) : decode (out.take n) = .ok p := by
  rw [take_of_writePrefix hEncode, ← List.append_nil p.bytes, decode_bytes_append]

theorem encode_of_decode {buf : List UInt8} {p : LeaseAckPayload} (hDecode : decode buf = .ok p) :
    p.encode buf = .ok (size, buf) := by
  unfold decode at hDecode
  split_ifs at hDecode with hShort
  cases hDecode
  have hLength : 16 ≤ buf.length := Nat.not_lt.mp hShort
  have hBytes : bytes ⟨readU64 (slice buf 0 8), readU32 (slice buf 8 12),
      readU32 (slice buf 12 16)⟩ = buf.take size := by
    rw [bytes, u64_readU64 (by simp only [length_slice]; omega),
      u32_readU32 (by simp only [length_slice]; omega), u32_readU32 (by simp only [length_slice]; omega),
      slice_append_slice buf (by omega) (by omega), slice_append_slice buf (by omega) (by omega),
      slice_zero]
    rfl
  rw [encode, hBytes, writePrefix_take (Nat.not_lt.mp hShort)]

end LeaseAckPayload

namespace LeaseRejectPayload

theorem decode_bytes_append (p : LeaseRejectPayload) (rest : List UInt8) :
    decode (u16 p.reason.toU16 ++ rest) = .ok p := by
  have hLength : size ≤ (u16 p.reason.toU16 ++ rest).length := by simp [size]
  unfold decode
  rw [if_neg (Nat.not_lt.mpr hLength), slice_append_zero _ _ (length_u16 _)]
  simp [Except.map]

theorem decode_encode {p : LeaseRejectPayload} {buf out : List UInt8} {n : Nat}
    (hEncode : p.encode buf = .ok (n, out)) : decode (out.take n) = .ok p := by
  rw [take_of_writePrefix hEncode, ← List.append_nil (u16 p.reason.toU16), decode_bytes_append]

theorem encode_of_decode {buf : List UInt8} {p : LeaseRejectPayload} (hDecode : decode buf = .ok p) :
    p.encode buf = .ok (size, buf) := by
  unfold decode at hDecode
  split_ifs at hDecode with hShort
  obtain ⟨reason, hReason, rfl⟩ := map_eq_ok hDecode
  have hLength : 2 ≤ buf.length := Nat.not_lt.mp hShort
  have hBytes : u16 reason.toU16 = buf.take size := by
    rw [LeaseRejectReason.code_of_tryFrom hReason, u16_readU16 (by simp only [length_slice]; omega),
      slice_zero]
    rfl
  rw [encode, hBytes, writePrefix_take (Nat.not_lt.mp hShort)]

end LeaseRejectPayload

namespace ForwardPayloadHeader

theorem decode_bytes_append (p : ForwardPayloadHeader) (rest : List UInt8) :
    decode (u64 p.sequence ++ rest) = .ok p := by
  have hLength : size ≤ (u64 p.sequence ++ rest).length := by simp [size]
  unfold decode
  rw [if_neg (Nat.not_lt.mpr hLength), slice_append_zero _ _ (length_u64 _), readU64_u64]

theorem decode_encode {p : ForwardPayloadHeader} {buf out : List UInt8} {n : Nat}
    (hEncode : p.encode buf = .ok (n, out)) : decode (out.take n) = .ok p := by
  rw [take_of_writePrefix hEncode, ← List.append_nil (u64 p.sequence), decode_bytes_append]

theorem encode_of_decode {buf : List UInt8} {p : ForwardPayloadHeader}
    (hDecode : decode buf = .ok p) : p.encode buf = .ok (size, buf) := by
  unfold decode at hDecode
  split_ifs at hDecode with hShort
  cases hDecode
  have hLength : 8 ≤ buf.length := Nat.not_lt.mp hShort
  rw [encode, u64_readU64 (by simp only [length_slice]; omega), slice_zero]
  exact writePrefix_take hLength

end ForwardPayloadHeader

end Wavry.RiftCore
