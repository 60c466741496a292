import Wavry.Lib.BigEndian

/-! The RIFT physical packet of `rift-core`: a two-byte magic, the protocol
version, then either a 16-byte session id (handshake layout) or a 4-byte
session alias (transport layout), the packet id and a CRC-16 over the header.
The decoder reads no type tag; it picks the layout from the four bytes after
the version and from the buffer length. -/
namespace Wavry.RiftCore

open BigEndian

def riftVersion : UInt16 := 1

def handshakeHeaderSize : Nat := 30

def transportHeaderSize : Nat := 18

def riftMagic : List UInt8 := [0x52, 0x49]

@[simp] theorem length_riftMagic : riftMagic.length = 2 := by simp [riftMagic]

/-- The decoding errors of `PhysicalPacket::decode`. -/
inductive RiftError where
  | tooShort (length : Nat)
  | invalidMagic (first second : UInt8)
  | unsupportedVersion (version : UInt16)
  | checksumMismatch
  deriving DecidableEq, Repr

/-- Exactly one of `sessionId` and `sessionAlias` is set by the senders; the
encoder writes an alias of zero when both are absent. -/
structure PhysicalPacket where
  version : UInt16
  sessionId : Option (BitVec 128)
  sessionAlias : Option UInt32
  packetId : UInt64
  payload : List UInt8
  deriving DecidableEq, Repr

/-- One byte of the crc16 crate's `KERMIT` state update: the reflected
polynomial `0x1021`, initial value zero and no final xor. -/
def kermitByte (crc : UInt16) (byte : UInt8) : UInt16 :=
  (List.range 8).foldl (fun c _ => if c &&& 1 = 1 then (c >>> 1) ^^^ 0x8408 else c >>> 1)
    (crc ^^^ byte.toUInt16)

/-- CRC-16/KERMIT, the checksum the packet header carries. -/
def kermit (bytes : List UInt8) : UInt16 := bytes.foldl kermitByte 0

example : kermit [0x31, 0x32, 0x33, 0x34, 0x35, 0x36, 0x37, 0x38, 0x39] = 0x2189 := by
  decide +kernel

namespace PhysicalPacket

variable (crc : List UInt8 → UInt16)

/-- The bytes before the checksum field. -/
def header (p : PhysicalPacket) : List UInt8 :=
  riftMagic ++ u16 p.version ++
    (match p.sessionId with
      | some id => u128 id
      | none => u32 (p.sessionAlias.getD 0)) ++
    u64 p.packetId

/-- `PhysicalPacket::encode`: the header, the checksum of the header, the payload.
The checksum function is a parameter; the code uses `kermit`. -/
def encode (p : PhysicalPacket) : List UInt8 :=
  header p ++ u16 (crc (header p)) ++ p.payload

/-- `PhysicalPacket::decode`. -/
def decode (bytes : List UInt8) : Except RiftError PhysicalPacket :=
  if bytes.length < transportHeaderSize then .error (.tooShort bytes.length)
  else if bytes.take 2 ≠ riftMagic then .error (.invalidMagic (bytes.getD 0 0) (bytes.getD 1 0))
  else
    let version := readU16 (slice bytes 2 4)
    if version ≠ riftVersion then .error (.unsupportedVersion version)
    else
      let aliasTest := readU32 (slice bytes 4 8)
      if aliasTest = 0 ∧ handshakeHeaderSize ≤ bytes.length then
        let sessionId := readU128 (slice bytes 4 20)
        let packetId := readU64 (slice bytes 20 28)
        let csum := readU16 (slice bytes 28 30)
        if crc (bytes.take 28) ≠ csum then .error .checksumMismatch
        else .ok ⟨version, some sessionId, none, packetId, bytes.drop handshakeHeaderSize⟩
      else
        let packetId := readU64 (slice bytes 8 16)
        let csum := readU16 (slice bytes 16 18)
        if crc (bytes.take 16) ≠ csum then .error .checksumMismatch
        else .ok ⟨version, none, some aliasTest, packetId, bytes.drop transportHeaderSize⟩

/-! ## Decoding the two layouts -/

theorem header_of_sessionId {p : PhysicalPacket} {id : BitVec 128} (h : p.sessionId = some id) :
    header p = riftMagic ++ u16 p.version ++ u128 id ++ u64 p.packetId := by
  simp [header, h]

theorem header_of_sessionAlias {p : PhysicalPacket} {a : UInt32} (hId : p.sessionId = none)
    (hAlias : p.sessionAlias = some a) :
    header p = riftMagic ++ u16 p.version ++ u32 a ++ u64 p.packetId := by
  simp [header, hId, hAlias]

/-- A buffer with the handshake layout whose alias test reads zero decodes to
its fields, whatever the checksum function. -/
theorem decode_handshake_layout (version : UInt16) (idBytes : List UInt8) (packetId : UInt64)
    (payload : List UInt8) (hVersion : version = riftVersion) (hIdLength : idBytes.length = 16)
    (hAliasZero : readU32 (idBytes.take 4) = 0) :
    decode crc (riftMagic ++ u16 version ++ idBytes ++ u64 packetId ++
        u16 (crc (riftMagic ++ u16 version ++ idBytes ++ u64 packetId)) ++ payload) =
      .ok ⟨version, some (readU128 idBytes), none, packetId, payload⟩ := by
  simp only [decode, List.append_assoc]
  simp +arith [hIdLength, hVersion, transportHeaderSize, handshakeHeaderSize, hAliasZero,
    List.take_of_length_le, List.take_append, List.drop_append, List.drop_eq_nil_of_le]

/-- A buffer with the transport layout decodes to its fields unless the alias
is zero and the payload is long enough for a handshake header. -/
theorem decode_transport_layout (version : UInt16) (sessionAlias : UInt32) (packetId : UInt64)
    (payload : List UInt8) (hVersion : version = riftVersion)
    (hLayout : sessionAlias ≠ 0 ∨ payload.length < 12) :
    decode crc (riftMagic ++ u16 version ++ u32 sessionAlias ++ u64 packetId ++
        u16 (crc (riftMagic ++ u16 version ++ u32 sessionAlias ++ u64 packetId)) ++ payload) =
      .ok ⟨version, none, some sessionAlias, packetId, payload⟩ := by
  have hTransport : ¬(sessionAlias = 0 ∧ 12 ≤ payload.length) := by
    rintro ⟨hZero, hLong⟩
    rcases hLayout with hAlias | hShort
    · exact hAlias hZero
    · omega
  simp only [decode, List.append_assoc]
  simp +arith [hVersion, transportHeaderSize, handshakeHeaderSize, hTransport,
    List.take_of_length_le, List.take_append, List.drop_append, List.drop_eq_nil_of_le]

/-- Whatever `decode` accepts has the layout its alias test chose: a session id
and no alias exactly when the four bytes after the version are zero and the
buffer holds a handshake header. -/
theorem decode_ok_layout {bytes : List UInt8} {q : PhysicalPacket} (h : decode crc bytes = .ok q) :
    (readU32 (slice bytes 4 8) = 0 ∧ handshakeHeaderSize ≤ bytes.length ∧
        q.sessionId.isSome ∧ q.sessionAlias = none) ∨
      (¬(readU32 (slice bytes 4 8) = 0 ∧ handshakeHeaderSize ≤ bytes.length) ∧
        q.sessionId = none ∧ q.sessionAlias = some (readU32 (slice bytes 4 8))) := by
  unfold decode at h
  dsimp only at h
  split_ifs at h with hShort hMagic hVersion hHandshake hChecksum hChecksum'
  all_goals cases h
  · exact .inl ⟨hHandshake.1, hHandshake.2, rfl, rfl⟩
  · exact .inr ⟨hHandshake, rfl, rfl⟩

/-- Handshake packets round trip when the top 32 bits of the session id are
zero: then the alias test reads zero and the handshake layout is chosen. -/
theorem decode_encode_handshake {p : PhysicalPacket} {id : BitVec 128}
    (hVersion : p.version = riftVersion) (hId : p.sessionId = some id)
    (hAlias : p.sessionAlias = none) (hLow : id.toNat < 2 ^ 96) :
    decode crc (encode crc p) = .ok p := by
  have hAliasZero : readU32 ((u128 id).take 4) = 0 := by
    rw [u128_eq_high_append, Nat.div_eq_of_lt hLow]
    simp
  obtain ⟨version, sessionId, sessionAlias, packetId, payload⟩ := p
  simp only at hVersion hId hAlias
  subst hId hAlias
  rw [encode, header_of_sessionId rfl,
    decode_handshake_layout crc version (u128 id) packetId payload hVersion (length_u128 id) hAliasZero,
    readU128_u128]

/-- Transport packets round trip unless the alias is zero and the payload is
long enough to be taken for a handshake. -/
theorem decode_encode_transport {p : PhysicalPacket} {a : UInt32}
    (hVersion : p.version = riftVersion) (hId : p.sessionId = none)
    (hAlias : p.sessionAlias = some a) (hLayout : a ≠ 0 ∨ p.payload.length < 12) :
    decode crc (encode crc p) = .ok p := by
  obtain ⟨version, sessionId, sessionAlias, packetId, payload⟩ := p
  simp only at hVersion hId hAlias hLayout
  subst hId hAlias
  rw [encode, header_of_sessionAlias rfl rfl,
    decode_transport_layout crc version a packetId payload hVersion hLayout]

/-- A packet with no session id and an alias that is absent or zero, and a
payload of twelve bytes or more, is read with the handshake layout: whatever
`decode` returns for it carries a session id and no alias. -/
theorem decode_encode_of_zero_alias {p : PhysicalPacket} (hId : p.sessionId = none)
    (hAlias : p.sessionAlias.getD 0 = 0) (hLong : 12 ≤ p.payload.length) {q : PhysicalPacket}
    (hDecode : decode crc (encode crc p) = .ok q) : q.sessionId.isSome ∧ q.sessionAlias = none := by
  have hHeader : header p = riftMagic ++ u16 p.version ++ u32 0 ++ u64 p.packetId := by
    simp [header, hId, hAlias]
  have hAliasField : readU32 (slice (encode crc p) 4 8) = 0 := by
    simp [encode, hHeader, List.take_of_length_le]
  have hLength : handshakeHeaderSize ≤ (encode crc p).length := by
    simp [encode, hHeader, handshakeHeaderSize]
    omega
  rcases decode_ok_layout crc hDecode with ⟨-, -, hSome, hNone⟩ | ⟨hNot, -⟩
  · exact ⟨hSome, hNone⟩
  · exact absurd ⟨hAliasField, hLength⟩ hNot

end PhysicalPacket

end Wavry.RiftCore
