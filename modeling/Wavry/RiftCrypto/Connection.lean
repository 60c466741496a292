import Wavry.RiftCrypto.Noise
import Wavry.RiftCrypto.SeqWindow
import Wavry.Lib.Aead
import Wavry.Lib.XorPad
import Wavry.Lib.LittleEndian
import Wavry.Lib.Trace

/-! Secure connections of `rift-crypto` (`connection.rs`). A client and a
server run the Noise XX handshake, derive one ChaCha20-Poly1305 key for each
direction by XORing the handshake hash with a label, and then encrypt each
packet with its packet id as nonce; a receiver checks the id against its
replay window, decrypts, and only then marks the id as seen. ChaCha20-Poly1305
is an `Aead.Scheme` on 32-byte keys whose errors print as `ε` does, and `snow`
is as in `Noise`. -/
namespace Wavry.RiftCrypto

/-- `ConnectionError`. -/
inductive ConnectionError (E : Type) where
  | handshakeFailed (msg : String)
  | encryptionFailed (msg : String)
  | decryptionFailed (msg : String)
  | replayDetected (packetId : UInt64)
  | invalidPacket
  | notEstablished
  | noise (e : NoiseError E)

/-- The byte-wise XOR of two keys, the loop of `from_session`. -/
def Bytes32.xor (a b : Bytes32) : Bytes32 :=
  ⟨XorPad.xorInto a.bytes b.bytes, by rw [XorPad.length_xorInto, a.length_bytes]⟩

/-- `label_i2r`. -/
def labelI2r : Bytes32 := ⟨"wavrykdf-initiator-to-responder0".toUTF8.toList, by decide +kernel⟩

/-- `label_r2i`. -/
def labelR2i : Bytes32 := ⟨"wavrykdf-responder-to-initiator0".toUTF8.toList, by decide +kernel⟩

/-- `PacketCipher`; a keyed `ChaCha20Poly1305` is its key. -/
structure PacketCipher where
  sendCipher : Bytes32
  recvCipher : Bytes32
  deriving DecidableEq

/-- `packet_id_to_nonce`: four zero bytes, then the id's little-endian bytes. -/
def packetIdToNonce (packetId : UInt64) : List UInt8 :=
  [0, 0, 0, 0] ++ LittleEndian.u64.encode packetId

namespace PacketCipher

variable {T E ε : Type} [ToString ε]
  (aead : Aead.Scheme Bytes32 (List UInt8) (List UInt8) (List UInt8) ε)

/-- `PacketCipher::new`. -/
def new (sendKey recvKey : Bytes32) : PacketCipher := ⟨sendKey, recvKey⟩

/-- `PacketCipher::from_session`, which never fails: the initiator sends with
`hash ^ label_i2r` and receives with `hash ^ label_r2i`, the responder the
other way round. -/
def fromSession (session : NoiseSession T) (isInitiator : Bool) :
    Except (ConnectionError E) PacketCipher :=
  let hash := session.handshakeHash
  let keyI2r := hash.xor labelI2r
  let keyR2i := hash.xor labelR2i
  let (sendKey, recvKey) := if isInitiator then (keyI2r, keyR2i) else (keyR2i, keyI2r)
  .ok (new sendKey recvKey)

/-- `PacketCipher::encrypt`. -/
def encrypt (c : PacketCipher) (packetId : UInt64) (plaintext : List UInt8) :
    Except (ConnectionError E) (List UInt8) :=
  (aead.encrypt c.sendCipher (packetIdToNonce packetId) plaintext).mapError
    fun e => .encryptionFailed (toString e)

/-- `PacketCipher::decrypt`. -/
def decrypt (c : PacketCipher) (packetId : UInt64) (ciphertext : List UInt8) :
    Except (ConnectionError E) (List UInt8) :=
  (aead.decrypt c.recvCipher (packetIdToNonce packetId) ciphertext).mapError
    fun e => .decryptionFailed (toString e)

end PacketCipher

section Transport

variable {E ε : Type} [ToString ε]
  (aead : Aead.Scheme Bytes32 (List UInt8) (List UInt8) (List UInt8) ε)

/-- The body of `SecureClient::encrypt` and `SecureServer::encrypt`. -/
def encryptWith (cipher : Option PacketCipher) (packetId : UInt64) (plaintext : List UInt8) :
    Except (ConnectionError E) (List UInt8) :=
  match cipher with
  | none => .error .notEstablished
  | some cipher => cipher.encrypt aead packetId plaintext

/-- The body of `SecureClient::decrypt` and `SecureServer::decrypt`: the
window is checked first, the packet decrypted next, and the id marked as seen
only after that. -/
def decryptWith (recvWindow : SequenceWindow) (cipher : Option PacketCipher) (packetId : UInt64)
    (ciphertext : List UInt8) : SequenceWindow × Except (ConnectionError E) (List UInt8) :=
  if !recvWindow.check packetId then (recvWindow, .error (.replayDetected packetId))
  else
    match cipher with
    | none => (recvWindow, .error .notEstablished)
    | some cipher =>
        match cipher.decrypt aead packetId ciphertext with
        | .error e => (recvWindow, .error e)
        | .ok plaintext => ((recvWindow.checkAndUpdate packetId).2, .ok plaintext)

end Transport

/-- `ClientHandshakeState`. -/
inductive ClientHandshakeState where
  | init
  | sentMsg1
  | receivedMsg2
  | complete
  deriving DecidableEq, Repr

/-- `SecureClient`; the local keypair, read only by `local_public_key`, is left
out. -/
structure SecureClient (H T : Type) where
  initiator : Option (NoiseInitiator H T)
  state : ClientHandshakeState
  cipher : Option PacketCipher
  recvWindow : SequenceWindow

/-- `ServerHandshakeState`. -/
inductive ServerHandshakeState where
  | init
  | sentMsg2
  | complete
  deriving DecidableEq, Repr

/-- `SecureServer`; the local keypair is left out as for the client. -/
structure SecureServer (H T : Type) where
  responder : Option (NoiseResponder H T)
  state : ServerHandshakeState
  cipher : Option PacketCipher
  recvWindow : SequenceWindow

section Sides

variable {H T E ε : Type} [ToString ε] (snow : Snow H T E)
  (aead : Aead.Scheme Bytes32 (List UInt8) (List UInt8) (List UInt8) ε)

namespace SecureClient

/-- `SecureClient::new` and `with_keypair`, from the initiator they build. -/
def new (initiator : NoiseInitiator H T) : SecureClient H T :=
  ⟨some initiator, .init, none, SequenceWindow.new⟩

/-- `start_handshake`. -/
def startHandshake (c : SecureClient H T) : SecureClient H T × Except (ConnectionError E) (List UInt8) :=
  match c.initiator with
  | none => (c, .error .notEstablished)
  | some initiator =>
      match initiator.writeMessage1 snow with
      | (initiator, .error e) => ({ c with initiator := some initiator }, .error (.noise e))
      | (initiator, .ok msg) => ({ c with initiator := some initiator, state := .sentMsg1 }, .ok msg)

/-- `process_server_response`. `take` empties the initiator's slot before
`into_session` can fail. -/
def processServerResponse (c : SecureClient H T) (data : List UInt8) :
    SecureClient H T × Except (ConnectionError E) (List UInt8) :=
  match c.initiator with
  | none => (c, .error .notEstablished)
  | some initiator =>
      match initiator.readMessage2 snow data with
      | (initiator, .error e) => ({ c with initiator := some initiator }, .error (.noise e))
      | (initiator, .ok _) =>
          let c := { c with initiator := some initiator, state := .receivedMsg2 }
          match initiator.writeMessage3 snow [] with
          | (initiator, .error e) => ({ c with initiator := some initiator }, .error (.noise e))
          | (initiator, .ok msg3) =>
              match initiator.intoSession with
              | .error e => ({ c with initiator := none }, .error (.noise e))
              | .ok session =>
                  match PacketCipher.fromSession session true with
                  | .error e => ({ c with initiator := none }, .error e)
                  | .ok cipher =>
                      ({ c with
                          initiator := none
                          cipher := some cipher
                          recvWindow := c.recvWindow.reset
                          state := .complete }, .ok msg3)

/-- `is_established`. -/
def isEstablished (c : SecureClient H T) : Bool := c.state == .complete

/-- `SecureClient::encrypt`. -/
def encrypt (c : SecureClient H T) (packetId : UInt64) (plaintext : List UInt8) :
    Except (ConnectionError E) (List UInt8) :=
  encryptWith aead c.cipher packetId plaintext

/-- `SecureClient::decrypt`. -/
def decrypt (c : SecureClient H T) (packetId : UInt64) (ciphertext : List UInt8) :
    SecureClient H T × Except (ConnectionError E) (List UInt8) :=
  let (recvWindow, result) := decryptWith aead c.recvWindow c.cipher packetId ciphertext
  ({ c with recvWindow := recvWindow }, result)

end SecureClient

namespace SecureServer

/-- `SecureServer::new` and `with_keypair`, from the responder they build. -/
def new (responder : NoiseResponder H T) : SecureServer H T :=
  ⟨some responder, .init, none, SequenceWindow.new⟩

/-- `process_client_hello`. -/
def processClientHello (s : SecureServer H T) (data : List UInt8) :
    SecureServer H T × Except (ConnectionError E) (List UInt8) :=
  match s.responder with
  | none => (s, .error .notEstablished)
  | some responder =>
      match responder.readMessage1 snow data with
      | (responder, .error e) => ({ s with responder := some responder }, .error (.noise e))
      | (responder, .ok _) =>
          match responder.writeMessage2 snow [] with
          | (responder, .error e) => ({ s with responder := some responder }, .error (.noise e))
          | (responder, .ok msg2) =>
              ({ s with responder := some responder, state := .sentMsg2 }, .ok msg2)

/-- `process_client_finish`. -/
def processClientFinish (s : SecureServer H T) (data : List UInt8) :
    SecureServer H T × Except (ConnectionError E) Unit :=
  match s.responder with
  | none => (s, .error .notEstablished)
  | some responder =>
      match responder.readMessage3 snow data with
      | (responder, .error e) => ({ s with responder := some responder }, .error (.noise e))
      | (responder, .ok _) =>
          match responder.intoSession with
          | .error e => ({ s with responder := none }, .error (.noise e))
          | .ok session =>
              match PacketCipher.fromSession session false with
              | .error e => ({ s with responder := none }, .error e)
              | .ok cipher =>
                  ({ s with
                      responder := none
                      cipher := some cipher
                      recvWindow := s.recvWindow.reset
                      state := .complete }, .ok ())

/-- `is_established`. -/
def isEstablished (s : SecureServer H T) : Bool := s.state == .complete

/-- `SecureServer::encrypt`. -/
def encrypt (s : SecureServer H T) (packetId : UInt64) (plaintext : List UInt8) :
    Except (ConnectionError E) (List UInt8) :=
  encryptWith aead s.cipher packetId plaintext

/-- `SecureServer::decrypt`. -/
def decrypt (s : SecureServer H T) (packetId : UInt64) (ciphertext : List UInt8) :
    SecureServer H T × Except (ConnectionError E) (List UInt8) :=
  let (recvWindow, result) := decryptWith aead s.recvWindow s.cipher packetId ciphertext
  ({ s with recvWindow := recvWindow }, result)

end SecureServer

end Sides

/-! ## The keys -/

theorem Bytes32.ext_bytes {a b : Bytes32} (h : a.bytes = b.bytes) : a = b := by
  cases a
  cases b
  cases h
  rfl

theorem Bytes32.xor_xor_cancel (a b c : Bytes32) : (a.xor b).xor (b.xor c) = a.xor c := by
  apply Bytes32.ext_bytes
  change XorPad.xorInto (XorPad.xorInto a.bytes b.bytes) (XorPad.xorInto b.bytes c.bytes) =
    XorPad.xorInto a.bytes c.bytes
  rw [XorPad.xorInto_assoc (by rw [a.length_bytes, b.length_bytes]) (by simp [b.length_bytes]),
    XorPad.xorInto_cancel_left (by rw [b.length_bytes, c.length_bytes])]

namespace PacketCipher

variable {T E : Type}

/-- The cipher `from_session` derives from a handshake hash for one role. -/
def ofHash (hash : Bytes32) (isInitiator : Bool) : PacketCipher :=
  if isInitiator then ⟨hash.xor labelI2r, hash.xor labelR2i⟩ else ⟨hash.xor labelR2i, hash.xor labelI2r⟩

theorem fromSession_eq (session : NoiseSession T) (isInitiator : Bool) :
    fromSession (E := E) session isInitiator = .ok (ofHash session.handshakeHash isInitiator) := by
  cases isInitiator <;> rfl

/-- An initiator's receive key is its send key XOR `label_i2r ^ label_r2i`,
and a responder's send key is its receive key XOR the same. -/
theorem ofHash_keys (hash : Bytes32) :
    (ofHash hash true).recvCipher = (ofHash hash true).sendCipher.xor (labelI2r.xor labelR2i) ∧
      (ofHash hash false).sendCipher = (ofHash hash false).recvCipher.xor (labelI2r.xor labelR2i) :=
  ⟨(Bytes32.xor_xor_cancel _ _ _).symm, (Bytes32.xor_xor_cancel _ _ _).symm⟩

end PacketCipher

/-! ## Nonces -/

theorem packetIdToNonce_injective {a b : UInt64} (h : packetIdToNonce a = packetIdToNonce b) : a = b := by
  have hEncode : LittleEndian.u64.encode a = LittleEndian.u64.encode b := List.append_cancel_left h
  rw [← LittleEndian.u64.decode_encode a, hEncode, LittleEndian.u64.decode_encode]

/-! ## A symbolic AEAD for concrete runs -/

/-- An AEAD whose ciphertext is the key and the 12-byte nonce written before
the message. It is canonical and computes, so concrete runs can be evaluated
with it. -/
def prefixAead : Aead.Scheme Bytes32 (List UInt8) (List UInt8) (List UInt8) Unit where
  encrypt key nonce message := if nonce.length = 12 then .ok (key.bytes ++ nonce ++ message) else .error ()
  decrypt key nonce ciphertext :=
    if nonce.length = 12 ∧ ciphertext.take 44 = key.bytes ++ nonce then .ok (ciphertext.drop 44)
    else .error ()
  decrypt_encrypt := by
    intro key nonce message ciphertext h
    by_cases hNonce : nonce.length = 12
    · rw [if_pos hNonce] at h
      cases h
      have hLen : (key.bytes ++ nonce).length = 44 := by rw [List.length_append, key.length_bytes, hNonce]
      rw [if_pos ⟨hNonce, List.take_left' hLen⟩, List.drop_left' hLen]
    · rw [if_neg hNonce] at h
      cases h

/-- A 32-byte hash of zeros. -/
def zeroHash : Bytes32 := ⟨List.replicate 32 0, rfl⟩

theorem prefixAead_encrypt_eq_ok {key : Bytes32} {nonce message ciphertext : List UInt8} :
    prefixAead.encrypt key nonce message = .ok ciphertext ↔
      nonce.length = 12 ∧ key.bytes ++ nonce ++ message = ciphertext := by
  show (if nonce.length = 12 then _ else _) = _ ↔ _
  by_cases hNonce : nonce.length = 12
  · rw [if_pos hNonce]
    simp [hNonce]
  · rw [if_neg hNonce]
    simp [hNonce]

theorem prefixAead_canonical : prefixAead.Canonical where
  encrypt_of_decrypt := by
    intro key nonce ciphertext message h
    change (if nonce.length = 12 ∧ ciphertext.take 44 = key.bytes ++ nonce then
      Except.ok (ciphertext.drop 44) else .error ()) = .ok message at h
    by_cases hOpen : nonce.length = 12 ∧ ciphertext.take 44 = key.bytes ++ nonce
    · rw [if_pos hOpen] at h
      cases h
      rw [prefixAead_encrypt_eq_ok, ← hOpen.2, List.take_append_drop]
      exact ⟨hOpen.1, rfl⟩
    · rw [if_neg hOpen] at h
      cases h

/-! ## Decryption behind the window -/

section Transport

variable {E ε : Type} [ToString ε]
  {aead : Aead.Scheme Bytes32 (List UInt8) (List UInt8) (List UInt8) ε}

theorem PacketCipher.decrypt_eq_ok {c : PacketCipher} {packetId : UInt64} {ciphertext plaintext : List UInt8} :
    c.decrypt (E := E) aead packetId ciphertext = .ok plaintext ↔
      aead.decrypt c.recvCipher (packetIdToNonce packetId) ciphertext = .ok plaintext := by
  unfold PacketCipher.decrypt
  cases aead.decrypt c.recvCipher (packetIdToNonce packetId) ciphertext <;>
    simp [Except.mapError]

theorem PacketCipher.encrypt_eq_ok {c : PacketCipher} {packetId : UInt64} {plaintext ciphertext : List UInt8} :
    c.encrypt (E := E) aead packetId plaintext = .ok ciphertext ↔
      aead.encrypt c.sendCipher (packetIdToNonce packetId) plaintext = .ok ciphertext := by
  unfold PacketCipher.encrypt
  cases aead.encrypt c.sendCipher (packetIdToNonce packetId) plaintext <;>
    simp [Except.mapError]

theorem encryptWith_eq_ok {cipher : Option PacketCipher} {packetId : UInt64} {plaintext ciphertext : List UInt8}
    (h : encryptWith (E := E) aead cipher packetId plaintext = .ok ciphertext) :
    ∃ c, cipher = some c ∧ aead.encrypt c.sendCipher (packetIdToNonce packetId) plaintext = .ok ciphertext := by
  cases cipher with
  | none => cases h
  | some c => exact ⟨c, rfl, PacketCipher.encrypt_eq_ok.mp h⟩

variable {w w' : SequenceWindow} {accepted : Finset ℕ}

/-- A window refuses every id it has accepted. -/
theorem check_eq_false_of_mem (hWindow : w.Represents accepted) {packetId : UInt64}
    (hMem : packetId.toNat ∈ accepted) : w.check packetId = false := by
  rw [SequenceWindow.check_eq]
  cases hVerdict : (w.checkAndUpdate packetId).1
  · rfl
  · exact absurd hMem ((SequenceWindow.checkAndUpdate_spec hWindow packetId).sound hVerdict).1

/-- Everything the shared `decrypt` can do: a replayed id is refused before
any decryption, every failure leaves the window as it was, and a success
decrypted the packet under the receive key and accepted its id, which the
window had not accepted before. -/
theorem decryptWith_spec {cipher : Option PacketCipher} {packetId : UInt64} {ciphertext : List UInt8}
    {result : Except (ConnectionError E) (List UInt8)} (hWindow : w.Represents accepted)
    (h : decryptWith aead w cipher packetId ciphertext = (w', result)) :
    (packetId.toNat ∈ accepted → w' = w ∧ result = .error (.replayDetected packetId)) ∧
    (∀ e, result = .error e → w' = w) ∧
    (∀ plaintext, result = .ok plaintext →
      packetId.toNat ∉ accepted ∧ w'.Represents (insert packetId.toNat accepted) ∧
      ∃ c, cipher = some c ∧
        aead.decrypt c.recvCipher (packetIdToNonce packetId) ciphertext = .ok plaintext) := by
  unfold decryptWith at h
  by_cases hCheck : w.check packetId = true
  · have hVerdict : (w.checkAndUpdate packetId).1 = true := by rwa [← SequenceWindow.check_eq]
    have hStep := SequenceWindow.checkAndUpdate_spec hWindow packetId
    have hFresh : packetId.toNat ∉ accepted := (hStep.sound hVerdict).1
    simp only [hCheck, Bool.not_true, Bool.false_eq_true, if_false] at h
    refine ⟨fun hMem => absurd hMem hFresh, ?_⟩
    rcases cipher with _ | c
    · cases h
      exact ⟨fun _ _ => rfl, fun _ hp => by cases hp⟩
    · dsimp only at h
      cases hDecrypt : c.decrypt aead packetId ciphertext with
      | error e =>
          rw [hDecrypt] at h
          cases h
          exact ⟨fun _ _ => rfl, fun _ hp => by cases hp⟩
      | ok plaintext =>
          rw [hDecrypt] at h
          cases h
          have hRep := hStep.represents
          rw [hVerdict, if_pos rfl] at hRep
          refine ⟨fun _ he => (nomatch he), fun _ hp => ?_⟩
          cases hp
          exact ⟨hFresh, hRep, c, rfl, PacketCipher.decrypt_eq_ok.mp hDecrypt⟩
  · rw [Bool.not_eq_true] at hCheck
    rw [hCheck] at h
    cases h
    exact ⟨fun _ => ⟨rfl, rfl⟩, fun _ _ => rfl, fun _ hp => by cases hp⟩

/-- A packet forged as bytes that do not open is refused and leaves the
window of an established receiver as it was. -/
theorem decryptWith_spec_forged :
    (decryptWith (E := Unit) prefixAead SequenceWindow.new (some (PacketCipher.ofHash zeroHash false))
        1 []).2.isOk = false ∧
      (decryptWith (E := Unit) prefixAead SequenceWindow.new (some (PacketCipher.ofHash zeroHash false))
        1 []).1 = SequenceWindow.new := by
  have hRefused : (decryptWith (E := Unit) prefixAead SequenceWindow.new
      (some (PacketCipher.ofHash zeroHash false)) 1 []).2.isOk = false := by
    decide +kernel
  refine ⟨hRefused, ?_⟩
  cases hResult : (decryptWith (E := Unit) prefixAead SequenceWindow.new
      (some (PacketCipher.ofHash zeroHash false)) 1 []).2 with
  | ok _ =>
      rw [hResult] at hRefused
      cases hRefused
  | error e =>
      exact (decryptWith_spec SequenceWindow.represents_new (Prod.mk.eta (p := decryptWith (E := Unit)
        prefixAead SequenceWindow.new (some (PacketCipher.ofHash zeroHash false)) 1 [])).symm).2.1 e hResult

/-- An established sender's packet, handed unchanged to its peer, decrypts to
what was sent, whenever the peer's window accepts the id by the replay rule
and `id + window_size` fits in a `u64`. -/
theorem decryptWith_encryptWith {sender receiver : PacketCipher} {packetId : UInt64}
    {plaintext ciphertext : List UInt8} (hKeys : sender.sendCipher = receiver.recvCipher)
    (hWindow : w.Represents accepted)
    (hAccepts : Accepts accepted w.windowSize.toNat packetId.toNat)
    (hFit : packetId.toNat + w.windowSize.toNat < 2 ^ 64)
    (hEnc : encryptWith (E := E) aead (some sender) packetId plaintext = .ok ciphertext) :
    decryptWith (E := E) aead w (some receiver) packetId ciphertext =
      ((w.checkAndUpdate packetId).2, .ok plaintext) := by
  have hVerdict := (SequenceWindow.checkAndUpdate_spec hWindow packetId).complete hFit hAccepts
  have hCheck : w.check packetId = true := by rw [SequenceWindow.check_eq, hVerdict]
  have hDecrypt : receiver.decrypt (E := E) aead packetId ciphertext = .ok plaintext := by
    rw [PacketCipher.decrypt_eq_ok, ← hKeys]
    exact aead.decrypt_encrypt (PacketCipher.encrypt_eq_ok.mp hEnc)
  unfold decryptWith
  simp only [hCheck, Bool.not_true, Bool.false_eq_true, if_false]
  rw [hDecrypt]

/-- The initiator's first packet, handed to a fresh responder window. -/
theorem decryptWith_encryptWith_first :
    decryptWith (E := Unit) prefixAead SequenceWindow.new (some (PacketCipher.ofHash zeroHash false)) 1
        ((PacketCipher.ofHash zeroHash true).sendCipher.bytes ++ packetIdToNonce 1 ++ [7]) =
      ((SequenceWindow.new.checkAndUpdate 1).2, .ok [7]) :=
  decryptWith_encryptWith rfl SequenceWindow.represents_new (by decide) (by decide) rfl

end Transport

end Wavry.RiftCrypto
