import Wavry.RiftCrypto.ConnectionRuns
import Wavry.RiftCore.Packet

/-! The host's per-peer crypto state (`wavry-server`, `main.rs`): the crypto
branch of `handle_raw_packet`, which runs the Noise handshake of a
`SecureServer` over RIFT packets and then decrypts every packet of the peer
before handing it on. A packet with session id 0 is message 1, answered with a
message 2 that is cached and resent for a repeated message 1; a packet with a
session alias is message 3; once established, every packet is decrypted.

The handler drives its server through a run of `SecureServer` calls, so the
server's run results carry over. It also decides message 3 by the header
alone: any packet with an alias that arrives while the peer is handshaking is
taken as message 3, and a message 3 that fails leaves the responder
`Invalid`, after which the peer stays handshaking whatever arrives. -/
namespace Wavry.Server

open Wavry.RiftCrypto Wavry.RiftCore

/-- `CryptoState`. -/
inductive CryptoState (H T : Type) where
  | disabled
  | handshaking (server : SecureServer H T)
  | established (server : SecureServer H T)

namespace CryptoState

variable {H T : Type}

/-- `CryptoState::new`, from the server `SecureServer::new` builds. -/
def new (disabled : Bool) (server : SecureServer H T) : CryptoState H T :=
  if disabled then .disabled else .handshaking server

/-- `CryptoState::is_established`. -/
def isEstablished : CryptoState H T → Bool
  | .established _ | .disabled => true
  | .handshaking _ => false

end CryptoState

/-- The two fields of `PeerState` that the crypto branch reads and writes;
`PeerState::new` starts them at `CryptoState::new` and no cached message 2. -/
structure PeerCrypto (H T : Type) where
  crypto : CryptoState H T
  pendingCryptoMsg2 : Option (List UInt8)

/-- The errors of the crypto branch, each an `anyhow!` message there. -/
inductive PacketError (E : Type) where
  /-- `"Noise error: {}"` from a handshake call. -/
  | noise (e : ConnectionError E)
  /-- `"unexpected session_id in crypto handshake"`. -/
  | unexpectedSessionId
  /-- `"unexpected packet format during crypto handshake"`. -/
  | unexpectedFormat
  /-- `"Decrypt failed: {}"`. -/
  | decryptFailed (e : ConnectionError E)

/-- What a packet leads to: a packet sent back to the peer, a payload handed
on to `decode_msg` and `handle_rift_msg`, or nothing. -/
inductive Outcome where
  | reply (packet : PhysicalPacket)
  | deliver (payload : List UInt8)
  | none

/-- The physical packet that carries message 2. -/
def msg2Packet (payload : List UInt8) : PhysicalPacket :=
  ⟨riftVersion, some 0, none, 0, payload⟩

section Handler

variable {H T E ε : Type} [ToString ε] (snow : Snow H T E)
  (aead : Aead.Scheme Bytes32 (List UInt8) (List UInt8) (List UInt8) ε)

/-- The crypto branch of `handle_raw_packet` on a decoded packet. The server
is borrowed mutably, so a failed call keeps what it did to it. -/
def handleCrypto (peer : PeerCrypto H T) (phys : PhysicalPacket) :
    PeerCrypto H T × Except (PacketError E) Outcome :=
  match peer.crypto with
  | .disabled => (peer, .ok (.deliver phys.payload))
  | .handshaking server =>
      match phys.sessionId with
      | some sid =>
          if sid = 0 then
            match peer.pendingCryptoMsg2 with
            | some cached => (peer, .ok (.reply (msg2Packet cached)))
            | none =>
                match server.processClientHello snow phys.payload with
                | (server, .error e) => ({ peer with crypto := .handshaking server }, .error (.noise e))
                | (server, .ok msg2) =>
                    (⟨.handshaking server, some msg2⟩, .ok (.reply (msg2Packet msg2)))
          else (peer, .error .unexpectedSessionId)
      | none =>
          if phys.sessionAlias.isSome then
            match server.processClientFinish snow phys.payload with
            | (server, .error e) => ({ peer with crypto := .handshaking server }, .error (.noise e))
            | (server, .ok ()) => (⟨.established server, none⟩, .ok .none)
          else (peer, .error .unexpectedFormat)
  | .established server =>
      match server.decrypt (E := E) aead phys.packetId phys.payload with
      | (server, .error e) => ({ peer with crypto := .established server }, .error (.decryptFailed e))
      | (server, .ok plaintext) => ({ peer with crypto := .established server }, .ok (.deliver plaintext))

/-- One packet, and the packet it decrypted if the peer was established. -/
def step (peer : PeerCrypto H T) (phys : PhysicalPacket) :
    PeerCrypto H T × List (UInt64 × List UInt8 × List UInt8) :=
  ((handleCrypto snow aead peer phys).1,
    match peer.crypto, (handleCrypto (E := E) snow aead peer phys).2 with
    | .established _, .ok (.deliver plaintext) => [(phys.packetId, phys.payload, plaintext)]
    | _, _ => [])

/-- A run of packets from one peer. -/
def run (peer : PeerCrypto H T) (packets : List PhysicalPacket) :
    PeerCrypto H T × List (UInt64 × List UInt8 × List UInt8) :=
  Trace.run (step snow aead) peer packets

end Handler

namespace PeerCrypto

variable {H T : Type}

/-- `PeerState::new`'s crypto fields. -/
def new (disabled : Bool) (server : SecureServer H T) : PeerCrypto H T :=
  ⟨CryptoState.new disabled server, none⟩

/-- The server a peer's crypto state holds, if encryption is on. -/
def server? : PeerCrypto H T → Option (SecureServer H T)
  | ⟨.disabled, _⟩ => none
  | ⟨.handshaking server, _⟩ => some server
  | ⟨.established server, _⟩ => some server

/-- The endpoint of the server a peer holds; a disabled peer has none. -/
def endpoint (peer : PeerCrypto H T) : Endpoint :=
  match peer.server? with
  | some server => server.endpoint
  | none => ⟨false, false, false, none, SequenceWindow.new⟩

end PeerCrypto

/-! ## One packet -/

section Steps

variable {H T E ε : Type} [ToString ε] (snow : Snow H T E)
  (aead : Aead.Scheme Bytes32 (List UInt8) (List UInt8) (List UInt8) ε)

/-- Each packet leaves the peer's server as it was and decrypts nothing, or
makes one `SecureServer` call on it: `process_client_hello`,
`process_client_finish` or `decrypt`, whose accepted packet is the one the
handler hands on. -/
theorem step_cases (peer : PeerCrypto H T) (phys : PhysicalPacket) :
    ((step snow aead peer phys).1.server? = peer.server? ∧ (step snow aead peer phys).2 = []) ∨
      ∃ server call, peer.server? = some server ∧
        (step snow aead peer phys).1.server? = some (server.step snow aead call).1 ∧
        (step snow aead peer phys).2 = (server.step snow aead call).2 := by
  rcases peer with ⟨_ | server | server, pending⟩
  · exact .inl ⟨rfl, rfl⟩
  · rcases hSession : phys.sessionId with _ | sid
    · by_cases hAlias : phys.sessionAlias.isSome = true
      · refine .inr ⟨server, .processClientFinish phys.payload, rfl, ?_, ?_⟩ <;>
          rcases hFinish : server.processClientFinish snow phys.payload with ⟨server', _ | _⟩ <;>
          simp [step, handleCrypto, hSession, hAlias, hFinish, PeerCrypto.server?, SecureServer.step]
      · exact .inl (by simp [step, handleCrypto, hSession, hAlias])
    · by_cases hZero : sid = 0
      · rcases pending with _ | cached
        · refine .inr ⟨server, .processClientHello phys.payload, rfl, ?_, ?_⟩ <;>
            rcases hHello : server.processClientHello snow phys.payload with ⟨server', _ | _⟩ <;>
            simp [step, handleCrypto, hSession, hZero, hHello, PeerCrypto.server?, SecureServer.step]
        · exact .inl (by simp [step, handleCrypto, hSession, hZero])
      · have hNonzero : ¬ sid = 0#128 := hZero
        exact .inl (by simp [step, handleCrypto, hSession, hNonzero])
  · refine .inr ⟨server, .decrypt phys.packetId phys.payload, rfl, ?_, ?_⟩ <;>
      rcases hDecrypt : server.decrypt (E := E) aead phys.packetId phys.payload with ⟨server', _ | _⟩ <;>
      simp [step, handleCrypto, hDecrypt, PeerCrypto.server?, SecureServer.step, acceptedPacket]

/-- Two peers with the same server have the same endpoint. -/
theorem endpoint_eq_of_server? {peer peer' : PeerCrypto H T} (h : peer'.server? = peer.server?) :
    peer'.endpoint = peer.endpoint := by
  unfold PeerCrypto.endpoint
  rw [h]

theorem endpoint_of_server? {peer : PeerCrypto H T} {server : SecureServer H T}
    (h : peer.server? = some server) : peer.endpoint = server.endpoint := by
  unfold PeerCrypto.endpoint
  rw [h]

/-- Every packet does what a run of the server's endpoint needs of it. -/
theorem stepOk (peer : PeerCrypto H T) {accepted : Finset ℕ} (hAcc : peer.endpoint.Accepting accepted)
    (phys : PhysicalPacket) :
    Endpoint.StepOk aead peer.endpoint accepted (step snow aead peer phys).1.endpoint
      (step snow aead peer phys).2 := by
  rcases step_cases snow aead peer phys with ⟨hSame, hOut⟩ | ⟨server, call, hServer, hNext, hOut⟩
  · rw [endpoint_eq_of_server? hSame, hOut]
    exact Endpoint.stepOk_nil hAcc fun _ h => h
  · rw [endpoint_of_server? hServer] at hAcc ⊢
    rw [endpoint_of_server? hNext, hOut]
    exact SecureServer.stepOk hAcc call

/-- A peer that counts as established stays so. -/
theorem isEstablished_step {peer : PeerCrypto H T} (h : peer.crypto.isEstablished = true)
    (phys : PhysicalPacket) : (step snow aead peer phys).1.crypto.isEstablished = true := by
  rcases peer with ⟨_ | server | server, pending⟩
  · rfl
  · cases h
  · rcases hDecrypt : server.decrypt (E := E) aead phys.packetId phys.payload with ⟨server', _ | _⟩ <;>
      simp [step, handleCrypto, hDecrypt, CryptoState.isEstablished]

end Steps

/-! ## Runs -/

section Runs

variable {H T E ε : Type} [ToString ε] {snow : Snow H T E}
  {aead : Aead.Scheme Bytes32 (List UInt8) (List UInt8) (List UInt8) ε}

/-- Over any packets, the handler drives the server it holds through a run of
`SecureServer` calls, and hands on exactly the packets that run decrypted. -/
theorem handler_refines {peer : PeerCrypto H T} {server : SecureServer H T}
    (hServer : peer.server? = some server) (packets : List PhysicalPacket) :
    ∃ calls, (run snow aead peer packets).1.server? = some (server.run snow aead calls).1 ∧
      (run snow aead peer packets).2 = (server.run snow aead calls).2 := by
  induction packets generalizing peer server with
  | nil => exact ⟨[], hServer, rfl⟩
  | cons phys packets ih =>
      rcases step_cases snow aead peer phys with ⟨hSame, hOut⟩ | ⟨server', call, hServer', hNext, hOut⟩
      · obtain ⟨calls, hCalls, hPackets⟩ := ih (hSame.trans hServer)
        refine ⟨calls, hCalls, ?_⟩
        rw [run, Trace.run_cons, hOut, List.nil_append]
        exact hPackets
      · rw [hServer] at hServer'
        cases hServer'
        obtain ⟨calls, hCalls, hPackets⟩ := ih hNext
        refine ⟨call :: calls, hCalls, ?_⟩
        rw [run, Trace.run_cons, hOut, SecureServer.run, Trace.run_cons]
        exact congrArg _ hPackets

/-- The echo handshake's two messages drive the server through its calls. -/
theorem handler_refines_echo :
    ∃ calls, (run NoiseParty.echoSnow prefixAead (PeerCrypto.new false (SecureServer.new (NoiseResponder.new ())))
        [⟨riftVersion, some 0, none, 0, []⟩, ⟨riftVersion, none, some 1, 0, []⟩]).1.server? =
          some ((SecureServer.new (NoiseResponder.new ())).run NoiseParty.echoSnow prefixAead calls).1 ∧
      (run NoiseParty.echoSnow prefixAead (PeerCrypto.new false (SecureServer.new (NoiseResponder.new ())))
        [⟨riftVersion, some 0, none, 0, []⟩, ⟨riftVersion, none, some 1, 0, []⟩]).2 =
          ((SecureServer.new (NoiseResponder.new ())).run NoiseParty.echoSnow prefixAead calls).2 :=
  handler_refines rfl _

/-- A peer keeps a server from `PeerState::new` with encryption on. -/
theorem exists_server_run (snow : Snow H T E)
    (aead : Aead.Scheme Bytes32 (List UInt8) (List UInt8) (List UInt8) ε) (server : SecureServer H T)
    (packets : List PhysicalPacket) :
    ∃ server', (run snow aead (PeerCrypto.new false server) packets).1.server? = some server' :=
  Trace.run_induction (P := fun (peer : PeerCrypto H T) => ∃ server', peer.server? = some server')
    (fun peer phys ⟨server', hServer⟩ => by
      rcases step_cases snow aead peer phys with ⟨hSame, -⟩ | ⟨_, call, hServer'', hNext, -⟩
      · exact ⟨server', hSame.trans hServer⟩
      · exact ⟨_, hNext⟩)
    ⟨server, rfl⟩ packets

theorem accepting_new (responder : NoiseResponder H T) :
    (PeerCrypto.new false (SecureServer.new responder)).endpoint.Accepting ∅ :=
  SecureServer.accepting_new responder

/-- From `PeerState::new` with encryption on, over any packets from the peer:
the packets handed on after decryption have pairwise distinct ids, each opens
under the server's receive key at the nonce of its id, and once the host
counts the peer as established it stays so. -/
theorem handler_run (responder : NoiseResponder H T) (first rest : List PhysicalPacket) :
    ((run snow aead (PeerCrypto.new false (SecureServer.new responder)) (first ++ rest)).2.map
        Prod.fst).Nodup ∧
      (∀ packet ∈ (run snow aead (PeerCrypto.new false (SecureServer.new responder)) (first ++ rest)).2,
        ∃ server cipher,
          (run snow aead (PeerCrypto.new false (SecureServer.new responder)) (first ++ rest)).1.server? =
            some server ∧ server.cipher = some cipher ∧
          aead.decrypt cipher.recvCipher (packetIdToNonce packet.1) packet.2.1 = .ok packet.2.2) ∧
      ((run snow aead (PeerCrypto.new false (SecureServer.new responder)) first).1.crypto.isEstablished →
        (run snow aead (PeerCrypto.new false (SecureServer.new responder)) (first ++ rest)).1.crypto.isEstablished) := by
  obtain ⟨hNodup, -, -, hOpens⟩ := Endpoint.run_spec (step snow aead) PeerCrypto.endpoint
    (fun peer _ phys hAcc => stepOk snow aead peer hAcc phys) (accepting_new responder) first rest
  refine ⟨hNodup, fun packet hPacket => ?_, fun hEstablished => ?_⟩
  · obtain ⟨cipher, hCipher, hOpen⟩ := hOpens packet hPacket
    obtain ⟨server, hServer⟩ := exists_server_run snow aead (SecureServer.new responder) (first ++ rest)
    rw [run] at hServer ⊢
    rw [endpoint_of_server? hServer] at hCipher
    exact ⟨server, cipher, hServer, hCipher, hOpen⟩
  · rw [run, Trace.run_append]
    exact Trace.run_induction (P := fun (peer : PeerCrypto H T) => peer.crypto.isEstablished = true)
      (fun peer phys h => isEstablished_step snow aead h phys) hEstablished rest

end Runs

/-! ## A failed message 3 -/

section Stuck

variable {H T E ε : Type} [ToString ε] (snow : Snow H T E)
  {aead : Aead.Scheme Bytes32 (List UInt8) (List UInt8) (List UInt8) ε}
  {server : SecureServer H T} {responder : NoiseResponder H T}

/-- A responder out of its handshake state refuses message 1 and changes
nothing. -/
theorem processClientHello_of_not_handshake (hResponder : server.responder = some responder)
    (hState : ∀ state, responder.state ≠ .handshake state) (data : List UInt8) :
    server.processClientHello snow data = (server, .error (.noise .handshakeAlreadyComplete)) := by
  unfold SecureServer.processClientHello
  rw [hResponder]
  dsimp only
  rw [NoiseResponder.readMessage1, NoiseParty.message_of_not_handshake hState]
  obtain ⟨_, state, cipher, recvWindow⟩ := server
  cases hResponder
  rfl

/-- A responder out of its handshake state refuses message 3 and changes
nothing. -/
theorem processClientFinish_of_not_handshake (hResponder : server.responder = some responder)
    (hState : ∀ state, responder.state ≠ .handshake state) (data : List UInt8) :
    server.processClientFinish snow data = (server, .error (.noise .handshakeAlreadyComplete)) := by
  unfold SecureServer.processClientFinish
  rw [hResponder]
  dsimp only
  rw [NoiseResponder.readMessage3, NoiseParty.finish_of_not_handshake hState]
  obtain ⟨_, state, cipher, recvWindow⟩ := server
  cases hResponder
  rfl

/-- A message 3 that `read_message_3` refuses leaves the responder `Invalid`
in the server's slot. -/
theorem processClientFinish_of_readMessage3_error (hResponder : server.responder = some responder)
    {state : H} (hState : responder.state = .handshake state) {data : List UInt8} {e : NoiseError E}
    (hFail : (responder.readMessage3 snow data).2 = .error e) :
    ∃ responder' : NoiseResponder H T, ∃ e', responder'.state = .invalid ∧
      server.processClientFinish snow data = ({ server with responder := some responder' }, .error (.noise e')) := by
  rcases NoiseParty.finish_cases snow snow.readMessage hState data with
    ⟨transport, hash, buf, hFinish⟩ | ⟨e', hFinish⟩
  · rw [NoiseResponder.readMessage3, hFinish] at hFail
    cases hFail
  · refine ⟨{ (responder : NoiseParty H T) with state := .invalid }, e', rfl, ?_⟩
    unfold SecureServer.processClientFinish
    rw [hResponder]
    dsimp only
    rw [NoiseResponder.readMessage3, hFinish]

/-- A peer whose handshake can no longer complete: handshaking, with a
responder out of its handshake state. -/
def Stuck (peer : PeerCrypto H T) : Prop :=
  ∃ server : SecureServer H T, ∃ responder : NoiseResponder H T, peer.crypto = .handshaking server ∧
    server.responder = some responder ∧ ∀ state, responder.state ≠ .handshake state

/-- A stuck peer stays stuck, whatever packet arrives. -/
theorem stuck_step {peer : PeerCrypto H T} (hStuck : Stuck peer) (phys : PhysicalPacket) :
    Stuck (step snow aead peer phys).1 := by
  obtain ⟨server, responder, hCrypto, hResponder, hState⟩ := hStuck
  obtain ⟨crypto, pending⟩ := peer
  dsimp only at hCrypto
  subst hCrypto
  have hHello := processClientHello_of_not_handshake snow hResponder hState phys.payload
  have hFinish := processClientFinish_of_not_handshake snow hResponder hState phys.payload
  refine ⟨server, responder, ?_, hResponder, hState⟩
  rcases hSession : phys.sessionId with _ | sid
  · by_cases hAlias : phys.sessionAlias.isSome = true
    · simp [step, handleCrypto, hSession, hAlias, hFinish]
    · simp [step, handleCrypto, hSession, hAlias]
  · by_cases hZero : sid = 0
    · rcases pending with _ | cached
      · simp [step, handleCrypto, hSession, hZero, hHello]
      · simp [step, handleCrypto, hSession, hZero]
    · have hNonzero : ¬ sid = 0#128 := hZero
      simp [step, handleCrypto, hSession, hNonzero]

/-- A peer that is handshaking decrypts nothing. -/
theorem step_snd_of_handshaking {peer : PeerCrypto H T} (hCrypto : peer.crypto = .handshaking server)
    (phys : PhysicalPacket) : (step snow aead peer phys).2 = [] := by
  simp [step, hCrypto]

/-- While the host handshakes with a peer, a packet with a session alias is
taken as message 3. If `read_message_3` refuses it, as it refuses a data
packet that overtook message 3, the peer never becomes established, whatever
arrives after it, the real message 3 included, and nothing it sends is ever
handed on. -/
theorem handshake_stuck {peer : PeerCrypto H T} {state : H} {phys : PhysicalPacket} {e : NoiseError E}
    (hCrypto : peer.crypto = .handshaking server) (hResponder : server.responder = some responder)
    (hState : responder.state = .handshake state) (hSession : phys.sessionId = none)
    (hAlias : phys.sessionAlias.isSome = true) (hFail : (responder.readMessage3 snow phys.payload).2 = .error e)
    (packets : List PhysicalPacket) :
    (run snow aead peer (phys :: packets)).1.crypto.isEstablished = false ∧
      (run snow aead peer (phys :: packets)).2 = [] := by
  obtain ⟨responder', e', hInvalid, hFinish⟩ := processClientFinish_of_readMessage3_error snow hResponder hState hFail
  have hFirst : Stuck (step snow aead peer phys).1 := by
    refine ⟨{ server with responder := some responder' }, responder', ?_, rfl,
      fun _ h => by rw [hInvalid] at h; cases h⟩
    obtain ⟨crypto, pending⟩ := peer
    dsimp only at hCrypto
    subst hCrypto
    simp [step, handleCrypto, hSession, hAlias, hFinish]
  have hStep : ∀ (peer' : PeerCrypto H T) (phys' : PhysicalPacket), Stuck peer' →
      Stuck (step snow aead peer' phys').1 ∧ (∀ o ∈ (step snow aead peer' phys').2, False) ∧
        ∀ o : UInt64 × List UInt8 × List UInt8, False → False := by
    intro peer' phys' hStuck'
    refine ⟨stuck_step snow hStuck' phys', fun o ho => ?_, fun _ h => h⟩
    obtain ⟨_, _, hCrypto', -⟩ := hStuck'
    rw [step_snd_of_handshaking snow hCrypto' phys'] at ho
    cases ho
  obtain ⟨_, _, hFinal, -⟩ := Trace.run_induction (P := Stuck) (fun peer' phys' h => (hStep peer' phys' h).1)
    hFirst packets
  have hNone : ∀ packet ∈ (Trace.run (step snow aead) (step snow aead peer phys).1 packets).2, False :=
    Trace.run_outputs (P := Stuck) (Q := fun _ _ => False) hStep hFirst packets
  refine ⟨?_, ?_⟩
  · rw [run, Trace.run_cons, hFinal]
    rfl
  · rw [run, Trace.run_cons, step_snd_of_handshaking snow hCrypto, List.nil_append,
      List.eq_nil_iff_forall_not_mem]
    exact hNone

/-- A `snow` that reads only empty messages and fails on any other. -/
def pickySnow : Snow Unit Unit Unit where
  writeMessage state bytes := (state, .ok bytes)
  readMessage state bytes := (state, if bytes = [] then .ok [] else .error ())
  getHandshakeHash _ := List.replicate 32 0
  intoTransportMode _ := .ok ()

/-- The client's message 1, with session id 0. -/
def clientMsg1 : PhysicalPacket := ⟨riftVersion, some 0, none, 0, []⟩

/-- The client's first data packet, the RIFT hello, sent with the bootstrap
alias 1 right after message 3. -/
def clientHello : PhysicalPacket := ⟨riftVersion, none, some 1, 1, [9]⟩

/-- The client's message 3, with the dummy alias 1. -/
def clientMsg3 : PhysicalPacket := ⟨riftVersion, none, some 1, 0, []⟩

/-- The hello overtakes message 3: the peer never becomes established. -/
theorem handshake_stuck_hello_first :
    (run pickySnow prefixAead (PeerCrypto.new false (SecureServer.new (NoiseResponder.new ())))
      [clientMsg1, clientHello, clientMsg3]).1.crypto.isEstablished = false := by
  have hCrypto : (step pickySnow prefixAead (PeerCrypto.new false (SecureServer.new (NoiseResponder.new ())))
      clientMsg1).1.crypto = .handshaking ⟨some (NoiseResponder.new ()), .sentMsg2, none, SequenceWindow.new⟩ :=
    rfl
  have hResponder : (⟨some (NoiseResponder.new ()), .sentMsg2, none, SequenceWindow.new⟩ :
      SecureServer Unit Unit).responder = some (NoiseResponder.new ()) := rfl
  have hState : (NoiseResponder.new () : NoiseResponder Unit Unit).state = .handshake () := rfl
  have hFail : ((NoiseResponder.new () : NoiseResponder Unit Unit).readMessage3 pickySnow
      clientHello.payload).2 = .error (.snow ()) := rfl
  exact (handshake_stuck pickySnow hCrypto hResponder hState rfl rfl hFail [clientMsg3]).1

/-- In the order sent, the same packets establish the peer. -/
example : (run pickySnow prefixAead (PeerCrypto.new false (SecureServer.new (NoiseResponder.new ())))
    [clientMsg1, clientMsg3, clientHello]).1.crypto.isEstablished = true := by
  decide +kernel

end Stuck

end Wavry.Server
