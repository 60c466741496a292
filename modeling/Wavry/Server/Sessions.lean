import Wavry.Server.CryptoHandshake
import Wavry.RiftCore.Handshake
import Wavry.Lib.AssocMap

/-! The host's peer table (`wavry-server`, `main.rs`): every datagram is
handed to the state of the peer it came from, created on first contact unless
the table is full; `handle_raw_packet` runs the crypto branch on it, and what
that hands on is decoded and, if it is a `Hello`, answered by `handle_rift_msg`.
A hello from a peer other than the active one is refused; otherwise the peer's
`Handshake` takes `on_receive_hello` and `on_send_hello_ack` under a fresh
session id, and the peer becomes the active one. A timer drops the peers idle
for too long, and the active peer with them.

Over any interleaving of datagrams from any peers and of cleanups, the host
serves one client at a time: every peer of the table is at `Init` with no
session id, or established under the session id it holds, and an established
peer is the active one. An accepted `HelloAck` goes only to a peer that was new
or at `Init`, and leaves it the active peer, established under the ack's
session id; so a peer state acknowledges at most one hello.

Protobuf decoding is a parameter; of the messages, only the `Hello` arm is
modelled, since no other arm of `handle_rift_msg` reads or writes the
handshake, the session id or the active peer. The socket sends are taken as
made. -/
namespace Wavry.Server

open Wavry.RiftCrypto Wavry.RiftCore

/-- A decoded `Message`, as the packet path tells it apart: a control message
carrying a `Hello`, or any other. -/
inductive RiftMessage where
  | hello
  | other
  deriving DecidableEq, Repr

/-- The fields of `PeerState` that the packet path reads and writes, up to and
through the hello; `lastSeen` is an instant in the clock's units. -/
structure PeerState (H T : Type) where
  crypto : PeerCrypto H T
  handshake : Handshake
  sessionId : Option (List UInt8)
  sessionAlias : UInt32
  lastSeen : ℕ

/-- What the host draws at random while it handles a datagram: the keys of a
new peer's `SecureServer`, a new peer's session alias, and a session id. -/
structure Draws (H T : Type) where
  server : SecureServer H T
  sessionAlias : UInt32
  sessionId : List UInt8

/-- `PeerState::new`, at instant `now`, with the drawn server and alias. -/
def PeerState.new {H T : Type} (noEncrypt : Bool) (server : SecureServer H T) (sessionAlias : UInt32)
    (now : ℕ) : PeerState H T :=
  ⟨PeerCrypto.new noEncrypt server, Handshake.new .host, none, max sessionAlias 1, now⟩

/-- What the hello arm reads and writes of a peer: its handshake and its
session id. -/
def PeerState.session {H T : Type} (ps : PeerState H T) : Handshake × Option (List UInt8) :=
  (ps.handshake, ps.sessionId)

theorem PeerState.handshake_eq_of_session {H T : Type} {ps ps' : PeerState H T}
    (hSession : ps.session = ps'.session) : ps.handshake = ps'.handshake :=
  congrArg Prod.fst hSession

/-- `UNASSIGNED_SESSION_ID`. -/
def unassignedSessionId : List UInt8 := List.replicate 16 0

/-- The errors of the `Hello` arm. -/
inductive HelloError where
  /-- `"crypto required before RIFT hello"`. -/
  | cryptoRequired
  /-- `"Handshake error: {}"`. -/
  | handshake (e : HandshakeError)
  deriving DecidableEq, Repr

/-- What the host sends to the peer on the paths modelled here. -/
inductive Sent where
  /-- A crypto handshake reply. -/
  | packet (phys : PhysicalPacket)
  /-- A `HelloAck`, with the session alias it carries. -/
  | helloAck (ack : HelloAck) (sessionAlias : UInt32)
  deriving DecidableEq

/-- Whether a sent message is an accepted `HelloAck`. -/
def Sent.accepted : Sent → Bool
  | .packet _ => false
  | .helloAck ack _ => ack.accepted

/-- The `Hello` arm of `handle_rift_msg` for `peer`, with the session id the
host draws for it. -/
def handleHello {A H T : Type} [DecidableEq A] (peer : A) (ps : PeerState H T) (activePeer : Option A)
    (sessionId : List UInt8) : (PeerState H T × Option A) × Except HelloError Sent :=
  if !ps.crypto.crypto.isEstablished then ((ps, activePeer), .error .cryptoRequired)
  else if activePeer.isSome && activePeer != some peer then
    ((ps, activePeer), .ok (.helloAck ⟨false, unassignedSessionId⟩ 0))
  else
    match ps.handshake.onReceiveHello with
    | (handshake, .error e) => (({ ps with handshake }, activePeer), .error (.handshake e))
    | (handshake, .ok _) =>
        let ps := { ps with handshake, sessionId := some sessionId }
        let ack : HelloAck := ⟨true, sessionId⟩
        match ps.handshake.onSendHelloAck ack with
        | (handshake, .error e) => (({ ps with handshake }, activePeer), .error (.handshake e))
        | (handshake, .ok _) => (({ ps with handshake }, some peer), .ok (.helloAck ack ps.sessionAlias))

section Packet

variable {A H T E ε : Type} [DecidableEq A] [ToString ε] (snow : Snow H T E)
  (aead : Aead.Scheme Bytes32 (List UInt8) (List UInt8) (List UInt8) ε)
  (decodeMsg : List UInt8 → Option RiftMessage)

/-- `handle_raw_packet` at instant `now`: the peer is seen, the datagram
decoded, the crypto branch run, and a payload it hands on decoded and, if it is
a hello, answered. A failure keeps what was done before it. -/
def handleRawPacket (peer : A) (ps : PeerState H T) (activePeer : Option A) (raw : List UInt8)
    (now : ℕ) (sessionId : List UInt8) : (PeerState H T × Option A) × List Sent :=
  let ps := { ps with lastSeen := now }
  match PhysicalPacket.decode kermit raw with
  | .error _ => ((ps, activePeer), [])
  | .ok phys =>
      match handleCrypto (E := E) snow aead ps.crypto phys with
      | (crypto, .error _) => (({ ps with crypto }, activePeer), [])
      | (crypto, .ok (.reply packet)) => (({ ps with crypto }, activePeer), [.packet packet])
      | (crypto, .ok .none) => (({ ps with crypto }, activePeer), [])
      | (crypto, .ok (.deliver payload)) =>
          let ps := { ps with crypto }
          match decodeMsg payload with
          | some .hello =>
              match handleHello peer ps activePeer sessionId with
              | (state, .ok sent) => (state, [sent])
              | (state, .error _) => (state, [])
          | _ => ((ps, activePeer), [])

end Packet

/-- The fields of `HostRuntimeConfig` and `Args` the peer table reads. -/
structure HostConfig where
  noEncrypt : Bool
  maxPeers : ℕ
  peerIdleTimeout : ℕ

/-- The peer table and the active peer of `run`'s loop. -/
structure Host (A H T : Type) where
  peers : AssocMap A (PeerState H T)
  activePeer : Option A

/-- What happens to the host. -/
inductive HostEvent (A H T : Type) where
  /-- A datagram from `peer` at instant `now`, with what the host would draw for it. -/
  | recv (peer : A) (raw : List UInt8) (now : ℕ) (draws : Draws H T)
  /-- The cleanup timer fires at instant `now`. -/
  | cleanup (now : ℕ)

namespace Host

variable {A H T E ε : Type} [DecidableEq A]

/-- The host as `run` starts it. -/
def init : Host A H T := ⟨AssocMap.empty, none⟩

/-- Whether a peer last seen at `lastSeen` is stale at `now`. -/
def stale (idleTimeout now lastSeen : ℕ) : Bool := decide (idleTimeout < now - lastSeen)

/-- `cleanup_inactive_peers`: drop the stale peers, and the active peer if it
was one of them. -/
def cleanupInactivePeers (h : Host A H T) (idleTimeout now : ℕ) : Host A H T :=
  let removedActivePeer :=
    h.peers.entries.any fun entry => stale idleTimeout now entry.2.lastSeen && some entry.1 == h.activePeer
  ⟨h.peers.retain fun _ ps => !stale idleTimeout now ps.lastSeen,
    if removedActivePeer then none else h.activePeer⟩

variable [ToString ε] (snow : Snow H T E)
  (aead : Aead.Scheme Bytes32 (List UInt8) (List UInt8) (List UInt8) ε)
  (decodeMsg : List UInt8 → Option RiftMessage) (cfg : HostConfig)

/-- The receive arm of `run`'s loop: a datagram from a new peer is dropped when
the table is full; otherwise the peer's state, created if need be, handles it. -/
def recv (h : Host A H T) (peer : A) (raw : List UInt8) (now : ℕ) (draws : Draws H T) :
    Host A H T × List (A × Sent) :=
  if (h.peers.get peer).isNone && decide (cfg.maxPeers ≤ h.peers.size) then (h, [])
  else
    let ps := (h.peers.get peer).getD (PeerState.new cfg.noEncrypt draws.server draws.sessionAlias now)
    match handleRawPacket (E := E) snow aead decodeMsg peer ps h.activePeer raw now draws.sessionId with
    | ((ps, activePeer), sent) => (⟨h.peers.insert peer ps, activePeer⟩, sent.map fun s => (peer, s))

/-- One event. -/
def step (h : Host A H T) : HostEvent A H T → Host A H T × List (A × Sent)
  | .recv peer raw now draws => h.recv (E := E) snow aead decodeMsg cfg peer raw now draws
  | .cleanup now => (h.cleanupInactivePeers cfg.peerIdleTimeout now, [])

/-- A sequence of events, and what the host sent, to whom. -/
def run (h : Host A H T) (events : List (HostEvent A H T)) : Host A H T × List (A × Sent) :=
  Trace.run (step (E := E) snow aead decodeMsg cfg) h events

end Host

/-! ## One datagram -/

section Steps

variable {A H T : Type} [DecidableEq A]

/-- The hello arm changes nothing and sends no accepted acknowledgement, or it
finds the peer's handshake new and no other peer active, establishes the
handshake under the drawn session id, makes the peer the active one and sends
the accepted acknowledgement. -/
theorem handleHello_cases (peer : A) (ps : PeerState H T) (activePeer : Option A)
    (sessionId : List UInt8) :
    ((handleHello peer ps activePeer sessionId).1 = (ps, activePeer) ∧
        ∀ sent, (handleHello peer ps activePeer sessionId).2 = .ok sent → sent.accepted = false) ∨
      (ps.handshake = Handshake.new .host ∧ (activePeer = none ∨ activePeer = some peer) ∧
        handleHello peer ps activePeer sessionId =
          (({ ps with handshake := ⟨.host, .established sessionId⟩, sessionId := some sessionId }, some peer),
            .ok (.helloAck ⟨true, sessionId⟩ ps.sessionAlias))) := by
  by_cases hCrypto : ps.crypto.crypto.isEstablished = true
  swap
  · exact .inl ⟨by simp [handleHello, hCrypto], fun sent hSent => by simp [handleHello, hCrypto] at hSent⟩
  by_cases hBusy : (activePeer.isSome && activePeer != some peer) = true
  · refine .inl ⟨by simp [handleHello, hCrypto, hBusy], fun sent hSent => ?_⟩
    simp only [handleHello, hCrypto, hBusy, Bool.not_true, Bool.false_eq_true, if_false, if_true,
      Except.ok.injEq] at hSent
    rw [← hSent]
    rfl
  have hFree : activePeer = none ∨ activePeer = some peer := by
    cases activePeer with
    | none => exact .inl rfl
    | some other => exact .inr (by simpa using hBusy)
  rcases Handshake.onReceiveHello_cases ps.handshake with ⟨hRole, hInit, -⟩ | ⟨hSame, e, hError⟩
  · have hNew : ps.handshake = Handshake.new .host := by
      rw [Handshake.new, ← hRole, ← hInit]
    refine .inr ⟨hNew, hFree, ?_⟩
    simp only [handleHello, hCrypto, hBusy, hNew, Bool.not_true, Bool.false_eq_true, if_false]
    rfl
  · have hCall : ps.handshake.onReceiveHello = (ps.handshake, .error e) := Prod.ext hSame hError
    refine .inl ⟨?_, fun sent hSent => ?_⟩
    · simp [handleHello, hCrypto, hBusy, hCall]
    · simp [handleHello, hCrypto, hBusy, hCall] at hSent

variable {E ε : Type} [ToString ε] (snow : Snow H T E)
  (aead : Aead.Scheme Bytes32 (List UInt8) (List UInt8) (List UInt8) ε)
  (decodeMsg : List UInt8 → Option RiftMessage)

/-- A datagram leaves the peer's session and the active peer as they were and
sends no accepted acknowledgement, or it is a hello the peer's new handshake
takes, as `handleHello_cases` has it. -/
theorem handleRawPacket_cases (peer : A) (ps : PeerState H T) (activePeer : Option A)
    (raw : List UInt8) (now : ℕ) (sessionId : List UInt8) :
    ((handleRawPacket (E := E) snow aead decodeMsg peer ps activePeer raw now sessionId).1.1.session =
          ps.session ∧
        (handleRawPacket (E := E) snow aead decodeMsg peer ps activePeer raw now sessionId).1.2 =
          activePeer ∧
        ∀ sent ∈ (handleRawPacket (E := E) snow aead decodeMsg peer ps activePeer raw now sessionId).2,
          sent.accepted = false) ∨
      (ps.handshake = Handshake.new .host ∧ (activePeer = none ∨ activePeer = some peer) ∧
        (handleRawPacket (E := E) snow aead decodeMsg peer ps activePeer raw now sessionId).1.1.session =
          (⟨.host, .established sessionId⟩, some sessionId) ∧
        (handleRawPacket (E := E) snow aead decodeMsg peer ps activePeer raw now sessionId).1.2 = some peer ∧
        (handleRawPacket (E := E) snow aead decodeMsg peer ps activePeer raw now sessionId).1.1.sessionAlias =
          ps.sessionAlias ∧
        (handleRawPacket (E := E) snow aead decodeMsg peer ps activePeer raw now sessionId).2 =
          [.helloAck ⟨true, sessionId⟩ ps.sessionAlias]) := by
  have hKeep : ∀ (crypto : PeerCrypto H T) (out : List Sent), (∀ sent ∈ out, sent.accepted = false) →
      ((({ ps with lastSeen := now, crypto } : PeerState H T), activePeer), out).1.1.session = ps.session ∧
        ((({ ps with lastSeen := now, crypto } : PeerState H T), activePeer), out).1.2 = activePeer ∧
        ∀ sent ∈ ((({ ps with lastSeen := now, crypto } : PeerState H T), activePeer), out).2,
          sent.accepted = false :=
    fun _ _ hOut => ⟨rfl, rfl, hOut⟩
  unfold handleRawPacket
  dsimp only
  cases PhysicalPacket.decode kermit raw with
  | error _ => exact .inl (hKeep ps.crypto [] fun _ h => (nomatch h))
  | ok phys =>
      dsimp only
      rcases handleCrypto (E := E) snow aead ps.crypto phys with ⟨crypto, _ | packet | payload | _⟩
      · exact .inl (hKeep crypto [] fun _ h => (nomatch h))
      · exact .inl (hKeep crypto [.packet packet] fun sent h => by rw [List.mem_singleton.mp h]; rfl)
      · dsimp only
        rcases decodeMsg payload with _ | _ | _
        · exact .inl (hKeep crypto [] fun _ h => (nomatch h))
        · dsimp only
          rcases handleHello_cases peer { ps with lastSeen := now, crypto } activePeer sessionId with
            ⟨hSame, hRefused⟩ | ⟨hNew, hFree, hCall⟩
          · left
            rcases hHello : handleHello peer { ps with lastSeen := now, crypto } activePeer sessionId with
              ⟨state, _ | sent⟩
            · rw [hHello] at hSame
              dsimp only at hSame
              rw [hSame]
              exact ⟨rfl, rfl, fun _ h => (nomatch h)⟩
            · rw [hHello] at hSame hRefused
              dsimp only at hSame
              rw [hSame]
              exact ⟨rfl, rfl, fun _ h => by rw [List.mem_singleton.mp h]; exact hRefused sent rfl⟩
          · right
            rw [hCall]
            exact ⟨hNew, hFree, rfl, rfl, rfl, rfl⟩
        · exact .inl (hKeep crypto [] fun _ h => (nomatch h))
      · exact .inl (hKeep crypto [] fun _ h => (nomatch h))

end Steps

/-! ## The peer table -/

namespace Host

variable {A H T E ε : Type} [DecidableEq A] [ToString ε] (snow : Snow H T E)
  (aead : Aead.Scheme Bytes32 (List UInt8) (List UInt8) (List UInt8) ε)
  (decodeMsg : List UInt8 → Option RiftMessage) (cfg : HostConfig)

/-- The state a datagram from `peer` is handled in: the peer's, or a new one. -/
theorem recv_eq (h : Host A H T) (peer : A) (raw : List UInt8) (now : ℕ) (draws : Draws H T)
    (hRoom : ¬ ((h.peers.get peer).isNone && decide (cfg.maxPeers ≤ h.peers.size)) = true) :
    h.recv (E := E) snow aead decodeMsg cfg peer raw now draws =
      let ps := (h.peers.get peer).getD (PeerState.new cfg.noEncrypt draws.server draws.sessionAlias now)
      let r := handleRawPacket (E := E) snow aead decodeMsg peer ps h.activePeer raw now draws.sessionId
      (⟨h.peers.insert peer r.1.1, r.1.2⟩, r.2.map fun s => (peer, s)) := by
  rw [recv, if_neg hRoom]

/-- A peer whose handshake has moved on stays so, or leaves the table: no
event brings its handshake back to new. -/
theorem moved_on_step {h : Host A H T} {a : A} {ps : PeerState H T} (hGet : h.peers.get a = some ps)
    (hMoved : ps.handshake ≠ Handshake.new .host) (event : HostEvent A H T) :
    ∀ ps', (h.step (E := E) snow aead decodeMsg cfg event).1.peers.get a = some ps' →
      ps'.handshake ≠ Handshake.new .host := by
  intro ps' hGet'
  cases event with
  | cleanup now =>
      simp only [step, cleanupInactivePeers, AssocMap.get_retain] at hGet'
      obtain ⟨hOld, -⟩ := Option.filter_eq_some_iff.mp hGet'
      rw [hGet] at hOld
      cases hOld
      exact hMoved
  | recv peer raw now draws =>
      by_cases hRoom : ((h.peers.get peer).isNone && decide (cfg.maxPeers ≤ h.peers.size)) = true
      · simp only [step, recv, if_pos hRoom] at hGet'
        rw [hGet] at hGet'
        cases hGet'
        exact hMoved
      · simp only [step, recv_eq snow aead decodeMsg cfg h peer raw now draws hRoom,
          AssocMap.get_insert] at hGet'
        split at hGet'
        · rename_i hPeer
          subst hPeer
          cases hGet'
          rw [hGet, Option.getD_some]
          rcases handleRawPacket_cases snow aead decodeMsg a ps h.activePeer raw now draws.sessionId with
            ⟨hSession, -, -⟩ | ⟨hNew, -⟩
          · rw [PeerState.handshake_eq_of_session hSession]
            exact hMoved
          · exact absurd hNew hMoved
        · rw [hGet] at hGet'
          cases hGet'
          exact hMoved

/-- An accepted acknowledgement goes to the datagram's peer, whose state was
absent or new to the hello, and leaves it the active peer, established under
the acknowledgement's session id. -/
theorem step_accepted (h : Host A H T) (event : HostEvent A H T) {peer : A} {sent : Sent}
    (hSent : (peer, sent) ∈ (h.step (E := E) snow aead decodeMsg cfg event).2)
    (hAccepted : sent.accepted = true) :
    (∀ ps, h.peers.get peer = some ps → ps.handshake = Handshake.new .host) ∧
      (h.step (E := E) snow aead decodeMsg cfg event).1.activePeer = some peer ∧
      ∃ ps sid, (h.step (E := E) snow aead decodeMsg cfg event).1.peers.get peer = some ps ∧
        ps.session = (⟨.host, .established sid⟩, some sid) ∧ sent = .helloAck ⟨true, sid⟩ ps.sessionAlias := by
  cases event with
  | cleanup now => exact absurd hSent (by simp [step])
  | recv source raw now draws =>
      by_cases hRoom : ((h.peers.get source).isNone && decide (cfg.maxPeers ≤ h.peers.size)) = true
      · rw [step, recv, if_pos hRoom] at hSent
        simp at hSent
      simp only [step, recv_eq snow aead decodeMsg cfg h source raw now draws hRoom] at hSent ⊢
      obtain ⟨sent', hMem, hPair⟩ := List.mem_map.mp hSent
      obtain ⟨hPeer, hSame⟩ := Prod.mk.inj hPair
      subst source sent'
      rcases handleRawPacket_cases snow aead decodeMsg peer
          ((h.peers.get peer).getD (PeerState.new cfg.noEncrypt draws.server draws.sessionAlias now))
          h.activePeer raw now draws.sessionId with
        ⟨-, -, hRefused⟩ | ⟨hNew, -, hSession, hActive, hAlias, hOut⟩
      · rw [hRefused sent hMem] at hAccepted
        cases hAccepted
      · refine ⟨fun ps hGet => by rw [hGet, Option.getD_some] at hNew; exact hNew, hActive, ?_⟩
        rw [hOut, List.mem_singleton] at hMem
        refine ⟨_, draws.sessionId, by rw [AssocMap.get_insert, if_pos rfl], hSession, ?_⟩
        rw [hMem, hAlias]

/-- What every reachable host keeps: each peer of the table is new to the
hello, or established under the session id it holds, and a peer whose
handshake has moved on is the active one. -/
structure Serving (h : Host A H T) : Prop where
  sessions : ∀ a ps, h.peers.get a = some ps →
    ps.session = (Handshake.new .host, none) ∨ ∃ sid, ps.session = (⟨.host, .established sid⟩, some sid)
  active : ∀ a ps, h.peers.get a = some ps → ps.handshake ≠ Handshake.new .host → h.activePeer = some a

theorem serving_init : (init : Host A H T).Serving :=
  ⟨fun _ _ h => (nomatch h), fun _ _ h => (nomatch h)⟩

variable {h : Host A H T}

theorem Serving.recv (hServing : h.Serving) (peer : A) (raw : List UInt8) (now : ℕ) (draws : Draws H T) :
    (h.recv (E := E) snow aead decodeMsg cfg peer raw now draws).1.Serving := by
  by_cases hRoom : ((h.peers.get peer).isNone && decide (cfg.maxPeers ≤ h.peers.size)) = true
  · rw [Host.recv, if_pos hRoom]
    exact hServing
  rw [recv_eq snow aead decodeMsg cfg h peer raw now draws hRoom]
  set ps := (h.peers.get peer).getD (PeerState.new cfg.noEncrypt draws.server draws.sessionAlias now)
    with hPs
  have hPsSession : ps.session = (Handshake.new .host, none) ∨
      ∃ sid, ps.session = (⟨.host, .established sid⟩, some sid) := by
    cases hGet : h.peers.get peer with
    | none => exact .inl (by rw [hPs, hGet]; rfl)
    | some old => rw [hPs, hGet, Option.getD_some]; exact hServing.sessions peer old hGet
  have hPsActive : ps.handshake ≠ Handshake.new .host → h.activePeer = some peer := by
    cases hGet : h.peers.get peer with
    | none => exact fun hMoved => absurd (by rw [hPs, hGet]; rfl) hMoved
    | some old => rw [hPs, hGet, Option.getD_some]; exact hServing.active peer old hGet
  rcases handleRawPacket_cases snow aead decodeMsg peer ps h.activePeer raw now draws.sessionId with
    ⟨hSession, hActive, -⟩ | ⟨-, hFree, hSession, hActive, -, -⟩
  · refine ⟨fun a ps' hGet => ?_, fun a ps' hGet hMoved => ?_⟩
    · rw [AssocMap.get_insert] at hGet
      split at hGet
      · cases hGet
        rw [hSession]
        exact hPsSession
      · exact hServing.sessions a ps' hGet
    · rw [AssocMap.get_insert] at hGet
      dsimp only
      rw [hActive]
      split at hGet
      · rename_i hPeer
        cases hGet
        rw [hPeer]
        exact hPsActive (by rwa [← PeerState.handshake_eq_of_session hSession])
      · exact hServing.active a ps' hGet hMoved
  · refine ⟨fun a ps' hGet => ?_, fun a ps' hGet hMoved => ?_⟩
    · rw [AssocMap.get_insert] at hGet
      split at hGet
      · cases hGet
        exact .inr ⟨_, hSession⟩
      · exact hServing.sessions a ps' hGet
    · rw [AssocMap.get_insert] at hGet
      dsimp only
      rw [hActive]
      split at hGet
      · rename_i hPeer
        rw [hPeer]
      · rename_i hPeer
        have hWas := hServing.active a ps' hGet hMoved
        rcases hFree with hNone | hSome
        · rw [hNone] at hWas
          cases hWas
        · rw [hSome] at hWas
          exact absurd (Option.some.inj hWas).symm hPeer

theorem Serving.cleanupInactivePeers (hServing : h.Serving) (idleTimeout now : ℕ) :
    (h.cleanupInactivePeers idleTimeout now).Serving := by
  refine ⟨fun a ps hGet => ?_, fun a ps hGet hMoved => ?_⟩
  · simp only [Host.cleanupInactivePeers, AssocMap.get_retain] at hGet
    exact hServing.sessions a ps (Option.filter_eq_some_iff.mp hGet).1
  · simp only [Host.cleanupInactivePeers, AssocMap.get_retain] at hGet
    obtain ⟨hOld, hKept⟩ := Option.filter_eq_some_iff.mp hGet
    have hWas := hServing.active a ps hOld hMoved
    have hNotRemoved : (h.peers.entries.any fun entry =>
        stale idleTimeout now entry.2.lastSeen && some entry.1 == h.activePeer) = false := by
      refine Bool.eq_false_iff.mpr fun hAny => ?_
      obtain ⟨entry, hMem, hCond⟩ := List.any_eq_true.mp hAny
      simp only [Bool.and_eq_true, beq_iff_eq, hWas, Option.some.injEq] at hCond
      obtain ⟨hStale, hKey⟩ := hCond
      have hEntry := h.peers.get_eq_of_mem (show (entry.1, entry.2) ∈ h.peers.entries from hMem)
      rw [hKey, hOld] at hEntry
      cases hEntry
      simp [hStale] at hKept
    simp only [Host.cleanupInactivePeers, hNotRemoved]
    exact hWas

theorem Serving.step (hServing : h.Serving) (event : HostEvent A H T) :
    (h.step (E := E) snow aead decodeMsg cfg event).1.Serving := by
  cases event with
  | recv peer raw now draws => exact hServing.recv snow aead decodeMsg cfg peer raw now draws
  | cleanup now => exact hServing.cleanupInactivePeers cfg.peerIdleTimeout now

theorem serving_run (events : List (HostEvent A H T)) :
    (run (E := E) snow aead decodeMsg cfg init events).1.Serving :=
  Trace.run_induction (fun _ event hServing => hServing.step snow aead decodeMsg cfg event) serving_init
    events

/-- Over any interleaving of datagrams from any peers and of cleanups, each
peer of the table is new to the hello or established under the session id it
holds, an established peer is the active one, and so at most one peer of the
table is established. -/
theorem host_serving (events : List (HostEvent A H T)) :
    (∀ a ps, (run (E := E) snow aead decodeMsg cfg init events).1.peers.get a = some ps →
        ps.session = (Handshake.new .host, none) ∨ ∃ sid, ps.session = (⟨.host, .established sid⟩, some sid)) ∧
      (∀ a ps sid, (run (E := E) snow aead decodeMsg cfg init events).1.peers.get a = some ps →
        ps.handshake.state = .established sid →
        (run (E := E) snow aead decodeMsg cfg init events).1.activePeer = some a) ∧
      (∀ a b psA psB sidA sidB, (run (E := E) snow aead decodeMsg cfg init events).1.peers.get a = some psA →
        (run (E := E) snow aead decodeMsg cfg init events).1.peers.get b = some psB →
        psA.handshake.state = .established sidA → psB.handshake.state = .established sidB → a = b) := by
  have hServing := serving_run snow aead decodeMsg cfg events
  have hActive : ∀ a ps sid, (run (E := E) snow aead decodeMsg cfg init events).1.peers.get a = some ps →
      ps.handshake.state = .established sid →
      (run (E := E) snow aead decodeMsg cfg init events).1.activePeer = some a := by
    intro a ps sid hGet hEstablished
    refine hServing.active a ps hGet fun hNew => ?_
    rw [hNew] at hEstablished
    cases hEstablished
  refine ⟨hServing.sessions, hActive, fun a b psA psB sidA sidB hA hB hEstA hEstB => ?_⟩
  exact Option.some.inj ((hActive a psA sidA hA hEstA).symm.trans (hActive b psB sidB hB hEstB))

/-- A run after a prefix and one more event continues from the host that event
leaves. -/
theorem run_append_cons (h : Host A H T) (pre : List (HostEvent A H T)) (event : HostEvent A H T)
    (events : List (HostEvent A H T)) :
    (run (E := E) snow aead decodeMsg cfg h (pre ++ event :: events)).1 =
      (run (E := E) snow aead decodeMsg cfg
        ((run (E := E) snow aead decodeMsg cfg h pre).1.step snow aead decodeMsg cfg event).1 events).1 := by
  rw [run, Trace.run_append, Trace.run_cons]
  rfl

/-- A peer whose handshake has moved on keeps it so over a run, unless some
prefix of the run has dropped it from the table. -/
theorem moved_on_run {h : Host A H T} {a : A} {ps : PeerState H T} (hGet : h.peers.get a = some ps)
    (hMoved : ps.handshake ≠ Handshake.new .host) (events : List (HostEvent A H T)) :
    (∃ k ≤ events.length, (run (E := E) snow aead decodeMsg cfg h (events.take k)).1.peers.get a = none) ∨
      ∃ ps', (run (E := E) snow aead decodeMsg cfg h events).1.peers.get a = some ps' ∧
        ps'.handshake ≠ Handshake.new .host := by
  induction events generalizing h ps with
  | nil => exact .inr ⟨ps, hGet, hMoved⟩
  | cons event events ih =>
      cases hNext : (h.step (E := E) snow aead decodeMsg cfg event).1.peers.get a with
      | none => exact .inl ⟨1, by simp, by simpa [run, Trace.run_cons] using hNext⟩
      | some ps' =>
          rcases ih hNext (moved_on_step snow aead decodeMsg cfg hGet hMoved event ps' hNext) with
            ⟨k, hk, hGone⟩ | hKept
          · exact .inl ⟨k + 1, by simp only [List.length_cons]; omega,
              by simpa [run, Trace.run_cons] using hGone⟩
          · exact .inr (by simpa [run, Trace.run_cons] using hKept)

/-- A peer state acknowledges at most one hello. On every run, an accepted
`HelloAck` goes only to a peer that is new or at `Init`, and leaves it the
active peer, established under the ack's session id; after it, the next
accepted one to that peer comes only once a cleanup has dropped it from the
table. -/
theorem host_acks_once (pre : List (HostEvent A H T)) (first : HostEvent A H T) (peer : A) (sent : Sent)
    (hFirst : (peer, sent) ∈
      ((run (E := E) snow aead decodeMsg cfg init pre).1.step snow aead decodeMsg cfg first).2)
    (hAccepted : sent.accepted = true) :
    ((∀ ps, (run (E := E) snow aead decodeMsg cfg init pre).1.peers.get peer = some ps →
        ps.handshake = Handshake.new .host) ∧
      ((run (E := E) snow aead decodeMsg cfg init pre).1.step snow aead decodeMsg cfg first).1.activePeer =
        some peer ∧
      ∃ ps sid,
        ((run (E := E) snow aead decodeMsg cfg init pre).1.step snow aead decodeMsg cfg first).1.peers.get peer =
          some ps ∧
        ps.session = (⟨.host, .established sid⟩, some sid) ∧ sent = .helloAck ⟨true, sid⟩ ps.sessionAlias) ∧
    ∀ (mid : List (HostEvent A H T)) (second : HostEvent A H T) (sent' : Sent),
      (peer, sent') ∈
        ((run (E := E) snow aead decodeMsg cfg init (pre ++ first :: mid)).1.step snow aead decodeMsg cfg
          second).2 →
      sent'.accepted = true →
      ∃ k ≤ mid.length,
        (run (E := E) snow aead decodeMsg cfg init (pre ++ first :: mid.take k)).1.peers.get peer = none := by
  have hAck := step_accepted snow aead decodeMsg cfg _ first hFirst hAccepted
  refine ⟨hAck, fun mid second sent' hSecond hAccepted' => ?_⟩
  obtain ⟨-, -, ps, sid, hGet, hSession, -⟩ := hAck
  have hMoved : ps.handshake ≠ Handshake.new .host := by
    rw [show ps.handshake = ⟨.host, .established sid⟩ from congrArg Prod.fst hSession]
    intro hNew
    cases hNew
  rcases moved_on_run snow aead decodeMsg cfg hGet hMoved mid with ⟨k, hk, hGone⟩ | ⟨ps', hGet', hMoved'⟩
  · exact ⟨k, hk, by rw [run_append_cons]; exact hGone⟩
  · have hNew := (step_accepted snow aead decodeMsg cfg _ second hSecond hAccepted').1 ps'
      (by rw [run_append_cons]; exact hGet')
    exact absurd hNew hMoved'

end Host

/-- The crypto-free host of the witnesses: a table of four peers, idle after
ten instants, every payload a hello. -/
def plainConfig : HostConfig := ⟨true, 4, 10⟩

/-- What the host draws for the witnesses' datagrams. -/
def plainDraws : Draws Unit Unit := ⟨SecureServer.new (NoiseResponder.new ()), 7, [5]⟩

/-- A hello from peer 0 at instant `now`. -/
def plainHello (now : ℕ) : HostEvent ℕ Unit Unit := .recv 0 (clientHello.encode kermit) now plainDraws

/-- A cleanup long after the hello. -/
def plainIdle : List (HostEvent ℕ Unit Unit) := [.cleanup 100]

/-- A peer's hello is acknowledged, which establishes the peer under the
drawn session id 7; the peer idles until a cleanup drops it, and its next hello
is acknowledged again. -/
theorem host_acks_once_after_cleanup :
    (∃ ps sid,
      ((Host.run pickySnow prefixAead (fun _ => some .hello) plainConfig Host.init []).1.step pickySnow
        prefixAead (fun _ => some .hello) plainConfig (plainHello 0)).1.peers.get 0 = some ps ∧
      ps.session = (⟨.host, .established sid⟩, some sid) ∧
      Sent.helloAck ⟨true, [5]⟩ 7 = .helloAck ⟨true, sid⟩ ps.sessionAlias) ∧
    ∃ k ≤ plainIdle.length,
      (Host.run pickySnow prefixAead (fun _ => some .hello) plainConfig Host.init
        ([] ++ plainHello 0 :: plainIdle.take k)).1.peers.get 0 = none := by
  have hOnce := Host.host_acks_once pickySnow prefixAead (fun _ => some .hello) plainConfig [] (plainHello 0) 0
    (.helloAck ⟨true, [5]⟩ 7) (by decide +kernel) rfl
  exact ⟨hOnce.1.2.2, hOnce.2 plainIdle (plainHello 100) (.helloAck ⟨true, [5]⟩ 7) (by decide +kernel) rfl⟩

end Wavry.Server
