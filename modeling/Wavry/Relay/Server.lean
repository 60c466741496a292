import Wavry.Gateway.Relay
import Wavry.Relay.Session

/-! The packet path of the standalone relay (`wavry-relay` `RelayServer`):
`handle_packet` checks the datagram's size, magic and header, rate-limits its
source IP, sheds new sessions under load, and dispatches lease presentations,
renewals and forwards. Lease tokens are checked by the master key when one is
configured; that check (PASETO signature and claims) is the parameter
`verifyLease`, and without a key a peer is named after its address. A forward
goes to the peer in the other slot of the session its header names. -/
namespace Wavry.Relay

open Wavry.RiftCore Wavry.RiftCrypto

/-- `MAX_IP_RATE_TABLE_ENTRIES`. -/
def maxIpRateTableEntries : Nat := 1000000

/-- `MAX_IDENTITY_RATE_TABLE_ENTRIES`. -/
def maxIdentityRateTableEntries : Nat := 100000

/-- `MAX_LEASE_TOKEN_BYTES`. -/
def maxLeaseTokenBytes : Nat := 8192

/-- The `PacketError`s of the packet path. -/
inductive PacketError where
  | invalidSize
  | invalidMagic
  | rateLimited
  | invalidHeader
  | invalidPayload
  | invalidSessionId
  | expiredLease
  | invalidRole
  | wrongRelay
  | keyIdMismatch
  | unexpectedType
  | invalidSignature
  | sessionNotFound
  | sessionNotActive
  | sessionFull
  | unknownPeer
  | replayDetected (sequence : UInt64)
  | overloaded
  | sessionError
  deriving DecidableEq, Repr

/-- What a verified lease grants: the holder's id, its role and the rate
limits in its claims. -/
structure ValidatedLease where
  wavryId : String
  peerRole : PeerRole
  softLimitKbps : Option UInt32
  hardLimitKbps : Option UInt32

section Server

variable {Addr Ip K : Type}

/-- The fixed-window limiter of `IpRateLimiter` and `IdentityRateLimiter`:
per key, a count and the start of its window, in a table of bounded size. -/
structure RateLimiter (K : Type) where
  counts : AssocMap K (UInt64 × Nat)
  maxPps : UInt64
  window : Nat

def RateLimiter.check [DecidableEq K] (tableCap : Nat) (l : RateLimiter K) (key : K) (now : Nat) :
    Bool × RateLimiter K :=
  if (l.counts.get key).isNone && tableCap ≤ l.counts.size then (false, l)
  else
    let entry := (l.counts.get key).getD (0, now)
    let entry := if now - entry.2 > l.window then (0, now) else entry
    let entry := (entry.1 + 1, entry.2)
    (entry.1 ≤ l.maxPps, { l with counts := l.counts.insert key entry })

/-- `IpRateLimiter::check`. -/
def ipCheck [DecidableEq Ip] (l : RateLimiter Ip) (ip : Ip) (now : Nat) : Bool × RateLimiter Ip :=
  l.check maxIpRateTableEntries ip now

/-- `IdentityRateLimiter::check`. -/
def identityCheck (l : RateLimiter String) (identity : String) (now : Nat) :
    Bool × RateLimiter String :=
  l.check maxIdentityRateTableEntries identity now

/-- What the relay sends. Acknowledgements carry the lease's expiry on the
wall clock, which the model leaves out. -/
inductive Sent (Addr : Type) where
  | leaseAck (dest : Addr) (sessionId : BitVec 128) (softLimitKbps hardLimitKbps : UInt32)
  | leaseReject (dest : Addr) (sessionId : BitVec 128) (reason : LeaseRejectReason)
  | forward (dest : Addr) (packet : List UInt8)
  deriving DecidableEq

/-- The state `handle_packet` reads and writes. -/
structure RelayServer (Addr Ip : Type) where
  pool : SessionPool Addr
  ipLimiter : RateLimiter Ip
  identityLimiter : RateLimiter String
  leaseDuration : Nat
  loadShedThresholdPct : UInt8

/-- The result of handling one datagram: the new state, what was sent and
the error `handle_packet` returned, if any. -/
abbrev Handled (Addr Ip : Type) := RelayServer Addr Ip × List (Sent Addr) × Option PacketError

namespace RelayServer

/-- `RelayServer::new`, for the fields the packet path reads. -/
def new (maxSessions idleTimeout leaseDuration : Nat) (loadShedThresholdPct : UInt8)
    (ipRateLimitPps identityRateLimitPps : UInt64) : RelayServer Addr Ip :=
  ⟨SessionPool.new maxSessions idleTimeout, ⟨AssocMap.empty, max ipRateLimitPps 1, 1000⟩,
    ⟨AssocMap.empty, max identityRateLimitPps 1, 1000⟩, leaseDuration,
    min (max loadShedThresholdPct 50) 100⟩

/-- `should_shed_new_session`. -/
def shouldShedNewSession (s : RelayServer Addr Ip) (sessionId : BitVec 128) : Bool :=
  if (s.pool.sessions.get sessionId).isSome then false
  else
    let threshold := max 1 (s.pool.maxSessions * s.loadShedThresholdPct.toNat / 100)
    threshold ≤ s.pool.sessions.size

/-- How `handle_lease_present` answers a failed lease check. -/
def rejectOfLeaseError : PacketError → Option LeaseRejectReason × PacketError
  | .expiredLease => (some .expired, .expiredLease)
  | .wrongRelay => (some .wrongRelay, .wrongRelay)
  | .invalidSignature | .invalidRole | .keyIdMismatch => (some .invalidSignature, .invalidSignature)
  | other => (none, other)

/-- How `handle_lease_present` answers a failed registration. -/
def rejectOfSessionError : SessionError → LeaseRejectReason
  | .invalidLease | .peerAlreadyRegistered => .invalidSignature
  | .sessionFull => .sessionFull
  | _ => .wrongRelay

variable (verifyLease : Option (List UInt8 → BitVec 128 → PeerRole → Except PacketError ValidatedLease))
  (showAddr : Addr → String)

/-- `handle_lease_present`. -/
def handleLeasePresent (s : RelayServer Addr Ip) (header : RelayHeader) (payload : List UInt8)
    (src : Addr) (now : Nat) : Handled Addr Ip :=
  let reject (reason : LeaseRejectReason) : List (Sent Addr) :=
    [.leaseReject src header.sessionId reason]
  match LeasePresentPayload.decode payload with
  | .error _ => (s, [], some .invalidPayload)
  | .ok lease =>
      if lease.leaseToken.isEmpty || lease.leaseToken.length > maxLeaseTokenBytes then
        (s, reject .invalidSignature, some .invalidPayload)
      else
        let granted : Except PacketError ValidatedLease :=
          match verifyLease with
          | some verify => verify lease.leaseToken header.sessionId lease.peerRole
          | none => .ok ⟨"dev-peer-" ++ showAddr src, lease.peerRole, none, none⟩
        match granted with
        | .error e =>
            let (reason, err) := rejectOfLeaseError e
            (s, reason.toList.map fun r => .leaseReject src header.sessionId r, some err)
        | .ok granted =>
            let (allowed, identityLimiter) := identityCheck s.identityLimiter granted.wavryId now
            let s := { s with identityLimiter := identityLimiter }
            if !allowed then (s, reject .rateLimited, some .rateLimited)
            else
              match s.pool.getOrCreate header.sessionId s.leaseDuration now with
              | .error _ => (s, reject .sessionFull, some .sessionFull)
              | .ok (pool, session) =>
                  let (session, failed) :=
                    session.registerPeer granted.peerRole granted.wavryId src now
                  match failed with
                  | some e =>
                      ({ s with pool := pool.put header.sessionId session },
                        reject (rejectOfSessionError e), some .sessionError)
                  | none =>
                      let session := match granted.softLimitKbps with
                        | some soft => { session with softLimitKbps := max soft 1000 }
                        | none => session
                      let session := match granted.hardLimitKbps with
                        | some hard => { session with hardLimitKbps := max hard session.softLimitKbps }
                        | none => session
                      ({ s with pool := pool.put header.sessionId session },
                        [.leaseAck src header.sessionId session.softLimitKbps session.hardLimitKbps], none)

variable [DecidableEq Addr]

/-- `handle_lease_renew`. -/
def handleLeaseRenew (s : RelayServer Addr Ip) (header : RelayHeader) (src : Addr) (now : Nat) :
    Handled Addr Ip :=
  let reject (reason : LeaseRejectReason) : List (Sent Addr) :=
    [.leaseReject src header.sessionId reason]
  match s.pool.sessions.get header.sessionId with
  | none => (s, reject .expired, some .sessionNotFound)
  | some session =>
      if (session.identifyPeer src).isNone then (s, reject .invalidSignature, some .unknownPeer)
      else
        let (session, failed) := session.renewLease s.leaseDuration now
        let s := { s with pool := s.pool.put header.sessionId session }
        match failed with
        | some _ => (s, reject .expired, some .expiredLease)
        | none => (s, [.leaseAck src header.sessionId session.softLimitKbps session.hardLimitKbps], none)

/-- The rate window of `handle_forward`: once a second the rate of the last
window is computed and the byte count restarts. -/
def RelaySession.refreshRate (session : RelaySession Addr) (now : Nat) : RelaySession Addr :=
  let elapsed := now - session.lastStatsReset
  if elapsed ≥ 1000 then
    { session with
      currentBps := (session.bytesSentWindow.toNat : ℚ) * 1000 / elapsed * 8
      bytesSentWindow := 0
      lastStatsReset := now }
  else session

/-- `handle_forward`. The sender is named by its address among the session's
two peers and the datagram goes to the other one; the header is encoded
afresh in front of the payload. -/
def handleForward (s : RelayServer Addr Ip) (header : RelayHeader) (payload : List UInt8)
    (src : Addr) (now : Nat) : Handled Addr Ip :=
  match s.pool.sessions.get header.sessionId with
  | none => (s, [], some .sessionNotFound)
  | some session =>
      if !session.isActive now then (s, [], some .sessionNotActive)
      else
        match session.identifyPeer src with
        | none => (s, [], some .unknownPeer)
        | some (role, sender, dest) =>
            match forwardSequence payload with
            | none => (s, [], some .invalidPayload)
            | some sequence =>
                let (accepted, window) := sender.seqWindow.checkAndUpdate sequence
                if !accepted then (s, [], some (.replayDetected sequence))
                else
                  let session := session.setSlot role (some { sender with seqWindow := window })
                  let session := RelaySession.refreshRate session now
                  if session.currentBps > (session.hardLimitKbps.toNat : ℚ) * 1000 then
                    ({ s with pool := s.pool.put header.sessionId session }, [], some .rateLimited)
                  else
                    let session := session.setSlot role
                      (some { sender with seqWindow := window, socketAddr := src, lastSeen := now })
                    let forwardSize := relayHeaderSize + payload.length
                    let session := session.recordForward forwardSize now
                    let session :=
                      { session with bytesSentWindow := session.bytesSentWindow + UInt64.ofNat forwardSize }
                    match header.encode (List.replicate forwardSize 0) with
                    | .error _ => (s, [], some .invalidHeader)
                    | .ok (_, buf) =>
                        ({ s with pool := s.pool.put header.sessionId session },
                          [.forward dest.socketAddr (buf.take relayHeaderSize ++ payload)], none)

variable [DecidableEq Ip] (ipOf : Addr → Ip)

/-- `handle_packet`. -/
def handlePacket (s : RelayServer Addr Ip) (packet : List UInt8) (src : Addr) (now : Nat) :
    Handled Addr Ip :=
  if packet.length < relayHeaderSize || packet.length > relayMaxPacketSize then
    (s, [], some .invalidSize)
  else if !RelayHeader.quickCheck packet then (s, [], some .invalidMagic)
  else
    match RelayHeader.decode packet with
    | .error _ => (s, [], some .invalidHeader)
    | .ok header =>
        if header.sessionId = 0 then (s, [], some .invalidSessionId)
        else
          let (allowed, ipLimiter) := ipCheck s.ipLimiter (ipOf src) now
          let s := { s with ipLimiter := ipLimiter }
          if !allowed then
            let sent : List (Sent Addr) :=
              match header.packetType with
              | .leasePresent | .leaseRenew => [.leaseReject src header.sessionId .rateLimited]
              | _ => []
            (s, sent, some .rateLimited)
          else if header.packetType = .leasePresent && s.shouldShedNewSession header.sessionId then
            (s, [.leaseReject src header.sessionId .sessionFull], some .overloaded)
          else
            let payload := packet.drop relayHeaderSize
            match header.packetType with
            | .leasePresent => s.handleLeasePresent verifyLease showAddr header payload src now
            | .leaseRenew => s.handleLeaseRenew header src now
            | .forward => s.handleForward header payload src now
            | _ => (s, [], some .unexpectedType)

/-! ## Forwarding goes to the other peer of the named session -/

section Forward

omit [DecidableEq Ip]

/-- What `identify_peer` found: both slots are filled, the source is the
address of the one whose role is returned, and the destination is the other. -/
theorem identifyPeer_eq_some {session : RelaySession Addr} {src : Addr} {role : PeerRole}
    {sender dest : PeerState Addr} (h : session.identifyPeer src = some (role, sender, dest)) :
    ∃ client server, session.client = some client ∧ session.server = some server ∧
      ((client.socketAddr = src ∧ dest = server) ∨ (server.socketAddr = src ∧ dest = client)) := by
  unfold RelaySession.identifyPeer at h
  split at h
  · next client server hClient hServer =>
      refine ⟨client, server, hClient, hServer, ?_⟩
      split_ifs at h with hIsClient hIsServer
      · cases h
        exact .inl ⟨hIsClient, rfl⟩
      · cases h
        exact .inr ⟨hIsServer, rfl⟩
  · cases h

/-- The bytes `handle_forward` sends: the header's own 20 bytes before the
payload. -/
theorem forward_bytes (header : RelayHeader) (payload : List UInt8) :
    ∃ buf, header.encode (List.replicate (relayHeaderSize + payload.length) 0) = .ok (relayHeaderSize, buf) ∧
      buf.take relayHeaderSize ++ payload = header.bytes ++ payload := by
  refine ⟨header.bytes ++ (List.replicate (relayHeaderSize + payload.length) 0).drop relayHeaderSize,
    ?_, ?_⟩
  · rw [RelayHeader.encode, Wire.writePrefix_of_le (by simp), RelayHeader.length_bytes]
  · rw [List.take_left' (RelayHeader.length_bytes header)]

/-- Whatever `handle_forward` sends goes from one peer of the session kept
under the header's id to the other. -/
theorem handleForward_forward {s : RelayServer Addr Ip} {header : RelayHeader}
    {payload : List UInt8} {src : Addr} {now : Nat} {dst : Addr} {sent : List UInt8}
    (h : Sent.forward dst sent ∈ (s.handleForward header payload src now).2.1) :
    ∃ session client server, s.pool.sessions.get header.sessionId = some session ∧
      session.client = some client ∧ session.server = some server ∧
      ((client.socketAddr = src ∧ server.socketAddr = dst) ∨
        (server.socketAddr = src ∧ client.socketAddr = dst)) ∧
      sent = header.bytes ++ payload := by
  unfold handleForward at h
  split at h
  · simp at h
  · next session hSession =>
      split_ifs at h
      · simp at h
      · split at h
        · simp at h
        · next role sender dest hIdentify =>
            obtain ⟨client, server, hClient, hServer, hSides⟩ := identifyPeer_eq_some hIdentify
            split at h
            · simp at h
            · dsimp only at h
              split_ifs at h
              · simp at h
              · simp at h
              · obtain ⟨buf, hEncode, hBytes⟩ := forward_bytes header payload
                rw [hEncode] at h
                simp only [List.mem_singleton, Sent.forward.injEq] at h
                obtain ⟨rfl, rfl⟩ := h
                refine ⟨session, client, server, hSession, hClient, hServer, ?_, hBytes⟩
                rcases hSides with ⟨hSrc, rfl⟩ | ⟨hSrc, rfl⟩
                · exact .inl ⟨hSrc, rfl⟩
                · exact .inr ⟨hSrc, rfl⟩

omit [DecidableEq Addr] in
/-- A lease presentation is answered with acknowledgements and rejects only. -/
theorem forward_not_mem_handleLeasePresent {s : RelayServer Addr Ip} {header : RelayHeader}
    {payload : List UInt8} {src : Addr} {now : Nat} (dst : Addr) (sent : List UInt8) :
    Sent.forward dst sent ∉ (s.handleLeasePresent verifyLease showAddr header payload src now).2.1 := by
  unfold handleLeasePresent
  dsimp only
  split
  · simp
  · split_ifs
    · simp
    · split
      · simp
      · split_ifs
        · simp
        · split
          · simp
          · split <;> simp

/-- A renewal is answered with an acknowledgement or a reject only. -/
theorem forward_not_mem_handleLeaseRenew {s : RelayServer Addr Ip} {header : RelayHeader}
    {src : Addr} {now : Nat} (dst : Addr) (sent : List UInt8) :
    Sent.forward dst sent ∉ (s.handleLeaseRenew header src now).2.1 := by
  unfold handleLeaseRenew
  dsimp only
  split
  · simp
  · split_ifs
    · simp
    · split <;> simp

variable [DecidableEq Ip] (ipOf : Addr → Ip)

/-- Whatever the relay forwards is the datagram it received, a forward packet,
sent from one peer of the session kept under its session id to the other. -/
theorem handlePacket_forward {s : RelayServer Addr Ip} {packet : List UInt8} {src : Addr}
    {now : Nat} {dst : Addr} {sent : List UInt8}
    (h : Sent.forward dst sent ∈ (s.handlePacket verifyLease showAddr ipOf packet src now).2.1) :
    ∃ header session client server, RelayHeader.decode packet = .ok header ∧
      header.packetType = .forward ∧ s.pool.sessions.get header.sessionId = some session ∧
      session.client = some client ∧ session.server = some server ∧
      ((client.socketAddr = src ∧ server.socketAddr = dst) ∨
        (server.socketAddr = src ∧ client.socketAddr = dst)) ∧
      sent = packet := by
  unfold handlePacket at h
  split_ifs at h
  · simp at h
  · simp at h
  · split at h
    · simp at h
    · next header hHeader =>
        split_ifs at h
        · simp at h
        · dsimp only at h
          split_ifs at h
          · split at h <;> simp at h
          · simp at h
          · split at h
            · exact absurd h (forward_not_mem_handleLeasePresent verifyLease showAddr dst sent)
            · exact absurd h (forward_not_mem_handleLeaseRenew dst sent)
            · next hType =>
                obtain ⟨session, client, server, hSession, hClient, hServer, hSides, rfl⟩ :=
                  handleForward_forward h
                have hBytes : header.bytes = packet.take relayHeaderSize :=
                  (Wire.take_of_writePrefix (RelayHeader.encode_of_decode hHeader)).symm
                refine ⟨header, session, client, server, hHeader, hType, hSession, hClient, hServer,
                  hSides, ?_⟩
                rw [hBytes, List.take_append_drop]
            · simp at h

end Forward

/-- The state after a run of datagrams, each with its source and arrival time. -/
def stateAfter (s : RelayServer Addr Ip) (datagrams : List (List UInt8 × Addr × Nat)) :
    RelayServer Addr Ip :=
  datagrams.foldl (fun s d => (s.handlePacket verifyLease showAddr ipOf d.1 d.2.1 d.2.2).1) s

end RelayServer

end Server

/-! ## Both relays -/

open BigEndian

/-- Both relays forward only between the two peers of one session: a
forwarded datagram is a forward packet whose session id names a session (in
the gateway, one opened under a token never used before) that has the
datagram's source bound to one role and its destination to the other. -/
theorem relays_forward_within_session :
    (∀ {Addr Ip : Type} [DecidableEq Addr] [DecidableEq Ip] (ipOf : Addr → Ip) (maxPps : UInt64)
      (start : Nat) (events : List (Gateway.Event Addr)), (Gateway.openedTokens events).Nodup →
      ∀ (src : Addr) (bytes : List UInt8) (now : Nat) (dst : Addr) (sent : List UInt8),
        Gateway.Sent.forward dst sent ∈ (((Gateway.RelayLoop.init maxPps start).stateAfter ipOf
          events).step ipOf (.datagram src bytes now)).2 →
        sent = bytes.take relayMaxPacketSize ∧
        ∃ header token session, RelayHeader.decode sent = .ok header ∧
          header.packetType = .forward ∧
          ((Gateway.RelayLoop.init maxPps start).stateAfter ipOf events).sessions.get token =
            some session ∧
          session.sessionId = header.sessionId ∧
          ((session.hostAddr = some src ∧ session.clientAddr = some dst) ∨
            (session.clientAddr = some src ∧ session.hostAddr = some dst))) ∧
    (∀ {Addr Ip : Type} [DecidableEq Addr] [DecidableEq Ip]
      (verifyLease : Option (List UInt8 → BitVec 128 → PeerRole → Except PacketError ValidatedLease))
      (showAddr : Addr → String) (ipOf : Addr → Ip) (s : RelayServer Addr Ip)
      (packet : List UInt8) (src : Addr) (now : Nat) (dst : Addr) (sent : List UInt8),
      Sent.forward dst sent ∈ (s.handlePacket verifyLease showAddr ipOf packet src now).2.1 →
      sent = packet ∧
      ∃ header session client server, RelayHeader.decode sent = .ok header ∧
        header.packetType = .forward ∧ s.pool.sessions.get header.sessionId = some session ∧
        session.client = some client ∧ session.server = some server ∧
        ((client.socketAddr = src ∧ server.socketAddr = dst) ∨
          (server.socketAddr = src ∧ client.socketAddr = dst))) := by
  constructor
  · intro Addr Ip _ _ ipOf maxPps start events hFresh src bytes now dst sent hSent
    exact Gateway.forward_within_session ipOf maxPps start events hFresh src bytes now dst sent hSent
  · intro Addr Ip _ _ verifyLease showAddr ipOf s packet src now dst sent hSent
    obtain ⟨header, session, client, server, hHeader, hType, hSession, hClient, hServer, hSides, rfl⟩ :=
      RelayServer.handlePacket_forward verifyLease showAddr ipOf hSent
    exact ⟨rfl, header, session, client, server, hHeader, hType, hSession, hClient, hServer, hSides⟩

/-- One address presenting both roles' leases: each relay then sends that
address's forward datagrams back to it. -/
theorem relays_forward_back_to_sender :
    Gateway.Sent.forward 7 (forwardDatagram 1 5 []) ∈
      (((Gateway.RelayLoop.init 2000 0 : Gateway.RelayLoop Nat Nat).stateAfter id
        [.openSession (List.replicate 32 97) 1 0,
          .datagram 7 (leaseDatagram 1 .server (List.replicate 32 97)) 1,
          .datagram 7 (leaseDatagram 1 .client (List.replicate 32 97)) 2]).step id
        (.datagram 7 (forwardDatagram 1 5 []) 3)).2 ∧
    Sent.forward 7 (forwardDatagram 1 5 []) ∈
      (((RelayServer.new 100 60000 300000 95 1000 200 : RelayServer Nat Nat).stateAfter none toString id
        [(leaseDatagram 1 .client [1], 7, 1), (leaseDatagram 1 .server [1], 7, 2)]).handlePacket
        none toString id (forwardDatagram 1 5 []) 7 3).2.1 := by
  constructor <;> decide +kernel

/-- The same runs, through the theorem: the session has the one address in
both roles. -/
theorem relays_forward_within_session_one_address :
    (forwardDatagram 1 5 [] = (forwardDatagram 1 5 []).take relayMaxPacketSize ∧
    ∃ header token session, RelayHeader.decode (forwardDatagram 1 5 []) = .ok header ∧
      header.packetType = .forward ∧
      ((Gateway.RelayLoop.init 2000 0 : Gateway.RelayLoop Nat Nat).stateAfter id
        [.openSession (List.replicate 32 97) 1 0,
          .datagram 7 (leaseDatagram 1 .server (List.replicate 32 97)) 1,
          .datagram 7 (leaseDatagram 1 .client (List.replicate 32 97)) 2]).sessions.get token =
        some session ∧
      session.sessionId = header.sessionId ∧
      ((session.hostAddr = some 7 ∧ session.clientAddr = some 7) ∨
        (session.clientAddr = some 7 ∧ session.hostAddr = some 7))) ∧
    (forwardDatagram 1 5 [] = forwardDatagram 1 5 [] ∧
    ∃ header session client server, RelayHeader.decode (forwardDatagram 1 5 []) = .ok header ∧
      header.packetType = .forward ∧
      ((RelayServer.new 100 60000 300000 95 1000 200 : RelayServer Nat Nat).stateAfter none toString id
        [(leaseDatagram 1 .client [1], 7, 1), (leaseDatagram 1 .server [1], 7, 2)]).pool.sessions.get
          header.sessionId = some session ∧
      session.client = some client ∧ session.server = some server ∧
      ((client.socketAddr = 7 ∧ server.socketAddr = 7) ∨
        (server.socketAddr = 7 ∧ client.socketAddr = 7))) :=
  ⟨relays_forward_within_session.1 id 2000 0 _ (by decide) 7 (forwardDatagram 1 5 []) 3 7 _
      (by decide +kernel),
    relays_forward_within_session.2 none toString id _ (forwardDatagram 1 5 []) 7 3 7 _
      (by decide +kernel)⟩

end Wavry.Relay
