import Wavry.Lib.AssocMap
import Wavry.RiftCore.Relay
import Wavry.RiftCrypto.SeqWindow

/-! The gateway's built-in relay (`wavry-gateway` `run_relay_server`). The
signalling side opens a session under a random token with neither address
bound and closes it later; the relay loop binds the host and client addresses
from lease presentations and keeps a route per address, naming the session's
token and id, the side and the other address. A forward datagram is sent to
its source's route destination after the route, the session, the bandwidth
budget and the replay window all agree. Time is an input, in milliseconds.
Addresses and their IPs are abstract; `ipOf` is `SocketAddr::ip`. -/
namespace Wavry.Gateway

open Wavry.RiftCore Wavry.RiftCrypto

/-- `BANDWIDTH_LIMIT_BPS`. -/
def bandwidthLimitBps : Nat := 500 * 1024

/-- `ROUTE_IDLE_TIMEOUT`. -/
def routeIdleTimeoutMs : Nat := 120000

/-- `MAX_STRIKES`. -/
def maxStrikes : UInt32 := 5

/-- `BAN_DURATION`. -/
def banDurationMs : Nat := 300000

section Model

variable {Addr Ip : Type} [DecidableEq Addr] [DecidableEq Ip]

/-- The relay's view of a `RelaySession`. -/
structure RelaySession (Addr : Type) where
  sessionId : BitVec 128
  hostAddr : Option Addr
  clientAddr : Option Addr
  bytesSent : Nat
  lastTick : Nat
  hostSeq : SequenceWindow
  clientSeq : SequenceWindow

/-- A session as signalling inserts it. -/
def RelaySession.new (sessionId : BitVec 128) (now : Nat) : RelaySession Addr :=
  ⟨sessionId, none, none, 0, now, SequenceWindow.new, SequenceWindow.new⟩

inductive RouteSide where
  | host
  | client
  deriving DecidableEq, Repr

structure RouteEntry (Addr : Type) where
  token : List UInt8
  sessionId : BitVec 128
  side : RouteSide
  dest : Addr
  lastSeen : Nat

/-- `IpRateLimiter`: per IP, a count and the start of its one-second window. -/
structure IpRateLimiter (Ip : Type) where
  counts : AssocMap Ip (UInt64 × Nat)
  maxPps : UInt64

def IpRateLimiter.check (l : IpRateLimiter Ip) (ip : Ip) (now : Nat) : Bool × IpRateLimiter Ip :=
  let entry := (l.counts.get ip).getD (0, now)
  let entry := if now - entry.2 ≥ 1000 then (0, now) else entry
  let entry := (entry.1 + 1, entry.2)
  (entry.1 ≤ l.maxPps, { l with counts := l.counts.insert ip entry })

def IpRateLimiter.cleanup (l : IpRateLimiter Ip) (now : Nat) : IpRateLimiter Ip :=
  { l with counts := l.counts.retain fun _ entry => now - entry.2 < 2000 }

/-- `BannedIPs`: per IP, a strike count and the time of the last strike. -/
structure BannedIPs (Ip : Type) where
  strikes : AssocMap Ip (UInt32 × Nat)

/-- `is_banned`, which forgets a ban that has run out. -/
def BannedIPs.isBanned (b : BannedIPs Ip) (ip : Ip) (now : Nat) : Bool × BannedIPs Ip :=
  match b.strikes.get ip with
  | some (strikes, bannedAt) =>
      if strikes ≥ maxStrikes then
        if now - bannedAt < banDurationMs then (true, b) else (false, ⟨b.strikes.erase ip⟩)
      else (false, b)
  | none => (false, b)

def BannedIPs.addStrike (b : BannedIPs Ip) (ip : Ip) (now : Nat) : BannedIPs Ip :=
  let entry := (b.strikes.get ip).getD (0, now)
  ⟨b.strikes.insert ip (entry.1 + 1, now)⟩

def BannedIPs.cleanup (b : BannedIPs Ip) (now : Nat) : BannedIPs Ip :=
  ⟨b.strikes.retain fun _ entry =>
    if entry.1 ≥ maxStrikes then now - entry.2 < banDurationMs else now - entry.2 < 3600000⟩

/-- `security::is_valid_session_token` on the token's bytes, with the UTF-8
check before it: 32 to 256 bytes, each an ASCII letter, digit, `_`, `-` or `.`.
A byte outside ASCII fails one of the two checks. -/
def isValidSessionToken (token : List UInt8) : Bool :=
  32 ≤ token.length && token.length ≤ 256 && token.all fun c =>
    (48 ≤ c && c ≤ 57) || (65 ≤ c && c ≤ 90) || (97 ≤ c && c ≤ 122) || c == 95 || c == 45 ||
      c == 46

/-- What the relay sends. Acknowledgement payloads carry wall-clock expiry
times, which the model leaves out. -/
inductive Sent (Addr : Type) where
  | leaseAck (dest : Addr) (sessionId : BitVec 128)
  | leaseReject (dest : Addr) (sessionId : BitVec 128) (reason : LeaseRejectReason)
  | forward (dest : Addr) (packet : List UInt8)
  deriving DecidableEq

/-- The state of `run_relay_server`: the shared session map and the loop's
own route table, limiter, strike list and cleanup clock. -/
structure RelayLoop (Addr Ip : Type) where
  sessions : AssocMap (List UInt8) (RelaySession Addr)
  routes : AssocMap Addr (RouteEntry Addr)
  limiter : IpRateLimiter Ip
  banned : BannedIPs Ip
  lastCleanup : Nat

/-- What happens to the relay: a datagram arrives, or signalling opens or
closes a session. -/
inductive Event (Addr : Type) where
  | datagram (src : Addr) (bytes : List UInt8) (now : Nat)
  | openSession (token : List UInt8) (sessionId : BitVec 128) (now : Nat)
  | closeSession (token : List UInt8)

/-- One slot of `bind_host` and `bind_client`: take the source if the slot is
empty, else succeed only for the address already there. -/
def bindSlot (slot : Option Addr) (src : Addr) : Option Addr × Bool :=
  match slot with
  | none => (some src, true)
  | some addr => (slot, addr = src)

def bindHost (session : RelaySession Addr) (src : Addr) : RelaySession Addr × Bool :=
  let (hostAddr, bound) := bindSlot session.hostAddr src
  ({ session with hostAddr := hostAddr }, bound)

def bindClient (session : RelaySession Addr) (src : Addr) : RelaySession Addr × Bool :=
  let (clientAddr, bound) := bindSlot session.clientAddr src
  ({ session with clientAddr := clientAddr }, bound)

/-- The role binding of `handle_lease_present`: the presented role first, and
the other role when that fails and the other is still free. The result says
whether the host and the client were bound. -/
def bindRoles (role : PeerRole) (session : RelaySession Addr) (src : Addr) :
    RelaySession Addr × Bool × Bool :=
  match role with
  | .server =>
      let (session, hostBound) := bindHost session src
      if !hostBound && session.clientAddr.isNone then
        let (session, clientBound) := bindClient session src
        (session, hostBound, clientBound)
      else (session, hostBound, false)
  | .client =>
      let (session, clientBound) := bindClient session src
      if !clientBound && session.hostAddr.isNone then
        let (session, hostBound) := bindHost session src
        (session, hostBound, clientBound)
      else (session, false, clientBound)

/-- The two routes of a session with both addresses bound, each pointing at
the other address. -/
def routeBoth (routes : AssocMap Addr (RouteEntry Addr)) (token : List UInt8)
    (session : RelaySession Addr) (now : Nat) : AssocMap Addr (RouteEntry Addr) :=
  match session.hostAddr, session.clientAddr with
  | some host, some client =>
      (routes.insert host ⟨token, session.sessionId, .host, client, now⟩).insert client
        ⟨token, session.sessionId, .client, host, now⟩
  | _, _ => routes

/-- The replay window of a route's side. -/
def RelaySession.seqFor (session : RelaySession Addr) : RouteSide → SequenceWindow
  | .host => session.hostSeq
  | .client => session.clientSeq

def RelaySession.setSeq (session : RelaySession Addr) : RouteSide → SequenceWindow →
    RelaySession Addr
  | .host, window => { session with hostSeq := window }
  | .client, window => { session with clientSeq := window }

/-- Whether a route's side of the session is bound to the source. -/
def RelaySession.sourceMatches (session : RelaySession Addr) (side : RouteSide) (src : Addr) :
    Bool :=
  match side with
  | .host => session.hostAddr == some src
  | .client => session.clientAddr == some src

namespace RelayLoop

/-- `handle_lease_present`; the flag is false where the source earns a strike. -/
def handleLeasePresent (g : RelayLoop Addr Ip) (src : Addr) (header : RelayHeader)
    (payload : List UInt8) (now : Nat) : RelayLoop Addr Ip × List (Sent Addr) × Bool :=
  let reject (reason : LeaseRejectReason) : List (Sent Addr) := [.leaseReject src header.sessionId reason]
  match LeasePresentPayload.decode payload with
  | .error _ => (g, reject .invalidSignature, false)
  | .ok lease =>
      if !isValidSessionToken lease.leaseToken then (g, reject .invalidSignature, false)
      else
        match g.sessions.get lease.leaseToken with
        | none => (g, reject .invalidSignature, false)
        | some session =>
            if session.sessionId ≠ header.sessionId then (g, reject .wrongRelay, false)
            else
              let (session, hostBound, clientBound) := bindRoles lease.peerRole session src
              let g := { g with sessions := g.sessions.insert lease.leaseToken session }
              if !hostBound && !clientBound then (g, reject .sessionFull, false)
              else
                ({ g with routes := routeBoth g.routes lease.leaseToken session now },
                  [.leaseAck src session.sessionId], true)

/-- The part of `handle_forward` after the route and the session have been
matched: the one-second bandwidth window is reset before the budget check,
and the replay window moves only for a sequence it accepts. -/
def sendAdmitted (g : RelayLoop Addr Ip) (src : Addr) (route : RouteEntry Addr)
    (session : RelaySession Addr) (packet : List UInt8) (now : Nat) :
    RelayLoop Addr Ip × List (Sent Addr) :=
  let session :=
    if now - session.lastTick ≥ 1000 then { session with bytesSent := 0, lastTick := now }
    else session
  let g := { g with sessions := g.sessions.insert route.token session }
  if session.bytesSent + packet.length > bandwidthLimitBps then (g, [])
  else
    match forwardSequence (packet.drop relayHeaderSize) with
    | none => (g, [])
    | some sequence =>
        let (accepted, window) := (session.seqFor route.side).checkAndUpdate sequence
        if !accepted then (g, [])
        else
          let session := { session.setSeq route.side window with
            bytesSent := session.bytesSent + packet.length }
          ({ g with
              sessions := g.sessions.insert route.token session
              routes := g.routes.insert src { route with lastSeen := now } },
            [.forward route.dest packet])

/-- `handle_forward`: a route that no longer matches its session is dropped. -/
def handleForward (g : RelayLoop Addr Ip) (src : Addr) (header : RelayHeader)
    (packet : List UInt8) (now : Nat) : RelayLoop Addr Ip × List (Sent Addr) :=
  match g.routes.get src with
  | none => (g, [])
  | some route =>
      let dropRoute := { g with routes := g.routes.erase src }
      if route.sessionId ≠ header.sessionId then (dropRoute, [])
      else
        match g.sessions.get route.token with
        | none => (dropRoute, [])
        | some session =>
            if session.sessionId ≠ header.sessionId then (dropRoute, [])
            else if !session.sourceMatches route.side src then (dropRoute, [])
            else g.sendAdmitted src route session packet now

/-- The periodic cleanup at the end of a handled datagram, every 30 s. -/
def maybeCleanup (g : RelayLoop Addr Ip) (now : Nat) : RelayLoop Addr Ip :=
  if now - g.lastCleanup ≥ 30000 then
    { g with
      routes := g.routes.retain fun _ route => now - route.lastSeen ≤ routeIdleTimeoutMs
      limiter := g.limiter.cleanup now
      banned := g.banned.cleanup now
      lastCleanup := now }
  else g

variable (ipOf : Addr → Ip)

/-- One turn of the receive loop. The datagram is cut to the 1500-byte
receive buffer; banned and rate-limited sources, short datagrams and bad
headers are dropped before the dispatch on the packet type. -/
def onDatagram (g : RelayLoop Addr Ip) (src : Addr) (bytes : List UInt8) (now : Nat) :
    RelayLoop Addr Ip × List (Sent Addr) :=
  let packet := bytes.take relayMaxPacketSize
  let ip := ipOf src
  let (isBanned, banned) := g.banned.isBanned ip now
  let g := { g with banned := banned }
  if isBanned then (g, [])
  else
    let (allowed, limiter) := g.limiter.check ip now
    let g := { g with limiter := limiter }
    if !allowed then (g, [])
    else if packet.length < relayHeaderSize then (g, [])
    else
      match RelayHeader.decode packet with
      | .error _ => (g, [])
      | .ok header =>
          let payload := packet.drop relayHeaderSize
          let (g, sent) : RelayLoop Addr Ip × List (Sent Addr) :=
            match header.packetType with
            | .leasePresent =>
                let (g, sent, ok) := g.handleLeasePresent src header payload now
                (if ok then g else { g with banned := g.banned.addStrike ip now }, sent)
            | .forward => g.handleForward src header packet now
            | .leaseRenew => (g, [.leaseAck src header.sessionId])
            | _ => (g, [])
          (g.maybeCleanup now, sent)

/-- One event: a datagram for the loop, or signalling inserting a fresh
session or removing one. -/
def step (g : RelayLoop Addr Ip) : Event Addr → RelayLoop Addr Ip × List (Sent Addr)
  | .datagram src bytes now => g.onDatagram ipOf src bytes now
  | .openSession token sessionId now =>
      ({ g with sessions := g.sessions.insert token (RelaySession.new sessionId now) }, [])
  | .closeSession token => ({ g with sessions := g.sessions.erase token }, [])

/-- The state after a run of events. -/
def stateAfter (g : RelayLoop Addr Ip) (events : List (Event Addr)) : RelayLoop Addr Ip :=
  events.foldl (fun g e => (g.step ipOf e).1) g

/-- The relay as it starts: no sessions, no routes. -/
def init (maxPps : UInt64) (now : Nat) : RelayLoop Addr Ip :=
  ⟨AssocMap.empty, AssocMap.empty, ⟨AssocMap.empty, maxPps⟩, ⟨AssocMap.empty⟩, now⟩

end RelayLoop

/-- The tokens signalling opened sessions under, in order. -/
def openedTokens : List (Event Addr) → List (List UInt8)
  | [] => []
  | .openSession token _ _ :: rest => token :: openedTokens rest
  | _ :: rest => openedTokens rest

end Model

/-! ## Routes stay within their sessions -/

section Invariant

variable {Addr Ip : Type}

/-- The two addresses of a route's session, seen from the route's side. -/
def SideBound (session : RelaySession Addr) (side : RouteSide) (src dst : Addr) : Prop :=
  match side with
  | .host => session.hostAddr = some src ∧ session.clientAddr = some dst
  | .client => session.clientAddr = some src ∧ session.hostAddr = some dst

/-- A route's link: everything but its idle clock. -/
def RouteEntry.link (route : RouteEntry Addr) : List UInt8 × BitVec 128 × RouteSide × Addr :=
  (route.token, route.sessionId, route.side, route.dest)

/-- A session's binding: its id and its two addresses. -/
def RelaySession.binding (session : RelaySession Addr) : BitVec 128 × Option Addr × Option Addr :=
  (session.sessionId, session.hostAddr, session.clientAddr)

theorem SideBound.of_binding {s s' : RelaySession Addr} {side : RouteSide} {src dst : Addr}
    (h : SideBound s side src dst) (hBinding : s'.binding = s.binding) :
    SideBound s' side src dst := by
  simp only [RelaySession.binding, Prod.mk.injEq] at hBinding
  cases side <;> simpa [SideBound, hBinding.2.1, hBinding.2.2] using h

/-- A session someone holds a route to has both addresses bound. -/
theorem SideBound.bound {s : RelaySession Addr} {side : RouteSide} {src dst : Addr}
    (h : SideBound s side src dst) : ∃ host client, s.hostAddr = some host ∧ s.clientAddr = some client := by
  cases side with
  | host => exact ⟨src, dst, h⟩
  | client => exact ⟨dst, src, h.2, h.1⟩

@[simp] theorem binding_setSeq (s : RelaySession Addr) (side : RouteSide) (window : SequenceWindow) :
    (s.setSeq side window).binding = s.binding := by
  cases side <;> rfl

theorem openedTokens_cons (event : Event Addr) (events : List (Event Addr)) :
    openedTokens (event :: events) = openedTokens [event] ++ openedTokens events := by
  cases event <;> rfl

variable [DecidableEq Addr]

/-- Every route was made for a session signalling opened, and while that
session lives it has the route's id and binds the route's address to the
route's side and the route's destination to the other side. -/
structure RoutesSound (g : RelayLoop Addr Ip) (opened : List (List UInt8)) : Prop where
  session_mem : ∀ token session, g.sessions.get token = some session → token ∈ opened
  token_mem : ∀ addr route, g.routes.get addr = some route → route.token ∈ opened
  bound : ∀ addr route, g.routes.get addr = some route → ∀ session,
    g.sessions.get route.token = some session →
      session.sessionId = route.sessionId ∧ SideBound session route.side addr route.dest

/-- `g'` keeps only routes and sessions of `g`, with their links and
bindings: routes may be dropped or have their clocks refreshed, sessions may
be dropped or have their counters and replay windows moved. -/
structure Refreshes (g' g : RelayLoop Addr Ip) : Prop where
  routes : ∀ addr route, g'.routes.get addr = some route →
    ∃ old, g.routes.get addr = some old ∧ old.link = route.link
  sessions : ∀ token session, g'.sessions.get token = some session →
    ∃ old, g.sessions.get token = some old ∧ old.binding = session.binding

section Sound

variable {g g' g'' : RelayLoop Addr Ip} {opened : List (List UInt8)}

theorem Refreshes.of_tables (hRoutes : g'.routes = g.routes) (hSessions : g'.sessions = g.sessions) :
    Refreshes g' g :=
  ⟨fun _ route h => ⟨route, hRoutes ▸ h, rfl⟩, fun _ session h => ⟨session, hSessions ▸ h, rfl⟩⟩

theorem Refreshes.trans (h₁ : Refreshes g'' g') (h₂ : Refreshes g' g) : Refreshes g'' g := by
  constructor
  · intro addr route hRoute
    obtain ⟨mid, hMid, hLink⟩ := h₁.routes addr route hRoute
    obtain ⟨old, hOld, hLink'⟩ := h₂.routes addr mid hMid
    exact ⟨old, hOld, hLink'.trans hLink⟩
  · intro token session hSession
    obtain ⟨mid, hMid, hBinding⟩ := h₁.sessions token session hSession
    obtain ⟨old, hOld, hBinding'⟩ := h₂.sessions token mid hMid
    exact ⟨old, hOld, hBinding'.trans hBinding⟩

theorem Refreshes.eraseRoute (addr : Addr) :
    Refreshes { g with routes := g.routes.erase addr } g := by
  refine ⟨fun other route h => ⟨route, ?_, rfl⟩, fun _ session h => ⟨session, h, rfl⟩⟩
  simp only [AssocMap.get_erase] at h
  split_ifs at h
  exact h

theorem Refreshes.refreshRoute {addr : Addr} {route : RouteEntry Addr}
    (hGet : g.routes.get addr = some route) (now : Nat) :
    Refreshes { g with routes := g.routes.insert addr { route with lastSeen := now } } g := by
  refine ⟨fun other entry h => ?_, fun _ session h => ⟨session, h, rfl⟩⟩
  simp only [AssocMap.get_insert] at h
  split_ifs at h with hOther
  · cases h
    exact ⟨route, hOther ▸ hGet, rfl⟩
  · exact ⟨entry, h, rfl⟩

theorem Refreshes.updateSession {token : List UInt8} {old session : RelaySession Addr}
    (hGet : g.sessions.get token = some old) (hBinding : old.binding = session.binding) :
    Refreshes { g with sessions := g.sessions.insert token session } g := by
  refine ⟨fun _ route h => ⟨route, h, rfl⟩, fun other entry h => ?_⟩
  simp only [AssocMap.get_insert] at h
  split_ifs at h with hOther
  · cases h
    exact ⟨old, hOther ▸ hGet, hBinding⟩
  · exact ⟨entry, h, rfl⟩

theorem Refreshes.closeSession (token : List UInt8) :
    Refreshes { g with sessions := g.sessions.erase token } g := by
  refine ⟨fun _ route h => ⟨route, h, rfl⟩, fun other session h => ⟨session, ?_, rfl⟩⟩
  simp only [AssocMap.get_erase] at h
  split_ifs at h
  exact h

/-- Soundness survives whatever only refreshes the tables. -/
theorem RoutesSound.of_refreshes (hInv : RoutesSound g opened) (hRefresh : Refreshes g' g) :
    RoutesSound g' opened := by
  constructor
  · intro token session hSession
    obtain ⟨old, hOld, -⟩ := hRefresh.sessions token session hSession
    exact hInv.session_mem token old hOld
  · intro addr route hRoute
    obtain ⟨old, hOld, hLink⟩ := hRefresh.routes addr route hRoute
    simp only [RouteEntry.link, Prod.mk.injEq] at hLink
    exact hLink.1 ▸ hInv.token_mem addr old hOld
  · intro addr route hRoute session hSession
    obtain ⟨old, hOld, hLink⟩ := hRefresh.routes addr route hRoute
    simp only [RouteEntry.link, Prod.mk.injEq] at hLink
    obtain ⟨hToken, hId, hSide, hDest⟩ := hLink
    obtain ⟨oldSession, hOldSession, hBinding⟩ := hRefresh.sessions _ session hSession
    rw [← hToken] at hOldSession
    obtain ⟨hSessionId, hBound⟩ := hInv.bound addr old hOld oldSession hOldSession
    simp only [RelaySession.binding, Prod.mk.injEq] at hBinding
    refine ⟨by rw [← hBinding.1, hSessionId, hId], ?_⟩
    rw [← hSide, ← hDest]
    exact hBound.of_binding (by simp [RelaySession.binding, hBinding])

/-- The limiter, the strike list and the cleanup clock lie outside the invariant. -/
theorem RoutesSound.of_tables (hInv : RoutesSound g opened) (hRoutes : g'.routes = g.routes)
    (hSessions : g'.sessions = g.sessions) : RoutesSound g' opened :=
  hInv.of_refreshes (.of_tables hRoutes hSessions)

/-- Binding into a session with both addresses bound changes nothing. -/
theorem bindRoles_of_bound (role : PeerRole) {s : RelaySession Addr} (src : Addr)
    {host client : Addr}
    (hHost : s.hostAddr = some host) (hClient : s.clientAddr = some client) :
    (bindRoles role s src).1 = s := by
  obtain ⟨sessionId, hostAddr, clientAddr, bytesSent, lastTick, hostSeq, clientSeq⟩ := s
  simp only at hHost hClient
  subst hHost hClient
  cases role <;> simp [bindRoles, bindHost, bindClient, bindSlot]

/-- A lease binds addresses only in a session no route points into, so every
route keeps its session's binding. -/
theorem RoutesSound.bindSession (hInv : RoutesSound g opened) {token : List UInt8}
    {s s' : RelaySession Addr} (hGet : g.sessions.get token = some s)
    (hKeep : ∀ host client, s.hostAddr = some host → s.clientAddr = some client → s' = s) :
    RoutesSound { g with sessions := g.sessions.insert token s' } opened := by
  refine ⟨fun other session h => ?_, hInv.token_mem, fun addr route hRoute session h => ?_⟩
  · simp only [AssocMap.get_insert] at h
    split_ifs at h with hOther
    · exact hOther ▸ hInv.session_mem token s hGet
    · exact hInv.session_mem other session h
  · simp only [AssocMap.get_insert] at h
    split_ifs at h with hToken
    · cases h
      obtain ⟨hSessionId, hBound⟩ := hInv.bound addr route hRoute s (hToken ▸ hGet)
      obtain ⟨host, client, hHost, hClient⟩ := hBound.bound
      rw [hKeep host client hHost hClient]
      exact ⟨hSessionId, hBound⟩
    · exact hInv.bound addr route hRoute session h

/-- The two routes `handle_lease_present` writes agree with their session. -/
theorem RoutesSound.withRoutes (hInv : RoutesSound g opened) {token : List UInt8}
    {s : RelaySession Addr} (hGet : g.sessions.get token = some s) (now : Nat) :
    RoutesSound { g with routes := routeBoth g.routes token s now } opened := by
  have hToken := hInv.session_mem token s hGet
  unfold routeBoth
  split
  · next host client hHost hClient =>
      refine ⟨hInv.session_mem, fun addr route h => ?_, fun addr route h session hSession => ?_⟩
      · simp only [AssocMap.get_insert] at h
        split_ifs at h
        · cases h
          exact hToken
        · cases h
          exact hToken
        · exact hInv.token_mem addr route h
      · simp only [AssocMap.get_insert] at h
        split_ifs at h with hAtClient hAtHost
        · cases h
          rw [hGet, Option.some.injEq] at hSession
          subst hSession hAtClient
          exact ⟨rfl, hClient, hHost⟩
        · cases h
          rw [hGet, Option.some.injEq] at hSession
          subst hSession hAtHost
          exact ⟨rfl, hHost, hClient⟩
        · exact hInv.bound addr route h session hSession
  · exact hInv

/-- Signalling opens a session under a token never used before. -/
theorem RoutesSound.openSession (hInv : RoutesSound g opened) {token : List UInt8}
    (hFresh : token ∉ opened) (session : RelaySession Addr) :
    RoutesSound { g with sessions := g.sessions.insert token session } (opened ++ [token]) := by
  refine ⟨fun other entry h => ?_, fun addr route h => List.mem_append_left _ (hInv.token_mem addr route h),
    fun addr route h entry hEntry => ?_⟩
  · simp only [AssocMap.get_insert] at h
    split_ifs at h with hOther
    · simp [hOther]
    · exact List.mem_append_left _ (hInv.session_mem other entry h)
  · have hOld : route.token ≠ token := fun hEq => hFresh (hEq ▸ hInv.token_mem addr route h)
    simp only [AssocMap.get_insert, if_neg hOld] at hEntry
    exact hInv.bound addr route h entry hEntry

/-- `handle_lease_present` keeps routes sound, on every path. -/
theorem RoutesSound.handleLeasePresent (hInv : RoutesSound g opened) (src : Addr)
    (header : RelayHeader) (payload : List UInt8) (now : Nat) :
    RoutesSound (g.handleLeasePresent src header payload now).1 opened := by
  unfold RelayLoop.handleLeasePresent
  dsimp only
  split
  · exact hInv
  · next lease _ =>
      split_ifs
      · exact hInv
      · split
        · exact hInv
        · next session hGet =>
            rcases hBind : bindRoles lease.peerRole session src with ⟨bound, hostBound, clientBound⟩
            have hBound : RoutesSound { g with sessions := g.sessions.insert lease.leaseToken bound }
                opened :=
              hInv.bindSession hGet fun _ _ hHost hClient => by
                rw [← bindRoles_of_bound lease.peerRole src hHost hClient, hBind]
            dsimp only
            split_ifs
            · exact hInv
            · exact hBound
            · exact hBound.withRoutes (by simp) now

/-- An admitted datagram only refreshes the tables, and is sent, unchanged, to
its route's destination. -/
theorem sendAdmitted_spec {src : Addr} {route : RouteEntry Addr} {session : RelaySession Addr}
    (hRoute : g.routes.get src = some route) (hSession : g.sessions.get route.token = some session)
    (packet : List UInt8) (now : Nat) :
    Refreshes (g.sendAdmitted src route session packet now).1 g ∧
      ∀ dst sent, Sent.forward dst sent ∈ (g.sendAdmitted src route session packet now).2 →
        sent = packet ∧ dst = route.dest := by
  unfold RelayLoop.sendAdmitted
  generalize hTicked : (if now - session.lastTick ≥ 1000 then
    { session with bytesSent := 0, lastTick := now } else session) = ticked
  have hBinding : session.binding = ticked.binding := by
    rw [← hTicked]
    split_ifs <;> rfl
  have hTick : Refreshes { g with sessions := g.sessions.insert route.token ticked } g :=
    Refreshes.updateSession hSession hBinding
  dsimp only
  split_ifs
  · exact ⟨hTick, by simp⟩
  · split
    · exact ⟨hTick, by simp⟩
    · rcases hCheck : (ticked.seqFor route.side).checkAndUpdate _ with ⟨accepted, window⟩
      dsimp only
      split_ifs
      · exact ⟨hTick, by simp⟩
      · have hRouted := Refreshes.refreshRoute
          (g := { g with sessions := g.sessions.insert route.token ticked }) hRoute now
        have hSent := Refreshes.updateSession
          (g := { g with
            sessions := g.sessions.insert route.token ticked
            routes := g.routes.insert src { route with lastSeen := now } })
          (show (g.sessions.insert route.token ticked).get route.token = some ticked by simp)
          (show ticked.binding = { ticked.setSeq route.side window with
            bytesSent := ticked.bytesSent + packet.length }.binding from
            (binding_setSeq ticked route.side window).symm)
        exact ⟨(hSent.trans hRouted).trans hTick, by simp⟩

/-- Everything `handle_forward` sends goes to its source's route destination,
over a route and a session that carry the datagram's session id. -/
theorem handleForward_spec (src : Addr) (header : RelayHeader) (packet : List UInt8) (now : Nat) :
    Refreshes (g.handleForward src header packet now).1 g ∧
      ∀ dst sent, Sent.forward dst sent ∈ (g.handleForward src header packet now).2 →
        sent = packet ∧ ∃ route session, g.routes.get src = some route ∧
          g.sessions.get route.token = some session ∧ session.sessionId = header.sessionId ∧
          dst = route.dest := by
  unfold RelayLoop.handleForward
  split
  · exact ⟨.of_tables rfl rfl, by simp⟩
  · next route hRoute =>
      dsimp only
      split_ifs
      · exact ⟨.eraseRoute src, by simp⟩
      · split
        · exact ⟨.eraseRoute src, by simp⟩
        · next session hSession =>
            split_ifs with hId
            · exact ⟨.eraseRoute src, by simp⟩
            · exact ⟨.eraseRoute src, by simp⟩
            · obtain ⟨hRefresh, hSent⟩ := sendAdmitted_spec hRoute hSession packet now
              refine ⟨hRefresh, fun dst sent h => ?_⟩
              obtain ⟨rfl, rfl⟩ := hSent dst sent h
              exact ⟨rfl, route, session, hRoute, hSession, not_not.mp hId, rfl⟩

/-- `handle_lease_present` answers the presenter with one reject, which
earns a strike, or one acknowledgement. -/
theorem handleLeasePresent_reply (src : Addr) (header : RelayHeader) (payload : List UInt8)
    (now : Nat) :
    (∃ reason, (g.handleLeasePresent src header payload now).2 =
        ([.leaseReject src header.sessionId reason], false)) ∨
      ∃ sessionId, (g.handleLeasePresent src header payload now).2 = ([.leaseAck src sessionId], true) := by
  unfold RelayLoop.handleLeasePresent
  dsimp only
  split
  · exact .inl ⟨_, rfl⟩
  · split_ifs
    · exact .inl ⟨_, rfl⟩
    · split
      · exact .inl ⟨_, rfl⟩
      · split_ifs
        · exact .inl ⟨_, rfl⟩
        · exact .inl ⟨_, rfl⟩
        · exact .inr ⟨_, rfl⟩

theorem Refreshes.maybeCleanup (now : Nat) : Refreshes (g.maybeCleanup now) g := by
  unfold RelayLoop.maybeCleanup
  split_ifs
  · refine ⟨fun addr route h => ⟨route, ?_, rfl⟩, fun _ session h => ⟨session, h, rfl⟩⟩
    simp only [AssocMap.get_retain] at h
    exact Option.eq_some_of_filter_eq_some h
  · exact .of_tables rfl rfl

variable [DecidableEq Ip] (ipOf : Addr → Ip)

/-- One datagram keeps routes sound, and whatever it makes the relay forward
is the datagram itself, a forward packet sent to its source's route
destination, over a route and a session carrying its session id. -/
theorem RoutesSound.onDatagram (hInv : RoutesSound g opened) (src : Addr) (bytes : List UInt8)
    (now : Nat) :
    RoutesSound (g.onDatagram ipOf src bytes now).1 opened ∧
      ∀ dst sent, Sent.forward dst sent ∈ (g.onDatagram ipOf src bytes now).2 →
        sent = bytes.take relayMaxPacketSize ∧
        ∃ header route session, RelayHeader.decode sent = .ok header ∧
          header.packetType = .forward ∧ g.routes.get src = some route ∧
          g.sessions.get route.token = some session ∧ session.sessionId = header.sessionId ∧
          dst = route.dest := by
  unfold RelayLoop.onDatagram
  dsimp only
  rcases g.banned.isBanned (ipOf src) now with ⟨isBanned, banned⟩
  rcases g.limiter.check (ipOf src) now with ⟨allowed, limiter⟩
  let g₁ : RelayLoop Addr Ip := { g with banned := banned, limiter := limiter }
  have hInv₁ : RoutesSound g₁ opened := hInv.of_tables rfl rfl
  dsimp only
  split_ifs
  · exact ⟨hInv.of_tables rfl rfl, by simp⟩
  · exact ⟨hInv₁, by simp⟩
  · exact ⟨hInv₁, by simp⟩
  · split
    · exact ⟨hInv₁, by simp⟩
    · next header hHeader =>
        split
        · next hType =>
            have hSound := hInv₁.handleLeasePresent src header
              (List.drop relayHeaderSize (List.take relayMaxPacketSize bytes)) now
            have hReply := handleLeasePresent_reply (g := g₁) src header
              (List.drop relayHeaderSize (List.take relayMaxPacketSize bytes)) now
            generalize g₁.handleLeasePresent src header
              (List.drop relayHeaderSize (List.take relayMaxPacketSize bytes)) now = presented
              at hSound hReply ⊢
            obtain ⟨g₂, sent, ok⟩ := presented
            have hStruck : RoutesSound (if ok then g₂ else { g₂ with banned := g₂.banned.addStrike (ipOf src) now })
                opened := by
              split_ifs
              · exact hSound
              · exact hSound.of_tables rfl rfl
            refine ⟨hStruck.of_refreshes (Refreshes.maybeCleanup now), ?_⟩
            rcases hReply with ⟨reason, hReply⟩ | ⟨sessionId, hReply⟩ <;>
              · cases hReply
                simp
        · next hType =>
            obtain ⟨hRefresh, hSent⟩ := handleForward_spec (g := g₁) src header
              (List.take relayMaxPacketSize bytes) now
            refine ⟨hInv₁.of_refreshes ((Refreshes.maybeCleanup now).trans hRefresh), ?_⟩
            intro dst sent h
            obtain ⟨rfl, route, session, hRoute, hSession, hId, rfl⟩ := hSent dst sent h
            exact ⟨rfl, header, route, session, hHeader, hType, hRoute, hSession, hId, rfl⟩
        · exact ⟨hInv₁.of_refreshes (Refreshes.maybeCleanup now), by simp⟩
        · exact ⟨hInv₁.of_refreshes (Refreshes.maybeCleanup now), by simp⟩

theorem RoutesSound.step (hInv : RoutesSound g opened) (event : Event Addr)
    (hFresh : ∀ token ∈ openedTokens [event], token ∉ opened) :
    RoutesSound (g.step ipOf event).1 (opened ++ openedTokens [event]) := by
  cases event with
  | datagram src bytes now =>
      simpa [openedTokens, RelayLoop.step] using (hInv.onDatagram ipOf src bytes now).1
  | openSession token sessionId now =>
      exact hInv.openSession (hFresh token (by simp [openedTokens])) _
  | closeSession token =>
      simpa [openedTokens, RelayLoop.step] using hInv.of_refreshes (.closeSession token)

/-- Routes stay sound over every run in which signalling never reuses a
token; the induction is on the run, one event at a time. -/
theorem RoutesSound.stateAfter (events : List (Event Addr)) :
    ∀ (g : RelayLoop Addr Ip) (opened : List (List UInt8)), RoutesSound g opened →
      (∀ token ∈ openedTokens events, token ∉ opened) → (openedTokens events).Nodup →
      RoutesSound (g.stateAfter ipOf events) (opened ++ openedTokens events) := by
  induction events with
  | nil => intro g opened hInv _ _; simpa [RelayLoop.stateAfter, openedTokens] using hInv
  | cons event events ih =>
      intro g opened hInv hFresh hNodup
      rw [openedTokens_cons] at hFresh hNodup ⊢
      obtain ⟨-, hRestNodup, hApart⟩ := List.nodup_append.mp hNodup
      have hStep := hInv.step ipOf event fun token h => hFresh token (List.mem_append_left _ h)
      have hRest := ih _ _ hStep
        (fun token h hOpened => by
          rcases List.mem_append.mp hOpened with hOld | hNow
          · exact hFresh token (List.mem_append_right _ h) hOld
          · exact hApart token hNow token h rfl)
        hRestNodup
      rw [← List.append_assoc]
      exact hRest

omit [DecidableEq Ip] in
theorem RoutesSound.init (maxPps : UInt64) (now : Nat) :
    RoutesSound (RelayLoop.init maxPps now : RelayLoop Addr Ip) [] :=
  ⟨by simp [RelayLoop.init], by simp [RelayLoop.init], by simp [RelayLoop.init]⟩

end Sound

/-- Over every run of the gateway relay in which signalling opens each
session under a new token, whatever datagrams arrive: a datagram forwarded
from `src` to `dst` is the datagram as read into the receive buffer, a
forward packet, and some live session with its
session id has `src` bound to one role and `dst` to the other. -/
theorem forward_within_session [DecidableEq Ip] (ipOf : Addr → Ip) (maxPps : UInt64)
    (start : Nat) (events : List (Event Addr)) (hFresh : (openedTokens events).Nodup)
    (src : Addr) (bytes : List UInt8) (now : Nat) (dst : Addr) (sent : List UInt8)
    (hSent : Sent.forward dst sent ∈
      (((RelayLoop.init maxPps start).stateAfter ipOf events).step ipOf (.datagram src bytes now)).2) :
    sent = bytes.take relayMaxPacketSize ∧
    ∃ header token session, RelayHeader.decode sent = .ok header ∧
      header.packetType = .forward ∧
      ((RelayLoop.init maxPps start).stateAfter ipOf events).sessions.get token = some session ∧
      session.sessionId = header.sessionId ∧
      ((session.hostAddr = some src ∧ session.clientAddr = some dst) ∨
        (session.clientAddr = some src ∧ session.hostAddr = some dst)) := by
  have hInv := RoutesSound.stateAfter ipOf events _ [] (RoutesSound.init maxPps start)
    (fun _ _ h => List.not_mem_nil h) hFresh
  obtain ⟨hTaken, header, route, session, hHeader, hType, hRoute, hSession, hId, rfl⟩ :=
    (hInv.onDatagram ipOf src bytes now).2 dst sent hSent
  obtain ⟨-, hBound⟩ := hInv.bound src route hRoute session hSession
  refine ⟨hTaken, header, route.token, session, hHeader, hType, hSession, hId, ?_⟩
  cases hSide : route.side with
  | host => exact .inl (by simpa [SideBound, hSide] using hBound)
  | client => exact .inr (by simpa [SideBound, hSide] using hBound)

end Invariant

end Wavry.Gateway
