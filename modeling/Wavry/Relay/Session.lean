import Wavry.Lib.AssocMap
import Wavry.RiftCore.Relay
import Wavry.RiftCrypto.SeqWindow

/-! Sessions of the standalone relay (`wavry-relay` `session.rs`). A session
has one slot per role; a lease registers its holder's Wavry id and address in
the slot of its role, the first lease of a role locks that role's id, and a
later lease with the same id moves the slot to a new address (NAT
rebinding). A datagram is identified by its source address against the two
slots. Sessions live in a pool keyed by session id. Time is an input, in
milliseconds; f32 rates are exact rationals here. -/
namespace Wavry.Relay

open Wavry.RiftCore Wavry.RiftCrypto

inductive SessionState where
  | init
  | waitingPeer
  | active
  | renewed
  | expired
  | rejected
  deriving DecidableEq, Repr

/-- The `SessionError`s the modelled functions return. -/
inductive SessionError where
  | peerAlreadyRegistered
  | leaseExpired
  | sessionFull
  | invalidLease
  deriving DecidableEq, Repr

section Session

variable {Addr : Type}

structure PeerState (Addr : Type) where
  wavryId : String
  socketAddr : Addr
  lastSeen : Nat
  seqWindow : SequenceWindow

def PeerState.new (wavryId : String) (socketAddr : Addr) (now : Nat) : PeerState Addr :=
  ⟨wavryId, socketAddr, now, SequenceWindow.new⟩

structure RelaySession (Addr : Type) where
  sessionId : BitVec 128
  state : SessionState
  client : Option (PeerState Addr)
  server : Option (PeerState Addr)
  clientId : Option String
  serverId : Option String
  leaseExpires : Nat
  lastActivity : Nat
  packetsForwarded : UInt64
  bytesForwarded : UInt64
  softLimitKbps : UInt32
  hardLimitKbps : UInt32
  lastStatsReset : Nat
  bytesSentWindow : UInt64
  currentBps : ℚ

namespace RelaySession

def new (sessionId : BitVec 128) (leaseDuration now : Nat) : RelaySession Addr :=
  ⟨sessionId, .init, none, none, none, none, now + leaseDuration, now, 0, 0, 50000, 100000, now,
    0, 0⟩

/-- The slot of a role: `&mut self.client` or `&mut self.server`. -/
def slot (s : RelaySession Addr) : PeerRole → Option (PeerState Addr)
  | .client => s.client
  | .server => s.server

def setSlot (s : RelaySession Addr) : PeerRole → Option (PeerState Addr) → RelaySession Addr
  | .client, peer => { s with client := peer }
  | .server, peer => { s with server := peer }

/-- The id locked for a role. -/
def lockedId (s : RelaySession Addr) : PeerRole → Option String
  | .client => s.clientId
  | .server => s.serverId

def setLockedId (s : RelaySession Addr) : PeerRole → Option String → RelaySession Addr
  | .client, id => { s with clientId := id }
  | .server, id => { s with serverId := id }

/-- The state the slots put the session in. -/
def stateOfSlots (s : RelaySession Addr) : SessionState :=
  match s.client, s.server with
  | some _, some _ => .active
  | some _, none | none, some _ => .waitingPeer
  | none, none => .init

/-- The slot half of `register_peer`: a new peer, or the same id moving to a
new address. -/
def registerSlot (s : RelaySession Addr) (role : PeerRole) (wavryId : String) (socketAddr : Addr)
    (now : Nat) : RelaySession Addr × Option SessionError :=
  match s.slot role with
  | some existing =>
      if existing.wavryId ≠ wavryId then (s, some .peerAlreadyRegistered)
      else
        let s := s.setSlot role (some { existing with socketAddr := socketAddr, lastSeen := now })
        ({ s with state := s.stateOfSlots, lastActivity := now }, none)
  | none =>
      let s := s.setSlot role (some (PeerState.new wavryId socketAddr now))
      ({ s with state := s.stateOfSlots, lastActivity := now }, none)

/-- `register_peer`. The session comes back changed also on an error: the
role's id is locked before the slot is checked. -/
def registerPeer (s : RelaySession Addr) (role : PeerRole) (wavryId : String) (socketAddr : Addr)
    (now : Nat) : RelaySession Addr × Option SessionError :=
  match s.lockedId role with
  | some locked =>
      if locked ≠ wavryId then (s, some .invalidLease) else s.registerSlot role wavryId socketAddr now
  | none => (s.setLockedId role (some wavryId)).registerSlot role wavryId socketAddr now

def isActive (s : RelaySession Addr) (now : Nat) : Bool :=
  (s.state == .active || s.state == .renewed) && now < s.leaseExpires

def isExpired (s : RelaySession Addr) (now : Nat) : Bool :=
  s.state == .expired || s.state == .rejected || s.leaseExpires ≤ now

variable [DecidableEq Addr]

/-- `identify_peer`: with both slots filled, the role whose address is the
source, that peer, and the other peer. The client slot is tried first. -/
def identifyPeer (s : RelaySession Addr) (src : Addr) :
    Option (PeerRole × PeerState Addr × PeerState Addr) :=
  match s.client, s.server with
  | some client, some server =>
      if client.socketAddr = src then some (.client, client, server)
      else if server.socketAddr = src then some (.server, server, client)
      else none
  | _, _ => none

/-- `renew_lease`; an expired session is marked so before the error. -/
def renewLease (s : RelaySession Addr) (newDuration now : Nat) :
    RelaySession Addr × Option SessionError :=
  if s.isExpired now then ({ s with state := .expired }, some .leaseExpired)
  else
    ({ s with
        leaseExpires := now + newDuration
        state := if s.client.isSome && s.server.isSome then .renewed else .waitingPeer
        lastActivity := now }, none)

/-- `record_forward`. -/
def recordForward (s : RelaySession Addr) (bytes now : Nat) : RelaySession Addr :=
  { s with
    packetsForwarded := s.packetsForwarded + 1
    bytesForwarded := s.bytesForwarded + UInt64.ofNat bytes
    lastActivity := now }

/-- `update_peer_address`: the role's peer, if there is one, moves to the new
address. -/
def updatePeerAddress (s : RelaySession Addr) (role : PeerRole) (newAddr : Addr) (now : Nat) :
    RelaySession Addr :=
  let s := match s.slot role with
    | some peer => s.setSlot role (some { peer with socketAddr := newAddr, lastSeen := now })
    | none => s
  { s with lastActivity := now }

def expire (s : RelaySession Addr) : RelaySession Addr := { s with state := .expired }

end RelaySession

/-- `SessionPool`. -/
structure SessionPool (Addr : Type) where
  sessions : AssocMap (BitVec 128) (RelaySession Addr)
  maxSessions : Nat
  idleTimeout : Nat

namespace SessionPool

def new (maxSessions idleTimeout : Nat) : SessionPool Addr := ⟨AssocMap.empty, maxSessions, idleTimeout⟩

/-- `get_or_create`: the pool with the session in it, and the session. -/
def getOrCreate (pool : SessionPool Addr) (sessionId : BitVec 128) (leaseDuration now : Nat) :
    Except SessionError (SessionPool Addr × RelaySession Addr) :=
  match pool.sessions.get sessionId with
  | some session => .ok (pool, session)
  | none =>
      if pool.sessions.size ≥ pool.maxSessions then .error .sessionFull
      else
        let session := RelaySession.new sessionId leaseDuration now
        .ok ({ pool with sessions := pool.sessions.insert sessionId session }, session)

/-- Writing back a session changed through its lock. -/
def put (pool : SessionPool Addr) (sessionId : BitVec 128) (session : RelaySession Addr) :
    SessionPool Addr :=
  { pool with sessions := pool.sessions.insert sessionId session }

/-- `cleanup`: drop expired sessions and those idle for longer than the
timeout. -/
def cleanup (pool : SessionPool Addr) (now : Nat) : SessionPool Addr :=
  { pool with
    sessions := pool.sessions.retain fun _ session =>
      !(session.isExpired now || now - session.lastActivity > pool.idleTimeout) }

end SessionPool

/-! ## Whole runs of one session -/

/-- The calls that change a session. -/
inductive SessionEvent (Addr : Type) where
  | registerPeer (role : PeerRole) (wavryId : String) (socketAddr : Addr)
  | renewLease (newDuration : Nat)
  | updatePeerAddress (role : PeerRole) (newAddr : Addr)
  | recordForward (bytes : Nat)
  | expire

namespace RelaySession

/-- One call at time `now`. A call that returns an error still leaves the
session it changed. -/
def apply (s : RelaySession Addr) (now : Nat) : SessionEvent Addr → RelaySession Addr
  | .registerPeer role wavryId socketAddr => (s.registerPeer role wavryId socketAddr now).1
  | .renewLease newDuration => (s.renewLease newDuration now).1
  | .updatePeerAddress role newAddr => s.updatePeerAddress role newAddr now
  | .recordForward bytes => s.recordForward bytes now
  | .expire => s.expire

/-- The calls in order, each at its own time. -/
def run (s : RelaySession Addr) : List (SessionEvent Addr × Nat) → RelaySession Addr
  | [] => s
  | (e, now) :: rest => (s.apply now e).run rest

theorem run_append (s : RelaySession Addr) (first second : List (SessionEvent Addr × Nat)) :
    s.run (first ++ second) = (s.run first).run second := by
  induction first generalizing s with
  | nil => rfl
  | cons call rest ih => exact ih _

section Slots

variable (s : RelaySession Addr) (role other : PeerRole)

@[simp] theorem slot_setSlot_self (peer : Option (PeerState Addr)) :
    (s.setSlot role peer).slot role = peer := by
  cases role <;> rfl

theorem slot_setSlot_of_ne (peer : Option (PeerState Addr)) (h : other ≠ role) :
    (s.setSlot role peer).slot other = s.slot other := by
  cases role <;> cases other <;> first | rfl | exact absurd rfl h

@[simp] theorem lockedId_setSlot (peer : Option (PeerState Addr)) :
    (s.setSlot role peer).lockedId other = s.lockedId other := by
  cases role <;> cases other <;> rfl

@[simp] theorem state_setSlot (peer : Option (PeerState Addr)) :
    (s.setSlot role peer).state = s.state := by
  cases role <;> rfl

@[simp] theorem slot_setLockedId (id : Option String) :
    (s.setLockedId role id).slot other = s.slot other := by
  cases role <;> cases other <;> rfl

@[simp] theorem lockedId_setLockedId_self (id : Option String) :
    (s.setLockedId role id).lockedId role = id := by
  cases role <;> rfl

theorem lockedId_setLockedId_of_ne (id : Option String) (h : other ≠ role) :
    (s.setLockedId role id).lockedId other = s.lockedId other := by
  cases role <;> cases other <;> first | rfl | exact absurd rfl h

@[simp] theorem state_setLockedId (id : Option String) :
    (s.setLockedId role id).state = s.state := by
  cases role <;> rfl

/-- A change of the state or the clocks leaves the slots and the locks. -/
@[simp] theorem slot_withState (state : SessionState) (leaseExpires lastActivity : Nat) :
    ({ s with state, leaseExpires, lastActivity } : RelaySession Addr).slot role = s.slot role := by
  cases role <;> rfl

@[simp] theorem lockedId_withState (state : SessionState) (leaseExpires lastActivity : Nat) :
    ({ s with state, leaseExpires, lastActivity } : RelaySession Addr).lockedId role =
      s.lockedId role := by
  cases role <;> rfl

/-- The slots decide the state `register_peer` sets: a forwarding state only
with both slots filled. -/
theorem isSome_slot_of_stateOfSlots (h : s.stateOfSlots = .active ∨ s.stateOfSlots = .renewed) :
    (s.slot role).isSome := by
  unfold stateOfSlots at h
  cases hClient : s.client <;> cases hServer : s.server <;> cases role <;>
    simp_all [slot]

end Slots

/-- What every session reached from `new` satisfies: a filled slot holds the
peer whose id its role has locked, and a forwarding state has both slots
filled. -/
structure Inv (s : RelaySession Addr) : Prop where
  locked : ∀ role peer, s.slot role = some peer → s.lockedId role = some peer.wavryId
  filled : s.state = .active ∨ s.state = .renewed → ∀ role, (s.slot role).isSome

theorem inv_new (sessionId : BitVec 128) (leaseDuration now : Nat) :
    (RelaySession.new sessionId leaseDuration now : RelaySession Addr).Inv := by
  refine ⟨fun role peer h => ?_, fun h => ?_⟩
  · cases role <;> cases h
  · rcases h with h | h <;> cases h

/-- A filled slot whose peer carries the role's locked id, with the state
recomputed from the slots, keeps the invariant. -/
theorem Inv.fill {s : RelaySession Addr} (h : s.Inv) {role : PeerRole} {peer : PeerState Addr}
    (hLock : s.lockedId role = some peer.wavryId) (now : Nat) :
    (let t := s.setSlot role (some peer)
     ({ t with state := t.stateOfSlots, lastActivity := now } : RelaySession Addr)).Inv := by
  refine ⟨fun other p hp => ?_, fun hState other => ?_⟩
  · by_cases hOther : other = role
    · subst hOther
      simp only [slot_withState, slot_setSlot_self, Option.some.injEq] at hp
      subst hp
      simpa using hLock
    · simp only [slot_withState, slot_setSlot_of_ne _ _ _ _ hOther] at hp
      simpa using h.locked other p hp
  · simpa using isSome_slot_of_stateOfSlots _ other hState

/-- The slot half of `register_peer`: a different id already in the slot is
refused with the session left as it was, and otherwise the slot holds a peer
with the id. -/
theorem registerSlot_cases (s : RelaySession Addr) (role : PeerRole) (wavryId : String)
    (socketAddr : Addr) (now : Nat) :
    (∃ existing : PeerState Addr, s.slot role = some existing ∧ existing.wavryId ≠ wavryId ∧
        s.registerSlot role wavryId socketAddr now = (s, some .peerAlreadyRegistered)) ∨
      ∃ peer : PeerState Addr, peer.wavryId = wavryId ∧
        s.registerSlot role wavryId socketAddr now =
          (let t := s.setSlot role (some peer)
           ({ t with state := t.stateOfSlots, lastActivity := now }, none)) := by
  unfold registerSlot
  cases hSlot : s.slot role with
  | some existing =>
      by_cases hSame : existing.wavryId = wavryId
      · exact .inr ⟨{ existing with socketAddr := socketAddr, lastSeen := now }, hSame,
          by simp [hSame]⟩
      · exact .inl ⟨existing, rfl, hSame, by simp [hSame]⟩
  | none => exact .inr ⟨PeerState.new wavryId socketAddr now, rfl, rfl⟩

theorem Inv.registerSlot {s : RelaySession Addr} (h : s.Inv) {role : PeerRole}
    {wavryId : String} (hLock : s.lockedId role = some wavryId) (socketAddr : Addr) (now : Nat) :
    (s.registerSlot role wavryId socketAddr now).1.Inv := by
  rcases s.registerSlot_cases role wavryId socketAddr now with ⟨-, -, -, hRefused⟩ | ⟨peer, hId, hFilled⟩
  · rw [hRefused]
    exact h
  · rw [hFilled]
    exact h.fill (hId ▸ hLock) now

/-- Locking an id for a role whose slot is empty keeps the invariant. -/
theorem Inv.setLockedId {s : RelaySession Addr} (h : s.Inv) {role : PeerRole}
    (hEmpty : s.slot role = none) (wavryId : String) : (s.setLockedId role (some wavryId)).Inv := by
  refine ⟨fun other p hp => ?_, fun hState other => ?_⟩
  · rw [slot_setLockedId] at hp
    have hOther : other ≠ role := by
      rintro rfl
      rw [hEmpty] at hp
      cases hp
    rw [lockedId_setLockedId_of_ne _ _ _ _ hOther]
    exact h.locked other p hp
  · rw [slot_setLockedId]
    exact h.filled (by simpa using hState) other

/-- The invariant makes a role with no locked id a role with an empty slot. -/
theorem Inv.slot_eq_none {s : RelaySession Addr} (h : s.Inv) {role : PeerRole}
    (hUnlocked : s.lockedId role = none) : s.slot role = none := by
  cases hSlot : s.slot role with
  | none => rfl
  | some peer =>
      have := h.locked role peer hSlot
      rw [hUnlocked] at this
      cases this

theorem Inv.registerPeer {s : RelaySession Addr} (h : s.Inv) (role : PeerRole) (wavryId : String)
    (socketAddr : Addr) (now : Nat) : (s.registerPeer role wavryId socketAddr now).1.Inv := by
  unfold RelaySession.registerPeer
  cases hLock : s.lockedId role with
  | some locked =>
      by_cases hSame : locked = wavryId
      · subst hSame
        simpa using h.registerSlot hLock socketAddr now
      · simpa [hSame] using h
  | none =>
      exact (h.setLockedId (h.slot_eq_none hLock) wavryId).registerSlot (by simp) socketAddr now

/-- A call that keeps the ids in the slots and the locks, and enters a
forwarding state only from one, keeps the invariant. -/
theorem Inv.of_frame {s s' : RelaySession Addr} (h : s.Inv)
    (hSlot : ∀ role, (s'.slot role).map PeerState.wavryId = (s.slot role).map PeerState.wavryId)
    (hLock : ∀ role, s'.lockedId role = s.lockedId role)
    (hState : s'.state = .active ∨ s'.state = .renewed → s.state = .active ∨ s.state = .renewed) :
    s'.Inv := by
  refine ⟨fun role peer hp => ?_, fun hForward role => ?_⟩
  · have hMap := hSlot role
    rw [hp, Option.map_some] at hMap
    obtain ⟨q, hq, hId⟩ := Option.map_eq_some_iff.mp hMap.symm
    rw [hLock, h.locked role q hq, hId]
  · have hSome := congrArg Option.isSome (hSlot role)
    simp only [Option.isSome_map] at hSome
    rw [hSome]
    exact h.filled (hState hForward) role

theorem Inv.renewLease {s : RelaySession Addr} (h : s.Inv) (newDuration now : Nat) :
    (s.renewLease newDuration now).1.Inv := by
  by_cases hExpired : s.isExpired now = true
  · rw [RelaySession.renewLease, if_pos hExpired]
    exact h.of_frame (fun role => by simp) (fun role => by simp) (by simp)
  · rw [RelaySession.renewLease, if_neg hExpired]
    refine ⟨fun role peer hp => h.locked role peer (by simpa using hp), fun hState role => ?_⟩
    simp only at hState
    split at hState
    · next hBoth =>
        rw [Bool.and_eq_true] at hBoth
        cases role <;> simp [slot, hBoth]
    · simp at hState

theorem Inv.updatePeerAddress {s : RelaySession Addr} (h : s.Inv) (role : PeerRole)
    (newAddr : Addr) (now : Nat) : (s.updatePeerAddress role newAddr now).Inv := by
  unfold RelaySession.updatePeerAddress
  cases hSlot : s.slot role with
  | none => exact h.of_frame (fun other => by simp) (fun other => by simp) (by simp)
  | some peer =>
      refine h.of_frame (fun other => ?_) (fun other => by simp) (by simp)
      by_cases hOther : other = role
      · subst hOther
        simp [hSlot]
      · simp [slot_setSlot_of_ne _ _ _ _ hOther]

theorem Inv.recordForward {s : RelaySession Addr} (h : s.Inv) (bytes now : Nat) :
    (s.recordForward bytes now).Inv :=
  h.of_frame (fun role => by cases role <;> rfl) (fun role => by cases role <;> rfl) id

theorem Inv.expire {s : RelaySession Addr} (h : s.Inv) : s.expire.Inv :=
  h.of_frame (fun role => by cases role <;> rfl) (fun role => by cases role <;> rfl)
    (by simp [RelaySession.expire])

theorem Inv.apply {s : RelaySession Addr} (h : s.Inv) (now : Nat) (e : SessionEvent Addr) :
    (s.apply now e).Inv := by
  cases e with
  | registerPeer role wavryId socketAddr => exact h.registerPeer role wavryId socketAddr now
  | renewLease newDuration => exact h.renewLease newDuration now
  | updatePeerAddress role newAddr => exact h.updatePeerAddress role newAddr now
  | recordForward bytes => exact h.recordForward bytes now
  | expire => exact h.expire

theorem Inv.run {s : RelaySession Addr} (h : s.Inv) (events : List (SessionEvent Addr × Nat)) :
    (s.run events).Inv := by
  induction events generalizing s with
  | nil => exact h
  | cons call rest ih => exact ih (h.apply call.2 call.1)

/-! ### Locked ids stay locked -/

theorem lockedId_registerSlot (s : RelaySession Addr) (role other : PeerRole) (wavryId : String)
    (socketAddr : Addr) (now : Nat) :
    (s.registerSlot role wavryId socketAddr now).1.lockedId other = s.lockedId other := by
  rcases s.registerSlot_cases role wavryId socketAddr now with ⟨-, -, -, hRefused⟩ | ⟨peer, -, hFilled⟩
  · rw [hRefused]
  · rw [hFilled]
    simp

/-- `register_peer` locks an id only for a role that had none. -/
theorem lockedId_registerPeer {s : RelaySession Addr} {other : PeerRole} {id : String}
    (hLocked : s.lockedId other = some id) (role : PeerRole) (wavryId : String) (socketAddr : Addr)
    (now : Nat) : (s.registerPeer role wavryId socketAddr now).1.lockedId other = some id := by
  unfold RelaySession.registerPeer
  cases hLock : s.lockedId role with
  | some locked =>
      by_cases hSame : locked = wavryId
      · simp [hSame, lockedId_registerSlot, hLocked]
      · simp [hSame, hLocked]
  | none =>
      have hOther : other ≠ role := by
        rintro rfl
        rw [hLocked] at hLock
        cases hLock
      rw [lockedId_registerSlot, lockedId_setLockedId_of_ne _ _ _ _ hOther, hLocked]

theorem lockedId_apply {s : RelaySession Addr} {role : PeerRole} {id : String}
    (hLocked : s.lockedId role = some id) (now : Nat) (e : SessionEvent Addr) :
    (s.apply now e).lockedId role = some id := by
  cases e with
  | registerPeer other wavryId socketAddr => exact lockedId_registerPeer hLocked other wavryId socketAddr now
  | renewLease newDuration =>
      show (s.renewLease newDuration now).1.lockedId role = some id
      unfold RelaySession.renewLease
      split_ifs <;> simpa using hLocked
  | updatePeerAddress other newAddr =>
      show (s.updatePeerAddress other newAddr now).lockedId role = some id
      unfold RelaySession.updatePeerAddress
      split <;> simpa using hLocked
  | recordForward bytes => cases role <;> exact hLocked
  | expire => cases role <;> exact hLocked

theorem lockedId_run {s : RelaySession Addr} {role : PeerRole} {id : String}
    (hLocked : s.lockedId role = some id) (events : List (SessionEvent Addr × Nat)) :
    (s.run events).lockedId role = some id := by
  induction events generalizing s with
  | nil => exact hLocked
  | cons call rest ih => exact ih (lockedId_apply hLocked call.2 call.1)

/-! ### A refused registration changes nothing -/

theorem registerSlot_of_error {s s' : RelaySession Addr} {role : PeerRole} {wavryId : String}
    {socketAddr : Addr} {now : Nat} {e : SessionError}
    (hErr : s.registerSlot role wavryId socketAddr now = (s', some e)) :
    s' = s ∧ (s.slot role).isSome := by
  rcases s.registerSlot_cases role wavryId socketAddr now with
    ⟨existing, hSlot, -, hRefused⟩ | ⟨peer, -, hFilled⟩
  · rw [hRefused, Prod.mk.injEq] at hErr
    exact ⟨hErr.1.symm, by simp [hSlot]⟩
  · rw [hFilled] at hErr
    cases hErr

/-- The id is locked before the slot is checked, but on a session with the
invariant a role with no locked id has an empty slot, which is never refused:
an error always comes back with the session as it was. -/
theorem Inv.registerPeer_of_error {s s' : RelaySession Addr} (h : s.Inv) {role : PeerRole}
    {wavryId : String} {socketAddr : Addr} {now : Nat} {e : SessionError}
    (hErr : s.registerPeer role wavryId socketAddr now = (s', some e)) : s' = s := by
  unfold RelaySession.registerPeer at hErr
  cases hLock : s.lockedId role with
  | some locked =>
      rw [hLock] at hErr
      dsimp only at hErr
      by_cases hSame : locked = wavryId
      · rw [if_neg (not_not.mpr hSame)] at hErr
        exact (registerSlot_of_error hErr).1
      · rw [if_pos hSame, Prod.mk.injEq] at hErr
        exact hErr.1.symm
  | none =>
      rw [hLock] at hErr
      dsimp only at hErr
      have hFilled := (registerSlot_of_error hErr).2
      rw [slot_setLockedId, h.slot_eq_none hLock] at hFilled
      cases hFilled

/-- Every session reached from `new` by any calls at any times: a filled slot
holds the id its role has locked, a locked id stays locked through any later
calls, a forwarding state (so `is_active`) has both peers registered, and a
refused `register_peer` leaves the session as it was. -/
theorem relaySession_invariants (sessionId : BitVec 128) (leaseDuration start : Nat)
    (events : List (SessionEvent Addr × Nat)) :
    let s := (RelaySession.new sessionId leaseDuration start : RelaySession Addr).run events
    (∀ role peer, s.slot role = some peer → s.lockedId role = some peer.wavryId) ∧
      (∀ role id later, s.lockedId role = some id → (s.run later).lockedId role = some id) ∧
      (s.state = .active ∨ s.state = .renewed → s.client.isSome ∧ s.server.isSome) ∧
      (∀ now, s.isActive now = true → s.client.isSome ∧ s.server.isSome) ∧
      (∀ role wavryId socketAddr now s' e,
        s.registerPeer role wavryId socketAddr now = (s', some e) → s' = s) := by
  intro s
  have h : s.Inv := (inv_new sessionId leaseDuration start).run events
  have hBoth : s.state = .active ∨ s.state = .renewed → s.client.isSome ∧ s.server.isSome :=
    fun hState => ⟨h.filled hState .client, h.filled hState .server⟩
  refine ⟨h.locked, fun role id later hLocked => lockedId_run hLocked later, hBoth,
    fun now hActive => hBoth ?_, fun role wavryId socketAddr now s' e hErr => h.registerPeer_of_error hErr⟩
  simp only [isActive, Bool.and_eq_true, Bool.or_eq_true, beq_iff_eq] at hActive
  exact hActive.1

end RelaySession

end Session

end Wavry.Relay
