import Mathlib
import Wavry.Lib.AssocMap
import Wavry.Lib.ExtFloat
import Wavry.Lib.Positions
import Wavry.Lib.Text
import Wavry.Master.Selection

/-! The master's relay registry (`wavry-master` `main.rs`). A relay registers
with its endpoints after a check that fewer than five registered relays have
an endpoint starting with the host of its first endpoint, and registering
stores a fresh entry in state `New` over whatever entry the id had.
Heartbeats record the load and set the state from it, except for `Draining`
and `Banned`; the sweep task quarantines relays silent for over two minutes,
again except those two, and purges relays silent for over ten; the admin
endpoint sets any state. `REQUEST_RELAY` offers the relays outside
`Draining`, `Quarantined` and `Banned` to `filter_by_geography` and
`select_relay`, and sends both peers `RELAY_CREDENTIALS` naming the choice.

So the two held states survive everything but the admin endpoint and a new
registration of the same id, which puts the relay back in rotation. The
registration check runs under the read lock and the insert under the write
lock taken after it: the last part of this module runs registrations as two
steps each, interleaved, and the Sybil bound does not survive that. -/
namespace Wavry.Master

open ExtFloat Text

structure RelayRegistration where
  endpoints : List (List Char)
  loadPct : ExtFloat
  /-- The second of the master's clock of the last registration or heartbeat. -/
  lastSeen : Nat
  region : Option (List Char)
  asn : Option Nat
  maxBitrateKbps : Nat
  state : RelayState

/-- `RelayMap`: the registrations by relay id. -/
abbrev RelayMap := AssocMap String RelayRegistration

/-- A handler's answer: the status code and the body's text, empty where the
source sends none. -/
structure Reply where
  status : Nat
  message : String
  deriving DecidableEq, Repr

namespace RelayState

/-- `matches!(state, Draining | Banned)`: the states heartbeats and the sweep
leave as they are. -/
def isHeld : RelayState → Bool
  | .draining | .banned => true
  | _ => false

theorem isExcluded_of_isHeld {s : RelayState} (h : s.isHeld = true) : s.isExcluded = true := by
  cases s <;> simp_all [isHeld, isExcluded]

end RelayState

/-! ## Handlers -/

structure RelayRegisterRequest where
  relayId : String
  endpoints : List (List Char)
  region : Option (List Char)
  asn : Option Nat
  maxBitrateKbps : Option Nat

/-- `e.split(':').next()`: the text before the first `:`. -/
def endpointHost (endpoint : List Char) : List Char := endpoint.takeWhile (· != ':')

/-- The Sybil check's count: the relays with an endpoint that starts with `ip`. -/
def sybilCount (relays : RelayMap) (ip : List Char) : Nat :=
  relays.entries.countP fun entry => entry.2.endpoints.any fun e => ip.isPrefixOf e

/-- The checks `handle_relay_register` makes before it takes the write lock,
with the bitrate it then stores. -/
def checkRegistration (relays : RelayMap) (authorized : Bool) (req : RelayRegisterRequest) :
    Except Reply Nat :=
  if !authorized then .error ⟨401, ""⟩
  else if (trim req.relayId.toList).isEmpty || req.endpoints.isEmpty then .error ⟨400, ""⟩
  else
    let maxBitrate := req.maxBitrateKbps.getD 10000
    if maxBitrate < 10000 then .error ⟨400, "Relay must support at least 10Mbps bandwidth"⟩
    else
      match req.endpoints.head? with
      | some e => if 5 ≤ sybilCount relays (endpointHost e) then .error ⟨403, ""⟩ else .ok maxBitrate
      | none => .ok maxBitrate

/-- The insert under the write lock: a fresh entry, whatever the id had. -/
def insertRegistration (relays : RelayMap) (req : RelayRegisterRequest) (maxBitrate now : Nat) :
    RelayMap :=
  relays.insert req.relayId ⟨req.endpoints, finite 0, now, req.region, req.asn, maxBitrate, .new⟩

/-- `handle_relay_register` with no other request in between its two locks.
The answer's body (heartbeat interval and master key) is not modelled. -/
def handleRelayRegister (relays : RelayMap) (authorized : Bool) (req : RelayRegisterRequest)
    (now : Nat) : RelayMap × Reply :=
  match checkRegistration relays authorized req with
  | .error reply => (relays, reply)
  | .ok maxBitrate => (insertRegistration relays req maxBitrate now, ⟨200, ""⟩)

structure RelayHeartbeatRequest where
  relayId : String
  loadPct : ExtFloat

/-- The state a heartbeat's load stands for. -/
def loadState (load : ExtFloat) : RelayState :=
  if finite 95 ≤ load then .degraded else if finite 85 ≤ load then .probation else .active

/-- The write a heartbeat makes through `get_mut`. -/
def recordHeartbeat (req : RelayHeartbeatRequest) (now : Nat) (entry : RelayRegistration) :
    RelayRegistration :=
  let entry := { entry with loadPct := req.loadPct, lastSeen := now }
  if entry.state.isHeld then entry else { entry with state := loadState req.loadPct }

/-- `handle_relay_heartbeat`. The load check is `(0.0..=100.0).contains`,
false for NaN. -/
def handleRelayHeartbeat (relays : RelayMap) (authorized : Bool) (req : RelayHeartbeatRequest)
    (now : Nat) : RelayMap × Reply :=
  if !authorized then (relays, ⟨401, ""⟩)
  else if !((finite 0).le req.loadPct && req.loadPct.le (finite 100)) ||
      (trim req.relayId.toList).isEmpty then (relays, ⟨400, ""⟩)
  else
    match relays.get req.relayId with
    | none => (relays, ⟨404, ""⟩)
    | some _ => (relays.update req.relayId (recordHeartbeat req now), ⟨200, "\x7b\"ok\":true\x7d"⟩)

/-- The sweep's first pass on one relay. -/
def quarantineStale (now : Nat) (relay : RelayRegistration) : RelayRegistration :=
  if 120 < now - relay.lastSeen ∧ relay.state.isHeld = false then { relay with state := .quarantined }
  else relay

/-- One tick of the sweep task: quarantine, then purge what has been silent
for over ten minutes. -/
def sweep (relays : RelayMap) (now : Nat) : RelayMap :=
  (relays.mapVal fun _ relay => quarantineStale now relay).retain fun _ relay =>
    now - relay.lastSeen ≤ 600

structure RelayFeedbackRequest where
  relayId : String
  qualityScore : Nat

/-- `handle_feedback`: a moving average of successes into the relay's
`success_rate`, zero before the first feedback. -/
def handleFeedback (r : Rounding) (reputations : AssocMap String ExtFloat)
    (req : RelayFeedbackRequest) : AssocMap String ExtFloat × Reply :=
  let successRate := (reputations.get req.relayId).getD (finite 0)
  let weight := r.round (1 / 10)
  let sample := if 50 < req.qualityScore then finite 1 else finite 0
  (reputations.insert req.relayId
      (add r (mul r (sub r (finite 1) weight) successRate) (mul r weight sample)),
    ⟨200, "\x7b\"accepted\":true\x7d"⟩)

def handleRelayUpdateState (relays : RelayMap) (admin : Bool) (relayId : String)
    (newState : RelayState) : RelayMap × Reply :=
  if !admin then (relays, ⟨401, ""⟩)
  else
    match relays.get relayId with
    | some _ => (relays.update relayId fun relay => { relay with state := newState }, ⟨200, ""⟩)
    | none => (relays, ⟨404, ""⟩)

/-- The candidate `REQUEST_RELAY` makes of a registration: its reputation's
success rate over the default metrics. -/
def toCandidate (reputations : AssocMap String ExtFloat) (id : String) (relay : RelayRegistration) :
    RelayCandidate :=
  ⟨id, relay.endpoints, relay.state,
    { (default : RelayMetrics) with successRate := (reputations.get id).getD (finite 0) },
    relay.region, relay.asn, relay.loadPct, relay.lastSeen⟩

def requestCandidates (relays : RelayMap) (reputations : AssocMap String ExtFloat) :
    List RelayCandidate :=
  relays.entries.filterMap fun entry =>
    if entry.2.state.isExcluded then none else some (toCandidate reputations entry.1 entry.2)

/-- What `RELAY_CREDENTIALS` tells both peers: the relay and its first
endpoint. The leases and the session id are not modelled. -/
structure RelayCredentials where
  relayId : String
  addr : List Char
  deriving DecidableEq, Repr

/-- The choice of `REQUEST_RELAY` for one draw: nothing when no relay is
chosen or the chosen one has no endpoint. -/
def requestRelay (r : Rounding) (relays : RelayMap) (reputations : AssocMap String ExtFloat)
    (clientRegion : Option (List Char)) (now : Nat) (draw : ExtFloat) : Option RelayCredentials :=
  match selectRelay r now draw (filterByGeography (requestCandidates relays reputations)
      clientRegion none 10) with
  | none => none
  | some relay => relay.endpoints.head?.map fun addr => ⟨relay.id, addr⟩

/-! ## What each handler does to the registry -/

section Handlers

variable {relays : RelayMap} {authorized : Bool} {req : RelayRegisterRequest} {maxBitrate : Nat}

/-- The check passes exactly for an authorized, well-formed request of at
least 10 Mbps whose first endpoint's host starts fewer than five relays'
endpoints. -/
theorem checkRegistration_eq_ok_iff :
    checkRegistration relays authorized req = .ok maxBitrate ↔
      authorized = true ∧ (trim req.relayId.toList).isEmpty = false ∧ req.endpoints ≠ [] ∧
        maxBitrate = req.maxBitrateKbps.getD 10000 ∧ 10000 ≤ maxBitrate ∧
        ∀ e ∈ req.endpoints.head?, sybilCount relays (endpointHost e) < 5 := by
  cases authorized
  · simp [checkRegistration]
  cases hBlank : (trim req.relayId.toList).isEmpty
  · cases hEnd : req.endpoints with
    | nil => simp [checkRegistration, hEnd]
    | cons e rest =>
        by_cases hBitrate : req.maxBitrateKbps.getD 10000 < 10000
        · simp only [checkRegistration, hBlank, hEnd, hBitrate]
          simp only [Bool.not_true, Bool.false_eq_true, if_false, Bool.or_false, List.isEmpty_cons,
            if_true, reduceCtorEq, false_iff]
          omega
        · by_cases hSybil : 5 ≤ sybilCount relays (endpointHost e)
          · simp [checkRegistration, hBlank, hEnd, hBitrate, hSybil]
          · simp [checkRegistration, hBlank, hEnd, hBitrate, hSybil]
            omega
  · simp [checkRegistration, hBlank]

/-- The Sybil refusal: an authorized, well-formed request of at least 10 Mbps
is refused when five relays have an endpoint that starts with the text before
the first `:` of its first endpoint. Only that endpoint is looked at, and a
host is matched as a prefix of the endpoint's text. -/
theorem checkRegistration_eq_forbidden_iff :
    checkRegistration relays authorized req = .error ⟨403, ""⟩ ↔
      authorized = true ∧ (trim req.relayId.toList).isEmpty = false ∧
        10000 ≤ req.maxBitrateKbps.getD 10000 ∧
        ∃ e ∈ req.endpoints.head?, 5 ≤ sybilCount relays (endpointHost e) := by
  cases authorized
  · simp [checkRegistration]
  cases hBlank : (trim req.relayId.toList).isEmpty
  · cases hEnd : req.endpoints with
    | nil => simp [checkRegistration, hEnd]
    | cons e rest =>
        by_cases hBitrate : req.maxBitrateKbps.getD 10000 < 10000
        · simp [checkRegistration, hBlank, hEnd, hBitrate]
        · by_cases hSybil : 5 ≤ sybilCount relays (endpointHost e)
          · simp [checkRegistration, hBlank, hEnd, hBitrate, hSybil]
            omega
          · simp [checkRegistration, hBlank, hEnd, hBitrate, hSybil]
  · simp [checkRegistration, hBlank]

theorem handleRelayRegister_cases (relays : RelayMap) (authorized : Bool) (req : RelayRegisterRequest)
    (now : Nat) :
    (handleRelayRegister relays authorized req now).1 = relays ∨
      ∃ maxBitrate, checkRegistration relays authorized req = .ok maxBitrate ∧
        (handleRelayRegister relays authorized req now).1 = insertRegistration relays req maxBitrate now := by
  unfold handleRelayRegister
  cases checkRegistration relays authorized req with
  | error reply => exact .inl rfl
  | ok maxBitrate => exact .inr ⟨maxBitrate, rfl, rfl⟩

theorem handleRelayHeartbeat_cases (relays : RelayMap) (authorized : Bool)
    (req : RelayHeartbeatRequest) (now : Nat) :
    (handleRelayHeartbeat relays authorized req now).1 = relays ∨
      (handleRelayHeartbeat relays authorized req now).1 =
        relays.update req.relayId (recordHeartbeat req now) := by
  unfold handleRelayHeartbeat
  split_ifs
  · exact .inl rfl
  · exact .inl rfl
  · split
    · exact .inl rfl
    · exact .inr rfl

theorem handleRelayUpdateState_cases (relays : RelayMap) (admin : Bool) (relayId : String)
    (newState : RelayState) :
    (handleRelayUpdateState relays admin relayId newState).1 = relays ∨
      (handleRelayUpdateState relays admin relayId newState).1 =
        relays.update relayId fun relay => { relay with state := newState } := by
  unfold handleRelayUpdateState
  split_ifs
  · exact .inl rfl
  · split
    · exact .inr rfl
    · exact .inl rfl

theorem get_insertRegistration (relays : RelayMap) (req : RelayRegisterRequest)
    (maxBitrate now : Nat) (id : String) :
    (insertRegistration relays req maxBitrate now).get id =
      if id = req.relayId then
        some ⟨req.endpoints, finite 0, now, req.region, req.asn, maxBitrate, .new⟩
      else relays.get id := by
  simp [insertRegistration]

theorem get_sweep (relays : RelayMap) (now : Nat) (id : String) :
    (sweep relays now).get id =
      ((relays.get id).map (quarantineStale now)).filter fun relay => now - relay.lastSeen ≤ 600 := by
  simp [sweep]

theorem state_recordHeartbeat_of_isHeld {req : RelayHeartbeatRequest} {now : Nat}
    {entry : RelayRegistration} (h : entry.state.isHeld = true) :
    (recordHeartbeat req now entry).state = entry.state := by
  simp [recordHeartbeat, h]

theorem endpoints_recordHeartbeat (req : RelayHeartbeatRequest) (now : Nat)
    (entry : RelayRegistration) : (recordHeartbeat req now entry).endpoints = entry.endpoints := by
  dsimp only [recordHeartbeat]
  split <;> rfl

theorem state_quarantineStale_of_isHeld {now : Nat} {relay : RelayRegistration}
    (h : relay.state.isHeld = true) : (quarantineStale now relay).state = relay.state := by
  simp [quarantineStale, h]

variable {reputations : AssocMap String ExtFloat}

theorem mem_requestCandidates {c : RelayCandidate} (h : c ∈ requestCandidates relays reputations) :
    ∃ relay, relays.get c.id = some relay ∧ relay.state.isExcluded = false := by
  obtain ⟨entry, hEntry, hSome⟩ := List.mem_filterMap.mp h
  by_cases hExcluded : entry.2.state.isExcluded
  · rw [if_pos hExcluded] at hSome
    cases hSome
  · rw [if_neg hExcluded, Option.some.injEq] at hSome
    subst hSome
    exact ⟨entry.2, relays.get_eq_of_mem hEntry, by simpa using hExcluded⟩

/-- The relay of `id` is all `REQUEST_RELAY` offers when every other entry is
excluded. -/
theorem requestCandidates_of_only {id : String} {relay : RelayRegistration}
    (hGet : relays.get id = some relay) (hIn : relay.state.isExcluded = false)
    (hOthers : ∀ entry ∈ relays.entries, entry.1 ≠ id → entry.2.state.isExcluded = true) :
    requestCandidates relays reputations = [toCandidate reputations id relay] := by
  obtain ⟨before, after, hSplit⟩ := List.append_of_mem (relays.mem_of_get_eq_some hGet)
  have hKeys : id ∉ (before ++ after).map Prod.fst := by
    have hNodup := relays.nodup
    rw [hSplit, List.map_append, List.map_cons, List.nodup_middle, List.nodup_cons] at hNodup
    simpa using hNodup.1
  have hDropped : ∀ entry ∈ before ++ after,
      (if entry.2.state.isExcluded then none else some (toCandidate reputations entry.1 entry.2)) =
        none := by
    intro entry hEntry
    have hMem : entry ∈ relays.entries := by
      rw [hSplit]
      rcases List.mem_append.mp hEntry with h | h <;> simp [h]
    have hNe : entry.1 ≠ id := fun hEq => hKeys (List.mem_map.mpr ⟨entry, hEntry, hEq⟩)
    rw [if_pos (hOthers entry hMem hNe)]
  unfold requestCandidates
  rw [hSplit, List.filterMap_append, List.filterMap_cons, if_neg (by simp [hIn]),
    List.filterMap_eq_nil_iff.mpr fun e he => hDropped e (List.mem_append_left _ he),
    List.filterMap_eq_nil_iff.mpr fun e he => hDropped e (List.mem_append_right _ he)]
  rfl

/-- `REQUEST_RELAY` only ever names a registered relay outside the excluded
states. -/
theorem requestRelay_not_excluded (r : Rounding) {clientRegion : Option (List Char)} {now : Nat}
    {draw : ExtFloat} {credentials : RelayCredentials}
    (h : requestRelay r relays reputations clientRegion now draw = some credentials) :
    ∃ relay, relays.get credentials.relayId = some relay ∧ relay.state.isExcluded = false := by
  unfold requestRelay at h
  split at h
  · cases h
  · next relay hSelect =>
      obtain ⟨addr, -, rfl⟩ := Option.map_eq_some_iff.mp h
      have hMem := ((selectRelay_spec r now draw _).2 relay hSelect).1
      exact mem_requestCandidates (mem_of_mem_filterByGeography _ _ _ _ hMem)

end Handlers

/-! ## The master -/

/-- The parts of `AppState` the relay handlers use, and the credentials sent
so far. -/
structure AppState where
  relays : RelayMap
  reputations : AssocMap String ExtFloat
  issued : List RelayCredentials

/-- What happens next at the master. A request for a relay comes from a bound
connection that the lease rate limit lets through or not (`allowed`). -/
inductive MasterEvent where
  | register (authorized : Bool) (req : RelayRegisterRequest) (now : Nat)
  | heartbeat (authorized : Bool) (req : RelayHeartbeatRequest) (now : Nat)
  | sweep (now : Nat)
  | feedback (req : RelayFeedbackRequest)
  | requestRelay (allowed : Bool) (clientRegion : Option (List Char)) (now : Nat) (draw : ExtFloat)
  | updateState (admin : Bool) (relayId : String) (newState : RelayState)

namespace AppState

variable (r : Rounding)

def step (m : AppState) : MasterEvent → AppState
  | .register authorized req now =>
      { m with relays := (handleRelayRegister m.relays authorized req now).1 }
  | .heartbeat authorized req now =>
      { m with relays := (handleRelayHeartbeat m.relays authorized req now).1 }
  | .sweep now => { m with relays := sweep m.relays now }
  | .feedback req => { m with reputations := (handleFeedback r m.reputations req).1 }
  | .requestRelay allowed clientRegion now draw =>
      if allowed then
        match requestRelay r m.relays m.reputations clientRegion now draw with
        | some credentials => { m with issued := m.issued ++ [credentials] }
        | none => m
      else m
  | .updateState admin relayId newState =>
      { m with relays := (handleRelayUpdateState m.relays admin relayId newState).1 }

def run (m : AppState) (events : List MasterEvent) : AppState := events.foldl (step r) m

end AppState

/-- The events that may give the entry of `id` a new state: a registration of
`id` and the admin's update of `id`. -/
def MasterEvent.Resets (id : String) : MasterEvent → Prop
  | .register _ req _ => req.relayId = id
  | .updateState _ relayId _ => relayId = id
  | _ => False

namespace AppState

variable (r : Rounding)

/-- The entry of `id`, while there is one, is in state `s`. -/
def HeldIn (m : AppState) (id : String) (s : RelayState) : Prop :=
  ∀ relay, m.relays.get id = some relay → relay.state = s

theorem relays_step_requestRelay (m : AppState) (allowed : Bool) (clientRegion : Option (List Char))
    (now : Nat) (draw : ExtFloat) :
    (m.step r (.requestRelay allowed clientRegion now draw)).relays = m.relays := by
  simp only [step]
  split_ifs
  · split <;> rfl
  · rfl

section Held

variable {r} {m : AppState} {id : String} {s : RelayState}

/-- One event other than a reset of `id` keeps `id` in its held state: a
heartbeat and the sweep write it back unchanged, the sweep may purge it, and
nothing else touches it. -/
theorem HeldIn.step (h : m.HeldIn id s) (hHeld : s.isHeld = true) {e : MasterEvent}
    (hKeep : ¬ e.Resets id) : (m.step r e).HeldIn id s := by
  intro relay hGet
  cases e with
  | register authorized req now =>
      simp only [AppState.step] at hGet
      rcases handleRelayRegister_cases m.relays authorized req now with hSame | ⟨_, -, hInsert⟩
      · exact h relay (hSame ▸ hGet)
      · have hNe : id ≠ req.relayId := fun hEq => hKeep hEq.symm
        rw [hInsert, get_insertRegistration, if_neg hNe] at hGet
        exact h relay hGet
  | heartbeat authorized req now =>
      simp only [AppState.step] at hGet
      rcases handleRelayHeartbeat_cases m.relays authorized req now with hSame | hUpdate
      · exact h relay (hSame ▸ hGet)
      · rw [hUpdate, AssocMap.get_update] at hGet
        split_ifs at hGet
        · obtain ⟨old, hOld, rfl⟩ := Option.map_eq_some_iff.mp hGet
          have hOldState := h old hOld
          rw [state_recordHeartbeat_of_isHeld (hOldState ▸ hHeld), hOldState]
        · exact h relay hGet
  | sweep now =>
      simp only [AppState.step, get_sweep, Option.filter_eq_some_iff] at hGet
      obtain ⟨old, hOld, rfl⟩ := Option.map_eq_some_iff.mp hGet.1
      have hOldState := h old hOld
      rw [state_quarantineStale_of_isHeld (hOldState ▸ hHeld), hOldState]
  | feedback req => exact h relay hGet
  | requestRelay allowed clientRegion now draw =>
      rw [relays_step_requestRelay] at hGet
      exact h relay hGet
  | updateState admin relayId newState =>
      simp only [AppState.step] at hGet
      rcases handleRelayUpdateState_cases m.relays admin relayId newState with hSame | hUpdate
      · exact h relay (hSame ▸ hGet)
      · have hNe : id ≠ relayId := fun hEq => hKeep hEq.symm
        rw [hUpdate, AssocMap.get_update, if_neg hNe] at hGet
        exact h relay hGet

end Held

/-- Every step appends to the credentials sent, and only credentials naming a
relay registered outside the excluded states at that step. -/
theorem issued_step (m : AppState) (e : MasterEvent) :
    ∃ sent, (m.step r e).issued = m.issued ++ sent ∧
      ∀ c ∈ sent, ∃ relay, m.relays.get c.relayId = some relay ∧ relay.state.isExcluded = false := by
  cases e with
  | requestRelay allowed clientRegion now draw =>
      simp only [step]
      split_ifs
      · split
        · next credentials hRequest =>
            refine ⟨[credentials], rfl, fun c hc => ?_⟩
            rw [List.mem_singleton.mp hc]
            exact requestRelay_not_excluded r hRequest
        · exact ⟨[], by simp, by simp⟩
      · exact ⟨[], by simp, by simp⟩
  | _ => exact ⟨[], by simp [step], by simp⟩

theorem run_cons (m : AppState) (e : MasterEvent) (rest : List MasterEvent) :
    m.run r (e :: rest) = (m.step r e).run r rest := rfl

/-- Heartbeats with any load, sweeps, feedback, relay requests and
registrations of other ids keep a `Draining` or `Banned` relay in its state
until the sweep purges it, and no credentials sent in the meantime name it. -/
theorem HeldIn.run {m : AppState} {id : String} {s : RelayState} (h : m.HeldIn id s)
    (hHeld : s.isHeld = true) (events : List MasterEvent) (hKeep : ∀ e ∈ events, ¬ e.Resets id) :
    (m.run r events).HeldIn id s ∧
      ∃ sent, (m.run r events).issued = m.issued ++ sent ∧ ∀ c ∈ sent, c.relayId ≠ id := by
  induction events generalizing m with
  | nil => exact ⟨h, [], by simp [AppState.run], by simp⟩
  | cons e rest ih =>
      obtain ⟨hEnd, later, hLater, hLaterNames⟩ :=
        ih (h.step hHeld (hKeep e List.mem_cons_self)) fun e' he' => hKeep e' (List.mem_cons_of_mem _ he')
      obtain ⟨first, hFirst, hFirstNames⟩ := issued_step r m e
      refine ⟨hEnd, first ++ later, by rw [run_cons, hLater, hFirst, List.append_assoc], ?_⟩
      intro c hc
      rcases List.mem_append.mp hc with hNow | hThen
      · obtain ⟨relay, hGet, hIn⟩ := hFirstNames c hNow
        rintro rfl
        rw [h relay hGet, RelayState.isExcluded_of_isHeld hHeld] at hIn
        cases hIn
      · exact hLaterNames c hThen

/-- A registration stores its id as `New` whatever state the id had,
`Draining` and `Banned` included, and without any purge; one heartbeat makes
it `Active`, and when no other relay is in rotation the next `REQUEST_RELAY`
names it on every draw. -/
theorem registration_returns_to_rotation (r : Rounding) {m : AppState}
    {req : RelayRegisterRequest} {maxBitrate : Nat} {addr : List Char}
    (hOthers : ∀ entry ∈ m.relays.entries, entry.1 ≠ req.relayId → entry.2.state.isExcluded = true)
    (hCheck : checkRegistration m.relays true req = .ok maxBitrate)
    (hAddr : req.endpoints.head? = some addr) (now : Nat) (clientRegion : Option (List Char))
    (draw : ExtFloat) :
    ((m.step r (.register true req now)).relays.get req.relayId).map RelayRegistration.state =
        some .new ∧
      (m.run r [.register true req now, .heartbeat true ⟨req.relayId, finite 0⟩ now,
        .requestRelay true clientRegion now draw]).issued = m.issued ++ [⟨req.relayId, addr⟩] := by
  obtain ⟨-, hNonblank, -⟩ := checkRegistration_eq_ok_iff.mp hCheck
  let fresh : RelayRegistration :=
    ⟨req.endpoints, finite 0, now, req.region, req.asn, maxBitrate, .new⟩
  let registered := insertRegistration m.relays req maxBitrate now
  have hFresh : registered.get req.relayId = some fresh := by
    simp [registered, get_insertRegistration, fresh]
  have hStep1 : m.step r (.register true req now) = { m with relays := registered } := by
    simp only [AppState.step, handleRelayRegister, hCheck]
    rfl
  let beat : RelayHeartbeatRequest := ⟨req.relayId, finite 0⟩
  let beaten := registered.update req.relayId (recordHeartbeat beat now)
  have hStep2 : ({ m with relays := registered } : AppState).step r (.heartbeat true beat now) =
      { m with relays := beaten } := by
    simp [AppState.step, handleRelayHeartbeat, beat, hNonblank, hFresh, ExtFloat.le, beaten]
  have hActive : beaten.get req.relayId = some (recordHeartbeat beat now fresh) := by
    simp [beaten, hFresh]
  have hState : (recordHeartbeat beat now fresh).state = .active := by
    norm_num [recordHeartbeat, fresh, RelayState.isHeld, loadState, beat]
  have hOnly : ∀ entry ∈ beaten.entries, entry.1 ≠ req.relayId →
      entry.2.state.isExcluded = true := fun entry hEntry hNe =>
    hOthers entry (AssocMap.mem_of_mem_insert (AssocMap.mem_of_mem_update hEntry hNe) hNe) hNe
  have hRequest : requestRelay r beaten m.reputations clientRegion now draw =
      some ⟨req.relayId, addr⟩ := by
    have hCandidates : requestCandidates beaten m.reputations =
        [toCandidate m.reputations req.relayId (recordHeartbeat beat now fresh)] :=
      requestCandidates_of_only hActive (by rw [hState]; rfl) hOnly
    have hFallback : (toCandidate m.reputations req.relayId (recordHeartbeat beat now fresh)).state.isFallback =
        true := by
      simp [toCandidate, hState, RelayState.isFallback]
    unfold requestRelay
    rw [hCandidates, filterByGeography_singleton _ _ _ _ (by norm_num), selectRelay_singleton r hFallback]
    simp [toCandidate, endpoints_recordHeartbeat, fresh, hAddr]
  have hStep3 : ({ m with relays := beaten } : AppState).step r
      (.requestRelay true clientRegion now draw) =
        { m with relays := beaten, issued := m.issued ++ [⟨req.relayId, addr⟩] } := by
    simp only [AppState.step, if_true, hRequest]
  refine ⟨by rw [hStep1, hFresh]; rfl, ?_⟩
  rw [AppState.run_cons, AppState.run_cons, AppState.run_cons, hStep1, hStep2, hStep3]
  rfl

/-- The banned relay `r1` registers again: it is `New`, and after one heartbeat
a relay request names it. -/
theorem registration_returns_banned_to_rotation :
    let m : AppState := ⟨AssocMap.empty.insert "r1"
      ⟨["1.2.3.4:9000".toList], finite 0, 0, none, none, 10000, .banned⟩, AssocMap.empty, []⟩
    let req : RelayRegisterRequest := ⟨"r1", ["1.2.3.4:9000".toList], none, none, none⟩
    (m.relays.get "r1").map RelayRegistration.state = some .banned ∧
      (∀ entry ∈ m.relays.entries, entry.1 ≠ req.relayId → entry.2.state.isExcluded = true) ∧
      checkRegistration m.relays true req = .ok 10000 ∧
      req.endpoints.head? = some "1.2.3.4:9000".toList ∧
      (((m.step Rounding.exact (.register true req 60)).relays.get req.relayId).map
          RelayRegistration.state = some .new ∧
        (m.run Rounding.exact [.register true req 60, .heartbeat true ⟨req.relayId, finite 0⟩ 60,
          .requestRelay true none 60 (finite 0)]).issued =
            m.issued ++ [⟨req.relayId, "1.2.3.4:9000".toList⟩]) := by
  intro m req
  have hOthers : ∀ entry ∈ m.relays.entries, entry.1 ≠ req.relayId →
      entry.2.state.isExcluded = true := by decide
  have hCheck : checkRegistration m.relays true req = .ok 10000 :=
    checkRegistration_eq_ok_iff.mpr ⟨rfl, by decide, by decide, rfl, le_refl _, by decide⟩
  exact ⟨rfl, hOthers, hCheck, rfl,
    registration_returns_to_rotation Rounding.exact hOthers hCheck rfl 60 none (finite 0)⟩

end AppState

/-! ## Concurrent registrations

`handle_relay_register` makes its checks under the read lock, releases it,
and takes the write lock for the insert, so other registrations run in
between. Each pending registration goes through the two sections one step of
the scheduler at a time. -/

inductive RegisterPhase where
  | checking
  | inserting (maxBitrate : Nat)
  | done (reply : Reply)

structure PendingRegistration where
  authorized : Bool
  request : RelayRegisterRequest
  phase : RegisterPhase

/-- One lock section of a registration: the checks, then the insert. -/
def advanceRegistration (relays : RelayMap) (p : PendingRegistration) (now : Nat) :
    RelayMap × RegisterPhase :=
  match p.phase with
  | .checking =>
      match checkRegistration relays p.authorized p.request with
      | .error reply => (relays, .done reply)
      | .ok maxBitrate => (relays, .inserting maxBitrate)
  | .inserting maxBitrate => (insertRegistration relays p.request maxBitrate now, .done ⟨200, ""⟩)
  | .done reply => (relays, .done reply)

/-- Back to back, the two sections are `handle_relay_register`. -/
theorem advanceRegistration_twice (relays : RelayMap) (authorized : Bool)
    (req : RelayRegisterRequest) (now : Nat) :
    let first := advanceRegistration relays ⟨authorized, req, .checking⟩ now
    advanceRegistration first.1 ⟨authorized, req, first.2⟩ now =
      ((handleRelayRegister relays authorized req now).1,
        .done (handleRelayRegister relays authorized req now).2) := by
  intro first
  cases hCheck : checkRegistration relays authorized req with
  | error reply => simp [first, advanceRegistration, handleRelayRegister, hCheck]
  | ok maxBitrate => simp [first, advanceRegistration, handleRelayRegister, hCheck]

structure Registrations where
  relays : RelayMap
  pending : List PendingRegistration

/-- A registration arrives, or the one at `index` runs its next section. -/
inductive RegisterEvent where
  | arrive (authorized : Bool) (req : RelayRegisterRequest)
  | advance (index now : Nat)

namespace Registrations

def init : Registrations := ⟨AssocMap.empty, []⟩

def step (g : Registrations) : RegisterEvent → Registrations
  | .arrive authorized req => { g with pending := g.pending ++ [⟨authorized, req, .checking⟩] }
  | .advance index now =>
      match g.pending[index]? with
      | none => g
      | some p =>
          ⟨(advanceRegistration g.relays p now).1,
            g.pending.set index { p with phase := (advanceRegistration g.relays p now).2 }⟩

def run (g : Registrations) (events : List RegisterEvent) : Registrations := events.foldl step g

theorem run_append (g : Registrations) (first rest : List RegisterEvent) :
    g.run (first ++ rest) = (g.run first).run rest := by
  simp [run, List.foldl_append]

theorem step_advance {g : Registrations} {index : Nat} {p : PendingRegistration}
    (hAt : g.pending[index]? = some p) (now : Nat) :
    g.step (.advance index now) =
      ⟨(advanceRegistration g.relays p now).1,
        g.pending.set index { p with phase := (advanceRegistration g.relays p now).2 }⟩ := by
  simp [step, hAt]

theorem run_arrivals (g : Registrations) (reqs : List RelayRegisterRequest) :
    g.run (reqs.map (.arrive true)) =
      { g with pending := g.pending ++ reqs.map fun req => ⟨true, req, .checking⟩ } := by
  induction reqs generalizing g with
  | nil => simp [run]
  | cons req rest ih =>
      rw [List.map_cons, run, List.foldl_cons, ← run, ih]
      simp [step]

end Registrations

/-- The relays with an endpoint on `host`. -/
def hostCount (relays : RelayMap) (host : List Char) : Nat :=
  relays.entries.countP fun entry => entry.2.endpoints.any fun e => endpointHost e == host

/-- The race: the registrations arrive, each makes its checks, and only then
does each insert. -/
def raceEvents (reqs : List RelayRegisterRequest) (now : Nat) : List RegisterEvent :=
  reqs.map (.arrive true) ++ (List.range reqs.length).map (fun i => .advance i now) ++
    (List.range reqs.length).map (fun i => .advance i now)

/-- The first half of the race after `count` checks: those wait for the write
lock, the others for their check, and nothing is inserted. -/
structure RaceChecking (reqs : List RelayRegisterRequest) (g : Registrations) (count : Nat) :
    Prop where
  relays : g.relays = AssocMap.empty
  pending : ∀ i, g.pending[i]? = reqs[i]?.map fun req =>
    if i < count then ⟨true, req, .inserting (req.maxBitrateKbps.getD 10000)⟩
    else ⟨true, req, .checking⟩

/-- The second half after `count` inserts: one relay on `host` each, and the
ids still to come absent. -/
structure RaceInserting (reqs : List RelayRegisterRequest) (host : List Char) (g : Registrations)
    (count : Nat) : Prop where
  onHost : hostCount g.relays host = count
  fresh : ∀ i req, count ≤ i → reqs[i]? = some req → g.relays.get req.relayId = none
  pending : ∀ i, g.pending[i]? = reqs[i]?.map fun req =>
    if i < count then ⟨true, req, .done ⟨200, ""⟩⟩
    else ⟨true, req, .inserting (req.maxBitrateKbps.getD 10000)⟩

section Race

variable {host : List Char} {reqs : List RelayRegisterRequest} (now : Nat)

variable (hNonblank : ∀ req ∈ reqs, (trim req.relayId.toList).isEmpty = false)
  (hBitrate : ∀ req ∈ reqs, 10000 ≤ req.maxBitrateKbps.getD 10000)
  (hHost : ∀ req ∈ reqs, ∃ e ∈ req.endpoints.head?, endpointHost e = host)
  (hIds : (reqs.map RelayRegisterRequest.relayId).Nodup)

include hNonblank hBitrate hHost in
/-- On the empty registry every registration of the race passes its checks. -/
theorem checkRegistration_empty {req : RelayRegisterRequest} (hReq : req ∈ reqs) :
    checkRegistration AssocMap.empty true req = .ok (req.maxBitrateKbps.getD 10000) := by
  obtain ⟨e, he, -⟩ := hHost req hReq
  refine checkRegistration_eq_ok_iff.mpr ⟨rfl, hNonblank req hReq, ?_, rfl, hBitrate req hReq, ?_⟩
  · rintro hNil
    simp [hNil] at he
  · intro e _
    simp [sybilCount, AssocMap.empty]

include hNonblank hBitrate hHost in
theorem RaceChecking.advance {g : Registrations} {count : Nat} (h : RaceChecking reqs g count)
    (hCount : count < reqs.length) :
    RaceChecking reqs (g.step (.advance count now)) (count + 1) := by
  obtain ⟨req, hReq⟩ : ∃ req, reqs[count]? = some req :=
    ⟨reqs[count], List.getElem?_eq_getElem hCount⟩
  have hAt : g.pending[count]? = some ⟨true, req, .checking⟩ := by
    simp [h.pending count, hReq]
  have hCheck := checkRegistration_empty hNonblank hBitrate hHost (List.mem_of_getElem? hReq)
  rw [Registrations.step_advance hAt]
  refine ⟨by simp [advanceRegistration, h.relays, hCheck], ?_⟩
  simpa [advanceRegistration, h.relays, hCheck] using
    Positions.getElem?_set_boundary h.pending hReq

include hHost hIds in
theorem RaceInserting.advance {g : Registrations} {count : Nat}
    (h : RaceInserting reqs host g count) (hCount : count < reqs.length) :
    RaceInserting reqs host (g.step (.advance count now)) (count + 1) := by
  obtain ⟨req, hReq⟩ : ∃ req, reqs[count]? = some req :=
    ⟨reqs[count], List.getElem?_eq_getElem hCount⟩
  have hAt : g.pending[count]? = some ⟨true, req, .inserting (req.maxBitrateKbps.getD 10000)⟩ := by
    simp [h.pending count, hReq]
  have hFresh := h.fresh count req (le_refl _) hReq
  rw [Registrations.step_advance hAt]
  simp only [advanceRegistration]
  refine ⟨?_, fun i other hi hOther => ?_, ?_⟩
  · obtain ⟨e, he, hOn⟩ := hHost req (List.mem_of_getElem? hReq)
    have hAny : (req.endpoints.any fun e => endpointHost e == host) = true :=
      List.any_eq_true.mpr ⟨e, List.mem_of_mem_head? he, by simp [hOn]⟩
    simp only [hostCount, insertRegistration, AssocMap.insert,
      AssocMap.entries_erase_of_get_eq_none _ hFresh, List.countP_cons, hAny, if_true]
    rw [← h.onHost, hostCount]
  · have hNe : other.relayId ≠ req.relayId := by
      intro hEq
      have hSame : (reqs.map RelayRegisterRequest.relayId)[i]? =
          (reqs.map RelayRegisterRequest.relayId)[count]? := by
        simp [List.getElem?_map, hOther, hReq, hEq]
      have hi' : i < (reqs.map RelayRegisterRequest.relayId).length := by
        simpa using (List.getElem?_eq_some_iff.mp hOther).1
      have hIndex := (List.getElem?_inj hi' hIds).mp hSame
      omega
    rw [get_insertRegistration, if_neg hNe]
    exact h.fresh i other (by omega) hOther
  · exact Positions.getElem?_set_boundary h.pending hReq

include hNonblank hBitrate hHost in
theorem RaceChecking.run {g : Registrations} (h : RaceChecking reqs g 0) {count : Nat}
    (hCount : count ≤ reqs.length) :
    RaceChecking reqs (g.run ((List.range count).map fun i => .advance i now)) count := by
  induction count with
  | zero => simpa [Registrations.run] using h
  | succ count ih =>
      rw [List.range_succ, List.map_append, Registrations.run_append]
      exact (ih (by omega)).advance now hNonblank hBitrate hHost (by omega)

include hHost hIds in
theorem RaceInserting.run {g : Registrations} (h : RaceInserting reqs host g 0) {count : Nat}
    (hCount : count ≤ reqs.length) :
    RaceInserting reqs host (g.run ((List.range count).map fun i => .advance i now)) count := by
  induction count with
  | zero => simpa [Registrations.run] using h
  | succ count ih =>
      rw [List.range_succ, List.map_append, Registrations.run_append]
      exact (ih (by omega)).advance now hHost hIds (by omega)

/-- Once every registration waits for the write lock, the second half starts. -/
theorem RaceChecking.inserting {g : Registrations} (h : RaceChecking reqs g reqs.length) :
    RaceInserting reqs host g 0 := by
  refine ⟨by simp [hostCount, h.relays, AssocMap.empty], fun i req _ _ => by simp [h.relays], ?_⟩
  intro i
  rw [Positions.getElem?_of_boundary_length h.pending i]
  simp

include hNonblank hBitrate hHost hIds in
/-- Registrations of distinct relays with their first endpoint on one host,
all checked before any is inserted, are all inserted: the registry ends with
as many relays on that host as there were registrations. -/
theorem sybil_race :
    hostCount (Registrations.init.run (raceEvents reqs now)).relays host = reqs.length := by
  have hStart : RaceChecking reqs (Registrations.init.run (reqs.map (.arrive true))) 0 := by
    rw [Registrations.run_arrivals]
    exact ⟨rfl, fun i => by simp [Registrations.init]⟩
  have hChecked := hStart.run now hNonblank hBitrate hHost (le_refl _)
  have hInserted := (RaceChecking.inserting hChecked).run now hHost hIds (le_refl _)
  rw [raceEvents, Registrations.run_append, Registrations.run_append]
  exact hInserted.onHost

/-- Six relays with their endpoint on `1.2.3.4`, all checked before any is
inserted: six relays on one host. -/
theorem sybil_race_six :
    let reqs : List RelayRegisterRequest := ["r1", "r2", "r3", "r4", "r5", "r6"].map fun id =>
      ⟨id, ["1.2.3.4:9000".toList], none, none, none⟩
    (∀ req ∈ reqs, (trim req.relayId.toList).isEmpty = false) ∧
      (∀ req ∈ reqs, 10000 ≤ req.maxBitrateKbps.getD 10000) ∧
      (∀ req ∈ reqs, ∃ e ∈ req.endpoints.head?, endpointHost e = "1.2.3.4".toList) ∧
      (reqs.map RelayRegisterRequest.relayId).Nodup ∧
      hostCount (Registrations.init.run (raceEvents reqs 0)).relays "1.2.3.4".toList = 6 := by
  intro reqs
  have hNonblank : ∀ req ∈ reqs, (trim req.relayId.toList).isEmpty = false := by decide
  have hBitrate : ∀ req ∈ reqs, 10000 ≤ req.maxBitrateKbps.getD 10000 := by decide
  have hHost : ∀ req ∈ reqs, ∃ e ∈ req.endpoints.head?, endpointHost e = "1.2.3.4".toList := by
    simp [reqs, endpointHost]
  have hIds : (reqs.map RelayRegisterRequest.relayId).Nodup := by decide
  exact ⟨hNonblank, hBitrate, hHost, hIds, sybil_race 0 hNonblank hBitrate hHost hIds⟩

end Race

end Wavry.Master
