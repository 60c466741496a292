import Wavry.Lib.Trace

/-! The RIFT session handshake of `rift-core` (`lib.rs`): the client announces
itself with `Hello`, the host answers with `HelloAck`, and a `Handshake`
records, for one role, where the exchange stands. Each call is taken in one
state of one role only and moves the handshake one stage on; any other call
fails and leaves the state as it was.

Two results are proved. Over any sequence of calls, the transitions a
handshake reports form a walk of its role's protocol from `Init` to the state
it is in, so at most two calls ever succeed. And a client's and a host's
handshake that exchange these messages over a network that loses, repeats and
reorders them agree: an established client holds the session id the host is
established with, and a rejected client faces a host that rejected it. The
host side is driven as `wavry-server` drives its handshake, which sends a
`HelloAck` only once `on_send_hello_ack` has succeeded; `wavry-client` reads
the acknowledgement itself and keeps no `Handshake`. -/
namespace Wavry.RiftCore

/-- `Role`, the protobuf enum. -/
inductive Role where
  | host
  | client
  deriving DecidableEq, Repr

/-- `HandshakeRejection`. -/
inductive HandshakeRejection where
  | remoteRejected
  | localRejected
  | protocolError
  deriving DecidableEq, Repr

/-- `HandshakeState`. -/
inductive HandshakeState where
  | init
  | helloSent
  | helloReceived
  | established (sessionId : List UInt8)
  | rejected (reason : HandshakeRejection)
  deriving DecidableEq, Repr

/-- `HandshakeEvent`. -/
inductive HandshakeEvent where
  | sendHello
  | receiveHello
  | sendHelloAck
  | receiveHelloAck
  deriving DecidableEq, Repr

/-- `HandshakeTransition`; `from` is a keyword here, so its fields are
`fromState` and `toState`. -/
structure HandshakeTransition where
  fromState : HandshakeState
  toState : HandshakeState
  event : HandshakeEvent
  deriving DecidableEq, Repr

/-- `HandshakeError`. -/
inductive HandshakeError where
  /-- `"invalid state transition from {0:?} via {1:?}"`. -/
  | invalidTransition (state : HandshakeState) (event : HandshakeEvent)
  /-- `"duplicate hello"`. -/
  | duplicateHello
  /-- `"hello ack missing valid session_id"`. -/
  | invalidSessionId
  deriving DecidableEq, Repr

/-- The two fields of `HelloAck` that the handshake reads. -/
structure HelloAck where
  accepted : Bool
  sessionId : List UInt8
  deriving DecidableEq, Repr

/-- `Handshake`. -/
structure Handshake where
  role : Role
  state : HandshakeState
  deriving DecidableEq, Repr

namespace Handshake

/-- `Handshake::new`. -/
def new (role : Role) : Handshake := ⟨role, .init⟩

/-- `transition`: take the next state and report the move. -/
def transition (h : Handshake) (event : HandshakeEvent) (next : HandshakeState) :
    Handshake × Except HandshakeError HandshakeTransition :=
  ({ h with state := next }, .ok ⟨h.state, next, event⟩)

/-- `on_send_hello`. -/
def onSendHello (h : Handshake) : Handshake × Except HandshakeError HandshakeTransition :=
  match h.role, h.state with
  | .client, .init => h.transition .sendHello .helloSent
  | _, .helloSent => (h, .error .duplicateHello)
  | _, _ => (h, .error (.invalidTransition h.state .sendHello))

/-- `on_receive_hello`; the hello itself is not read. -/
def onReceiveHello (h : Handshake) : Handshake × Except HandshakeError HandshakeTransition :=
  match h.role, h.state with
  | .host, .init => h.transition .receiveHello .helloReceived
  | _, .helloReceived => (h, .error .duplicateHello)
  | _, _ => (h, .error (.invalidTransition h.state .receiveHello))

/-- `on_send_hello_ack`. -/
def onSendHelloAck (h : Handshake) (ack : HelloAck) :
    Handshake × Except HandshakeError HandshakeTransition :=
  match h.role, h.state with
  | .host, .helloReceived =>
      h.transition .sendHelloAck
        (if ack.accepted then .established ack.sessionId else .rejected .localRejected)
  | _, _ => (h, .error (.invalidTransition h.state .sendHelloAck))

/-- `on_receive_hello_ack`. -/
def onReceiveHelloAck (h : Handshake) (ack : HelloAck) :
    Handshake × Except HandshakeError HandshakeTransition :=
  match h.role, h.state with
  | .client, .helloSent =>
      h.transition .receiveHelloAck
        (if ack.accepted then .established ack.sessionId else .rejected .remoteRejected)
  | _, _ => (h, .error (.invalidTransition h.state .receiveHelloAck))

end Handshake

/-- The calls a handshake takes, with the acknowledgement the two ack calls
read. -/
inductive HandshakeCall where
  | sendHello
  | receiveHello
  | sendHelloAck (ack : HelloAck)
  | receiveHelloAck (ack : HelloAck)
  deriving DecidableEq, Repr

namespace Handshake

/-- The method a call names. -/
def call (h : Handshake) : HandshakeCall → Handshake × Except HandshakeError HandshakeTransition
  | .sendHello => h.onSendHello
  | .receiveHello => h.onReceiveHello
  | .sendHelloAck ack => h.onSendHelloAck ack
  | .receiveHelloAck ack => h.onReceiveHelloAck ack

/-- One call, and the transition it reports if it succeeds. -/
def step (h : Handshake) (c : HandshakeCall) : Handshake × List HandshakeTransition :=
  ((h.call c).1,
    match (h.call c).2 with
    | .ok transition => [transition]
    | .error _ => [])

/-- A sequence of calls on one handshake. -/
def run (h : Handshake) (calls : List HandshakeCall) : Handshake × List HandshakeTransition :=
  Trace.run step h calls

end Handshake

/-! ## The protocol of each role -/

namespace Role

/-- The reason a handshake of this role is rejected for. -/
def rejection : Role → HandshakeRejection
  | .client => .remoteRejected
  | .host => .localRejected

/-- Where an acknowledgement leaves a handshake of this role. -/
def outcome (role : Role) (ack : HelloAck) : HandshakeState :=
  if ack.accepted then .established ack.sessionId else .rejected role.rejection

theorem outcome_eq_established {role : Role} {ack : HelloAck} {sessionId : List UInt8} :
    role.outcome ack = .established sessionId ↔ ack.accepted = true ∧ ack.sessionId = sessionId := by
  unfold outcome
  cases ack.accepted <;> simp

theorem outcome_eq_rejected {role : Role} {ack : HelloAck} {reason : HandshakeRejection} :
    role.outcome ack = .rejected reason ↔ ack.accepted = false ∧ role.rejection = reason := by
  unfold outcome
  cases ack.accepted <;> simp

/-- The protocol each role follows: the client sends the hello and then reads
an acknowledgement, the host reads the hello and then sends one. -/
inductive Edge : Role → HandshakeTransition → Prop
  | sendHello : Edge .client ⟨.init, .helloSent, .sendHello⟩
  | receiveHelloAck (ack : HelloAck) :
      Edge .client ⟨.helloSent, Role.client.outcome ack, .receiveHelloAck⟩
  | receiveHello : Edge .host ⟨.init, .helloReceived, .receiveHello⟩
  | sendHelloAck (ack : HelloAck) : Edge .host ⟨.helloReceived, Role.host.outcome ack, .sendHelloAck⟩

/-- A move of the role's protocol, from the state it starts in to the state it
ends in. -/
def Moves (role : Role) (s : HandshakeState) (t : HandshakeTransition) (s' : HandshakeState) : Prop :=
  role.Edge t ∧ t.fromState = s ∧ t.toState = s'

end Role

/-- How far a state is along either role's protocol. -/
def HandshakeState.stage : HandshakeState → ℕ
  | .init => 0
  | .helloSent | .helloReceived => 1
  | .established _ | .rejected _ => 2

namespace HandshakeState

theorem stage_le_two (s : HandshakeState) : s.stage ≤ 2 := by
  cases s <;> simp [stage]

@[simp] theorem stage_outcome (role : Role) (ack : HelloAck) : (role.outcome ack).stage = 2 := by
  unfold Role.outcome
  split <;> rfl

end HandshakeState

/-- Every move goes one stage on. -/
theorem Role.stage_lt_of_moves {role : Role} {s s' : HandshakeState} {t : HandshakeTransition}
    (hMoves : role.Moves s t s') : s.stage < s'.stage := by
  obtain ⟨hEdge, rfl, rfl⟩ := hMoves
  cases hEdge with
  | sendHello | receiveHello => decide
  | receiveHelloAck ack | sendHelloAck ack =>
      rw [HandshakeState.stage_outcome]
      exact Nat.one_lt_two

/-! ## One call -/

namespace Handshake

/-- `on_send_hello` moves a client from `Init` to `HelloSent`, and fails
otherwise without a change. -/
theorem onSendHello_cases (h : Handshake) :
    (h.role = .client ∧ h.state = .init ∧
      h.onSendHello = ({ h with state := .helloSent }, .ok ⟨.init, .helloSent, .sendHello⟩)) ∨
    (h.onSendHello.1 = h ∧ ∃ e, h.onSendHello.2 = .error e) := by
  obtain ⟨role, state⟩ := h
  cases role <;> cases state <;> first
    | exact .inl ⟨rfl, rfl, rfl⟩
    | exact .inr ⟨rfl, _, rfl⟩

/-- `on_receive_hello` moves a host from `Init` to `HelloReceived`, and fails
otherwise without a change. -/
theorem onReceiveHello_cases (h : Handshake) :
    (h.role = .host ∧ h.state = .init ∧
      h.onReceiveHello =
        ({ h with state := .helloReceived }, .ok ⟨.init, .helloReceived, .receiveHello⟩)) ∨
    (h.onReceiveHello.1 = h ∧ ∃ e, h.onReceiveHello.2 = .error e) := by
  obtain ⟨role, state⟩ := h
  cases role <;> cases state <;> first
    | exact .inl ⟨rfl, rfl, rfl⟩
    | exact .inr ⟨rfl, _, rfl⟩

/-- `on_send_hello_ack` moves a host from `HelloReceived` to the outcome of its
acknowledgement, and fails otherwise without a change. -/
theorem onSendHelloAck_cases (h : Handshake) (ack : HelloAck) :
    (h.role = .host ∧ h.state = .helloReceived ∧
      h.onSendHelloAck ack = ({ h with state := Role.host.outcome ack },
        .ok ⟨.helloReceived, Role.host.outcome ack, .sendHelloAck⟩)) ∨
    ((h.onSendHelloAck ack).1 = h ∧ ∃ e, (h.onSendHelloAck ack).2 = .error e) := by
  obtain ⟨role, state⟩ := h
  cases role <;> cases state <;> first
    | exact .inl ⟨rfl, rfl, rfl⟩
    | exact .inr ⟨rfl, _, rfl⟩

/-- `on_receive_hello_ack` moves a client from `HelloSent` to the outcome of
the acknowledgement, and fails otherwise without a change. -/
theorem onReceiveHelloAck_cases (h : Handshake) (ack : HelloAck) :
    (h.role = .client ∧ h.state = .helloSent ∧
      h.onReceiveHelloAck ack = ({ h with state := Role.client.outcome ack },
        .ok ⟨.helloSent, Role.client.outcome ack, .receiveHelloAck⟩)) ∨
    ((h.onReceiveHelloAck ack).1 = h ∧ ∃ e, (h.onReceiveHelloAck ack).2 = .error e) := by
  obtain ⟨role, state⟩ := h
  cases role <;> cases state <;> first
    | exact .inl ⟨rfl, rfl, rfl⟩
    | exact .inr ⟨rfl, _, rfl⟩

/-- A failed call reports a repeated hello or the state it was made in with
its event: no call returns `InvalidSessionId`, so an accepted acknowledgement
establishes under whatever session id it carries. -/
theorem call_error (h : Handshake) (c : HandshakeCall) {e : HandshakeError}
    (hError : (h.call c).2 = .error e) :
    e = .duplicateHello ∨ ∃ event, e = .invalidTransition h.state event := by
  obtain ⟨role, state⟩ := h
  cases c <;> cases role <;> cases state <;> cases hError <;> simp

/-- A call fails and keeps the handshake, or takes a move of its role's
protocol from the state it was in and reports that move. -/
theorem call_cases (h : Handshake) (c : HandshakeCall) :
    ((h.call c).1 = h ∧ ∃ e, (h.call c).2 = .error e) ∨
      ∃ t, h.role.Moves h.state t t.toState ∧ h.call c = ({ h with state := t.toState }, .ok t) := by
  cases c with
  | sendHello =>
      rcases onSendHello_cases h with ⟨hRole, hState, hCall⟩ | hFail
      · exact .inr ⟨⟨.init, .helloSent, .sendHello⟩, ⟨by rw [hRole]; exact .sendHello, hState.symm, rfl⟩,
          hCall⟩
      · exact .inl hFail
  | receiveHello =>
      rcases onReceiveHello_cases h with ⟨hRole, hState, hCall⟩ | hFail
      · exact .inr ⟨⟨.init, .helloReceived, .receiveHello⟩,
          ⟨by rw [hRole]; exact .receiveHello, hState.symm, rfl⟩, hCall⟩
      · exact .inl hFail
  | sendHelloAck ack =>
      rcases onSendHelloAck_cases h ack with ⟨hRole, hState, hCall⟩ | hFail
      · exact .inr ⟨⟨.helloReceived, Role.host.outcome ack, .sendHelloAck⟩,
          ⟨by rw [hRole]; exact .sendHelloAck ack, hState.symm, rfl⟩, hCall⟩
      · exact .inl hFail
  | receiveHelloAck ack =>
      rcases onReceiveHelloAck_cases h ack with ⟨hRole, hState, hCall⟩ | hFail
      · exact .inr ⟨⟨.helloSent, Role.client.outcome ack, .receiveHelloAck⟩,
          ⟨by rw [hRole]; exact .receiveHelloAck ack, hState.symm, rfl⟩, hCall⟩
      · exact .inl hFail

/-- The step form of `call_cases`: nothing reported and the state kept, or one
move of the role reported and taken; the role never changes. -/
theorem step_cases (h : Handshake) (c : HandshakeCall) :
    (h.step c).1.role = h.role ∧
      (((h.step c).2 = [] ∧ (h.step c).1.state = h.state) ∨
        ∃ t, (h.step c).2 = [t] ∧ h.role.Moves h.state t (h.step c).1.state) := by
  rcases call_cases h c with ⟨hSame, e, hError⟩ | ⟨t, hMoves, hCall⟩
  · refine ⟨by rw [step, hSame], .inl ⟨?_, by rw [step, hSame]⟩⟩
    simp only [step, hError]
  · refine ⟨by rw [step, hCall], .inr ⟨t, ?_, ?_⟩⟩
    · simp only [step, hCall]
    · rw [step, hCall]
      exact hMoves

/-! ## Whole runs -/

/-- Whatever calls a handshake is given, in any order and repeated at will, it
keeps its role, the transitions it reports form a walk of its role's protocol
from `Init` to the state it is in, and at most two calls succeed. -/
theorem handshake_run (role : Role) (calls : List HandshakeCall) :
    (run (new role) calls).1.role = role ∧
      Trace.Walk role.Moves .init (run (new role) calls).2 (run (new role) calls).1.state ∧
      (run (new role) calls).2.length ≤ 2 := by
  have hStep : ∀ (h : Handshake) c, h.role = role → (h.step c).1.role = role ∧
      (((h.step c).2 = [] ∧ (h.step c).1.state = h.state) ∨
        ∃ t, (h.step c).2 = [t] ∧ role.Moves h.state t (h.step c).1.state) := by
    intro h c hRole
    obtain ⟨hKeep, hCases⟩ := step_cases h c
    subst hRole
    exact ⟨hKeep, hCases⟩
  have hWalk : Trace.Walk role.Moves (new role).state (run (new role) calls).2
      (run (new role) calls).1.state :=
    Trace.run_walk (P := fun h => h.role = role) hStep rfl calls
  have hLength : (run (new role) calls).2.length + 0 ≤ (run (new role) calls).1.state.stage :=
    hWalk.length_add_le fun _ _ _ hMoves => Role.stage_lt_of_moves hMoves
  refine ⟨Trace.run_induction (P := fun h : Handshake => h.role = role)
    (fun h c hRole => (hStep h c hRole).1) rfl calls, hWalk, ?_⟩
  have hBound := HandshakeState.stage_le_two (run (new role) calls).1.state
  omega

/-- The client's run of the test `client_happy_path`. -/
example :
    (run (new .client) [.sendHello, .receiveHelloAck ⟨true, List.replicate 16 0⟩]).1.state =
      .established (List.replicate 16 0) := by
  decide

end Handshake

/-! ## A client and a host over an unreliable network -/

/-- A client's and a host's handshake, and what the network has carried:
whether a hello was sent, and every acknowledgement the host sent, each of
which may be delivered any number of times, in any order, or never. -/
structure Exchange where
  client : Handshake
  host : Handshake
  helloSent : Bool
  acks : List HelloAck

/-- What happens next. -/
inductive ExchangeEvent where
  /-- The client calls `on_send_hello` and sends its hello if the call succeeds. -/
  | clientSendsHello
  /-- A hello is delivered to the host, which calls `on_receive_hello`. -/
  | hostReceivesHello
  /-- The host calls `on_send_hello_ack` with an acknowledgement of its choice
  and sends it if the call succeeds. -/
  | hostSendsHelloAck (ack : HelloAck)
  /-- The acknowledgement sent at `index` is delivered to the client, which
  calls `on_receive_hello_ack`. -/
  | clientReceivesHelloAck (index : ℕ)

namespace Exchange

/-- Both handshakes new, and nothing sent. -/
def init : Exchange := ⟨Handshake.new .client, Handshake.new .host, false, []⟩

/-- One event. -/
def step (x : Exchange) : ExchangeEvent → Exchange
  | .clientSendsHello =>
      match x.client.onSendHello with
      | (client, .ok _) => { x with client, helloSent := true }
      | (client, .error _) => { x with client }
  | .hostReceivesHello =>
      if x.helloSent then { x with host := x.host.onReceiveHello.1 } else x
  | .hostSendsHelloAck ack =>
      match x.host.onSendHelloAck ack with
      | (host, .ok _) => { x with host, acks := x.acks ++ [ack] }
      | (host, .error _) => { x with host }
  | .clientReceivesHelloAck index =>
      match x.acks[index]? with
      | some ack => { x with client := (x.client.onReceiveHelloAck ack).1 }
      | none => x

/-- A sequence of events. -/
def run (x : Exchange) (events : List ExchangeEvent) : Exchange :=
  events.foldl step x

/-- What every reachable exchange keeps: the host has sent at most one
acknowledgement, and is in that acknowledgement's outcome; a client at the end
of its protocol is in the outcome of one of the acknowledgements sent. -/
structure Sound (x : Exchange) : Prop where
  client_role : x.client.role = .client
  host_role : x.host.role = .host
  acks_length_le : x.acks.length ≤ 1
  host_of_ack : ∀ ack ∈ x.acks, x.host.state = Role.host.outcome ack
  client_of_stage : x.client.state.stage = 2 → ∃ ack ∈ x.acks, x.client.state = Role.client.outcome ack

theorem sound_init : init.Sound :=
  ⟨rfl, rfl, by simp [init], fun _ h => (nomatch h), fun h => (nomatch h)⟩

variable {x : Exchange}

/-- A host short of the end of its protocol has sent nothing. -/
theorem Sound.acks_eq_nil (hSound : x.Sound) (hStage : x.host.state.stage < 2) : x.acks = [] := by
  cases hAcks : x.acks with
  | nil => rfl
  | cons ack _ =>
      have hState := hSound.host_of_ack ack (by simp [hAcks])
      rw [hState, HandshakeState.stage_outcome] at hStage
      omega

/-- An exchange with the client's handshake replaced by one in the same role
that is either where it was or short of the end of the protocol, whether or
not a hello has gone out. -/
theorem Sound.withClient (hSound : x.Sound) (client : Handshake) (helloSent : Bool)
    (hRole : client.role = .client) (hStage : client.state = x.client.state ∨ client.state.stage < 2) :
    ({ x with client, helloSent } : Exchange).Sound := by
  refine ⟨hRole, hSound.host_role, hSound.acks_length_le, hSound.host_of_ack, fun hEnd => ?_⟩
  rcases hStage with hSame | hShort
  · exact hSame ▸ hSound.client_of_stage (hSame ▸ hEnd)
  · exact absurd hEnd (by change client.state.stage ≠ 2; omega)

theorem Sound.step (hSound : x.Sound) (event : ExchangeEvent) : (x.step event).Sound := by
  cases event with
  | clientSendsHello =>
      rcases Handshake.onSendHello_cases x.client with ⟨-, -, hCall⟩ | ⟨hSame, e, hError⟩
      · have hStep : x.step .clientSendsHello =
            { x with client := { x.client with state := .helloSent }, helloSent := true } := by
          simp only [Exchange.step, hCall]
        rw [hStep]
        exact hSound.withClient { x.client with state := .helloSent } true hSound.client_role (.inr Nat.one_lt_two)
      · have hCall : x.client.onSendHello = (x.client, .error e) := Prod.ext hSame hError
        simp only [Exchange.step, hCall]
        exact hSound
  | hostReceivesHello =>
      by_cases hSent : x.helloSent = true
      · rcases Handshake.onReceiveHello_cases x.host with ⟨-, hInit, hCall⟩ | ⟨hSame, -⟩
        · have hNil := hSound.acks_eq_nil (by rw [hInit]; decide)
          rw [Exchange.step, if_pos hSent, hCall]
          exact ⟨hSound.client_role, hSound.host_role, by simp [hNil], by simp [hNil],
            fun hEnd => by simpa [hNil] using hSound.client_of_stage hEnd⟩
        · rw [Exchange.step, if_pos hSent, hSame]
          exact hSound
      · rw [Exchange.step, if_neg hSent]
        exact hSound
  | hostSendsHelloAck ack =>
      rcases Handshake.onSendHelloAck_cases x.host ack with ⟨-, hReceived, hCall⟩ | ⟨hSame, e, hError⟩
      · have hNil := hSound.acks_eq_nil (by rw [hReceived]; decide)
        have hStep : x.step (.hostSendsHelloAck ack) =
            { x with host := { x.host with state := Role.host.outcome ack }, acks := x.acks ++ [ack] } := by
          simp only [Exchange.step, hCall]
        rw [hStep]
        refine ⟨hSound.client_role, hSound.host_role, by simp [hNil], fun a ha => ?_, fun hEnd => ?_⟩
        · simp only [hNil, List.nil_append, List.mem_singleton] at ha
          rw [ha]
        · obtain ⟨a, ha, hState⟩ := hSound.client_of_stage hEnd
          simp [hNil] at ha
      · have hCall : x.host.onSendHelloAck ack = (x.host, .error e) := Prod.ext hSame hError
        simp only [Exchange.step, hCall]
        exact hSound
  | clientReceivesHelloAck index =>
      cases hAck : x.acks[index]? with
      | none =>
          simp only [Exchange.step, hAck]
          exact hSound
      | some ack =>
          simp only [Exchange.step, hAck]
          rcases Handshake.onReceiveHelloAck_cases x.client ack with ⟨-, -, hCall⟩ | ⟨hSame, -⟩
          · rw [hCall]
            refine ⟨hSound.client_role, hSound.host_role, hSound.acks_length_le, hSound.host_of_ack,
              fun _ => ⟨ack, List.mem_of_getElem? hAck, rfl⟩⟩
          · rw [hSame]
            exact hSound.withClient x.client x.helloSent hSound.client_role (.inl rfl)

theorem sound_run (events : List ExchangeEvent) : (init.run events).Sound := by
  suffices ∀ x : Exchange, x.Sound → (x.run events).Sound from this init sound_init
  induction events with
  | nil => exact fun _ hSound => hSound
  | cons event events ih => exact fun x hSound => ih (x.step event) (hSound.step event)

/-- Whatever the network does with the messages, the host sends at most one
acknowledgement, an established client holds the session id the host is
established with, and a rejected client was rejected by the host. -/
theorem handshake_agreement (events : List ExchangeEvent) :
    (init.run events).acks.length ≤ 1 ∧
      (∀ sessionId, (init.run events).client.state = .established sessionId →
        (init.run events).host.state = .established sessionId) ∧
      (∀ reason, (init.run events).client.state = .rejected reason →
        reason = .remoteRejected ∧ (init.run events).host.state = .rejected .localRejected) := by
  have hSound := sound_run events
  refine ⟨hSound.acks_length_le, fun sessionId hEstablished => ?_, fun reason hRejected => ?_⟩
  · obtain ⟨ack, hAck, hOutcome⟩ := hSound.client_of_stage (by rw [hEstablished]; rfl)
    obtain ⟨hAccepted, hId⟩ := Role.outcome_eq_established.mp (hEstablished ▸ hOutcome).symm
    rw [hSound.host_of_ack ack hAck]
    exact Role.outcome_eq_established.mpr ⟨hAccepted, hId⟩
  · obtain ⟨ack, hAck, hOutcome⟩ := hSound.client_of_stage (by rw [hRejected]; rfl)
    obtain ⟨hRefused, hReason⟩ := Role.outcome_eq_rejected.mp (hRejected ▸ hOutcome).symm
    rw [hSound.host_of_ack ack hAck]
    exact ⟨hReason.symm, Role.outcome_eq_rejected.mpr ⟨hRefused, rfl⟩⟩

/-- The exchange in order, with the acknowledgement delivered twice. -/
example :
    (init.run [.clientSendsHello, .hostReceivesHello, .hostSendsHelloAck ⟨true, [7]⟩,
      .clientReceivesHelloAck 0, .clientReceivesHelloAck 0]).client.state = .established [7] := by
  decide

end Exchange

end Wavry.RiftCore
