import Mathlib.Logic.Basic

/-! The Noise XX wrapper of `rift-crypto` (`noise.rs`). The handshake itself
is `snow`'s: its handshake and transport states are types of their own, and
its `write_message` and `read_message`, which take the handshake state by
`&mut`, return the state they leave together with their result. What the
wrapper adds is each side's life cycle: a handshake state until the last
message, then a transport state with the recorded handshake hash, and a dead
`Invalid` state after a failed last message. -/
namespace Wavry.RiftCrypto

/-- `[u8; 32]`. -/
structure Bytes32 where
  bytes : List UInt8
  length_bytes : bytes.length = 32
  deriving DecidableEq

/-- `<[u8; 32]>::try_from` a byte slice: `none` unless it has 32 bytes. -/
def Bytes32.tryFrom (bytes : List UInt8) : Option Bytes32 :=
  if h : bytes.length = 32 then some ⟨bytes, h⟩ else none

/-- The calls of `snow` the wrapper makes. -/
structure Snow (H T E : Type) where
  writeMessage : H → List UInt8 → H × Except E (List UInt8)
  readMessage : H → List UInt8 → H × Except E (List UInt8)
  getHandshakeHash : H → List UInt8
  intoTransportMode : H → Except E T

/-- `NoiseError`. -/
inductive NoiseError (E : Type) where
  | handshakeNotComplete
  | handshakeAlreadyComplete
  | invalidMessage
  | encryptionFailed (msg : String)
  | decryptionFailed (msg : String)
  | snow (e : E)

/-- `InitiatorState` and `ResponderState`, two copies of one enum. -/
inductive NoiseState (H T : Type) where
  | handshake (state : H)
  | transport (state : T)
  | invalid

/-- The two fields of `NoiseInitiator` and of `NoiseResponder`. -/
structure NoiseParty (H T : Type) where
  state : NoiseState H T
  handshakeHash : Option Bytes32

/-- `NoiseSession`. -/
structure NoiseSession (T : Type) where
  transport : T
  handshakeHash : Bytes32

namespace NoiseParty

variable {H T E : Type}

/-- `new`, from the handshake state that `snow`'s builder returns. -/
def new (state : H) : NoiseParty H T := ⟨.handshake state, none⟩

/-- A handshake message before the last, `call` being `snow`'s write or read:
the body of `write_message_1`, `read_message_2`, `read_message_1` and
`write_message_2`. -/
def message (call : H → List UInt8 → H × Except E (List UInt8)) (p : NoiseParty H T)
    (bytes : List UInt8) : NoiseParty H T × Except (NoiseError E) (List UInt8) :=
  match p.state with
  | .handshake state =>
      let (state, result) := call state bytes
      ({ p with state := .handshake state }, result.mapError .snow)
  | _ => (p, .error .handshakeAlreadyComplete)

/-- The last handshake message: the body of `write_message_3` and
`read_message_3`. `mem::replace` leaves `Invalid` in the state, and each `?`
returns with it there. -/
def finish (snow : Snow H T E) (call : H → List UInt8 → H × Except E (List UInt8))
    (p : NoiseParty H T) (bytes : List UInt8) :
    NoiseParty H T × Except (NoiseError E) (List UInt8) :=
  match p.state with
  | .handshake state =>
      match call state bytes with
      | (_, .error e) => ({ p with state := .invalid }, .error (.snow e))
      | (state, .ok buf) =>
          match Bytes32.tryFrom (snow.getHandshakeHash state) with
          | none => ({ p with state := .invalid }, .error .invalidMessage)
          | some hash =>
              match snow.intoTransportMode state with
              | .error e => ({ p with state := .invalid }, .error (.snow e))
              | .ok transport => ({ state := .transport transport, handshakeHash := some hash }, .ok buf)
  | _ => (p, .error .handshakeAlreadyComplete)

/-- `into_session`. -/
def intoSession (p : NoiseParty H T) : Except (NoiseError E) (NoiseSession T) :=
  match p.handshakeHash, p.state with
  | none, _ => .error .handshakeNotComplete
  | some hash, .transport transport => .ok ⟨transport, hash⟩
  | some _, _ => .error .handshakeNotComplete

/-- `is_handshake_complete`. -/
def isHandshakeComplete (p : NoiseParty H T) : Bool :=
  match p.state with
  | .transport _ => true
  | _ => false

end NoiseParty

/-- `NoiseInitiator`. -/
def NoiseInitiator (H T : Type) := NoiseParty H T

/-- `NoiseResponder`. -/
def NoiseResponder (H T : Type) := NoiseParty H T

section Members

variable {H T E : Type} (snow : Snow H T E)

/-- `NoiseInitiator::new`. -/
def NoiseInitiator.new (state : H) : NoiseInitiator H T := NoiseParty.new state

/-- `NoiseInitiator::write_message_1`, the message `-> e` with no payload. -/
def NoiseInitiator.writeMessage1 (i : NoiseInitiator H T) :
    NoiseInitiator H T × Except (NoiseError E) (List UInt8) :=
  NoiseParty.message snow.writeMessage i []

/-- `NoiseInitiator::read_message_2`. -/
def NoiseInitiator.readMessage2 (i : NoiseInitiator H T) (message : List UInt8) :
    NoiseInitiator H T × Except (NoiseError E) (List UInt8) :=
  NoiseParty.message snow.readMessage i message

/-- `NoiseInitiator::write_message_3`. -/
def NoiseInitiator.writeMessage3 (i : NoiseInitiator H T) (payload : List UInt8) :
    NoiseInitiator H T × Except (NoiseError E) (List UInt8) :=
  NoiseParty.finish snow snow.writeMessage i payload

/-- `NoiseInitiator::into_session`. -/
def NoiseInitiator.intoSession (i : NoiseInitiator H T) : Except (NoiseError E) (NoiseSession T) :=
  NoiseParty.intoSession i

/-- `NoiseResponder::new`. -/
def NoiseResponder.new (state : H) : NoiseResponder H T := NoiseParty.new state

/-- `NoiseResponder::read_message_1`. -/
def NoiseResponder.readMessage1 (r : NoiseResponder H T) (message : List UInt8) :
    NoiseResponder H T × Except (NoiseError E) (List UInt8) :=
  NoiseParty.message snow.readMessage r message

/-- `NoiseResponder::write_message_2`. -/
def NoiseResponder.writeMessage2 (r : NoiseResponder H T) (payload : List UInt8) :
    NoiseResponder H T × Except (NoiseError E) (List UInt8) :=
  NoiseParty.message snow.writeMessage r payload

/-- `NoiseResponder::read_message_3`. -/
def NoiseResponder.readMessage3 (r : NoiseResponder H T) (message : List UInt8) :
    NoiseResponder H T × Except (NoiseError E) (List UInt8) :=
  NoiseParty.finish snow snow.readMessage r message

/-- `NoiseResponder::into_session`. -/
def NoiseResponder.intoSession (r : NoiseResponder H T) : Except (NoiseError E) (NoiseSession T) :=
  NoiseParty.intoSession r

end Members

namespace NoiseParty

variable {H T E : Type} {snow : Snow H T E}

/-! ## One call -/

/-- Outside the handshake state every message is refused and changes nothing. -/
theorem message_of_not_handshake {call : H → List UInt8 → H × Except E (List UInt8)}
    {p : NoiseParty H T} (hState : ∀ state, p.state ≠ .handshake state) (bytes : List UInt8) :
    p.message call bytes = (p, .error .handshakeAlreadyComplete) := by
  unfold message
  split
  · exact absurd ‹_› (hState _)
  · rfl

theorem finish_of_not_handshake {call : H → List UInt8 → H × Except E (List UInt8)}
    {p : NoiseParty H T} (hState : ∀ state, p.state ≠ .handshake state) (bytes : List UInt8) :
    p.finish snow call bytes = (p, .error .handshakeAlreadyComplete) := by
  unfold finish
  split
  · exact absurd ‹_› (hState _)
  · rfl

/-- Everything the last message can do from the handshake state: complete, with
the hash recorded, or fail and leave the party `Invalid`. -/
theorem finish_cases (snow : Snow H T E) (call : H → List UInt8 → H × Except E (List UInt8))
    {p : NoiseParty H T}
    {state : H} (hState : p.state = .handshake state) (bytes : List UInt8) :
    (∃ transport hash buf, p.finish snow call bytes =
        (⟨.transport transport, some hash⟩, .ok buf)) ∨
      ∃ e, p.finish snow call bytes = ({ p with state := .invalid }, .error e) := by
  unfold finish
  rw [hState]
  dsimp only
  split
  · exact .inr ⟨_, rfl⟩
  · split
    · exact .inr ⟨_, rfl⟩
    · split
      · exact .inr ⟨_, rfl⟩
      · exact .inl ⟨_, _, _, rfl⟩

/-! ## The life cycle -/

/-- The parties that a sequence of handshake calls leads to from `p`. -/
inductive Steps (snow : Snow H T E) (p : NoiseParty H T) : NoiseParty H T → Prop
  | refl : Steps snow p p
  | message {q : NoiseParty H T} (call : H → List UInt8 → H × Except E (List UInt8))
      (bytes : List UInt8) : Steps snow p q → Steps snow p (q.message call bytes).1
  | finish {q : NoiseParty H T} (call : H → List UInt8 → H × Except E (List UInt8))
      (bytes : List UInt8) : Steps snow p q → Steps snow p (q.finish snow call bytes).1

/-- A party out of its handshake state is final. -/
theorem steps_of_not_handshake {p q : NoiseParty H T} (h : Steps snow p q)
    (hState : ∀ state, p.state ≠ .handshake state) : q = p := by
  induction h with
  | refl => rfl
  | message call bytes _ ih =>
      subst ih
      rw [message_of_not_handshake hState]
  | finish call bytes _ ih =>
      subst ih
      rw [finish_of_not_handshake hState]

/-- The hash is recorded exactly in transport mode, from `new` on. -/
theorem handshakeHash_isSome_of_steps {state₀ : H} {p : NoiseParty H T}
    (h : Steps snow (new state₀) p) : p.handshakeHash.isSome = p.isHandshakeComplete := by
  induction h with
  | refl => rfl
  | @message p call bytes _ ih =>
      unfold message
      split
      · rename_i state hState
        rw [isHandshakeComplete, hState] at ih
        exact ih
      · exact ih
  | @finish p call bytes _ ih =>
      cases hState : p.state with
      | handshake state =>
          rw [isHandshakeComplete, hState] at ih
          rcases finish_cases snow call hState bytes with
            ⟨transport, hash, buf, hFinish⟩ | ⟨e, hFinish⟩
          · rw [hFinish]
            rfl
          · rw [hFinish]
            exact ih
      | transport state =>
          rw [finish_of_not_handshake (by simp [hState])]
          exact ih
      | invalid =>
          rw [finish_of_not_handshake (by simp [hState])]
          exact ih

/-- `into_session` returns the transport state and the recorded hash. -/
theorem intoSession_eq_ok {p : NoiseParty H T} {session : NoiseSession T} :
    p.intoSession (E := E) = .ok session ↔
      p.state = .transport session.transport ∧ p.handshakeHash = some session.handshakeHash := by
  unfold intoSession
  split
  · rename_i hHash
    simp [hHash]
  · rename_i hash transport hHash hState
    rw [hHash, hState]
    constructor
    · intro hOk
      cases hOk
      exact ⟨rfl, rfl⟩
    · rintro ⟨hTransport, hSome⟩
      cases session
      cases hTransport
      cases hSome
      rfl
  · rename_i hNotTransport
    simp only [reduceCtorEq, false_iff, not_and]
    intro hState
    exact (hNotTransport _ hState).elim

/-- From `new`, after any sequence of handshake calls: `into_session` succeeds
exactly when `is_handshake_complete` holds, and a party out of its handshake
state, complete or `Invalid` after a failed last message, stays as it is
under every further sequence of calls. -/
theorem noiseParty_lifecycle {state₀ : H} {p : NoiseParty H T} (h : Steps snow (new state₀) p) :
    ((∃ session, p.intoSession (E := E) = .ok session) ↔ p.isHandshakeComplete = true) ∧
    ((∀ state, p.state ≠ .handshake state) → ∀ q, Steps snow p q → q = p) := by
  refine ⟨?_, fun hState q hq => steps_of_not_handshake hq hState⟩
  have hHash := handshakeHash_isSome_of_steps h
  constructor
  · rintro ⟨session, hSession⟩
    obtain ⟨hTransport, -⟩ := intoSession_eq_ok.mp hSession
    rw [isHandshakeComplete, hTransport]
  · intro hComplete
    rw [← hHash, Option.isSome_iff_exists] at hComplete
    obtain ⟨hash, hSome⟩ := hComplete
    cases hState : p.state with
    | transport transport => exact ⟨⟨transport, hash⟩, intoSession_eq_ok.mpr ⟨hState, hSome⟩⟩
    | handshake state => simp [isHandshakeComplete, hState] at hHash; simp [hSome] at hHash
    | invalid => simp [isHandshakeComplete, hState] at hHash; simp [hSome] at hHash

/-- A `snow` whose calls all succeed, echoing their input, with an all-zero
handshake hash. -/
def echoSnow : Snow Unit Unit Unit where
  writeMessage state bytes := (state, .ok bytes)
  readMessage state bytes := (state, .ok bytes)
  getHandshakeHash _ := List.replicate 32 0
  intoTransportMode _ := .ok ()

/-- The echo party after its last handshake message is complete, so it has a
session, and a further message leaves it as it is. -/
theorem noiseParty_lifecycle_finished :
    (∃ session : NoiseSession Unit,
      ((NoiseParty.new () : NoiseParty Unit Unit).finish echoSnow echoSnow.writeMessage []).1.intoSession
        (E := Unit) = .ok session) ∧
    (((NoiseParty.new () : NoiseParty Unit Unit).finish echoSnow echoSnow.writeMessage []).1.message
        echoSnow.readMessage [1]).1 =
      ((NoiseParty.new () : NoiseParty Unit Unit).finish echoSnow echoSnow.writeMessage []).1 := by
  have hLife := noiseParty_lifecycle (E := Unit)
    (Steps.finish echoSnow.writeMessage [] (@Steps.refl Unit Unit Unit echoSnow (NoiseParty.new ())))
  exact ⟨hLife.1.mpr rfl, hLife.2 (fun _ hState => by cases hState) _
    (Steps.message echoSnow.readMessage [1] Steps.refl)⟩

end NoiseParty

end Wavry.RiftCrypto
