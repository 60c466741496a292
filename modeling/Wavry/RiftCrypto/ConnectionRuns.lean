import Wavry.RiftCrypto.Connection
import Wavry.Lib.Trace

/-! Whole runs of the two sides of a secure connection (`connection.rs`). A
client or a server is driven by any sequence of handshake messages and
received packets, in any order and replayed at will, as a network an attacker
controls would deliver them. Both sides rest on one argument, made once on
`Endpoint`, the part of either side that the end of the handshake and
`decrypt` touch: the ids a side accepts are pairwise distinct, its cipher is
installed once and never replaced, and every packet it accepted opens under
that cipher's receive key at the nonce of the packet's own id. -/
namespace Wavry.RiftCrypto

/-- The packet a `decrypt` call accepted, if it succeeded: its id, the bytes
received and the plaintext. -/
def acceptedPacket {α : Type} (packetId : UInt64) (ciphertext : List UInt8) :
    Except α (List UInt8) → List (UInt64 × List UInt8 × List UInt8)
  | .ok plaintext => [(packetId, ciphertext, plaintext)]
  | .error _ => []

@[simp] theorem acceptedPacket_ok {α : Type} (packetId : UInt64) (ciphertext plaintext : List UInt8) :
    acceptedPacket packetId ciphertext (.ok plaintext : Except α (List UInt8)) =
      [(packetId, ciphertext, plaintext)] :=
  rfl

/-- What the end of the handshake and `decrypt` see of a client or a server:
whether its Noise party is still in its slot, its role, whether it is
established, its cipher and its receive window. -/
structure Endpoint where
  hasParty : Bool
  isInitiator : Bool
  established : Bool
  cipher : Option PacketCipher
  recvWindow : SequenceWindow

namespace Endpoint

/-- What every side keeps, with the set of ids it accepted since its cipher
was installed: the cipher is installed exactly when the side is established,
it was derived from a handshake hash for the side's role and has used up the
Noise party, and the window represents the accepted set, which is empty while
no cipher is. -/
structure Accepting (e : Endpoint) (accepted : Finset ℕ) : Prop where
  cipher_isSome : e.cipher.isSome = e.established
  hasParty_eq_false : e.cipher.isSome → e.hasParty = false
  ofHash : ∀ cipher, e.cipher = some cipher → ∃ hash, cipher = PacketCipher.ofHash hash e.isInitiator
  represents : e.recvWindow.Represents accepted
  empty_of_none : e.cipher = none → accepted = ∅

variable {e e' : Endpoint} {accepted : Finset ℕ}

theorem Accepting.cipher_eq_none (hAcc : e.Accepting accepted) (hParty : e.hasParty = true) :
    e.cipher = none := by
  cases hCipher : e.cipher with
  | none => rfl
  | some cipher =>
      have hNoParty := hAcc.hasParty_eq_false (by rw [hCipher]; rfl)
      rw [hParty] at hNoParty
      cases hNoParty

theorem Accepting.established_eq_false (hAcc : e.Accepting accepted) (hParty : e.hasParty = true) :
    e.established = false := by
  rw [← hAcc.cipher_isSome, hAcc.cipher_eq_none hParty]
  rfl

/-- A handshake message that does not end the handshake keeps the cipher,
still none, and the window. -/
theorem Accepting.pending (hAcc : e.Accepting accepted) (hParty : e.hasParty = true)
    (hCipher : e'.cipher = e.cipher) (hWindow : e'.recvWindow = e.recvWindow)
    (hEstablished : e'.established = false) : e'.Accepting accepted := by
  have hNone : e'.cipher = none := hCipher.trans (hAcc.cipher_eq_none hParty)
  refine ⟨by rw [hNone, hEstablished]; rfl, fun hSome => ?_, fun cipher hSome => ?_,
    hWindow ▸ hAcc.represents, fun _ => hAcc.empty_of_none (hAcc.cipher_eq_none hParty)⟩
  · simp [hNone] at hSome
  · simp [hNone] at hSome

/-- The end of the handshake installs a cipher derived for the side's role,
resets the window and drops the party. -/
theorem Accepting.install (hAcc : e.Accepting accepted) (hParty : e.hasParty = true)
    {hash : Bytes32} (hCipher : e'.cipher = some (PacketCipher.ofHash hash e'.isInitiator))
    (hWindow : e'.recvWindow = e.recvWindow.reset) (hEstablished : e'.established = true)
    (hNoParty : e'.hasParty = false) : e'.Accepting accepted := by
  have hEmpty := hAcc.empty_of_none (hAcc.cipher_eq_none hParty)
  subst hEmpty
  refine ⟨by rw [hCipher, hEstablished]; rfl, fun _ => hNoParty, fun cipher hSome => ⟨hash, ?_⟩,
    hWindow ▸ SequenceWindow.represents_reset _, fun _ => rfl⟩
  rw [hCipher] at hSome
  exact (Option.some.inj hSome).symm

section Steps

variable {ε : Type} (aead : Aead.Scheme Bytes32 (List UInt8) (List UInt8) (List UInt8) ε)

/-- What one call owes a run, from a side accepting `accepted` to `e'`, having
accepted the packets `out`: their ids are pairwise distinct and new, `e'`
accepts them too, an installed cipher stays, and each packet opens under the
receive key at the nonce of its id. -/
structure StepOk (e : Endpoint) (accepted : Finset ℕ) (e' : Endpoint)
    (out : List (UInt64 × List UInt8 × List UInt8)) : Prop where
  nodup : (out.map fun packet => packet.1.toNat).Nodup
  fresh : ∀ packet ∈ out, packet.1.toNat ∉ accepted
  accepting : e'.Accepting (accepted ∪ (out.map fun packet => packet.1.toNat).toFinset)
  cipher_eq : ∀ cipher, e.cipher = some cipher → e'.cipher = some cipher
  opens : ∀ packet ∈ out, ∃ cipher, e'.cipher = some cipher ∧
    aead.decrypt cipher.recvCipher (packetIdToNonce packet.1) packet.2.1 = .ok packet.2.2

variable {aead}

/-- A handshake call accepts no packet. -/
theorem stepOk_nil (hAcc : e'.Accepting accepted)
    (hCipher : ∀ cipher, e.cipher = some cipher → e'.cipher = some cipher) :
    StepOk aead e accepted e' [] :=
  ⟨List.nodup_nil, fun _ h => (nomatch h), by simpa using hAcc, hCipher, fun _ h => (nomatch h)⟩

variable {E : Type} [ToString ε]

/-- `decrypt` accepts a new id and adds it, or changes nothing. -/
theorem stepOk_decryptWith (hAcc : e.Accepting accepted) (packetId : UInt64)
    (ciphertext : List UInt8) :
    StepOk aead e accepted
      { e with recvWindow := (decryptWith (E := E) aead e.recvWindow e.cipher packetId ciphertext).1 }
      (acceptedPacket packetId ciphertext
        (decryptWith (E := E) aead e.recvWindow e.cipher packetId ciphertext).2) := by
  obtain ⟨-, hError, hOk⟩ := decryptWith_spec hAcc.represents
    (Prod.mk.eta (p := decryptWith (E := E) aead e.recvWindow e.cipher packetId ciphertext)).symm
  cases hResult : (decryptWith (E := E) aead e.recvWindow e.cipher packetId ciphertext).2 with
  | error err =>
      rw [hError err hResult]
      exact stepOk_nil hAcc fun _ h => h
  | ok plaintext =>
      obtain ⟨hFresh, hRep, cipher, hCipher, hOpens⟩ := hOk plaintext hResult
      rw [acceptedPacket_ok]
      have hSet : accepted ∪ ([(packetId, ciphertext, plaintext)].map fun packet => packet.1.toNat).toFinset =
          insert packetId.toNat accepted := by
        ext a
        simp [or_comm]
      refine ⟨List.nodup_singleton _, fun packet hPacket => ?_, ?_, fun _ h => h, fun packet hPacket => ?_⟩
      · rw [List.mem_singleton.mp hPacket]
        exact hFresh
      · rw [hSet]
        refine ⟨hAcc.cipher_isSome, hAcc.hasParty_eq_false, hAcc.ofHash, hRep, fun hNone => ?_⟩
        change e.cipher = none at hNone
        simp [hCipher] at hNone
      · rw [List.mem_singleton.mp hPacket]
        exact ⟨cipher, hCipher, hOpens⟩

end Steps

section Runs

variable {ε : Type} {aead : Aead.Scheme Bytes32 (List UInt8) (List UInt8) (List UInt8) ε}
  {S C : Type} (step : S → C → S × List (UInt64 × List UInt8 × List UInt8)) (endpoint : S → Endpoint)
  (hStep : ∀ s accepted call, (endpoint s).Accepting accepted →
    StepOk aead (endpoint s) accepted (endpoint (step s call).1) (step s call).2)
  {s : S}

include hStep

theorem run_accepting {accepted : Finset ℕ} (hStart : (endpoint s).Accepting accepted)
    (calls : List C) : ∃ accepted, (endpoint (Trace.run step s calls).1).Accepting accepted :=
  Trace.run_induction (P := fun s => ∃ accepted, (endpoint s).Accepting accepted)
    (fun s call ⟨_, hAcc⟩ => ⟨_, (hStep s _ call hAcc).accepting⟩) ⟨accepted, hStart⟩ calls

/-- A cipher installed at some point of a run is still there at its end. -/
theorem run_cipher_eq {accepted : Finset ℕ} (hStart : (endpoint s).Accepting accepted)
    {cipher : PacketCipher} (hCipher : (endpoint s).cipher = some cipher) (calls : List C) :
    (endpoint (Trace.run step s calls).1).cipher = some cipher :=
  (Trace.run_induction
    (P := fun s => (∃ accepted, (endpoint s).Accepting accepted) ∧ (endpoint s).cipher = some cipher)
    (fun s call ⟨⟨_, hAcc⟩, hHas⟩ =>
      ⟨⟨_, (hStep s _ call hAcc).accepting⟩, (hStep s _ call hAcc).cipher_eq cipher hHas⟩)
    ⟨⟨accepted, hStart⟩, hCipher⟩ calls).2

/-- Every packet a run accepted opens under the receive key the run ends
with, at the nonce of its id. -/
theorem run_opens {accepted : Finset ℕ} (hStart : (endpoint s).Accepting accepted) (calls : List C) :
    ∀ packet ∈ (Trace.run step s calls).2, ∃ cipher,
      (endpoint (Trace.run step s calls).1).cipher = some cipher ∧
      aead.decrypt cipher.recvCipher (packetIdToNonce packet.1) packet.2.1 = .ok packet.2.2 :=
  Trace.run_outputs (P := fun s => ∃ accepted, (endpoint s).Accepting accepted)
    (Q := fun s (packet : UInt64 × List UInt8 × List UInt8) => ∃ cipher, (endpoint s).cipher = some cipher ∧
      aead.decrypt cipher.recvCipher (packetIdToNonce packet.1) packet.2.1 = .ok packet.2.2)
    (fun s call ⟨_, hAcc⟩ =>
      ⟨⟨_, (hStep s _ call hAcc).accepting⟩, (hStep s _ call hAcc).opens,
        fun _ ⟨cipher, hHas, hOpen⟩ => ⟨cipher, (hStep s _ call hAcc).cipher_eq cipher hHas, hOpen⟩⟩)
    ⟨accepted, hStart⟩ calls

/-- Over any run of a side from an endpoint with nothing accepted: the ids
it accepts are pairwise distinct, its cipher is installed exactly when it is
established, a cipher installed after `first` is still there after `rest`,
and every packet it accepted opens under the final receive key at the nonce
of its id. -/
theorem run_spec (hStart : (endpoint s).Accepting ∅) (first rest : List C) :
    ((Trace.run step s (first ++ rest)).2.map Prod.fst).Nodup ∧
      (endpoint (Trace.run step s (first ++ rest)).1).cipher.isSome =
        (endpoint (Trace.run step s (first ++ rest)).1).established ∧
      (∀ cipher, (endpoint (Trace.run step s first).1).cipher = some cipher →
        (endpoint (Trace.run step s (first ++ rest)).1).cipher = some cipher) ∧
      ∀ packet ∈ (Trace.run step s (first ++ rest)).2, ∃ cipher,
        (endpoint (Trace.run step s (first ++ rest)).1).cipher = some cipher ∧
        aead.decrypt cipher.recvCipher (packetIdToNonce packet.1) packet.2.1 = .ok packet.2.2 := by
  have hNodup : ((Trace.run step s (first ++ rest)).2.map fun packet => packet.1.toNat).Nodup :=
    (Trace.run_nodup (fun s accepted call (hAcc : (endpoint s).Accepting accepted) =>
      ⟨(hStep s accepted call hAcc).nodup, (hStep s accepted call hAcc).fresh,
        (hStep s accepted call hAcc).accepting⟩) hStart (first ++ rest)).1
  obtain ⟨_, hFinal⟩ := run_accepting step endpoint hStep hStart (first ++ rest)
  refine ⟨List.Nodup.of_map UInt64.toNat (by rwa [List.map_map]), hFinal.cipher_isSome,
    fun cipher hCipher => ?_, run_opens step endpoint hStep hStart (first ++ rest)⟩
  obtain ⟨_, hFirst⟩ := run_accepting step endpoint hStep hStart first
  rw [Trace.run_append]
  exact run_cipher_eq step endpoint hStep hFirst hCipher rest

end Runs

end Endpoint

/-! ## The client -/

/-- The calls that change a client: `encrypt` does not. -/
inductive ClientCall where
  | startHandshake
  | processServerResponse (data : List UInt8)
  | decrypt (packetId : UInt64) (ciphertext : List UInt8)

namespace SecureClient

section Run

variable {H T E ε : Type} [ToString ε] (snow : Snow H T E)
  (aead : Aead.Scheme Bytes32 (List UInt8) (List UInt8) (List UInt8) ε)

/-- One call, and the packet `decrypt` accepted if it succeeded. -/
def step (c : SecureClient H T) : ClientCall → SecureClient H T × List (UInt64 × List UInt8 × List UInt8)
  | .startHandshake => ((c.startHandshake snow).1, [])
  | .processServerResponse data => ((c.processServerResponse snow data).1, [])
  | .decrypt packetId ciphertext =>
      let (c', result) := c.decrypt (E := E) aead packetId ciphertext
      (c', acceptedPacket packetId ciphertext result)

/-- A run of calls: the client it leaves, and the packets `decrypt` accepted,
in order. -/
def run (c : SecureClient H T) (calls : List ClientCall) :
    SecureClient H T × List (UInt64 × List UInt8 × List UInt8) :=
  Trace.run (step snow aead) c calls

end Run

variable {H T E ε : Type} [ToString ε] {snow : Snow H T E}
  {aead : Aead.Scheme Bytes32 (List UInt8) (List UInt8) (List UInt8) ε}

/-- A client is the initiator's endpoint. -/
@[simps]
def endpoint (c : SecureClient H T) : Endpoint :=
  ⟨c.initiator.isSome, true, c.isEstablished, c.cipher, c.recvWindow⟩

/-- `start_handshake` leaves a client without an initiator alone, and
otherwise touches neither its cipher nor its window. -/
theorem startHandshake_cases {c c' : SecureClient H T} (h : (c.startHandshake snow).1 = c') :
    c' = c ∨
      c.initiator.isSome ∧ c'.cipher = c.cipher ∧ c'.recvWindow = c.recvWindow ∧
        (c'.state = c.state ∨ c'.state = .sentMsg1) := by
  unfold startHandshake at h
  rcases hInitiator : c.initiator with _ | initiator
  · rw [hInitiator] at h
    exact .inl h.symm
  · rw [hInitiator] at h
    dsimp only at h
    rcases hWrite : initiator.writeMessage1 snow with ⟨initiator', _ | msg⟩
    · rw [hWrite] at h
      subst h
      exact .inr ⟨rfl, rfl, rfl, .inl rfl⟩
    · rw [hWrite] at h
      subst h
      exact .inr ⟨rfl, rfl, rfl, .inr rfl⟩

/-- `process_server_response` leaves a client without an initiator alone; a
failure touches neither its cipher nor its window, and a success installs the
initiator's cipher of the session's hash, resets the window, completes and
drops the initiator. -/
theorem processServerResponse_cases {c c' : SecureClient H T} {data : List UInt8}
    (h : (c.processServerResponse snow data).1 = c') :
    c' = c ∨
      c.initiator.isSome ∧
        ((c'.cipher = c.cipher ∧ c'.recvWindow = c.recvWindow ∧
            (c'.state = c.state ∨ c'.state = .receivedMsg2)) ∨
          (∃ hash, c'.cipher = some (PacketCipher.ofHash hash true) ∧
            c'.recvWindow = c.recvWindow.reset ∧ c'.state = .complete ∧ c'.initiator = none)) := by
  unfold processServerResponse at h
  rcases hInitiator : c.initiator with _ | initiator
  · rw [hInitiator] at h
    exact .inl h.symm
  · rw [hInitiator] at h
    dsimp only at h
    refine .inr ⟨rfl, ?_⟩
    rcases hRead : initiator.readMessage2 snow data with ⟨initiator, _ | _⟩
    · rw [hRead] at h
      subst h
      exact .inl ⟨rfl, rfl, .inl rfl⟩
    · rw [hRead] at h
      dsimp only at h
      rcases hWrite : initiator.writeMessage3 snow [] with ⟨initiator, _ | msg3⟩
      · rw [hWrite] at h
        subst h
        exact .inl ⟨rfl, rfl, .inr rfl⟩
      · rw [hWrite] at h
        dsimp only at h
        rcases hSession : NoiseInitiator.intoSession initiator with _ | session
        · rw [hSession] at h
          subst h
          exact .inl ⟨rfl, rfl, .inr rfl⟩
        · rw [hSession] at h
          dsimp only at h
          rw [PacketCipher.fromSession_eq] at h
          subst h
          exact .inr ⟨_, rfl, rfl, rfl, rfl⟩

variable {c : SecureClient H T} {accepted : Finset ℕ}

theorem accepting_startHandshake (hAcc : c.endpoint.Accepting accepted) :
    (c.startHandshake snow).1.endpoint.Accepting accepted := by
  rcases startHandshake_cases (rfl : (c.startHandshake snow).1 = _) with
    hSame | ⟨hSome, hCipher, hWindow, hState⟩
  · rw [hSame]
    exact hAcc
  · refine hAcc.pending hSome hCipher hWindow ?_
    rcases hState with hState | hState <;> rw [endpoint_established, isEstablished, hState]
    · exact hAcc.established_eq_false hSome
    · rfl

theorem accepting_processServerResponse (hAcc : c.endpoint.Accepting accepted) (data : List UInt8) :
    (c.processServerResponse snow data).1.endpoint.Accepting accepted := by
  rcases processServerResponse_cases (rfl : (c.processServerResponse snow data).1 = _) with
    hSame | ⟨hSome, ⟨hCipher, hWindow, hState⟩ | ⟨hash, hCipher, hWindow, hState, hInitiator⟩⟩
  · rw [hSame]
    exact hAcc
  · refine hAcc.pending hSome hCipher hWindow ?_
    rcases hState with hState | hState <;> rw [endpoint_established, isEstablished, hState]
    · exact hAcc.established_eq_false hSome
    · rfl
  · refine hAcc.install hSome hCipher hWindow ?_ (by rw [endpoint_hasParty, hInitiator]; rfl)
    rw [endpoint_established, isEstablished, hState]
    rfl

/-- Every call from an accepting client does what a run needs of it. -/
theorem stepOk (hAcc : c.endpoint.Accepting accepted) (call : ClientCall) :
    Endpoint.StepOk aead c.endpoint accepted (c.step snow aead call).1.endpoint (c.step snow aead call).2 := by
  cases call with
  | startHandshake =>
      refine Endpoint.stepOk_nil (accepting_startHandshake hAcc) fun cipher hCipher => ?_
      change (c.startHandshake snow).1.cipher = some cipher
      rcases startHandshake_cases (rfl : (c.startHandshake snow).1 = _) with hSame | ⟨-, hSame, -⟩
      · rw [hSame]
        exact hCipher
      · rw [hSame]
        exact hCipher
  | processServerResponse data =>
      refine Endpoint.stepOk_nil (accepting_processServerResponse hAcc data) fun cipher hCipher => ?_
      change (c.processServerResponse snow data).1.cipher = some cipher
      rcases processServerResponse_cases (rfl : (c.processServerResponse snow data).1 = _) with
        hSame | ⟨hSome, -⟩
      · rw [hSame]
        exact hCipher
      · have hNoParty := hAcc.hasParty_eq_false (by rw [hCipher]; rfl)
        rw [endpoint_hasParty, hSome] at hNoParty
        cases hNoParty
  | decrypt packetId ciphertext => exact Endpoint.stepOk_decryptWith hAcc packetId ciphertext

theorem accepting_new (initiator : NoiseInitiator H T) : (new initiator).endpoint.Accepting ∅ :=
  ⟨rfl, fun h => (nomatch h), fun _ h => (nomatch h), SequenceWindow.represents_new, fun _ => rfl⟩

theorem run_accepting (snow : Snow H T E)
    (aead : Aead.Scheme Bytes32 (List UInt8) (List UInt8) (List UInt8) ε) (initiator : NoiseInitiator H T)
    (calls : List ClientCall) : ∃ accepted, ((new initiator).run snow aead calls).1.endpoint.Accepting accepted :=
  Endpoint.run_accepting (step snow aead) endpoint (fun _ _ call hAcc => stepOk hAcc call)
    (accepting_new initiator) calls

/-- A cipher a run installed was derived from a handshake hash for the initiator. -/
theorem cipher_ofHash (snow : Snow H T E)
    (aead : Aead.Scheme Bytes32 (List UInt8) (List UInt8) (List UInt8) ε) (initiator : NoiseInitiator H T)
    (calls : List ClientCall) {cipher : PacketCipher}
    (hCipher : ((new initiator).run snow aead calls).1.cipher = some cipher) :
    ∃ hash, cipher = PacketCipher.ofHash hash true := by
  obtain ⟨_, hAcc⟩ := run_accepting snow aead initiator calls
  exact hAcc.ofHash cipher hCipher

/-- Every packet a run accepted opens under the receive key it ends with. -/
theorem opens_of_cipher (initiator : NoiseInitiator H T) (calls : List ClientCall) {cipher : PacketCipher}
    (hCipher : ((new initiator).run snow aead calls).1.cipher = some cipher) :
    ∀ packet ∈ ((new initiator).run snow aead calls).2,
      aead.decrypt cipher.recvCipher (packetIdToNonce packet.1) packet.2.1 = .ok packet.2.2 := by
  intro packet hPacket
  obtain ⟨cipher', hCipher', hOpens⟩ := Endpoint.run_opens (step snow aead) endpoint
    (fun _ _ call hAcc => stepOk hAcc call) (accepting_new initiator) calls packet hPacket
  have hSame : cipher' = cipher := Option.some.inj (hCipher'.symm.trans hCipher)
  rw [← hSame]
  exact hOpens

/-- From `new`, over any run of handshake messages and packets, replayed
handshake messages included: the packets `decrypt` accepts have pairwise
distinct ids, the cipher is installed exactly when the client is established,
once installed it is never replaced, and every accepted packet opens under
the client's receive key at the nonce of its id. -/
theorem client_run (initiator : NoiseInitiator H T) (first rest : List ClientCall) :
    (((new initiator).run snow aead (first ++ rest)).2.map Prod.fst).Nodup ∧
      ((new initiator).run snow aead (first ++ rest)).1.cipher.isSome =
        ((new initiator).run snow aead (first ++ rest)).1.isEstablished ∧
      (∀ cipher, ((new initiator).run snow aead first).1.cipher = some cipher →
        ((new initiator).run snow aead (first ++ rest)).1.cipher = some cipher) ∧
      ∀ packet ∈ ((new initiator).run snow aead (first ++ rest)).2, ∃ cipher,
        ((new initiator).run snow aead (first ++ rest)).1.cipher = some cipher ∧
        aead.decrypt cipher.recvCipher (packetIdToNonce packet.1) packet.2.1 = .ok packet.2.2 :=
  Endpoint.run_spec (step snow aead) endpoint (fun _ _ call hAcc => stepOk hAcc call)
    (accepting_new initiator) first rest

end SecureClient

/-! ## The server -/

/-- The calls that change a server. -/
inductive ServerCall where
  | processClientHello (data : List UInt8)
  | processClientFinish (data : List UInt8)
  | decrypt (packetId : UInt64) (ciphertext : List UInt8)

namespace SecureServer

section Run

variable {H T E ε : Type} [ToString ε] (snow : Snow H T E)
  (aead : Aead.Scheme Bytes32 (List UInt8) (List UInt8) (List UInt8) ε)

/-- One call, and the packet `decrypt` accepted if it succeeded. -/
def step (s : SecureServer H T) : ServerCall → SecureServer H T × List (UInt64 × List UInt8 × List UInt8)
  | .processClientHello data => ((s.processClientHello snow data).1, [])
  | .processClientFinish data => ((s.processClientFinish snow data).1, [])
  | .decrypt packetId ciphertext =>
      let (s', result) := s.decrypt (E := E) aead packetId ciphertext
      (s', acceptedPacket packetId ciphertext result)

/-- A run of calls: the server it leaves, and the packets `decrypt` accepted,
in order. -/
def run (s : SecureServer H T) (calls : List ServerCall) :
    SecureServer H T × List (UInt64 × List UInt8 × List UInt8) :=
  Trace.run (step snow aead) s calls

end Run

variable {H T E ε : Type} [ToString ε] {snow : Snow H T E}
  {aead : Aead.Scheme Bytes32 (List UInt8) (List UInt8) (List UInt8) ε}

/-- A server is the responder's endpoint. -/
@[simps]
def endpoint (s : SecureServer H T) : Endpoint :=
  ⟨s.responder.isSome, false, s.isEstablished, s.cipher, s.recvWindow⟩

/-- `process_client_hello` leaves a server without a responder alone, and
otherwise touches neither its cipher nor its window. -/
theorem processClientHello_cases {s s' : SecureServer H T} {data : List UInt8}
    (h : (s.processClientHello snow data).1 = s') :
    s' = s ∨
      s.responder.isSome ∧ s'.cipher = s.cipher ∧ s'.recvWindow = s.recvWindow ∧
        (s'.state = s.state ∨ s'.state = .sentMsg2) := by
  unfold processClientHello at h
  rcases hResponder : s.responder with _ | responder
  · rw [hResponder] at h
    exact .inl h.symm
  · rw [hResponder] at h
    dsimp only at h
    refine .inr ⟨rfl, ?_⟩
    rcases hRead : responder.readMessage1 snow data with ⟨responder, _ | _⟩
    · rw [hRead] at h
      subst h
      exact ⟨rfl, rfl, .inl rfl⟩
    · rw [hRead] at h
      dsimp only at h
      rcases hWrite : responder.writeMessage2 snow [] with ⟨responder, _ | msg2⟩
      · rw [hWrite] at h
        subst h
        exact ⟨rfl, rfl, .inl rfl⟩
      · rw [hWrite] at h
        subst h
        exact ⟨rfl, rfl, .inr rfl⟩

/-- `process_client_finish` leaves a server without a responder alone; a
failure touches neither its cipher, its window nor its state, and a success
installs the responder's cipher of the session's hash, resets the window,
completes and drops the responder. -/
theorem processClientFinish_cases {s s' : SecureServer H T} {data : List UInt8}
    (h : (s.processClientFinish snow data).1 = s') :
    s' = s ∨
      s.responder.isSome ∧
        ((s'.cipher = s.cipher ∧ s'.recvWindow = s.recvWindow ∧ s'.state = s.state) ∨
          (∃ hash, s'.cipher = some (PacketCipher.ofHash hash false) ∧
            s'.recvWindow = s.recvWindow.reset ∧ s'.state = .complete ∧ s'.responder = none)) := by
  unfold processClientFinish at h
  rcases hResponder : s.responder with _ | responder
  · rw [hResponder] at h
    exact .inl h.symm
  · rw [hResponder] at h
    dsimp only at h
    refine .inr ⟨rfl, ?_⟩
    rcases hRead : responder.readMessage3 snow data with ⟨responder, _ | _⟩
    · rw [hRead] at h
      subst h
      exact .inl ⟨rfl, rfl, rfl⟩
    · rw [hRead] at h
      dsimp only at h
      rcases hSession : NoiseResponder.intoSession responder with _ | session
      · rw [hSession] at h
        subst h
        exact .inl ⟨rfl, rfl, rfl⟩
      · rw [hSession] at h
        dsimp only at h
        rw [PacketCipher.fromSession_eq] at h
        subst h
        exact .inr ⟨_, rfl, rfl, rfl, rfl⟩

variable {s : SecureServer H T} {accepted : Finset ℕ}

theorem accepting_processClientHello (hAcc : s.endpoint.Accepting accepted) (data : List UInt8) :
    (s.processClientHello snow data).1.endpoint.Accepting accepted := by
  rcases processClientHello_cases (rfl : (s.processClientHello snow data).1 = _) with
    hSame | ⟨hSome, hCipher, hWindow, hState⟩
  · rw [hSame]
    exact hAcc
  · refine hAcc.pending hSome hCipher hWindow ?_
    rcases hState with hState | hState <;> rw [endpoint_established, isEstablished, hState]
    · exact hAcc.established_eq_false hSome
    · rfl

theorem accepting_processClientFinish (hAcc : s.endpoint.Accepting accepted) (data : List UInt8) :
    (s.processClientFinish snow data).1.endpoint.Accepting accepted := by
  rcases processClientFinish_cases (rfl : (s.processClientFinish snow data).1 = _) with
    hSame | ⟨hSome, ⟨hCipher, hWindow, hState⟩ | ⟨hash, hCipher, hWindow, hState, hResponder⟩⟩
  · rw [hSame]
    exact hAcc
  · refine hAcc.pending hSome hCipher hWindow ?_
    rw [endpoint_established, isEstablished, hState]
    exact hAcc.established_eq_false hSome
  · refine hAcc.install hSome hCipher hWindow ?_ (by rw [endpoint_hasParty, hResponder]; rfl)
    rw [endpoint_established, isEstablished, hState]
    rfl

/-- Every call from an accepting server does what a run needs of it. -/
theorem stepOk (hAcc : s.endpoint.Accepting accepted) (call : ServerCall) :
    Endpoint.StepOk aead s.endpoint accepted (s.step snow aead call).1.endpoint (s.step snow aead call).2 := by
  cases call with
  | processClientHello data =>
      refine Endpoint.stepOk_nil (accepting_processClientHello hAcc data) fun cipher hCipher => ?_
      change (s.processClientHello snow data).1.cipher = some cipher
      rcases processClientHello_cases (rfl : (s.processClientHello snow data).1 = _) with
        hSame | ⟨-, hSame, -⟩
      · rw [hSame]
        exact hCipher
      · rw [hSame]
        exact hCipher
  | processClientFinish data =>
      refine Endpoint.stepOk_nil (accepting_processClientFinish hAcc data) fun cipher hCipher => ?_
      change (s.processClientFinish snow data).1.cipher = some cipher
      rcases processClientFinish_cases (rfl : (s.processClientFinish snow data).1 = _) with
        hSame | ⟨hSome, -⟩
      · rw [hSame]
        exact hCipher
      · have hNoParty := hAcc.hasParty_eq_false (by rw [hCipher]; rfl)
        rw [endpoint_hasParty, hSome] at hNoParty
        cases hNoParty
  | decrypt packetId ciphertext => exact Endpoint.stepOk_decryptWith hAcc packetId ciphertext

theorem accepting_new (responder : NoiseResponder H T) : (new responder).endpoint.Accepting ∅ :=
  ⟨rfl, fun h => (nomatch h), fun _ h => (nomatch h), SequenceWindow.represents_new, fun _ => rfl⟩

theorem run_accepting (snow : Snow H T E)
    (aead : Aead.Scheme Bytes32 (List UInt8) (List UInt8) (List UInt8) ε) (responder : NoiseResponder H T)
    (calls : List ServerCall) : ∃ accepted, ((new responder).run snow aead calls).1.endpoint.Accepting accepted :=
  Endpoint.run_accepting (step snow aead) endpoint (fun _ _ call hAcc => stepOk hAcc call)
    (accepting_new responder) calls

/-- A cipher a run installed was derived from a handshake hash for the responder. -/
theorem cipher_ofHash (snow : Snow H T E)
    (aead : Aead.Scheme Bytes32 (List UInt8) (List UInt8) (List UInt8) ε) (responder : NoiseResponder H T)
    (calls : List ServerCall) {cipher : PacketCipher}
    (hCipher : ((new responder).run snow aead calls).1.cipher = some cipher) :
    ∃ hash, cipher = PacketCipher.ofHash hash false := by
  obtain ⟨_, hAcc⟩ := run_accepting snow aead responder calls
  exact hAcc.ofHash cipher hCipher

/-- Every packet a run accepted opens under the receive key it ends with. -/
theorem opens_of_cipher (responder : NoiseResponder H T) (calls : List ServerCall) {cipher : PacketCipher}
    (hCipher : ((new responder).run snow aead calls).1.cipher = some cipher) :
    ∀ packet ∈ ((new responder).run snow aead calls).2,
      aead.decrypt cipher.recvCipher (packetIdToNonce packet.1) packet.2.1 = .ok packet.2.2 := by
  intro packet hPacket
  obtain ⟨cipher', hCipher', hOpens⟩ := Endpoint.run_opens (step snow aead) endpoint
    (fun _ _ call hAcc => stepOk hAcc call) (accepting_new responder) calls packet hPacket
  have hSame : cipher' = cipher := Option.some.inj (hCipher'.symm.trans hCipher)
  rw [← hSame]
  exact hOpens

/-- From `new`, over any run of handshake messages and packets, replayed
handshake messages included: the packets `decrypt` accepts have pairwise
distinct ids, the cipher is installed exactly when the server is established,
once installed it is never replaced, and every accepted packet opens under
the server's receive key at the nonce of its id. -/
theorem server_run (responder : NoiseResponder H T) (first rest : List ServerCall) :
    (((new responder).run snow aead (first ++ rest)).2.map Prod.fst).Nodup ∧
      ((new responder).run snow aead (first ++ rest)).1.cipher.isSome =
        ((new responder).run snow aead (first ++ rest)).1.isEstablished ∧
      (∀ cipher, ((new responder).run snow aead first).1.cipher = some cipher →
        ((new responder).run snow aead (first ++ rest)).1.cipher = some cipher) ∧
      ∀ packet ∈ ((new responder).run snow aead (first ++ rest)).2, ∃ cipher,
        ((new responder).run snow aead (first ++ rest)).1.cipher = some cipher ∧
        aead.decrypt cipher.recvCipher (packetIdToNonce packet.1) packet.2.1 = .ok packet.2.2 :=
  Endpoint.run_spec (step snow aead) endpoint (fun _ _ call hAcc => stepOk hAcc call)
    (accepting_new responder) first rest

end SecureServer

/-! ## Both sides

A client and a server share no state: each changes only through its own
calls, so every interleaving of the two, with the network delivering,
dropping, replaying or forging what it likes, is a client run and a server
run. The handshake hash is public, so an eavesdropper can derive both keys;
what the keys do give is the direction and the id a packet was made for. -/

section Both

variable {H T E ε : Type} [ToString ε] {snow : Snow H T E}
  {aead : Aead.Scheme Bytes32 (List UInt8) (List UInt8) (List UInt8) ε}

/-- Two ciphers derived for the two roles, whose keys agree in one direction,
agree in the other. -/
theorem recvCipher_eq_of_sendCipher_eq {clientHash serverHash : Bytes32}
    (hAgree : (PacketCipher.ofHash clientHash true).sendCipher =
      (PacketCipher.ofHash serverHash false).recvCipher) :
    (PacketCipher.ofHash clientHash true).recvCipher = (PacketCipher.ofHash serverHash false).sendCipher := by
  rw [(PacketCipher.ofHash_keys clientHash).1, (PacketCipher.ofHash_keys serverHash).2, hAgree]

/-- Over a client run and a server run that both end established, with the
client's send key the server's receive key: the client's receive key is the
server's send key, and every packet either side accepted opens under the
other side's send key at the nonce of its id. -/
theorem connection_keys (initiator : NoiseInitiator H T) (responder : NoiseResponder H T)
    (clientCalls : List ClientCall) (serverCalls : List ServerCall) {clientCipher serverCipher : PacketCipher}
    (hClient : ((SecureClient.new initiator).run snow aead clientCalls).1.cipher = some clientCipher)
    (hServer : ((SecureServer.new responder).run snow aead serverCalls).1.cipher = some serverCipher)
    (hAgree : clientCipher.sendCipher = serverCipher.recvCipher) :
    clientCipher.recvCipher = serverCipher.sendCipher ∧
      (∀ packet ∈ ((SecureServer.new responder).run snow aead serverCalls).2,
        aead.decrypt clientCipher.sendCipher (packetIdToNonce packet.1) packet.2.1 = .ok packet.2.2) ∧
      ∀ packet ∈ ((SecureClient.new initiator).run snow aead clientCalls).2,
        aead.decrypt serverCipher.sendCipher (packetIdToNonce packet.1) packet.2.1 = .ok packet.2.2 := by
  obtain ⟨clientHash, rfl⟩ := SecureClient.cipher_ofHash snow aead initiator clientCalls hClient
  obtain ⟨serverHash, rfl⟩ := SecureServer.cipher_ofHash snow aead responder serverCalls hServer
  have hRecv := recvCipher_eq_of_sendCipher_eq hAgree
  refine ⟨hRecv, fun packet hPacket => ?_, fun packet hPacket => ?_⟩
  · rw [hAgree]
    exact SecureServer.opens_of_cipher responder serverCalls hServer packet hPacket
  · rw [← hRecv]
    exact SecureClient.opens_of_cipher initiator clientCalls hClient packet hPacket

/-- For a canonical AEAD, over a client run and a server run that both end
established with agreeing keys: every packet one side accepted is exactly
what the other side's `encrypt` makes of its id and its plaintext. -/
theorem connection_integrity (hCanonical : aead.Canonical) (initiator : NoiseInitiator H T)
    (responder : NoiseResponder H T) (clientCalls : List ClientCall) (serverCalls : List ServerCall)
    {clientCipher serverCipher : PacketCipher}
    (hClient : ((SecureClient.new initiator).run snow aead clientCalls).1.cipher = some clientCipher)
    (hServer : ((SecureServer.new responder).run snow aead serverCalls).1.cipher = some serverCipher)
    (hAgree : clientCipher.sendCipher = serverCipher.recvCipher) :
    (∀ packet ∈ ((SecureServer.new responder).run snow aead serverCalls).2,
      ((SecureClient.new initiator).run snow aead clientCalls).1.encrypt (E := E) aead packet.1 packet.2.2 =
        .ok packet.2.1) ∧
      ∀ packet ∈ ((SecureClient.new initiator).run snow aead clientCalls).2,
        ((SecureServer.new responder).run snow aead serverCalls).1.encrypt (E := E) aead packet.1
          packet.2.2 = .ok packet.2.1 := by
  obtain ⟨clientHash, rfl⟩ := SecureClient.cipher_ofHash snow aead initiator clientCalls hClient
  obtain ⟨serverHash, rfl⟩ := SecureServer.cipher_ofHash snow aead responder serverCalls hServer
  have hRecv := recvCipher_eq_of_sendCipher_eq hAgree
  refine ⟨fun packet hPacket => ?_, fun packet hPacket => ?_⟩
  · have hOpens := SecureServer.opens_of_cipher responder serverCalls hServer packet hPacket
    rw [← hAgree] at hOpens
    rw [SecureClient.encrypt, hClient]
    exact PacketCipher.encrypt_eq_ok.mpr (hCanonical.encrypt_of_decrypt hOpens)
  · have hOpens := SecureClient.opens_of_cipher initiator clientCalls hClient packet hPacket
    rw [hRecv] at hOpens
    rw [SecureServer.encrypt, hServer]
    exact PacketCipher.encrypt_eq_ok.mpr (hCanonical.encrypt_of_decrypt hOpens)

end Both

/-! ## A handshake with one packet each way -/

/-- The client's calls: the handshake, then the server's first packet. -/
def echoClientCalls : List ClientCall :=
  [.startHandshake, .processServerResponse [],
    .decrypt 1 ((PacketCipher.ofHash zeroHash false).sendCipher.bytes ++ packetIdToNonce 1 ++ [2])]

/-- The server's calls: the handshake, then the client's first packet. -/
def echoServerCalls : List ServerCall :=
  [.processClientHello [], .processClientFinish [],
    .decrypt 1 ((PacketCipher.ofHash zeroHash true).sendCipher.bytes ++ packetIdToNonce 1 ++ [1])]

theorem echoClient_cipher :
    ((SecureClient.new (NoiseInitiator.new ())).run NoiseParty.echoSnow prefixAead echoClientCalls).1.cipher =
      some (PacketCipher.ofHash zeroHash true) := by
  decide +kernel

theorem echoServer_cipher :
    ((SecureServer.new (NoiseResponder.new ())).run NoiseParty.echoSnow prefixAead echoServerCalls).1.cipher =
      some (PacketCipher.ofHash zeroHash false) := by
  decide +kernel

/-- Both sides of the echo handshake establish, and their keys pair up. -/
theorem connection_keys_echo :
    ((SecureClient.new (NoiseInitiator.new ())).run NoiseParty.echoSnow prefixAead echoClientCalls).1.cipher =
        some (PacketCipher.ofHash zeroHash true) ∧
      ((SecureServer.new (NoiseResponder.new ())).run NoiseParty.echoSnow prefixAead echoServerCalls).1.cipher =
        some (PacketCipher.ofHash zeroHash false) ∧
      (PacketCipher.ofHash zeroHash true).recvCipher = (PacketCipher.ofHash zeroHash false).sendCipher :=
  ⟨echoClient_cipher, echoServer_cipher,
    (connection_keys _ _ _ _ echoClient_cipher echoServer_cipher rfl).1⟩

/-- Each side's one accepted packet is what the other side's `encrypt` makes
of it. -/
theorem connection_integrity_echo :
    (∀ packet ∈ ((SecureServer.new (NoiseResponder.new ())).run NoiseParty.echoSnow prefixAead
        echoServerCalls).2,
      ((SecureClient.new (NoiseInitiator.new ())).run NoiseParty.echoSnow prefixAead echoClientCalls).1.encrypt
        (E := Unit) prefixAead packet.1 packet.2.2 = .ok packet.2.1) ∧
      ∀ packet ∈ ((SecureClient.new (NoiseInitiator.new ())).run NoiseParty.echoSnow prefixAead
          echoClientCalls).2,
        ((SecureServer.new (NoiseResponder.new ())).run NoiseParty.echoSnow prefixAead echoServerCalls).1.encrypt
          (E := Unit) prefixAead packet.1 packet.2.2 = .ok packet.2.1 :=
  connection_integrity prefixAead_canonical _ _ _ _ echoClient_cipher echoServer_cipher rfl

end Wavry.RiftCrypto
