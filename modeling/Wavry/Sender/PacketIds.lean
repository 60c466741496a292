import Wavry.RiftCore.Fec
import Wavry.RiftCore.Packet

/-! Transport packet ids of the two senders. The desktop host runs its video
loop and a spawned audio task, each counting packet ids from 1 on a counter of
its own, and sends every FEC parity packet under id 0. `wavry-server` draws
every id of a peer from the one counter in its `PeerState`. An interleaving of
the host's two tasks is a list of events, one per step of either task. -/
namespace Wavry.Sender

open Wavry.RiftCore

/-! ## The desktop host -/

/-- What a transport packet sent by the host carries. -/
inductive Kind where
  | video
  | audio
  | fec
  deriving DecidableEq, Repr

/-- The `FecBuilder::new(20).unwrap()` of the video loop. -/
def initialFecBuilder : FecBuilder := ⟨20, 0, none, [], [], 0, by decide⟩

example : FecBuilder.new 20 = .ok initialFecBuilder := rfl

/-- The sending state of the host: the video loop's `packet_id_counter` and
FEC builder, the audio task's `packet_id_counter`, and the packets sent so
far with their ids. -/
structure HostState where
  videoPacketId : UInt64
  audioPacketId : UInt64
  fecBuilder : FecBuilder
  sent : List (UInt64 × Kind)

/-- A step of either task. `newFecBuilder` is the video loop replacing its
builder when the congestion controller's FEC ratio moves. -/
inductive HostEvent where
  | videoChunk (payload : List UInt8)
  | audioFrame
  | newFecBuilder (shardCount : UInt32)

namespace HostState

/-- Both counters start at 1 when the client connects. -/
def init : HostState := ⟨1, 1, initialFecBuilder, []⟩

/-- One step. A video chunk takes the video counter's id and goes into the
FEC builder under it; a completed group's parity packet goes out with id 0.
An audio frame takes the audio counter's id. Counters wrap as in a release
build. -/
def step (s : HostState) : HostEvent → HostState
  | .videoChunk payload =>
      let (fecBuilder, parity) := s.fecBuilder.push s.videoPacketId payload
      { s with
        videoPacketId := s.videoPacketId + 1
        fecBuilder := fecBuilder
        sent := s.sent ++ [(s.videoPacketId, .video)] ++
          match parity with
          | some _ => [(0, .fec)]
          | none => [] }
  | .audioFrame =>
      { s with audioPacketId := s.audioPacketId + 1, sent := s.sent ++ [(s.audioPacketId, .audio)] }
  | .newFecBuilder shardCount =>
      match FecBuilder.new shardCount with
      | .ok fecBuilder => { s with fecBuilder := fecBuilder }
      | .error _ => s

/-- The state after an interleaving of steps. -/
def run (s : HostState) (events : List HostEvent) : HostState := events.foldl step s

@[simp] theorem run_cons (s : HostState) (event : HostEvent) (events : List HostEvent) :
    s.run (event :: events) = (s.step event).run events := rfl

/-- Replacing the FEC builder touches nothing else. -/
theorem step_newFecBuilder (s : HostState) (shardCount : UInt32) :
    ∃ fecBuilder, s.step (.newFecBuilder shardCount) = { s with fecBuilder := fecBuilder } := by
  cases hNew : FecBuilder.new shardCount with
  | ok fecBuilder => exact ⟨fecBuilder, by simp [step, hNew]⟩
  | error e => exact ⟨s.fecBuilder, by simp [step, hNew]⟩

theorem sent_prefix_step (s : HostState) (event : HostEvent) : s.sent <+: (s.step event).sent := by
  cases event with
  | videoChunk payload => simp [step, List.append_assoc]
  | audioFrame => simp [step]
  | newFecBuilder shardCount =>
      obtain ⟨fecBuilder, hStep⟩ := step_newFecBuilder s shardCount
      rw [hStep]

theorem sent_prefix_run (s : HostState) (events : List HostEvent) : s.sent <+: (s.run events).sent := by
  induction events generalizing s with
  | nil => exact List.prefix_refl _
  | cons event events ih => exact (sent_prefix_step s event).trans (ih _)

/-- The first video chunk of a run goes out under the video counter's value. -/
theorem mem_sent_video (s : HostState) (events : List HostEvent) (payload : List UInt8)
    (h : .videoChunk payload ∈ events) : (s.videoPacketId, Kind.video) ∈ (s.run events).sent := by
  induction events generalizing s with
  | nil => cases h
  | cons event events ih =>
      cases event with
      | videoChunk first =>
          apply (sent_prefix_run _ events).subset
          simp [step]
      | audioFrame =>
          have hIn : HostEvent.videoChunk payload ∈ events := by simpa using h
          exact ih _ hIn
      | newFecBuilder shardCount =>
          have hIn : HostEvent.videoChunk payload ∈ events := by simpa using h
          obtain ⟨fecBuilder, hStep⟩ := step_newFecBuilder s shardCount
          have hRun := ih (s.step (.newFecBuilder shardCount)) hIn
          rw [run_cons, hStep]
          rwa [hStep] at hRun

/-- The first audio frame of a run goes out under the audio counter's value. -/
theorem mem_sent_audio (s : HostState) (events : List HostEvent) (h : .audioFrame ∈ events) :
    (s.audioPacketId, Kind.audio) ∈ (s.run events).sent := by
  induction events generalizing s with
  | nil => cases h
  | cons event events ih =>
      cases event with
      | audioFrame =>
          apply (sent_prefix_run _ events).subset
          simp [step]
      | videoChunk payload =>
          exact ih _ (by simpa using h)
      | newFecBuilder shardCount =>
          obtain ⟨fecBuilder, hStep⟩ := step_newFecBuilder s shardCount
          have hRun := ih (s.step (.newFecBuilder shardCount)) (by simpa using h)
          rw [run_cons, hStep]
          rwa [hStep] at hRun

/-- The first audio frame and the first video chunk after the client connects. -/
theorem run_audio_then_video :
    (init.run [.audioFrame, .videoChunk [7]]).sent = [(1, .audio), (1, .video)] := by
  decide

end HostState

/-! ## `wavry-server` -/

/-- The crypto state of a peer, as far as sending looks at it. -/
inductive CryptoState where
  | disabled
  | handshaking
  | established
  deriving DecidableEq, Repr

/-- What `send_rift_msg` reads and writes of a `PeerState`. -/
structure PeerState where
  crypto : CryptoState
  sessionAlias : UInt32
  nextPacketId : UInt64

namespace PeerState

/-- `send_rift_msg`: the id is taken, and the counter advanced, before the
payload is encrypted; `encrypt` is the established session's cipher. -/
def sendRiftMsg (encrypt : UInt64 → List UInt8 → Except String (List UInt8)) (p : PeerState)
    (plaintext : List UInt8) : PeerState × Except String PhysicalPacket :=
  let packetId := p.nextPacketId
  let p := { p with nextPacketId := p.nextPacketId + 1 }
  let payload : Except String (List UInt8) :=
    match p.crypto with
    | .disabled => .ok plaintext
    | .established => (encrypt packetId plaintext).mapError fun e => "Encrypt failed: " ++ e
    | .handshaking => .error "cannot send RIFT msg during handshake"
  (p, payload.map fun payload =>
    { version := riftVersion, sessionId := none, sessionAlias := some p.sessionAlias,
      packetId := packetId, payload := payload })

/-- The packets of a run of sends, the failed ones left out. -/
def sendAll (encrypt : UInt64 → List UInt8 → Except String (List UInt8)) :
    PeerState → List (List UInt8) → List PhysicalPacket
  | _, [] => []
  | p, plaintext :: rest =>
      let (p', packet) := p.sendRiftMsg encrypt plaintext
      match packet with
      | .ok packet => packet :: sendAll encrypt p' rest
      | .error _ => sendAll encrypt p' rest

section Sends

variable (encrypt : UInt64 → List UInt8 → Except String (List UInt8))

theorem exists_of_map_eq_ok {ε α β : Type} {f : α → β} {x : Except ε α} {y : β}
    (h : x.map f = .ok y) : ∃ a, f a = y := by
  cases x with
  | error e => cases h
  | ok a => exact ⟨a, by injection h⟩

@[simp] theorem nextPacketId_sendRiftMsg (p : PeerState) (plaintext : List UInt8) :
    (p.sendRiftMsg encrypt plaintext).1.nextPacketId = p.nextPacketId + 1 := rfl

/-- A packet that goes out carries the counter's value before the call. -/
theorem packetId_sendRiftMsg {p : PeerState} {plaintext : List UInt8} {packet : PhysicalPacket}
    (h : (p.sendRiftMsg encrypt plaintext).2 = .ok packet) : packet.packetId = p.nextPacketId := by
  obtain ⟨payload, rfl⟩ := exists_of_map_eq_ok h
  rfl

/-- The ids of a run of sends are taken in order from consecutive counter
values, skipping those whose send failed. -/
theorem sendAll_packetIds_sublist (p : PeerState) (plaintexts : List (List UInt8)) :
    List.Sublist ((p.sendAll encrypt plaintexts).map PhysicalPacket.packetId)
      ((List.range plaintexts.length).map fun k => p.nextPacketId + UInt64.ofNat k) := by
  induction plaintexts generalizing p with
  | nil => simp [sendAll]
  | cons plaintext rest ih =>
      have hRange : ((List.range (rest.length + 1)).map fun k => p.nextPacketId + UInt64.ofNat k) =
          p.nextPacketId :: (List.range rest.length).map
            fun k => (p.sendRiftMsg encrypt plaintext).1.nextPacketId + UInt64.ofNat k := by
        simp [List.range_succ_eq_map, UInt64.ofNat_add, UInt64.add_assoc, UInt64.add_comm 1]
      rw [List.length_cons, hRange]
      cases hSend : (p.sendRiftMsg encrypt plaintext).2 with
      | error e =>
          simp only [sendAll, hSend]
          exact (ih _).cons _
      | ok packet =>
          simp only [sendAll, hSend, List.map_cons, packetId_sendRiftMsg encrypt hSend]
          exact (ih _).cons_cons _

/-- Over any run of at most `2^64` sends to one peer, whatever the messages
and whichever sends fail, no two packets share an id. -/
theorem sendAll_packetIds_nodup (p : PeerState) (plaintexts : List (List UInt8))
    (h : plaintexts.length ≤ 2 ^ 64) :
    ((p.sendAll encrypt plaintexts).map PhysicalPacket.packetId).Nodup := by
  apply (sendAll_packetIds_sublist encrypt p plaintexts).nodup
  apply List.Nodup.map_on _ List.nodup_range
  intro k hk l hl hEq
  have hk' := List.mem_range.mp hk
  have hl' := List.mem_range.mp hl
  have hOfNat : UInt64.ofNat k = UInt64.ofNat l := by
    simpa using congrArg (· - p.nextPacketId) hEq
  have := congrArg UInt64.toNat hOfNat
  rw [UInt64.toNat_ofNat_of_lt' (by simp only [UInt64.size]; omega),
    UInt64.toNat_ofNat_of_lt' (by simp only [UInt64.size]; omega)] at this
  exact this

/-- Three sends from the last counter value, the second failing to encrypt:
the two packets sent carry `u64::MAX` and, after the wrap, `1`. -/
theorem sendAll_packetIds_nodup_wrap :
    (((⟨.established, 3, 0xFFFFFFFFFFFFFFFF⟩ : PeerState).sendAll
      (fun _ plaintext => if plaintext = [2] then .error "bad key" else .ok plaintext)
      [[1], [2], [3]]).map PhysicalPacket.packetId).Nodup :=
  sendAll_packetIds_nodup _ _ _ (by decide)

end Sends

end PeerState

end Wavry.Sender
