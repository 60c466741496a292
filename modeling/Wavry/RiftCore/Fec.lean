import Wavry.Lib.XorPad

/-! XOR forward error correction of `rift-core`. A `FecBuilder` collects the
payloads of `shard_count - 1` consecutive packets and then emits one parity
packet: the XOR of the payloads zero-padded to the longest one, with the
first packet id of the group and the length of every payload. The builder
then starts the next group. -/
namespace Wavry.RiftCore

open XorPad

inductive FecError where
  | invalidShardCount
  deriving DecidableEq, Repr

/-- The `FecPacket` protocol message. -/
structure FecPacket where
  groupId : UInt64
  firstPacketId : UInt64
  shardCount : UInt32
  parityIndex : UInt32
  payload : List UInt8
  shardLengths : List UInt32
  deriving DecidableEq, Repr

/-- `xor_in_place`: the first `min payload.len() max_len` bytes of `payload`
are XORed into `target`. -/
def xorInPlace (target payload : List UInt8) (maxLen : Nat) : List UInt8 :=
  xorInto target (payload.take maxLen)

/-- `xor_parity`: every payload XORed into a zero buffer of `max_len` bytes. -/
def xorParity (payloads : List (List UInt8)) (maxLen : Nat) : List UInt8 :=
  payloads.foldl (fun parity payload => xorInPlace parity payload maxLen) (List.replicate maxLen 0)

/-- With no payload longer than `max_len` the cut in `xor_in_place` never
applies, and the parity is the plain XOR of the payloads into zeros. -/
theorem xorParity_eq_foldl {payloads : List (List UInt8)} {maxLen : Nat}
    (h : ∀ p ∈ payloads, p.length ≤ maxLen) :
    xorParity payloads maxLen = payloads.foldl xorInto (List.replicate maxLen 0) := by
  suffices hAll : ∀ acc : List UInt8,
      payloads.foldl (fun parity payload => xorInPlace parity payload maxLen) acc =
        payloads.foldl xorInto acc from hAll _
  induction payloads with
  | nil => exact fun _ => rfl
  | cons p ps ih =>
      intro acc
      have hp : p.take maxLen = p := List.take_of_length_le (h p (List.mem_cons_self ..))
      rw [List.foldl_cons, List.foldl_cons, xorInPlace, hp]
      exact ih (fun q hq => h q (List.mem_cons_of_mem _ hq)) _

/-- Subtracting at most two from a shard count of at least two does not wrap. -/
theorem toNat_sub_of_two_le {n k : UInt32} (h : 2 ≤ n.toNat) (hk : k.toNat ≤ 2) :
    (n - k).toNat = n.toNat - k.toNat :=
  UInt32.toNat_sub_of_le _ _ (by rw [UInt32.le_iff_toNat_le]; omega)

/-- The builder state. `FecBuilder::new` refuses a shard count below two, so
no builder with a smaller count exists. -/
@[ext] structure FecBuilder where
  shardCount : UInt32
  groupId : UInt64
  firstPacketId : Option UInt64
  payloads : List (List UInt8)
  shardLengths : List UInt32
  maxPayloadLen : Nat
  two_le_shardCount : 2 ≤ shardCount.toNat

namespace FecBuilder

def new (shardCount : UInt32) : Except FecError FecBuilder :=
  if h : shardCount < 2 then .error .invalidShardCount
  else .ok ⟨shardCount, 0, none, [], [], 0, by
    have := UInt32.lt_iff_toNat_lt.not.mp h
    simp at this
    omega⟩

def reset (b : FecBuilder) : FecBuilder :=
  { b with payloads := [], shardLengths := [], maxPayloadLen := 0, firstPacketId := none }

/-- `FecBuilder::push`. The parity packet is emitted by the push that brings
the group to `shard_count - 1` payloads; the group id then advances by one,
wrapping, and the builder is reset. -/
def push (b : FecBuilder) (packetId : UInt64) (payload : List UInt8) :
    FecBuilder × Option FecPacket :=
  let b := if b.payloads.isEmpty then { b with firstPacketId := some packetId } else b
  let b := { b with
    maxPayloadLen := max b.maxPayloadLen payload.length
    shardLengths := b.shardLengths ++ [UInt32.ofNat payload.length]
    payloads := b.payloads ++ [payload] }
  if b.payloads.length = (b.shardCount - 1).toNat then
    let packet : FecPacket :=
      { groupId := b.groupId
        firstPacketId := b.firstPacketId.getD packetId
        shardCount := b.shardCount
        parityIndex := b.shardCount - 1
        payload := xorParity b.payloads b.maxPayloadLen
        shardLengths := b.shardLengths }
    ({ b with groupId := b.groupId + 1 }.reset, some packet)
  else (b, none)

/-- Push a sequence of `(packet id, payload)` pairs, collecting every result. -/
def pushAll (b : FecBuilder) : List (UInt64 × List UInt8) → FecBuilder × List (Option FecPacket)
  | [] => (b, [])
  | (packetId, payload) :: rest =>
      let (b', out) := b.push packetId payload
      let (b'', outs) := pushAll b' rest
      (b'', out :: outs)

/-! ## One group and consecutive groups -/

/-- No payload of the current group has been pushed yet. -/
def IsFresh (b : FecBuilder) : Prop :=
  b.firstPacketId = none ∧ b.payloads = [] ∧ b.shardLengths = [] ∧ b.maxPayloadLen = 0

/-- The longest payload length, as the builder accumulates it. -/
def maxLength (payloads : List (List UInt8)) : Nat :=
  payloads.foldl (fun m p => max m p.length) 0

/-- The packet ids and payloads of one group: consecutive ids from `first`. -/
def groupInput (first : UInt64) (payloads : List (List UInt8)) : List (UInt64 × List UInt8) :=
  payloads.mapIdx fun i p => (first + UInt64.ofNat i, p)

/-- The parity packet of group `groupId` with the given first id and payloads. -/
def groupPacket (shardCount : UInt32) (groupId first : UInt64) (payloads : List (List UInt8)) :
    FecPacket :=
  { groupId := groupId
    firstPacketId := first
    shardCount := shardCount
    parityIndex := shardCount - 1
    payload := xorParity payloads (maxLength payloads)
    shardLengths := payloads.map fun p => UInt32.ofNat p.length }

/-- The state after `push` records a payload, before the group-size test. -/
def collect (b : FecBuilder) (packetId : UInt64) (payload : List UInt8) : FecBuilder :=
  { b with
    firstPacketId := if b.payloads.isEmpty then some packetId else b.firstPacketId
    maxPayloadLen := max b.maxPayloadLen payload.length
    shardLengths := b.shardLengths ++ [UInt32.ofNat payload.length]
    payloads := b.payloads ++ [payload] }

theorem push_eq (b : FecBuilder) (packetId : UInt64) (payload : List UInt8) :
    b.push packetId payload =
      if b.payloads.length + 1 = (b.shardCount - 1).toNat then
        ({ b.collect packetId payload with groupId := b.groupId + 1 }.reset,
          some { groupId := b.groupId
                 firstPacketId := (b.collect packetId payload).firstPacketId.getD packetId
                 shardCount := b.shardCount
                 parityIndex := b.shardCount - 1
                 payload := xorParity (b.payloads ++ [payload]) (max b.maxPayloadLen payload.length)
                 shardLengths := b.shardLengths ++ [UInt32.ofNat payload.length] })
      else (b.collect packetId payload, none) := by
  unfold push collect
  by_cases hEmpty : b.payloads.isEmpty <;> simp [hEmpty]

theorem pushAll_append (b : FecBuilder) (xs ys : List (UInt64 × List UInt8)) :
    b.pushAll (xs ++ ys) =
      (((b.pushAll xs).1.pushAll ys).1, (b.pushAll xs).2 ++ ((b.pushAll xs).1.pushAll ys).2) := by
  induction xs generalizing b with
  | nil => rfl
  | cons x xs ih => simp [pushAll, ih]

/-- Pushes that keep the group below `shard_count - 1` payloads only collect. -/
theorem pushAll_of_lt (b : FecBuilder) (xs : List (UInt64 × List UInt8))
    (h : b.payloads.length + xs.length < (b.shardCount - 1).toNat) :
    b.pushAll xs = (xs.foldl (fun b x => b.collect x.1 x.2) b, List.replicate xs.length none) := by
  induction xs generalizing b with
  | nil => rfl
  | cons x xs ih =>
      obtain ⟨packetId, payload⟩ := x
      have hNext : (b.collect packetId payload).payloads.length + xs.length <
          ((b.collect packetId payload).shardCount - 1).toNat := by
        simp only [collect, List.length_append, List.length_singleton]
        simp only [List.length_cons] at h
        omega
      have hPush : b.push packetId payload = (b.collect packetId payload, none) := by
        rw [push_eq, if_neg (by simp only [List.length_cons] at h; omega)]
      simp [pushAll, hPush, ih _ hNext, List.replicate_succ]

@[simp] theorem foldl_collect_shardCount (b : FecBuilder) (xs : List (UInt64 × List UInt8)) :
    (xs.foldl (fun b x => b.collect x.1 x.2) b).shardCount = b.shardCount := by
  induction xs generalizing b with
  | nil => rfl
  | cons x xs ih => rw [List.foldl_cons, ih]; rfl

@[simp] theorem foldl_collect_groupId (b : FecBuilder) (xs : List (UInt64 × List UInt8)) :
    (xs.foldl (fun b x => b.collect x.1 x.2) b).groupId = b.groupId := by
  induction xs generalizing b with
  | nil => rfl
  | cons x xs ih => rw [List.foldl_cons, ih]; rfl

@[simp] theorem foldl_collect_payloads (b : FecBuilder) (xs : List (UInt64 × List UInt8)) :
    (xs.foldl (fun b x => b.collect x.1 x.2) b).payloads = b.payloads ++ xs.map Prod.snd := by
  induction xs generalizing b with
  | nil => simp
  | cons x xs ih => rw [List.foldl_cons, ih]; simp [collect]

@[simp] theorem foldl_collect_shardLengths (b : FecBuilder) (xs : List (UInt64 × List UInt8)) :
    (xs.foldl (fun b x => b.collect x.1 x.2) b).shardLengths =
      b.shardLengths ++ xs.map fun x => UInt32.ofNat x.2.length := by
  induction xs generalizing b with
  | nil => simp
  | cons x xs ih => rw [List.foldl_cons, ih]; simp [collect]

@[simp] theorem foldl_collect_maxPayloadLen (b : FecBuilder) (xs : List (UInt64 × List UInt8)) :
    (xs.foldl (fun b x => b.collect x.1 x.2) b).maxPayloadLen =
      (xs.map Prod.snd).foldl (fun m p => max m p.length) b.maxPayloadLen := by
  induction xs generalizing b with
  | nil => simp
  | cons x xs ih => rw [List.foldl_cons, ih]; simp [collect]

/-- The first id of a group is the id of its first push. -/
theorem foldl_collect_firstPacketId (b : FecBuilder) (x : UInt64 × List UInt8)
    (xs : List (UInt64 × List UInt8)) (hEmpty : b.payloads = []) :
    ((x :: xs).foldl (fun b x => b.collect x.1 x.2) b).firstPacketId = some x.1 := by
  have hKeep : ∀ (c : FecBuilder) (ys : List (UInt64 × List UInt8)), c.payloads ≠ [] →
      (ys.foldl (fun b x => b.collect x.1 x.2) c).firstPacketId = c.firstPacketId := by
    intro c ys hc
    induction ys generalizing c with
    | nil => rfl
    | cons y ys ih =>
        rw [List.foldl_cons, ih _ (by simp [collect])]
        simp [collect, hc]
  rw [List.foldl_cons, hKeep _ _ (by simp [collect])]
  simp [collect, hEmpty]

/-- A builder made by `new` is fresh, at group zero. -/
theorem new_eq_ok {shardCount : UInt32} (h : 2 ≤ shardCount.toNat) :
    ∃ b, new shardCount = .ok b ∧ b.IsFresh ∧ b.shardCount = shardCount ∧ b.groupId = 0 := by
  have hNot : ¬ shardCount < 2 := by
    rw [UInt32.lt_iff_toNat_lt]
    simp only [UInt32.reduceToNat]
    omega
  exact ⟨_, by rw [new, dif_neg hNot], ⟨rfl, rfl, rfl, rfl⟩, rfl, rfl⟩

theorem toNat_shardCount_sub_one (b : FecBuilder) :
    (b.shardCount - 1).toNat = b.shardCount.toNat - 1 :=
  toNat_sub_of_two_le b.two_le_shardCount (by decide)

theorem groupInput_concat (first : UInt64) (init : List (List UInt8)) (last : List UInt8) :
    groupInput first (init ++ [last]) =
      groupInput first init ++ [(first + UInt64.ofNat init.length, last)] := by
  simp [groupInput, List.mapIdx_append]

@[simp] theorem length_groupInput (first : UInt64) (payloads : List (List UInt8)) :
    (groupInput first payloads).length = payloads.length := by
  simp [groupInput]

@[simp] theorem map_snd_groupInput (first : UInt64) (payloads : List (List UInt8)) :
    (groupInput first payloads).map Prod.snd = payloads := by
  apply List.ext_getElem (by simp)
  intro i h₁ h₂
  simp [groupInput]

theorem map_groupInput (first : UInt64) (payloads : List (List UInt8)) {β : Type}
    (g : List UInt8 → β) : (groupInput first payloads).map (fun x => g x.2) = payloads.map g := by
  rw [show (fun x : UInt64 × List UInt8 => g x.2) = g ∘ Prod.snd from rfl, ← List.map_map,
    map_snd_groupInput]

theorem collect_firstPacketId (b : FecBuilder) (packetId : UInt64) (payload : List UInt8) :
    (b.collect packetId payload).firstPacketId =
      if b.payloads = [] then some packetId else b.firstPacketId := by
  simp [collect]

/-- The first pushed id of a group is the group's first packet id. -/
theorem firstPacketId_collect_groupInput (b : FecBuilder) (hPayloads : b.payloads = [])
    (first : UInt64) (init : List (List UInt8)) (packetId : UInt64) (last : List UInt8) (hId : init = [] → packetId = first) :
    (((groupInput first init).foldl (fun b x => b.collect x.1 x.2) b).collect packetId
      last).firstPacketId = some first := by
  cases init with
  | nil => simp [groupInput, collect, hPayloads, hId rfl]
  | cons p ps =>
      have hEq : groupInput first (p :: ps) =
          (first, p) :: ps.mapIdx fun i q => (first + UInt64.ofNat (i + 1), q) := by
        simp [groupInput, List.mapIdx_cons]
      have hNonempty : ((groupInput first (p :: ps)).foldl (fun b x => b.collect x.1 x.2) b).payloads ≠
          [] := by
        simp [hPayloads]
      rw [collect_firstPacketId, if_neg hNonempty, hEq, foldl_collect_firstPacketId b _ _ hPayloads]

theorem maxLength_concat (init : List (List UInt8)) (last : List UInt8) :
    maxLength (init ++ [last]) = max (maxLength init) last.length := by
  simp [maxLength]

theorem le_foldl_max (payloads : List (List UInt8)) (m : Nat) :
    m ≤ payloads.foldl (fun m p => max m p.length) m := by
  induction payloads generalizing m with
  | nil => exact Nat.le_refl m
  | cons p ps ih => exact Nat.le_trans (Nat.le_max_left m p.length) (ih _)

theorem length_le_maxLength {payloads : List (List UInt8)} {p : List UInt8}
    (h : p ∈ payloads) : p.length ≤ maxLength payloads := by
  unfold maxLength
  generalize 0 = m
  induction payloads generalizing m with
  | nil => cases h
  | cons q qs ih =>
      rw [List.foldl_cons]
      rcases List.mem_cons.mp h with rfl | hMem
      · exact Nat.le_trans (Nat.le_max_right m p.length) (le_foldl_max qs _)
      · exact ih hMem _

/-- A fresh builder fed one whole group of `shard_count - 1` payloads under
consecutive ids emits exactly one packet, at the last push, and is fresh
again with the next group id. -/
theorem pushAll_group (b : FecBuilder) (hFresh : b.IsFresh) (first : UInt64)
    (payloads : List (List UInt8)) (hLength : payloads.length = b.shardCount.toNat - 1) :
    b.pushAll (groupInput first payloads) =
      ({ b with groupId := b.groupId + 1 },
        List.replicate (payloads.length - 1) none ++
          [some (groupPacket b.shardCount b.groupId first payloads)]) := by
  obtain ⟨hFirst, hPayloads, hLengths, hMax⟩ := hFresh
  have hTwo := b.two_le_shardCount
  obtain ⟨init, last, rfl⟩ : ∃ init last, payloads = init ++ [last] := by
    cases payloads using List.reverseRecOn with
    | nil => simp at hLength; omega
    | append_singleton init last _ => exact ⟨init, last, rfl⟩
  simp only [List.length_append, List.length_singleton] at hLength
  set c := (groupInput first init).foldl (fun b x => b.collect x.1 x.2) b with hc
  have hInit : b.pushAll (groupInput first init) = (c, List.replicate init.length none) := by
    rw [pushAll_of_lt b _ (by simp [groupInput, hPayloads, toNat_shardCount_sub_one]; omega)]
    simp [groupInput, hc]
  have hcPayloads : c.payloads = init := by simp [hc, hPayloads]
  have hLast : c.push (first + UInt64.ofNat init.length) last =
      ({ b with groupId := b.groupId + 1 },
        some (groupPacket b.shardCount b.groupId first (init ++ [last]))) := by
    have hSize : c.payloads.length + 1 = (c.shardCount - 1).toNat := by
      rw [hcPayloads, hc, foldl_collect_shardCount, toNat_shardCount_sub_one, hLength]
    have hcGroup : c.groupId = b.groupId := by simp [hc]
    have hcCount : c.shardCount = b.shardCount := by simp [hc]
    have hcLengths : c.shardLengths = init.map fun p => UInt32.ofNat p.length := by
      simp only [hc, foldl_collect_shardLengths, hLengths, List.nil_append]
      exact map_groupInput first init fun p => UInt32.ofNat p.length
    have hcMax : c.maxPayloadLen = maxLength init := by simp [hc, hMax, maxLength]
    have hcFirst : (c.collect (first + UInt64.ofNat init.length) last).firstPacketId = some first :=
      firstPacketId_collect_groupInput b hPayloads first init _ last (fun h => by simp [h])
    rw [push_eq, if_pos hSize]
    refine Prod.ext ?_ ?_
    · ext <;> simp [reset, collect, hcGroup, hcCount, hFirst, hPayloads, hLengths, hMax]
    · simp [groupPacket, hcGroup, hcCount, hcFirst, hcPayloads, hcLengths, hcMax, maxLength_concat]
  rw [groupInput_concat, pushAll_append, hInit]
  simp [pushAll, hLast]

theorem isFresh_next (b : FecBuilder) (hFresh : b.IsFresh) :
    ({ b with groupId := b.groupId + 1 } : FecBuilder).IsFresh := hFresh

/-- Consecutive whole groups: the `k`-th emitted packet carries group id
`groupId + k` and the parity of the `k`-th group's payloads only. -/
theorem pushAll_groups (b : FecBuilder) (hFresh : b.IsFresh)
    (groups : List (UInt64 × List (List UInt8)))
    (hLengths : ∀ g ∈ groups, g.2.length = b.shardCount.toNat - 1) :
    b.pushAll (groups.flatMap fun g => groupInput g.1 g.2) =
      ({ b with groupId := b.groupId + UInt64.ofNat groups.length },
        (groups.mapIdx fun k g => List.replicate (b.shardCount.toNat - 2) none ++
          [some (groupPacket b.shardCount (b.groupId + UInt64.ofNat k) g.1 g.2)]).flatten) := by
  induction groups generalizing b with
  | nil => simp [pushAll]
  | cons g groups ih =>
      have hHead := hLengths g (List.mem_cons_self ..)
      have hTail : ∀ g ∈ groups, g.2.length = b.shardCount.toNat - 1 :=
        fun g' hg' => hLengths g' (List.mem_cons_of_mem _ hg')
      rw [List.flatMap_cons, pushAll_append, pushAll_group b hFresh g.1 g.2 hHead]
      rw [ih _ (isFresh_next b hFresh) hTail]
      simp only [List.mapIdx_cons, List.flatten_cons, List.length_cons, hHead]
      refine Prod.ext ?_ ?_
      · simp [UInt64.ofNat_add, UInt64.add_assoc, UInt64.add_comm 1]
      · simp [UInt64.ofNat_add, UInt64.add_assoc, UInt64.add_comm 1]
        omega

end FecBuilder

end Wavry.RiftCore
