import Wavry.Lib.MapOps

/-! The NACK send history of wavry-server (main.rs) and of wavry-ffi
(session.rs). Both crates carry the same `SendHistory` code over different
maps, a `HashMap` in the server and a `BTreeMap` in the ffi crate, so it is
written once over the map operations and instantiated with each. The
`VecDeque` of packet ids is a list, front first; a payload is its bytes.

The order queue follows an admission rule, stated on its own as `admitId`: an id
the map does not hold is appended, an id it holds keeps its place, and the
oldest ids fall off past the capacity. A run of inserts refines that rule: its
queue is the replayed rule and every lookup returns the latest payload of a
queued id. -/

namespace Wavry

/-! ## Admission and the latest payload -/

section Spec

variable {α β : Type} [DecidableEq α]

/-- The queue after admitting `id`. -/
def admitId (capacity : Nat) (queue : List α) (id : α) : List α :=
  if id ∈ queue then queue else (queue ++ [id]).drop (queue.length + 1 - capacity)

/-- The queue after admitting `ids` in order, from empty. -/
def admitAll (capacity : Nat) (ids : List α) : List α :=
  ids.foldl (admitId capacity) []

/-- The payload of the latest insert of `id`. -/
def latest (inserts : List (α × β)) (id : α) : Option β :=
  inserts.foldl (fun acc insert => if insert.1 = id then some insert.2 else acc) none

theorem admitAll_append_singleton (capacity : Nat) (ids : List α) (id : α) :
    admitAll capacity (ids ++ [id]) = admitId capacity (admitAll capacity ids) id := by
  simp only [admitAll, List.foldl_append, List.foldl_cons, List.foldl_nil]

theorem latest_append_singleton (inserts : List (α × β)) (insert : α × β) (id : α) :
    latest (inserts ++ [insert]) id = if insert.1 = id then some insert.2 else latest inserts id := by
  simp only [latest, List.foldl_append, List.foldl_cons, List.foldl_nil]

theorem isSome_latest_iff (inserts : List (α × β)) (id : α) :
    (latest inserts id).isSome ↔ id ∈ inserts.map Prod.fst := by
  induction inserts using List.reverseRecOn with
  | nil => simp [latest]
  | append_singleton inserts insert ih =>
      rw [latest_append_singleton, List.map_append, List.mem_append, ← ih]
      by_cases h : insert.1 = id
      · simp [h]
      · simp [h, Ne.symm h]

theorem nodup_admitId {capacity : Nat} {queue : List α} (hNodup : queue.Nodup) (id : α) :
    (admitId capacity queue id).Nodup := by
  unfold admitId
  split_ifs with hMem
  · exact hNodup
  · apply List.Nodup.sublist (List.drop_sublist _ _)
    exact hNodup.append (List.nodup_singleton id) (by simpa using hMem)

theorem length_admitId_le {capacity : Nat} {queue : List α} (hLength : queue.length ≤ capacity)
    (id : α) : (admitId capacity queue id).length ≤ capacity := by
  unfold admitId
  split_ifs
  · exact hLength
  · simp only [List.length_drop, List.length_append, List.length_singleton]
    omega

theorem mem_of_mem_admitId {capacity : Nat} {queue : List α} {id other : α}
    (h : other ∈ admitId capacity queue id) : other ∈ queue ∨ other = id := by
  unfold admitId at h
  split_ifs at h
  · exact Or.inl h
  · simpa using List.mem_of_mem_drop h

/-- Under a positive capacity the admitted id is always kept: it is either
already queued or the newest entry. -/
theorem mem_admitId_self {capacity : Nat} (hCapacity : 0 < capacity) (queue : List α) (id : α) :
    id ∈ admitId capacity queue id := by
  unfold admitId
  split_ifs with hMem
  · exact hMem
  · rw [List.drop_append_of_le_length (by omega)]
    exact List.mem_append_right _ (List.mem_singleton_self id)

theorem nodup_admitAll (capacity : Nat) (ids : List α) : (admitAll capacity ids).Nodup := by
  induction ids using List.reverseRecOn with
  | nil => exact List.nodup_nil
  | append_singleton ids id ih =>
      rw [admitAll_append_singleton]
      exact nodup_admitId ih id

theorem length_admitAll_le (capacity : Nat) (ids : List α) :
    (admitAll capacity ids).length ≤ capacity := by
  induction ids using List.reverseRecOn with
  | nil => exact Nat.zero_le _
  | append_singleton ids id ih =>
      rw [admitAll_append_singleton]
      exact length_admitId_le ih id

theorem mem_of_mem_admitAll {capacity : Nat} {ids : List α} {id : α}
    (h : id ∈ admitAll capacity ids) : id ∈ ids := by
  induction ids using List.reverseRecOn with
  | nil => simp [admitAll] at h
  | append_singleton ids last ih =>
      rw [admitAll_append_singleton] at h
      rcases mem_of_mem_admitId h with hOld | hNew
      · exact List.mem_append_left _ (ih hOld)
      · simp [hNew]

end Spec

/-! ## The code -/

structure SendHistory (M : Type) where
  capacity : Nat
  order : List UInt64
  packets : M

namespace SendHistory

variable {M V : Type} (ops : MapOps M UInt64 V)

def new (capacity : Nat) : SendHistory M := ⟨capacity, [], ops.empty⟩

/-- The loop `while self.order.len() > self.capacity`: pop the oldest id and
remove its packet. A queue longer than the capacity is never empty, so
`pop_front` always yields an id; the loop ends because each round pops one. -/
def evict (capacity : Nat) : List UInt64 → M → List UInt64 × M
  | [], packets => ([], packets)
  | oldest :: rest, packets =>
      if (oldest :: rest).length > capacity then evict capacity rest (ops.remove packets oldest)
      else (oldest :: rest, packets)

def insert (h : SendHistory M) (packetId : UInt64) (payload : V) : SendHistory M :=
  let order := if !(ops.get h.packets packetId).isSome then h.order ++ [packetId] else h.order
  let packets := ops.insert h.packets packetId payload
  let evicted := evict ops h.capacity order packets
  { h with order := evicted.1, packets := evicted.2 }

def get (h : SendHistory M) (packetId : UInt64) : Option V :=
  ops.get h.packets packetId

/-- The `Nack` arm of the server's control handler: at most 16 of the
requested ids, each resent when the history still holds it. -/
def retransmit (h : SendHistory M) (packetIds : List UInt64) : List V :=
  (packetIds.take 16).filterMap (get ops h)

/-- The history after `inserts`, from `new capacity`. -/
def run (capacity : Nat) (inserts : List (UInt64 × V)) : SendHistory M :=
  inserts.foldl (fun h insert => SendHistory.insert ops h insert.1 insert.2) (new ops capacity)

theorem run_append_singleton (capacity : Nat) (inserts : List (UInt64 × V)) (insert : UInt64 × V) :
    run ops capacity (inserts ++ [insert]) =
      SendHistory.insert ops (run ops capacity inserts) insert.1 insert.2 := by
  simp only [run, List.foldl_append, List.foldl_cons, List.foldl_nil]

@[simp] theorem capacity_insert (h : SendHistory M) (packetId : UInt64) (payload : V) :
    (SendHistory.insert ops h packetId payload).capacity = h.capacity := rfl

theorem capacity_run (capacity : Nat) (inserts : List (UInt64 × V)) :
    (run ops capacity inserts).capacity = capacity := by
  induction inserts using List.reverseRecOn with
  | nil => rfl
  | append_singleton inserts insert ih => rw [run_append_singleton, capacity_insert, ih]

/-- The loop drops the oldest `order.length - capacity` ids and their packets. -/
theorem evict_eq (capacity : Nat) (order : List UInt64) (packets : M) :
    evict ops capacity order packets =
      (order.drop (order.length - capacity),
        (order.take (order.length - capacity)).foldl ops.remove packets) := by
  induction order generalizing packets with
  | nil => simp [evict]
  | cons oldest rest ih =>
      unfold evict
      split_ifs with hLong
      · rw [ih, List.length_cons, show rest.length + 1 - capacity = rest.length - capacity + 1 by
          simp only [List.length_cons] at hLong; omega]
        rfl
      · simp only [List.length_cons] at hLong
        rw [show (oldest :: rest).length - capacity = 0 by simp only [List.length_cons]; omega]
        rfl

/-! ## The code refines admission -/

/-- The history is the admission queue of the ids inserted so far, and it
answers every lookup of a queued id with that id's latest payload. -/
structure Refines (h : SendHistory M) (inserts : List (UInt64 × V)) : Prop where
  order_eq : h.order = admitAll h.capacity (inserts.map Prod.fst)
  get_eq : ∀ id, ops.get h.packets id = if id ∈ h.order then latest inserts id else none

variable {ops}

theorem refines_new (hLawful : ops.Lawful) (capacity : Nat) :
    Refines ops (new ops capacity) [] :=
  ⟨rfl, fun id => by simp [new, hLawful.get_empty]⟩

theorem Refines.nodup {h : SendHistory M} {inserts : List (UInt64 × V)}
    (hR : Refines ops h inserts) : h.order.Nodup := by
  rw [hR.order_eq]
  exact nodup_admitAll _ _

theorem Refines.length_le {h : SendHistory M} {inserts : List (UInt64 × V)}
    (hR : Refines ops h inserts) : h.order.length ≤ h.capacity := by
  rw [hR.order_eq]
  exact length_admitAll_le _ _

/-- The map holds exactly the queued ids. -/
theorem Refines.isSome_get_iff {h : SendHistory M} {inserts : List (UInt64 × V)}
    (hR : Refines ops h inserts) (id : UInt64) : (ops.get h.packets id).isSome ↔ id ∈ h.order := by
  rw [hR.get_eq]
  split_ifs with hMem
  · have hInserted : id ∈ inserts.map Prod.fst := by
      rw [hR.order_eq] at hMem
      exact mem_of_mem_admitAll hMem
    simpa [hMem] using (isSome_latest_iff inserts id).mpr hInserted
  · simp [hMem]

/-- One insert keeps the refinement: the queue moves by one admission and the
evicted ids lose their packets. -/
theorem Refines.insert (hLawful : ops.Lawful) {h : SendHistory M} {inserts : List (UInt64 × V)}
    (hR : Refines ops h inserts) (packetId : UInt64) (payload : V) :
    Refines ops (SendHistory.insert ops h packetId payload) (inserts ++ [(packetId, payload)]) := by
  set queued := if packetId ∈ h.order then h.order else h.order ++ [packetId] with hQueued
  have hPresent : (ops.get h.packets packetId).isSome = decide (packetId ∈ h.order) := by
    rw [Bool.eq_iff_iff, decide_eq_true_iff]
    exact hR.isSome_get_iff packetId
  have hOrder : (if !(ops.get h.packets packetId).isSome then h.order ++ [packetId] else h.order) =
      queued := by
    rw [hPresent]
    by_cases hMem : packetId ∈ h.order <;> simp [hQueued, hMem]
  have hLength := hR.length_le
  have hNodup : queued.Nodup := by
    by_cases hMem : packetId ∈ h.order
    · simpa [hQueued, hMem] using hR.nodup
    · simpa [hQueued, hMem] using hR.nodup.append (List.nodup_singleton packetId) (by simpa using hMem)
  have hSelf : packetId ∈ queued := by
    by_cases hMem : packetId ∈ h.order <;> simp [hQueued, hMem]
  have hOther : ∀ id, id ≠ packetId → (id ∈ queued ↔ id ∈ h.order) := by
    intro id hId
    by_cases hMem : packetId ∈ h.order <;> simp [hQueued, hMem, hId]
  set dropCount := queued.length - h.capacity
  have hSplit : ∀ id, id ∈ queued ↔ id ∈ queued.take dropCount ∨ id ∈ queued.drop dropCount := by
    intro id
    conv_lhs => rw [← List.take_append_drop dropCount queued]
    exact List.mem_append
  have hDisjoint : ∀ id, id ∈ queued.take dropCount → id ∉ queued.drop dropCount := by
    have := List.take_append_drop dropCount queued ▸ hNodup
    exact fun id hTake hDrop => List.disjoint_of_nodup_append this hTake hDrop
  have hStep : SendHistory.insert ops h packetId payload =
      { h with order := queued.drop dropCount,
               packets := (queued.take dropCount).foldl ops.remove (ops.insert h.packets packetId payload) } := by
    simp only [SendHistory.insert, hOrder, evict_eq]
    rfl
  rw [hStep]
  constructor
  · show queued.drop dropCount = admitAll h.capacity ((inserts ++ [(packetId, payload)]).map Prod.fst)
    rw [List.map_append, List.map_singleton, admitAll_append_singleton, ← hR.order_eq]
    unfold admitId
    by_cases hMem : packetId ∈ h.order
    · simp only [hQueued, hMem, if_true, dropCount]
      rw [Nat.sub_eq_zero_of_le hLength, List.drop_zero]
    · simp only [hQueued, hMem, if_false, dropCount, List.length_append, List.length_singleton]
  · intro id
    show ops.get ((queued.take dropCount).foldl ops.remove (ops.insert h.packets packetId payload)) id =
      if id ∈ queued.drop dropCount then latest (inserts ++ [(packetId, payload)]) id else none
    rw [hLawful.get_foldl_remove, hLawful.get_insert, latest_append_singleton]
    by_cases hDropped : id ∈ queued.take dropCount
    · simp [hDropped, hDisjoint id hDropped]
    · have hKept : id ∈ queued.drop dropCount ↔ id ∈ queued := by
        rw [hSplit id]
        simp [hDropped]
      by_cases hId : id = packetId
      · subst hId
        simp [hDropped, hKept.mpr hSelf]
      · simp only [if_neg hDropped, if_neg hId, hR.get_eq, hKept, hOther id hId, Ne.symm hId,
          if_false]

theorem refines_run (hLawful : ops.Lawful) (capacity : Nat) (inserts : List (UInt64 × V)) :
    Refines ops (run ops capacity inserts) inserts := by
  induction inserts using List.reverseRecOn with
  | nil => exact refines_new hLawful capacity
  | append_singleton inserts insert ih =>
      rw [run_append_singleton]
      exact ih.insert hLawful insert.1 insert.2

/-- Every lookup after a run, for any lawful map: the latest payload of a
queued id, nothing otherwise. -/
theorem get_run (hLawful : ops.Lawful) (capacity : Nat) (inserts : List (UInt64 × V)) (id : UInt64) :
    get ops (run ops capacity inserts) id =
      if id ∈ admitAll capacity (inserts.map Prod.fst) then latest inserts id else none := by
  have hR := refines_run hLawful capacity inserts
  rw [get, hR.get_eq, hR.order_eq, capacity_run]

/-- A resent payload is the latest payload of a queued, requested id. -/
theorem mem_retransmit {h : SendHistory M} {inserts : List (UInt64 × V)}
    (hR : Refines ops h inserts) (packetIds : List UInt64) {payload : V}
    (hSent : payload ∈ retransmit ops h packetIds) :
    ∃ id ∈ packetIds.take 16, id ∈ h.order ∧ latest inserts id = some payload := by
  obtain ⟨id, hId, hGet⟩ := List.mem_filterMap.mp hSent
  rw [get, hR.get_eq] at hGet
  split_ifs at hGet with hMem
  exact ⟨id, hId, hMem, hGet⟩

theorem length_retransmit_le (h : SendHistory M) (packetIds : List UInt64) :
    (retransmit ops h packetIds).length ≤ 16 :=
  (List.length_filterMap_le _ _).trans (List.length_take_le _ _)

/-! ## The two crates -/

/-- `bytes::Bytes`, by its contents. -/
abbrev Bytes := List UInt8

/-- wavry-server's `SendHistory` keeps its packets in a `HashMap`. -/
def serverOps : MapOps (AssocMap UInt64 Bytes) UInt64 Bytes := AssocMap.mapOps

/-- wavry-ffi's `SendHistory` keeps its packets in a `BTreeMap`. -/
def ffiOps : MapOps (Std.TreeMap UInt64 Bytes compare) UInt64 Bytes := Std.TreeMap.mapOps

theorem lawful_serverOps : serverOps.Lawful := AssocMap.lawful_mapOps

theorem lawful_ffiOps : ffiOps.Lawful := Std.TreeMap.lawful_mapOps

/-- Both crates, after every sequence of inserts: the queue is the admission
queue, without duplicates, at most `capacity` long and holding exactly the
map's keys; a lookup returns the latest payload of a queued id; the two crates
agree on every lookup; and under a positive capacity the id just inserted is
held. -/
theorem sendHistory_admitted (capacity : Nat) (inserts : List (UInt64 × Bytes)) :
    (run serverOps capacity inserts).order = admitAll capacity (inserts.map Prod.fst) ∧
      (run ffiOps capacity inserts).order = (run serverOps capacity inserts).order ∧
      (run serverOps capacity inserts).order.Nodup ∧
      (run serverOps capacity inserts).order.length ≤ capacity ∧
      (∀ id, (get serverOps (run serverOps capacity inserts) id).isSome ↔
        id ∈ (run serverOps capacity inserts).order) ∧
      (∀ id, get serverOps (run serverOps capacity inserts) id =
        if id ∈ (run serverOps capacity inserts).order then latest inserts id else none) ∧
      (∀ id, get ffiOps (run ffiOps capacity inserts) id =
        get serverOps (run serverOps capacity inserts) id) ∧
      (0 < capacity → ∀ id payload, inserts.getLast? = some (id, payload) →
        get serverOps (run serverOps capacity inserts) id = some payload) := by
  have hServer := refines_run lawful_serverOps capacity inserts
  have hFfi := refines_run lawful_ffiOps capacity inserts
  have hServerOrder : (run serverOps capacity inserts).order =
      admitAll capacity (inserts.map Prod.fst) := by
    rw [hServer.order_eq, capacity_run]
  have hFfiOrder : (run ffiOps capacity inserts).order = admitAll capacity (inserts.map Prod.fst) := by
    rw [hFfi.order_eq, capacity_run]
  refine ⟨hServerOrder, hFfiOrder.trans hServerOrder.symm, hServer.nodup, ?_,
    hServer.isSome_get_iff, hServer.get_eq, fun id => ?_, ?_⟩
  · simpa only [capacity_run] using hServer.length_le
  · rw [get_run lawful_ffiOps, get_run lawful_serverOps]
  · intro hCapacity id payload hLast
    obtain ⟨earlier, rfl⟩ := List.getLast?_eq_some_iff.mp hLast
    rw [get_run lawful_serverOps, List.map_append, List.map_singleton,
      admitAll_append_singleton, if_pos (mem_admitId_self hCapacity _ id), latest_append_singleton,
      if_pos rfl]

/-- Packet 1 is evicted by packet 3 and then sent again. -/
def reinsertSequence : List (UInt64 × Bytes) := [(1, [1]), (2, [2]), (3, [3]), (1, [4])]

/-- Of the ids in their first-insertion order, 1, 2, 3, the two newest are 2
and 3. The history holds 3 and 1 instead, since the resent id 1 is admitted
anew. -/
theorem sendHistory_admitted_reinsert :
    ((reinsertSequence.map Prod.fst).eraseDups).drop 1 = [2, 3] ∧
      get serverOps (run serverOps 2 reinsertSequence) 2 = none ∧
      get serverOps (run serverOps 2 reinsertSequence) 1 = some [4] := by
  decide

/-- At capacity 2, the last insert of `reinsertSequence` is held in both crates. -/
theorem sendHistory_admitted_last :
    0 < 2 ∧ get serverOps (run serverOps 2 reinsertSequence) 1 = some [4] :=
  ⟨by decide, (sendHistory_admitted 2 reinsertSequence).2.2.2.2.2.2.2 (by decide) 1 [4] rfl⟩

end SendHistory

end Wavry
