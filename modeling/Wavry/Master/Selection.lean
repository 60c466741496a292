import Mathlib
import Wavry.Lib.AssocMap
import Wavry.Lib.ExtFloat

/-! Relay selection in the master (`wavry-master` `selection.rs`). A candidate's
score weighs its metrics, decays with the age of its last heartbeat and is
multiplied by a factor of its state, zero for `Draining`, `Quarantined` and
`Banned`; `select_relay` draws among the candidates of positive score with
weights shifted above the lowest, or falls back to the first `Active`,
`Probation` or `Degraded` one. `filter_by_geography` sorts the candidates by
their distance to the two peers' regions and keeps at most two per ASN and at
most `max_candidates` in all, but returns the list untouched when neither
region is known.

The scores are `f32`: `ExtFloat` over any rounding, with every decimal literal
that is not exact in binary read through that rounding. Times are whole
seconds of the master's clock. -/
namespace Wavry.Master

open ExtFloat

inductive RelayState
  | new
  | probation
  | active
  | degraded
  | draining
  | quarantined
  | banned
  deriving DecidableEq, Repr

namespace RelayState

/-- `matches!(state, Draining | Quarantined | Banned)`: the states whose score
multiplier is zero and that `REQUEST_RELAY` leaves out. -/
def isExcluded : RelayState → Bool
  | .draining | .quarantined | .banned => true
  | _ => false

/-- `matches!(state, Active | Probation | Degraded)`: the fallback of
`select_relay` when no score is positive. -/
def isFallback : RelayState → Bool
  | .active | .probation | .degraded => true
  | _ => false

theorem isExcluded_of_isFallback {s : RelayState} (h : s.isFallback = true) :
    s.isExcluded = false := by
  cases s <;> simp_all [isFallback, isExcluded]

end RelayState

structure RelayMetrics where
  successRate : ExtFloat
  handshakeTimeoutRate : ExtFloat
  avgDurationScore : ExtFloat
  feedbackScore : ExtFloat
  probeRttScore : ExtFloat
  probeLossScore : ExtFloat
  capacityScore : ExtFloat

instance : Inhabited RelayMetrics :=
  ⟨⟨finite 1, finite 0, finite 1, finite 50, finite 100, finite 1, finite 1⟩⟩

structure RelayCandidate where
  id : String
  endpoints : List (List Char)
  state : RelayState
  metrics : RelayMetrics
  region : Option (List Char)
  asn : Option Nat
  loadPct : ExtFloat
  /-- The second of the master's clock the last heartbeat stands for. -/
  lastSeen : Nat

/-! ## Scores -/

section Score

variable (r : Rounding)

/-- The multiplier for a heartbeat `age` whole seconds old. -/
def freshnessMultiplier (age : Nat) : ExtFloat :=
  if age ≤ 30 then finite 1
  else if age ≤ 90 then r.round (9 / 10)
  else if age ≤ 180 then r.round (65 / 100)
  else if age ≤ 300 then r.round (2 / 5)
  else r.round (1 / 5)

def stateMultiplier : RelayState → ExtFloat
  | .new => finite (1 / 4)
  | .probation => r.round (65 / 100)
  | .active => finite 1
  | .degraded => r.round (2 / 5)
  | .draining => finite 0
  | .quarantined => finite 0
  | .banned => finite 0

/-- The weighted blend of the metrics, decayed by freshness: `raw_score` of
`calculate_relay_score` before the state multiplier.
`SystemTime::duration_since` fails for a heartbeat stamped after `now`, and
then the score is not decayed. -/
def freshScore (now : Nat) (relay : RelayCandidate) : ExtFloat :=
  let m := relay.metrics
  let successScore := mul r m.successRate (finite 100)
  let handshakeScore := mul r (sub r (finite 1) m.handshakeTimeoutRate) (finite 100)
  let durationScore := mul r m.avgDurationScore (finite 100)
  let lossScore := mul r m.probeLossScore (finite 100)
  let loadCapacity := mul r
    (sub r (finite 1) (clamp (div r relay.loadPct (finite 100)) (finite 0) (finite 1))) (finite 100)
  let metricCapacity := mul r (clamp m.capacityScore (finite 0) (finite 1)) (finite 100)
  let capacityScore :=
    add r (mul r loadCapacity (r.round (7 / 10))) (mul r metricCapacity (r.round (3 / 10)))
  let rawScore :=
    add r (add r (add r (add r (add r (add r
      (mul r successScore (finite (1 / 4)))
      (mul r handshakeScore (r.round (15 / 100))))
      (mul r durationScore (r.round (1 / 10))))
      (mul r m.feedbackScore (r.round (1 / 5))))
      (mul r m.probeRttScore (r.round (15 / 100))))
      (mul r lossScore (r.round (1 / 10))))
      (mul r capacityScore (r.round (1 / 20)))
  if relay.lastSeen ≤ now then mul r rawScore (freshnessMultiplier r (now - relay.lastSeen))
  else rawScore

def calculateRelayScore (now : Nat) (relay : RelayCandidate) : ExtFloat :=
  mul r (freshScore r now relay) (stateMultiplier r relay.state)

/-- An excluded state's multiplier is zero, so whatever the metrics, load and
age (negative, infinite or NaN included) the score is not positive. -/
theorem not_pos_score_of_isExcluded {now : Nat} {relay : RelayCandidate}
    (h : relay.state.isExcluded = true) : ¬ finite 0 < calculateRelayScore r now relay := by
  have hZero : stateMultiplier r relay.state = finite 0 := by
    cases hState : relay.state <;> simp_all [RelayState.isExcluded, stateMultiplier]
  rw [calculateRelayScore, hZero]
  exact not_pos_mul_zero r _

end Score

/-! ## `select_relay` -/

section Select

variable {α : Type} (r : Rounding)

/-- The cumulative walk: the first candidate whose running total of weights
reaches `target`. -/
def pickCumulative (target : ExtFloat) : ExtFloat → List (α × ExtFloat) → Option α
  | _, [] => none
  | cumulative, (c, w) :: rest =>
      let cumulative := add r cumulative w
      if target ≤ cumulative then some c else pickCumulative target cumulative rest

theorem mem_of_pickCumulative {target cumulative : ExtFloat} {xs : List (α × ExtFloat)} {a : α}
    (h : pickCumulative r target cumulative xs = some a) : a ∈ xs.map Prod.fst := by
  induction xs generalizing cumulative with
  | nil => cases h
  | cons x rest ih =>
      obtain ⟨c, w⟩ := x
      unfold pickCumulative at h
      by_cases hReach : target ≤ add r cumulative w
      · rw [if_pos hReach, Option.some.injEq] at h
        simp [h]
      · rw [if_neg hReach] at h
        exact List.mem_cons_of_mem _ (ih h)

/-- `scored_candidates`: each candidate with its score, kept when the score is
positive. -/
def scoredCandidates (now : Nat) (candidates : List RelayCandidate) :
    List (RelayCandidate × ExtFloat) :=
  (candidates.map fun c => (c, calculateRelayScore r now c)).filter fun p => finite 0 < p.2

theorem mem_scoredCandidates {now : Nat} {candidates : List RelayCandidate}
    {p : RelayCandidate × ExtFloat} :
    p ∈ scoredCandidates r now candidates ↔
      p.1 ∈ candidates ∧ p.2 = calculateRelayScore r now p.1 ∧ finite 0 < p.2 := by
  obtain ⟨c, s⟩ := p
  simp only [scoredCandidates, List.mem_filter, List.mem_map, Prod.mk.injEq, decide_eq_true_eq]
  constructor
  · rintro ⟨⟨c', hMem, rfl, rfl⟩, hPos⟩
    exact ⟨hMem, rfl, hPos⟩
  · rintro ⟨hMem, rfl, hPos⟩
    exact ⟨⟨c, hMem, rfl, rfl⟩, hPos⟩

theorem scoredCandidates_eq_nil {now : Nat} {candidates : List RelayCandidate} :
    scoredCandidates r now candidates = [] ↔
      ∀ c ∈ candidates, ¬ finite 0 < calculateRelayScore r now c := by
  simp [scoredCandidates, List.filter_eq_nil_iff]

/-- `select_relay` for one draw of `rng.gen::<f32>()`. A relay on probation
has its weight raised by the exploration bonus of 1.2. -/
def selectRelay (now : Nat) (draw : ExtFloat) (candidates : List RelayCandidate) :
    Option RelayCandidate :=
  if candidates.isEmpty then none
  else
    match scoredCandidates r now candidates with
    | [] => candidates.find? fun c => c.state.isFallback
    | first :: rest =>
        let scored := first :: rest
        let minScore := scored.foldl (fun acc p => ExtFloat.min acc p.2) posInf
        let weights := scored.map fun p =>
          let w := add r (sub r p.2 minScore) (finite 10)
          if p.1.state = .probation then mul r w (r.round (6 / 5)) else w
        let totalWeight := sum r weights
        if totalWeight ≤ finite 0 then some first.1
        else
          match pickCumulative r (mul r draw totalWeight) (finite 0)
              ((scored.map Prod.fst).zip weights) with
          | some c => some c
          | none => some (scored.getLast (List.cons_ne_nil _ _)).1

/-- With a positive score somewhere, every path of `select_relay` (the
non-positive total, the walk and the last candidate) returns a scored
candidate. -/
theorem selectRelay_of_scored {now : Nat} {draw : ExtFloat} {candidates : List RelayCandidate}
    (hScored : scoredCandidates r now candidates ≠ []) :
    ∃ p ∈ scoredCandidates r now candidates, selectRelay r now draw candidates = some p.1 := by
  have hNe : candidates ≠ [] := by
    rintro rfl
    exact hScored rfl
  obtain ⟨first, rest, hEq⟩ := List.exists_cons_of_ne_nil hScored
  unfold selectRelay
  rw [if_neg (by simpa using hNe), hEq]
  dsimp only
  split
  · exact ⟨first, List.mem_cons_self, rfl⟩
  · split
    · next c hPick =>
        have hMem := mem_of_pickCumulative r hPick
        obtain ⟨⟨c', w⟩, hZip, rfl⟩ := List.mem_map.mp hMem
        obtain ⟨p, hp, rfl⟩ := List.mem_map.mp (List.of_mem_zip hZip).1
        exact ⟨p, hp, rfl⟩
    · exact ⟨_, List.getLast_mem _, rfl⟩

theorem selectRelay_of_not_scored {now : Nat} {draw : ExtFloat}
    {candidates : List RelayCandidate} (hScored : scoredCandidates r now candidates = []) :
    selectRelay r now draw candidates = candidates.find? fun c => c.state.isFallback := by
  unfold selectRelay
  cases candidates with
  | nil => rfl
  | cons c rest =>
      rw [if_neg (by simp), hScored]

/-- `select_relay` returns nothing only for an empty list or when no score is
positive and no candidate is `Active`, `Probation` or `Degraded`; otherwise it
returns a candidate of the list in none of the excluded states, and one of
positive score whenever some candidate has one. -/
theorem selectRelay_spec (now : Nat) (draw : ExtFloat) (candidates : List RelayCandidate) :
    (selectRelay r now draw candidates = none ↔
      candidates = [] ∨
        (∀ c ∈ candidates, ¬ finite 0 < calculateRelayScore r now c) ∧
          ∀ c ∈ candidates, c.state.isFallback = false) ∧
    ∀ c, selectRelay r now draw candidates = some c →
      c ∈ candidates ∧ c.state.isExcluded = false ∧
        ((∃ d ∈ candidates, finite 0 < calculateRelayScore r now d) →
          finite 0 < calculateRelayScore r now c) := by
  by_cases hScored : scoredCandidates r now candidates = []
  · have hNone := (scoredCandidates_eq_nil r).mp hScored
    rw [selectRelay_of_not_scored r hScored]
    refine ⟨?_, fun c hFind => ?_⟩
    · rw [List.find?_eq_none]
      constructor
      · intro hAll
        exact .inr ⟨hNone, fun c hc => by simpa using hAll c hc⟩
      · rintro (rfl | ⟨-, hAll⟩) c hc
        · cases hc
        · simp [hAll c hc]
    · have hFallback := List.find?_some hFind
      refine ⟨List.mem_of_find?_eq_some hFind, RelayState.isExcluded_of_isFallback hFallback, ?_⟩
      rintro ⟨d, hd, hPos⟩
      exact absurd hPos (hNone d hd)
  · obtain ⟨p, hp, hSelect⟩ := @selectRelay_of_scored r now draw candidates hScored
    obtain ⟨hMem, hScore, hPos⟩ := (mem_scoredCandidates r).mp hp
    have hPosC : finite 0 < calculateRelayScore r now p.1 := hScore ▸ hPos
    have hSome : ¬ candidates = [] := by
      rintro rfl
      cases hMem
    refine ⟨?_, fun c hc => ?_⟩
    · rw [hSelect]
      simp only [reduceCtorEq, false_iff, not_or]
      exact ⟨hSome, fun ⟨hAll, _⟩ => hAll p.1 hMem hPosC⟩
    · rw [hSelect, Option.some.injEq] at hc
      subst hc
      refine ⟨hMem, ?_, fun _ => hPosC⟩
      cases hExcluded : p.1.state.isExcluded
      · rfl
      · exact absurd hPosC (not_pos_score_of_isExcluded r hExcluded)

/-- A lone `Active`, `Probation` or `Degraded` candidate is chosen on every
draw, whatever its score. -/
theorem selectRelay_singleton {now : Nat} {draw : ExtFloat} {c : RelayCandidate}
    (hFallback : c.state.isFallback = true) : selectRelay r now draw [c] = some c := by
  obtain ⟨hNone, hSome⟩ := selectRelay_spec r now draw [c]
  cases hSelect : selectRelay r now draw [c] with
  | none =>
      rcases hNone.mp hSelect with hNil | ⟨-, hAll⟩
      · cases hNil
      · rw [hAll c List.mem_cons_self] at hFallback
        cases hFallback
  | some d => rw [List.mem_singleton.mp (hSome d hSelect).1]

end Select

/-! ## `filter_by_geography` -/

/-- `region_distance`: equal regions are at 0, regions of one continent (the
text before the first `-`) at 1, others at 5. -/
def regionDistance (r1 r2 : List Char) : Nat :=
  if r1 = r2 then 0
  else if r1.takeWhile (· != '-') = r2.takeWhile (· != '-') then 1
  else 5

/-- The sort key: the relay's distance to each peer's region, 2 for a region
not given. -/
def geographyKey (clientRegion serverRegion : Option (List Char)) (relay : RelayCandidate) : Nat :=
  let rRegion := relay.region.getD "unknown".toList
  let d1 := (clientRegion.map fun cr => regionDistance rRegion cr).getD 2
  let d2 := (serverRegion.map fun sr => regionDistance rRegion sr).getD 2
  d1 + d2

/-- `r.asn.unwrap_or(0)`. -/
def asnKey (relay : RelayCandidate) : Nat := relay.asn.getD 0

/-- The loop of `filter_by_geography` over the sorted candidates: stop at
`max_candidates`, and keep a relay when fewer than two of its ASN are kept. -/
def takeDiverse (maxCandidates : Nat) :
    List RelayCandidate → AssocMap Nat Nat → List RelayCandidate → List RelayCandidate
  | [], _, result => result
  | relay :: rest, seenAsns, result =>
      if maxCandidates ≤ result.length then result
      else
        let count := (seenAsns.get (asnKey relay)).getD 0
        if count < 2 then
          takeDiverse maxCandidates rest (seenAsns.insert (asnKey relay) (count + 1)) (result ++ [relay])
        else takeDiverse maxCandidates rest seenAsns result

def filterByGeography (candidates : List RelayCandidate) (clientRegion serverRegion : Option (List Char))
    (maxCandidates : Nat) : List RelayCandidate :=
  if clientRegion.isNone && serverRegion.isNone then candidates
  else
    let sorted := candidates.mergeSort fun a b =>
      geographyKey clientRegion serverRegion a ≤ geographyKey clientRegion serverRegion b
    takeDiverse maxCandidates sorted AssocMap.empty []

section Diverse

variable (maxCandidates : Nat) {relay : RelayCandidate} {rest : List RelayCandidate}
  {seenAsns : AssocMap Nat Nat} {result : List RelayCandidate}

/-- The counter map of the loop: for each ASN, how many kept relays have it. -/
def SeenCounts (seenAsns : AssocMap Nat Nat) (result : List RelayCandidate) : Prop :=
  ∀ a, (seenAsns.get a).getD 0 = result.countP fun c => asnKey c = a

theorem seenCounts_empty : SeenCounts AssocMap.empty [] := fun a => by simp

theorem SeenCounts.push (h : SeenCounts seenAsns result) (relay : RelayCandidate) :
    SeenCounts (seenAsns.insert (asnKey relay) ((seenAsns.get (asnKey relay)).getD 0 + 1))
      (result ++ [relay]) := by
  intro a
  rw [AssocMap.get_insert, List.countP_append, ← h a]
  by_cases hSame : a = asnKey relay
  · subst hSame
    simp
  · rw [if_neg hSame]
    simp [Ne.symm hSame]

theorem takeDiverse_full (hFull : maxCandidates ≤ result.length) :
    takeDiverse maxCandidates (relay :: rest) seenAsns result = result := by
  rw [takeDiverse, if_pos hFull]

theorem takeDiverse_keep (hRoom : ¬ maxCandidates ≤ result.length)
    (hCount : (seenAsns.get (asnKey relay)).getD 0 < 2) :
    takeDiverse maxCandidates (relay :: rest) seenAsns result =
      takeDiverse maxCandidates rest
        (seenAsns.insert (asnKey relay) ((seenAsns.get (asnKey relay)).getD 0 + 1))
        (result ++ [relay]) := by
  rw [takeDiverse, if_neg hRoom]
  exact if_pos hCount

theorem takeDiverse_skip (hRoom : ¬ maxCandidates ≤ result.length)
    (hCount : ¬ (seenAsns.get (asnKey relay)).getD 0 < 2) :
    takeDiverse maxCandidates (relay :: rest) seenAsns result =
      takeDiverse maxCandidates rest seenAsns result := by
  rw [takeDiverse, if_neg hRoom]
  exact if_neg hCount

/-- Keeping a relay whose ASN has fewer than two kept leaves every ASN at two
at most: only that ASN's count goes up. -/
theorem countP_push_le (hSeen : SeenCounts seenAsns result)
    (hBound : ∀ a, result.countP (fun c => asnKey c = a) ≤ 2)
    (hCount : (seenAsns.get (asnKey relay)).getD 0 < 2) (b : Nat) :
    (result ++ [relay]).countP (fun c => asnKey c = b) ≤ 2 := by
  have hOld := hSeen (asnKey relay)
  rw [List.countP_append]
  by_cases hSame : asnKey relay = b
  · subst hSame
    simp only [List.countP_singleton, decide_true, if_true]
    omega
  · simpa [hSame] using hBound b

/-- The loop only appends, and only relays of its input in their order. -/
theorem takeDiverse_eq_append (xs : List RelayCandidate) (seenAsns : AssocMap Nat Nat)
    (result : List RelayCandidate) :
    ∃ picked, takeDiverse maxCandidates xs seenAsns result = result ++ picked ∧ picked.Sublist xs := by
  induction xs generalizing seenAsns result with
  | nil => exact ⟨[], by simp [takeDiverse], List.Sublist.slnil⟩
  | cons relay rest ih =>
      by_cases hFull : maxCandidates ≤ result.length
      · exact ⟨[], by simp [takeDiverse_full maxCandidates hFull], List.nil_sublist _⟩
      by_cases hCount : (seenAsns.get (asnKey relay)).getD 0 < 2
      · obtain ⟨picked, hEq, hSub⟩ := ih (seenAsns.insert (asnKey relay)
          ((seenAsns.get (asnKey relay)).getD 0 + 1)) (result ++ [relay])
        rw [takeDiverse_keep maxCandidates hFull hCount, hEq, List.append_assoc]
        exact ⟨relay :: picked, rfl, hSub.cons_cons relay⟩
      · obtain ⟨picked, hEq, hSub⟩ := ih seenAsns result
        rw [takeDiverse_skip maxCandidates hFull hCount, hEq]
        exact ⟨picked, rfl, hSub.cons relay⟩

theorem length_takeDiverse_le (xs : List RelayCandidate) (hLength : result.length ≤ maxCandidates) :
    (takeDiverse maxCandidates xs seenAsns result).length ≤ maxCandidates := by
  induction xs generalizing seenAsns result with
  | nil => simpa [takeDiverse] using hLength
  | cons relay rest ih =>
      by_cases hFull : maxCandidates ≤ result.length
      · rwa [takeDiverse_full maxCandidates hFull]
      by_cases hCount : (seenAsns.get (asnKey relay)).getD 0 < 2
      · rw [takeDiverse_keep maxCandidates hFull hCount]
        exact ih (by simp only [List.length_append, List.length_singleton]; omega)
      · rw [takeDiverse_skip maxCandidates hFull hCount]
        exact ih hLength

/-- The counter keeps every ASN at two kept relays at most. -/
theorem countP_takeDiverse_le (xs : List RelayCandidate) (hSeen : SeenCounts seenAsns result)
    (hBound : ∀ a, result.countP (fun c => asnKey c = a) ≤ 2) (a : Nat) :
    (takeDiverse maxCandidates xs seenAsns result).countP (fun c => asnKey c = a) ≤ 2 := by
  induction xs generalizing seenAsns result with
  | nil => simpa [takeDiverse] using hBound a
  | cons relay rest ih =>
      by_cases hFull : maxCandidates ≤ result.length
      · rw [takeDiverse_full maxCandidates hFull]
        exact hBound a
      by_cases hCount : (seenAsns.get (asnKey relay)).getD 0 < 2
      · rw [takeDiverse_keep maxCandidates hFull hCount]
        exact ih (hSeen.push relay) (countP_push_le hSeen hBound hCount)
      · rw [takeDiverse_skip maxCandidates hFull hCount]
        exact ih hSeen hBound

/-- Relays of one ASN are kept nearest first: a relay of the input that is
strictly nearer than a kept relay of its ASN is kept too, unless the kept one
was there before the loop began. -/
theorem takeDiverse_nearer (key : RelayCandidate → Nat) {xs : List RelayCandidate}
    (hSorted : xs.Pairwise fun a b => key a ≤ key b) (hSeen : SeenCounts seenAsns result)
    (hBound : ∀ a, result.countP (fun c => asnKey c = a) ≤ 2) {c d : RelayCandidate}
    (hc : c ∈ takeDiverse maxCandidates xs seenAsns result) (hd : d ∈ xs)
    (hAsn : asnKey d = asnKey c) (hKey : key d < key c) :
    c ∈ result ∨ d ∈ takeDiverse maxCandidates xs seenAsns result := by
  induction xs generalizing seenAsns result with
  | nil => cases hd
  | cons relay rest ih =>
      by_cases hFull : maxCandidates ≤ result.length
      · rw [takeDiverse_full maxCandidates hFull] at hc
        exact .inl hc
      by_cases hCount : (seenAsns.get (asnKey relay)).getD 0 < 2
      · rw [takeDiverse_keep maxCandidates hFull hCount] at hc ⊢
        obtain ⟨picked, hEq, -⟩ := takeDiverse_eq_append maxCandidates rest
          (seenAsns.insert (asnKey relay) ((seenAsns.get (asnKey relay)).getD 0 + 1))
          (result ++ [relay])
        rcases List.mem_cons.mp hd with rfl | hdRest
        · exact .inr (by simp [hEq])
        · rcases ih hSorted.of_cons (hSeen.push relay) (countP_push_le hSeen hBound hCount) hc
            hdRest with hOld | hKept
          · rcases List.mem_append.mp hOld with hOld | hThis
            · exact .inl hOld
            · have hLe := List.rel_of_pairwise_cons hSorted hdRest
              rw [List.mem_singleton.mp hThis] at hKey
              omega
          · exact .inr hKept
      · rw [takeDiverse_skip maxCandidates hFull hCount] at hc ⊢
        rcases List.mem_cons.mp hd with rfl | hdRest
        · obtain ⟨picked, hEq, -⟩ := takeDiverse_eq_append maxCandidates rest seenAsns result
          rw [hEq] at hc
          rcases List.mem_append.mp hc with hOld | hNew
          · exact .inl hOld
          · have hOut := countP_takeDiverse_le maxCandidates rest hSeen hBound (asnKey c)
            have hFullAsn := hSeen (asnKey c)
            have hPicked : 0 < picked.countP (fun e => asnKey e = asnKey c) :=
              List.countP_pos_iff.mpr ⟨c, hNew, by simp⟩
            rw [hEq, List.countP_append] at hOut
            rw [hAsn] at hCount
            omega
        · exact ih hSorted.of_cons hSeen hBound hc hdRest

end Diverse

section Geography

variable (candidates : List RelayCandidate) (clientRegion serverRegion : Option (List Char))
  (maxCandidates : Nat)

/-- The candidates in the order `sort_by_key` leaves them: `mergeSort` is
stable, as the standard library's sort is. -/
def sortedByDistance : List RelayCandidate :=
  candidates.mergeSort fun a b =>
    geographyKey clientRegion serverRegion a ≤ geographyKey clientRegion serverRegion b

theorem pairwise_sortedByDistance :
    (sortedByDistance candidates clientRegion serverRegion).Pairwise fun a b =>
      geographyKey clientRegion serverRegion a ≤ geographyKey clientRegion serverRegion b := by
  have hTrans : ∀ a b c : RelayCandidate,
      decide (geographyKey clientRegion serverRegion a ≤ geographyKey clientRegion serverRegion b) →
      decide (geographyKey clientRegion serverRegion b ≤ geographyKey clientRegion serverRegion c) →
      decide (geographyKey clientRegion serverRegion a ≤ geographyKey clientRegion serverRegion c) := by
    intro a b c hab hbc
    simp only [decide_eq_true_eq] at hab hbc ⊢
    omega
  have hTotal : ∀ a b : RelayCandidate,
      (decide (geographyKey clientRegion serverRegion a ≤ geographyKey clientRegion serverRegion b) ||
        decide (geographyKey clientRegion serverRegion b ≤ geographyKey clientRegion serverRegion a)) := by
    intro a b
    simp only [Bool.or_eq_true, decide_eq_true_eq]
    omega
  exact (List.pairwise_mergeSort hTrans hTotal candidates).imp of_decide_eq_true

theorem filterByGeography_of_region (hRegion : clientRegion.isSome ∨ serverRegion.isSome) :
    filterByGeography candidates clientRegion serverRegion maxCandidates =
      takeDiverse maxCandidates (sortedByDistance candidates clientRegion serverRegion)
        AssocMap.empty [] := by
  have hKnown : (clientRegion.isNone && serverRegion.isNone) = false := by
    cases clientRegion <;> cases serverRegion <;> simp_all
  rw [filterByGeography, if_neg (by simp [hKnown])]
  rfl

theorem filterByGeography_of_not_region (hRegion : ¬ (clientRegion.isSome ∨ serverRegion.isSome)) :
    filterByGeography candidates clientRegion serverRegion maxCandidates = candidates := by
  obtain ⟨hClient, hServer⟩ := not_or.mp hRegion
  rw [filterByGeography, if_pos (by simp_all)]

/-- With a region to go by, `filter_by_geography` keeps its promises: a
sub-multiset of the candidates, at most `max_candidates` of them and two per
ASN, nearest first, and for each ASN the nearest of its candidates. -/
theorem filterByGeography_spec (hRegion : clientRegion.isSome ∨ serverRegion.isSome) :
    let out := filterByGeography candidates clientRegion serverRegion maxCandidates
    let key := geographyKey clientRegion serverRegion
    out.Subperm candidates ∧ out.length ≤ maxCandidates ∧
      (∀ a, out.countP (fun c => asnKey c = a) ≤ 2) ∧
      out.Pairwise (fun c d => key c ≤ key d) ∧
      ∀ c ∈ out, ∀ d ∈ candidates, asnKey d = asnKey c → key d < key c → d ∈ out := by
  intro out key
  have hOut : out = takeDiverse maxCandidates (sortedByDistance candidates clientRegion serverRegion)
      AssocMap.empty [] := filterByGeography_of_region candidates clientRegion serverRegion
    maxCandidates hRegion
  have hSorted := pairwise_sortedByDistance candidates clientRegion serverRegion
  have hPerm : (sortedByDistance candidates clientRegion serverRegion).Perm candidates :=
    List.mergeSort_perm _ _
  have hNoBound : ∀ a, ([] : List RelayCandidate).countP (fun c => asnKey c = a) ≤ 2 := by simp
  obtain ⟨picked, hEq, hSub⟩ := takeDiverse_eq_append maxCandidates
    (sortedByDistance candidates clientRegion serverRegion) AssocMap.empty []
  rw [List.nil_append] at hEq
  refine ⟨?_, ?_, ?_, ?_, ?_⟩
  · rw [hOut, hEq]
    exact hSub.subperm.trans hPerm.subperm
  · rw [hOut]
    exact length_takeDiverse_le maxCandidates _ (Nat.zero_le _)
  · rw [hOut]
    exact countP_takeDiverse_le maxCandidates _ seenCounts_empty hNoBound
  · rw [hOut, hEq]
    exact hSorted.sublist hSub
  · intro c hc d hd hAsn hKey
    rw [hOut] at hc ⊢
    rcases takeDiverse_nearer maxCandidates key hSorted seenCounts_empty hNoBound hc
      (hPerm.mem_iff.mpr hd) hAsn hKey with hNil | hKept
    · cases hNil
    · exact hKept

/-- The two limits `filter_by_geography` is there to enforce. -/
def WithinLimits (maxCandidates : Nat) (relays : List RelayCandidate) : Prop :=
  relays.length ≤ maxCandidates ∧ ∀ a, relays.countP (fun c => asnKey c = a) ≤ 2

/-- `filter_by_geography` enforces its limits exactly when a region is given:
with neither region the candidates come back as they are, however many there
are and however many share an ASN. -/
theorem filterByGeography_limits_iff :
    WithinLimits maxCandidates (filterByGeography candidates clientRegion serverRegion maxCandidates) ↔
      clientRegion.isSome ∨ serverRegion.isSome ∨ WithinLimits maxCandidates candidates := by
  by_cases hRegion : clientRegion.isSome ∨ serverRegion.isSome
  · obtain ⟨-, hLength, hAsn, -⟩ :=
      filterByGeography_spec candidates clientRegion serverRegion maxCandidates hRegion
    exact ⟨fun _ => hRegion.elim .inl (.inr ∘ .inl), fun _ => ⟨hLength, hAsn⟩⟩
  · obtain ⟨hClient, hServer⟩ := not_or.mp hRegion
    rw [filterByGeography_of_not_region candidates clientRegion serverRegion maxCandidates hRegion]
    simp only [hClient, hServer, Bool.false_eq_true, false_or]

/-- Three relays of one ASN and no region: all three come back under a cap of two. -/
example : (filterByGeography (List.replicate 3 ⟨"r", [], .active, default, none, some 7, finite 0, 0⟩)
    none none 2).length = 3 := rfl

theorem mem_of_mem_filterByGeography {c : RelayCandidate}
    (h : c ∈ filterByGeography candidates clientRegion serverRegion maxCandidates) : c ∈ candidates := by
  by_cases hRegion : clientRegion.isSome ∨ serverRegion.isSome
  · exact (filterByGeography_spec candidates clientRegion serverRegion maxCandidates hRegion).1.subset h
  · rwa [filterByGeography_of_not_region candidates clientRegion serverRegion maxCandidates hRegion]
      at h

/-- One candidate passes the filter as it is, under any cap above zero. -/
theorem filterByGeography_singleton (c : RelayCandidate) (hCap : 0 < maxCandidates) :
    filterByGeography [c] clientRegion serverRegion maxCandidates = [c] := by
  by_cases hRegion : clientRegion.isSome ∨ serverRegion.isSome
  · rw [filterByGeography_of_region [c] clientRegion serverRegion maxCandidates hRegion,
      sortedByDistance, List.mergeSort_singleton,
      takeDiverse_keep maxCandidates (by simp only [List.length_nil]; omega) (by simp)]
    rfl
  · exact filterByGeography_of_not_region [c] clientRegion serverRegion maxCandidates hRegion

end Geography

end Wavry.Master
