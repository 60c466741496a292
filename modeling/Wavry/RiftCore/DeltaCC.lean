import Wavry.Lib.Saturating
import Wavry.Lib.Wire

/-! The DELTA congestion controller of `rift-core` (`cc.rs`). A windowed RTT
minimum and a smoothed RTT give the queueing delay; a three-state machine with
persistence counters reads its level and its slope; and each state has its own
rule for the bitrate, the frame rate and the FEC ratio. The floating-point
signals are exact values of an ordered field `K`, an instant is a count of
nanoseconds, and a debug build's overflow check on the additive increase is an
error of the step. -/
namespace Wavry.RiftCore

open Saturating

/-- `DeltaState`. -/
inductive DeltaState where
  | stable
  | rising
  | congested
  deriving DecidableEq, Repr

/-- `DeltaConfig`. -/
structure DeltaConfig (K : Type) where
  targetDelayUs : UInt64
  alpha : K
  beta : K
  increaseKbps : UInt32
  minBitrateKbps : UInt32
  maxBitrateKbps : UInt32
  kPersistence : Nat
  epsilonUs : K

/-- `impl Default for DeltaConfig`. -/
def DeltaConfig.default {K : Type} [Field K] : DeltaConfig K where
  targetDelayUs := 20000
  alpha := 0.125
  beta := 0.85
  increaseKbps := 500
  minBitrateKbps := 2000
  maxBitrateKbps := 50000
  kPersistence := 5
  epsilonUs := 100

/-- `DeltaCC`; an `Instant` is a count of nanoseconds. -/
structure DeltaCC (K : Type) where
  config : DeltaConfig K
  rttSmoothUs : K
  rttMinUs : UInt64
  lastDQUs : K
  state : DeltaState
  risingCount : Nat
  stableCount : Nat
  congestedStart : Option Nat
  windowSamples : List (Nat × UInt64)
  windowDuration : Nat
  currentBitrateKbps : UInt32
  currentFps : UInt32
  fecRatio : K

namespace DeltaCC

variable {K : Type} [Field K] [LinearOrder K]

/-- `DeltaCC::new`. -/
def new (config : DeltaConfig K) (initialBitrate initialFps : UInt32) : DeltaCC K where
  config := config
  rttSmoothUs := 0
  rttMinUs := 0xFFFFFFFFFFFFFFFF
  lastDQUs := 0
  state := .stable
  risingCount := 0
  stableCount := 0
  congestedStart := none
  windowSamples := []
  windowDuration := 10000000000
  currentBitrateKbps := initialBitrate
  currentFps := initialFps
  fecRatio := 0.05

/-- `update_rtt_min`. -/
def updateRttMin (s : DeltaCC K) (now : Nat) (rttUs : UInt64) : DeltaCC K :=
  let windowSamples :=
    s.windowSamples.filter (fun sample => now - sample.1 < s.windowDuration) ++ [(now, rttUs)]
  { s with
    windowSamples := windowSamples
    rttMinUs := ((windowSamples.map Prod.snd).min?).getD 0xFFFFFFFFFFFFFFFF }

/-- Step 2 of `on_rtt_sample`: the EWMA of the RTT, seeded by the first sample. -/
def smoothRtt (s : DeltaCC K) (rttUs : UInt64) : DeltaCC K :=
  if s.rttSmoothUs = 0 then { s with rttSmoothUs := rttUs.toNat }
  else { s with rttSmoothUs := (1 - s.config.alpha) * s.rttSmoothUs + s.config.alpha * rttUs.toNat }

/-- `update_state`. -/
def updateState (s : DeltaCC K) (now : Nat) (dQ deltaQ epsilon : K) : DeltaCC K :=
  if dQ > (s.config.targetDelayUs.toNat : K) then
    let s := if s.state ≠ .congested then { s with state := .congested, congestedStart := some now }
      else s
    { s with risingCount := 0, stableCount := 0 }
  else if deltaQ > epsilon then
    let s := { s with risingCount := s.risingCount + 1 }
    let s := if s.risingCount ≥ s.config.kPersistence ∧ s.state = .stable then
      { s with state := .rising } else s
    { s with stableCount := 0 }
  else if deltaQ ≤ 0 then
    let s := { s with stableCount := s.stableCount + 1 }
    let s := if s.stableCount ≥ s.config.kPersistence ∧ s.state ≠ .stable then
      { s with state := .stable, congestedStart := none } else s
    { s with risingCount := 0 }
  else s

/-! The signal updates and `update_state` leave the outputs and the
configuration alone; only `update_params` writes them. -/

section Frame

variable (s : DeltaCC K) (rttUs : UInt64) (now : Nat) (dQ deltaQ epsilon : K)

@[simp] theorem config_smoothRtt : (s.smoothRtt rttUs).config = s.config := by
  unfold smoothRtt
  split_ifs <;> rfl

@[simp] theorem currentBitrateKbps_smoothRtt :
    (s.smoothRtt rttUs).currentBitrateKbps = s.currentBitrateKbps := by
  unfold smoothRtt
  split_ifs <;> rfl

@[simp] theorem currentFps_smoothRtt : (s.smoothRtt rttUs).currentFps = s.currentFps := by
  unfold smoothRtt
  split_ifs <;> rfl

@[simp] theorem fecRatio_smoothRtt : (s.smoothRtt rttUs).fecRatio = s.fecRatio := by
  unfold smoothRtt
  split_ifs <;> rfl

@[simp] theorem config_updateState : (s.updateState now dQ deltaQ epsilon).config = s.config := by
  unfold updateState
  dsimp only
  split_ifs <;> rfl

@[simp] theorem currentBitrateKbps_updateState :
    (s.updateState now dQ deltaQ epsilon).currentBitrateKbps = s.currentBitrateKbps := by
  unfold updateState
  dsimp only
  split_ifs <;> rfl

@[simp] theorem currentFps_updateState :
    (s.updateState now dQ deltaQ epsilon).currentFps = s.currentFps := by
  unfold updateState
  dsimp only
  split_ifs <;> rfl

@[simp] theorem fecRatio_updateState :
    (s.updateState now dQ deltaQ epsilon).fecRatio = s.fecRatio := by
  unfold updateState
  dsimp only
  split_ifs <;> rfl

end Frame

/-- The preemptive FEC adjustment that opens `update_params`. -/
def jitterFec (fecRatio : K) (jitterUs : UInt32) : K :=
  if jitterUs > 10000 then min (fecRatio + 0.02) 0.25
  else if jitterUs > 5000 then min (fecRatio + 0.01) 0.2
  else fecRatio

/-- `step_down_fps`. -/
def stepDownFps (currentFps : UInt32) : UInt32 :=
  if currentFps = 144 ∨ currentFps = 120 then 90
  else if currentFps = 90 then 60
  else if currentFps = 60 then 45
  else if currentFps = 45 then 30
  else if currentFps > 60 then 60
  else currentFps

variable [FloorSemiring K]

/-- The additive increase of the Stable state, `increase_kbps` scaled by the
gain `(1 - d_q / target).max(0)`. At a zero target `d_q / target` is infinite
or NaN, and `max` turns either into 0. -/
def additiveIncrease (config : DeltaConfig K) (dQ : K) : UInt32 :=
  let target : K := config.targetDelayUs.toNat
  let gain := if target = 0 then 0 else max (1 - dQ / target) 0
  truncU32 (config.increaseKbps.toNat * gain)

/-- `update_params`. -/
def updateParams (s : DeltaCC K) (now : Nat) (dQ packetLoss : K) (jitterUs : UInt32) :
    Except ArithPanic (DeltaCC K) := do
  let s := { s with fecRatio := jitterFec s.fecRatio jitterUs }
  match s.state with
  | .stable =>
      let sum ← debugAdd32 s.currentBitrateKbps (additiveIncrease s.config dQ)
      let s := { s with currentBitrateKbps := min sum s.config.maxBitrateKbps }
      return if jitterUs < 5000 then { s with fecRatio := max (s.fecRatio - 0.001) 0.05 } else s
  | .rising => return s
  | .congested =>
      let s := { s with
        currentBitrateKbps :=
          max (truncU32 (s.currentBitrateKbps.toNat * s.config.beta)) s.config.minBitrateKbps }
      let s := match s.congestedStart with
        | some start =>
            if now - start > 1000000000 then
              { s with currentFps := stepDownFps s.currentFps, congestedStart := some now }
            else s
        | none => s
      return if packetLoss > 0.01 then { s with fecRatio := min (s.fecRatio * 1.5) 0.5 } else s

/-- `on_rtt_sample`, at the instant `now`. -/
def onRttSample (s : DeltaCC K) (now : Nat) (rttUs : UInt64) (packetLoss : K) (jitterUs : UInt32) :
    Except ArithPanic (DeltaCC K) :=
  let s := smoothRtt (updateRttMin s now rttUs) rttUs
  let dQ := max (s.rttSmoothUs - s.rttMinUs.toNat) 0
  let deltaQ := dQ - s.lastDQUs
  let s := { s with lastDQUs := dQ }
  let epsilon := if s.rttSmoothUs > 0 ∧ s.config.alpha ≠ 1 then s.rttSmoothUs * 0.05
    else if jitterUs > 0 then (jitterUs.toNat : K) * 0.5
    else s.config.epsilonUs
  updateParams (updateState s now dQ deltaQ epsilon) now dQ packetLoss jitterUs

/-- One call of `on_rtt_sample`: the instant it reads and its arguments. -/
structure RttSample (K : Type) where
  now : Nat
  rttUs : UInt64
  packetLoss : K
  jitterUs : UInt32

/-- A sequence of samples, stopped by the first panic. -/
def run (s : DeltaCC K) (samples : List (RttSample K)) : Except ArithPanic (DeltaCC K) :=
  samples.foldlM
    (fun s sample => s.onRttSample sample.now sample.rttUs sample.packetLoss sample.jitterUs) s

@[simp] theorem run_nil (s : DeltaCC K) : s.run [] = .ok s := rfl

theorem run_cons (s : DeltaCC K) (sample : RttSample K) (samples : List (RttSample K)) :
    s.run (sample :: samples) =
      s.onRttSample sample.now sample.rttUs sample.packetLoss sample.jitterUs >>= fun s =>
        s.run samples :=
  rfl

/-- A property that every sample keeps holds after any run. -/
theorem run_induction {P : DeltaCC K → Prop}
    (hStep : ∀ s s' now rttUs packetLoss jitterUs, P s →
      s.onRttSample now rttUs packetLoss jitterUs = .ok s' → P s')
    {s s' : DeltaCC K} {samples : List (RttSample K)} (hStart : P s) (h : s.run samples = .ok s') :
    P s' := by
  induction samples generalizing s with
  | nil =>
      cases h
      exact hStart
  | cons sample samples ih =>
      obtain ⟨s₁, hFirst, hRest⟩ := Wire.bind_eq_ok h
      exact ih (hStep _ _ _ _ _ _ hStart hFirst) hRest

/-! ## What one sample does -/

/-- A sample is `update_params` run on a state with the same outputs and
configuration, at a queueing delay that is never negative. -/
theorem onRttSample_eq (s : DeltaCC K) (now : Nat) (rttUs : UInt64) (packetLoss : K)
    (jitterUs : UInt32) :
    ∃ (s₁ : DeltaCC K) (dQ : K),
      s.onRttSample now rttUs packetLoss jitterUs = s₁.updateParams now dQ packetLoss jitterUs ∧
      0 ≤ dQ ∧ s₁.config = s.config ∧ s₁.currentBitrateKbps = s.currentBitrateKbps ∧
      s₁.currentFps = s.currentFps ∧ s₁.fecRatio = s.fecRatio := by
  refine ⟨_, _, rfl, le_max_right _ _, ?_, ?_, ?_, ?_⟩ <;> simp [updateRttMin]

/-- Everything `update_params` can do, by the state it finds. -/
theorem updateParams_cases {s s' : DeltaCC K} {now : Nat} {dQ packetLoss : K} {jitterUs : UInt32}
    (h : s.updateParams now dQ packetLoss jitterUs = .ok s') :
    s'.config = s.config ∧ s'.state = s.state ∧
      (s.state = .stable ∧
          s.currentBitrateKbps.toNat + (additiveIncrease s.config dQ).toNat < 2 ^ 32 ∧
          s'.currentBitrateKbps =
            min (s.currentBitrateKbps + additiveIncrease s.config dQ) s.config.maxBitrateKbps ∧
          s'.currentFps = s.currentFps ∧
          s'.fecRatio = (if jitterUs < 5000 then max (jitterFec s.fecRatio jitterUs - 0.001) 0.05
            else jitterFec s.fecRatio jitterUs) ∨
        s.state = .rising ∧ s'.currentBitrateKbps = s.currentBitrateKbps ∧
          s'.currentFps = s.currentFps ∧ s'.fecRatio = jitterFec s.fecRatio jitterUs ∨
        s.state = .congested ∧
          s'.currentBitrateKbps =
            max (truncU32 (s.currentBitrateKbps.toNat * s.config.beta)) s.config.minBitrateKbps ∧
          (s'.currentFps = s.currentFps ∨ s'.currentFps = stepDownFps s.currentFps) ∧
          s'.fecRatio = (if packetLoss > 0.01 then min (jitterFec s.fecRatio jitterUs * 1.5) 0.5
            else jitterFec s.fecRatio jitterUs)) := by
  unfold updateParams at h
  rcases hState : s.state with _ | _ | _ <;> simp only [hState] at h
  · by_cases hFits : s.currentBitrateKbps.toNat + (additiveIncrease s.config dQ).toNat < 2 ^ 32
    · rw [debugAdd32, debugAdd_of_lt hFits] at h
      simp only [Wire.ok_bind, Wire.pure_eq_ok, Except.ok.injEq] at h
      subst h
      split_ifs <;> exact ⟨rfl, rfl, .inl ⟨rfl, hFits, rfl, rfl, rfl⟩⟩
    · rw [debugAdd32, debugAdd_of_le (Nat.le_of_not_lt hFits)] at h
      cases h
  · cases h
    exact ⟨rfl, rfl, .inr (.inl ⟨rfl, rfl, rfl, rfl⟩)⟩
  · cases hStart : s.congestedStart with
    | none =>
        simp only [hStart, Wire.pure_eq_ok, Except.ok.injEq] at h
        subst h
        split_ifs <;> simp
    | some start =>
        simp only [hStart, Wire.pure_eq_ok, Except.ok.injEq] at h
        subst h
        split_ifs <;> simp

theorem config_onRttSample {s s' : DeltaCC K} {now : Nat} {rttUs : UInt64} {packetLoss : K}
    {jitterUs : UInt32} (h : s.onRttSample now rttUs packetLoss jitterUs = .ok s') :
    s'.config = s.config := by
  obtain ⟨s₁, dQ, hEq, -, hConfig, -⟩ := onRttSample_eq s now rttUs packetLoss jitterUs
  rw [hEq] at h
  exact (updateParams_cases h).1.trans hConfig

theorem config_run {s s' : DeltaCC K} {samples : List (RttSample K)} (h : s.run samples = .ok s') :
    s'.config = s.config :=
  run_induction (P := fun t => t.config = s.config)
    (fun _ _ _ _ _ _ hConfig hStep => (config_onRttSample hStep).trans hConfig) rfl h

/-! ## The frame rate -/

theorem toNat_stepDownFps (currentFps : UInt32) :
    (stepDownFps currentFps).toNat ≤ currentFps.toNat ∧
      min currentFps.toNat 30 ≤ (stepDownFps currentFps).toNat := by
  unfold stepDownFps
  split_ifs with h144 h90 h60 h45 hHigh
  · rcases h144 with rfl | rfl <;> simp
  · subst h90
    simp
  · subst h60
    simp
  · subst h45
    simp
  · rw [gt_iff_lt, UInt32.lt_iff_toNat_lt] at hHigh
    simp only [UInt32.reduceToNat] at hHigh ⊢
    omega
  · exact ⟨le_rfl, Nat.min_le_left _ _⟩

/-- A sample leaves the frame rate alone or steps it down once. -/
theorem currentFps_onRttSample {s s' : DeltaCC K} {now : Nat} {rttUs : UInt64} {packetLoss : K}
    {jitterUs : UInt32} (h : s.onRttSample now rttUs packetLoss jitterUs = .ok s') :
    s'.currentFps = s.currentFps ∨ s'.currentFps = stepDownFps s.currentFps := by
  obtain ⟨s₁, dQ, hEq, -, -, -, hFps, -⟩ := onRttSample_eq s now rttUs packetLoss jitterUs
  rw [hEq] at h
  rw [← hFps]
  obtain ⟨-, -, ⟨-, -, -, hFps', -⟩ | ⟨-, -, hFps', -⟩ | ⟨-, -, hFps', -⟩⟩ := updateParams_cases h
  · exact .inl hFps'
  · exact .inl hFps'
  · exact hFps'

theorem toNat_currentFps_onRttSample {s s' : DeltaCC K} {now : Nat} {rttUs : UInt64}
    {packetLoss : K} {jitterUs : UInt32} (h : s.onRttSample now rttUs packetLoss jitterUs = .ok s') :
    s'.currentFps.toNat ≤ s.currentFps.toNat ∧
      min s.currentFps.toNat 30 ≤ s'.currentFps.toNat := by
  rcases currentFps_onRttSample h with hFps | hFps
  · rw [hFps]
    exact ⟨le_rfl, Nat.min_le_left _ _⟩
  · rw [hFps]
    exact toNat_stepDownFps s.currentFps

/-- At a jitter above 5 ms the ratio is the jitter boost's, unless congestion
with loss multiplies it on top. -/
theorem fecRatio_updateParams_of_jitter {s s' : DeltaCC K} {now : Nat} {dQ packetLoss : K}
    {jitterUs : UInt32} (h : s.updateParams now dQ packetLoss jitterUs = .ok s')
    (hJitter : 5000 < jitterUs) :
    s'.fecRatio = jitterFec s.fecRatio jitterUs ∨
      packetLoss > 0.01 ∧ s'.fecRatio = min (jitterFec s.fecRatio jitterUs * 1.5) 0.5 := by
  have hNoDecay : ¬ jitterUs < 5000 := by
    rw [UInt32.lt_iff_toNat_lt] at hJitter ⊢
    omega
  obtain ⟨-, -, ⟨-, -, -, -, hFec⟩ | ⟨-, -, -, hFec⟩ | ⟨-, -, -, hFec⟩⟩ := updateParams_cases h
  · exact .inl (hFec.trans (if_neg hNoDecay))
  · exact .inl hFec
  · by_cases hLoss : packetLoss > 0.01
    · exact .inr ⟨hLoss, hFec.trans (if_pos hLoss)⟩
    · exact .inl (hFec.trans (if_neg hLoss))

/-! ## Panics -/

theorem updateParams_ok {s : DeltaCC K} {now : Nat} {dQ packetLoss : K} {jitterUs : UInt32}
    (hFits : s.state = .stable →
      s.currentBitrateKbps.toNat + (additiveIncrease s.config dQ).toNat < 2 ^ 32) :
    ∃ s', s.updateParams now dQ packetLoss jitterUs = .ok s' := by
  unfold updateParams
  rcases hState : s.state with _ | _ | _ <;> dsimp only
  · rw [debugAdd32, debugAdd_of_lt (hFits hState)]
    exact ⟨_, rfl⟩
  · exact ⟨_, rfl⟩
  · exact ⟨_, rfl⟩

theorem updateParams_overflow {s : DeltaCC K} {now : Nat} {dQ packetLoss : K} {jitterUs : UInt32}
    (hState : s.state = .stable)
    (hOver : 2 ^ 32 ≤ s.currentBitrateKbps.toNat + (additiveIncrease s.config dQ).toNat) :
    s.updateParams now dQ packetLoss jitterUs = .error .addOverflow := by
  unfold updateParams
  simp only [hState]
  rw [debugAdd32, debugAdd_of_le hOver]
  rfl

section Order

variable [IsStrictOrderedRing K]

/-! ## The FEC ratio -/

/-- The jitter boost keeps the ratio in the controller's range. -/
theorem jitterFec_mem {fecRatio : K} (hFec : fecRatio ∈ Set.Icc (0.05 : K) 0.5) (jitterUs : UInt32) :
    jitterFec fecRatio jitterUs ∈ Set.Icc (0.05 : K) 0.5 := by
  obtain ⟨hLo, hHi⟩ := hFec
  unfold jitterFec
  split_ifs
  · exact ⟨le_min (by linarith) (by norm_num), (min_le_right _ _).trans (by norm_num)⟩
  · exact ⟨le_min (by linarith) (by norm_num), (min_le_right _ _).trans (by norm_num)⟩
  · exact ⟨hLo, hHi⟩

theorem fecRatio_updateParams_mem {s s' : DeltaCC K} {now : Nat} {dQ packetLoss : K}
    {jitterUs : UInt32} (h : s.updateParams now dQ packetLoss jitterUs = .ok s')
    (hFec : s.fecRatio ∈ Set.Icc (0.05 : K) 0.5) : s'.fecRatio ∈ Set.Icc (0.05 : K) 0.5 := by
  have hJitter := jitterFec_mem hFec jitterUs
  obtain ⟨-, -, ⟨-, -, -, -, hFec'⟩ | ⟨-, -, -, hFec'⟩ | ⟨-, -, -, hFec'⟩⟩ := updateParams_cases h
  · rw [hFec']
    split_ifs
    · exact ⟨le_max_right _ _, max_le (by linarith [hJitter.2]) (by norm_num)⟩
    · exact hJitter
  · rw [hFec']
    exact hJitter
  · rw [hFec']
    split_ifs
    · exact ⟨le_min (by linarith [hJitter.1]) (by norm_num), min_le_right _ _⟩
    · exact hJitter

/-- Below its cap, the jitter boost does not lower the ratio. -/
theorem le_jitterFec {fecRatio : K} {jitterUs : UInt32} (hJitter : 5000 < jitterUs)
    (hCap : fecRatio ≤ if 10000 < jitterUs then 0.25 else 0.2) :
    fecRatio ≤ jitterFec fecRatio jitterUs := by
  unfold jitterFec
  split_ifs at hCap ⊢
  · exact le_min (by linarith) hCap
  · exact le_min (by linarith) hCap

theorem jitterFec_le {fecRatio : K} {jitterUs : UInt32} (hJitter : 5000 < jitterUs) :
    jitterFec fecRatio jitterUs ≤ 0.25 := by
  unfold jitterFec
  split_ifs
  · exact min_le_right _ _
  · exact (min_le_right _ _).trans (by norm_num)

theorem fecRatio_onRttSample_mem {s s' : DeltaCC K} {now : Nat} {rttUs : UInt64} {packetLoss : K}
    {jitterUs : UInt32} (h : s.onRttSample now rttUs packetLoss jitterUs = .ok s')
    (hFec : s.fecRatio ∈ Set.Icc (0.05 : K) 0.5) : s'.fecRatio ∈ Set.Icc (0.05 : K) 0.5 := by
  obtain ⟨s₁, dQ, hEq, -, -, -, -, hFec₁⟩ := onRttSample_eq s now rttUs packetLoss jitterUs
  rw [hEq] at h
  apply fecRatio_updateParams_mem h
  rw [hFec₁]
  exact hFec

/-! ## The invariant of a run -/

/-- What every state reached from `new _ _ f0` keeps: the frame rate between
`min f0 30` and `f0`, and the FEC ratio between 5% and 50%. -/
structure Bounded (f0 : UInt32) (s : DeltaCC K) : Prop where
  currentFps_le : s.currentFps.toNat ≤ f0.toNat
  min_le_currentFps : min f0.toNat 30 ≤ s.currentFps.toNat
  fecRatio_mem : s.fecRatio ∈ Set.Icc (0.05 : K) 0.5

theorem bounded_new (config : DeltaConfig K) (initialBitrate initialFps : UInt32) :
    Bounded initialFps (new config initialBitrate initialFps) where
  currentFps_le := le_rfl
  min_le_currentFps := Nat.min_le_left _ _
  fecRatio_mem := ⟨le_rfl, show (0.05 : K) ≤ 0.5 by norm_num⟩

theorem Bounded.onRttSample {f0 : UInt32} {s s' : DeltaCC K} {now : Nat} {rttUs : UInt64}
    {packetLoss : K} {jitterUs : UInt32} (hBounded : Bounded f0 s)
    (h : s.onRttSample now rttUs packetLoss jitterUs = .ok s') : Bounded f0 s' := by
  obtain ⟨hLe, hMin⟩ := toNat_currentFps_onRttSample h
  have hUpper := hBounded.currentFps_le
  have hLower := hBounded.min_le_currentFps
  exact ⟨by omega, by omega, fecRatio_onRttSample_mem h hBounded.fecRatio_mem⟩

theorem bounded_run (config : DeltaConfig K) (initialBitrate initialFps : UInt32)
    {samples : List (RttSample K)} {s : DeltaCC K}
    (h : (new config initialBitrate initialFps).run samples = .ok s) : Bounded initialFps s :=
  run_induction (fun _ _ _ _ _ _ hBounded hStep => hBounded.onRttSample hStep)
    (bounded_new config initialBitrate initialFps) h

/-! ## The bitrate -/

/-- The bitrate lies in its configuration's range. -/
structure InRange (s : DeltaCC K) : Prop where
  min_le : s.config.minBitrateKbps.toNat ≤ s.currentBitrateKbps.toNat
  le_max : s.currentBitrateKbps.toNat ≤ s.config.maxBitrateKbps.toNat

/-- The multiplicative decrease never raises a bitrate past a bound it was under. -/
theorem toNat_truncU32_mul_le {bitrate : UInt32} {beta : K} (hBeta : beta ≤ 1) {n : Nat}
    (h : bitrate.toNat ≤ n) : (truncU32 (bitrate.toNat * beta)).toNat ≤ n := by
  apply toNat_truncU32_le
  calc (bitrate.toNat : K) * beta ≤ bitrate.toNat := mul_le_of_le_one_right (Nat.cast_nonneg _) hBeta
    _ ≤ n := Nat.cast_le.mpr h

theorem additiveIncrease_le (config : DeltaConfig K) {dQ : K} (hdQ : 0 ≤ dQ) :
    (additiveIncrease config dQ).toNat ≤ config.increaseKbps.toNat := by
  have hGain : (if (config.targetDelayUs.toNat : K) = 0 then 0
      else max (1 - dQ / config.targetDelayUs.toNat) 0) ≤ 1 := by
    split_ifs
    · exact zero_le_one
    · exact max_le (sub_le_self _ (div_nonneg hdQ (Nat.cast_nonneg _))) zero_le_one
  rw [← UInt32.le_iff_toNat_le]
  apply truncU32_le
  exact mul_le_of_le_one_right (Nat.cast_nonneg _) hGain

/-- At no queueing delay and a positive target the gain is one. -/
theorem additiveIncrease_zero {config : DeltaConfig K} (hTarget : 0 < config.targetDelayUs) :
    additiveIncrease config 0 = config.increaseKbps := by
  have hTarget' : (config.targetDelayUs.toNat : K) ≠ 0 := by
    rw [UInt64.lt_iff_toNat_lt] at hTarget
    exact Nat.cast_ne_zero.mpr (by simpa using hTarget.ne')
  simp [additiveIncrease, hTarget']

theorem inRange_updateParams {s s' : DeltaCC K} {now : Nat} {dQ packetLoss : K}
    {jitterUs : UInt32} (h : s.updateParams now dQ packetLoss jitterUs = .ok s')
    (hMinMax : s.config.minBitrateKbps ≤ s.config.maxBitrateKbps) (hBeta : s.config.beta ≤ 1)
    (hRange : InRange s) :
    InRange s' ∧ (s'.state ≠ .stable → s'.currentBitrateKbps.toNat ≤ s.currentBitrateKbps.toNat) := by
  rw [UInt32.le_iff_toNat_le] at hMinMax
  have hLo := hRange.min_le
  have hHi := hRange.le_max
  obtain ⟨hConfig, hState, hCases⟩ := updateParams_cases h
  have hNew : s.config.minBitrateKbps.toNat ≤ s'.currentBitrateKbps.toNat ∧
      s'.currentBitrateKbps.toNat ≤ s.config.maxBitrateKbps.toNat ∧
      (s.state ≠ .stable → s'.currentBitrateKbps.toNat ≤ s.currentBitrateKbps.toNat) := by
    rcases hCases with ⟨hStable, hFits, hBitrate, -⟩ | ⟨-, hBitrate, -⟩ | ⟨-, hBitrate, -⟩
    · rw [hBitrate, toNat_min32, UInt32.toNat_add, Nat.mod_eq_of_lt hFits]
      exact ⟨by omega, by omega, fun hNotStable => absurd hStable hNotStable⟩
    · rw [hBitrate]
      exact ⟨hLo, hHi, fun _ => le_rfl⟩
    · have hDown := toNat_truncU32_mul_le hBeta hHi
      have hSelf := toNat_truncU32_mul_le hBeta (le_refl s.currentBitrateKbps.toNat)
      rw [hBitrate, toNat_max32]
      exact ⟨by omega, by omega, fun _ => by omega⟩
  obtain ⟨hNewLo, hNewHi, hDir⟩ := hNew
  rw [← hConfig] at hNewLo hNewHi
  rw [← hState] at hDir
  exact ⟨⟨hNewLo, hNewHi⟩, hDir⟩

theorem inRange_onRttSample {s s' : DeltaCC K} {now : Nat} {rttUs : UInt64} {packetLoss : K}
    {jitterUs : UInt32} (h : s.onRttSample now rttUs packetLoss jitterUs = .ok s')
    (hMinMax : s.config.minBitrateKbps ≤ s.config.maxBitrateKbps) (hBeta : s.config.beta ≤ 1)
    (hRange : InRange s) :
    InRange s' ∧ (s'.state ≠ .stable → s'.currentBitrateKbps.toNat ≤ s.currentBitrateKbps.toNat) := by
  obtain ⟨s₁, dQ, hEq, -, hConfig, hBitrate, -⟩ := onRttSample_eq s now rttUs packetLoss jitterUs
  rw [hEq] at h
  have hRange₁ : InRange s₁ := by
    constructor <;> rw [hConfig, hBitrate]
    exacts [hRange.min_le, hRange.le_max]
  rw [← hBitrate]
  rw [← hConfig] at hMinMax hBeta
  exact inRange_updateParams h hMinMax hBeta hRange₁

/-- When the configured maximum leaves room for one increase, no sample panics. -/
theorem onRttSample_ok {s : DeltaCC K} (now : Nat) (rttUs : UInt64) (packetLoss : K)
    (jitterUs : UInt32)
    (hRoom : s.config.maxBitrateKbps.toNat + s.config.increaseKbps.toNat < 2 ^ 32)
    (hRange : InRange s) : ∃ s', s.onRttSample now rttUs packetLoss jitterUs = .ok s' := by
  obtain ⟨s₁, dQ, hEq, hdQ, hConfig, hBitrate, -⟩ := onRttSample_eq s now rttUs packetLoss jitterUs
  rw [hEq]
  apply updateParams_ok
  intro _
  have hIncrease := additiveIncrease_le s₁.config hdQ
  have hHi := hRange.le_max
  rw [hConfig] at hIncrease ⊢
  rw [hBitrate]
  omega

theorem run_ok {s : DeltaCC K} (samples : List (RttSample K))
    (hMinMax : s.config.minBitrateKbps ≤ s.config.maxBitrateKbps) (hBeta : s.config.beta ≤ 1)
    (hRoom : s.config.maxBitrateKbps.toNat + s.config.increaseKbps.toNat < 2 ^ 32)
    (hRange : InRange s) : ∃ s', s.run samples = .ok s' := by
  induction samples generalizing s with
  | nil => exact ⟨s, rfl⟩
  | cons sample samples ih =>
      obtain ⟨s₁, hStep⟩ :=
        onRttSample_ok sample.now sample.rttUs sample.packetLoss sample.jitterUs hRoom hRange
      have hConfig := config_onRttSample hStep
      have hRange₁ := (inRange_onRttSample hStep hMinMax hBeta hRange).1
      rw [run_cons, hStep]
      rw [← hConfig] at hMinMax hBeta hRoom
      exact ih hMinMax hBeta hRoom hRange₁

omit [FloorSemiring K] in
/-- A sample with no queueing delay and no slope keeps a Stable controller
Stable. -/
theorem state_updateState_zero {s : DeltaCC K} (now : Nat) {epsilon : K}
    (hStable : s.state = .stable) (hEpsilon : 0 ≤ epsilon) :
    (s.updateState now 0 0 epsilon).state = .stable := by
  have hBelow : ¬ (0 : K) > s.config.targetDelayUs.toNat := not_lt.mpr (Nat.cast_nonneg _)
  have hFlat : ¬ (0 : K) > epsilon := not_lt.mpr hEpsilon
  unfold updateState
  dsimp only
  rw [if_neg hBelow, if_neg hFlat, if_pos le_rfl]
  split_ifs
  · rfl
  · exact hStable

/-- A first sample finds no queueing delay, so the state stays Stable and the
whole `increase_kbps` is added. -/
theorem onRttSample_new {config : DeltaConfig K} {initialBitrate initialFps : UInt32}
    (now : Nat) (rttUs : UInt64) (packetLoss : K) (jitterUs : UInt32)
    (hTarget : 0 < config.targetDelayUs) (hEpsilon : 0 ≤ config.epsilonUs)
    (hOver : 2 ^ 32 ≤ initialBitrate.toNat + config.increaseKbps.toNat) :
    (new config initialBitrate initialFps).onRttSample now rttUs packetLoss jitterUs =
      .error .addOverflow := by
  have hSmooth :
      (smoothRtt (updateRttMin (new config initialBitrate initialFps) now rttUs) rttUs).rttSmoothUs =
        rttUs.toNat := by
    simp [smoothRtt, updateRttMin, new]
  have hMin :
      (smoothRtt (updateRttMin (new config initialBitrate initialFps) now rttUs) rttUs).rttMinUs =
        rttUs := by
    unfold smoothRtt
    split_ifs <;> simp [updateRttMin, new]
  have hLast :
      (smoothRtt (updateRttMin (new config initialBitrate initialFps) now rttUs) rttUs).lastDQUs =
        0 := by
    unfold smoothRtt
    split_ifs <;> rfl
  unfold onRttSample
  dsimp only
  rw [hSmooth, hMin, hLast, sub_self, max_self, sub_self]
  apply updateParams_overflow
  · apply state_updateState_zero
    · unfold smoothRtt
      split_ifs <;> rfl
    · split_ifs
      · positivity
      · positivity
      · simpa [updateRttMin, new] using hEpsilon
  · simp only [currentBitrateKbps_updateState, config_updateState, currentBitrateKbps_smoothRtt,
      config_smoothRtt]
    rw [show ((new config initialBitrate initialFps).updateRttMin now rttUs).config = config from rfl,
      additiveIncrease_zero hTarget]
    exact hOver

theorem inRange_run {s s' : DeltaCC K} {samples : List (RttSample K)}
    (hMinMax : s.config.minBitrateKbps ≤ s.config.maxBitrateKbps) (hBeta : s.config.beta ≤ 1)
    (hRange : InRange s) (h : s.run samples = .ok s') : InRange s' := by
  have hRun := run_induction (P := fun t => t.config = s.config ∧ InRange t)
    (fun _ _ _ _ _ _ ⟨hConfig, hRange⟩ hStep =>
      ⟨(config_onRttSample hStep).trans hConfig,
        (inRange_onRttSample hStep (hConfig ▸ hMinMax) (hConfig ▸ hBeta) hRange).1⟩)
    ⟨rfl, hRange⟩ h
  exact hRun.2

/-! ## Jitter and the FEC ratio -/

/-- A jitter sample above 5 ms does not lower a ratio that is below the jitter
boost's cap. -/
theorem le_fecRatio_onRttSample {s s' : DeltaCC K} {now : Nat} {rttUs : UInt64} {packetLoss : K}
    {jitterUs : UInt32} (h : s.onRttSample now rttUs packetLoss jitterUs = .ok s')
    (hJitter : 5000 < jitterUs) (hFec : 0 ≤ s.fecRatio)
    (hCap : s.fecRatio ≤ if 10000 < jitterUs then 0.25 else 0.2) : s.fecRatio ≤ s'.fecRatio := by
  obtain ⟨s₁, dQ, hEq, -, -, -, -, hFec₁⟩ := onRttSample_eq s now rttUs packetLoss jitterUs
  rw [hEq] at h
  rw [← hFec₁] at hFec hCap ⊢
  have hUp := le_jitterFec hJitter hCap
  rcases fecRatio_updateParams_of_jitter h hJitter with hNew | ⟨-, hNew⟩
  · rw [hNew]
    exact hUp
  · have hTop : jitterFec s₁.fecRatio jitterUs ≤ 0.25 := jitterFec_le hJitter
    rw [hNew]
    exact hUp.trans (le_min (by linarith) (by linarith))

omit [IsStrictOrderedRing K] in
/-- Above 10 ms of jitter and without loss, the ratio becomes the jitter
boost's, capped at 25%, whatever it was before. -/
theorem fecRatio_onRttSample_of_jitter {s s' : DeltaCC K} {now : Nat} {rttUs : UInt64}
    {packetLoss : K} {jitterUs : UInt32} (h : s.onRttSample now rttUs packetLoss jitterUs = .ok s')
    (hJitter : 10000 < jitterUs) (hLoss : packetLoss ≤ 0.01) :
    s'.fecRatio = min (s.fecRatio + 0.02) 0.25 := by
  obtain ⟨s₁, dQ, hEq, -, -, -, -, hFec₁⟩ := onRttSample_eq s now rttUs packetLoss jitterUs
  rw [hEq] at h
  rw [← hFec₁]
  have hAbove : 5000 < jitterUs := by
    rw [UInt32.lt_iff_toNat_lt] at hJitter ⊢
    simp only [UInt32.reduceToNat] at hJitter ⊢
    omega
  rcases fecRatio_updateParams_of_jitter h hAbove with hNew | ⟨hLossHigh, -⟩
  · rw [hNew]
    exact if_pos hJitter
  · exact absurd hLossHigh (not_lt.mpr hLoss)

/-! ## Outputs over a run -/

/-- From `new` under a configuration with `min <= max` and `beta <= 1` and an
initial bitrate in range, every run keeps the frame rate between
`min(f0, 30)` and `f0`, the FEC ratio in `[0.05, 0.5]` and the bitrate in
`[min, max]`. A later sample never raises the frame rate, and never raises the
bitrate when it leaves the controller Rising or Congested. Runs never panic when
`max + increase` fits in a `u32`, but when the initial bitrate plus
`increase_kbps` does not, the very first sample overflows the additive
increase. -/
theorem deltaCC_outputs (config : DeltaConfig K) (initialBitrate initialFps : UInt32)
    (hMinMax : config.minBitrateKbps ≤ config.maxBitrateKbps) (hBeta : config.beta ≤ 1)
    (hInitial : config.minBitrateKbps ≤ initialBitrate ∧ initialBitrate ≤ config.maxBitrateKbps) :
    (∀ samples s, (new config initialBitrate initialFps).run samples = .ok s →
      (min initialFps 30 ≤ s.currentFps ∧ s.currentFps ≤ initialFps) ∧
      s.fecRatio ∈ Set.Icc (0.05 : K) 0.5 ∧
      (config.minBitrateKbps ≤ s.currentBitrateKbps ∧ s.currentBitrateKbps ≤ config.maxBitrateKbps) ∧
      ∀ now rttUs packetLoss jitterUs s', s.onRttSample now rttUs packetLoss jitterUs = .ok s' →
        s'.currentFps ≤ s.currentFps ∧
        (s'.state ≠ .stable → s'.currentBitrateKbps ≤ s.currentBitrateKbps)) ∧
    (config.maxBitrateKbps.toNat + config.increaseKbps.toNat < 2 ^ 32 →
      ∀ samples, ∃ s, (new config initialBitrate initialFps).run samples = .ok s) ∧
    (0 < config.targetDelayUs → 0 ≤ config.epsilonUs →
      2 ^ 32 ≤ initialBitrate.toNat + config.increaseKbps.toNat →
      ∀ now rttUs packetLoss jitterUs,
        (new config initialBitrate initialFps).onRttSample now rttUs packetLoss jitterUs =
          .error .addOverflow) := by
  have hStart : InRange (new config initialBitrate initialFps) :=
    ⟨UInt32.le_iff_toNat_le.mp hInitial.1, UInt32.le_iff_toNat_le.mp hInitial.2⟩
  refine ⟨fun samples s h => ?_, fun hRoom samples => run_ok samples hMinMax hBeta hRoom hStart,
    fun hTarget hEpsilon hOver now rttUs packetLoss jitterUs =>
      onRttSample_new now rttUs packetLoss jitterUs hTarget hEpsilon hOver⟩
  have hBounded := bounded_run config initialBitrate initialFps h
  have hConfig : s.config = config := config_run h
  have hRange := inRange_run hMinMax hBeta hStart h
  rw [← hConfig] at hMinMax hBeta ⊢
  simp only [UInt32.le_iff_toNat_le, toNat_min32, UInt32.reduceToNat]
  refine ⟨⟨hBounded.min_le_currentFps, hBounded.currentFps_le⟩, hBounded.fecRatio_mem,
    ⟨hRange.min_le, hRange.le_max⟩, fun now rttUs packetLoss jitterUs s' hStep => ?_⟩
  exact ⟨(toNat_currentFps_onRttSample hStep).1, (inRange_onRttSample hStep hMinMax hBeta hRange).2⟩

/-- `DeltaConfig::default()` with `max_bitrate_kbps` raised to `u32::MAX`. -/
def uncappedConfig : DeltaConfig ℚ := { DeltaConfig.default with maxBitrateKbps := 0xFFFFFFFF }

/-- `DeltaCC::new(uncappedConfig, u32::MAX, 60)`: the first sample, at 5 ms and
without loss or jitter, adds 500 kbps to `u32::MAX`. -/
theorem deltaCC_outputs_overflow :
    (new uncappedConfig 0xFFFFFFFF 60).onRttSample 0 5000 0 0 = .error .addOverflow :=
  (deltaCC_outputs uncappedConfig 0xFFFFFFFF 60 (by decide)
    (by norm_num [uncappedConfig, DeltaConfig.default]) ⟨by decide, by decide⟩).2.2 (by decide)
    (by norm_num [uncappedConfig, DeltaConfig.default]) (by decide) 0 5000 0 0

/-- From any configuration and initial outputs, and after any run: a sample with
more than 5 ms of jitter does not lower a FEC ratio that is below the jitter
boost's cap (25% above 10 ms of jitter, 20% below), and a sample with more than
10 ms of jitter and at most 1% loss sets the ratio to `min(fec + 0.02, 0.25)`,
which lowers any ratio above 25%. -/
theorem deltaCC_jitter_fec (config : DeltaConfig K) (initialBitrate initialFps : UInt32)
    (samples : List (RttSample K)) (s : DeltaCC K)
    (hReach : (new config initialBitrate initialFps).run samples = .ok s)
    (now : Nat) (rttUs : UInt64) (packetLoss : K) (jitterUs : UInt32) (s' : DeltaCC K)
    (hStep : s.onRttSample now rttUs packetLoss jitterUs = .ok s') :
    (5000 < jitterUs → s.fecRatio ≤ (if 10000 < jitterUs then 0.25 else 0.2) →
      s.fecRatio ≤ s'.fecRatio) ∧
    (10000 < jitterUs → packetLoss ≤ 0.01 → s'.fecRatio = min (s.fecRatio + 0.02) 0.25) := by
  have hFloor : 0 ≤ s.fecRatio := by
    have hMem := (bounded_run config initialBitrate initialFps hReach).fecRatio_mem
    linarith [hMem.1]
  exact ⟨fun hJitter hCap => le_fecRatio_onRttSample hStep hJitter hFloor hCap,
    fun hJitter hLoss => fecRatio_onRttSample_of_jitter hStep hJitter hLoss⟩

/-- Samples under the default configuration: a 5 ms RTT, then three at 200 ms,
all with 5% loss and 15 ms of jitter. The last three find the controller
Congested and lift the FEC ratio to 37.5%. -/
def congestedWithLoss : List (RttSample ℚ) :=
  [⟨0, 5000, 0.05, 15000⟩, ⟨0, 200000, 0.05, 15000⟩, ⟨0, 200000, 0.05, 15000⟩,
    ⟨0, 200000, 0.05, 15000⟩]

/-- After `congestedWithLoss`, a sample with 15 ms of jitter and no loss lowers
the FEC ratio from 37.5% to 25%. -/
theorem deltaCC_jitter_fec_lowered :
    ∃ s s', (new (DeltaConfig.default : DeltaConfig ℚ) 2000 60).run congestedWithLoss = .ok s ∧
      s.onRttSample 0 200000 0 15000 = .ok s' ∧ s.fecRatio = 0.375 ∧ s'.fecRatio = 0.25 := by
  have hRoom : (DeltaConfig.default : DeltaConfig ℚ).maxBitrateKbps.toNat +
      (DeltaConfig.default : DeltaConfig ℚ).increaseKbps.toNat < 2 ^ 32 := by decide
  have hMinMax : (DeltaConfig.default : DeltaConfig ℚ).minBitrateKbps ≤
      (DeltaConfig.default : DeltaConfig ℚ).maxBitrateKbps := by decide
  have hBeta : (DeltaConfig.default : DeltaConfig ℚ).beta ≤ 1 := by norm_num [DeltaConfig.default]
  have hStart : InRange (new (DeltaConfig.default : DeltaConfig ℚ) 2000 60) :=
    ⟨by decide, by decide⟩
  obtain ⟨s, hRun⟩ := run_ok congestedWithLoss hMinMax hBeta hRoom hStart
  have hFec : s.fecRatio = 0.375 := by
    have hEval : ((new (DeltaConfig.default : DeltaConfig ℚ) 2000 60).run
        congestedWithLoss).toOption.map fecRatio = some 0.375 := by decide +kernel
    rw [hRun] at hEval
    exact Option.some.inj hEval
  have hConfig : s.config = DeltaConfig.default := config_run hRun
  obtain ⟨s', hStep⟩ := onRttSample_ok 0 200000 0 15000 (hConfig ▸ hRoom)
    (inRange_run hMinMax hBeta hStart hRun)
  have hLowered := (deltaCC_jitter_fec DeltaConfig.default 2000 60 congestedWithLoss s hRun
    0 200000 0 15000 s' hStep).2 (by decide) (by norm_num)
  refine ⟨s, s', hRun, hStep, hFec, ?_⟩
  rw [hLowered, hFec]
  norm_num

end Order

end DeltaCC

end Wavry.RiftCore
