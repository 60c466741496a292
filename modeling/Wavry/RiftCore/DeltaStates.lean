import Wavry.RiftCore.DeltaCC

/-! The DELTA controller's state machine over whole runs: which fields each
part of a sample writes, the invariant tying `congested_start` to the
Congested state, the transitions a sample can make, how often sustained
congestion can lower the frame rate, and the windowed RTT minimum. -/
namespace Wavry.RiftCore.DeltaCC

open Saturating

variable {K : Type} [Field K] [LinearOrder K]

/-! ## What each part of a sample writes -/

theorem smoothRtt_eq (s : DeltaCC K) (rttUs : UInt64) :
    s.smoothRtt rttUs = { s with rttSmoothUs := (s.smoothRtt rttUs).rttSmoothUs } := by
  unfold smoothRtt
  split_ifs <;> rfl

/-- `update_state` writes the state, the two counters and `congested_start`. -/
theorem updateState_eq (s : DeltaCC K) (now : Nat) (dQ deltaQ epsilon : K) :
    s.updateState now dQ deltaQ epsilon =
      { s with
        state := (s.updateState now dQ deltaQ epsilon).state
        risingCount := (s.updateState now dQ deltaQ epsilon).risingCount
        stableCount := (s.updateState now dQ deltaQ epsilon).stableCount
        congestedStart := (s.updateState now dQ deltaQ epsilon).congestedStart } := by
  unfold updateState
  dsimp only
  split_ifs <;> rfl

/-- Everything `update_state` can do, by the branch that the queueing delay's
level and slope choose. -/
theorem updateState_cases {s s' : DeltaCC K} {now : Nat} {dQ deltaQ epsilon : K}
    (h : s.updateState now dQ deltaQ epsilon = s') :
    (dQ > (s.config.targetDelayUs.toNat : K) ∧ s'.state = .congested ∧ s'.risingCount = 0 ∧
        s'.stableCount = 0 ∧
        (s.state = .congested ∧ s'.congestedStart = s.congestedStart ∨
          s.state ≠ .congested ∧ s'.congestedStart = some now)) ∨
      (¬ dQ > (s.config.targetDelayUs.toNat : K) ∧ deltaQ > epsilon ∧
        s'.risingCount = s.risingCount + 1 ∧ s'.stableCount = 0 ∧
        s'.congestedStart = s.congestedStart ∧
        (s.config.kPersistence ≤ s'.risingCount ∧ s.state = .stable ∧ s'.state = .rising ∨
          ¬ (s.config.kPersistence ≤ s'.risingCount ∧ s.state = .stable) ∧ s'.state = s.state)) ∨
      (¬ dQ > (s.config.targetDelayUs.toNat : K) ∧ ¬ deltaQ > epsilon ∧ deltaQ ≤ 0 ∧
        s'.stableCount = s.stableCount + 1 ∧ s'.risingCount = 0 ∧
        (s.config.kPersistence ≤ s'.stableCount ∧ s.state ≠ .stable ∧ s'.state = .stable ∧
            s'.congestedStart = none ∨
          ¬ (s.config.kPersistence ≤ s'.stableCount ∧ s.state ≠ .stable) ∧ s'.state = s.state ∧
            s'.congestedStart = s.congestedStart)) ∨
      (¬ dQ > (s.config.targetDelayUs.toNat : K) ∧ ¬ deltaQ > epsilon ∧ ¬ deltaQ ≤ 0 ∧ s' = s) := by
  subst h
  unfold updateState
  dsimp only
  split_ifs with hHigh hEnter hRise hPersist hCalm hSettle
  · exact .inl ⟨hHigh, rfl, rfl, rfl, .inr ⟨hEnter, rfl⟩⟩
  · have hWas : s.state = .congested := not_not.mp hEnter
    exact .inl ⟨hHigh, hWas, rfl, rfl, .inl ⟨hWas, rfl⟩⟩
  · exact .inr (.inl ⟨hHigh, hRise, rfl, rfl, rfl, .inl ⟨hPersist.1, hPersist.2, rfl⟩⟩)
  · exact .inr (.inl ⟨hHigh, hRise, rfl, rfl, rfl, .inr ⟨hPersist, rfl⟩⟩)
  · exact .inr (.inr (.inl ⟨hHigh, hRise, hCalm, rfl, rfl, .inl ⟨hSettle.1, hSettle.2, rfl, rfl⟩⟩))
  · exact .inr (.inr (.inl ⟨hHigh, hRise, hCalm, rfl, rfl, .inr ⟨hSettle, rfl, rfl⟩⟩))
  · exact .inr (.inr (.inr ⟨hHigh, hRise, hCalm, rfl⟩))

/-- Each persistence counter grows by at most one a sample. -/
theorem counters_updateState_le (s : DeltaCC K) (now : Nat) (dQ deltaQ epsilon : K) :
    (s.updateState now dQ deltaQ epsilon).risingCount ≤ s.risingCount + 1 ∧
      (s.updateState now dQ deltaQ epsilon).stableCount ≤ s.stableCount + 1 := by
  rcases updateState_cases (rfl : s.updateState now dQ deltaQ epsilon = _) with
    ⟨-, -, hRising, hStable, -⟩ | ⟨-, -, hRising, hStable, -⟩ | ⟨-, -, -, hStable, hRising, -⟩ |
      ⟨-, -, -, hSame⟩
  · omega
  · omega
  · omega
  · rw [hSame]
    omega

/-- `update_state` sets `congested_start` to the sample's instant, clears it,
or leaves it. -/
theorem congestedStart_updateState (s : DeltaCC K) (now : Nat) (dQ deltaQ epsilon : K) :
    (s.updateState now dQ deltaQ epsilon).congestedStart = s.congestedStart ∨
      (s.updateState now dQ deltaQ epsilon).congestedStart = some now ∨
      (s.updateState now dQ deltaQ epsilon).congestedStart = none := by
  rcases updateState_cases (rfl : s.updateState now dQ deltaQ epsilon = _) with
    ⟨-, -, -, -, ⟨-, hStart⟩ | ⟨-, hStart⟩⟩ | ⟨-, -, -, -, hStart, -⟩ |
      ⟨-, -, -, -, -, ⟨-, -, -, hStart⟩ | ⟨-, -, hStart⟩⟩ | ⟨-, -, -, hSame⟩
  · exact .inl hStart
  · exact .inr (.inl hStart)
  · exact .inl hStart
  · exact .inr (.inr hStart)
  · exact .inl hStart
  · rw [hSame]
    exact .inl rfl

/-- `update_state` keeps the state, moves into Congested on a delay above the
target, from Stable into Rising on a persistent rise, or back into Stable on a
persistent fall. -/
theorem state_updateState (s : DeltaCC K) (now : Nat) (dQ deltaQ epsilon : K) :
    (s.updateState now dQ deltaQ epsilon).state = s.state ∨
      (s.updateState now dQ deltaQ epsilon).state = .congested ∧ dQ > (s.config.targetDelayUs.toNat : K) ∨
      s.state = .stable ∧ (s.updateState now dQ deltaQ epsilon).state = .rising ∧
        s.config.kPersistence ≤ (s.updateState now dQ deltaQ epsilon).risingCount ∨
      s.state ≠ .stable ∧ (s.updateState now dQ deltaQ epsilon).state = .stable ∧
        s.config.kPersistence ≤ (s.updateState now dQ deltaQ epsilon).stableCount := by
  rcases updateState_cases (rfl : s.updateState now dQ deltaQ epsilon = _) with
    ⟨hHigh, hState, -⟩ | ⟨-, -, -, -, -, ⟨hPersist, hWas, hState⟩ | ⟨-, hState⟩⟩ |
      ⟨-, -, -, -, -, ⟨hPersist, hWas, hState, -⟩ | ⟨-, hState, -⟩⟩ | ⟨-, -, -, hSame⟩
  · exact .inr (.inl ⟨hState, hHigh⟩)
  · exact .inr (.inr (.inl ⟨hWas, hState, hPersist⟩))
  · exact .inl hState
  · exact .inr (.inr (.inr ⟨hWas, hState, hPersist⟩))
  · exact .inl hState
  · rw [hSame]
    exact .inl rfl

/-- A delay above the target always lands in Congested with both counters
cleared. -/
theorem updateState_of_gt {s : DeltaCC K} {now : Nat} {dQ deltaQ epsilon : K}
    (hHigh : dQ > (s.config.targetDelayUs.toNat : K)) :
    (s.updateState now dQ deltaQ epsilon).state = .congested ∧
      (s.updateState now dQ deltaQ epsilon).risingCount = 0 ∧
      (s.updateState now dQ deltaQ epsilon).stableCount = 0 := by
  rcases updateState_cases (rfl : s.updateState now dQ deltaQ epsilon = _) with
    ⟨-, hState, hRising, hStable, -⟩ | ⟨hLow, -⟩ | ⟨hLow, -⟩ | ⟨hLow, -⟩
  · exact ⟨hState, hRising, hStable⟩
  all_goals exact absurd hHigh hLow

/-! ## The controller's invariant -/

/-- What every state reached from `new` keeps: the frame-rate timer
`congested_start` is set exactly while the controller is Congested, so the
step-down of `update_params` never finds Congested without a timer, and at most
one persistence counter is counting. -/
structure Machine (s : DeltaCC K) : Prop where
  congestedStart_isSome : s.congestedStart.isSome ↔ s.state = .congested
  counters : s.risingCount = 0 ∨ s.stableCount = 0

theorem Machine.updateState {s : DeltaCC K} (hMachine : Machine s) (now : Nat)
    (dQ deltaQ epsilon : K) : Machine (s.updateState now dQ deltaQ epsilon) := by
  have hTimer := hMachine.congestedStart_isSome
  rcases updateState_cases (rfl : s.updateState now dQ deltaQ epsilon = _) with
    ⟨-, hState, hRising, -, ⟨hWas, hStart⟩ | ⟨-, hStart⟩⟩ |
      ⟨-, -, -, hStable, hStart, ⟨-, hWas, hState⟩ | ⟨-, hState⟩⟩ |
      ⟨-, -, -, -, hRising, ⟨-, -, hState, hStart⟩ | ⟨-, hState, hStart⟩⟩ | ⟨-, -, -, hSame⟩
  · refine ⟨?_, .inl hRising⟩
    rw [hState, hStart]
    exact iff_of_true (hTimer.mpr hWas) rfl
  · refine ⟨?_, .inl hRising⟩
    rw [hState, hStart]
    exact iff_of_true rfl rfl
  · refine ⟨?_, .inr hStable⟩
    rw [hState, hStart]
    simpa [hWas] using hTimer
  · refine ⟨?_, .inr hStable⟩
    rw [hState, hStart]
    exact hTimer
  · refine ⟨?_, .inl hRising⟩
    rw [hState, hStart]
    simp
  · refine ⟨?_, .inl hRising⟩
    rw [hState, hStart]
    exact hTimer
  · rw [hSame]
    exact hMachine

variable [FloorSemiring K]

/-- `update_params` writes the outputs and `congested_start`. -/
theorem updateParams_eq {s s' : DeltaCC K} {now : Nat} {dQ packetLoss : K} {jitterUs : UInt32}
    (h : s.updateParams now dQ packetLoss jitterUs = .ok s') :
    s' = { s with
      currentBitrateKbps := s'.currentBitrateKbps
      currentFps := s'.currentFps
      congestedStart := s'.congestedStart
      fecRatio := s'.fecRatio } := by
  unfold updateParams at h
  rcases hState : s.state with _ | _ | _ <;> simp only [hState] at h
  · unfold debugAdd32 debugAdd at h
    split_ifs at h <;>
      simp only [Wire.ok_bind, Wire.error_bind, Wire.pure_eq_ok, Except.ok.injEq, reduceCtorEq] at h
    all_goals
      subst h
      rfl
  · cases h
    rfl
  · cases hStart : s.congestedStart <;>
      simp only [hStart, Wire.pure_eq_ok, Except.ok.injEq] at h <;> subst h <;> split_ifs <;> rfl

/-- `update_params` leaves `congested_start` and the frame rate alone, except
when it steps the frame rate down after more than a second of congestion and
restarts the timer. -/
theorem congestedStart_updateParams {s s' : DeltaCC K} {now : Nat} {dQ packetLoss : K}
    {jitterUs : UInt32} (h : s.updateParams now dQ packetLoss jitterUs = .ok s') :
    s'.congestedStart = s.congestedStart ∧ s'.currentFps = s.currentFps ∨
      ∃ start, s.congestedStart = some start ∧ now - start > 1000000000 ∧
        s'.congestedStart = some now ∧ s'.currentFps = stepDownFps s.currentFps := by
  unfold updateParams at h
  rcases hState : s.state with _ | _ | _ <;> simp only [hState] at h
  · unfold debugAdd32 debugAdd at h
    split_ifs at h <;>
      simp only [Wire.ok_bind, Wire.error_bind, Wire.pure_eq_ok, Except.ok.injEq, reduceCtorEq] at h
    all_goals
      subst h
      exact .inl ⟨rfl, rfl⟩
  · cases h
    exact .inl ⟨rfl, rfl⟩
  · cases hStart : s.congestedStart with
    | none =>
        simp only [hStart, Wire.pure_eq_ok, Except.ok.injEq] at h
        subst h
        split_ifs <;> exact .inl ⟨rfl, rfl⟩
    | some start =>
        simp only [hStart, Wire.pure_eq_ok, Except.ok.injEq] at h
        subst h
        split_ifs with hLoss hLong hLong
        · exact .inr ⟨start, rfl, hLong, rfl, rfl⟩
        · exact .inl ⟨rfl, rfl⟩
        · exact .inr ⟨start, rfl, hLong, rfl, rfl⟩
        · exact .inl ⟨rfl, rfl⟩

/-- A sample is `update_state` then `update_params`, run on the controller
with its RTT window, minimum, smoothed RTT and last delay refreshed. -/
theorem onRttSample_eq_updateParams (s : DeltaCC K) (now : Nat) (rttUs : UInt64) (packetLoss : K)
    (jitterUs : UInt32) :
    ∃ (s₁ : DeltaCC K) (dQ deltaQ epsilon : K),
      s.onRttSample now rttUs packetLoss jitterUs =
        (s₁.updateState now dQ deltaQ epsilon).updateParams now dQ packetLoss jitterUs ∧
      s₁ = { s.updateRttMin now rttUs with rttSmoothUs := s₁.rttSmoothUs, lastDQUs := dQ } := by
  refine ⟨_, _, _, _, rfl, ?_⟩
  unfold smoothRtt
  split_ifs <;> rfl

/-- What a sample leaves to the step after it: the fields of `update_state`
come out of `update_params` unchanged, and the window is `update_rtt_min`'s. -/
theorem onRttSample_fields {s s' : DeltaCC K} {now : Nat} {rttUs : UInt64} {packetLoss : K}
    {jitterUs : UInt32} (h : s.onRttSample now rttUs packetLoss jitterUs = .ok s') :
    ∃ (s₁ : DeltaCC K) (dQ deltaQ epsilon : K),
      s₁.config = s.config ∧ s₁.state = s.state ∧ s₁.risingCount = s.risingCount ∧
      s₁.stableCount = s.stableCount ∧ s₁.congestedStart = s.congestedStart ∧
      s₁.currentFps = s.currentFps ∧
      (s₁.updateState now dQ deltaQ epsilon).updateParams now dQ packetLoss jitterUs = .ok s' ∧
      s'.state = (s₁.updateState now dQ deltaQ epsilon).state ∧
      s'.risingCount = (s₁.updateState now dQ deltaQ epsilon).risingCount ∧
      s'.stableCount = (s₁.updateState now dQ deltaQ epsilon).stableCount ∧
      s'.lastDQUs = dQ ∧
      s'.windowSamples = (s.updateRttMin now rttUs).windowSamples ∧
      s'.rttMinUs = (s.updateRttMin now rttUs).rttMinUs ∧
      s'.windowDuration = s.windowDuration := by
  obtain ⟨s₁, dQ, deltaQ, epsilon, hEq, hShape⟩ :=
    onRttSample_eq_updateParams s now rttUs packetLoss jitterUs
  rw [hEq] at h
  have hParams := updateParams_eq h
  have hState := updateState_eq s₁ now dQ deltaQ epsilon
  refine ⟨s₁, dQ, deltaQ, epsilon, ?_, ?_, ?_, ?_, ?_, ?_, h, ?_, ?_, ?_, ?_, ?_, ?_, ?_⟩
  iterate 6 (· rw [hShape]; rfl)
  iterate 3 (· rw [hParams])
  iterate 3 (· rw [hParams, hState, hShape])
  · rw [hParams, hState, hShape]
    rfl

/-! ## Runs -/

theorem run_append (s : DeltaCC K) (first second : List (RttSample K)) :
    s.run (first ++ second) = s.run first >>= fun t => t.run second :=
  List.foldlM_append

theorem run_singleton (s : DeltaCC K) (sample : RttSample K) :
    s.run [sample] = s.onRttSample sample.now sample.rttUs sample.packetLoss sample.jitterUs := by
  rw [run_cons]
  cases s.onRttSample sample.now sample.rttUs sample.packetLoss sample.jitterUs <;> rfl

/-- The rest of a run, read off the run and its prefix. -/
theorem run_of_run_append {s t t' : DeltaCC K} {samples more : List (RttSample K)}
    (hPrefix : s.run samples = .ok t) (h : s.run (samples ++ more) = .ok t') : t.run more = .ok t' := by
  rw [run_append, hPrefix, Wire.ok_bind] at h
  exact h

theorem onRttSample_of_run_append {s t t' : DeltaCC K} {samples : List (RttSample K)}
    {sample : RttSample K} (hPrefix : s.run samples = .ok t) (h : s.run (samples ++ [sample]) = .ok t') :
    t.onRttSample sample.now sample.rttUs sample.packetLoss sample.jitterUs = .ok t' := by
  rw [← run_singleton]
  exact run_of_run_append hPrefix h

section Order

variable [IsStrictOrderedRing K]

/-- The witnesses' initial bitrate, 2000 kbit/s, is within the default bounds. -/
theorem initial_2000 : (2000 : UInt32) ≤ 2000 ∧ (2000 : UInt32) ≤ 50000 := ⟨by decide, by decide⟩

/-- The default configuration never panics: `max_bitrate_kbps + increase_kbps`
is far below `u32::MAX`. -/
theorem run_ok_default (initialBitrate initialFps : UInt32)
    (hInitial : 2000 ≤ initialBitrate ∧ initialBitrate ≤ 50000) (samples : List (RttSample K)) :
    ∃ s, (new (DeltaConfig.default : DeltaConfig K) initialBitrate initialFps).run samples = .ok s := by
  have hMinMax : (DeltaConfig.default : DeltaConfig K).minBitrateKbps ≤
      (DeltaConfig.default : DeltaConfig K).maxBitrateKbps :=
    show (2000 : UInt32) ≤ 50000 by decide
  have hBeta : (DeltaConfig.default : DeltaConfig K).beta ≤ 1 := by norm_num [DeltaConfig.default]
  have hRoom : (DeltaConfig.default : DeltaConfig K).maxBitrateKbps.toNat +
      (DeltaConfig.default : DeltaConfig K).increaseKbps.toNat < 2 ^ 32 :=
    show (50000 : UInt32).toNat + (500 : UInt32).toNat < 2 ^ 32 by decide
  exact run_ok samples hMinMax hBeta hRoom
    ⟨UInt32.le_iff_toNat_le.mp hInitial.1, UInt32.le_iff_toNat_le.mp hInitial.2⟩

end Order

/-- Two samples at the same instant under the default configuration: a 5 ms
RTT, then a 200 ms one whose queueing delay is above the target, so the
controller becomes Congested with its timer started at 0. -/
def sustainedCongestion : List (RttSample ℚ) := [⟨0, 5000, 0, 0⟩, ⟨0, 200000, 0, 0⟩]

/-! ## Transitions -/

theorem Machine.updateParams {s s' : DeltaCC K} {now : Nat} {dQ packetLoss : K} {jitterUs : UInt32}
    (hMachine : Machine s) (h : s.updateParams now dQ packetLoss jitterUs = .ok s') : Machine s' := by
  have hParams := updateParams_eq h
  have hState : s'.state = s.state := by rw [hParams]
  have hCounters : s'.risingCount = s.risingCount ∧ s'.stableCount = s.stableCount := by
    rw [hParams]
    exact ⟨rfl, rfl⟩
  refine ⟨?_, by rw [hCounters.1, hCounters.2]; exact hMachine.counters⟩
  rcases congestedStart_updateParams h with ⟨hStart, -⟩ | ⟨start, hWas, -, hStart, -⟩
  · rw [hStart, hState]
    exact hMachine.congestedStart_isSome
  · have hCongested : s.state = .congested := hMachine.congestedStart_isSome.mp (by rw [hWas]; rfl)
    rw [hStart, hState]
    exact iff_of_true rfl hCongested

theorem Machine.onRttSample {s s' : DeltaCC K} {now : Nat} {rttUs : UInt64} {packetLoss : K}
    {jitterUs : UInt32} (hMachine : Machine s)
    (h : s.onRttSample now rttUs packetLoss jitterUs = .ok s') : Machine s' := by
  obtain ⟨s₁, dQ, deltaQ, epsilon, -, hState, hRising, hStable, hStart, -, hParams, -⟩ :=
    onRttSample_fields h
  have hMachine₁ : Machine s₁ :=
    ⟨by rw [hStart, hState]; exact hMachine.congestedStart_isSome,
      by rw [hRising, hStable]; exact hMachine.counters⟩
  exact (hMachine₁.updateState now dQ deltaQ epsilon).updateParams hParams

/-- From `new`, every state a run reaches has `congested_start` set exactly
while it is Congested, and at most one of its persistence counters nonzero. -/
theorem machine_run (config : DeltaConfig K) (initialBitrate initialFps : UInt32)
    {samples : List (RttSample K)} {s : DeltaCC K}
    (h : (new config initialBitrate initialFps).run samples = .ok s) : Machine s :=
  run_induction (fun _ _ _ _ _ _ hMachine hStep => hMachine.onRttSample hStep)
    ⟨by simp [new], .inl rfl⟩ h

theorem machine_run_sustained : ∃ s : DeltaCC ℚ,
    (new DeltaConfig.default 2000 60).run sustainedCongestion = .ok s ∧ Machine s := by
  obtain ⟨s, h⟩ := run_ok_default 2000 60 initial_2000 sustainedCongestion
  exact ⟨s, h, machine_run DeltaConfig.default 2000 60 h⟩

/-- Every sample, from any state: the state stays, or becomes Congested on a
queueing delay above the target, or goes from Stable to Rising with at least
`k_persistence` rising samples counted, or from Rising or Congested to Stable
with at least `k_persistence` calm samples counted. A delay above the target
always leaves the controller Congested with both counters cleared. In
particular Congested never goes to Rising directly. -/
theorem state_onRttSample {s s' : DeltaCC K} {now : Nat} {rttUs : UInt64} {packetLoss : K}
    {jitterUs : UInt32} (h : s.onRttSample now rttUs packetLoss jitterUs = .ok s') :
    (s'.state = s.state ∨
      s'.state = .congested ∧ s'.lastDQUs > (s.config.targetDelayUs.toNat : K) ∨
      s.state = .stable ∧ s'.state = .rising ∧ s.config.kPersistence ≤ s'.risingCount ∨
      s.state ≠ .stable ∧ s'.state = .stable ∧ s.config.kPersistence ≤ s'.stableCount) ∧
    (s'.lastDQUs > (s.config.targetDelayUs.toNat : K) →
      s'.state = .congested ∧ s'.risingCount = 0 ∧ s'.stableCount = 0) := by
  obtain ⟨s₁, dQ, deltaQ, epsilon, hConfig, hState₁, -, -, -, -, -, hState, hRising, hStable, hLast,
    -⟩ := onRttSample_fields h
  rw [hState, hRising, hStable, hLast, ← hConfig, ← hState₁]
  exact ⟨state_updateState s₁ now dQ deltaQ epsilon, updateState_of_gt⟩

theorem counters_onRttSample_le {s s' : DeltaCC K} {now : Nat} {rttUs : UInt64} {packetLoss : K}
    {jitterUs : UInt32} (h : s.onRttSample now rttUs packetLoss jitterUs = .ok s') :
    s'.risingCount ≤ s.risingCount + 1 ∧ s'.stableCount ≤ s.stableCount + 1 := by
  obtain ⟨s₁, dQ, deltaQ, epsilon, -, -, hRising₁, hStable₁, -, -, -, -, hRising, hStable, -⟩ :=
    onRttSample_fields h
  rw [hRising, hStable, ← hRising₁, ← hStable₁]
  exact counters_updateState_le s₁ now dQ deltaQ epsilon

/-! ## Persistence over a run -/

/-- The persistence factor holds over whole runs: from any state, a run of
fewer samples than `k_persistence` minus the rising count does not enter
Rising, and a run of fewer samples than `k_persistence` minus the calm count
does not enter Stable. So a controller that has just become Congested, with its
counters cleared, stays out of Stable for `k_persistence - 1` more samples. -/
theorem state_run_of_lt {s s' : DeltaCC K} {samples : List (RttSample K)}
    (h : s.run samples = .ok s') :
    (s.state ≠ .rising → s.risingCount + samples.length < s.config.kPersistence →
      s'.state ≠ .rising) ∧
    (s.state ≠ .stable → s.stableCount + samples.length < s.config.kPersistence →
      s'.state ≠ .stable) := by
  induction samples generalizing s with
  | nil =>
      cases h
      exact ⟨fun hNot _ => hNot, fun hNot _ => hNot⟩
  | cons sample samples ih =>
      obtain ⟨s₁, hStep, hRest⟩ := Wire.bind_eq_ok h
      have hConfig := config_onRttSample hStep
      obtain ⟨hGrowRising, hGrowStable⟩ := counters_onRttSample_le hStep
      obtain ⟨hTrans, -⟩ := state_onRttSample hStep
      obtain ⟨ihRising, ihStable⟩ := ih hRest
      rw [hConfig] at ihRising ihStable
      simp only [List.length_cons] at ⊢
      refine ⟨fun hNot hLen => ihRising ?_ (by omega), fun hNot hLen => ihStable ?_ (by omega)⟩
      · intro hRise
        rcases hTrans with hSame | ⟨hCongested, -⟩ | ⟨-, -, hPersist⟩ | ⟨-, hSettled, -⟩
        · exact hNot (hSame ▸ hRise)
        · exact nomatch hCongested.symm.trans hRise
        · omega
        · exact nomatch hSettled.symm.trans hRise
      · intro hSettle
        rcases hTrans with hSame | ⟨hCongested, -⟩ | ⟨-, hRise, -⟩ | ⟨-, -, hPersist⟩
        · exact hNot (hSame ▸ hSettle)
        · exact nomatch hCongested.symm.trans hSettle
        · exact nomatch hRise.symm.trans hSettle
        · omega

/-- After `sustainedCongestion` the controller is Congested with both counters
cleared, so one more sample leaves it neither Rising nor Stable. -/
theorem state_run_of_lt_sustained : ∃ s s' : DeltaCC ℚ,
    (new DeltaConfig.default 2000 60).run sustainedCongestion = .ok s ∧
      s.run [⟨2000000000, 200000, 0, 0⟩] = .ok s' ∧
      (s.state ≠ .rising ∧ s.risingCount + 1 < s.config.kPersistence ∧ s'.state ≠ .rising) ∧
      (s.state ≠ .stable ∧ s.stableCount + 1 < s.config.kPersistence ∧ s'.state ≠ .stable) := by
  obtain ⟨s, h⟩ := run_ok_default 2000 60 initial_2000 sustainedCongestion
  obtain ⟨s', h'⟩ := run_ok_default 2000 60 initial_2000
    (sustainedCongestion ++ [⟨2000000000, 200000, 0, 0⟩])
  rw [run_append, h, Wire.ok_bind] at h'
  have hEval : s.state = .congested ∧ s.risingCount = 0 ∧ s.stableCount = 0 := by
    have hFields : (s.state, s.risingCount, s.stableCount) = (.congested, 0, 0) :=
      Wire.eq_of_toOption_map (g := fun t => (t.state, t.risingCount, t.stableCount)) h
        (by decide +kernel)
    simpa only [Prod.mk.injEq] using hFields
  have hK : s.config.kPersistence = 5 := by rw [config_run h]; rfl
  obtain ⟨hRising, hStable⟩ := state_run_of_lt h'
  have hRoom : s.risingCount + 1 < s.config.kPersistence ∧ s.stableCount + 1 < s.config.kPersistence := by
    rw [hK, hEval.2.1, hEval.2.2]
    decide
  have hNotRising : s.state ≠ .rising := by rw [hEval.1]; decide
  have hNotStable : s.state ≠ .stable := by rw [hEval.1]; decide
  exact ⟨s, s', h, h', ⟨hNotRising, hRoom.1, hRising hNotRising hRoom.1⟩,
    ⟨hNotStable, hRoom.2, hStable hNotStable hRoom.2⟩⟩

/-! ## The frame-rate timer -/

/-- A sample sets `congested_start` to its own instant, clears it, or leaves it. -/
theorem congestedStart_onRttSample {s s' : DeltaCC K} {now : Nat} {rttUs : UInt64}
    {packetLoss : K} {jitterUs : UInt32} (h : s.onRttSample now rttUs packetLoss jitterUs = .ok s') :
    s'.congestedStart = s.congestedStart ∨ s'.congestedStart = some now ∨
      s'.congestedStart = none := by
  obtain ⟨s₁, dQ, deltaQ, epsilon, -, -, -, -, hStart₁, -, hParams, -⟩ := onRttSample_fields h
  rw [← hStart₁]
  rcases congestedStart_updateParams hParams with ⟨hStart, -⟩ | ⟨-, -, -, hStart, -⟩
  · rw [hStart]
    exact congestedStart_updateState s₁ now dQ deltaQ epsilon
  · exact .inr (.inl hStart)

/-- A sample that changes the frame rate found the timer running for more than
a second, and restarts it at its own instant. -/
theorem congestedStart_of_currentFps_ne {s s' : DeltaCC K} {now : Nat} {rttUs : UInt64}
    {packetLoss : K} {jitterUs : UInt32} (h : s.onRttSample now rttUs packetLoss jitterUs = .ok s')
    (hFps : s'.currentFps ≠ s.currentFps) :
    s'.congestedStart = some now ∧
      ∃ start, s.congestedStart = some start ∧ now - start > 1000000000 := by
  obtain ⟨s₁, dQ, deltaQ, epsilon, -, -, -, -, hStart₁, hFps₁, hParams, -⟩ := onRttSample_fields h
  rcases congestedStart_updateParams hParams with ⟨-, hSame⟩ | ⟨start, hStart, hLong, hNow, -⟩
  · rw [hSame, currentFps_updateState, hFps₁] at hFps
    exact absurd rfl hFps
  · refine ⟨hNow, start, ?_, hLong⟩
    rcases congestedStart_updateState s₁ now dQ deltaQ epsilon with hKept | hNew | hCleared
    · rw [← hStart₁, ← hKept, hStart]
    · rw [hNew] at hStart
      cases hStart
      exact absurd hLong (by omega)
    · rw [hCleared] at hStart
      cases hStart

/-- A run whose samples are not earlier than `t₀` starts no timer before `t₀`. -/
theorem congestedStart_run_ge {s s' : DeltaCC K} {samples : List (RttSample K)} {t₀ : Nat}
    (h : s.run samples = .ok s') (hTime : ∀ sample ∈ samples, t₀ ≤ sample.now)
    (hStart : ∀ t, s.congestedStart = some t → t₀ ≤ t) :
    ∀ t, s'.congestedStart = some t → t₀ ≤ t := by
  induction samples generalizing s with
  | nil =>
      cases h
      exact hStart
  | cons sample samples ih =>
      obtain ⟨s₁, hStep, hRest⟩ := Wire.bind_eq_ok h
      refine ih hRest (fun later hLater => hTime later (List.mem_cons_of_mem _ hLater)) ?_
      intro t ht
      rcases congestedStart_onRttSample hStep with hKept | hNow | hCleared
      · exact hStart t (hKept ▸ ht)
      · rw [hNow] at ht
        cases ht
        exact hTime sample (by simp)
      · rw [hCleared] at ht
        cases ht

/-- Two samples that change the frame rate are more than a second apart, when
no sample after the first is earlier than it (as `Instant::now` guarantees):
restarting the timer at each step-down keeps sustained congestion from lowering
the frame rate twice within a second. -/
theorem currentFps_changes_spaced {s₁ s₂ s₃ s₄ : DeltaCC K} {x y : RttSample K}
    {between : List (RttSample K)}
    (hx : s₁.onRttSample x.now x.rttUs x.packetLoss x.jitterUs = .ok s₂)
    (hxFps : s₂.currentFps ≠ s₁.currentFps)
    (hBetween : s₂.run between = .ok s₃) (hTime : ∀ sample ∈ between, x.now ≤ sample.now)
    (hy : s₃.onRttSample y.now y.rttUs y.packetLoss y.jitterUs = .ok s₄)
    (hyFps : s₄.currentFps ≠ s₃.currentFps) :
    x.now + 1000000000 < y.now := by
  have hStarted := (congestedStart_of_currentFps_ne hx hxFps).1
  have hLater : ∀ t, s₃.congestedStart = some t → x.now ≤ t := by
    refine congestedStart_run_ge hBetween hTime fun t ht => ?_
    rw [hStarted] at ht
    cases ht
    exact le_rfl
  obtain ⟨start, hStart, hLong⟩ := (congestedStart_of_currentFps_ne hy hyFps).2
  have hAfter := hLater start hStart
  omega

/-- After `sustainedCongestion`, 200 ms samples at two and at four seconds each
lower the frame rate, from 60 to 45 and then to 30; the samples at 2.5 and 2.9
seconds in between find the restarted timer under a second and leave it at 45. -/
theorem currentFps_changes_spaced_sustained : ∃ s₁ s₂ s₃ s₄ : DeltaCC ℚ,
    (new DeltaConfig.default 2000 60).run sustainedCongestion = .ok s₁ ∧
      s₁.onRttSample 2000000000 200000 0 0 = .ok s₂ ∧ s₂.currentFps ≠ s₁.currentFps ∧
      s₂.run [⟨2500000000, 200000, 0, 0⟩, ⟨2900000000, 200000, 0, 0⟩] = .ok s₃ ∧
      s₃.currentFps = s₂.currentFps ∧
      s₃.onRttSample 4000000000 200000 0 0 = .ok s₄ ∧ s₄.currentFps ≠ s₃.currentFps ∧
      2000000000 + 1000000000 < 4000000000 := by
  obtain ⟨s₁, h₁⟩ := run_ok_default 2000 60 initial_2000 sustainedCongestion
  obtain ⟨s₂, h₂⟩ := run_ok_default 2000 60 initial_2000
    (sustainedCongestion ++ [⟨2000000000, 200000, 0, 0⟩])
  obtain ⟨s₃, h₃⟩ := run_ok_default 2000 60 initial_2000
    (sustainedCongestion ++ [⟨2000000000, 200000, 0, 0⟩] ++
      [⟨2500000000, 200000, 0, 0⟩, ⟨2900000000, 200000, 0, 0⟩])
  obtain ⟨s₄, h₄⟩ := run_ok_default 2000 60 initial_2000
    (sustainedCongestion ++ [⟨2000000000, 200000, 0, 0⟩] ++
      [⟨2500000000, 200000, 0, 0⟩, ⟨2900000000, 200000, 0, 0⟩] ++ [⟨4000000000, 200000, 0, 0⟩])
  have hx := onRttSample_of_run_append h₁ h₂
  have hBetween := run_of_run_append h₂ h₃
  have hy := onRttSample_of_run_append h₃ h₄
  have hFps₁ : s₁.currentFps = 60 := Wire.eq_of_toOption_map h₁ (by decide +kernel)
  have hFps₂ : s₂.currentFps = 45 := Wire.eq_of_toOption_map h₂ (by decide +kernel)
  have hFps₃ : s₃.currentFps = 45 := Wire.eq_of_toOption_map h₃ (by decide +kernel)
  have hFps₄ : s₄.currentFps = 30 := Wire.eq_of_toOption_map h₄ (by decide +kernel)
  have hxFps : s₂.currentFps ≠ s₁.currentFps := by rw [hFps₁, hFps₂]; decide
  have hyFps : s₄.currentFps ≠ s₃.currentFps := by rw [hFps₃, hFps₄]; decide
  exact ⟨s₁, s₂, s₃, s₄, h₁, hx, hxFps, hBetween, hFps₃.trans hFps₂.symm, hy, hyFps,
    currentFps_changes_spaced (x := ⟨2000000000, 200000, 0, 0⟩) (y := ⟨4000000000, 200000, 0, 0⟩)
      hx hxFps hBetween (by simp) hy hyFps⟩

/-! ## The RTT window -/

/-- A sample prunes the window to the samples younger than its duration,
appends itself, and takes the least RTT of the result. -/
theorem windowSamples_onRttSample {s s' : DeltaCC K} {now : Nat} {rttUs : UInt64}
    {packetLoss : K} {jitterUs : UInt32} (h : s.onRttSample now rttUs packetLoss jitterUs = .ok s') :
    s'.windowSamples =
        s.windowSamples.filter (fun sample => now - sample.1 < s.windowDuration) ++ [(now, rttUs)] ∧
      s'.windowDuration = s.windowDuration ∧
      (s'.windowSamples.map Prod.snd).min? = some s'.rttMinUs := by
  obtain ⟨-, -, -, -, -, -, -, -, -, -, -, -, -, -, -, hWindow, hMin, hDuration⟩ :=
    onRttSample_fields h
  refine ⟨hWindow, hDuration, ?_⟩
  rw [hMin, hWindow]
  unfold updateRttMin
  dsimp only
  cases hSome : ((s.windowSamples.filter (fun sample => now - sample.1 < s.windowDuration) ++
      [(now, rttUs)]).map Prod.snd).min? with
  | none => simp at hSome
  | some rttMin => rfl

/-- From an empty window, and with no sample earlier than the one before it,
the window after a run holds exactly the samples younger than the window's
duration at the last one, and the RTT minimum is the least of their RTTs. -/
theorem windowSamples_run {s s' : DeltaCC K} {samples : List (RttSample K)} {last : RttSample K}
    (hEmpty : s.windowSamples = []) (hDuration : 0 < s.windowDuration)
    (hTime : ((samples ++ [last]).map RttSample.now).IsChain (· ≤ ·))
    (h : s.run (samples ++ [last]) = .ok s') :
    s'.windowSamples = ((samples ++ [last]).map fun sample => (sample.now, sample.rttUs)).filter
        (fun sample => last.now - sample.1 < s.windowDuration) ∧
      s'.windowDuration = s.windowDuration ∧
      (s'.windowSamples.map Prod.snd).min? = some s'.rttMinUs := by
  induction samples using List.reverseRecOn generalizing last s' with
  | nil =>
      rw [List.nil_append, run_singleton] at h
      obtain ⟨hWindow, hSame, hMin⟩ := windowSamples_onRttSample h
      refine ⟨?_, hSame, hMin⟩
      rw [hWindow, hEmpty]
      simp [hDuration]
  | append_singleton samples previous ih =>
      rw [run_append] at h
      obtain ⟨t, hPrefix, hLast⟩ := Wire.bind_eq_ok h
      rw [run_singleton] at hLast
      rw [List.map_append, List.isChain_append] at hTime
      obtain ⟨hChain, -, hLink⟩ := hTime
      have hOrder : previous.now ≤ last.now := hLink previous.now (by simp) last.now (by simp)
      obtain ⟨ihWindow, ihDuration, -⟩ := ih hChain hPrefix
      obtain ⟨hWindow, hSame, hMin⟩ := windowSamples_onRttSample hLast
      refine ⟨?_, hSame.trans ihDuration, hMin⟩
      have hSplit : (samples ++ [previous] ++ [last]).map (fun sample => (sample.now, sample.rttUs)) =
          (samples ++ [previous]).map (fun sample => (sample.now, sample.rttUs)) ++
            [(last.now, last.rttUs)] := by simp
      rw [hWindow, ihWindow, ihDuration, List.filter_filter, hSplit, List.filter_append]
      congr 1
      · apply List.filter_congr
        intro sample _
        rcases Nat.lt_or_ge (last.now - sample.1) s.windowDuration with hYoung | hOld
        · simp only [hYoung, decide_true, Bool.true_and, decide_eq_true_eq]
          omega
        · simp only [Nat.not_lt.mpr hOld, decide_false, Bool.false_and]
      · simp [hDuration]

/-- From `new`, with no sample earlier than the one before it: after any run,
the RTT window holds the (instant, RTT) pairs of exactly the samples less than
ten seconds older than the last one, in order, and `rtt_min_us` is the least
RTT among them. -/
theorem window_run {config : DeltaConfig K} {initialBitrate initialFps : UInt32}
    {samples : List (RttSample K)} {last : RttSample K} {s : DeltaCC K}
    (hTime : ((samples ++ [last]).map RttSample.now).IsChain (· ≤ ·))
    (h : (new config initialBitrate initialFps).run (samples ++ [last]) = .ok s) :
    s.windowSamples = ((samples ++ [last]).map fun sample => (sample.now, sample.rttUs)).filter
        (fun sample => last.now - sample.1 < 10000000000) ∧
      s.rttMinUs ∈ s.windowSamples.map Prod.snd ∧
      ∀ rtt ∈ s.windowSamples.map Prod.snd, s.rttMinUs ≤ rtt := by
  obtain ⟨hWindow, -, hMin⟩ := windowSamples_run rfl (by simp [new]) hTime h
  exact ⟨hWindow, List.min?_eq_some_iff.mp hMin⟩

/-- A 30 ms sample twelve seconds after `sustainedCongestion` finds both of its
samples too old: the window holds it alone, and the minimum forgets 5 ms. -/
theorem window_run_forgets : ∃ s : DeltaCC ℚ,
    (new DeltaConfig.default 2000 60).run (sustainedCongestion ++ [⟨12000000000, 30000, 0, 0⟩]) =
      .ok s ∧ s.windowSamples = [(12000000000, 30000)] ∧ s.rttMinUs = 30000 := by
  obtain ⟨s, h⟩ := run_ok_default 2000 60 initial_2000
    (sustainedCongestion ++ [⟨12000000000, 30000, 0, 0⟩])
  obtain ⟨hWindow, hMem, -⟩ := window_run (by decide) h
  have hOnly : s.windowSamples = [(12000000000, 30000)] := hWindow.trans (by decide)
  rw [hOnly] at hMem
  exact ⟨s, h, hOnly, by simpa using hMem⟩

end Wavry.RiftCore.DeltaCC
