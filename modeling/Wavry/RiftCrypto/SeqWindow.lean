import Mathlib
import Wavry.Lib.Saturating

/-! Replay protection of `rift-crypto`: a sliding window over packet sequence
numbers. The window keeps the highest number accepted and a 128-bit bitmap
whose bit `i` marks `highest - i` as seen. What the window is for is stated by
a rule on the set of numbers accepted so far, and `Represents` links the two:
every call keeps it, accepts only what the rule accepts, and accepts all of it
as long as `seq + window_size` does not wrap. -/
namespace Wavry.RiftCrypto

/-! ## Single-bit masks -/

theorem getLsbD_one_shiftLeft {m k i : Nat} (hk : k < m) :
    (1#m <<< k).getLsbD i = (decide (i < m) && decide (i = k)) := by
  rw [BitVec.getLsbD_shiftLeft, BitVec.getLsbD_one]
  by_cases hik : i = k
  · subst hik
    simp [hk, show 0 < m by omega]
  · by_cases hlt : i < k
    · simp [hlt, hik]
    · simp only [hlt, hik, decide_false, Bool.not_false, Bool.and_true, Bool.and_false]
      have : i - k ≠ 0 := by omega
      simp [this]

theorem and_one_shiftLeft_eq_zero {m k : Nat} (x : BitVec m) (hk : k < m) :
    x &&& 1#m <<< k = 0#m ↔ x.getLsbD k = false := by
  constructor
  · intro h
    have hBit := congrArg (fun y => y.getLsbD k) h
    simpa [getLsbD_one_shiftLeft hk, hk] using hBit
  · intro h
    apply BitVec.eq_of_getLsbD_eq
    intro i hi
    by_cases hik : i = k
    · subst hik; simp [h]
    · simp [getLsbD_one_shiftLeft hk, hik]

/-! ## The window -/

/-- `SequenceWindow`. `with_size` asserts `1 <= size <= 128`, so every window
carries those bounds. -/
structure SequenceWindow where
  highest : UInt64
  bitmap : BitVec 128
  windowSize : UInt64
  windowSize_pos : 0 < windowSize.toNat
  windowSize_le : windowSize.toNat ≤ 128

namespace SequenceWindow

/-- `DEFAULT_WINDOW_SIZE`. -/
def defaultWindowSize : UInt64 := 128

/-- `with_size`; `none` where its assertion panics. -/
def withSize (size : UInt64) : Option SequenceWindow :=
  if h : 0 < size.toNat ∧ size.toNat ≤ 128 then some ⟨0, 0#128, size, h.1, h.2⟩ else none

/-- `new`, which is `with_size(DEFAULT_WINDOW_SIZE)`. -/
def new : SequenceWindow := ⟨0, 0#128, defaultWindowSize, by decide, by decide⟩

/-- `1u128 << offset`; a release build takes the shift amount modulo 128. -/
def mask (offset : UInt64) : BitVec 128 := 1#128 <<< (offset.toNat % 128)

/-- `check`: the verdict of `check_and_update` without the update. -/
def check (w : SequenceWindow) (seq : UInt64) : Bool :=
  if w.highest = 0 ∧ w.bitmap = 0#128 then true
  else if seq + w.windowSize ≤ w.highest then false
  else if seq > w.highest then true
  else w.bitmap &&& mask (w.highest - seq) = 0#128

/-- `check_and_update`: the first packet, a packet too old, one ahead of the
window (which shifts, or starts afresh after a jump of 128 or more), and one
within it. The sum `seq + window_size` is `u64` arithmetic, wrapping as a
release build does. -/
def checkAndUpdate (w : SequenceWindow) (seq : UInt64) : Bool × SequenceWindow :=
  if w.highest = 0 ∧ w.bitmap = 0#128 then (true, { w with highest := seq, bitmap := 1#128 })
  else if seq + w.windowSize ≤ w.highest then (false, w)
  else if seq > w.highest then
    let shift := seq - w.highest
    let bitmap := if shift ≥ 128 then 1#128 else w.bitmap <<< shift.toNat ||| 1#128
    (true, { w with highest := seq, bitmap := bitmap })
  else if w.bitmap &&& mask (w.highest - seq) ≠ 0#128 then (false, w)
  else (true, { w with bitmap := w.bitmap ||| mask (w.highest - seq) })

def reset (w : SequenceWindow) : SequenceWindow := { w with highest := 0, bitmap := 0#128 }

/-- The verdicts of `check_and_update` over a run of calls. -/
def run (w : SequenceWindow) : List UInt64 → List Bool
  | [] => []
  | seq :: rest => (w.checkAndUpdate seq).1 :: run (w.checkAndUpdate seq).2 rest

/-- `check` is `check_and_update` without its update. -/
theorem check_eq (w : SequenceWindow) (seq : UInt64) : w.check seq = (w.checkAndUpdate seq).1 := by
  unfold check checkAndUpdate
  split_ifs <;> simp_all

end SequenceWindow

/-! ## The replay rule -/

/-- The rule the window is for: accept a number never accepted before that is
above every accepted number less `windowSize`. -/
def Accepts (accepted : Finset ℕ) (windowSize seq : ℕ) : Prop :=
  seq ∉ accepted ∧ ∀ a ∈ accepted, a < seq + windowSize

instance (accepted : Finset ℕ) (windowSize seq : ℕ) : Decidable (Accepts accepted windowSize seq) :=
  inferInstanceAs (Decidable (_ ∧ _))

/-- The verdicts of the rule over a run, from the accepted set `accepted`. -/
def specRun (windowSize : ℕ) : Finset ℕ → List ℕ → List Bool
  | _, [] => []
  | accepted, seq :: rest =>
      decide (Accepts accepted windowSize seq) ::
        specRun windowSize (if Accepts accepted windowSize seq then insert seq accepted else accepted)
          rest

namespace SequenceWindow

/-! ## The window represents the accepted set -/

/-- The window holds the set of accepted numbers: the start sentinel when none
was accepted, and otherwise `highest` is the largest accepted number and bit
`i` says whether `highest - i` was accepted. -/
structure Represents (w : SequenceWindow) (accepted : Finset ℕ) : Prop where
  sentinel : accepted = ∅ → w.highest = 0 ∧ w.bitmap = 0#128
  le_highest : ∀ a ∈ accepted, a ≤ w.highest.toNat
  highest_mem : accepted.Nonempty → w.highest.toNat ∈ accepted
  bit_iff : accepted.Nonempty → ∀ i < 128,
    w.bitmap.getLsbD i = true ↔ i ≤ w.highest.toNat ∧ w.highest.toNat - i ∈ accepted

theorem represents_new : new.Represents ∅ :=
  ⟨fun _ => ⟨rfl, rfl⟩, by simp, by simp, by simp⟩

theorem represents_reset (w : SequenceWindow) : w.reset.Represents ∅ :=
  ⟨fun _ => ⟨rfl, rfl⟩, by simp, by simp, by simp⟩

theorem represents_withSize {size : UInt64} {w : SequenceWindow} (h : withSize size = some w) :
    w.Represents ∅ := by
  unfold withSize at h
  split at h
  · cases h
    exact ⟨fun _ => ⟨rfl, rfl⟩, by simp, by simp, by simp⟩
  · cases h

variable {w : SequenceWindow} {accepted : Finset ℕ}

/-- The sentinel tells exactly whether anything was accepted: bit 0, for
`highest` itself, is set once something was. -/
theorem Represents.sentinel_iff (h : w.Represents accepted) :
    (w.highest = 0 ∧ w.bitmap = 0#128) ↔ accepted = ∅ := by
  refine ⟨fun hSentinel => ?_, h.sentinel⟩
  by_contra hNonempty
  have hA : accepted.Nonempty := Finset.nonempty_iff_ne_empty.mpr hNonempty
  have hBit := (h.bit_iff hA 0 (by decide)).mpr ⟨Nat.zero_le _, by simpa using h.highest_mem hA⟩
  rw [hSentinel.2, BitVec.getLsbD_zero] at hBit
  cases hBit

/-! ## Arithmetic of the `u64` comparisons -/

/-- Past the too-old test and at or below `highest`, the sum did not wrap:
a wrapped sum is below 128 and so below any `highest` it could be compared to. -/
theorem lt_add_of_not_add_le {seq highest ws : UInt64} (hW : ws.toNat ≤ 128)
    (hLe : seq ≤ highest) (h : ¬ seq + ws ≤ highest) : highest.toNat < seq.toNat + ws.toNat := by
  rw [UInt64.le_iff_toNat_le, UInt64.toNat_add] at h
  rw [UInt64.le_iff_toNat_le] at hLe
  have hHigh : highest.toNat < 2 ^ 64 := highest.toNat_lt
  omega

theorem add_le_of_add_le {seq highest ws : UInt64} (hFit : seq.toNat + ws.toNat < 2 ^ 64)
    (h : seq + ws ≤ highest) : seq.toNat + ws.toNat ≤ highest.toNat := by
  rw [UInt64.le_iff_toNat_le, UInt64.toNat_add, Nat.mod_eq_of_lt hFit] at h
  exact h

/-! ## One call -/

/-- What one call with result `r` must do: keep the representation of the
accepted set, accept only by the rule, accept all the rule accepts while
`seq + window_size` fits in a `u64`, and keep the window size. -/
structure StepSpec (w : SequenceWindow) (accepted : Finset ℕ) (seq : UInt64)
    (r : Bool × SequenceWindow) : Prop where
  represents : r.2.Represents (if r.1 then insert seq.toNat accepted else accepted)
  sound : r.1 = true → Accepts accepted w.windowSize.toNat seq.toNat
  complete : seq.toNat + w.windowSize.toNat < 2 ^ 64 →
    Accepts accepted w.windowSize.toNat seq.toNat → r.1 = true
  windowSize_eq : r.2.windowSize = w.windowSize

/-- A rejection changes nothing; it is right whenever the rule rejects too. -/
theorem stepSpec_reject (h : w.Represents accepted) {seq : UInt64}
    (hReject : seq.toNat + w.windowSize.toNat < 2 ^ 64 →
      ¬ Accepts accepted w.windowSize.toNat seq.toNat) :
    StepSpec w accepted seq (false, w) :=
  ⟨by simpa using h, nofun, fun hFit hAccepts => absurd hAccepts (hReject hFit), rfl⟩

theorem stepSpec_first (h : w.Represents accepted) (hEmpty : accepted = ∅) (seq : UInt64) :
    StepSpec w accepted seq (true, { w with highest := seq, bitmap := 1#128 }) := by
  subst hEmpty
  refine ⟨⟨by simp, by simp, by simp, fun _ i hi => ?_⟩, fun _ => by simp [Accepts],
    fun _ _ => rfl, rfl⟩
  simp [BitVec.getLsbD_one]
  omega

theorem stepSpec_tooOld (h : w.Represents accepted) (hA : accepted.Nonempty) {seq : UInt64}
    (hOld : seq + w.windowSize ≤ w.highest) : StepSpec w accepted seq (false, w) := by
  refine stepSpec_reject h fun hFit hAccepts => ?_
  have hSum := add_le_of_add_le hFit hOld
  have hLt := hAccepts.2 _ (h.highest_mem hA)
  omega

/-- Within the window the bit at `highest - seq` is the membership of `seq`. -/
theorem Represents.mem_iff_mask (h : w.Represents accepted) (hA : accepted.Nonempty)
    {seq : UInt64} (hNew : ¬ seq + w.windowSize ≤ w.highest) (hLe : seq ≤ w.highest) :
    seq.toNat ∈ accepted ↔ w.bitmap &&& mask (w.highest - seq) ≠ 0#128 := by
  have hLt := lt_add_of_not_add_le w.windowSize_le hLe hNew
  have hSeq : seq.toNat ≤ w.highest.toNat := UInt64.le_iff_toNat_le.mp hLe
  have hOffset : (w.highest - seq).toNat = w.highest.toNat - seq.toNat :=
    UInt64.toNat_sub_of_le _ _ hLe
  have hSmall : w.highest.toNat - seq.toNat < 128 := by
    have := w.windowSize_le
    omega
  rw [mask, hOffset, Nat.mod_eq_of_lt hSmall, ne_eq, and_one_shiftLeft_eq_zero _ hSmall,
    Bool.not_eq_false, h.bit_iff hA _ hSmall, Nat.sub_sub_self hSeq]
  simp

/-- After a shift by `seq - highest < 128`, bit `i > 0` is old bit `i - shift`,
which is the membership of `seq - i`. -/
theorem Represents.getLsbD_shiftLeft_iff (h : w.Represents accepted) (hA : accepted.Nonempty)
    {seq : UInt64} (hGt : w.highest < seq) (hShort : (seq - w.highest).toNat < 128)
    {i : Nat} (hi : i < 128) :
    (w.bitmap <<< (seq - w.highest).toNat).getLsbD i = true ↔
      i ≤ seq.toNat ∧ seq.toNat - i ∈ accepted := by
  have hShift : (seq - w.highest).toNat = seq.toNat - w.highest.toNat :=
    UInt64.toNat_sub_of_le _ _ (UInt64.le_of_lt hGt)
  have hLt : w.highest.toNat < seq.toNat := UInt64.lt_iff_toNat_lt.mp hGt
  rw [BitVec.getLsbD_shiftLeft, hShift]
  rw [hShift] at hShort
  by_cases hCovered : seq.toNat - w.highest.toNat ≤ i
  · have hOld := h.bit_iff hA (i - (seq.toNat - w.highest.toNat)) (by omega)
    have hSame : w.highest.toNat - (i - (seq.toNat - w.highest.toNat)) = seq.toNat - i := by omega
    simp only [hi, decide_true, Bool.true_and, Nat.not_lt.mpr hCovered, decide_false,
      Bool.not_false, hOld, hSame]
    constructor
    · rintro ⟨hLe, hMem⟩
      exact ⟨by omega, hMem⟩
    · rintro ⟨hLe, hMem⟩
      exact ⟨by omega, hMem⟩
  · simp only [Nat.lt_of_not_le hCovered, decide_true, Bool.not_true, Bool.and_false,
      Bool.false_and, Bool.false_eq_true, false_iff, not_and]
    intro _ hMem
    have := h.le_highest _ hMem
    omega

theorem stepSpec_ahead (h : w.Represents accepted) (hA : accepted.Nonempty) {seq : UInt64}
    (hGt : seq > w.highest) :
    StepSpec w accepted seq (true, { w with
      highest := seq
      bitmap := if seq - w.highest ≥ 128 then 1#128
        else w.bitmap <<< (seq - w.highest).toNat ||| 1#128 }) := by
  have hLt : w.highest.toNat < seq.toNat := UInt64.lt_iff_toNat_lt.mp hGt
  have hShift : (seq - w.highest).toNat = seq.toNat - w.highest.toNat :=
    UInt64.toNat_sub_of_le _ _ (UInt64.le_of_lt hGt)
  have hAccepts : Accepts accepted w.windowSize.toNat seq.toNat := by
    refine ⟨fun hMem => ?_, fun a ha => ?_⟩
    · have := h.le_highest _ hMem
      omega
    · have := h.le_highest a ha
      omega
  refine ⟨⟨by simp, fun a ha => ?_, by simp, fun _ i hi => ?_⟩, fun _ => hAccepts,
    fun _ _ => rfl, rfl⟩
  · rcases Finset.mem_insert.mp (by simpa using ha) with rfl | hMem
    · exact Nat.le_refl _
    · have := h.le_highest a hMem
      simp only
      omega
  · simp only [if_true, Finset.mem_insert]
    rcases Nat.eq_zero_or_pos i with rfl | hPos
    · split_ifs <;> simp
    · have hNe : seq.toNat - i ≠ seq.toNat := by omega
      split_ifs with hFar
      · have hFar' : 128 ≤ seq.toNat - w.highest.toNat := by
          rw [← hShift]; exact UInt64.le_iff_toNat_le.mp hFar
        simp only [BitVec.getLsbD_one, Nat.pos_iff_ne_zero.mp hPos, decide_false,
          Bool.and_false, Bool.false_eq_true, false_iff, not_and, hNe, false_or]
        intro _ hMem
        have := h.le_highest _ hMem
        omega
      · have hShort : (seq - w.highest).toNat < 128 := by
          have := UInt64.lt_iff_toNat_lt.mp (UInt64.not_le.mp hFar)
          simpa using this
        rw [BitVec.getLsbD_or, Bool.or_eq_true, h.getLsbD_shiftLeft_iff hA hGt hShort hi]
        simp [BitVec.getLsbD_one, Nat.pos_iff_ne_zero.mp hPos, hNe]

theorem stepSpec_seen (h : w.Represents accepted) (hA : accepted.Nonempty) {seq : UInt64}
    (hNew : ¬ seq + w.windowSize ≤ w.highest) (hLe : seq ≤ w.highest)
    (hSeen : w.bitmap &&& mask (w.highest - seq) ≠ 0#128) : StepSpec w accepted seq (false, w) :=
  stepSpec_reject h fun _ hAccepts => hAccepts.1 ((h.mem_iff_mask hA hNew hLe).mpr hSeen)

theorem stepSpec_fresh (h : w.Represents accepted) (hA : accepted.Nonempty) {seq : UInt64}
    (hNew : ¬ seq + w.windowSize ≤ w.highest) (hLe : seq ≤ w.highest)
    (hFresh : ¬ w.bitmap &&& mask (w.highest - seq) ≠ 0#128) :
    StepSpec w accepted seq (true, { w with bitmap := w.bitmap ||| mask (w.highest - seq) }) := by
  have hNotMem : seq.toNat ∉ accepted := fun hMem => hFresh ((h.mem_iff_mask hA hNew hLe).mp hMem)
  have hLt := lt_add_of_not_add_le w.windowSize_le hLe hNew
  have hSeq : seq.toNat ≤ w.highest.toNat := UInt64.le_iff_toNat_le.mp hLe
  have hOffset : (w.highest - seq).toNat = w.highest.toNat - seq.toNat :=
    UInt64.toNat_sub_of_le _ _ hLe
  have hSmall : w.highest.toNat - seq.toNat < 128 := by
    have := w.windowSize_le
    omega
  have hAccepts : Accepts accepted w.windowSize.toNat seq.toNat := by
    refine ⟨hNotMem, fun a ha => ?_⟩
    have := h.le_highest a ha
    omega
  refine ⟨⟨by simp, fun a ha => ?_, fun _ => ?_, fun _ i hi => ?_⟩, fun _ => hAccepts,
    fun _ _ => rfl, rfl⟩
  · rcases Finset.mem_insert.mp (by simpa using ha) with rfl | hMem
    · exact hSeq
    · exact h.le_highest a hMem
  · simpa using Or.inr (h.highest_mem hA)
  · simp only [if_true, Finset.mem_insert]
    rw [BitVec.getLsbD_or, Bool.or_eq_true, h.bit_iff hA i hi, mask, hOffset,
      Nat.mod_eq_of_lt hSmall, getLsbD_one_shiftLeft hSmall]
    simp only [hi, decide_true, Bool.true_and, decide_eq_true_eq]
    constructor
    · rintro (⟨hLe', hMem⟩ | rfl)
      · exact ⟨hLe', .inr hMem⟩
      · exact ⟨by omega, .inl (by omega)⟩
    · rintro ⟨hLe', hEq | hMem⟩
      · exact .inr (by omega)
      · exact .inl ⟨hLe', hMem⟩

/-- Every call of `check_and_update` meets `StepSpec`: the branches of the
code are the cases. -/
theorem checkAndUpdate_spec (h : w.Represents accepted) (seq : UInt64) :
    StepSpec w accepted seq (w.checkAndUpdate seq) := by
  unfold checkAndUpdate
  split_ifs with hFirst hOld hGt hSeen
  · exact stepSpec_first h (h.sentinel_iff.mp hFirst) seq
  all_goals
    have hA : accepted.Nonempty :=
      Finset.nonempty_iff_ne_empty.mpr fun hEmpty => hFirst (h.sentinel_iff.mpr hEmpty)
  · exact stepSpec_tooOld h hA hOld
  · exact stepSpec_ahead h hA hGt
  · exact stepSpec_seen h hA hOld (UInt64.not_lt.mp hGt) hSeen
  · exact stepSpec_fresh h hA hOld (UInt64.not_lt.mp hGt) hSeen

/-! ## Whole runs -/

theorem verdict_eq_decide (h : w.Represents accepted) {seq : UInt64}
    (hFit : seq.toNat + w.windowSize.toNat < 2 ^ 64) :
    (w.checkAndUpdate seq).1 = decide (Accepts accepted w.windowSize.toNat seq.toNat) := by
  have hStep := checkAndUpdate_spec h seq
  cases hVerdict : (w.checkAndUpdate seq).1
  · refine (decide_eq_false fun hAccepts => ?_).symm
    have := hStep.complete hFit hAccepts
    rw [hVerdict] at this
    cases this
  · exact (decide_eq_true (hStep.sound hVerdict)).symm

/-- Over any run in which no `seq + window_size` wraps, the window gives the
rule's verdicts. -/
theorem run_eq_specRun (h : w.Represents accepted) (seqs : List UInt64)
    (hFit : ∀ seq ∈ seqs, seq.toNat + w.windowSize.toNat < 2 ^ 64) :
    w.run seqs = specRun w.windowSize.toNat accepted (seqs.map UInt64.toNat) := by
  induction seqs generalizing w accepted with
  | nil => rfl
  | cons seq rest ih =>
      have hStep := checkAndUpdate_spec h seq
      have hHead := verdict_eq_decide h (hFit seq (List.mem_cons_self ..))
      have hRest := ih hStep.represents fun s hs => by
        rw [hStep.windowSize_eq]
        exact hFit s (List.mem_cons_of_mem _ hs)
      rw [run, hRest, hStep.windowSize_eq, hHead]
      simp [specRun]

/-- Where the sum wraps: after 200, `u64::MAX + 128` is 127, at most 200, and
`u64::MAX` is refused as too old although the rule accepts it. -/
theorem run_max_after_200 :
    new.run [200, 0xFFFFFFFFFFFFFFFF] = [true, false] ∧
      specRun new.windowSize.toNat ∅ ([200, 0xFFFFFFFFFFFFFFFF].map UInt64.toNat) =
        [true, true] := by
  decide

/-- The numbers a run accepts, in order. -/
def acceptedSeqs (seqs : List UInt64) (verdicts : List Bool) : List ℕ :=
  ((seqs.zip verdicts).filter (·.2)).map (·.1.toNat)

/-- No number is accepted twice, nor one accepted before the run, whatever
the run: a wrapped sum only ever rejects. -/
theorem run_accepted_nodup (h : w.Represents accepted) (seqs : List UInt64) :
    (acceptedSeqs seqs (w.run seqs)).Nodup ∧ ∀ a ∈ acceptedSeqs seqs (w.run seqs), a ∉ accepted := by
  induction seqs generalizing w accepted with
  | nil => simp [acceptedSeqs, run]
  | cons seq rest ih =>
      have hStep := checkAndUpdate_spec h seq
      obtain ⟨hNodup, hFresh⟩ := ih hStep.represents
      have hUnfold : acceptedSeqs (seq :: rest) (w.run (seq :: rest)) =
          (if (w.checkAndUpdate seq).1 then [seq.toNat] else []) ++
            acceptedSeqs rest ((w.checkAndUpdate seq).2.run rest) := by
        cases hV : (w.checkAndUpdate seq).1 <;> simp [acceptedSeqs, run, hV]
      rw [hUnfold]
      cases hVerdict : (w.checkAndUpdate seq).1
      · simp only [hVerdict] at hFresh
        exact ⟨by simpa using hNodup, by simpa using hFresh⟩
      · simp only [hVerdict, if_true] at hFresh
        have hNew : seq.toNat ∉ accepted := (hStep.sound hVerdict).1
        refine ⟨List.nodup_cons.mpr ⟨fun hMem => hFresh _ hMem (Finset.mem_insert_self _ _), hNodup⟩,
          fun a ha => ?_⟩
        rcases List.mem_cons.mp (by simpa using ha) with rfl | hMem
        · exact hNew
        · exact fun hA => hFresh a hMem (Finset.mem_insert_of_mem hA)

/-- From a window of `new`, `with_size` or `reset`, over any run in a release
build: no number is accepted twice, and as long as no `seq + window_size`
wraps, every verdict is the replay rule's. -/
theorem sequenceWindow_run (w : SequenceWindow)
    (hFresh : w = new ∨ (∃ w₀ : SequenceWindow, w = w₀.reset) ∨ ∃ size, withSize size = some w)
    (seqs : List UInt64) :
    (acceptedSeqs seqs (w.run seqs)).Nodup ∧
      ((∀ seq ∈ seqs, seq.toNat + w.windowSize.toNat < 2 ^ 64) →
        w.run seqs = specRun w.windowSize.toNat ∅ (seqs.map UInt64.toNat)) := by
  have hEmpty : w.Represents ∅ := by
    rcases hFresh with rfl | ⟨w₀, rfl⟩ | ⟨size, hSize⟩
    · exact represents_new
    · exact represents_reset w₀
    · exact represents_withSize hSize
  exact ⟨(run_accepted_nodup hEmpty seqs).1, run_eq_specRun hEmpty seqs⟩

/-- A replay of 5 and a number behind the window are refused, and the
verdicts are the rule's. -/
theorem sequenceWindow_run_replay :
    (acceptedSeqs [5, 3, 5, 200, 10] (new.run [5, 3, 5, 200, 10])).Nodup ∧
      ((∀ seq ∈ [(5 : UInt64), 3, 5, 200, 10], seq.toNat + new.windowSize.toNat < 2 ^ 64) →
        new.run [5, 3, 5, 200, 10] = specRun new.windowSize.toNat ∅ ([5, 3, 5, 200, 10].map UInt64.toNat)) :=
  sequenceWindow_run new (.inl rfl) [5, 3, 5, 200, 10]

/-! ## Debug builds

A debug build checks the window's `u64` arithmetic and its shifts. Of all of
them only the too-old test's sum `seq + window_size` can fail, and it fails
exactly where a release build wraps; the branches keep every subtraction
above zero and every shift below 128. -/

open Saturating

/-- `check` in a debug build. -/
def checkChecked (w : SequenceWindow) (seq : UInt64) : Except ArithPanic Bool :=
  if w.highest = 0 ∧ w.bitmap = 0#128 then .ok true
  else do
    let edge ← debugAdd64 seq w.windowSize
    if edge ≤ w.highest then pure false
    else if seq > w.highest then pure true
    else do
      let offset ← debugSub64 w.highest seq
      let mask ← debugShl 1#128 offset.toNat
      pure (w.bitmap &&& mask = 0#128)

/-- `check_and_update` in a debug build. -/
def checkAndUpdateChecked (w : SequenceWindow) (seq : UInt64) :
    Except ArithPanic (Bool × SequenceWindow) :=
  if w.highest = 0 ∧ w.bitmap = 0#128 then .ok (true, { w with highest := seq, bitmap := 1#128 })
  else do
    let edge ← debugAdd64 seq w.windowSize
    if edge ≤ w.highest then pure (false, w)
    else if seq > w.highest then do
      let shift ← debugSub64 seq w.highest
      if shift ≥ 128 then pure (true, { w with highest := seq, bitmap := 1#128 })
      else do
        let shifted ← debugShl w.bitmap shift.toNat
        pure (true, { w with highest := seq, bitmap := shifted ||| 1#128 })
    else do
      let offset ← debugSub64 w.highest seq
      let mask ← debugShl 1#128 offset.toNat
      if w.bitmap &&& mask ≠ 0#128 then pure (false, w)
      else pure (true, { w with bitmap := w.bitmap ||| mask })

section Checked

variable (w : SequenceWindow) {seq : UInt64}

theorem debugAdd64_edge (hFit : ¬ 2 ^ 64 ≤ seq.toNat + w.windowSize.toNat) :
    debugAdd64 seq w.windowSize = .ok (seq + w.windowSize) :=
  debugAdd_of_lt (Nat.not_le.mp hFit)

/-- Ahead of the window the subtraction is positive and a shift is taken
only below 128. -/
theorem debugShl_ahead (hAhead : w.highest < seq) (hNear : ¬ seq - w.highest ≥ 128) :
    debugSub64 seq w.highest = .ok (seq - w.highest) ∧
      debugShl w.bitmap (seq - w.highest).toNat = .ok (w.bitmap <<< (seq - w.highest).toNat) := by
  refine ⟨debugSub_of_le (Nat.le_of_lt (UInt64.lt_iff_toNat_lt.mp hAhead)), debugShl_of_lt _ ?_⟩
  have hLt : (seq - w.highest).toNat < (128 : UInt64).toNat :=
    UInt64.lt_iff_toNat_lt.mp (UInt64.not_le.mp hNear)
  simpa using hLt

/-- Within the window, past a too-old test whose sum did not wrap, the
offset is below the window size, so below 128, and the checked mask is the
release one. -/
theorem debugShl_within (hOld : ¬ seq + w.windowSize ≤ w.highest) (hLe : seq ≤ w.highest) :
    debugSub64 w.highest seq = .ok (w.highest - seq) ∧
      debugShl 1#128 (w.highest - seq).toNat = .ok (mask (w.highest - seq)) := by
  have hClose := lt_add_of_not_add_le w.windowSize_le hLe hOld
  have hOffset : (w.highest - seq).toNat < 128 := by
    rw [UInt64.toNat_sub_of_le _ _ hLe]
    have := w.windowSize_le
    omega
  refine ⟨debugSub_of_le (UInt64.le_iff_toNat_le.mp hLe), ?_⟩
  rw [debugShl_of_lt _ hOffset, mask, Nat.mod_eq_of_lt hOffset]

/-- A debug `check_and_update` panics exactly where the sum wraps, past the
first packet, and otherwise is the release one. -/
theorem checkAndUpdateChecked_eq (seq : UInt64) :
    w.checkAndUpdateChecked seq =
      if w.highest = 0 ∧ w.bitmap = 0#128 then .ok (w.checkAndUpdate seq)
      else if 2 ^ 64 ≤ seq.toNat + w.windowSize.toNat then .error .addOverflow
      else .ok (w.checkAndUpdate seq) := by
  by_cases hFirst : w.highest = 0 ∧ w.bitmap = 0#128
  · simp [checkAndUpdateChecked, checkAndUpdate, hFirst]
  rw [if_neg hFirst]
  by_cases hWrap : 2 ^ 64 ≤ seq.toNat + w.windowSize.toNat
  · rw [if_pos hWrap, checkAndUpdateChecked, if_neg hFirst, debugAdd64, debugAdd_of_le hWrap]
    rfl
  simp only [checkAndUpdateChecked, checkAndUpdate, if_neg hFirst, if_neg hWrap,
    debugAdd64_edge w hWrap, bind, Except.bind]
  by_cases hOld : seq + w.windowSize ≤ w.highest
  · simp [hOld, pure, Except.pure]
  by_cases hAhead : w.highest < seq
  · by_cases hFar : seq - w.highest ≥ 128
    · have hSub : debugSub64 seq w.highest = .ok (seq - w.highest) :=
        debugSub_of_le (Nat.le_of_lt (UInt64.lt_iff_toNat_lt.mp hAhead))
      simp [hOld, hAhead, hSub, hFar, pure, Except.pure]
    · obtain ⟨hSub, hShift⟩ := debugShl_ahead w hAhead hFar
      simp [hOld, hAhead, hSub, hFar, hShift, pure, Except.pure]
  · obtain ⟨hSub, hMask⟩ := debugShl_within w hOld (UInt64.not_lt.mp hAhead)
    simp only [hOld, hAhead, hSub, hMask, if_false, ne_eq, pure, Except.pure]
    split <;> rfl

/-- The same for `check`. -/
theorem checkChecked_eq (seq : UInt64) :
    w.checkChecked seq =
      if w.highest = 0 ∧ w.bitmap = 0#128 then .ok (w.check seq)
      else if 2 ^ 64 ≤ seq.toNat + w.windowSize.toNat then .error .addOverflow
      else .ok (w.check seq) := by
  by_cases hFirst : w.highest = 0 ∧ w.bitmap = 0#128
  · simp [checkChecked, check, hFirst]
  rw [if_neg hFirst]
  by_cases hWrap : 2 ^ 64 ≤ seq.toNat + w.windowSize.toNat
  · rw [if_pos hWrap, checkChecked, if_neg hFirst, debugAdd64, debugAdd_of_le hWrap]
    rfl
  simp only [checkChecked, check, if_neg hFirst, if_neg hWrap, debugAdd64_edge w hWrap, bind,
    Except.bind]
  by_cases hOld : seq + w.windowSize ≤ w.highest
  · simp [hOld, pure, Except.pure]
  by_cases hAhead : w.highest < seq
  · simp [hOld, hAhead, pure, Except.pure]
  · obtain ⟨hSub, hMask⟩ := debugShl_within w hOld (UInt64.not_lt.mp hAhead)
    simp [hOld, hAhead, hSub, hMask, pure, Except.pure]

/-- Above `highest` the too-old test holds exactly when the sum wraps to at
most `highest`. -/
theorem add_le_iff_of_lt {seq highest ws : UInt64} (hW : ws.toNat ≤ 128) (hAhead : highest < seq) :
    seq + ws ≤ highest ↔
      2 ^ 64 ≤ seq.toNat + ws.toNat ∧ seq.toNat + ws.toNat - 2 ^ 64 ≤ highest.toNat := by
  have hLt := UInt64.lt_iff_toNat_lt.mp hAhead
  have hSeq := seq.toNat_lt
  rw [UInt64.le_iff_toNat_le, UInt64.toNat_add]
  by_cases hWrap : 2 ^ 64 ≤ seq.toNat + ws.toNat
  · rw [Nat.mod_eq_sub_mod hWrap, Nat.mod_eq_of_lt (by omega)]
    simp only [hWrap, true_and]
  · rw [Nat.mod_eq_of_lt (by omega)]
    simp only [hWrap, false_and, iff_false]
    omega

/-- In a release build a number above every accepted one is refused exactly
when `seq + window_size` wraps to at most `highest`. -/
theorem checkAndUpdate_ahead_eq_false_iff (hFirst : ¬ (w.highest = 0 ∧ w.bitmap = 0#128))
    (hAhead : w.highest < seq) :
    (w.checkAndUpdate seq).1 = false ↔
      2 ^ 64 ≤ seq.toNat + w.windowSize.toNat ∧
        seq.toNat + w.windowSize.toNat - 2 ^ 64 ≤ w.highest.toNat := by
  have hOld := add_le_iff_of_lt w.windowSize_le hAhead
  by_cases hRefused : seq + w.windowSize ≤ w.highest
  · simp only [checkAndUpdate, if_neg hFirst, if_pos hRefused, true_iff]
    exact hOld.mp hRefused
  · have hNot := mt hOld.mpr hRefused
    simp only [checkAndUpdate, if_neg hFirst, if_neg hRefused, gt_iff_lt, if_pos hAhead]
    simpa using hNot

/-- Both calls of a debug build evaluate without a panic except at one
place: past the first packet, `seq + window_size` overflows exactly where a
release build's sum wraps. No shift by 128 or more and no underflow happens,
and wherever the sum fits the debug and release builds agree. Where the sum
wraps to at most `highest`, a release build refuses a number above every
accepted one. -/
theorem sequenceWindow_overflow (seq : UInt64) :
    (w.checkAndUpdateChecked seq =
      if w.highest = 0 ∧ w.bitmap = 0#128 then .ok (w.checkAndUpdate seq)
      else if 2 ^ 64 ≤ seq.toNat + w.windowSize.toNat then .error .addOverflow
      else .ok (w.checkAndUpdate seq)) ∧
    (w.checkChecked seq =
      if w.highest = 0 ∧ w.bitmap = 0#128 then .ok (w.check seq)
      else if 2 ^ 64 ≤ seq.toNat + w.windowSize.toNat then .error .addOverflow
      else .ok (w.check seq)) ∧
    (¬ (w.highest = 0 ∧ w.bitmap = 0#128) → w.highest < seq →
      ((w.checkAndUpdate seq).1 = false ↔
        2 ^ 64 ≤ seq.toNat + w.windowSize.toNat ∧
          seq.toNat + w.windowSize.toNat - 2 ^ 64 ≤ w.highest.toNat)) :=
  ⟨checkAndUpdateChecked_eq w seq, checkChecked_eq w seq,
    fun hFirst hAhead => checkAndUpdate_ahead_eq_false_iff w hFirst hAhead⟩

end Checked

/-- After the first packet, 1000, the largest `u64` panics a debug build and
is refused by a release build, although it is above every accepted number. -/
theorem sequenceWindow_overflow_after_1000 :
    (new.checkAndUpdate 1000).2.checkAndUpdateChecked 0xFFFFFFFFFFFFFFFF = .error .addOverflow ∧
      ((new.checkAndUpdate 1000).2.checkAndUpdate 0xFFFFFFFFFFFFFFFF).1 = false := by
  obtain ⟨hDebug, -, hAhead⟩ := sequenceWindow_overflow (new.checkAndUpdate 1000).2 0xFFFFFFFFFFFFFFFF
  rw [if_neg (by decide), if_pos (by decide)] at hDebug
  exact ⟨hDebug, (hAhead (by decide) (by decide)).mpr (by decide)⟩

end SequenceWindow

end Wavry.RiftCrypto
