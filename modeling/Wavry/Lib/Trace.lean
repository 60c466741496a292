import Mathlib.Data.Finset.Lattice.Basic
import Mathlib.Data.Finset.Dedup

/-! Runs of a step function that emits outputs. A run threads the state
through a list of calls and collects what each call emits. When each step
keeps an invariant, so does the run; and when the invariant is "the keys
accepted so far are `A`" and each step emits only keys outside `A`, then a run
never emits one key twice. -/
namespace Trace

variable {S C O : Type} (step : S → C → S × List O)

/-- The state a list of calls leaves, and what they emitted, in order. -/
def run (s : S) : List C → S × List O
  | [] => (s, [])
  | call :: calls =>
      let (s', out) := step s call
      let (s'', outs) := run s' calls
      (s'', out ++ outs)

variable {step}

@[simp] theorem run_nil (s : S) : run step s [] = (s, []) := rfl

theorem run_cons (s : S) (call : C) (calls : List C) :
    run step s (call :: calls) =
      ((run step (step s call).1 calls).1, (step s call).2 ++ (run step (step s call).1 calls).2) :=
  rfl

theorem run_append (s : S) (first second : List C) :
    run step s (first ++ second) =
      ((run step (run step s first).1 second).1,
        (run step s first).2 ++ (run step (run step s first).1 second).2) := by
  induction first generalizing s with
  | nil => rfl
  | cons call first ih =>
      rw [List.cons_append, run_cons, ih, run_cons, List.append_assoc]

/-- A property every step keeps holds after any run. -/
theorem run_induction {P : S → Prop} (hStep : ∀ s call, P s → P (step s call).1) {s : S}
    (hStart : P s) (calls : List C) : P (run step s calls).1 := by
  induction calls generalizing s with
  | nil => exact hStart
  | cons call calls ih => exact ih (hStep s call hStart)

/-- A property of a state and an output, which every step gives what it
emits and keeps for what was emitted before, holds of every output of a run
at the state the run leaves. -/
theorem run_outputs {P : S → Prop} {Q : S → O → Prop}
    (hStep : ∀ s call, P s → P (step s call).1 ∧ (∀ o ∈ (step s call).2, Q (step s call).1 o) ∧
      ∀ o, Q s o → Q (step s call).1 o)
    {s : S} (hStart : P s) (calls : List C) : ∀ o ∈ (run step s calls).2, Q (run step s calls).1 o := by
  induction calls generalizing s with
  | nil => exact fun _ h => (nomatch h)
  | cons call calls ih =>
      obtain ⟨hNext, hOut, -⟩ := hStep s call hStart
      rw [run_cons]
      intro o ho
      rcases List.mem_append.mp ho with hFirst | hRest
      · exact (run_induction (P := fun s => P s ∧ Q s o)
          (fun s call ⟨hP, hQ⟩ => ⟨(hStep s call hP).1, (hStep s call hP).2.2 o hQ⟩)
          ⟨hNext, hOut o hFirst⟩ calls).2
      · exact ih hNext o hRest

variable {K : Type} [DecidableEq K]

/-- If a state with accepted keys `A` only emits keys outside `A`, pairwise
distinct, and then has accepted them too, then a run emits pairwise distinct
keys, none of them in the starting set. -/
theorem run_nodup {Accepting : S → Finset K → Prop} {key : O → K}
    (hStep : ∀ s accepted call, Accepting s accepted →
      ((step s call).2.map key).Nodup ∧ (∀ o ∈ (step s call).2, key o ∉ accepted) ∧
        Accepting (step s call).1 (accepted ∪ ((step s call).2.map key).toFinset))
    {s : S} {accepted : Finset K} (hStart : Accepting s accepted) (calls : List C) :
    ((run step s calls).2.map key).Nodup ∧ ∀ o ∈ (run step s calls).2, key o ∉ accepted := by
  induction calls generalizing s accepted with
  | nil => exact ⟨List.nodup_nil, fun _ h => (nomatch h)⟩
  | cons call calls ih =>
      obtain ⟨hOutNodup, hOutFresh, hNext⟩ := hStep s accepted call hStart
      obtain ⟨hRestNodup, hRestFresh⟩ := ih hNext
      rw [run_cons, List.map_append]
      refine ⟨List.nodup_append.mpr ⟨hOutNodup, hRestNodup, ?_⟩, fun o ho => ?_⟩
      · intro a ha b hb hab
        obtain ⟨o, ho, rfl⟩ := List.mem_map.mp ha
        obtain ⟨o', ho', rfl⟩ := List.mem_map.mp hb
        refine hRestFresh o' ho' (Finset.mem_union_right _ ?_)
        rw [← hab]
        exact List.mem_toFinset.mpr (List.mem_map_of_mem ho)
      · rcases List.mem_append.mp ho with hFirst | hRest
        · exact hOutFresh o hFirst
        · exact fun hMem => hRestFresh o hRest (Finset.mem_union_left _ hMem)

section Walks

variable {V E : Type}

/-- `Walk edge u es v`: the labelled edges `es`, taken in order, lead from `u`
to `v` in the graph `edge`. -/
inductive Walk (edge : V → E → V → Prop) : V → List E → V → Prop
  | nil (v : V) : Walk edge v [] v
  | cons {u v w : V} {e : E} {es : List E} : edge u e v → Walk edge v es w → Walk edge u (e :: es) w

variable {edge : V → E → V → Prop}

/-- In a graph whose every edge raises a rank, a walk has at most as many
edges as the rank rises along it. -/
theorem Walk.length_add_le {rank : V → ℕ} (hRank : ∀ u e v, edge u e v → rank u < rank v)
    {u v : V} {es : List E} (walk : Walk edge u es v) : es.length + rank u ≤ rank v := by
  induction walk with
  | nil => simp
  | @cons u v w e es hEdge _ ih =>
      have hRise := hRank u e v hEdge
      simp only [List.length_cons]
      omega

/-- If every step, from a state satisfying `P`, keeps `P` and either emits
nothing and keeps the view or emits one edge from the view before to the view
after, then what a run emits is a walk from the view at its start to the view
at its end. -/
theorem run_walk {P : S → Prop} {view : S → V} {step : S → C → S × List E}
    (hStep : ∀ s call, P s → P (step s call).1 ∧
      (((step s call).2 = [] ∧ view (step s call).1 = view s) ∨
        ∃ e, (step s call).2 = [e] ∧ edge (view s) e (view (step s call).1)))
    {s : S} (hStart : P s) (calls : List C) :
    Walk edge (view s) (run step s calls).2 (view (run step s calls).1) := by
  induction calls generalizing s with
  | nil => exact .nil _
  | cons call calls ih =>
      obtain ⟨hNext, hSame | ⟨e, hOut, hEdge⟩⟩ := hStep s call hStart
      · rw [run_cons, hSame.1, List.nil_append, ← hSame.2]
        exact ih hNext
      · rw [run_cons, hOut, List.singleton_append]
        exact .cons hEdge (ih hNext)

end Walks

end Trace
