import Mathlib.Data.List.Induction

namespace LedgerSovereign.TransitionRuns

variable {σ τ ε δ ο : Type*}

/-- A machine answers an event with its next state and an observation, or
refuses the event in this state. -/
structure Machine (σ ε ο : Type*) where
  step : σ → ε → Option (σ × ο)

/-- The runs of a machine, extended at their end. -/
inductive Run (M : Machine σ ε ο) (s : σ) : List (ε × ο) → σ → Prop
  | nil : Run M s [] s
  | snoc {trace : List (ε × ο)} {t u : σ} {e : ε} {o : ο} :
      Run M s trace t → M.step t e = some (u, o) →
        Run M s (trace ++ [(e, o)]) u

theorem run_nil_iff {M : Machine σ ε ο} {s t : σ} :
    Run M s [] t ↔ t = s := by
  constructor
  · intro run
    generalize htrace : ([] : List (ε × ο)) = trace at run
    cases run with
    | nil => rfl
    | snoc => simp at htrace
  · rintro rfl
    exact .nil

theorem run_snoc_iff {M : Machine σ ε ο} {s u : σ} {trace : List (ε × ο)}
    {e : ε} {o : ο} :
    Run M s (trace ++ [(e, o)]) u ↔
      ∃ t, Run M s trace t ∧ M.step t e = some (u, o) := by
  constructor
  · intro run
    generalize htrace : trace ++ [(e, o)] = whole at run
    cases run with
    | nil => simp at htrace
    | snoc run h =>
        obtain ⟨rfl, hlast⟩ := List.append_inj' htrace rfl
        simp only [List.cons.injEq, Prod.mk.injEq, and_true] at hlast
        obtain ⟨rfl, rfl⟩ := hlast
        exact ⟨_, run, h⟩
  · rintro ⟨t, run, h⟩
    exact run.snoc h

theorem run_append_iff {M : Machine σ ε ο} {s u : σ} {xs ys : List (ε × ο)} :
    Run M s (xs ++ ys) u ↔ ∃ t, Run M s xs t ∧ Run M t ys u := by
  induction ys using List.reverseRecOn generalizing u with
  | nil => simp [run_nil_iff]
  | append_singleton ys last ih =>
      obtain ⟨e, o⟩ := last
      rw [← List.append_assoc, run_snoc_iff]
      constructor
      · rintro ⟨v, run, h⟩
        obtain ⟨t, hxs, hys⟩ := ih.mp run
        exact ⟨t, hxs, hys.snoc h⟩
      · rintro ⟨t, hxs, run⟩
        obtain ⟨v, hys, h⟩ := run_snoc_iff.mp run
        exact ⟨v, ih.mpr ⟨t, hxs, hys⟩, h⟩

theorem run_cons_iff {M : Machine σ ε ο} {s u : σ} {trace : List (ε × ο)}
    {e : ε} {o : ο} :
    Run M s ((e, o) :: trace) u ↔
      ∃ t, M.step s e = some (t, o) ∧ Run M t trace u := by
  change Run M s ([(e, o)] ++ trace) u ↔ _
  rw [run_append_iff]
  change (∃ t, Run M s ([] ++ [(e, o)]) t ∧ _) ↔ _
  simp only [run_snoc_iff, run_nil_iff, exists_eq_left]

theorem Run.step_at {M : Machine σ ε ο} {s u : σ} {xs ys : List (ε × ο)}
    {e : ε} {o : ο} (run : Run M s (xs ++ (e, o) :: ys) u) :
    ∃ t t', Run M s xs t ∧ M.step t e = some (t', o) ∧ Run M t' ys u := by
  obtain ⟨t, hxs, hrest⟩ := run_append_iff.mp run
  obtain ⟨t', hstep, hys⟩ := run_cons_iff.mp hrest
  exact ⟨t, t', hxs, hstep, hys⟩

/-- `R` relates every step of `M` to a step of `N` on the translated event,
with the same observation. -/
structure Simulation (M : Machine σ ε ο) (N : Machine τ δ ο) (f : ε → δ)
    (R : σ → τ → Prop) : Prop where
  step : ∀ {s t e s' o}, R s t → M.step s e = some (s', o) →
    ∃ t', N.step t (f e) = some (t', o) ∧ R s' t'

theorem Simulation.run {M : Machine σ ε ο} {N : Machine τ δ ο} {f : ε → δ}
    {R : σ → τ → Prop} (sim : Simulation M N f R) {s s' : σ} {t : τ}
    {trace : List (ε × ο)} (hstart : R s t) (run : Run M s trace s') :
    ∃ t', Run N t (trace.map (Prod.map f id)) t' ∧ R s' t' := by
  induction run with
  | nil => exact ⟨t, .nil, hstart⟩
  | snoc _ h ih =>
      obtain ⟨t₁, hrun, hrel⟩ := ih
      obtain ⟨t₂, hstep, hrel'⟩ := sim.step hrel h
      refine ⟨t₂, ?_, hrel'⟩
      rw [List.map_append]
      exact hrun.snoc hstep

/-- What the simulating machine keeps of a trace holds of every simulated run. -/
theorem Simulation.invariant {M : Machine σ ε ο} {N : Machine τ δ ο} {f : ε → δ}
    {R : σ → τ → Prop} (sim : Simulation M N f R) {s s' : σ} {t : τ}
    {trace : List (ε × ο)} (Q : List (ε × ο) → τ → Prop) (hstart : R s t)
    (hnil : Q [] t)
    (hstep : ∀ trace t e o t', Q trace t → N.step t (f e) = some (t', o) →
      Q (trace ++ [(e, o)]) t')
    (run : Run M s trace s') : ∃ t', R s' t' ∧ Q trace t' := by
  induction run with
  | nil => exact ⟨t, hstart, hnil⟩
  | snoc _ h ih =>
      obtain ⟨t₁, hrel, hQ⟩ := ih
      obtain ⟨t₂, hstep', hrel'⟩ := sim.step hrel h
      exact ⟨t₂, hrel', hstep _ _ _ _ _ hQ hstep'⟩

theorem Run.deterministic {M : Machine σ ε ο} {s t u : σ}
    {xs ys : List (ε × ο)} (hxs : Run M s xs t) (hys : Run M s ys u)
    (hevents : xs.map Prod.fst = ys.map Prod.fst) : xs = ys ∧ t = u := by
  induction hxs generalizing ys u with
  | nil =>
      obtain rfl : ys = [] := by simpa using hevents.symm
      exact ⟨rfl, (run_nil_iff.mp hys).symm⟩
  | @snoc xs t t' e o _ hstep ih =>
      obtain ⟨ys, last, rfl⟩ : ∃ init last, ys = init ++ [last] := by
        rcases List.eq_nil_or_concat ys with rfl | ⟨init, last, rfl⟩
        · simp at hevents
        · exact ⟨init, last, by simp⟩
      obtain ⟨e', o'⟩ := last
      simp only [List.map_append, List.map_cons, List.map_nil] at hevents
      obtain ⟨hinit, hlast⟩ := List.append_inj' hevents rfl
      obtain rfl : e = e' := by simpa using hlast
      obtain ⟨v, hrun, hstep'⟩ := run_snoc_iff.mp hys
      obtain ⟨rfl, rfl⟩ := ih hrun hinit
      rw [hstep, Option.some.injEq, Prod.mk.injEq] at hstep'
      obtain ⟨rfl, rfl⟩ := hstep'
      exact ⟨rfl, rfl⟩

/-- Two runs simulated from one abstract state over events with the same
translation observe the same and end in states with a common abstraction. -/
theorem Simulation.runs_agree {M : Machine σ ε ο} {N : Machine τ δ ο}
    {f : ε → δ} {R : σ → τ → Prop} (sim : Simulation M N f R)
    {s₁ s₂ u₁ u₂ : σ} {t : τ} {xs ys : List (ε × ο)}
    (h₁ : R s₁ t) (h₂ : R s₂ t) (run₁ : Run M s₁ xs u₁) (run₂ : Run M s₂ ys u₂)
    (hevents : xs.map (fun x => f x.1) = ys.map (fun y => f y.1)) :
    xs.map Prod.snd = ys.map Prod.snd ∧ ∃ t', R u₁ t' ∧ R u₂ t' := by
  obtain ⟨t₁, hrun₁, hrel₁⟩ := sim.run h₁ run₁
  obtain ⟨t₂, hrun₂, hrel₂⟩ := sim.run h₂ run₂
  have hsame : (xs.map (Prod.map f id)).map Prod.fst =
      (ys.map (Prod.map f id)).map Prod.fst := by
    rw [List.map_map, List.map_map]
    exact hevents
  obtain ⟨htrace, rfl⟩ := hrun₁.deterministic hrun₂ hsame
  have hobserved := congrArg (List.map Prod.snd) htrace
  rw [List.map_map, List.map_map] at hobserved
  exact ⟨hobserved, t₁, hrel₁, hrel₂⟩

end LedgerSovereign.TransitionRuns
