import LedgerSovereign.TransitionRuns

namespace LedgerSovereign.MachineBisimulation

open LedgerSovereign.TransitionRuns

variable {σ σ₁ σ₂ τ ε ε₁ ε₂ δ ο : Type*}

/-- In related states both machines take an event, with the same observation, or
both refuse it. -/
structure Bisimulation (M : Machine σ ε ο) (N : Machine τ δ ο) (f : ε → δ)
    (R : σ → τ → Prop) : Prop where
  step : ∀ {s t}, R s t → ∀ e,
    (M.step s e = none ∧ N.step t (f e) = none) ∨
      ∃ s' t' o, M.step s e = some (s', o) ∧ N.step t (f e) = some (t', o) ∧
        R s' t'

section Two

variable {M : Machine σ ε ο} {N : Machine τ δ ο} {f : ε → δ} {R : σ → τ → Prop}

theorem Bisimulation.simulation (bis : Bisimulation M N f R) :
    Simulation M N f R where
  step := by
    intro s t e s' o hrel h
    rcases bis.step hrel e with ⟨hnone, -⟩ | ⟨s₁, t₁, o₁, hstep, hstep', hrel'⟩
    · rw [h] at hnone
      cases hnone
    · rw [h, Option.some.injEq, Prod.mk.injEq] at hstep
      obtain ⟨rfl, rfl⟩ := hstep
      exact ⟨t₁, hstep', hrel'⟩

theorem Bisimulation.lift_step (bis : Bisimulation M N f R) {s : σ} {t t' : τ}
    {e : ε} {o : ο} (hrel : R s t) (h : N.step t (f e) = some (t', o)) :
    ∃ s', M.step s e = some (s', o) ∧ R s' t' := by
  rcases bis.step hrel e with ⟨-, hnone⟩ | ⟨s', t₁, o₁, hM, hN, hrel'⟩
  · rw [h] at hnone
    cases hnone
  · rw [h, Option.some.injEq, Prod.mk.injEq] at hN
    obtain ⟨rfl, rfl⟩ := hN
    exact ⟨s', hM, hrel'⟩

/-- What the second machine can do on translated events, the first one does. -/
theorem Bisimulation.lift (bis : Bisimulation M N f R) {s : σ} {t t' : τ}
    {trace : List (ε × ο)} (hstart : R s t)
    (run : Run N t (trace.map (Prod.map f id)) t') :
    ∃ s', Run M s trace s' ∧ R s' t' := by
  induction trace using List.reverseRecOn generalizing t' with
  | nil =>
      obtain rfl := run_nil_iff.mp run
      exact ⟨s, .nil, hstart⟩
  | append_singleton trace last ih =>
      obtain ⟨e, o⟩ := last
      rw [List.map_append] at run
      obtain ⟨t₁, hrun, hstep⟩ := run_snoc_iff.mp run
      obtain ⟨s₁, hrun', hrel⟩ := ih hrun
      obtain ⟨s', hstep', hrel'⟩ := bis.lift_step hrel hstep
      exact ⟨s', hrun'.snoc hstep', hrel'⟩

theorem Bisimulation.run_iff (bis : Bisimulation M N f R) {s : σ} {t : τ}
    (hstart : R s t) (trace : List (ε × ο)) :
    (∃ s', Run M s trace s') ↔
      ∃ t', Run N t (trace.map (Prod.map f id)) t' := by
  constructor
  · rintro ⟨s', run⟩
    obtain ⟨t', hrun, -⟩ := bis.simulation.run hstart run
    exact ⟨t', hrun⟩
  · rintro ⟨t', run⟩
    obtain ⟨s', hrun, -⟩ := bis.lift hstart run
    exact ⟨s', hrun⟩

end Two

/-- Entries outside `keep` leave the machine where it is. -/
def Idle (N : Machine τ δ ο) (keep : δ × ο → Bool) : Prop :=
  ∀ t e o t', N.step t e = some (t', o) → keep (e, o) = false → t' = t

theorem run_filter {N : Machine τ δ ο} {keep : δ × ο → Bool} (hidle : Idle N keep)
    {t t' : τ} {trace : List (δ × ο)} (run : Run N t trace t') :
    Run N t (trace.filter keep) t' := by
  induction run with
  | nil => exact .nil
  | @snoc trace t₁ t₂ e o _ hstep ih =>
      rw [List.filter_append]
      cases hkeep : keep (e, o) with
      | true =>
          rw [List.filter_cons_of_pos hkeep]
          exact ih.snoc hstep
      | false =>
          obtain rfl := hidle _ _ _ _ hstep hkeep
          simpa [hkeep] using ih

theorem filter_map_entries {f : ε → δ} (keep : δ × ο → Bool)
    (trace : List (ε × ο)) :
    (trace.map (Prod.map f id)).filter keep =
      (trace.filter fun x => keep (f x.1, x.2)).map (Prod.map f id) := by
  rw [List.filter_map]
  rfl

/-- The run goes on without the entries that leave the machine where it is. -/
theorem Bisimulation.erase {M : Machine σ ε ο} {N : Machine τ δ ο} {f : ε → δ}
    {R : σ → τ → Prop} (bis : Bisimulation M N f R) {keep : δ × ο → Bool}
    (hidle : Idle N keep) {s s' : σ} {t : τ} {trace : List (ε × ο)}
    (hstart : R s t) (run : Run M s trace s') :
    ∃ u t', Run M s (trace.filter fun x => keep (f x.1, x.2)) u ∧
      R s' t' ∧ R u t' := by
  obtain ⟨t', hrun, hrel⟩ := bis.simulation.run hstart run
  have hfilter := run_filter hidle hrun
  rw [filter_map_entries] at hfilter
  obtain ⟨u, hrun', hrel'⟩ := bis.lift hstart hfilter
  exact ⟨u, t', hrun', hrel, hrel'⟩

theorem map_zip_observations {f : ε → δ} (xs : List (δ × ο)) (es : List ε)
    (hevents : es.map f = xs.map Prod.fst) :
    (es.zip (xs.map Prod.snd)).map (Prod.map f id) = xs := by
  induction xs generalizing es with
  | nil =>
      obtain rfl : es = [] := by simpa using hevents
      rfl
  | cons x xs ih =>
      cases es with
      | nil => cases hevents
      | cons e es =>
          obtain ⟨hhead, htail⟩ := List.cons.inj hevents
          change (f e, x.2) :: _ = (x.1, x.2) :: _
          rw [hhead]
          exact congrArg _ (ih es htail)

/-- A run of the second machine is followed by the first one on all events that
are translated to those of the run. -/
theorem Bisimulation.follow {M : Machine σ ε ο} {N : Machine τ δ ο} {f : ε → δ}
    {R : σ → τ → Prop} (bis : Bisimulation M N f R) {s : σ} {t t' : τ}
    (hstart : R s t) {xs : List (δ × ο)} (run : Run N t xs t') {es : List ε}
    (hevents : es.map f = xs.map Prod.fst) :
    ∃ ys s', Run M s ys s' ∧ ys.map Prod.fst = es ∧
      ys.map Prod.snd = xs.map Prod.snd ∧ R s' t' := by
  have hlength : es.length = (xs.map Prod.snd).length := by
    simpa using congrArg List.length hevents
  rw [← map_zip_observations xs es hevents] at run
  obtain ⟨s', hrun, hrel⟩ := bis.lift hstart run
  exact ⟨_, s', hrun, List.map_fst_zip (Nat.le_of_eq hlength),
    List.map_snd_zip (Nat.le_of_eq hlength.symm), hrel⟩

section Both

variable {M₁ : Machine σ₁ ε₁ ο} {M₂ : Machine σ₂ ε₂ ο} {N : Machine τ δ ο}
  {f₁ : ε₁ → δ} {f₂ : ε₂ → δ} {R₁ : σ₁ → τ → Prop} {R₂ : σ₂ → τ → Prop}
  {s₁ u₁ : σ₁} {s₂ u₂ : σ₂} {t : τ}

/-- A run of one machine is matched by the other on all events with the same
translation. -/
theorem Bisimulation.matched (bis₁ : Bisimulation M₁ N f₁ R₁)
    (bis₂ : Bisimulation M₂ N f₂ R₂) (h₁ : R₁ s₁ t) (h₂ : R₂ s₂ t)
    {xs : List (ε₁ × ο)} (run : Run M₁ s₁ xs u₁) {es : List ε₂}
    (hevents : es.map f₂ = xs.map fun x => f₁ x.1) :
    ∃ ys u₂ t', Run M₂ s₂ ys u₂ ∧ ys.map Prod.fst = es ∧
      ys.map Prod.snd = xs.map Prod.snd ∧ R₁ u₁ t' ∧ R₂ u₂ t' := by
  obtain ⟨t', hrun, hrel₁⟩ := bis₁.simulation.run h₁ run
  have hsame : es.map f₂ = (xs.map (Prod.map f₁ id)).map Prod.fst := by
    rw [List.map_map]
    exact hevents
  obtain ⟨ys, u₂, hrun₂, hfst, hsnd, hrel₂⟩ := bis₂.follow h₂ hrun hsame
  rw [List.map_map] at hsnd
  exact ⟨ys, u₂, t', hrun₂, hfst, hsnd, hrel₁, hrel₂⟩

/-- Two runs that agree in the entries worth keeping agree in their
observations and in what can follow. -/
theorem Bisimulation.kept_agree (bis₁ : Bisimulation M₁ N f₁ R₁)
    (bis₂ : Bisimulation M₂ N f₂ R₂) (h₁ : R₁ s₁ t) (h₂ : R₂ s₂ t)
    {keep : δ × ο → Bool} (hidle : Idle N keep) {xs : List (ε₁ × ο)}
    {ys : List (ε₂ × ο)} (run₁ : Run M₁ s₁ xs u₁) (run₂ : Run M₂ s₂ ys u₂)
    (hevents :
      (xs.filter fun x => keep (f₁ x.1, x.2)).map (fun x => f₁ x.1) =
        (ys.filter fun y => keep (f₂ y.1, y.2)).map fun y => f₂ y.1) :
    (xs.filter fun x => keep (f₁ x.1, x.2)).map Prod.snd =
        (ys.filter fun y => keep (f₂ y.1, y.2)).map Prod.snd ∧
      ∃ t', R₁ u₁ t' ∧ R₂ u₂ t' := by
  obtain ⟨t₁, hrun₁, hrel₁⟩ := bis₁.simulation.run h₁ run₁
  obtain ⟨t₂, hrun₂, hrel₂⟩ := bis₂.simulation.run h₂ run₂
  have hfilter₁ := run_filter hidle hrun₁
  have hfilter₂ := run_filter hidle hrun₂
  rw [filter_map_entries] at hfilter₁ hfilter₂
  have hsame : ((xs.filter fun x => keep (f₁ x.1, x.2)).map
        (Prod.map f₁ id)).map Prod.fst =
      ((ys.filter fun y => keep (f₂ y.1, y.2)).map (Prod.map f₂ id)).map
        Prod.fst := by
    rw [List.map_map, List.map_map]
    exact hevents
  obtain ⟨htrace, rfl⟩ := hfilter₁.deterministic hfilter₂ hsame
  have hobserved := congrArg (List.map Prod.snd) htrace
  rw [List.map_map, List.map_map] at hobserved
  exact ⟨hobserved, t₁, hrel₁, hrel₂⟩

end Both

section Alike

variable {M₁ : Machine σ₁ ε ο} {M₂ : Machine σ₂ ε ο} {N : Machine τ δ ο} {f : ε → δ}
  {R₁ : σ₁ → τ → Prop} {R₂ : σ₂ → τ → Prop} {s₁ : σ₁} {s₂ : σ₂} {t t₁ t₂ : τ}

/-- The same can be observed of all translated events from both states. -/
def Alike (N : Machine τ δ ο) (f : ε → δ) (t₁ t₂ : τ) : Prop :=
  ∀ trace : List (ε × ο), (∃ u, Run N t₁ (trace.map (Prod.map f id)) u) ↔
    ∃ u, Run N t₂ (trace.map (Prod.map f id)) u

theorem Alike.symm (h : Alike N f t₁ t₂) : Alike N f t₂ t₁ :=
  fun trace => (h trace).symm

theorem Bisimulation.alike (bis₁ : Bisimulation M₁ N f R₁)
    (bis₂ : Bisimulation M₂ N f R₂) (h₁ : R₁ s₁ t₁) (h₂ : R₂ s₂ t₂)
    (hsame : ∀ trace, (∃ u, Run M₁ s₁ trace u) ↔ ∃ u, Run M₂ s₂ trace u) :
    Alike N f t₁ t₂ := by
  intro trace
  rw [← bis₁.run_iff h₁, ← bis₂.run_iff h₂]
  exact hsame trace

theorem run_cons_of_step {t' : τ} {e : δ} {o : ο} (hstep : N.step t e = some (t', o))
    (trace : List (δ × ο)) :
    (∃ u, Run N t ((e, o) :: trace) u) ↔ ∃ u, Run N t' trace u := by
  constructor
  · rintro ⟨u, run⟩
    obtain ⟨t'', hstep', hrun⟩ := run_cons_iff.mp run
    rw [hstep, Option.some.injEq, Prod.mk.injEq] at hstep'
    obtain ⟨rfl, -⟩ := hstep'
    exact ⟨u, hrun⟩
  · rintro ⟨u, run⟩
    exact ⟨u, run_cons_iff.mpr ⟨t', hstep, run⟩⟩

/-- A step from one of the states is a step from the other, and the states it leads
to are alike again. -/
theorem Alike.step (h : Alike N f t₁ t₂) {t' : τ} {e : ε} {o : ο}
    (hstep : N.step t₁ (f e) = some (t', o)) :
    ∃ t'', N.step t₂ (f e) = some (t'', o) ∧ Alike N f t' t'' := by
  obtain ⟨u, run⟩ := (h [(e, o)]).mp ⟨t', run_cons_iff.mpr ⟨t', hstep, .nil⟩⟩
  obtain ⟨t'', hstep', -⟩ := run_cons_iff.mp run
  refine ⟨t'', hstep', ?_⟩
  intro trace
  rw [← run_cons_of_step hstep, ← run_cons_of_step hstep']
  exact h ((e, o) :: trace)

end Alike

end LedgerSovereign.MachineBisimulation
