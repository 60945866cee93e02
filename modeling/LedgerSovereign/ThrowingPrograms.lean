import Mathlib.Init

/-!
Programs with a state and exceptions that leave the state as it is.  The
equations evaluate a program at a state; `Agrees` compares its result with a
pure computation that may fail.
-/

namespace LedgerSovereign.ThrowingPrograms

variable {ε φ σ α β α' β' : Type}

@[simp] theorem run_throw_any (e : ε) (s : σ) :
    (throw e : EStateM ε σ α).run s = .error e s := rfl

@[simp] theorem run_ite (c : Prop) [Decidable c] (x y : EStateM ε σ α) (s : σ) :
    (if c then x else y).run s = if c then x.run s else y.run s := by
  split <;> rfl

@[simp] theorem run_modify_bind (g : σ → σ) (f : PUnit → EStateM ε σ α) (s : σ) :
    (modify g >>= f).run s = (f ()).run (g s) := rfl

@[simp] theorem run_get_bind (f : σ → EStateM ε σ α) (s : σ) :
    (get >>= f).run s = (f s).run s := rfl

@[simp] theorem run_map_any (f : α → β) (x : EStateM ε σ α) (s : σ) :
    (f <$> x).run s = match x.run s with
      | .ok a t => .ok (f a) t
      | .error e t => .error e t := by
  change EStateM.map f x s = _
  unfold EStateM.map EStateM.run
  cases x s <;> rfl

@[simp] theorem run_tryCatch_kept (x : EStateM ε σ α) (f : ε → EStateM ε σ α)
    (s : σ) :
    (tryCatch x f : EStateM ε σ α).run s = match x.run s with
      | .ok a t => .ok a t
      | .error e t => (f e).run t := by
  change EStateM.tryCatch x f s = _
  unfold EStateM.tryCatch EStateM.run
  cases x s <;> rfl

/-- A result returns what the pure computation does, up to `P`, and throws
where it fails, up to `rel` and `Q`. -/
def Agrees (rel : ε → φ → Prop) (P : α → β → σ → Prop) (Q : φ → σ → Prop) :
    EStateM.Result ε σ α → Except φ β → Prop
  | .ok a s, .ok b => P a b s
  | .error e s, .error d => rel e d ∧ Q d s
  | _, _ => False

theorem Agrees.bind {rel : ε → φ → Prop} {P : α → β → σ → Prop}
    {P' : α' → β' → σ → Prop} {Q : φ → σ → Prop} {x : EStateM ε σ α}
    {f : α → EStateM ε σ α'} {o : Except φ β} {g : β → Except φ β'} {s : σ}
    (hx : Agrees rel P Q (x.run s) o)
    (hf : ∀ a b t, P a b t → Agrees rel P' Q ((f a).run t) (g b)) :
    Agrees rel P' Q ((x >>= f).run s) (o >>= g) := by
  rw [EStateM.run_bind]
  cases hresult : x.run s with
  | ok a t =>
      rw [hresult] at hx
      cases o with
      | ok b => exact hf a b t hx
      | error d => exact hx.elim
  | error e t =>
      rw [hresult] at hx
      cases o with
      | ok b => exact hx.elim
      | error d => exact hx

theorem Agrees.mono {rel : ε → φ → Prop} {P P' : α → β → σ → Prop}
    {Q Q' : φ → σ → Prop} {r : EStateM.Result ε σ α} {o : Except φ β}
    (h : Agrees rel P Q r o) (hP : ∀ a b s, P a b s → P' a b s)
    (hQ : ∀ d s, Q d s → Q' d s) : Agrees rel P' Q' r o := by
  cases r with
  | ok a s =>
      cases o with
      | ok b => exact hP a b s h
      | error d => exact h.elim
  | error e s =>
      cases o with
      | ok b => exact h.elim
      | error d => exact ⟨h.1, hQ d s h.2⟩

theorem except_bind_eq_ok {x : Except φ β} {f : β → Except φ β'} {b : β'} :
    (x >>= f) = .ok b ↔ ∃ a, x = .ok a ∧ f a = .ok b := by
  cases x with
  | error d =>
      constructor
      · rintro ⟨⟩
      · rintro ⟨a, ⟨⟩, -⟩
  | ok a =>
      constructor
      · intro h
        exact ⟨a, rfl, h⟩
      · rintro ⟨_, ⟨⟩, h⟩
        exact h

theorem except_bind_eq_error {x : Except φ β} {f : β → Except φ β'} {d : φ} :
    (x >>= f) = .error d ↔ x = .error d ∨ ∃ a, x = .ok a ∧ f a = .error d := by
  cases x with
  | error d' =>
      constructor
      · rintro ⟨⟩
        exact .inl rfl
      · rintro (⟨⟨⟩⟩ | ⟨a, ⟨⟩, -⟩)
        rfl
  | ok a =>
      constructor
      · intro h
        exact .inr ⟨a, rfl, h⟩
      · rintro (⟨⟨⟩⟩ | ⟨_, ⟨⟩, h⟩)
        exact h

end LedgerSovereign.ThrowingPrograms
