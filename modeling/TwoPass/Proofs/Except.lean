/-! # Steps that may fail

Readers of operands are sequences of steps in `Except`. A sequence of steps is
taken apart into its first step and the rest, and two of them agree if each of their
steps does. -/

namespace TwoPass

variable {ε α β : Type}

@[simp] theorem ok_bind (value : α) (next : α → Except ε β) :
    (Except.ok value >>= next) = next value := rfl

@[simp] theorem error_bind (failure : ε) (next : α → Except ε β) :
    (Except.error failure >>= next) = .error failure := rfl

@[simp] theorem map_ok (transform : α → β) (value : α) :
    transform <$> (Except.ok value : Except ε α) = .ok (transform value) := rfl

@[simp] theorem map_error (transform : α → β) (failure : ε) :
    transform <$> (Except.error failure : Except ε α) = .error failure := rfl

@[simp] theorem pure_eq_ok (value : α) : (pure value : Except ε α) = .ok value := rfl

theorem bind_eq_ok {step : Except ε α} {next : α → Except ε β} {result : β} :
    step >>= next = .ok result ↔ ∃ value, step = .ok value ∧ next value = .ok result := by
  cases step <;> simp

theorem bind_eq_error {step : Except ε α} {next : α → Except ε β} {failure : ε} :
    step >>= next = .error failure ↔
      step = .error failure ∨ ∃ value, step = .ok value ∧ next value = .error failure := by
  cases step <;> simp

theorem map_eq_ok {step : Except ε α} {transform : α → β} {result : β} :
    transform <$> step = .ok result ↔ ∃ value, step = .ok value ∧ transform value = result := by
  cases step <;> simp

theorem map_eq_error {step : Except ε α} {transform : α → β} {failure : ε} :
    transform <$> step = .error failure ↔ step = .error failure := by
  cases step <;> simp

/-- Two steps both fail, or give related results. -/
inductive Alike (related : α → β → Prop) : Except ε α → Except ε β → Prop where
  | ok {value : α} {other : β} (results : related value other) :
      Alike related (.ok value) (.ok other)
  | error (failure another : ε) : Alike related (.error failure) (.error another)

namespace Alike

variable {γ δ : Type} {related : α → β → Prop} {next : γ → δ → Prop}
  {step : Except ε α} {other : Except ε β}

theorem refl (step : Except ε α) : Alike Eq step step := by
  cases step with
  | ok value => exact .ok rfl
  | error failure => exact .error failure failure

theorem bind {go : α → Except ε γ} {goOther : β → Except ε δ} (steps : Alike related step other)
    (later : ∀ value another, related value another → Alike next (go value) (goOther another)) :
    Alike next (step >>= go) (other >>= goOther) := by
  cases steps with
  | ok results => exact later _ _ results
  | error failure another => exact .error failure another

theorem bind_eq {step other : Except ε α} {go goOther : α → Except ε γ} {next : γ → γ → Prop}
    (steps : Alike Eq step other) (later : ∀ value, Alike next (go value) (goOther value)) :
    Alike next (step >>= go) (other >>= goOther) := by
  apply steps.bind
  rintro value _ rfl
  exact later value

theorem map {transform : α → γ} {transformOther : β → δ} (steps : Alike related step other)
    (kept : ∀ value another, related value another →
      next (transform value) (transformOther another)) :
    Alike next (transform <$> step) (transformOther <$> other) := by
  cases steps with
  | ok results => exact .ok (kept _ _ results)
  | error failure another => exact .error failure another

theorem eq_iff_toOption {step other : Except ε α} :
    Alike Eq step other ↔ step.toOption = other.toOption := by
  constructor
  · rintro (rfl | _)
    · rfl
    · rfl
  · intro same
    cases step with
    | ok value =>
        cases other with
        | ok another => exact .ok (Option.some.inj same)
        | error failure => cases same
    | error failure =>
        cases other with
        | ok value => cases same
        | error another => exact .error failure another

end Alike

theorem toOption_eq_some_iff {outcome : Except ε α} {value : α} :
    outcome.toOption = some value ↔ outcome = .ok value := by
  cases outcome <;> simp [Except.toOption]

theorem exists_of_isOk {outcome : Except ε α} (succeeds : outcome.isOk = true) :
    ∃ value, outcome = .ok value := by
  cases outcome with
  | ok value => exact ⟨value, rfl⟩
  | error failure => cases succeeds

end TwoPass
