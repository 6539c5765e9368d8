/-!
Contract: chains of steps that may fail.

Owns:
- how a chain succeeds, and how it fails, in terms of its steps;
- that renaming faults changes no success.

Does not own: any step.
-/

namespace Circulation

variable {ε α β : Type}

/-- A chain succeeds exactly if its first step does and the others do with what that gave. -/
theorem bind_eq_ok_iff {first : Except ε α} {next : α → Except ε β} {result : β} :
    (first >>= next) = .ok result ↔ ∃ value, first = .ok value ∧ next value = .ok result := by
  cases first with
  | error fault => simp [bind, Except.bind]
  | ok value => simp [bind, Except.bind]

/-- A chain fails exactly if its first step does, or the others do with what that gave. -/
theorem bind_eq_error_iff {first : Except ε α} {next : α → Except ε β} {fault : ε} :
    (first >>= next) = .error fault ↔
      first = .error fault ∨ ∃ value, first = .ok value ∧ next value = .error fault := by
  cases first with
  | error other => simp [bind, Except.bind]
  | ok value => simp [bind, Except.bind]

/-- Renaming the faults of a step leaves its success as it is. -/
@[simp] theorem mapError_eq_ok_iff {ε' : Type} {step : Except ε α} {rename : ε → ε'} {value : α} :
    step.mapError rename = .ok value ↔ step = .ok value := by
  cases step with
  | error fault =>
    show Except.error (rename fault) = Except.ok value ↔ _
    simp
  | ok result =>
    show Except.ok result = Except.ok value ↔ _
    simp

@[simp] theorem ok_bind (value : α) (next : α → Except ε β) :
    (Except.ok value >>= next) = next value :=
  rfl

@[simp] theorem error_bind (fault : ε) (next : α → Except ε β) :
    (Except.error fault >>= next) = .error fault :=
  rfl

end Circulation
