/-!
This module contains the inversion of computations that can fail: what the outcome of a computation
says of the outcomes of its parts.
-/

namespace HessianGo

variable {ε α β : Type}

theorem bind_eq_ok_iff {first : Except ε α} {next : α → Except ε β} {result : β} :
    (first >>= next) = .ok result ↔ ∃ value, first = .ok value ∧ next value = .ok result := by
  cases first with
  | ok value =>
    constructor
    . intro h
      exact ⟨value, rfl, h⟩
    . rintro ⟨_, hvalue, h⟩
      cases hvalue
      exact h
  | error error =>
    constructor
    . intro h
      cases h
    . rintro ⟨_, hvalue, _⟩
      cases hvalue

theorem bind_eq_error_iff {first : Except ε α} {next : α → Except ε β} {error : ε} :
    (first >>= next) = .error error
      ↔
    first = .error error ∨ ∃ value, first = .ok value ∧ next value = .error error := by
  cases first with
  | ok value =>
    constructor
    . intro h
      exact .inr ⟨value, rfl, h⟩
    . rintro (h | ⟨_, hvalue, h⟩)
      . cases h
      . cases hvalue
        exact h
  | error cause =>
    constructor
    . intro h
      cases h
      exact .inl rfl
    . rintro (h | ⟨_, hvalue, _⟩)
      . cases h
        rfl
      . cases hvalue

theorem exists_of_map_eq_ok {first : Except ε α} {f : α → β} {result : β}
    (h : f <$> first = .ok result) : ∃ value, first = .ok value ∧ f value = result := by
  cases first with
  | ok value =>
    cases h
    exact ⟨value, rfl, rfl⟩
  | error error => cases h

end HessianGo
