import HessianGo.Reader

/-!
This module contains how the combinations of readers follow from their parts, and what is known of
the values that readers give, whatever text they read.
-/

namespace HessianGo

theorem Outcome.exists_of_map_eq_ok {α β : Type} {f : α → β} {outcome : Outcome α} {value : β}
    {rest : List Char} (h : outcome.map f = .ok value rest) :
    ∃ found, outcome = .ok found rest ∧ value = f found := by
  cases outcome with
  | ok found after =>
    cases h
    exact ⟨found, rfl, rfl⟩
  | mismatch => cases h
  | exhausted => cases h

namespace Reader

variable {α β : Type} {P : α → Prop} {Q : β → Prop}

section

variable {p q : Reader α} {f : α → Reader β} {s rest : List Char} {value : α}

theorem bind_eq_of_ok (h : p s = .ok value rest) : (p >>= f) s = f value rest := by
  change andThen p f s = _
  unfold andThen
  rw [h]

theorem bind_eq_of_mismatch (h : p s = .mismatch) : (p >>= f) s = .mismatch := by
  change andThen p f s = _
  unfold andThen
  rw [h]

theorem map_eq_of_ok {g : α → β} (h : p s = .ok value rest) :
    (g <$> p) s = .ok (g value) rest :=
  bind_eq_of_ok h

theorem map_eq_of_mismatch {g : α → β} (h : p s = .mismatch) : (g <$> p) s = .mismatch :=
  bind_eq_of_mismatch h

theorem orElse_eq_of_ok (h : p s = .ok value rest) : (p <|> q) s = .ok value rest := by
  change orElse p (fun _ => q) s = _
  unfold orElse
  rw [h]

theorem orElse_eq_of_mismatch (h : p s = .mismatch) : (p <|> q) s = q s := by
  change orElse p (fun _ => q) s = _
  unfold orElse
  rw [h]

theorem exists_of_bind_eq_ok {result : β} (h : (p >>= f) s = .ok result rest) :
    ∃ value between, p s = .ok value between ∧ f value between = .ok result rest := by
  change andThen p f s = .ok result rest at h
  unfold andThen at h
  split at h
  . next value between hfirst => exact ⟨value, between, hfirst, h⟩
  . cases h
  . cases h

theorem of_orElse_eq_ok (h : (p <|> q) s = .ok value rest) :
    p s = .ok value rest ∨ q s = .ok value rest := by
  change orElse p (fun _ => q) s = .ok value rest at h
  unfold orElse at h
  split at h
  . exact .inr h
  . exact .inl h

end

structure Yields (p : Reader α) (P : α → Prop) : Prop where
  of_eq_ok : ∀ {s value rest}, p s = .ok value rest → P value

namespace Yields

theorem trivial (p : Reader α) : Yields p (fun _ => True) where
  of_eq_ok _ := .intro

theorem pure {value : α} (h : P value) : Yields (Pure.pure value) P where
  of_eq_ok hvalue := by
    cases hvalue
    exact h

theorem bind {p : Reader α} {f : α → Reader β} (hp : Yields p P)
    (hf : ∀ value, P value → Yields (f value) Q) : Yields (p >>= f) Q where
  of_eq_ok {s value rest} h := by
    rcases exists_of_bind_eq_ok h with ⟨first, between, hfirst, h⟩
    exact (hf first (hp.of_eq_ok hfirst)).of_eq_ok h

theorem after (p : Reader α) {f : α → Reader β} (hf : ∀ value, Yields (f value) Q) :
    Yields (p >>= f) Q :=
  (trivial p).bind fun value _ => hf value

theorem map {p : Reader α} {f : α → β} (hp : Yields p P) (h : ∀ value, P value → Q (f value)) :
    Yields (f <$> p) Q := by
  change Yields (p >>= fun value => Pure.pure (f value)) Q
  apply hp.bind
  intro value hvalue
  exact pure (h value hvalue)

theorem orElse {p q : Reader α} (hp : Yields p P) (hq : Yields q P) : Yields (p <|> q) P where
  of_eq_ok {s value rest} h := by
    rcases of_orElse_eq_ok h with h | h
    . exact hp.of_eq_ok h
    . exact hq.of_eq_ok h

theorem firstOf {ps : List (Reader α)} (h : ∀ p ∈ ps, Yields p P) :
    Yields (Reader.firstOf ps) P := by
  induction ps with
  | nil =>
    constructor
    intro s value rest hvalue
    cases hvalue
  | cons p ps ih =>
    apply orElse
    . exact h p (by simp)
    . exact ih fun q hq => h q (by simp [hq])

theorem many {p : Reader α} (hp : Yields p P) (bound : Nat) :
    Yields (Reader.many p bound) (fun values => ∀ value ∈ values, P value) := by
  induction bound with
  | zero =>
    constructor
    intro s values rest h
    cases h
  | succ bound ih =>
    constructor
    intro s values rest h
    unfold Reader.many at h
    cases hfirst : p s with
    | ok first between =>
      rw [hfirst] at h
      dsimp only at h
      cases hothers : Reader.many p bound between with
      | ok others after =>
        rw [hothers] at h
        cases h
        simp only [List.mem_cons, forall_eq_or_imp]
        exact ⟨hp.of_eq_ok hfirst, ih.of_eq_ok hothers⟩
      | mismatch =>
        rw [hothers] at h
        cases h
      | exhausted =>
        rw [hothers] at h
        cases h
    | mismatch =>
      rw [hfirst] at h
      cases h
      simp
    | exhausted =>
      rw [hfirst] at h
      cases h

end Yields

end Reader

end HessianGo
