import HessianGo.Except
import Mathlib.Data.List.Forall2

/-!
This module contains what the outcome of a list of computations says of each of them.
-/

namespace HessianGo

variable {ε α β : Type}

instance decidableExistsEqOk {outcome : Except ε α} {P : α → Prop} [DecidablePred P] :
    Decidable (∃ value, outcome = .ok value ∧ P value) :=
  match outcome with
  | .ok value => decidable_of_iff (P value) (by simp)
  | .error _ => isFalse (by simp)

theorem mapM_eq_ok_iff {f : α → Except ε β} {items : List α} {results : List β} :
    items.mapM f = .ok results
      ↔
    List.Forall₂ (fun item result => f item = .ok result) items results := by
  induction items generalizing results with
  | nil =>
    rw [List.mapM_nil, List.forall₂_nil_left_iff]
    constructor
    . intro h
      cases h
      rfl
    . rintro rfl
      rfl
  | cons item items ih =>
    rw [List.mapM_cons, List.forall₂_cons_left_iff, bind_eq_ok_iff]
    apply exists_congr
    intro first
    simp only [bind_eq_ok_iff, ih]
    constructor
    . rintro ⟨hfirst, others, hothers, hresults⟩
      cases hresults
      exact ⟨others, hfirst, hothers, rfl⟩
    . rintro ⟨others, hfirst, hothers, rfl⟩
      exact ⟨hfirst, others, hothers, rfl⟩

theorem exists_eq_ok_of_mapM_eq_ok {f : α → Except ε β} {items : List α} {results : List β}
    (h : items.mapM f = .ok results) {item : α} (hitem : item ∈ items) :
    ∃ value, f item = .ok value := by
  rw [mapM_eq_ok_iff] at h
  induction h with
  | nil => cases hitem
  | @cons first value _ _ hfirst _ ih =>
    rcases List.mem_cons.1 hitem with rfl | hitem
    . exact ⟨value, hfirst⟩
    . exact ih hitem

theorem mapM_eq_error_iff {f : α → Except ε β} {items : List α} {error : ε} :
    items.mapM f = .error error
      ↔
    ∃ before item after, items = before ++ item :: after
      ∧ (∀ other ∈ before, ∃ value, f other = .ok value) ∧ f item = .error error := by
  induction items with
  | nil =>
    rw [List.mapM_nil]
    constructor
    . intro h
      cases h
    . rintro ⟨before, item, after, h, -⟩
      simp at h
  | cons first items ih =>
    rw [List.mapM_cons, bind_eq_error_iff]
    simp only [bind_eq_error_iff, ih]
    constructor
    . rintro (herror | ⟨value, hfirst, ⟨before, item, after, rfl, hbefore, hitem⟩ | ⟨_, _, h⟩⟩)
      . exact ⟨[], first, items, rfl, by simp, herror⟩
      . refine ⟨first :: before, item, after, rfl, ?_, hitem⟩
        rw [List.forall_mem_cons]
        exact ⟨⟨value, hfirst⟩, hbefore⟩
      . cases h
    . rintro ⟨before, item, after, h, hbefore, hitem⟩
      cases before with
      | nil =>
        cases h
        exact .inl hitem
      | cons other before =>
        cases h
        rw [List.forall_mem_cons] at hbefore
        rcases hbefore with ⟨⟨value, hfirst⟩, hbefore⟩
        exact .inr ⟨value, hfirst, .inl ⟨before, item, after, rfl, hbefore, hitem⟩⟩

theorem mapM_congr_mem {f g : α → Except ε β} {items : List α}
    (h : ∀ item ∈ items, f item = g item) : items.mapM f = items.mapM g := by
  induction items with
  | nil => rfl
  | cons item items ih =>
    rw [List.mapM_cons, List.mapM_cons]
    rw [h item (by simp)]
    rw [ih fun other hother => h other (by simp [hother])]

end HessianGo
