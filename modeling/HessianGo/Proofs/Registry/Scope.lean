import HessianGo.Proofs.Schema.Tree
import HessianGo.Registry.Scope
import HessianGo.Text.Cut
import Mathlib.Data.List.Nodup

/-!
This module contains the meaning of type names. `StandsFor` says which full name a written name
denotes by walking from a scope to the scopes around it; the candidates of a name are that walk, so
among the declarations one is found for a name exactly if the name stands for it.
-/

namespace HessianGo

namespace Registry

open Schema (Declaration)

/--
The scope around a scope: its name without the last dotted component.
-/
def enclosing (scope : String) : String :=
  String.ofList (((Text.cutLast '.' scope.toList).map Prod.fst).getD [])

/--
`Denotes declared name scope full`: among `name` in `scope`, in the scope around it and so on up to
`name` alone, `full` is the first that is declared.
-/
inductive Denotes (declared : List String) (name : String) : String → String → Prop where
  | here {scope : String} :
    Schema.qualify (some scope) name ∈ declared →
    Denotes declared name scope (Schema.qualify (some scope) name)
  | around {scope full : String} :
    scope ≠ "" →
    Schema.qualify (some scope) name ∉ declared →
    Denotes declared name (enclosing scope) full →
    Denotes declared name scope full

/--
The written name, used in a scope, stands for the declared full name. A leading dot makes it
absolute.
-/
def StandsFor (declared : List String) (scope written full : String) : Prop :=
  match written.toList with
  | '.' :: absolute => full = String.ofList absolute ∧ full ∈ declared
  | _ => Denotes declared written scope full

/-! ### The walk to the enclosing scopes -/

theorem length_enclosing_lt {scope : String} (h : scope ≠ "") :
    (enclosing scope).toList.length < scope.toList.length := by
  unfold enclosing
  cases hcut : Text.cutLast '.' scope.toList with
  | none =>
    have : scope.toList ≠ [] := by simpa using h
    simpa [List.length_pos_iff] using this
  | some parts =>
    rcases parts with ⟨before, after⟩
    rcases Text.cutLast_eq_some hcut with ⟨hscope, -⟩
    simp only [Option.map_some, Option.getD_some, String.toList_ofList, hscope, List.length_append,
      List.length_cons]
    omega

theorem beforeDots_of_not_mem {s : List Char} (h : '.' ∉ s) : beforeDots s = [] := by
  induction s with
  | nil => rfl
  | cons c s ih =>
    simp only [List.mem_cons, not_or] at h
    simp [beforeDots, Ne.symm h.1, ih h.2]

theorem beforeDots_append {before after : List Char} (h : '.' ∉ after) :
    beforeDots (before ++ '.' :: after) = beforeDots before ++ [before] := by
  induction before with
  | nil => simp [beforeDots, beforeDots_of_not_mem h]
  | cons c before ih => simp [beforeDots, ih]

theorem scopes_empty : scopes "" = [] := by
  decide

theorem scopes_of_ne_empty {scope : String} (h : scope ≠ "") :
    scopes scope = scope :: scopes (enclosing scope) := by
  unfold scopes enclosing
  rw [List.filter_cons_of_pos (by simpa using h)]
  congr 1
  cases hcut : Text.cutLast '.' scope.toList with
  | none => simp [beforeDots_of_not_mem (Text.cutLast_eq_none_iff.1 hcut), beforeDots]
  | some parts =>
    rcases parts with ⟨before, after⟩
    rcases Text.cutLast_eq_some hcut with ⟨hscope, hafter⟩
    rw [hscope]
    rw [beforeDots_append hafter]
    simp

/-! ### Candidates -/

theorem candidates_absolute {written : String} {absolute : List Char}
    (h : written.toList = '.' :: absolute) (scope : String) :
    candidates scope written = [String.ofList absolute] := by
  simp [candidates, h]

theorem candidates_relative {written : String} (h : written.toList.head? ≠ some '.')
    (scope : String) :
    candidates scope written
      =
    (scopes scope).map (fun scope => scope ++ "." ++ written) ++ [written] := by
  unfold candidates
  split
  . next heq => simp [heq] at h
  . rfl

theorem find?_scopes_eq_some_iff {declared : List String} {scope name full : String} :
    ((scopes scope).map (fun scope => scope ++ "." ++ name) ++ [name]).find? (· ∈ declared)
        = some full
      ↔
    Denotes declared name scope full := by
  by_cases hscope : scope = ""
  . subst hscope
    rw [scopes_empty]
    constructor
    . intro h
      simp only [List.map_nil, List.nil_append, List.find?_singleton, decide_eq_true_eq,
        Option.ite_none_right_eq_some, Option.some.injEq] at h
      rcases h with ⟨hmem, rfl⟩
      exact .here hmem
    . intro h
      cases h with
      | here hmem =>
        simp only [Schema.qualify, ↓reduceIte] at hmem ⊢
        simp [hmem]
      | around hne => exact absurd rfl hne
  . have hqualify : Schema.qualify (some scope) name = scope ++ "." ++ name := by
      simp [Schema.qualify, hscope]
    have ih := @find?_scopes_eq_some_iff declared (enclosing scope) name full
    rw [scopes_of_ne_empty hscope, List.map_cons, List.cons_append]
    by_cases hmem : scope ++ "." ++ name ∈ declared
    . rw [List.find?_cons_of_pos (by simpa using hmem)]
      constructor
      . intro h
        rcases Option.some.inj h with rfl
        rw [← hqualify] at hmem ⊢
        exact .here hmem
      . intro h
        cases h with
        | here => rw [hqualify]
        | around _ hnot => exact absurd (hqualify ▸ hmem) hnot
    . rw [List.find?_cons_of_neg (by simpa using hmem)]
      rw [ih]
      constructor
      . intro h
        exact .around hscope (hqualify ▸ hmem) h
      . intro h
        cases h with
        | here hin => exact absurd (hqualify ▸ hin) hmem
        | around _ _ h => exact h
termination_by scope.toList.length
decreasing_by exact length_enclosing_lt hscope

theorem find?_candidates_eq_some_iff {declared : List String} {scope written full : String} :
    (candidates scope written).find? (· ∈ declared) = some full
      ↔
    StandsFor declared scope written full := by
  unfold StandsFor
  split
  . next absolute hwritten =>
    rw [candidates_absolute hwritten]
    simp only [List.find?_singleton, decide_eq_true_eq, Option.ite_none_right_eq_some,
      Option.some.injEq]
    constructor
    . rintro ⟨hmem, rfl⟩
      exact ⟨rfl, hmem⟩
    . rintro ⟨rfl, hmem⟩
      exact ⟨hmem, rfl⟩
  . next hrelative =>
    rw [candidates_relative, find?_scopes_eq_some_iff]
    intro hhead
    rcases List.head?_eq_some_iff.1 hhead with ⟨absolute, hwritten⟩
    exact hrelative absolute hwritten

/-! ### Resolution -/

def find? (declarations : List Declaration) (fullName : String) : Option Declaration :=
  declarations.find? (·.fullName = fullName)

def resolve? (declarations : List Declaration) (scope name : String) : Option Declaration :=
  (candidates scope name).findSome? (find? declarations)

theorem isSome_find?_iff {declarations : List Declaration} {fullName : String} :
    (find? declarations fullName).isSome ↔ fullName ∈ declarations.map (·.fullName) := by
  simp only [find?, List.find?_isSome, decide_eq_true_eq, List.mem_map]

theorem fullName_of_find?_eq_some {declarations : List Declaration} {fullName : String}
    {declaration : Declaration} (h : find? declarations fullName = some declaration) :
    declaration.fullName = fullName := by
  simpa using List.find?_some h

theorem find?_eq_some_iff {declarations : List Declaration}
    (hnodup : (declarations.map (·.fullName)).Nodup) {name : String}
    {declaration : Declaration} :
    find? declarations name = some declaration
      ↔
    declaration ∈ declarations ∧ declaration.fullName = name := by
  constructor
  . intro hfind
    exact ⟨List.mem_of_find?_eq_some hfind, fullName_of_find?_eq_some hfind⟩
  . rintro ⟨hmem, rfl⟩
    have hsome := isSome_find?_iff.2 (List.mem_map_of_mem hmem)
    rcases Option.isSome_iff_exists.1 hsome with ⟨found, hfound⟩
    have hfoundMem := List.mem_of_find?_eq_some hfound
    rw [hfound, List.inj_on_of_nodup_map hnodup hfoundMem hmem (fullName_of_find?_eq_some hfound)]

theorem map_fullName_findSome? (declarations : List Declaration) (names : List String) :
    (names.findSome? (find? declarations)).map (·.fullName)
      =
    names.find? (· ∈ declarations.map (·.fullName)) := by
  induction names with
  | nil => rfl
  | cons name names ih =>
    cases hfind : find? declarations name with
    | some declaration =>
      have hmem := isSome_find?_iff.1 (Option.isSome_of_eq_some hfind)
      rw [List.findSome?_cons, hfind, List.find?_cons_of_pos (by simpa using hmem)]
      simp [fullName_of_find?_eq_some hfind]
    | none =>
      have hmem : name ∉ declarations.map (·.fullName) := by
        rw [← isSome_find?_iff]
        simp [hfind]
      rw [List.findSome?_cons, hfind, List.find?_cons_of_neg (by simpa using hmem)]
      exact ih

theorem map_fullName_resolve?_eq_some_iff {declarations : List Declaration}
    {scope written full : String} :
    (resolve? declarations scope written).map (·.fullName) = some full
      ↔
    StandsFor (declarations.map (·.fullName)) scope written full := by
  unfold resolve?
  rw [map_fullName_findSome?]
  rw [find?_candidates_eq_some_iff]

theorem resolve?_eq_none_iff {declarations : List Declaration} {scope written : String} :
    resolve? declarations scope written = none
      ↔
    ∀ full, ¬ StandsFor (declarations.map (·.fullName)) scope written full := by
  constructor
  . intro h full hfull
    rw [← map_fullName_resolve?_eq_some_iff] at hfull
    simp [h] at hfull
  . intro h
    cases hresolve : resolve? declarations scope written with
    | none => rfl
    | some declaration =>
      exfalso
      apply h declaration.fullName
      rw [← map_fullName_resolve?_eq_some_iff]
      rw [hresolve]
      rfl

theorem mem_of_resolve?_eq_some {declarations : List Declaration} {scope written : String}
    {declaration : Declaration} (h : resolve? declarations scope written = some declaration) :
    declaration ∈ declarations := by
  rcases List.exists_of_findSome?_eq_some h with ⟨name, -, hfind⟩
  exact List.mem_of_find?_eq_some hfind

end Registry

end HessianGo
