import HessianGo.Code.ImportTable
import Mathlib

/-!
This module contains the invariants of import tables. A table only grows, so that a reference that
was written once is right for all later tables of the file, and in every table that can come up each
path has one alias and each alias one path.
-/

namespace HessianGo

namespace Code

namespace ImportTable

/-! ### Fresh aliases -/

theorem candidate_injective (base : String) : Function.Injective (candidate base) := by
  intro i j h
  cases i with
  | zero =>
    cases j with
    | zero => rfl
    | succ j =>
      have hlength := congrArg (fun s => s.toList.length) h
      simp [candidate] at hlength
  | succ i =>
    cases j with
    | zero =>
      have hlength := congrArg (fun s => s.toList.length) h
      simp [candidate] at hlength
    | succ j =>
      apply Nat.repr_injective
      exact (String.append_right_inj base).1 h

theorem freshAlias_not_mem (base : String) (taken : List String) :
    freshAlias base taken ∉ taken := by
  unfold freshAlias
  cases hfind : ((List.range (taken.length + 1)).map (candidate base)).find? (· ∉ taken) with
  | some name => simpa using List.find?_some hfind
  | none =>
    -- One more candidates than taken names cannot all be taken.
    have hsubset : (List.range (taken.length + 1)).map (candidate base) ⊆ taken := by
      intro name hname
      simpa using List.find?_eq_none.1 hfind name hname
    have hnodup : ((List.range (taken.length + 1)).map (candidate base)).Nodup :=
      List.nodup_range.map (candidate_injective base)
    have hlength := hnodup.length_le_of_subset hsubset
    simp only [List.length_map, List.length_range] at hlength
    omega

/-! ### Growth -/

structure Extends (table later : ImportTable) : Prop where
  own_eq : later.own = table.own
  isPrefix : table.entries <+: later.entries

theorem Extends.refl (table : ImportTable) : Extends table table where
  own_eq := rfl
  isPrefix := List.prefix_refl _

theorem Extends.trans {first second third : ImportTable} (h : Extends first second)
    (h' : Extends second third) : Extends first third where
  own_eq := by rw [h'.own_eq, h.own_eq]
  isPrefix := h.isPrefix.trans h'.isPrefix

theorem Extends.isBare_eq {table later : ImportTable} (h : Extends table later) (path : String) :
    later.isBare path = table.isBare path := by
  unfold isBare
  rw [h.own_eq]

theorem Extends.alias?_eq {table later : ImportTable} (h : Extends table later)
    {path name : String} (halias : table.alias? path = some name) :
    later.alias? path = some name := by
  exact h.isPrefix.lookup_eq_some halias

theorem record_extends (table : ImportTable) (importPath : ImportPath) :
    Extends table (table.record importPath) := by
  unfold record
  split
  . apply Extends.refl
  . exact ⟨rfl, List.prefix_append _ _⟩

theorem isBare_record (table : ImportTable) (importPath : ImportPath) (path : String) :
    (table.record importPath).isBare path = table.isBare path := by
  apply (record_extends table importPath).isBare_eq

/--
References to identifiers at that path can be written with the table as it is.
-/
def Knows (table : ImportTable) (path : String) : Prop :=
  table.isBare path ∨ (table.alias? path).isSome

theorem Knows.of_extends {table later : ImportTable} {path : String} (h : table.Knows path)
    (hextends : Extends table later) : later.Knows path := by
  unfold Knows at *
  rw [hextends.isBare_eq]
  apply h.imp_right
  intro hsome
  rcases Option.isSome_iff_exists.1 hsome with ⟨name, hname⟩
  simp [hextends.alias?_eq hname]

theorem record_knows (table : ImportTable) (importPath : ImportPath) :
    (table.record importPath).Knows importPath.path := by
  unfold Knows
  rw [isBare_record]
  unfold record
  split
  . assumption
  . right
    simp [alias?, List.lookup_append]

theorem Knows.refer_eq {table later : ImportTable} {ident : Ident}
    (h : table.Knows ident.importPath.path) (hextends : Extends table later) :
    later.refer ident = table.refer ident := by
  unfold refer
  rw [hextends.isBare_eq]
  split
  . rfl
  . next hbare =>
    rcases Option.isSome_iff_exists.1 (h.resolve_left hbare) with ⟨name, hname⟩
    rw [hname, hextends.alias?_eq hname]

/-! ### Tables that can come up -/

def recordAll (table : ImportTable) (idents : List Ident) : ImportTable :=
  idents.foldl (fun table ident => table.record ident.importPath) table

@[simp]
theorem recordAll_nil (table : ImportTable) : table.recordAll [] = table := by
  rfl

@[simp]
theorem recordAll_cons (table : ImportTable) (ident : Ident) (idents : List Ident) :
    table.recordAll (ident :: idents) = (table.record ident.importPath).recordAll idents := by
  rfl

theorem recordAll_append (table : ImportTable) (first second : List Ident) :
    table.recordAll (first ++ second) = (table.recordAll first).recordAll second := by
  apply List.foldl_append

theorem recordAll_extends (table : ImportTable) (idents : List Ident) :
    Extends table (table.recordAll idents) := by
  induction idents generalizing table with
  | nil => apply Extends.refl
  | cons ident idents ih =>
    apply (record_extends table ident.importPath).trans
    apply ih

theorem recordAll_knows {table : ImportTable} {idents : List Ident} {ident : Ident}
    (h : ident ∈ idents) : (table.recordAll idents).Knows ident.importPath.path := by
  rcases List.append_of_mem h with ⟨before, after, rfl⟩
  rw [recordAll_append, recordAll_cons]
  apply (record_knows _ ident.importPath).of_extends
  apply recordAll_extends

inductive Reachable : ImportTable → Prop where
  | new (own : ImportPath) : Reachable { own }
  | qualify {table : ImportTable} (ident : Ident) :
    Reachable table → Reachable (ImportTable.qualify ident table).2

theorem Reachable.recordAll {table : ImportTable} (h : table.Reachable) (idents : List Ident) :
    (table.recordAll idents).Reachable := by
  induction idents generalizing table with
  | nil => exact h
  | cons ident idents ih =>
    apply ih
    exact .qualify ident h

/--
Each path has one alias, each alias one path, and no alias is the name of the file's own package.
-/
structure WellFormed (table : ImportTable) : Prop where
  nodup_paths : (table.entries.map Prod.fst).Nodup
  nodup_taken : table.taken.Nodup
  not_isBare : ∀ entry ∈ table.entries, table.isBare entry.1 = false

theorem alias?_eq_none_iff {table : ImportTable} {path : String} :
    table.alias? path = none ↔ path ∉ table.entries.map Prod.fst := by
  unfold alias?
  rw [List.lookup_eq_none_iff, List.mem_map]
  simp only [bne_iff_ne, ne_eq, not_exists, not_and]
  apply forall₂_congr
  intro entry _
  rw [eq_comm]

theorem mem_paths_record {table : ImportTable} {importPath : ImportPath} {path : String} :
    path ∈ (table.record importPath).entries.map Prod.fst
      ↔
    path ∈ table.entries.map Prod.fst ∨ table.isBare path = false ∧ importPath.path = path := by
  unfold record
  split
  . next hknown =>
    rw [iff_self_or]
    rintro ⟨hbare, rfl⟩
    rw [hbare, Option.isSome_iff_ne_none, ne_eq, alias?_eq_none_iff] at hknown
    simpa using hknown
  . next hnew =>
    simp only [not_or, Bool.not_eq_true] at hnew
    simp only [List.map_append, List.map_cons, List.map_nil, List.mem_append, List.mem_singleton]
    apply or_congr_right
    constructor
    . rintro rfl
      exact ⟨hnew.1, rfl⟩
    . rintro ⟨-, rfl⟩
      rfl

theorem mem_paths_recordAll {table : ImportTable} {idents : List Ident} {path : String} :
    path ∈ (table.recordAll idents).entries.map Prod.fst
      ↔
    path ∈ table.entries.map Prod.fst
      ∨ table.isBare path = false ∧ ∃ ident ∈ idents, ident.importPath.path = path := by
  induction idents generalizing table with
  | nil => simp
  | cons ident idents ih =>
    rw [recordAll_cons, ih, mem_paths_record, isBare_record]
    simp only [List.mem_cons, exists_eq_or_imp, or_assoc, ← and_or_left]

theorem WellFormed.record {table : ImportTable} (h : table.WellFormed) (importPath : ImportPath) :
    (table.record importPath).WellFormed := by
  unfold ImportTable.record
  split
  . exact h
  . next hnew =>
    simp only [not_or, Bool.not_eq_true, Option.isSome_eq_false_iff, Option.isNone_iff_eq_none,
      alias?_eq_none_iff] at hnew
    have hfresh := freshAlias_not_mem importPath.packageName table.taken
    constructor
    . simp only [List.map_append, List.map_cons, List.map_nil]
      apply h.nodup_paths.append (List.nodup_singleton _)
      simpa using hnew.2
    . have htaken (name : String) :
          taken { table with entries := table.entries ++ [(importPath.path, name)] }
            = table.taken ++ [name] := by
        simp [taken]
      rw [htaken]
      apply h.nodup_taken.append (List.nodup_singleton _)
      simpa using hfresh
    . intro entry hentry
      rcases List.mem_append.1 hentry with hold | hlast
      . exact h.not_isBare entry hold
      . rw [List.mem_singleton.1 hlast]
        exact hnew.1

theorem Reachable.wellFormed {table : ImportTable} (h : table.Reachable) : table.WellFormed := by
  induction h with
  | new own => exact ⟨by simp, by simp [taken], by simp⟩
  | qualify ident _ ih => exact ih.record ident.importPath

theorem WellFormed.alias?_eq_some_iff {table : ImportTable} (h : table.WellFormed)
    {path name : String} : table.alias? path = some name ↔ (path, name) ∈ table.entries := by
  constructor
  . intro halias
    rcases List.lookup_eq_some_iff.1 halias with ⟨before, after, hentries, -⟩
    rw [hentries]
    simp
  . intro hmem
    cases halias : table.alias? path with
    | none => exact absurd (List.mem_map_of_mem hmem) (alias?_eq_none_iff.1 halias)
    | some other =>
      rcases List.lookup_eq_some_iff.1 halias with ⟨before, after, hentries, -⟩
      have hother : (path, other) ∈ table.entries := by
        rw [hentries]
        simp
      have := List.inj_on_of_nodup_map h.nodup_paths hother hmem rfl
      rw [(Prod.mk.inj this).2]

theorem WellFormed.path_eq {table : ImportTable} (h : table.WellFormed) {path other name : String}
    (hpath : (path, name) ∈ table.entries) (hother : (other, name) ∈ table.entries) :
    other = path := by
  have hnodup := (List.nodup_cons.1 h.nodup_taken).2
  have := List.inj_on_of_nodup_map hnodup hother hpath rfl
  rw [(Prod.mk.inj this).1]

end ImportTable

end Code

end HessianGo
