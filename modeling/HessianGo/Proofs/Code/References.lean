import HessianGo.Proofs.Code.Expr
import HessianGo.Proofs.Occurrence

/-!
This module contains sequences of references in one Go file. The search for an alias ends, the table
has the paths in the order of their first use, and the text of a reference tells which identifier of
which package it is.
-/

namespace HessianGo

namespace Code

namespace ImportTable

/-! ### The search for an alias -/

/--
`SearchEnds base taken n name`: from the candidate `n` on, the search that passes over one taken
candidate after the other ends, and it ends with `name`.
-/
inductive SearchEnds (base : String) (taken : List String) : Nat → String → Prop where
  | found {n : Nat} : candidate base n ∉ taken → SearchEnds base taken n (candidate base n)
  | next {n : Nat} {name : String} :
    candidate base n ∈ taken → SearchEnds base taken (n + 1) name → SearchEnds base taken n name

theorem searchEnds_of_find? {base : String} {taken : List String} {n length : Nat} {name : String}
    (h : ((List.range' n length).map (candidate base)).find? (· ∉ taken) = some name) :
    SearchEnds base taken n name := by
  induction length generalizing n with
  | zero => simp at h
  | succ length ih =>
    rw [List.range'_succ, List.map_cons] at h
    by_cases htaken : candidate base n ∈ taken
    . rw [List.find?_cons_of_neg (by simpa using htaken)] at h
      apply SearchEnds.next htaken
      exact ih h
    . rw [List.find?_cons_of_pos (by simpa using htaken)] at h
      rw [← Option.some.inj h]
      exact .found htaken

theorem searchEnds_freshAlias (base : String) (taken : List String) :
    SearchEnds base taken 0 (freshAlias base taken) := by
  have hfree := freshAlias_not_mem base taken
  unfold freshAlias at hfree ⊢
  rw [List.range_eq_range'] at hfree ⊢
  cases hfind :
      ((List.range' 0 (taken.length + 1)).map (candidate base)).find? (· ∉ taken) with
  | some name => exact searchEnds_of_find? hfind
  | none =>
    rw [hfind] at hfree
    exact .found hfree

/-! ### The order of the paths -/

theorem paths_record (table : ImportTable) (importPath : ImportPath) :
    (table.record importPath).entries.map Prod.fst
      =
    if table.isBare importPath.path ∨ importPath.path ∈ table.entries.map Prod.fst then
      table.entries.map Prod.fst
    else
      table.entries.map Prod.fst ++ [importPath.path] := by
  have hknown :
      (table.alias? importPath.path).isSome ↔ importPath.path ∈ table.entries.map Prod.fst := by
    rw [Option.isSome_iff_ne_none, ne_eq, alias?_eq_none_iff, not_not]
  unfold record
  simp only [hknown]
  split
  . rfl
  . simp

def neededPaths (own : ImportPath) (idents : List Ident) : List String :=
  (idents.map (·.importPath.path)).filter fun path => path ≠ "" ∧ path ≠ own.path

theorem paths_recordAll (own : ImportPath) (idents : List Ident) :
    (recordAll { own } idents).entries.map Prod.fst = (neededPaths own idents).eraseDups := by
  induction idents using List.reverseRecOn with
  | nil => rfl
  | append_singleton idents ident ih =>
    have hbare : (recordAll { own } idents).isBare ident.importPath.path
        = isBare { own } ident.importPath.path :=
      (recordAll_extends { own } idents).isBare_eq _
    have hneeded : neededPaths own (idents ++ [ident])
        = neededPaths own idents
          ++ if isBare { own } ident.importPath.path then [] else [ident.importPath.path] := by
      simp only [neededPaths, List.map_append, List.filter_append, List.map_cons, List.map_nil]
      congr 1
      by_cases hempty : ident.importPath.path = ""
      . simp [isBare, hempty]
      . by_cases hown : ident.importPath.path = own.path
        . simp [isBare, hown]
        . simp [isBare, hempty, hown]
    rw [recordAll_append, recordAll_cons, recordAll_nil, paths_record, hbare, ih, hneeded]
    cases isBare { own } ident.importPath.path with
    | true => simp
    | false => simp [eraseDups_concat]

/-! ### Texts of references -/

theorem refer_of_isBare {table : ImportTable} {ident : Ident}
    (h : table.isBare ident.importPath.path) : table.refer ident = ident.name := by
  unfold refer
  rw [if_pos h]

theorem Knows.exists_refer_eq {table : ImportTable} (hwellFormed : table.WellFormed)
    {ident : Ident} (h : table.Knows ident.importPath.path)
    (hbare : table.isBare ident.importPath.path = false) :
    ∃ name, (ident.importPath.path, name) ∈ table.entries
      ∧ (table.refer ident).toList = name.toList ++ '.' :: ident.name.toList := by
  rcases h with hbare' | hsome
  . rw [hbare] at hbare'
    cases hbare'
  . rcases Option.isSome_iff_exists.1 hsome with ⟨name, hname⟩
    refine ⟨name, hwellFormed.alias?_eq_some_iff.1 hname, ?_⟩
    simp [refer, hbare, hname]

theorem isBare_iff {table : ImportTable} {path : String} (h : path ≠ "") :
    table.isBare path ↔ path = table.own.path := by
  simp [isBare, h]

theorem refer_eq_refer_iff {table : ImportTable} (hwellFormed : table.WellFormed)
    {first second : Ident} (hfirst : table.Knows first.importPath.path)
    (hsecond : table.Knows second.importPath.path)
    (hpath : first.importPath.path ≠ "" ∧ second.importPath.path ≠ "")
    (hdot : '.' ∉ first.name.toList ∧ '.' ∉ second.name.toList) :
    table.refer first = table.refer second
      ↔
    first.importPath.path = second.importPath.path ∧ first.name = second.name := by
  constructor
  . intro h
    cases hbare : table.isBare first.importPath.path with
    | true =>
      rw [refer_of_isBare hbare] at h
      cases hbare' : table.isBare second.importPath.path with
      | true =>
        rw [refer_of_isBare hbare'] at h
        rw [isBare_iff hpath.1] at hbare
        rw [isBare_iff hpath.2] at hbare'
        exact ⟨hbare.trans hbare'.symm, h⟩
      | false =>
        rcases hsecond.exists_refer_eq hwellFormed hbare' with ⟨name, -, htext⟩
        rw [← h] at htext
        exact absurd (by simp [htext]) hdot.1
    | false =>
      rcases hfirst.exists_refer_eq hwellFormed hbare with ⟨name, hentry, htext⟩
      cases hbare' : table.isBare second.importPath.path with
      | true =>
        rw [h, refer_of_isBare hbare'] at htext
        exact absurd (by simp [htext]) hdot.2
      | false =>
        rcases hsecond.exists_refer_eq hwellFormed hbare' with ⟨other, hother, htext'⟩
        -- An alias may have dots in it, but the name is all that stands behind the last one.
        have hcut := Text.cutLast_append hdot.1 name.toList
        rw [← htext, h, htext', Text.cutLast_append hdot.2] at hcut
        rcases Prod.mk.inj (Option.some.inj hcut) with ⟨hname, hsame⟩
        rw [← String.toList_inj.1 hname] at hentry
        exact ⟨hwellFormed.path_eq hother hentry, String.toList_inj.1 hsame.symm⟩
  . rintro ⟨hsame, hname⟩
    unfold refer
    rw [hsame, hname]

end ImportTable

open ImportTable (SearchEnds neededPaths)

/-! ### Sequences of references -/

theorem writes_idents (idents : List Ident) :
    Writing.Writes (idents.mapM Ident.write) idents (fun table => idents.map table.refer) := by
  induction idents with
  | nil => apply Writing.Writes.pure
  | cons ident idents ih =>
    rw [List.mapM_cons]
    exact (Writing.writes_ident ident).bind fun text => ih.map (text :: ·)

theorem run_write_idents (own : ImportPath) (idents : List Ident) :
    (idents.mapM Ident.write).run { own }
      =
    (idents.map (ImportTable.recordAll { own } idents).refer,
      ImportTable.recordAll { own } idents) := by
  have hwrites := writes_idents idents
  have htable := hwrites.table_eq { own }
  apply Prod.ext
  . rw [hwrites.value_eq { own } _ (.refl _), htable]
  . exact htable

theorem entries_write (ident : Ident) (table : ImportTable) :
    table.Knows ident.importPath.path ∧ (ident.write.run table).2.entries = table.entries
      ∨ ∃ name, SearchEnds ident.importPath.packageName table.taken 0 name
        ∧ (ident.write.run table).2.entries = table.entries ++ [(ident.importPath.path, name)] := by
  change _ ∧ (table.record ident.importPath).entries = _
    ∨ ∃ name, _ ∧ (table.record ident.importPath).entries = _
  unfold ImportTable.record
  split
  . next hknown => exact .inl ⟨hknown, rfl⟩
  . exact .inr ⟨_, ImportTable.searchEnds_freshAlias _ _, rfl⟩

/--
An identifier whose references show where they lead: it belongs to a known package, and its name is
no dotted one.
-/
def Ident.IsPlain (ident : Ident) : Prop :=
  ident.importPath.path ≠ "" ∧ '.' ∉ ident.name.toList

/--
References to identifiers, one after the other, in a file that has no imports yet. The next one
finds its path known or the search for a new alias ends; each alias stands for one path and is not
the name of the file's own package; the paths are those that need an import, in the order of their
first use, and what further references add comes behind them. Two references to plain identifiers
have the same text if and only if the path and the name are the same.
-/
theorem references_outcome (own : ImportPath) (idents : List Ident) :
    ∃ texts table, (idents.mapM Ident.write).run { own } = (texts, table)
      ∧ (∀ ident : Ident, table.Knows ident.importPath.path
          ∧ (ident.write.run table).2.entries = table.entries
        ∨ ∃ name, SearchEnds ident.importPath.packageName table.taken 0 name
          ∧ (ident.write.run table).2.entries = table.entries ++ [(ident.importPath.path, name)])
      ∧ (table.entries.map Prod.fst).Nodup
      ∧ (table.entries.map Prod.snd).Nodup
      ∧ (∀ entry ∈ table.entries, entry.1 ≠ "" ∧ entry.1 ≠ own.path ∧ entry.2 ≠ own.packageName)
      ∧ table.entries.map Prod.fst = (neededPaths own idents).eraseDups
      ∧ (∀ further, table.entries
        <+: (((idents ++ further).mapM Ident.write).run { own }).2.entries)
      ∧ texts.length = idents.length
      ∧ (∀ call ∈ idents.zip texts, call.1.importPath.path = own.path → call.2 = call.1.name)
      ∧ ∀ first ∈ idents.zip texts, ∀ second ∈ idents.zip texts,
        first.1.IsPlain → second.1.IsPlain →
          (first.2 = second.2
            ↔ first.1.importPath.path = second.1.importPath.path
              ∧ first.1.name = second.1.name) := by
  have hwellFormed := ((ImportTable.Reachable.new own).recordAll idents).wellFormed
  have hextends := ImportTable.recordAll_extends { own } idents
  refine ⟨_, _, run_write_idents own idents, ?_⟩
  generalize htable : ImportTable.recordAll { own } idents = table at hwellFormed hextends
  have hown : table.own = own := hextends.own_eq
  have htexts : ∀ call ∈ idents.zip (idents.map table.refer),
      call.1 ∈ idents ∧ call.2 = table.refer call.1 := by
    rw [← List.map_prod_left_eq_zip]
    intro call hcall
    rcases List.mem_map.1 hcall with ⟨ident, hident, rfl⟩
    exact ⟨hident, rfl⟩
  refine ⟨fun ident => entries_write ident table, hwellFormed.nodup_paths,
    (List.nodup_cons.1 hwellFormed.nodup_taken).2, ?_, ?_, ?_, by simp, ?_, ?_⟩
  . intro entry hentry
    have hbare := hwellFormed.not_isBare entry hentry
    simp only [ImportTable.isBare, hown, Bool.or_eq_false_iff, decide_eq_false_iff_not] at hbare
    refine ⟨hbare.1, hbare.2, ?_⟩
    intro hname
    apply (List.nodup_cons.1 hwellFormed.nodup_taken).1
    rw [hown, ← hname]
    exact List.mem_map_of_mem hentry
  . rw [← htable]
    apply ImportTable.paths_recordAll
  . intro further
    rw [run_write_idents, ImportTable.recordAll_append, htable]
    exact (ImportTable.recordAll_extends table further).isPrefix
  . intro call hcall hpath
    rw [(htexts call hcall).2]
    apply ImportTable.refer_of_isBare
    simp [ImportTable.isBare, hpath, hown]
  . intro first hfirst second hsecond hplain hplain'
    rcases htexts first hfirst with ⟨hmem, htext⟩
    rcases htexts second hsecond with ⟨hmem', htext'⟩
    rw [htext, htext']
    have hknows : ∀ ident ∈ idents, table.Knows ident.importPath.path := by
      rw [← htable]
      exact fun ident hident => ImportTable.recordAll_knows hident
    exact ImportTable.refer_eq_refer_iff hwellFormed (hknows _ hmem) (hknows _ hmem')
      ⟨hplain.1, hplain'.1⟩ ⟨hplain.2, hplain'.2⟩

def modelIdents : List Ident :=
  [⟨"A", ⟨"a/model", "model"⟩⟩, ⟨"A", ⟨"b/model1", "model1"⟩⟩, ⟨"A", ⟨"c/model", "model"⟩⟩,
   ⟨"A", ⟨"shop/model", "model"⟩⟩]

theorem references_outcome_modelIdents :
    (modelIdents.mapM Ident.write).run { own := ⟨"shop/model", "model"⟩ }
        =
      (["model1.A", "model11.A", "model2.A", "A"],
        { own := ⟨"shop/model", "model"⟩
          entries := [("a/model", "model1"), ("b/model1", "model11"), ("c/model", "model2")] })
      ∧ ("model1.A" = "model11.A" ↔ "a/model" = "b/model1" ∧ "A" = "A") := by
  have hrun : (modelIdents.mapM Ident.write).run { own := ⟨"shop/model", "model"⟩ }
      = (["model1.A", "model11.A", "model2.A", "A"], _) := rfl
  refine ⟨hrun, ?_⟩
  rcases references_outcome ⟨"shop/model", "model"⟩ modelIdents
    with ⟨texts, table, hsame, -, -, -, -, -, -, -, -, hequal⟩
  rcases Prod.mk.inj (hrun.symm.trans hsame) with ⟨rfl, rfl⟩
  exact hequal (⟨"A", ⟨"a/model", "model"⟩⟩, "model1.A") (by simp [modelIdents])
    (⟨"A", ⟨"b/model1", "model1"⟩⟩, "model11.A") (by simp [modelIdents])
    ⟨by decide, by decide⟩ ⟨by decide, by decide⟩

end Code

end HessianGo
