import HessianGo.Binding.Field
import HessianGo.Proofs.Code.PackageName
import HessianGo.Proofs.Code.References

/-!
This module contains the predeclared names of Go that types and defaults are written with. An alias
is made of a package name without a look at them, so that an import can get one of them as its
alias. It does exactly if its path suggests the name itself and nothing else has it, or if the path
suggests a stem of the name and the search for an alias comes to the number behind it.
-/

namespace HessianGo

namespace Code

def predeclared : List String :=
  ["bool", "int32", "uint32", "int64", "uint64", "float32", "float64", "string", "byte", "nil",
   "true", "false"]

/--
The names that have a number behind them in a predeclared name, with the numbers.
-/
def predeclaredStems : List (String × Nat) :=
  [("int", 32), ("int3", 2), ("uint", 32), ("uint3", 2), ("int", 64), ("int6", 4), ("uint", 64),
   ("uint6", 4), ("float", 32), ("float3", 2), ("float", 64), ("float6", 4)]

def TypeExpr.bareNames : TypeExpr → List String
  | plain name => [name]
  | .ident _ => []
  | pointer target => target.bareNames
  | slice element => element.bareNames
  | map key value => key.bareNames ++ value.bareNames

theorem bareNames_ofScalar_subset (type : Schema.ScalarType) :
    (TypeExpr.ofScalar type).bareNames ⊆ predeclared := by
  cases type <;> decide

theorem zeroValue_eq_plain {packages : Packages} {type : Schema.FieldType} {text : String}
    (h : Binding.zeroValue packages type = .plain text) :
    text ∈ predeclared ∨ text = "0" ∨ text = "\"\"" := by
  unfold Binding.zeroValue at h
  split at h
  . split at h
    . cases h
    . exact .inr (.inl (Expr.plain.inj h).symm)
  . exact .inl ((Expr.plain.inj h) ▸ by decide)
  . exact .inr (.inr (Expr.plain.inj h).symm)
  . exact .inl ((Expr.plain.inj h) ▸ by decide)
  . exact .inr (.inl (Expr.plain.inj h).symm)
  . exact .inl ((Expr.plain.inj h) ▸ by decide)

namespace ImportTable

/-! ### Candidates -/

def numberCuts (word : String) : List (String × Nat) :=
  (List.range word.toList.length).filterMap fun i =>
    if (word.toList.drop i).all Char.isDigit then
      some (String.ofList (word.toList.take i), Nat.ofDigitChars 10 (word.toList.drop i) 0)
    else
      none

theorem mem_numberCuts_of_append {base word : String} {digits : List Char}
    (happend : base.toList ++ digits = word.toList) (hne : digits ≠ [])
    (hdigits : ∀ c ∈ digits, c.isDigit) :
    (base, Nat.ofDigitChars 10 digits 0) ∈ numberCuts word := by
  unfold numberCuts
  rw [← happend, List.mem_filterMap]
  refine ⟨base.toList.length, by simpa [List.length_pos_iff] using hne, ?_⟩
  rw [List.drop_left, List.take_left, String.ofList_toList, if_pos (List.all_eq_true.2 hdigits)]

theorem flatMap_numberCuts_predeclared : predeclared.flatMap numberCuts = predeclaredStems := by
  decide +kernel

theorem mem_predeclaredStems {stem : String × Nat} (h : stem ∈ predeclaredStems) :
    stem.2 ≠ 0 ∧ candidate stem.1 stem.2 ∈ predeclared := by
  revert stem
  decide +kernel

theorem candidate_eq_append {base : String} {n : Nat} (h : n ≠ 0) :
    candidate base n = base ++ toString n := by
  cases n with
  | zero => exact absurd rfl h
  | succ n => rfl

theorem candidate_mem_predeclared_iff {base : String} {n : Nat} :
    candidate base n ∈ predeclared
      ↔
    n = 0 ∧ base ∈ predeclared ∨ (base, n) ∈ predeclaredStems := by
  cases n with
  | zero =>
    have hnot : (base, 0) ∉ predeclaredStems := fun h => (mem_predeclaredStems h).1 rfl
    simp [candidate, hnot]
  | succ n =>
    simp only [Nat.add_eq_zero_iff, one_ne_zero, and_false, false_and, false_or]
    constructor
    . intro h
      have htext : (candidate base (n + 1)).toList = base.toList ++ Nat.toDigits 10 (n + 1) := by
        rw [candidate, String.toList_append]
        exact congrArg (base.toList ++ ·) Nat.toList_repr
      have hcut := mem_numberCuts_of_append htext.symm Nat.toDigits_ne_nil
        fun c hc => Nat.isDigit_of_mem_toDigits (by decide) (by decide) hc
      rw [Nat.ofDigitChars_toDigits (by decide) (by decide)] at hcut
      rw [← flatMap_numberCuts_predeclared]
      exact List.mem_flatMap.2 ⟨_, h, hcut⟩
    . intro h
      exact (mem_predeclaredStems h).2

/--
Of the candidates for a package name this one is the first that is not taken.
-/
def IsFirstFree (base : String) (taken : List String) (n : Nat) : Prop :=
  candidate base n ∉ taken ∧ ∀ m < n, candidate base m ∈ taken

theorem IsFirstFree.unique {base : String} {taken : List String} {m n : Nat}
    (hm : IsFirstFree base taken m) (hn : IsFirstFree base taken n) : m = n := by
  rcases Nat.lt_trichotomy m n with hlt | heq | hgt
  . exact absurd (hn.2 m hlt) hm.1
  . exact heq
  . exact absurd (hm.2 n hgt) hn.1

theorem SearchEnds.exists_isFirstFree {base : String} {taken : List String} {k : Nat}
    {name : String} (h : SearchEnds base taken k name)
    (hbefore : ∀ m < k, candidate base m ∈ taken) :
    ∃ n, name = candidate base n ∧ IsFirstFree base taken n := by
  induction h with
  | found hfree => exact ⟨_, rfl, hfree, hbefore⟩
  | @next k name htaken _ ih =>
    apply ih
    intro m hm
    rcases Nat.lt_succ_iff_lt_or_eq.1 hm with hlt | rfl
    . exact hbefore m hlt
    . exact htaken

theorem freshAlias_eq_iff {base : String} {taken : List String} {word : String}
    (hword : word ∈ predeclared) :
    freshAlias base taken = word
      ↔
    base = word ∧ word ∉ taken
      ∨ ∃ n, (base, n) ∈ predeclaredStems ∧ word = base ++ toString n
        ∧ IsFirstFree base taken n := by
  rcases (searchEnds_freshAlias base taken).exists_isFirstFree (by simp) with ⟨n, hname, hfirst⟩
  rw [hname]
  constructor
  . rintro rfl
    rcases candidate_mem_predeclared_iff.1 hword with ⟨rfl, -⟩ | hstem
    . exact .inl ⟨rfl, hfirst.1⟩
    . exact .inr ⟨n, hstem, candidate_eq_append (mem_predeclaredStems hstem).1, hfirst⟩
  . rintro (⟨rfl, hfree⟩ | ⟨m, hstem, rfl, hfirst'⟩)
    . have hzero : IsFirstFree base taken 0 := ⟨hfree, by simp⟩
      rw [hfirst.unique hzero]
      rfl
    . rw [hfirst.unique hfirst']
      exact candidate_eq_append (mem_predeclaredStems hstem).1

/-! ### Tables of packages without names of their own -/

/--
Each alias is the first one that was free when the import was recorded, for the name that the path
suggests.
-/
def IsSuggested (table : ImportTable) : Prop :=
  ∀ before path name after, table.entries = before ++ (path, name) :: after →
    name = freshAlias (ImportPath.suggestedName path.toList)
      (table.own.packageName :: before.map Prod.snd)

theorem IsSuggested.record {table : ImportTable} (h : table.IsSuggested) {importPath : ImportPath}
    (hname : importPath.packageName = ImportPath.suggestedName importPath.path.toList) :
    (table.record importPath).IsSuggested := by
  unfold ImportTable.record
  split
  . exact h
  . intro before path name after hentries
    dsimp only at hentries ⊢
    rcases List.eq_nil_or_concat after with rfl | ⟨others, last, rfl⟩
    . -- The entry is the one that was just added.
      rcases List.append_inj' hentries rfl with ⟨rfl, hentry⟩
      cases hentry
      rw [← hname]
      rfl
    . rw [List.concat_eq_append, ← List.cons_append, ← List.append_assoc] at hentries
      exact h before path name others (List.append_inj' hentries rfl).1

theorem isSuggested_recordAll {table : ImportTable} (h : table.IsSuggested) {idents : List Ident}
    (hnames : ∀ ident ∈ idents,
      ident.importPath.packageName = ImportPath.suggestedName ident.importPath.path.toList) :
    (table.recordAll idents).IsSuggested := by
  induction idents generalizing table with
  | nil => exact h
  | cons ident idents ih =>
    rw [List.forall_mem_cons] at hnames
    rw [recordAll_cons]
    exact ih (h.record hnames.1) hnames.2

end ImportTable

open ImportTable (IsFirstFree)

/--
References to identifiers, one after the other, in a file that has no imports yet, where no import
path comes with a name for its package. Types of fields and their defaults have only predeclared
names bare. An import has such a name as its alias exactly if its path suggests the name and nothing
else has it, or if it suggests a stem of the name and all that the search passes over is taken. So
if no path suggests a predeclared name or a stem of one, none of them denotes a package.
-/
theorem alias_mem_predeclared_iff (own : ImportPath) {idents : List Ident}
    (h : ∀ ident ∈ idents,
      ∃ text, ImportPath.nameOf text = [] ∧ ident.importPath = ImportPath.ofText text) :
    ∃ texts table, (idents.mapM Ident.write).run { own } = (texts, table)
      ∧ (∀ before path name after, table.entries = before ++ (path, name) :: after →
        ∀ word ∈ predeclared,
          (name = word
            ↔
          ImportPath.suggestedName path.toList = word
              ∧ word ∉ own.packageName :: before.map Prod.snd
            ∨ ∃ n, (ImportPath.suggestedName path.toList, n) ∈ predeclaredStems
              ∧ word = ImportPath.suggestedName path.toList ++ toString n
              ∧ IsFirstFree (ImportPath.suggestedName path.toList)
                (own.packageName :: before.map Prod.snd) n))
      ∧ ((∀ ident ∈ idents,
          ImportPath.suggestedName ident.importPath.path.toList
            ∉ predeclared ++ predeclaredStems.map Prod.fst) →
        ∀ word ∈ predeclared, word ∉ table.entries.map Prod.snd)
      ∧ (∀ type, (TypeExpr.ofScalar type).bareNames ⊆ predeclared)
      ∧ ∀ packages type text, Binding.zeroValue packages type = .plain text →
        text ∈ predeclared ∨ text = "0" ∨ text = "\"\"" := by
  have hnames : ∀ ident ∈ idents,
      ident.importPath.packageName = ImportPath.suggestedName ident.importPath.path.toList := by
    intro ident hident
    rcases h ident hident with ⟨text, hnone, hpath⟩
    rw [hpath, ImportPath.ofText_of_nameOf_eq_nil hnone, String.toList_ofList]
  have hsuggested : (ImportTable.recordAll { own } idents).IsSuggested := by
    apply ImportTable.isSuggested_recordAll ?_ hnames
    intro before path name after hentries
    simp at hentries
  have hown := (ImportTable.recordAll_extends { own } idents).own_eq
  refine ⟨_, _, run_write_idents own idents, ?_, ?_, bareNames_ofScalar_subset, ?_⟩
  . intro before path name after hentries word hword
    rw [hsuggested before path name after hentries, hown]
    exact ImportTable.freshAlias_eq_iff hword
  . intro hnone word hword hmem
    rcases List.mem_map.1 hmem with ⟨⟨path, name⟩, hentry, rfl⟩
    have hpath := List.mem_map_of_mem (f := Prod.fst) hentry
    rw [ImportTable.mem_paths_recordAll] at hpath
    rcases hpath with hpath | ⟨-, ident, hident, hpath⟩
    . simp at hpath
    . rcases List.append_of_mem hentry with ⟨before, after, hentries⟩
      have hnot := hnone ident hident
      rw [hpath, List.mem_append, not_or] at hnot
      have hname := (hsuggested before path name after hentries).symm
      rcases (ImportTable.freshAlias_eq_iff hword).1 hname with ⟨hbase, -⟩ | ⟨n, hstem, -⟩
      . exact hnot.1 (hbase ▸ hword)
      . exact hnot.2 (List.mem_map_of_mem hstem)
  . intro packages type text
    exact zeroValue_eq_plain

def identsAt (paths : List String) : List Ident :=
  paths.map fun path => { name := "A", importPath := .ofText path }

theorem exists_text_of_mem_identsAt {paths : List String}
    (h : ∀ path ∈ paths, ImportPath.nameOf path = []) {ident : Ident}
    (hident : ident ∈ identsAt paths) :
    ∃ text, ImportPath.nameOf text = [] ∧ ident.importPath = ImportPath.ofText text := by
  rcases List.mem_map.1 hident with ⟨path, hpath, rfl⟩
  exact ⟨path, h path hpath, rfl⟩

theorem alias_mem_predeclared_iff_strings :
    (∀ path ∈ ["x/string", "y/string"], ImportPath.nameOf path = [])
      ∧ (((identsAt ["x/string", "y/string"]).mapM Ident.write).run { own := .ofText "shop" }).2
        = { own := .ofText "shop", entries := [("x/string", "string"), ("y/string", "string1")] }
      ∧ (∀ word ∈ predeclared,
        "string" = word ↔ ImportPath.suggestedName "x/string".toList = word)
      ∧ ∀ word ∈ predeclared, "string1" ≠ word := by
  have hnames : ∀ path ∈ ["x/string", "y/string"], ImportPath.nameOf path = [] := by decide
  have hrun : (((identsAt ["x/string", "y/string"]).mapM Ident.write).run
      { own := .ofText "shop" }).2
        = { own := .ofText "shop"
            entries := [("x/string", "string"), ("y/string", "string1")] } := by
    decide +kernel
  have hsuggested : ImportPath.suggestedName "x/string".toList = "string"
      ∧ ImportPath.suggestedName "y/string".toList = "string" := by
    decide +kernel
  rcases alias_mem_predeclared_iff (.ofText "shop")
    (fun ident hident => exists_text_of_mem_identsAt hnames hident)
    with ⟨texts, table, htable, hiff, -⟩
  rw [show table = _ from (congrArg Prod.snd htable).symm.trans hrun] at hiff
  refine ⟨hnames, hrun, ?_, ?_⟩
  . intro word hword
    rw [hiff [] "x/string" "string" _ rfl word hword, hsuggested.1]
    constructor
    . rintro (⟨hbase, -⟩ | ⟨n, hstem, -⟩)
      . exact hbase
      . simp [predeclaredStems] at hstem
    . rintro rfl
      exact .inl ⟨rfl, by decide +kernel⟩
  . intro word hword
    rw [ne_eq, hiff [("x/string", "string")] "y/string" "string1" [] rfl word hword, hsuggested.2]
    rintro (⟨rfl, hfree⟩ | ⟨n, hstem, -⟩)
    . exact hfree (by simp)
    . simp [predeclaredStems] at hstem

theorem exists_alias_mem_predeclared :
    (((identsAt ["x/string"]).mapM Ident.write).run { own := .ofText "shop" }).2.entries
        = [("x/string", "string")]
      ∧ (((identsAt ["b/int3", "c/int3"]).mapM Ident.write).run
          { own := .ofText "a/int3" }).2.entries
        = [("b/int3", "int31"), ("c/int3", "int32")]
      ∧ ¬ ∀ (own : ImportPath) (idents : List Ident),
        (∀ ident ∈ idents,
          ∃ text, ImportPath.nameOf text = [] ∧ ident.importPath = ImportPath.ofText text) →
        ∀ word ∈ predeclared,
          word ∉ ((idents.mapM Ident.write).run { own }).2.entries.map Prod.snd := by
  have hstring : (((identsAt ["x/string"]).mapM Ident.write).run
      { own := .ofText "shop" }).2.entries = [("x/string", "string")] := by
    decide +kernel
  refine ⟨hstring, by decide +kernel, ?_⟩
  intro hnone
  have hnames : ∀ path ∈ ["x/string"], ImportPath.nameOf path = [] := by decide
  have hnot := hnone (.ofText "shop") _
    (fun ident hident => exists_text_of_mem_identsAt hnames hident) "string" (by decide)
  rw [hstring] at hnot
  exact hnot (by simp)

end Code

end HessianGo
