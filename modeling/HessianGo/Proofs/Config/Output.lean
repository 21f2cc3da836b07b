import HessianGo.Config.Output
import Mathlib.Data.List.Infix

/-!
This module contains which schema files have outputs of the same name, and which of them have an
output at all. By import path, the name of an output tells the path and the last segment of the
schema file; next to the sources, it tells all but the ending of the schema file.
-/

namespace HessianGo

namespace Text

theorem lastPiece_eq_iff {sep : Char} {s piece : List Char} :
    lastPiece sep s = piece
      ↔
    sep ∉ piece ∧ (s = piece ∨ ∃ front, s = front ++ sep :: piece) := by
  unfold lastPiece
  split
  . next front after hcut =>
    rcases cutLast_eq_some hcut with ⟨rfl, hafter⟩
    constructor
    . rintro rfl
      exact ⟨hafter, .inr ⟨front, rfl⟩⟩
    . rintro ⟨hpiece, rfl | ⟨other, hs⟩⟩
      . simp at hpiece
      . rw [hs, cutLast_append hpiece] at hcut
        exact (Prod.mk.inj (Option.some.inj hcut)).2.symm
  . next hcut =>
    rw [cutLast_eq_none_iff] at hcut
    constructor
    . rintro rfl
      exact ⟨hcut, .inl rfl⟩
    . rintro ⟨-, rfl | ⟨front, rfl⟩⟩
      . rfl
      . simp at hcut

end Text

namespace Config

/-! ### Names of schema files -/

/--
The name of a schema file is `s`, with or without the ending `.proto`. Of two such endings only the
last one is left out.
-/
def IsStem (s name : List Char) : Prop :=
  name = s ++ ".proto".toList ∨ name = s ∧ ¬".proto".toList <:+ name

def IsBase (base name : List Char) : Prop :=
  '/' ∉ base ∧ ∃ s, IsStem s name ∧ (s = base ∨ ∃ front, s = front ++ '/' :: base)

/--
The last segment of the schema file's name, under the import path if that is not empty.
-/
def IsLocation (location name path : List Char) : Prop :=
  ∃ base, IsBase base name
    ∧ (path = [] ∧ location = base ∨ path ≠ [] ∧ location = path ++ '/' :: base)

theorem stem_eq_iff {name s : List Char} : stem name = s ↔ IsStem s name := by
  unfold stem IsStem
  cases hsuffix : ".proto".toList.isSuffixOf? name with
  | some t =>
    rw [List.isSuffixOf?_eq_some_iff_append_eq] at hsuffix
    rw [← hsuffix]
    constructor
    . rintro rfl
      exact .inl rfl
    . rintro (h | ⟨-, hnot⟩)
      . exact List.append_cancel_right h
      . exact absurd (List.suffix_append t _) hnot
  | none =>
    have hnot : ¬".proto".toList <:+ name := by
      rintro ⟨t, ht⟩
      rw [List.isSuffixOf?_eq_some_iff_append_eq.2 ht] at hsuffix
      cases hsuffix
    constructor
    . rintro rfl
      exact .inr ⟨rfl, hnot⟩
    . rintro (h | ⟨h, -⟩)
      . exact absurd ⟨s, h.symm⟩ hnot
      . exact h

theorem lastPiece_stem_eq_iff {name base : List Char} :
    Text.lastPiece '/' (stem name) = base ↔ IsBase base name := by
  simp only [Text.lastPiece_eq_iff, IsBase, ← stem_eq_iff, exists_eq_left']

theorem importStem_eq_iff {name path location : List Char} :
    importStem name path = location ↔ IsLocation location name path := by
  simp only [importStem, IsLocation, ← lastPiece_stem_eq_iff, exists_eq_left']
  by_cases hpath : path = []
  . simp [hpath, eq_comm]
  . simp [hpath, eq_comm]

theorem IsLocation.exists_cutLast {location name path : List Char}
    (h : IsLocation location name path) :
    ∃ base, IsBase base name ∧ (Text.cutLast '/' location).getD ([], location) = (path, base) := by
  rcases h with ⟨base, hbase, ⟨rfl, rfl⟩ | ⟨-, rfl⟩⟩
  . exact ⟨location, hbase, by rw [Text.cutLast_eq_none_iff.2 hbase.1, Option.getD_none]⟩
  . exact ⟨base, hbase, by rw [Text.cutLast_append hbase.1, Option.getD_some]⟩

theorem IsLocation.eq_iff {location other name otherName path otherPath : List Char}
    (h : IsLocation location name path) (h' : IsLocation other otherName otherPath) :
    location = other
      ↔
    path = otherPath ∧ ∃ base, IsBase base name ∧ IsBase base otherName := by
  constructor
  . rintro rfl
    rcases h.exists_cutLast with ⟨base, hbase, hcut⟩
    rcases h'.exists_cutLast with ⟨otherBase, hother, hcut'⟩
    rw [hcut, Prod.mk.injEq] at hcut'
    rcases hcut' with ⟨rfl, rfl⟩
    exact ⟨rfl, base, hbase, hother⟩
  . rintro ⟨rfl, base, hbase, hother⟩
    rw [← importStem_eq_iff] at h h'
    rw [← lastPiece_stem_eq_iff] at hbase hother
    rw [← h, ← h', importStem, importStem, hbase, hother]

/-! ### Names of outputs -/

def modulePrefix (config : Config) : List Char :=
  match config.moduleRoot with
  | some root => root.toList ++ ['/']
  | none => []

theorem outputName_eq_ok_iff_of_importPath {config : Config} (h : config.paths = .importPath)
    {name output : String} {path : Code.ImportPath} :
    config.outputName name path = .ok output
      ↔
    ∃ rest, IsLocation (config.modulePrefix ++ rest) name.toList path.path.toList
      ∧ output = String.ofList (rest ++ outputEnding) := by
  simp only [outputName, h, modulePrefix, ← importStem_eq_iff]
  cases hroot : config.moduleRoot with
  | none =>
    simp only [List.nil_append, exists_eq_left', Except.ok.injEq]
    exact eq_comm
  | some root =>
    dsimp only
    split
    . next rest hrest =>
      rw [List.isPrefixOf?_eq_some_iff_append_eq] at hrest
      simp only [← hrest, List.append_cancel_left_eq, exists_eq_left', Except.ok.injEq]
      exact eq_comm
    . next hnone =>
      constructor
      . nofun
      . rintro ⟨rest, hrest, -⟩
        rw [hrest, List.isPrefixOf?_eq_some_iff_append_eq.2 rfl] at hnone
        cases hnone

theorem outputName_eq_ok_iff_of_sourceRelative {config : Config}
    (h : config.paths = .sourceRelative) {name output : String} {path : Code.ImportPath} :
    config.outputName name path = .ok output
      ↔
    config.moduleRoot = none
      ∧ ∃ s, IsStem s name.toList ∧ output = String.ofList (s ++ outputEnding) := by
  simp only [outputName, h, ← stem_eq_iff, exists_eq_left']
  cases config.moduleRoot with
  | none => simp [eq_comm]
  | some root => simp

theorem ofList_append_ending_inj {s t : List Char} :
    String.ofList (s ++ outputEnding) = String.ofList (t ++ outputEnding) ↔ s = t := by
  rw [String.ofList_inj, List.append_cancel_right_eq]

structure NamesByImportPath (config : Config) : Prop where
  output_eq_iff : ∀ {name other : String} {path otherPath : Code.ImportPath}
    {output otherOutput : String}, config.outputName name path = .ok output →
      config.outputName other otherPath = .ok otherOutput →
        (output = otherOutput
          ↔
        path.path = otherPath.path ∧ ∃ base, IsBase base name.toList ∧ IsBase base other.toList)
  exists_output : config.moduleRoot = none → ∀ name path,
    ∃ output, config.outputName name path = .ok output
  exists_output_iff : ∀ {root}, config.moduleRoot = some root → ∀ name path,
    (∃ output, config.outputName name path = .ok output)
      ↔
    ∃ location, IsLocation location name.toList path.path.toList
      ∧ root.toList ++ ['/'] <+: location
  output_of_module : ∀ {root}, config.moduleRoot = some root → ∀ {name path output},
    config.outputName name path = .ok output →
      { config with moduleRoot := none }.outputName name path = .ok (root ++ "/" ++ output)

structure NamesBySource (config : Config) : Prop where
  output_eq_iff : ∀ {name other : String} {path otherPath : Code.ImportPath}
    {output otherOutput : String}, config.outputName name path = .ok output →
      config.outputName other otherPath = .ok otherOutput →
        (output = otherOutput ↔ ∃ s, IsStem s name.toList ∧ IsStem s other.toList)
  exists_error_iff : ∀ name path,
    (∃ error, config.outputName name path = .error error) ↔ config.moduleRoot ≠ none

theorem namesByImportPath {config : Config} (h : config.paths = .importPath) :
    NamesByImportPath config where
  output_eq_iff {name other path otherPath output otherOutput} houtput hother := by
    rw [outputName_eq_ok_iff_of_importPath h] at houtput hother
    rcases houtput with ⟨rest, hrest, rfl⟩
    rcases hother with ⟨otherRest, hotherRest, rfl⟩
    rw [ofList_append_ending_inj, ← String.toList_inj, ← hrest.eq_iff hotherRest,
      List.append_cancel_left_eq]
  exists_output hroot name path := by
    refine ⟨_, (outputName_eq_ok_iff_of_importPath h).2
      ⟨importStem name.toList path.path.toList, ?_, rfl⟩⟩
    rw [modulePrefix, hroot, List.nil_append, ← importStem_eq_iff]
  exists_output_iff {root} hroot name path := by
    simp only [outputName_eq_ok_iff_of_importPath h, modulePrefix, hroot]
    constructor
    . rintro ⟨output, rest, hrest, -⟩
      exact ⟨_, hrest, List.prefix_append _ rest⟩
    . rintro ⟨location, hlocation, rest, rfl⟩
      exact ⟨_, rest, hlocation, rfl⟩
  output_of_module {root} hroot {name path output} houtput := by
    rw [outputName_eq_ok_iff_of_importPath h, modulePrefix, hroot] at houtput
    rcases houtput with ⟨rest, hrest, rfl⟩
    have hpaths : ({ config with moduleRoot := none } : Config).paths = .importPath := h
    refine (outputName_eq_ok_iff_of_importPath hpaths).2 ⟨_, hrest, ?_⟩
    apply String.toList_inj.1
    simp

theorem namesBySource {config : Config} (h : config.paths = .sourceRelative) :
    NamesBySource config where
  output_eq_iff {name other path otherPath output otherOutput} houtput hother := by
    rw [outputName_eq_ok_iff_of_sourceRelative h] at houtput hother
    rcases houtput with ⟨-, s, hs, rfl⟩
    rcases hother with ⟨-, t, ht, rfl⟩
    rw [ofList_append_ending_inj]
    simp only [← stem_eq_iff, exists_eq_left'] at hs ht ⊢
    rw [hs, ht]
    exact eq_comm
  exists_error_iff name path := by
    simp only [outputName, h]
    cases config.moduleRoot with
    | none => simp
    | some root => simp

/--
Two schema files have the same output exactly if they have to: by import path, if the path and the
last segment are the same, and next to the sources, if the names are the same but for the ending.
A module takes its path and a slash off the front of the name, and refuses all other names; next to
the sources it refuses all names.
-/
theorem outputName_outcome (config : Config) :
    (config.paths = .importPath → NamesByImportPath config)
      ∧ (config.paths = .sourceRelative → NamesBySource config) :=
  ⟨namesByImportPath, namesBySource⟩

def shopModule : Config where
  moduleRoot := some "acme/go"

def besideSources : Config where
  paths := .sourceRelative

theorem outputName_outcome_shopModule :
    shopModule.paths = .importPath
      ∧ shopModule.outputName "v1/order.proto" ⟨"acme/go/shop", "shop"⟩
        = .ok "shop/order.hessian2.go"
      ∧ shopModule.outputName "order" ⟨"acme/go/shop", "store"⟩ = .ok "shop/order.hessian2.go"
      ∧ (∃ base, IsBase base "v1/order.proto".toList ∧ IsBase base "order".toList)
      ∧ ({} : Config).outputName "order" ⟨"acme/go/shop", "store"⟩
        = .ok "acme/go/shop/order.hessian2.go"
      ∧ (¬∃ location, IsLocation location "order.proto".toList "acme/gopher".toList
        ∧ "acme/go/".toList <+: location)
      ∧ besideSources.paths = .sourceRelative
      ∧ besideSources.outputName "a.proto.proto" {} = .ok "a.proto.hessian2.go"
      ∧ ¬∃ s, IsStem s "a.proto".toList ∧ IsStem s "a.proto.proto".toList := by
  have hnames : shopModule.NamesByImportPath := (outputName_outcome shopModule).1 rfl
  have hsources : besideSources.NamesBySource := (outputName_outcome besideSources).2 rfl
  have hfirst : shopModule.outputName "v1/order.proto" ⟨"acme/go/shop", "shop"⟩
      = .ok "shop/order.hessian2.go" := by
    decide
  have hsecond : shopModule.outputName "order" ⟨"acme/go/shop", "store"⟩
      = .ok "shop/order.hessian2.go" := by
    decide
  have hrefused : shopModule.outputName "order.proto" ⟨"acme/gopher", "gopher"⟩
      = .error (.outsideModule "order.proto" "acme/go") := by
    decide
  have hone : besideSources.outputName "a.proto" {} = .ok "a.hessian2.go" := by decide
  have htwo : besideSources.outputName "a.proto.proto" {} = .ok "a.proto.hessian2.go" := by decide
  refine ⟨rfl, hfirst, hsecond, ((hnames.output_eq_iff hfirst hsecond).1 rfl).2,
    hnames.output_of_module rfl hsecond, ?_, rfl, htwo, ?_⟩
  . intro hlocation
    rcases (hnames.exists_output_iff rfl "order.proto" ⟨"acme/gopher", "gopher"⟩).2 hlocation
      with ⟨output, houtput⟩
    rw [hrefused] at houtput
    cases houtput
  . intro hstem
    exact absurd ((hsources.output_eq_iff hone htwo).2 hstem) (by decide)

end Config

end HessianGo
