import HessianGo.Proofs.Binding.DeclaringFile
import HessianGo.Proofs.Binding.MapField
import HessianGo.Proofs.Binding.Replay

/-!
This module contains the registration of the enums of a file, which comes before the binding of its
messages. The package of an enum is looked up by the file that declares it, and the package of an
output by the name that is asked for. Both are the same one, so that no enum of the file needs an
import, and a run that registers no enums has the same outcome.
-/

namespace HessianGo

namespace Binding

open Code (Packages ImportTable ImportPath importPathOf)

/-! ### Runs without registration -/

section

variable (packages : Packages)

def bindEnumUnrecorded (enum : Schema.Enum) : Code.Writing Enum := do
  let ident := packages.ident enum.fullName
  return { schema := enum, goName := ident.name
           javaClassName := (enum.options.map (·.javaClassName)).getD "" }

def bindFileUnrecorded (file : Schema.File) : Binder File := do
  let enums ← file.enums.mapM (fun enum => (bindEnumUnrecorded packages enum : Code.Writing Enum))
  let messages ← file.messages.mapM (bindMessage packages)
  return { schema := file, enums, messages }

def generateWith (bind : Schema.File → Binder File) (name : String) : Except Error Output := do
  let some file := packages.registry.file? name
    | throw (.unknownFile name)
  let importPath := (packages.forFile? name).getD {}
  let filename ← (packages.config.outputName file.name importPath).mapError .config
  let (result, imports) := (bind file).run.run { own := importPath }
  return { filename, imports, binding := ← result }

theorem generateFile_eq_generateWith :
    generateFile packages = generateWith packages (bindFile packages) :=
  rfl

end

def Report.ofOutcomes (outcome : String → Except Error Output) : List String → Report
  | [] => {}
  | name :: names =>
    let others := ofOutcomes outcome names
    match outcome name with
    | .ok output => { others with generated := output :: others.generated }
    | .error error => { others with failed := (name, error) :: others.failed }

theorem generate_eq_ofOutcomes (registry : Registry) (config : Config) (names : List String) :
    generate registry config names = .ofOutcomes (generateFile ⟨registry, config⟩) names := by
  unfold generate
  induction names with
  | nil => rfl
  | cons name names ih =>
    cases houtcome : generateFile ⟨registry, config⟩ name with
    | ok output => simp only [generate.go, Report.ofOutcomes, houtcome, ih]
    | error error => simp only [generate.go, Report.ofOutcomes, houtcome, ih]

theorem Binder.run_mapM_lift {α β : Type} {f : α → Code.Writing β} {g : α → β} {items : List α}
    {table : ImportTable} (h : ∀ item ∈ items, (f item).run table = (g item, table)) :
    (items.mapM fun item => (liftM (f item) : Binder β)).run.run table
      = (.ok (items.map g), table) := by
  induction items with
  | nil => rfl
  | cons item items ih =>
    rw [List.forall_mem_cons] at h
    have hfirst : (liftM (f item) : Binder β).run.run table = (.ok (g item), table) := by
      change (Except.ok ((f item).run table).1, ((f item).run table).2) = _
      rw [h.1]
    rw [List.mapM_cons, run_bind, hfirst]
    dsimp only
    rw [run_bind, ih h.2]
    rfl

section

variable {packages : Packages} {name : String} {file : Schema.File}
  (hfile : packages.registry.file? name = some file) {table : ImportTable}
  (hown : table.own = (packages.forFile? name).getD {})

include hfile hown

theorem run_bindEnum {enum : Schema.Enum} (henum : enum ∈ file.enums) :
    (bindEnum packages enum).run table = (enumAt packages enum, table) := by
  have hwrites := writes_bindEnum packages enum
  have hknows : ∀ ident ∈ [packages.ident enum.fullName], table.Knows ident.importPath.path := by
    intro ident hident
    rw [List.mem_singleton.1 hident, importPath_of_mem_enums hfile henum, ← hown]
    left
    simp [ImportTable.isBare]
  apply Prod.ext
  . exact hwrites.value_eq table _ (.refl _)
  . rw [hwrites.table_eq, ImportTable.recordAll_eq_self hknows]

theorem run_bindFile_eq :
    (bindFile packages file).run.run table = (bindFileUnrecorded packages file).run.run table := by
  have hrecorded : (file.enums.mapM fun enum => (liftM (bindEnum packages enum) : Binder _)).run.run
      table = (.ok (file.enums.map (enumAt packages)), table) :=
    Binder.run_mapM_lift fun _ henum => run_bindEnum hfile hown henum
  have hunrecorded : (file.enums.mapM fun enum =>
      (liftM (bindEnumUnrecorded packages enum) : Binder _)).run.run table
        = (.ok (file.enums.map (enumAt packages)), table) :=
    Binder.run_mapM_lift fun _ _ => rfl
  unfold bindFile bindFileUnrecorded
  rw [Binder.run_bind, Binder.run_bind, hrecorded, hunrecorded]

end

theorem generateFile_eq_unrecorded {packages : Packages} :
    generateFile packages = generateWith packages (bindFileUnrecorded packages) := by
  rw [generateFile_eq_generateWith]
  funext name
  unfold generateWith
  cases hfile : packages.registry.file? name with
  | none => rfl
  | some file =>
    have hrun : (bindFile packages file).run.run { own := (packages.forFile? name).getD {} } = _ :=
      run_bindFile_eq hfile rfl
    simp only [hrun]

/-! ### Types that need no qualifier -/

section

variable {packages : Packages} {table : ImportTable} {field : Schema.Field}

/--
`HasElement packages table field element before after`: the Go type of the field is the one of
`element` with the given texts around it. The element is the field itself, or one of the fields of
its entries if it is a map.
-/
inductive HasElement (packages : Packages) (table : ImportTable) (field : Schema.Field) :
    Schema.Field → String → String → Prop where
  | single : field.isRepeated = false → HasElement packages table field field "" ""
  | item : field.isRepeated = true → entryFields? packages field = none →
    HasElement packages table field field "[]" ""
  | key {key value : Schema.Field} : field.isRepeated = true →
    entryFields? packages field = some (key, value) →
      HasElement packages table field key "map[" ("]" ++ (elementType packages value).text table)
  | value {key value : Schema.Field} : field.isRepeated = true →
    entryFields? packages field = some (key, value) →
      HasElement packages table field value ("map[" ++ (elementType packages key).text table ++ "]")
        ""

theorem HasElement.text_standardType {element : Schema.Field} {before after : String}
    (h : HasElement packages table field element before after) :
    (standardType packages field).text table
      = before ++ (elementType packages element).text table ++ after := by
  unfold standardType
  cases h with
  | single hsingle =>
    rw [hsingle]
    simp
  | item hrepeated hentry =>
    rw [if_pos hrepeated, hentry]
    simp [Code.TypeExpr.text]
  | key hrepeated hentry =>
    rw [if_pos hrepeated, hentry]
    simp [Code.TypeExpr.text, String.append_assoc]
  | value hrepeated hentry =>
    rw [if_pos hrepeated, hentry]
    simp [Code.TypeExpr.text]

/--
`IsEnumDefault registry field enumName value`: the field is an enum of that name which is neither
repeated nor boxed, and its default is that value of the enum: the one it has by itself, else the
first one of the enum.
-/
inductive IsEnumDefault (registry : Registry) (field : Schema.Field) (enumName : String) :
    String → Prop where
  | explicit {written : String} : field.isRepeated = false → field.isWrapper = false →
    field.type = .enum enumName → field.defaultValue = some (.constant written) →
      IsEnumDefault registry field enumName written
  | first {enum : Schema.Enum} {value : Schema.EnumValue} : field.isRepeated = false →
    field.isWrapper = false → field.type = .enum enumName → field.defaultValue = none →
      registry.enum? enumName = some enum → enum.values.head? = some value →
        IsEnumDefault registry field enumName value.name

theorem IsEnumDefault.fieldDefault_eq {enumName value : String}
    (h : IsEnumDefault packages.registry field enumName value) :
    field.isWrapper = false
      ∧ fieldDefault packages field = .ident (packages.enumValueIdent enumName value) := by
  cases h with
  | explicit hsingle hplain htype hvalue =>
    refine ⟨hplain, ?_⟩
    rw [fieldDefault_of_some hsingle hvalue, htype]
    rfl
  | first hsingle hplain htype hvalue henum hhead =>
    refine ⟨hplain, ?_⟩
    rw [fieldDefault_of_none hsingle hvalue, htype, zeroValue, henum, Option.bind_some, hhead]

theorem referenceIdent?_eq_none (h : ¬ IsDefinedElsewhere packages.registry field.type) :
    referenceIdent? packages field = none := by
  cases htype : field.type with
  | message fullName =>
    cases hmessage : packages.registry.message? fullName with
    | none => simp [referenceIdent?, messageType?_of_type htype, hmessage]
    | some message =>
      rw [referenceIdent?_of_message? htype hmessage, if_pos]
      by_contra hpath
      exact h ⟨fullName, message, htype, hmessage, hpath⟩
  | scalar type => simp [referenceIdent?, Schema.Field.messageType?, htype]
  | enum fullName => simp [referenceIdent?, Schema.Field.messageType?, htype]
  | named written => simp [referenceIdent?, Schema.Field.messageType?, htype]

end

def IsLocal (config : Config) (own : ImportPath) (file : Schema.File) : Prop :=
  (importPathOf config file).path = own.path ∨ (importPathOf config file).path = ""

/--
All references of the output to the type of that name are without a qualifier: in the types of
fields, unless such a field refers to a package of its own choice, and in the defaults.
-/
structure WritesBare (packages : Packages) (output : Output) (fullName : String) : Prop where
  types : ∀ bound ∈ output.binding.allFields,
    ¬ IsDefinedElsewhere packages.registry bound.schema.type → ∀ element before after,
      HasElement packages output.imports bound.schema element before after →
        (element.type = .enum fullName →
          bound.typeName
            = boxing bound.schema ++ (before ++ (packages.ident fullName).name ++ after))
        ∧ (element.type = .message fullName →
          bound.typeName
            = boxing bound.schema ++ (before ++ ("*" ++ (packages.ident fullName).name) ++ after))
  defaults : ∀ bound ∈ output.binding.allFields, ∀ value,
    IsEnumDefault packages.registry bound.schema fullName value →
      bound.defaultValue = (packages.enumValueIdent fullName value).name

section

variable {packages : Packages} {name : String} {output : Output}

theorem isBound_of_generateFile (h : generateFile packages name = .ok output) {bound : Field}
    (hbound : bound ∈ output.binding.allFields) : IsBound packages output.imports bound := by
  rcases generateFile_eq_ok h with ⟨file, -, hrun⟩
  exact .file (.new _) hrun hbound

theorem writesBare_of_isBare (h : generateFile packages name = .ok output) {fullName : String}
    (hbare : output.imports.isBare (packages.ident fullName).importPath.path) :
    WritesBare packages output fullName where
  types bound hbound helsewhere element before after helement := by
    have htext := (isBound_of_generateFile h hbound).typeName_eq
    rw [fieldType, referenceIdent?_eq_none helsewhere] at htext
    dsimp only at htext
    rw [helement.text_standardType] at htext
    constructor
    . intro htype
      rw [htext, elementType, htype]
      dsimp only
      rw [Code.TypeExpr.text, ImportTable.refer_of_isBare hbare]
    . intro htype
      rw [htext, elementType, htype]
      dsimp only
      rw [Code.TypeExpr.text, Code.TypeExpr.text, ImportTable.refer_of_isBare hbare]
  defaults bound hbound value hvalue := by
    rcases hvalue.fieldDefault_eq with ⟨hplain, hdefault⟩
    rw [(isBound_of_generateFile h hbound).defaultValue_eq, hplain, hdefault]
    exact ImportTable.refer_of_isBare hbare

end

section

variable {registry : Registry} (hnames : (registry.files.map (·.name)).Nodup) {config : Config}

include hnames

theorem lastNamed?_of_nodup {file : Schema.File} (hfile : file ∈ registry.files) :
    lastNamed? registry file.name = some file := by
  rcases exists_lastNamed? hfile with ⟨last, hlast⟩
  have hmem : last ∈ registry.files := List.mem_reverse.1 (List.mem_of_find?_eq_some hlast)
  have hname : last.name = file.name := by simpa using List.find?_some hlast
  rw [hlast, List.inj_on_of_nodup_map hnames hmem hfile hname]

theorem forFile?_of_file? {name : String} {file : Schema.File}
    (hfile : registry.file? name = some file) :
    Packages.forFile? ⟨registry, config⟩ name = some (importPathOf config file) := by
  have hmem : file ∈ registry.files := List.mem_of_find?_eq_some hfile
  have hname : file.name = name := by simpa using List.find?_some hfile
  rw [← hname]
  exact forFile?_of_lastNamed? (lastNamed?_of_nodup hnames hmem)

theorem isBare_of_isLocal {declaring : Schema.File} (hdeclaring : declaring ∈ registry.files)
    {declaration : Schema.Declaration} (hdeclaration : declaration ∈ declaring.declarations)
    {table : ImportTable} (hlocal : IsLocal config table.own declaring) :
    table.isBare (Packages.ident ⟨registry, config⟩ declaration.fullName).importPath.path := by
  have hpath : (Packages.ident ⟨registry, config⟩ declaration.fullName).importPath = _ :=
    importPath_ident hdeclaring hdeclaration (lastNamed?_of_nodup hnames hdeclaring)
  rw [hpath]
  rcases hlocal with hown | hempty
  . simp [ImportTable.isBare, hown]
  . simp [ImportTable.isBare, hempty]

end

theorem own_not_mem_paths {packages : Packages} {file : Schema.File} {own : ImportPath}
    {result : Except Error File} {final : ImportTable}
    (h : (bindFile packages file).run.run { own } = (result, final)) :
    final.own = own ∧ own.path ∉ final.entries.map Prod.fst := by
  rcases (writes_bindFile packages file).stateless (.new own) h with ⟨hextends, hreachable, -⟩
  refine ⟨hextends.own_eq, ?_⟩
  intro hmem
  rcases List.mem_map.1 hmem with ⟨entry, hentry, hpath⟩
  have hbare := hreachable.wellFormed.not_isBare entry hentry
  rw [hpath, hextends.isBare_eq] at hbare
  simp [ImportTable.isBare] at hbare

/--
Take a file of a registry in which the names of files are distinct. Binding one of its enums leaves
each table of its package as it is. The imports that the file has in the end, also if it fails, do
not have its own path, and they are those of a run without registration. In the output, a reference
to an enum or a message of a file with the same path or with none is without a qualifier. So
registration changes neither an outcome nor a report.
-/
theorem registration_outcome {registry : Registry}
    (hnames : (registry.files.map (·.name)).Nodup) (config : Config) {name : String}
    {file : Schema.File} (hfile : registry.file? name = some file) :
    (∀ enum ∈ file.enums, ∀ table : ImportTable, table.own = importPathOf config file →
      (bindEnum ⟨registry, config⟩ enum).run table = (enumAt ⟨registry, config⟩ enum, table))
    ∧ (∀ result final,
      (bindFile ⟨registry, config⟩ file).run.run { own := importPathOf config file }
          = (result, final) →
        (importPathOf config file).path ∉ final.entries.map Prod.fst
          ∧ (bindFileUnrecorded ⟨registry, config⟩ file).run.run { own := importPathOf config file }
            = (result, final))
    ∧ (∀ output, generateFile ⟨registry, config⟩ name = .ok output →
      output.imports.own = importPathOf config file
        ∧ (importPathOf config file).path ∉ output.imports.entries.map Prod.fst
        ∧ ∀ declaring ∈ registry.files, IsLocal config (importPathOf config file) declaring →
          ∀ declaration ∈ declaring.declarations,
            WritesBare ⟨registry, config⟩ output declaration.fullName)
    ∧ generateFile ⟨registry, config⟩ name
      = generateWith ⟨registry, config⟩ (bindFileUnrecorded ⟨registry, config⟩) name
    ∧ ∀ names, generate registry config names
      = .ofOutcomes (generateWith ⟨registry, config⟩ (bindFileUnrecorded ⟨registry, config⟩))
        names := by
  have hown : (Packages.forFile? ⟨registry, config⟩ name).getD {} = importPathOf config file := by
    rw [forFile?_of_file? hnames hfile]
    rfl
  have hunrecorded : generateFile ⟨registry, config⟩ = _ := generateFile_eq_unrecorded
  refine ⟨?_, ?_, ?_, congrFun hunrecorded name, ?_⟩
  . intro enum henum table htable
    exact run_bindEnum hfile (htable.trans hown.symm) henum
  . intro result final hrun
    refine ⟨(own_not_mem_paths hrun).2, ?_⟩
    exact (run_bindFile_eq hfile hown.symm).symm.trans hrun
  . intro output houtput
    rcases generateFile_eq_ok houtput with ⟨other, -, hrun⟩
    rw [hown] at hrun
    rcases own_not_mem_paths hrun with ⟨hpath, hnot⟩
    refine ⟨hpath, hnot, ?_⟩
    intro declaring hdeclaring hlocal declaration hdeclaration
    apply writesBare_of_isBare houtput
    rw [← hpath] at hlocal
    exact isBare_of_isLocal hnames hdeclaring hdeclaration hlocal
  . intro names
    rw [generate_eq_ofOutcomes, hunrecorded]

def brushFile : Schema.File :=
  { name := "brush.proto", goPackage := some "x/paint;brushes"
    enums := [{ name := "Size", fullName := "Size", values := [⟨"SMALL", 0⟩, ⟨"LARGE", 1⟩] }]
    messages := [
      { name := "Brush", fullName := "Brush", options := some { extendArgs := true }
        fields := [
          { name := "tip", number := 1, type := .message "Tip" },
          { name := "size", number := 2, type := .enum "Size"
            defaultValue := some (.constant "LARGE") },
          { name := "colors", number := 3, label := .repeated, type := .enum "Color" }] }] }

def paintFiles : List Schema.File :=
  [{ name := "color.proto", goPackage := some "x/paint"
     enums := [{ name := "Color", fullName := "Color", values := [⟨"RED", 0⟩] }] },
   brushFile,
   oneMessageFile "tip.proto" (some "y/paint") "Tip"]

def paintRegistry : Registry where
  files := paintFiles
  index := {
    entries := [
      ("Tip", { file := 2, messages := [0], enum := none }),
      ("Brush", { file := 1, messages := [0], enum := none }),
      ("Size", { file := 1, messages := [], enum := some 0 }),
      ("Color", { file := 0, messages := [], enum := some 0 })] }
  isIndex := rfl

theorem registration_outcome_paintFiles :
    Registry.ofFiles paintFiles = .ok paintRegistry
      ∧ (paintFiles.map (·.name)).Nodup
      ∧ paintRegistry.file? "brush.proto" = some brushFile
      ∧ generateFile ⟨paintRegistry, {}⟩ "brush.proto"
        = generateWith ⟨paintRegistry, {}⟩ (bindFileUnrecorded ⟨paintRegistry, {}⟩) "brush.proto"
      ∧ ∃ output, generateFile ⟨paintRegistry, {}⟩ "brush.proto" = .ok output
        ∧ output.imports.entries = [("y/paint", "paint")]
        ∧ output.binding.allFields.map (fun bound => (bound.typeName, bound.defaultValue))
          = [("*paint.Tip", "nil"), ("Size", "Size_LARGE"), ("[]Color", "nil")]
        ∧ WritesBare ⟨paintRegistry, {}⟩ output "Color"
        ∧ WritesBare ⟨paintRegistry, {}⟩ output "Size" := by
  have hregistry : Registry.ofFiles paintFiles = .ok paintRegistry := rfl
  have hnames : (paintFiles.map (·.name)).Nodup := by decide
  have hfile : paintRegistry.file? "brush.proto" = some brushFile := rfl
  have houtput : ∃ output, generateFile ⟨paintRegistry, {}⟩ "brush.proto" = .ok output
      ∧ output.imports.entries = [("y/paint", "paint")]
      ∧ output.binding.allFields.map (fun bound => (bound.typeName, bound.defaultValue))
        = [("*paint.Tip", "nil"), ("Size", "Size_LARGE"), ("[]Color", "nil")] := by
    decide +kernel
  rcases registration_outcome hnames {} hfile with ⟨-, -, hbare, hsame, -⟩
  rcases houtput with ⟨output, houtput, hentries, htexts⟩
  rcases hbare output houtput with ⟨-, -, hbare⟩
  refine ⟨hregistry, hnames, hfile, hsame, output, houtput, hentries, htexts, ?_, ?_⟩
  . exact hbare _ List.mem_cons_self (.inl (by decide +kernel)) (.enum _) List.mem_cons_self
  . exact hbare brushFile (by simp [paintRegistry, paintFiles]) (.inl rfl) (.enum _)
      List.mem_cons_self

end Binding

end HessianGo
