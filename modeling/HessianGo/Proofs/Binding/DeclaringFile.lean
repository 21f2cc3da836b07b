import HessianGo.Binding.File
import HessianGo.Proofs.Except
import HessianGo.Proofs.Registry.Lookup

/-!
This module contains the files that import paths come from. Paths are looked up by the name of a
file, so that of several files with one name the last one gives the path for all of them.
-/

namespace HessianGo

namespace Code

/-! ### The path of a file -/

theorem packageName_ne_empty (s : List Char) : packageName s ≠ "" := by
  have hstart : ∀ t : List Char, startAsPackage t ≠ [] := by
    intro t
    unfold startAsPackage
    split
    . simp
    . split
      . simp
      . simp
  unfold packageName
  dsimp only
  split
  . simp
  . simp [hstart]

theorem ImportPath.ofText_of_not_mem {s : List Char} (h : ';' ∉ s) :
    ofText (String.ofList s) = ⟨String.ofList s, suggestedName s⟩ := by
  unfold ofText
  rw [String.toList_ofList, Text.cutFirst_eq_none_iff.2 h]

theorem ImportPath.semicolon_not_mem_ofText (text : String) :
    ';' ∉ (ofText text).path.toList := by
  unfold ofText
  split
  . next path hcut => simpa using (Text.cutFirst_eq_some hcut).2
  . next path name _ hcut => simpa using (Text.cutFirst_eq_some hcut).2
  . next hcut => exact Text.cutFirst_eq_none_iff.1 hcut

def directoryOf (file : Schema.File) : List Char :=
  ((Text.cutLast '/' file.name.toList).map Prod.fst).getD []

/--
The import path of a file by itself: the one it is mapped to, the one it asks for, or its directory.
The package at a directory is named after the last segment that is not empty, else after the last
part of the schema package, else `main`.
-/
def derivedPath (config : Config) (file : Schema.File) : ImportPath :=
  match config.importMappings.get? file.name, file.goPackage with
  | some text, _ => .ofText text
  | none, some text => .ofText text
  | none, none =>
    { path := String.ofList (directoryOf file)
      packageName :=
        match (Text.pieces '/' (directoryOf file)).reverse.find? (· ≠ []), file.package with
        | some segment, _ => packageName segment
        | none, some package => packageName (Text.lastPiece '.' package.toList)
        | none, none => "main" }

/--
The file is mapped or asks for a path, or no semicolon cuts its directory in two.
-/
def IsWhole (config : Config) (file : Schema.File) : Prop :=
  (config.importMappings.get? file.name).isSome ∨ file.goPackage.isSome ∨ ';' ∉ directoryOf file

theorem semicolon_not_mem_importPathOf (config : Config) (file : Schema.File) :
    ';' ∉ (importPathOf config file).path.toList := by
  unfold importPathOf
  split
  . apply ImportPath.semicolon_not_mem_ofText
  . have hpath := ImportPath.semicolon_not_mem_ofText (String.ofList (directoryOf file))
    unfold directoryOf at hpath
    dsimp only
    generalize ImportPath.ofText _ = path at hpath ⊢
    split
    . split
      . exact hpath
      . exact hpath
    . exact hpath

theorem importPathOf_eq_derivedPath {config : Config} {file : Schema.File}
    (h : IsWhole config file) :
    importPathOf config file = derivedPath config file := by
  unfold importPathOf derivedPath
  cases hmapped : config.importMappings.get? file.name with
  | some text => rfl
  | none =>
    cases hasked : file.goPackage with
    | some text => rfl
    | none =>
      have hwhole : ';' ∉ directoryOf file := by simpa [IsWhole, hmapped, hasked] using h
      have hpath : ImportPath.ofText
          (String.ofList (((Text.cutLast '/' file.name.toList).map Prod.fst).getD []))
            = ⟨String.ofList (directoryOf file), ImportPath.suggestedName (directoryOf file)⟩ :=
        ImportPath.ofText_of_not_mem hwhole
      simp only [Option.or_none, hpath]
      unfold ImportPath.suggestedName
      cases (Text.pieces '/' (directoryOf file)).reverse.find? (· ≠ []) with
      | some segment => simp [packageName_ne_empty]
      | none =>
        cases file.package with
        | some package => rfl
        | none => rfl

theorem isWhole_of_path_eq {config : Config} {file other : Schema.File}
    (h : importPathOf config other = derivedPath config file) : IsWhole config file := by
  have hplain := semicolon_not_mem_importPathOf config other
  unfold IsWhole
  cases hmapped : config.importMappings.get? file.name with
  | some text => simp
  | none =>
    cases hasked : file.goPackage with
    | some text => simp
    | none =>
      rw [h] at hplain
      simpa [derivedPath, hmapped, hasked] using hplain

end Code

namespace Binding

open Code (Packages ImportPath importPathOf derivedPath IsWhole)

/-! ### Files of one name -/

def lastNamed? (registry : Registry) (name : String) : Option Schema.File :=
  registry.files.reverse.find? (·.name = name)

theorem exists_lastNamed? {registry : Registry} {file : Schema.File} (h : file ∈ registry.files) :
    ∃ last, lastNamed? registry file.name = some last := by
  rw [← Option.isSome_iff_exists]
  unfold lastNamed?
  rw [List.find?_isSome]
  exact ⟨file, List.mem_reverse.2 h, by simp⟩

theorem forFile?_of_lastNamed? {packages : Packages} {name : String} {last : Schema.File}
    (h : lastNamed? packages.registry name = some last) :
    packages.forFile? name = some (importPathOf packages.config last) := by
  unfold Packages.forFile?
  unfold lastNamed? at h
  rw [h]
  rfl

theorem importPath_ident {packages : Packages} {file : Schema.File}
    (hfile : file ∈ packages.registry.files) {declaration : Schema.Declaration}
    (hdeclaration : declaration ∈ file.declarations) {last : Schema.File}
    (hlast : lastNamed? packages.registry file.name = some last) :
    (packages.ident declaration.fullName).importPath = importPathOf packages.config last := by
  have hfound : packages.registry.fileOf? declaration.fullName = some file :=
    Registry.fileOf?_eq_some_iff.2 ⟨hfile, declaration, hdeclaration, rfl⟩
  simp [Packages.ident, Packages.importPath, hfound, forFile?_of_lastNamed? hlast]

def outputAt (packages : Packages) (file : Schema.File) (importPath : ImportPath) :
    Except Error Output := do
  let filename ← (packages.config.outputName file.name importPath).mapError .config
  let (result, imports) := (bindFile packages file).run.run { own := importPath }
  return { filename, imports, binding := ← result }

theorem generateFile_eq_outputAt {packages : Packages} {name : String} {file last : Schema.File}
    (hfile : packages.registry.file? name = some file)
    (hlast : lastNamed? packages.registry name = some last) :
    generateFile packages name = outputAt packages file (importPathOf packages.config last) := by
  unfold generateFile
  rw [hfile, forFile?_of_lastNamed? hlast]
  rfl

/-! ### Types and outputs at the paths of their files -/

/--
The import path of a type is the one of the file that declares it, and the import path of an output
the one of the file that it is made from.
-/
structure FollowsFiles (packages : Packages) : Prop where
  types : ∀ file ∈ packages.registry.files, ∀ declaration ∈ file.declarations,
    (packages.ident declaration.fullName).importPath = derivedPath packages.config file
  outputs : ∀ name file, packages.registry.file? name = some file →
    packages.forFile? name = some (derivedPath packages.config file)

/--
A path is asked of the file: it declares a type, or it is the first one of its name.
-/
def IsAsked (registry : Registry) (file : Schema.File) : Prop :=
  file.declarations ≠ [] ∨ registry.file? file.name = some file

theorem derivedPath_of_followsFiles {packages : Packages} (h : FollowsFiles packages)
    {file last : Schema.File} (hfile : file ∈ packages.registry.files)
    (hasked : IsAsked packages.registry file)
    (hlast : lastNamed? packages.registry file.name = some last) :
    importPathOf packages.config last = derivedPath packages.config file := by
  rcases hasked with hdeclares | hfirst
  . rcases List.exists_mem_of_ne_nil _ hdeclares with ⟨declaration, hdeclaration⟩
    rw [← importPath_ident hfile hdeclaration hlast]
    exact h.types file hfile declaration hdeclaration
  . have houtput := h.outputs file.name file hfirst
    rw [forFile?_of_lastNamed? hlast] at houtput
    exact Option.some.inj houtput

/--
Types and outputs have the import paths that the last files of their names give. These are the paths
of the right files if and only if each file that is asked for a path has the same one as the last
file of its name, and it is not a directory with a semicolon.
-/
theorem followsFiles_iff (registry : Registry) (config : Config) :
    (FollowsFiles ⟨registry, config⟩
      ↔
      ∀ file ∈ registry.files, IsAsked registry file → IsWhole config file
        ∧ ∀ last, lastNamed? registry file.name = some last →
          importPathOf config file = importPathOf config last)
    ∧ (∀ file ∈ registry.files, ∃ last, lastNamed? registry file.name = some last
      ∧ ∀ declaration ∈ file.declarations,
        (Packages.ident ⟨registry, config⟩ declaration.fullName).importPath
          = importPathOf config last)
    ∧ ∀ name file, registry.file? name = some file → ∃ last, lastNamed? registry name = some last
      ∧ generateFile ⟨registry, config⟩ name
        = outputAt ⟨registry, config⟩ file (importPathOf config last) := by
  have hfirst : ∀ {name file}, registry.file? name = some file →
      file ∈ registry.files ∧ file.name = name := by
    intro name file hfile
    exact ⟨List.mem_of_find?_eq_some hfile, by simpa using List.find?_some hfile⟩
  refine ⟨⟨?_, ?_⟩, ?_, ?_⟩
  . intro hfollows file hfile hasked
    rcases exists_lastNamed? hfile with ⟨last, hlast⟩
    have hpath := derivedPath_of_followsFiles hfollows hfile hasked hlast
    have hwhole := Code.isWhole_of_path_eq hpath
    refine ⟨hwhole, ?_⟩
    intro other hother
    rw [hlast] at hother
    rw [← Option.some.inj hother, hpath]
    exact Code.importPathOf_eq_derivedPath hwhole
  . intro hall
    constructor
    . intro file hfile declaration hdeclaration
      rcases exists_lastNamed? hfile with ⟨last, hlast⟩
      rcases hall file hfile (.inl (List.ne_nil_of_mem hdeclaration)) with ⟨hwhole, hsame⟩
      rw [importPath_ident hfile hdeclaration hlast, ← hsame last hlast]
      exact Code.importPathOf_eq_derivedPath hwhole
    . intro name file hfile
      rcases hfirst hfile with ⟨hmem, rfl⟩
      rcases exists_lastNamed? hmem with ⟨last, hlast⟩
      rcases hall file hmem (.inr hfile) with ⟨hwhole, hsame⟩
      rw [forFile?_of_lastNamed? hlast, ← hsame last hlast]
      exact congrArg some (Code.importPathOf_eq_derivedPath hwhole)
  . intro file hfile
    rcases exists_lastNamed? hfile with ⟨last, hlast⟩
    refine ⟨last, hlast, ?_⟩
    intro declaration hdeclaration
    exact importPath_ident hfile hdeclaration hlast
  . intro name file hfile
    rcases hfirst hfile with ⟨hmem, rfl⟩
    rcases exists_lastNamed? hmem with ⟨last, hlast⟩
    exact ⟨last, hlast, generateFile_eq_outputAt hfile hlast⟩

def oneMessageFile (name : String) (goPackage : Option String) (message : String) : Schema.File :=
  { name, goPackage
    messages := [{ name := message, fullName := message, options := some { extendArgs := true } }] }

def agreeingFiles : List Schema.File :=
  [oneMessageFile "x/one.proto" none "A", oneMessageFile "b.proto" (some "y/b") "B",
   oneMessageFile "b.proto" (some "y/b") "C"]

def agreeingRegistry : Registry where
  files := agreeingFiles
  index := {
    entries := [
      ("C", { file := 2, messages := [0], enum := none }),
      ("B", { file := 1, messages := [0], enum := none }),
      ("A", { file := 0, messages := [0], enum := none })] }
  isIndex := rfl

theorem followsFiles_agreeingFiles :
    Registry.ofFiles agreeingFiles = .ok agreeingRegistry
      ∧ FollowsFiles ⟨agreeingRegistry, {}⟩ := by
  refine ⟨rfl, ?_⟩
  rw [(followsFiles_iff agreeingRegistry {}).1]
  intro file hfile _
  simp only [agreeingRegistry, agreeingFiles, List.mem_cons, List.not_mem_nil, or_false] at hfile
  rcases hfile with rfl | rfl | rfl
  . refine ⟨.inr (.inr (by decide)), ?_⟩
    intro last hlast
    rw [← Option.some.inj hlast]
  . refine ⟨.inr (.inl rfl), ?_⟩
    intro last hlast
    rw [← Option.some.inj hlast]
    rfl
  . refine ⟨.inr (.inl rfl), ?_⟩
    intro last hlast
    rw [← Option.some.inj hlast]

def sameNameFiles : List Schema.File :=
  [oneMessageFile "a.proto" (some "x/one") "A", oneMessageFile "a.proto" (some "x/two") "B"]

def sameNameRegistry : Registry where
  files := sameNameFiles
  index := {
    entries := [
      ("B", { file := 1, messages := [0], enum := none }),
      ("A", { file := 0, messages := [0], enum := none })] }
  isIndex := rfl

theorem not_followsFiles_sameNameFiles :
    Registry.ofFiles sameNameFiles = .ok sameNameRegistry
      ∧ (Packages.ident ⟨sameNameRegistry, {}⟩ "A").importPath = ⟨"x/two", "two"⟩
      ∧ (∃ output, generateFile ⟨sameNameRegistry, {}⟩ "a.proto" = .ok output
        ∧ output.binding.schema.goPackage = some "x/one" ∧ output.imports.own.path = "x/two")
      ∧ ¬ FollowsFiles ⟨sameNameRegistry, {}⟩ := by
  have hident : (Packages.ident ⟨sameNameRegistry, {}⟩ "A").importPath = ⟨"x/two", "two"⟩ := by
    decide +kernel
  refine ⟨rfl, hident, by decide +kernel, ?_⟩
  intro hfollows
  have hpath := hfollows.types (oneMessageFile "a.proto" (some "x/one") "A") List.mem_cons_self
    (.message { name := "A", fullName := "A", options := some { extendArgs := true } })
    List.mem_cons_self
  exact absurd (hident.symm.trans hpath) (by decide +kernel)

end Binding

end HessianGo
