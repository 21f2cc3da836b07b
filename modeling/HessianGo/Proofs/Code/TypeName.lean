import HessianGo.Code.Package
import HessianGo.Proofs.Registry.Lookup
import HessianGo.Proofs.Source.WellFormed

/-!
This module contains the Go names of declared types. In a registry of files that are read from
texts, the name of a type is made of the names that lead to it inside its file, and of nothing that
belongs to the package.
-/

namespace HessianGo

open Schema

open Source (Located fullNameOf)

/-! ### Nesting -/

namespace Schema.File

/--
`DeclaresAt file chain declaration`: the file declares the type, and the chain has the names from
the outermost type around it down to itself.
-/
inductive DeclaresAt (file : File) : List String → Declaration → Prop where
  | message {chain : List String} {message : Message} :
    Located file chain message → DeclaresAt file chain (.message message)
  | topEnum {enum : Enum} : enum ∈ file.enums → DeclaresAt file [enum.name] (.enum enum)
  | innerEnum {chain : List String} {message : Message} {enum : Enum} :
    Located file chain message → enum ∈ message.enums →
      DeclaresAt file (chain ++ [enum.name]) (.enum enum)

theorem declaresMessage_of_located {file : File} {chain : List String} {message : Message}
    (h : Located file chain message) : file.DeclaresMessage message := by
  induction h with
  | top hmem => exact ⟨_, hmem, .self⟩
  | inner _ hmem ih =>
    rcases ih with ⟨outer, houter, hwithin⟩
    exact ⟨outer, houter, hwithin.step hmem⟩

theorem exists_located {file : File} {message : Message} (h : file.DeclaresMessage message) :
    ∃ chain, Located file chain message := by
  rcases h with ⟨outer, houter, hwithin⟩
  induction hwithin with
  | self => exact ⟨_, .top houter⟩
  | step _ hmem ih =>
    rcases ih with ⟨chain, hlocated⟩
    exact ⟨_, hlocated.inner hmem⟩

theorem mem_declarations_iff {file : File} {declaration : Declaration} :
    declaration ∈ file.declarations ↔ ∃ chain, file.DeclaresAt chain declaration := by
  cases declaration with
  | message message =>
    rw [message_mem_declarations]
    constructor
    . intro h
      rcases exists_located h with ⟨chain, hlocated⟩
      exact ⟨chain, .message hlocated⟩
    . rintro ⟨chain, h⟩
      cases h with
      | message hlocated => exact declaresMessage_of_located hlocated
  | enum enum =>
    rw [enum_mem_declarations]
    constructor
    . rintro (htop | ⟨message, hmessage, hmem⟩)
      . exact ⟨_, .topEnum htop⟩
      . rcases exists_located hmessage with ⟨chain, hlocated⟩
        exact ⟨_, .innerEnum hlocated hmem⟩
    . rintro ⟨chain, h⟩
      cases h with
      | topEnum htop => exact .inl htop
      | innerEnum hlocated hmem => exact .inr ⟨_, declaresMessage_of_located hlocated, hmem⟩

theorem DeclaresAt.chain_ne_nil {file : File} {chain : List String} {declaration : Declaration}
    (h : file.DeclaresAt chain declaration) : chain ≠ [] := by
  cases h with
  | message hlocated => exact hlocated.chain_ne_nil
  | topEnum => simp
  | innerEnum => simp

theorem exists_located_of_mapFields {f : String → Field → Field} {file : File}
    {chain : List String} {message : Message} (h : Located (file.mapFields f) chain message) :
    ∃ source, Located file chain source ∧ message = source.mapFields f := by
  induction h with
  | top hmem =>
    rcases List.mem_map.1 hmem with ⟨source, hsource, rfl⟩
    refine ⟨source, ?_, rfl⟩
    rw [Message.mapFields_eq]
    exact .top hsource
  | inner _ hmem ih =>
    rcases ih with ⟨source, hlocated, rfl⟩
    rw [Message.mapFields_eq] at hmem
    rcases List.mem_map.1 hmem with ⟨inner, hinner, rfl⟩
    refine ⟨inner, ?_, rfl⟩
    rw [Message.mapFields_eq]
    exact hlocated.inner hinner

theorem exists_declaresAt_of_mapFields {f : String → Field → Field} {file : File}
    {chain : List String} {declaration : Declaration}
    (h : (file.mapFields f).DeclaresAt chain declaration) :
    ∃ source, file.DeclaresAt chain source ∧ source.fullName = declaration.fullName := by
  cases h with
  | message hlocated =>
    rcases exists_located_of_mapFields hlocated with ⟨source, hsource, rfl⟩
    exact ⟨_, .message hsource, (Message.mapFields_fullName f source).symm⟩
  | topEnum hmem => exact ⟨_, .topEnum hmem, rfl⟩
  | innerEnum hlocated hmem =>
    rcases exists_located_of_mapFields hlocated with ⟨source, hsource, rfl⟩
    rw [Message.mapFields_eq] at hmem
    exact ⟨_, .innerEnum hsource hmem, rfl⟩

/-! ### Full names -/

theorem dot_not_mem_of_located {tree : Source.FileTree} {file : File}
    (hfits : Source.FileFits tree file) {chain : List String} {message : Message}
    (h : Located file chain message) : ∀ name ∈ chain, '.' ∉ name.toList := by
  have hlast := (hfits.messages h).name
  induction h with
  | top hmem => simpa using hlast
  | inner hlocated hmem ih =>
    rw [List.forall_mem_append]
    refine ⟨ih (hfits.messages hlocated).name, ?_⟩
    simpa using hlast

theorem fullName_of_declaresAt {tree : Source.FileTree} {file : File}
    (hfits : Source.FileFits tree file) {chain : List String} {declaration : Declaration}
    (h : file.DeclaresAt chain declaration) :
    declaration.fullName = fullNameOf file.package chain ∧ ∀ name ∈ chain, '.' ∉ name.toList := by
  cases h with
  | message hlocated =>
    exact ⟨(hfits.messages hlocated).fullName, dot_not_mem_of_located hfits hlocated⟩
  | topEnum hmem =>
    have hfit := hfits.enums _ hmem
    exact ⟨hfit.fullName, by simpa using hfit.name⟩
  | innerEnum hlocated hmem =>
    have hfit := (hfits.messages hlocated).enums _ hmem
    refine ⟨hfit.fullName, ?_⟩
    rw [List.forall_mem_append]
    exact ⟨dot_not_mem_of_located hfits hlocated, by simpa using hfit.name⟩

end Schema.File

theorem Registry.fullName_of_declaresAt {files : List File} {registry : Registry}
    (hfiles : ∀ file ∈ files, ∃ name text, File.ofText name text = .ok file)
    (h : ofFiles files = .ok registry) {file : File} (hfile : file ∈ registry.files)
    {chain : List String} {declaration : Declaration}
    (hdeclared : file.DeclaresAt chain declaration) :
    declaration.fullName = fullNameOf file.package chain ∧ ∀ name ∈ chain, '.' ∉ name.toList := by
  rw [(ofFiles_eq_ok_iff.1 h).2.2] at hfile
  rcases List.mem_map.1 hfile with ⟨source, hsource, rfl⟩
  rcases File.exists_declaresAt_of_mapFields hdeclared with ⟨written, hwritten, hname⟩
  rcases hfiles source hsource with ⟨name, text, htext⟩
  rcases File.fits_of_ofText htext with ⟨tree, -, hfits⟩
  rw [← hname]
  exact File.fullName_of_declaresAt hfits hwritten

namespace Code

namespace Packages

/-! ### Names inside a file -/

theorem relativeName_fullNameOf (file : File) {chain : List String} (h : chain ≠ []) :
    relativeName (some file) (fullNameOf file.package chain) = (".".intercalate chain).toList := by
  unfold relativeName fullNameOf
  rw [Option.bind_some]
  cases file.package with
  | none => simp
  | some package =>
    rcases List.exists_cons_of_ne_nil h with ⟨first, others, rfl⟩
    have hrest : (package.toList ++ ['.']).isPrefixOf?
        (".".intercalate (package :: first :: others)).toList
          = some (".".intercalate (first :: others)).toList := by
      rw [List.isPrefixOf?_eq_some_iff_append_eq, String.intercalate_cons_cons]
      simp
    change ((package.toList ++ ['.']).isPrefixOf?
      (".".intercalate (package :: first :: others)).toList).getD _ = _
    rw [hrest]
    rfl

theorem parent_intercalate {chain : List String} (hchain : chain ≠ [])
    (h : ∀ name ∈ chain, '.' ∉ name.toList) :
    ((Text.cutLast '.' (".".intercalate chain).toList).map Prod.fst).getD
        (".".intercalate chain).toList
      =
    (".".intercalate (if 1 < chain.length then chain.dropLast else chain)).toList := by
  rcases (List.eq_nil_or_concat' chain).resolve_left hchain with ⟨outer, last, rfl⟩
  have hlast : '.' ∉ last.toList := h last (by simp)
  cases outer with
  | nil =>
    have hcut : Text.cutLast '.' last.toList = none := Text.cutLast_eq_none_iff.2 hlast
    simp [hcut]
  | cons first others =>
    have hcut := Text.cutLast_append hlast (".".intercalate (first :: others)).toList
    have htext : (".".intercalate (first :: others ++ [last])).toList
        = (".".intercalate (first :: others)).toList ++ '.' :: last.toList := by
      rw [Source.intercalate_concat (by simp)]
      simp only [String.toList_append, List.append_assoc]
      rfl
    rw [htext, hcut, if_pos (by simp), List.dropLast_concat]
    rfl

variable {packages : Packages} {file : File} {chain : List String} {fullName : String}

theorem name_ident (hfile : packages.registry.fileOf? fullName = some file)
    (hname : fullName = fullNameOf file.package chain) (hchain : chain ≠ []) :
    (packages.ident fullName).name = camelCase (".".intercalate chain) := by
  unfold ident
  dsimp only
  rw [hfile, hname, relativeName_fullNameOf file hchain, String.ofList_toList]

theorem name_enumValueIdent (hfile : packages.registry.fileOf? fullName = some file)
    (hname : fullName = fullNameOf file.package chain) (hchain : chain ≠ [])
    (hdots : ∀ name ∈ chain, '.' ∉ name.toList) (value : String) :
    (packages.enumValueIdent fullName value).name
      =
    camelCase (".".intercalate (if 1 < chain.length then chain.dropLast else chain))
      ++ "_" ++ value := by
  unfold enumValueIdent
  dsimp only
  rw [hfile, hname, relativeName_fullNameOf file hchain, parent_intercalate hchain hdots,
    String.ofList_toList]

end Packages

/--
In a registry of files that are read from texts, each type is declared at the end of a chain of
names. Its Go name is made of that chain, and a value of an enum is named after what stands around
the enum, or after the enum if nothing does.
-/
theorem name_of_declaresAt {files : List File} {registry : Registry}
    (hfiles : ∀ file ∈ files, ∃ name text, File.ofText name text = .ok file)
    (hregistry : Registry.ofFiles files = .ok registry) (config : Config) :
    ∀ file ∈ registry.files,
      (∀ declaration ∈ file.declarations, ∃ chain, file.DeclaresAt chain declaration)
      ∧ ∀ chain declaration, file.DeclaresAt chain declaration →
        (Packages.ident ⟨registry, config⟩ declaration.fullName).name
            = camelCase (".".intercalate chain)
          ∧ ∀ enum, declaration = .enum enum → ∀ value,
            (Packages.enumValueIdent ⟨registry, config⟩ enum.fullName value).name
              = camelCase (".".intercalate (if 1 < chain.length then chain.dropLast else chain))
                ++ "_" ++ value := by
  intro file hfile
  refine ⟨fun declaration => File.mem_declarations_iff.1, ?_⟩
  intro chain declaration hdeclared
  have hmem : declaration ∈ file.declarations := File.mem_declarations_iff.2 ⟨chain, hdeclared⟩
  have hfound : registry.fileOf? declaration.fullName = some file :=
    Registry.fileOf?_eq_some_iff.2 ⟨hfile, declaration, hmem, rfl⟩
  rcases Registry.fullName_of_declaresAt hfiles hregistry hfile hdeclared with ⟨hname, hdots⟩
  refine ⟨Packages.name_ident hfound hname hdeclared.chain_ne_nil, ?_⟩
  rintro enum rfl value
  exact Packages.name_enumValueIdent hfound hname hdeclared.chain_ne_nil hdots value

def outerText : String :=
  "package a; message b \x7b enum Kind \x7b ON = 0; \x7d \x7d"

def innerText : String :=
  "package a.b; message Item \x7b enum Mode \x7b OFF = 0; \x7d \x7d enum Side \x7b LEFT = 0; \x7d"

theorem registry_nestedPackages :
    ∃ outer, File.ofText "a.proto" outerText = .ok outer
      ∧ ∃ inner, File.ofText "b.proto" innerText = .ok inner
      ∧ ∃ registry, Registry.ofFiles [outer, inner] = .ok registry
      ∧ (∃ file ∈ registry.files, ∃ message ∈ file.messages, ∃ enum ∈ message.enums,
        message.name = "b" ∧ enum.name = "Kind" ∧ enum.fullName = "a.b.Kind")
      ∧ ∃ file ∈ registry.files, ∃ enum ∈ file.enums,
        enum.name = "Side" ∧ enum.fullName = "a.b.Side" := by
  decide +kernel

theorem name_of_declaresAt_nestedPackages :
    ∃ outer inner registry, File.ofText "a.proto" outerText = .ok outer
      ∧ File.ofText "b.proto" innerText = .ok inner
      ∧ Registry.ofFiles [outer, inner] = .ok registry
      ∧ (Packages.ident ⟨registry, {}⟩ "a.b.Kind").name = "B_Kind"
      ∧ (Packages.enumValueIdent ⟨registry, {}⟩ "a.b.Kind" "ON").name = "B_ON"
      ∧ (Packages.ident ⟨registry, {}⟩ "a.b.Side").name = "Side"
      ∧ (Packages.enumValueIdent ⟨registry, {}⟩ "a.b.Side" "LEFT").name = "Side_LEFT" := by
  rcases registry_nestedPackages with ⟨outer, houter, inner, hinner, registry, hregistry,
    ⟨file, hfile, message, hmessage, kind, hkind, hmessageName, hkindName, hkindFull⟩,
    ⟨other, hother, side, hside, hsideName, hsideFull⟩⟩
  have hfiles : ∀ file ∈ [outer, inner], ∃ name text, File.ofText name text = .ok file := by
    simp only [List.mem_cons, List.not_mem_nil, or_false, forall_eq_or_imp, forall_eq]
    exact ⟨⟨_, _, houter⟩, ⟨_, _, hinner⟩⟩
  have hnames := name_of_declaresAt hfiles hregistry {}
  rcases (hnames file hfile).2 _ _ (.innerEnum (.top hmessage) hkind) with ⟨hident, hvalue⟩
  rcases (hnames other hother).2 _ _ (.topEnum hside) with ⟨hsideIdent, hsideValue⟩
  have hvalue := hvalue kind rfl "ON"
  have hsideValue := hsideValue side rfl "LEFT"
  simp only [Declaration.fullName, hkindFull, hmessageName, hkindName] at hident hvalue
  simp only [Declaration.fullName, hsideFull, hsideName] at hsideIdent hsideValue
  refine ⟨outer, inner, registry, houter, hinner, hregistry, ?_, ?_, ?_, ?_⟩
  . exact hident.trans (by decide)
  . exact hvalue.trans (by decide)
  . exact hsideIdent.trans (by decide)
  . exact hsideValue.trans (by decide)

end Code

end HessianGo
