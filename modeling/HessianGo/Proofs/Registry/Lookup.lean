import HessianGo.Proofs.Registry.Resolution

/-!
This module contains the agreement of a registry's look-ups with the trees of its files: every
declaration is found under its full name, together with the file it stands in, and nothing else is.
-/

namespace HessianGo

open Schema

namespace Registry

theorem declaredNames_eq_flatMap (files : List File) :
    declaredNames files = files.flatMap fun file => file.declarations.map (·.fullName) := by
  unfold declaredNames declared
  rw [List.map_flatMap]

theorem index_of_ofFiles_eq_ok {files : List File} {registry : Registry}
    (h : ofFiles files = .ok registry) : Index.ofFiles files = .ok registry.index := by
  unfold ofFiles at h
  split at h
  . cases h
  . next index hindex =>
    split at h
    . cases h
    . cases h
      exact hindex

theorem nodup_declaredNames (registry : Registry) : (declaredNames registry.files).Nodup :=
  (Index.ofFiles_eq_ok_iff.1 registry.isIndex).1

section

variable {registry : Registry}

theorem exists_location {file : File} (hfile : file ∈ registry.files) {declaration : Declaration}
    (hdeclaration : declaration ∈ file.declarations) :
    ∃ location, registry.index.location? declaration.fullName = some location
      ∧ registry.files[location.file]? = some file
      ∧ location.LeadsTo registry.files declaration := by
  rcases List.mem_iff_getElem?.1 hfile with ⟨position, hposition⟩
  rw [← map_declaration_filePlaces position file] at hdeclaration
  rcases List.mem_map.1 hdeclaration with ⟨place, hplace, rfl⟩
  rw [← file_eq_of_mem_filePlaces hplace] at hposition hplace
  have hmem := mem_places.2 ⟨file, hposition, hplace⟩
  exact ⟨place.location, (Index.location?_eq_some_iff registry.isIndex).2 ⟨place, hmem, rfl, rfl⟩,
    hposition, leadsTo_of_mem_places hmem⟩

theorem exists_declaration {fullName : String} {location : Location}
    (h : registry.index.location? fullName = some location) :
    ∃ file, registry.files[location.file]? = some file
      ∧ ∃ declaration ∈ file.declarations, declaration.fullName = fullName
        ∧ location.LeadsTo registry.files declaration := by
  rcases (Index.location?_eq_some_iff registry.isIndex).1 h with ⟨place, hmem, rfl, rfl⟩
  rcases mem_places.1 hmem with ⟨file, hfile, hplace⟩
  refine ⟨file, hfile, place.declaration, ?_, rfl, leadsTo_of_mem_places hmem⟩
  rw [← map_declaration_filePlaces place.location.file]
  exact List.mem_map_of_mem hplace

theorem lookup_message {file : File} {message : Message} (hfile : file ∈ registry.files)
    (hmessage : file.DeclaresMessage message) :
    registry.message? message.fullName = some message
      ∧ registry.enum? message.fullName = none
      ∧ registry.fileOf? message.fullName = some file := by
  rcases exists_location hfile (File.message_mem_declarations.2 hmessage)
    with ⟨location, hlocation, hposition, hleads⟩
  rw [Declaration.fullName] at hlocation
  simp [message?, enum?, fileOf?, hlocation, hposition, hleads.1, hleads.2]

theorem lookup_enum {file : File} {enum : Enum} (hfile : file ∈ registry.files)
    (henum : file.DeclaresEnum enum) :
    registry.enum? enum.fullName = some enum
      ∧ registry.message? enum.fullName = none
      ∧ registry.fileOf? enum.fullName = some file := by
  rcases exists_location hfile (File.enum_mem_declarations.2 henum)
    with ⟨location, hlocation, hposition, hleads⟩
  rw [Declaration.fullName] at hlocation
  simp [message?, enum?, fileOf?, hlocation, hposition, hleads.1, hleads.2]

theorem fileOf?_eq_some_iff {fullName : String} {file : File} :
    registry.fileOf? fullName = some file
      ↔
    file ∈ registry.files ∧ ∃ declaration ∈ file.declarations, declaration.fullName = fullName := by
  constructor
  . intro h
    rcases Option.bind_eq_some_iff.1 h with ⟨location, hlocation, hfile⟩
    rcases exists_declaration hlocation with ⟨found, hfound, declaration, hdeclaration, hname, -⟩
    rcases Option.some.inj (hfound.symm.trans hfile) with rfl
    exact ⟨List.mem_of_getElem? hfile, declaration, hdeclaration, hname⟩
  . rintro ⟨hfile, declaration, hdeclaration, rfl⟩
    rcases exists_location hfile hdeclaration with ⟨location, hlocation, hposition, -⟩
    simp [fileOf?, hlocation, hposition]

theorem message?_eq_some_iff {fullName : String} {message : Message} :
    registry.message? fullName = some message
      ↔
    ∃ file ∈ registry.files, file.DeclaresMessage message ∧ message.fullName = fullName := by
  constructor
  . intro h
    rcases Option.bind_eq_some_iff.1 h with ⟨location, hlocation, hmessage⟩
    rcases exists_declaration hlocation with ⟨file, hfile, declaration, hmem, hname, hleads⟩
    cases declaration with
    | message found =>
      rcases Option.some.inj (hleads.1.symm.trans hmessage) with rfl
      exact ⟨file, List.mem_of_getElem? hfile, File.message_mem_declarations.1 hmem, hname⟩
    | enum enum => cases hleads.2.symm.trans hmessage
  . rintro ⟨file, hfile, hmessage, rfl⟩
    exact (lookup_message hfile hmessage).1

theorem enum?_eq_some_iff {fullName : String} {enum : Enum} :
    registry.enum? fullName = some enum
      ↔
    ∃ file ∈ registry.files, file.DeclaresEnum enum ∧ enum.fullName = fullName := by
  constructor
  . intro h
    rcases Option.bind_eq_some_iff.1 h with ⟨location, hlocation, henum⟩
    rcases exists_declaration hlocation with ⟨file, hfile, declaration, hmem, hname, hleads⟩
    cases declaration with
    | message message => cases hleads.2.symm.trans henum
    | enum found =>
      rcases Option.some.inj (hleads.1.symm.trans henum) with rfl
      exact ⟨file, List.mem_of_getElem? hfile, File.enum_mem_declarations.1 hmem, hname⟩
  . rintro ⟨file, hfile, henum, rfl⟩
    exact (lookup_enum hfile henum).1

end

theorem mem_declaredNames {files : List File} {name : String} :
    name ∈ declaredNames files
      ↔
    ∃ file ∈ files, (∃ message, file.DeclaresMessage message ∧ message.fullName = name)
      ∨ ∃ enum, file.DeclaresEnum enum ∧ enum.fullName = name := by
  rw [declaredNames_eq_flatMap, List.mem_flatMap]
  apply exists_congr
  intro file
  apply and_congr_right
  intro _
  rw [List.mem_map]
  constructor
  . rintro ⟨declaration, hmem, hname⟩
    cases declaration with
    | message message => exact .inl ⟨message, File.message_mem_declarations.1 hmem, hname⟩
    | enum enum => exact .inr ⟨enum, File.enum_mem_declarations.1 hmem, hname⟩
  . rintro (⟨message, hmessage, hname⟩ | ⟨enum, henum, hname⟩)
    . exact ⟨.message message, File.message_mem_declarations.2 hmessage, hname⟩
    . exact ⟨.enum enum, File.enum_mem_declarations.2 henum, hname⟩

theorem lookup_undeclared {registry : Registry} {name : String}
    (h : name ∉ declaredNames registry.files) :
    registry.message? name = none ∧ registry.enum? name = none ∧ registry.fileOf? name = none := by
  have hlocation : registry.index.location? name = none := by
    rw [Index.location?_eq_none_iff, Index.map_fst_entries registry.isIndex, List.mem_reverse]
    exact h
  simp [message?, enum?, fileOf?, hlocation]

/--
A registry keeps the index that is made of its files before their type names are resolved. With it
each declared type is found under its full name as what it is in the resolved files, in the file
that declares it, and other names lead to nothing.
-/
theorem lookup_agrees (registry : Registry) :
    (∀ files, ofFiles files = .ok registry → Index.ofFiles files = .ok registry.index)
    ∧ (∀ file ∈ registry.files, ∀ message, file.DeclaresMessage message →
      registry.message? message.fullName = some message
        ∧ registry.enum? message.fullName = none
        ∧ registry.fileOf? message.fullName = some file)
    ∧ (∀ file ∈ registry.files, ∀ enum, file.DeclaresEnum enum →
      registry.enum? enum.fullName = some enum
        ∧ registry.message? enum.fullName = none
        ∧ registry.fileOf? enum.fullName = some file)
    ∧ ∀ name,
      (¬ ∃ file ∈ registry.files,
        (∃ message, file.DeclaresMessage message ∧ message.fullName = name)
          ∨ ∃ enum, file.DeclaresEnum enum ∧ enum.fullName = name) →
      registry.message? name = none
        ∧ registry.enum? name = none
        ∧ registry.fileOf? name = none := by
  refine ⟨?_, ?_, ?_, ?_⟩
  . intro files h
    exact index_of_ofFiles_eq_ok h
  . intro file hfile message hmessage
    exact lookup_message hfile hmessage
  . intro file hfile enum henum
    exact lookup_enum hfile henum
  . intro name hname
    rw [← mem_declaredNames] at hname
    exact lookup_undeclared hname

def lineMessage (kind : FieldType) : Message :=
  { name := "Line", fullName := "shop.Order.Line"
    fields := [{ name := "kind", number := 1, type := kind }] }

def kindEnum : Enum :=
  { name := "Kind", fullName := "shop.Order.Kind", values := [{ name := "PLAIN", number := 0 }] }

def unitEnum : Enum :=
  { name := "Unit", fullName := "shop.Unit" }

def orderFile (kind : FieldType) : File :=
  { name := "shop.proto", package := some "shop", enums := [unitEnum]
    messages := [
      { name := "Order", fullName := "shop.Order", enums := [kindEnum]
        messages := [{ name := "Note", fullName := "shop.Order.Note" }, lineMessage kind] }] }

def orderRegistry : Registry where
  files := [orderFile (.enum "shop.Order.Kind")]
  index := {
    entries := [
      ("shop.Order", { file := 0, messages := [0], enum := none }),
      ("shop.Order.Line", { file := 0, messages := [0, 1], enum := none }),
      ("shop.Order.Note", { file := 0, messages := [0, 0], enum := none }),
      ("shop.Order.Kind", { file := 0, messages := [0], enum := some 0 }),
      ("shop.Unit", { file := 0, messages := [], enum := some 0 })] }
  isIndex := rfl

theorem lookup_agrees_orderRegistry :
    ofFiles [orderFile (.named "Kind")] = .ok orderRegistry
      ∧ Index.ofFiles [orderFile (.named "Kind")] = .ok orderRegistry.index
      ∧ orderRegistry.message? "shop.Order.Line" = some (lineMessage (.enum "shop.Order.Kind"))
      ∧ orderRegistry.enum? "shop.Order.Kind" = some kindEnum
      ∧ orderRegistry.enum? "shop.Unit" = some unitEnum
      ∧ orderRegistry.fileOf? "Kind" = none := by
  rcases lookup_agrees orderRegistry with ⟨hindex, hmessages, henums, hothers⟩
  have hfile := List.mem_singleton_self (orderFile (.enum "shop.Order.Kind"))
  refine ⟨rfl, hindex _ rfl, ?_, ?_, ?_, ?_⟩
  . have hline : (orderFile (.enum "shop.Order.Kind")).DeclaresMessage (lineMessage _) :=
      ⟨_, List.mem_singleton_self _, .step .self (.tail _ (List.mem_singleton_self _))⟩
    exact (hmessages _ hfile _ hline).1
  . have hkind : (orderFile (.enum "shop.Order.Kind")).DeclaresEnum kindEnum :=
      .inr ⟨_, ⟨_, List.mem_singleton_self _, .self⟩, List.mem_singleton_self _⟩
    exact (henums _ hfile _ hkind).1
  . exact (henums _ hfile unitEnum (.inl (List.mem_singleton_self _))).1
  . exact (hothers "Kind" (mem_declaredNames.not.1 (by decide))).2.2

end Registry

end HessianGo
