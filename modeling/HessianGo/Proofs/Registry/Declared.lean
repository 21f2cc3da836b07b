import HessianGo.Proofs.Code.TypeName
import HessianGo.Proofs.Source.Declared

/-!
This module contains what a registry has of the messages that its files declare: each of them is
found under its full name and at its place, with the type names of its fields replaced. The entries
of maps are among them.
-/

namespace HessianGo

open Schema

open Source (Located Declared DeclaresField Describes)

theorem Schema.File.located_mapFields {file : File} {chain : List String} {message : Message}
    (h : Located file chain message) (f : String → Field → Field) :
    Located (file.mapFields f) chain (message.mapFields f) := by
  have hname : ∀ other : Message, (other.mapFields f).name = other.name := by
    intro other
    rw [Message.mapFields_eq]
  induction h with
  | @top message hmem =>
    rw [← hname message]
    exact .top (List.mem_map_of_mem hmem)
  | @inner chain message inner _ hmem ih =>
    rw [← hname inner]
    apply ih.inner
    rw [Message.mapFields_eq]
    exact List.mem_map_of_mem hmem

/--
`IsEntry entry key value`: the message is the entry of a map with keys of a built-in type, and has
the field for the values of the map.
-/
structure Schema.IsEntry (entry : Message) (key : ScalarType) (value : Field) : Prop where
  isMapEntry : entry.isMapEntry = true
  options : entry.options = none
  fields : entry.fields = [{ name := "key", number := 1, type := .scalar key }, value]

theorem Source.isEntry_entry (decl : MapDecl) (scope : String) :
    IsEntry (decl.entry scope) decl.key { name := "value", number := 2, type := decl.value } :=
  ⟨rfl, rfl, rfl⟩

namespace Registry

theorem resolvedField_eq_self {declarations : List Declaration} {field : Field}
    (h : ∀ written, field.type ≠ .named written) (scope : String) :
    resolvedField declarations scope field = field := by
  unfold resolvedField
  split
  . next written htype => exact absurd htype (h written)
  . rfl

theorem mem_fields_mapFields {message : Message} {field : Field} (hfield : field ∈ message.fields)
    (h : ∀ written, field.type ≠ .named written) (declarations : List Declaration) :
    field ∈ (message.mapFields (resolvedField declarations)).fields := by
  rw [Message.mapFields_eq, ← resolvedField_eq_self h message.fullName]
  exact List.mem_map_of_mem hfield

theorem name_resolvedField (declarations : List Declaration) (scope : String) (field : Field) :
    (resolvedField declarations scope field).name = field.name := by
  unfold resolvedField
  split
  . split
    . rfl
    . rfl
  . rfl

theorem replaces_resolvedField {files : List File} {registry : Registry}
    (h : ofFiles files = .ok registry) {file : File} (hfile : file ∈ files) {message : Message}
    (hmessage : file.DeclaresMessage message) {field : Field} (hfield : field ∈ message.fields) :
    Replaces (declared files) message.fullName field
      (resolvedField (declared files) message.fullName field) := by
  rcases ofFiles_eq_ok_iff.1 h with ⟨hnodup, hresolved, -⟩
  rw [replaces_iff hnodup]
  exact ⟨isResolved_references_iff.1 hresolved file hfile message hmessage field hfield, rfl⟩

theorem exists_located {files : List File} {registry : Registry} (h : ofFiles files = .ok registry)
    {file : File} (hfile : file ∈ files) {chain : List String} {message : Message}
    (hlocated : Located file chain message) :
    ∃ resolved ∈ registry.files, resolved.name = file.name
      ∧ Located resolved chain (message.mapFields (resolvedField (declared files)))
      ∧ registry.message? message.fullName
        = some (message.mapFields (resolvedField (declared files))) := by
  have hresolved : file.mapFields (resolvedField (declared files)) ∈ registry.files := by
    rw [(ofFiles_eq_ok_iff.1 h).2.2]
    exact List.mem_map_of_mem hfile
  have hplace := File.located_mapFields hlocated (resolvedField (declared files))
  have hfound := lookup_message hresolved (File.declaresMessage_of_located hplace)
  rw [Message.mapFields_fullName] at hfound
  exact ⟨_, hresolved, rfl, hplace, hfound.1⟩

theorem exists_scalarField {files : List File} {registry : Registry}
    (h : ofFiles files = .ok registry) {name text : String} {file : File} (hfile : file ∈ files)
    (hread : File.ofText name text = .ok file) {tree : Source.FileTree}
    (htree : Source.FileTree.ofText? text.toList = some tree) {chain : List String}
    {items : List Source.MessageItem} (hdeclared : Declared tree chain items)
    {decl : Source.FieldDecl} {oneof : Option String} (hdecl : DeclaresField items decl oneof)
    {type : ScalarType} (htype : decl.type = .scalar type) :
    ∃ resolved ∈ registry.files, resolved.name = file.name
      ∧ ∃ message, Located resolved chain message
      ∧ registry.message? message.fullName = some message
      ∧ message.isMapEntry = false
      ∧ ∃ field ∈ message.fields, decl.toField file.dialect oneof = .ok field := by
  rw [File.ofText_eq_toFile htree] at hread
  rcases Source.exists_located_of_declared hread hdeclared with ⟨source, hlocated, hdescribes⟩
  rcases exists_located h hfile hlocated with ⟨resolved, hresolved, hname, hplace, hfound⟩
  rcases hdescribes.exists_field hdecl with ⟨field, hfield, hfieldRead⟩
  have hscalar : field.type = .scalar type := by
    rcases bind_eq_ok_iff.1 hfieldRead with ⟨_, -, hrest⟩
    rcases bind_eq_ok_iff.1 hrest with ⟨_, -, hrest⟩
    rcases bind_eq_ok_iff.1 hrest with ⟨_, -, heq⟩
    cases heq
    exact htype
  refine ⟨resolved, hresolved, hname, _, hplace, ?_, ?_, field, ?_, hfieldRead⟩
  . rw [Message.mapFields_fullName]
    exact hfound
  . rw [Message.mapFields_eq]
    exact hdescribes.isMapEntry_eq
  . apply mem_fields_mapFields hfield
    intro written hnamed
    rw [hscalar] at hnamed
    cases hnamed

theorem isEntry_mapFields {entry : Message} {key : ScalarType} {value : Field}
    (h : IsEntry entry key value) (declarations : List Declaration) :
    IsEntry (entry.mapFields (resolvedField declarations)) key
      (resolvedField declarations entry.fullName value) := by
  rw [Message.mapFields_eq]
  refine ⟨h.isMapEntry, h.options, ?_⟩
  have hkey : resolvedField declarations entry.fullName
      { name := "key", number := 1, type := .scalar key }
        = { name := "key", number := 1, type := .scalar key } := by
    apply resolvedField_eq_self
    intro written htype
    cases htype
  simp [h.fields, hkey]

theorem exists_isEntry {files : List File} {registry : Registry}
    (hfiles : ∀ file ∈ files, ∃ name text, File.ofText name text = .ok file)
    (h : ofFiles files = .ok registry) {fullName : String} {entry : Message}
    (hfound : registry.message? fullName = some entry) (hentry : entry.isMapEntry = true) :
    ∃ key value, IsEntry entry key value ∧ value.name = "value" := by
  rcases message?_eq_some_iff.1 hfound with ⟨file, hfile, hdeclares, -⟩
  rw [(ofFiles_eq_ok_iff.1 h).2.2] at hfile
  rcases List.mem_map.1 hfile with ⟨source, hsource, rfl⟩
  rcases File.exists_located hdeclares with ⟨chain, hlocated⟩
  rcases File.exists_located_of_mapFields hlocated with ⟨written, hwritten, rfl⟩
  rw [Message.mapFields_eq] at hentry
  rcases hfiles source hsource with ⟨name, text, htext⟩
  rcases File.exists_toFile_of_ofText htext with ⟨tree, htree, hread⟩
  have htraced := Source.traced_of_located (Source.isRead_of_ofText? htree) hread hwritten
  rcases htraced.origin with ⟨-, field, hmap⟩ | ⟨hfalse, -⟩
  . rcases hmap.fields with ⟨key, type, -, hfields⟩
    have hisEntry : IsEntry written key { name := "value", number := 2, type } :=
      ⟨hentry, hmap.options, hfields⟩
    exact ⟨key, _, isEntry_mapFields hisEntry _, name_resolvedField _ _ _⟩
  . rw [hfalse] at hentry
    cases hentry

theorem exists_replaces {files : List File} {registry : Registry}
    (hfiles : ∀ file ∈ files, ∃ name text, File.ofText name text = .ok file)
    (h : ofFiles files = .ok registry) {fullName : String} {message : Message}
    (hfound : registry.message? fullName = some message) {field : Field}
    (hfield : field ∈ message.fields) :
    ∃ scope written dialect oneofs, Source.FieldFits dialect oneofs written
      ∧ Replaces (declared files) scope written field := by
  rcases message?_eq_some_iff.1 hfound with ⟨file, hfile, hdeclares, -⟩
  rw [(ofFiles_eq_ok_iff.1 h).2.2] at hfile
  rcases List.mem_map.1 hfile with ⟨source, hsource, rfl⟩
  rcases File.exists_of_declaresMessage_mapFields _ hdeclares with ⟨outer, houter, rfl⟩
  rw [Message.mapFields_eq] at hfield
  rcases List.mem_map.1 hfield with ⟨written, hwritten, rfl⟩
  rcases hfiles source hsource with ⟨name, text, htext⟩
  rcases File.exists_toFile_of_ofText htext with ⟨tree, htree, hread⟩
  rcases File.exists_located houter with ⟨chain, hlocated⟩
  have hfits := Source.fileFits_of_toFile (Source.isRead_of_ofText? htree) hread
  exact ⟨_, written, _, _, (hfits.messages hlocated).fields written hwritten,
    replaces_resolvedField h hsource houter hwritten⟩

theorem enum?_of_mem_declared {files : List File} {registry : Registry}
    (h : ofFiles files = .ok registry) {enum : Enum} (henum : .enum enum ∈ declared files) :
    registry.enum? enum.fullName = some enum := by
  rcases List.mem_flatMap.1 henum with ⟨file, hfile, hmem⟩
  have hresolved : file.mapFields (resolvedField (declared files)) ∈ registry.files := by
    rw [(ofFiles_eq_ok_iff.1 h).2.2]
    exact List.mem_map_of_mem hfile
  have hdeclares : (file.mapFields (resolvedField (declared files))).DeclaresEnum enum := by
    rw [← File.enum_mem_declarations, File.declarations_mapFields]
    exact List.mem_map.2 ⟨_, hmem, rfl⟩
  exact (lookup_enum hresolved hdeclares).1

end Registry

end HessianGo
