import HessianGo.Proofs.Binding.TypeText

/-!
This module contains the way of a map field through a schema text: it refers to the entry that was
made for it, whatever other declarations are called, and it is bound as a map.
-/

namespace HessianGo

open Source (FileTree Declared Describes Located)

namespace Registry

/--
What a registry of these files has for a map field that is declared like this: the field refers to
an entry of its own, which has the declared type of the keys, and the type that the declared type of
the values stands for.
-/
structure HasEntry (files : List Schema.File) (registry : Registry) (decl : Source.MapDecl)
    (field : Schema.Field) (entry : Schema.Message) (value : Schema.Field) : Prop where
  name : field.name = decl.name
  isRepeated : field.isRepeated = true
  type : field.type = .message entry.fullName
  entryName : entry.name = Source.entryName decl.name
  found : registry.message? entry.fullName = some entry
  isEntry : Schema.IsEntry entry decl.key value
  value : Replaces (declared files) entry.fullName
    { name := "value", number := 2, type := decl.value } value

theorem exists_hasEntry {files : List Schema.File} {registry : Registry}
    (h : ofFiles files = .ok registry) {file : Schema.File} (hfile : file ∈ files)
    {chain : List String} {message : Schema.Message} (hlocated : Located file chain message)
    {items : List Source.MessageItem} (hdescribes : Describes file.dialect items message)
    {decl : Source.MapDecl} (hdecl : .mapField decl ∈ items) :
    ∃ field ∈ (message.mapFields (resolvedField (declared files))).fields,
      ∃ entry ∈ (message.mapFields (resolvedField (declared files))).messages,
        ∃ value, HasEntry files registry decl field entry value := by
  rcases hdescribes.exists_mapField hdecl with ⟨field, hfield, hread, hentry⟩
  rcases bind_eq_ok_iff.1 hread with ⟨number, -, hread⟩
  rcases bind_eq_ok_iff.1 hread with ⟨options, -, heq⟩
  cases heq
  have hlocatedEntry := hlocated.inner hentry
  rcases exists_located h hfile hlocatedEntry with ⟨_, -, -, -, hfound⟩
  refine ⟨_, mem_fields_mapFields hfield ?_ _,
    (decl.entry message.fullName).mapFields (resolvedField (declared files)), ?_,
    resolvedField (declared files) (decl.entry message.fullName).fullName
      { name := "value", number := 2, type := decl.value }, ?_⟩
  . intro written htype
    cases htype
  . rw [Schema.Message.mapFields_eq]
    exact List.mem_map_of_mem hentry
  . exact {
      name := rfl
      isRepeated := rfl
      type := by rw [Schema.Message.mapFields_fullName]
      entryName := by
        rw [Schema.Message.mapFields_eq]
        rfl
      found := by
        rw [Schema.Message.mapFields_fullName]
        exact hfound
      isEntry := isEntry_mapFields (Source.isEntry_entry decl message.fullName) _
      value := by
        rw [Schema.Message.mapFields_fullName]
        apply replaces_resolvedField h hfile (Schema.File.declaresMessage_of_located hlocatedEntry)
        simp [Source.MapDecl.entry] }

end Registry

namespace Binding

open Code (Packages ImportTable)

section

variable {packages : Packages} {table : ImportTable}

/--
`IsElement packages table type text`: in a file with this import table, the text is the Go type of
one value of the type.
-/
inductive IsElement (packages : Packages) (table : ImportTable) : Schema.FieldType → String → Prop
  where
  | scalar (type : Schema.ScalarType) :
    IsElement packages table (.scalar type) (Code.scalarName type)
  | enum {fullName text : String} : table.IsReference (packages.ident fullName) text →
    IsElement packages table (.enum fullName) text
  | message {fullName text : String} : table.IsReference (packages.ident fullName) text →
    IsElement packages table (.message fullName) ("*" ++ text)

theorem isElement_text {field : Schema.Field} (hresolved : ∀ written, field.type ≠ .named written)
    (h : ∀ ident ∈ (elementType packages field).idents,
      table.IsReference ident (table.refer ident)) :
    IsElement packages table field.type ((elementType packages field).text table) := by
  unfold elementType at h ⊢
  cases htype : field.type with
  | scalar type =>
    simp only [Code.TypeExpr.text_ofScalar]
    exact .scalar type
  | enum fullName =>
    rw [htype] at h
    exact .enum (h _ (List.mem_singleton_self _))
  | message fullName =>
    rw [htype] at h
    exact .message (h _ (List.mem_singleton_self _))
  | named written => exact absurd htype (hresolved written)

/--
The type is a message that a package of its own choice defines.
-/
def IsDefinedElsewhere (registry : Registry) (type : Schema.FieldType) : Prop :=
  ∃ fullName message, type = .message fullName ∧ registry.message? fullName = some message
    ∧ message.referencePath ≠ ""

structure IsMap (packages : Packages) (table : ImportTable) (key : Schema.ScalarType)
    (value : Schema.FieldType) (bound : Field) : Prop where
  defaultValue : bound.defaultValue = "nil"
  typeName : ∃ element,
    bound.typeName = boxing bound.schema ++ ("map[" ++ Code.scalarName key ++ "]" ++ element)
      ∧ (¬ IsDefinedElsewhere packages.registry value → IsElement packages table value element)
  not_slice : ∀ element, bound.typeName ≠ boxing bound.schema ++ ("[]" ++ element)

theorem defaultValue_of_isRepeated {field : Schema.Field} (h : field.isRepeated = true) :
    (fieldAt packages table field).defaultValue = "nil" := by
  unfold fieldAt fieldDefault
  rw [if_pos h]
  split
  . rfl
  . rfl

theorem isMap_of_isEntry {final : ImportTable} {bound : Field} (h : IsBound packages final bound)
    {entry : Schema.Message} {key : Schema.ScalarType} {value : Schema.Field}
    (hentry : Schema.IsEntry entry key value) (hrepeated : bound.schema.isRepeated = true)
    (htype : bound.schema.type = .message entry.fullName)
    (hfound : packages.registry.message? entry.fullName = some entry)
    (hresolved : ∀ written, value.type ≠ .named written) :
    IsMap packages final key value.type bound := by
  have hmap := fieldType_of_isEntry hentry hrepeated htype hfound
  have htext := h.typeName_eq
  rw [hmap, Code.TypeExpr.text, Code.TypeExpr.text_ofScalar] at htext
  refine ⟨?_, ⟨_, htext, fun _ => isElement_text hresolved ?_⟩, ?_⟩
  . rw [h.eq_fieldAt.1]
    exact defaultValue_of_isRepeated hrepeated
  . intro ident hident
    apply h.isReference
    rw [hmap]
    exact List.mem_append_right _ hident
  . intro element heq
    rw [htext, String.append_right_inj] at heq
    have := congrArg (·.toList.head?) heq
    simp at this

end

/--
A map field that a message declares, at any depth and whatever else is declared, refers to the entry
that this message has for it. Wherever the field is bound it is a map of the declared types and no
slice, and it is bound with its message if no message in there lacks a class.
-/
theorem mapField_outcome {files : List Schema.File} {registry : Registry}
    (hregistry : Registry.ofFiles files = .ok registry) {name text : String} {file : Schema.File}
    (hfile : file ∈ files) (hread : Schema.File.ofText name text = .ok file) {tree : FileTree}
    (htree : FileTree.ofText? text.toList = some tree) {chain : List String}
    {items : List Source.MessageItem} (hdeclared : Declared tree chain items)
    {decl : Source.MapDecl} (hdecl : .mapField decl ∈ items) :
    ∃ resolved ∈ registry.files, resolved.name = file.name
      ∧ ∃ message, Located resolved chain message
      ∧ registry.message? message.fullName = some message
      ∧ ∃ field ∈ message.fields, ∃ entry ∈ message.messages, ∃ value,
        Registry.HasEntry files registry decl field entry value
        ∧ (∀ config final bound, IsBound ⟨registry, config⟩ final bound → bound.schema = field →
          IsMap ⟨registry, config⟩ final decl.key value.type bound)
        ∧ ∀ config table, (∀ inner, message.Exposes inner → inner.lacksClass = false) →
          ∃ binding final,
            (bindMessage ⟨registry, config⟩ message).run.run table = (.ok binding, final)
            ∧ ∃ bound ∈ binding.fields, bound.schema = field := by
  rcases Schema.File.exists_toFile_of_ofText hread with ⟨tree', htree', htoFile⟩
  obtain rfl : tree = tree' := Option.some.inj (htree.symm.trans htree')
  rcases Source.exists_located_of_declared htoFile hdeclared with ⟨source, hlocated, hdescribes⟩
  rcases Registry.exists_located hregistry hfile hlocated
    with ⟨resolved, hresolved, hname, hplace, hfound⟩
  rcases Registry.exists_hasEntry hregistry hfile hlocated hdescribes hdecl
    with ⟨field, hfield, entry, hentry, value, hmap⟩
  refine ⟨resolved, hresolved, hname, _, hplace, ?_, field, hfield, entry, hentry, value, hmap, ?_,
    ?_⟩
  . rw [Schema.Message.mapFields_fullName]
    exact hfound
  . rintro config final bound hbound rfl
    exact isMap_of_isEntry hbound hmap.isEntry hmap.isRepeated hmap.type hmap.found
      (Registry.ne_named_of_replaces hmap.value)
  . intro config table hclass
    have hno : (source.mapFields (Registry.resolvedField (Registry.declared files))).isMapEntry
        = false := by
      rw [Schema.Message.mapFields_eq]
      exact hdescribes.isMapEntry_eq
    rcases exists_binding hno hclass with ⟨binding, hrun, hschemas, -⟩
    rw [← hschemas] at hfield
    exact ⟨binding, _, Prod.ext hrun rfl, List.mem_map.1 hfield⟩

def shelfText : String :=
  "message Shelf \x7b option (q.message_extend).extend_args = true; message Book \x7b"
    ++ " option (q.message_extend).extend_args = true; \x7d"
    ++ " map<string, Book> by_title = 1 [(q.field_extend).is_wrapper = true]; \x7d"

theorem tree_shelfText :
    ∃ tree ∈ FileTree.ofText? shelfText.toList,
      (tree.statements.any fun
        | .message _ items => items.any fun
          | .mapField decl => decl.name = "by_title" && decl.key = .string
          | _ => false
        | _ => false)
      ∧ ∃ file, tree.toFile "shelf.proto" = .ok file
        ∧ ∃ registry, Registry.ofFiles [file] = .ok registry
          ∧ ∀ resolved ∈ registry.files, ∀ message ∈ resolved.messages,
            ∀ inner ∈ message.postOrder, inner.lacksClass = false := by
  decide +kernel

theorem declared_shelfText :
    ∃ tree file registry name items decl, FileTree.ofText? shelfText.toList = some tree
      ∧ Schema.File.ofText "shelf.proto" shelfText = .ok file
      ∧ Registry.ofFiles [file] = .ok registry
      ∧ (∀ resolved ∈ registry.files, ∀ message ∈ resolved.messages,
        ∀ inner ∈ message.postOrder, inner.lacksClass = false)
      ∧ Declared tree [name] items ∧ .mapField decl ∈ items
      ∧ decl.name = "by_title" ∧ decl.key = .string := by
  rcases tree_shelfText with ⟨tree, htree, hstatements, file, hread, registry, hregistry, hclass⟩
  have hfile : Schema.File.ofText "shelf.proto" shelfText = .ok file :=
    (Schema.File.ofText_eq_toFile htree "shelf.proto").trans hread
  rcases List.any_eq_true.1 hstatements with ⟨statement, hstatement, hitems⟩
  cases statement with
  | message name items =>
    rcases List.any_eq_true.1 hitems with ⟨item, hitem, hdecl⟩
    cases item with
    | mapField decl =>
      rw [Bool.and_eq_true, decide_eq_true_iff, decide_eq_true_iff] at hdecl
      exact ⟨tree, file, registry, name, items, decl, htree, hfile, hregistry, hclass,
        .top hstatement, hitem, hdecl⟩
    | _ => cases hdecl
  | _ => cases hitems

theorem mapField_outcome_shelfText :
    ∃ file registry message binding final,
      Schema.File.ofText "shelf.proto" shelfText = .ok file
      ∧ Registry.ofFiles [file] = .ok registry
      ∧ registry.message? message.fullName = some message
      ∧ (bindMessage ⟨registry, {}⟩ message).run.run { own := {} } = (.ok binding, final)
      ∧ ∃ bound ∈ binding.fields, bound.schema.name = "by_title" ∧ bound.defaultValue = "nil"
        ∧ ∃ element, bound.typeName = boxing bound.schema ++ ("map[string]" ++ element) := by
  rcases declared_shelfText with ⟨tree, file, registry, name, items, decl, htree, hread, hregistry,
    hclass, hdeclared, hdecl, hname, hkey⟩
  rcases mapField_outcome hregistry (List.mem_singleton_self file) hread htree hdeclared hdecl
    with ⟨resolved, hresolved, -, message, hplace, hfound, field, -, entry, -, value, hentry, hmap,
      hbinds⟩
  have hclass' : ∀ inner, message.Exposes inner → inner.lacksClass = false := by
    intro inner hinner
    exact hclass resolved hresolved message (hplace.mem_of_singleton rfl) inner
      (Schema.Message.mem_postOrder.2 hinner)
  rcases hbinds {} { own := {} } hclass' with ⟨binding, final, hrun, bound, hbound, hschema⟩
  have hisBound : IsBound ⟨registry, {}⟩ final bound := by
    apply IsBound.message (.new _) hrun
    rw [Message.allFields_eq]
    exact List.mem_append_right _ hbound
  have hisMap := hmap {} final bound hisBound hschema
  rcases hisMap.typeName with ⟨element, htype, -⟩
  rw [hkey] at htype
  refine ⟨file, registry, message, binding, final, hread, hregistry, hfound, hrun, bound, hbound,
    ?_, hisMap.defaultValue, element, htype⟩
  rw [hschema, hentry.name, hname]

end Binding

end HessianGo
