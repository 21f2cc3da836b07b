import HessianGo.Proofs.Source.WellFormed

/-!
This module contains the way from a declaration to what a schema file has of it. A message that is
declared at the end of a chain of names, at any depth, is in the file at the end of the same chain,
and it has what each of its parts adds to it.
-/

namespace HessianGo

theorem Schema.File.ofText_eq_toFile {text : String} {tree : Source.FileTree}
    (h : Source.FileTree.ofText? text.toList = some tree) (name : String) :
    Schema.File.ofText name text = tree.toFile name := by
  unfold Schema.File.ofText
  simp only [h]

theorem Schema.File.exists_toFile_of_ofText {name text : String} {file : Schema.File}
    (h : Schema.File.ofText name text = .ok file) :
    ∃ tree, Source.FileTree.ofText? text.toList = some tree ∧ tree.toFile name = .ok file := by
  unfold Schema.File.ofText at h
  split at h
  . next tree htree => exact ⟨tree, htree, h⟩
  . cases h

namespace Source

theorem Located.mem_of_singleton {file : Schema.File} {chain : List String}
    {message : Schema.Message} (h : Located file chain message) {name : String}
    (hchain : chain = [name]) : message ∈ file.messages := by
  cases h with
  | top hmem => exact hmem
  | inner houter _ =>
    have := List.append_eq_singleton_iff.1 hchain
    simp [houter.chain_ne_nil] at this

theorem Located.exists_of_concat {file : Schema.File} {chain outer : List String}
    {message : Schema.Message} (h : Located file chain message) {name : String}
    (hchain : chain = outer ++ [name]) (houter : outer ≠ []) :
    ∃ around, Located file outer around ∧ message ∈ around.messages ∧ message.name = name := by
  cases h with
  | top hmem =>
    have := List.singleton_eq_append_iff.1 hchain
    simp [houter] at this
  | inner haround hmem =>
    rcases List.append_inj' hchain rfl with ⟨rfl, hname⟩
    exact ⟨_, haround, hmem, List.singleton_inj.1 hname⟩

theorem exists_members_of_mem {dialect : Schema.Dialect} {scope : String}
    {items : List MessageItem} {members : Members}
    (h : MessageItem.membersOfList dialect scope items = .ok members) {item : MessageItem}
    (hitem : item ∈ items) :
    ∃ part, item.members dialect scope = .ok part
      ∧ part.fields ⊆ members.fields ∧ part.messages ⊆ members.messages := by
  induction items generalizing members with
  | nil => cases hitem
  | cons first items ih =>
    rcases bind_eq_ok_iff.1 h with ⟨part, hpart, h⟩
    rcases bind_eq_ok_iff.1 h with ⟨others, hothers, hmembers⟩
    cases hmembers
    rcases List.mem_cons.1 hitem with rfl | hitem
    . exact ⟨part, hpart, List.subset_append_left _ _, List.subset_append_left _ _⟩
    . rcases ih hothers hitem with ⟨part', hpart', hfields, hmessages⟩
      exact ⟨part', hpart', List.subset_append_of_subset_right _ hfields,
        List.subset_append_of_subset_right _ hmessages⟩

/--
`Describes dialect items message`: a declaration with these parts describes the message.
-/
def Describes (dialect : Schema.Dialect) (items : List MessageItem) (result : Schema.Message) :
    Prop :=
  ∃ parent name, message dialect parent name items = .ok result

theorem describes_of_message {dialect : Schema.Dialect} {parent : Option String} {name : String}
    {items : List MessageItem} {result : Schema.Message}
    (h : message dialect parent name items = .ok result) :
    result.name = name ∧ Describes dialect items result := by
  rcases bind_eq_ok_iff.1 h with ⟨members, -, hresult⟩
  exact ⟨(eq_of_toMessage hresult).1, parent, name, h⟩

theorem Describes.isMapEntry_eq {dialect : Schema.Dialect} {items : List MessageItem}
    {result : Schema.Message} (h : Describes dialect items result) : result.isMapEntry = false := by
  rcases h with ⟨parent, name, h⟩
  rcases bind_eq_ok_iff.1 h with ⟨members, -, hresult⟩
  exact (eq_of_toMessage hresult).2.2

theorem Describes.exists_membersOfList {dialect : Schema.Dialect} {items : List MessageItem}
    {result : Schema.Message} (h : Describes dialect items result) :
    ∃ members, MessageItem.membersOfList dialect result.fullName items = .ok members
      ∧ members.fields = result.fields ∧ members.messages = result.messages
      ∧ messageBlock.read members.assignments = .ok result.options := by
  rcases h with ⟨parent, name, h⟩
  rcases bind_eq_ok_iff.1 h with ⟨members, hmembers, h⟩
  rcases bind_eq_ok_iff.1 h with ⟨options, hoptions, hresult⟩
  cases hresult
  exact ⟨members, hmembers, rfl, rfl, eq_ok_of_ofOptions hoptions⟩

theorem Describes.exists_members {dialect : Schema.Dialect} {items : List MessageItem}
    {result : Schema.Message} (h : Describes dialect items result) {item : MessageItem}
    (hitem : item ∈ items) :
    ∃ part, item.members dialect result.fullName = .ok part
      ∧ part.fields ⊆ result.fields ∧ part.messages ⊆ result.messages := by
  rcases h.exists_membersOfList with ⟨members, hmembers, hfields, hmessages, -⟩
  rw [← hfields, ← hmessages]
  exact exists_members_of_mem hmembers hitem

theorem Describes.exists_inner {dialect : Schema.Dialect} {items : List MessageItem}
    {result : Schema.Message} (h : Describes dialect items result) {name : String}
    {innerItems : List MessageItem} (hitem : .message name innerItems ∈ items) :
    ∃ inner ∈ result.messages, inner.name = name ∧ Describes dialect innerItems inner := by
  rcases h.exists_members hitem with ⟨part, hpart, -, hmessages⟩
  rcases bind_eq_ok_iff.1 hpart with ⟨members, hmembers, hpart⟩
  rcases bind_eq_ok_iff.1 hpart with ⟨inner, hinner, hpart⟩
  cases hpart
  have hread : message dialect (some result.fullName) name innerItems = .ok inner :=
    bind_eq_ok_iff.2 ⟨members, hmembers, hinner⟩
  exact ⟨inner, hmessages (List.mem_singleton_self inner), describes_of_message hread⟩

theorem Describes.exists_mapField {dialect : Schema.Dialect} {items : List MessageItem}
    {result : Schema.Message} (h : Describes dialect items result) {decl : MapDecl}
    (hitem : .mapField decl ∈ items) :
    ∃ field ∈ result.fields, decl.toField result.fullName = .ok field
      ∧ decl.entry result.fullName ∈ result.messages := by
  rcases h.exists_members hitem with ⟨part, hpart, hfields, hmessages⟩
  rcases bind_eq_ok_iff.1 hpart with ⟨field, hfield, hpart⟩
  cases hpart
  exact ⟨field, hfields (List.mem_singleton_self field), hfield,
    hmessages (List.mem_singleton_self _)⟩

/--
`DeclaresField items decl oneof`: among the parts of a message is this field, in the group of
exclusive fields of that name if it is in one.
-/
inductive DeclaresField (items : List MessageItem) : FieldDecl → Option String → Prop where
  | alone {decl : FieldDecl} : .field decl ∈ items → DeclaresField items decl none
  | grouped {group : OneofDecl} {decl : FieldDecl} :
    .oneof group ∈ items → .field decl ∈ group.items → DeclaresField items decl (some group.name)

theorem exists_mem_toFields.go {dialect : Schema.Dialect} {group : OneofDecl}
    {items : List OneofItem} {fields : List Schema.Field}
    (h : OneofDecl.toFields.go dialect group items = .ok fields) {decl : FieldDecl}
    (hdecl : .field decl ∈ items) :
    ∃ field ∈ fields, decl.toField dialect (some group.name) = .ok field := by
  induction items generalizing fields with
  | nil => cases hdecl
  | cons item items ih =>
    cases item with
    | skipped => exact ih h ((List.mem_cons.1 hdecl).resolve_left nofun)
    | field other =>
      rcases bind_eq_ok_iff.1 h with ⟨first, hfirst, h⟩
      rcases bind_eq_ok_iff.1 h with ⟨others, hothers, hfields⟩
      cases hfields
      rcases List.mem_cons.1 hdecl with heq | hdecl
      . cases heq
        exact ⟨first, List.mem_cons_self, hfirst⟩
      . rcases ih hothers hdecl with ⟨field, hfield, hread⟩
        exact ⟨field, List.mem_cons_of_mem _ hfield, hread⟩

theorem Describes.exists_field {dialect : Schema.Dialect} {items : List MessageItem}
    {result : Schema.Message} (h : Describes dialect items result) {decl : FieldDecl}
    {oneof : Option String} (hdecl : DeclaresField items decl oneof) :
    ∃ field ∈ result.fields, decl.toField dialect oneof = .ok field := by
  cases hdecl with
  | alone hitem =>
    rcases h.exists_members hitem with ⟨part, hpart, hfields, -⟩
    rcases bind_eq_ok_iff.1 hpart with ⟨field, hfield, hpart⟩
    cases hpart
    exact ⟨field, hfields (List.mem_singleton_self field), hfield⟩
  | grouped hitem hdecl =>
    rcases h.exists_members hitem with ⟨part, hpart, hfields, -⟩
    rcases bind_eq_ok_iff.1 hpart with ⟨fields, hgroup, hpart⟩
    cases hpart
    rcases exists_mem_toFields.go hgroup hdecl with ⟨field, hfield, hread⟩
    exact ⟨field, hfields hfield, hread⟩

theorem exists_mem_definitions {dialect : Schema.Dialect} {package : Option String}
    {statements : List Statement} {messages : List Schema.Message} {enums : List Schema.Enum}
    (h : FileTree.definitions dialect package statements = .ok (messages, enums)) {name : String}
    {items : List MessageItem} (hmem : .message name items ∈ statements) :
    ∃ result ∈ messages, message dialect package name items = .ok result := by
  induction statements generalizing messages enums with
  | nil => cases hmem
  | cons statement statements ih =>
    cases statement with
    | message first firstItems =>
      rcases bind_eq_ok_iff.1 h with ⟨result, hresult, h⟩
      rcases bind_eq_ok_iff.1 h with ⟨⟨others, enums⟩, hothers, h⟩
      cases h
      rcases List.mem_cons.1 hmem with heq | hmem
      . cases heq
        exact ⟨result, List.mem_cons_self, hresult⟩
      . rcases ih hothers hmem with ⟨other, hother, hread⟩
        exact ⟨other, List.mem_cons_of_mem _ hother, hread⟩
    | enum decl =>
      rcases bind_eq_ok_iff.1 h with ⟨first, -, h⟩
      rcases bind_eq_ok_iff.1 h with ⟨⟨messages, others⟩, hothers, h⟩
      cases h
      exact ih hothers ((List.mem_cons.1 hmem).resolve_left nofun)
    | importFile literal => exact ih h ((List.mem_cons.1 hmem).resolve_left nofun)
    | package name => exact ih h ((List.mem_cons.1 hmem).resolve_left nofun)
    | option assignment => exact ih h ((List.mem_cons.1 hmem).resolve_left nofun)
    | skipped => exact ih h ((List.mem_cons.1 hmem).resolve_left nofun)

theorem exists_top_of_toFile {tree : FileTree} {name : String} {file : Schema.File}
    (h : tree.toFile name = .ok file) {first : String} {items : List MessageItem}
    (hmem : .message first items ∈ tree.statements) :
    ∃ result ∈ file.messages, result.name = first ∧ Describes file.dialect items result := by
  rcases bind_eq_ok_iff.1 h with ⟨dialect, -, h⟩
  rcases bind_eq_ok_iff.1 h with ⟨imports, -, h⟩
  rcases bind_eq_ok_iff.1 h with ⟨goPackage, -, h⟩
  rcases bind_eq_ok_iff.1 h with ⟨⟨messages, enums⟩, hdefinitions, hfile⟩
  cases hfile
  rcases exists_mem_definitions hdefinitions hmem with ⟨result, hresult, hread⟩
  exact ⟨result, hresult, describes_of_message hread⟩

theorem exists_located_of_declared {tree : FileTree} {name : String} {file : Schema.File}
    (h : tree.toFile name = .ok file) {chain : List String} {items : List MessageItem}
    (hdeclared : Declared tree chain items) :
    ∃ message, Located file chain message ∧ Describes file.dialect items message := by
  induction hdeclared with
  | top hmem =>
    rcases exists_top_of_toFile h hmem with ⟨result, hresult, rfl, hdescribes⟩
    exact ⟨result, .top hresult, hdescribes⟩
  | inner _ hmem ih =>
    rcases ih with ⟨message, hlocated, hdescribes⟩
    rcases hdescribes.exists_inner hmem with ⟨inner, hinner, rfl, hdescribes⟩
    exact ⟨inner, hlocated.inner hinner, hdescribes⟩

end Source

end HessianGo
