import HessianGo.Proofs.Source.Literal
import HessianGo.Source.Schema

/-!
This module contains forests of messages: the messages of a file with their fields, map fields,
groups of exclusive fields, nested messages and option blocks. A forest has tokens, as it is written
in a schema, and a schema file, which it describes. The main result is that the source tree of a
forest describes the same file.
-/

namespace HessianGo

namespace Source

/-! ### Forests -/

structure Ident where
  text : String
  isName : IsName text

structure WrittenType where
  type : Schema.FieldType
  isWritten : IsWritten type

/--
What fields of all kinds have: a name, a number and possibly an option block that says whether the
field is a boxed value.
-/
structure Slot where
  name : Ident
  number : UInt32
  isWrapper : Option Bool

structure PlainField where
  label : Schema.Label
  type : WrittenType
  slot : Slot

inductive Setting where
  | javaClassName (value : String)
  | referencePath (value : String)
  | extendArgs (value : Bool)
  | isInheritance (value : Bool)

inductive Separator where
  | none
  | comma
  | semicolon

inductive Element where
  | field (plain : PlainField)
  | map (key : Schema.ScalarType) (value : WrittenType) (slot : Slot)
  | oneof (name : Ident) (fields : List PlainField)
  | message (name : Ident) (elements : List Element)
  | options (entries : List (Setting × Separator))

structure Tree where
  name : Ident
  elements : List Element

/--
The messages of a file, those before and those after its package statement. A package that is absent
is absent between the two.
-/
structure Forest where
  dialect : Option Schema.Dialect
  isNamed : dialect ≠ some .editions
  before : List Tree
  package : Option String
  isPath : ∀ path ∈ package, IsPath path
  after : List Tree

/-! ### Tokens -/

def extensionPath (q : List Ident) (extension : String) : String :=
  ".".intercalate (q.map Ident.text ++ [extension])

def labelText : Schema.Label → String
  | .optional => "optional"
  | .required => "required"
  | .repeated => "repeated"

def Separator.tokens : Separator → List String
  | none => []
  | comma => [","]
  | semicolon => [";"]

namespace Setting

def key : Setting → String
  | javaClassName _ => "java_class_name"
  | referencePath _ => "reference_path"
  | extendArgs _ => "extend_args"
  | isInheritance _ => "is_inheritance"

def valueText : Setting → String
  | javaClassName value => Code.quote value
  | referencePath value => Code.quote value
  | extendArgs value => toString value
  | isInheritance value => toString value

end Setting

def dialectTokens : Option Schema.Dialect → List String
  | some .proto2 => ["syntax", "=", Code.quote "proto2", ";"]
  | some .proto3 => ["syntax", "=", Code.quote "proto3", ";"]
  | _ => []

def packageTokens : Option String → List String
  | some path => ["package", path, ";"]
  | none => []

def entryTokens (entry : Setting × Separator) : List String :=
  entry.1.key :: ":" :: entry.1.valueText :: entry.2.tokens

section

variable (q : List Ident)

def Slot.optionTokens (slot : Slot) : List String :=
  match slot.isWrapper with
  | none => []
  | some value =>
    ["[", "(", extensionPath q "field_extend", ")", "=", "\x7b", "is_wrapper", ":", toString value,
     "\x7d", "]"]

def Slot.tokens (slot : Slot) : List String :=
  slot.name.text :: "=" :: toString slot.number.toNat :: (slot.optionTokens q ++ [";"])

def PlainField.tokens (field : PlainField) : List String :=
  labelText field.label :: typeText field.type.type :: field.slot.tokens q

mutual

def Element.tokens : Element → List String
  | .field plain => plain.tokens q
  | .map key value slot =>
    "map" :: "<" :: key.word :: "," :: typeText value.type :: ">" :: slot.tokens q
  | .oneof name fields =>
    "oneof" :: name.text :: "\x7b" :: (fields.flatMap (PlainField.tokens q) ++ ["\x7d"])
  | .message name elements =>
    "message" :: name.text :: "\x7b" :: (Element.tokensOfList elements ++ ["\x7d"])
  | .options entries =>
    "option" :: "(" :: extensionPath q "message_extend" :: ")" :: "=" :: "\x7b"
      :: (entries.flatMap entryTokens ++ ["\x7d", ";"])

def Element.tokensOfList : List Element → List String
  | [] => []
  | element :: elements => element.tokens ++ Element.tokensOfList elements

end

def Tree.tokens (tree : Tree) : List String :=
  "message" :: tree.name.text :: "\x7b" :: (Element.tokensOfList q tree.elements ++ ["\x7d"])

/--
The tokens of a forest in which the extensions have the package `q`.
-/
def Forest.tokens (forest : Forest) : List String :=
  dialectTokens forest.dialect
    ++ (forest.before.flatMap (Tree.tokens q)
    ++ (packageTokens forest.package
    ++ forest.after.flatMap (Tree.tokens q)))

end

/-! ### The file that a forest describes -/

def Setting.apply (block : Schema.MessageOptions) : Setting → Schema.MessageOptions
  | javaClassName value => { block with javaClassName := value }
  | referencePath value => { block with referencePath := value }
  | extendArgs value => { block with extendArgs := value }
  | isInheritance value => { block with isInheritance := value }

def Slot.options (slot : Slot) : Option Schema.FieldOptions :=
  slot.isWrapper.map fun value => { isWrapper := value }

def PlainField.schema (oneof : Option String) (field : PlainField) : Schema.Field :=
  { name := field.slot.name.text
    number := field.slot.number
    label := field.label
    type := field.type.type
    oneof
    options := field.slot.options }

namespace Element

def fields (scope : String) : Element → List Schema.Field
  | .field plain => [plain.schema none]
  | .map _ _ slot =>
    [{ name := slot.name.text
       number := slot.number
       label := .repeated
       type := .message (Schema.qualify (some scope) (entryName slot.name.text))
       options := slot.options }]
  | .oneof name fields => fields.map (PlainField.schema (some name.text))
  | .message _ _ => []
  | .options _ => []

def oneofs : Element → List String
  | .oneof name _ => [name.text]
  | _ => []

def settings? : Element → Option (List Setting)
  | .options entries => some (entries.map Prod.fst)
  | _ => none

end Element

def blockOf (elements : List Element) : Option Schema.MessageOptions :=
  match elements.filterMap Element.settings? with
  | [] => none
  | settings => some (settings.flatten.foldl Setting.apply {})

def messageOf (name fullName : String) (elements : List Element) (inner : List Schema.Message) :
    Schema.Message :=
  { name
    fullName
    fields := elements.flatMap (Element.fields fullName)
    messages := inner
    oneofs := elements.flatMap Element.oneofs
    options := blockOf elements }

mutual

def Element.messages (scope : String) : Element → List Schema.Message
  | .map key value slot =>
    let name := entryName slot.name.text
    [{ name
       fullName := Schema.qualify (some scope) name
       fields := [
         { name := "key", number := 1, type := .scalar key },
         { name := "value", number := 2, type := value.type }]
       isMapEntry := true }]
  | .message name elements =>
    let fullName := Schema.qualify (some scope) name.text
    [messageOf name.text fullName elements (Element.messagesOfList fullName elements)]
  | .field _ => []
  | .oneof _ _ => []
  | .options _ => []

def Element.messagesOfList (scope : String) : List Element → List Schema.Message
  | [] => []
  | element :: elements => element.messages scope ++ Element.messagesOfList scope elements

end

def Tree.schema (package : Option String) (tree : Tree) : Schema.Message :=
  let fullName := Schema.qualify package tree.name.text
  messageOf tree.name.text fullName tree.elements (Element.messagesOfList fullName tree.elements)

def Forest.schema (name : String) (forest : Forest) : Schema.File :=
  { name
    package := forest.package
    dialect := forest.dialect.getD .proto2
    messages := (forest.before ++ forest.after).map (Tree.schema forest.package) }

/-! ### The source tree of a forest -/

section

variable (q : List Ident)

def dialectClause? : Option Schema.Dialect → Option DialectClause
  | some .proto2 => some (.byName (Code.quote "proto2"))
  | some .proto3 => some (.byName (Code.quote "proto3"))
  | _ => none

def Slot.assignments (slot : Slot) : List OptionAssignment :=
  slot.isWrapper.toList.map fun value =>
    { extension := some (extensionPath q "field_extend")
      path := []
      value := .aggregate [("is_wrapper", .constant (toString value))] }

def PlainField.decl (field : PlainField) : FieldDecl :=
  { label := field.label
    type := field.type.type
    name := field.slot.name.text
    number := toString field.slot.number.toNat
    options := field.slot.assignments q }

def blockAssignment (entries : List (Setting × Separator)) : OptionAssignment :=
  { extension := some (extensionPath q "message_extend")
    path := []
    value := .aggregate (entries.map fun entry => (entry.1.key, .constant entry.1.valueText)) }

def Element.assignments : Element → List OptionAssignment
  | .options entries => [blockAssignment q entries]
  | _ => []

mutual

def Element.item : Element → MessageItem
  | .field plain => .field (plain.decl q)
  | .map key value slot =>
    .mapField
      { key
        value := value.type
        name := slot.name.text
        number := toString slot.number.toNat
        options := slot.assignments q }
  | .oneof name fields =>
    .oneof { name := name.text, items := fields.map fun field => .field (field.decl q) }
  | .message name elements => .message name.text (Element.itemsOfList elements)
  | .options entries => .option (blockAssignment q entries)

def Element.itemsOfList : List Element → List MessageItem
  | [] => []
  | element :: elements => element.item :: Element.itemsOfList elements

end

def Tree.statement (tree : Tree) : Statement :=
  .message tree.name.text (Element.itemsOfList q tree.elements)

def Forest.sourceTree (forest : Forest) : FileTree :=
  { dialect := dialectClause? forest.dialect
    statements := forest.before.map (Tree.statement q)
      ++ (forest.package.toList.map .package ++ forest.after.map (Tree.statement q)) }

end

/-! ### Options of fields and messages -/

theorem lastPiece_append {sep : Char} {after : List Char} (h : sep ∉ after) (before : List Char) :
    Text.lastPiece sep (before ++ sep :: after) = after := by
  simp [Text.lastPiece, Text.cutLast_append h before]

theorem toList_extensionPath (q : List Ident) (extension : String) :
    (extensionPath q extension).toList = extension.toList
      ∨ ∃ before, (extensionPath q extension).toList = before ++ '.' :: extension.toList := by
  unfold extensionPath
  cases q with
  | nil => exact .inl (by simp)
  | cons first q =>
    right
    rw [List.map_cons, List.cons_append, toList_intercalate_dot]
    exact ⟨first.text.toList ++ (q.map Ident.text).flatMap fun name => '.' :: name.toList, by simp⟩

theorem lastPiece_extensionPath (q : List Ident) {extension : String}
    (h : '.' ∉ extension.toList) :
    Text.lastPiece '.' (extensionPath q extension).toList = extension.toList := by
  rcases toList_extensionPath q extension with hpath | ⟨before, hpath⟩
  . rw [hpath]
    simp [Text.lastPiece, Text.cutLast_eq_none_iff.2 h]
  . rw [hpath]
    exact lastPiece_append h before

theorem isTo_extensionPath (q : List Ident) {extension : String} (h : '.' ∉ extension.toList)
    (path : List String) (value : OptionValue) :
    OptionAssignment.isTo { extension := some (extensionPath q extension), path, value }
      extension := by
  simp [OptionAssignment.isTo, lastPiece_extensionPath q h]

theorem extend_aggregate {Block ι : Type} {kind : BlockKind Block}
    {entry : ι → String × OptionValue} {apply : Block → ι → Block}
    (h : ∀ block item, kind.assign block (entry item) = .ok (apply block item))
    (extension : Option String) (items : List ι) (block : Option Block) :
    kind.extend block { extension, path := [], value := .aggregate (items.map entry) }
      =
    .ok (some (items.foldl apply (block.getD kind.initial))) := by
  have hentries : ∀ start, (items.map entry).foldlM kind.assign start
      = .ok (items.foldl apply start) := by
    induction items with
    | nil => exact fun _ => rfl
    | cons item items ih =>
      intro start
      rw [List.map_cons, List.foldlM_cons, h]
      exact ih _
  change (do
    let block ← (items.map entry).foldlM kind.assign (block.getD kind.initial)
    return some block : Except Schema.OptionFault (Option Block)) = _
  rw [hentries]
  rfl

theorem read_eq_foldlM {Block : Type} {kind : BlockKind Block} {assignments : List OptionAssignment}
    (h : ∀ assignment ∈ assignments, assignment.isTo kind.extension) :
    kind.read assignments = assignments.foldlM kind.extend none := by
  unfold BlockKind.read
  rw [List.filter_eq_self.2 h]

theorem fieldBlock_read_assignments (q : List Ident) (slot : Slot) :
    fieldBlock.read (slot.assignments q) = .ok slot.options := by
  have hassign : ∀ (block : Schema.FieldOptions) (value : Bool),
      fieldBlock.assign block ("is_wrapper", .constant (toString value))
        = .ok { isWrapper := value } := by
    intro block value
    cases value
    all_goals rfl
  rw [read_eq_foldlM]
  . unfold Slot.assignments Slot.options
    cases slot.isWrapper with
    | none => rfl
    | some value =>
      have hextend := extend_aggregate hassign (some (extensionPath q "field_extend")) [value] none
      exact congrArg (· >>= _) hextend
  . intro assignment hassignment
    rcases List.mem_map.1 hassignment with ⟨value, -, rfl⟩
    exact isTo_extensionPath q (by decide) _ _

theorem messageBlock_assign (block : Schema.MessageOptions) (setting : Setting) :
    messageBlock.assign block (setting.key, .constant setting.valueText)
      =
    .ok (setting.apply block) := by
  have hstring : ∀ key value,
      OptionValue.string key (.constant (Code.quote value)) = .ok value := by
    intro key value
    have hquoted := StringLiteral.isQuoted_of_isLiteralOf (Code.isLiteralOf_quote value)
    rw [OptionValue.string, if_pos hquoted, StringLiteral.text_quote]
  have hbool : ∀ key (value : Bool), OptionValue.bool key (.constant (toString value))
      = .ok value := by
    intro key value
    cases value
    all_goals rfl
  cases setting with
  | javaClassName value => exact bind_eq_ok_iff.2 ⟨value, hstring "java_class_name" value, rfl⟩
  | referencePath value => exact bind_eq_ok_iff.2 ⟨value, hstring "reference_path" value, rfl⟩
  | extendArgs value => exact bind_eq_ok_iff.2 ⟨value, hbool "extend_args" value, rfl⟩
  | isInheritance value => exact bind_eq_ok_iff.2 ⟨value, hbool "is_inheritance" value, rfl⟩

theorem isTo_of_mem_assignments {q : List Ident} {elements : List Element}
    {assignment : OptionAssignment} (h : assignment ∈ elements.flatMap (Element.assignments q)) :
    assignment.isTo messageBlock.extension := by
  rcases List.mem_flatMap.1 h with ⟨element, -, hassignment⟩
  cases element with
  | options entries =>
    rw [Element.assignments, List.mem_singleton] at hassignment
    rw [hassignment]
    exact isTo_extensionPath q (by decide) _ _
  | field _ => cases hassignment
  | map _ _ _ => cases hassignment
  | oneof _ _ => cases hassignment
  | message _ _ => cases hassignment

theorem foldlM_assignments (q : List Ident) (elements : List Element)
    (block : Option Schema.MessageOptions) :
    (elements.flatMap (Element.assignments q)).foldlM messageBlock.extend block
      =
    .ok (match elements.filterMap Element.settings? with
      | [] => block
      | settings => some (settings.flatten.foldl Setting.apply (block.getD {}))) := by
  induction elements generalizing block with
  | nil => rfl
  | cons element elements ih =>
    cases element with
    | options entries =>
      have hextend : messageBlock.extend block (blockAssignment q entries)
          = .ok (some ((entries.map Prod.fst).foldl Setting.apply (block.getD {}))) := by
        rw [List.foldl_map]
        exact extend_aggregate (fun block entry => messageBlock_assign block entry.1) _ entries
          block
      rw [List.flatMap_cons, Element.assignments, List.singleton_append, List.foldlM_cons, hextend]
      change List.foldlM _ _ _ = _
      have hsettings : (.options entries :: elements).filterMap Element.settings?
          = entries.map Prod.fst :: elements.filterMap Element.settings? := rfl
      rw [ih, hsettings]
      cases elements.filterMap Element.settings? with
      | nil => simp
      | cons settings others => simp
    | field _ => exact ih block
    | map _ _ _ => exact ih block
    | oneof _ _ => exact ih block
    | message _ _ => exact ih block

theorem messageBlock_read_assignments (q : List Ident) (elements : List Element) :
    messageBlock.read (elements.flatMap (Element.assignments q)) = .ok (blockOf elements) := by
  rw [read_eq_foldlM fun _ hassignment => isTo_of_mem_assignments hassignment]
  rw [foldlM_assignments]
  rfl

/-! ### What the source tree describes -/

theorem fieldNumber_toString_toNat (number : UInt32) :
    IntegerLiteral.fieldNumber (toString number.toNat) = .ok number :=
  fieldNumber_toString number

theorem defaultValue_assignments (dialect : Schema.Dialect) (type : Schema.FieldType)
    (q : List Ident) (slot : Slot) : defaultValue dialect type (slot.assignments q) = .ok none := by
  unfold Slot.assignments
  cases slot.isWrapper with
  | none => rfl
  | some value => rfl

theorem PlainField.toField_decl (dialect : Schema.Dialect) (oneof : Option String) (q : List Ident)
    (field : PlainField) : (field.decl q).toField dialect oneof = .ok (field.schema oneof) := by
  unfold FieldDecl.toField PlainField.decl
  dsimp only
  rw [fieldNumber_toString_toNat, defaultValue_assignments, fieldBlock_read_assignments]
  rfl

theorem toFields.go_map (dialect : Schema.Dialect) (q : List Ident) (decl : OneofDecl)
    (fields : List PlainField) :
    OneofDecl.toFields.go dialect decl (fields.map fun field => .field (field.decl q))
      =
    .ok (fields.map (PlainField.schema (some decl.name))) := by
  induction fields with
  | nil => rfl
  | cons field fields ih =>
    rw [List.map_cons, OneofDecl.toFields.go, field.toField_decl, ih]
    rfl

theorem MapDecl.toField_eq (scope : String) {decl : MapDecl} {slot : Slot} {q : List Ident}
    (hname : decl.name = slot.name.text) (hnumber : decl.number = toString slot.number.toNat)
    (hoptions : decl.options = slot.assignments q) :
    decl.toField scope
      =
    .ok { name := slot.name.text
          number := slot.number
          label := .repeated
          type := .message (Schema.qualify (some scope) (entryName slot.name.text))
          options := slot.options } := by
  unfold MapDecl.toField
  rw [hnumber, hoptions, fieldNumber_toString_toNat, fieldBlock_read_assignments, ← hname]
  rfl

def Element.members (q : List Ident) (scope : String) (element : Element) : Members :=
  { fields := element.fields scope
    messages := element.messages scope
    oneofs := element.oneofs
    assignments := element.assignments q }

def Element.membersOfList (q : List Ident) (scope : String) (elements : List Element) : Members :=
  { fields := elements.flatMap (Element.fields scope)
    messages := Element.messagesOfList scope elements
    oneofs := elements.flatMap Element.oneofs
    assignments := elements.flatMap (Element.assignments q) }

theorem toMessage_membersOfList (q : List Ident) (name fullName : String)
    (elements : List Element) :
    (Element.membersOfList q fullName elements).toMessage name fullName
      =
    .ok (messageOf name fullName elements (Element.messagesOfList fullName elements)) := by
  unfold Members.toMessage Element.membersOfList
  dsimp only
  rw [messageBlock_read_assignments]
  rfl

-- The recursion is the one of `Element.item`: a message inside makes its own full name the scope of
-- its parts.
mutual

theorem members_item (dialect : Schema.Dialect) (q : List Ident) (scope : String) :
    (element : Element) →
      (element.item q).members dialect scope = .ok (element.members q scope)
  | .field plain => by
    rw [Element.item, MessageItem.members, plain.toField_decl]
    rfl
  | .map key value slot => by
    rw [Element.item, MessageItem.members, MapDecl.toField_eq scope rfl rfl rfl]
    rfl
  | .oneof name fields => by
    rw [Element.item, MessageItem.members, OneofDecl.toFields, toFields.go_map]
    rfl
  | .message name elements => by
    rw [Element.item, MessageItem.members, membersOfList_itemsOfList]
    change (Members.toMessage _ _ _ >>= _) = _
    rw [toMessage_membersOfList]
    rfl
  | .options entries => rfl

theorem membersOfList_itemsOfList (dialect : Schema.Dialect) (q : List Ident) (scope : String) :
    (elements : List Element) →
      MessageItem.membersOfList dialect scope (Element.itemsOfList q elements)
        =
      .ok (Element.membersOfList q scope elements)
  | [] => rfl
  | element :: elements => by
    rw [Element.itemsOfList, MessageItem.membersOfList, members_item, membersOfList_itemsOfList]
    rfl

end

theorem message_itemsOfList (dialect : Schema.Dialect) (package : Option String) (q : List Ident)
    (tree : Tree) :
    message dialect package tree.name.text (Element.itemsOfList q tree.elements)
      =
    .ok (tree.schema package) := by
  unfold message
  dsimp only
  rw [membersOfList_itemsOfList]
  exact toMessage_membersOfList q _ _ _

theorem imports_eq_nil {statements : List Statement}
    (h : ∀ statement ∈ statements, ∀ literal, statement ≠ .importFile literal) :
    FileTree.imports statements = .ok [] := by
  induction statements with
  | nil => rfl
  | cons statement statements ih =>
    simp only [List.mem_cons, forall_eq_or_imp] at h
    cases statement with
    | importFile literal => exact absurd rfl (h.1 literal)
    | package _ => exact ih h.2
    | option _ => exact ih h.2
    | message _ _ => exact ih h.2
    | enum _ => exact ih h.2
    | skipped => exact ih h.2

theorem definitions_append {dialect : Schema.Dialect} {package : Option String} (q : List Ident)
    (trees : List Tree) {statements : List Statement} {messages : List Schema.Message}
    {enums : List Schema.Enum}
    (h : FileTree.definitions dialect package statements = .ok (messages, enums)) :
    FileTree.definitions dialect package (trees.map (Tree.statement q) ++ statements)
      =
    .ok (trees.map (Tree.schema package) ++ messages, enums) := by
  induction trees with
  | nil => exact h
  | cons tree trees ih =>
    rw [List.map_cons, List.cons_append, Tree.statement, FileTree.definitions, message_itemsOfList,
      ih]
    rfl

namespace Forest

theorem dialect_sourceTree (q : List Ident) (forest : Forest) :
    DialectClause.dialect (forest.sourceTree q).dialect = .ok (forest.dialect.getD .proto2) := by
  unfold sourceTree
  dsimp only
  cases h : forest.dialect with
  | none => rfl
  | some dialect =>
    cases dialect with
    | proto2 => rfl
    | proto3 => rfl
    | editions => exact absurd h forest.isNamed

theorem mem_sourceTree {q : List Ident} {forest : Forest} {statement : Statement}
    (h : statement ∈ (forest.sourceTree q).statements) :
    (∃ tree : Tree, statement = tree.statement q) ∨ ∃ path, statement = .package path := by
  simp only [sourceTree, List.mem_append, List.mem_map] at h
  rcases h with ⟨tree, -, rfl⟩ | ⟨path, -, rfl⟩ | ⟨tree, -, rfl⟩
  . exact .inl ⟨tree, rfl⟩
  . exact .inr ⟨path, rfl⟩
  . exact .inl ⟨tree, rfl⟩

theorem imports_sourceTree (q : List Ident) (forest : Forest) :
    FileTree.imports (forest.sourceTree q).statements = .ok [] := by
  apply imports_eq_nil
  rintro statement hstatement literal rfl
  rcases mem_sourceTree hstatement with ⟨tree, htree⟩ | ⟨path, hpath⟩
  . cases htree
  . cases hpath

theorem assignments_sourceTree (q : List Ident) (forest : Forest) :
    (forest.sourceTree q).assignments = [] := by
  apply List.filterMap_eq_nil_iff.2
  intro statement hstatement
  rcases mem_sourceTree hstatement with ⟨tree, rfl⟩ | ⟨path, rfl⟩
  . rfl
  . rfl

theorem package?_sourceTree (q : List Ident) (forest : Forest) :
    (forest.sourceTree q).package? = forest.package := by
  have hnone : ∀ f : Statement → Option String, (∀ tree : Tree, f (tree.statement q) = none) →
      ∀ trees : List Tree, (trees.map (Tree.statement q)).reverse.findSome? f = none := by
    intro f hf trees
    rw [List.findSome?_eq_none_iff]
    intro statement hstatement
    rw [List.mem_reverse, List.mem_map] at hstatement
    rcases hstatement with ⟨tree, -, rfl⟩
    exact hf tree
  unfold FileTree.package? sourceTree
  dsimp only
  rw [List.reverse_append, List.reverse_append, List.findSome?_append, List.findSome?_append]
  rw [hnone _ fun _ => rfl, hnone _ fun _ => rfl]
  cases forest.package with
  | none => rfl
  | some path => rfl

theorem definitions_sourceTree (dialect : Schema.Dialect) (q : List Ident) (forest : Forest) :
    FileTree.definitions dialect forest.package (forest.sourceTree q).statements
      =
    .ok ((forest.before ++ forest.after).map (Tree.schema forest.package), []) := by
  have hpackage : ∀ (path? : Option String) (statements : List Statement),
      FileTree.definitions dialect forest.package (path?.toList.map .package ++ statements)
        = FileTree.definitions dialect forest.package statements := by
    intro path? statements
    cases path? with
    | none => rfl
    | some path => rfl
  have hnil : FileTree.definitions dialect forest.package [] = .ok ([], []) := rfl
  have hafter := definitions_append q forest.after hnil
  rw [List.append_nil, List.append_nil] at hafter
  rw [List.map_append]
  apply definitions_append
  rw [hpackage]
  exact hafter

theorem toFile_sourceTree (q : List Ident) (name : String) (forest : Forest) :
    (forest.sourceTree q).toFile name = .ok (forest.schema name) := by
  unfold FileTree.toFile
  rw [package?_sourceTree, imports_sourceTree, assignments_sourceTree, dialect_sourceTree]
  change (FileTree.definitions (forest.dialect.getD .proto2) forest.package
    (forest.sourceTree q).statements >>= _) = _
  rw [definitions_sourceTree]
  rfl

end Forest

end Source

end HessianGo
