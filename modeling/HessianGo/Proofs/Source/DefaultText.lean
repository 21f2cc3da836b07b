import HessianGo.Proofs.Source.Declared
import HessianGo.Proofs.Source.ForestText

/-!
This module contains the texts of files with a field whose default is the literal of a text or of
bytes. The field stands among any other parts of a message, at any depth, and the file that is read
from the text has the field with just that default.
-/

namespace HessianGo

namespace Source

variable {n bound : Nat} {rest : List String}

/-! ### Fields -/

inductive LiteralDefault where
  | text (value : String)
  | bytes (value : List UInt8)

namespace LiteralDefault

def type : LiteralDefault → Schema.ScalarType
  | text _ => .string
  | bytes _ => .bytes

def literal : LiteralDefault → String
  | text value => Code.quote value
  | bytes value => Code.quoteBytes value

def schema : LiteralDefault → Schema.DefaultValue
  | text value => .text value
  | bytes value => .bytes value

theorem exists_isLiteralOf (default : LiteralDefault) :
    ∃ bytes, Code.IsLiteralOf bytes default.literal := by
  cases default with
  | text value => exact ⟨_, Code.isLiteralOf_quote value⟩
  | bytes value => exact ⟨_, Code.isLiteralOf_quoteBytes value⟩

end LiteralDefault

structure LiteralField where
  name : Ident
  number : UInt32
  default : LiteralDefault

namespace LiteralField

def tokens (field : LiteralField) : List String :=
  ["optional", field.default.type.word, field.name.text, "=", toString field.number.toNat, "[",
   "default", "=", field.default.literal, "]", ";"]

def schema (field : LiteralField) : Schema.Field :=
  { name := field.name.text
    number := field.number
    type := .scalar field.default.type
    defaultValue := some field.default.schema }

def decl (field : LiteralField) : FieldDecl :=
  { label := .optional
    type := .scalar field.default.type
    name := field.name.text
    number := toString field.number.toNat
    options :=
      [{ extension := none, path := ["default"], value := .constant field.default.literal }] }

theorem reads_assignment (field : LiteralField) (hbound : n ≤ bound) :
    Reads n (assignment bound) ("default" :: "=" :: field.default.literal :: rest) rest
      { extension := none, path := ["default"], value := .constant field.default.literal } := by
  rcases field.default.exists_isLiteralOf with ⟨bytes, hliteral⟩
  apply Reads.of_length_lt (by simp; omega)
  intro hlt
  exact ((isConstant_literal hliteral).reads_optionValue (by omega)).assignment (by decide) hbound

theorem reads_field (field : LiteralField) (hbound : n ≤ bound) :
    Reads n (Source.field bound) (field.tokens ++ rest) rest field.decl := by
  have hoptions : Reads n (trailingOptions bound)
      ("[" :: "default" :: "=" :: field.default.literal :: "]" :: ";" :: rest) (";" :: rest)
      field.decl.options := by
    apply Reads.orElse_left
    apply (reads_symbol rfl).bind
    apply (field.reads_assignment hbound).bind
    apply ((fails_symbol (by decide)).bind.many_nil hbound).bind
    exact (reads_symbol rfl).bind (.pure _)
  apply (reads_label .optional).bind
  apply (reads_fieldType (show IsWritten (.scalar field.default.type) from .intro) hbound).bind
  apply (reads_name field.name.isName).bind
  apply (reads_symbol rfl).bind
  apply (reads_integer field.number.toNat).bind
  apply hoptions.bind
  exact (reads_symbol rfl).bind (.pure _)

theorem reads_messageItem (field : LiteralField) {depth : Nat} (hdepth : n ≤ depth)
    (hbound : n ≤ bound) :
    Reads n (messageItem bound depth) (field.tokens ++ rest) rest (.field field.decl) := by
  cases depth with
  | zero =>
    apply Reads.of_length_lt (by simp)
    intro hlt
    omega
  | succ depth =>
    let type : WrittenType := ⟨.scalar field.default.type, .intro⟩
    have hfield : Reads n (Source.field bound)
        (labelText .optional :: typeText type.type :: field.name.text
          :: (field.tokens.drop 3 ++ rest)) rest field.decl :=
      field.reads_field hbound
    exact hfield.messageItem_field hbound

theorem toField_decl (field : LiteralField) :
    field.decl.toField .proto2 none = .ok field.schema := by
  have hdefault : defaultValue .proto2 (.scalar field.default.type) field.decl.options
      = .ok (some field.default.schema) := by
    rcases field with ⟨name, number, value | value⟩
    . have hquoted := StringLiteral.isQuoted_of_isLiteralOf (Code.isLiteralOf_quote value)
      change (some ∘ Schema.DefaultValue.text)
        <$> OptionValue.string "default" (.constant (Code.quote value)) = _
      rw [OptionValue.string, if_pos hquoted, StringLiteral.text_quote]
      rfl
    . have hliteral := Code.isLiteralOf_quoteBytes value
      change (if StringLiteral.isQuoted (Code.quoteBytes value) then
        (some ∘ Schema.DefaultValue.bytes) <$> StringLiteral.bytes (Code.quoteBytes value)
      else
        .error (.expectsString "default")) = _
      rw [if_pos (StringLiteral.isQuoted_of_isLiteralOf hliteral),
        StringLiteral.bytes_of_isLiteralOf hliteral]
      rfl
  unfold FieldDecl.toField
  rw [show field.decl.type = .scalar field.default.type from rfl, hdefault]
  rw [show field.decl.number = toString field.number.toNat from rfl, fieldNumber_toString_toNat]
  rfl

end LiteralField

/-! ### Parts between elements -/

theorem reads_between (q : List Ident) (before after : List Element) {part : List String}
    {item : MessageItem} {depth : Nat} (hpart : part ≠ [])
    (h : ∀ after, Reads n (messageItem bound depth) (part ++ after) after item) (hdepth : n ≤ depth)
    (hbound : n ≤ bound) :
    Reads n (Reader.many (messageItem bound depth) bound)
      (Element.tokensOfList q before ++ (part ++ Element.tokensOfList q after) ++ "\x7d" :: rest)
      ("\x7d" :: rest)
      (Element.itemsOfList q before ++ item :: Element.itemsOfList q after) := by
  let parts : List (List String × MessageItem) :=
    before.map (fun element => (element.tokens q, element.item q))
      ++ (part, item) :: after.map (fun element => (element.tokens q, element.item q))
  have hparts : ∀ found ∈ parts, found = (part, item)
      ∨ ∃ element : Element, found = (element.tokens q, element.item q) := by
    intro found hfound
    simp only [parts, List.mem_append, List.mem_cons, List.mem_map] at hfound
    rcases hfound with ⟨element, -, rfl⟩ | rfl | ⟨element, -, rfl⟩
    . exact .inr ⟨element, rfl⟩
    . exact .inl rfl
    . exact .inr ⟨element, rfl⟩
  have hmany : Reads n (Reader.many (messageItem bound depth) bound)
      (parts.flatMap Prod.fst ++ "\x7d" :: rest) ("\x7d" :: rest) (parts.map Prod.snd) := by
    apply Reads.many
    . intro found hfound others
      rcases hparts found hfound with rfl | ⟨element, rfl⟩
      . exact h others
      . exact reads_messageItem q element hdepth hbound
    . intro found hfound
      rcases hparts found hfound with rfl | ⟨element, rfl⟩
      . exact hpart
      . exact element.tokens_ne_nil q
    . exact fails_messageItem_close hdepth
    . exact hbound
  simpa [parts, tokensOfList_eq_flatMap, itemsOfList_eq_map, List.flatMap_map,
    Function.comp_def] using hmany

theorem Members.append_assoc (first second third : Members) :
    first ++ second ++ third = first ++ (second ++ third) := by
  change Members.mk _ _ _ _ _ = Members.mk _ _ _ _ _
  rw [Members.mk.injEq]
  exact ⟨List.append_assoc _ _ _, List.append_assoc _ _ _, List.append_assoc _ _ _,
    List.append_assoc _ _ _, List.append_assoc _ _ _⟩

theorem membersOfList_append {dialect : Schema.Dialect} {scope : String}
    {items others : List MessageItem} {first second : Members}
    (hitems : MessageItem.membersOfList dialect scope items = .ok first)
    (hothers : MessageItem.membersOfList dialect scope others = .ok second) :
    MessageItem.membersOfList dialect scope (items ++ others) = .ok (first ++ second) := by
  induction items generalizing first with
  | nil =>
    cases hitems
    exact hothers
  | cons item items ih =>
    rcases bind_eq_ok_iff.1 hitems with ⟨part, hpart, h⟩
    rcases bind_eq_ok_iff.1 h with ⟨between, hbetween, hfirst⟩
    cases hfirst
    rw [Members.append_assoc]
    exact bind_eq_ok_iff.2 ⟨part, hpart, bind_eq_ok_iff.2 ⟨_, ih hbetween, rfl⟩⟩

theorem membersOfList_between {dialect : Schema.Dialect} {scope : String} (q : List Ident)
    (before after : List Element) {item : MessageItem} {part : Members}
    (h : item.members dialect scope = .ok part) :
    MessageItem.membersOfList dialect scope
        (Element.itemsOfList q before ++ item :: Element.itemsOfList q after)
      =
    .ok (Element.membersOfList q scope before
      ++ (part ++ Element.membersOfList q scope after)) := by
  apply membersOfList_append (membersOfList_itemsOfList dialect q scope before)
  exact bind_eq_ok_iff.2 ⟨part, h, bind_eq_ok_iff.2
    ⟨_, membersOfList_itemsOfList dialect q scope after, rfl⟩⟩

theorem messageBlock_read_between (q : List Ident) (before after : List Element) (scope : String)
    {part : Members} (h : part.assignments = []) :
    messageBlock.read (Element.membersOfList q scope before
        ++ (part ++ Element.membersOfList q scope after)).assignments
      =
    .ok (blockOf (before ++ after)) := by
  rw [← messageBlock_read_assignments q, List.flatMap_append]
  change messageBlock.read (_ ++ (part.assignments ++ _)) = _
  rw [h]
  rfl

theorem exists_message_between {dialect : Schema.Dialect} {parent : Option String} {name : String}
    (q : List Ident) (before after : List Element) {item : MessageItem} {part : Members}
    (h : item.members dialect (Schema.qualify parent name) = .ok part)
    (hnone : part.assignments = []) :
    ∃ result, message dialect parent name
      (Element.itemsOfList q before ++ item :: Element.itemsOfList q after) = .ok result := by
  unfold message
  dsimp only
  rw [membersOfList_between q before after h]
  change ∃ result, Members.toMessage _ _ _ = _
  unfold Members.toMessage
  rw [messageBlock_read_between q before after _ hnone]
  exact ⟨_, rfl⟩

/-! ### Places in a message -/

/--
A place among the parts of a message, or among those of a message inside it.
-/
inductive Place where
  | here (before after : List Element)
  | inside (before : List Element) (name : Ident) (place : Place) (after : List Element)

namespace Place

def around : Place → List Element × List Element
  | here before after => (before, after)
  | inside _ _ place _ => place.around

def chain : Place → List String
  | here _ _ => []
  | inside _ name place _ => name.text :: place.chain

section

variable (q : List Ident)

def tokens (part : List String) : Place → List String
  | here before after => Element.tokensOfList q before ++ (part ++ Element.tokensOfList q after)
  | inside before name place after =>
    Element.tokensOfList q before
      ++ ("message" :: name.text :: "\x7b" :: (place.tokens part ++ ["\x7d"])
      ++ Element.tokensOfList q after)

def items (item : MessageItem) : Place → List MessageItem
  | here before after => Element.itemsOfList q before ++ item :: Element.itemsOfList q after
  | inside before name place after =>
    Element.itemsOfList q before
      ++ .message name.text (place.items item) :: Element.itemsOfList q after

end

theorem reads_items (q : List Ident) {part : List String} {item : MessageItem} (hpart : part ≠ [])
    (h : ∀ {n depth others}, n ≤ depth → n ≤ bound →
      Reads n (messageItem bound depth) (part ++ others) others item)
    (place : Place) {depth : Nat} (hdepth : n ≤ depth) (hbound : n ≤ bound) :
    Reads n (Reader.many (messageItem bound depth) bound)
      (place.tokens q part ++ "\x7d" :: rest) ("\x7d" :: rest) (place.items q item) := by
  induction place generalizing n depth rest with
  | here before after =>
    exact reads_between q before after hpart (fun _ => h hdepth hbound) hdepth hbound
  | inside before name place after ih =>
    refine reads_between q before after (by simp) ?_ hdepth hbound
    intro others
    cases depth with
    | zero =>
      apply Reads.of_length_lt (by simp; omega)
      intro hlt
      omega
    | succ depth =>
      have hitems : Reads (n - 1) (Reader.many (messageItem bound depth) bound)
          (place.tokens q part ++ "\x7d" :: others) ("\x7d" :: others) (place.items q item) :=
        ih (by omega) (by omega)
      simpa using hitems.messageItem_message name

theorem exists_message (q : List Ident) {dialect : Schema.Dialect} {item : MessageItem}
    (h : ∀ scope, ∃ part, item.members dialect scope = .ok part ∧ part.assignments = [])
    (place : Place) (parent : Option String) (name : String) :
    ∃ result, message dialect parent name (place.items q item) = .ok result := by
  induction place generalizing parent name with
  | here before after =>
    rcases h (Schema.qualify parent name) with ⟨part, hpart, hnone⟩
    exact exists_message_between q before after hpart hnone
  | inside before inner place after ih =>
    rcases ih (some (Schema.qualify parent name)) inner.text with ⟨result, hresult⟩
    rcases bind_eq_ok_iff.1 hresult with ⟨members, hmembers, hresult⟩
    have hpart : (MessageItem.message inner.text (place.items q item)).members dialect
        (Schema.qualify parent name) = .ok { messages := [result] } :=
      bind_eq_ok_iff.2 ⟨members, hmembers, bind_eq_ok_iff.2 ⟨result, hresult, rfl⟩⟩
    exact exists_message_between q before after hpart rfl

theorem declared_items {q : List Ident} {item : MessageItem} {tree : FileTree}
    {chain : List String} {place : Place} (h : Declared tree chain (place.items q item)) :
    Declared tree (chain ++ place.chain)
      (Element.itemsOfList q place.around.1 ++ item :: Element.itemsOfList q place.around.2) := by
  induction place generalizing chain with
  | here before after =>
    rw [Place.chain, List.append_nil]
    exact h
  | inside before name place after ih =>
    have hmem : .message name.text (place.items q item)
        ∈ (inside before name place after).items q item := by
      simp [items]
    have hinner := ih (h.inner hmem)
    rwa [List.append_assoc] at hinner

end Place

/-! ### Files -/

/--
A file with a field at a place in one of its messages.
-/
structure LiteralFile where
  dialect : Option Schema.Dialect
  isProto2 : dialect.getD .proto2 = .proto2
  package : Option String
  isPath : ∀ path ∈ package, IsPath path
  before : List Tree
  name : Ident
  place : Place
  field : LiteralField
  after : List Tree

namespace LiteralFile

def tops (q : List Ident) (file : LiteralFile) : List (List String × Statement) :=
  file.package.toList.map (fun path => (["package", path, ";"], .package path))
    ++ (file.before.map (fun tree => (tree.tokens q, tree.statement q))
    ++ ("message" :: file.name.text :: "\x7b"
          :: (file.place.tokens q file.field.tokens ++ ["\x7d"]),
        .message file.name.text (file.place.items q (.field file.field.decl)))
      :: file.after.map (fun tree => (tree.tokens q, tree.statement q)))

def tokens (q : List Ident) (file : LiteralFile) : List String :=
  dialectTokens file.dialect ++ (file.tops q).flatMap Prod.fst

def sourceTree (q : List Ident) (file : LiteralFile) : FileTree :=
  { dialect := dialectClause? file.dialect
    statements := (file.tops q).map Prod.snd }

def chain (file : LiteralFile) : List String :=
  file.name.text :: file.place.chain

theorem mem_tops {q : List Ident} {file : LiteralFile} {top : List String × Statement}
    (h : top ∈ file.tops q) :
    (∃ path ∈ file.package, top = (["package", path, ";"], .package path))
      ∨ (∃ tree : Tree, top = (tree.tokens q, tree.statement q))
      ∨ top = ("message" :: file.name.text :: "\x7b"
          :: (file.place.tokens q file.field.tokens ++ ["\x7d"]),
        .message file.name.text (file.place.items q (.field file.field.decl))) := by
  simp only [tops, List.mem_append, List.mem_map, List.mem_cons, Option.mem_toList] at h
  rcases h with ⟨path, hpath, rfl⟩ | ⟨tree, -, rfl⟩ | rfl | ⟨tree, -, rfl⟩
  . exact .inl ⟨path, hpath, rfl⟩
  . exact .inr (.inl ⟨tree, rfl⟩)
  . exact .inr (.inr rfl)
  . exact .inr (.inl ⟨tree, rfl⟩)

theorem reads_top {q : List Ident} {file : LiteralFile} {top : List String × Statement}
    (h : top ∈ file.tops q) : Reads bound (statement bound) (top.1 ++ rest) rest top.2 := by
  rcases mem_tops h with ⟨path, hpath, rfl⟩ | ⟨tree, rfl⟩ | rfl
  . exact reads_package (file.isPath path hpath)
  . exact reads_tree q tree
  . have hitems : Reads bound (Reader.many (messageItem bound bound) bound)
        (file.place.tokens q file.field.tokens ++ "\x7d" :: rest) ("\x7d" :: rest)
        (file.place.items q (.field file.field.decl)) :=
      file.place.reads_items q (by simp [LiteralField.tokens])
        (fun hdepth hbound => file.field.reads_messageItem hdepth hbound) (le_refl bound)
        (le_refl bound)
    simpa using hitems.statement_message file.name

theorem fails_dialectClause (q : List Ident) (file : LiteralFile) :
    Fails n dialectClause ((file.tops q).flatMap Prod.fst) := by
  unfold tops
  cases file.package with
  | some path => exact Source.fails_dialectClause (by decide) (by decide)
  | none =>
    cases file.before with
    | nil => exact Source.fails_dialectClause (by decide) (by decide)
    | cons tree trees => exact Source.fails_dialectClause (by decide) (by decide)

theorem reads_file (q : List Ident) (file : LiteralFile) :
    Reads bound (Source.file bound) (file.tokens q) [] (file.sourceTree q) := by
  have htops : Reads bound (Reader.many (statement bound) bound)
      ((file.tops q).flatMap Prod.fst ++ []) [] ((file.tops q).map Prod.snd) := by
    apply Reads.many
    . exact fun top htop _ => reads_top htop
    . intro top htop
      rcases mem_tops htop with ⟨path, -, rfl⟩ | ⟨tree, rfl⟩ | rfl
      . simp
      . simp [Tree.tokens]
      . simp
    . exact fails_statement_nil
    . exact le_refl bound
  rw [List.append_nil] at htops
  refine Source.reads_file ?_ htops
  have hproto2 := file.isProto2
  unfold tokens
  cases hdialect : file.dialect with
  | none => exact (file.fails_dialectClause q).maybe_none
  | some dialect =>
    rw [hdialect] at hproto2
    obtain rfl : dialect = .proto2 := hproto2
    exact (reads_dialectClause "proto2").maybe_some

theorem members_field (scope : String) (field : LiteralField) :
    (MessageItem.field field.decl).members .proto2 scope = .ok { fields := [field.schema] } := by
  rw [MessageItem.members, field.toField_decl]
  rfl

theorem exists_definitions (q : List Ident) (file : LiteralFile) (package : Option String) :
    ∃ messages, FileTree.definitions .proto2 package (file.sourceTree q).statements
      = .ok (messages, []) := by
  have hlist : ∀ tops : List (List String × Statement), (∀ top ∈ tops, top ∈ file.tops q) →
      ∃ messages,
        FileTree.definitions .proto2 package (tops.map Prod.snd) = .ok (messages, []) := by
    intro tops
    induction tops with
    | nil => exact fun _ => ⟨[], rfl⟩
    | cons top tops ih =>
      intro hall
      simp only [List.mem_cons, forall_eq_or_imp] at hall
      rcases ih hall.2 with ⟨messages, hmessages⟩
      have hfirst : ∀ {name items result}, message .proto2 package name items = .ok result →
          FileTree.definitions .proto2 package (.message name items :: tops.map Prod.snd)
            = .ok (result :: messages, []) := by
        intro name items result hresult
        rw [FileTree.definitions, hresult, hmessages]
        rfl
      rcases mem_tops hall.1 with ⟨path, -, rfl⟩ | ⟨tree, rfl⟩ | rfl
      . exact ⟨messages, hmessages⟩
      . exact ⟨_, hfirst (message_itemsOfList .proto2 package q tree)⟩
      . rcases file.place.exists_message q
          (fun scope => ⟨_, members_field scope file.field, rfl⟩) package file.name.text
          with ⟨result, hresult⟩
        exact ⟨_, hfirst hresult⟩
  exact hlist _ fun _ htop => htop

theorem exists_toFile (q : List Ident) (file : LiteralFile) (name : String) :
    ∃ result, (file.sourceTree q).toFile name = .ok result ∧ result.dialect = .proto2 := by
  have hmem : ∀ statement ∈ (file.sourceTree q).statements,
      (∃ path, statement = .package path) ∨ ∃ name items, statement = .message name items := by
    intro statement hstatement
    rcases List.mem_map.1 hstatement with ⟨top, htop, rfl⟩
    rcases mem_tops htop with ⟨path, -, rfl⟩ | ⟨tree, rfl⟩ | rfl
    . exact .inl ⟨path, rfl⟩
    . exact .inr ⟨_, _, rfl⟩
    . exact .inr ⟨_, _, rfl⟩
  have hdialect : DialectClause.dialect (file.sourceTree q).dialect = .ok .proto2 := by
    have hproto2 := file.isProto2
    unfold sourceTree
    cases hdialect : file.dialect with
    | none => rfl
    | some dialect =>
      rw [hdialect] at hproto2
      obtain rfl : dialect = .proto2 := hproto2
      rfl
  have himports : FileTree.imports (file.sourceTree q).statements = .ok [] := by
    apply imports_eq_nil
    rintro statement hstatement literal rfl
    rcases hmem _ hstatement with ⟨path, hpath⟩ | ⟨name, items, hmessage⟩
    . cases hpath
    . cases hmessage
  have hassignments : (file.sourceTree q).assignments = [] := by
    apply List.filterMap_eq_nil_iff.2
    intro statement hstatement
    rcases hmem _ hstatement with ⟨path, rfl⟩ | ⟨name, items, rfl⟩
    . rfl
    . rfl
  rcases file.exists_definitions q (file.sourceTree q).package? with ⟨messages, hmessages⟩
  unfold FileTree.toFile
  rw [hdialect, himports, hassignments]
  change ∃ result, (FileTree.definitions .proto2 _ _ >>= _) = _ ∧ _
  rw [hmessages]
  exact ⟨_, rfl, rfl⟩

theorem exists_ofText (q : List Ident) (file : LiteralFile) {text : String}
    (h : LaidOut (file.tokens q) text.toList) (name : String) :
    ∃ result, Schema.File.ofText name text = .ok result
      ∧ ∃ message, Located result file.chain message
        ∧ message.isMapEntry = false
        ∧ message.fields = file.place.around.1.flatMap (Element.fields message.fullName)
          ++ file.field.schema :: file.place.around.2.flatMap (Element.fields message.fullName)
        ∧ message.options = blockOf (file.place.around.1 ++ file.place.around.2) := by
  rcases file.exists_toFile q name with ⟨result, hresult, hdialect⟩
  have hdeclared : Declared (file.sourceTree q) [file.name.text]
      (file.place.items q (.field file.field.decl)) := by
    apply Declared.top
    simp [sourceTree, tops]
  rcases exists_located_of_declared hresult (Place.declared_items hdeclared)
    with ⟨message, hlocated, hdescribes⟩
  refine ⟨result, ?_, message, hlocated, hdescribes.isMapEntry_eq, ?_⟩
  . unfold Schema.File.ofText
    rw [ofText?_eq_some h fun bound => file.reads_file q]
    exact hresult
  . rcases hdescribes.exists_membersOfList with ⟨members, hmembers, hfields, -, hoptions⟩
    rw [hdialect, membersOfList_between q _ _ (members_field _ file.field)] at hmembers
    cases hmembers
    rw [messageBlock_read_between q _ _ _ rfl] at hoptions
    exact ⟨hfields.symm, (Except.ok.inj hoptions).symm⟩

end LiteralFile

end Source

end HessianGo
