import HessianGo.Proofs.Except
import HessianGo.Proofs.Source.TreeShape
import Mathlib.Data.List.Forall2

/-!
This module contains what holds of every schema file that is read from a text, in every message at
every depth: full names follow from the names around them, fields have the types, defaults and
groups that their declarations give them, and the map fields of a message have their entry messages
inside it.
-/

namespace HessianGo

namespace Source

/-! ### Well-formed files -/

def fullNameOf (package : Option String) (chain : List String) : String :=
  ".".intercalate (package.toList ++ chain)

/--
`Located file chain message`: the message is in the file, at any depth, and the chain has the names
from the outermost message down to it.
-/
inductive Located (file : Schema.File) : List String → Schema.Message → Prop where
  | top {message : Schema.Message} : message ∈ file.messages → Located file [message.name] message
  | inner {chain : List String} {message inner : Schema.Message} :
    Located file chain message → inner ∈ message.messages →
      Located file (chain ++ [inner.name]) inner

/--
`Declared tree chain items`: the tree declares a message with these parts, at any depth, and the
chain has the names from the outermost message down to it.
-/
inductive Declared (tree : FileTree) : List String → List MessageItem → Prop where
  | top {name : String} {items : List MessageItem} :
    .message name items ∈ tree.statements → Declared tree [name] items
  | inner {chain : List String} {items innerItems : List MessageItem} {name : String} :
    Declared tree chain items → .message name innerItems ∈ items →
      Declared tree (chain ++ [name]) innerItems

/--
For each field that a part of a message declares, whether it is declared as a map.
-/
def MessageItem.mapFlags : MessageItem → List Bool
  | .field _ => [false]
  | .mapField _ => [true]
  | .oneof decl => decl.items.filterMap fun
    | .field _ => some false
    | .skipped => none
  | _ => []

def hasMessageType (field : Schema.Field) : Bool :=
  field.messageType?.isSome

def IsParsedType (type : Schema.FieldType) : Prop :=
  IsReadType type ∨ ∃ fullName, type = .message fullName

/--
The default is one that a field of the type can have.
-/
def Suits (type : Schema.FieldType) : Schema.DefaultValue → Prop
  | .text _ => type = .scalar .string
  | .bytes _ => type = .scalar .bytes
  | .constant _ => type ≠ .scalar .string ∧ type ≠ .scalar .bytes

structure FieldFits (dialect : Schema.Dialect) (oneofs : List String) (field : Schema.Field) :
    Prop where
  name : '.' ∉ field.name.toList
  type : IsParsedType field.type
  oneof : ∀ oneof ∈ field.oneof, oneof ∈ oneofs
  defaultValue : ∀ value ∈ field.defaultValue, dialect ≠ .proto3 ∧ Suits field.type value

/--
The message holds the entries of the map field.
-/
structure IsMapOf (field : Schema.Field) (entry : Schema.Message) : Prop where
  label : field.label = .repeated
  defaultValue : field.defaultValue = none
  oneof : field.oneof = none
  type : field.type = .message entry.fullName
  name : entry.name = entryName field.name
  fields : ∃ key value, IsReadType value ∧ entry.fields = [
    { name := "key", number := 1, type := .scalar key },
    { name := "value", number := 2, type := value }]
  messages : entry.messages = []
  enums : entry.enums = []
  oneofs : entry.oneofs = []
  options : entry.options = none

structure EnumFits (fullName : String) (enum : Schema.Enum) : Prop where
  fullName : enum.fullName = fullName
  name : '.' ∉ enum.name.toList
  values : ∀ value ∈ enum.values, '.' ∉ value.name.toList

structure MessageFits (tree : FileTree) (file : Schema.File) (chain : List String)
    (message : Schema.Message) : Prop where
  fullName : message.fullName = fullNameOf file.package chain
  name : '.' ∉ message.name.toList
  oneofs : ∀ oneof ∈ message.oneofs, '.' ∉ oneof.toList
  enums : ∀ enum ∈ message.enums, EnumFits (fullNameOf file.package (chain ++ [enum.name])) enum
  fields : ∀ field ∈ message.fields, FieldFits file.dialect message.oneofs field
  maps : List.Forall₂ IsMapOf (message.fields.filter hasMessageType)
    (message.messages.filter (·.isMapEntry))
  declared : message.isMapEntry = false → ∃ items, Declared tree chain items
    ∧ message.fields.map hasMessageType = items.flatMap MessageItem.mapFlags

structure FileFits (tree : FileTree) (file : Schema.File) : Prop where
  enums : ∀ enum ∈ file.enums, EnumFits (fullNameOf file.package [enum.name]) enum
  messages : ∀ {chain message}, Located file chain message → MessageFits tree file chain message

/-! ### Names -/

theorem IsName.dot_not_mem {name : String} (h : IsName name) : '.' ∉ name.toList := by
  intro hdot
  exact absurd (h.isNameChar_of_mem '.' hdot) (by decide)

theorem toUpper_ne_dot {c : Char} (h : c ≠ '.') : c.toUpper ≠ '.' := by
  unfold Char.toUpper
  split
  . next hlower =>
    intro hdot
    have hval := congrArg Char.val hdot
    dsimp only at hval
    rw [← UInt32.add_sub_cancel c.val ('A'.val - 'a'.val), hval] at hlower
    exact absurd hlower.1 (by decide)
  . exact h

theorem dot_not_mem_entryStem {s : List Char} (h : '.' ∉ s) (capital : Bool) :
    '.' ∉ entryStem capital s := by
  induction s generalizing capital with
  | nil => simp [entryStem]
  | cons c s ih =>
    simp only [List.mem_cons, not_or] at h
    unfold entryStem
    split
    . exact ih h.2 true
    . split
      . simp [ih h.2, (toUpper_ne_dot (Ne.symm h.1)).symm]
      . simp [ih h.2, h.1]

theorem dot_not_mem_entryName {name : String} (h : '.' ∉ name.toList) :
    '.' ∉ (entryName name).toList := by
  simp [entryName, dot_not_mem_entryStem h]

theorem intercalate_concat {names : List String} (h : names ≠ []) (name : String) :
    ".".intercalate (names ++ [name]) = ".".intercalate names ++ "." ++ name := by
  induction names with
  | nil => exact absurd rfl h
  | cons first names ih =>
    cases names with
    | nil => simp [String.intercalate_cons_cons]
    | cons second names =>
      rw [List.cons_append, List.cons_append, String.intercalate_cons_cons,
        String.intercalate_cons_cons, ← List.cons_append, ih (by simp)]
      simp only [String.append_assoc]

theorem qualify_package {package : Option String} (h : ∀ path ∈ package, IsPath path)
    (name : String) : Schema.qualify package name = fullNameOf package [name] := by
  cases package with
  | none => simp [Schema.qualify, fullNameOf]
  | some path =>
    have hne : path ≠ "" := by
      rintro rfl
      exact (h "" rfl).toList_ne_nil rfl
    simp [Schema.qualify, fullNameOf, hne, String.intercalate_cons_cons, String.append_assoc]

theorem qualify_fullNameOf {package : Option String} {chain : List String} (hchain : chain ≠ [])
    (hne : fullNameOf package chain ≠ "") (name : String) :
    Schema.qualify (some (fullNameOf package chain)) name
      = fullNameOf package (chain ++ [name]) := by
  unfold fullNameOf at hne ⊢
  rw [← List.append_assoc, intercalate_concat (by simp [hchain])]
  simp [Schema.qualify, hne]

/-! ### Fields -/

theorem suits_of_defaultValue {dialect : Schema.Dialect} {type : Schema.FieldType}
    {assignments : List OptionAssignment} {result : Option Schema.DefaultValue}
    (h : defaultValue dialect type assignments = .ok result) :
    ∀ value ∈ result, dialect ≠ .proto3 ∧ Suits type value := by
  unfold defaultValue at h
  split at h
  . cases h
    simp
  . split at h
    . cases h
    . next hdialect =>
      have hsome : ∀ {default : Schema.DefaultValue}, result = some default → Suits type default →
          ∀ value ∈ result, dialect ≠ .proto3 ∧ Suits type value := by
        rintro default rfl hsuits value hvalue
        obtain rfl : default = value := by simpa using hvalue
        exact ⟨hdialect, hsuits⟩
      split at h
      . rcases exists_of_map_eq_ok h with ⟨text, -, hresult⟩
        exact hsome hresult.symm rfl
      . split at h
        . rcases exists_of_map_eq_ok h with ⟨bytes, -, hresult⟩
          exact hsome hresult.symm rfl
        . cases h
      . cases h
      . next hstring hbytes _ =>
        cases h
        exact hsome rfl ⟨hstring, hbytes⟩
      . cases h

theorem eq_ok_of_ofOptions {α : Type} {result : Except Schema.OptionFault α} {value : α}
    (h : ofOptions result = .ok value) : result = .ok value := by
  cases result with
  | ok _ =>
    cases h
    rfl
  | error _ => cases h

theorem hasMessageType_of_isReadType {field : Schema.Field} (h : IsReadType field.type) :
    hasMessageType field = false := by
  unfold hasMessageType Schema.Field.messageType?
  split
  . next htype =>
    rw [htype] at h
    exact h.elim
  . rfl

theorem fieldFits_of_toField {dialect : Schema.Dialect} {decl : FieldDecl} (hdecl : decl.IsRead)
    {oneof : Option String} {field : Schema.Field} (h : decl.toField dialect oneof = .ok field)
    {oneofs : List String} (honeof : ∀ name ∈ oneof, name ∈ oneofs) :
    FieldFits dialect oneofs field ∧ hasMessageType field = false := by
  rcases bind_eq_ok_iff.1 h with ⟨number, -, h⟩
  rcases bind_eq_ok_iff.1 h with ⟨value?, hvalue, h⟩
  rcases bind_eq_ok_iff.1 h with ⟨options, -, hfield⟩
  cases hfield
  refine ⟨⟨hdecl.name.dot_not_mem, .inl hdecl.type, honeof, ?_⟩, ?_⟩
  . exact suits_of_defaultValue (eq_ok_of_ofOptions hvalue)
  . exact hasMessageType_of_isReadType hdecl.type

theorem fieldFits_of_toFields.go {dialect : Schema.Dialect} {decl : OneofDecl}
    {items : List OneofItem} (hitems : ∀ item ∈ items, item.IsRead) {fields : List Schema.Field}
    (h : OneofDecl.toFields.go dialect decl items = .ok fields) :
    (∀ field ∈ fields, FieldFits dialect [decl.name] field)
      ∧ fields.map hasMessageType = items.filterMap fun
        | .field _ => some false
        | .skipped => none := by
  induction items generalizing fields with
  | nil =>
    cases h
    simp
  | cons item items ih =>
    simp only [List.mem_cons, forall_eq_or_imp] at hitems
    cases item with
    | skipped => exact ih hitems.2 h
    | field fieldDecl =>
      rcases bind_eq_ok_iff.1 h with ⟨first, hfirst, h⟩
      rcases bind_eq_ok_iff.1 h with ⟨others, hothers, hfields⟩
      cases hfields
      have hone : ∀ name ∈ some decl.name, name ∈ [decl.name] := by simp
      rcases fieldFits_of_toField hitems.1 hfirst hone with ⟨hfits, htype⟩
      rcases ih hitems.2 hothers with ⟨hothersFit, hflags⟩
      simp only [List.mem_cons, forall_eq_or_imp, List.map_cons, htype, hflags]
      exact ⟨⟨hfits, hothersFit⟩, rfl⟩

theorem isMapOf_entry {decl : MapDecl} (hdecl : decl.IsRead) {scope : String} {field : Schema.Field}
    (h : decl.toField scope = .ok field) :
    field.name = decl.name ∧ IsMapOf field (decl.entry scope) := by
  rcases bind_eq_ok_iff.1 h with ⟨number, -, h⟩
  rcases bind_eq_ok_iff.1 h with ⟨options, -, hfield⟩
  cases hfield
  refine ⟨rfl, ?_⟩
  exact {
    label := rfl
    defaultValue := rfl
    oneof := rfl
    type := rfl
    name := rfl
    fields := ⟨decl.key, decl.value, hdecl.value, rfl⟩
    messages := rfl
    enums := rfl
    oneofs := rfl
    options := rfl }

theorem IsMapOf.fieldFits {field : Schema.Field} {entry : Schema.Message} (h : IsMapOf field entry)
    (hname : '.' ∉ field.name.toList) (dialect : Schema.Dialect) (oneofs : List String) :
    FieldFits dialect oneofs field where
  name := hname
  type := .inr ⟨_, h.type⟩
  oneof := by simp [h.oneof]
  defaultValue := by simp [h.defaultValue]

theorem IsMapOf.fieldFits_of_mem {field : Schema.Field} {entry : Schema.Message}
    (h : IsMapOf field entry) (dialect : Schema.Dialect) (oneofs : List String) :
    ∀ part ∈ entry.fields, FieldFits dialect oneofs part ∧ hasMessageType part = false := by
  have hpart : ∀ {part : Schema.Field}, '.' ∉ part.name.toList → IsReadType part.type →
      part.oneof = none → part.defaultValue = none →
      FieldFits dialect oneofs part ∧ hasMessageType part = false := by
    intro part hname htype honeof hvalue
    exact ⟨⟨hname, .inl htype, by simp [honeof], by simp [hvalue]⟩,
      hasMessageType_of_isReadType htype⟩
  rcases h.fields with ⟨key, value, hvalue, hfields⟩
  rw [hfields]
  simp only [List.mem_cons, List.not_mem_nil, or_false, forall_eq_or_imp, forall_eq]
  constructor
  . exact hpart (show '.' ∉ "key".toList by decide) .intro rfl rfl
  . exact hpart (show '.' ∉ "value".toList by decide) hvalue rfl rfl

theorem dot_not_mem_values {items : List EnumItem} (hitems : ∀ item ∈ items, item.IsRead)
    {values : List Schema.EnumValue} (h : EnumDecl.values items = .ok values) :
    ∀ value ∈ values, '.' ∉ value.name.toList := by
  induction items generalizing values with
  | nil =>
    cases h
    simp
  | cons item items ih =>
    simp only [List.mem_cons, forall_eq_or_imp] at hitems
    cases item with
    | option _ => exact ih hitems.2 h
    | skipped => exact ih hitems.2 h
    | value name literal =>
      rcases bind_eq_ok_iff.1 h with ⟨number, -, h⟩
      rcases bind_eq_ok_iff.1 h with ⟨others, hothers, hvalues⟩
      cases hvalues
      simp only [List.mem_cons, forall_eq_or_imp]
      exact ⟨IsName.dot_not_mem hitems.1, ih hitems.2 hothers⟩

theorem enumFits_of_toEnum {parent : Option String} {decl : EnumDecl} (hdecl : decl.IsRead)
    {enum : Schema.Enum} (h : decl.toEnum parent = .ok enum) :
    EnumFits (Schema.qualify parent enum.name) enum := by
  rcases bind_eq_ok_iff.1 h with ⟨values, hvalues, h⟩
  rcases bind_eq_ok_iff.1 h with ⟨options, -, henum⟩
  cases henum
  exact ⟨rfl, hdecl.name.dot_not_mem, dot_not_mem_values hdecl.items hvalues⟩

/-! ### Messages -/

/--
What holds of the members that the parts `items` add to the message `scope`.
-/
structure MembersFit (dialect : Schema.Dialect) (scope : String) (items : List MessageItem)
    (members : Members) : Prop where
  oneofs : ∀ oneof ∈ members.oneofs, '.' ∉ oneof.toList
  enums : ∀ enum ∈ members.enums, EnumFits (Schema.qualify (some scope) enum.name) enum
  fields : ∀ field ∈ members.fields, FieldFits dialect members.oneofs field
  maps : List.Forall₂ IsMapOf (members.fields.filter hasMessageType)
    (members.messages.filter (·.isMapEntry))
  flags : members.fields.map hasMessageType = items.flatMap MessageItem.mapFlags
  messages : ∀ inner ∈ members.messages,
    inner.fullName = Schema.qualify (some scope) inner.name ∧ '.' ∉ inner.name.toList
  -- What is no map entry has been read from a declaration of its own.
  inner : ∀ inner ∈ members.messages, inner.isMapEntry = false →
    ∃ innerItems, .message inner.name innerItems ∈ items
      ∧ message dialect (some scope) inner.name innerItems = .ok inner

namespace MembersFit

variable {dialect : Schema.Dialect} {scope : String}

theorem of_fields {item : MessageItem} {fields : List Schema.Field} {oneofs : List String}
    {assignments : List OptionAssignment} (honeofs : ∀ oneof ∈ oneofs, '.' ∉ oneof.toList)
    (hfields : ∀ field ∈ fields, FieldFits dialect oneofs field)
    (hflags : fields.map hasMessageType = item.mapFlags) (hplain : true ∉ item.mapFlags) :
    MembersFit dialect scope [item] { fields, oneofs, assignments } where
  oneofs := honeofs
  enums := by simp
  fields := hfields
  maps := by
    have hnone : fields.filter hasMessageType = [] := by
      rw [List.filter_eq_nil_iff]
      intro field hfield htype
      apply hplain
      rw [← hflags, ← htype]
      exact List.mem_map_of_mem hfield
    rw [hnone]
    exact .nil
  flags := by simpa using hflags
  messages := by simp
  inner := by simp

end MembersFit

theorem FieldFits.mono {dialect : Schema.Dialect} {oneofs others : List String}
    {field : Schema.Field} (h : FieldFits dialect oneofs field)
    (hsubset : ∀ oneof ∈ oneofs, oneof ∈ others) : FieldFits dialect others field where
  name := h.name
  type := h.type
  oneof oneof honeof := hsubset oneof (h.oneof oneof honeof)
  defaultValue := h.defaultValue

theorem MembersFit.append {dialect : Schema.Dialect} {scope : String}
    {items others : List MessageItem} {first second : Members}
    (hfirst : MembersFit dialect scope items first)
    (hsecond : MembersFit dialect scope others second) :
    MembersFit dialect scope (items ++ others) (first ++ second) where
  oneofs := List.forall_mem_append.2 ⟨hfirst.oneofs, hsecond.oneofs⟩
  enums := List.forall_mem_append.2 ⟨hfirst.enums, hsecond.enums⟩
  fields := by
    refine List.forall_mem_append.2 ⟨?_, ?_⟩
    . intro field hfield
      exact (hfirst.fields field hfield).mono fun _ h => List.mem_append_left _ h
    . intro field hfield
      exact (hsecond.fields field hfield).mono fun _ h => List.mem_append_right _ h
  maps := by
    change List.Forall₂ IsMapOf ((first.fields ++ second.fields).filter _)
      ((first.messages ++ second.messages).filter _)
    rw [List.filter_append, List.filter_append]
    exact List.rel_append hfirst.maps hsecond.maps
  flags := by
    change (first.fields ++ second.fields).map _ = _
    rw [List.map_append, hfirst.flags, hsecond.flags, List.flatMap_append]
  messages := List.forall_mem_append.2 ⟨hfirst.messages, hsecond.messages⟩
  inner := by
    refine List.forall_mem_append.2 ⟨?_, ?_⟩
    . intro inner hinner hentry
      rcases hfirst.inner inner hinner hentry with ⟨innerItems, hmem, hread⟩
      exact ⟨innerItems, List.mem_append_left _ hmem, hread⟩
    . intro inner hinner hentry
      rcases hsecond.inner inner hinner hentry with ⟨innerItems, hmem, hread⟩
      exact ⟨innerItems, List.mem_append_right _ hmem, hread⟩

theorem eq_of_toMessage {members : Members} {name fullName : String} {result : Schema.Message}
    (h : members.toMessage name fullName = .ok result) :
    result.name = name ∧ result.fullName = fullName ∧ result.isMapEntry = false := by
  rcases bind_eq_ok_iff.1 h with ⟨options, -, hresult⟩
  cases hresult
  exact ⟨rfl, rfl, rfl⟩

theorem membersFit_of_members {dialect : Schema.Dialect} {scope : String} {item : MessageItem}
    (hitem : item.IsRead) {members : Members} (h : item.members dialect scope = .ok members) :
    MembersFit dialect scope [item] members := by
  cases hitem with
  | option =>
    cases h
    exact .of_fields (by simp) (by simp) rfl (by simp [MessageItem.mapFlags])
  | skipped =>
    cases h
    exact .of_fields (by simp) (by simp) rfl (by simp [MessageItem.mapFlags])
  | field hdecl =>
    rcases bind_eq_ok_iff.1 h with ⟨field, hfield, hmembers⟩
    cases hmembers
    rcases fieldFits_of_toField hdecl hfield (by simp) with ⟨hfits, htype⟩
    refine .of_fields (by simp) (by simpa using hfits) ?_ (by simp [MessageItem.mapFlags])
    simp [htype, MessageItem.mapFlags]
  | oneof hdecl =>
    rcases bind_eq_ok_iff.1 h with ⟨fields, hfields, hmembers⟩
    cases hmembers
    rcases fieldFits_of_toFields.go hdecl.items hfields with ⟨hfits, hflags⟩
    refine .of_fields (by simpa using hdecl.name.dot_not_mem) hfits hflags ?_
    intro hflag
    rcases List.mem_filterMap.1 hflag with ⟨item, -, hitem⟩
    cases item with
    | field _ => cases hitem
    | skipped => cases hitem
  | @mapField decl hdecl =>
    rcases bind_eq_ok_iff.1 h with ⟨field, hfield, hmembers⟩
    cases hmembers
    rcases isMapOf_entry hdecl hfield with ⟨hfieldName, hmap⟩
    have hname : '.' ∉ field.name.toList := by
      rw [hfieldName]
      exact hdecl.name.dot_not_mem
    have htype : hasMessageType field = true := by
      simp [hasMessageType, Schema.Field.messageType?, hmap.type]
    exact {
      oneofs := by simp
      enums := by simp
      fields := by simpa using hmap.fieldFits hname dialect []
      maps := by
        rw [List.filter_cons_of_pos htype]
        exact .cons hmap .nil
      flags := by simp [htype, MessageItem.mapFlags]
      messages := by
        rintro inner hinner
        obtain rfl : inner = decl.entry scope := by simpa using hinner
        exact ⟨rfl, dot_not_mem_entryName hdecl.name.dot_not_mem⟩
      inner := by simp [MapDecl.entry] }
  | enum hdecl =>
    rcases bind_eq_ok_iff.1 h with ⟨enum, henum, hmembers⟩
    cases hmembers
    exact {
      oneofs := by simp
      enums := by simpa using enumFits_of_toEnum hdecl henum
      fields := by simp
      maps := .nil
      flags := by simp [MessageItem.mapFlags]
      messages := by simp
      inner := by simp }
  | @message name items hname hitems =>
    rcases bind_eq_ok_iff.1 h with ⟨inner, hinner, h⟩
    rcases bind_eq_ok_iff.1 h with ⟨result, hresult, hmembers⟩
    cases hmembers
    rcases eq_of_toMessage hresult with ⟨hresultName, hfullName, hentry⟩
    have hread : message dialect (some scope) name items = .ok result :=
      bind_eq_ok_iff.2 ⟨inner, hinner, hresult⟩
    exact {
      oneofs := by simp
      enums := by simp
      fields := by simp
      maps := by simp [hentry]
      flags := by simp [MessageItem.mapFlags]
      messages := by simp [hresultName, hfullName, hname.dot_not_mem]
      inner := by simp [hresultName, hread] }

theorem membersFit_of_membersOfList {dialect : Schema.Dialect} {scope : String}
    {items : List MessageItem} (hitems : ∀ item ∈ items, item.IsRead) {members : Members}
    (h : MessageItem.membersOfList dialect scope items = .ok members) :
    MembersFit dialect scope items members := by
  induction items generalizing members with
  | nil =>
    cases h
    exact {
      oneofs := by simp
      enums := by simp
      fields := by simp
      maps := .nil
      flags := rfl
      messages := by simp
      inner := by simp }
  | cons item items ih =>
    simp only [List.mem_cons, forall_eq_or_imp] at hitems
    rcases bind_eq_ok_iff.1 h with ⟨first, hfirst, h⟩
    rcases bind_eq_ok_iff.1 h with ⟨others, hothers, hmembers⟩
    cases hmembers
    exact (membersFit_of_members hitems.1 hfirst).append (ih hitems.2 hothers)

def membersOf (message : Schema.Message) : Members :=
  { fields := message.fields
    messages := message.messages
    enums := message.enums
    oneofs := message.oneofs }

theorem membersFit_of_message {dialect : Schema.Dialect} {parent : Option String} {name : String}
    {items : List MessageItem} (hitems : ∀ item ∈ items, item.IsRead) {result : Schema.Message}
    (h : message dialect parent name items = .ok result) :
    result.name = name ∧ result.fullName = Schema.qualify parent name ∧ result.isMapEntry = false
      ∧ MembersFit dialect result.fullName items (membersOf result) := by
  rcases bind_eq_ok_iff.1 h with ⟨members, hmembers, hresult⟩
  have hfits := membersFit_of_membersOfList hitems hmembers
  rcases bind_eq_ok_iff.1 hresult with ⟨options, -, hresult⟩
  cases hresult
  refine ⟨rfl, rfl, rfl, ?_⟩
  exact ⟨hfits.oneofs, hfits.enums, hfits.fields, hfits.maps, hfits.flags, hfits.messages,
    hfits.inner⟩

/-! ### Files -/

theorem exists_of_forall₂_right {α β : Type} {R : α → β → Prop} {first : List α} {second : List β}
    (h : List.Forall₂ R first second) {y : β} (hy : y ∈ second) : ∃ x ∈ first, R x y := by
  induction h with
  | nil => cases hy
  | cons hxy _ ih =>
    rcases List.mem_cons.1 hy with rfl | hy
    . exact ⟨_, List.mem_cons_self, hxy⟩
    . rcases ih hy with ⟨x, hx, hxy⟩
      exact ⟨x, List.mem_cons_of_mem _ hx, hxy⟩

theorem exists_of_mem_definitions {dialect : Schema.Dialect} {package : Option String}
    {statements : List Statement} {messages : List Schema.Message} {enums : List Schema.Enum}
    (h : FileTree.definitions dialect package statements = .ok (messages, enums)) :
    (∀ result ∈ messages, ∃ name items, .message name items ∈ statements
      ∧ message dialect package name items = .ok result)
    ∧ ∀ enum ∈ enums, ∃ decl, .enum decl ∈ statements ∧ decl.toEnum package = .ok enum := by
  induction statements generalizing messages enums with
  | nil =>
    cases h
    simp
  | cons statement statements ih =>
    have hothers : ∀ {messages enums},
        FileTree.definitions dialect package statements = .ok (messages, enums) →
        (∀ result ∈ messages, ∃ name items, .message name items ∈ statement :: statements
          ∧ message dialect package name items = .ok result)
        ∧ ∀ enum ∈ enums, ∃ decl, .enum decl ∈ statement :: statements
          ∧ decl.toEnum package = .ok enum := by
      intro messages enums h
      rcases ih h with ⟨hmessages, henums⟩
      refine ⟨?_, ?_⟩
      . intro result hresult
        rcases hmessages result hresult with ⟨name, items, hmem, hread⟩
        exact ⟨name, items, List.mem_cons_of_mem _ hmem, hread⟩
      . intro enum henum
        rcases henums enum henum with ⟨decl, hmem, hread⟩
        exact ⟨decl, List.mem_cons_of_mem _ hmem, hread⟩
    cases statement with
    | message name items =>
      rcases bind_eq_ok_iff.1 h with ⟨first, hfirst, h⟩
      rcases bind_eq_ok_iff.1 h with ⟨⟨others, enums⟩, hrest, hresult⟩
      cases hresult
      rcases hothers hrest with ⟨hmessages, henums⟩
      refine ⟨List.forall_mem_cons.2 ⟨?_, hmessages⟩, henums⟩
      exact ⟨name, items, List.mem_cons_self, hfirst⟩
    | enum decl =>
      rcases bind_eq_ok_iff.1 h with ⟨first, hfirst, h⟩
      rcases bind_eq_ok_iff.1 h with ⟨⟨messages, others⟩, hrest, hresult⟩
      cases hresult
      rcases hothers hrest with ⟨hmessages, henums⟩
      refine ⟨hmessages, List.forall_mem_cons.2 ⟨?_, henums⟩⟩
      exact ⟨decl, List.mem_cons_self, hfirst⟩
    | importFile literal => exact hothers h
    | package name => exact hothers h
    | option assignment => exact hothers h
    | skipped => exact hothers h

theorem isPath_of_package? {tree : FileTree} (h : ∀ statement ∈ tree.statements, statement.IsRead) :
    ∀ path ∈ tree.package?, IsPath path := by
  intro path hpath
  rcases List.exists_of_findSome?_eq_some hpath with ⟨statement, hstatement, hpath⟩
  have hread := h statement (List.mem_reverse.1 hstatement)
  cases statement with
  | package name =>
    cases hpath
    exact hread
  | importFile _ => cases hpath
  | option _ => cases hpath
  | message _ _ => cases hpath
  | enum _ => cases hpath
  | skipped => cases hpath

theorem exists_of_toFile {tree : FileTree} {name : String} {file : Schema.File}
    (h : tree.toFile name = .ok file) :
    file.package = tree.package?
    ∧ (∀ result ∈ file.messages, ∃ name items, .message name items ∈ tree.statements
      ∧ message file.dialect file.package name items = .ok result)
    ∧ ∀ enum ∈ file.enums, ∃ decl, .enum decl ∈ tree.statements
      ∧ decl.toEnum file.package = .ok enum := by
  rcases bind_eq_ok_iff.1 h with ⟨dialect, -, h⟩
  rcases bind_eq_ok_iff.1 h with ⟨imports, -, h⟩
  rcases bind_eq_ok_iff.1 h with ⟨goPackage, -, h⟩
  rcases bind_eq_ok_iff.1 h with ⟨⟨messages, enums⟩, hdefinitions, hfile⟩
  cases hfile
  exact ⟨rfl, exists_of_mem_definitions hdefinitions⟩

theorem Located.chain_ne_nil {file : Schema.File} {chain : List String} {message : Schema.Message}
    (h : Located file chain message) : chain ≠ [] := by
  cases h with
  | top => simp
  | inner => simp

/--
What the way down to a message carries from one message to the next: its names, and where it comes
from, which is a map field of the message around it or a declaration of its own.
-/
structure Traced (tree : FileTree) (file : Schema.File) (chain : List String)
    (message : Schema.Message) : Prop where
  fullName : message.fullName = fullNameOf file.package chain
  ne_empty : message.fullName ≠ ""
  name : '.' ∉ message.name.toList
  origin : (message.isMapEntry = true ∧ ∃ field, IsMapOf field message)
    ∨ (message.isMapEntry = false ∧ ∃ items, Declared tree chain items
      ∧ (∀ item ∈ items, item.IsRead)
      ∧ MembersFit file.dialect message.fullName items (membersOf message))

theorem traced_top {tree : FileTree} (hread : ∀ statement ∈ tree.statements, statement.IsRead)
    {name : String} {file : Schema.File} (h : tree.toFile name = .ok file)
    {message : Schema.Message} (hmessage : message ∈ file.messages) :
    Traced tree file [message.name] message := by
  rcases exists_of_toFile h with ⟨hpackage, hmessages, -⟩
  rcases hmessages message hmessage with ⟨_, items, hstatement, hresult⟩
  rcases hread _ hstatement with ⟨hname, hitems⟩
  rcases membersFit_of_message hitems hresult with ⟨rfl, hfullName, hentry, hfits⟩
  refine ⟨?_, ?_, hname.dot_not_mem, .inr ⟨hentry, items, .top hstatement, hitems, hfits⟩⟩
  . rw [hfullName]
    apply qualify_package
    rw [hpackage]
    exact isPath_of_package? hread
  . rw [hfullName]
    exact (hname.isDeclaredIn file.package).ne_empty

theorem Traced.inner {tree : FileTree} {file : Schema.File} {chain : List String}
    {message inner : Schema.Message} (h : Traced tree file chain message) (hchain : chain ≠ [])
    (hinner : inner ∈ message.messages) : Traced tree file (chain ++ [inner.name]) inner := by
  rcases h.origin with ⟨-, field, hmap⟩ | ⟨-, items, hdeclared, hitems, hfits⟩
  . -- There is nothing inside an entry of a map.
    rw [hmap.messages] at hinner
    cases hinner
  . rcases hfits.messages inner hinner with ⟨hfullName, hname⟩
    refine ⟨?_, ?_, hname, ?_⟩
    . rw [hfullName, h.fullName]
      apply qualify_fullNameOf hchain
      rw [← h.fullName]
      exact h.ne_empty
    . rw [hfullName]
      exact (below_qualify h.ne_empty inner.name).ne_empty
    . cases hentry : inner.isMapEntry with
      | true =>
        have hmem : inner ∈ message.messages.filter (·.isMapEntry) :=
          List.mem_filter.2 ⟨hinner, hentry⟩
        rcases exists_of_forall₂_right hfits.maps hmem with ⟨field, -, hmap⟩
        exact .inl ⟨rfl, field, hmap⟩
      | false =>
        rcases hfits.inner inner hinner hentry with ⟨innerItems, hmem, hresult⟩
        have hinnerItems : ∀ item ∈ innerItems, item.IsRead := by
          cases hitems _ hmem with
          | message _ hinnerItems => exact hinnerItems
        rcases membersFit_of_message hinnerItems hresult with ⟨-, -, -, hinnerFits⟩
        exact .inr ⟨rfl, innerItems, hdeclared.inner hmem, hinnerItems, hinnerFits⟩

theorem traced_of_located {tree : FileTree}
    (hread : ∀ statement ∈ tree.statements, statement.IsRead) {name : String} {file : Schema.File}
    (h : tree.toFile name = .ok file) {chain : List String} {message : Schema.Message}
    (hlocated : Located file chain message) : Traced tree file chain message := by
  induction hlocated with
  | top hmessage => exact traced_top hread h hmessage
  | inner hlocated hinner ih => exact ih.inner hlocated.chain_ne_nil hinner

theorem Traced.messageFits {tree : FileTree} {file : Schema.File} {chain : List String}
    {message : Schema.Message} (h : Traced tree file chain message) (hchain : chain ≠ []) :
    MessageFits tree file chain message := by
  rcases h.origin with ⟨hentry, field, hmap⟩ | ⟨-, items, hdeclared, hitems, hfits⟩
  . have hfields := hmap.fieldFits_of_mem file.dialect message.oneofs
    have hnone : message.fields.filter hasMessageType = [] := by
      simpa using fun field hfield => (hfields field hfield).2
    exact {
      fullName := h.fullName
      name := h.name
      oneofs := by simp [hmap.oneofs]
      enums := by simp [hmap.enums]
      fields := fun field hfield => (hfields field hfield).1
      maps := by
        rw [hnone, hmap.messages]
        exact .nil
      declared := by simp [hentry] }
  . exact {
      fullName := h.fullName
      name := h.name
      oneofs := hfits.oneofs
      enums := by
        intro enum henum
        have hfit := hfits.enums enum henum
        rw [h.fullName, qualify_fullNameOf hchain (h.fullName ▸ h.ne_empty)] at hfit
        exact hfit
      fields := hfits.fields
      maps := hfits.maps
      declared := fun _ => ⟨items, hdeclared, hfits.flags⟩ }

theorem fileFits_of_toFile {tree : FileTree}
    (hread : ∀ statement ∈ tree.statements, statement.IsRead) {name : String} {file : Schema.File}
    (h : tree.toFile name = .ok file) : FileFits tree file where
  enums := by
    rcases exists_of_toFile h with ⟨hpackage, -, henums⟩
    intro enum henum
    rcases henums enum henum with ⟨decl, hstatement, hdecl⟩
    have hfit := enumFits_of_toEnum (hread _ hstatement) hdecl
    rw [qualify_package (hpackage ▸ isPath_of_package? hread)] at hfit
    exact hfit
  messages hlocated := (traced_of_located hread h hlocated).messageFits hlocated.chain_ne_nil

end Source

/--
A file that is read from a text is well-formed, in every message at every depth.
-/
theorem Schema.File.fits_of_ofText {name text : String} {file : Schema.File}
    (h : Schema.File.ofText name text = .ok file) :
    ∃ tree, Source.FileTree.ofText? text.toList = some tree ∧ Source.FileFits tree file := by
  unfold Schema.File.ofText at h
  split at h
  . next tree htree =>
    exact ⟨tree, htree, Source.fileFits_of_toFile (Source.isRead_of_ofText? htree) h⟩
  . cases h

def Source.bagText : String :=
  "package p; message Bag \x7b map<bool, .q.Item> by_id = 1; oneof pay \x7b string card = 2"
    ++ " [default = 'x']; \x7d message Line \x7b enum Kind \x7b A = 0; \x7d \x7d \x7d"

theorem Source.fits_of_ofText_bagText :
    ∃ file, Schema.File.ofText "bag.proto" Source.bagText = .ok file
      ∧ (∃ bag ∈ file.messages, bag.oneofs = ["pay"]
        ∧ bag.messages.map (·.fullName) = ["p.Bag.ByIdEntry", "p.Bag.Line"]
        ∧ bag.messages.flatMap (·.enums.map (·.fullName)) = ["p.Bag.Line.Kind"])
      ∧ ∃ tree, Source.FileTree.ofText? Source.bagText.toList = some tree
        ∧ Source.FileFits tree file := by
  have hread : ∃ file, Schema.File.ofText "bag.proto" Source.bagText = .ok file
      ∧ ∃ bag ∈ file.messages, bag.oneofs = ["pay"]
        ∧ bag.messages.map (·.fullName) = ["p.Bag.ByIdEntry", "p.Bag.Line"]
        ∧ bag.messages.flatMap (·.enums.map (·.fullName)) = ["p.Bag.Line.Kind"] := by
    decide +kernel
  rcases hread with ⟨file, hfile, hbag⟩
  exact ⟨file, hfile, hbag, Schema.File.fits_of_ofText hfile⟩

end HessianGo
