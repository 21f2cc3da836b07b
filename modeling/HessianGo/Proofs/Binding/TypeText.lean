import HessianGo.Proofs.Binding.Bound
import HessianGo.Proofs.Code.References
import HessianGo.Proofs.Registry.Declared

/-!
This module contains the texts of the types of bound fields. The type of a field that holds one
message, a list or a map is put together from the names of built-in types and from references to
identifiers, and a boxed field has one star more.
-/

namespace HessianGo

def Schema.Message.referencePath (message : Schema.Message) : String :=
  (message.options.map (·.referencePath)).getD ""

namespace Code

def scalarName : Schema.ScalarType → String
  | .bool => "bool"
  | .int32 | .sint32 | .sfixed32 => "int32"
  | .uint32 | .fixed32 => "uint32"
  | .int64 | .sint64 | .sfixed64 => "int64"
  | .uint64 | .fixed64 => "uint64"
  | .float => "float32"
  | .double => "float64"
  | .string => "string"
  | .bytes => "[]byte"

theorem TypeExpr.text_ofScalar (type : Schema.ScalarType) (table : ImportTable) :
    (TypeExpr.ofScalar type).text table = scalarName type := by
  cases type <;> rfl

namespace ImportTable

def IsReference (table : ImportTable) (ident : Ident) (text : String) : Prop :=
  (table.isBare ident.importPath.path ∧ text = ident.name)
    ∨ ∃ name, (ident.importPath.path, name) ∈ table.entries ∧ text = name ++ "." ++ ident.name

theorem Knows.isReference {table : ImportTable} {ident : Ident}
    (h : table.Knows ident.importPath.path) (hwellFormed : table.WellFormed) :
    table.IsReference ident (table.refer ident) := by
  cases hbare : table.isBare ident.importPath.path with
  | true => exact .inl ⟨hbare, refer_of_isBare hbare⟩
  | false =>
    rcases h.exists_refer_eq hwellFormed hbare with ⟨name, hentry, htext⟩
    refine .inr ⟨name, hentry, ?_⟩
    rw [← String.toList_inj, htext]
    simp

end ImportTable

end Code

namespace Binding

open Code (Packages ImportTable Ident)

def boxing (field : Schema.Field) : String :=
  if field.isWrapper then "*" else ""

theorem typeName_fieldAt (packages : Packages) (table : ImportTable) (field : Schema.Field) :
    (fieldAt packages table field).typeName
      = boxing field ++ (fieldType packages field).text table := by
  unfold fieldAt boxing
  split
  . rfl
  . exact (String.empty_append).symm

section

variable {packages : Packages} {final : ImportTable} {bound : Field}

theorem IsBound.typeName_eq (h : IsBound packages final bound) :
    bound.typeName = boxing bound.schema ++ (fieldType packages bound.schema).text final := by
  rw [h.eq_fieldAt.1, typeName_fieldAt, schema_fieldAt]

theorem IsBound.isReference (h : IsBound packages final bound) {ident : Ident}
    (hident : ident ∈ (fieldType packages bound.schema).idents) :
    final.IsReference ident (final.refer ident) := by
  rcases h.eq_fieldAt with ⟨-, hwellFormed, hknows⟩
  exact (hknows ident (List.mem_append_left _ hident)).isReference hwellFormed

end

/-! ### Messages that are defined elsewhere -/

def referenceIdent (packages : Packages) (message : Schema.Message) : Ident where
  name := (packages.ident message.fullName).name
  importPath := Code.ImportPath.ofText message.referencePath

theorem name_referenceIdent (packages : Packages) (message : Schema.Message) :
    (referenceIdent packages message).name = (packages.ident message.fullName).name :=
  rfl

section

variable {packages : Packages} {field : Schema.Field} {fullName : String}
  {message : Schema.Message}

theorem messageType?_of_type (htype : field.type = .message fullName) :
    field.messageType? = some fullName := by
  unfold Schema.Field.messageType?
  rw [htype]

theorem referenceIdent?_of_message? (htype : field.type = .message fullName)
    (hmessage : packages.registry.message? fullName = some message) :
    referenceIdent? packages field
      = if message.referencePath = "" then none else some (referenceIdent packages message) := by
  unfold referenceIdent? referenceIdent Schema.Message.referencePath
  rw [messageType?_of_type htype, Option.bind_eq_bind, Option.bind_some, hmessage,
    Option.bind_eq_bind, Option.bind_some]
  cases message.options with
  | none => rfl
  | some options => rfl

theorem fieldType_of_referencePath (htype : field.type = .message fullName)
    (hmessage : packages.registry.message? fullName = some message)
    (hpath : message.referencePath ≠ "") :
    fieldType packages field = .pointer (.ident (referenceIdent packages message)) := by
  unfold fieldType
  rw [referenceIdent?_of_message? htype hmessage, if_neg hpath]

/-! ### Entries of maps -/

theorem fieldType_of_isEntry {entry : Schema.Message} {key : Schema.ScalarType}
    {value : Schema.Field} (h : Schema.IsEntry entry key value)
    (hrepeated : field.isRepeated = true) (htype : field.type = .message fullName)
    (hentry : packages.registry.message? fullName = some entry) :
    fieldType packages field = .map (.ofScalar key) (elementType packages value) := by
  have hpath : entry.referencePath = "" := by
    rw [Schema.Message.referencePath, h.options]
    rfl
  have hfields : entryFields? packages field
      = some ({ name := "key", number := 1, type := .scalar key }, value) := by
    unfold entryFields?
    rw [messageType?_of_type htype, Option.bind_eq_bind, Option.bind_some, hentry,
      Option.bind_eq_bind, Option.bind_some, h.isMapEntry, h.fields]
  unfold fieldType standardType
  rw [referenceIdent?_of_message? htype hentry, if_pos hpath, if_pos hrepeated, hfields]
  rfl

end

end Binding

end HessianGo
