import HessianGo.Schema.Basic

/-!
This module contains the source tree of a schema file: its declarations as they are written, before
literals are decoded and names are completed. Declarations that leave nothing in a schema (reserved
numbers, extension ranges, extensions, services) are kept as `skipped` only.
-/

namespace HessianGo

namespace Source

inductive OptionValue where
  | constant (written : String)
  | aggregate (entries : List (String × OptionValue))
  | list (items : List OptionValue)
  deriving Inhabited

structure OptionAssignment where
  extension : Option String
  path : List String
  value : OptionValue
  deriving Inhabited

structure FieldDecl where
  label : Schema.Label
  type : Schema.FieldType
  name : String
  number : String
  options : List OptionAssignment

structure MapDecl where
  key : Schema.ScalarType
  value : Schema.FieldType
  name : String
  number : String
  options : List OptionAssignment

inductive OneofItem where
  | field (decl : FieldDecl)
  | skipped

structure OneofDecl where
  name : String
  items : List OneofItem

inductive EnumItem where
  | option (assignment : OptionAssignment)
  | value (name number : String)
  | skipped

structure EnumDecl where
  name : String
  items : List EnumItem

inductive MessageItem where
  | option (assignment : OptionAssignment)
  | field (decl : FieldDecl)
  | mapField (decl : MapDecl)
  | oneof (decl : OneofDecl)
  | enum (decl : EnumDecl)
  | message (name : String) (items : List MessageItem)
  | skipped

inductive Statement where
  | importFile (literal : String)
  | package (name : String)
  | option (assignment : OptionAssignment)
  | message (name : String) (items : List MessageItem)
  | enum (decl : EnumDecl)
  | skipped

inductive DialectClause where
  | byName (literal : String)
  | byEdition (literal : String)

structure FileTree where
  dialect : Option DialectClause
  statements : List Statement

end Source

end HessianGo
