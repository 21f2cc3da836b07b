import HessianGo.Binding.Basic
import HessianGo.Code.Expr
import HessianGo.Code.Literal
import HessianGo.Code.Package

/-!
This module contains the bindings of fields: the Go type of a field, the Go expression for its value
when it is not set, and how both are written.
-/

namespace HessianGo

namespace Code

def TypeExpr.ofScalar : Schema.ScalarType → TypeExpr
  | .bool => .plain "bool"
  | .int32 | .sint32 | .sfixed32 => .plain "int32"
  | .uint32 | .fixed32 => .plain "uint32"
  | .int64 | .sint64 | .sfixed64 => .plain "int64"
  | .uint64 | .fixed64 => .plain "uint64"
  | .float => .plain "float32"
  | .double => .plain "float64"
  | .string => .plain "string"
  | .bytes => .slice (.plain "byte")

end Code

namespace Binding

open Code (TypeExpr Expr Packages)

variable (packages : Packages)

def elementType (field : Schema.Field) : TypeExpr :=
  match field.type with
  | .scalar type => .ofScalar type
  | .enum fullName => .ident (packages.ident fullName)
  | .message fullName => .pointer (.ident (packages.ident fullName))
  -- A name that was never resolved stands for a type of the same package.
  | .named written =>
    .plain (Code.camelCase (String.ofList (written.toList.dropWhile (· = '.'))))

def entryFields? (field : Schema.Field) : Option (Schema.Field × Schema.Field) := do
  let fullName ← field.messageType?
  let entry ← packages.registry.message? fullName
  match entry.isMapEntry, entry.fields with
  | true, [key, value] => some (key, value)
  | _, _ => none

def standardType (field : Schema.Field) : TypeExpr :=
  if field.isRepeated then
    match entryFields? packages field with
    | some (key, value) => .map (elementType packages key) (elementType packages value)
    | none => .slice (elementType packages field)
  else
    elementType packages field

def referenceIdent? (field : Schema.Field) : Option Code.Ident := do
  let fullName ← field.messageType?
  let message ← packages.registry.message? fullName
  let options ← message.options
  if options.referencePath = "" then
    none
  else
    some { name := (packages.ident message.fullName).name
           importPath := Code.ImportPath.ofText options.referencePath }

def fieldType (field : Schema.Field) : TypeExpr :=
  match referenceIdent? packages field with
  -- The label of the field makes no difference here.
  | some ident => .pointer (.ident ident)
  | none => standardType packages field

def floatConstant (narrow : Bool) (written : String) : Expr :=
  let math (function : String) : Code.Ident :=
    { name := function, importPath := Code.ImportPath.ofText "math" }
  -- These values have no constant.
  let special? : Option Expr :=
    match written with
    | "inf" => some (.call (math "Inf") "1")
    | "-inf" => some (.call (math "Inf") "-1")
    | "nan" => some (.call (math "NaN") "")
    | "-nan" => some (.call (math "NaN") "")
    | _ => none
  match special? with
  | some call => if narrow then .convert "float32" call else call
  | none => .plain written

def explicitDefault (type : Schema.FieldType) : Schema.DefaultValue → Expr
  | .text value => .plain (Code.quote value)
  | .bytes value => .plain ("[]byte(" ++ Code.quoteBytes value ++ ")")
  | .constant written =>
    match type with
    | .enum fullName => .ident (packages.enumValueIdent fullName written)
    | .scalar .float => floatConstant true written
    | .scalar .double => floatConstant false written
    | _ => .plain written

def zeroValue (type : Schema.FieldType) : Expr :=
  match type with
  | .enum fullName =>
    match (packages.registry.enum? fullName).bind (·.values.head?) with
    | some value => .ident (packages.enumValueIdent fullName value.name)
    | none => .plain "0"
  | .scalar .bool => .plain "false"
  | .scalar .string => .plain "\"\""
  | .scalar .bytes => .nil
  | .scalar _ => .plain "0"
  | _ => .nil

def fieldDefault (field : Schema.Field) : Expr :=
  if field.isRepeated then
    .nil
  else
    match field.defaultValue with
    | some value => explicitDefault packages field.type value
    | none => zeroValue packages field.type

def bindField (field : Schema.Field) : Code.Writing Field := do
  let typeName ← (fieldType packages field).write
  let defaultValue ← (fieldDefault packages field).write
  let goName := Code.camelCase field.name
  if field.isWrapper then
    return { schema := field, goName, typeName := "*" ++ typeName, defaultValue := "nil" }
  else
    return { schema := field, goName, typeName, defaultValue }

end Binding

end HessianGo
