/-!
This module contains the schema model: files with their messages, enums and fields, and the option
blocks that tie them to classes and packages of the target languages.
-/

namespace HessianGo

namespace Schema

inductive Dialect where
  | proto2
  | proto3
  | editions
  deriving DecidableEq, Inhabited

inductive ScalarType where
  | double
  | float
  | int32
  | int64
  | uint32
  | uint64
  | sint32
  | sint64
  | fixed32
  | fixed64
  | sfixed32
  | sfixed64
  | bool
  | string
  | bytes
  deriving DecidableEq, Inhabited

namespace ScalarType

def word : ScalarType → String
  | double => "double"
  | float => "float"
  | int32 => "int32"
  | int64 => "int64"
  | uint32 => "uint32"
  | uint64 => "uint64"
  | sint32 => "sint32"
  | sint64 => "sint64"
  | fixed32 => "fixed32"
  | fixed64 => "fixed64"
  | sfixed32 => "sfixed32"
  | sfixed64 => "sfixed64"
  | bool => "bool"
  | string => "string"
  | bytes => "bytes"

def all : List ScalarType :=
  [double, float, int32, int64, uint32, uint64, sint32, sint64, fixed32, fixed64, sfixed32,
   sfixed64, bool, string, bytes]

def ofWord? (w : String) : Option ScalarType :=
  all.find? (·.word = w)

end ScalarType

/--
The type of a field. A reference is first the name as written, with a leading dot if it is
absolute; resolution turns it into the full name of the message or enum it stands for.
-/
inductive FieldType where
  | scalar (type : ScalarType)
  | message (fullName : String)
  | enum (fullName : String)
  | named (written : String)
  deriving DecidableEq, Inhabited

inductive Label where
  | optional
  | required
  | repeated
  deriving DecidableEq, Inhabited

/--
An explicit default of a field: the decoded text or bytes of a string literal, or any other constant
as it was written.
-/
inductive DefaultValue where
  | text (value : String)
  | bytes (value : List UInt8)
  | constant (written : String)
  deriving DecidableEq, Inhabited

structure FieldOptions where
  /-- The field is a boxed value that may be absent. -/
  isWrapper : Bool := false
  deriving DecidableEq, Inhabited

structure MessageOptions where
  javaClassName : String := ""
  /-- The import path of the package that really defines the message; empty if there is none. -/
  referencePath : String := ""
  /-- The message only groups the arguments of a call and has no class of its own. -/
  extendArgs : Bool := false
  /-- The message is the inherited part of the message around it. -/
  isInheritance : Bool := false
  deriving DecidableEq, Inhabited

structure EnumOptions where
  javaClassName : String := ""
  deriving DecidableEq, Inhabited

structure Field where
  name : String
  number : UInt32
  label : Label := .optional
  type : FieldType
  defaultValue : Option DefaultValue := none
  oneof : Option String := none
  options : Option FieldOptions := none
  deriving DecidableEq, Inhabited

namespace Field

def isRepeated (field : Field) : Bool :=
  field.label = .repeated

def messageType? (field : Field) : Option String :=
  match field.type with
  | .message fullName => some fullName
  | _ => none

def enumType? (field : Field) : Option String :=
  match field.type with
  | .enum fullName => some fullName
  | _ => none

def isWrapper (field : Field) : Bool :=
  field.options.any (·.isWrapper)

end Field

structure EnumValue where
  name : String
  number : Int32
  deriving DecidableEq, Inhabited

structure Enum where
  name : String
  fullName : String
  values : List EnumValue := []
  options : Option EnumOptions := none
  deriving DecidableEq, Inhabited

structure Message where
  name : String
  fullName : String
  fields : List Field := []
  messages : List Message := []
  enums : List Enum := []
  oneofs : List String := []
  isMapEntry : Bool := false
  options : Option MessageOptions := none
  deriving Inhabited

structure File where
  name : String
  package : Option String := none
  dialect : Dialect := .proto2
  imports : List String := []
  goPackage : Option String := none
  enums : List Enum := []
  messages : List Message := []
  deriving Inhabited

def qualify (parent : Option String) (name : String) : String :=
  match parent with
  | none => name
  | some parent => if parent = "" then name else parent ++ "." ++ name

end Schema

end HessianGo
