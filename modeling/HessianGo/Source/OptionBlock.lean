import HessianGo.Schema.Basic
import HessianGo.Source.StringLiteral
import HessianGo.Source.Tree
import HessianGo.Text.Cut

/-!
This module contains the option blocks of messages, fields and enums. A block is an extension with
keys; it can be set as a whole, `(x.ext) = { key: value }`, or key by key, `(x.ext).key = value`,
and all assignments to it merge in the order in which they are written.
-/

namespace HessianGo

namespace Source

open Schema (OptionFault)

namespace OptionValue

def string (key : String) : OptionValue → Except OptionFault String
  | constant written =>
    if StringLiteral.isQuoted written then
      StringLiteral.text written
    else
      .error (.expectsString key)
  | _ => .error (.expectsString key)

def bool (key : String) : OptionValue → Except OptionFault Bool
  | constant written =>
    if written = "true" then .ok true
    else if written = "false" then .ok false
    else .error (.expectsBool key)
  | _ => .error (.expectsBool key)

end OptionValue

namespace OptionAssignment

def isTo (assignment : OptionAssignment) (extension : String) : Bool :=
  -- The package of the extension makes no difference.
  assignment.extension.any fun written =>
    Text.lastPiece '.' written.toList = extension.toList

def isBuiltin (assignment : OptionAssignment) (option : String) : Bool :=
  assignment.extension.isNone && assignment.path = [option]

def entries (assignment : OptionAssignment) :
    Except OptionFault (List (String × OptionValue)) :=
  match assignment.path, assignment.value with
  | [], .aggregate entries => .ok entries
  | [key], value => .ok [(key, value)]
  | _, _ => .error (.unsupportedForm (assignment.extension.getD ""))

end OptionAssignment

def lastBuiltin? (option : String) (assignments : List OptionAssignment) :
    Option OptionAssignment :=
  assignments.reverse.find? (·.isBuiltin option)

/--
A kind of option block: the extension that sets it, the block before any assignment, and what the
assignment of a value to a key makes of it.
-/
structure BlockKind (Block : Type) where
  extension : String
  initial : Block
  assign : Block → String × OptionValue → Except OptionFault Block

namespace BlockKind

variable {Block : Type}

def extend (kind : BlockKind Block) (block : Option Block) (assignment : OptionAssignment) :
    Except OptionFault (Option Block) := do
  let entries ← assignment.entries
  let block ← entries.foldlM kind.assign (block.getD kind.initial)
  return some block

def read (kind : BlockKind Block) (assignments : List OptionAssignment) :
    Except OptionFault (Option Block) :=
  (assignments.filter (·.isTo kind.extension)).foldlM kind.extend none

end BlockKind

def messageBlock : BlockKind Schema.MessageOptions where
  extension := "message_extend"
  initial := {}
  assign block entry := do
    let (key, value) := entry
    match key with
    | "java_class_name" => return { block with javaClassName := ← value.string key }
    | "reference_path" => return { block with referencePath := ← value.string key }
    | "extend_args" => return { block with extendArgs := ← value.bool key }
    | "is_inheritance" => return { block with isInheritance := ← value.bool key }
    | _ => .error (.unknownKey "Hessian2MessageOptions" key)

def fieldBlock : BlockKind Schema.FieldOptions where
  extension := "field_extend"
  initial := {}
  assign block entry := do
    let (key, value) := entry
    match key with
    | "is_wrapper" => return { block with isWrapper := ← value.bool key }
    | _ => .error (.unknownKey "Hessian2FieldOptions" key)

def enumBlock : BlockKind Schema.EnumOptions where
  extension := "enum_extend"
  initial := {}
  assign block entry := do
    let (key, value) := entry
    match key with
    | "java_class_name" => return { block with javaClassName := ← value.string key }
    | _ => .error (.unknownKey "Hessian2EnumOptions" key)

def goPackage (assignments : List OptionAssignment) : Except OptionFault (Option String) :=
  match lastBuiltin? "go_package" assignments with
  | some assignment => some <$> assignment.value.string "go_package"
  | none => .ok none

def defaultValue (dialect : Schema.Dialect) (type : Schema.FieldType)
    (assignments : List OptionAssignment) : Except OptionFault (Option Schema.DefaultValue) :=
  match lastBuiltin? "default" assignments with
  | none => .ok none
  | some assignment =>
    if dialect = .proto3 then
      .error .defaultInProto3
    else
      match type, assignment.value with
      | .scalar .string, value => (some ∘ .text) <$> value.string "default"
      | .scalar .bytes, .constant written =>
        if StringLiteral.isQuoted written then
          (some ∘ .bytes) <$> StringLiteral.bytes written
        else
          .error (.expectsString "default")
      | .scalar .bytes, _ => .error (.expectsString "default")
      | _, .constant written => .ok (some (.constant written))
      | _, _ => .error .defaultNotConstant

end Source

end HessianGo
