import HessianGo.Source.Grammar
import HessianGo.Source.IntegerLiteral
import HessianGo.Source.OptionBlock

/-!
This module contains the schema that a source text describes. Literals are decoded, names are
completed by the package and the messages around them, map fields get their entry messages and
groups of exclusive fields are dissolved into the message around them. Faults are met in the order
of the text; the option block of a message or enum is decoded after all its other parts.
-/

namespace HessianGo

namespace Source

open Schema (Error)

def ofOptions {α : Type} (result : Except Schema.OptionFault α) : Except Error α :=
  result.mapError .invalidOption

/--
The name of a map entry before its ending: underscores are dropped, and the first letter and each
letter after an underscore are capitals.
-/
def entryStem : (capital : Bool) → List Char → List Char
  | _, [] => []
  | capital, c :: s =>
    if c = '_' then entryStem true s
    else if capital then c.toUpper :: entryStem false s
    else c :: entryStem false s

def entryName (fieldName : String) : String :=
  String.ofList (entryStem true fieldName.toList) ++ "Entry"

def FieldDecl.toField (dialect : Schema.Dialect) (oneof : Option String) (decl : FieldDecl) :
    Except Error Schema.Field := do
  let number ← IntegerLiteral.fieldNumber decl.number
  let defaultValue ← ofOptions (defaultValue dialect decl.type decl.options)
  let options ← ofOptions (fieldBlock.read decl.options)
  return { name := decl.name, number, label := decl.label, type := decl.type, defaultValue, oneof,
           options }

def MapDecl.entry (parent : String) (decl : MapDecl) : Schema.Message :=
  let name := entryName decl.name
  { name
    fullName := Schema.qualify (some parent) name
    fields := [
      { name := "key", number := 1, type := .scalar decl.key },
      { name := "value", number := 2, type := decl.value }]
    isMapEntry := true }

def MapDecl.toField (parent : String) (decl : MapDecl) : Except Error Schema.Field := do
  let number ← IntegerLiteral.fieldNumber decl.number
  let options ← ofOptions (fieldBlock.read decl.options)
  return { name := decl.name, number, label := .repeated
           type := .message (decl.entry parent).fullName, options }

def OneofDecl.toFields (dialect : Schema.Dialect) (decl : OneofDecl) :
    Except Error (List Schema.Field) :=
  go decl.items
where
  go : List OneofItem → Except Error (List Schema.Field)
  | [] => .ok []
  | .field field :: items => do
    let first ← field.toField dialect (some decl.name)
    let others ← go items
    return first :: others
  | .skipped :: items => go items

namespace EnumDecl

def values : List EnumItem → Except Error (List Schema.EnumValue)
  | [] => .ok []
  | .value name literal :: items => do
    let number ← IntegerLiteral.enumNumber literal
    let others ← values items
    return { name, number } :: others
  | _ :: items => values items

def assignments (decl : EnumDecl) : List OptionAssignment :=
  decl.items.filterMap fun
    | .option assignment => some assignment
    | _ => none

def toEnum (parent : Option String) (decl : EnumDecl) : Except Error Schema.Enum := do
  let values ← values decl.items
  let options ← ofOptions (enumBlock.read decl.assignments)
  return { name := decl.name, fullName := Schema.qualify parent decl.name, values, options }

end EnumDecl

structure Members where
  fields : List Schema.Field := []
  messages : List Schema.Message := []
  enums : List Schema.Enum := []
  oneofs : List String := []
  assignments : List OptionAssignment := []

instance : Append Members where
  append a b :=
    { fields := a.fields ++ b.fields
      messages := a.messages ++ b.messages
      enums := a.enums ++ b.enums
      oneofs := a.oneofs ++ b.oneofs
      assignments := a.assignments ++ b.assignments }

def Members.toMessage (name fullName : String) (members : Members) :
    Except Error Schema.Message := do
  let options ← ofOptions (messageBlock.read members.assignments)
  return { name, fullName, fields := members.fields, messages := members.messages
           enums := members.enums, oneofs := members.oneofs, options }

mutual

def MessageItem.members (dialect : Schema.Dialect) (scope : String) :
    MessageItem → Except Error Members
  | .option assignment => .ok { assignments := [assignment] }
  | .field decl => do
    let field ← decl.toField dialect none
    return { fields := [field] }
  | .mapField decl => do
    let field ← decl.toField scope
    return { fields := [field], messages := [decl.entry scope] }
  | .oneof decl => do
    let fields ← decl.toFields dialect
    return { fields, oneofs := [decl.name] }
  | .enum decl => do
    let enum ← decl.toEnum (some scope)
    return { enums := [enum] }
  | .message name items => do
    let fullName := Schema.qualify (some scope) name
    let inner ← MessageItem.membersOfList dialect fullName items
    let message ← inner.toMessage name fullName
    return { messages := [message] }
  | .skipped => .ok {}

def MessageItem.membersOfList (dialect : Schema.Dialect) (scope : String) :
    List MessageItem → Except Error Members
  | [] => .ok {}
  | item :: items => do
    let first ← item.members dialect scope
    let others ← MessageItem.membersOfList dialect scope items
    return first ++ others

end

def message (dialect : Schema.Dialect) (parent : Option String) (name : String)
    (items : List MessageItem) : Except Error Schema.Message := do
  let fullName := Schema.qualify parent name
  let members ← MessageItem.membersOfList dialect fullName items
  members.toMessage name fullName

def DialectClause.dialect : Option DialectClause → Except Error Schema.Dialect
  | none => .ok .proto2
  -- All editions named by number are one.
  | some (.byEdition literal) => do
    let _ ← ofOptions (StringLiteral.text literal)
    return .editions
  | some (.byName literal) => do
    let value ← ofOptions (StringLiteral.text literal)
    match value with
    | "proto2" => return .proto2
    | "proto3" => return .proto3
    | _ => .error (.unsupportedDialect value)

namespace FileTree

def imports : List Statement → Except Error (List String)
  | [] => .ok []
  | .importFile literal :: statements => do
    let first ← ofOptions (StringLiteral.text literal)
    let others ← imports statements
    return first :: others
  | _ :: statements => imports statements

def package? (tree : FileTree) : Option String :=
  -- The last package statement counts, wherever it stands.
  tree.statements.reverse.findSome? fun
    | .package name => some name
    | _ => none

def assignments (tree : FileTree) : List OptionAssignment :=
  tree.statements.filterMap fun
    | .option assignment => some assignment
    | _ => none

def definitions (dialect : Schema.Dialect) (package : Option String) :
    List Statement → Except Error (List Schema.Message × List Schema.Enum)
  | [] => .ok ([], [])
  | .message name items :: statements => do
    let first ← message dialect package name items
    let (messages, enums) ← definitions dialect package statements
    return (first :: messages, enums)
  | .enum decl :: statements => do
    let first ← decl.toEnum package
    let (messages, enums) ← definitions dialect package statements
    return (messages, first :: enums)
  | _ :: statements => definitions dialect package statements

def toFile (name : String) (tree : FileTree) : Except Error Schema.File := do
  let dialect ← DialectClause.dialect tree.dialect
  let imports ← imports tree.statements
  let goPackage ← ofOptions (goPackage tree.assignments)
  let package := tree.package?
  let (messages, enums) ← definitions dialect package tree.statements
  return { name, package, dialect, imports, goPackage, enums, messages }

end FileTree

end Source

/--
The schema file a text describes. Type names in it are still as they are written.
-/
def Schema.File.ofText (name text : String) : Except Schema.Error Schema.File :=
  match Source.FileTree.ofText? text.toList with
  | some tree => tree.toFile name
  | none => .error .ungrammatical

end HessianGo
