import HessianGo.Source.Token
import HessianGo.Source.Tree

/-!
This module contains the grammar of schema files as readers of source trees. Of several forms that
could start at a place the first one that reads to its end is taken, so `option` at the start of the
word `optional` is tried and given up again.

Every repetition has at most `bound` rounds and every nesting at most `depth` levels. A bound above
the number of characters is never met.
-/

namespace HessianGo

namespace Source

open Reader

def emptyStatement : Reader Unit :=
  symbol ';'

/-! ### Options -/

def extensionName (bound : Nat) : Reader String := do
  symbol '('
  let _ ← maybe (symbol '.')
  let extension ← path bound
  symbol ')'
  return extension

def optionName (bound : Nat) : Reader (Option String × List String) := do
  let (extension, first) ←
    (do
      let extension ← extensionName bound
      return (some extension, []))
    <|> (do
      let first ← name
      return (none, [first]))
  let others ← many (do
    symbol '.'
    name) bound
  return (extension, first ++ others)

/--
The key of an aggregate entry, with all that stands between its first and its last character.
-/
def aggregateKey (bound : Nat) : Reader String :=
  token (String.ofList <$> textOf (extensionName bound <|> name))

def optionValue (bound : Nat) : (depth : Nat) → Reader OptionValue
  | 0 => exhausted
  | depth + 1 => firstOf [
      do
        symbol '\x7b'
        let entries ← many (do
          let key ← aggregateKey bound
          let _ ← maybe (symbol ':')
          let value ← optionValue bound depth
          let _ ← maybe (symbol ',' <|> symbol ';')
          return (key, value)) bound
        symbol '\x7d'
        return .aggregate entries,
      do
        symbol '['
        let items ← many (do
          let item ← optionValue bound depth
          let _ ← maybe (symbol ',')
          return item) bound
        symbol ']'
        return .list items,
      .constant <$> constant bound]

def assignment (bound : Nat) : Reader OptionAssignment := do
  let (extension, path) ← optionName bound
  symbol '='
  let value ← optionValue bound bound
  return { extension, path, value }

def optionStatement (bound : Nat) : Reader OptionAssignment := do
  keyword "option"
  let assignment ← assignment bound
  symbol ';'
  return assignment

def trailingOptions (bound : Nat) : Reader (List OptionAssignment) :=
  (do
    symbol '['
    let first ← assignment bound
    let others ← many (do
      symbol ','
      assignment bound) bound
    symbol ']'
    return first :: others)
  <|> succeed []

/-! ### Parts of messages and enums -/

def label : Reader Schema.Label :=
  firstOf [
    (fun _ => .repeated) <$> wholeWord "repeated",
    (fun _ => .optional) <$> wholeWord "optional",
    (fun _ => .required) <$> wholeWord "required",
    succeed .optional]

def field (bound : Nat) : Reader FieldDecl := do
  let label ← label
  let type ← fieldType bound
  let name ← name
  symbol '='
  let number ← integer
  let options ← trailingOptions bound
  symbol ';'
  return { label, type, name, number, options }

def mapField (bound : Nat) : Reader MapDecl := do
  keyword "map"
  symbol '<'
  let key ← token scalarHere
  symbol ','
  let value ← fieldType bound
  symbol '>'
  let name ← name
  symbol '='
  let number ← integer
  let options ← trailingOptions bound
  symbol ';'
  return { key, value, name, number, options }

def oneof (bound : Nat) : Reader OneofDecl := do
  keyword "oneof"
  let name ← name
  symbol '\x7b'
  let items ← many (firstOf [
    (fun _ => .skipped) <$> optionStatement bound,
    .field <$> field bound,
    (fun _ => .skipped) <$> emptyStatement]) bound
  symbol '\x7d'
  return { name, items }

def numberRange : Reader Unit := do
  let _ ← integer
  let _ ← maybe do
    keyword "to"
    (do
      let _ ← integer)
    <|> keyword "max"

def reserved (bound : Nat) : Reader Unit := do
  let item : Reader Unit := (do
    let _ ← stringLiteral) <|> numberRange
  keyword "reserved"
  item
  let _ ← many (do
    symbol ','
    item) bound
  symbol ';'

def extensions (bound : Nat) : Reader Unit := do
  keyword "extensions"
  numberRange
  let _ ← many (do
    symbol ','
    numberRange) bound
  let _ ← trailingOptions bound
  symbol ';'

def extend (bound : Nat) : Reader Unit := do
  keyword "extend"
  let _ ← fieldType bound
  symbol '\x7b'
  let _ ← many ((fun _ => ()) <$> field bound <|> emptyStatement) bound
  symbol '\x7d'

def enumValue (bound : Nat) : Reader EnumItem := do
  let name ← name
  symbol '='
  let number ← integer
  -- The options are dropped.
  let _ ← trailingOptions bound
  symbol ';'
  return .value name number

def enum (bound : Nat) : Reader EnumDecl := do
  keyword "enum"
  let name ← name
  symbol '\x7b'
  let items ← many (firstOf [
    .option <$> optionStatement bound,
    (fun _ => .skipped) <$> reserved bound,
    enumValue bound,
    (fun _ => .skipped) <$> emptyStatement]) bound
  symbol '\x7d'
  return { name, items }

def messageItem (bound : Nat) : (depth : Nat) → Reader MessageItem
  | 0 => exhausted
  | depth + 1 => firstOf [
      .option <$> optionStatement bound,
      .mapField <$> mapField bound,
      do
        keyword "message"
        let name ← name
        symbol '\x7b'
        let items ← many (messageItem bound depth) bound
        symbol '\x7d'
        return .message name items,
      .enum <$> enum bound,
      .oneof <$> oneof bound,
      (fun _ => .skipped) <$> reserved bound,
      (fun _ => .skipped) <$> extensions bound,
      (fun _ => .skipped) <$> extend bound,
      .field <$> field bound,
      (fun _ => .skipped) <$> emptyStatement]

/-! ### Files -/

def callType (bound : Nat) : Reader Unit := do
  symbol '('
  let _ ← maybe (wholeWord "stream")
  let _ ← fieldType bound
  symbol ')'

def call (bound : Nat) : Reader Unit := do
  keyword "rpc"
  let _ ← name
  callType bound
  keyword "returns"
  callType bound
  (do
    symbol '\x7b'
    let _ ← many ((fun _ => ()) <$> optionStatement bound <|> emptyStatement) bound
    symbol '\x7d')
  <|> symbol ';'

def service (bound : Nat) : Reader Unit := do
  keyword "service"
  let _ ← name
  symbol '\x7b'
  let _ ← many (firstOf [
    (fun _ => ()) <$> optionStatement bound,
    call bound,
    emptyStatement]) bound
  symbol '\x7d'

def importFile : Reader Statement := do
  keyword "import"
  let _ ← maybe (wholeWord "weak" <|> wholeWord "public")
  let literal ← stringLiteral
  symbol ';'
  return .importFile literal

def package (bound : Nat) : Reader Statement := do
  keyword "package"
  let name ← path bound
  symbol ';'
  return .package name

def statement (bound : Nat) : Reader Statement :=
  firstOf [
    importFile,
    package bound,
    .option <$> optionStatement bound,
    do
      keyword "message"
      let name ← name
      symbol '\x7b'
      let items ← many (messageItem bound bound) bound
      symbol '\x7d'
      return .message name items,
    .enum <$> enum bound,
    (fun _ => .skipped) <$> service bound,
    (fun _ => .skipped) <$> extend bound,
    (fun _ => .skipped) <$> emptyStatement]

def dialectClause : Reader DialectClause := do
  let clause ←
    (fun _ => DialectClause.byName) <$> keyword "syntax"
    <|> (fun _ => DialectClause.byEdition) <$> keyword "edition"
  symbol '='
  let literal ← stringLiteral
  symbol ';'
  return clause literal

def file (bound : Nat) : Reader FileTree := do
  let dialect ← maybe dialectClause
  let statements ← many (statement bound) bound
  token atEnd
  return { dialect, statements }

def FileTree.ofText? (s : List Char) : Option FileTree :=
  match file (s.length + 1) s with
  | .ok tree _ => some tree
  | _ => none

end Source

end HessianGo
