import HessianGo.Document.Table
import HessianGo.Reader
import HessianGo.Text.Digit

/-!
This module contains the grammar of TOML documents as readers. Of the values only texts, dates,
lists and tables are read: a number or a truth value has no place in a configuration, and neither
has a list of tables with headers.
-/

namespace HessianGo

namespace Document

open Reader

def isBlank (c : Char) : Bool :=
  c = ' ' || c = '\t'

def isTextChar (c : Char) : Bool :=
  c = '\t' || (0x20 ≤ c.toNat && c.toNat ≠ 0x7f)

def blanks : Reader Unit := do
  let _ ← chars isBlank

def newline : Reader (List Char) :=
  literal ['\n'] <|> literal ['\r', '\n']

def comment : Reader Unit := do
  let _ ← char (· = '#')
  let _ ← chars isTextChar

def gap (bound : Nat) : Reader Unit := do
  let _ ← many (firstOf [
    (fun _ => ()) <$> chars1 isBlank,
    (fun _ => ()) <$> newline,
    comment]) bound

/-! ### Strings -/

def numberedChar (width : Nat) : Reader (List Char) := fun s =>
  let digits := s.take width
  match Text.number? 16 digits with
  | some n =>
    if digits.length = width ∧ n.isValidChar then .ok [Char.ofNat n] (s.drop width) else .mismatch
  | none => .mismatch

def escape : Reader (List Char) := do
  let c ← char fun _ => true
  match c with
  | 'b' => return ['\x08']
  | 't' => return ['\t']
  | 'n' => return ['\n']
  | 'f' => return ['\x0c']
  | 'r' => return ['\r']
  | 'e' => return ['\x1b']
  | '"' => return ['"']
  | '\\' => return ['\\']
  | 'x' => numberedChar 2
  | 'u' => numberedChar 4
  | 'U' => numberedChar 8
  | _ => mismatch

def escaped : Reader (List Char) := do
  let _ ← char (· = '\\')
  escape

def basicString (bound : Nat) : Reader String := do
  let _ ← char (· = '"')
  let parts ← many
    (chars1 (fun c => isTextChar c && c ≠ '"' && c ≠ '\\') <|> escaped) bound
  let _ ← char (· = '"')
  return String.ofList parts.flatten

def literalString : Reader String := do
  let _ ← char (· = '\'')
  let content ← chars fun c => isTextChar c && c ≠ '\''
  let _ ← char (· = '\'')
  return String.ofList content

def innerQuote (quote : Char) : Reader (List Char) := fun s =>
  -- Three quotes close the string, and up to two more may stand before those.
  let run := (s.takeWhile (· = quote)).length
  if run = 1 ∨ run = 2 ∨ run = 4 ∨ run = 5 then .ok [quote] (s.drop 1) else .mismatch

def continuation (bound : Nat) : Reader (List Char) := do
  let _ ← char (· = '\\')
  blanks
  let _ ← newline
  let _ ← many (chars1 isBlank <|> newline) bound
  return []

def multiline (bound : Nat) (quote : Char) (part : Reader (List Char)) : Reader String := do
  let _ ← literal [quote, quote, quote]
  -- A line end right after the opening quotes is no part of the string.
  let _ ← maybe newline
  let parts ← many (firstOf [part, newline, innerQuote quote]) bound
  let _ ← literal [quote, quote, quote]
  return String.ofList parts.flatten

def string (bound : Nat) : Reader String :=
  firstOf [
    multiline bound '"' (firstOf [
      chars1 fun c => isTextChar c && c ≠ '"' && c ≠ '\\',
      continuation bound,
      escaped]),
    basicString bound,
    multiline bound '\'' (chars1 fun c => isTextChar c && c ≠ '\''),
    literalString]

/-! ### Dates and times -/

def decimal (width : Nat) : Reader Nat := fun s =>
  let digits := s.take width
  match Text.number? 10 digits with
  | some n => if digits.length = width then .ok n (s.drop width) else .mismatch
  | none => .mismatch

def date : Reader Date := do
  let year ← decimal 4
  let _ ← char (· = '-')
  let month ← decimal 2
  let _ ← char (· = '-')
  let day ← decimal 2
  let date : Date := { year, month, day }
  if date.isValid then return date else mismatch

def time : Reader Time := do
  let hour ← decimal 2
  let _ ← char (· = ':')
  let minute ← decimal 2
  let (second, nanosecond) ←
    (do
      let _ ← char (· = ':')
      let second ← decimal 2
      let nanosecond ←
        (do
          let _ ← char (· = '.')
          let digits ← chars1 Char.isDigit
          return Time.nanosecondsOf digits)
        <|> succeed 0
      return (second, nanosecond))
    <|> succeed (0, 0)
  let time : Time := { hour, minute, second, nanosecond }
  if time.isValid then return time else mismatch

def offset : Reader Offset :=
  (do
    let _ ← char fun c => c = 'Z' || c = 'z'
    return .zulu)
  <|> (do
    let sign ← char fun c => c = '+' || c = '-'
    let hours ← decimal 2
    let _ ← char (· = ':')
    let minutes ← decimal 2
    let count : Int := hours * 60 + minutes
    if hours ≤ 23 && minutes ≤ 59 then
      return .minutes (if sign = '-' then -count else count)
    else
      mismatch)

def dateTime : Reader DateTime :=
  firstOf [
    do
      let date ← date
      let _ ← char fun c => c = 'T' || c = 't' || c = ' '
      let time ← time
      let offset ← maybe offset
      return .moment date time offset,
    .date <$> date,
    .time <$> time]

/-! ### Keys and values -/

def simpleKey (bound : Nat) : Reader String :=
  firstOf [
    String.ofList <$> chars1 (fun c => c.isAlphanum || c = '_' || c = '-'),
    basicString bound,
    literalString]

def key (bound : Nat) : Reader (List String) := do
  let first ← simpleKey bound
  let others ← many (do
    blanks
    let _ ← char (· = '.')
    blanks
    simpleKey bound) bound
  return first :: others

def items {α : Type} (bound : Nat) (p : Reader α) : Reader (List α) :=
  (do
    let first ← p
    let others ← many (do
      gap bound
      let _ ← char (· = ',')
      gap bound
      p) bound
    gap bound
    let _ ← maybe (char (· = ','))
    gap bound
    return first :: others)
  <|> succeed []

def value (bound : Nat) : (depth : Nat) → Reader Value
  | 0 => exhausted
  | depth + 1 => firstOf [
      .text <$> string bound,
      do
        let _ ← char (· = '[')
        gap bound
        let values ← items bound (value bound depth)
        let _ ← char (· = ']')
        return .list values,
      do
        let _ ← char (· = '\x7b')
        gap bound
        let definitions ← items bound do
          let keys ← key bound
          gap bound
          let _ ← char (· = '=')
          gap bound
          let value ← value bound depth
          return (keys, value)
        let _ ← char (· = '\x7d')
        match Entries.ofDefinitions? definitions with
        | some entries => return .table .inline entries
        | none => mismatch,
      .dateTime <$> dateTime]

/-! ### Documents -/

def line (bound : Nat) : Reader Line :=
  firstOf [
    do
      let _ ← char (· = '[')
      blanks
      let keys ← key bound
      blanks
      let _ ← char (· = ']')
      return .header keys,
    do
      let keys ← key bound
      blanks
      let _ ← char (· = '=')
      blanks
      let value ← value bound bound
      return .definition keys value,
    succeed .blank]

def wholeLine (bound : Nat) : Reader Line := do
  blanks
  let line ← line bound
  blanks
  let _ ← maybe comment
  return line

def document (bound : Nat) : Reader (List Line) := do
  let _ ← maybe (char (· = '\ufeff'))
  let first ← wholeLine bound
  let others ← many (do
    let _ ← newline
    wholeLine bound) bound
  atEnd
  return first :: others

/--
The entries of the document in a text, if it is one that holds only texts, dates, lists and
tables.
-/
def Entries.ofText? (text : String) : Option Entries :=
  let s := text.toList
  match document (s.length + 1) s with
  | .ok lines _ => Entries.ofLines? lines
  | _ => none

end Document

end HessianGo
