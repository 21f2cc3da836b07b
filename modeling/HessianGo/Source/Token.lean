import HessianGo.Reader
import HessianGo.Schema.Basic
import HessianGo.Source.Trivia
import HessianGo.Text.Digit

/-!
This module contains the readers of single tokens: names, numbers, strings, keywords and symbols.
The first part reads a token that starts at once, `token` allows trivia in front of it.

A keyword is matched without looking at the character after it, so `messageM` is the keyword
`message` and the name `M`; the tokens for which the next character matters say so.
-/

namespace HessianGo

namespace Source

open Reader

def isNameStart (c : Char) : Bool :=
  c.isAlpha || c = '_'

def isNameChar (c : Char) : Bool :=
  c.isAlphanum || c = '_'

def isPathChar (c : Char) : Bool :=
  isNameChar c || c = '.'

/-! ### Tokens that start at once -/

def nameHere : Reader (List Char) := do
  let c ← char isNameStart
  let cs ← chars isNameChar
  return c :: cs

def pathHere (bound : Nat) : Reader (List Char) := do
  let first ← nameHere
  let others ← many (do
    let dot ← char (· = '.')
    let name ← nameHere
    return dot :: name) bound
  return first ++ others.flatten

def signHere : Reader (List Char) :=
  literal ['-'] <|> succeed []

def magnitudeHere : Reader (List Char) :=
  (do
    let zero ← char (· = '0')
    let x ← char fun c => c = 'x' || c = 'X'
    let digits ← chars1 (Text.isDigitOf 16)
    return zero :: x :: digits)
  <|> (do
    let first ← char fun c => c.isDigit && c ≠ '0'
    let digits ← chars Char.isDigit
    return first :: digits)
  <|> (do
    let zero ← char (· = '0')
    let digits ← chars (Text.isDigitOf 8)
    return zero :: digits)

def integerHere : Reader (List Char) := do
  let sign ← signHere
  let magnitude ← magnitudeHere
  notBefore isPathChar
  return sign ++ magnitude

def exponentHere : Reader (List Char) := do
  let e ← char fun c => c = 'e' || c = 'E'
  let sign ← maybe (char fun c => c = '+' || c = '-')
  let digits ← chars1 Char.isDigit
  return e :: sign.toList ++ digits

def floatHere : Reader (List Char) := do
  let sign ← signHere
  let magnitude ← firstOf [
    do
      let whole ← chars1 Char.isDigit
      let point ← char (· = '.')
      let fraction ← chars Char.isDigit
      let exponent ← exponentHere <|> succeed []
      return whole ++ point :: fraction ++ exponent,
    do
      let whole ← chars1 Char.isDigit
      let exponent ← exponentHere
      return whole ++ exponent,
    do
      let point ← char (· = '.')
      let fraction ← chars1 Char.isDigit
      let exponent ← exponentHere <|> succeed []
      return point :: fraction ++ exponent,
    do
      let word ← literal "inf".toList <|> literal "nan".toList
      notBefore isNameChar
      return word]
  return sign ++ magnitude

def boolHere : Reader (List Char) := do
  let word ← literal "true".toList <|> literal "false".toList
  notBefore isNameChar
  return word

/--
The rest of a string literal after its opening quote, up to and with its closing quote. A backslash
takes any character with it; a line end stands in a string only after a backslash.
-/
def stringTailHere (quote : Char) : Reader (List Char)
  | [] => .mismatch
  | '\\' :: c :: s => (stringTailHere quote s).map fun t => '\\' :: c :: t
  | c :: s =>
    if c = quote then
      .ok [c] s
    else if c = '\n' ∨ c = '\\' then
      .mismatch
    else
      (stringTailHere quote s).map (c :: ·)

def stringHere : Reader (List Char) := do
  let quote ← char fun c => c = '"' || c = '\''
  let tail ← stringTailHere quote
  return quote :: tail

def scalarHere : Reader Schema.ScalarType := do
  let scalar ← firstOf (Schema.ScalarType.all.map fun scalar => do
    let _ ← literal scalar.word.toList
    return scalar)
  notBefore isPathChar
  return scalar

def typeHere (bound : Nat) : Reader Schema.FieldType :=
  (do
    let scalar ← scalarHere
    return .scalar scalar)
  <|> (do
    let dot ← literal ['.'] <|> succeed []
    let path ← pathHere bound
    return .named (String.ofList (dot ++ path)))

/-! ### Tokens after trivia -/

def token {α : Type} (p : Reader α) : Reader α :=
  fun s => p (skipTrivia s)

def keyword (w : String) : Reader Unit :=
  token do
    let _ ← literal w.toList

def wholeWord (w : String) : Reader Unit :=
  token do
    let _ ← literal w.toList
    notBefore isNameChar

def symbol (c : Char) : Reader Unit :=
  token do
    let _ ← char (· = c)

def name : Reader String :=
  token (String.ofList <$> nameHere)

def path (bound : Nat) : Reader String :=
  token (String.ofList <$> pathHere bound)

def integer : Reader String :=
  token (String.ofList <$> integerHere)

def stringLiteral : Reader String :=
  token (String.ofList <$> stringHere)

def fieldType (bound : Nat) : Reader Schema.FieldType :=
  token (typeHere bound)

def constant (bound : Nat) : Reader String :=
  token (String.ofList <$> textOf (firstOf [
    floatHere,
    integerHere,
    boolHere,
    stringHere,
    -- What stands between a sign and its name belongs to the text of the constant.
    do
      let sign ← signHere
      let path ← token (pathHere bound)
      return sign ++ path]))

end Source

end HessianGo
