import HessianGo.Text.Alphabetic
import HessianGo.Text.Numeric
import HessianGo.Text.Utf8

/-!
This module contains the names of Go: exported identifiers made of dotted schema names, and package
names made of arbitrary texts.
-/

namespace HessianGo

namespace Code

/-! ### Exported identifiers -/

inductive NamePlace where
  | partStart
  /-- In a run of lower-case letters and the character that started it. -/
  | word
  | inside
  deriving DecidableEq

def startsLower : List Char → Bool
  | c :: _ => c.isLower
  | [] => false

/--
The identifier for the rest of a dotted name. Dots become underscores, and a dot or an underscore
before a lower-case letter disappears into the capital that the letter becomes. An underscore at the
start of a part becomes an `X`, so that the part starts with a capital all the same.
-/
def camelCase.go : NamePlace → List Char → List Char
  | _, [] => []
  | place, c :: s =>
    if place = .word ∧ c.isLower then
      c :: go .word s
    else if c = '.' then
      if startsLower s then go .partStart s else '_' :: go .partStart s
    else if c = '_' then
      if place = .partStart then 'X' :: go .inside s
      else if startsLower s then go .inside s
      else '_' :: go .inside s
    else if c.isDigit then
      c :: go .inside s
    else
      c.toUpper :: go .word s

def byteChars (s : List Char) : List Char :=
  -- A byte outside of ASCII stands for the character of that number.
  (Text.utf8 s).map fun b => Char.ofNat b.toNat

def camelCase (name : String) : String :=
  String.ofList (camelCase.go .partStart (byteChars name.toList))

/-! ### Package names -/

def keywords : List String :=
  ["break", "case", "chan", "const", "continue", "default", "defer", "else", "fallthrough", "for",
   "func", "go", "goto", "if", "import", "interface", "map", "package", "range", "return", "select",
   "struct", "switch", "type", "var"]

def isPackageStart (c : Char) : Bool :=
  Text.isAlphabetic c || c = '_'

def isPackageChar (c : Char) : Bool :=
  Text.isAlphabetic c || Text.isNumeric c || c = '_'

def startAsPackage : List Char → List Char
  | [] => ['_']
  | c :: s => if isPackageStart c then c :: s else '_' :: c :: s

def packageName (s : List Char) : String :=
  let name := String.ofList (startAsPackage (s.map fun c => if isPackageChar c then c else '_'))
  if name ∈ keywords then "_" ++ name else name

end Code

end HessianGo
