import HessianGo.Schema.Error
import HessianGo.Text.Digit
import HessianGo.Text.Utf8

/-!
This module contains the meaning of string literals. A literal denotes bytes: a plain character its
UTF-8 form, an escape the byte or the character that it names.
-/

namespace HessianGo

namespace Source

namespace StringLiteral

inductive EscapeFault where
  | dangling
  | badHex
  | badUnicode
  | unknown (escape : Char)
  deriving DecidableEq

def EscapeFault.inLiteral (literal : String) : EscapeFault → Schema.OptionFault
  | dangling => .danglingEscape literal
  | badHex => .badHexEscape literal
  | badUnicode => .badUnicodeEscape literal
  | unknown escape => .unknownEscape escape literal

/--
What an escape denotes, and how many characters it takes after its backslash.
-/
structure Escape where
  bytes : List UInt8
  width : Nat
  deriving DecidableEq

def simpleEscape? (c : Char) : Option UInt8 :=
  match c with
  | 'a' => some 0x07
  | 'b' => some 0x08
  | 'f' => some 0x0c
  | 'n' => some 0x0a
  | 'r' => some 0x0d
  | 't' => some 0x09
  | 'v' => some 0x0b
  | '\\' => some 0x5c
  | '\'' => some 0x27
  | '"' => some 0x22
  | '?' => some 0x3f
  | _ => none

def unicodeChar? (digits : List Char) : Option Char := do
  let n ← match digits with
    -- A plus sign may stand before the digits.
    | '+' :: digits => Text.number? 16 digits
    | digits => Text.number? 16 digits
  if n.isValidChar then some (Char.ofNat n) else none

def unicodeEscape (width : Nat) (s : List Char) : Except EscapeFault Escape :=
  -- There may be fewer characters left.
  let digits := s.take width
  match unicodeChar? digits with
  | some c => .ok ⟨String.utf8EncodeChar c, 1 + digits.length⟩
  | none => .error .badUnicode

def escape : List Char → Except EscapeFault Escape
  | [] => .error .dangling
  | c :: s =>
    if let some byte := simpleEscape? c then
      .ok ⟨[byte], 1⟩
    else if c = 'x' ∨ c = 'X' then
      let digits := (s.take 2).takeWhile (Text.isDigitOf 16)
      match Text.number? 16 digits with
      | some n => .ok ⟨[UInt8.ofNat n], 1 + digits.length⟩
      | none => .error .badHex
    else if Text.isDigitOf 8 c then
      let digits := c :: (s.take 2).takeWhile (Text.isDigitOf 8)
      .ok ⟨[UInt8.ofNat (Text.digitsValue 8 0 digits)], digits.length⟩
    else if c = 'u' then
      unicodeEscape 4 s
    else if c = 'U' then
      unicodeEscape 8 s
    else
      .error (.unknown c)

/--
The bytes of a text between quotes, of which the first `skip` characters are already accounted for.
-/
def content.go : (skip : Nat) → List Char → Except EscapeFault (List UInt8)
  | _, [] => .ok []
  | skip + 1, _ :: s => go skip s
  | 0, c :: s =>
    if c = '\\' then do
      let first ← escape s
      let others ← go first.width s
      return first.bytes ++ others
    else do
      let others ← go 0 s
      return String.utf8EncodeChar c ++ others

def content (s : List Char) : Except EscapeFault (List UInt8) :=
  content.go 0 s

theorem content.go_eq_content_drop (skip : Nat) (s : List Char) :
    content.go skip s = content (s.drop skip) := by
  induction s generalizing skip with
  | nil => simp [content, content.go]
  | cons c s ih =>
    cases skip with
    | zero => simp [content]
    | succ skip => simp [content.go, ih]

def body? : List Char → Option (List Char)
  | _ :: c :: s => some (c :: s).dropLast
  | _ => none

def bytes (literal : String) : Except Schema.OptionFault (List UInt8) :=
  match body? literal.toList with
  | some s => (content s).mapError (EscapeFault.inLiteral literal)
  | none => .error (.malformedLiteral literal)

def text (literal : String) : Except Schema.OptionFault String := do
  let bytes ← bytes literal
  match Text.ofUtf8? bytes with
  | some text => return text
  | none => .error (.notUtf8 literal)

def isQuoted (written : String) : Bool :=
  match written.toList with
  | c :: _ => c = '"' || c = '\''
  | [] => false

end StringLiteral

end Source

end HessianGo
