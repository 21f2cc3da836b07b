import HessianGo.Text.Control
import HessianGo.Text.Digit

/-!
This module contains string literals of Go: for a text, which keeps its printable characters, and
for bytes, of which only the printable characters of ASCII stand for themselves.
-/

namespace HessianGo

namespace Code

def quotedChar (c : Char) : List Char :=
  match c with
  | '"' => ['\\', '"']
  | '\\' => ['\\', '\\']
  | '\n' => ['\\', 'n']
  | '\r' => ['\\', 'r']
  | '\t' => ['\\', 't']
  | '\x07' => ['\\', 'a']
  | '\x08' => ['\\', 'b']
  | '\x0c' => ['\\', 'f']
  | '\x0b' => ['\\', 'v']
  | c =>
    if Text.isControl c then
      if c.toNat < 0x80 then
        '\\' :: 'x' :: Text.hexFixed 2 c.toNat
      else
        '\\' :: 'u' :: Text.hexFixed 4 c.toNat
    else
      [c]

def quote (text : String) : String :=
  String.ofList (['"'] ++ text.toList.flatMap quotedChar ++ ['"'])

def quotedByte (b : UInt8) : List Char :=
  let c := Char.ofNat b.toNat
  match c with
  | '"' => ['\\', '"']
  | '\\' => ['\\', '\\']
  | '\n' => ['\\', 'n']
  | '\r' => ['\\', 'r']
  | '\t' => ['\\', 't']
  | c =>
    if 0x20 ≤ b ∧ b ≤ 0x7e then [c] else '\\' :: 'x' :: Text.hexFixed 2 b.toNat

def quoteBytes (bytes : List UInt8) : String :=
  String.ofList (['"'] ++ bytes.flatMap quotedByte ++ ['"'])

end Code

end HessianGo
