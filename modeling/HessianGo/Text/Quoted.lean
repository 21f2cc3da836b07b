import HessianGo.Text.Combining
import HessianGo.Text.Ignorable
import HessianGo.Text.Unprintable

/-!
This module contains the quoted form in which a text is shown inside a message: in double quotes,
with the quote, the backslash and all characters escaped that could not be seen on their own.
-/

namespace HessianGo

namespace Text

/--
One character of a quoted text. Characters without a visible form of their own, and without a short
escape, are written by their number in braces.
-/
def quotedChar (c : Char) : List Char :=
  match c with
  | '"' => ['\\', '"']
  | '\\' => ['\\', '\\']
  | '\n' => ['\\', 'n']
  | '\r' => ['\\', 'r']
  | '\t' => ['\\', 't']
  | '\x00' => ['\\', '0']
  | c =>
    if isCombining c || isIgnorable c || isUnprintable c then
      ['\\', 'u', '\x7b'] ++ Nat.toDigits 16 c.toNat ++ ['\x7d']
    else
      [c]

def quoted (s : String) : String :=
  String.ofList (['"'] ++ s.toList.flatMap quotedChar ++ ['"'])

end Text

end HessianGo
