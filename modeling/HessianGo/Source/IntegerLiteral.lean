import HessianGo.Schema.Error
import HessianGo.Text.Digit

/-!
This module contains the meaning of integer literals. A literal denotes one integer, however large.
It is computed with numbers of at most `127` bits, and a number of bounded size is only made of it
if it has that size.
-/

namespace HessianGo

namespace Source

namespace IntegerLiteral

def bounded? (n : Nat) : Option Nat :=
  if n < Nat.pow 2 127 then some n else none

def append? (base n : Nat) (c : Char) : Option Nat := do
  let digit ← Text.digitValue? base c
  bounded? (n * base + digit)

def collect? (base : Nat) (digits : List Char) : Option Nat :=
  digits.foldlM (append? base) 0

def magnitude? : List Char → Option Nat
  | '0' :: 'x' :: digits => collect? 16 digits
  | '0' :: 'X' :: digits => collect? 16 digits
  | '0' :: c :: digits => collect? 8 (c :: digits)
  | digits => collect? 10 digits

def value? : List Char → Option Int
  | '-' :: s => (magnitude? s).map fun n : Nat => -(n : Int)
  | s => (magnitude? s).map fun n : Nat => (n : Int)

def fieldNumber (literal : String) : Except Schema.Error UInt32 :=
  match (value? literal.toList).filter fun v => (0 : Int) ≤ v ∧ v < UInt32.size with
  | some v => .ok (UInt32.ofNat v.toNat)
  | none => .error (.integerOutOfRange literal)

def enumNumber (literal : String) : Except Schema.Error Int32 :=
  match (value? literal.toList).filter fun v =>
      Int32.minValue.toInt ≤ v ∧ v ≤ Int32.maxValue.toInt with
  | some v => .ok (Int32.ofInt v)
  | none => .error (.integerOutOfRange literal)

end IntegerLiteral

end Source

end HessianGo
