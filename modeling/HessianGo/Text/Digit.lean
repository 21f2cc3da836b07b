/-!
This module contains digits: those of a number in a fixed width, in lower case where they are
letters, and the number that digits of a base denote.
-/

namespace HessianGo

namespace Text

def hexDigit (n : Nat) : Char :=
  if n < 10 then Char.ofNat (48 + n) else Char.ofNat (87 + n)

def fixedDigits (base : Nat) : (width : Nat) → Nat → List Char
  | 0, _ => []
  | width + 1, n => fixedDigits base width (n / base) ++ [hexDigit (n % base)]

@[simp]
theorem length_fixedDigits (base width n : Nat) : (fixedDigits base width n).length = width := by
  induction width generalizing n with
  | zero => rfl
  | succ width ih => simp [fixedDigits, ih]

def hexFixed (width n : Nat) : List Char :=
  fixedDigits 16 width n

@[simp]
theorem length_hexFixed (width n : Nat) : (hexFixed width n).length = width :=
  length_fixedDigits 16 width n

def digitValue? (base : Nat) (c : Char) : Option Nat :=
  let n := c.toNat
  let value? :=
    if 48 ≤ n ∧ n ≤ 57 then some (n - 48)
    else if 97 ≤ n ∧ n ≤ 102 then some (n - 87)
    else if 65 ≤ n ∧ n ≤ 70 then some (n - 55)
    else none
  value?.filter (· < base)

def isDigitOf (base : Nat) (c : Char) : Bool :=
  (digitValue? base c).isSome

def digitsValue (base : Nat) (start : Nat) (s : List Char) : Nat :=
  s.foldl (fun n c => n * base + (digitValue? base c).getD 0) start

def number? (base : Nat) (s : List Char) : Option Nat :=
  if s ≠ [] ∧ s.all (isDigitOf base) then some (digitsValue base 0 s) else none

end Text

end HessianGo
