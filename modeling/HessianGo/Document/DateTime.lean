import HessianGo.Text.Digit

/-!
This module contains the dates and times of TOML documents and their standard text: a `T` between
date and time, the seconds always written, of their fraction no more digits than needed, and a
distance from Greenwich with its sign.
-/

namespace HessianGo

namespace Document

structure Date where
  year : Nat
  month : Nat
  day : Nat
  deriving DecidableEq, Inhabited

structure Time where
  hour : Nat
  minute : Nat
  second : Nat
  nanosecond : Nat
  deriving DecidableEq, Inhabited

inductive Offset where
  | zulu
  /-- By so many minutes, to the east if positive. -/
  | minutes (count : Int)
  deriving DecidableEq, Inhabited

inductive DateTime where
  | date (date : Date)
  | time (time : Time)
  | moment (date : Date) (time : Time) (offset : Option Offset)
  deriving DecidableEq, Inhabited

namespace Date

def isLeapYear (year : Nat) : Bool :=
  year % 4 = 0 && (year % 100 ≠ 0 || year % 400 = 0)

def daysInMonth (year month : Nat) : Nat :=
  match month with
  | 2 => if isLeapYear year then 29 else 28
  | 4 | 6 | 9 | 11 => 30
  | 1 | 3 | 5 | 7 | 8 | 10 | 12 => 31
  | _ => 0

def isValid (date : Date) : Bool :=
  1 ≤ date.day && date.day ≤ daysInMonth date.year date.month

def render (date : Date) : List Char :=
  Text.fixedDigits 10 4 date.year ++ '-' :: Text.fixedDigits 10 2 date.month
    ++ '-' :: Text.fixedDigits 10 2 date.day

end Date

namespace Time

def isValid (time : Time) : Bool :=
  time.hour ≤ 23 && time.minute ≤ 59 && time.second ≤ 60

def nanosecondsOf (digits : List Char) : Nat :=
  -- Digits after the ninth do not count.
  let kept := digits.take 9
  Text.digitsValue 10 0 kept * Nat.pow 10 (9 - kept.length)

def renderFraction (nanosecond : Nat) : List Char :=
  if nanosecond = 0 then
    []
  else
    '.' :: ((Text.fixedDigits 10 9 nanosecond).reverse.dropWhile (· = '0')).reverse

def render (time : Time) : List Char :=
  Text.fixedDigits 10 2 time.hour ++ ':' :: Text.fixedDigits 10 2 time.minute
    ++ ':' :: Text.fixedDigits 10 2 time.second ++ renderFraction time.nanosecond

end Time

def Offset.render : Offset → List Char
  | zulu => ['Z']
  | minutes count =>
    let sign := if count < 0 then '-' else '+'
    sign :: Text.fixedDigits 10 2 (count.natAbs / 60)
      ++ ':' :: Text.fixedDigits 10 2 (count.natAbs % 60)

def DateTime.text : DateTime → String
  | .date d => String.ofList d.render
  | .time t => String.ofList t.render
  | .moment d t offset =>
    String.ofList (d.render ++ 'T' :: t.render ++ (offset.map Offset.render).getD [])

end Document

end HessianGo
