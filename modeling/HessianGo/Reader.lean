/-!
This module contains readers: functions that take a value off the front of a text. A repetition has
a bound on the number of its rounds, and a reader that meets its bound says so instead of guessing,
so that an answer never depends on a bound that was large enough.
-/

namespace HessianGo

inductive Outcome (α : Type) where
  | ok (value : α) (rest : List Char)
  | mismatch
  /-- A repetition met its bound. -/
  | exhausted
  deriving Inhabited

def Outcome.map {α β : Type} (f : α → β) : Outcome α → Outcome β
  | .ok value rest => .ok (f value) rest
  | .mismatch => .mismatch
  | .exhausted => .exhausted

def Reader (α : Type) : Type :=
  List Char → Outcome α

namespace Reader

variable {α β : Type}

def succeed (value : α) : Reader α :=
  fun s => .ok value s

def andThen (p : Reader α) (f : α → Reader β) : Reader β :=
  fun s =>
    match p s with
    | .ok value rest => f value rest
    | .mismatch => .mismatch
    | .exhausted => .exhausted

instance : Monad Reader where
  pure := succeed
  bind := andThen

def orElse (p : Reader α) (q : Unit → Reader α) : Reader α :=
  fun s =>
    match p s with
    | .mismatch => q () s
    | outcome => outcome

instance : OrElse (Reader α) where
  orElse := orElse

def mismatch : Reader α :=
  fun _ => .mismatch

def exhausted : Reader α :=
  fun _ => .exhausted

def char (p : Char → Bool) : Reader Char
  | [] => .mismatch
  | c :: rest => if p c then .ok c rest else .mismatch

def literal (w : List Char) : Reader (List Char) :=
  fun s =>
    match w.isPrefixOf? s with
    | some rest => .ok w rest
    | none => .mismatch

def chars (p : Char → Bool) : Reader (List Char) :=
  fun s => .ok (s.takeWhile p) (s.dropWhile p)

def chars1 (p : Char → Bool) : Reader (List Char) := do
  let c ← char p
  let cs ← chars p
  return c :: cs

def notBefore (p : Char → Bool) : Reader Unit
  | [] => .ok () []
  | c :: rest => if p c then .mismatch else .ok () (c :: rest)

def atEnd : Reader Unit
  | [] => .ok () []
  | _ :: _ => .mismatch

def maybe (p : Reader α) : Reader (Option α) :=
  (some <$> p) <|> succeed none

def firstOf : List (Reader α) → Reader α
  | [] => mismatch
  | p :: ps => p <|> firstOf ps

/--
Values of `p` until it does not match, in at most `bound` rounds. The last round, in which `p` does
not match, counts.
-/
def many (p : Reader α) : (bound : Nat) → Reader (List α)
  | 0 => exhausted
  | bound + 1 => fun s =>
    match p s with
    | .ok value rest => (many p bound rest).map (value :: ·)
    | .mismatch => .ok [] s
    | .exhausted => .exhausted

def textOf (p : Reader α) : Reader (List Char) :=
  fun s =>
    match p s with
    | .ok _ rest => .ok (s.take (s.length - rest.length)) rest
    | .mismatch => .mismatch
    | .exhausted => .exhausted

end Reader

end HessianGo
