/-!
This module contains what may stand between two tokens of a schema: blanks, line ends and comments.
-/

namespace HessianGo

namespace Source

def isSpace (c : Char) : Bool :=
  c = ' ' || c = '\t' || c = '\r' || c = '\n'

inductive TriviaPlace where
  | between
  | inLine
  /-- In a comment that opened `start` and that a star with a slash closes. -/
  | inBlock (start : List Char)

/--
The text after the trivia, from any place in the scan. A block comment that is never closed is no
comment, so the text that its opening starts is what remains.
-/
def skipTrivia.go : TriviaPlace → List Char → List Char
  | .between, [] => []
  | .between, '/' :: '/' :: s => go .inLine s
  | .between, '/' :: '*' :: s => go (.inBlock ('/' :: '*' :: s)) s
  | .between, c :: s => if isSpace c then go .between s else c :: s
  | .inLine, [] => []
  | .inLine, c :: s => if c = '\n' then go .between s else go .inLine s
  | .inBlock start, [] => start
  | .inBlock _, '*' :: '/' :: s => go .between s
  | .inBlock start, _ :: s => go (.inBlock start) s

def skipTrivia (s : List Char) : List Char :=
  skipTrivia.go .between s

end Source

end HessianGo
