/-!
This module contains the full names that a type name can stand for. A name with a leading dot is
absolute; any other name is looked for in the message that uses it, then in every scope around that
message from the inside to the outside, and last on its own.
-/

namespace HessianGo

namespace Registry

def beforeDots : List Char → List (List Char)
  | [] => []
  | c :: s => (if c = '.' then [[]] else []) ++ (beforeDots s).map (c :: ·)

def scopes (scope : String) : List String :=
  (scope :: (beforeDots scope.toList).reverse.map String.ofList).filter (· ≠ "")

/--
The full names that a type name used in a scope can stand for, in the order of preference.
-/
def candidates (scope name : String) : List String :=
  match name.toList with
  | '.' :: absolute => [String.ofList absolute]
  | _ => (scopes scope).map (fun scope => scope ++ "." ++ name) ++ [name]

end Registry

end HessianGo
