import HessianGo.Code.Name
import HessianGo.Text.Cut

/-!
This module contains import paths with the names of their packages, and identifiers that belong to a
package.
-/

namespace HessianGo

namespace Code

structure ImportPath where
  path : String := ""
  packageName : String := ""
  deriving DecidableEq, Inhabited

namespace ImportPath

def suggestedName (path : List Char) : String :=
  match (Text.pieces '/' path).reverse.find? (· ≠ []) with
  | some segment => Code.packageName segment
  | none => ""

/--
The import path in a text of the form `path;name`. Without a name, or with an empty one, the path
suggests it.
-/
def ofText (text : String) : ImportPath :=
  match Text.cutFirst ';' text.toList with
  | some (path, []) => ⟨String.ofList path, suggestedName path⟩
  | some (path, name) => ⟨String.ofList path, String.ofList name⟩
  | none => ⟨text, suggestedName text.toList⟩

end ImportPath

structure Ident where
  name : String
  importPath : ImportPath
  deriving DecidableEq, Inhabited

end Code

end HessianGo
