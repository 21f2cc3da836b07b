import HessianGo.Code.ImportPath

/-!
This module contains the import table of a Go file. A reference to an identifier of another package
needs an alias for that package; the table gives one out at the first use of a path and keeps it
from then on.
-/

namespace HessianGo

namespace Code

structure ImportTable where
  own : ImportPath
  entries : List (String × String) := []
  deriving DecidableEq, Inhabited

namespace ImportTable

def alias? (table : ImportTable) (path : String) : Option String :=
  table.entries.lookup path

def taken (table : ImportTable) : List String :=
  table.own.packageName :: table.entries.map Prod.snd

def candidate (base : String) : Nat → String
  | 0 => base
  | n + 1 => base ++ toString (n + 1)

def freshAlias (base : String) (taken : List String) : String :=
  -- Among one more candidates than there are taken names one is free.
  (((List.range (taken.length + 1)).map (candidate base)).find? (· ∉ taken)).getD base

/--
Whether identifiers at that path are written without a qualifier: those of the file's own package
and those of no known package.
-/
def isBare (table : ImportTable) (path : String) : Bool :=
  path = "" || path = table.own.path

def record (table : ImportTable) (importPath : ImportPath) : ImportTable :=
  if table.isBare importPath.path ∨ (table.alias? importPath.path).isSome then
    table
  else
    let name := freshAlias importPath.packageName table.taken
    { table with entries := table.entries ++ [(importPath.path, name)] }

def refer (table : ImportTable) (ident : Ident) : String :=
  if table.isBare ident.importPath.path then
    ident.name
  else
    (table.alias? ident.importPath.path).getD "" ++ "." ++ ident.name

def qualify (ident : Ident) (table : ImportTable) : String × ImportTable :=
  let table := table.record ident.importPath
  (table.refer ident, table)

end ImportTable

end Code

end HessianGo
