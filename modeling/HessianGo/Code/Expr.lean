import HessianGo.Code.ImportTable

/-!
This module contains the Go types and Go expressions of bindings, and how they are written into a
file. Writing refers to identifiers of other packages and so extends the import table of the file.
-/

namespace HessianGo

namespace Code

abbrev Writing (α : Type) : Type :=
  StateM ImportTable α

def Ident.write (ident : Ident) : Writing String :=
  ImportTable.qualify ident

inductive TypeExpr where
  | plain (name : String)
  | ident (ident : Ident)
  | pointer (target : TypeExpr)
  | slice (element : TypeExpr)
  | map (key value : TypeExpr)
  deriving DecidableEq, Inhabited

def TypeExpr.write : TypeExpr → Writing String
  | plain name => return name
  | .ident name => name.write
  | pointer target => return "*" ++ (← target.write)
  | slice element => return "[]" ++ (← element.write)
  | map key value => do
    let key ← key.write
    let value ← value.write
    return "map[" ++ key ++ "]" ++ value

inductive Expr where
  | plain (text : String)
  | ident (ident : Ident)
  | call (function : Ident) (arguments : String)
  | convert (type : String) (value : Expr)
  deriving DecidableEq, Inhabited

namespace Expr

def nil : Expr :=
  plain "nil"

def write : Expr → Writing String
  | plain text => return text
  | .ident name => name.write
  | call function arguments => return (← function.write) ++ "(" ++ arguments ++ ")"
  | convert type value => return type ++ "(" ++ (← value.write) ++ ")"

end Expr

end Code

end HessianGo
