import HessianGo.Code.ImportPath
import HessianGo.Config.Basic

/-!
This module contains the names of output files.
-/

namespace HessianGo

namespace Config

def outputEnding : List Char :=
  ".hessian2.go".toList

def stem (name : List Char) : List Char :=
  (".proto".toList.isSuffixOf? name).getD name

def importStem (name : List Char) (path : List Char) : List Char :=
  let base := Text.lastPiece '/' (stem name)
  if path = [] then base else path ++ '/' :: base

def outputName (config : Config) (name : String) (importPath : Code.ImportPath) :
    Except Error String :=
  match config.paths, config.moduleRoot with
  | .sourceRelative, some root => .error (.invalidValue "module" root)
  | .sourceRelative, none => .ok (String.ofList (stem name.toList ++ outputEnding))
  | .importPath, none =>
    .ok (String.ofList (importStem name.toList importPath.path.toList ++ outputEnding))
  | .importPath, some root =>
    match (root.toList ++ ['/']).isPrefixOf? (importStem name.toList importPath.path.toList) with
    | some rest => .ok (String.ofList (rest ++ outputEnding))
    | none => .error (.outsideModule name root)

end Config

end HessianGo
