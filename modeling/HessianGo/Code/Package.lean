import HessianGo.Code.ImportPath
import HessianGo.Config.Basic
import HessianGo.Registry.Basic

/-!
This module contains the Go packages of the files in a registry, and the Go identifiers of the types
they declare.
-/

namespace HessianGo

namespace Code

def importPathOf (config : Config) (file : Schema.File) : ImportPath :=
  -- A mapping wins over the package that the file asks for, and that over the directory.
  match (config.importMappings.get? file.name).or file.goPackage with
  | some text => ImportPath.ofText text
  | none =>
    let directory := ((Text.cutLast '/' file.name.toList).map Prod.fst).getD []
    let path := ImportPath.ofText (String.ofList directory)
    -- The file lies in no directory.
    if path.packageName = "" then
      match file.package with
      | some package => { path with packageName := packageName (Text.lastPiece '.' package.toList) }
      | none => { path with packageName := "main" }
    else
      path

structure Packages where
  registry : Registry
  config : Config

namespace Packages

def forFile? (packages : Packages) (name : String) : Option ImportPath :=
  -- Of several files with that name the last one counts.
  (packages.registry.files.reverse.find? (·.name = name)).map (importPathOf packages.config)

def importPath (packages : Packages) (file : Option Schema.File) : ImportPath :=
  (file.bind fun file => packages.forFile? file.name).getD {}

def relativeName (file : Option Schema.File) (fullName : String) : List Char :=
  match file.bind (·.package) with
  | some package => ((package.toList ++ ['.']).isPrefixOf? fullName.toList).getD fullName.toList
  | none => fullName.toList

def ident (packages : Packages) (fullName : String) : Ident :=
  let file := packages.registry.fileOf? fullName
  { name := camelCase (String.ofList (relativeName file fullName))
    importPath := packages.importPath file }

def enumValueIdent (packages : Packages) (enumName value : String) : Ident :=
  let file := packages.registry.fileOf? enumName
  let relative := relativeName file enumName
  -- The message around the enum or, if there is none, the enum itself.
  let parent := ((Text.cutLast '.' relative).map Prod.fst).getD relative
  { name := camelCase (String.ofList parent) ++ "_" ++ value
    importPath := packages.importPath file }

end Packages

end Code

end HessianGo
