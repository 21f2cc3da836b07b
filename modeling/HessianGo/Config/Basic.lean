import HessianGo.Config.ImportMappings

/-!
This module contains the configuration of a run and the causes for which one is refused.
-/

namespace HessianGo

inductive PathsMode where
  | importPath
  | sourceRelative
  deriving DecidableEq, Inhabited

namespace PathsMode

def word : PathsMode → String
  | importPath => "import"
  | sourceRelative => "source_relative"

def ofWord? (w : String) : Option PathsMode :=
  [importPath, sourceRelative].find? (·.word = w)

theorem ofWord?_word (mode : PathsMode) : ofWord? mode.word = some mode := by
  cases mode <;> decide

end PathsMode

structure Config where
  paths : PathsMode := .importPath
  moduleRoot : Option String := none
  importMappings : ImportMappings := {}
  includePaths : List String := []
  deriving Inhabited

namespace Config

inductive Error where
  | malformedParameter (part : String)
  | unknownParameter (key : String)
  | invalidValue (key value : String)
  | outsideModule (file moduleRoot : String)
  | invalidDocument
  deriving DecidableEq

def Error.message? : Error → Option String
  | malformedParameter part => some ("invalid parameter `" ++ part ++ "`: expected key=value")
  | unknownParameter key => some ("unknown parameter `" ++ key ++ "`")
  | invalidValue key value => some ("invalid value `" ++ value ++ "` for `" ++ key ++ "`")
  | outsideModule file moduleRoot =>
    some ("output path of " ++ file ++ " does not start with module prefix " ++ moduleRoot)
  | invalidDocument => none

end Config

end HessianGo
