import HessianGo.Config.Basic
import HessianGo.Text.Blank
import HessianGo.Text.Cut

/-!
This module contains configurations written as a parameter: parts of the form `key=value` with
commas between them. Blanks around a part and empty parts mean nothing, and a later part wins over
an earlier one.
-/

namespace HessianGo

namespace Config

inductive Setting where
  | paths (mode : PathsMode)
  | moduleRoot (root : String)
  | includePath (directory : String)
  | importMapping (name path : String)
  deriving DecidableEq

def Setting.ofPair (key value : List Char) : Except Error Setting :=
  let text := String.ofList value
  match String.ofList key, key with
  | "paths", _ =>
    match PathsMode.ofWord? text with
    | some mode => .ok (.paths mode)
    | none => .error (.invalidValue "paths" text)
  | "module", _ => .ok (.moduleRoot text)
  | "include", _ => .ok (.includePath text)
  | _, 'M' :: c :: name => .ok (.importMapping (String.ofList (c :: name)) text)
  | key, _ => .error (.unknownParameter key)

def Setting.ofPart (part : List Char) : Except Error Setting :=
  match Text.cutFirst '=' part with
  | some (key, value) => ofPair key value
  | none => .error (.malformedParameter (String.ofList part))

def apply (config : Config) : Setting → Config
  | .paths mode => { config with paths := mode }
  | .moduleRoot root => { config with moduleRoot := some root }
  | .includePath directory => { config with includePaths := config.includePaths ++ [directory] }
  | .importMapping name path =>
    { config with importMappings := config.importMappings.insert name path }

def parts (parameter : List Char) : List (List Char) :=
  ((Text.pieces ',' parameter).map Text.trim).filter (· ≠ [])

def ofParameter (parameter : String) : Except Error Config := do
  let settings ← (parts parameter.toList).mapM Setting.ofPart
  return settings.foldl apply {}

end Config

end HessianGo
