import HessianGo.Config.Basic
import HessianGo.Document.Grammar

/-!
This module contains configurations written as a TOML document. Every setting has one key, and a
document with any other key, or with a value of another kind, is refused.
-/

namespace HessianGo

open Document (Value Entries)

namespace Document.Value

def text? : Value → Option String
  | text value => some value
  | _ => none

def texts? : Value → Option (List String)
  | list items => items.mapM text?
  | _ => none

def isEmpty : Value → Bool
  | list [] => true
  | table _ [] => true
  | _ => false

def selected? : Value → Option String
  | text word => some word
  -- The key of a table whose only value is empty.
  | table _ [(word, value)] => if value.isEmpty then some word else none
  | _ => none

def dateName : String :=
  "$__toml_private_datetime"

def importMappings? : Value → Option ImportMappings
  -- A date counts as a table of its text alone.
  | dateTime value => some (({} : ImportMappings).insert dateName value.text)
  | table _ entries =>
    entries.foldlM (fun mappings (name, value) => do
      let path ← value.text?
      return mappings.insert name path) {}
  | _ => none

end Document.Value

namespace Config

def addEntry? (config : Config) : String × Value → Option Config
  | ("paths", value) => do
    let mode ← value.selected?.bind PathsMode.ofWord?
    return { config with paths := mode }
  | ("module", value) => do
    let root ← value.text?
    return { config with moduleRoot := some root }
  | ("import_mappings", value) => do
    let importMappings ← value.importMappings?
    return { config with importMappings }
  | ("include_paths", value) => do
    let includePaths ← value.texts?
    return { config with includePaths }
  | _ => none

def ofDocument (text : String) : Except Error Config :=
  match (Entries.ofText? text).bind (·.foldlM addEntry? {}) with
  | some config => .ok config
  | none => .error .invalidDocument

end Config

end HessianGo
