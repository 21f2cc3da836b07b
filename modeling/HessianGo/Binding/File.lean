import HessianGo.Binding.Field
import HessianGo.Config.Output

/-!
This module contains the bindings of enums, messages and files, and the report on a run over several
files. A message that cannot be bound is fatal for its file, but not for the other files of the run.
-/

namespace HessianGo

namespace Binding

open Code (Packages)

/--
Binding parts of a file that has an import table. The imports recorded before a failure stay.
-/
abbrev Binder (α : Type) : Type :=
  ExceptT Error (StateM Code.ImportTable) α

variable (packages : Packages)

def bindEnum (enum : Schema.Enum) : Code.Writing Enum := do
  let ident := packages.ident enum.fullName
  let _ ← ident.write
  return { schema := enum, goName := ident.name
           javaClassName := (enum.options.map (·.javaClassName)).getD "" }

def bindable? (options : Option Schema.MessageOptions) : Option Schema.MessageOptions :=
  options.filter fun options => options.javaClassName ≠ "" || options.extendArgs

def inherits (options : Option Schema.MessageOptions) : Bool :=
  options.any (·.isInheritance)

mutual

def bindMessage : Schema.Message → Binder Message
  | ⟨name, fullName, fields, messages, enums, oneofs, isMapEntry, options⟩ => do
    let schema : Schema.Message :=
      ⟨name, fullName, fields, messages, enums, oneofs, isMapEntry, options⟩
    let goName := (packages.ident fullName).name
    if isMapEntry then
      return { schema, goName }
    let innerMessages ← bindInnerMessages messages
    let fields ← fields.mapM (fun field => (bindField packages field : Code.Writing Field))
    match bindable? options with
    | some options =>
      return { schema, goName, javaClassName := options.javaClassName, innerMessages, fields
               extendArgs := options.extendArgs }
    | none => throw (.missingClassName fullName)

def bindInnerMessages : List Schema.Message → Binder (List Message)
  | [] => return []
  | message :: messages => do
    let first ← bindMessage message
    let others ← bindInnerMessages messages
    return { first with isInheritance := inherits message.options } :: others

end

def bindFile (file : Schema.File) : Binder File := do
  let enums ← file.enums.mapM (fun enum => (bindEnum packages enum : Code.Writing Enum))
  let messages ← file.messages.mapM (bindMessage packages)
  return { schema := file, enums, messages }

structure Output where
  filename : String
  imports : Code.ImportTable
  binding : File
  deriving Inhabited

structure Report where
  generated : List Output := []
  failed : List (String × Error) := []
  deriving Inhabited

def Report.isSuccess (report : Report) : Bool :=
  report.failed.isEmpty

def generateFile (name : String) : Except Error Output := do
  let some file := packages.registry.file? name
    | throw (.unknownFile name)
  let importPath := (packages.forFile? name).getD {}
  let filename ← (packages.config.outputName file.name importPath).mapError .config
  let (result, imports) := (bindFile packages file).run.run { own := importPath }
  return { filename, imports, binding := ← result }

def generate (registry : Registry) (config : Config) (names : List String) : Report :=
  go names
where
  go : List String → Report
  | [] => {}
  | name :: names =>
    let others := go names
    match generateFile ⟨registry, config⟩ name with
    | .ok output => { others with generated := output :: others.generated }
    | .error error => { others with failed := (name, error) :: others.failed }

end Binding

end HessianGo
