import HessianGo.Disk
import HessianGo.Registry.Basic
import HessianGo.Source.Schema

/-!
This module contains the loading of schema files from a disk. Files are read in the order in which
their names come up: the requested ones first, then the imports of the files that were read, each
name once. A requested file must exist; an import that does not is passed over.
-/

namespace HessianGo

open Schema

def Schema.File.ofBytes (name : String) (content : List UInt8) : Except Error File :=
  match Text.ofUtf8? content with
  | some text => File.ofText name text
  | none => .error .unreadable

def Schema.File.read (disk : Disk) (path name : String) : Except Error File :=
  match disk.read? path with
  | some content => File.ofBytes name content
  | none => .error .unreadable

def Schema.File.ofDisk (disk : Disk) (path : String) : Except Error File :=
  File.read disk path (String.ofList (path.toList.map fun c => if c = '\\' then '/' else c))

namespace Registry

/--
The path at which the file of a name is found: in the first directory that has it or, without
directories, at the name itself.
-/
def locate? (disk : Disk) (directories : List String) (name : String) : Option String :=
  if directories = [] then
    if disk.isFile name then some name else none
  else
    (directories.map (Disk.join · name)).find? disk.isFile

structure Request where
  name : String
  isRequired : Bool
  deriving DecidableEq

def without (names : List String) (name : String) : List String :=
  names.filter (· ≠ name)

theorem length_without_lt {names : List String} {name : String} (h : name ∈ names) :
    (without names name).length < names.length :=
  List.length_filter_lt_length_iff_exists.2 ⟨name, h, by simp⟩

def readAll (disk : Disk) (directories : List String) (unseen : List String) :
    List Request → Except Error (List File)
  | [] => .ok []
  | request :: queue =>
    if request.name ∈ unseen then
      let unseen := without unseen request.name
      match locate? disk directories request.name with
      | none =>
        if request.isRequired then
          .error (.fileNotFound request.name)
        else
          readAll disk directories unseen queue
      | some path => do
        let file ← File.read disk path request.name
        let others ← readAll disk directories unseen
          (queue ++ file.imports.map fun name => { name, isRequired := false })
        return file :: others
    else
      readAll disk directories unseen queue
termination_by queue => (unseen.length, queue.length)
decreasing_by
  . exact .left _ _ (length_without_lt (by assumption))
  . exact .left _ _ (length_without_lt (by assumption))
  . exact .right _ (by simp)

def importsOf (content : List UInt8) : List String :=
  match File.ofBytes "" content with
  | .ok file => file.imports
  | .error _ => []

/--
All names that can come up when the given files are read: those names and whatever a file on the
disk imports.
-/
def reachableNames (disk : Disk) (names : List String) : List String :=
  names ++ disk.contents.flatMap importsOf

def load (disk : Disk) (directories : List String) (names : List String) :
    Except Error Registry := do
  let files ← readAll disk directories (reachableNames disk names)
    (names.map fun name => { name, isRequired := true })
  ofFiles files

end Registry

end HessianGo
