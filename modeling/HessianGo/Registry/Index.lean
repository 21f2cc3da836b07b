import HessianGo.Registry.Scope
import HessianGo.Schema.Basic
import HessianGo.Schema.Error

/-!
This module contains the index of schema files, which leads from the full name of a declared type to
the positions at which the type stands in the tree of its file.
-/

namespace HessianGo

open Schema

namespace Registry

/--
The position of a file, the positions of the messages that lead from its top down to the place, and,
if an enum stands there, its position in the last of these messages.
-/
structure Location where
  file : Nat
  messages : List Nat
  enum : Option Nat
  deriving DecidableEq

structure Index where
  entries : List (String × Location) := []

namespace Index

def location? (index : Index) (fullName : String) : Option Location :=
  index.entries.lookup fullName

def insert (index : Index) (fullName : String) (location : Location) : Except Error Index :=
  match index.location? fullName with
  | some _ => .error (.duplicateType fullName)
  | none => .ok { entries := (fullName, location) :: index.entries }

def insertEnums (index : Index) (file : Nat) (messages : List Nat) (enums : List Enum) :
    Except Error Index :=
  enums.zipIdx.foldlM (fun index (enum, position) =>
    index.insert enum.fullName { file, messages, enum := some position }) index

mutual

def insertMessage (index : Index) (file : Nat) (path : List Nat) : Message → Except Error Index
  | ⟨_, fullName, _, messages, enums, _, _, _⟩ => do
    let index ← index.insertEnums file path enums
    let index ← index.insertMessages file path 0 messages
    index.insert fullName { file, messages := path, enum := none }

def insertMessages (index : Index) (file : Nat) (path : List Nat) (position : Nat) :
    List Message → Except Error Index
  | [] => .ok index
  | message :: messages => do
    let index ← index.insertMessage file (path ++ [position]) message
    index.insertMessages file path (position + 1) messages

end

def insertFile (index : Index) (position : Nat) (file : File) : Except Error Index := do
  let index ← index.insertEnums position [] file.enums
  index.insertMessages position [] 0 file.messages

def ofFiles (files : List File) : Except Error Index :=
  files.zipIdx.foldlM (fun index (file, position) => index.insertFile position file) {}

def fieldType? (index : Index) (fullName : String) : Option FieldType :=
  (index.location? fullName).map fun location =>
    if location.enum.isSome then .enum fullName else .message fullName

def resolve? (index : Index) (scope written : String) : Option FieldType :=
  (candidates scope written).findSome? index.fieldType?

end Index

namespace Location

def container? (location : Location) (files : List File) : Option Message :=
  match location.messages with
  | [] => none
  | first :: others => do
    let file ← files[location.file]?
    let outer ← file.messages[first]?
    others.foldlM (fun (message : Message) position => message.messages[position]?) outer

def message? (location : Location) (files : List File) : Option Message :=
  if location.enum.isSome then none else location.container? files

def enum? (location : Location) (files : List File) : Option Enum := do
  let position ← location.enum
  if location.messages = [] then
    let file ← files[location.file]?
    file.enums[position]?
  else
    let message ← location.container? files
    message.enums[position]?

end Location

end Registry

end HessianGo
