import HessianGo.Except
import HessianGo.Registry.Index

/-!
This module contains the registry of schema files. Every declared type has a name of its own in it,
and every type name used by a field has been replaced by the declaration it stands for.
-/

namespace HessianGo

open Schema

structure Registry where
  files : List File
  index : Registry.Index
  isIndex : Registry.Index.ofFiles files = .ok index

namespace Registry

instance : Inhabited Registry :=
  ⟨{ files := [], index := {}, isIndex := rfl }⟩

@[ext]
theorem ext {registry other : Registry} (h : registry.files = other.files) : registry = other := by
  have hindex : (.ok registry.index : Except Error Index) = .ok other.index := by
    rw [← registry.isIndex, ← other.isIndex, h]
  cases registry
  cases other
  cases h
  cases hindex
  rfl

/-! ### Resolution -/

def resolveField (index : Index) (scope : String) (field : Field) : Except Error Field :=
  match field.type with
  | .named written =>
    match index.resolve? scope written with
    | some type => .ok { field with type }
    | none => .error (.unresolvedType written scope)
  | _ => .ok field

mutual

def resolveMessage (index : Index) : Message → Except Error Message
  | ⟨name, fullName, fields, messages, enums, oneofs, isMapEntry, options⟩ => do
    let fields ← fields.mapM (resolveField index fullName)
    let messages ← resolveMessages index messages
    return ⟨name, fullName, fields, messages, enums, oneofs, isMapEntry, options⟩

def resolveMessages (index : Index) : List Message → Except Error (List Message)
  | [] => .ok []
  | message :: messages => do
    let first ← resolveMessage index message
    let others ← resolveMessages index messages
    return first :: others

end

def resolveFile (index : Index) (file : File) : Except Error File := do
  let messages ← resolveMessages index file.messages
  return { file with messages }

/-! ### The index of resolved files -/

section

variable {index : Index}

mutual

theorem insertMessage_resolveMessage (known : Index) (file : Nat) (path : List Nat)
    (message : Message) {resolved : Message} (h : resolveMessage index message = .ok resolved) :
    known.insertMessage file path resolved = known.insertMessage file path message := by
  match message with
  | ⟨_, _, _, messages, _, _, _, _⟩ =>
    rcases bind_eq_ok_iff.1 h with ⟨_, -, hrest⟩
    rcases bind_eq_ok_iff.1 hrest with ⟨_, hmessages, heq⟩
    cases heq
    have hinner := fun known : Index =>
      insertMessages_resolveMessages known file path 0 messages hmessages
    simp only [Index.insertMessage, hinner]

theorem insertMessages_resolveMessages (known : Index) (file : Nat) (path : List Nat)
    (position : Nat) (messages : List Message) {resolved : List Message}
    (h : resolveMessages index messages = .ok resolved) :
    known.insertMessages file path position resolved
      = known.insertMessages file path position messages := by
  match messages with
  | [] =>
    cases h
    rfl
  | message :: messages =>
    rcases bind_eq_ok_iff.1 h with ⟨_, hmessage, hrest⟩
    rcases bind_eq_ok_iff.1 hrest with ⟨_, hmessages, heq⟩
    cases heq
    have hfirst := insertMessage_resolveMessage known file (path ++ [position]) message hmessage
    have hothers := fun known : Index =>
      insertMessages_resolveMessages known file path (position + 1) messages hmessages
    simp only [Index.insertMessages, hfirst, hothers]

end

theorem insertFile_resolveFile {file resolved : File} (h : resolveFile index file = .ok resolved)
    (known : Index) (position : Nat) :
    known.insertFile position resolved = known.insertFile position file := by
  rcases bind_eq_ok_iff.1 h with ⟨_, hmessages, heq⟩
  cases heq
  have hinner := fun known : Index =>
    insertMessages_resolveMessages known position [] 0 file.messages hmessages
  simp only [Index.insertFile, hinner]

theorem ofFiles_resolveFile {files resolved : List File}
    (h : files.mapM (resolveFile index) = .ok resolved) :
    Index.ofFiles resolved = Index.ofFiles files := by
  unfold Index.ofFiles
  generalize ({} : Index) = known
  generalize 0 = position
  induction files generalizing resolved known position with
  | nil =>
    cases h
    rfl
  | cons file files ih =>
    rw [List.mapM_cons] at h
    rcases bind_eq_ok_iff.1 h with ⟨_, hfile, hrest⟩
    rcases bind_eq_ok_iff.1 hrest with ⟨_, hfiles, heq⟩
    cases heq
    simp only [List.zipIdx_cons, List.foldlM_cons, insertFile_resolveFile hfile, ih hfiles]

end

def ofFiles (files : List File) : Except Error Registry :=
  match hindex : Index.ofFiles files with
  | .error error => .error error
  | .ok index =>
    match hfiles : files.mapM (resolveFile index) with
    | .error error => .error error
    | .ok resolved =>
      .ok { files := resolved, index, isIndex := (ofFiles_resolveFile hfiles).trans hindex }

/-! ### Look-ups -/

def file? (registry : Registry) (name : String) : Option File :=
  registry.files.find? (·.name = name)

def fileOf? (registry : Registry) (fullName : String) : Option File := do
  let location ← registry.index.location? fullName
  registry.files[location.file]?

def message? (registry : Registry) (fullName : String) : Option Message := do
  let location ← registry.index.location? fullName
  location.message? registry.files

def enum? (registry : Registry) (fullName : String) : Option Enum := do
  let location ← registry.index.location? fullName
  location.enum? registry.files

end Registry

end HessianGo
