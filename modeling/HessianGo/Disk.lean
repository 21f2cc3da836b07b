import HessianGo.Text.Cut
import HessianGo.Text.Utf8

/-!
This module contains disks, as far as the loading of schema files asks them, and a disk on which
paths are followed through a tree of directories and files.
-/

namespace HessianGo

/--
Whether a path is a file and what can be read there. There may be many paths to one file, but only
finitely many contents.
-/
structure Disk where
  isFile : String → Bool
  read? : String → Option (List UInt8)
  contents : List (List UInt8)
  mem_contents : ∀ path content, read? path = some content → content ∈ contents

/--
A path from within a directory. An absolute path stays as it is.
-/
def Disk.join (directory path : String) : String :=
  if directory = "" ∨ path.toList.head? = some '/' then path
  else if directory.toList.getLast? = some '/' then directory ++ path
  else directory ++ "/" ++ path

/-! ### Trees of files -/

inductive FileSystem.Entry where
  | file (content : List UInt8)
  | directory
  deriving DecidableEq, Inhabited

/--
Directories and files. A place is the list of names that leads to it from the root; the directories
that lead to an entry need no entries of their own, and an entry hides the later ones of the same
place.
-/
structure FileSystem where
  entries : List (List String × FileSystem.Entry) := []
  working : List String := []
  deriving Inhabited

namespace FileSystem

def components (path : String) : List String :=
  (Text.pieces '/' path.toList).map String.ofList

def fileAt? (tree : FileSystem) (place : List String) : Option (List UInt8) :=
  match tree.entries.lookup place with
  | some (.file content) => some content
  | _ => none

def isDirectory (tree : FileSystem) (place : List String) : Bool :=
  place = [] || tree.entries.lookup place = some .directory
    || tree.entries.any fun (other, _) => place.isPrefixOf other && place.length < other.length

/--
The place that names lead to from another place. Every place on the way must be a directory, and a
step back from the root leads to the root.
-/
def follow (tree : FileSystem) : List String → List String → Option (List String)
  | here, [] => some here
  | here, name :: names =>
    if tree.isDirectory here then
      if name = "" ∨ name = "." then follow tree here names
      else if name = ".." then follow tree here.dropLast names
      else follow tree (here ++ [name]) names
    else
      none

def maxPathBytes : Nat :=
  4095

def file? (tree : FileSystem) (path : String) : Option (List UInt8) :=
  if maxPathBytes < (Text.utf8 path.toList).length then
    none
  else
    let start := if path.toList.head? = some '/' then [] else tree.working
    (tree.follow start (components path)).bind tree.fileAt?

def contents (tree : FileSystem) : List (List UInt8) :=
  tree.entries.filterMap fun
    | (_, .file content) => some content
    | _ => none

theorem mem_contents {tree : FileSystem} {path : String} {content : List UInt8}
    (h : tree.file? path = some content) : content ∈ tree.contents := by
  unfold file? at h
  split at h
  . cases h
  . rcases Option.bind_eq_some_iff.1 h with ⟨place, -, hplace⟩
    unfold fileAt? at hplace
    split at hplace
    . next found hfound =>
      cases hplace
      rcases List.lookup_eq_some_iff.1 hfound with ⟨before, after, hentries, -⟩
      unfold contents
      rw [List.mem_filterMap]
      exact ⟨(place, .file content), by simp [hentries], rfl⟩
    . cases hplace

def disk (tree : FileSystem) : Disk where
  isFile path := (tree.file? path).isSome
  read? := tree.file?
  contents := tree.contents
  mem_contents _ _ := mem_contents

end FileSystem

end HessianGo
