import HessianGo.Proofs.Except
import HessianGo.Registry.Load

/-!
This module contains where the file of a name is looked for and what it holds. A name is located at
the path from within the first directory that has a file there; a name that is located in no
directory is not found.
-/

namespace HessianGo

open Schema

namespace Registry

/-! ### Joined paths -/

def IsAbsolute (path : String) : Prop :=
  ∃ rest, path = "/" ++ rest

inductive IsJoined (directory name : String) : String → Prop
  | absolute (h : IsAbsolute name) : IsJoined directory name name
  | here (h : ¬ IsAbsolute name) (hdirectory : directory = "") : IsJoined directory name name
  | behindSlash (h : ¬ IsAbsolute name) (hslash : ∃ front, directory = front ++ "/") :
    IsJoined directory name (directory ++ name)
  | behindName (h : ¬ IsAbsolute name) (hdirectory : directory ≠ "")
    (hslash : ¬ ∃ front, directory = front ++ "/") :
    IsJoined directory name (directory ++ "/" ++ name)

theorem isAbsolute_iff {path : String} : IsAbsolute path ↔ path.toList.head? = some '/' := by
  rw [List.head?_eq_some_iff]
  constructor
  . rintro ⟨rest, rfl⟩
    exact ⟨rest.toList, by simp⟩
  . rintro ⟨rest, hpath⟩
    refine ⟨String.ofList rest, ?_⟩
    apply String.toList_inj.1
    simp [hpath]

theorem exists_front_iff {path : String} :
    (∃ front, path = front ++ "/") ↔ path.toList.getLast? = some '/' := by
  rw [List.getLast?_eq_some_iff]
  constructor
  . rintro ⟨front, rfl⟩
    exact ⟨front.toList, by simp⟩
  . rintro ⟨front, hpath⟩
    refine ⟨String.ofList front, ?_⟩
    apply String.toList_inj.1
    simp [hpath]

theorem isJoined_iff {directory name path : String} :
    IsJoined directory name path ↔ Disk.join directory name = path := by
  unfold Disk.join
  constructor
  . intro h
    cases h with
    | absolute h => rw [if_pos (.inr (isAbsolute_iff.1 h))]
    | here h hdirectory => rw [if_pos (.inl hdirectory)]
    | behindSlash h hslash =>
      have hdirectory : directory ≠ "" := by
        rintro rfl
        rcases hslash with ⟨front, hfront⟩
        simpa using congrArg String.toList hfront
      rw [if_neg (not_or.2 ⟨hdirectory, isAbsolute_iff.not.1 h⟩)]
      rw [if_pos (exists_front_iff.1 hslash)]
    | behindName h hdirectory hslash =>
      rw [if_neg (not_or.2 ⟨hdirectory, isAbsolute_iff.not.1 h⟩)]
      rw [if_neg (exists_front_iff.not.1 hslash)]
  . rintro rfl
    split
    . next hwhole =>
      by_cases h : IsAbsolute name
      . exact .absolute h
      . exact .here h (hwhole.resolve_right (isAbsolute_iff.not.1 h))
    . next hneither =>
      rcases not_or.1 hneither with ⟨hdirectory, h⟩
      rw [← isAbsolute_iff] at h
      split
      . next hslash => exact .behindSlash h (exists_front_iff.2 hslash)
      . next hslash => exact .behindName h hdirectory (exists_front_iff.not.2 hslash)

/-! ### Located names -/

/--
`IsLocated disk directories name path`: the file of the name is the one at the path.
-/
inductive IsLocated (disk : Disk) (directories : List String) (name : String) : String → Prop
  | plain (hdirectories : directories = []) (hfile : disk.isFile name) :
    IsLocated disk directories name name
  | within {before after : List String} {directory path : String}
    (hdirectories : directories = before ++ directory :: after)
    (hjoined : IsJoined directory name path) (hfile : disk.isFile path)
    (hbefore : ∀ other ∈ before, ∀ otherPath, IsJoined other name otherPath →
      ¬ disk.isFile otherPath) :
    IsLocated disk directories name path

def IsFound (disk : Disk) (directories : List String) (name : String) : Prop :=
  ∃ path, IsLocated disk directories name path

section

variable {disk : Disk} {directories : List String} {name path : String}

theorem locate?_eq_some_iff :
    locate? disk directories name = some path ↔ IsLocated disk directories name path := by
  unfold locate?
  split
  . next hempty =>
    constructor
    . intro h
      rw [Option.ite_none_right_eq_some] at h
      rcases h with ⟨hfile, heq⟩
      cases heq
      exact .plain hempty hfile
    . intro h
      cases h with
      | plain _ hfile => rw [if_pos hfile]
      | within hdirectories => simp [hempty] at hdirectories
  . next hsome =>
    rw [List.find?_eq_some_iff_append]
    constructor
    . rintro ⟨hfile, before, after, hpaths, hbefore⟩
      rcases List.map_eq_append_iff.1 hpaths with ⟨front, rest, hdirectories, rfl, hrest⟩
      rcases List.map_eq_cons_iff.1 hrest with ⟨directory, back, rfl, hpath, -⟩
      refine .within hdirectories (isJoined_iff.2 hpath) hfile ?_
      intro other hother otherPath hjoined
      rw [← isJoined_iff.1 hjoined]
      simpa using hbefore _ (List.mem_map_of_mem hother)
    . intro h
      cases h with
      | plain hempty _ => exact absurd hempty hsome
      | @within before after directory path hdirectories hjoined hfile hbefore =>
        refine ⟨hfile, before.map (Disk.join · name), after.map (Disk.join · name), ?_, ?_⟩
        . rw [hdirectories, List.map_append, List.map_cons, isJoined_iff.1 hjoined]
        . intro otherPath hother
          rcases List.mem_map.1 hother with ⟨other, hmem, hpath⟩
          simpa using hbefore other hmem otherPath (isJoined_iff.2 hpath)

theorem IsLocated.unique {other : String} (h : IsLocated disk directories name path)
    (hother : IsLocated disk directories name other) : path = other := by
  rw [← locate?_eq_some_iff] at h hother
  exact Option.some.inj (h.symm.trans hother)

theorem isFound_iff : IsFound disk directories name ↔ (locate? disk directories name).isSome := by
  unfold IsFound
  simp only [Option.isSome_iff_exists, locate?_eq_some_iff]

theorem locate?_eq_none_iff :
    locate? disk directories name = none ↔ ¬ IsFound disk directories name := by
  rw [isFound_iff, Option.not_isSome_iff_eq_none]

instance : Decidable (IsFound disk directories name) :=
  decidable_of_iff _ isFound_iff.symm

end

/-! ### Files at paths -/

def HoldsFile (disk : Disk) (path name : String) (file : File) : Prop :=
  ∃ content text, disk.read? path = some content ∧ Text.ofUtf8? content = some text
    ∧ File.ofText name text = .ok file

/--
`IsRefused disk path name error`: there is no text at the path, or it is refused.
-/
inductive IsRefused (disk : Disk) (path name : String) : Error → Prop
  | unreadable (h : disk.read? path = none) : IsRefused disk path name .unreadable
  | notText {content : List UInt8} (h : disk.read? path = some content)
    (htext : Text.ofUtf8? content = none) : IsRefused disk path name .unreadable
  | text {content : List UInt8} {text : String} {error : Error}
    (h : disk.read? path = some content) (htext : Text.ofUtf8? content = some text)
    (hfile : File.ofText name text = .error error) : IsRefused disk path name error

variable {disk : Disk} {path name : String}

theorem read_eq_ok_iff {file : File} :
    File.read disk path name = .ok file ↔ HoldsFile disk path name file := by
  unfold File.read File.ofBytes
  constructor
  . intro h
    split at h
    . next content hcontent =>
      split at h
      . next text htext => exact ⟨content, text, hcontent, htext, h⟩
      . cases h
    . cases h
  . rintro ⟨content, text, hcontent, htext, hfile⟩
    simp [hcontent, htext, hfile]

theorem HoldsFile.unique {file other : File} (h : HoldsFile disk path name file)
    (hother : HoldsFile disk path name other) : file = other := by
  rw [← read_eq_ok_iff] at h hother
  exact Except.ok.inj (h.symm.trans hother)

theorem read_eq_error_iff {error : Error} :
    File.read disk path name = .error error ↔ IsRefused disk path name error := by
  unfold File.read File.ofBytes
  constructor
  . intro h
    split at h
    . next content hcontent =>
      split at h
      . next text htext => exact .text hcontent htext h
      . next htext =>
        cases h
        exact .notText hcontent htext
    . next hcontent =>
      cases h
      exact .unreadable hcontent
  . intro h
    cases h with
    | unreadable hcontent => simp [hcontent]
    | notText hcontent htext => simp [hcontent, htext]
    | text hcontent htext hfile => simp [hcontent, htext, hfile]

end Registry

end HessianGo
