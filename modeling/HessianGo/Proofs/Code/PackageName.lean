import HessianGo.Code.ImportPath
import HessianGo.Proofs.Text.Letter

/-!
This module contains the shape of package names. The name that is made of a text is no reserved
word, and it is an identifier of Go unless the text has a character that counts as alphabetic or
numeric but is neither a letter nor a decimal digit. The package at an import path that gives no
name for it is named after the last segment of the path in this way.
-/

namespace HessianGo

namespace Code

/-! ### Identifiers -/

def isIdentifierStart (c : Char) : Bool :=
  Text.isLetter c || c = '_'

def isIdentifierChar (c : Char) : Bool :=
  isIdentifierStart c || Text.isDecimalDigit c

def IsWord (s : List Char) : Prop :=
  ∃ c rest, s = c :: rest ∧ isIdentifierStart c ∧ ∀ d ∈ rest, isIdentifierChar d

def IsIdentifier (name : String) : Prop :=
  IsWord name.toList ∧ name ∉ keywords

/--
The name can stand in front of a dot to qualify the names of a package. The blank identifier cannot.
-/
def CanQualify (name : String) : Prop :=
  IsIdentifier name ∧ name ≠ "_"

/--
Whether a character counts as alphabetic or numeric, but no identifier has it.
-/
def isStray (c : Char) : Bool :=
  (Text.isAlphabetic c || Text.isNumeric c) && !Text.isLetter c && !Text.isDecimalDigit c

theorem isWord_cons_iff {c : Char} {s : List Char} :
    IsWord (c :: s) ↔ isIdentifierStart c ∧ ∀ d ∈ s, isIdentifierChar d := by
  simp [IsWord]

theorem isWord_underscore_iff {s : List Char} :
    IsWord ('_' :: s) ↔ ∀ d ∈ s, isIdentifierChar d := by
  rw [isWord_cons_iff]
  simp [isIdentifierStart]

/-! ### Names made of texts -/

def packageChar (c : Char) : Char :=
  if isPackageChar c then c else '_'

theorem isIdentifierChar_packageChar_iff {c : Char} :
    isIdentifierChar (packageChar c) ↔ isStray c = false := by
  have hunderscore : isStray '_' = false := by decide +kernel
  unfold packageChar
  split
  . next hpackage =>
    by_cases hc : c = '_'
    . subst hc
      simp [isIdentifierChar, isIdentifierStart, hunderscore]
    . simp only [isPackageChar, hc, decide_false, Bool.or_false] at hpackage
      simp [isIdentifierChar, isIdentifierStart, isStray, hpackage, hc, or_iff_not_imp_left]
  . next hpackage =>
    simp only [isPackageChar, Bool.or_eq_true, not_or] at hpackage
    simp [isIdentifierChar, isIdentifierStart, isStray, hpackage]

theorem isIdentifierStart_of_isPackageStart {c : Char} (hstart : isPackageStart c)
    (hchar : isIdentifierChar c) : isIdentifierStart c := by
  unfold isIdentifierChar at hchar
  rcases Bool.or_eq_true_iff.1 hchar with h | hdigit
  . exact h
  . -- A decimal digit is not alphabetic, so only the underscore is left.
    have hunderscore : c = '_' := by
      simpa [isPackageStart, Text.isAlphabetic_eq_false_of_isDecimalDigit hdigit] using hstart
    simp [isIdentifierStart, hunderscore]

theorem forall_mem_startAsPackage_iff {s : List Char} :
    (∀ c ∈ startAsPackage s, isIdentifierChar c) ↔ ∀ c ∈ s, isIdentifierChar c := by
  have hunderscore : isIdentifierChar '_' := by simp [isIdentifierChar, isIdentifierStart]
  cases s with
  | nil => simp [startAsPackage, hunderscore]
  | cons c s =>
    rw [startAsPackage]
    split
    . rfl
    . simp [hunderscore]

theorem isWord_startAsPackage_iff {s : List Char} :
    IsWord (startAsPackage s) ↔ ∀ c ∈ s, isIdentifierChar c := by
  cases s with
  | nil => simp [startAsPackage, isWord_underscore_iff]
  | cons c s =>
    rw [startAsPackage]
    split
    . next hstart =>
      rw [isWord_cons_iff, List.forall_mem_cons]
      apply and_congr_left
      intro _
      constructor
      . intro h
        simp [isIdentifierChar, h]
      . exact isIdentifierStart_of_isPackageStart hstart
    . exact isWord_underscore_iff

theorem packageName_eq (s : List Char) :
    packageName s
      =
    if String.ofList (startAsPackage (s.map packageChar)) ∈ keywords then
      "_" ++ String.ofList (startAsPackage (s.map packageChar))
    else
      String.ofList (startAsPackage (s.map packageChar)) :=
  rfl

theorem packageName_not_mem_keywords (s : List Char) : packageName s ∉ keywords := by
  have hunderscore : ∀ word ∈ keywords, "_" ++ word ∉ keywords := by decide +kernel
  rw [packageName_eq]
  split
  . next hkeyword => exact hunderscore _ hkeyword
  . assumption

theorem isWord_packageName_iff (s : List Char) :
    IsWord (packageName s).toList ↔ ∀ c ∈ s, isStray c = false := by
  have hchars : (∀ d ∈ s.map packageChar, isIdentifierChar d) ↔ ∀ c ∈ s, isStray c = false := by
    simp only [List.forall_mem_map, isIdentifierChar_packageChar_iff]
  rw [packageName_eq]
  split
  . have htoList : ("_" ++ String.ofList (startAsPackage (s.map packageChar))).toList
        = '_' :: startAsPackage (s.map packageChar) := by
      simp
    rw [htoList, isWord_underscore_iff, forall_mem_startAsPackage_iff, hchars]
  . rw [String.toList_ofList, isWord_startAsPackage_iff, hchars]

theorem startAsPackage_eq_underscore_iff {s : List Char} :
    startAsPackage s = ['_'] ↔ s = [] ∨ s = ['_'] := by
  cases s with
  | nil => simp [startAsPackage]
  | cons c s =>
    rw [startAsPackage]
    split
    . simp
    . next hstart =>
      have hc : c ≠ '_' := by
        rintro rfl
        simp [isPackageStart] at hstart
      simp [hc]

theorem packageName_eq_underscore_iff {s : List Char} (h : s ≠ []) :
    packageName s = "_" ↔ ∃ c, s = [c] ∧ (c = '_' ∨ isPackageChar c = false) := by
  have hchar (c : Char) : packageChar c = '_' ↔ c = '_' ∨ isPackageChar c = false := by
    unfold packageChar
    split
    . next hpackage => simp [hpackage]
    . next hpackage => simp [hpackage]
  have hname : packageName s = "_" ↔ s.map packageChar = ['_'] := by
    rw [packageName_eq]
    split
    . next hkeyword =>
      have hne : String.ofList (startAsPackage (s.map packageChar)) ≠ "" := by
        intro hempty
        rw [hempty] at hkeyword
        exact absurd hkeyword (by decide)
      have hnot : ∀ name, "_" ++ name = "_" → name = "" := by
        intro name heq
        rw [← String.append_right_inj "_", heq, String.append_empty]
      constructor
      . intro heq
        exact absurd (hnot _ heq) hne
      . intro hmap
        rw [hmap] at hkeyword
        exact absurd hkeyword (by decide +kernel)
    . rw [← String.toList_inj, String.toList_ofList]
      change _ = ['_'] ↔ _
      rw [startAsPackage_eq_underscore_iff]
      simp [h]
  rw [hname, List.map_eq_singleton_iff]
  simp only [hchar]

/-! ### Names made of import paths -/

namespace ImportPath

def pathOf (text : String) : List Char :=
  text.toList.takeWhile (· ≠ ';')

def nameOf (text : String) : List Char :=
  (text.toList.dropWhile (· ≠ ';')).tail

/--
`IsLastSegment path segment`: of the segments that slashes separate, this is the last one that is
not empty.
-/
def IsLastSegment (path segment : List Char) : Prop :=
  segment ≠ [] ∧ '/' ∉ segment
    ∧ ∃ before n, path = before ++ (segment ++ List.replicate n '/')
      ∧ (before = [] ∨ ∃ outer, before = outer ++ ['/'])

theorem ofText_of_nameOf_eq_nil {text : String} (h : nameOf text = []) :
    ofText text = ⟨String.ofList (pathOf text), suggestedName (pathOf text)⟩ := by
  by_cases hmem : ';' ∈ text.toList
  . have hcut := Text.cutFirst_of_mem hmem
    rw [nameOf] at h
    rw [h] at hcut
    simp only [ofText, hcut, pathOf]
  . have hall : pathOf text = text.toList := by
      rw [pathOf, List.takeWhile_eq_self_iff]
      intro c hc
      rw [decide_eq_true_iff]
      rintro rfl
      exact hmem hc
    simp only [ofText, Text.cutFirst_eq_none_iff.2 hmem, hall, String.ofList_toList]

theorem suggestedName_of_isLastSegment {path segment : List Char}
    (h : IsLastSegment path segment) : suggestedName path = Code.packageName segment := by
  rcases h with ⟨hne, hslash, before, n, rfl, hbefore⟩
  have hsegment : Text.pieces '/' (segment ++ List.replicate n '/')
      = segment :: List.replicate n [] := by
    rw [Text.pieces_append_replicate, Text.pieces_of_not_mem hslash, List.singleton_append]
  have hpieces : ∃ others, Text.pieces '/' (before ++ (segment ++ List.replicate n '/'))
      = others ++ segment :: List.replicate n [] := by
    rcases hbefore with rfl | ⟨outer, rfl⟩
    . exact ⟨[], hsegment⟩
    . refine ⟨Text.pieces '/' outer, ?_⟩
      rw [List.append_assoc, List.singleton_append, Text.pieces_append_cons, hsegment]
  rcases hpieces with ⟨others, hpieces⟩
  have hfind : (Text.pieces '/' (before ++ (segment ++ List.replicate n '/'))).reverse.find?
      (· ≠ []) = some segment := by
    simp [hpieces, List.find?_append, hne]
  unfold suggestedName
  rw [hfind]

/--
The text has no name for the package, and this is the last segment of its path.
-/
def IsNamedAfter (text : String) (segment : List Char) : Prop :=
  nameOf text = [] ∧ IsLastSegment (pathOf text) segment

theorem packageName_of_isNamedAfter {text : String} {segment : List Char}
    (h : IsNamedAfter text segment) : (ofText text).packageName = Code.packageName segment := by
  rw [ofText_of_nameOf_eq_nil h.1]
  exact suggestedName_of_isLastSegment h.2

end ImportPath

/--
The package name made of a text is never a reserved word, and it is an identifier exactly if the
text has no stray characters. The name of a package that is named after a segment of its path can
stand in front of a dot exactly if, moreover, the segment does not consist of one character that is
or becomes an underscore.
-/
theorem isIdentifier_packageName_iff (s : List Char) :
    (IsIdentifier (packageName s) ↔ ∀ c ∈ s, isStray c = false)
    ∧ packageName s ∉ keywords
    ∧ ∀ text, ImportPath.IsNamedAfter text s →
      (CanQualify (ImportPath.ofText text).packageName
        ↔
      (∀ c ∈ s, isStray c = false) ∧ ¬ ∃ c, s = [c] ∧ (c = '_' ∨ isPackageChar c = false)) := by
  have hnot := packageName_not_mem_keywords s
  have hidentifier : IsIdentifier (packageName s) ↔ ∀ c ∈ s, isStray c = false := by
    rw [IsIdentifier, isWord_packageName_iff]
    simp [hnot]
  refine ⟨hidentifier, hnot, ?_⟩
  intro text htext
  rw [ImportPath.packageName_of_isNamedAfter htext, CanQualify, hidentifier, ne_eq,
    packageName_eq_underscore_iff htext.2.1]

theorem isIdentifier_packageName_iff_segment :
    ImportPath.IsNamedAfter "example.com/3d-\u00e9/;" "3d-\u00e9".toList
      ∧ (ImportPath.ofText "example.com/3d-\u00e9/;").packageName = "_3d_\u00e9"
      ∧ CanQualify "_3d_\u00e9" := by
  have hnamed : ImportPath.IsNamedAfter "example.com/3d-\u00e9/;" "3d-\u00e9".toList := by
    refine ⟨by decide, by decide, by decide, "example.com/".toList, 1, by decide, .inr ?_⟩
    exact ⟨"example.com".toList, by decide⟩
  have hname : (ImportPath.ofText "example.com/3d-\u00e9/;").packageName = "_3d_\u00e9" := by
    decide +kernel
  have hstray : "3d-\u00e9".toList.any isStray = false := by decide +kernel
  refine ⟨hnamed, hname, ?_⟩
  rw [← hname, (isIdentifier_packageName_iff _).2.2 _ hnamed]
  constructor
  . intro c hc
    simpa using List.any_eq_false.1 hstray c hc
  . rintro ⟨c, hc, -⟩
    have hlength := congrArg List.length hc
    simp at hlength

theorem not_isIdentifier_packageName :
    packageName "x\u00b2".toList = "x\u00b2" ∧ ¬ IsIdentifier "x\u00b2"
      ∧ (ImportPath.ofText "a/\u2167").packageName = "\u2167" ∧ ¬ CanQualify "\u2167"
      ∧ (ImportPath.ofText "a/-").packageName = "_" ∧ ¬ CanQualify "_" := by
  refine ⟨by decide +kernel, ?_, by decide +kernel, ?_, by decide +kernel, fun h => h.2 rfl⟩
  . rintro ⟨⟨c, rest, htext, -, hrest⟩, -⟩
    have hsquare : '\u00b2' ∈ rest := by
      rw [← List.tail_eq_of_cons_eq htext]
      decide
    exact absurd (hrest _ hsquare) (by decide +kernel)
  . rintro ⟨⟨⟨c, rest, htext, hstart, -⟩, -⟩, -⟩
    rw [← List.head_eq_of_cons_eq htext] at hstart
    exact absurd hstart (by decide +kernel)

end Code

end HessianGo
