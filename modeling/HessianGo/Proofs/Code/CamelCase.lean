import HessianGo.Code.Name
import HessianGo.Proofs.Code.Literal
import HessianGo.Proofs.Source.Token
import Mathlib

/-!
This module contains the shape of exported identifiers. The identifier of a dotted name starts with
a capital and has only letters, digits and underscores, and no lower-case letter in it stands behind
an underscore or a digit. A name of this shape is left as it is, so a second pass changes nothing.
-/

namespace HessianGo

namespace Code

open Source (isNameChar isNameStart isPathChar IsPath)

def IsExported (name : String) : Prop :=
  ∃ c rest, name.toList = c :: rest ∧ c.isUpper ∧ ∀ d ∈ rest, isNameChar d

/--
No lower-case letter stands behind an underscore or a digit.
-/
def CapitalizesWords (s : List Char) : Prop :=
  s.IsChain fun a b => b.isLower → a ≠ '_' ∧ a.isDigit = false

/-! ### Characters -/

theorem toNat_lt_of_isPathChar {c : Char} (h : isPathChar c) : c.toNat < 128 := by
  simp only [isPathChar, isNameChar, Char.isAlphanum, Char.isAlpha, Char.isUpper, Char.isLower,
    Char.isDigit, Bool.or_eq_true, Bool.and_eq_true, decide_eq_true_eq, UInt32.le_iff_toNat_le] at h
  rcases h with (((⟨-, h⟩ | ⟨-, h⟩) | ⟨-, h⟩) | rfl) | rfl
  . exact Nat.lt_of_le_of_lt h (by decide)
  . exact Nat.lt_of_le_of_lt h (by decide)
  . exact Nat.lt_of_le_of_lt h (by decide)
  . decide
  . decide

theorem isDigit_eq_false_of_isAlpha {c : Char} (h : c.isAlpha) : c.isDigit = false := by
  grind [Char.isAlpha, Char.isUpper, Char.isLower, Char.isDigit]

theorem ne_underscore_of_isAlpha {c : Char} (h : c.isAlpha) : c ≠ '_' := by
  rintro rfl
  exact absurd h (by decide)

theorem isAlpha_of_isPathChar {c : Char} (h : isPathChar c) (hdot : c ≠ '.') (hunder : c ≠ '_')
    (hdigit : c.isDigit = false) : c.isAlpha := by
  simpa [isPathChar, isNameChar, Char.isAlphanum, hdot, hunder, hdigit] using h

theorem isLower_eq_false_of_isDigit {c : Char} (h : c.isDigit) : c.isLower = false := by
  grind [Char.isLower, Char.isDigit]

theorem isAlpha_toUpper {c : Char} (h : c.isAlpha) : c.toUpper.isAlpha := by
  rw [Char.isAlpha, Char.isUpper_toUpper_eq_isAlpha, h, Bool.true_or]

theorem isNameChar_of_isAlpha {c : Char} (h : c.isAlpha) : isNameChar c := by
  simp [isNameChar, Char.isAlphanum, h]

theorem byteChars_eq_self {s : List Char} (h : ∀ c ∈ s, isPathChar c) : byteChars s = s := by
  unfold byteChars Text.utf8
  rw [List.map_flatMap]
  have hchar : ∀ c ∈ s, (String.utf8EncodeChar c).map (fun b => Char.ofNat b.toNat) = [c] := by
    intro c hc
    have hlt := toNat_lt_of_isPathChar (h c hc)
    have hbyte : (UInt8.ofNat c.toNat).toNat = c.toNat := by
      rw [UInt8.toNat_ofNat']
      omega
    rw [Text.utf8EncodeChar_of_lt hlt, List.map_singleton, hbyte, Char.ofNat_toNat]
  rw [List.flatMap_congr hchar, List.flatMap_singleton']

/-! ### The identifier of a dotted name -/

namespace camelCase

variable {place : NamePlace} {s : List Char}

theorem isLower_head_go (h : place ≠ .word) : ∀ c ∈ (go place s).head?, c.isLower = false := by
  fun_induction go place s with
  | case1 => simp
  | case2 place c s hword ih => exact absurd hword.1 h
  | case3 place s hlower hword ih => exact ih nofun
  | case4 place s hlower hword ih => simp
  | case5 s hdot hword ih => simp
  | case6 place s hplace hlower hword hdot ih => exact ih nofun
  | case7 place s hplace hlower hword hdot ih => simp
  | case8 place c s hword hdot hunder hdigit ih => simpa using isLower_eq_false_of_isDigit hdigit
  | case9 place c s hword hdot hunder hdigit ih => simp

theorem capitalizesWords_go (h : ∀ c ∈ s, isPathChar c) : CapitalizesWords (go place s) := by
  have hbreak : ∀ {a : Char} {place s}, place ≠ .word → CapitalizesWords (go place s) →
      CapitalizesWords (a :: go place s) := by
    intro a place s hplace hrest
    refine List.isChain_cons.2 ⟨?_, hrest⟩
    intro b hb hlower
    rw [isLower_head_go hplace b hb] at hlower
    cases hlower
  have hletter : ∀ {a : Char} {t : List Char}, a.isAlpha → CapitalizesWords t →
      CapitalizesWords (a :: t) := by
    intro a t ha hrest
    refine List.isChain_cons.2 ⟨?_, hrest⟩
    intro b _ _
    exact ⟨ne_underscore_of_isAlpha ha, isDigit_eq_false_of_isAlpha ha⟩
  fun_induction go place s with
  | case1 => exact .nil
  | case2 place c s hword ih =>
    rw [List.forall_mem_cons] at h
    exact hletter (by simp [Char.isAlpha, hword.2]) (ih h.2)
  | case3 place s hlower hword ih => exact ih (List.forall_mem_cons.1 h).2
  | case4 place s hlower hword ih => exact hbreak nofun (ih (List.forall_mem_cons.1 h).2)
  | case5 s hdot hword ih => exact hbreak nofun (ih (List.forall_mem_cons.1 h).2)
  | case6 place s hplace hlower hword hdot ih => exact ih (List.forall_mem_cons.1 h).2
  | case7 place s hplace hlower hword hdot ih =>
    exact hbreak nofun (ih (List.forall_mem_cons.1 h).2)
  | case8 place c s hword hdot hunder hdigit ih =>
    exact hbreak nofun (ih (List.forall_mem_cons.1 h).2)
  | case9 place c s hword hdot hunder hdigit ih =>
    rw [List.forall_mem_cons] at h
    have halpha := isAlpha_of_isPathChar h.1 hdot hunder (by simpa using hdigit)
    exact hletter (isAlpha_toUpper halpha) (ih h.2)

theorem isNameChar_of_mem_go (h : ∀ c ∈ s, isPathChar c) : ∀ c ∈ go place s, isNameChar c := by
  fun_induction go place s with
  | case1 => simp
  | case2 place c s hword ih =>
    rw [List.forall_mem_cons] at h ⊢
    exact ⟨isNameChar_of_isAlpha (by simp [Char.isAlpha, hword.2]), ih h.2⟩
  | case3 place s hlower hword ih => exact ih (List.forall_mem_cons.1 h).2
  | case4 place s hlower hword ih =>
    exact List.forall_mem_cons.2 ⟨by decide, ih (List.forall_mem_cons.1 h).2⟩
  | case5 s hdot hword ih =>
    exact List.forall_mem_cons.2 ⟨by decide, ih (List.forall_mem_cons.1 h).2⟩
  | case6 place s hplace hlower hword hdot ih => exact ih (List.forall_mem_cons.1 h).2
  | case7 place s hplace hlower hword hdot ih =>
    exact List.forall_mem_cons.2 ⟨by decide, ih (List.forall_mem_cons.1 h).2⟩
  | case8 place c s hword hdot hunder hdigit ih =>
    rw [List.forall_mem_cons] at h ⊢
    exact ⟨by simp [isNameChar, Char.isAlphanum, hdigit], ih h.2⟩
  | case9 place c s hword hdot hunder hdigit ih =>
    rw [List.forall_mem_cons] at h ⊢
    have halpha := isAlpha_of_isPathChar h.1 hdot hunder (by simpa using hdigit)
    exact ⟨isNameChar_of_isAlpha (isAlpha_toUpper halpha), ih h.2⟩

theorem exists_go_cons {c : Char} (h : isNameStart c) :
    ∃ capital rest, go .partStart (c :: s) = capital :: rest ∧ capital.isUpper := by
  unfold go
  by_cases hunder : c = '_'
  . subst hunder
    exact ⟨'X', _, rfl, by decide⟩
  . have halpha : c.isAlpha := by simpa [isNameStart, hunder] using h
    have hdot : c ≠ '.' := by
      rintro rfl
      exact absurd halpha (by decide)
    refine ⟨c.toUpper, go .word s, ?_, by simpa using halpha⟩
    simp [hdot, hunder, isDigit_eq_false_of_isAlpha halpha]

theorem startsLower_eq_any (s : List Char) : startsLower s = s.head?.any Char.isLower := by
  cases s with
  | nil => rfl
  | cons c s => rfl

theorem go_eq_self (hname : ∀ c ∈ s, isNameChar c) (hwords : CapitalizesWords s)
    (hplace : place ≠ .partStart) (hhead : place ≠ .word → ∀ c ∈ s.head?, c.isLower = false) :
    go place s = s := by
  -- Where a word goes on, or where it does not and no lower-case letter follows, nothing is
  -- changed.
  fun_induction go place s with
  | case1 => rfl
  | case2 place c s hword ih =>
    rw [ih (List.forall_mem_cons.1 hname).2 hwords.tail nofun fun h => absurd rfl h]
  | case3 place s hlower hword ih => exact absurd (hname '.' (by simp)) (by decide)
  | case4 place s hlower hword ih => exact absurd (hname '.' (by simp)) (by decide)
  | case5 s hdot hword ih => exact absurd rfl hplace
  | case6 place s _ hlower hword hdot ih =>
    rw [startsLower_eq_any, Option.any_eq_true] at hlower
    rcases hlower with ⟨c, hc, hlower⟩
    exact absurd rfl ((List.isChain_cons.1 hwords).1 c hc hlower).1
  | case7 place s _ hlower hword hdot ih =>
    rw [ih (List.forall_mem_cons.1 hname).2 hwords.tail nofun]
    intro _ c hc
    rw [startsLower_eq_any, hc] at hlower
    simpa using hlower
  | case8 place c s hword hdot hunder hdigit ih =>
    rw [ih (List.forall_mem_cons.1 hname).2 hwords.tail nofun]
    intro _ d hd
    rw [Bool.eq_false_iff]
    intro hlower
    have hnot := ((List.isChain_cons.1 hwords).1 d hd hlower).2
    rw [hdigit] at hnot
    cases hnot
  | case9 place c s hword hdot hunder hdigit ih =>
    have hlower : ¬c.isLower := by
      by_cases hplaceWord : place = .word
      . exact fun hlower => hword ⟨hplaceWord, hlower⟩
      . simpa using hhead hplaceWord c rfl
    rw [ih (List.forall_mem_cons.1 hname).2 hwords.tail nofun fun h => absurd rfl h]
    rw [Char.toUpper_eq_of_not_isLower hlower]

end camelCase

theorem camelCase_eq_self {name : String} (h : IsExported name)
    (hwords : CapitalizesWords name.toList) : camelCase name = name := by
  rcases h with ⟨c, rest, hname, hupper, hrest⟩
  rw [hname] at hwords
  have halpha : c.isAlpha := by simp [Char.isAlpha, hupper]
  have hpath : ∀ d ∈ name.toList, isPathChar d := by
    rw [hname, List.forall_mem_cons]
    exact ⟨Source.isPathChar_of_isNameChar (isNameChar_of_isAlpha halpha),
      fun d hd => Source.isPathChar_of_isNameChar (hrest d hd)⟩
  have hgo : camelCase.go .word rest = rest :=
    camelCase.go_eq_self hrest hwords.tail nofun fun h => absurd rfl h
  have hdot : c ≠ '.' := by
    rintro rfl
    exact absurd hupper (by decide)
  apply String.toList_inj.1
  rw [camelCase, String.toList_ofList, byteChars_eq_self hpath, hname]
  unfold camelCase.go
  simp [hdot, ne_underscore_of_isAlpha halpha, isDigit_eq_false_of_isAlpha halpha, hgo,
    Char.toUpper_eq_of_not_isLower (Char.not_isLower_of_isUpper hupper)]

/--
The identifier of a dotted name starts with a capital that letters, digits and underscores follow,
has no lower-case letter behind an underscore or a digit, and is its own identifier.
-/
theorem isExported_camelCase {name : String} (h : IsPath name) :
    IsExported (camelCase name)
      ∧ CapitalizesWords (camelCase name).toList
      ∧ camelCase (camelCase name) = camelCase name := by
  have hpath := h.isPathChar_of_mem
  have htoList : (camelCase name).toList = camelCase.go .partStart name.toList := by
    rw [camelCase, String.toList_ofList, byteChars_eq_self hpath]
  have hexported : IsExported (camelCase name) := by
    rcases h.exists_head with ⟨c, s, hname, hstart⟩
    have hchars : ∀ c ∈ camelCase.go .partStart name.toList, isNameChar c :=
      camelCase.isNameChar_of_mem_go hpath
    rw [hname] at hchars htoList
    rcases camelCase.exists_go_cons (s := s) hstart with ⟨capital, rest, hgo, hupper⟩
    rw [hgo] at hchars htoList
    exact ⟨capital, rest, htoList, hupper, (List.forall_mem_cons.1 hchars).2⟩
  have hwords : CapitalizesWords (camelCase name).toList := by
    rw [htoList]
    exact camelCase.capitalizesWords_go hpath
  exact ⟨hexported, hwords, camelCase_eq_self hexported hwords⟩

theorem isExported_camelCase_layers :
    IsPath "_a1b._c__2d.Ef"
      ∧ camelCase "_a1b._c__2d.Ef" = "XA1B_XC__2D_Ef"
      ∧ IsExported "XA1B_XC__2D_Ef"
      ∧ camelCase "XA1B_XC__2D_Ef" = "XA1B_XC__2D_Ef" := by
  have hpath : IsPath "_a1b._c__2d.Ef" :=
    ⟨["_a1b", "_c__2d", "Ef"], by decide, by decide, by decide⟩
  have hname : camelCase "_a1b._c__2d.Ef" = "XA1B_XC__2D_Ef" := by decide +kernel
  rcases isExported_camelCase hpath with ⟨hexported, -, hagain⟩
  rw [hname] at hexported hagain
  exact ⟨hpath, hname, hexported, hagain⟩

end Code

end HessianGo
