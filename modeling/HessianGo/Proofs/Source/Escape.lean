import HessianGo.Proofs.Source.Literal
import HessianGo.Proofs.Source.Names
import HessianGo.Source.Schema

/-!
This module contains the language of string literals as a grammar of units, and the decoder of
literals against it. Decoding agrees with the grammar but for the escapes that name a character by
its number: of these the decoder also takes some with too few digits or with a plus sign.
-/

namespace HessianGo

namespace Source

namespace StringLiteral

/-! ### Units of a literal -/

def simpleEscapes : List (Char × UInt8) :=
  [('a', 0x07), ('b', 0x08), ('f', 0x0c), ('n', 0x0a), ('r', 0x0d), ('t', 0x09), ('v', 0x0b),
   ('\\', 0x5c), ('\'', 0x27), ('"', 0x22), ('?', 0x3f)]

def unicodeEscapes : List (Char × Nat) :=
  [('u', 4), ('U', 8)]

/--
`Greedy base width digits rest`: of the digits in front of a text, at most `width` of them, no
further one is left in `rest`.
-/
def Greedy (base width : Nat) (digits rest : List Char) : Prop :=
  digits.length = width
    ∨ digits.length < width ∧ ∀ c ∈ rest.head?, Text.isDigitOf base c = false

/--
A rule for the digits that name a character: `names width digits rest c` says that the digits, with
`rest` behind them, name the character `c` where `width` digits are asked for.
-/
abbrev Naming : Type :=
  (width : Nat) → (digits rest : List Char) → Char → Prop

def NamesExactly : Naming :=
  fun width digits _ c => digits.length = width ∧ Text.number? 16 digits = some c.toNat

/--
The digits may be fewer where the literal ends, and a plus sign may stand in place of the first.
-/
def NamesLoosely : Naming :=
  fun width digits rest c =>
    (digits.length = width ∨ digits.length < width ∧ rest = [])
      ∧ ∃ number, (digits = number ∨ digits = '+' :: number)
        ∧ Text.number? 16 number = some c.toNat

/--
`IsEscape names unit rest bytes`: behind a backslash, with `rest` after it, the unit denotes these
bytes.
-/
inductive IsEscape (names : Naming) : (unit rest : List Char) → List UInt8 → Prop where
  | simple {e : Char} {byte : UInt8} {rest : List Char} :
    (e, byte) ∈ simpleEscapes → IsEscape names [e] rest [byte]
  | hex {mark : Char} {digits rest : List Char} {n : Nat} :
    mark ∈ ['x', 'X'] → Greedy 16 2 digits rest → Text.number? 16 digits = some n →
      IsEscape names (mark :: digits) rest [UInt8.ofNat n]
  | octal {digits rest : List Char} {n : Nat} :
    Greedy 8 3 digits rest → Text.number? 8 digits = some n →
      IsEscape names digits rest [UInt8.ofNat n]
  | unicode {mark : Char} {width : Nat} {digits rest : List Char} {c : Char} :
    (mark, width) ∈ unicodeEscapes → names width digits rest c →
      IsEscape names (mark :: digits) rest (String.utf8EncodeChar c)

/--
`Denotes names s bytes`: the text between quotes is a row of units that denote these bytes.
-/
inductive Denotes (names : Naming) : List Char → List UInt8 → Prop where
  | nil : Denotes names [] []
  | plain {c : Char} {s : List Char} {bytes : List UInt8} :
    c ≠ '\\' → Denotes names s bytes → Denotes names (c :: s) (String.utf8EncodeChar c ++ bytes)
  | escape {unit rest : List Char} {first bytes : List UInt8} :
    IsEscape names unit rest first → Denotes names rest bytes →
      Denotes names ('\\' :: (unit ++ rest)) (first ++ bytes)

/--
One of the units of the text names a character with too few digits or with a plus sign.
-/
inductive HasLoose : List Char → Prop where
  | here {mark : Char} {width : Nat} {digits rest : List Char} {c : Char} :
    (mark, width) ∈ unicodeEscapes → NamesLoosely width digits rest c →
      digits.length < width ∨ '+' ∈ digits → HasLoose ('\\' :: mark :: (digits ++ rest))
  | plain {c : Char} {s : List Char} : c ≠ '\\' → HasLoose s → HasLoose (c :: s)
  | escape {unit rest : List Char} {first : List UInt8} :
    IsEscape NamesLoosely unit rest first → HasLoose rest → HasLoose ('\\' :: (unit ++ rest))

/-! ### Reading an escape -/

theorem simpleEscape?_eq_some_iff {e : Char} {byte : UInt8} :
    simpleEscape? e = some byte ↔ (e, byte) ∈ simpleEscapes := by
  constructor
  . intro h
    unfold simpleEscape? at h
    split at h
    all_goals cases h
    all_goals decide
  . intro h
    have hall : ∀ entry ∈ simpleEscapes, simpleEscape? entry.1 = some entry.2 := by decide
    exact hall _ h

theorem greedy_cons_iff {base width : Nat} {c : Char} {digits rest : List Char} :
    Greedy base (width + 1) (c :: digits) rest ↔ Greedy base width digits rest := by
  simp [Greedy]

theorem exists_greedy (base width : Nat) (s : List Char) :
    ∃ digits rest, s = digits ++ rest ∧ Greedy base width digits rest
      ∧ (∀ c ∈ digits, Text.isDigitOf base c)
      ∧ (s.take width).takeWhile (Text.isDigitOf base) = digits := by
  induction width generalizing s with
  | zero => exact ⟨[], s, rfl, .inl rfl, by simp, by simp⟩
  | succ width ih =>
    cases s with
    | nil => exact ⟨[], [], rfl, .inr ⟨by simp, by simp⟩, by simp, by simp⟩
    | cons c s =>
      cases hc : Text.isDigitOf base c with
      | false => exact ⟨[], c :: s, rfl, .inr ⟨by simp, by simpa using hc⟩, by simp, by simp [hc]⟩
      | true =>
        rcases ih s with ⟨digits, rest, rfl, hgreedy, hdigits, htake⟩
        exact ⟨c :: digits, rest, rfl, greedy_cons_iff.2 hgreedy, by simpa [hc] using hdigits,
          by simp [hc, htake]⟩

theorem Greedy.takeWhile_eq {base width : Nat} {digits rest : List Char}
    (h : Greedy base width digits rest) (hdigits : ∀ c ∈ digits, Text.isDigitOf base c) :
    ((digits ++ rest).take width).takeWhile (Text.isDigitOf base) = digits := by
  induction digits generalizing width with
  | nil =>
    rcases h with rfl | ⟨hlt, hnext⟩
    . simp
    . cases rest with
      | nil => simp
      | cons c rest =>
        obtain ⟨width, rfl⟩ : ∃ k, width = k + 1 := ⟨width - 1, by simp at hlt; omega⟩
        simp [hnext c rfl]
  | cons c digits ih =>
    simp only [List.mem_cons, forall_eq_or_imp] at hdigits
    obtain ⟨width, rfl⟩ : ∃ k, width = k + 1 := by
      refine ⟨width - 1, ?_⟩
      rcases h with h | h
      all_goals simp at h; omega
    simp [hdigits.1, ih (greedy_cons_iff.1 h) hdigits.2]

theorem ofNat?_eq_some_iff {n : Nat} {c : Char} :
    (if n.isValidChar then some (Char.ofNat n) else none) = some c ↔ n = c.toNat := by
  constructor
  . intro h
    rw [Option.ite_none_right_eq_some, Option.some.injEq] at h
    rcases h with ⟨hvalid, rfl⟩
    exact (Text.toNat_ofNat_of_isValidChar hvalid).symm
  . rintro rfl
    exact (if_pos c.valid).trans (congrArg some c.ofNat_toNat)

theorem unicodeChar?_eq_some_iff {digits : List Char} {c : Char} :
    unicodeChar? digits = some c
      ↔
    ∃ number, (digits = number ∨ digits = '+' :: number)
      ∧ Text.number? 16 number = some c.toNat := by
  have hplus : ∀ number n, Text.number? 16 ('+' :: number) ≠ some n := by
    intro number n hnumber
    have := (Text.number?_eq_some_iff.1 hnumber).2.1 '+' List.mem_cons_self
    exact absurd this (by decide)
  unfold unicodeChar?
  split
  . next number =>
    simp only [Option.bind_eq_bind, Option.bind_eq_some_iff, ofNat?_eq_some_iff]
    constructor
    . rintro ⟨_, hnumber, rfl⟩
      exact ⟨number, .inr rfl, hnumber⟩
    . rintro ⟨other, rfl | hother, hnumber⟩
      . exact absurd hnumber (hplus number _)
      . cases hother
        exact ⟨_, hnumber, rfl⟩
  . next hne =>
    simp only [Option.bind_eq_bind, Option.bind_eq_some_iff, ofNat?_eq_some_iff]
    constructor
    . rintro ⟨_, hnumber, rfl⟩
      exact ⟨digits, .inl rfl, hnumber⟩
    . rintro ⟨number, rfl | hother, hnumber⟩
      . exact ⟨_, hnumber, rfl⟩
      . exact absurd hother (hne number)

theorem unicodeEscape_eq_ok_iff {width : Nat} {s : List Char} {found : Escape} :
    unicodeEscape width s = .ok found
      ↔
    ∃ digits rest c, s = digits ++ rest ∧ NamesLoosely width digits rest c
      ∧ found = ⟨String.utf8EncodeChar c, 1 + digits.length⟩ := by
  unfold unicodeEscape NamesLoosely
  dsimp only
  constructor
  . intro h
    split at h
    . next c hc =>
      cases h
      refine ⟨s.take width, s.drop width, c, (List.take_append_drop _ _).symm, ⟨?_, ?_⟩, rfl⟩
      . rw [List.length_take, List.drop_eq_nil_iff]
        omega
      . exact unicodeChar?_eq_some_iff.1 hc
    . cases h
  . rintro ⟨digits, rest, c, rfl, ⟨hlength, hnumber⟩, rfl⟩
    have htake : (digits ++ rest).take width = digits := by
      rcases hlength with rfl | ⟨hlt, rfl⟩
      . exact List.take_left
      . rw [List.append_nil, List.take_of_length_le (by omega)]
    rw [htake, unicodeChar?_eq_some_iff.2 hnumber]

/-! The character behind the backslash decides on the kind of the escape. -/

theorem simpleEscape?_eq_none_iff {e : Char} :
    simpleEscape? e = none ↔ e ∉ simpleEscapes.map Prod.fst := by
  rw [Option.eq_none_iff_forall_not_mem]
  simp only [Option.mem_def, simpleEscape?_eq_some_iff, List.mem_map, Prod.exists,
    exists_and_right, exists_eq_right, not_exists]

theorem escape_of_hexMark {mark : Char} (h : mark ∈ ['x', 'X']) (s : List Char) :
    escape (mark :: s)
      =
    match Text.number? 16 ((s.take 2).takeWhile (Text.isDigitOf 16)) with
    | some n => .ok ⟨[UInt8.ofNat n], 1 + ((s.take 2).takeWhile (Text.isDigitOf 16)).length⟩
    | none => .error .badHex := by
  have hsimple : simpleEscape? mark = none := by
    have hall : ∀ mark ∈ ['x', 'X'], simpleEscape? mark = none := by decide
    exact hall mark h
  have hmark : mark = 'x' ∨ mark = 'X' := by simpa using h
  unfold escape
  simp only [hsimple]
  exact if_pos hmark

theorem not_isDigitOf_eight_of_mem {c : Char}
    (h : c ∈ simpleEscapes.map Prod.fst ++ ['x', 'X', 'u', 'U']) : Text.isDigitOf 8 c = false := by
  have hall : ∀ c ∈ simpleEscapes.map Prod.fst ++ ['x', 'X', 'u', 'U'],
      Text.isDigitOf 8 c = false := by
    decide
  exact hall c h

theorem escape_of_octalDigit {c : Char} (h : Text.isDigitOf 8 c) (s : List Char) :
    escape (c :: s)
      =
    .ok ⟨[UInt8.ofNat (Text.digitsValue 8 0 (c :: (s.take 2).takeWhile (Text.isDigitOf 8)))],
      (c :: (s.take 2).takeWhile (Text.isDigitOf 8)).length⟩ := by
  have hnot : c ∉ simpleEscapes.map Prod.fst ++ ['x', 'X', 'u', 'U'] := by
    intro hmem
    rw [not_isDigitOf_eight_of_mem hmem] at h
    cases h
  simp only [List.mem_append, List.mem_cons, List.not_mem_nil, or_false, not_or] at hnot
  simp only [escape, simpleEscape?_eq_none_iff.2 hnot.1, hnot.2, or_self, h, ↓reduceIte]

theorem escape_of_unicodeMark {mark : Char} {width : Nat} (h : (mark, width) ∈ unicodeEscapes)
    (s : List Char) : escape (mark :: s) = unicodeEscape width s := by
  simp only [unicodeEscapes, List.mem_cons, Prod.mk.injEq, List.not_mem_nil, or_false] at h
  rcases h with ⟨rfl, rfl⟩ | ⟨rfl, rfl⟩
  . rfl
  . rfl

theorem escape_of_unknown {c : Char} (hsimple : c ∉ simpleEscapes.map Prod.fst)
    (hmark : c ∉ ['x', 'X']) (hdigit : Text.isDigitOf 8 c = false)
    (hunicode : c ∉ unicodeEscapes.map Prod.fst) (s : List Char) :
    escape (c :: s) = .error (.unknown c) := by
  simp only [unicodeEscapes, List.map_cons, List.map_nil, List.mem_cons, List.not_mem_nil, or_false,
    not_or] at hmark hunicode
  simp only [escape, simpleEscape?_eq_none_iff.2 hsimple, hmark, hdigit, hunicode, or_self,
    Bool.false_eq_true, ↓reduceIte]

theorem isEscape_of_escape_eq_ok {s : List Char} {found : Escape} (h : escape s = .ok found) :
    ∃ unit rest, s = unit ++ rest ∧ IsEscape NamesLoosely unit rest found.bytes
      ∧ found.width = unit.length := by
  cases s with
  | nil => cases h
  | cons c s =>
    by_cases hsimple : c ∈ simpleEscapes.map Prod.fst
    . rcases List.mem_map.1 hsimple with ⟨⟨_, byte⟩, hmem, rfl⟩
      rw [escape_simple (simpleEscape?_eq_some_iff.2 hmem)] at h
      cases h
      exact ⟨[_], s, rfl, .simple hmem, rfl⟩
    by_cases hmark : c ∈ ['x', 'X']
    . rcases exists_greedy 16 2 s with ⟨digits, rest, rfl, hgreedy, -, htake⟩
      rw [escape_of_hexMark hmark, htake] at h
      split at h
      . next n hnumber =>
        cases h
        exact ⟨c :: digits, rest, rfl, .hex hmark hgreedy hnumber, Nat.add_comm _ _⟩
      . cases h
    cases hdigit : Text.isDigitOf 8 c with
    | true =>
      rcases exists_greedy 8 2 s with ⟨digits, rest, rfl, hgreedy, hdigits, htake⟩
      rw [escape_of_octalDigit hdigit, htake] at h
      cases h
      refine ⟨c :: digits, rest, rfl, .octal (greedy_cons_iff.2 hgreedy) ?_, rfl⟩
      rw [Text.number?_eq_some_iff]
      exact ⟨List.cons_ne_nil _ _, by simpa [hdigit] using hdigits, rfl⟩
    | false =>
      by_cases hunicode : c ∈ unicodeEscapes.map Prod.fst
      . rcases List.mem_map.1 hunicode with ⟨⟨_, width⟩, hmem, rfl⟩
        rw [escape_of_unicodeMark hmem, unicodeEscape_eq_ok_iff] at h
        rcases h with ⟨digits, rest, named, rfl, hnames, rfl⟩
        exact ⟨_ :: digits, rest, rfl, .unicode hmem hnames, Nat.add_comm _ _⟩
      . rw [escape_of_unknown hsimple hmark hdigit hunicode] at h
        cases h

theorem IsEscape.escape_eq_ok {unit rest : List Char} {bytes : List UInt8}
    (h : IsEscape NamesLoosely unit rest bytes) :
    escape (unit ++ rest) = .ok ⟨bytes, unit.length⟩ := by
  cases h with
  | simple hmem => exact escape_simple (simpleEscape?_eq_some_iff.2 hmem) rest
  | hex hmark hgreedy hnumber =>
    have htake := hgreedy.takeWhile_eq (Text.number?_eq_some_iff.1 hnumber).2.1
    rw [List.cons_append, escape_of_hexMark hmark, htake, hnumber, List.length_cons, Nat.add_comm]
  | octal hgreedy hnumber =>
    rcases Text.number?_eq_some_iff.1 hnumber with ⟨hne, hdigits, rfl⟩
    rcases List.exists_cons_of_ne_nil hne with ⟨c, digits, rfl⟩
    have htake := hgreedy.takeWhile_eq hdigits
    simp only [List.mem_cons, forall_eq_or_imp] at hdigits
    simp only [List.cons_append, List.take_succ_cons, List.takeWhile_cons, hdigits.1, ↓reduceIte,
      List.cons.injEq, true_and] at htake
    rw [List.cons_append, escape_of_octalDigit hdigits.1, htake]
  | unicode hmem hnames =>
    rw [List.cons_append, escape_of_unicodeMark hmem, unicodeEscape_eq_ok_iff]
    exact ⟨_, _, _, rfl, hnames, by rw [List.length_cons, Nat.add_comm]⟩

/-! ### Reading a text -/

theorem content_eq_ok_iff {s : List Char} {bytes : List UInt8} :
    content s = .ok bytes ↔ Denotes NamesLoosely s bytes := by
  constructor
  . induction hlength : s.length using Nat.strong_induction_on generalizing s bytes with
    | _ length ih =>
      intro h
      cases s with
      | nil =>
        cases h
        exact .nil
      | cons c s =>
        unfold content at h
        rw [content.go] at h
        split at h
        . next hc =>
          rcases bind_eq_ok_iff.1 h with ⟨first, hfirst, h⟩
          rcases bind_eq_ok_iff.1 h with ⟨others, hothers, hbytes⟩
          cases hbytes
          rcases isEscape_of_escape_eq_ok hfirst with ⟨unit, rest, rfl, hunit, hwidth⟩
          rw [content.go_eq_content_drop, hwidth, List.drop_left] at hothers
          rw [hc]
          refine .escape hunit (ih rest.length ?_ rfl hothers)
          simp only [List.length_cons, List.length_append] at hlength
          omega
        . next hc =>
          rcases bind_eq_ok_iff.1 h with ⟨others, hothers, hbytes⟩
          cases hbytes
          exact .plain hc (ih s.length (by simp at hlength; omega) rfl hothers)
  . intro h
    induction h with
    | nil => rfl
    | plain hc _ ih => exact content_cons hc ih
    | escape hunit _ ih =>
      apply content_escape hunit.escape_eq_ok
      rw [List.drop_left]
      exact ih

/-! ### Exact and loose names -/

theorem NamesExactly.loosely {width : Nat} {digits rest : List Char} {c : Char}
    (h : NamesExactly width digits rest c) : NamesLoosely width digits rest c :=
  ⟨.inl h.1, digits, .inl rfl, h.2⟩

theorem IsEscape.loosely {unit rest : List Char} {bytes : List UInt8}
    (h : IsEscape NamesExactly unit rest bytes) : IsEscape NamesLoosely unit rest bytes := by
  cases h with
  | simple hmem => exact .simple hmem
  | hex hmark hgreedy hnumber => exact .hex hmark hgreedy hnumber
  | octal hgreedy hnumber => exact .octal hgreedy hnumber
  | unicode hmem hnames => exact .unicode hmem hnames.loosely

theorem Denotes.loosely {s : List Char} {bytes : List UInt8} (h : Denotes NamesExactly s bytes) :
    Denotes NamesLoosely s bytes := by
  induction h with
  | nil => exact .nil
  | plain hc _ ih => exact .plain hc ih
  | escape hunit _ ih => exact .escape hunit.loosely ih

theorem IsEscape.unit_eq {unit rest unit' rest' : List Char} {bytes bytes' : List UInt8}
    (h : IsEscape NamesLoosely unit rest bytes) (h' : IsEscape NamesLoosely unit' rest' bytes')
    (heq : unit ++ rest = unit' ++ rest') : unit = unit' ∧ rest = rest' := by
  have hfound := h.escape_eq_ok
  rw [heq, h'.escape_eq_ok, Except.ok.injEq, Escape.mk.injEq] at hfound
  exact List.append_inj heq hfound.2.symm

theorem IsEscape.names_of_mark {names : Naming} {mark : Char} {width : Nat}
    {digits rest : List Char} {bytes : List UInt8} (h : IsEscape names (mark :: digits) rest bytes)
    (hmark : (mark, width) ∈ unicodeEscapes) : ∃ c, names width digits rest c := by
  have hother : ∀ entry ∈ unicodeEscapes,
      entry.1 ∉ simpleEscapes.map Prod.fst ∧ entry.1 ∉ ['x', 'X']
        ∧ Text.isDigitOf 8 entry.1 = false := by
    decide
  rcases hother _ hmark with ⟨hsimple, hhex, hoctal⟩
  cases h with
  | simple hmem => exact absurd (List.mem_map_of_mem hmem) hsimple
  | hex hmem => exact absurd hmem hhex
  | octal _ hnumber => exact absurd hnumber (Code.number?_eight_ne_some hoctal _ _)
  | unicode hmem hnames =>
    have hnodup : (unicodeEscapes.map Prod.fst).Nodup := by decide
    have := List.inj_on_of_nodup_map hnodup hmem hmark rfl
    rw [← (Prod.mk.inj this).2]
    exact ⟨_, hnames⟩

theorem NamesLoosely.exactly {width : Nat} {digits rest : List Char} {c : Char}
    (h : NamesLoosely width digits rest c) (hloose : ¬(digits.length < width ∨ '+' ∈ digits)) :
    NamesExactly width digits rest c := by
  rw [not_or] at hloose
  rcases h with ⟨hlength, number, rfl | rfl, hnumber⟩
  . exact ⟨hlength.resolve_right fun hshort => hloose.1 hshort.1, hnumber⟩
  . exact absurd List.mem_cons_self hloose.2

theorem Denotes.exactly {s : List Char} {bytes : List UInt8} (h : Denotes NamesLoosely s bytes)
    (hloose : ¬HasLoose s) : Denotes NamesExactly s bytes := by
  induction h with
  | nil => exact .nil
  | plain hc _ ih => exact .plain hc (ih fun h => hloose (.plain hc h))
  | escape hunit _ ih =>
    refine .escape ?_ (ih fun h => hloose (.escape hunit h))
    cases hunit with
    | simple hmem => exact .simple hmem
    | hex hmark hgreedy hnumber => exact .hex hmark hgreedy hnumber
    | octal hgreedy hnumber => exact .octal hgreedy hnumber
    | unicode hmem hnames =>
      exact .unicode hmem (hnames.exactly fun h => hloose (.here hmem hnames h))

theorem Denotes.not_hasLoose {s : List Char} {bytes : List UInt8}
    (h : Denotes NamesExactly s bytes) : ¬HasLoose s := by
  induction h with
  | nil => nofun
  | plain hc _ ih =>
    intro hloose
    cases hloose with
    | here => exact hc rfl
    | plain _ hloose => exact ih hloose
    | escape => exact hc rfl
  | @escape unit rest first bytes hunit _ ih =>
    intro hloose
    generalize hs : '\\' :: (unit ++ rest) = s at hloose
    cases hloose with
    | here hmark hnames hshort =>
      -- The loose unit is the one in front, and that one is exact.
      rcases hunit.loosely.unit_eq (.unicode hmark hnames) (List.cons.inj hs).2 with ⟨rfl, rfl⟩
      rcases hunit.names_of_mark hmark with ⟨c, hlength, hnumber⟩
      rcases hshort with hshort | hplus
      . omega
      . have := (Text.number?_eq_some_iff.1 hnumber).2.1 '+' hplus
        exact absurd this (by decide)
    | plain hc => exact hc (List.cons.inj hs).1.symm
    | escape hunit' hloose =>
      rcases hunit.loosely.unit_eq hunit' (List.cons.inj hs).2 with ⟨-, rfl⟩
      exact ih hloose

/-! ### Literals -/

theorem yields_stringTailHere (quote : Char) :
    (stringTailHere quote).Yields (fun value => ∃ s, value = s ++ [quote]) where
  of_eq_ok {text value rest} h := by
    fun_induction stringTailHere quote text generalizing value with
    | case1 => cases h
    | case2 c text ih =>
      rcases Outcome.exists_of_map_eq_ok h with ⟨tail, htail, rfl⟩
      rcases ih htail with ⟨s, rfl⟩
      exact ⟨_ :: _ :: s, rfl⟩
    | case3 text =>
      cases h
      exact ⟨[], rfl⟩
    | case4 => cases h
    | case5 c text _ _ _ ih =>
      rcases Outcome.exists_of_map_eq_ok h with ⟨tail, htail, rfl⟩
      rcases ih htail with ⟨s, rfl⟩
      exact ⟨_ :: s, rfl⟩

theorem yields_stringHere :
    stringHere.Yields (fun value => ∃ quote s, (quote = '"' ∨ quote = '\'')
      ∧ value = quote :: (s ++ [quote])) := by
  apply (yields_char _).bind
  intro quote hquote
  apply (yields_stringTailHere quote).bind
  rintro _ ⟨s, rfl⟩
  exact .pure ⟨quote, s, by simpa using hquote, rfl⟩

theorem bytes_eq_ok_iff {literal : String} {quote : Char} {s : List Char}
    (h : literal.toList = quote :: (s ++ [quote])) {value : List UInt8} :
    bytes literal = .ok value ↔ Denotes NamesLoosely s value := by
  rw [← content_eq_ok_iff]
  unfold bytes
  rw [h, body?_quotes]
  dsimp only
  cases content s with
  | ok found => simp [Except.mapError]
  | error fault => simp [Except.mapError]

structure FollowsGrammar (literal : String) (s : List Char) : Prop where
  eq_ok_iff : ∀ value, bytes literal = .ok value ↔ Denotes NamesExactly s value
  refused : (∀ value, ¬Denotes NamesExactly s value) →
    ∃ fault, ofOptions (bytes literal) = .error (.invalidOption fault)

theorem exists_fault {literal : String} (h : ∀ value, bytes literal ≠ .ok value) :
    ∃ fault, ofOptions (bytes literal) = .error (.invalidOption fault) := by
  cases hresult : bytes literal with
  | ok value => exact absurd hresult (h value)
  | error fault => exact ⟨fault, rfl⟩

/--
Every string literal that the grammar has a meaning for is decoded to that meaning. A literal with
another meaning, or with a meaning where the grammar has none, is one that is accepted and in which
a unit names a character with too few digits or with a plus sign.
-/
theorem followsGrammar_iff {literal : String}
    (h : stringHere literal.toList = .ok literal.toList []) :
    ∃ quote s, (quote = '"' ∨ quote = '\'') ∧ literal.toList = quote :: (s ++ [quote])
      ∧ (∀ value, Denotes NamesExactly s value → bytes literal = .ok value)
      ∧ (∀ value, bytes literal = .ok value ↔ Denotes NamesLoosely s value)
      ∧ ((∀ value, ¬Denotes NamesLoosely s value) →
          ∃ fault, ofOptions (bytes literal) = .error (.invalidOption fault))
      ∧ (FollowsGrammar literal s ↔ ¬(HasLoose s ∧ ∃ value, bytes literal = .ok value)) := by
  rcases yields_stringHere.of_eq_ok h with ⟨quote, s, hquote, hliteral⟩
  have hbytes : ∀ value, bytes literal = .ok value ↔ Denotes NamesLoosely s value :=
    fun value => bytes_eq_ok_iff hliteral
  have hexact : ∀ value, Denotes NamesExactly s value → bytes literal = .ok value :=
    fun value hvalue => (hbytes value).2 hvalue.loosely
  refine ⟨quote, s, hquote, hliteral, hexact, hbytes, ?_, ?_⟩
  . intro hnone
    apply exists_fault
    intro value hvalue
    exact hnone value ((hbytes value).1 hvalue)
  . constructor
    . rintro hfollows ⟨hloose, value, hvalue⟩
      exact ((hfollows.eq_ok_iff value).1 hvalue).not_hasLoose hloose
    . intro hloose
      have hiff : ∀ value, bytes literal = .ok value ↔ Denotes NamesExactly s value := by
        intro value
        refine ⟨fun hvalue => ?_, hexact value⟩
        apply ((hbytes value).1 hvalue).exactly
        exact fun hhas => hloose ⟨hhas, value, hvalue⟩
      refine ⟨hiff, ?_⟩
      intro hnone
      apply exists_fault
      intro value hvalue
      exact hnone value ((hiff value).1 hvalue)

def mixedLiteral : String :=
  "'\\u00e9\\x4g'"

theorem followsGrammar_mixedLiteral :
    stringHere mixedLiteral.toList = .ok mixedLiteral.toList []
      ∧ bytes mixedLiteral = .ok [0xc3, 0xa9, 0x04, 0x67]
      ∧ FollowsGrammar mixedLiteral "\\u00e9\\x4g".toList := by
  have hmatch : stringHere mixedLiteral.toList = .ok mixedLiteral.toList [] := rfl
  have hdenotes : Denotes NamesExactly
      ('\\' :: ("u00e9".toList ++ '\\' :: ("x4".toList ++ ['g'])))
      (String.utf8EncodeChar 'é' ++ ([UInt8.ofNat 4] ++ (String.utf8EncodeChar 'g' ++ []))) := by
    apply Denotes.escape
    . exact .unicode (show ('u', 4) ∈ unicodeEscapes by decide) ⟨rfl, by decide⟩
    apply Denotes.escape
    . exact .hex (by decide) (.inr (by decide)) (by decide)
    exact .plain (by decide) .nil
  rcases followsGrammar_iff hmatch with ⟨quote, s, -, hliteral, hexact, -, -, hfollows⟩
  have hs : mixedLiteral.toList = '\'' :: ("\\u00e9\\x4g".toList ++ ['\'']) := by decide
  rw [hs, List.cons.injEq] at hliteral
  obtain rfl := (List.append_inj' hliteral.2 rfl).1
  refine ⟨hmatch, hexact _ hdenotes, hfollows.2 ?_⟩
  exact fun hloose => hdenotes.not_hasLoose hloose.1

theorem not_followsGrammar_looseLiterals :
    stringHere "\"\\u41\"".toList = .ok "\"\\u41\"".toList []
      ∧ bytes "\"\\u41\"" = .ok [0x41]
      ∧ ¬FollowsGrammar "\"\\u41\"" "\\u41".toList
      ∧ stringHere "\"\\u+041z\"".toList = .ok "\"\\u+041z\"".toList []
      ∧ bytes "\"\\u+041z\"" = .ok [0x41, 0x7a]
      ∧ ¬FollowsGrammar "\"\\u+041z\"" "\\u+041z".toList := by
  have hmark : ('u', 4) ∈ unicodeEscapes := by decide
  have hshort : HasLoose ('\\' :: 'u' :: ("41".toList ++ [])) := by
    have hnames : NamesLoosely 4 "41".toList [] 'A' :=
      ⟨.inr (by decide), "41".toList, .inl rfl, by decide⟩
    exact .here hmark hnames (.inl (by decide))
  have hplus : HasLoose ('\\' :: 'u' :: ("+041".toList ++ ['z'])) := by
    have hnames : NamesLoosely 4 "+041".toList ['z'] 'A' :=
      ⟨.inl (by decide), "041".toList, .inr (by decide), by decide⟩
    exact .here hmark hnames (.inr (by decide))
  have hshortBytes : bytes "\"\\u41\"" = .ok [0x41] := by decide
  have hplusBytes : bytes "\"\\u+041z\"" = .ok [0x41, 0x7a] := by decide
  refine ⟨rfl, hshortBytes, ?_, rfl, hplusBytes, ?_⟩
  . intro hfollows
    exact ((hfollows.eq_ok_iff _).1 hshortBytes).not_hasLoose hshort
  . intro hfollows
    exact ((hfollows.eq_ok_iff _).1 hplusBytes).not_hasLoose hplus

end StringLiteral

end Source

end HessianGo
