import HessianGo.Code.Literal
import HessianGo.Text.Utf8
import Mathlib.Algebra.Group.Nat.Defs
import Mathlib.Data.List.Nodup

/-!
This module contains the string literals that are written for texts and for bytes, and what they
denote in Go. A literal that is written is a row of units, each a character that stands for itself
or an escape, and the rules of Go give it back the bytes that it was written for and no others.
-/

namespace HessianGo

/-! ### Digits -/

namespace Text

theorem toNat_ofNat_of_isValidChar {n : Nat} (h : n.isValidChar) : (Char.ofNat n).toNat = n := by
  unfold Char.ofNat
  rw [dif_pos h]
  rfl

theorem utf8EncodeChar_of_lt {c : Char} (h : c.toNat < 0x80) :
    String.utf8EncodeChar c = [UInt8.ofNat c.toNat] := by
  unfold String.utf8EncodeChar
  rw [if_pos]
  . rfl
  . exact Nat.le_of_lt_succ h

theorem number?_eq_some_iff {base n : Nat} {digits : List Char} :
    number? base digits = some n
      ↔
    digits ≠ [] ∧ (∀ c ∈ digits, isDigitOf base c) ∧ digitsValue base 0 digits = n := by
  rw [number?, Option.ite_none_right_eq_some, List.all_eq_true, Option.some.injEq, and_assoc]

theorem digitValue?_hexDigit {d : Nat} (h : d < 16) : digitValue? 16 (hexDigit d) = some d := by
  have hall : ∀ d : Fin 16, digitValue? 16 (hexDigit d) = some d.val := by decide
  exact hall ⟨d, h⟩

theorem isDigitOf_of_mem_hexFixed {width k : Nat} {c : Char} (h : c ∈ hexFixed width k) :
    isDigitOf 16 c := by
  unfold hexFixed at h
  induction width generalizing k with
  | zero => simp [fixedDigits] at h
  | succ width ih =>
    rw [fixedDigits, List.mem_append, List.mem_singleton] at h
    rcases h with h | rfl
    . exact ih h
    . simp [isDigitOf, digitValue?_hexDigit (Nat.mod_lt k (by decide))]

theorem digitsValue_hexFixed {width k : Nat} (h : k < 16 ^ width) :
    digitsValue 16 0 (hexFixed width k) = k := by
  unfold hexFixed
  induction width generalizing k with
  | zero =>
    obtain rfl : k = 0 := by simpa using h
    rfl
  | succ width ih =>
    have hlt : k / 16 < 16 ^ width := by
      rw [Nat.div_lt_iff_lt_mul (by decide), ← Nat.pow_succ]
      exact h
    have hfront := ih hlt
    unfold digitsValue at hfront ⊢
    rw [fixedDigits, List.foldl_append, hfront]
    simp only [List.foldl_cons, List.foldl_nil, digitValue?_hexDigit (Nat.mod_lt k (by decide)),
      Option.getD_some]
    omega

theorem number?_hexFixed {width k : Nat} (hwidth : 0 < width) (h : k < 16 ^ width) :
    number? 16 (hexFixed width k) = some k := by
  rw [number?_eq_some_iff]
  refine ⟨?_, fun c hc => isDigitOf_of_mem_hexFixed hc, digitsValue_hexFixed h⟩
  apply List.ne_nil_of_length_pos
  simpa using hwidth

end Text

namespace Code

/-! ### Literals that are written -/

def shortEscapes : List (Char × UInt8) :=
  [('"', 0x22), ('\\', 0x5c), ('n', 0x0a), ('r', 0x0d), ('t', 0x09), ('a', 0x07), ('b', 0x08),
   ('f', 0x0c), ('v', 0x0b)]

/--
`Spells unit bytes`: the unit of a literal is written for these bytes.
-/
inductive Spells : List Char → List UInt8 → Prop where
  | plain {c : Char} : c ≠ '"' → c ≠ '\n' → c ≠ '\\' → Spells [c] (String.utf8EncodeChar c)
  | short {e : Char} {byte : UInt8} : (e, byte) ∈ shortEscapes → Spells ['\\', e] [byte]
  | hex (byte : UInt8) : Spells ('\\' :: 'x' :: Text.hexFixed 2 byte.toNat) [byte]
  | unicode {c : Char} :
    c.toNat < 16 ^ 4 → Spells ('\\' :: 'u' :: Text.hexFixed 4 c.toNat) (String.utf8EncodeChar c)

inductive SpellsAll : List Char → List UInt8 → Prop where
  | nil : SpellsAll [] []
  | cons {unit units : List Char} {first bytes : List UInt8} :
    Spells unit first → SpellsAll units bytes → SpellsAll (unit ++ units) (first ++ bytes)

def IsLiteralOf (bytes : List UInt8) (literal : String) : Prop :=
  ∃ units, literal.toList = '"' :: (units ++ ['"']) ∧ SpellsAll units bytes

theorem spells_quotedChar (c : Char) : Spells (quotedChar c) (String.utf8EncodeChar c) := by
  unfold quotedChar
  split
  . exact .short (by decide : ('"', 0x22) ∈ shortEscapes)
  . exact .short (by decide : ('\\', 0x5c) ∈ shortEscapes)
  . exact .short (by decide : ('n', 0x0a) ∈ shortEscapes)
  . exact .short (by decide : ('r', 0x0d) ∈ shortEscapes)
  . exact .short (by decide : ('t', 0x09) ∈ shortEscapes)
  . exact .short (by decide : ('a', 0x07) ∈ shortEscapes)
  . exact .short (by decide : ('b', 0x08) ∈ shortEscapes)
  . exact .short (by decide : ('f', 0x0c) ∈ shortEscapes)
  . exact .short (by decide : ('v', 0x0b) ∈ shortEscapes)
  . next hquote hescape hline _ _ _ _ _ _ =>
    split
    . next hcontrol =>
      split
      . next hlt =>
        rw [Text.utf8EncodeChar_of_lt hlt]
        have hbyte : (UInt8.ofNat c.toNat).toNat = c.toNat := by
          simp only [UInt8.toNat_ofNat']
          omega
        conv => enter [1]; rw [← hbyte]
        exact .hex _
      . apply Spells.unicode
        simp only [Text.isControl, Bool.or_eq_true, Bool.and_eq_true, decide_eq_true_eq] at hcontrol
        omega
    . exact .plain hquote hline hescape

theorem spells_quotedByte (b : UInt8) : Spells (quotedByte b) [b] := by
  have hlt := b.toNat_lt
  have hchar : (Char.ofNat b.toNat).toNat = b.toNat :=
    Text.toNat_ofNat_of_isValidChar (.inl (by omega))
  have hshort : ∀ {e c : Char}, Char.ofNat b.toNat = c → (e, UInt8.ofNat c.toNat) ∈ shortEscapes →
      Spells ['\\', e] [b] := by
    rintro e _ rfl hmem
    rw [hchar, UInt8.ofNat_toNat] at hmem
    exact .short hmem
  unfold quotedByte
  dsimp only
  split
  . next h => exact hshort h (by decide)
  . next h => exact hshort h (by decide)
  . next h => exact hshort h (by decide)
  . next h => exact hshort h (by decide)
  . next h => exact hshort h (by decide)
  . next hquote hescape hline _ _ =>
    split
    . next hprintable =>
      have hencoded : String.utf8EncodeChar (Char.ofNat b.toNat) = [b] := by
        have hle := UInt8.le_iff_toNat_le.1 hprintable.2
        rw [Text.utf8EncodeChar_of_lt (by simp at hle; omega), hchar, UInt8.ofNat_toNat]
      rw [← hencoded]
      exact .plain hquote hline hescape
    . exact .hex b

theorem spellsAll_flatMap {α : Type} {units : α → List Char} {bytes : α → List UInt8}
    (h : ∀ item, Spells (units item) (bytes item)) (items : List α) :
    SpellsAll (items.flatMap units) (items.flatMap bytes) := by
  induction items with
  | nil => exact .nil
  | cons item items ih => exact .cons (h item) ih

theorem isLiteralOf_quote (text : String) : IsLiteralOf (Text.utf8 text.toList) (quote text) := by
  refine ⟨text.toList.flatMap quotedChar, ?_, spellsAll_flatMap spells_quotedChar text.toList⟩
  simp [quote]

theorem isLiteralOf_quoteBytes (bytes : List UInt8) : IsLiteralOf bytes (quoteBytes bytes) := by
  have hspells := spellsAll_flatMap spells_quotedByte bytes
  rw [List.flatMap_singleton'] at hspells
  refine ⟨bytes.flatMap quotedByte, ?_, hspells⟩
  simp [quoteBytes]

/-! ### Literals that are interpreted -/

def letterEscapes : List (Char × Char) :=
  [('a', '\x07'), ('b', '\x08'), ('f', '\x0c'), ('n', '\n'), ('r', '\r'), ('t', '\t'),
   ('v', '\x0b'), ('\\', '\\'), ('"', '"')]

/--
`InterpretsEscape escape bytes`: what stands behind a backslash in a string literal of Go denotes
these bytes. A byte has two hexadecimal or three octal digits, a character that is named by its
number four or eight hexadecimal digits.
-/
inductive InterpretsEscape : List Char → List UInt8 → Prop where
  | letter {e c : Char} : (e, c) ∈ letterEscapes → InterpretsEscape [e] (String.utf8EncodeChar c)
  | octal {digits : List Char} {n : Nat} :
    digits.length = 3 → Text.number? 8 digits = some n → n < 256 →
      InterpretsEscape digits [UInt8.ofNat n]
  | hex {digits : List Char} {n : Nat} :
    digits.length = 2 → Text.number? 16 digits = some n →
      InterpretsEscape ('x' :: digits) [UInt8.ofNat n]
  | unicode {mark : Char} {digits : List Char} {c : Char} :
    (mark, digits.length) ∈ [('u', 4), ('U', 8)] → Text.number? 16 digits = some c.toNat →
      InterpretsEscape (mark :: digits) (String.utf8EncodeChar c)

inductive Interprets : List Char → List UInt8 → Prop where
  | nil : Interprets [] []
  | plain {c : Char} {units : List Char} {bytes : List UInt8} :
    c ≠ '"' → c ≠ '\n' → c ≠ '\\' → Interprets units bytes →
      Interprets (c :: units) (String.utf8EncodeChar c ++ bytes)
  | escape {escape units : List Char} {first bytes : List UInt8} :
    InterpretsEscape escape first → Interprets units bytes →
      Interprets ('\\' :: (escape ++ units)) (first ++ bytes)

/--
The text is a string literal of Go and denotes these bytes.
-/
def GoDenotes (literal : String) (bytes : List UInt8) : Prop :=
  ∃ units, literal.toList = '"' :: (units ++ ['"']) ∧ Interprets units bytes

def escapeTail (e : Char) : Nat :=
  if e ∈ letterEscapes.map Prod.fst then 0 else if e = 'u' then 4 else if e = 'U' then 8 else 2

theorem escapeTail_of_isDigitOf {e : Char} (h : Text.isDigitOf 8 e) : escapeTail e = 2 := by
  have hne : ∀ c : Char, Text.isDigitOf 8 c = false → e ≠ c := by
    rintro c hc rfl
    rw [h] at hc
    cases hc
  have hletter : e ∉ letterEscapes.map Prod.fst := by
    intro hmem
    have hall : ∀ c ∈ letterEscapes.map Prod.fst, Text.isDigitOf 8 c = false := by decide
    exact hne e (hall e hmem) rfl
  rw [escapeTail, if_neg hletter, if_neg (hne 'u' rfl), if_neg (hne 'U' rfl)]

theorem InterpretsEscape.exists_cons {escape : List Char} {bytes : List UInt8}
    (h : InterpretsEscape escape bytes) :
    ∃ e others, escape = e :: others ∧ others.length = escapeTail e := by
  cases h with
  | @letter e c hmem =>
    refine ⟨e, [], rfl, ?_⟩
    rw [escapeTail, if_pos (List.mem_map_of_mem hmem)]
    rfl
  | octal hlength hnumber =>
    rcases Text.number?_eq_some_iff.1 hnumber with ⟨hne, hdigits, -⟩
    rcases List.exists_cons_of_ne_nil hne with ⟨e, others, rfl⟩
    refine ⟨e, others, rfl, ?_⟩
    rw [escapeTail_of_isDigitOf (hdigits e List.mem_cons_self)]
    simpa using hlength
  | hex hlength => exact ⟨'x', _, rfl, hlength⟩
  | unicode hmark =>
    refine ⟨_, _, rfl, ?_⟩
    simp only [List.mem_cons, Prod.mk.injEq, List.not_mem_nil, or_false] at hmark
    rcases hmark with ⟨rfl, hlength⟩ | ⟨rfl, hlength⟩
    . exact hlength
    . exact hlength

theorem number?_eight_ne_some {mark : Char} (h : Text.isDigitOf 8 mark = false)
    (digits : List Char) (n : Nat) : Text.number? 8 (mark :: digits) ≠ some n := by
  intro hnumber
  have := (Text.number?_eq_some_iff.1 hnumber).2.1 mark List.mem_cons_self
  rw [h] at this
  cases this

theorem InterpretsEscape.bytes_eq {escape : List Char} {bytes other : List UInt8}
    (h : InterpretsEscape escape bytes) (h' : InterpretsEscape escape other) : bytes = other := by
  have hmark : ∀ {mark : Char} {width : Nat}, (mark, width) ∈ [('u', 4), ('U', 8)] →
      Text.isDigitOf 8 mark = false ∧ mark ≠ 'x' ∧ width ≠ 0 := by
    simp only [List.mem_cons, Prod.mk.injEq, List.not_mem_nil, or_false]
    rintro mark width (⟨rfl, rfl⟩ | ⟨rfl, rfl⟩)
    all_goals decide
  cases h with
  | letter hmem =>
    cases h' with
    | letter hmem' =>
      have hnodup : (letterEscapes.map Prod.fst).Nodup := by decide
      have := List.inj_on_of_nodup_map hnodup hmem hmem' rfl
      rw [(Prod.mk.inj this).2]
    | octal hlength => cases hlength
    | hex hlength => cases hlength
    | unicode hmem' => exact absurd rfl (hmark hmem').2.2
  | octal hlength hnumber hlt =>
    cases h' with
    | letter hmem => cases hlength
    | octal _ hnumber' =>
      rw [hnumber] at hnumber'
      rw [Option.some.inj hnumber']
    | hex _ => exact absurd hnumber (number?_eight_ne_some rfl _ _)
    | unicode hmem => exact absurd hnumber (number?_eight_ne_some (hmark hmem).1 _ _)
  | hex hlength hnumber =>
    cases h' with
    | letter hmem => cases hlength
    | octal _ hnumber' => exact absurd hnumber' (number?_eight_ne_some rfl _ _)
    | hex _ hnumber' =>
      rw [hnumber] at hnumber'
      rw [Option.some.inj hnumber']
    | unicode hmem => exact absurd rfl (hmark hmem).2.1
  | unicode hmem hnumber =>
    cases h' with
    | letter hmem' => exact absurd rfl (hmark hmem).2.2
    | octal _ hnumber' => exact absurd hnumber' (number?_eight_ne_some (hmark hmem).1 _ _)
    | hex _ hnumber' => exact absurd rfl (hmark hmem).2.1
    | unicode _ hnumber' =>
      rw [hnumber] at hnumber'
      rw [Char.toNat_inj.1 (Option.some.inj hnumber')]

theorem InterpretsEscape.unique {escape escape' units units' : List Char}
    {bytes bytes' : List UInt8} (h : InterpretsEscape escape bytes)
    (h' : InterpretsEscape escape' bytes')
    (heq : escape ++ units = escape' ++ units') : units = units' ∧ bytes = bytes' := by
  rcases h.exists_cons with ⟨e, others, rfl, hlength⟩
  rcases h'.exists_cons with ⟨e', others', rfl, hlength'⟩
  obtain rfl : e = e' := by simpa using congrArg List.head? heq
  rcases List.append_inj heq (by simp [hlength, hlength']) with ⟨hescape, hunits⟩
  rw [hescape] at h
  exact ⟨hunits, h.bytes_eq h'⟩

theorem Interprets.bytes_eq {units : List Char} {bytes other : List UInt8}
    (h : Interprets units bytes) (h' : Interprets units other) : bytes = other := by
  induction h generalizing other with
  | nil =>
    cases h'
    rfl
  | plain hquote hline hescape _ ih =>
    cases h' with
    | plain _ _ _ hothers => rw [ih hothers]
    | escape => exact absurd rfl hescape
  | @escape escape units first bytes hfirst _ ih =>
    generalize hunits : '\\' :: (escape ++ units) = all at h'
    cases h' with
    | nil => cases hunits
    | plain _ _ hescape =>
      cases hunits
      exact absurd rfl hescape
    | escape hfirst' hothers =>
      rcases hfirst.unique hfirst' (List.cons.inj hunits).2 with ⟨rfl, rfl⟩
      rw [ih hothers]

theorem Spells.interprets {unit units : List Char} {first bytes : List UInt8}
    (h : Spells unit first) (hunits : Interprets units bytes) :
    Interprets (unit ++ units) (first ++ bytes) := by
  have hescape : ∀ {escape : List Char} {first : List UInt8}, InterpretsEscape escape first →
      Interprets (('\\' :: escape) ++ units) (first ++ bytes) :=
    fun hfirst => .escape hfirst hunits
  cases h with
  | plain hquote hline hbackslash => exact .plain hquote hline hbackslash hunits
  | @short e byte hmem =>
    have hletter : ∀ entry ∈ shortEscapes,
        (entry.1, Char.ofNat entry.2.toNat) ∈ letterEscapes
          ∧ String.utf8EncodeChar (Char.ofNat entry.2.toNat) = [entry.2] := by
      decide
    rcases hletter _ hmem with ⟨hmem, hbyte⟩
    dsimp only at hbyte
    rw [← hbyte]
    exact hescape (.letter hmem)
  | hex byte =>
    have hnumber := Text.number?_hexFixed (show 0 < 2 by decide) byte.toNat_lt
    have hdigits := InterpretsEscape.hex (by simp) hnumber
    rw [UInt8.ofNat_toNat] at hdigits
    exact hescape hdigits
  | unicode hlt =>
    have hnumber := Text.number?_hexFixed (show 0 < 4 by decide) hlt
    exact hescape (.unicode (by simp) hnumber)

theorem SpellsAll.interprets {units : List Char} {bytes : List UInt8} (h : SpellsAll units bytes) :
    Interprets units bytes := by
  induction h with
  | nil => exact .nil
  | cons hfirst _ ih => exact hfirst.interprets ih

theorem IsLiteralOf.goDenotes_iff {bytes : List UInt8} {literal : String}
    (h : IsLiteralOf bytes literal) (other : List UInt8) :
    GoDenotes literal other ↔ other = bytes := by
  rcases h with ⟨units, hliteral, hspells⟩
  constructor
  . rintro ⟨units', hliteral', hother⟩
    rw [hliteral, List.cons.injEq, List.append_left_inj] at hliteral'
    rw [← hliteral'.2] at hother
    exact hother.bytes_eq hspells.interprets
  . rintro rfl
    exact ⟨units, hliteral, hspells.interprets⟩

end Code

end HessianGo
