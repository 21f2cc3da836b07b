import HessianGo.Proofs.Code.Literal
import HessianGo.Proofs.Source.IntegerLiteral
import HessianGo.Source.StringLiteral
import Mathlib.Data.List.TakeWhile

/-!
This module contains the literals that are written for values: integers in decimal and quoted texts.
The readers take each of them as one token, and it denotes the value that it was written for.
-/

namespace HessianGo

namespace Source

variable {n bound : Nat} {tokens : List String}

/-! ### Integers in decimal -/

theorem eq_zero_of_toDigits {k : Nat} {digits : List Char}
    (h : Nat.toDigits 10 k = '0' :: digits) : k = 0 ∧ digits = [] := by
  induction k using Nat.strong_induction_on generalizing digits with
  | _ k ih =>
    rw [Nat.toDigits_eq_if (by decide)] at h
    split at h
    . simpa using h
    . next hge =>
      cases hfront : Nat.toDigits 10 (k / 10) with
      | nil => exact absurd hfront Nat.toDigits_ne_nil
      | cons c front =>
        rw [hfront, List.cons_append, List.cons.injEq] at h
        obtain ⟨rfl, -⟩ := h
        have := (ih (k / 10) (by omega) hfront).1
        omega

theorem isDigit_of_mem_toDigits {k : Nat} {c : Char} (h : c ∈ Nat.toDigits 10 k) : c.isDigit :=
  Nat.isDigit_of_mem_toDigits (by decide) (by decide) h

theorem exists_toDigits (k : Nat) :
    ∃ c digits, Nat.toDigits 10 k = c :: digits ∧ c.isDigit ∧ (∀ d ∈ digits, d.isDigit)
      ∧ (c = '0' → k = 0 ∧ digits = []) := by
  cases hdigits : Nat.toDigits 10 k with
  | nil => exact absurd hdigits Nat.toDigits_ne_nil
  | cons c digits =>
    refine ⟨c, digits, rfl, ?_, ?_, ?_⟩
    . exact isDigit_of_mem_toDigits (k := k) (by simp [hdigits])
    . intro d hd
      exact isDigit_of_mem_toDigits (k := k) (by simp [hdigits, hd])
    . rintro rfl
      exact eq_zero_of_toDigits hdigits

theorem exists_toList_toString (z : Int) :
    ∃ (sign : List Char) (k : Nat),
      (sign = [] ∧ z = (k : Int) ∨ sign = ['-'] ∧ z = -(k : Int))
      ∧ (toString z).toList = sign ++ Nat.toDigits 10 k := by
  cases z with
  | ofNat k => exact ⟨[], k, .inl ⟨rfl, rfl⟩, Nat.toList_repr⟩
  | negSucc k =>
    refine ⟨['-'], k + 1, .inr ⟨rfl, rfl⟩, ?_⟩
    change ("-" ++ Nat.repr (k + 1)).toList = _
    rw [String.toList_append, Nat.toList_repr]
    rfl

theorem inBase_toDigits (k : Nat) : InBase 10 (Nat.toDigits 10 k) k := by
  induction k using Nat.strong_induction_on with
  | _ k ih =>
    rw [Nat.toDigits_eq_if (by decide)]
    split
    . next hlt => exact ⟨[k], .cons ⟨hlt, .inl rfl⟩ .nil, by simp⟩
    . next hge =>
      rcases ih (k / 10) (by omega) with ⟨values, hvalues, hfront⟩
      refine ⟨values ++ [k % 10], ?_, ?_⟩
      . exact List.rel_append hvalues (.cons ⟨Nat.mod_lt _ (by decide), .inl rfl⟩ .nil)
      . rw [List.reverse_append, List.reverse_singleton, List.singleton_append, Nat.ofDigits_cons,
          hfront]
        exact Nat.mod_add_div k 10

theorem isMagnitude_toDigits (k : Nat) : IsMagnitude (Nat.toDigits 10 k) k := by
  have hdigits := inBase_toDigits k
  rcases exists_toDigits k with ⟨c, digits, heq, -, -, hzero⟩
  rw [heq] at hdigits ⊢
  by_cases hc : c = '0'
  . rcases hzero hc with ⟨rfl, rfl⟩
    subst hc
    exact .octal ⟨[], .nil, rfl⟩
  . exact .decimal hc hdigits

theorem isInteger_toString (z : Int) : IsInteger (toString z).toList z := by
  rcases exists_toList_toString z with ⟨sign, k, hsign, hz⟩
  rw [hz]
  rcases hsign with ⟨rfl, rfl⟩ | ⟨rfl, rfl⟩
  . exact .plain (isMagnitude_toDigits k)
  . exact .negative (isMagnitude_toDigits k)

theorem signHere_append {sign : List Char} (hsign : sign = [] ∨ sign = ['-']) (k : Nat)
    (s : List Char) :
    signHere (sign ++ (Nat.toDigits 10 k ++ s)) = .ok sign (Nat.toDigits 10 k ++ s) := by
  rcases hsign with rfl | rfl
  . apply signHere_eq_nil
    rw [List.nil_append, List.head?_append_of_ne_nil _ Nat.toDigits_ne_nil]
    exact (isMagnitude_toDigits k).ne_minus
  . exact Reader.orElse_eq_of_ok (literal_append ['-'] _)

theorem floatHere_eq_mismatch {sign : List Char} (hsign : sign = [] ∨ sign = ['-']) (k : Nat)
    {s : List Char} (hs : ∀ c ∈ s.head?, isPathChar c = false) :
    floatHere (sign ++ (Nat.toDigits 10 k ++ s)) = .mismatch := by
  rcases exists_toDigits k with ⟨c, digits, hdigits, hc, hall, -⟩
  have hs' : ∀ c ∈ s.head?, isNameChar c = false :=
    head_eq_false (fun c => isPathChar_of_isNameChar) hs
  have hwhole : Reader.chars1 Char.isDigit (c :: digits ++ s) = .ok (c :: digits) s := by
    have hdecimal : ∀ c ∈ s.head?, c.isDigit = false :=
      head_eq_false (fun c => isNameChar_of_isDigit) hs'
    exact (Reader.bind_eq_of_ok (char_cons hc _)).trans
      (Reader.bind_eq_of_ok (chars_append hall hdecimal))
  have hpoint : Reader.char (· = '.') s = .mismatch := by
    apply char_eq_mismatch_of_head
    refine head_eq_false ?_ hs
    intro c hc
    simp only [decide_eq_true_eq] at hc
    subst hc
    decide
  have hexponent : exponentHere s = .mismatch := by
    apply Reader.bind_eq_of_mismatch
    apply char_eq_mismatch_of_head
    refine head_eq_false ?_ hs'
    intro c hc
    simp only [Bool.or_eq_true, decide_eq_true_eq] at hc
    rcases hc with rfl | rfl
    all_goals decide
  have hword : ∀ w : String, (∀ d ∈ w.toList.head?, ¬d.isDigit) → w.toList ≠ [] →
      Reader.literal w.toList (c :: digits ++ s) = .mismatch := by
    intro w hw hne
    apply literal_eq_mismatch
    rintro ⟨rest, hrest⟩
    refine hw c ?_ hc
    rw [← List.head?_append_of_ne_nil _ hne, hrest]
    rfl
  apply (Reader.bind_eq_of_ok (signHere_append hsign k s)).trans
  apply Reader.bind_eq_of_mismatch
  rw [hdigits]
  -- Neither a point nor an exponent follows the digits, and no digit starts a word.
  apply (Reader.orElse_eq_of_mismatch ((Reader.bind_eq_of_ok hwhole).trans
    (Reader.bind_eq_of_mismatch hpoint))).trans
  apply (Reader.orElse_eq_of_mismatch ((Reader.bind_eq_of_ok hwhole).trans
    (Reader.bind_eq_of_mismatch hexponent))).trans
  apply (Reader.orElse_eq_of_mismatch (Reader.bind_eq_of_mismatch (char_eq_mismatch ?_ _))).trans
  . apply Reader.orElse_eq_of_mismatch
    apply Reader.bind_eq_of_mismatch
    apply (Reader.orElse_eq_of_mismatch (hword "inf" (by decide) (by decide))).trans
    exact hword "nan" (by decide) (by decide)
  . rw [decide_eq_false_iff_not]
    rintro rfl
    exact absurd hc (by decide)

theorem Apart.of_integer {z : Int} {s : List Char} (h : Apart (toString z).toList s) :
    ∀ c ∈ s.head?, isPathChar c = false := by
  rcases exists_toList_toString z with ⟨sign, k, -, hz⟩
  rw [hz] at h
  apply (h.of_append Nat.toDigits_ne_nil).of_word Nat.toDigits_ne_nil
  intro c hc
  exact isPathChar_of_isNameChar (isNameChar_of_isDigit (isDigit_of_mem_toDigits hc))

theorem reads_integer (z : Int) :
    Reads n integer (toString z :: tokens) tokens (toString z) := by
  apply Reads.token
  intro s hapart _
  rw [Reader.map_eq_of_ok (integerHere_append (isInteger_toString z) hapart.of_integer)]
  rw [String.ofList_toList]

theorem fieldNumber_toString (number : UInt32) :
    IntegerLiteral.fieldNumber (toString (number.toNat : Int)) = .ok number := by
  have := number.toNat_lt
  rw [IntegerLiteral.fieldNumber_of_isInteger (isInteger_toString _), if_pos (by omega)]
  simp

theorem enumNumber_toString (number : Int32) :
    IntegerLiteral.enumNumber (toString number.toInt) = .ok number := by
  have hle := number.le_toInt
  have hlt := number.toInt_lt
  rw [IntegerLiteral.enumNumber_of_isInteger (isInteger_toString _), if_pos ⟨hle, hlt⟩]
  simp

/-! ### Quoted texts -/

/--
What can stand between two quotes: a backslash with any character, or a character that is neither a
quote nor a line end.
-/
inductive IsStringBody (quote : Char) : List Char → Prop where
  | nil : IsStringBody quote []
  | plain {c : Char} {s : List Char} :
    c ≠ quote → c ≠ '\n' → c ≠ '\\' → IsStringBody quote s → IsStringBody quote (c :: s)
  | escape {c : Char} {s : List Char} : IsStringBody quote s → IsStringBody quote ('\\' :: c :: s)

theorem IsStringBody.append {quote : Char} {s t : List Char} (hs : IsStringBody quote s)
    (ht : IsStringBody quote t) : IsStringBody quote (s ++ t) := by
  induction hs with
  | nil => exact ht
  | plain hquote hline hescape _ ih => exact .plain hquote hline hescape ih
  | escape _ ih => exact .escape ih

theorem stringTailHere_append {quote : Char} (hquote : quote ≠ '\\') {body : List Char}
    (h : IsStringBody quote body) (s : List Char) :
    stringTailHere quote (body ++ quote :: s) = .ok (body ++ [quote]) s := by
  induction h with
  | nil =>
    rw [List.nil_append, stringTailHere.eq_3]
    . simp
    . intro _ _ hc
      exact absurd hc hquote
  | plain hne hline hescape _ ih =>
    rw [List.cons_append, stringTailHere.eq_3]
    . simp [hne, hline, hescape, ih, Outcome.map]
    . intro _ _ hc
      exact absurd hc hescape
  | escape _ ih =>
    simp only [List.cons_append, stringTailHere, ih]
    rfl

theorem isStringBody_of_isDigitOf {digits : List Char} (h : ∀ c ∈ digits, Text.isDigitOf 16 c) :
    IsStringBody '"' digits := by
  have hplain : ∀ c : Char, Text.isDigitOf 16 c → c ≠ '"' ∧ c ≠ '\n' ∧ c ≠ '\\' := by
    intro c hc
    refine ⟨?_, ?_, ?_⟩
    all_goals rintro rfl; exact absurd hc (by decide)
  induction digits with
  | nil => exact .nil
  | cons c digits ih =>
    simp only [List.mem_cons, forall_eq_or_imp] at h
    rcases hplain c h.1 with ⟨hquote, hline, hescape⟩
    exact .plain hquote hline hescape (ih h.2)

theorem isStringBody_of_spells {unit : List Char} {bytes : List UInt8}
    (h : Code.Spells unit bytes) : IsStringBody '"' unit := by
  have hhex : ∀ width k, IsStringBody '"' (Text.hexFixed width k) :=
    fun _ _ => isStringBody_of_isDigitOf fun _ hc => Text.isDigitOf_of_mem_hexFixed hc
  cases h with
  | plain hquote hline hescape => exact .plain hquote hline hescape .nil
  | short => exact .escape .nil
  | hex => exact .escape (hhex _ _)
  | unicode => exact .escape (hhex _ _)

theorem isStringBody_of_spellsAll {units : List Char} {bytes : List UInt8}
    (h : Code.SpellsAll units bytes) : IsStringBody '"' units := by
  induction h with
  | nil => exact .nil
  | cons hfirst _ ih => exact (isStringBody_of_spells hfirst).append ih

theorem stringHere_append {bytes : List UInt8} {literal : String}
    (h : Code.IsLiteralOf bytes literal) (s : List Char) :
    stringHere (literal.toList ++ s) = .ok literal.toList s := by
  rcases h with ⟨units, hliteral, hspells⟩
  rw [hliteral]
  simp only [List.cons_append, List.append_assoc, List.nil_append]
  apply (Reader.bind_eq_of_ok (char_cons rfl _)).trans
  exact Reader.bind_eq_of_ok
    (stringTailHere_append (by decide) (isStringBody_of_spellsAll hspells) s)

theorem reads_stringLiteral (text : String) :
    Reads n stringLiteral (Code.quote text :: tokens) tokens (Code.quote text) := by
  apply Reads.token
  intro s _ _
  rw [Reader.map_eq_of_ok (stringHere_append (Code.isLiteralOf_quote text) s)]
  rw [String.ofList_toList]

/-! ### The meaning of a quoted text -/

namespace StringLiteral

theorem content_cons {c : Char} (h : c ≠ '\\') {s : List Char} {bytes : List UInt8}
    (hs : content s = .ok bytes) : content (c :: s) = .ok (String.utf8EncodeChar c ++ bytes) := by
  unfold content at hs ⊢
  rw [content.go, if_neg h, hs]
  rfl

theorem content_escape {found : Escape} {s : List Char} {bytes : List UInt8}
    (hescape : escape s = .ok found) (hs : content (s.drop found.width) = .ok bytes) :
    content ('\\' :: s) = .ok (found.bytes ++ bytes) := by
  unfold content
  rw [content.go, if_pos rfl, hescape]
  change (content.go found.width s >>= fun others => pure (found.bytes ++ others)) = _
  rw [content.go_eq_content_drop, hs]
  rfl

theorem escape_simple {e : Char} {byte : UInt8} (h : simpleEscape? e = some byte) (s : List Char) :
    escape (e :: s) = .ok ⟨[byte], 1⟩ := by
  simp only [escape, h]

theorem take_hexFixed (width k : Nat) (s : List Char) :
    (Text.hexFixed width k ++ s).take width = Text.hexFixed width k := by
  rw [List.take_append_of_le_length (by simp), List.take_of_length_le (by simp)]

theorem escape_hex (byte : UInt8) (s : List Char) :
    escape ('x' :: (Text.hexFixed 2 byte.toNat ++ s)) = .ok ⟨[byte], 3⟩ := by
  have hdigits : (Text.hexFixed 2 byte.toNat).takeWhile (Text.isDigitOf 16)
      = Text.hexFixed 2 byte.toNat := by
    rw [List.takeWhile_eq_self_iff]
    exact fun c hc => Text.isDigitOf_of_mem_hexFixed hc
  have hnumber := Text.number?_hexFixed (show 0 < 2 by decide) byte.toNat_lt
  have hsimple : simpleEscape? 'x' = none := rfl
  simp only [escape, hsimple, true_or, ↓reduceIte, take_hexFixed, hdigits, hnumber,
    Text.length_hexFixed, UInt8.ofNat_toNat]

theorem unicodeChar?_hexFixed {c : Char} (h : c.toNat < 16 ^ 4) :
    unicodeChar? (Text.hexFixed 4 c.toNat) = some c := by
  have hnumber := Text.number?_hexFixed (by decide) h
  have hplus : ∀ digits, Text.hexFixed 4 c.toNat ≠ '+' :: digits := by
    intro digits hdigits
    have : Text.isDigitOf 16 '+' := Text.isDigitOf_of_mem_hexFixed (k := c.toNat) (by
      rw [hdigits]
      exact List.mem_cons_self)
    exact absurd this (by decide)
  unfold unicodeChar?
  split
  . next digits hdigits => exact absurd hdigits (hplus digits)
  . rw [hnumber]
    exact (if_pos c.valid).trans (congrArg some c.ofNat_toNat)

theorem escape_unicode {c : Char} (h : c.toNat < 16 ^ 4) (s : List Char) :
    escape ('u' :: (Text.hexFixed 4 c.toNat ++ s)) = .ok ⟨String.utf8EncodeChar c, 5⟩ := by
  have hsimple : simpleEscape? 'u' = none := rfl
  have hoctal : Text.isDigitOf 8 'u' = false := rfl
  simp only [escape, hsimple, Char.reduceEq, or_self, ↓reduceIte, hoctal, Bool.false_eq_true,
    unicodeEscape, take_hexFixed, unicodeChar?_hexFixed h, Text.length_hexFixed]

theorem content_of_spells {unit s : List Char} {first bytes : List UInt8}
    (h : Code.Spells unit first) (hs : content s = .ok bytes) :
    content (unit ++ s) = .ok (first ++ bytes) := by
  cases h with
  | plain _ _ hescape => exact content_cons hescape hs
  | short hmem =>
    have hsimple : ∀ entry ∈ Code.shortEscapes, simpleEscape? entry.1 = some entry.2 := by decide
    exact content_escape (escape_simple (hsimple _ hmem) s) hs
  | hex byte => exact content_escape (escape_hex byte s) (by simpa using hs)
  | unicode hlt => exact content_escape (escape_unicode hlt s) (by simpa using hs)

theorem content_of_spellsAll {units : List Char} {bytes : List UInt8}
    (h : Code.SpellsAll units bytes) : content units = .ok bytes := by
  induction h with
  | nil => rfl
  | cons hfirst _ ih => exact content_of_spells hfirst ih

theorem ofUtf8?_utf8 (text : String) : Text.ofUtf8? (Text.utf8 text.toList) = some text := by
  have hbytes : (Text.utf8 text.toList).toByteArray = text.toByteArray :=
    String.utf8Encode_toList
  unfold Text.ofUtf8? String.fromUTF8?
  rw [hbytes, dif_pos text.isValidUTF8]
  rfl

theorem body?_quotes (opening closing : Char) (s : List Char) :
    body? (opening :: (s ++ [closing])) = some s := by
  cases s with
  | nil => rfl
  | cons c s =>
    rw [List.cons_append, body?, ← List.cons_append, List.dropLast_concat]

theorem bytes_of_isLiteralOf {value : List UInt8} {literal : String}
    (h : Code.IsLiteralOf value literal) : bytes literal = .ok value := by
  rcases h with ⟨units, hliteral, hspells⟩
  unfold bytes
  rw [hliteral, body?_quotes]
  dsimp only
  rw [content_of_spellsAll hspells]
  rfl

theorem text_quote (string : String) : text (Code.quote string) = .ok string := by
  refine bind_eq_ok_iff.2 ⟨_, bytes_of_isLiteralOf (Code.isLiteralOf_quote string), ?_⟩
  rw [ofUtf8?_utf8]
  rfl

theorem isQuoted_of_isLiteralOf {value : List UInt8} {literal : String}
    (h : Code.IsLiteralOf value literal) : isQuoted literal := by
  rcases h with ⟨units, hliteral, -⟩
  unfold isQuoted
  rw [hliteral]
  rfl

end StringLiteral

/-! ### Constants -/

theorem textOf_append {α : Type} {p : Reader α} {value : α} {t s : List Char}
    (h : p (t ++ s) = .ok value s) : Reader.textOf p (t ++ s) = .ok t s := by
  unfold Reader.textOf
  rw [h]
  simp

theorem reads_constant {first : String}
    (h : ∀ s, Apart first.toList s → first.toList.length < n → ∃ value, Reader.firstOf [
      floatHere,
      integerHere,
      boolHere,
      stringHere,
      do
        let sign ← signHere
        let path ← token (pathHere bound)
        return sign ++ path] (first.toList ++ s) = .ok value s) :
    Reads n (constant bound) (first :: tokens) tokens first := by
  apply Reads.token
  intro s hapart hlt
  rcases h s hapart hlt with ⟨value, hvalue⟩
  rw [Reader.map_eq_of_ok (textOf_append hvalue), String.ofList_toList]

theorem reads_constant_integer (z : Int) :
    Reads n (constant bound) (toString z :: tokens) tokens (toString z) := by
  apply reads_constant
  intro s hapart _
  have hs := hapart.of_integer
  have hfloat : floatHere ((toString z).toList ++ s) = .mismatch := by
    rcases exists_toList_toString z with ⟨sign, k, hsign, hz⟩
    rw [hz, List.append_assoc]
    exact floatHere_eq_mismatch (hsign.imp And.left And.left) k hs
  exact ⟨_, (Reader.orElse_eq_of_mismatch hfloat).trans
    (Reader.orElse_eq_of_ok (integerHere_append (isInteger_toString z) hs))⟩

theorem reads_constant_bool (b : Bool) :
    Reads n (constant bound) (toString b :: tokens) tokens (toString b) := by
  apply reads_constant
  intro s hapart _
  have hs : ∀ c ∈ s.head?, isNameChar c = false := by
    apply head_eq_false fun c => isPathChar_of_isNameChar
    cases b
    all_goals exact hapart.of_word (by decide) (by decide)
  have hword : boolHere ((toString b).toList ++ s) = .ok (toString b).toList s := by
    cases b
    all_goals exact Reader.bind_eq_of_ok (notBefore_eq_ok hs)
  have hfloat : floatHere ((toString b).toList ++ s) = .mismatch := by
    cases b
    all_goals rfl
  have hinteger : integerHere ((toString b).toList ++ s) = .mismatch := by
    cases b
    all_goals rfl
  exact ⟨_, (Reader.orElse_eq_of_mismatch hfloat).trans
    ((Reader.orElse_eq_of_mismatch hinteger).trans (Reader.orElse_eq_of_ok hword))⟩

theorem reads_constant_literal {bytes : List UInt8} {literal : String}
    (h : Code.IsLiteralOf bytes literal) :
    Reads n (constant bound) (literal :: tokens) tokens literal := by
  apply reads_constant
  intro s _ _
  have hstring := stringHere_append h s
  rcases h with ⟨units, hliteral, -⟩
  rw [hliteral] at hstring ⊢
  exact ⟨_, (Reader.orElse_eq_of_mismatch rfl).trans ((Reader.orElse_eq_of_mismatch rfl).trans
    ((Reader.orElse_eq_of_mismatch rfl).trans (Reader.orElse_eq_of_ok hstring)))⟩

end Source

end HessianGo
