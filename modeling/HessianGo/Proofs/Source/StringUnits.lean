import HessianGo.Proofs.Source.Escape
import Mathlib.Logic.Relation

/-!
This module contains the decoder of string literals as a run over the units that the grammar makes
of a literal. Each round starts at a unit, also behind an escape that takes several characters, so
no backslash is left without the character that it takes with it.
-/

namespace HessianGo

namespace Source

namespace StringLiteral

open Relation (ReflTransGen)

/-! ### Units of the grammar -/

/--
What the grammar takes at once inside of a literal: a backslash with any character, or a character
that is neither a quote nor a line end.
-/
inductive IsUnit (quote : Char) : List Char → Prop where
  | plain {c : Char} : c ≠ quote → c ≠ '\n' → c ≠ '\\' → IsUnit quote [c]
  | escape {c : Char} : IsUnit quote ['\\', c]

structure HasUnits (literal : List Char) (quote : Char) (units : List (List Char)) : Prop where
  quote_eq : quote = '"' ∨ quote = '\''
  isUnit : ∀ unit ∈ units, IsUnit quote unit
  literal_eq : literal = quote :: (units.flatten ++ [quote])

theorem yields_stringTailHere_units (quote : Char) :
    (stringTailHere quote).Yields (fun value => ∃ units : List (List Char),
      (∀ unit ∈ units, IsUnit quote unit) ∧ value = units.flatten ++ [quote]) where
  of_eq_ok {text value rest} h := by
    fun_induction stringTailHere quote text generalizing value with
    | case1 => cases h
    | case2 c text ih =>
      rcases Outcome.exists_of_map_eq_ok h with ⟨tail, htail, rfl⟩
      rcases ih htail with ⟨units, hunits, rfl⟩
      exact ⟨['\\', c] :: units, List.forall_mem_cons.2 ⟨.escape, hunits⟩, rfl⟩
    | case3 text =>
      cases h
      exact ⟨[], List.forall_mem_nil _, rfl⟩
    | case4 => cases h
    | case5 c text _ hquote hplain ih =>
      rcases Outcome.exists_of_map_eq_ok h with ⟨tail, htail, rfl⟩
      rcases ih htail with ⟨units, hunits, rfl⟩
      rw [not_or] at hplain
      exact ⟨[c] :: units, List.forall_mem_cons.2 ⟨.plain hquote hplain.1 hplain.2, hunits⟩, rfl⟩

theorem yields_stringHere_units :
    stringHere.Yields (fun value => ∃ quote units, HasUnits value quote units) := by
  apply (yields_char _).bind
  intro quote hquote
  apply (yields_stringTailHere_units quote).bind
  rintro _ ⟨units, hunits, rfl⟩
  exact .pure ⟨quote, units, by simpa using hquote, hunits, rfl⟩

/-! ### Rounds of the decoder -/

/--
A round of the decoder, from the text that is left before it to the text that is left behind it.
-/
inductive Step : List Char → List Char → Prop where
  | plain {c : Char} {s : List Char} : c ≠ '\\' → Step (c :: s) s
  | escape {s : List Char} {found : Escape} :
    escape s = .ok found → Step ('\\' :: s) (s.drop found.width)

theorem content_of_ne_backslash {c : Char} (h : c ≠ '\\') (s : List Char) :
    content (c :: s) = (content s).map (String.utf8EncodeChar c ++ ·) := by
  unfold content
  rw [content.go, if_neg h]
  rfl

theorem content_backslash (s : List Char) :
    content ('\\' :: s)
      =
    escape s >>= fun found => (content (s.drop found.width)).map (found.bytes ++ ·) := by
  unfold content
  rw [content.go, if_pos rfl]
  simp only [content.go_eq_content_drop]
  rfl

theorem Step.exists_content_eq {s t : List Char} (h : Step s t) :
    ∃ first, content s = (content t).map (first ++ ·) := by
  cases h with
  | plain hc => exact ⟨_, content_of_ne_backslash hc _⟩
  | escape hescape =>
    rw [content_backslash, hescape]
    exact ⟨_, rfl⟩

theorem Step.length_lt {s t : List Char} (h : Step s t) : t.length < s.length := by
  cases h with
  | plain _ => simp
  | escape _ =>
    rw [List.length_drop, List.length_cons]
    omega

theorem exists_stop (s : List Char) :
    ∃ t, ReflTransGen Step s t
      ∧ (t = [] ∨ ∃ rest fault, t = '\\' :: rest ∧ escape rest = .error fault) := by
  induction hlength : s.length using Nat.strong_induction_on generalizing s with
  | _ length ih =>
    have hgo {next : List Char} (hstep : Step s next) :
        ∃ t, ReflTransGen Step s t
          ∧ (t = [] ∨ ∃ rest fault, t = '\\' :: rest ∧ escape rest = .error fault) := by
      rcases ih next.length (hlength ▸ hstep.length_lt) next rfl with ⟨t, hrun, hstop⟩
      exact ⟨t, .head hstep hrun, hstop⟩
    cases s with
    | nil => exact ⟨[], .refl, .inl rfl⟩
    | cons c s =>
      by_cases hc : c = '\\'
      . subst hc
        cases hescape : escape s with
        | ok found => exact hgo (.escape hescape)
        | error fault => exact ⟨_, .refl, .inr ⟨s, fault, rfl, hescape⟩⟩
      . exact hgo (.plain hc)

theorem exists_content_eq_of_run {s t : List Char} (h : ReflTransGen Step s t) :
    ∃ before, content s = (content t).map (before ++ ·) := by
  induction h using ReflTransGen.head_induction_on with
  | refl =>
    refine ⟨[], ?_⟩
    cases content t with
    | ok bytes => rfl
    | error fault => rfl
  | head hstep _ ih =>
    rcases hstep.exists_content_eq with ⟨first, hfirst⟩
    rcases ih with ⟨before, hbefore⟩
    refine ⟨first ++ before, ?_⟩
    rw [hfirst, hbefore]
    cases content t with
    | ok bytes => simp [Except.map]
    | error fault => rfl

theorem exists_content_eq_ok_iff {s : List Char} :
    (∃ bytes, content s = .ok bytes) ↔ ReflTransGen Step s [] := by
  constructor
  . rintro ⟨bytes, h⟩
    rcases exists_stop s with ⟨t, hrun, rfl | ⟨rest, fault, rfl, hfault⟩⟩
    . exact hrun
    . rcases exists_content_eq_of_run hrun with ⟨before, hbefore⟩
      rw [content_backslash, hfault, h] at hbefore
      cases hbefore
  . intro h
    rcases exists_content_eq_of_run h with ⟨before, hbefore⟩
    exact ⟨_, hbefore⟩

theorem content_eq_error_iff {s : List Char} {fault : EscapeFault} :
    content s = .error fault
      ↔
    ∃ rest, ReflTransGen Step s ('\\' :: rest) ∧ escape rest = .error fault := by
  constructor
  . intro h
    rcases exists_stop s with ⟨t, hrun, hstop⟩
    rcases exists_content_eq_of_run hrun with ⟨before, hbefore⟩
    rw [h] at hbefore
    rcases hstop with rfl | ⟨rest, cause, rfl, hcause⟩
    . cases hbefore
    . rw [content_backslash, hcause] at hbefore
      cases hbefore
      exact ⟨rest, hrun, hcause⟩
  . rintro ⟨rest, hrun, hfault⟩
    rcases exists_content_eq_of_run hrun with ⟨before, hbefore⟩
    rw [hbefore, content_backslash, hfault]
    rfl

/-! ### Rounds and units -/

theorem IsEscape.exists_mark {unit rest : List Char} {bytes : List UInt8}
    (h : IsEscape NamesLoosely unit rest bytes) :
    ∃ mark taken, unit = mark :: taken ∧ '\\' ∉ taken := by
  -- Behind the character that says what an escape is, the escape takes no backslash.
  have hnumber {base : Nat} (hbase : base ∈ [8, 16]) {digits : List Char} {n : Nat}
      (h : Text.number? base digits = some n) : '\\' ∉ digits := by
    intro hmem
    have hdigit := (Text.number?_eq_some_iff.1 h).2.1 _ hmem
    have hall : ∀ base ∈ [8, 16], Text.isDigitOf base '\\' = false := by decide
    rw [hall base hbase] at hdigit
    cases hdigit
  cases h with
  | simple _ => exact ⟨_, [], rfl, List.not_mem_nil⟩
  | hex _ _ hdigits => exact ⟨_, _, rfl, hnumber (by decide) hdigits⟩
  | octal _ hdigits =>
    rcases List.exists_cons_of_ne_nil (Text.number?_eq_some_iff.1 hdigits).1
      with ⟨mark, taken, rfl⟩
    exact ⟨mark, taken, rfl, fun hmem => hnumber (by decide) hdigits (List.mem_cons_of_mem _ hmem)⟩
  | unicode _ hnames =>
    refine ⟨_, _, rfl, ?_⟩
    rcases hnames.2 with ⟨number, rfl | rfl, hdigits⟩
    . exact hnumber (by decide) hdigits
    . exact List.not_mem_cons_of_ne_of_not_mem (by decide) (hnumber (by decide) hdigits)

variable {quote : Char} {units : List (List Char)}

theorem exists_unit_of_backslash {rest : List Char} (hunits : ∀ unit ∈ units, IsUnit quote unit)
    (h : '\\' :: rest = units.flatten) :
    ∃ e others, units = ['\\', e] :: others ∧ rest = e :: others.flatten := by
  cases units with
  | nil => cases h
  | cons unit others =>
    cases hunits unit List.mem_cons_self with
    | plain _ _ hplain => exact absurd (List.cons.inj h).1.symm hplain
    | escape => exact ⟨_, others, rfl, (List.cons.inj h).2⟩

theorem exists_suffix_of_append {taken rest : List Char}
    (hunits : ∀ unit ∈ units, IsUnit quote unit) (h : taken ++ rest = units.flatten)
    (htaken : '\\' ∉ taken) :
    ∃ left, left <:+ units ∧ rest = left.flatten := by
  induction taken generalizing units with
  | nil => exact ⟨units, List.suffix_rfl, h⟩
  | cons c taken ih =>
    simp only [List.mem_cons, not_or] at htaken
    cases units with
    | nil => cases h
    | cons unit units =>
      rw [List.forall_mem_cons] at hunits
      cases hunits.1 with
      | plain _ _ _ =>
        rcases ih hunits.2 (List.cons.inj h).2 htaken.2 with ⟨left, hleft, hrest⟩
        exact ⟨left, hleft.trans (List.suffix_cons _ _), hrest⟩
      | escape => exact absurd (List.cons.inj h).1.symm htaken.1

theorem Step.exists_suffix {s t : List Char} (h : Step s t)
    (hunits : ∀ unit ∈ units, IsUnit quote unit) (hs : s = units.flatten) :
    ∃ left, left <:+ units ∧ t = left.flatten := by
  cases h with
  | @plain c s hc =>
    have hc : '\\' ∉ [c] := by simpa using hc.symm
    exact exists_suffix_of_append hunits hs hc
  | escape hescape =>
    rcases exists_unit_of_backslash hunits hs with ⟨e, others, rfl, rfl⟩
    rcases isEscape_of_escape_eq_ok hescape with ⟨unit, rest, hunit, hisEscape, hwidth⟩
    rcases hisEscape.exists_mark with ⟨mark, taken, rfl, htaken⟩
    rw [List.forall_mem_cons] at hunits
    rw [hunit, hwidth, List.drop_left]
    rcases exists_suffix_of_append hunits.2 (List.cons.inj hunit).2.symm htaken
      with ⟨left, hleft, hrest⟩
    exact ⟨left, hleft.trans (List.suffix_cons _ _), hrest⟩

theorem exists_suffix_of_run {t : List Char} (h : ReflTransGen Step units.flatten t)
    (hunits : ∀ unit ∈ units, IsUnit quote unit) : ∃ left, left <:+ units ∧ t = left.flatten := by
  induction h with
  | refl => exact ⟨units, List.suffix_rfl, rfl⟩
  | tail _ hstep ih =>
    rcases ih with ⟨between, hbetween, hs⟩
    rcases hstep.exists_suffix (fun unit hmem => hunits unit (hbetween.subset hmem)) hs
      with ⟨left, hleft, ht⟩
    exact ⟨left, hleft.trans hbetween, ht⟩

/-! ### Literals -/

theorem fault_of_escape_eq_error {e : Char} {s : List Char} {fault : EscapeFault}
    (h : escape (e :: s) = .error fault) :
    fault = .badHex ∨ fault = .badUnicode ∨ fault = .unknown e := by
  have hunicode {width : Nat} (h : unicodeEscape width s = .error fault) : fault = .badUnicode := by
    unfold unicodeEscape at h
    dsimp only at h
    split at h
    . cases h
    . exact (Except.error.inj h).symm
  unfold escape at h
  dsimp only at h
  split at h
  . cases h
  split at h
  . split at h
    . cases h
    . exact .inl (Except.error.inj h).symm
  split at h
  . cases h
  split at h
  . exact .inr (.inl (hunicode h))
  split at h
  . exact .inr (.inl (hunicode h))
  . exact .inr (.inr (Except.error.inj h).symm)

theorem HasUnits.bytes_eq {literal : String} (h : HasUnits literal.toList quote units) :
    bytes literal = (content units.flatten).mapError (EscapeFault.inLiteral literal) := by
  unfold bytes
  rw [h.literal_eq, body?_quotes]

/--
Decoding a literal of the grammar goes from unit to unit: what is left before each round are whole
units of the literal. It fails at the first unit whose escape is refused, which is a backslash with
a character, and for one of three causes.
-/
theorem bytes_outcome {literal : String}
    (h : stringHere literal.toList = .ok literal.toList []) :
    ∃ quote units, HasUnits literal.toList quote units
      ∧ (∀ t, ReflTransGen Step units.flatten t → ∃ left, left <:+ units ∧ t = left.flatten)
      ∧ ((∃ value, bytes literal = .ok value) ↔ ReflTransGen Step units.flatten [])
      ∧ ∀ fault, bytes literal = .error fault →
        ∃ e left cause, ['\\', e] :: left <:+ units
          ∧ ReflTransGen Step units.flatten ('\\' :: e :: left.flatten)
          ∧ escape (e :: left.flatten) = .error cause ∧ fault = cause.inLiteral literal
          ∧ (fault = .badHexEscape literal ∨ fault = .badUnicodeEscape literal
            ∨ fault = .unknownEscape e literal) := by
  rcases yields_stringHere_units.of_eq_ok h with ⟨quote, units, hunits⟩
  refine ⟨quote, units, hunits, fun t hrun => exists_suffix_of_run hrun hunits.isUnit, ?_, ?_⟩
  . rw [hunits.bytes_eq, ← exists_content_eq_ok_iff]
    cases content units.flatten with
    | ok bytes => simp [Except.mapError]
    | error fault => simp [Except.mapError]
  . intro fault hfault
    rw [hunits.bytes_eq] at hfault
    cases hcontent : content units.flatten with
    | ok bytes =>
      rw [hcontent] at hfault
      cases hfault
    | error cause =>
      rw [hcontent] at hfault
      cases hfault
      rcases content_eq_error_iff.1 hcontent with ⟨rest, hrun, hcause⟩
      rcases exists_suffix_of_run hrun hunits.isUnit with ⟨between, hbetween, hrest⟩
      rcases exists_unit_of_backslash (fun unit hmem => hunits.isUnit unit (hbetween.subset hmem))
        hrest with ⟨e, left, rfl, rfl⟩
      refine ⟨e, left, cause, hbetween, hrun, hcause, rfl, ?_⟩
      rcases fault_of_escape_eq_error hcause with rfl | rfl | rfl
      . exact .inl rfl
      . exact .inr (.inl rfl)
      . exact .inr (.inr rfl)

/--
A literal in which the characters that an escape takes would end between a backslash and a quote.
-/
def crossingLiteral : String :=
  "'\\x4\\u12\\'3'"

theorem bytes_outcome_crossingLiteral :
    stringHere crossingLiteral.toList = .ok crossingLiteral.toList []
      ∧ bytes crossingLiteral = .error (.badUnicodeEscape crossingLiteral)
      ∧ ∃ quote units, HasUnits crossingLiteral.toList quote units
        ∧ ∃ e left, ['\\', e] :: left <:+ units
          ∧ ReflTransGen Step units.flatten ('\\' :: e :: left.flatten)
          ∧ escape (e :: left.flatten) = .error .badUnicode := by
  have hmatch : stringHere crossingLiteral.toList = .ok crossingLiteral.toList [] := rfl
  have hbytes : bytes crossingLiteral = .error (.badUnicodeEscape crossingLiteral) := by decide
  rcases bytes_outcome hmatch with ⟨quote, units, hunits, -, -, herror⟩
  rcases herror _ hbytes with ⟨e, left, cause, hleft, hrun, hcause, hfault, -⟩
  obtain rfl : cause = .badUnicode := by
    cases cause with
    | badUnicode => rfl
    | dangling | badHex | unknown => cases hfault
  exact ⟨hmatch, hbytes, quote, units, hunits, e, left, hleft, hrun, hcause⟩

end StringLiteral

end Source

end HessianGo
