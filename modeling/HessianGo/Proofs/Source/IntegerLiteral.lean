import HessianGo.Proofs.Source.Token
import HessianGo.Source.IntegerLiteral
import Mathlib.Data.List.Forall2
import Mathlib.Data.Nat.Digits.Defs

/-!
This module contains integer literals in hexadecimal, decimal and octal, of any length. The readers
take exactly these as one token. The bounded numbers that a literal is computed with either hold the
integer it denotes or there is none, so the number of a field or of an enum value is that integer,
and a literal whose integer does not have the size of such a number is refused.
-/

namespace HessianGo

namespace Source

/-! ### What literals denote -/

/--
The character is the digit of that value, in either case if it is a letter.
-/
def IsDigit (base : Nat) (c : Char) (value : Nat) : Prop :=
  value < base ∧ (c = Nat.digitChar value ∨ c = (Nat.digitChar value).toUpper)

instance {base : Nat} {c : Char} {value : Nat} : Decidable (IsDigit base c value) :=
  inferInstanceAs (Decidable (_ ∧ _))

/--
The digits denote the number in the base; the first one counts most.
-/
def InBase (base : Nat) (digits : List Char) (n : Nat) : Prop :=
  ∃ values, List.Forall₂ (IsDigit base) digits values ∧ Nat.ofDigits base values.reverse = n

inductive IsMagnitude : List Char → Nat → Prop where
  | hex {x : Char} {digits : List Char} {n : Nat} :
    x = 'x' ∨ x = 'X' → digits ≠ [] → InBase 16 digits n → IsMagnitude ('0' :: x :: digits) n
  | decimal {c : Char} {digits : List Char} {n : Nat} :
    c ≠ '0' → InBase 10 (c :: digits) n → IsMagnitude (c :: digits) n
  | octal {digits : List Char} {n : Nat} : InBase 8 digits n → IsMagnitude ('0' :: digits) n

inductive IsInteger : List Char → Int → Prop where
  | plain {s : List Char} {n : Nat} : IsMagnitude s n → IsInteger s n
  | negative {s : List Char} {n : Nat} : IsMagnitude s n → IsInteger ('-' :: s) (-n)

/-! ### Digits -/

theorem digitValue?_eq_some_iff {base value : Nat} {c : Char} (hbase : base ≤ 16) :
    Text.digitValue? base c = some value ↔ IsDigit base c value := by
  unfold Text.digitValue? IsDigit
  dsimp only
  rw [Option.filter_eq_some_iff, decide_eq_true_eq, and_comm]
  apply and_congr_right
  intro hlt
  constructor
  . intro h
    rw [← c.ofNat_toNat]
    generalize c.toNat = n at h
    split at h
    . obtain rfl : n = 48 + value := by grind
      have hdigit : ∀ value < 10, Char.ofNat (48 + value) = Nat.digitChar value := by decide
      exact .inl (hdigit value (by omega))
    . split at h
      . obtain ⟨d, rfl, rfl⟩ : ∃ d, n = 97 + d ∧ value = 10 + d := ⟨n - 97, by grind⟩
        have hdigit : ∀ d < 6, Char.ofNat (97 + d) = Nat.digitChar (10 + d) := by decide
        exact .inl (hdigit d (by omega))
      . obtain ⟨d, rfl, rfl⟩ : ∃ d, n = 65 + d ∧ value = 10 + d := ⟨n - 65, by grind⟩
        have hdigit : ∀ d < 6, Char.ofNat (65 + d) = (Nat.digitChar (10 + d)).toUpper := by decide
        exact .inr (hdigit d (by omega))
  . have hlower : ∀ value < 16, Text.digitValue? 16 (Nat.digitChar value) = some value := by decide
    have hupper : ∀ value < 16, Text.digitValue? 16 (Nat.digitChar value).toUpper = some value := by
      decide
    rintro (rfl | rfl)
    . exact (Option.filter_eq_some_iff.1 (hlower value (by omega))).1
    . exact (Option.filter_eq_some_iff.1 (hupper value (by omega))).1

theorem isDigitOf_iff_exists {base : Nat} {c : Char} (hbase : base ≤ 16) :
    Text.isDigitOf base c ↔ ∃ value, IsDigit base c value := by
  unfold Text.isDigitOf
  rw [Option.isSome_iff_exists]
  exact exists_congr fun value => digitValue?_eq_some_iff hbase

theorem isNameChar_of_isDigit {c : Char} (h : c.isDigit) : isNameChar c := by
  simp [isNameChar, Char.isAlphanum, h]

theorem isNameChar_of_isDigitOf {base : Nat} {c : Char} (h : Text.isDigitOf base c) :
    isNameChar c := by
  have hranges : 48 ≤ c.toNat ∧ c.toNat ≤ 57 ∨ 97 ≤ c.toNat ∧ c.toNat ≤ 122
      ∨ 65 ≤ c.toNat ∧ c.toNat ≤ 90 := by
    unfold Text.isDigitOf Text.digitValue? at h
    dsimp only at h
    split at h
    . omega
    . split at h
      . omega
      . split at h
        . omega
        . cases h
  have halpha : c.isAlpha → isNameChar c := by
    intro halpha
    simp [isNameChar, Char.isAlphanum, halpha]
  rcases hranges with h | h | h
  . apply isNameChar_of_isDigit
    exact Bool.and_eq_true_iff.2 ⟨decide_eq_true h.1, decide_eq_true h.2⟩
  . apply halpha
    apply Bool.or_eq_true_iff.2 (.inr _)
    exact Bool.and_eq_true_iff.2 ⟨decide_eq_true h.1, decide_eq_true h.2⟩
  . apply halpha
    apply Bool.or_eq_true_iff.2 (.inl _)
    exact decide_eq_true h

theorem isDigitOf_ten (c : Char) : Text.isDigitOf 10 c = c.isDigit := by
  rw [Bool.eq_iff_iff, Char.isDigit_iff_toNat]
  unfold Text.isDigitOf Text.digitValue?
  simp only [Char.reduceToNat, Option.isSome_filter]
  grind

theorem exists_inBase_iff {base : Nat} {digits : List Char} (hbase : base ≤ 16) :
    (∃ n, InBase base digits n) ↔ ∀ c ∈ digits, Text.isDigitOf base c := by
  constructor
  . rintro ⟨n, values, hvalues, -⟩
    induction hvalues with
    | nil => exact List.forall_mem_nil _
    | cons hvalue _ ih =>
      exact List.forall_mem_cons.2 ⟨(isDigitOf_iff_exists hbase).2 ⟨_, hvalue⟩, ih⟩
  . intro h
    suffices ∃ values, List.Forall₂ (IsDigit base) digits values by
      rcases this with ⟨values, hvalues⟩
      exact ⟨_, values, hvalues, rfl⟩
    induction digits with
    | nil => exact ⟨[], .nil⟩
    | cons c digits ih =>
      rw [List.forall_mem_cons] at h
      rcases (isDigitOf_iff_exists hbase).1 h.1 with ⟨value, hvalue⟩
      rcases ih h.2 with ⟨values, hvalues⟩
      exact ⟨value :: values, .cons hvalue hvalues⟩

theorem IsMagnitude.ne_nil {s : List Char} {n : Nat} (h : IsMagnitude s n) : s ≠ [] := by
  cases h
  all_goals exact List.cons_ne_nil _ _

theorem IsMagnitude.ne_minus {s : List Char} {n : Nat} (h : IsMagnitude s n) :
    ∀ c ∈ s.head?, c ≠ '-' := by
  rintro c hc rfl
  cases h with
  | hex _ _ _ => cases hc
  | decimal _ hdigits =>
    cases hc
    have := (exists_inBase_iff (by decide)).1 ⟨_, hdigits⟩ '-' List.mem_cons_self
    exact absurd this (by decide)
  | octal _ => cases hc

/-! ### The bounded computation -/

namespace IntegerLiteral

theorem bounded?_of_lt {n : Nat} (h : n < 2 ^ 127) : bounded? n = some n :=
  if_pos h

theorem bounded?_of_not_lt {n : Nat} (h : ¬n < 2 ^ 127) : bounded? n = none :=
  if_neg h

theorem append?_of_isDigit {base value : Nat} {c : Char} (hbase : base ≤ 16)
    (h : IsDigit base c value) (n : Nat) : append? base n c = bounded? (n * base + value) := by
  unfold append?
  rw [(digitValue?_eq_some_iff hbase).2 h]
  rfl

theorem le_foldl_digits {base : Nat} (hpos : 0 < base) (values : List Nat) (start : Nat) :
    start ≤ values.foldl (fun n value => n * base + value) start := by
  induction values generalizing start with
  | nil => exact Nat.le_refl start
  | cons value values ih =>
    calc
      start
      _ ≤ start * base := Nat.le_mul_of_pos_right start hpos
      _ ≤ start * base + value := Nat.le_add_right _ _
      _ ≤ _ := ih _

theorem foldlM_append? {base : Nat} (hpos : 0 < base) (hbase : base ≤ 16) {digits : List Char}
    {values : List Nat} (h : List.Forall₂ (IsDigit base) digits values) {start : Nat}
    (hstart : start < 2 ^ 127) :
    digits.foldlM (append? base) start
      =
    bounded? (values.foldl (fun n value => n * base + value) start) := by
  -- A number does not get smaller by more digits, so what is out of bounds once stays so.
  induction h generalizing start with
  | nil => exact (bounded?_of_lt hstart).symm
  | @cons c value digits values hvalue _ ih =>
    rw [List.foldlM_cons, append?_of_isDigit hbase hvalue, List.foldl_cons]
    by_cases hlt : start * base + value < 2 ^ 127
    . rw [bounded?_of_lt hlt]
      exact ih hlt
    . have hle := le_foldl_digits hpos values (start * base + value)
      rw [bounded?_of_not_lt hlt, bounded?_of_not_lt (by omega)]
      rfl

theorem collect?_of_inBase {base n : Nat} (hpos : 0 < base) (hbase : base ≤ 16)
    {digits : List Char} (h : InBase base digits n) : collect? base digits = bounded? n := by
  rcases h with ⟨values, hvalues, rfl⟩
  have hnumber : Nat.ofDigits base values.reverse
      = values.foldl (fun n value => n * base + value) 0 := by
    rw [Nat.ofDigits_eq_foldr, List.foldr_reverse]
    apply List.foldl_ext
    intro n value _
    simp [Nat.mul_comm, Nat.add_comm]
  rw [hnumber]
  exact foldlM_append? hpos hbase hvalues (by decide)

theorem magnitude?_of_isMagnitude {s : List Char} {n : Nat} (h : IsMagnitude s n) :
    magnitude? s = bounded? n := by
  -- The bases that the two readings of a literal choose are the same.
  cases h with
  | hex hx _ hdigits =>
    rcases hx with rfl | rfl
    . exact collect?_of_inBase (by decide) (by decide) hdigits
    . exact collect?_of_inBase (by decide) (by decide) hdigits
  | decimal hc hdigits =>
    rw [magnitude?.eq_4]
    . exact collect?_of_inBase (by decide) (by decide) hdigits
    all_goals
      intros
      simp_all
  | @octal digits n hdigits =>
    have hall := (exists_inBase_iff (by decide)).1 ⟨n, hdigits⟩
    cases digits with
    | nil =>
      rcases hdigits with ⟨values, hvalues, rfl⟩
      cases hvalues
      rfl
    | cons c digits =>
      rw [magnitude?.eq_3]
      . exact collect?_of_inBase (by decide) (by decide) hdigits
      . rintro rfl
        exact absurd (hall 'x' List.mem_cons_self) (by decide)
      . rintro rfl
        exact absurd (hall 'X' List.mem_cons_self) (by decide)

theorem map_bounded? {α : Type} (n : Nat) (f : Nat → α) :
    (bounded? n).map f = if n < 2 ^ 127 then some (f n) else none := by
  by_cases h : n < 2 ^ 127
  . rw [bounded?_of_lt h, if_pos h, Option.map_some]
  . rw [bounded?_of_not_lt h, if_neg h, Option.map_none]

theorem value?_of_isInteger {s : List Char} {v : Int} (h : IsInteger s v) :
    value? s = if v.natAbs < 2 ^ 127 then some v else none := by
  cases h with
  | plain hs =>
    rw [value?.eq_2, magnitude?_of_isMagnitude hs, map_bounded?, Int.natAbs_natCast]
    rintro rest rfl
    exact hs.ne_minus '-' rfl rfl
  | negative hs =>
    rw [value?.eq_1, magnitude?_of_isMagnitude hs, map_bounded?, Int.natAbs_neg,
      Int.natAbs_natCast]

theorem filter_value?_of_isInteger {s : List Char} {v : Int} (h : IsInteger s v) {p : Int → Bool}
    (hp : p v → v.natAbs < 2 ^ 127) :
    (value? s).filter p = if p v then some v else none := by
  rw [value?_of_isInteger h]
  by_cases hlt : v.natAbs < 2 ^ 127
  . rw [if_pos hlt, Option.filter_some]
  . rw [if_neg hlt, if_neg fun hv => hlt (hp hv), Option.filter_none]

theorem fieldNumber_of_isInteger {literal : String} {v : Int} (h : IsInteger literal.toList v) :
    fieldNumber literal
      =
    if 0 ≤ v ∧ v < 2 ^ 32 then
      .ok (UInt32.ofNat v.toNat)
    else
      .error (.integerOutOfRange literal) := by
  have hrange : 0 ≤ v ∧ v < (UInt32.size : Int) ↔ 0 ≤ v ∧ v < 2 ^ 32 := Iff.rfl
  unfold fieldNumber
  rw [filter_value?_of_isInteger h]
  . simp only [decide_eq_true_eq, hrange]
    by_cases hv : 0 ≤ v ∧ v < 2 ^ 32
    . rw [if_pos hv, if_pos hv]
    . rw [if_neg hv, if_neg hv]
  . rw [decide_eq_true_eq, hrange]
    omega

theorem enumNumber_of_isInteger {literal : String} {v : Int} (h : IsInteger literal.toList v) :
    enumNumber literal
      =
    if -2 ^ 31 ≤ v ∧ v < 2 ^ 31 then
      .ok (Int32.ofInt v)
    else
      .error (.integerOutOfRange literal) := by
  have hrange : Int32.minValue.toInt ≤ v ∧ v ≤ Int32.maxValue.toInt
      ↔ -2 ^ 31 ≤ v ∧ v < 2 ^ 31 := by
    rw [Int32.toInt_minValue, Int32.toInt_maxValue]
    omega
  unfold enumNumber
  rw [filter_value?_of_isInteger h]
  . simp only [decide_eq_true_eq, hrange]
    by_cases hv : -2 ^ 31 ≤ v ∧ v < 2 ^ 31
    . rw [if_pos hv, if_pos hv]
    . rw [if_neg hv, if_neg hv]
  . rw [decide_eq_true_eq, hrange]
    omega

end IntegerLiteral

/-! ### The readers of integers -/

theorem head_eq_false {p q : Char → Bool} {s : List Char} (hpq : ∀ c, p c → q c)
    (h : ∀ c ∈ s.head?, q c = false) : ∀ c ∈ s.head?, p c = false := by
  intro c hc
  rw [Bool.eq_false_iff]
  intro hp
  have := h c hc
  rw [hpq c hp] at this
  cases this

theorem char_eq_mismatch_of_head {p : Char → Bool} {s : List Char}
    (h : ∀ c ∈ s.head?, p c = false) : Reader.char p s = .mismatch := by
  cases s with
  | nil => rfl
  | cons c s => exact char_eq_mismatch (h c rfl) s

theorem signHere_eq_nil {s : List Char} (h : ∀ c ∈ s.head?, c ≠ '-') : signHere s = .ok [] s := by
  apply Reader.orElse_eq_of_mismatch
  apply literal_eq_mismatch
  rintro ⟨rest, rfl⟩
  exact h '-' rfl rfl

theorem isPathChar_of_isHexMark {c : Char} (h : c = 'x' ∨ c = 'X') :
    isPathChar c ∧ Text.isDigitOf 8 c = false := by
  rcases h with rfl | rfl
  all_goals decide

theorem magnitudeHere_append {t s : List Char} {n : Nat} (h : IsMagnitude t n)
    (hs : ∀ c ∈ s.head?, isPathChar c = false) : magnitudeHere (t ++ s) = .ok t s := by
  have hend : ∀ base, ∀ c ∈ s.head?, Text.isDigitOf base c = false := fun base =>
    head_eq_false (fun c hc => isPathChar_of_isNameChar (isNameChar_of_isDigitOf hc)) hs
  cases h with
  | @hex x digits n hx hne hdigits =>
    have hall := (exists_inBase_iff (by decide)).1 ⟨n, hdigits⟩
    cases digits with
    | nil => exact absurd rfl hne
    | cons c digits =>
      rw [List.forall_mem_cons] at hall
      apply Reader.orElse_eq_of_ok
      apply (Reader.bind_eq_of_ok (char_cons rfl _)).trans
      apply (Reader.bind_eq_of_ok (char_cons (by simpa using hx) _)).trans
      apply Reader.bind_eq_of_ok
      apply (Reader.bind_eq_of_ok (char_cons hall.1 _)).trans
      exact Reader.bind_eq_of_ok (chars_append hall.2 (hend 16))
  | @decimal c digits n hc hdigits =>
    have hall := (exists_inBase_iff (by decide)).1 ⟨n, hdigits⟩
    have hend := hend 10
    simp only [isDigitOf_ten] at hall hend
    rw [List.forall_mem_cons] at hall
    apply (Reader.orElse_eq_of_mismatch
      (Reader.bind_eq_of_mismatch (char_eq_mismatch (decide_eq_false hc) _))).trans
    apply Reader.orElse_eq_of_ok
    apply (Reader.bind_eq_of_ok (char_cons (by simp [hall.1, hc]) _)).trans
    exact Reader.bind_eq_of_ok (chars_append hall.2 hend)
  | @octal digits n hdigits =>
    have hall := (exists_inBase_iff (by decide)).1 ⟨n, hdigits⟩
    have hmark : Reader.char (fun c => c = 'x' || c = 'X') (digits ++ s) = .mismatch := by
      apply char_eq_mismatch_of_head
      intro c hc
      rw [Bool.eq_false_iff]
      intro hx
      have hx := isPathChar_of_isHexMark (by simpa using hx)
      cases digits with
      | nil =>
        rw [hs c hc] at hx
        cases hx.1
      | cons d digits =>
        cases hc
        rw [hall c List.mem_cons_self] at hx
        cases hx.2
    apply (Reader.orElse_eq_of_mismatch ((Reader.bind_eq_of_ok (char_cons rfl _)).trans
      (Reader.bind_eq_of_mismatch hmark))).trans
    apply (Reader.orElse_eq_of_mismatch (Reader.bind_eq_of_mismatch (char_eq_mismatch rfl _))).trans
    apply (Reader.bind_eq_of_ok (char_cons rfl _)).trans
    exact Reader.bind_eq_of_ok (chars_append hall (hend 8))

theorem integerHere_append {t s : List Char} {v : Int} (h : IsInteger t v)
    (hs : ∀ c ∈ s.head?, isPathChar c = false) : integerHere (t ++ s) = .ok t s := by
  cases h with
  | @plain t n ht =>
    have hminus : ∀ c ∈ (t ++ s).head?, c ≠ '-' := by
      rw [List.head?_append_of_ne_nil t ht.ne_nil]
      exact ht.ne_minus
    apply (Reader.bind_eq_of_ok (signHere_eq_nil hminus)).trans
    apply (Reader.bind_eq_of_ok (magnitudeHere_append ht hs)).trans
    exact Reader.bind_eq_of_ok (notBefore_eq_ok hs)
  | @negative t n ht =>
    apply (Reader.bind_eq_of_ok (Reader.orElse_eq_of_ok (literal_append ['-'] (t ++ s)))).trans
    apply (Reader.bind_eq_of_ok (magnitudeHere_append ht hs)).trans
    exact Reader.bind_eq_of_ok (notBefore_eq_ok hs)

theorem char_eq_ok {p : Char → Bool} {s rest : List Char} {c : Char}
    (h : Reader.char p s = .ok c rest) : s = c :: rest ∧ p c := by
  unfold Reader.char at h
  split at h
  . cases h
  . split at h
    . next hc =>
      cases h
      exact ⟨rfl, hc⟩
    . cases h

theorem chars_eq_ok {p : Char → Bool} {s cs rest : List Char}
    (h : Reader.chars p s = .ok cs rest) : s = cs ++ rest ∧ ∀ c ∈ cs, p c := by
  cases h
  refine ⟨List.takeWhile_append_dropWhile.symm, ?_⟩
  intro c hc
  exact List.all_eq_true.1 List.all_takeWhile c hc

theorem chars1_eq_ok {p : Char → Bool} {s cs rest : List Char}
    (h : Reader.chars1 p s = .ok cs rest) : s = cs ++ rest ∧ cs ≠ [] ∧ ∀ c ∈ cs, p c := by
  rcases Reader.exists_of_bind_eq_ok h with ⟨c, between, hfirst, h⟩
  rcases Reader.exists_of_bind_eq_ok h with ⟨others, rest, hothers, h⟩
  cases h
  rcases char_eq_ok hfirst with ⟨rfl, hc⟩
  rcases chars_eq_ok hothers with ⟨rfl, hall⟩
  exact ⟨rfl, List.cons_ne_nil _ _, List.forall_mem_cons.2 ⟨hc, hall⟩⟩

theorem exists_isMagnitude_of_magnitudeHere {s t rest : List Char}
    (h : magnitudeHere s = .ok t rest) : s = t ++ rest ∧ ∃ n, IsMagnitude t n := by
  rcases Reader.of_orElse_eq_ok h with h | h
  . rcases Reader.exists_of_bind_eq_ok h with ⟨zero, _, hfirst, h⟩
    rcases Reader.exists_of_bind_eq_ok h with ⟨x, _, hsecond, h⟩
    rcases Reader.exists_of_bind_eq_ok h with ⟨digits, _, hothers, h⟩
    cases h
    rcases char_eq_ok hfirst with ⟨rfl, hzero⟩
    rcases char_eq_ok hsecond with ⟨rfl, hx⟩
    rcases chars1_eq_ok hothers with ⟨rfl, hne, hdigits⟩
    rcases (exists_inBase_iff (by decide)).2 hdigits with ⟨n, hn⟩
    obtain rfl := of_decide_eq_true hzero
    exact ⟨rfl, n, .hex (by simpa using hx) hne hn⟩
  . rcases Reader.of_orElse_eq_ok h with h | h
    . rcases Reader.exists_of_bind_eq_ok h with ⟨c, _, hfirst, h⟩
      rcases Reader.exists_of_bind_eq_ok h with ⟨digits, _, hothers, h⟩
      cases h
      rcases char_eq_ok hfirst with ⟨rfl, hc⟩
      rcases chars_eq_ok hothers with ⟨rfl, hdigits⟩
      rw [Bool.and_eq_true, decide_eq_true_eq, ← isDigitOf_ten] at hc
      simp only [← isDigitOf_ten] at hdigits
      have hall : ∀ d ∈ c :: digits, Text.isDigitOf 10 d :=
        List.forall_mem_cons.2 ⟨hc.1, hdigits⟩
      rcases (exists_inBase_iff (by decide)).2 hall with ⟨n, hn⟩
      exact ⟨rfl, n, .decimal hc.2 hn⟩
    . rcases Reader.exists_of_bind_eq_ok h with ⟨zero, _, hfirst, h⟩
      rcases Reader.exists_of_bind_eq_ok h with ⟨digits, _, hothers, h⟩
      cases h
      rcases char_eq_ok hfirst with ⟨rfl, hzero⟩
      rcases chars_eq_ok hothers with ⟨rfl, hdigits⟩
      rcases (exists_inBase_iff (by decide)).2 hdigits with ⟨n, hn⟩
      obtain rfl := of_decide_eq_true hzero
      exact ⟨rfl, n, .octal hn⟩

theorem signHere_eq_ok {s sign rest : List Char} (h : signHere s = .ok sign rest) :
    s = sign ++ rest ∧ (sign = [] ∨ sign = ['-']) := by
  rcases Reader.of_orElse_eq_ok h with h | h
  . unfold Reader.literal at h
    split at h
    . next found hfound =>
      cases h
      exact ⟨(List.isPrefixOf?_eq_some_iff_append_eq.1 hfound).symm, .inr rfl⟩
    . cases h
  . cases h
    exact ⟨rfl, .inl rfl⟩

theorem notBefore_eq_ok_iff {p : Char → Bool} {s rest : List Char} :
    Reader.notBefore p s = .ok () rest ↔ s = rest ∧ ∀ c ∈ rest.head?, p c = false := by
  constructor
  . intro h
    unfold Reader.notBefore at h
    split at h
    . cases h
      exact ⟨rfl, nofun⟩
    . split at h
      . cases h
      . next hc =>
        cases h
        refine ⟨rfl, ?_⟩
        intro c hc'
        cases hc'
        simpa using hc
  . rintro ⟨rfl, hrest⟩
    exact notBefore_eq_ok hrest

theorem integerHere_eq_ok_iff {s t rest : List Char} :
    integerHere s = .ok t rest
      ↔
    s = t ++ rest ∧ (∃ v, IsInteger t v) ∧ ∀ c ∈ rest.head?, isPathChar c = false := by
  constructor
  . intro h
    rcases Reader.exists_of_bind_eq_ok h with ⟨sign, _, hsign, h⟩
    rcases Reader.exists_of_bind_eq_ok h with ⟨magnitude, _, hmagnitude, h⟩
    rcases Reader.exists_of_bind_eq_ok h with ⟨_, _, hend, h⟩
    cases h
    rcases signHere_eq_ok hsign with ⟨rfl, hminus⟩
    rcases exists_isMagnitude_of_magnitudeHere hmagnitude with ⟨rfl, n, hn⟩
    rcases notBefore_eq_ok_iff.1 hend with ⟨rfl, hrest⟩
    refine ⟨(List.append_assoc ..).symm, ?_, hrest⟩
    rcases hminus with rfl | rfl
    . exact ⟨n, .plain hn⟩
    . exact ⟨-n, .negative hn⟩
  . rintro ⟨rfl, ⟨v, hv⟩, hrest⟩
    exact integerHere_append hv hrest

end Source

end HessianGo
