import HessianGo.Proofs.Except
import HessianGo.Proofs.Source.Grammar

/-!
This module contains what is read from the text of an enum that has only values. A value is kept
unless its name is the word `option` with another name right behind it: the keyword of an option
statement does not look at what follows it, so such a value is read as an option and dropped.
-/

namespace HessianGo

namespace Source

variable {n bound : Nat} {tokens : List String}

/-! ### Names that start like a keyword -/

/--
Whether a name is the word `option` with another name right behind it.
-/
def startsOption (name : String) : Bool :=
  "option".toList.isPrefixOf name.toList && (name.toList.drop 6).head?.any isNameStart

theorem startsOption_append (other : String) :
    startsOption ("option" ++ other) = other.toList.head?.any isNameStart := by
  unfold startsOption
  rw [String.toList_append, List.isPrefixOf_iff_prefix.2 (List.prefix_append _ _)]
  rfl

theorem exists_append_of_isPrefix {w name : String} (h : w.toList <+: name.toList) :
    ∃ other, name = w ++ other := by
  rcases h with ⟨other, hother⟩
  refine ⟨String.ofList other, ?_⟩
  apply String.toList_inj.1
  simp [hother]

theorem isNameChar_of_append {w other : String} (h : IsName (w ++ other)) :
    ∀ c ∈ other.toList, isNameChar c := by
  intro c hc
  apply h.isNameChar_of_mem
  simp [hc]

theorem exists_of_startsOption {name : String} (hname : IsName name) (h : startsOption name) :
    ∃ other, name = "option" ++ other ∧ IsName other := by
  have hfront : "option".toList <+: name.toList := by
    simp only [startsOption, Bool.and_eq_true] at h
    exact List.isPrefixOf_iff_prefix.1 h.1
  rcases exists_append_of_isPrefix hfront with ⟨other, rfl⟩
  refine ⟨other, rfl, ?_⟩
  have hall := isNameChar_of_append hname
  rw [startsOption_append] at h
  cases hother : other.toList with
  | nil =>
    rw [hother] at h
    cases h
  | cons c cs =>
    rw [hother] at h hall
    exact ⟨c, cs, hother, h, fun x hx => hall x (by simp [hx])⟩

theorem startsOption_iff {name : String} (hname : IsName name) :
    startsOption name ↔ ∃ other, name = "option" ++ other ∧ IsName other := by
  constructor
  . exact exists_of_startsOption hname
  . rintro ⟨other, rfl, c, cs, hother, hc, -⟩
    rw [startsOption_append, hother]
    exact hc

/-! ### Words that are tried as numbers -/

/--
The reader takes a word off the text, if it matches, and gives it with `before` in front of it.
-/
structure TakesWord (before : List Char) (p : Reader (List Char)) : Prop where
  eq_mismatch_or : ∀ s, p s = .mismatch
    ∨ ∃ word rest, p s = .ok (before ++ word) rest ∧ s = word ++ rest ∧ ∀ c ∈ word, isNameChar c

namespace TakesWord

variable {before : List Char}

theorem pure (before : List Char) : TakesWord before (Pure.pure before) where
  eq_mismatch_or s := .inr ⟨[], s, by rw [List.append_nil]; rfl, rfl, List.forall_mem_nil _⟩

theorem orElse {p q : Reader (List Char)} (hp : TakesWord before p) (hq : TakesWord before q) :
    TakesWord before (p <|> q) where
  eq_mismatch_or s := by
    rcases hp.eq_mismatch_or s with hmismatch | ⟨word, rest, hok, hword⟩
    . rw [Reader.orElse_eq_of_mismatch hmismatch]
      exact hq.eq_mismatch_or s
    . exact .inr ⟨word, rest, Reader.orElse_eq_of_ok hok, hword⟩

theorem char {p : Char → Bool} {f : Char → Reader (List Char)} (hp : ∀ c, p c → isNameChar c)
    (hf : ∀ c, TakesWord (before ++ [c]) (f c)) : TakesWord before (Reader.char p >>= f) where
  eq_mismatch_or s := by
    cases s with
    | nil => exact .inl rfl
    | cons c s =>
      cases hc : p c with
      | false => exact .inl (Reader.bind_eq_of_mismatch (char_eq_mismatch hc s))
      | true =>
        rw [Reader.bind_eq_of_ok (char_cons hc s)]
        rcases (hf c).eq_mismatch_or s with hmismatch | ⟨word, rest, hok, rfl, hword⟩
        . exact .inl hmismatch
        . refine .inr ⟨c :: word, rest, by simpa using hok, rfl, ?_⟩
          simp only [List.mem_cons, forall_eq_or_imp]
          exact ⟨hp c hc, hword⟩

theorem bind {p : Reader (List Char)} {f : List Char → Reader (List Char)} (hp : TakesWord [] p)
    (hf : ∀ cs, TakesWord (before ++ cs) (f cs)) : TakesWord before (p >>= f) where
  eq_mismatch_or s := by
    rcases hp.eq_mismatch_or s with hmismatch | ⟨first, between, hfirst, rfl, hword⟩
    . exact .inl (Reader.bind_eq_of_mismatch hmismatch)
    . rw [Reader.bind_eq_of_ok hfirst]
      rcases (hf first).eq_mismatch_or between with hmismatch | ⟨second, rest, hok, rfl, hword'⟩
      . exact .inl hmismatch
      . refine .inr ⟨first ++ second, rest, by simpa using hok, by simp, ?_⟩
        intro c hc
        rcases List.mem_append.1 hc with hc | hc
        . exact hword c hc
        . exact hword' c hc

theorem chars {p : Char → Bool} (hp : ∀ c, p c → isNameChar c) :
    TakesWord [] (Reader.chars p) where
  eq_mismatch_or s := by
    refine .inr ⟨s.takeWhile p, s.dropWhile p, rfl, by simp, ?_⟩
    intro c hc
    exact hp c (List.all_eq_true.1 List.all_takeWhile c hc)

theorem chars1 {p : Char → Bool} (hp : ∀ c, p c → isNameChar c) :
    TakesWord [] (Reader.chars1 p) := by
  apply char hp
  intro c
  apply (chars hp).bind
  intro cs
  exact .pure _

end TakesWord

theorem takesWord_magnitudeHere : TakesWord [] magnitudeHere := by
  have hdigit : ∀ c : Char, c.isDigit → isNameChar c := fun c => isNameChar_of_isDigit
  have hzero : ∀ c : Char, decide (c = '0') → isNameChar c := by
    intro c hc
    rw [of_decide_eq_true hc]
    decide
  apply TakesWord.orElse
  . apply TakesWord.char hzero
    intro zero
    apply TakesWord.char
    . intro c hc
      simp only [Bool.or_eq_true, decide_eq_true_eq] at hc
      rcases hc with rfl | rfl
      all_goals decide
    . intro x
      apply (TakesWord.chars1 fun c => isNameChar_of_isDigitOf).bind
      intro digits
      exact .pure _
  . apply TakesWord.orElse
    . apply TakesWord.char
      . intro c hc
        simp only [Bool.and_eq_true] at hc
        exact hdigit c hc.1
      . intro first
        apply (TakesWord.chars hdigit).bind
        intro digits
        exact .pure _
    . apply TakesWord.char hzero
      intro zero
      apply (TakesWord.chars fun c => isNameChar_of_isDigitOf).bind
      intro digits
      exact .pure _

theorem integerHere_word {word s : List Char} (hne : word ≠ []) (hword : ∀ c ∈ word, isNameChar c)
    (hs : ∀ c ∈ s.head?, isPathChar c = false) :
    integerHere (word ++ s) = .mismatch ∨ ∃ value, integerHere (word ++ s) = .ok value s := by
  have hsign : signHere (word ++ s) = .ok [] (word ++ s) := by
    apply Reader.orElse_eq_of_mismatch
    apply literal_eq_mismatch
    rintro ⟨rest, hrest⟩
    cases word with
    | nil => exact absurd rfl hne
    | cons c word =>
      obtain rfl : '-' = c := by simpa using congrArg List.head? hrest
      exact absurd (hword '-' (by simp)) (by decide)
  have hstop : integerHere (word ++ s) = (do
      let magnitude ← magnitudeHere
      Reader.notBefore isPathChar
      return magnitude : Reader (List Char)) (word ++ s) :=
    Reader.bind_eq_of_ok hsign
  rw [hstop]
  rcases takesWord_magnitudeHere.eq_mismatch_or (word ++ s)
    with hmismatch | ⟨digits, rest, hok, hrest, hdigits⟩
  . exact .inl (Reader.bind_eq_of_mismatch hmismatch)
  . rw [Reader.bind_eq_of_ok hok]
    rcases List.append_eq_append_iff.1 hrest with ⟨between, rfl, rfl⟩ | ⟨between, rfl, rfl⟩
    . cases between with
      | nil => exact .inr ⟨_, Reader.bind_eq_of_ok (notBefore_eq_ok hs)⟩
      | cons c between =>
        have hc := hdigits c (by simp)
        rw [isNameChar_eq_false (hs c rfl)] at hc
        cases hc
    . cases between with
      | nil => exact .inr ⟨_, Reader.bind_eq_of_ok (notBefore_eq_ok hs)⟩
      | cons c between =>
        -- The digits end inside the word, where no integer may end.
        have hc := isPathChar_of_isNameChar (hword c (by simp))
        refine .inl (Reader.bind_eq_of_mismatch ?_)
        simp [Reader.notBefore, hc]

theorem tries_integer {word : String} (hne : word.toList ≠ [])
    (hword : ∀ c ∈ word.toList, isNameChar c) : Tries n integer (word :: tokens) tokens where
  eq_mismatch_or {s} hlaid _ := by
    rcases hlaid.skipTrivia_cons with ⟨-, rest, hskip, hapart, hrest, hle⟩
    have hs := hapart.of_word hne fun c hc => isPathChar_of_isNameChar (hword c hc)
    have hinteger : integer s = (String.ofList <$> integerHere : Reader String)
        (word.toList ++ rest) := by
      rw [← hskip]
      rfl
    rw [hinteger]
    rcases integerHere_word hne hword hs with hmismatch | ⟨value, hok⟩
    . exact .inl (Reader.map_eq_of_mismatch hmismatch)
    . exact .inr ⟨_, rest, Reader.map_eq_of_ok hok, hrest, by omega⟩

/-! ### A value of an enum -/

def valueTokens (value : Schema.EnumValue) : List String :=
  [value.name, "=", toString value.number.toInt, ";"]

def valueItem (value : Schema.EnumValue) : EnumItem :=
  if startsOption value.name then
    .option {
      extension := none
      path := [String.ofList (value.name.toList.drop 6)]
      value := .constant (toString value.number.toInt) }
  else
    .value value.name (toString value.number.toInt)

theorem Fails.keyword_bind {β : Type} {f : Unit → Reader β} {w name : String} (hname : IsName name)
    (hw : ∀ c ∈ w.toList, isNameChar c) (hwhole : name = w → Fails n (f ()) tokens)
    (hfront : ∀ other, name = w ++ other → other.toList ≠ [] → (∀ c ∈ other.toList, isNameChar c) →
      Fails n (f ()) (other :: tokens)) :
    Fails n (keyword w >>= f) (name :: tokens) := by
  by_cases hprefix : w.toList <+: name.toList
  . rcases exists_append_of_isPrefix hprefix with ⟨other, rfl⟩
    by_cases hother : other.toList = []
    . obtain rfl : other = "" := String.toList_inj.1 hother
      rw [String.append_empty] at hwhole ⊢
      exact (hwhole rfl).bind_right (reads_keyword w)
    . have hall := isNameChar_of_append hname
      exact .bind_right (reads_keyword_front rfl (isToken_of_isNameChar hother hall))
        (hfront other rfl hother hall)
  . exact (fails_keyword hw hprefix).bind

theorem fails_optionStatement {name : String} (hname : IsName name)
    (h : startsOption name = false) :
    Fails n (optionStatement bound) (name :: "=" :: tokens) := by
  apply Fails.keyword_bind hname (by decide)
  . intro _
    exact (fails_assignment (by decide)).bind
  . rintro other rfl - hall
    rw [startsOption_append] at h
    apply Fails.bind
    apply fails_assignment
    intro c hc
    rw [hc] at h
    constructor
    . rintro rfl
      exact absurd (hall '(' (List.mem_of_mem_head? hc)) (by decide)
    . simpa using h

theorem fails_stringLiteral {first : String}
    (h : ∀ c ∈ first.toList.head?, ¬(c = '"' ∨ c = '\'')) :
    Fails n stringLiteral (first :: tokens) := by
  refine Fails.token_of_head ?_ h
  intro c s hc
  apply Reader.map_eq_of_mismatch
  apply Reader.bind_eq_of_mismatch
  apply char_eq_mismatch
  simpa using hc

theorem fails_integer {first : String} (h : ∀ c ∈ first.toList.head?, ¬(c = '-' ∨ c.isDigit)) :
    Fails n integer (first :: tokens) := by
  refine Fails.token_of_head ?_ h
  intro c s hc
  simp only [not_or, Bool.not_eq_true] at hc
  have hzero : c ≠ '0' := by
    rintro rfl
    exact absurd hc.2 (by decide)
  have hsign : signHere (c :: s) = .ok [] (c :: s) := by
    apply Reader.orElse_eq_of_mismatch
    apply literal_eq_mismatch
    rintro ⟨rest, hrest⟩
    exact hc.1 (by simpa using congrArg List.head? hrest.symm)
  apply Reader.map_eq_of_mismatch
  apply (Reader.bind_eq_of_ok hsign).trans
  apply Reader.bind_eq_of_mismatch
  have hzero' := char_eq_mismatch (p := (· = '0')) (decide_eq_false hzero) s
  apply (Reader.orElse_eq_of_mismatch (Reader.bind_eq_of_mismatch hzero')).trans
  apply (Reader.orElse_eq_of_mismatch
    (Reader.bind_eq_of_mismatch (char_eq_mismatch (by simp [hc.2]) s))).trans
  exact Reader.bind_eq_of_mismatch hzero'

theorem fails_reserved {name : String} (hname : IsName name) (hbound : n ≤ bound) :
    Fails n (reserved bound) (name :: "=" :: tokens) := by
  apply Fails.keyword_bind hname (by decide)
  . intro _
    apply Fails.bind
    apply Fails.orElse (fails_stringLiteral (by decide)).bind
    exact (fails_integer (by decide)).bind
  . rintro other rfl hne hall
    -- The rest of the name may pass for a number, but then no semicolon follows.
    have hitem : Tries n ((do
        let _ ← stringLiteral) <|> numberRange : Reader Unit) (other :: "=" :: tokens)
        ("=" :: tokens) := by
      refine Tries.orElse_right (fails_stringLiteral ?_).bind ?_
      . rintro c hc (rfl | rfl)
        all_goals exact absurd (hall _ (List.mem_of_mem_head? hc)) (by decide)
      . apply (tries_integer hne hall).bind
        intro _
        have hto : Fails n (keyword "to") ("=" :: tokens) := fails_keyword (by decide) (by decide)
        exact .of_reads (hto.bind.maybe_none.bind (.pure ()))
    apply hitem.fails_bind
    intro _
    have hcomma : Fails n (symbol ',') ("=" :: tokens) := fails_symbol (by decide)
    exact .bind_right (hcomma.bind.many_nil hbound) (fails_symbol (by decide))

theorem reads_optionStatement_front {other : String} (hother : IsName other) (z : Int)
    (hbound : n ≤ bound) :
    Reads n (optionStatement bound) (("option" ++ other) :: "=" :: toString z :: ";" :: tokens)
      tokens { extension := none, path := [other], value := .constant (toString z) } := by
  have htoken : IsToken other :=
    isToken_of_isNameChar hother.isPath.toList_ne_nil hother.isNameChar_of_mem
  apply Reads.of_length_lt (by simp; omega)
  intro hlt
  have hvalue : Reads n (optionValue bound bound) (toString z :: ";" :: tokens) (";" :: tokens)
      (.constant (toString z)) :=
    (isConstant_integer z).reads_optionValue (by omega)
  apply (reads_keyword_front rfl htoken).bind
  exact (hvalue.assignment hother hbound).bind ((reads_symbol rfl).bind (.pure _))

theorem reads_enumValue {name : String} (hname : IsName name) (z : Int) :
    Reads n (enumValue bound) (name :: "=" :: toString z :: ";" :: tokens) tokens
      (.value name (toString z)) := by
  apply (reads_name hname).bind
  apply (reads_symbol rfl).bind
  apply (reads_integer z).bind
  apply (reads_trailingOptions_nil (by decide)).bind
  exact (reads_symbol rfl).bind (.pure _)

theorem reads_valueItem {value : Schema.EnumValue} (hname : IsName value.name)
    (hbound : n ≤ bound) :
    Reads n (Reader.firstOf [
      .option <$> optionStatement bound,
      (fun _ => .skipped) <$> reserved bound,
      enumValue bound,
      (fun _ => .skipped) <$> emptyStatement]) (valueTokens value ++ tokens) tokens
      (valueItem value) := by
  unfold valueItem
  cases h : startsOption value.name with
  | true =>
    rcases exists_of_startsOption hname h with ⟨other, hother, hisName⟩
    have hdrop : String.ofList (value.name.toList.drop 6) = other := by
      rw [hother, String.toList_append]
      exact String.ofList_toList
    rw [if_pos rfl, hdrop, valueTokens, hother]
    exact ((reads_optionStatement_front hisName _ hbound).map _).orElse_left
  | false =>
    apply Reads.orElse_right ((fails_optionStatement hname h).map _)
    apply Reads.orElse_right ((fails_reserved hname hbound).map _)
    exact (reads_enumValue hname _).orElse_left

/-! ### The whole enum -/

def enumTokens (name : String) (values : List Schema.EnumValue) : List String :=
  "enum" :: name :: "\x7b" :: (values.flatMap valueTokens ++ ["\x7d"])

theorem fails_enumItem_close :
    Fails n (Reader.firstOf [
      .option <$> optionStatement bound,
      (fun _ => .skipped) <$> reserved bound,
      enumValue bound,
      (fun _ => .skipped) <$> emptyStatement]) ("\x7d" :: tokens) := by
  apply Fails.orElse ((fails_keyword (by decide) (by decide)).bind.map _)
  apply Fails.orElse ((fails_keyword (by decide) (by decide)).bind.map _)
  apply Fails.orElse (fails_name (by decide)).bind
  apply Fails.orElse ((fails_symbol (by decide)).map _)
  exact ⟨fun _ _ => rfl⟩

theorem reads_enum {name : String} (hname : IsName name) {values : List Schema.EnumValue}
    (hvalues : ∀ value ∈ values, IsName value.name) (hbound : n ≤ bound) :
    Reads n (enum bound) (enumTokens name values ++ tokens) tokens
      { name, items := values.map valueItem } := by
  have hitems : Reads n (Reader.many (Reader.firstOf [
      .option <$> optionStatement bound,
      (fun _ => .skipped) <$> reserved bound,
      enumValue bound,
      (fun _ => .skipped) <$> emptyStatement]) bound)
      (values.flatMap valueTokens ++ "\x7d" :: tokens) ("\x7d" :: tokens)
      (values.map valueItem) := by
    apply Reads.many _ _ fails_enumItem_close hbound
    . intro value hvalue after
      exact reads_valueItem (hvalues value hvalue) hbound
    . simp [valueTokens]
  simp only [enumTokens, List.cons_append, List.append_assoc, List.nil_append]
  apply (reads_keyword "enum").bind
  apply (reads_name hname).bind
  apply (reads_symbol rfl).bind
  apply hitems.bind
  exact (reads_symbol rfl).bind (.pure _)

theorem reads_enumFile {name : String} (hname : IsName name) {values : List Schema.EnumValue}
    (hvalues : ∀ value ∈ values, IsName value.name) (bound : Nat) :
    Reads bound (file bound) (enumTokens name values) []
      { dialect := none, statements := [.enum { name, items := values.map valueItem }] } := by
  have hstatement : ∀ after, Reads bound (statement bound) (enumTokens name values ++ after) after
      (.enum { name, items := values.map valueItem }) := by
    intro after
    apply Reads.orElse_right (fails_keyword (by decide) (by decide)).bind
    apply Reads.orElse_right (fails_keyword (by decide) (by decide)).bind
    apply Reads.orElse_right ((fails_keyword (by decide) (by decide)).bind.map _)
    apply Reads.orElse_right (fails_keyword (by decide) (by decide)).bind
    exact ((reads_enum hname hvalues (le_refl bound)).map _).orElse_left
  have hstatements : Reads bound (Reader.many (statement bound) bound)
      ([()].flatMap (fun _ => enumTokens name values) ++ []) []
      ([()].map fun _ => .enum { name, items := values.map valueItem }) :=
    .many (fun _ _ => hstatement) (by simp [enumTokens]) fails_statement_nil (le_refl bound)
  simp only [List.flatMap_cons, List.flatMap_nil, List.append_nil] at hstatements
  exact reads_file (fails_dialectClause (by decide) (by decide)).maybe_none hstatements

theorem values_map_valueItem (values : List Schema.EnumValue) :
    EnumDecl.values (values.map valueItem)
      =
    .ok (values.filter fun value => !startsOption value.name) := by
  induction values with
  | nil => rfl
  | cons value values ih =>
    rw [List.map_cons, List.filter_cons, valueItem]
    cases startsOption value.name with
    | true => exact ih
    | false =>
      change (do
        let number ← IntegerLiteral.enumNumber (toString value.number.toInt)
        let others ← EnumDecl.values (values.map valueItem)
        return { name := value.name, number } :: others : Except Schema.Error _) = _
      rw [enumNumber_toString, ih]
      rfl

theorem read_assignments_map_valueItem (name : String) (values : List Schema.EnumValue) :
    enumBlock.read (EnumDecl.assignments { name, items := values.map valueItem }) = .ok none := by
  have hassignments : ∀ assignment ∈ EnumDecl.assignments { name, items := values.map valueItem },
      assignment.isTo enumBlock.extension = false := by
    intro assignment hassignment
    simp only [EnumDecl.assignments, List.mem_filterMap, List.mem_map] at hassignment
    rcases hassignment with ⟨item, ⟨value, -, rfl⟩, hitem⟩
    unfold valueItem at hitem
    cases hstarts : startsOption value.name with
    | true =>
      rw [hstarts] at hitem
      cases hitem
      rfl
    | false =>
      rw [hstarts] at hitem
      cases hitem
  unfold BlockKind.read
  rw [List.filter_eq_nil_iff.2 fun assignment hmem => by simp [hassignments assignment hmem]]
  rfl

def enumFile (fileName name : String) (values : List Schema.EnumValue) : Schema.File :=
  { name := fileName, enums := [{ name, fullName := name, values }] }

theorem ofText_enumTokens {name : String} (hname : IsName name) {values : List Schema.EnumValue}
    (hvalues : ∀ value ∈ values, IsName value.name) {text : String}
    (hlaid : LaidOut (enumTokens name values) text.toList) (fileName : String) :
    Schema.File.ofText fileName text
      =
    .ok (enumFile fileName name (values.filter fun value => !startsOption value.name)) := by
  have hdefinitions : FileTree.definitions .proto2 none
      [.enum { name, items := values.map valueItem }]
        =
      .ok ([], [{ name, fullName := name
                  values := values.filter fun value => !startsOption value.name }]) := by
    simp only [FileTree.definitions, EnumDecl.toEnum, values_map_valueItem,
      read_assignments_map_valueItem]
    rfl
  unfold Schema.File.ofText
  rw [ofText?_eq_some hlaid (reads_enumFile hname hvalues)]
  apply bind_eq_ok_iff.2
  refine ⟨.proto2, rfl, bind_eq_ok_iff.2 ⟨[], rfl, bind_eq_ok_iff.2 ⟨none, rfl, ?_⟩⟩⟩
  exact bind_eq_ok_iff.2 ⟨_, hdefinitions, rfl⟩

/--
A text of an enum that has only values is read as the enum with those of the values, in their order,
whose names are not `option` with another name right behind it.
-/
theorem ofText_enum {name : String} (hname : IsName name) {values : List Schema.EnumValue}
    (hvalues : ∀ value ∈ values, IsName value.name) {text : String}
    (hlaid : LaidOut (enumTokens name values) text.toList) (fileName : String) :
    Schema.File.ofText fileName text
        = .ok (enumFile fileName name (values.filter fun value => !startsOption value.name))
      ∧ (Schema.File.ofText fileName text = .ok (enumFile fileName name values)
        ↔ ∀ value ∈ values, ¬∃ other, value.name = "option" ++ other ∧ IsName other) := by
  have hfile := ofText_enumTokens hname hvalues hlaid fileName
  refine ⟨hfile, ?_⟩
  rw [hfile]
  simp only [enumFile, Except.ok.injEq, Schema.File.mk.injEq, List.cons.injEq, Schema.Enum.mk.injEq,
    true_and, and_true, List.filter_eq_self, Bool.not_eq_true']
  apply forall₂_congr
  intro value hvalue
  rw [← startsOption_iff (hvalues value hvalue), Bool.not_eq_true]

def modeValues : List Schema.EnumValue :=
  [⟨"reserved5", -12⟩, ⟨"optional", 0⟩, ⟨"option", 7⟩, ⟨"option_x", 7⟩, ⟨"option2", 1⟩]

def modeText : String :=
  "enum Mode \x7b reserved5 = -12 ; optional = 0 ; option = 7 ; option_x = 7 ; option2 = 1 ; \x7d "

theorem ofText_enum_modeText :
    IsName "Mode"
      ∧ (∀ value ∈ modeValues, IsName value.name)
      ∧ LaidOut (enumTokens "Mode" modeValues) modeText.toList
      ∧ Schema.File.ofText "mode.proto" modeText
        = .ok (enumFile "mode.proto" "Mode"
          [⟨"reserved5", -12⟩, ⟨"option", 7⟩, ⟨"option2", 1⟩]) := by
  have hname : IsName "Mode" := by decide
  have hvalues : ∀ value ∈ modeValues, IsName value.name := by decide
  have hlaid : LaidOut (enumTokens "Mode" modeValues) modeText.toList := by
    apply laidOut_blanks
    decide
  exact ⟨hname, hvalues, hlaid, (ofText_enum hname hvalues hlaid "mode.proto").1⟩

theorem ofText_ne_optionalText :
    IsName "E"
      ∧ IsName "optional"
      ∧ LaidOut (enumTokens "E" [⟨"optional", 1⟩]) "enum E \x7b optional = 1 ; \x7d ".toList
      ∧ Schema.File.ofText "e.proto" "enum E \x7b optional = 1 ; \x7d "
        = .ok (enumFile "e.proto" "E" [])
      ∧ Schema.File.ofText "e.proto" "enum E \x7b optional = 1 ; \x7d "
        ≠ .ok (enumFile "e.proto" "E" [⟨"optional", 1⟩]) := by
  have hname : IsName "E" := by decide
  have hvalue : IsName "optional" := by decide
  have hlaid : LaidOut (enumTokens "E" [⟨"optional", 1⟩])
      "enum E \x7b optional = 1 ; \x7d ".toList := by
    apply laidOut_blanks
    decide
  have hfile : Schema.File.ofText "e.proto" "enum E \x7b optional = 1 ; \x7d "
      = .ok (enumFile "e.proto" "E" []) :=
    ofText_enumTokens hname (List.forall_mem_singleton.2 hvalue) hlaid "e.proto"
  refine ⟨hname, hvalue, hlaid, hfile, ?_⟩
  rw [hfile]
  simp [enumFile]

end Source

end HessianGo
