import HessianGo.Proofs.Source.Repetition
import HessianGo.Source.Grammar

/-!
This module contains that reading a schema file ends, whatever its text is. All that the grammar
repeats takes a character in each round, and what is nested stands behind a character, so a bound
above the number of characters is never met and makes no difference.

The rounds of the repetitions have names here; the grammar writes them where it repeats them.
-/

namespace HessianGo

namespace Source

open Reader

variable {n bound other depth otherDepth : Nat}

/-! ### Tokens -/

theorem progress_nameHere : Progress n 1 nameHere nameHere :=
  (Progress.char _).andThen fun _ => (progress_chars _).before fun _ => .pure _

def pathPart : Reader (List Char) := do
  let dot ← char (· = '.')
  let name ← nameHere
  return dot :: name

theorem progress_pathPart : Progress n 1 pathPart pathPart :=
  (Progress.char _).andThen fun _ => progress_nameHere.before fun _ => .pure _

theorem progress_pathHere (hbound : n ≤ bound) (hother : n ≤ other) :
    Progress n 1 (pathHere bound) (pathHere other) := by
  refine progress_nameHere.andThen fun first => ?_
  exact (progress_pathPart.many hbound hother).before fun others => .pure _

theorem progress_signHere : Progress n 0 signHere signHere :=
  .orElse (Progress.literal _).zero (.pure _)

theorem progress_magnitudeHere : Progress n 1 magnitudeHere magnitudeHere := by
  apply Progress.orElse
  . refine (Progress.char _).andThen fun zero => (Progress.char _).before fun x => ?_
    exact (progress_chars1 _).before fun digits => .pure _
  apply Progress.orElse
  . exact (Progress.char _).andThen fun first => (progress_chars _).before fun digits => .pure _
  . exact (Progress.char _).andThen fun zero => (progress_chars _).before fun digits => .pure _

theorem progress_integerHere : Progress n 1 integerHere integerHere := by
  refine progress_signHere.after fun sign => progress_magnitudeHere.andThen fun magnitude => ?_
  exact (Progress.notBefore _).before fun _ => .pure _

theorem progress_exponentHere : Progress n 1 exponentHere exponentHere := by
  refine (Progress.char _).andThen fun e => ?_
  refine (Progress.char _).maybe.before fun sign => ?_
  exact (progress_chars1 _).before fun digits => .pure _

theorem progress_floatHere : Progress n 1 floatHere floatHere := by
  have hexponent : Progress n 0 (exponentHere <|> succeed []) (exponentHere <|> succeed []) :=
    .orElse progress_exponentHere.zero (.pure _)
  refine progress_signHere.after fun sign => Progress.andThen ?_ fun magnitude => .pure _
  refine .firstOf (.cons ?_ (.cons ?_ (.cons ?_ (.cons ?_ .nil))))
  . refine (progress_chars1 _).andThen fun whole => (Progress.char _).before fun point => ?_
    exact (progress_chars _).before fun fraction => hexponent.before fun exponent => .pure _
  . refine (progress_chars1 _).andThen fun whole => ?_
    exact progress_exponentHere.before fun exponent => .pure _
  . refine (Progress.char _).andThen fun point => (progress_chars1 _).before fun fraction => ?_
    exact hexponent.before fun exponent => .pure _
  . refine Progress.andThen ?_ fun word => (Progress.notBefore _).before fun _ => .pure _
    exact .orElse (progress_word (by decide)) (progress_word (by decide))

theorem progress_boolHere : Progress n 1 boolHere boolHere := by
  refine Progress.andThen ?_ fun word => (Progress.notBefore _).before fun _ => .pure _
  exact .orElse (progress_word (by decide)) (progress_word (by decide))

theorem progress_stringHere : Progress n 1 stringHere stringHere :=
  (Progress.char _).andThen fun quote => (progress_stringTailHere quote).before fun _ => .pure _

theorem progress_scalarHere : Progress n 1 scalarHere scalarHere := by
  refine Progress.andThen ?_ fun scalar => (Progress.notBefore _).before fun _ => .pure _
  apply Progress.firstOf
  rw [List.forall₂_map_left_iff, List.forall₂_map_right_iff, List.forall₂_same]
  intro scalar _
  have hword : scalar.word.toList ≠ [] := by cases scalar <;> decide
  exact (progress_word hword).andThen fun _ => .pure _

theorem progress_typeHere (hbound : n ≤ bound) (hother : n ≤ other) :
    Progress n 1 (typeHere bound) (typeHere other) := by
  apply Progress.orElse
  . exact progress_scalarHere.andThen fun scalar => .pure _
  . refine Progress.after (.orElse (Progress.literal _).zero (.pure _)) fun dot => ?_
    exact (progress_pathHere hbound hother).andThen fun path => .pure _

theorem progress_keyword {w : String} (h : w ≠ "") : Progress n 1 (keyword w) (keyword w) := by
  have hword : w.toList ≠ [] := by simpa using h
  exact progress_token ((progress_word hword).andThen fun _ => .pure _)

theorem progress_wholeWord {w : String} (h : w ≠ "") :
    Progress n 1 (wholeWord w) (wholeWord w) := by
  have hword : w.toList ≠ [] := by simpa using h
  exact progress_token ((progress_word hword).andThen fun _ => .notBefore _)

theorem progress_symbol (c : Char) : Progress n 1 (symbol c) (symbol c) :=
  progress_token ((Progress.char _).andThen fun _ => .pure _)

theorem progress_name : Progress n 1 name name :=
  progress_token (progress_nameHere.map _)

theorem progress_integer : Progress n 1 integer integer :=
  progress_token (progress_integerHere.map _)

theorem progress_stringLiteral : Progress n 1 stringLiteral stringLiteral :=
  progress_token (progress_stringHere.map _)

theorem progress_label : Progress n 0 label label := by
  refine .firstOf (.cons ?_ (.cons ?_ (.cons ?_ (.cons (.pure _) .nil))))
  . exact ((progress_wholeWord (by decide)).map _).zero
  . exact ((progress_wholeWord (by decide)).map _).zero
  . exact ((progress_wholeWord (by decide)).map _).zero

theorem progress_numberRange : Progress n 1 numberRange numberRange := by
  refine progress_integer.andThen fun _ => (Progress.maybe (k := 1) ?_).before fun _ => .pure _
  refine (progress_keyword (by decide)).andThen fun _ => Progress.zero (k := 1) ?_
  apply Progress.orElse
  . exact progress_integer.andThen fun _ => .pure _
  . exact progress_keyword (by decide)

def furtherRange : Reader Unit := do
  symbol ','
  numberRange

theorem progress_furtherRange : Progress n 1 furtherRange furtherRange :=
  (progress_symbol _).andThen fun _ => progress_numberRange.zero

def reservedItem : Reader Unit :=
  (do
    let _ ← stringLiteral)
  <|> numberRange

theorem progress_reservedItem : Progress n 1 reservedItem reservedItem :=
  .orElse (progress_stringLiteral.andThen fun _ => .pure _) progress_numberRange

def furtherReserved : Reader Unit := do
  symbol ','
  reservedItem

theorem progress_furtherReserved : Progress n 1 furtherReserved furtherReserved :=
  (progress_symbol _).andThen fun _ => progress_reservedItem.zero

def optionNamePart : Reader String := do
  symbol '.'
  name

theorem progress_optionNamePart : Progress n 1 optionNamePart optionNamePart :=
  (progress_symbol _).andThen fun _ => progress_name.zero

theorem progress_importFile : Progress n 1 importFile importFile := by
  have hmodifier : Progress n 1 (wholeWord "weak" <|> wholeWord "public")
      (wholeWord "weak" <|> wholeWord "public") :=
    .orElse (progress_wholeWord (by decide)) (progress_wholeWord (by decide))
  refine (progress_keyword (by decide)).andThen fun _ => hmodifier.maybe.before fun _ => ?_
  refine progress_stringLiteral.before fun literal => ?_
  exact (progress_symbol _).before fun _ => .pure _

theorem progress_dialectClause : Progress n 1 dialectClause dialectClause := by
  refine Progress.andThen ?_ fun clause => (progress_symbol _).before fun _ => ?_
  . apply Progress.orElse
    . exact (progress_keyword (by decide)).map _
    . exact (progress_keyword (by decide)).map _
  . refine progress_stringLiteral.before fun literal => ?_
    exact (progress_symbol _).before fun _ => .pure _

/-! ### Rounds of the grammar -/

def aggregateEntry (bound : Nat) (value : Reader OptionValue) : Reader (String × OptionValue) := do
  let key ← aggregateKey bound
  let _ ← maybe (symbol ':')
  let value ← value
  let _ ← maybe (symbol ',' <|> symbol ';')
  return (key, value)

def listItem (value : Reader OptionValue) : Reader OptionValue := do
  let item ← value
  let _ ← maybe (symbol ',')
  return item

def optionValueOver (bound : Nat) (value : Reader OptionValue) : Reader OptionValue :=
  firstOf [
    do
      symbol '\x7b'
      let entries ← many (aggregateEntry bound value) bound
      symbol '\x7d'
      return .aggregate entries,
    do
      symbol '['
      let items ← many (listItem value) bound
      symbol ']'
      return .list items,
    .constant <$> constant bound]

def furtherAssignment (bound : Nat) : Reader OptionAssignment := do
  symbol ','
  assignment bound

def oneofItem (bound : Nat) : Reader OneofItem :=
  firstOf [
    (fun _ => .skipped) <$> optionStatement bound,
    .field <$> field bound,
    (fun _ => .skipped) <$> emptyStatement]

def extendItem (bound : Nat) : Reader Unit :=
  (fun _ => ()) <$> field bound <|> emptyStatement

def enumItem (bound : Nat) : Reader EnumItem :=
  firstOf [
    .option <$> optionStatement bound,
    (fun _ => .skipped) <$> reserved bound,
    enumValue bound,
    (fun _ => .skipped) <$> emptyStatement]

def messageItemOver (bound : Nat) (item : Reader MessageItem) : Reader MessageItem :=
  firstOf [
    .option <$> optionStatement bound,
    .mapField <$> mapField bound,
    do
      keyword "message"
      let name ← name
      symbol '\x7b'
      let items ← many item bound
      symbol '\x7d'
      return .message name items,
    .enum <$> enum bound,
    .oneof <$> oneof bound,
    (fun _ => .skipped) <$> reserved bound,
    (fun _ => .skipped) <$> extensions bound,
    (fun _ => .skipped) <$> extend bound,
    .field <$> field bound,
    (fun _ => .skipped) <$> emptyStatement]

def callItem (bound : Nat) : Reader Unit :=
  (fun _ => ()) <$> optionStatement bound <|> emptyStatement

def serviceItem (bound : Nat) : Reader Unit :=
  firstOf [
    (fun _ => ()) <$> optionStatement bound,
    call bound,
    emptyStatement]

/--
The rounds of all that a schema file repeats, with values and parts of messages `depth` levels deep.
-/
inductive Round (bound depth : Nat) : {α : Type} → Reader α → Prop where
  | character (accepts : Char → Bool) : Round bound depth (char accepts)
  | insideComment (w : List Char) : Round bound depth (insideComment w)
  | spacedComment : Round bound depth (spacedComment bound)
  | stringUnit (quote : Char) : Round bound depth (stringUnit quote)
  | pathPart : Round bound depth pathPart
  | optionNamePart : Round bound depth optionNamePart
  | aggregateEntry : Round bound depth (aggregateEntry bound (optionValue bound depth))
  | listItem : Round bound depth (listItem (optionValue bound depth))
  | furtherAssignment : Round bound depth (furtherAssignment bound)
  | oneofItem : Round bound depth (oneofItem bound)
  | furtherReserved : Round bound depth furtherReserved
  | furtherRange : Round bound depth furtherRange
  | extendItem : Round bound depth (extendItem bound)
  | enumItem : Round bound depth (enumItem bound)
  | messageItem : Round bound depth (messageItem bound depth)
  | callItem : Round bound depth (callItem bound)
  | serviceItem : Round bound depth (serviceItem bound)
  | statement : Round bound depth (statement bound)

/-! ### The grammar -/

section

variable (hbound : n ≤ bound) (hother : n ≤ other)

include hbound hother

theorem progress_path : Progress n 1 (path bound) (path other) :=
  progress_token ((progress_pathHere hbound hother).map _)

theorem progress_fieldType : Progress n 1 (fieldType bound) (fieldType other) :=
  progress_token (progress_typeHere hbound hother)

theorem progress_constant : Progress n 1 (constant bound) (constant other) := by
  refine progress_token (Progress.map (.textOf ?_) _)
  refine .firstOf (.cons progress_floatHere (.cons progress_integerHere (.cons progress_boolHere
    (.cons progress_stringHere (.cons ?_ .nil)))))
  refine progress_signHere.after fun sign => ?_
  exact (progress_token (progress_pathHere hbound hother)).andThen fun path => .pure _

theorem progress_extensionName : Progress n 1 (extensionName bound) (extensionName other) := by
  refine (progress_symbol _).andThen fun _ => (progress_symbol _).maybe.before fun _ => ?_
  refine (progress_path hbound hother).before fun extension => ?_
  exact (progress_symbol _).before fun _ => .pure _

theorem progress_optionName : Progress n 1 (optionName bound) (optionName other) := by
  refine Progress.andThen ?_ fun ⟨extension, first⟩ => ?_
  . apply Progress.orElse
    . exact (progress_extensionName hbound hother).andThen fun extension => .pure _
    . exact progress_name.andThen fun first => .pure _
  . exact (progress_optionNamePart.many hbound hother).andThen fun others => .pure _

theorem progress_aggregateKey : Progress n 1 (aggregateKey bound) (aggregateKey other) :=
  progress_token (.map (.textOf (.orElse (progress_extensionName hbound hother) progress_name)) _)

theorem progress_aggregateEntry {value same : Reader OptionValue} (h : Progress n 1 value same) :
    Progress n 1 (aggregateEntry bound value) (aggregateEntry other same) := by
  refine (progress_aggregateKey hbound hother).andThen fun key => ?_
  refine (progress_symbol _).maybe.before fun _ => h.before fun value => ?_
  exact (Progress.orElse (progress_symbol _) (progress_symbol _)).maybe.before fun _ => .pure _

omit hbound hother in
theorem progress_listItem {value same : Reader OptionValue} (h : Progress n 1 value same) :
    Progress n 1 (listItem value) (listItem same) :=
  h.andThen fun _ => (progress_symbol _).maybe.before fun _ => .pure _

omit hbound hother in
theorem guarded_optionValue : Guarded optionValueOver optionValue where
  level bound depth := rfl
  shorter hbound hother h := by
  -- The values in a value stand behind its brace or bracket, so they are read from shorter texts.
    have hinner := Nat.le_of_lt hbound
    have hinnerOther := Nat.le_of_lt hother
    refine .firstOf (.cons ?_ (.cons ?_ (.cons ((progress_constant hbound hother).map _) .nil)))
    . refine (progress_symbol _).behind fun _ => ?_
      have hentry := progress_aggregateEntry hinner hinnerOther h
      refine (hentry.many hinner hinnerOther).andThen fun entries => ?_
      exact (progress_symbol _).before fun _ => .pure _
    . refine (progress_symbol _).behind fun _ => ?_
      refine ((progress_listItem h).many hinner hinnerOther).before fun items => ?_
      exact (progress_symbol _).before fun _ => .pure _

theorem progress_assignment : Progress n 1 (assignment bound) (assignment other) := by
  refine (progress_optionName hbound hother).andThen fun ⟨extension, path⟩ => ?_
  refine (progress_symbol _).before fun _ => ?_
  exact (guarded_optionValue.progress hbound hother hbound hother).before fun value => .pure _

theorem progress_optionStatement :
    Progress n 1 (optionStatement bound) (optionStatement other) := by
  refine (progress_keyword (by decide)).andThen fun _ => ?_
  refine (progress_assignment hbound hother).before fun assignment => ?_
  exact (progress_symbol _).before fun _ => .pure _

theorem progress_furtherAssignment :
    Progress n 1 (furtherAssignment bound) (furtherAssignment other) :=
  (progress_symbol _).andThen fun _ => (progress_assignment hbound hother).zero

theorem progress_trailingOptions :
    Progress n 0 (trailingOptions bound) (trailingOptions other) := by
  refine .orElse ?_ (.pure _)
  refine (progress_symbol _).before fun _ => ?_
  refine (progress_assignment hbound hother).before fun first => ?_
  have hfurther := progress_furtherAssignment hbound hother
  refine (hfurther.many hbound hother).andThen fun others => ?_
  exact (progress_symbol _).before fun _ => .pure _

theorem progress_field : Progress n 1 (field bound) (field other) := by
  refine progress_label.after fun label => ?_
  refine (progress_fieldType hbound hother).andThen fun type => ?_
  refine progress_name.before fun name => (progress_symbol _).before fun _ => ?_
  refine progress_integer.before fun number => ?_
  refine (progress_trailingOptions hbound hother).before fun options => ?_
  exact (progress_symbol _).before fun _ => .pure _

theorem progress_mapField : Progress n 1 (mapField bound) (mapField other) := by
  refine (progress_keyword (by decide)).andThen fun _ => (progress_symbol _).before fun _ => ?_
  refine (progress_token progress_scalarHere).before fun key => ?_
  refine (progress_symbol _).before fun _ => ?_
  refine (progress_fieldType hbound hother).before fun value => ?_
  refine (progress_symbol _).before fun _ => progress_name.before fun name => ?_
  refine (progress_symbol _).before fun _ => progress_integer.before fun number => ?_
  refine (progress_trailingOptions hbound hother).before fun options => ?_
  exact (progress_symbol _).before fun _ => .pure _

theorem progress_oneofItem : Progress n 1 (oneofItem bound) (oneofItem other) := by
  refine .firstOf (.cons ?_ (.cons ?_ (.cons ?_ .nil)))
  . exact (progress_optionStatement hbound hother).map _
  . exact (progress_field hbound hother).map _
  . exact (progress_symbol _).map _

theorem progress_oneof : Progress n 1 (oneof bound) (oneof other) := by
  refine (progress_keyword (by decide)).andThen fun _ => progress_name.before fun name => ?_
  refine (progress_symbol _).before fun _ => ?_
  refine ((progress_oneofItem hbound hother).many hbound hother).before fun items => ?_
  exact (progress_symbol _).before fun _ => .pure _

theorem progress_reserved : Progress n 1 (reserved bound) (reserved other) := by
  refine (progress_keyword (by decide)).andThen fun _ => progress_reservedItem.before fun _ => ?_
  refine (progress_furtherReserved.many hbound hother).before fun _ => ?_
  exact (progress_symbol _).zero

theorem progress_extensions : Progress n 1 (extensions bound) (extensions other) := by
  refine (progress_keyword (by decide)).andThen fun _ => progress_numberRange.before fun _ => ?_
  refine (progress_furtherRange.many hbound hother).before fun _ => ?_
  exact (progress_trailingOptions hbound hother).before fun _ => (progress_symbol _).zero

theorem progress_extendItem : Progress n 1 (extendItem bound) (extendItem other) :=
  .orElse ((progress_field hbound hother).map _) (progress_symbol _)

theorem progress_extend : Progress n 1 (extend bound) (extend other) := by
  refine (progress_keyword (by decide)).andThen fun _ => ?_
  refine (progress_fieldType hbound hother).before fun _ => ?_
  refine (progress_symbol _).before fun _ => ?_
  refine ((progress_extendItem hbound hother).many hbound hother).before fun _ => ?_
  exact (progress_symbol _).zero

theorem progress_enumValue : Progress n 1 (enumValue bound) (enumValue other) := by
  refine progress_name.andThen fun name => (progress_symbol _).before fun _ => ?_
  refine progress_integer.before fun number => ?_
  refine (progress_trailingOptions hbound hother).before fun _ => ?_
  exact (progress_symbol _).before fun _ => .pure _

theorem progress_enumItem : Progress n 1 (enumItem bound) (enumItem other) := by
  refine .firstOf (.cons ?_ (.cons ?_ (.cons ?_ (.cons ?_ .nil))))
  . exact (progress_optionStatement hbound hother).map _
  . exact (progress_reserved hbound hother).map _
  . exact progress_enumValue hbound hother
  . exact (progress_symbol _).map _

theorem progress_enum : Progress n 1 (enum bound) (enum other) := by
  refine (progress_keyword (by decide)).andThen fun _ => progress_name.before fun name => ?_
  refine (progress_symbol _).before fun _ => ?_
  refine ((progress_enumItem hbound hother).many hbound hother).before fun items => ?_
  exact (progress_symbol _).before fun _ => .pure _

omit hbound hother in
theorem guarded_messageItem : Guarded messageItemOver messageItem where
  level bound depth := rfl
  shorter hbound hother h := by
  -- The parts of a message in a message stand behind its keyword, so they are read from shorter
  -- texts.
    refine .firstOf (.cons ?_ (.cons ?_ (.cons ?_ (.cons ?_ (.cons ?_ (.cons ?_ (.cons ?_
      (.cons ?_ (.cons ?_ (.cons ?_ .nil))))))))))
    . exact (progress_optionStatement hbound hother).map _
    . exact (progress_mapField hbound hother).map _
    . refine (progress_keyword (by decide)).behind fun _ => progress_name.before fun name => ?_
      refine (progress_symbol _).before fun _ => ?_
      have hitems := h.many (Nat.le_of_lt hbound) (Nat.le_of_lt hother)
      exact hitems.andThen fun items => (progress_symbol _).before fun _ => .pure _
    . exact (progress_enum hbound hother).map _
    . exact (progress_oneof hbound hother).map _
    . exact (progress_reserved hbound hother).map _
    . exact (progress_extensions hbound hother).map _
    . exact (progress_extend hbound hother).map _
    . exact (progress_field hbound hother).map _
    . exact (progress_symbol _).map _

theorem progress_callType : Progress n 1 (callType bound) (callType other) := by
  refine (progress_symbol _).andThen fun _ => ?_
  refine (progress_wholeWord (by decide)).maybe.before fun _ => ?_
  exact (progress_fieldType hbound hother).before fun _ => (progress_symbol _).zero

theorem progress_callItem : Progress n 1 (callItem bound) (callItem other) :=
  .orElse ((progress_optionStatement hbound hother).map _) (progress_symbol _)

theorem progress_call : Progress n 1 (call bound) (call other) := by
  refine (progress_keyword (by decide)).andThen fun _ => progress_name.before fun _ => ?_
  refine (progress_callType hbound hother).before fun _ => ?_
  refine (progress_keyword (by decide)).before fun _ => ?_
  refine (progress_callType hbound hother).before fun _ => .orElse ?_ (progress_symbol _).zero
  refine (progress_symbol _).before fun _ => ?_
  refine ((progress_callItem hbound hother).many hbound hother).before fun _ => ?_
  exact (progress_symbol _).zero

theorem progress_serviceItem : Progress n 1 (serviceItem bound) (serviceItem other) := by
  refine .firstOf (.cons ?_ (.cons ?_ (.cons ?_ .nil)))
  . exact (progress_optionStatement hbound hother).map _
  . exact progress_call hbound hother
  . exact progress_symbol _

theorem progress_service : Progress n 1 (service bound) (service other) := by
  refine (progress_keyword (by decide)).andThen fun _ => progress_name.before fun _ => ?_
  refine (progress_symbol _).before fun _ => ?_
  refine ((progress_serviceItem hbound hother).many hbound hother).before fun _ => ?_
  exact (progress_symbol _).zero

theorem progress_package : Progress n 1 (package bound) (package other) := by
  refine (progress_keyword (by decide)).andThen fun _ => ?_
  refine (progress_path hbound hother).before fun name => ?_
  exact (progress_symbol _).before fun _ => .pure _

theorem progress_statement : Progress n 1 (statement bound) (statement other) := by
  have hitem := guarded_messageItem.progress hbound hother hbound hother
  refine .firstOf (.cons ?_ (.cons ?_ (.cons ?_ (.cons ?_ (.cons ?_ (.cons ?_ (.cons ?_
    (.cons ?_ .nil))))))))
  . exact progress_importFile
  . exact progress_package hbound hother
  . exact (progress_optionStatement hbound hother).map _
  . refine (progress_keyword (by decide)).andThen fun _ => progress_name.before fun name => ?_
    refine (progress_symbol _).before fun _ => ?_
    refine (hitem.many hbound hother).before fun items => ?_
    exact (progress_symbol _).before fun _ => .pure _
  . exact (progress_enum hbound hother).map _
  . exact (progress_service hbound hother).map _
  . exact (progress_extend hbound hother).map _
  . exact (progress_symbol _).map _

theorem progress_file : Progress n 0 (file bound) (file other) := by
  refine progress_dialectClause.maybe.andThen fun dialect => ?_
  refine ((progress_statement hbound hother).many hbound hother).before fun statements => ?_
  exact (progress_token .atEnd).before fun _ => .pure _

end

theorem Round.progress {α : Type} {p : Reader α} (h : Round bound depth p) (hbound : n ≤ bound)
    (hdepth : n ≤ depth) : Progress n 1 p p := by
  have hvalue := guarded_optionValue.progress hbound hbound hdepth hdepth
  cases h with
  | character accepts => exact .char accepts
  | insideComment w => exact progress_insideComment w
  | spacedComment => exact progress_spacedComment hbound
  | stringUnit quote => exact progress_stringUnit quote
  | pathPart => exact progress_pathPart
  | optionNamePart => exact progress_optionNamePart
  | aggregateEntry => exact progress_aggregateEntry hbound hbound hvalue
  | listItem => exact progress_listItem hvalue
  | furtherAssignment => exact progress_furtherAssignment hbound hbound
  | oneofItem => exact progress_oneofItem hbound hbound
  | furtherReserved => exact progress_furtherReserved
  | furtherRange => exact progress_furtherRange
  | extendItem => exact progress_extendItem hbound hbound
  | enumItem => exact progress_enumItem hbound hbound
  | messageItem => exact guarded_messageItem.progress hbound hbound hdepth hdepth
  | callItem => exact progress_callItem hbound hbound
  | serviceItem => exact progress_serviceItem hbound hbound
  | statement => exact progress_statement hbound hbound

/--
Reading a schema file ends for every text. Each round of a repetition, those of trivia and of the
characters of a token included, takes a character, and so does each level of parts of messages and
of values of options before it comes to the next one. So a bound above the number of characters is
never met, every such bound gives the same outcome, and a text is refused only because it does not
match. The scans over trivia, over the characters of a token and over the inside of a string literal
read what the repetitions read.
-/
theorem file_ends :
    (∀ {bound depth n : Nat} {α : Type} {p : Reader α}, Round bound depth p → n ≤ bound →
      n ≤ depth → Progress n 1 p p)
      ∧ Guarded optionValueOver optionValue
      ∧ Guarded messageItemOver messageItem
      ∧ ∀ (s : List Char) (bound : Nat), s.length < bound →
        file bound s ≠ .exhausted
          ∧ file bound s = file (s.length + 1) s
          ∧ (FileTree.ofText? s = none ↔ file bound s = .mismatch)
          ∧ trivia bound s = .ok () (skipTrivia s)
          ∧ (∀ accepts, many (char accepts) bound s = chars accepts s)
          ∧ ∀ quote, stringUnits quote bound s = stringTailHere quote s := by
  refine ⟨Round.progress, guarded_optionValue, guarded_messageItem, fun s bound hbound => ?_⟩
  have hsettled : (file bound s).Settled 0 s (file (s.length + 1) s) :=
    (progress_file (Nat.succ_le_of_lt hbound) (Nat.le_refl _)).settled (Nat.lt_succ_self _)
  have hfile : file bound s ≠ .exhausted ∧ file bound s = file (s.length + 1) s
      ∧ (FileTree.ofText? s = none ↔ file bound s = .mismatch) := by
    unfold FileTree.ofText?
    generalize file bound s = outcome, file (s.length + 1) s = same at hsettled
    cases hsettled with
    | ok _ => simp
    | mismatch => simp
  exact ⟨hfile.1, hfile.2.1, hfile.2.2, trivia_eq hbound, fun accepts => many_char hbound,
    fun quote => (stringTailHere_eq hbound).symm⟩

def unclosedText : List Char :=
  "message A\x7b/*".toList

theorem file_ends_unclosedText :
    unclosedText.length < 40
      ∧ file 40 unclosedText = file (unclosedText.length + 1) unclosedText
      ∧ FileTree.ofText? unclosedText = none
      ∧ file 40 unclosedText = .mismatch
      ∧ Progress 13 1 (messageItem 40 20) (messageItem 40 20) := by
  rcases file_ends with ⟨hround, _, _, hends⟩
  have hlength : unclosedText.length < 40 := by decide +kernel
  rcases hends unclosedText 40 hlength with ⟨_, hsame, hrefused, _⟩
  have hnone : (FileTree.ofText? unclosedText).isNone = true := by decide +kernel
  rw [Option.isNone_iff_eq_none] at hnone
  exact ⟨hlength, hsame, hnone, hrefused.1 hnone,
    hround .messageItem (by decide) (by decide)⟩

end Source

end HessianGo
