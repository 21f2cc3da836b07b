import HessianGo.Proofs.Source.Forest
import HessianGo.Proofs.Source.Grammar

/-!
This module contains the texts of forests. Every text that has the tokens of a forest, with any
blanks and comments between them, is read as the source tree of the forest, and so as the file that
the forest describes.
-/

namespace HessianGo

namespace Source

variable {n bound : Nat} {tokens : List String} {q : List Ident}

/-! ### Option blocks -/

theorem isPath_extensionPath (q : List Ident) {extension : String} (h : IsName extension) :
    IsPath (extensionPath q extension) := by
  refine ⟨q.map Ident.text ++ [extension], by simp, ?_, rfl⟩
  intro name hname
  simp only [List.mem_append, List.mem_map, List.mem_singleton] at hname
  rcases hname with ⟨ident, -, rfl⟩ | rfl
  . exact ident.isName
  . exact h

theorem reads_separator (separator : Separator) {first : String}
    (h : ∀ c ∈ first.toList.head?, c ≠ ',' ∧ c ≠ ';') :
    ∃ value, Reads n (Reader.maybe (symbol ',' <|> symbol ';'))
      (separator.tokens ++ first :: tokens) (first :: tokens) value := by
  cases separator with
  | none =>
    refine ⟨_, Fails.maybe_none (.orElse ?_ ?_)⟩
    . exact fails_symbol fun c hc => (h c hc).1
    . exact fails_symbol fun c hc => (h c hc).2
  | comma => exact ⟨_, (reads_symbol rfl).orElse_left.maybe_some⟩
  | semicolon =>
    exact ⟨_, (Reads.orElse_right (fails_symbol (by decide)) (reads_symbol rfl)).maybe_some⟩

theorem reads_entry {key text : String} (hkey : IsName key) (htext : IsConstant bound text)
    (separator : Separator) {depth : Nat} (hdepth : 0 < depth) {first : String}
    (h : ∀ c ∈ first.toList.head?, c ≠ ',' ∧ c ≠ ';') :
    Reads n (do
      let key ← aggregateKey bound
      let _ ← Reader.maybe (symbol ':')
      let value ← optionValue bound depth
      let _ ← Reader.maybe (symbol ',' <|> symbol ';')
      return (key, value)) (key :: ":" :: text :: (separator.tokens ++ first :: tokens))
      (first :: tokens) (key, .constant text) := by
  rcases reads_separator separator h with ⟨_, hseparator⟩
  apply (reads_aggregateKey hkey).bind
  apply (reads_symbol rfl).maybe_some.bind
  apply (htext.reads_optionValue hdepth).bind
  exact hseparator.bind (.pure _)

theorem reads_aggregate {ι : Type} {items : List ι} {key text : ι → String}
    {separator : ι → Separator} (hkey : ∀ item, IsName (key item))
    (htext : ∀ item, IsConstant bound (text item)) {depth : Nat} (hdepth : 1 < depth)
    (hbound : n ≤ bound) :
    Reads n (optionValue bound depth)
      ("\x7b" :: (items.flatMap (fun item =>
        key item :: ":" :: text item :: (separator item).tokens) ++ "\x7d" :: tokens))
      tokens (.aggregate (items.map fun item => (key item, .constant (text item)))) := by
  obtain ⟨depth, rfl⟩ : ∃ k, depth = k + 1 := ⟨depth - 1, by omega⟩
  have hentries : Reads n (Reader.many (do
      let key ← aggregateKey bound
      let _ ← Reader.maybe (symbol ':')
      let value ← optionValue bound depth
      let _ ← Reader.maybe (symbol ',' <|> symbol ';')
      return (key, value)) bound)
      (items.flatMap (fun item => key item :: ":" :: text item :: (separator item).tokens)
        ++ "\x7d" :: tokens)
      ("\x7d" :: tokens) (items.map fun item => (key item, .constant (text item))) := by
    apply Reads.manyBefore fun after =>
      ∃ first others, after = first :: others ∧ ∀ c ∈ first.toList.head?, c ≠ ',' ∧ c ≠ ';'
    . rintro item - after ⟨first, others, rfl, hfirst⟩
      exact reads_entry (hkey item) (htext item) (separator item) (by omega) hfirst
    . simp
    . intro item _ after
      refine ⟨key item, _, rfl, ?_⟩
      intro c hc
      exact ⟨(hkey item).head_ne (by decide) c hc, (hkey item).head_ne (by decide) c hc⟩
    . exact ⟨"\x7d", tokens, rfl, by decide⟩
    . exact (fails_aggregateKey (by decide)).bind
    . exact hbound
  unfold optionValue
  apply Reads.orElse_left
  apply (reads_symbol rfl).bind
  apply hentries.bind
  exact (reads_symbol rfl).bind (.pure _)

theorem reads_assignment {path : String} (hpath : IsPath path) {ι : Type} {items : List ι}
    {key text : ι → String} {separator : ι → Separator} (hkey : ∀ item, IsName (key item))
    (htext : ∀ item, IsConstant bound (text item)) (hbound : n ≤ bound) :
    Reads n (assignment bound)
      ("(" :: path :: ")" :: "=" :: "\x7b" :: (items.flatMap (fun item =>
        key item :: ":" :: text item :: (separator item).tokens) ++ "\x7d" :: tokens))
      tokens
      { extension := some path
        path := []
        value := .aggregate (items.map fun item => (key item, .constant (text item))) } := by
  apply Reads.of_length_lt (by simp; omega)
  intro hlt
  simp only [List.length_cons] at hlt
  apply (reads_optionName_extension hpath (by decide) hbound).bind
  apply (reads_symbol rfl).bind
  apply (reads_aggregate hkey htext (by omega) hbound).bind
  exact .pure _

theorem isName_key (setting : Setting) : IsName setting.key := by
  cases setting
  all_goals
    dsimp only [Setting.key]
    decide

theorem isConstant_valueText (setting : Setting) : IsConstant bound setting.valueText := by
  cases setting with
  | javaClassName value => exact isConstant_literal (Code.isLiteralOf_quote value)
  | referencePath value => exact isConstant_literal (Code.isLiteralOf_quote value)
  | extendArgs value => exact isConstant_bool value
  | isInheritance value => exact isConstant_bool value

theorem reads_blockStatement (q : List Ident) (entries : List (Setting × Separator))
    (hbound : n ≤ bound) :
    Reads n (optionStatement bound) (Element.tokens q (.options entries) ++ tokens) tokens
      (blockAssignment q entries) := by
  have hassignment : Reads n (assignment bound)
      ("(" :: extensionPath q "message_extend" :: ")" :: "=" :: "\x7b"
        :: (entries.flatMap entryTokens ++ "\x7d" :: ";" :: tokens))
      (";" :: tokens) (blockAssignment q entries) :=
    reads_assignment (isPath_extensionPath q (by decide)) (fun entry => isName_key entry.1)
      (fun entry => isConstant_valueText entry.1) hbound
  simp only [Element.tokens, List.cons_append, List.append_assoc, List.nil_append]
  apply (reads_keyword "option").bind
  apply hassignment.bind
  exact (reads_symbol rfl).bind (.pure _)

theorem reads_trailingOptions (q : List Ident) (slot : Slot) (hbound : n ≤ bound) :
    Reads n (trailingOptions bound) (slot.optionTokens q ++ ";" :: tokens) (";" :: tokens)
      (slot.assignments q) := by
  unfold Slot.optionTokens Slot.assignments
  cases slot.isWrapper with
  | none => exact reads_trailingOptions_nil (by decide)
  | some value =>
    have hassignment : Reads n (assignment bound)
        ("(" :: extensionPath q "field_extend" :: ")" :: "=" :: "\x7b"
          :: ([value].flatMap (fun value => "is_wrapper" :: ":" :: toString value
            :: Separator.none.tokens) ++ "\x7d" :: "]" :: ";" :: tokens))
        ("]" :: ";" :: tokens)
        { extension := some (extensionPath q "field_extend")
          path := []
          value := .aggregate ([value].map fun value =>
            ("is_wrapper", .constant (toString value))) } :=
      reads_assignment (isPath_extensionPath q (by decide)) (fun _ => by decide)
        (fun value => isConstant_bool value) hbound
    apply Reads.orElse_left
    apply (reads_symbol rfl).bind
    apply hassignment.bind
    apply ((fails_symbol (by decide)).bind.many_nil hbound).bind
    exact (reads_symbol rfl).bind (.pure _)

/-! ### Fields -/

theorem reads_slot {α : Type} (q : List Ident) (slot : Slot)
    (make : String → String → List OptionAssignment → α) (hbound : n ≤ bound) :
    Reads n (do
      let name ← name
      symbol '='
      let number ← integer
      let options ← trailingOptions bound
      symbol ';'
      return make name number options) (slot.tokens q ++ tokens) tokens
      (make slot.name.text (toString slot.number.toNat) (slot.assignments q)) := by
  simp only [Slot.tokens, List.cons_append, List.append_assoc, List.nil_append]
  apply (reads_name slot.name.isName).bind
  apply (reads_symbol rfl).bind
  apply (reads_integer slot.number.toNat).bind
  apply (reads_trailingOptions q slot hbound).bind
  exact (reads_symbol rfl).bind (.pure _)

theorem reads_label (label : Schema.Label) :
    Reads n Source.label (labelText label :: tokens) tokens label := by
  have hreads : ∀ w : String, w.toList ≠ [] → (∀ c ∈ w.toList, isNameChar c) →
      Reads n ((fun _ => label) <$> wholeWord w) (w :: tokens) tokens label :=
    fun w hne hw => (reads_wholeWord hne hw).map _
  cases label with
  | repeated => exact (hreads "repeated" (by decide) (by decide)).orElse_left
  | optional =>
    apply Reads.orElse_right ((fails_wholeWord (by decide) (by decide)).map _)
    exact (hreads "optional" (by decide) (by decide)).orElse_left
  | required =>
    apply Reads.orElse_right ((fails_wholeWord (by decide) (by decide)).map _)
    apply Reads.orElse_right ((fails_wholeWord (by decide) (by decide)).map _)
    exact (hreads "required" (by decide) (by decide)).orElse_left

theorem reads_field (q : List Ident) (plain : PlainField) (hbound : n ≤ bound) :
    Reads n (field bound) (plain.tokens q ++ tokens) tokens (plain.decl q) := by
  apply (reads_label plain.label).bind
  apply (reads_fieldType plain.type.isWritten hbound).bind
  exact reads_slot q plain.slot (FieldDecl.mk plain.label plain.type.type) hbound

theorem typeText_cases {type : Schema.FieldType} (h : IsWritten type) :
    (∃ path, IsPath path ∧ typeText type = "." ++ path)
      ∨ ∀ c ∈ (typeText type).toList.head?, isNameStart c := by
  cases type with
  | scalar scalar =>
    right
    cases scalar
    all_goals decide
  | named written =>
    rcases h.1 with hpath | ⟨path, hpath, rfl⟩
    . right
      rcases hpath.exists_head with ⟨c, cs, hc, hstart⟩
      rw [typeText, hc]
      simpa using hstart
    . exact .inl ⟨path, hpath, rfl⟩
  | message _ => exact h.elim
  | enum _ => exact h.elim

theorem fails_optionStatement_field (label : Schema.Label) (type : WrittenType) (name : Ident)
    (hbound : n ≤ bound) :
    Fails n (optionStatement bound)
      (labelText label :: typeText type.type :: name.text :: tokens) := by
  -- A field is no option statement. Its label may start like one, but between the label and the
  -- equals sign stands the name of the field.
  cases label with
  | repeated => exact (fails_keyword (by decide) (by decide)).bind
  | required => exact (fails_keyword (by decide) (by decide)).bind
  | optional =>
    have hal : IsName "al" := by decide
    have hdot := name.isName.head_ne (show ¬isNameStart '.' by decide)
    have hequals := name.isName.head_ne (show ¬isNameStart '=' by decide)
    have hfront : labelText .optional = "option" ++ "al" := rfl
    apply Fails.bind_right (reads_keyword_front hfront (by decide))
    apply Fails.bind
    rcases typeText_cases type.isWritten with ⟨path, hpath, htype⟩ | hstart
    . rw [htype]
      rcases reads_dots hpath hdot hbound with ⟨names, hdots⟩
      exact .bind_right (.optionName_of_name hal hdots) (fails_symbol hequals).bind
    . have hne : ∀ {c : Char}, ¬isNameStart c → ∀ d ∈ (typeText type.type).toList.head?,
          d ≠ c := by
        rintro c hc d hd rfl
        exact hc (hstart d hd)
      apply Fails.bind_right (.optionName_of_name hal (reads_dots_nil (hne (by decide)) hbound))
      exact (fails_symbol (hne (by decide))).bind

theorem fails_field_close : Fails n (field bound) ("\x7d" :: tokens) := by
  have hlabel : Reads n Source.label ("\x7d" :: tokens) ("\x7d" :: tokens) .optional := by
    apply Reads.orElse_right ((fails_wholeWord (by decide) (by decide)).map _)
    apply Reads.orElse_right ((fails_wholeWord (by decide) (by decide)).map _)
    apply Reads.orElse_right ((fails_wholeWord (by decide) (by decide)).map _)
    exact (Reads.pure _).orElse_left
  exact .bind_right hlabel (fails_fieldType (by decide)).bind

/-! ### Messages -/

theorem reads_mapField (q : List Ident) (key : Schema.ScalarType) (value : WrittenType)
    (slot : Slot) (hbound : n ≤ bound) :
    Reads n (mapField bound) (Element.tokens q (.map key value slot) ++ tokens) tokens
      { key
        value := value.type
        name := slot.name.text
        number := toString slot.number.toNat
        options := slot.assignments q } := by
  simp only [Element.tokens, List.cons_append]
  apply (reads_keyword "map").bind
  apply (reads_symbol rfl).bind
  apply (reads_scalar key).bind
  apply (reads_symbol rfl).bind
  apply (reads_fieldType value.isWritten hbound).bind
  apply (reads_symbol rfl).bind
  exact reads_slot q slot (MapDecl.mk key value.type) hbound

theorem reads_oneof (q : List Ident) (name : Ident) (fields : List PlainField)
    (hbound : n ≤ bound) :
    Reads n (oneof bound) (Element.tokens q (.oneof name fields) ++ tokens) tokens
      { name := name.text, items := fields.map fun field => .field (field.decl q) } := by
  have hitems : Reads n (Reader.many (Reader.firstOf [
      (fun _ => OneofItem.skipped) <$> optionStatement bound,
      OneofItem.field <$> field bound,
      (fun _ => OneofItem.skipped) <$> emptyStatement]) bound)
      (fields.flatMap (PlainField.tokens q) ++ "\x7d" :: tokens) ("\x7d" :: tokens)
      (fields.map fun field => .field (field.decl q)) := by
    apply Reads.many
    . intro plain _ after
      apply Reads.orElse_right
        ((fails_optionStatement_field plain.label plain.type plain.slot.name hbound).map _)
      exact ((reads_field q plain hbound).map _).orElse_left
    . simp [PlainField.tokens]
    . apply Fails.orElse ((fails_keyword (by decide) (by decide)).bind.map _)
      apply Fails.orElse (fails_field_close.map _)
      apply Fails.orElse ((fails_symbol (by decide)).map _)
      exact ⟨fun _ _ => rfl⟩
    . exact hbound
  simp only [Element.tokens, List.cons_append, List.append_assoc, List.nil_append]
  apply (reads_keyword "oneof").bind
  apply (reads_name name.isName).bind
  apply (reads_symbol rfl).bind
  apply hitems.bind
  exact (reads_symbol rfl).bind (.pure _)

theorem fails_messageItem_close {depth : Nat} (hdepth : n ≤ depth) :
    Fails n (messageItem bound depth) ("\x7d" :: tokens) := by
  cases depth with
  | zero => exact ⟨fun _ hlt => by omega⟩
  | succ depth =>
    unfold messageItem
    apply Fails.firstOf
    intro p hp
    simp only [List.mem_cons, List.not_mem_nil, or_false] at hp
    rcases hp with rfl | rfl | rfl | rfl | rfl | rfl | rfl | rfl | rfl | rfl
    . exact (fails_keyword (by decide) (by decide)).bind.map _
    . exact (fails_keyword (by decide) (by decide)).bind.map _
    . exact (fails_keyword (by decide) (by decide)).bind
    . exact (fails_keyword (by decide) (by decide)).bind.map _
    . exact (fails_keyword (by decide) (by decide)).bind.map _
    . exact (fails_keyword (by decide) (by decide)).bind.map _
    . exact (fails_keyword (by decide) (by decide)).bind.map _
    . exact (fails_keyword (by decide) (by decide)).bind.map _
    . exact fails_field_close.map _
    . exact (fails_symbol (by decide)).map _

theorem tokensOfList_eq_flatMap (q : List Ident) (elements : List Element) :
    Element.tokensOfList q elements = elements.flatMap (Element.tokens q) := by
  induction elements with
  | nil => rfl
  | cons element elements ih => rw [Element.tokensOfList, List.flatMap_cons, ih]

theorem itemsOfList_eq_map (q : List Ident) (elements : List Element) :
    Element.itemsOfList q elements = elements.map (Element.item q) := by
  induction elements with
  | nil => rfl
  | cons element elements ih => rw [Element.itemsOfList, List.map_cons, ih]

theorem Element.tokens_ne_nil (q : List Ident) (element : Element) : element.tokens q ≠ [] := by
  cases element
  all_goals simp [Element.tokens, PlainField.tokens]

theorem fails_keyword_label {w : String} (hw : ∀ c ∈ w.toList, isNameChar c)
    (h : ∀ label ∈ [Schema.Label.optional, .required, .repeated],
      ¬w.toList <+: (labelText label).toList) (label : Schema.Label) :
    Fails n (keyword w) (labelText label :: tokens) := by
  apply fails_keyword hw
  apply h
  cases label
  all_goals decide

theorem Reads.messageItem_field {label : Schema.Label} {type : WrittenType} {name : Ident}
    {rest : List String} {decl : FieldDecl} {depth : Nat} (hbound : n ≤ bound)
    (h : Reads n (Source.field bound) (labelText label :: typeText type.type :: name.text :: tokens)
      rest decl) :
    Reads n (messageItem bound (depth + 1))
      (labelText label :: typeText type.type :: name.text :: tokens) rest (.field decl) := by
  -- What the reader of fields takes is a part of a message, since no other part starts like it.
  apply Reads.orElse_right ((fails_optionStatement_field label type name hbound).map _)
  apply Reads.orElse_right ((fails_keyword_label (by decide) (by decide) _).bind.map _)
  apply Reads.orElse_right (fails_keyword_label (by decide) (by decide) _).bind
  apply Reads.orElse_right ((fails_keyword_label (by decide) (by decide) _).bind.map _)
  apply Reads.orElse_right ((fails_keyword_label (by decide) (by decide) _).bind.map _)
  apply Reads.orElse_right ((fails_keyword_label (by decide) (by decide) _).bind.map _)
  apply Reads.orElse_right ((fails_keyword_label (by decide) (by decide) _).bind.map _)
  apply Reads.orElse_right ((fails_keyword_label (by decide) (by decide) _).bind.map _)
  exact (h.map _).orElse_left

-- The depth is the bound on the length of the text. The keyword in front of the parts of a nested
-- message is gone when these are read, so one level less is enough for them.
theorem Reads.messageItem_message (name : Ident) {parts : List String} {items : List MessageItem}
    {depth : Nat} (h : Reads (n - 1) (Reader.many (messageItem bound depth) bound)
      (parts ++ "\x7d" :: tokens) ("\x7d" :: tokens) items) :
    Reads n (messageItem bound (depth + 1))
      ("message" :: name.text :: "\x7b" :: (parts ++ "\x7d" :: tokens)) tokens
      (.message name.text items) := by
  apply Reads.orElse_right ((fails_keyword (by decide) (by decide)).bind.map _)
  apply Reads.orElse_right ((fails_keyword (by decide) (by decide)).bind.map _)
  apply Reads.orElse_left
  refine (reads_keyword "message").bindWithin (m := n - 1) ?_ (by simp; omega)
  apply (reads_name name.isName).bind
  apply (reads_symbol rfl).bind
  apply h.bind
  exact (reads_symbol rfl).bind (.pure _)

theorem reads_messageItem (q : List Ident) {depth : Nat} (element : Element) (hdepth : n ≤ depth)
    (hbound : n ≤ bound) :
    Reads n (messageItem bound depth) (element.tokens q ++ tokens) tokens (element.item q) := by
  induction depth generalizing n element tokens with
  | zero =>
    apply Reads.of_length_lt (by simp)
    intro hlt
    omega
  | succ depth ih =>
    cases element with
    | options entries => exact ((reads_blockStatement q entries hbound).map _).orElse_left
    | map key value slot =>
      apply Reads.orElse_right ((fails_keyword (by decide) (by decide)).bind.map _)
      exact ((reads_mapField q key value slot hbound).map _).orElse_left
    | message name elements =>
      have hitems : Reads (n - 1) (Reader.many (messageItem bound depth) bound)
          (elements.flatMap (Element.tokens q) ++ "\x7d" :: tokens) ("\x7d" :: tokens)
          (elements.map (Element.item q)) := by
        apply Reads.many
        . intro element _ after
          exact ih element (by omega) (by omega)
        . exact fun element _ => element.tokens_ne_nil q
        . exact fails_messageItem_close (by omega)
        . omega
      simp only [Element.item, itemsOfList_eq_map, Element.tokens, tokensOfList_eq_flatMap,
        List.cons_append, List.append_assoc, List.nil_append]
      exact hitems.messageItem_message name
    | oneof name fields =>
      apply Reads.orElse_right ((fails_keyword (by decide) (by decide)).bind.map _)
      apply Reads.orElse_right ((fails_keyword (by decide) (by decide)).bind.map _)
      apply Reads.orElse_right (fails_keyword (by decide) (by decide)).bind
      apply Reads.orElse_right ((fails_keyword (by decide) (by decide)).bind.map _)
      exact ((reads_oneof q name fields hbound).map _).orElse_left
    | field plain => exact (reads_field q plain hbound).messageItem_field hbound

/-! ### Files -/

theorem Reads.statement_message (name : Ident) {parts : List String} {items : List MessageItem}
    (h : Reads bound (Reader.many (messageItem bound bound) bound)
      (parts ++ "\x7d" :: tokens) ("\x7d" :: tokens) items) :
    Reads bound (statement bound)
      ("message" :: name.text :: "\x7b" :: (parts ++ "\x7d" :: tokens)) tokens
      (.message name.text items) := by
  apply Reads.orElse_right (fails_keyword (by decide) (by decide)).bind
  apply Reads.orElse_right (fails_keyword (by decide) (by decide)).bind
  apply Reads.orElse_right ((fails_keyword (by decide) (by decide)).bind.map _)
  apply Reads.orElse_left
  apply (reads_keyword "message").bind
  apply (reads_name name.isName).bind
  apply (reads_symbol rfl).bind
  apply h.bind
  exact (reads_symbol rfl).bind (.pure _)

theorem reads_tree (q : List Ident) (tree : Tree) :
    Reads bound (statement bound) (tree.tokens q ++ tokens) tokens (tree.statement q) := by
  have hitems : Reads bound (Reader.many (messageItem bound bound) bound)
      (tree.elements.flatMap (Element.tokens q) ++ "\x7d" :: tokens) ("\x7d" :: tokens)
      (tree.elements.map (Element.item q)) := by
    apply Reads.many
    . intro element _ after
      exact reads_messageItem q element (le_refl bound) (le_refl bound)
    . exact fun element _ => element.tokens_ne_nil q
    . exact fails_messageItem_close (le_refl bound)
    . exact le_refl bound
  simp only [Tree.tokens, Tree.statement, itemsOfList_eq_map, tokensOfList_eq_flatMap,
    List.cons_append, List.append_assoc, List.nil_append]
  exact hitems.statement_message tree.name

theorem reads_package {path : String} (hpath : IsPath path) :
    Reads bound (statement bound) ("package" :: path :: ";" :: tokens) tokens (.package path) := by
  apply Reads.orElse_right (fails_keyword (by decide) (by decide)).bind
  apply Reads.orElse_left
  apply (reads_keyword "package").bind
  apply (reads_path hpath (le_refl bound)).bind
  exact (reads_symbol rfl).bind (.pure _)

theorem reads_dialectClause (name : String) :
    Reads n dialectClause ("syntax" :: "=" :: Code.quote name :: ";" :: tokens) tokens
      (.byName (Code.quote name)) := by
  apply (Reads.orElse_left ((reads_keyword "syntax").map _)).bind
  apply (reads_symbol rfl).bind
  apply (reads_stringLiteral name).bind
  exact (reads_symbol rfl).bind (.pure _)

def topTokens (q : List Ident) : Tree ⊕ String → List String
  | .inl tree => tree.tokens q
  | .inr path => ["package", path, ";"]

def topStatement (q : List Ident) : Tree ⊕ String → Statement
  | .inl tree => tree.statement q
  | .inr path => .package path

namespace Forest

def tops (forest : Forest) : List (Tree ⊕ String) :=
  forest.before.map .inl ++ (forest.package.toList.map .inr ++ forest.after.map .inl)

theorem tokens_eq (q : List Ident) (forest : Forest) :
    forest.tokens q = dialectTokens forest.dialect ++ forest.tops.flatMap (topTokens q) := by
  have hpackage : packageTokens forest.package
      = (forest.package.toList.map .inr).flatMap (topTokens q) := by
    cases forest.package with
    | none => rfl
    | some path => rfl
  unfold tokens tops
  simp only [hpackage, List.flatMap_append, List.flatMap_map]
  rfl

theorem statements_sourceTree (q : List Ident) (forest : Forest) :
    (forest.sourceTree q).statements = forest.tops.map (topStatement q) := by
  unfold sourceTree tops
  simp only [List.map_append, List.map_map]
  rfl

theorem reads_tops (q : List Ident) (forest : Forest) :
    Reads bound (Reader.many (statement bound) bound) (forest.tops.flatMap (topTokens q)) []
      (forest.sourceTree q).statements := by
  have htops : Reads bound (Reader.many (statement bound) bound)
      (forest.tops.flatMap (topTokens q) ++ []) [] (forest.tops.map (topStatement q)) := by
    apply Reads.many
    . rintro (tree | path) htop after
      . exact reads_tree q tree
      . apply reads_package
        apply forest.isPath
        simpa [tops] using htop
    . rintro (tree | path) _
      . simp [topTokens, Tree.tokens]
      . simp [topTokens]
    . exact fails_statement_nil
    . exact le_refl bound
  rw [List.append_nil] at htops
  rw [statements_sourceTree]
  exact htops

theorem fails_dialectClause_tops (q : List Ident) (tops : List (Tree ⊕ String)) :
    Fails n dialectClause (tops.flatMap (topTokens q)) := by
  cases tops with
  | nil => exact fails_dialectClause_nil
  | cons top tops =>
    cases top with
    | inl tree => exact fails_dialectClause (by decide) (by decide)
    | inr path => exact fails_dialectClause (by decide) (by decide)

theorem reads_dialect (q : List Ident) (forest : Forest) :
    Reads n (Reader.maybe dialectClause)
      (dialectTokens forest.dialect ++ forest.tops.flatMap (topTokens q))
      (forest.tops.flatMap (topTokens q)) (dialectClause? forest.dialect) := by
  cases h : forest.dialect with
  | none => exact (fails_dialectClause_tops q forest.tops).maybe_none
  | some dialect =>
    cases dialect with
    | proto2 => exact (reads_dialectClause "proto2").maybe_some
    | proto3 => exact (reads_dialectClause "proto3").maybe_some
    | editions => exact absurd h forest.isNamed

end Forest

end Source

/--
Every text with the tokens of a forest is read as the file that the forest describes.
-/
theorem Schema.File.ofText_forest (q : List Source.Ident) (forest : Source.Forest)
    {text : String} (h : Source.LaidOut (forest.tokens q) text.toList) (name : String) :
    Schema.File.ofText name text = .ok (forest.schema name) := by
  have hread : ∀ bound, Source.Reads bound (Source.file bound) (forest.tokens q) []
      (forest.sourceTree q) := by
    intro bound
    rw [forest.tokens_eq q]
    exact Source.reads_file (forest.reads_dialect q) (forest.reads_tops q)
  unfold Schema.File.ofText
  rw [Source.ofText?_eq_some h hread]
  exact forest.toFile_sourceTree q name

namespace Source

def orderForest : Forest where
  dialect := some .proto3
  isNamed := by decide
  before := [{
    name := ⟨"Order", by decide⟩
    elements := [
      .field {
        label := .optional
        type := ⟨.named ".shop.Item",
          .inr ⟨"shop.Item", ⟨["shop", "Item"], by decide, by decide, rfl⟩, rfl⟩,
          fun scalar => by cases scalar <;> decide⟩
        slot := ⟨⟨"optional", by decide⟩, 1, some true⟩ },
      .options [(.javaClassName "a\"b", .comma), (.extendArgs true, .none)],
      .map .string ⟨.scalar .int32, .intro⟩ ⟨⟨"unit_prices", by decide⟩, 4294967295, none⟩,
      .oneof ⟨"payment", by decide⟩ [
        { label := .required, type := ⟨.scalar .bytes, .intro⟩
          slot := ⟨⟨"card", by decide⟩, 3, none⟩ }],
      .message ⟨"Line", by decide⟩ []] }]
  package := some "shop.v1"
  isPath := by
    rintro path ⟨⟩
    exact ⟨["shop", "v1"], by decide, by decide, rfl⟩
  after := [{ name := ⟨"Empty", by decide⟩, elements := [] }]

def orderPieces : List (String × List Char) :=
  ["syntax", "=", "\"proto3\"", ";"].map (·, "/* // */".toList)
    ++ ((orderForest.tokens [⟨"q", by decide⟩]).drop 4).map (·, " // *\n".toList)

def orderText : String :=
  String.ofList (orderPieces.flatMap fun piece => piece.1.toList ++ piece.2)

theorem laidOut_orderText : LaidOut (orderForest.tokens [⟨"q", by decide⟩]) orderText.toList := by
  have hblock : IsTrivia "/* // */".toList :=
    @IsTrivia.blockComment " // ".toList [] (by decide) .nil
  have hline : IsTrivia " // *\n".toList :=
    @IsTrivia.space ' ' _ rfl (@IsTrivia.lineComment " *".toList [] (by decide) .nil)
  rw [orderText, String.toList_ofList]
  refine @laidOut_of_pieces orderPieces [] .nil (by decide) ?_ (by decide)
  intro piece hpiece
  simp only [orderPieces, List.mem_append, List.mem_map] at hpiece
  rcases hpiece with ⟨token, -, rfl⟩ | ⟨token, -, rfl⟩
  . exact hblock
  . exact hline

theorem ofText_forest_orderText :
    LaidOut (orderForest.tokens [⟨"q", by decide⟩]) orderText.toList
      ∧ Schema.File.ofText "order.proto" orderText
        = .ok {
          name := "order.proto"
          package := some "shop.v1"
          dialect := .proto3
          messages := [
            { name := "Order"
              fullName := "shop.v1.Order"
              fields := [
                { name := "optional", number := 1, type := .named ".shop.Item"
                  options := some { isWrapper := true } },
                { name := "unit_prices", number := 4294967295, label := .repeated
                  type := .message "shop.v1.Order.UnitPricesEntry" },
                { name := "card", number := 3, label := .required, type := .scalar .bytes
                  oneof := some "payment" }]
              messages := [
                { name := "UnitPricesEntry"
                  fullName := "shop.v1.Order.UnitPricesEntry"
                  fields := [
                    { name := "key", number := 1, type := .scalar .string },
                    { name := "value", number := 2, type := .scalar .int32 }]
                  isMapEntry := true },
                { name := "Line", fullName := "shop.v1.Order.Line" }]
              oneofs := ["payment"]
              options := some { javaClassName := "a\"b", extendArgs := true } },
            { name := "Empty", fullName := "shop.v1.Empty" }] } :=
  ⟨laidOut_orderText, Schema.File.ofText_forest [⟨"q", by decide⟩] orderForest laidOut_orderText
    "order.proto"⟩

end Source

end HessianGo
