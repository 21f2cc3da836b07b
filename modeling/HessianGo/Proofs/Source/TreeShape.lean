import HessianGo.Proofs.Source.Token

/-!
This module contains what is known of every source tree that is read from a text: what stands for a
name is a name, the package is a dotted name, and the type of a field is a built-in type or a dotted
name that may start with a dot.
-/

namespace HessianGo

open Reader (Yields)

namespace Source

/-! ### Shapes -/

def IsReadType : Schema.FieldType → Prop
  | .scalar _ => True
  | .named written => IsTypeName written
  | .message _ => False
  | .enum _ => False

structure FieldDecl.IsRead (decl : FieldDecl) : Prop where
  name : IsName decl.name
  type : IsReadType decl.type

structure MapDecl.IsRead (decl : MapDecl) : Prop where
  name : IsName decl.name
  value : IsReadType decl.value

def OneofItem.IsRead : OneofItem → Prop
  | .field decl => decl.IsRead
  | .skipped => True

structure OneofDecl.IsRead (decl : OneofDecl) : Prop where
  name : IsName decl.name
  items : ∀ item ∈ decl.items, item.IsRead

def EnumItem.IsRead : EnumItem → Prop
  | .value name _ => IsName name
  | .option _ => True
  | .skipped => True

structure EnumDecl.IsRead (decl : EnumDecl) : Prop where
  name : IsName decl.name
  items : ∀ item ∈ decl.items, item.IsRead

inductive MessageItem.IsRead : MessageItem → Prop where
  | option {assignment : OptionAssignment} : IsRead (.option assignment)
  | field {decl : FieldDecl} : decl.IsRead → IsRead (.field decl)
  | mapField {decl : MapDecl} : decl.IsRead → IsRead (.mapField decl)
  | oneof {decl : OneofDecl} : decl.IsRead → IsRead (.oneof decl)
  | enum {decl : EnumDecl} : decl.IsRead → IsRead (.enum decl)
  | message {name : String} {items : List MessageItem} :
    IsName name → (∀ item ∈ items, IsRead item) → IsRead (.message name items)
  | skipped : IsRead .skipped

def Statement.IsRead : Statement → Prop
  | .package path => IsPath path
  | .message name items => IsName name ∧ ∀ item ∈ items, item.IsRead
  | .enum decl => decl.IsRead
  | .importFile _ => True
  | .option _ => True
  | .skipped => True

/-! ### Readers -/

variable {bound : Nat}

theorem nameHere_isRead : Yields nameHere (fun s => IsName (String.ofList s)) := by
  apply (yields_char isNameStart).bind
  intro c hc
  apply (yields_chars isNameChar).bind
  intro cs hcs
  exact .pure ⟨c, cs, by simp, hc, hcs⟩

theorem exists_names {others : List (List Char)}
    (h : ∀ s ∈ others, ∃ name, IsName name ∧ s = '.' :: name.toList) :
    ∃ names : List String, (∀ name ∈ names, IsName name)
      ∧ others.flatten = names.flatMap fun name => '.' :: name.toList := by
  induction others with
  | nil => exact ⟨[], by simp, rfl⟩
  | cons s others ih =>
    simp only [List.mem_cons, forall_eq_or_imp] at h
    rcases h with ⟨⟨name, hname, rfl⟩, hothers⟩
    rcases ih hothers with ⟨names, hnames, hflatten⟩
    refine ⟨name :: names, ?_, ?_⟩
    . simp only [List.mem_cons, forall_eq_or_imp]
      exact ⟨hname, hnames⟩
    . rw [List.flatten_cons, List.flatMap_cons, hflatten]

theorem pathHere_isRead : Yields (pathHere bound) (fun s => IsPath (String.ofList s)) := by
  have hother : Yields (do
      let dot ← Reader.char (· = '.')
      let name ← nameHere
      return dot :: name : Reader (List Char))
      (fun s => ∃ name, IsName name ∧ s = '.' :: name.toList) := by
    apply (yields_char _).bind
    intro dot hdot
    apply nameHere_isRead.bind
    intro name hname
    obtain rfl : dot = '.' := of_decide_eq_true hdot
    exact .pure ⟨_, hname, by simp⟩
  apply nameHere_isRead.bind
  intro first hfirst
  apply (hother.many bound).bind
  intro others hothers
  rcases exists_names hothers with ⟨names, hnames, hflatten⟩
  refine .pure ⟨String.ofList first :: names, by simp, ?_, ?_⟩
  . simp only [List.mem_cons, forall_eq_or_imp]
    exact ⟨hfirst, hnames⟩
  . apply String.toList_inj.1
    rw [toList_intercalate_dot, hflatten]
    simp

theorem path_isRead : Yields (path bound) IsPath :=
  yields_token (pathHere_isRead.map fun _ h => h)

theorem value_of_literal_eq_ok {w s value rest : List Char}
    (h : Reader.literal w s = .ok value rest) : value = w := by
  unfold Reader.literal at h
  split at h
  . cases h
    rfl
  . cases h

theorem fieldType_isRead : Yields (fieldType bound) IsReadType := by
  apply yields_token
  apply Yields.orElse
  . exact .after _ fun scalar => .pure .intro
  . have hdot : Yields (Reader.literal ['.'] <|> Reader.succeed [] : Reader (List Char))
        (fun dot => dot = ['.'] ∨ dot = []) := by
      apply Yields.orElse
      . exact ⟨fun h => .inl (value_of_literal_eq_ok h)⟩
      . exact .pure (.inr rfl)
    apply hdot.bind
    intro dot hdot
    apply pathHere_isRead.bind
    intro path hpath
    rcases hdot with rfl | rfl
    . refine .pure (.inr ⟨_, hpath, ?_⟩)
      rw [String.ofList_append]
    . exact .pure (.inl hpath)

theorem field_isRead : Yields (field bound) FieldDecl.IsRead := by
  apply Yields.after
  intro label
  apply fieldType_isRead.bind
  intro type htype
  apply yields_name.bind
  intro name hname
  exact .after _ fun _ => .after _ fun _ => .after _ fun _ => .after _ fun _ => .pure ⟨hname, htype⟩

theorem mapField_isRead : Yields (mapField bound) MapDecl.IsRead := by
  apply Yields.after
  intro _
  apply Yields.after
  intro _
  apply Yields.after
  intro key
  apply Yields.after
  intro _
  apply fieldType_isRead.bind
  intro value hvalue
  apply Yields.after
  intro _
  apply yields_name.bind
  intro name hname
  exact .after _ fun _ => .after _ fun _ => .after _ fun _ => .after _ fun _ =>
    .pure ⟨hname, hvalue⟩

theorem oneof_isRead : Yields (oneof bound) OneofDecl.IsRead := by
  have hitem : Yields (Reader.firstOf [
      (fun _ => OneofItem.skipped) <$> optionStatement bound,
      OneofItem.field <$> field bound,
      (fun _ => OneofItem.skipped) <$> emptyStatement]) OneofItem.IsRead := by
    apply Yields.firstOf
    intro p hp
    simp only [List.mem_cons, List.not_mem_nil, or_false] at hp
    rcases hp with rfl | rfl | rfl
    . exact (Yields.trivial _).map fun _ _ => .intro
    . exact field_isRead.map fun _ hdecl => hdecl
    . exact (Yields.trivial _).map fun _ _ => .intro
  apply Yields.after
  intro _
  apply yields_name.bind
  intro name hname
  apply Yields.after
  intro _
  apply (hitem.many bound).bind
  intro items hitems
  exact .after _ fun _ => .pure ⟨hname, hitems⟩

theorem enumValue_isRead : Yields (enumValue bound) EnumItem.IsRead := by
  apply yields_name.bind
  intro name hname
  exact .after _ fun _ => .after _ fun _ => .after _ fun _ => .after _ fun _ => .pure hname

theorem enum_isRead : Yields (enum bound) EnumDecl.IsRead := by
  have hitem : Yields (Reader.firstOf [
      .option <$> optionStatement bound,
      (fun _ => .skipped) <$> reserved bound,
      enumValue bound,
      (fun _ => .skipped) <$> emptyStatement]) EnumItem.IsRead := by
    apply Yields.firstOf
    intro p hp
    simp only [List.mem_cons, List.not_mem_nil, or_false] at hp
    rcases hp with rfl | rfl | rfl | rfl
    . exact (Yields.trivial _).map fun _ _ => .intro
    . exact (Yields.trivial _).map fun _ _ => .intro
    . exact enumValue_isRead
    . exact (Yields.trivial _).map fun _ _ => .intro
  apply Yields.after
  intro _
  apply yields_name.bind
  intro name hname
  apply Yields.after
  intro _
  apply (hitem.many bound).bind
  intro items hitems
  exact .after _ fun _ => .pure ⟨hname, hitems⟩

theorem messageItem_isRead (depth : Nat) :
    Yields (messageItem bound depth) MessageItem.IsRead := by
  induction depth with
  | zero => exact ⟨fun h => nomatch h⟩
  | succ depth ih =>
    unfold messageItem
    apply Yields.firstOf
    intro p hp
    simp only [List.mem_cons, List.not_mem_nil, or_false] at hp
    rcases hp with rfl | rfl | rfl | rfl | rfl | rfl | rfl | rfl | rfl | rfl
    . exact (Yields.trivial _).map fun _ _ => .option
    . exact mapField_isRead.map fun _ hdecl => .mapField hdecl
    . apply Yields.after
      intro _
      apply yields_name.bind
      intro name hname
      apply Yields.after
      intro _
      apply (ih.many bound).bind
      intro items hitems
      exact .after _ fun _ => .pure (.message hname hitems)
    . exact enum_isRead.map fun _ hdecl => .enum hdecl
    . exact oneof_isRead.map fun _ hdecl => .oneof hdecl
    . exact (Yields.trivial _).map fun _ _ => .skipped
    . exact (Yields.trivial _).map fun _ _ => .skipped
    . exact (Yields.trivial _).map fun _ _ => .skipped
    . exact field_isRead.map fun _ hdecl => .field hdecl
    . exact (Yields.trivial _).map fun _ _ => .skipped

theorem statement_isRead : Yields (statement bound) Statement.IsRead := by
  apply Yields.firstOf
  intro p hp
  simp only [List.mem_cons, List.not_mem_nil, or_false] at hp
  rcases hp with rfl | rfl | rfl | rfl | rfl | rfl | rfl | rfl
  . exact .after _ fun _ => .after _ fun _ => .after _ fun _ => .after _ fun _ => .pure .intro
  . apply Yields.after
    intro _
    apply path_isRead.bind
    intro path hpath
    exact .after _ fun _ => .pure hpath
  . exact (Yields.trivial _).map fun _ _ => .intro
  . apply Yields.after
    intro _
    apply yields_name.bind
    intro name hname
    apply Yields.after
    intro _
    apply ((messageItem_isRead bound).many bound).bind
    intro items hitems
    exact .after _ fun _ => .pure ⟨hname, hitems⟩
  . exact enum_isRead.map fun _ hdecl => hdecl
  . exact (Yields.trivial _).map fun _ _ => .intro
  . exact (Yields.trivial _).map fun _ _ => .intro
  . exact (Yields.trivial _).map fun _ _ => .intro

theorem isRead_of_ofText? {s : List Char} {tree : FileTree} (h : FileTree.ofText? s = some tree) :
    ∀ statement ∈ tree.statements, statement.IsRead :=
  forall_statements_of_ofText? (fun _ => statement_isRead) h

end Source

end HessianGo
