import HessianGo.Source.Schema

/-!
This module contains the causes for which the text of a schema file is refused. All of them lie in
the text itself: reading it never asks for another file, and never for what other files declare.
-/

namespace HessianGo

namespace Source

open Schema (Error)

def IsTextFault : Error → Prop
  | .ungrammatical => True
  | .unsupportedDialect _ => True
  | .invalidOption _ => True
  | .integerOutOfRange _ => True
  | _ => False

def BlamesText {α : Type} (result : Except Error α) : Prop :=
  ∀ error, result = .error error → IsTextFault error

variable {α β : Type}

theorem BlamesText.ok (value : α) : BlamesText (.ok value) := by
  intro error h
  cases h

theorem BlamesText.error {error : Error} (h : IsTextFault error) :
    BlamesText (.error error : Except Error α) := by
  intro other hother
  cases hother
  exact h

theorem BlamesText.bind {first : Except Error α} {next : α → Except Error β}
    (hfirst : BlamesText first) (hnext : ∀ value, BlamesText (next value)) :
    BlamesText (first >>= next) := by
  cases first with
  | ok value => exact hnext value
  | error error => exact .error (hfirst error rfl)

theorem blamesText_ofOptions (result : Except Schema.OptionFault α) :
    BlamesText (ofOptions result) := by
  cases result with
  | ok value => apply BlamesText.ok
  | error fault => exact .error trivial

theorem blamesText_fieldNumber (literal : String) :
    BlamesText (IntegerLiteral.fieldNumber literal) := by
  unfold IntegerLiteral.fieldNumber
  split
  . apply BlamesText.ok
  . exact .error trivial

theorem blamesText_enumNumber (literal : String) :
    BlamesText (IntegerLiteral.enumNumber literal) := by
  unfold IntegerLiteral.enumNumber
  split
  . apply BlamesText.ok
  . exact .error trivial

theorem blamesText_toField (dialect : Schema.Dialect) (oneof : Option String) (decl : FieldDecl) :
    BlamesText (decl.toField dialect oneof) := by
  apply (blamesText_fieldNumber decl.number).bind
  intro number
  apply (blamesText_ofOptions _).bind
  intro value
  apply (blamesText_ofOptions _).bind
  intro options
  apply BlamesText.ok

theorem blamesText_mapField (parent : String) (decl : MapDecl) :
    BlamesText (decl.toField parent) := by
  apply (blamesText_fieldNumber decl.number).bind
  intro number
  apply (blamesText_ofOptions _).bind
  intro options
  apply BlamesText.ok

theorem blamesText_toFields (dialect : Schema.Dialect) (decl : OneofDecl) :
    BlamesText (decl.toFields dialect) := by
  unfold OneofDecl.toFields
  induction decl.items with
  | nil => apply BlamesText.ok
  | cons item items ih =>
    cases item with
    | skipped => exact ih
    | field field =>
      apply (blamesText_toField dialect _ field).bind
      intro first
      apply ih.bind
      intro others
      apply BlamesText.ok

theorem blamesText_values (items : List EnumItem) : BlamesText (EnumDecl.values items) := by
  induction items with
  | nil => apply BlamesText.ok
  | cons item items ih =>
    cases item with
    | option _ => exact ih
    | skipped => exact ih
    | value name literal =>
      apply (blamesText_enumNumber literal).bind
      intro number
      apply ih.bind
      intro others
      apply BlamesText.ok

theorem blamesText_toEnum (parent : Option String) (decl : EnumDecl) :
    BlamesText (decl.toEnum parent) := by
  apply (blamesText_values decl.items).bind
  intro values
  apply (blamesText_ofOptions _).bind
  intro options
  apply BlamesText.ok

theorem blamesText_toMessage (name fullName : String) (members : Members) :
    BlamesText (members.toMessage name fullName) := by
  apply (blamesText_ofOptions _).bind
  intro options
  apply BlamesText.ok

-- The recursion is the one of `MessageItem.members`.
mutual

theorem blamesText_members (dialect : Schema.Dialect) (scope : String) :
    (item : MessageItem) → BlamesText (item.members dialect scope)
  | .option assignment => .ok _
  | .field decl => (blamesText_toField dialect none decl).bind fun _ => .ok _
  | .mapField decl => (blamesText_mapField scope decl).bind fun _ => .ok _
  | .oneof decl => (blamesText_toFields dialect decl).bind fun _ => .ok _
  | .enum decl => (blamesText_toEnum (some scope) decl).bind fun _ => .ok _
  | .message name items => by
    apply (blamesText_membersOfList dialect (Schema.qualify (some scope) name) items).bind
    intro inner
    apply (blamesText_toMessage name _ inner).bind
    intro message
    apply BlamesText.ok
  | .skipped => .ok _

theorem blamesText_membersOfList (dialect : Schema.Dialect) (scope : String) :
    (items : List MessageItem) → BlamesText (MessageItem.membersOfList dialect scope items)
  | [] => .ok _
  | item :: items => by
    apply (blamesText_members dialect scope item).bind
    intro first
    apply (blamesText_membersOfList dialect scope items).bind
    intro others
    apply BlamesText.ok

end

theorem blamesText_dialect (clause : Option DialectClause) :
    BlamesText (DialectClause.dialect clause) := by
  cases clause with
  | none => apply BlamesText.ok
  | some clause =>
    cases clause with
    | byEdition literal =>
      apply (blamesText_ofOptions _).bind
      intro value
      apply BlamesText.ok
    | byName literal =>
      apply (blamesText_ofOptions _).bind
      intro value
      split
      . apply BlamesText.ok
      . apply BlamesText.ok
      . exact .error trivial

theorem blamesText_imports (statements : List Statement) :
    BlamesText (FileTree.imports statements) := by
  induction statements with
  | nil => apply BlamesText.ok
  | cons statement statements ih =>
    cases statement with
    | importFile literal =>
      apply (blamesText_ofOptions _).bind
      intro first
      apply ih.bind
      intro others
      apply BlamesText.ok
    | package _ => exact ih
    | option _ => exact ih
    | message _ _ => exact ih
    | enum _ => exact ih
    | skipped => exact ih

theorem blamesText_definitions (dialect : Schema.Dialect) (package : Option String)
    (statements : List Statement) :
    BlamesText (FileTree.definitions dialect package statements) := by
  induction statements with
  | nil => apply BlamesText.ok
  | cons statement statements ih =>
    cases statement with
    | message name items =>
      have hmessage : BlamesText (message dialect package name items) := by
        apply (blamesText_membersOfList dialect _ items).bind
        intro members
        apply blamesText_toMessage
      apply hmessage.bind
      intro first
      apply ih.bind
      intro others
      apply BlamesText.ok
    | enum decl =>
      apply (blamesText_toEnum package decl).bind
      intro first
      apply ih.bind
      intro others
      apply BlamesText.ok
    | importFile _ => exact ih
    | package _ => exact ih
    | option _ => exact ih
    | skipped => exact ih

theorem blamesText_ofText (name text : String) : BlamesText (Schema.File.ofText name text) := by
  unfold Schema.File.ofText
  split
  . next tree _ =>
    apply (blamesText_dialect tree.dialect).bind
    intro dialect
    apply (blamesText_imports tree.statements).bind
    intro imports
    apply (blamesText_ofOptions _).bind
    intro goPackage
    apply (blamesText_definitions dialect _ tree.statements).bind
    intro definitions
    apply BlamesText.ok
  . exact .error trivial

end Source

end HessianGo
