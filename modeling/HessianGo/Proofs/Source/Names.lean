import HessianGo.Proofs.Except
import HessianGo.Proofs.Reader
import HessianGo.Proofs.Schema.Tree
import HessianGo.Source.Schema

/-!
This module contains the names of the types that a source text declares: behind the package of the
file stands the name of the outermost message or enum, as the text has it, and then the names of the
messages and enums inside.
-/

namespace HessianGo

open Reader (Yields)
open Schema (Declaration)

namespace Source

/-! ### Names in the source tree -/

def IsName (name : String) : Prop :=
  ∃ c cs, name.toList = c :: cs ∧ isNameStart c ∧ ∀ x ∈ cs, isNameChar x

theorem yields_char (p : Char → Bool) : Yields (Reader.char p) (fun c => p c) where
  of_eq_ok {s c rest} h := by
    unfold Reader.char at h
    split at h
    . cases h
    . split at h
      . next hp =>
        cases h
        exact hp
      . cases h

theorem yields_chars (p : Char → Bool) : Yields (Reader.chars p) (fun cs => ∀ x ∈ cs, p x) where
  of_eq_ok {s cs rest} h := by
    cases h
    exact List.all_eq_true.1 List.all_takeWhile

theorem yields_token {α : Type} {P : α → Prop} {p : Reader α} (h : Yields p P) :
    Yields (token p) P where
  of_eq_ok hvalue := h.of_eq_ok hvalue

theorem yields_name : Yields name IsName := by
  apply yields_token
  have hname :
      Yields nameHere (fun s => ∃ c cs, s = c :: cs ∧ isNameStart c ∧ ∀ x ∈ cs, isNameChar x) := by
    apply (yields_char isNameStart).bind
    intro c hc
    apply (yields_chars isNameChar).bind
    intro cs hcs
    exact .pure ⟨c, cs, rfl, hc, hcs⟩
  apply hname.map
  rintro s ⟨c, cs, rfl, hc, hcs⟩
  exact ⟨c, cs, by simp, hc, hcs⟩

def Statement.IsNamed : Statement → Prop
  | .message name _ => IsName name
  | .enum decl => IsName decl.name
  | _ => True

theorem yields_enum (bound : Nat) : Yields (enum bound) (fun decl => IsName decl.name) := by
  apply Yields.after
  intro _
  apply yields_name.bind
  intro name hname
  apply Yields.after
  intro _
  apply Yields.after
  intro items
  apply Yields.after
  intro _
  exact .pure hname

theorem yields_statement (bound : Nat) : Yields (statement bound) Statement.IsNamed := by
  apply Yields.firstOf
  intro p hp
  simp only [List.mem_cons, List.not_mem_nil, or_false] at hp
  rcases hp with rfl | rfl | rfl | rfl | rfl | rfl | rfl | rfl
  . exact .after _ fun _ => .after _ fun _ => .after _ fun _ => .after _ fun _ => .pure .intro
  . exact .after _ fun _ => .after _ fun _ => .after _ fun _ => .pure .intro
  . exact (Yields.trivial _).map fun _ _ => .intro
  . apply Yields.after
    intro _
    apply yields_name.bind
    intro name hname
    exact .after _ fun _ => .after _ fun _ => .after _ fun _ => .pure hname
  . exact (yields_enum bound).map fun _ hname => hname
  . exact (Yields.trivial _).map fun _ _ => .intro
  . exact (Yields.trivial _).map fun _ _ => .intro
  . exact (Yields.trivial _).map fun _ _ => .intro

theorem forall_statements_of_ofText? {P : Statement → Prop}
    (hstatement : ∀ bound, Yields (statement bound) P) {s : List Char} {tree : FileTree}
    (h : FileTree.ofText? s = some tree) : ∀ statement ∈ tree.statements, P statement := by
  have hfile : Yields (file (s.length + 1))
      (fun tree => ∀ statement ∈ tree.statements, P statement) := by
    apply Yields.after
    intro dialect
    apply ((hstatement _).many _).bind
    intro statements hstatements
    exact .after _ fun _ => .pure hstatements
  unfold FileTree.ofText? at h
  split at h
  . next hread =>
    cases h
    exact hfile.of_eq_ok hread
  . cases h

theorem isNamed_of_ofText? {s : List Char} {tree : FileTree} (h : FileTree.ofText? s = some tree) :
    ∀ statement ∈ tree.statements, statement.IsNamed :=
  forall_statements_of_ofText? yields_statement h

/-! ### Full names -/

def Below (scope name : String) : Prop :=
  ∃ rest, name = scope ++ "." ++ rest

theorem Below.trans {outer scope name : String} (h : Below outer scope) (h' : Below scope name) :
    Below outer name := by
  rcases h with ⟨first, rfl⟩
  rcases h' with ⟨second, rfl⟩
  exact ⟨first ++ "." ++ second, by simp only [String.append_assoc]⟩

theorem Below.ne_empty {scope name : String} (h : Below scope name) : name ≠ "" := by
  rcases h with ⟨rest, rfl⟩
  simp

theorem below_qualify {scope : String} (h : scope ≠ "") (name : String) :
    Below scope (Schema.qualify (some scope) name) := by
  refine ⟨name, ?_⟩
  simp [Schema.qualify, h]

def Members.declarations (members : Members) : List Declaration :=
  members.enums.map .enum ++ members.messages.flatMap Schema.Message.declarations

theorem Members.mem_declarations_append {first others : Members} {declaration : Declaration} :
    declaration ∈ (first ++ others).declarations
      ↔
    declaration ∈ first.declarations ∨ declaration ∈ others.declarations := by
  change _ ∈ Members.declarations ⟨_, first.messages ++ others.messages,
    first.enums ++ others.enums, _, _⟩ ↔ _
  simp only [declarations, List.map_append, List.flatMap_append, List.mem_append]
  tauto

theorem Members.declarations_toMessage {members : Members} {name fullName : String}
    {message : Schema.Message} (h : members.toMessage name fullName = .ok message) :
    message.fullName = fullName
      ∧ message.declarations = members.declarations ++ [.message message] := by
  rcases bind_eq_ok_iff.1 h with ⟨options, -, hmessage⟩
  cases hmessage
  refine ⟨rfl, ?_⟩
  rw [Schema.Message.declarations_eq]
  rfl

theorem EnumDecl.fullName_toEnum {parent : Option String} {decl : EnumDecl} {enum : Schema.Enum}
    (h : decl.toEnum parent = .ok enum) : enum.fullName = Schema.qualify parent decl.name := by
  rcases bind_eq_ok_iff.1 h with ⟨values, -, h⟩
  rcases bind_eq_ok_iff.1 h with ⟨options, -, henum⟩
  cases henum
  rfl

-- The recursion is the one of `MessageItem.members`; a message inside makes its own full name the
-- scope of its parts.
mutual

theorem below_of_members {dialect : Schema.Dialect} {scope : String} (hscope : scope ≠ "") :
    {item : MessageItem} → {members : Members} → item.members dialect scope = .ok members →
      ∀ declaration ∈ members.declarations, Below scope declaration.fullName
  | .option assignment, members, h => by
    cases h
    simp [Members.declarations]
  | .field decl, members, h => by
    rcases bind_eq_ok_iff.1 h with ⟨field, -, hmembers⟩
    cases hmembers
    simp [Members.declarations]
  | .mapField decl, members, h => by
    rcases bind_eq_ok_iff.1 h with ⟨field, -, hmembers⟩
    cases hmembers
    intro declaration hdeclaration
    have hentry : declaration = .message (decl.entry scope) := by
      simpa [Members.declarations, Schema.Message.declarations_eq, MapDecl.entry] using hdeclaration
    rw [hentry]
    apply below_qualify hscope
  | .oneof decl, members, h => by
    rcases bind_eq_ok_iff.1 h with ⟨fields, -, hmembers⟩
    cases hmembers
    simp [Members.declarations]
  | .enum decl, members, h => by
    rcases bind_eq_ok_iff.1 h with ⟨enum, henum, hmembers⟩
    cases hmembers
    intro declaration hdeclaration
    have hdeclaration : declaration = .enum enum := by
      simpa [Members.declarations] using hdeclaration
    rw [hdeclaration]
    change Below scope enum.fullName
    rw [EnumDecl.fullName_toEnum henum]
    apply below_qualify hscope
  | .message name items, members, h => by
    rcases bind_eq_ok_iff.1 h with ⟨inner, hinner, h⟩
    rcases bind_eq_ok_iff.1 h with ⟨message, hmessage, hmembers⟩
    cases hmembers
    rcases Members.declarations_toMessage hmessage with ⟨hfullName, hdeclarations⟩
    have hbelow := below_qualify hscope name
    intro declaration hdeclaration
    simp only [Members.declarations, List.map_nil, List.flatMap_cons, List.flatMap_nil,
      List.append_nil, List.nil_append, hdeclarations, List.mem_append, List.mem_singleton]
      at hdeclaration
    rcases hdeclaration with hdeclaration | rfl
    . apply hbelow.trans
      apply below_of_membersOfList hbelow.ne_empty hinner
      simpa [Members.declarations] using hdeclaration
    . rw [Declaration.fullName, hfullName]
      exact hbelow
  | .skipped, members, h => by
    cases h
    simp [Members.declarations]

theorem below_of_membersOfList {dialect : Schema.Dialect} {scope : String} (hscope : scope ≠ "") :
    {items : List MessageItem} → {members : Members} →
      MessageItem.membersOfList dialect scope items = .ok members →
      ∀ declaration ∈ members.declarations, Below scope declaration.fullName
  | [], members, h => by
    cases h
    simp [Members.declarations]
  | item :: items, members, h => by
    rcases bind_eq_ok_iff.1 h with ⟨first, hfirst, h⟩
    rcases bind_eq_ok_iff.1 h with ⟨others, hothers, hmembers⟩
    cases hmembers
    intro declaration hdeclaration
    rcases Members.mem_declarations_append.1 hdeclaration with hdeclaration | hdeclaration
    . exact below_of_members hscope hfirst declaration hdeclaration
    . exact below_of_membersOfList hscope hothers declaration hdeclaration

end

def IsDeclaredIn (package : Option String) (fullName : String) : Prop :=
  ∃ c rest, fullName = Schema.qualify package (String.ofList (c :: rest)) ∧ isNameStart c

theorem qualify_append (parent : Option String) (name rest : String) :
    Schema.qualify parent name ++ rest = Schema.qualify parent (name ++ rest) := by
  unfold Schema.qualify
  split
  . rfl
  . split
    . rfl
    . rw [String.append_assoc]

theorem IsName.isDeclaredIn {name : String} (h : IsName name) (package : Option String) :
    IsDeclaredIn package (Schema.qualify package name) := by
  rcases h with ⟨c, cs, hname, hc, -⟩
  refine ⟨c, cs, ?_, hc⟩
  rw [← hname, String.ofList_toList]

theorem IsDeclaredIn.of_below {package : Option String} {scope name : String}
    (hscope : IsDeclaredIn package scope) (h : Below scope name) : IsDeclaredIn package name := by
  rcases hscope with ⟨c, rest, rfl, hc⟩
  rcases h with ⟨inner, rfl⟩
  refine ⟨c, rest ++ '.' :: inner.toList, ?_, hc⟩
  rw [qualify_append, qualify_append]
  congr 1
  apply String.toList_inj.1
  simp

theorem IsDeclaredIn.ne_empty {package : Option String} {name : String}
    (h : IsDeclaredIn package name) : name ≠ "" := by
  rcases h with ⟨c, rest, rfl, -⟩
  intro hempty
  have := congrArg String.toList hempty
  unfold Schema.qualify at this
  split at this
  . simp at this
  . split at this
    . simp at this
    . simp at this

theorem isDeclaredIn_of_message {dialect : Schema.Dialect} {package : Option String} {name : String}
    {items : List MessageItem} {result : Schema.Message} (hname : IsName name)
    (h : message dialect package name items = .ok result) :
    ∀ declaration ∈ result.declarations, IsDeclaredIn package declaration.fullName := by
  have houter := hname.isDeclaredIn package
  rcases bind_eq_ok_iff.1 h with ⟨members, hmembers, hresult⟩
  rcases Members.declarations_toMessage hresult with ⟨hfullName, hdeclarations⟩
  intro declaration hdeclaration
  rw [hdeclarations, List.mem_append, List.mem_singleton] at hdeclaration
  rcases hdeclaration with hdeclaration | rfl
  . apply houter.of_below
    exact below_of_membersOfList houter.ne_empty hmembers declaration hdeclaration
  . rw [Declaration.fullName, hfullName]
    exact houter

theorem isDeclaredIn_of_definitions {dialect : Schema.Dialect} {package : Option String}
    {statements : List Statement} (hnamed : ∀ statement ∈ statements, statement.IsNamed)
    {messages : List Schema.Message} {enums : List Schema.Enum}
    (h : FileTree.definitions dialect package statements = .ok (messages, enums)) :
    (∀ message ∈ messages, ∀ declaration ∈ message.declarations,
      IsDeclaredIn package declaration.fullName)
    ∧ ∀ enum ∈ enums, IsDeclaredIn package enum.fullName := by
  induction statements generalizing messages enums with
  | nil =>
    cases h
    simp
  | cons statement statements ih =>
    simp only [List.mem_cons, forall_eq_or_imp] at hnamed
    rcases hnamed with ⟨hnamed, hothers⟩
    cases statement with
    | message name items =>
      rcases bind_eq_ok_iff.1 h with ⟨first, hfirst, h⟩
      rcases bind_eq_ok_iff.1 h with ⟨⟨others, enums⟩, hrest, hresult⟩
      cases hresult
      rcases ih hothers hrest with ⟨hmessages, henums⟩
      simp only [List.mem_cons, forall_eq_or_imp]
      exact ⟨⟨isDeclaredIn_of_message hnamed hfirst, hmessages⟩, henums⟩
    | enum decl =>
      rcases bind_eq_ok_iff.1 h with ⟨first, hfirst, h⟩
      rcases bind_eq_ok_iff.1 h with ⟨⟨messages, others⟩, hrest, hresult⟩
      cases hresult
      rcases ih hothers hrest with ⟨hmessages, henums⟩
      simp only [List.mem_cons, forall_eq_or_imp]
      refine ⟨hmessages, ?_, henums⟩
      rw [EnumDecl.fullName_toEnum hfirst]
      exact IsName.isDeclaredIn hnamed package
    | importFile literal => exact ih hothers h
    | package name => exact ih hothers h
    | option assignment => exact ih hothers h
    | skipped => exact ih hothers h

theorem isDeclaredIn_of_toFile {tree : FileTree} {name : String} {file : Schema.File}
    (hnamed : ∀ statement ∈ tree.statements, statement.IsNamed) (h : tree.toFile name = .ok file) :
    ∀ declaration ∈ file.declarations, IsDeclaredIn file.package declaration.fullName := by
  rcases bind_eq_ok_iff.1 h with ⟨dialect, -, h⟩
  rcases bind_eq_ok_iff.1 h with ⟨imports, -, h⟩
  rcases bind_eq_ok_iff.1 h with ⟨goPackage, -, h⟩
  rcases bind_eq_ok_iff.1 h with ⟨⟨messages, enums⟩, hdefinitions, hfile⟩
  cases hfile
  rcases isDeclaredIn_of_definitions hnamed hdefinitions with ⟨hmessages, henums⟩
  intro declaration hdeclaration
  simp only [Schema.File.declarations, List.mem_append, List.mem_map, List.mem_flatMap]
    at hdeclaration
  rcases hdeclaration with ⟨enum, henum, rfl⟩ | ⟨message, hmessage, hdeclaration⟩
  . exact henums enum henum
  . exact hmessages message hmessage declaration hdeclaration

end Source

theorem Schema.File.isDeclaredIn_of_ofText {name text : String} {file : Schema.File}
    (h : Schema.File.ofText name text = .ok file) :
    ∀ declaration ∈ file.declarations,
      Source.IsDeclaredIn file.package declaration.fullName := by
  unfold Schema.File.ofText at h
  split at h
  . next tree htree => exact Source.isDeclaredIn_of_toFile (Source.isNamed_of_ofText? htree) h
  . cases h

end HessianGo
