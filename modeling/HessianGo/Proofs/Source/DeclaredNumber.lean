import HessianGo.Proofs.Code.TypeName
import HessianGo.Proofs.Source.Declared
import HessianGo.Proofs.Source.IntegerLiteral

/-!
This module contains what becomes of the number that is written in one place of a file, be it that
of a field or of an enum value. Unless something else is at fault, the file has the integer that the
literal denotes, or it is refused for this literal.
-/

namespace HessianGo

namespace Source

open Schema (Error)

/-! ### Places of numbers -/

/--
`FieldPart name part`: for every literal, the part of a message declares a field of that name with
the literal as its number.
-/
inductive FieldPart (name : String) : (String → MessageItem) → Prop where
  | alone {decl : FieldDecl} :
    decl.name = name → FieldPart name fun literal => .field { decl with number := literal }
  | map {decl : MapDecl} :
    decl.name = name → FieldPart name fun literal => .mapField { decl with number := literal }
  | grouped {group : String} {before after : List OneofItem} {decl : FieldDecl} :
    decl.name = name → FieldPart name fun literal => .oneof
      { name := group, items := before ++ .field { decl with number := literal } :: after }

inductive EnumWith (enum name : String) : (String → EnumDecl) → Prop where
  | mk {before after : List EnumItem} :
    EnumWith enum name fun literal =>
      { name := enum, items := before ++ .value name literal :: after }

/--
`EnumPart enum name part`: the part of a message declares such an enum.
-/
inductive EnumPart (enum name : String) : (String → MessageItem) → Prop where
  | mk {decl : String → EnumDecl} :
    EnumWith enum name decl → EnumPart enum name fun literal => .enum (decl literal)

/--
`InMessage Part chain items`: among the parts of a message, or of the message inside it that the
chain of names leads to, is one that a literal is written in.
-/
inductive InMessage (Part : (String → MessageItem) → Prop) :
    List String → (String → List MessageItem) → Prop where
  | here {before after : List MessageItem} {part : String → MessageItem} :
    Part part → InMessage Part [] fun literal => before ++ part literal :: after
  | inside {before after : List MessageItem} {name : String} {chain : List String}
    {items : String → List MessageItem} :
    InMessage Part chain items →
      InMessage Part (name :: chain) fun literal => before ++ .message name (items literal) :: after

/--
`FieldPlace name chain tree`: for every literal, the tree declares a field of that name, with the
literal as its number, in the message that the chain of names leads to.
-/
inductive FieldPlace (name : String) : List String → (String → FileTree) → Prop where
  | mk {dialect : Option DialectClause} {before after : List Statement} {top : String}
    {chain : List String} {items : String → List MessageItem} :
    InMessage (FieldPart name) chain items →
      FieldPlace name (top :: chain) fun literal =>
        { dialect, statements := before ++ .message top (items literal) :: after }

/--
`ValuePlace name chain tree`: for every literal, the tree declares a value of that name, with the
literal as its number, in the enum that the chain of names leads to.
-/
inductive ValuePlace (name : String) : List String → (String → FileTree) → Prop where
  | top {dialect : Option DialectClause} {before after : List Statement} {enum : String}
    {decl : String → EnumDecl} :
    EnumWith enum name decl →
      ValuePlace name [enum] fun literal =>
        { dialect, statements := before ++ .enum (decl literal) :: after }
  | inside {dialect : Option DialectClause} {before after : List Statement} {top enum : String}
    {chain : List String} {items : String → List MessageItem} :
    InMessage (EnumPart enum name) chain items →
      ValuePlace name (top :: chain ++ [enum]) fun literal =>
        { dialect, statements := before ++ .message top (items literal) :: after }

/-! ### Computations that take a number -/

/--
`DecidedBy number Holds result`: unless there is a fault before it, the literal decides the result
by the number that it stands for, and by nothing else. What is made of a number holds `Holds`.
-/
inductive DecidedBy {N α : Type} (number : String → Except Error N) (Holds : N → α → Prop)
    (result : String → Except Error α) : Prop where
  | early {error : Error} :
    (∀ literal, result literal = .error error) → DecidedBy number Holds result
  | late {error : Error} :
    (∀ literal, result literal = number literal >>= fun _ => .error error) →
      DecidedBy number Holds result
  | made {make : N → α} :
    (∀ literal, result literal = make <$> number literal) → (∀ n, Holds n (make n)) →
      DecidedBy number Holds result

namespace DecidedBy

variable {N α β γ : Type} {number : String → Except Error N} {Holds : N → α → Prop}
  {Holds' : N → β → Prop}

theorem self : DecidedBy number (fun n value => value = n) number :=
  .made (fun literal => (id_map (number literal)).symm) fun _ => rfl

theorem after {first : Except Error β} {result : β → String → Except Error α}
    (h : ∀ value, first = .ok value → DecidedBy number Holds (result value)) :
    DecidedBy number Holds fun literal => first >>= fun value => result value literal := by
  cases first with
  | error error => exact .early fun _ => rfl
  | ok value => exact h value rfl

theorem bind {result : String → Except Error α} (h : DecidedBy number Holds result)
    {next : α → Except Error β} (later : Except Error γ) (make : α → γ → β)
    (hnext : ∀ n value, Holds n value → next value = later >>= fun other => .ok (make value other))
    (hmake : ∀ n value other, later = .ok other → Holds n value → Holds' n (make value other)) :
    DecidedBy number Holds' fun literal => result literal >>= next := by
  cases h with
  | early h =>
    apply early
    intro literal
    rw [h]
    rfl
  | late h =>
    apply late
    intro literal
    rw [h, bind_assoc]
    rfl
  | @made found h hfound =>
    have hresult : ∀ literal, (result literal >>= next)
        = number literal >>= fun n => later >>= fun other => .ok (make (found n) other) := by
      intro literal
      rw [h, bind_map_left]
      congr 1
      funext n
      exact hnext n _ (hfound n)
    cases later with
    | error error => exact late hresult
    | ok other => exact made hresult fun n => hmake n _ other rfl (hfound n)

theorem map {result : String → Except Error α} (h : DecidedBy number Holds result) {f : α → β}
    (hf : ∀ n value, Holds n value → Holds' n (f value)) :
    DecidedBy number Holds' fun literal => result literal >>= fun value => pure (f value) :=
  h.bind (pure ()) (fun value _ => f value) (fun _ _ _ => rfl) fun n value _ _ => hf n value

end DecidedBy

/-! ### Fields and enums -/

def HasField (name : String) (number : UInt32) (fields : List Schema.Field) : Prop :=
  ∃ field ∈ fields, field.name = name ∧ field.number = number

def HasValue (enum name : String) (number : Int32) (enums : List Schema.Enum) : Prop :=
  ∃ found ∈ enums, found.name = enum
    ∧ ∃ value ∈ found.values, value.name = name ∧ value.number = number

theorem decidedBy_toField (dialect : Schema.Dialect) (oneof : Option String) (decl : FieldDecl) :
    DecidedBy IntegerLiteral.fieldNumber
      (fun number field => field.name = decl.name ∧ field.number = number)
      fun literal => FieldDecl.toField dialect oneof { decl with number := literal } := by
  unfold FieldDecl.toField
  dsimp only
  refine DecidedBy.self.bind
    (do
      let value ← ofOptions (defaultValue dialect decl.type decl.options)
      let options ← ofOptions (fieldBlock.read decl.options)
      return (value, options))
    (fun number others => ({
      name := decl.name, number, label := decl.label, type := decl.type, oneof
      defaultValue := others.1, options := others.2 } : Schema.Field))
    ?_ ?_
  . intro _ number _
    simp only [bind_assoc, pure_bind]
    rfl
  . rintro _ number others - rfl
    exact ⟨rfl, rfl⟩

theorem decidedBy_mapField (parent : String) (decl : MapDecl) :
    DecidedBy IntegerLiteral.fieldNumber
      (fun number field => field.name = decl.name ∧ field.number = number)
      fun literal => MapDecl.toField parent { decl with number := literal } := by
  unfold MapDecl.toField MapDecl.entry
  dsimp only
  refine DecidedBy.self.bind (ofOptions (fieldBlock.read decl.options))
    (fun number options => ({
      name := decl.name, number, label := .repeated, options
      type := .message (decl.entry parent).fullName } : Schema.Field))
    ?_ ?_
  . intro _ number _
    rfl
  . rintro _ number options - rfl
    exact ⟨rfl, rfl⟩

theorem toFields_go_congr {dialect : Schema.Dialect} {group other : OneofDecl}
    (h : group.name = other.name) (items : List OneofItem) :
    OneofDecl.toFields.go dialect group items = OneofDecl.toFields.go dialect other items := by
  induction items with
  | nil => rfl
  | cons item items ih =>
    cases item with
    | skipped => exact ih
    | field field => simp only [OneofDecl.toFields.go, h, ih]

theorem decidedBy_toFields (dialect : Schema.Dialect) (group : String)
    (before after : List OneofItem) (decl : FieldDecl) :
    DecidedBy IntegerLiteral.fieldNumber (HasField decl.name) fun literal =>
      OneofDecl.toFields dialect
        { name := group, items := before ++ .field { decl with number := literal } :: after } := by
  unfold OneofDecl.toFields
  have hgroup : ∀ items, OneofDecl.toFields.go dialect ⟨group, items⟩ items
      = OneofDecl.toFields.go dialect ⟨group, []⟩ items := by
    intro items
    apply toFields_go_congr
    rfl
  simp only [hgroup]
  induction before with
  | nil =>
    refine (decidedBy_toField dialect (some group) decl).bind
      (OneofDecl.toFields.go dialect ⟨group, []⟩ after) List.cons ?_ ?_
    . intro number field _
      rfl
    . intro number field others _ hfield
      exact ⟨field, List.mem_cons_self, hfield⟩
  | cons item before ih =>
    cases item with
    | skipped => exact ih
    | field field =>
      refine DecidedBy.after fun first _ => ?_
      apply ih.map
      rintro number others ⟨found, hmem, hfound⟩
      exact ⟨found, List.mem_cons_of_mem _ hmem, hfound⟩

theorem decidedBy_values (before after : List EnumItem) (name : String) :
    DecidedBy IntegerLiteral.enumNumber
      (fun number values => ∃ value ∈ values, value.name = name ∧ value.number = number)
      fun literal => EnumDecl.values (before ++ .value name literal :: after) := by
  induction before with
  | nil =>
    refine DecidedBy.self.bind (EnumDecl.values after)
      (fun number others => { name, number } :: others) ?_ ?_
    . intro _ number _
      rfl
    . rintro _ number others - rfl
      exact ⟨_, List.mem_cons_self, rfl, rfl⟩
  | cons item before ih =>
    cases item with
    | option _ => exact ih
    | skipped => exact ih
    | value first literal =>
      refine DecidedBy.after fun number _ => ?_
      apply ih.map
      rintro _ others ⟨found, hmem, hfound⟩
      exact ⟨found, List.mem_cons_of_mem _ hmem, hfound⟩

theorem EnumWith.decidedBy {enum name : String} {decl : String → EnumDecl}
    (h : EnumWith enum name decl) (parent : Option String) :
    DecidedBy IntegerLiteral.enumNumber (fun number found => HasValue enum name number [found])
      fun literal => (decl literal).toEnum parent := by
  cases h with
  | @mk before after =>
    have hassignments : ∀ literal,
        EnumDecl.assignments { name := enum, items := before ++ .value name literal :: after }
          = EnumDecl.assignments { name := enum, items := before ++ after } := by
      intro literal
      simp [EnumDecl.assignments]
    unfold EnumDecl.toEnum
    simp only [hassignments]
    refine (decidedBy_values before after name).bind
      (ofOptions (enumBlock.read (EnumDecl.assignments { name := enum, items := before ++ after })))
      (fun values options =>
        { name := enum, fullName := Schema.qualify parent enum, values, options }) ?_ ?_
    . intro number values _
      rfl
    . intro number values options _ hvalues
      exact ⟨_, List.mem_singleton_self _, rfl, hvalues⟩

/-! ### Messages -/

/--
`HasAt P chain fields messages enums`: the fields and enums that the chain of names leads to, from
the given ones on, satisfy `P`.
-/
def HasAt (P : List Schema.Field → List Schema.Enum → Prop) :
    List String → List Schema.Field → List Schema.Message → List Schema.Enum → Prop
  | [], fields, _, enums => P fields enums
  | name :: chain, _, messages, _ =>
    ∃ message ∈ messages, message.name = name
      ∧ HasAt P chain message.fields message.messages message.enums

def Grows (P : List Schema.Field → List Schema.Enum → Prop) : Prop :=
  ∀ ⦃fields others enums others'⦄, fields ⊆ others → enums ⊆ others' → P fields enums →
    P others others'

theorem HasAt.mono {P : List Schema.Field → List Schema.Enum → Prop} (hP : Grows P)
    {chain : List String} {fields others : List Schema.Field}
    {messages others' : List Schema.Message} {enums others'' : List Schema.Enum}
    (h : HasAt P chain fields messages enums) (hfields : fields ⊆ others)
    (hmessages : messages ⊆ others') (henums : enums ⊆ others'') :
    HasAt P chain others others' others'' := by
  cases chain with
  | nil => exact hP hfields henums h
  | cons name chain =>
    rcases h with ⟨message, hmem, hmessage⟩
    exact ⟨message, hmessages hmem, hmessage⟩

def Members.HasAt (P : List Schema.Field → List Schema.Enum → Prop) (chain : List String)
    (members : Members) : Prop :=
  Source.HasAt P chain members.fields members.messages members.enums

theorem Members.HasAt.append_right {P : List Schema.Field → List Schema.Enum → Prop} (hP : Grows P)
    {chain : List String} {members : Members} (h : members.HasAt P chain) (others : Members) :
    (members ++ others).HasAt P chain :=
  h.mono hP (List.subset_append_left _ _) (List.subset_append_left _ _)
    (List.subset_append_left _ _)

theorem Members.HasAt.append_left {P : List Schema.Field → List Schema.Enum → Prop} (hP : Grows P)
    {chain : List String} {members : Members} (h : members.HasAt P chain) (others : Members) :
    (others ++ members).HasAt P chain :=
  h.mono hP (List.subset_append_right _ _) (List.subset_append_right _ _)
    (List.subset_append_right _ _)

theorem exists_of_ok {ε α β : Type} [Nonempty β] (outcome : Except ε α) (f : α → β) :
    ∃ b, ∀ value, outcome = .ok value → f value = b := by
  cases outcome with
  | error error => exact ⟨Classical.arbitrary β, nofun⟩
  | ok value =>
    refine ⟨f value, ?_⟩
    rintro _ ⟨⟩
    rfl

section

variable {N : Type} {number : String → Except Error N}
  {P : N → List Schema.Field → List Schema.Enum → Prop} {chain : List String}
  {assignments : List OptionAssignment} {dialect : Schema.Dialect}

theorem decidedBy_toMessage {result : String → Except Error Members}
    (h : DecidedBy number
      (fun n members => members.assignments = assignments ∧ members.HasAt (P n) chain) result)
    (name fullName : String) :
    DecidedBy number
      (fun n message => message.name = name
        ∧ HasAt (P n) chain message.fields message.messages message.enums)
      fun literal => result literal >>= Members.toMessage name fullName := by
  refine h.bind (ofOptions (messageBlock.read assignments))
    (fun members options => ({
      name, fullName, fields := members.fields, messages := members.messages
      enums := members.enums, oneofs := members.oneofs, options } : Schema.Message)) ?_ ?_
  . rintro n members ⟨rfl, -⟩
    rfl
  . rintro n members options - ⟨-, hhas⟩
    exact ⟨rfl, hhas⟩

variable (hP : ∀ n, Grows (P n))

include hP

theorem decidedBy_membersOfList {scope : String} {part : String → MessageItem}
    (h : DecidedBy number
      (fun n members => members.assignments = [] ∧ members.HasAt (P n) chain)
      fun literal => (part literal).members dialect scope)
    (before after : List MessageItem) :
    ∃ assignments, DecidedBy number
      (fun n members => members.assignments = assignments ∧ members.HasAt (P n) chain)
      fun literal =>
        MessageItem.membersOfList dialect scope (before ++ part literal :: after) := by
  -- The block of a message is read from all assignments in it, so none may depend on the number.
  induction before with
  | nil =>
    let later := MessageItem.membersOfList dialect scope after
    rcases exists_of_ok later Members.assignments with ⟨assignments, hassignments⟩
    refine ⟨assignments, h.bind later (fun first others => first ++ others) ?_ ?_⟩
    . intro n first _
      rfl
    . rintro n first others hothers ⟨hnone, hhas⟩
      refine ⟨?_, hhas.append_right (hP n) others⟩
      change first.assignments ++ others.assignments = assignments
      rw [hnone, hassignments others hothers]
      rfl
  | cons item before ih =>
    rcases ih with ⟨assignments, ih⟩
    rcases exists_of_ok (item.members dialect scope) Members.assignments with ⟨own, hown⟩
    refine ⟨own ++ assignments, DecidedBy.after fun first hfirst => ?_⟩
    apply ih.map
    rintro n others ⟨hothers, hhas⟩
    refine ⟨?_, hhas.append_left (hP n) first⟩
    change first.assignments ++ others.assignments = own ++ assignments
    rw [hown first hfirst, hothers]

theorem InMessage.decidedBy {Part : (String → MessageItem) → Prop}
    (hpart : ∀ part scope, Part part → DecidedBy number
      (fun n members => members.assignments = [] ∧ members.HasAt (P n) [])
      fun literal => (part literal).members dialect scope)
    {items : String → List MessageItem} (h : InMessage Part chain items) (scope : String) :
    ∃ assignments, DecidedBy number
      (fun n members => members.assignments = assignments ∧ members.HasAt (P n) chain)
      fun literal => MessageItem.membersOfList dialect scope (items literal) := by
  induction h generalizing scope with
  | @here before after part h => exact decidedBy_membersOfList hP (hpart part scope h) before after
  | @inside before after name chain items _ ih =>
    -- To the message around it, the message inside is one more part.
    rcases ih (Schema.qualify (some scope) name) with ⟨assignments, ih⟩
    apply decidedBy_membersOfList hP
    simp only [MessageItem.members, ← bind_assoc]
    apply (decidedBy_toMessage ih name _).map
    intro n message hmessage
    exact ⟨rfl, message, List.mem_singleton_self _, hmessage⟩

end

theorem FieldPart.decidedBy {name : String} {part : String → MessageItem}
    (h : FieldPart name part) (dialect : Schema.Dialect) (scope : String) :
    DecidedBy IntegerLiteral.fieldNumber
      (fun n members => members.assignments = []
        ∧ members.HasAt (fun fields _ => HasField name n fields) [])
      fun literal => (part literal).members dialect scope := by
  cases h with
  | @alone decl hname =>
    subst hname
    apply (decidedBy_toField dialect none decl).map
    intro n field hfield
    exact ⟨rfl, field, List.mem_singleton_self _, hfield⟩
  | @map decl hname =>
    subst hname
    simp only [MessageItem.members, MapDecl.entry]
    apply (decidedBy_mapField scope decl).map
    intro n field hfield
    exact ⟨rfl, field, List.mem_singleton_self _, hfield⟩
  | @grouped group before after decl hname =>
    subst hname
    simp only [MessageItem.members]
    apply (decidedBy_toFields dialect group before after decl).map
    intro n fields hfields
    exact ⟨rfl, hfields⟩

theorem EnumPart.decidedBy {enum name : String} {part : String → MessageItem}
    (h : EnumPart enum name part) (dialect : Schema.Dialect) (scope : String) :
    DecidedBy IntegerLiteral.enumNumber
      (fun n members => members.assignments = []
        ∧ members.HasAt (fun _ enums => HasValue enum name n enums) [])
      fun literal => (part literal).members dialect scope := by
  cases h with
  | mk hdecl =>
    apply (hdecl.decidedBy (some scope)).map
    intro n found hfound
    exact ⟨rfl, hfound⟩

/-! ### Files -/

theorem decidedBy_definitions {N : Type} {number : String → Except Error N}
    {P : N → List Schema.Field → List Schema.Enum → Prop} (hP : ∀ n, Grows (P n))
    {chain : List String} {dialect : Schema.Dialect} {package : Option String}
    {statements : String → List Statement}
    (h : DecidedBy number (fun n found => HasAt (P n) chain [] found.1 found.2)
      fun literal => FileTree.definitions dialect package (statements literal))
    (before : List Statement) :
    DecidedBy number (fun n found => HasAt (P n) chain [] found.1 found.2)
      fun literal => FileTree.definitions dialect package (before ++ statements literal) := by
  induction before with
  | nil => exact h
  | cons statement before ih =>
    cases statement with
    | message name items =>
      refine DecidedBy.after fun first _ => ?_
      apply ih.map
      intro n others hothers
      exact hothers.mono (hP n) (List.nil_subset _) (List.subset_cons_self _ _) (List.Subset.refl _)
    | enum decl =>
      refine DecidedBy.after fun first _ => ?_
      apply ih.map
      intro n others hothers
      exact hothers.mono (hP n) (List.nil_subset _) (List.Subset.refl _) (List.subset_cons_self _ _)
    | importFile literal => exact ih
    | package name => exact ih
    | option assignment => exact ih
    | skipped => exact ih

def Statement.IsDefinition : Statement → Prop
  | .message _ _ | .enum _ => True
  | _ => False

namespace Statement.IsDefinition

variable {statement : Statement} (h : statement.IsDefinition) (before after : List Statement)

include h

theorem imports_eq :
    FileTree.imports (before ++ statement :: after) = FileTree.imports (before ++ after) := by
  induction before with
  | nil =>
    cases statement with
    | message => rfl
    | enum => rfl
    | _ => cases h
  | cons first before ih =>
    cases first with
    | importFile literal => simp only [List.cons_append, FileTree.imports, ih]
    | _ => exact ih

theorem package?_eq (dialect : Option DialectClause) :
    FileTree.package? ⟨dialect, before ++ statement :: after⟩
      =
    FileTree.package? ⟨dialect, before ++ after⟩ := by
  cases statement with
  | message => simp [FileTree.package?]
  | enum => simp [FileTree.package?]
  | _ => cases h

theorem assignments_eq (dialect : Option DialectClause) :
    FileTree.assignments ⟨dialect, before ++ statement :: after⟩
      =
    FileTree.assignments ⟨dialect, before ++ after⟩ := by
  cases statement with
  | message => simp [FileTree.assignments]
  | enum => simp [FileTree.assignments]
  | _ => cases h

end Statement.IsDefinition

theorem decidedBy_toFile {N : Type} {number : String → Except Error N}
    {P : N → List Schema.Field → List Schema.Enum → Prop} {chain : List String}
    {clause : Option DialectClause} {before after : List Statement}
    {statement : String → Statement} (hstatement : ∀ literal, (statement literal).IsDefinition)
    (h : ∀ dialect package, DecidedBy number
      (fun n found => HasAt (P n) chain [] found.1 found.2)
      fun literal =>
        FileTree.definitions dialect package (before ++ statement literal :: after))
    (name : String) :
    DecidedBy number (fun n file => HasAt (P n) chain [] file.messages file.enums)
      fun literal => FileTree.toFile name
        { dialect := clause, statements := before ++ statement literal :: after } := by
  have himports := fun literal => (hstatement literal).imports_eq before after
  have hpackage := fun literal => (hstatement literal).package?_eq before after clause
  have hassignments := fun literal => (hstatement literal).assignments_eq before after clause
  unfold FileTree.toFile
  simp only [himports, hpackage, hassignments]
  refine DecidedBy.after fun dialect _ => ?_
  refine DecidedBy.after fun imports _ => ?_
  refine DecidedBy.after fun goPackage _ => ?_
  apply (h dialect _).map
  intro n found hfound
  exact hfound

theorem decidedBy_topMessage {N : Type} {number : String → Except Error N}
    {P : N → List Schema.Field → List Schema.Enum → Prop} (hP : ∀ n, Grows (P n))
    {Part : (String → MessageItem) → Prop}
    (hpart : ∀ dialect part scope, Part part → DecidedBy number
      (fun n members => members.assignments = [] ∧ members.HasAt (P n) [])
      fun literal => (part literal).members dialect scope)
    {chain : List String} {items : String → List MessageItem} (h : InMessage Part chain items)
    (clause : Option DialectClause) (before after : List Statement) (top name : String) :
    DecidedBy number (fun n file => HasAt (P n) (top :: chain) [] file.messages file.enums)
      fun literal => FileTree.toFile name
        { dialect := clause, statements := before ++ .message top (items literal) :: after } := by
  apply decidedBy_toFile
  . exact fun _ => trivial
  . intro dialect package
    refine decidedBy_definitions hP ?_ before
    rcases h.decidedBy hP (hpart dialect) (Schema.qualify package top) with ⟨assignments, hitems⟩
    refine (decidedBy_toMessage hitems top (Schema.qualify package top)).bind
      (FileTree.definitions dialect package after)
      (fun first others => (first :: others.1, others.2)) ?_ ?_
    . intro n first _
      rfl
    . rintro n first others - hfirst
      exact ⟨first, List.mem_cons_self, hfirst⟩

theorem grows_hasField (name : String) (number : UInt32) :
    Grows fun fields _ => HasField name number fields := by
  rintro fields others enums others' hfields - ⟨field, hmem, hfield⟩
  exact ⟨field, hfields hmem, hfield⟩

theorem grows_hasValue (enum name : String) (number : Int32) :
    Grows fun _ enums => HasValue enum name number enums := by
  rintro fields others enums others' - henums ⟨found, hmem, hfound⟩
  exact ⟨found, henums hmem, hfound⟩

theorem EnumWith.decidedBy_toFile {enum value : String} {decl : String → EnumDecl}
    (h : EnumWith enum value decl) (clause : Option DialectClause)
    (before after : List Statement) (name : String) :
    DecidedBy IntegerLiteral.enumNumber
      (fun n file =>
        HasAt (fun _ enums => HasValue enum value n enums) [] [] file.messages file.enums)
      fun literal => FileTree.toFile name
        { dialect := clause, statements := before ++ .enum (decl literal) :: after } := by
  apply Source.decidedBy_toFile
  . exact fun _ => trivial
  . intro dialect package
    refine decidedBy_definitions (grows_hasValue enum value) ?_ before
    refine (h.decidedBy package).bind (FileTree.definitions dialect package after)
      (fun first others => (others.1, first :: others.2)) ?_ ?_
    . intro n first _
      rfl
    . rintro n first others - hfirst
      exact grows_hasValue enum value n (List.nil_subset []) (by simp) hfirst

theorem exists_located_of_hasAt {P : List Schema.Field → List Schema.Enum → Prop}
    {file : Schema.File} {outer chain : List String} {message : Schema.Message}
    (hlocated : Located file outer message)
    (h : HasAt P chain message.fields message.messages message.enums) :
    ∃ target, Located file (outer ++ chain) target ∧ P target.fields target.enums := by
  induction chain generalizing outer message with
  | nil => exact ⟨message, by rwa [List.append_nil], h⟩
  | cons name chain ih =>
    rcases h with ⟨inner, hmem, rfl, h⟩
    rcases ih (hlocated.inner hmem) h with ⟨target, htarget, hP⟩
    exact ⟨target, by rwa [List.append_assoc] at htarget, hP⟩

theorem exists_located_of_hasAt_top {P : List Schema.Field → List Schema.Enum → Prop}
    {file : Schema.File} {top : String} {chain : List String}
    (h : HasAt P (top :: chain) [] file.messages file.enums) :
    ∃ target, Located file (top :: chain) target ∧ P target.fields target.enums := by
  rcases h with ⟨message, hmem, rfl, h⟩
  exact exists_located_of_hasAt (.top hmem) h

/-! ### Numbers in texts -/

def HasFieldAt (chain : List String) (name : String) (number : Int) (file : Schema.File) : Prop :=
  ∃ message, Located file chain message
    ∧ ∃ field ∈ message.fields, field.name = name ∧ field.number.toNat = number

def HasValueAt (chain : List String) (name : String) (number : Int) (file : Schema.File) : Prop :=
  ∃ enum, file.DeclaresAt chain (.enum enum)
    ∧ ∃ value ∈ enum.values, value.name = name ∧ value.number.toInt = number

/--
`ReadsExactly tree name InRange Holds`: of the texts with these trees, those with a number in range
are read to files that have this number, and each other one is refused for its literal. If something
else in them is at fault, it is met before the number, whatever that is, or else after it.
-/
inductive ReadsExactly (tree : String → FileTree) (name : String) (InRange : Int → Prop)
    (Holds : Int → Schema.File → Prop) : Prop where
  | early {error : Error} :
    (∀ text literal, FileTree.ofText? text.toList = some (tree literal) →
      Schema.File.ofText name text = .error error) →
    ReadsExactly tree name InRange Holds
  | late {error : Error} :
    (∀ text literal v, FileTree.ofText? text.toList = some (tree literal) →
      IsInteger literal.toList v →
        (InRange v → Schema.File.ofText name text = .error error)
          ∧ (¬InRange v → Schema.File.ofText name text = .error (.integerOutOfRange literal))) →
    ReadsExactly tree name InRange Holds
  | made {file : Int → Schema.File} :
    (∀ text literal v, FileTree.ofText? text.toList = some (tree literal) →
      IsInteger literal.toList v →
        (InRange v → Schema.File.ofText name text = .ok (file v))
          ∧ (¬InRange v → Schema.File.ofText name text = .error (.integerOutOfRange literal))) →
    (∀ v, InRange v → Holds v (file v)) →
    ReadsExactly tree name InRange Holds

theorem DecidedBy.readsExactly {N : Type} {number : String → Except Error N}
    {Holds : N → Schema.File → Prop} {tree : String → FileTree} {name : String}
    (h : DecidedBy number Holds fun literal => (tree literal).toFile name)
    {InRange : Int → Prop} [DecidablePred InRange] {ofInt : Int → N}
    (hnumber : ∀ {literal v}, IsInteger literal.toList v → number literal
      = if InRange v then .ok (ofInt v) else .error (.integerOutOfRange literal))
    {Holds' : Int → Schema.File → Prop}
    (hholds : ∀ v file, InRange v → Holds (ofInt v) file → Holds' v file) :
    ReadsExactly tree name InRange Holds' := by
  cases h with
  | early h =>
    apply ReadsExactly.early
    intro text literal htree
    rw [Schema.File.ofText_eq_toFile htree, h]
  | late h =>
    apply ReadsExactly.late
    intro text literal v htree hv
    rw [Schema.File.ofText_eq_toFile htree, h, hnumber hv]
    constructor
    . intro hrange
      rw [if_pos hrange]
      rfl
    . intro hrange
      rw [if_neg hrange]
      rfl
  | @made make h hmake =>
    apply ReadsExactly.made
    . intro text literal v htree hv
      rw [Schema.File.ofText_eq_toFile htree, h, hnumber hv]
      constructor
      . intro hrange
        rw [if_pos hrange]
        rfl
      . intro hrange
        rw [if_neg hrange]
        rfl
    . intro v hrange
      exact hholds v _ hrange (hmake (ofInt v))

theorem ReadsExactly.of_eq_ok {tree : String → FileTree} {name : String} {InRange : Int → Prop}
    {Holds : Int → Schema.File → Prop} (h : ReadsExactly tree name InRange Holds)
    {text literal : String} {v : Int} {file : Schema.File}
    (htree : FileTree.ofText? text.toList = some (tree literal)) (hv : IsInteger literal.toList v)
    (hfile : Schema.File.ofText name text = .ok file) :
    (InRange v ∧ Holds v file)
      ∧ ∀ text literal v, FileTree.ofText? text.toList = some (tree literal) →
        IsInteger literal.toList v → ¬InRange v →
          Schema.File.ofText name text = .error (.integerOutOfRange literal) := by
  cases h with
  | early h =>
    rw [h text literal htree] at hfile
    cases hfile
  | late h =>
    by_cases hrange : InRange v
    . rw [(h text literal v htree hv).1 hrange] at hfile
      cases hfile
    . rw [(h text literal v htree hv).2 hrange] at hfile
      cases hfile
  | made h hholds =>
    refine ⟨?_, fun text literal v htree hv => (h text literal v htree hv).2⟩
    by_cases hrange : InRange v
    . rw [(h text literal v htree hv).1 hrange] at hfile
      cases hfile
      exact ⟨hrange, hholds v hrange⟩
    . rw [(h text literal v htree hv).2 hrange] at hfile
      cases hfile

theorem FieldPlace.readsExactly {field : String} {chain : List String} {tree : String → FileTree}
    (h : FieldPlace field chain tree) (name : String) :
    ReadsExactly tree name (fun v => 0 ≤ v ∧ v < 2 ^ 32) (HasFieldAt chain field) := by
  cases h with
  | @mk dialect before after top chain items hitems =>
    have htree := decidedBy_topMessage (grows_hasField field)
      (fun dialect _ scope hpart => hpart.decidedBy dialect scope)
      hitems dialect before after top name
    apply htree.readsExactly IntegerLiteral.fieldNumber_of_isInteger
    intro v file hrange hfile
    rcases exists_located_of_hasAt_top hfile with ⟨message, hmessage, found, hmem, hname, hnumber⟩
    refine ⟨message, hmessage, found, hmem, hname, ?_⟩
    rw [hnumber, UInt32.toNat_ofNat']
    omega

theorem ValuePlace.readsExactly {value : String} {chain : List String} {tree : String → FileTree}
    (h : ValuePlace value chain tree) (name : String) :
    ReadsExactly tree name (fun v => -2 ^ 31 ≤ v ∧ v < 2 ^ 31) (HasValueAt chain value) := by
  have htoInt : ∀ v : Int, -2 ^ 31 ≤ v ∧ v < 2 ^ 31 → (Int32.ofInt v).toInt = v := by
    intro v hrange
    exact Int32.toInt_ofInt_of_le hrange.1 hrange.2
  cases h with
  | @top dialect before after enum decl hdecl =>
    apply (hdecl.decidedBy_toFile dialect before after name).readsExactly
      IntegerLiteral.enumNumber_of_isInteger
    rintro v file hrange ⟨found, hmem, rfl, result, hresult, hname, hnumber⟩
    refine ⟨found, .topEnum hmem, result, hresult, hname, ?_⟩
    rw [hnumber, htoInt v hrange]
  | @inside dialect before after top enum chain items hitems =>
    have htree := decidedBy_topMessage (grows_hasValue enum value)
      (fun dialect _ scope hpart => hpart.decidedBy dialect scope)
      hitems dialect before after top name
    apply htree.readsExactly IntegerLiteral.enumNumber_of_isInteger
    intro v file hrange hfile
    rcases exists_located_of_hasAt_top hfile
      with ⟨message, hmessage, found, hmem, rfl, result, hresult, hname, hnumber⟩
    refine ⟨found, .innerEnum hmessage hmem, result, hresult, hname, ?_⟩
    rw [hnumber, htoInt v hrange]

/--
Integers are read exactly or refused, in whichever of the three notations and of whatever length.
The number of a field or of an enum value is the integer that is written in its place.
-/
theorem integers_exact_or_refused :
    (∀ s t rest, integerHere s = .ok t rest
        ↔ s = t ++ rest ∧ (∃ v, IsInteger t v) ∧ ∀ c ∈ rest.head?, isPathChar c = false)
      ∧ (∀ t v, IsInteger t v →
        IntegerLiteral.value? t = if v.natAbs < 2 ^ 127 then some v else none)
      ∧ (∀ literal v, IsInteger literal.toList v →
        (IntegerLiteral.fieldNumber literal = if 0 ≤ v ∧ v < 2 ^ 32 then
            .ok (UInt32.ofNat v.toNat) else .error (.integerOutOfRange literal))
          ∧ IntegerLiteral.enumNumber literal = if -2 ^ 31 ≤ v ∧ v < 2 ^ 31 then
            .ok (Int32.ofInt v) else .error (.integerOutOfRange literal))
      ∧ (∀ field chain tree, FieldPlace field chain tree → ∀ name,
        ReadsExactly tree name (fun v => 0 ≤ v ∧ v < 2 ^ 32) (HasFieldAt chain field))
      ∧ (∀ value chain tree, ValuePlace value chain tree → ∀ name,
        ReadsExactly tree name (fun v => -2 ^ 31 ≤ v ∧ v < 2 ^ 31) (HasValueAt chain value)) := by
  refine ⟨?_, ?_, ?_, ?_, ?_⟩
  . intro s t rest
    exact integerHere_eq_ok_iff
  . intro t v h
    exact IntegerLiteral.value?_of_isInteger h
  . intro literal v h
    exact ⟨IntegerLiteral.fieldNumber_of_isInteger h, IntegerLiteral.enumNumber_of_isInteger h⟩
  . intro field chain tree h name
    exact h.readsExactly name
  . intro value chain tree h name
    exact h.readsExactly name

def edgeText (value field : String) : String :=
  "message M \x7b enum E \x7b A = " ++ value ++ "; \x7d int32 a = " ++ field ++ "; \x7d"

def edgeEnum (value : String) : EnumDecl where
  name := "E"
  items := [.value "A" value]

def edgeField (field : String) : FieldDecl where
  label := .optional
  type := .scalar .int32
  name := "a"
  number := field
  options := []

def edgeTree (value field : String) : FileTree where
  dialect := none
  statements := [.message "M" [.enum (edgeEnum value), .field (edgeField field)]]

def edgeNumbers? : FileTree → Option (String × String)
  | { dialect := none
      statements := [.message "M" [
        .enum { name := "E", items := [.value "A" value] },
        .field { label := .optional, type := .scalar .int32, name := "a", number := field
                 options := [] }]] } => some (value, field)
  | _ => none

theorem ofText?_edgeText {value field : String}
    (h : (FileTree.ofText? (edgeText value field).toList).bind edgeNumbers? = some (value, field)) :
    FileTree.ofText? (edgeText value field).toList = some (edgeTree value field) := by
  rcases Option.bind_eq_some_iff.1 h with ⟨tree, htree, hnumbers⟩
  rw [htree]
  unfold edgeNumbers? at hnumbers
  split at hnumbers
  . cases hnumbers
    rfl
  . cases hnumbers

theorem fieldPlace_edgeTree (value : String) : FieldPlace "a" ["M"] (edgeTree value) :=
  @FieldPlace.mk "a" none [] [] "M" [] _
    (@InMessage.here _ [.enum (edgeEnum value)] [] _ (@FieldPart.alone "a" (edgeField "") rfl))

theorem valuePlace_edgeTree (field : String) :
    ValuePlace "A" ["M", "E"] fun value => edgeTree value field :=
  @ValuePlace.inside "A" none [] [] "M" "E" [] _
    (@InMessage.here _ [] [.field (edgeField field)] _ (.mk (@EnumWith.mk "E" "A" [] [])))

theorem integers_exact_or_refused_edge :
    (∃ file, Schema.File.ofText "edge.proto" (edgeText "-0x80000000" "037777777777") = .ok file
        ∧ HasValueAt ["M", "E"] "A" (-2 ^ 31) file ∧ HasFieldAt ["M"] "a" (2 ^ 32 - 1) file)
      ∧ Schema.File.ofText "edge.proto" (edgeText "-0x80000000" "4294967296")
        = .error (.integerOutOfRange "4294967296") := by
  rcases integers_exact_or_refused with ⟨-, -, -, hfields, hvalues⟩
  have hleast : IsInteger "-0x80000000".toList (-2 ^ 31) :=
    .negative (.hex (.inl rfl) (by decide) ⟨[8, 0, 0, 0, 0, 0, 0, 0], by decide, by decide⟩)
  have hgreatest : IsInteger "037777777777".toList (2 ^ 32 - 1) :=
    .plain (.octal ⟨[3, 7, 7, 7, 7, 7, 7, 7, 7, 7, 7], by decide, by decide⟩)
  have hbeyond : IsInteger "4294967296".toList (2 ^ 32) :=
    .plain (.decimal (by decide) ⟨[4, 2, 9, 4, 9, 6, 7, 2, 9, 6], by decide, by decide⟩)
  have hread : ∃ file, Schema.File.ofText "edge.proto" (edgeText "-0x80000000" "037777777777")
      = .ok file ∧ True := by
    decide +kernel
  rcases hread with ⟨file, hfile, -⟩
  have htree : FileTree.ofText? (edgeText "-0x80000000" "037777777777").toList
      = some (edgeTree "-0x80000000" "037777777777") := ofText?_edgeText (by decide +kernel)
  have hvalue := (hvalues _ _ _ (valuePlace_edgeTree "037777777777") "edge.proto").of_eq_ok
    htree hleast hfile
  have hfield := (hfields _ _ _ (fieldPlace_edgeTree "-0x80000000") "edge.proto").of_eq_ok
    htree hgreatest hfile
  refine ⟨⟨file, hfile, hvalue.1.2, hfield.1.2⟩, ?_⟩
  exact hfield.2 _ "4294967296" _ (ofText?_edgeText (by decide +kernel)) hbeyond (by decide)

end Source

end HessianGo
