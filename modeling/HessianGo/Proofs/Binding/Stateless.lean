import HessianGo.Binding.File
import HessianGo.Proofs.Code.Expr
import HessianGo.Proofs.Except
import HessianGo.Proofs.Schema.Tree

/-!
This module contains the binding of files without a state: all references are written with one
table of imports that is given. Binding a file while its table grows gives the same as binding it
without a state for the table that is there in the end, so no reference that is written early is
wrong later.
-/

namespace HessianGo

namespace Binding

open Code (Packages ImportTable Ident Writing)
open Code.ImportTable (Extends)

/-! ### Binding with a given table -/

section

variable (packages : Packages)

def fieldAt (table : ImportTable) (field : Schema.Field) : Field :=
  let typeName := (fieldType packages field).text table
  let defaultValue := (fieldDefault packages field).text table
  let goName := Code.camelCase field.name
  if field.isWrapper then
    { schema := field, goName, typeName := "*" ++ typeName, defaultValue := "nil" }
  else
    { schema := field, goName, typeName, defaultValue }

@[simp]
theorem schema_fieldAt (table : ImportTable) (field : Schema.Field) :
    (fieldAt packages table field).schema = field := by
  unfold fieldAt
  split
  . rfl
  . rfl

def enumAt (enum : Schema.Enum) : Enum :=
  { schema := enum, goName := (packages.ident enum.fullName).name
    javaClassName := (enum.options.map (·.javaClassName)).getD "" }

mutual

def messageAt (table : ImportTable) : Schema.Message → Except Error Message
  | ⟨name, fullName, fields, messages, enums, oneofs, isMapEntry, options⟩ => do
    let schema : Schema.Message :=
      ⟨name, fullName, fields, messages, enums, oneofs, isMapEntry, options⟩
    let goName := (packages.ident fullName).name
    if isMapEntry then
      return { schema, goName }
    let innerMessages ← innerMessagesAt table messages
    match bindable? options with
    | some options =>
      return { schema, goName, javaClassName := options.javaClassName, innerMessages
               fields := fields.map (fieldAt packages table), extendArgs := options.extendArgs }
    | none => throw (.missingClassName fullName)

def innerMessagesAt (table : ImportTable) : List Schema.Message → Except Error (List Message)
  | [] => return []
  | message :: messages => do
    let first ← messageAt table message
    let others ← innerMessagesAt table messages
    return { first with isInheritance := inherits message.options } :: others

end

def fileAt (table : ImportTable) (file : Schema.File) : Except Error File := do
  let messages ← file.messages.mapM (messageAt packages table)
  return { schema := file, enums := file.enums.map (enumAt packages), messages }

/-! ### The identifiers that are referred to -/

def fieldIdents (field : Schema.Field) : List Ident :=
  (fieldType packages field).idents ++ (fieldDefault packages field).idents

mutual

def messageIdents : Schema.Message → List Ident
  | ⟨_, _, fields, messages, _, _, isMapEntry, _⟩ =>
    if isMapEntry then
      []
    else
      innerMessagesIdents messages ++ fields.flatMap (fieldIdents packages)

def innerMessagesIdents : List Schema.Message → List Ident
  | [] => []
  | message :: messages => messageIdents message ++ innerMessagesIdents messages

end

def fileIdents (file : Schema.File) : List Ident :=
  file.enums.map (fun enum => packages.ident enum.fullName)
    ++ file.messages.flatMap (messageIdents packages)

theorem innerMessagesIdents_eq_flatMap (messages : List Schema.Message) :
    innerMessagesIdents packages messages = messages.flatMap (messageIdents packages) := by
  induction messages with
  | nil => simp [innerMessagesIdents]
  | cons message messages ih => simp [innerMessagesIdents, ih]

theorem messageIdents_eq (message : Schema.Message) :
    messageIdents packages message
      =
    if message.isMapEntry then
      []
    else
      message.messages.flatMap (messageIdents packages)
        ++ message.fields.flatMap (fieldIdents packages) := by
  cases message
  rw [messageIdents]
  rw [innerMessagesIdents_eq_flatMap]

end

/-! ### Binders -/

namespace Binder

variable {α β : Type}

/--
Binding refers to exactly these identifiers unless it fails, and its result, be it an error or not,
is the given one for the table that it leaves and for all later ones.
-/
structure Writes (binder : Binder α) (idents : List Ident) (value : ImportTable → Except Error α) :
    Prop where
  exists_table_eq : ∀ table, ∃ recorded, (binder.run.run table).2 = table.recordAll recorded
  table_eq : ∀ table result, (binder.run.run table).1 = .ok result →
    (binder.run.run table).2 = table.recordAll idents
  value_eq : ∀ table later, Extends (binder.run.run table).2 later →
    (binder.run.run table).1 = value later

theorem Writes.extends {binder : Binder α} {idents : List Ident}
    {value : ImportTable → Except Error α} (h : Writes binder idents value) (table : ImportTable) :
    Extends table (binder.run.run table).2 := by
  rcases h.exists_table_eq table with ⟨recorded, hrecorded⟩
  rw [hrecorded]
  apply ImportTable.recordAll_extends

theorem Writes.pure (result : α) :
    Writes (Pure.pure result : Binder α) [] (fun _ => .ok result) where
  exists_table_eq _ := ⟨[], rfl⟩
  table_eq _ _ _ := rfl
  value_eq _ _ _ := rfl

theorem Writes.throw (error : Error) (idents : List Ident) :
    Writes (MonadExcept.throw error : Binder α) idents (fun _ => .error error) where
  exists_table_eq _ := ⟨[], rfl⟩
  table_eq _ _ h := by cases h
  value_eq _ _ _ := rfl

theorem Writes.lift {writing : Writing α} {idents : List Ident} {value : ImportTable → α}
    (h : writing.Writes idents value) :
    Writes (liftM writing : Binder α) idents (fun table => .ok (value table)) where
  exists_table_eq table := ⟨idents, h.table_eq table⟩
  table_eq table _ _ := h.table_eq table
  value_eq table later hlater := congrArg Except.ok (h.value_eq table later hlater)

theorem run_bind (binder : Binder α) (next : α → Binder β) (table : ImportTable) :
    (binder >>= next).run.run table
      =
    match binder.run.run table with
    | (.ok value, table) => (next value).run.run table
    | (.error error, table) => (.error error, table) := by
  rw [ExceptT.run_bind, StateT.run_bind]
  cases binder.run.run table with
  | mk result table =>
    cases result with
    | ok value => rfl
    | error error => rfl

theorem Writes.bind {binder : Binder α} {next : α → Binder β} {first second : List Ident}
    {f : ImportTable → Except Error α} {g : α → ImportTable → Except Error β}
    (hbinder : Writes binder first f) (hnext : ∀ value, Writes (next value) second (g value)) :
    Writes (binder >>= next) (first ++ second)
      (fun table => f table >>= fun value => g value table) where
  exists_table_eq table := by
    rcases hbinder.exists_table_eq table with ⟨before, hbefore⟩
    rw [run_bind]
    cases hrun : binder.run.run table with
    | mk result between =>
      rw [hrun] at hbefore
      cases result with
      | error error => exact ⟨before, hbefore⟩
      | ok value =>
        rcases (hnext value).exists_table_eq between with ⟨after, hafter⟩
        refine ⟨before ++ after, ?_⟩
        rw [ImportTable.recordAll_append]
        rw [← hbefore]
        exact hafter
  table_eq table result hresult := by
    have hfirst := hbinder.table_eq table
    rw [run_bind] at hresult ⊢
    cases hrun : binder.run.run table with
    | mk outcome between =>
      rw [hrun] at hresult hfirst
      cases outcome with
      | error error => cases hresult
      | ok value =>
        rw [ImportTable.recordAll_append]
        rw [← hfirst value rfl]
        exact (hnext value).table_eq between result hresult
  value_eq table later hlater := by
    have hfirst := hbinder.value_eq table later
    rw [run_bind] at hlater ⊢
    cases hrun : binder.run.run table with
    | mk outcome between =>
      rw [hrun] at hlater hfirst
      cases outcome with
      | error error =>
        rw [← hfirst hlater]
        rfl
      | ok value =>
        -- The table after the first part lies between the two others.
        rw [← hfirst (((hnext value).extends between).trans hlater)]
        exact (hnext value).value_eq between later hlater

theorem Writes.congr {binder : Binder α} {idents : List Ident}
    {f g : ImportTable → Except Error α} (h : Writes binder idents f)
    (hvalue : ∀ table, f table = g table) : Writes binder idents g := by
  rw [← funext hvalue]
  exact h

theorem Writes.mapM {f : α → Binder β} {idents : α → List Ident}
    {value : α → ImportTable → Except Error β} {items : List α}
    (h : ∀ item ∈ items, Writes (f item) (idents item) (value item)) :
    Writes (items.mapM f) (items.flatMap idents)
      (fun table => items.mapM fun item => value item table) := by
  induction items with
  | nil => apply Writes.pure
  | cons item items ih =>
    simp only [List.mapM_cons, List.flatMap_cons]
    apply (h item (by simp)).bind
    intro first
    rw [← List.append_nil (items.flatMap idents)]
    apply (ih fun other hother => h other (by simp [hother])).bind
    intro others
    apply Writes.pure

end Binder

/-! ### Binding with a growing table -/

section

variable (packages : Packages)

theorem writes_bindField (field : Schema.Field) :
    (bindField packages field).Writes (fieldIdents packages field)
      (fun table => fieldAt packages table field) := by
  unfold bindField fieldIdents fieldAt
  rw [← List.append_nil (fieldDefault packages field).idents]
  cases field.isWrapper with
  | true =>
    exact (Writing.writes_typeExpr _).bind fun _ => (Writing.writes_expr _).bind fun _ => .pure _
  | false =>
    exact (Writing.writes_typeExpr _).bind fun _ => (Writing.writes_expr _).bind fun _ => .pure _

theorem writes_bindEnum (enum : Schema.Enum) :
    (bindEnum packages enum).Writes [packages.ident enum.fullName]
      (fun _ => enumAt packages enum) := by
  rw [← List.append_nil [packages.ident enum.fullName]]
  exact (Writing.writes_ident _).bind fun _ => .pure _

theorem bindInnerMessages_eq_mapM (messages : List Schema.Message) :
    bindInnerMessages packages messages
      =
    messages.mapM fun message => do
      let first ← bindMessage packages message
      return { first with isInheritance := inherits message.options } := by
  induction messages with
  | nil => rfl
  | cons message messages ih =>
    rw [bindInnerMessages, List.mapM_cons, ih]
    simp only [bind_assoc, pure_bind]

theorem innerMessagesAt_eq_mapM (table : ImportTable) (messages : List Schema.Message) :
    innerMessagesAt packages table messages
      =
    messages.mapM fun message => do
      let first ← messageAt packages table message
      return { first with isInheritance := inherits message.options } := by
  induction messages with
  | nil => rfl
  | cons message messages ih =>
    rw [innerMessagesAt, List.mapM_cons, ih]
    simp only [bind_assoc, pure_bind]

theorem bindMessage_eq (message : Schema.Message) :
    bindMessage packages message
      =
    (if message.isMapEntry then
      return { schema := message, goName := (packages.ident message.fullName).name }
    else do
      let innerMessages ← bindInnerMessages packages message.messages
      let fields ← message.fields.mapM fun field => liftM (bindField packages field)
      match bindable? message.options with
      | some options =>
        return { schema := message, goName := (packages.ident message.fullName).name
                 javaClassName := options.javaClassName, innerMessages, fields
                 extendArgs := options.extendArgs }
      | none => throw (.missingClassName message.fullName)) := by
  cases message
  apply bindMessage.eq_1

theorem messageAt_eq (table : ImportTable) (message : Schema.Message) :
    messageAt packages table message
      =
    (if message.isMapEntry then
      return { schema := message, goName := (packages.ident message.fullName).name }
    else do
      let innerMessages ← innerMessagesAt packages table message.messages
      match bindable? message.options with
      | some options =>
        return { schema := message, goName := (packages.ident message.fullName).name
                 javaClassName := options.javaClassName, innerMessages
                 fields := message.fields.map (fieldAt packages table)
                 extendArgs := options.extendArgs }
      | none => throw (.missingClassName message.fullName)) := by
  cases message
  rw [messageAt]

theorem writes_bindFields (fields : List Schema.Field) :
    Binder.Writes (fields.mapM fun field => liftM (bindField packages field))
      (fields.flatMap (fieldIdents packages))
      (fun table => .ok (fields.map (fieldAt packages table))) := by
  have hfield : ∀ field ∈ fields, _ :=
    fun field _ => Binder.Writes.lift (writes_bindField packages field)
  apply (Binder.Writes.mapM hfield).congr
  intro table
  exact List.mapM_pure

theorem writes_bindInnerMessages {messages : List Schema.Message}
    (h : ∀ message ∈ messages, (bindMessage packages message).Writes
      (messageIdents packages message) (fun table => messageAt packages table message)) :
    (bindInnerMessages packages messages).Writes (messages.flatMap (messageIdents packages))
      (fun table => innerMessagesAt packages table messages) := by
  simp only [bindInnerMessages_eq_mapM, innerMessagesAt_eq_mapM]
  apply Binder.Writes.mapM
  intro message hmessage
  rw [← List.append_nil (messageIdents packages message)]
  exact (h message hmessage).bind fun _ => .pure _

theorem writes_bindMessage (message : Schema.Message) :
    (bindMessage packages message).Writes (messageIdents packages message)
      (fun table => messageAt packages table message) := by
  induction message using Schema.Message.treeInduction with
  | node message ih =>
    have hinner := writes_bindInnerMessages packages ih
    have hfields := writes_bindFields packages message.fields
    rw [bindMessage_eq, messageIdents_eq]
    rw [funext fun table => messageAt_eq packages table message]
    cases message.isMapEntry with
    | true => apply Binder.Writes.pure
    | false =>
      rw [← List.append_nil (message.fields.flatMap (fieldIdents packages))]
      cases bindable? message.options with
      | some options => exact hinner.bind fun _ => hfields.bind fun _ => .pure _
      | none => exact hinner.bind fun _ => hfields.bind fun _ => .throw _ _

theorem writes_bindFile (file : Schema.File) :
    (bindFile packages file).Writes (fileIdents packages file)
      (fun table => fileAt packages table file) := by
  have henum : ∀ enum ∈ file.enums, _ :=
    fun enum _ => Binder.Writes.lift (writes_bindEnum packages enum)
  have henums := (Binder.Writes.mapM henum).congr fun table => List.mapM_pure
  have hmessage : ∀ message ∈ file.messages, _ :=
    fun message _ => writes_bindMessage packages message
  have hmessages := Binder.Writes.mapM hmessage
  unfold bindFile fileIdents
  rw [← List.append_nil (file.messages.flatMap (messageIdents packages))]
  rw [List.map_eq_flatMap]
  exact henums.bind fun _ => hmessages.bind fun _ => .pure _

/-! ### What a binding depends on -/

variable {packages} {table other : ImportTable}

theorem fieldAt_congr {field : Schema.Field}
    (h : ∀ ident ∈ fieldIdents packages field, table.refer ident = other.refer ident) :
    fieldAt packages table field = fieldAt packages other field := by
  simp only [fieldIdents, List.mem_append] at h
  unfold fieldAt
  rw [Code.TypeExpr.text_congr fun ident hident => h ident (.inl hident)]
  rw [Code.Expr.text_congr fun ident hident => h ident (.inr hident)]

theorem messageAt_congr {message : Schema.Message}
    (h : ∀ ident ∈ messageIdents packages message, table.refer ident = other.refer ident) :
    messageAt packages table message = messageAt packages other message := by
  induction message using Schema.Message.treeInduction with
  | node message ih =>
    rw [messageIdents_eq] at h
    rw [messageAt_eq, messageAt_eq]
    rw [innerMessagesAt_eq_mapM, innerMessagesAt_eq_mapM]
    cases hentry : message.isMapEntry with
    | true => rfl
    | false =>
      simp only [hentry, Bool.false_eq_true, ↓reduceIte, List.mem_append, List.mem_flatMap] at h ⊢
      have hfields : message.fields.map (fieldAt packages table)
          = message.fields.map (fieldAt packages other) := by
        apply List.map_congr_left
        intro field hfield
        apply fieldAt_congr
        intro ident hident
        exact h ident (.inr ⟨field, hfield, hident⟩)
      rw [hfields]
      congr 1
      apply mapM_congr_mem
      intro inner hmem
      rw [ih inner hmem fun ident hident => h ident (.inl ⟨inner, hmem, hident⟩)]

theorem fileAt_congr {file : Schema.File}
    (h : ∀ ident ∈ fileIdents packages file, table.refer ident = other.refer ident) :
    fileAt packages table file = fileAt packages other file := by
  simp only [fileIdents, List.mem_append, List.mem_flatMap] at h
  unfold fileAt
  congr 1
  apply mapM_congr_mem
  intro message hmessage
  apply messageAt_congr
  intro ident hident
  exact h ident (.inr ⟨message, hmessage, hident⟩)

end

/-! ### The result -/

def Qualifies (table : ImportTable) (idents : List Ident) : Prop :=
  ∀ ident ∈ idents, table.isBare ident.importPath.path
    ∨ ∃ name, table.alias? ident.importPath.path = some name
      ∧ ∀ path, (path, name) ∈ table.entries → path = ident.importPath.path

/--
The tables write references to the identifiers alike: they belong to files of one package and have
the same aliases for the paths of the identifiers.
-/
def SameAliases (table other : ImportTable) (idents : List Ident) : Prop :=
  other.own.path = table.own.path
    ∧ ∀ ident ∈ idents, other.alias? ident.importPath.path = table.alias? ident.importPath.path

theorem qualifies_recordAll {table : ImportTable} (h : table.Reachable) (idents : List Ident) :
    Qualifies (table.recordAll idents) idents := by
  intro ident hident
  have hwellFormed := (h.recordAll idents).wellFormed
  apply (ImportTable.recordAll_knows hident).imp_right
  intro hsome
  rcases Option.isSome_iff_exists.1 hsome with ⟨name, hname⟩
  refine ⟨name, hname, ?_⟩
  intro path hpath
  exact hwellFormed.path_eq (hwellFormed.alias?_eq_some_iff.1 hname) hpath

theorem SameAliases.refer_eq {table other : ImportTable} {idents : List Ident}
    (h : SameAliases table other idents) {ident : Ident} (hident : ident ∈ idents) :
    table.refer ident = other.refer ident := by
  unfold ImportTable.refer ImportTable.isBare
  rw [h.1, h.2 ident hident]

theorem Binder.Writes.stateless {α : Type} {binder : Binder α} {idents : List Ident}
    {value : ImportTable → Except Error α} (h : Writes binder idents value)
    {table final : ImportTable} {result : Except Error α} (hreachable : table.Reachable)
    (hrun : binder.run.run table = (result, final)) :
    Extends table final
      ∧ final.Reachable
      ∧ value final = result
      ∧ ∀ binding, result = .ok binding → Qualifies final idents := by
  have hextends := h.extends table
  have hvalue := h.value_eq table final
  rcases h.exists_table_eq table with ⟨recorded, hrecorded⟩
  rw [hrun] at hextends hvalue hrecorded
  refine ⟨hextends, ?_, (hvalue (.refl final)).symm, ?_⟩
  . rw [show final = table.recordAll recorded from hrecorded]
    exact hreachable.recordAll recorded
  . intro binding hok
    have htable := h.table_eq table binding
    rw [hrun] at htable
    rw [show final = table.recordAll idents from htable hok]
    exact qualifies_recordAll hreachable idents

/--
What is made while the import table grows is what is made without a state for the final table. The
final table has the old entries in front, its aliases name the right paths, and another table with
the same aliases for the paths that are referred to gives the same binding.
-/
theorem binding_eq_stateless (packages : Packages) {table : ImportTable}
    (hreachable : table.Reachable) :
    (∀ file result final, (bindFile packages file).run.run table = (result, final) →
      table.entries <+: final.entries
        ∧ final.own = table.own
        ∧ final.Reachable
        ∧ fileAt packages final file = result
        ∧ ∀ binding, result = .ok binding →
          Qualifies final (fileIdents packages file)
            ∧ ∀ other, SameAliases final other (fileIdents packages file) →
              fileAt packages other file = .ok binding)
    ∧ ∀ message result final, (bindMessage packages message).run.run table = (result, final) →
      table.entries <+: final.entries
        ∧ final.own = table.own
        ∧ final.Reachable
        ∧ messageAt packages final message = result
        ∧ ∀ binding, result = .ok binding →
          Qualifies final (messageIdents packages message)
            ∧ ∀ other, SameAliases final other (messageIdents packages message) →
              messageAt packages other message = .ok binding := by
  constructor
  . intro file result final hrun
    rcases (writes_bindFile packages file).stateless hreachable hrun
      with ⟨hextends, hfinal, hvalue, hqualifies⟩
    refine ⟨hextends.isPrefix, hextends.own_eq, hfinal, hvalue, ?_⟩
    intro binding hok
    refine ⟨hqualifies binding hok, ?_⟩
    intro other hsame
    rw [← hok, ← hvalue]
    exact (fileAt_congr fun ident hident => hsame.refer_eq hident).symm
  . intro message result final hrun
    rcases (writes_bindMessage packages message).stateless hreachable hrun
      with ⟨hextends, hfinal, hvalue, hqualifies⟩
    refine ⟨hextends.isPrefix, hextends.own_eq, hfinal, hvalue, ?_⟩
    intro binding hok
    refine ⟨hqualifies binding hok, ?_⟩
    intro other hsame
    rw [← hok, ← hvalue]
    exact (messageAt_congr fun ident hident => hsame.refer_eq hident).symm

def moneyPackages : Packages where
  registry := {
    files := [
      { name := "money.proto", package := some "money", goPackage := some "b/money"
        messages := [{ name := "Amount", fullName := "money.Amount" }] }]
    index := { entries := [("money.Amount", { file := 0, messages := [0], enum := none })] }
    isIndex := rfl }
  config := {}

def priceMessage : Schema.Message :=
  { name := "Price", fullName := "shop.Price", options := some { javaClassName := "Price" }
    fields := [{ name := "amount", number := 1, type := .message "money.Amount" }] }

def priceBinding : Message :=
  { schema := priceMessage, goName := "Shop_Price", javaClassName := "Price"
    fields := [
      { schema := { name := "amount", number := 1, type := .message "money.Amount" }
        goName := "Amount", typeName := "*money1.Amount", defaultValue := "nil" }] }

def coinTable : ImportTable :=
  { own := ⟨"shop", "shop"⟩, entries := [("a/money", "money")] }

def priceTable : ImportTable :=
  { own := ⟨"shop", "shop"⟩, entries := [("a/money", "money"), ("b/money", "money1")] }

theorem binding_eq_stateless_priceMessage :
    coinTable.Reachable
      ∧ (bindMessage moneyPackages priceMessage).run.run coinTable = (.ok priceBinding, priceTable)
      ∧ messageAt moneyPackages priceTable priceMessage = .ok priceBinding
      ∧ Qualifies priceTable (messageIdents moneyPackages priceMessage) := by
  have hreachable : coinTable.Reachable :=
    .qualify ⟨"Coin", ⟨"a/money", "money"⟩⟩ (.new ⟨"shop", "shop"⟩)
  have hrun :
      (bindMessage moneyPackages priceMessage).run.run coinTable = (.ok priceBinding, priceTable) :=
    rfl
  rcases (binding_eq_stateless moneyPackages hreachable).2 priceMessage _ _ hrun
    with ⟨-, -, -, hvalue, hok⟩
  exact ⟨hreachable, hrun, hvalue, (hok _ rfl).1⟩

end Binding

end HessianGo
