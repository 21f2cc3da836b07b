import HessianGo.Schema.Basic
import Mathlib.Data.List.Basic

/-!
This module contains the tree of types in a schema file: the declarations at every depth of it, in
the order in which a registry takes them up, induction over it, and the replacement of the fields in
it.
-/

namespace HessianGo

namespace Schema

inductive Declaration where
  | message (message : Message)
  | enum (enum : Enum)
  deriving Inhabited

namespace Declaration

def fullName : Declaration → String
  | .message m => m.fullName
  | .enum e => e.fullName

def fieldType : Declaration → FieldType
  | .message m => .message m.fullName
  | .enum e => .enum e.fullName

end Declaration

mutual

def Message.declarations : Message → List Declaration
  | ⟨name, fullName, fields, messages, enums, oneofs, isMapEntry, options⟩ =>
    enums.map .enum ++ Message.declarationsOfList messages
      ++ [.message ⟨name, fullName, fields, messages, enums, oneofs, isMapEntry, options⟩]

def Message.declarationsOfList : List Message → List Declaration
  | [] => []
  | message :: messages => message.declarations ++ Message.declarationsOfList messages

end

theorem Message.declarationsOfList_eq_flatMap (messages : List Message) :
    Message.declarationsOfList messages = messages.flatMap Message.declarations := by
  induction messages with
  | nil => simp [Message.declarationsOfList]
  | cons message messages ih => simp [Message.declarationsOfList, ih]

def File.declarations (file : File) : List Declaration :=
  file.enums.map .enum ++ file.messages.flatMap Message.declarations

/-! ### Declarations at some depth -/

namespace Message

@[elab_as_elim]
theorem treeInduction {motive : Message → Prop}
    (node : ∀ message, (∀ inner ∈ message.messages, motive inner) → motive message)
    (message : Message) : motive message := by
  apply node
  intro inner hinner
  have : sizeOf inner < sizeOf message := by
    have := List.sizeOf_lt_of_mem hinner
    cases message
    simp only [mk.sizeOf_spec] at *
    omega
  exact treeInduction node inner
termination_by sizeOf message

theorem declarations_eq (message : Message) :
    message.declarations
      =
    message.enums.map .enum ++ message.messages.flatMap declarations ++ [.message message] := by
  cases message
  rw [declarations]
  rw [declarationsOfList_eq_flatMap]

/--
`Within outer inner`: the message `inner` is `outer` or is declared at some depth inside it.
-/
inductive Within (outer : Message) : Message → Prop where
  | self : Within outer outer
  | step {message inner : Message} :
    Within outer message → inner ∈ message.messages → Within outer inner

theorem Within.of_mem {outer message inner : Message} (hmem : message ∈ outer.messages)
    (h : Within message inner) : Within outer inner := by
  induction h with
  | self => exact .step .self hmem
  | step _ hinner ih => exact .step ih hinner

theorem within_iff {outer inner : Message} :
    Within outer inner ↔ inner = outer ∨ ∃ message ∈ outer.messages, Within message inner := by
  constructor
  . intro h
    induction h with
    | self => exact .inl rfl
    | step _ hinner ih =>
      cases ih with
      | inl heq =>
        subst heq
        exact .inr ⟨_, hinner, .self⟩
      | inr hin =>
        rcases hin with ⟨message, hmem, hwithin⟩
        exact .inr ⟨message, hmem, .step hwithin hinner⟩
  . rintro (rfl | ⟨message, hmem, hwithin⟩)
    . exact .self
    . exact .of_mem hmem hwithin

theorem message_mem_declarations {message inner : Message} :
    .message inner ∈ message.declarations ↔ Within message inner := by
  induction message using treeInduction with
  | node message ih =>
    rw [declarations_eq, within_iff]
    simp only [List.mem_append, List.mem_map, reduceCtorEq, and_false, exists_false, false_or,
      List.mem_flatMap, List.mem_singleton, Declaration.message.injEq]
    rw [or_comm]
    apply or_congr Iff.rfl
    apply exists_congr
    intro nested
    apply and_congr_right
    intro hnested
    exact ih nested hnested

theorem enum_mem_declarations {message : Message} {enum : Enum} :
    .enum enum ∈ message.declarations ↔ ∃ inner, Within message inner ∧ enum ∈ inner.enums := by
  induction message using treeInduction with
  | node message ih =>
    rw [declarations_eq]
    simp only [List.mem_append, List.mem_map, Declaration.enum.injEq, exists_eq_right,
      List.mem_flatMap, List.mem_singleton, reduceCtorEq, or_false]
    constructor
    . rintro (henum | ⟨nested, hnested, henum⟩)
      . exact ⟨message, .self, henum⟩
      . rcases (ih nested hnested).1 henum with ⟨inner, hwithin, henum⟩
        exact ⟨inner, .of_mem hnested hwithin, henum⟩
    . rintro ⟨inner, hwithin, henum⟩
      rcases within_iff.1 hwithin with rfl | ⟨nested, hnested, hwithin⟩
      . exact .inl henum
      . exact .inr ⟨nested, hnested, (ih nested hnested).2 ⟨inner, hwithin, henum⟩⟩

end Message

namespace File

def DeclaresMessage (file : File) (message : Message) : Prop :=
  ∃ outer ∈ file.messages, outer.Within message

def DeclaresEnum (file : File) (enum : Enum) : Prop :=
  enum ∈ file.enums ∨ ∃ message, file.DeclaresMessage message ∧ enum ∈ message.enums

theorem message_mem_declarations {file : File} {message : Message} :
    .message message ∈ file.declarations ↔ file.DeclaresMessage message := by
  simp [declarations, DeclaresMessage, Message.message_mem_declarations]

theorem enum_mem_declarations {file : File} {enum : Enum} :
    .enum enum ∈ file.declarations ↔ file.DeclaresEnum enum := by
  simp only [declarations, DeclaresEnum, DeclaresMessage, List.mem_append, List.mem_map,
    Declaration.enum.injEq, exists_eq_right, List.mem_flatMap, Message.enum_mem_declarations]
  apply or_congr Iff.rfl
  constructor
  . rintro ⟨outer, houter, message, hwithin, henum⟩
    exact ⟨message, ⟨outer, houter, hwithin⟩, henum⟩
  . rintro ⟨message, ⟨outer, houter, hwithin⟩, henum⟩
    exact ⟨outer, houter, message, hwithin, henum⟩

end File

/-! ### Replacing the fields -/

mutual

/--
The message with every field in it, at any depth, replaced. The replacement is told the full name of
the message that has the field.
-/
def Message.mapFields (f : String → Field → Field) : Message → Message
  | ⟨name, fullName, fields, messages, enums, oneofs, isMapEntry, options⟩ =>
    ⟨name, fullName, fields.map (f fullName), mapFieldsOfList f messages, enums, oneofs, isMapEntry,
     options⟩

def Message.mapFieldsOfList (f : String → Field → Field) : List Message → List Message
  | [] => []
  | message :: messages => message.mapFields f :: mapFieldsOfList f messages

end

def File.mapFields (f : String → Field → Field) (file : File) : File :=
  { file with messages := file.messages.map (Message.mapFields f) }

def Declaration.mapFields (f : String → Field → Field) : Declaration → Declaration
  | .message m => .message (m.mapFields f)
  | .enum e => .enum e

variable (f : String → Field → Field)

theorem Message.mapFieldsOfList_eq_map (messages : List Message) :
    mapFieldsOfList f messages = messages.map (mapFields f) := by
  induction messages with
  | nil => simp [mapFieldsOfList]
  | cons message messages ih => simp [mapFieldsOfList, ih]

theorem Message.mapFields_eq (message : Message) :
    message.mapFields f
      =
    { message with
      fields := message.fields.map (f message.fullName)
      messages := message.messages.map (mapFields f) } := by
  cases message
  rw [mapFields]
  rw [mapFieldsOfList_eq_map]

@[simp]
theorem Message.mapFields_fullName (message : Message) :
    (message.mapFields f).fullName = message.fullName := by
  rw [mapFields_eq]

@[simp]
theorem Declaration.mapFields_fullName (declaration : Declaration) :
    (declaration.mapFields f).fullName = declaration.fullName := by
  cases declaration with
  | message m => simp [mapFields, fullName]
  | enum e => rfl

theorem Message.declarations_mapFields (message : Message) :
    (message.mapFields f).declarations = message.declarations.map (.mapFields f) := by
  induction message using treeInduction with
  | node message ih =>
    rw [declarations_eq, declarations_eq]
    simp only [List.map_append, List.map_map, List.map_flatMap, List.map_cons, List.map_nil]
    congr 1
    rw [mapFields_eq]
    simp only [List.flatMap_map]
    congr 1
    apply List.flatMap_congr
    intro inner hinner
    exact ih inner hinner

theorem File.declarations_mapFields (file : File) :
    (file.mapFields f).declarations = file.declarations.map (.mapFields f) := by
  simp only [declarations, mapFields, List.map_append, List.map_map, List.map_flatMap,
    List.flatMap_map, Message.declarations_mapFields]
  congr 1

theorem Message.mapFields_congr {g : String → Field → Field} {message : Message}
    (h : ∀ inner, Within message inner →
      ∀ field ∈ inner.fields, f inner.fullName field = g inner.fullName field) :
    message.mapFields f = message.mapFields g := by
  induction message using treeInduction with
  | node message ih =>
    have hfields :
        message.fields.map (f message.fullName) = message.fields.map (g message.fullName) := by
      apply List.map_congr_left
      exact h message .self
    have hmessages : message.messages.map (mapFields f) = message.messages.map (mapFields g) := by
      apply List.map_congr_left
      intro nested hnested
      apply ih nested hnested
      intro inner hinner
      exact h inner (.of_mem hnested hinner)
    rw [mapFields_eq, mapFields_eq, hfields, hmessages]

theorem File.mapFields_congr {g : String → Field → Field} {file : File}
    (h : ∀ message, file.DeclaresMessage message →
      ∀ field ∈ message.fields, f message.fullName field = g message.fullName field) :
    file.mapFields f = file.mapFields g := by
  have hmessages : file.messages.map (Message.mapFields f) = file.messages.map (.mapFields g) := by
    apply List.map_congr_left
    intro outer houter
    apply Message.mapFields_congr
    intro message hwithin
    exact h message ⟨outer, houter, hwithin⟩
  rw [mapFields, mapFields, hmessages]

theorem File.exists_of_declaresMessage_mapFields {file : File} {message : Message}
    (h : (file.mapFields f).DeclaresMessage message) :
    ∃ source, file.DeclaresMessage source ∧ message = source.mapFields f := by
  rw [← message_mem_declarations, declarations_mapFields] at h
  rcases List.mem_map.1 h with ⟨declaration, hdeclaration, heq⟩
  cases declaration with
  | message source =>
    refine ⟨source, message_mem_declarations.1 hdeclaration, ?_⟩
    exact (Declaration.message.inj heq).symm
  | enum enum => cases heq

theorem Message.mapFields_id (message : Message) :
    message.mapFields (fun _ field => field) = message := by
  induction message using treeInduction with
  | node message ih =>
    have hmessages : message.messages.map (mapFields fun _ field => field) = message.messages := by
      rw [List.map_congr_left ih]
      apply List.map_id'
    rw [mapFields_eq, hmessages, List.map_id']
    cases message
    rfl

theorem File.mapFields_id (file : File) : file.mapFields (fun _ field => field) = file := by
  rw [mapFields, List.map_congr_left fun message _ => message.mapFields_id, List.map_id']

end Schema

end HessianGo
