import HessianGo.Proofs.Binding.Stateless

/-!
This module contains the shape of a file's binding. A binding fails at the first message, inner
messages before outer ones, that has no class name and does not only group arguments. Otherwise it
has the tree of the schema, pruned below the entry messages of maps.
-/

namespace HessianGo

open Code (Packages ImportTable)

namespace Schema

mutual

/--
The message and the messages inside it, each after those inside it. What is inside the entry message
of a map is left out.
-/
def Message.postOrder : Message → List Message
  | ⟨name, fullName, fields, messages, enums, oneofs, isMapEntry, options⟩ =>
    (if isMapEntry then [] else postOrderOfList messages)
      ++ [⟨name, fullName, fields, messages, enums, oneofs, isMapEntry, options⟩]

def Message.postOrderOfList : List Message → List Message
  | [] => []
  | message :: messages => message.postOrder ++ postOrderOfList messages

end

def File.postOrder (file : File) : List Message :=
  file.messages.flatMap Message.postOrder

/--
`Exposes outer inner`: the message `inner` is `outer` or is declared at some depth inside it, and no
entry message of a map stands between.
-/
inductive Message.Exposes (outer : Message) : Message → Prop where
  | self : Exposes outer outer
  | step {message inner : Message} :
    Exposes outer message → message.isMapEntry = false → inner ∈ message.messages →
      Exposes outer inner

/--
The message needs a class of its own, and its options name none.
-/
def Message.lacksClass (message : Message) : Bool :=
  !message.isMapEntry
    && message.options.all fun options => options.javaClassName = "" && !options.extendArgs

def Message.IsInherited (message : Message) : Prop :=
  ∃ options, message.options = some options ∧ options.isInheritance = true

theorem Message.postOrderOfList_eq_flatMap (messages : List Message) :
    postOrderOfList messages = messages.flatMap postOrder := by
  induction messages with
  | nil => simp [postOrderOfList]
  | cons message messages ih => simp [postOrderOfList, ih]

theorem Message.postOrder_eq (message : Message) :
    message.postOrder
      =
    (if message.isMapEntry then [] else message.messages.flatMap postOrder) ++ [message] := by
  cases message
  rw [postOrder]
  rw [postOrderOfList_eq_flatMap]

theorem Message.Exposes.of_mem {outer message inner : Message} (hentry : outer.isMapEntry = false)
    (hmem : message ∈ outer.messages) (h : Exposes message inner) : Exposes outer inner := by
  induction h with
  | self => exact .step .self hentry hmem
  | step _ hmessage hinner ih => exact .step ih hmessage hinner

theorem Message.exposes_iff {outer inner : Message} :
    Exposes outer inner
      ↔
    inner = outer
      ∨ outer.isMapEntry = false ∧ ∃ message ∈ outer.messages, Exposes message inner := by
  constructor
  . intro h
    induction h with
    | self => exact .inl rfl
    | step _ hentry hinner ih =>
      cases ih with
      | inl heq =>
        subst heq
        exact .inr ⟨hentry, _, hinner, .self⟩
      | inr hin =>
        rcases hin with ⟨houter, message, hmem, hexposes⟩
        exact .inr ⟨houter, message, hmem, .step hexposes hentry hinner⟩
  . rintro (rfl | ⟨hentry, message, hmem, hexposes⟩)
    . exact .self
    . exact .of_mem hentry hmem hexposes

theorem Message.mem_postOrder {message inner : Message} :
    inner ∈ message.postOrder ↔ Exposes message inner := by
  induction message using treeInduction with
  | node message ih =>
    rw [postOrder_eq, exposes_iff, List.mem_append, List.mem_singleton, or_comm]
    apply or_congr Iff.rfl
    cases message.isMapEntry with
    | true => simp
    | false =>
      simp only [Bool.false_eq_true, ↓reduceIte, List.mem_flatMap, true_and]
      apply exists_congr
      intro nested
      apply and_congr_right
      intro hnested
      exact ih nested hnested

end Schema

namespace Binding

/--
`Mirrors nested message binding`: the binding has the shape of the message. It is marked if the
message is nested and inherited.
-/
inductive Mirrors : (nested : Bool) → Schema.Message → Message → Prop where
  | entry {nested : Bool} {message : Schema.Message} {binding : Message} :
    message.isMapEntry = true →
    binding.schema = message →
    (binding.isInheritance = true ↔ nested = true ∧ message.IsInherited) →
    binding.fields = [] →
    binding.innerMessages = [] →
    binding.javaClassName = "" →
    binding.extendArgs = false →
      Mirrors nested message binding
  | node {nested : Bool} {message : Schema.Message} {binding : Message}
    {options : Schema.MessageOptions} :
    message.isMapEntry = false →
    binding.schema = message →
    (binding.isInheritance = true ↔ nested = true ∧ message.IsInherited) →
    binding.fields.map (·.schema) = message.fields →
    List.Forall₂ (Mirrors true) message.messages binding.innerMessages →
    message.options = some options →
    binding.javaClassName = options.javaClassName →
    binding.extendArgs = options.extendArgs →
    binding.javaClassName ≠ "" ∨ binding.extendArgs = true →
      Mirrors nested message binding

structure MirrorsFile (file : Schema.File) (binding : File) : Prop where
  schema_eq : binding.schema = file
  enums_eq : binding.enums.map (·.schema) = file.enums
  messages : List.Forall₂ (Mirrors false) file.messages binding.messages

theorem inherits_iff {message : Schema.Message} :
    inherits message.options = true ↔ message.IsInherited := by
  unfold inherits Schema.Message.IsInherited
  rw [Option.any_eq_true]

theorem Mirrors.mark {message : Schema.Message} {binding : Message}
    (h : Mirrors false message binding) :
    Mirrors true message { binding with isInheritance := inherits message.options } := by
  have hmarked : inherits message.options = true ↔ true = true ∧ message.IsInherited := by
    rw [inherits_iff]
    simp
  cases h with
  | entry hentry hschema _ hfields hinner hclass hargs =>
    exact .entry hentry hschema hmarked hfields hinner hclass hargs
  | node hentry hschema _ hfields hinner hoptions hclass hargs hbound =>
    exact .node hentry hschema hmarked hfields hinner hoptions hclass hargs hbound

/-! ### Where binding stops -/

/--
The result is the error of the first of the messages that lacks a class. If there is none, it is a
value with the property.
-/
def StopsAt {α : Type} (messages : List Schema.Message) (P : α → Prop) (result : Except Error α) :
    Prop :=
  match messages.find? (·.lacksClass) with
  | some message => result = .error (.missingClassName message.fullName)
  | none => ∃ value, result = .ok value ∧ P value

namespace StopsAt

variable {α β : Type} {P : α → Prop} {Q : β → Prop}

theorem pure {value : α} (h : P value) : StopsAt [] P (Except.ok value) :=
  ⟨value, rfl, h⟩

theorem bind {before after : List Schema.Message} {result : Except Error α}
    {next : α → Except Error β} (hresult : StopsAt before P result)
    (hnext : ∀ value, P value → StopsAt after Q (next value)) :
    StopsAt (before ++ after) Q (result >>= next) := by
  unfold StopsAt at hresult
  split at hresult
  . next message hfind =>
    subst hresult
    unfold StopsAt
    rw [List.find?_append, hfind]
    rfl
  . next hfind =>
    rcases hresult with ⟨value, rfl, hvalue⟩
    have hafter := hnext value hvalue
    unfold StopsAt at hafter ⊢
    rw [List.find?_append, hfind]
    exact hafter

theorem mapM {f : α → Except Error β} {messages : α → List Schema.Message} {R : α → β → Prop}
    {items : List α} (h : ∀ item ∈ items, StopsAt (messages item) (R item) (f item)) :
    StopsAt (items.flatMap messages) (List.Forall₂ R items) (items.mapM f) := by
  induction items with
  | nil => exact pure .nil
  | cons item items ih =>
    rw [List.mapM_cons, List.flatMap_cons]
    apply (h item (by simp)).bind
    intro first hfirst
    rw [← List.append_nil (items.flatMap messages)]
    apply (ih fun other hother => h other (by simp [hother])).bind
    intro others hothers
    exact pure (.cons hfirst hothers)

theorem eq_error_iff {messages : List Schema.Message} {result : Except Error α}
    (h : StopsAt messages P result) {error : Error} :
    result = .error error
      ↔
    ∃ message, messages.find? (·.lacksClass) = some message
      ∧ error = .missingClassName message.fullName := by
  unfold StopsAt at h
  split at h
  . next message hfind =>
    rw [h, hfind]
    simp [eq_comm]
  . next hfind =>
    rcases h with ⟨value, rfl, -⟩
    simp [hfind]

theorem exists_eq_ok {messages : List Schema.Message} {result : Except Error α}
    (h : StopsAt messages P result) (hnone : messages.find? (·.lacksClass) = none) :
    ∃ value, result = .ok value ∧ P value := by
  unfold StopsAt at h
  rw [hnone] at h
  exact h

end StopsAt

theorem lacksClass_eq (message : Schema.Message) :
    message.lacksClass = (!message.isMapEntry && (bindable? message.options).isNone) := by
  unfold Schema.Message.lacksClass bindable?
  congr 1
  cases message.options with
  | none => rfl
  | some options =>
    by_cases hclass : options.javaClassName = ""
    . cases hargs : options.extendArgs with
      | true => simp [hclass, hargs]
      | false => simp [hclass, hargs]
    . simp [hclass]

theorem of_bindable?_eq_some {written : Option Schema.MessageOptions}
    {options : Schema.MessageOptions} (h : bindable? written = some options) :
    written = some options ∧ (options.javaClassName ≠ "" ∨ options.extendArgs = true) := by
  unfold bindable? at h
  rw [Option.filter_eq_some_iff] at h
  simpa using h

variable (packages : Packages)

theorem map_schema_fieldAt (table : ImportTable) (fields : List Schema.Field) :
    (fields.map (fieldAt packages table)).map (·.schema) = fields := by
  simp [Function.comp_def]

theorem stopsAt_messageAt (table : ImportTable) (message : Schema.Message) :
    StopsAt message.postOrder (Mirrors false message) (messageAt packages table message) := by
  induction message using Schema.Message.treeInduction with
  | node message ih =>
    have hinner : ∀ inner ∈ message.messages,
        StopsAt inner.postOrder (Mirrors true inner) (do
          let first ← messageAt packages table inner
          return { first with isInheritance := inherits inner.options }) := by
      intro inner hmem
      rw [← List.append_nil inner.postOrder]
      apply (ih inner hmem).bind
      intro binding hbinding
      exact .pure hbinding.mark
    rw [Schema.Message.postOrder_eq, messageAt_eq, innerMessagesAt_eq_mapM]
    cases hentry : message.isMapEntry with
    | true =>
      unfold StopsAt
      simp only [lacksClass_eq, hentry, ↓reduceIte, List.nil_append, List.find?_cons,
        Bool.not_true, Bool.false_and, List.find?_nil]
      exact ⟨_, rfl, .entry hentry rfl (by simp) rfl rfl rfl rfl⟩
    | false =>
      simp only [Bool.false_eq_true, ↓reduceIte]
      apply (StopsAt.mapM hinner).bind
      intro innerMessages hmirrors
      -- Only the message itself is left, and its own options decide.
      unfold StopsAt
      simp only [lacksClass_eq, hentry, Bool.not_false, Bool.true_and, List.find?_cons,
        List.find?_nil]
      cases hoptions : bindable? message.options with
      | none => rfl
      | some options =>
        rcases of_bindable?_eq_some hoptions with ⟨hwritten, hbound⟩
        exact ⟨_, rfl, .node hentry rfl (by simp) (map_schema_fieldAt packages table message.fields)
          hmirrors hwritten rfl rfl hbound⟩

theorem stopsAt_fileAt (table : ImportTable) (file : Schema.File) :
    StopsAt file.postOrder (MirrorsFile file) (fileAt packages table file) := by
  rw [← List.append_nil file.postOrder]
  apply (StopsAt.mapM fun message _ => stopsAt_messageAt packages table message).bind
  intro messages hmessages
  apply StopsAt.pure
  constructor
  . rfl
  . exact (List.map_map ..).trans (List.map_id _)
  . exact hmessages

theorem exists_find?_postOrder_iff (file : Schema.File) :
    (∃ message, file.postOrder.find? (·.lacksClass) = some message)
      ↔
    ∃ outer ∈ file.messages, ∃ message, outer.Exposes message ∧ message.lacksClass := by
  rw [← Option.isSome_iff_exists, List.find?_isSome]
  simp only [Schema.File.postOrder, List.mem_flatMap, Schema.Message.mem_postOrder]
  constructor
  . rintro ⟨message, ⟨outer, houter, hexposes⟩, hlacks⟩
    exact ⟨outer, houter, message, hexposes, hlacks⟩
  . rintro ⟨outer, houter, message, hexposes, hlacks⟩
    exact ⟨message, ⟨outer, houter, hexposes⟩, hlacks⟩

/--
Binding a file fails exactly if it exposes a message that lacks a class, and names the first of
them, inner messages before outer ones. Otherwise there is a binding, and it has the shape of the
file.
-/
theorem bindFile_outcome (table : ImportTable) (file : Schema.File) :
    ((∃ error, ((bindFile packages file).run.run table).1 = .error error)
      ↔
    ∃ outer ∈ file.messages, ∃ message, outer.Exposes message ∧ message.lacksClass)
    ∧ (∀ error, ((bindFile packages file).run.run table).1 = .error error
        ↔
      ∃ message, file.postOrder.find? (·.lacksClass) = some message
        ∧ error = .missingClassName message.fullName)
    ∧ ((¬∃ outer ∈ file.messages, ∃ message, outer.Exposes message ∧ message.lacksClass) →
        ∃ binding, ((bindFile packages file).run.run table).1 = .ok binding
          ∧ MirrorsFile file binding) := by
  have hstops := stopsAt_fileAt packages ((bindFile packages file).run.run table).2 file
  rw [← (writes_bindFile packages file).value_eq table _ (.refl _)] at hstops
  simp only [← exists_find?_postOrder_iff]
  refine ⟨?_, fun error => hstops.eq_error_iff, ?_⟩
  . constructor
    . rintro ⟨error, herror⟩
      rcases hstops.eq_error_iff.1 herror with ⟨message, hfind, -⟩
      exact ⟨message, hfind⟩
    . rintro ⟨message, hfind⟩
      exact ⟨_, hstops.eq_error_iff.2 ⟨message, hfind, rfl⟩⟩
  . intro hnone
    apply hstops.exists_eq_ok
    rw [Option.eq_none_iff_forall_not_mem]
    intro message hfind
    exact hnone ⟨message, hfind⟩

def memoFile (outerClass innerClass : String) : Schema.File :=
  { name := "memo.proto"
    messages := [
      { name := "Memo", fullName := "Memo"
        options := some { javaClassName := outerClass, isInheritance := true }
        messages := [
          { name := "Base", fullName := "Memo.Base"
            options := some { javaClassName := innerClass, isInheritance := true } },
          { name := "TagsEntry", fullName := "Memo.TagsEntry", isMapEntry := true
            messages := [{ name := "Tag", fullName := "Memo.TagsEntry.Tag" }] },
          { name := "Line", fullName := "Memo.Line", options := some { extendArgs := true } }] }] }

theorem bindFile_outcome_memoFile :
    (∃ binding, ((bindFile ⟨default, {}⟩ (memoFile "Memo" "Base")).run.run default).1 = .ok binding
      ∧ MirrorsFile (memoFile "Memo" "Base") binding
      ∧ binding.messages.map (fun message =>
          (message.isInheritance, message.innerMessages.map (·.isInheritance)))
        = [(false, [true, false, false])])
    ∧ ((bindFile ⟨default, {}⟩ (memoFile "" "")).run.run default).1
      = .error (.missingClassName "Memo.Base") := by
  rcases bindFile_outcome ⟨default, {}⟩ default (memoFile "Memo" "Base") with ⟨-, -, hmirrors⟩
  rcases bindFile_outcome ⟨default, {}⟩ default (memoFile "" "") with ⟨-, herror, -⟩
  constructor
  . have hnone : ¬∃ outer ∈ (memoFile "Memo" "Base").messages, ∃ message,
        outer.Exposes message ∧ message.lacksClass := by
      rw [← exists_find?_postOrder_iff]
      rintro ⟨message, hfind⟩
      cases hfind
    rcases hmirrors hnone with ⟨binding, hbinding, hshape⟩
    have hmarks : ∃ binding,
        ((bindFile ⟨default, {}⟩ (memoFile "Memo" "Base")).run.run default).1 = .ok binding
          ∧ binding.messages.map (fun message =>
              (message.isInheritance, message.innerMessages.map (·.isInheritance)))
            = [(false, [true, false, false])] :=
      ⟨_, rfl, rfl⟩
    rcases hmarks with ⟨other, hother, hmarks⟩
    cases hbinding.symm.trans hother
    exact ⟨binding, hbinding, hshape, hmarks⟩
  . rw [herror]
    exact ⟨_, rfl, rfl⟩

end Binding

end HessianGo
