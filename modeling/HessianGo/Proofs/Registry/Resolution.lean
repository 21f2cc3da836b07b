import HessianGo.Proofs.Registry.Index

/-!
This module contains the outcome of building a registry. A list of files is refused for the first
name that is declared again, else for the first type name that stands for nothing, and is accepted
otherwise; the files of the registry then differ from the given ones in the types of fields only.
-/

namespace HessianGo

open Schema

namespace Schema

structure Reference where
  scope : String
  written : String
  deriving DecidableEq

def Field.reference? (scope : String) (field : Field) : Option Reference :=
  match field.type with
  | .named written => some { scope, written }
  | _ => none

mutual

def Message.references : Message → List Reference
  | ⟨_, fullName, fields, messages, _, _, _, _⟩ =>
    fields.filterMap (Field.reference? fullName) ++ referencesOfList messages

def Message.referencesOfList : List Message → List Reference
  | [] => []
  | message :: messages => message.references ++ referencesOfList messages

end

def File.references (file : File) : List Reference :=
  file.messages.flatMap Message.references

theorem Message.referencesOfList_eq_flatMap (messages : List Message) :
    referencesOfList messages = messages.flatMap references := by
  induction messages with
  | nil => simp [referencesOfList]
  | cons message messages ih => simp [referencesOfList, ih]

theorem Message.references_eq (message : Message) :
    message.references
      =
    message.fields.filterMap (Field.reference? message.fullName)
      ++ message.messages.flatMap references := by
  cases message
  rw [references]
  rw [referencesOfList_eq_flatMap]

theorem Field.reference?_eq_some_iff {scope : String} {field : Field} {reference : Reference} :
    field.reference? scope = some reference
      ↔
    reference.scope = scope ∧ field.type = .named reference.written := by
  unfold reference?
  cases field.type with
  | named written =>
    cases reference
    simp [eq_comm]
  | scalar type => simp
  | message fullName => simp
  | enum fullName => simp

theorem Message.mem_references {message : Message} {reference : Reference} :
    reference ∈ message.references
      ↔
    ∃ inner, message.Within inner ∧ inner.fullName = reference.scope
      ∧ ∃ field ∈ inner.fields, field.type = .named reference.written := by
  induction message using treeInduction with
  | node message ih =>
    rw [references_eq]
    simp only [List.mem_append, List.mem_filterMap, List.mem_flatMap, Field.reference?_eq_some_iff]
    constructor
    . rintro (⟨field, hfield, hscope, htype⟩ | ⟨nested, hnested, hmem⟩)
      . exact ⟨message, .self, hscope.symm, field, hfield, htype⟩
      . rcases (ih nested hnested).1 hmem with ⟨inner, hwithin, hinner⟩
        exact ⟨inner, .of_mem hnested hwithin, hinner⟩
    . rintro ⟨inner, hwithin, hscope, field, hfield, htype⟩
      rcases within_iff.1 hwithin with rfl | ⟨nested, hnested, hwithin⟩
      . exact .inl ⟨field, hfield, hscope.symm, htype⟩
      . have hmem := (ih nested hnested).2 ⟨inner, hwithin, hscope, field, hfield, htype⟩
        exact .inr ⟨nested, hnested, hmem⟩

theorem File.mem_references {file : File} {reference : Reference} :
    reference ∈ file.references
      ↔
    ∃ message, file.DeclaresMessage message ∧ message.fullName = reference.scope
      ∧ ∃ field ∈ message.fields, field.type = .named reference.written := by
  simp only [references, DeclaresMessage, List.mem_flatMap, Message.mem_references]
  constructor
  . rintro ⟨outer, houter, message, hwithin, hmessage⟩
    exact ⟨message, ⟨outer, houter, hwithin⟩, hmessage⟩
  . rintro ⟨message, ⟨outer, houter, hwithin⟩, hmessage⟩
    exact ⟨outer, houter, message, hwithin, hmessage⟩

end Schema

namespace Registry

/-! ### Resolving files -/

/--
The value, unless one of the references has no declaration: then the first of these is the error.
-/
def unlessUnresolved {α : Type} (declarations : List Declaration) (references : List Reference)
    (value : α) : Except Error α :=
  match references.find? fun r => (resolve? declarations r.scope r.written).isNone with
  | some r => .error (.unresolvedType r.written r.scope)
  | none => .ok value

def resolvedField (declarations : List Declaration) (scope : String) (field : Field) : Field :=
  match field.type with
  | .named written =>
    match resolve? declarations scope written with
    | some declaration => { field with type := declaration.fieldType }
    | none => field
  | _ => field

section

variable {α β : Type} (declarations : List Declaration)

theorem unlessUnresolved_bind (first second : List Reference) (value : α) (f : α → β) :
    (unlessUnresolved declarations first value
        >>= fun value => unlessUnresolved declarations second (f value))
      =
    unlessUnresolved declarations (first ++ second) (f value) := by
  unfold unlessUnresolved
  rw [List.find?_append]
  cases first.find? fun r => (resolve? declarations r.scope r.written).isNone with
  | none => rfl
  | some reference => rfl

theorem unlessUnresolved_map (references : List Reference) (value : α) (f : α → β) :
    f <$> unlessUnresolved declarations references value
      =
    unlessUnresolved declarations references (f value) := by
  unfold unlessUnresolved
  cases references.find? fun r => (resolve? declarations r.scope r.written).isNone with
  | none => rfl
  | some reference => rfl

theorem mapM_eq_unlessUnresolved {resolve : α → Except Error β} {references : α → List Reference}
    {resolved : α → β} {items : List α}
    (h : ∀ item ∈ items,
      resolve item = unlessUnresolved declarations (references item) (resolved item)) :
    items.mapM resolve
      =
    unlessUnresolved declarations (items.flatMap references) (items.map resolved) := by
  induction items with
  | nil => rfl
  | cons item items ih =>
    rw [List.mapM_cons]
    rw [h item (by simp)]
    rw [ih fun other hother => h other (by simp [hother])]
    simp only [bind_pure_comp, unlessUnresolved_map]
    rw [unlessUnresolved_bind declarations _ _ _ fun first => first :: items.map resolved]
    simp

theorem resolveMessages_eq_mapM (index : Index) (messages : List Message) :
    resolveMessages index messages = messages.mapM (resolveMessage index) := by
  induction messages with
  | nil => rfl
  | cons message messages ih => rw [resolveMessages, List.mapM_cons, ih]

variable {declarations} {index : Index}
  (hindex : ∀ scope written,
    index.resolve? scope written = (resolve? declarations scope written).map (·.fieldType))

include hindex

theorem resolveField_eq (scope : String) (field : Field) :
    resolveField index scope field
      =
    unlessUnresolved declarations (field.reference? scope).toList
      (resolvedField declarations scope field) := by
  unfold resolveField resolvedField Field.reference?
  cases field.type with
  | named written =>
    simp only [hindex]
    cases hresolve : resolve? declarations scope written with
    | some declaration => simp [unlessUnresolved, hresolve]
    | none => simp [unlessUnresolved, hresolve]
  | scalar type => rfl
  | message fullName => rfl
  | enum fullName => rfl

theorem resolveMessage_eq (message : Message) :
    resolveMessage index message
      =
    unlessUnresolved declarations message.references
      (message.mapFields (resolvedField declarations)) := by
  induction message using Message.treeInduction with
  | node message ih =>
    have hfield : ∀ field ∈ message.fields, _ :=
      fun field _ => resolveField_eq hindex message.fullName field
    have hfields := mapM_eq_unlessUnresolved declarations hfield
    have hmessages := mapM_eq_unlessUnresolved declarations ih
    rw [Message.references_eq, Message.mapFields_eq]
    rw [List.filterMap_eq_flatMap_toList]
    cases message
    rw [resolveMessage, resolveMessages_eq_mapM]
    rw [hfields, hmessages]
    simp only [bind_pure_comp, unlessUnresolved_map]
    apply unlessUnresolved_bind

theorem resolveFile_eq (file : File) :
    resolveFile index file
      =
    unlessUnresolved declarations file.references
      (file.mapFields (resolvedField declarations)) := by
  have hmessage : ∀ message ∈ file.messages, _ :=
    fun message _ => resolveMessage_eq hindex message
  have hmessages := mapM_eq_unlessUnresolved declarations hmessage
  unfold resolveFile
  rw [resolveMessages_eq_mapM]
  rw [hmessages]
  simp only [bind_pure_comp, unlessUnresolved_map]
  rfl

end

/-! ### The first unresolved name -/

/--
Some declared name is what the reference stands for.
-/
def IsResolved (declared : List String) (reference : Reference) : Prop :=
  ∃ full, StandsFor declared reference.scope reference.written full

def FirstUnresolved (declared : List String) (references : List Reference)
    (reference : Reference) : Prop :=
  ∃ before after, references = before ++ reference :: after
    ∧ (∀ other ∈ before, IsResolved declared other) ∧ ¬ IsResolved declared reference

section

variable {α : Type} {declarations : List Declaration}

theorem isNone_resolve?_iff {reference : Reference} :
    (resolve? declarations reference.scope reference.written).isNone
      ↔
    ¬ IsResolved (declarations.map (·.fullName)) reference := by
  rw [Option.isNone_iff_eq_none]
  rw [resolve?_eq_none_iff]
  unfold IsResolved
  rw [not_exists]

theorem unlessUnresolved_eq_error_iff {references : List Reference} {value : α} {error : Error} :
    unlessUnresolved declarations references value = .error error
      ↔
    ∃ reference, FirstUnresolved (declarations.map (·.fullName)) references reference
      ∧ error = .unresolvedType reference.written reference.scope := by
  have hfirst (reference : Reference) :
      references.find? (fun r => (resolve? declarations r.scope r.written).isNone) = some reference
        ↔
      FirstUnresolved (declarations.map (·.fullName)) references reference := by
    rw [List.find?_eq_some_iff_append]
    simp only [isNone_resolve?_iff, Bool.not_eq_eq_eq_not, Bool.not_true, ← Bool.not_eq_true,
      not_not]
    unfold FirstUnresolved
    grind
  unfold unlessUnresolved
  cases hfind : references.find? fun r => (resolve? declarations r.scope r.written).isNone with
  | none => simp [← hfirst, hfind]
  | some reference => simp [← hfirst, hfind, eq_comm]

theorem unlessUnresolved_eq_ok_iff {references : List Reference} {value result : α} :
    unlessUnresolved declarations references value = .ok result
      ↔
    (∀ reference ∈ references, IsResolved (declarations.map (·.fullName)) reference)
      ∧ result = value := by
  have hnone :
      references.find? (fun r => (resolve? declarations r.scope r.written).isNone) = none
        ↔
      ∀ reference ∈ references, IsResolved (declarations.map (·.fullName)) reference := by
    simp only [List.find?_eq_none, isNone_resolve?_iff, not_not]
  unfold unlessUnresolved
  rw [← hnone]
  cases references.find? fun r => (resolve? declarations r.scope r.written).isNone with
  | none => simp [eq_comm]
  | some reference => simp

end

/-! ### Replaced fields -/

/--
The second field is the first one with its type name, if it has one, replaced by the declaration
that the name stands for.
-/
def Replaces (declarations : List Declaration) (scope : String) (field replaced : Field) : Prop :=
  match field.type with
  | .named written =>
    ∃ declaration ∈ declarations,
      StandsFor (declarations.map (·.fullName)) scope written declaration.fullName
        ∧ replaced = { field with type := declaration.fieldType }
  | _ => replaced = field

theorem replaces_iff {declarations : List Declaration} {scope : String} {field replaced : Field}
    (hnodup : (declarations.map (·.fullName)).Nodup) :
    Replaces declarations scope field replaced
      ↔
    (∀ reference ∈ field.reference? scope, IsResolved (declarations.map (·.fullName)) reference)
      ∧ replaced = resolvedField declarations scope field := by
  unfold Replaces Field.reference? resolvedField
  cases field.type with
  | scalar type => simp
  | message fullName => simp
  | enum fullName => simp
  | named written =>
    simp only [Option.mem_def, Option.some.injEq, forall_eq']
    cases hresolve : resolve? declarations scope written with
    | none =>
      have hnone := resolve?_eq_none_iff.1 hresolve
      simp [IsResolved, hnone]
    | some declaration =>
      have hmem := mem_of_resolve?_eq_some hresolve
      have hstands (full : String) :
          StandsFor (declarations.map (·.fullName)) scope written full
            ↔
          declaration.fullName = full := by
        rw [← map_fullName_resolve?_eq_some_iff]
        simp [hresolve]
      simp only [IsResolved, hstands, exists_eq', true_and]
      constructor
      . rintro ⟨other, hother, hname, rfl⟩
        rw [List.inj_on_of_nodup_map hnodup hmem hother hname]
      . rintro rfl
        exact ⟨declaration, hmem, rfl, rfl⟩

theorem ne_named_of_replaces {declarations : List Declaration} {scope : String}
    {field replaced : Field} (h : Replaces declarations scope field replaced) (written : String) :
    replaced.type ≠ .named written := by
  unfold Replaces at h
  cases htype : field.type with
  | named name =>
    rw [htype] at h
    rcases h with ⟨declaration, -, -, rfl⟩
    cases declaration with
    | message message => exact nofun
    | enum enum => exact nofun
  | _ =>
    rw [htype] at h
    rw [h, htype]
    exact nofun

/-! ### The outcome -/

theorem map_files_ofFiles (files : List File) :
    (·.files) <$> ofFiles files
      =
    Index.ofFiles files >>= fun index => files.mapM (resolveFile index) := by
  unfold ofFiles
  split
  . next error herror =>
    rw [herror]
    rfl
  . next index hindex =>
    have hresolve : (Index.ofFiles files >>= fun index => files.mapM (resolveFile index))
        = files.mapM (resolveFile index) := by
      rw [hindex]
      rfl
    rw [hresolve]
    split
    . next error herror => exact herror.symm
    . next resolved hresolved => exact hresolved.symm

theorem map_files_ofFiles_eq (files : List File) :
    (·.files) <$> ofFiles files
      =
    match firstRepeated? [] (declaredNames files) with
    | some name => .error (.duplicateType name)
    | none =>
      unlessUnresolved (declared files) (files.flatMap File.references)
        (files.map (.mapFields (resolvedField (declared files)))) := by
  rw [map_files_ofFiles]
  cases hindex : Index.ofFiles files with
  | error error =>
    rw [Index.ofFiles_eq] at hindex
    cases hrepeated : firstRepeated? [] (declaredNames files) with
    | none => simp [hrepeated] at hindex
    | some name =>
      rw [hrepeated] at hindex
      cases hindex
      rfl
  | ok index =>
    have hfile : ∀ file ∈ files, _ := fun file _ => resolveFile_eq (Index.resolve?_eq hindex) file
    rw [firstRepeated?_nil_eq_none_iff.2 (Index.ofFiles_eq_ok_iff.1 hindex).1]
    exact mapM_eq_unlessUnresolved (declared files) hfile

theorem ofFiles_eq_error_iff {files : List File} {error : Error} :
    ofFiles files = .error error ↔ (·.files) <$> ofFiles files = .error error := by
  cases ofFiles files with
  | ok registry => simp
  | error cause => simp

theorem ofFiles_eq_duplicateType_iff {files : List File} {name : String} :
    ofFiles files = .error (.duplicateType name) ↔ FirstRepetition (declaredNames files) name := by
  rw [ofFiles_eq_error_iff, map_files_ofFiles_eq]
  rw [← firstRepeated?_nil_eq_some_iff]
  cases firstRepeated? [] (declaredNames files) with
  | some first => simp
  | none => simp [unlessUnresolved_eq_error_iff]

theorem ofFiles_eq_unresolvedType_iff {files : List File} {written scope : String} :
    ofFiles files = .error (.unresolvedType written scope)
      ↔
    (declaredNames files).Nodup
      ∧ FirstUnresolved (declaredNames files) (files.flatMap File.references) ⟨scope, written⟩ := by
  rw [ofFiles_eq_error_iff, map_files_ofFiles_eq]
  rw [← firstRepeated?_nil_eq_none_iff]
  cases firstRepeated? [] (declaredNames files) with
  | some first => simp
  | none =>
    simp only [unlessUnresolved_eq_error_iff, Error.unresolvedType.injEq, true_and]
    constructor
    . rintro ⟨reference, hfirst, rfl, rfl⟩
      exact hfirst
    . intro hfirst
      exact ⟨_, hfirst, rfl, rfl⟩

theorem ofFiles_eq_ok_iff {files : List File} {registry : Registry} :
    ofFiles files = .ok registry
      ↔
    (declaredNames files).Nodup
      ∧ (∀ reference ∈ files.flatMap File.references, IsResolved (declaredNames files) reference)
      ∧ registry.files = files.map (.mapFields (resolvedField (declared files))) := by
  have hfiles :
      ofFiles files = .ok registry ↔ (·.files) <$> ofFiles files = .ok registry.files := by
    cases ofFiles files with
    | ok other =>
      simp only [Except.map_ok, Except.ok.injEq]
      exact Registry.ext_iff
    | error error => simp
  rw [hfiles, map_files_ofFiles_eq]
  rw [← firstRepeated?_nil_eq_none_iff]
  cases firstRepeated? [] (declaredNames files) with
  | some first => simp
  | none => simp [unlessUnresolved_eq_ok_iff, declaredNames]

theorem isResolved_references_iff {files : List File} :
    (∀ reference ∈ files.flatMap File.references, IsResolved (declaredNames files) reference)
      ↔
    ∀ file ∈ files, ∀ message, file.DeclaresMessage message → ∀ field ∈ message.fields,
      ∀ reference ∈ field.reference? message.fullName,
        IsResolved (declaredNames files) reference := by
  simp only [List.mem_flatMap, File.mem_references, Option.mem_def, Field.reference?_eq_some_iff]
  constructor
  . intro h file hfile message hmessage field hfield reference hreference
    rcases hreference with ⟨hscope, htype⟩
    exact h reference ⟨file, hfile, message, hmessage, hscope.symm, field, hfield, htype⟩
  . rintro h reference ⟨file, hfile, message, hmessage, hscope, field, hfield, htype⟩
    exact h file hfile message hmessage field hfield reference ⟨hscope.symm, htype⟩

theorem ofFiles_cases (files : List File) :
    (∃ name, ofFiles files = .error (.duplicateType name))
      ∨ (∃ written scope, ofFiles files = .error (.unresolvedType written scope))
      ∨ ∃ registry, ofFiles files = .ok registry := by
  cases hresult : ofFiles files with
  | ok registry => simp
  | error error =>
    rw [ofFiles_eq_error_iff, map_files_ofFiles_eq] at hresult
    cases hrepeated : firstRepeated? [] (declaredNames files) with
    | some name =>
      simp only [hrepeated, Except.error.injEq] at hresult
      simp [← hresult]
    | none =>
      simp only [hrepeated, unlessUnresolved_eq_error_iff] at hresult
      rcases hresult with ⟨reference, -, rfl⟩
      simp

theorem FirstRepetition.not_nodup {names : List String} {name : String}
    (h : FirstRepetition names name) : ¬ names.Nodup := by
  rcases h with ⟨before, after, rfl, -, hmem⟩
  intro hnodup
  have hdisjoint := (List.nodup_append.1 hnodup).2.2
  exact hdisjoint name hmem name (by simp) rfl

theorem FirstUnresolved.exists_mem {names : List String} {references : List Reference}
    {reference : Reference} (h : FirstUnresolved names references reference) :
    reference ∈ references ∧ ¬ IsResolved names reference := by
  rcases h with ⟨before, after, rfl, -, hunresolved⟩
  exact ⟨by simp, hunresolved⟩

theorem exists_ofFiles_eq_duplicateType_iff {files : List File} :
    (∃ name, ofFiles files = .error (.duplicateType name)) ↔ ¬ (declaredNames files).Nodup := by
  constructor
  . rintro ⟨name, hname⟩
    exact (ofFiles_eq_duplicateType_iff.1 hname).not_nodup
  . intro hnodup
    rcases ofFiles_cases files with hduplicate | ⟨written, scope, hunresolved⟩ | ⟨registry, hok⟩
    . exact hduplicate
    . exact absurd (ofFiles_eq_unresolvedType_iff.1 hunresolved).1 hnodup
    . exact absurd (ofFiles_eq_ok_iff.1 hok).1 hnodup

theorem exists_ofFiles_eq_unresolvedType_iff {files : List File} :
    (∃ written scope, ofFiles files = .error (.unresolvedType written scope))
      ↔
    (declaredNames files).Nodup
      ∧ ∃ reference ∈ files.flatMap File.references,
        ¬ IsResolved (declaredNames files) reference := by
  constructor
  . rintro ⟨written, scope, hunresolved⟩
    rcases ofFiles_eq_unresolvedType_iff.1 hunresolved with ⟨hnodup, hfirst⟩
    exact ⟨hnodup, _, hfirst.exists_mem⟩
  . rintro ⟨hnodup, reference, hmem, hreference⟩
    rcases ofFiles_cases files with hduplicate | hunresolved | ⟨registry, hok⟩
    . exact absurd hnodup (exists_ofFiles_eq_duplicateType_iff.1 hduplicate)
    . exact hunresolved
    . exact absurd ((ofFiles_eq_ok_iff.1 hok).2.1 reference hmem) hreference

theorem exists_ofFiles_eq_ok {files : List File} (hnodup : (declaredNames files).Nodup)
    (hresolved : ∀ reference ∈ files.flatMap File.references,
      IsResolved (declaredNames files) reference) :
    ∃ registry, ofFiles files = .ok registry := by
  rcases ofFiles_cases files with hduplicate | ⟨written, scope, hunresolved⟩ | hok
  . exact absurd hnodup (exists_ofFiles_eq_duplicateType_iff.1 hduplicate)
  . rcases (ofFiles_eq_unresolvedType_iff.1 hunresolved).2.exists_mem with ⟨hmem, hnot⟩
    exact absurd (hresolved _ hmem) hnot
  . exact hok

theorem ofFiles_eq_ok_iff_replaces {files : List File} {registry : Registry} :
    ofFiles files = .ok registry
      ↔
    (declaredNames files).Nodup
      ∧ ∃ f, registry.files = files.map (.mapFields f)
        ∧ ∀ file ∈ files, ∀ message, file.DeclaresMessage message → ∀ field ∈ message.fields,
          Replaces (declared files) message.fullName field (f message.fullName field) := by
  rw [ofFiles_eq_ok_iff]
  apply and_congr_right
  intro hnodup
  rw [isResolved_references_iff]
  constructor
  . rintro ⟨hresolved, hfiles⟩
    refine ⟨resolvedField (declared files), hfiles, ?_⟩
    intro file hfile message hmessage field hfield
    rw [replaces_iff hnodup]
    exact ⟨hresolved file hfile message hmessage field hfield, rfl⟩
  . rintro ⟨f, hfiles, hreplaces⟩
    simp only [replaces_iff hnodup] at hreplaces
    refine ⟨?_, ?_⟩
    . intro file hfile message hmessage field hfield
      exact (hreplaces file hfile message hmessage field hfield).1
    . rw [hfiles]
      apply List.map_congr_left
      intro file hfile
      apply File.mapFields_congr
      intro message hmessage field hfield
      exact (hreplaces file hfile message hmessage field hfield).2

/--
Building a registry fails for the first name that is declared again; else for the first type name,
those of a message before those of the messages inside it, that stands for no declared name; else it
succeeds, and nothing but the type names is replaced, each by the declaration it stands for.
-/
theorem ofFiles_outcome (files : List File) :
    (∀ name, ofFiles files = .error (.duplicateType name)
      ↔ FirstRepetition (declaredNames files) name)
    ∧ ((∃ name, ofFiles files = .error (.duplicateType name)) ↔ ¬ (declaredNames files).Nodup)
    ∧ (∀ written scope, ofFiles files = .error (.unresolvedType written scope)
      ↔ (declaredNames files).Nodup
        ∧ FirstUnresolved (declaredNames files) (files.flatMap File.references) ⟨scope, written⟩)
    ∧ ((∃ written scope, ofFiles files = .error (.unresolvedType written scope))
      ↔ (declaredNames files).Nodup
        ∧ ∃ file ∈ files, ∃ message, file.DeclaresMessage message ∧ ∃ field ∈ message.fields,
          ∃ written, field.type = .named written
            ∧ ∀ full, ¬ StandsFor (declaredNames files) message.fullName written full)
    ∧ (∀ registry, ofFiles files = .ok registry
      ↔ (declaredNames files).Nodup
        ∧ ∃ f, registry.files = files.map (.mapFields f)
          ∧ ∀ file ∈ files, ∀ message, file.DeclaresMessage message → ∀ field ∈ message.fields,
            Replaces (declared files) message.fullName field (f message.fullName field))
    ∧ ((∃ name, ofFiles files = .error (.duplicateType name))
      ∨ (∃ written scope, ofFiles files = .error (.unresolvedType written scope))
      ∨ ∃ registry, ofFiles files = .ok registry) := by
  refine ⟨?_, ?_, ?_, ?_, ?_, ?_⟩
  . intro name
    exact ofFiles_eq_duplicateType_iff
  . exact exists_ofFiles_eq_duplicateType_iff
  . intro written scope
    exact ofFiles_eq_unresolvedType_iff
  . rw [exists_ofFiles_eq_unresolvedType_iff]
    apply and_congr_right
    intro _
    constructor
    . rintro ⟨reference, hmem, hreference⟩
      rcases List.mem_flatMap.1 hmem with ⟨file, hfile, hmem⟩
      rcases File.mem_references.1 hmem with ⟨message, hmessage, hscope, field, hfield, htype⟩
      refine ⟨file, hfile, message, hmessage, field, hfield, reference.written, htype, ?_⟩
      rw [hscope]
      exact not_exists.1 hreference
    . rintro ⟨file, hfile, message, hmessage, field, hfield, written, htype, hnone⟩
      refine ⟨⟨message.fullName, written⟩, ?_, not_exists.2 hnone⟩
      apply List.mem_flatMap.2
      exact ⟨file, hfile, File.mem_references.2 ⟨message, hmessage, rfl, field, hfield, htype⟩⟩
  . intro registry
    exact ofFiles_eq_ok_iff_replaces
  . exact ofFiles_cases files

end Registry

end HessianGo
