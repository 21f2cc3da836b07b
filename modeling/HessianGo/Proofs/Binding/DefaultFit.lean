import HessianGo.Proofs.Binding.TypeText

/-!
This module contains the defaults of bound fields of messages and enums. A field whose Go type has
`nil` should have it as its default, and one of an enum should have a value of the enum. A default
that the schema writes out is taken as it is, so that both hold exactly if it suits the type of the
field.
-/

namespace HessianGo

namespace Registry

open Schema (Field Message)

section

variable {files : List Schema.File} {registry : Registry} {fullName : String} {message : Message}
  {field : Field}

theorem exists_enum?_of_type
    (hfiles : ∀ file ∈ files, ∃ name text, Schema.File.ofText name text = .ok file)
    (h : ofFiles files = .ok registry) (hfound : registry.message? fullName = some message)
    (hfield : field ∈ message.fields) {enumName : String} (htype : field.type = .enum enumName) :
    ∃ enum, registry.enum? enumName = some enum := by
  rcases exists_replaces hfiles h hfound hfield with ⟨scope, written, _, _, hfits, hreplaces⟩
  unfold Replaces at hreplaces
  split at hreplaces
  . rcases hreplaces with ⟨declaration, hmem, -, rfl⟩
    cases declaration with
    | message message => cases htype
    | enum enum =>
      cases htype
      exact ⟨enum, enum?_of_mem_declared h hmem⟩
  . -- What was not replaced is as it was read, and no enum is.
    have hread := hfits.type
    rw [← hreplaces, htype] at hread
    rcases hread with hread | ⟨_, hmessage⟩
    . exact hread.elim
    . cases hmessage

theorem exists_constant_of_type
    (hfiles : ∀ file ∈ files, ∃ name text, Schema.File.ofText name text = .ok file)
    (h : ofFiles files = .ok registry) (hfound : registry.message? fullName = some message)
    (hfield : field ∈ message.fields) (htype : ∀ type, field.type ≠ .scalar type)
    {value : Schema.DefaultValue} (hvalue : field.defaultValue = some value) :
    ∃ constant, value = .constant constant := by
  rcases exists_replaces hfiles h hfound hfield with ⟨scope, written, _, _, hfits, hreplaces⟩
  have hscalar : ∀ type, written.type ≠ .scalar type := by
    intro type hwritten
    unfold Replaces at hreplaces
    rw [hwritten] at hreplaces
    rw [hreplaces] at htype
    exact htype type hwritten
  have hdefault : written.defaultValue = some value := by
    rw [← hvalue]
    unfold Replaces at hreplaces
    split at hreplaces
    . rcases hreplaces with ⟨declaration, -, -, rfl⟩
      rfl
    . rw [hreplaces]
  have hsuits := (hfits.defaultValue value hdefault).2
  cases value with
  | text value => exact absurd hsuits (hscalar _)
  | bytes value => exact absurd hsuits (hscalar _)
  | constant constant => exact ⟨constant, rfl⟩

end

end Registry

theorem Code.ImportTable.IsReference.name_eq {table : ImportTable} (hwellFormed : table.WellFormed)
    {first second : Ident} {text : String} (hfirst : table.IsReference first text)
    (hsecond : table.IsReference second text)
    (hpath : first.importPath.path = second.importPath.path) : first.name = second.name := by
  rcases hfirst with ⟨hbare, rfl⟩ | ⟨name, hentry, rfl⟩
  . rcases hsecond with ⟨-, htext⟩ | ⟨name, hentry, -⟩
    . exact htext
    . have hqualified := hwellFormed.not_isBare _ hentry
      rw [← hpath, hbare] at hqualified
      cases hqualified
  . rcases hsecond with ⟨hbare, -⟩ | ⟨other, hother, htext⟩
    . have hqualified := hwellFormed.not_isBare _ hentry
      rw [hpath, hbare] at hqualified
      cases hqualified
    . rw [← hwellFormed.alias?_eq_some_iff] at hentry hother
      rw [hpath, hother] at hentry
      rw [Option.some.inj hentry, String.append_right_inj] at htext
      exact htext

namespace Binding

open Code (Packages ImportTable Ident)

/--
The Go type of the field has `nil`: the field holds a message, a list or a map, or is boxed.
-/
def IsNilable (packages : Packages) (field : Schema.Field) : Prop :=
  field.messageType?.isSome ∨ field.isRepeated ∨ (entryFields? packages field).isSome
    ∨ field.isWrapper

/--
In a file with this import table, the default of the bound field is one that its type has: `nil`, or
for an enum with values a reference to one of them.
-/
structure HasFittingDefault (packages : Packages) (table : ImportTable) (bound : Field) : Prop where
  nil : IsNilable packages bound.schema → bound.defaultValue = "nil"
  value : bound.schema.isRepeated = false → bound.schema.isWrapper = false →
    ∀ enumName, bound.schema.type = .enum enumName →
      ∃ enum, packages.registry.enum? enumName = some enum
        ∧ (enum.values ≠ [] → ∃ value ∈ enum.values,
          table.IsReference (packages.enumValueIdent enumName value.name) bound.defaultValue)

/--
`Allows registry type written`: the type has the constant. Of messages there is only `nil`, and an
enum with values has their names.
-/
def Allows (registry : Registry) (type : Schema.FieldType) (written : String) : Prop :=
  match type with
  | .message _ => written = "nil"
  | .enum enumName => ∀ enum, registry.enum? enumName = some enum → enum.values ≠ [] →
    ∃ value ∈ enum.values, value.name = written
  | _ => True

/-! ### Fields that hold one value and are not boxed -/

section

variable {packages : Packages} {final : ImportTable} {bound : Field}

theorem IsBound.defaultValue_of_container (h : IsBound packages final bound)
    (hcontainer : bound.schema.isRepeated ∨ bound.schema.isWrapper) :
    bound.defaultValue = "nil" := by
  rw [h.defaultValue_eq]
  split
  . rfl
  . next hwrapper =>
    rw [fieldDefault, if_pos (hcontainer.resolve_right hwrapper)]
    rfl

theorem isNilable_iff {field : Schema.Field} (hsingle : field.isRepeated = false)
    (hplain : field.isWrapper = false) :
    IsNilable packages field ↔ field.messageType?.isSome := by
  -- The entries of a map are messages.
  have hentry : (entryFields? packages field).isSome → field.messageType?.isSome := by
    unfold entryFields?
    cases field.messageType? with
    | none => exact id
    | some name => exact fun _ => rfl
  unfold IsNilable
  rw [hsingle, hplain]
  simpa using hentry

theorem hasFittingDefault_of_message (hsingle : bound.schema.isRepeated = false)
    (hplain : bound.schema.isWrapper = false) {fullName : String}
    (htype : bound.schema.type = .message fullName) :
    HasFittingDefault packages final bound ↔ bound.defaultValue = "nil" := by
  have hnilable : IsNilable packages bound.schema := by
    rw [isNilable_iff hsingle hplain, messageType?_of_type htype]
    rfl
  constructor
  . intro hfits
    exact hfits.nil hnilable
  . intro hnil
    refine ⟨fun _ => hnil, ?_⟩
    intro _ _ enumName henum
    rw [htype] at henum
    cases henum

theorem hasFittingDefault_of_enum (hsingle : bound.schema.isRepeated = false)
    (hplain : bound.schema.isWrapper = false) {enumName : String}
    (htype : bound.schema.type = .enum enumName) {enum : Schema.Enum}
    (hfound : packages.registry.enum? enumName = some enum) :
    HasFittingDefault packages final bound
      ↔
    (enum.values ≠ [] → ∃ value ∈ enum.values,
      final.IsReference (packages.enumValueIdent enumName value.name) bound.defaultValue) := by
  constructor
  . intro hfits
    rcases hfits.value hsingle hplain enumName htype with ⟨other, hother, hvalues⟩
    rw [hfound] at hother
    cases hother
    exact hvalues
  . intro hvalues
    refine ⟨?_, ?_⟩
    . rw [isNilable_iff hsingle hplain, Schema.Field.messageType?, htype]
      intro hsome
      cases hsome
    . intro _ _ other hother
      rw [htype] at hother
      cases hother
      exact ⟨enum, hfound, hvalues⟩

theorem IsBound.isReference_of_fieldDefault (h : IsBound packages final bound)
    (hplain : bound.schema.isWrapper = false) {ident : Ident}
    (hdefault : fieldDefault packages bound.schema = .ident ident) :
    final.IsReference ident bound.defaultValue := by
  rcases h.eq_fieldAt with ⟨-, hwellFormed, hknows⟩
  have hident : ident ∈ fieldIdents packages bound.schema := by
    rw [fieldIdents, hdefault]
    exact List.mem_append_right _ (List.mem_singleton_self ident)
  rw [h.defaultValue_eq, hplain, hdefault]
  exact (hknows ident hident).isReference hwellFormed

theorem isReference_enumValueIdent_iff (hwellFormed : final.WellFormed)
    {enumName first second text : String}
    (h : final.IsReference (packages.enumValueIdent enumName first) text) :
    final.IsReference (packages.enumValueIdent enumName second) text ↔ second = first := by
  constructor
  . intro hsecond
    have hname := hsecond.name_eq hwellFormed h rfl
    exact (String.append_right_inj _).1 hname
  . rintro rfl
    exact h

end

section

variable {files : List Schema.File} {registry : Registry} {config : Config} {final : ImportTable}
  {bound : Field}

section

variable {packages : Packages} (h : IsBound packages final bound)
  (hsingle : bound.schema.isRepeated = false) (hplain : bound.schema.isWrapper = false)

include h hsingle hplain

theorem defaultValue_of_constant {fullName written : String}
    (htype : bound.schema.type = .message fullName)
    (hvalue : bound.schema.defaultValue = some (.constant written)) :
    bound.defaultValue = written := by
  rw [h.defaultValue_eq, hplain, fieldDefault_of_some hsingle hvalue, htype]
  rfl

theorem isReference_of_constant {enumName written : String}
    (htype : bound.schema.type = .enum enumName)
    (hvalue : bound.schema.defaultValue = some (.constant written)) :
    final.IsReference (packages.enumValueIdent enumName written) bound.defaultValue := by
  apply h.isReference_of_fieldDefault hplain
  rw [fieldDefault_of_some hsingle hvalue, htype]
  rfl

theorem defaultValue_of_none {fullName : String} (htype : bound.schema.type = .message fullName)
    (hvalue : bound.schema.defaultValue = none) : bound.defaultValue = "nil" := by
  rw [h.defaultValue_eq, hplain, fieldDefault_of_none hsingle hvalue, htype]
  rfl

theorem exists_isReference_of_none {enumName : String} (htype : bound.schema.type = .enum enumName)
    (hvalue : bound.schema.defaultValue = none) {enum : Schema.Enum}
    (hfound : packages.registry.enum? enumName = some enum) (hne : enum.values ≠ []) :
    ∃ value ∈ enum.values,
      final.IsReference (packages.enumValueIdent enumName value.name) bound.defaultValue := by
  rcases List.exists_cons_of_ne_nil hne with ⟨value, values, hvalues⟩
  refine ⟨value, by simp [hvalues], ?_⟩
  apply h.isReference_of_fieldDefault hplain
  rw [fieldDefault_of_none hsingle hvalue, htype, zeroValue, hfound, Option.bind_some, hvalues]
  rfl

end

theorem hasFittingDefault_iff_allows
    (hfiles : ∀ file ∈ files, ∃ name text, Schema.File.ofText name text = .ok file)
    (hregistry : Registry.ofFiles files = .ok registry) {fullName : String}
    {message : Schema.Message} (hmessage : registry.message? fullName = some message)
    (hbound : IsBound ⟨registry, config⟩ final bound) (hfield : bound.schema ∈ message.fields)
    (hsingle : bound.schema.isRepeated = false) (hplain : bound.schema.isWrapper = false) :
    HasFittingDefault ⟨registry, config⟩ final bound
      ↔
    ∀ written, bound.schema.defaultValue = some (.constant written) →
      Allows registry bound.schema.type written := by
  have hconstant := @Registry.exists_constant_of_type _ _ _ _ _ hfiles hregistry hmessage hfield
  cases htype : bound.schema.type with
  | message name =>
    rw [hasFittingDefault_of_message hsingle hplain htype]
    cases hvalue : bound.schema.defaultValue with
    | none => simpa using defaultValue_of_none hbound hsingle hplain htype hvalue
    | some value =>
      rcases hconstant (by simp [htype]) hvalue with ⟨written, rfl⟩
      rw [defaultValue_of_constant hbound hsingle hplain htype hvalue]
      simp [Allows]
  | enum name =>
    rcases Registry.exists_enum?_of_type hfiles hregistry hmessage hfield htype with ⟨enum, hfound⟩
    rw [hasFittingDefault_of_enum hsingle hplain htype hfound]
    cases hvalue : bound.schema.defaultValue with
    | none =>
      have hvalues := exists_isReference_of_none hbound hsingle hplain htype hvalue hfound
      simpa using hvalues
    | some value =>
      rcases hconstant (by simp [htype]) hvalue with ⟨written, rfl⟩
      have href := isReference_of_constant hbound hsingle hplain htype hvalue
      simp [Allows, hfound, isReference_enumValueIdent_iff hbound.eq_fieldAt.2.1 href]
  | _ =>
    refine iff_of_true ⟨?_, ?_⟩ fun _ _ => trivial
    . rw [isNilable_iff hsingle hplain, Schema.Field.messageType?, htype]
      intro hsome
      cases hsome
    . intro _ _ name hname
      rw [htype] at hname
      cases hname

/--
In a registry of files that are read from texts, take a bound field of one of the messages. Its
default fits if and only if the field is repeated or boxed, or has no explicit default, or has one
that its type allows. Otherwise the constant is the default of a message as it is written, and for
an enum it is referred to as if it were a value.
-/
theorem hasFittingDefault_iff
    (hfiles : ∀ file ∈ files, ∃ name text, Schema.File.ofText name text = .ok file)
    (hregistry : Registry.ofFiles files = .ok registry) {fullName : String}
    {message : Schema.Message} (hmessage : registry.message? fullName = some message)
    (hbound : IsBound ⟨registry, config⟩ final bound) (hfield : bound.schema ∈ message.fields) :
    (HasFittingDefault ⟨registry, config⟩ final bound
      ↔
    bound.schema.isRepeated ∨ bound.schema.isWrapper
      ∨ ∀ written, bound.schema.defaultValue = some (.constant written) →
        Allows registry bound.schema.type written)
    ∧ (bound.schema.isRepeated = false → bound.schema.isWrapper = false → ∀ written,
      bound.schema.defaultValue = some (.constant written) →
        (∀ name, bound.schema.type = .message name → bound.defaultValue = written)
        ∧ ∀ name, bound.schema.type = .enum name →
          final.IsReference (Packages.enumValueIdent ⟨registry, config⟩ name written)
            bound.defaultValue) := by
  refine ⟨?_, ?_⟩
  . by_cases hcontainer : bound.schema.isRepeated ∨ bound.schema.isWrapper
    . refine iff_of_true ⟨?_, ?_⟩ (hcontainer.imp_right .inl)
      . exact fun _ => hbound.defaultValue_of_container hcontainer
      . intro hsingle hplain
        simp [hsingle, hplain] at hcontainer
    . simp only [not_or, Bool.not_eq_true] at hcontainer
      rw [hasFittingDefault_iff_allows hfiles hregistry hmessage hbound hfield hcontainer.1
        hcontainer.2, hcontainer.1, hcontainer.2]
      simp
  . intro hsingle hplain written hvalue
    exact ⟨fun _ htype => defaultValue_of_constant hbound hsingle hplain htype hvalue,
      fun _ htype => isReference_of_constant hbound hsingle hplain htype hvalue⟩

end

def lampText : String :=
  "message Lamp \x7b option (q.message_extend).extend_args = true; enum Color \x7b RED = 0; \x7d"
    ++ " optional Color shade = 1 [default = RED]; optional Color light = 2 [default = BLUE];"
    ++ " optional Lamp next = 3 [default = 5]; \x7d"

def lampFields : List Schema.Field :=
  [{ name := "shade", number := 1, type := .enum "Lamp.Color"
     defaultValue := some (.constant "RED") },
   { name := "light", number := 2, type := .enum "Lamp.Color"
     defaultValue := some (.constant "BLUE") },
   { name := "next", number := 3, type := .message "Lamp", defaultValue := some (.constant "5") }]

-- One evaluation for both parts, each decided on its own.
theorem registry_lampText :
    ∃ file, Schema.File.ofText "lamp.proto" lampText = .ok file
      ∧ ∃ registry, Registry.ofFiles [file] = .ok registry
        ∧ decide (∃ enum ∈ registry.enum? "Lamp.Color", enum.values.map (·.name) = ["RED"])
        ∧ decide (∃ lamp ∈ registry.message? "Lamp", lamp.fields = lampFields
          ∧ ∃ binding, ((bindMessage ⟨registry, {}⟩ lamp).run.run { own := {} }).1 = .ok binding
          ∧ binding.fields.map (·.schema) = lampFields
          ∧ binding.fields.map (·.defaultValue) = ["Lamp_RED", "Lamp_BLUE", "5"]) := by
  decide +kernel

theorem isBound_lampText :
    ∃ file registry lamp enum final shade light next,
      Schema.File.ofText "lamp.proto" lampText = .ok file
      ∧ Registry.ofFiles [file] = .ok registry
      ∧ registry.message? "Lamp" = some lamp
      ∧ registry.enum? "Lamp.Color" = some enum
      ∧ enum.values.map (·.name) = ["RED"]
      ∧ (∀ bound ∈ [shade, light, next],
        IsBound ⟨registry, {}⟩ final bound ∧ bound.schema ∈ lamp.fields)
      ∧ [shade.schema, light.schema, next.schema] = lampFields
      ∧ [shade.defaultValue, light.defaultValue, next.defaultValue]
        = ["Lamp_RED", "Lamp_BLUE", "5"] := by
  rcases registry_lampText with ⟨file, hfile, registry, hregistry, henum, hlamp⟩
  rcases of_decide_eq_true henum with ⟨enum, henum, hvalues⟩
  rcases of_decide_eq_true hlamp with ⟨lamp, hlamp, hfields, binding, hbinding, hschemas, hdefaults⟩
  have hlength := congrArg List.length hschemas
  simp only [List.length_map] at hlength
  rcases List.length_eq_three.1 hlength with ⟨shade, light, next, hall⟩
  have hbound : ∀ bound ∈ binding.fields,
      IsBound ⟨registry, {}⟩ ((bindMessage ⟨registry, {}⟩ lamp).run.run { own := {} }).2 bound
        ∧ bound.schema ∈ lamp.fields := by
    intro bound hbound
    constructor
    . apply IsBound.message (.new {}) (Prod.ext hbinding rfl)
      rw [Message.allFields_eq]
      exact List.mem_append_right _ hbound
    . rw [hfields, ← hschemas]
      exact List.mem_map_of_mem hbound
  rw [hall] at hschemas hdefaults hbound
  exact ⟨file, registry, lamp, enum, _, shade, light, next, hfile, hregistry, hlamp, henum, hvalues,
    hbound, hschemas, hdefaults⟩

theorem hasFittingDefault_lampText :
    ∃ file registry lamp final shade,
      Schema.File.ofText "lamp.proto" lampText = .ok file
      ∧ Registry.ofFiles [file] = .ok registry
      ∧ registry.message? "Lamp" = some lamp
      ∧ IsBound ⟨registry, {}⟩ final shade
      ∧ shade.schema ∈ lamp.fields
      ∧ shade.schema.type = .enum "Lamp.Color"
      ∧ shade.defaultValue = "Lamp_RED"
      ∧ HasFittingDefault ⟨registry, {}⟩ final shade := by
  rcases isBound_lampText with ⟨file, registry, lamp, enum, final, shade, light, next, hfile,
    hregistry, hlamp, henum, hvalues, hbound, hschemas, hdefaults⟩
  rcases hbound shade (by simp) with ⟨hshade, hfield⟩
  have hschema := (List.cons.inj hschemas).1
  have hfiles : ∀ other ∈ [file], ∃ name text, Schema.File.ofText name text = .ok other :=
    List.forall_mem_singleton.2 ⟨_, _, hfile⟩
  refine ⟨file, registry, lamp, final, shade, hfile, hregistry, hlamp, hshade, hfield,
    by rw [hschema], (List.cons.inj hdefaults).1, ?_⟩
  apply (hasFittingDefault_iff hfiles hregistry hlamp hshade hfield).1.2
  refine .inr (.inr ?_)
  rw [hschema]
  rintro written hwritten other hother -
  cases hwritten
  rw [henum] at hother
  cases hother
  rw [← List.mem_map, hvalues]
  exact List.mem_singleton_self _

theorem not_hasFittingDefault_lampText :
    ∃ file registry lamp final light next,
      Schema.File.ofText "lamp.proto" lampText = .ok file
      ∧ Registry.ofFiles [file] = .ok registry
      ∧ registry.message? "Lamp" = some lamp
      ∧ (IsBound ⟨registry, {}⟩ final light ∧ light.schema ∈ lamp.fields
        ∧ light.schema.type = .enum "Lamp.Color" ∧ light.defaultValue = "Lamp_BLUE"
        ∧ ¬ HasFittingDefault ⟨registry, {}⟩ final light)
      ∧ (IsBound ⟨registry, {}⟩ final next ∧ next.schema ∈ lamp.fields
        ∧ next.schema.type = .message "Lamp" ∧ next.defaultValue = "5"
        ∧ ¬ HasFittingDefault ⟨registry, {}⟩ final next) := by
  rcases isBound_lampText with ⟨file, registry, lamp, enum, final, shade, light, next, hfile,
    hregistry, hlamp, henum, hvalues, hbound, hschemas, hdefaults⟩
  rcases hbound light (by simp) with ⟨hlight, hlightField⟩
  rcases hbound next (by simp) with ⟨hnext, hnextField⟩
  simp only [lampFields, List.cons.injEq] at hschemas hdefaults
  rcases hschemas with ⟨-, hlightSchema, hnextSchema, -⟩
  rcases hdefaults with ⟨-, hlightDefault, hnextDefault, -⟩
  have hfiles : ∀ other ∈ [file], ∃ name text, Schema.File.ofText name text = .ok other :=
    List.forall_mem_singleton.2 ⟨_, _, hfile⟩
  have hallows {bound : Field} (hbound : IsBound ⟨registry, {}⟩ final bound) :=
    hasFittingDefault_iff_allows hfiles hregistry hlamp hbound
  refine ⟨file, registry, lamp, final, light, next, hfile, hregistry, hlamp,
    ⟨hlight, hlightField, by rw [hlightSchema], hlightDefault, ?_⟩,
    hnext, hnextField, by rw [hnextSchema], hnextDefault, ?_⟩
  . rw [hallows hlight hlightField (by rw [hlightSchema]; rfl) (by rw [hlightSchema]; rfl),
      hlightSchema]
    intro hall
    have hne : enum.values ≠ [] := by
      intro hnil
      simp [hnil] at hvalues
    rcases hall "BLUE" rfl enum henum hne with ⟨value, hvalue, hname⟩
    have hmem := List.mem_map_of_mem (f := (·.name)) hvalue
    rw [hvalues, hname] at hmem
    exact absurd hmem (by decide)
  . rw [hallows hnext hnextField (by rw [hnextSchema]; rfl) (by rw [hnextSchema]; rfl), hnextSchema]
    intro hall
    exact absurd (show "5" = "nil" from hall "5" rfl) (by decide)

end Binding

end HessianGo
