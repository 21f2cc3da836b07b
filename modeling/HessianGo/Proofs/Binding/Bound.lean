import HessianGo.Proofs.Binding.Imports
import HessianGo.Proofs.Binding.Mirror

/-!
This module contains the fields of bindings, wherever they stand in a file or a message that is
bound: each is the binding of its schema for the table that is left in the end, and that table knows
all packages that the field refers to.
-/

namespace HessianGo

namespace Binding

open Code (Packages ImportTable)

variable {packages : Packages}

/--
`IsBound packages final bound`: binding a file or a message leaves the table `final`, and `bound` is
one of the fields in the binding.
-/
inductive IsBound (packages : Packages) (final : ImportTable) (bound : Field) : Prop where
  | file {table : ImportTable} {file : Schema.File} {binding : File} :
    table.Reachable → (bindFile packages file).run.run table = (.ok binding, final) →
      bound ∈ binding.allFields → IsBound packages final bound
  | message {table : ImportTable} {message : Schema.Message} {binding : Message} :
    table.Reachable → (bindMessage packages message).run.run table = (.ok binding, final) →
      bound ∈ binding.allFields → IsBound packages final bound

theorem BindsFields.eq_fieldAt {table : ImportTable} {idents : List Code.Ident}
    {fields : List Field} (h : BindsFields packages table idents fields) {bound : Field}
    (hbound : bound ∈ fields) :
    bound = fieldAt packages table bound.schema
      ∧ fieldIdents packages bound.schema ⊆ idents := by
  rcases h with ⟨schemas, rfl, rfl⟩
  rcases List.mem_map.1 hbound with ⟨schema, hschema, rfl⟩
  rw [schema_fieldAt]
  exact ⟨rfl, fun ident hident => List.mem_flatMap.2 ⟨schema, hschema, hident⟩⟩

theorem Qualifies.knows {table : ImportTable} {idents : List Code.Ident}
    (h : Qualifies table idents) {ident : Code.Ident} (hident : ident ∈ idents) :
    table.Knows ident.importPath.path := by
  rcases h ident hident with hbare | ⟨name, halias, -⟩
  . exact .inl hbare
  . exact .inr (by simp [halias])

theorem IsBound.eq_fieldAt {final : ImportTable} {bound : Field}
    (h : IsBound packages final bound) :
    bound = fieldAt packages final bound.schema
      ∧ final.WellFormed
      ∧ ∀ ident ∈ fieldIdents packages bound.schema, final.Knows ident.importPath.path := by
  cases h with
  | @file table file binding hreachable hrun hbound =>
    rcases (writes_bindFile packages file).stateless hreachable hrun
      with ⟨-, hfinal, hvalue, hqualifies⟩
    rcases (bindsFields_of_fileAt hvalue).eq_fieldAt hbound with ⟨hfield, hidents⟩
    refine ⟨hfield, hfinal.wellFormed, ?_⟩
    intro ident hident
    exact (hqualifies binding rfl).knows (List.mem_append_right _ (hidents hident))
  | @message table message binding hreachable hrun hbound =>
    rcases (writes_bindMessage packages message).stateless hreachable hrun
      with ⟨-, hfinal, hvalue, hqualifies⟩
    rcases (bindsFields_of_messageAt hvalue).eq_fieldAt hbound with ⟨hfield, hidents⟩
    refine ⟨hfield, hfinal.wellFormed, ?_⟩
    intro ident hident
    exact (hqualifies binding rfl).knows (hidents hident)

theorem IsBound.defaultValue_eq {final : ImportTable} {bound : Field}
    (h : IsBound packages final bound) :
    bound.defaultValue
      =
    if bound.schema.isWrapper then "nil" else (fieldDefault packages bound.schema).text final := by
  conv_lhs => rw [h.eq_fieldAt.1]
  unfold fieldAt
  split
  . rfl
  . rfl

theorem fieldDefault_of_some {field : Schema.Field} (hsingle : field.isRepeated = false)
    {value : Schema.DefaultValue} (hvalue : field.defaultValue = some value) :
    fieldDefault packages field = explicitDefault packages field.type value := by
  unfold fieldDefault
  rw [hsingle, hvalue]
  rfl

theorem fieldDefault_of_none {field : Schema.Field} (hsingle : field.isRepeated = false)
    (hvalue : field.defaultValue = none) :
    fieldDefault packages field = zeroValue packages field.type := by
  unfold fieldDefault
  rw [hsingle, hvalue]
  rfl

theorem exists_bindMessage_eq_ok (packages : Packages) (table : ImportTable)
    {message : Schema.Message}
    (h : ∀ inner, message.Exposes inner → inner.lacksClass = false) :
    ∃ binding, ((bindMessage packages message).run.run table).1 = .ok binding
      ∧ Mirrors false message binding
      ∧ messageAt packages ((bindMessage packages message).run.run table).2 message
        = .ok binding := by
  have hvalue := (writes_bindMessage packages message).value_eq table _ (.refl _)
  have hnone : message.postOrder.find? (·.lacksClass) = none := by
    rw [List.find?_eq_none]
    intro inner hinner
    rw [h inner (Schema.Message.mem_postOrder.1 hinner)]
    simp
  rcases (stopsAt_messageAt packages _ message).exists_eq_ok hnone
    with ⟨binding, hbinding, hmirrors⟩
  refine ⟨binding, ?_, hmirrors, hbinding⟩
  rw [hvalue, hbinding]

theorem exists_binding {packages : Packages} {table : ImportTable} {message : Schema.Message}
    (hentry : message.isMapEntry = false)
    (h : ∀ inner, message.Exposes inner → inner.lacksClass = false) :
    ∃ binding, ((bindMessage packages message).run.run table).1 = .ok binding
      ∧ binding.fields.map (·.schema) = message.fields
      ∧ ∀ bound ∈ binding.fields, ∃ final, bound = fieldAt packages final bound.schema := by
  rcases exists_bindMessage_eq_ok packages table h with ⟨binding, hrun, hmirrors, hvalue⟩
  refine ⟨binding, hrun, ?_, ?_⟩
  . cases hmirrors with
    | entry htrue =>
      rw [hentry] at htrue
      cases htrue
    | node _ _ _ hfields => exact hfields
  . intro bound hbound
    refine ⟨_, ((bindsFields_of_messageAt hvalue).eq_fieldAt ?_).1⟩
    rw [Message.allFields_eq]
    exact List.mem_append_right _ hbound

theorem exists_isBound {packages : Packages} {table : ImportTable} (hreachable : table.Reachable)
    {message : Schema.Message} (hentry : message.isMapEntry = false)
    (h : ∀ inner, message.Exposes inner → inner.lacksClass = false) {field : Schema.Field}
    (hfield : field ∈ message.fields) :
    ∃ binding final, (bindMessage packages message).run.run table = (.ok binding, final)
      ∧ final.own = table.own
      ∧ ∃ bound ∈ binding.fields, bound.schema = field ∧ IsBound packages final bound := by
  rcases @exists_binding packages table message hentry h with ⟨binding, hrun, hschemas, -⟩
  have hrun' : (bindMessage packages message).run.run table
      = (.ok binding, ((bindMessage packages message).run.run table).2) := Prod.ext hrun rfl
  rcases (writes_bindMessage packages message).stateless hreachable hrun' with ⟨hextends, -⟩
  rw [← hschemas] at hfield
  rcases List.mem_map.1 hfield with ⟨bound, hbound, hschema⟩
  refine ⟨binding, _, hrun', hextends.own_eq, bound, hbound, hschema, ?_⟩
  apply IsBound.message hreachable hrun'
  rw [Message.allFields_eq]
  exact List.mem_append_right _ hbound

end Binding

end HessianGo
