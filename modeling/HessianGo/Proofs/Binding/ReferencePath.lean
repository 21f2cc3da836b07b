import HessianGo.Proofs.Binding.TypeText

/-!
This module contains the references to messages that a package of their own choice defines. A field
that holds one such message refers to it there. A list of them loses its container, and a map of
them refers to the package of the schema instead.
-/

namespace HessianGo

theorem Schema.IsEntry.eq_value {entry : Message} {key : ScalarType} {value field : Field}
    (h : IsEntry entry key value) (hfield : field ∈ entry.fields) (hname : field.name = "value") :
    field = value := by
  rw [h.fields] at hfield
  rcases List.mem_cons.1 hfield with rfl | hfield
  . exact absurd hname (by simp)
  . exact List.mem_singleton.1 hfield

theorem Schema.IsEntry.type_key {entry : Message} {key : ScalarType} {value field : Field}
    (h : IsEntry entry key value) (hvalue : value.name = "value") (hfield : field ∈ entry.fields)
    (hname : field.name = "key") : field.type = .scalar key := by
  rw [h.fields] at hfield
  rcases List.mem_cons.1 hfield with rfl | hfield
  . rfl
  . rw [List.mem_singleton.1 hfield, hvalue] at hname
    exact absurd hname (by decide)

namespace Code

namespace ImportTable

/--
In a file with this import table, identifiers at both paths are written with the same qualifier, or
both without one.
-/
def SameQualifier (table : ImportTable) (path other : String) : Prop :=
  (table.isBare path ∧ table.isBare other) ∨ path = other

theorem qualified_ne (name text : String) : name ++ "." ++ text ≠ text := by
  intro h
  have := congrArg String.length h
  simp only [String.length_append] at this
  have hdot : ".".length = 1 := rfl
  omega

theorem IsReference.isReference_iff {table : ImportTable} (hwellFormed : table.WellFormed)
    {first second : Ident} {text : String} (h : table.IsReference first text)
    (hname : first.name = second.name) :
    table.IsReference second text
      ↔
    table.SameQualifier first.importPath.path second.importPath.path := by
  constructor
  . intro hsecond
    rcases h with ⟨hbare, rfl⟩ | ⟨name, hentry, rfl⟩
    . rcases hsecond with ⟨hbare', -⟩ | ⟨other, -, htext⟩
      . exact .inl ⟨hbare, hbare'⟩
      . rw [hname] at htext
        exact absurd htext.symm (qualified_ne other second.name)
    . rcases hsecond with ⟨-, htext⟩ | ⟨other, hother, htext⟩
      . rw [hname] at htext
        exact absurd htext (qualified_ne name second.name)
      . rw [hname, String.append_left_inj, String.append_left_inj] at htext
        rw [htext] at hentry
        exact .inr (hwellFormed.path_eq hother hentry)
  . intro hsame
    rcases h with ⟨hbare, rfl⟩ | ⟨name, hentry, rfl⟩
    . refine .inl ⟨?_, hname⟩
      rcases hsame with ⟨-, hbare'⟩ | hpath
      . exact hbare'
      . rw [← hpath]
        exact hbare
    . refine .inr ⟨name, ?_, by rw [hname]⟩
      rcases hsame with ⟨hbare, -⟩ | hpath
      . -- No path in the table is one that needs no qualifier.
        have := hwellFormed.not_isBare _ hentry
        rw [hbare] at this
        cases this
      . rw [← hpath]
        exact hentry

end ImportTable

end Code

namespace Binding

open Code (Packages ImportTable Ident)

inductive Container where
  | single
  | list
  | map (key : Schema.ScalarType)
  deriving DecidableEq

def Container.opening : Container → String
  | single => ""
  | list => "[]"
  | map key => "map[" ++ Code.scalarName key ++ "]"

/--
`Holds registry field container message`: the field holds messages of that type, one of them, a list
or the values of a map.
-/
inductive Holds (registry : Registry) (field : Schema.Field) :
    Container → Schema.Message → Prop where
  | single {fullName : String} {message : Schema.Message} :
    field.isRepeated = false → field.type = .message fullName →
      registry.message? fullName = some message → Holds registry field .single message
  | list {fullName : String} {message : Schema.Message} :
    field.isRepeated = true → field.type = .message fullName →
      registry.message? fullName = some message → message.isMapEntry = false →
        Holds registry field .list message
  | map {entryName fullName : String} {entry message : Schema.Message} {key value : Schema.Field}
      {keyType : Schema.ScalarType} :
    field.isRepeated = true → field.type = .message entryName →
      registry.message? entryName = some entry → entry.isMapEntry = true →
        key ∈ entry.fields → key.name = "key" → key.type = .scalar keyType →
          value ∈ entry.fields → value.name = "value" → value.type = .message fullName →
            registry.message? fullName = some message →
              Holds registry field (.map keyType) message

/--
`PointsTo table bound container ident`: in a file with this import table, the type of the bound
field is the container of pointers to the identifier.
-/
def PointsTo (table : ImportTable) (bound : Field) (container : Container) (ident : Ident) : Prop :=
  ∃ text, table.IsReference ident text
    ∧ bound.typeName = boxing bound.schema ++ (container.opening ++ ("*" ++ text))

theorem PointsTo.pointsTo_iff {table : ImportTable} (hwellFormed : table.WellFormed) {bound : Field}
    {container : Container} {first second : Ident} (h : PointsTo table bound container first)
    (hname : first.name = second.name) :
    PointsTo table bound container second
      ↔
    table.SameQualifier first.importPath.path second.importPath.path := by
  rcases h with ⟨text, href, htext⟩
  rw [← href.isReference_iff hwellFormed hname]
  constructor
  . rintro ⟨other, hother, heq⟩
    rw [htext, String.append_right_inj, String.append_right_inj, String.append_right_inj] at heq
    rw [heq]
    exact hother
  . intro hother
    exact ⟨text, hother, htext⟩

theorem PointsTo.not_list {table : ImportTable} {bound : Field} {first second : Ident}
    (h : PointsTo table bound .single first) : ¬ PointsTo table bound .list second := by
  rcases h with ⟨text, -, htext⟩
  rintro ⟨other, -, hother⟩
  rw [htext, String.append_right_inj] at hother
  have := congrArg (·.toList.head?) hother
  simp [Container.opening] at this

section

variable {files : List Schema.File} {registry : Registry} {config : Config} {final : ImportTable}
  {bound : Field} {message : Schema.Message}

theorem pointsTo_of_referencePath (h : IsBound ⟨registry, config⟩ final bound) {fullName : String}
    (htype : bound.schema.type = .message fullName)
    (hmessage : registry.message? fullName = some message) (hpath : message.referencePath ≠ "") :
    PointsTo final bound .single (referenceIdent ⟨registry, config⟩ message) := by
  have hpointer : fieldType ⟨registry, config⟩ bound.schema = _ :=
    fieldType_of_referencePath htype hmessage hpath
  refine ⟨final.refer (referenceIdent ⟨registry, config⟩ message), ?_, ?_⟩
  . apply h.isReference
    rw [hpointer]
    exact List.mem_singleton_self _
  . rw [h.typeName_eq, hpointer, Container.opening, String.empty_append]
    rfl

theorem Holds.pointsTo_map (h : IsBound ⟨registry, config⟩ final bound)
    (hfiles : ∀ file ∈ files, ∃ name text, Schema.File.ofText name text = .ok file)
    (hregistry : Registry.ofFiles files = .ok registry) {key : Schema.ScalarType}
    (hholds : Holds registry bound.schema (.map key) message) :
    PointsTo final bound (.map key) (Packages.ident ⟨registry, config⟩ message.fullName) := by
  -- The entry has no reference path, so the one of the values is never looked at.
  cases hholds with
  | map hrepeated htype hfound hentry hkey hkeyName hkeyType hvalue hvalueName hvalueType
      hmessage =>
    rcases Registry.exists_isEntry hfiles hregistry hfound hentry with ⟨_, value, hisEntry, hname⟩
    rcases hisEntry.eq_value hvalue hvalueName with rfl
    cases hkeyType.symm.trans (hisEntry.type_key hname hkey hkeyName)
    rcases Registry.message?_eq_some_iff.1 hmessage with ⟨-, -, -, rfl⟩
    have hmap : fieldType ⟨registry, config⟩ bound.schema = _ :=
      fieldType_of_isEntry hisEntry hrepeated htype hfound
    rw [elementType, hvalueType] at hmap
    refine ⟨final.refer (Packages.ident ⟨registry, config⟩ message.fullName), ?_, ?_⟩
    . apply h.isReference
      rw [hmap]
      exact List.mem_append_right _ (List.mem_singleton_self _)
    . rw [h.typeName_eq, hmap, Code.TypeExpr.text, Code.TypeExpr.text_ofScalar]
      rfl

/--
In a registry of files that are read from texts, take a bound field that holds messages with a
reference path. Its type is the container of pointers to there if and only if it holds a single
message, or a map for which the package of the schema has the same qualifier. A list has the type of
a single message, and a map points to the package of the schema.
-/
theorem pointsTo_referenceIdent_iff
    (hfiles : ∀ file ∈ files, ∃ name text, Schema.File.ofText name text = .ok file)
    (hregistry : Registry.ofFiles files = .ok registry)
    (hbound : IsBound ⟨registry, config⟩ final bound) {container : Container}
    (hholds : Holds registry bound.schema container message) (hpath : message.referencePath ≠ "") :
    (PointsTo final bound container (referenceIdent ⟨registry, config⟩ message)
      ↔
    container = .single
      ∨ ∃ key, container = .map key
        ∧ final.SameQualifier (Packages.ident ⟨registry, config⟩ message.fullName).importPath.path
          (referenceIdent ⟨registry, config⟩ message).importPath.path)
    ∧ (container = .list → PointsTo final bound .single (referenceIdent ⟨registry, config⟩ message))
    ∧ ∀ key, container = .map key →
      PointsTo final bound container (Packages.ident ⟨registry, config⟩ message.fullName) := by
  cases container with
  | single =>
    cases hholds with
    | single hrepeated htype hmessage =>
      have hpoints := pointsTo_of_referencePath hbound htype hmessage hpath
      simp [hpoints]
  | list =>
    cases hholds with
    | list hrepeated htype hmessage hentry =>
      have hpoints := pointsTo_of_referencePath hbound htype hmessage hpath
      simp [hpoints, hpoints.not_list]
  | map key =>
    have hpoints := hholds.pointsTo_map hbound hfiles hregistry
    have hiff := hpoints.pointsTo_iff hbound.eq_fieldAt.2.1 (name_referenceIdent _ message).symm
    simp [hiff, hpoints]

end

def cartText : String :=
  "message Item \x7b option (q.message_extend).reference_path = \"ext/item\"; \x7d"
    ++ " message Cart \x7b option (q.message_extend).extend_args = true;"
    ++ " optional Item first = 1 [(q.field_extend).is_wrapper = true];"
    ++ " map<string, Item> by_id = 2; \x7d"

-- One evaluation for both parts, each decided on its own.
theorem registry_cartText :
    ∃ file, Schema.File.ofText "cart.proto" cartText = .ok file
      ∧ ∃ registry, Registry.ofFiles [file] = .ok registry
        ∧ decide ((Packages.ident ⟨registry, {}⟩ "Item").importPath.path = ""
          ∧ (∃ message ∈ registry.message? "Item", message.fullName = "Item"
            ∧ message.referencePath = "ext/item")
          ∧ ∃ entry ∈ registry.message? "Cart.ByIdEntry", entry.isMapEntry = true
            ∧ entry.fields.map (fun field => (field.name, field.type))
              = [("key", .scalar .string), ("value", .message "Item")])
        ∧ decide (∃ cart ∈ registry.message? "Cart", ∃ binding,
          ((bindMessage ⟨registry, {}⟩ cart).run.run { own := {} }).1 = .ok binding
          ∧ binding.allFields.map
              (fun bound => (bound.schema.isRepeated, bound.schema.type, bound.typeName))
            = [(false, .message "Item", "**item.Item"),
               (true, .message "Cart.ByIdEntry", "map[string]*Item")]) := by
  decide +kernel

theorem holds_cartText :
    ∃ file registry message final,
      Schema.File.ofText "cart.proto" cartText = .ok file
      ∧ Registry.ofFiles [file] = .ok registry
      ∧ message.referencePath = "ext/item"
      ∧ ¬ final.SameQualifier (Packages.ident ⟨registry, {}⟩ message.fullName).importPath.path
        "ext/item"
      ∧ ∃ first byId,
        (IsBound ⟨registry, {}⟩ final first ∧ Holds registry first.schema .single message
          ∧ first.typeName = "**item.Item")
        ∧ (IsBound ⟨registry, {}⟩ final byId ∧ Holds registry byId.schema (.map .string) message
          ∧ byId.typeName = "map[string]*Item") := by
  rcases registry_cartText with ⟨file, hfile, registry, hregistry, hschema, hbinds⟩
  rcases of_decide_eq_true hschema
    with ⟨hown, ⟨message, hmessage, hname, hpath⟩, entry, hfound, hisEntry, hfields⟩
  rcases of_decide_eq_true hbinds with ⟨cart, -, binding, hbinding, htypes⟩
  simp only [List.map_eq_cons_iff, List.map_eq_nil_iff, Prod.mk.injEq] at hfields htypes
  rcases hfields with ⟨key, _, hfields, ⟨hkeyName, hkeyType⟩, value, _, rfl,
    ⟨hvalueName, hvalueType⟩, rfl⟩
  rcases htypes with ⟨first, _, hall, ⟨hsingle, hfirstType, hfirstText⟩, byId, _, rfl,
    ⟨hmap, hbyIdType, hbyIdText⟩, rfl⟩
  have hextends := (writes_bindMessage ⟨registry, {}⟩ cart).extends { own := {} }
  generalize hrun : (bindMessage ⟨registry, {}⟩ cart).run.run { own := {} } = outcome
    at hbinding hextends
  rcases outcome with ⟨result, final⟩
  rw [show result = .ok binding from hbinding] at hrun
  have hbound : ∀ bound ∈ binding.allFields, IsBound ⟨registry, {}⟩ final bound :=
    fun _ => IsBound.message (.new {}) hrun
  rw [hall] at hbound
  refine ⟨file, registry, message, final, hfile, hregistry, hpath, ?_, first, byId,
    ⟨hbound first (by simp), .single hsingle hfirstType hmessage, hfirstText⟩,
    hbound byId (by simp), ?_, hbyIdText⟩
  . rw [hname, hown, ImportTable.SameQualifier, hextends.isBare_eq, hextends.isBare_eq]
    decide
  . exact .map hmap hbyIdType hfound hisEntry (by simp [hfields]) hkeyName hkeyType
      (by simp [hfields]) hvalueName hvalueType hmessage

theorem pointsTo_referenceIdent_cartText :
    ∃ file registry message final bound,
      Schema.File.ofText "cart.proto" cartText = .ok file
      ∧ Registry.ofFiles [file] = .ok registry
      ∧ message.referencePath = "ext/item"
      ∧ IsBound ⟨registry, {}⟩ final bound
      ∧ Holds registry bound.schema .single message
      ∧ bound.typeName = "**item.Item"
      ∧ PointsTo final bound .single (referenceIdent ⟨registry, {}⟩ message) := by
  rcases holds_cartText with ⟨file, registry, message, final, hfile, hregistry, hpath, -, bound,
    -, ⟨hbound, hholds, htext⟩, -⟩
  have hfiles : ∀ other ∈ [file], ∃ name text, Schema.File.ofText name text = .ok other :=
    List.forall_mem_singleton.2 ⟨_, _, hfile⟩
  have hne : message.referencePath ≠ "" := by simp [hpath]
  exact ⟨file, registry, message, final, bound, hfile, hregistry, hpath, hbound, hholds, htext,
    (pointsTo_referenceIdent_iff hfiles hregistry hbound hholds hne).1.2 (.inl rfl)⟩

theorem not_pointsTo_referenceIdent_cartText :
    ∃ file registry message final byId,
      Schema.File.ofText "cart.proto" cartText = .ok file
      ∧ Registry.ofFiles [file] = .ok registry
      ∧ message.referencePath = "ext/item"
      ∧ IsBound ⟨registry, {}⟩ final byId
      ∧ Holds registry byId.schema (.map .string) message
      ∧ byId.typeName = "map[string]*Item"
      ∧ ¬ PointsTo final byId (.map .string) (referenceIdent ⟨registry, {}⟩ message) := by
  rcases holds_cartText with ⟨file, registry, message, final, hfile, hregistry, hpath, hqualifier,
    -, byId, -, hbyId, hmap, hbyIdText⟩
  have hfiles : ∀ other ∈ [file], ∃ name text, Schema.File.ofText name text = .ok other :=
    List.forall_mem_singleton.2 ⟨_, _, hfile⟩
  refine ⟨file, registry, message, final, byId, hfile, hregistry, hpath, hbyId, hmap, hbyIdText, ?_⟩
  have hpoints := hmap.pointsTo_map hbyId hfiles hregistry
  have hto : (Code.ImportPath.ofText message.referencePath).path = "ext/item" := by
    rw [hpath]
    decide
  rw [hpoints.pointsTo_iff hbyId.eq_fieldAt.2.1 (name_referenceIdent _ message).symm,
    referenceIdent, hto]
  exact hqualifier

end Binding

end HessianGo
