import HessianGo.Proofs.Binding.Stateless
import HessianGo.Proofs.Code.Name
import HessianGo.Proofs.Code.PackageName
import HessianGo.Proofs.Registry.Declared

/-!
This module contains the use of imports. Every import of an output is the qualifier of a reference
in the type or the default of some field, but for `math`: it is also recorded for the default of a
boxed field, in whose place `nil` is written.
-/

namespace HessianGo

def Registry.HasEntries (registry : Registry) : Prop :=
  ∀ fullName entry, registry.message? fullName = some entry → entry.isMapEntry = true →
    ∃ key value, Schema.IsEntry entry key value

theorem Registry.hasEntries_of_ofFiles_eq_ok {files : List Schema.File} {registry : Registry}
    (hfiles : ∀ file ∈ files, ∃ name text, Schema.File.ofText name text = .ok file)
    (h : ofFiles files = .ok registry) : registry.HasEntries := by
  intro fullName entry hfound hentry
  rcases exists_isEntry hfiles h hfound hentry with ⟨key, value, hisEntry, -⟩
  exact ⟨key, value, hisEntry⟩

namespace Code

/-! ### Texts with references -/

/--
A word may start behind these characters: they end no part of an identifier and no dot, and open no
string literal.
-/
structure Delimits (s : List Char) : Prop where
  no_quote : '"' ∉ s
  getLast : ∀ c ∈ s.getLast?, isIdentifierChar c = false ∧ c ≠ '.'

/--
The name stands in the text as a word of its own, with a dot and the start of an identifier behind
it.
-/
def Mentions (name text : String) : Prop :=
  ∃ before c after, text.toList = before ++ name.toList ++ '.' :: c :: after
    ∧ Source.isNameStart c ∧ Delimits before

theorem Delimits.nil : Delimits [] :=
  ⟨by simp, by simp⟩

theorem Delimits.append {s t : List Char} (hs : Delimits s) (ht : Delimits t) :
    Delimits (s ++ t) := by
  refine ⟨by simp [hs.no_quote, ht.no_quote], ?_⟩
  intro c hc
  rw [List.getLast?_append] at hc
  cases hlast : t.getLast? with
  | none =>
    rw [hlast] at hc
    exact hs.getLast c hc
  | some d =>
    rw [hlast] at hc
    exact ht.getLast c (hlast.trans hc)

theorem Delimits.concat {s : List Char} {c : Char} (hquote : '"' ∉ s)
    (hc : c ∈ ['*', ']', '(']) : Delimits (s ++ [c]) := by
  have hdelimiter : ∀ d ∈ ['*', ']', '('],
      d ≠ '"' ∧ isIdentifierChar d = false ∧ d ≠ '.' := by
    decide +kernel
  refine ⟨?_, ?_⟩
  . simp [hquote, (hdelimiter c hc).1.symm]
  . intro d hd
    rw [List.getLast?_concat] at hd
    cases hd
    exact (hdelimiter c hc).2

theorem delimits_star : Delimits "*".toList :=
  .concat (s := []) (c := '*') (by simp) (by simp)

theorem delimits_slice : Delimits "[]".toList :=
  .concat (s := ['[']) (c := ']') (by decide) (by simp)

theorem Mentions.append_left {name text before : String} (h : Mentions name text)
    (hbefore : Delimits before.toList) : Mentions name (before ++ text) := by
  rcases h with ⟨between, c, after, htext, hc, hbetween⟩
  refine ⟨before.toList ++ between, c, after, ?_, hc, hbefore.append hbetween⟩
  rw [String.toList_append, htext]
  simp

theorem Mentions.append_right {name text : String} (h : Mentions name text) (after : String) :
    Mentions name (text ++ after) := by
  rcases h with ⟨before, c, between, htext, hc, hbefore⟩
  refine ⟨before, c, between ++ after.toList, ?_, hc, hbefore⟩
  rw [String.toList_append, htext]
  simp

theorem not_mentions_of_not_mem {name text : String} (h : '.' ∉ text.toList) :
    ¬ Mentions name text := by
  rintro ⟨before, c, after, htext, -, -⟩
  rw [htext] at h
  simp at h

theorem ImportTable.mentions_refer {table : ImportTable} {ident : Ident} {name : String}
    (hbare : table.isBare ident.importPath.path = false)
    (halias : table.alias? ident.importPath.path = some name)
    (hname : StartsAsName ident.name.toList) : Mentions name (table.refer ident) := by
  rcases hname with ⟨c, rest, hrest, hc⟩
  refine ⟨[], c, rest, ?_, hc, .nil⟩
  simp [refer, hbare, halias, hrest]

def TypeExpr.HasScalarKeys : TypeExpr → Prop
  | .plain _ | .ident _ => True
  | .pointer target => target.HasScalarKeys
  | .slice element => element.HasScalarKeys
  | .map key value => (∃ type, key = .ofScalar type) ∧ value.HasScalarKeys

theorem TypeExpr.delimits_key (type : Schema.ScalarType) (table : ImportTable) :
    Delimits ("map[" ++ (TypeExpr.ofScalar type).text table ++ "]").toList := by
  rw [String.toList_append]
  apply Delimits.concat (c := ']')
  . cases type <;> simp [ofScalar, text]
  . simp

theorem TypeExpr.idents_ofScalar (type : Schema.ScalarType) : (ofScalar type).idents = [] := by
  cases type <;> rfl

theorem TypeExpr.mentions_text {table : ImportTable} {type : TypeExpr} {ident : Ident}
    {name : String} (hkeys : type.HasScalarKeys) (h : Mentions name (table.refer ident))
    (hident : ident ∈ type.idents) : Mentions name (type.text table) := by
  induction type with
  | plain text => simp [idents] at hident
  | ident other =>
    rcases List.mem_singleton.1 hident with rfl
    exact h
  | pointer target ih => exact (ih hkeys hident).append_left delimits_star
  | slice element ih => exact (ih hkeys hident).append_left delimits_slice
  | map key value ihKey ihValue =>
    rcases hkeys with ⟨⟨scalar, rfl⟩, hvalue⟩
    rw [idents, idents_ofScalar, List.nil_append] at hident
    exact (ihValue hvalue hident).append_left (delimits_key scalar table)

end Code

namespace Binding

open Code (Packages ImportTable Ident Mentions)

/-! ### Fields at any depth -/

mutual

def Message.allFields : Message → List Field
  | ⟨_, _, _, innerMessages, _, fields, _⟩ => allFieldsOfList innerMessages ++ fields

def Message.allFieldsOfList : List Message → List Field
  | [] => []
  | message :: messages => message.allFields ++ allFieldsOfList messages

end

def File.allFields (file : File) : List Field :=
  file.messages.flatMap Message.allFields

theorem Message.allFieldsOfList_eq_flatMap (messages : List Message) :
    allFieldsOfList messages = messages.flatMap allFields := by
  induction messages with
  | nil => simp [allFieldsOfList]
  | cons message messages ih => simp [allFieldsOfList, ih]

theorem Message.allFields_eq (message : Message) :
    message.allFields = message.innerMessages.flatMap allFields ++ message.fields := by
  cases message
  rw [allFields]
  rw [allFieldsOfList_eq_flatMap]

section

variable {packages : Packages} {table : ImportTable}

def BindsFields (packages : Packages) (table : ImportTable) (idents : List Ident)
    (fields : List Field) : Prop :=
  ∃ bound : List Schema.Field,
    fields = bound.map (fieldAt packages table) ∧ idents = bound.flatMap (fieldIdents packages)

theorem BindsFields.nil : BindsFields packages table [] [] :=
  ⟨[], rfl, rfl⟩

theorem BindsFields.append {first second : List Ident} {fields others : List Field}
    (h : BindsFields packages table first fields) (h' : BindsFields packages table second others) :
    BindsFields packages table (first ++ second) (fields ++ others) := by
  rcases h with ⟨bound, rfl, rfl⟩
  rcases h' with ⟨bound', rfl, rfl⟩
  exact ⟨bound ++ bound', by simp, by simp⟩

theorem BindsFields.flatMap {messages : List Schema.Message} {bindings : List Message}
    (h : List.Forall₂ (fun message binding =>
      BindsFields packages table (messageIdents packages message) binding.allFields)
      messages bindings) :
    BindsFields packages table (messages.flatMap (messageIdents packages))
      (bindings.flatMap Message.allFields) := by
  induction h with
  | nil => exact .nil
  | cons hfirst _ ih =>
    rw [List.flatMap_cons, List.flatMap_cons]
    exact hfirst.append ih

theorem bindsFields_of_messageAt {message : Schema.Message} {binding : Message}
    (h : messageAt packages table message = .ok binding) :
    BindsFields packages table (messageIdents packages message) binding.allFields := by
  induction message using Schema.Message.treeInduction generalizing binding with
  | node message ih =>
    rw [messageAt_eq] at h
    rw [messageIdents_eq, Message.allFields_eq]
    cases hentry : message.isMapEntry with
    | true =>
      rw [hentry] at h
      cases h
      exact .nil
    | false =>
      simp only [hentry, Bool.false_eq_true, ↓reduceIte] at h ⊢
      rcases bind_eq_ok_iff.1 h with ⟨innerMessages, hinner, h⟩
      rw [innerMessagesAt_eq_mapM, mapM_eq_ok_iff] at hinner
      have hmessages : List.Forall₂ (fun inner (binding : Message) =>
          BindsFields packages table (messageIdents packages inner) binding.allFields)
          message.messages innerMessages := by
        rw [List.forall₂_iff_get] at hinner ⊢
        refine ⟨hinner.1, ?_⟩
        intro i hi hi'
        rcases bind_eq_ok_iff.1 (hinner.2 i hi hi') with ⟨first, hfirst, hmarked⟩
        -- The mark of an inherited message leaves its fields as they are.
        have hfields := ih _ (List.get_mem _ _) hfirst
        rw [Message.allFields_eq] at hfields ⊢
        rw [← Except.ok.inj hmarked]
        exact hfields
      cases hoptions : bindable? message.options with
      | none =>
        rw [hoptions] at h
        cases h
      | some options =>
        rw [hoptions] at h
        cases h
        exact (BindsFields.flatMap hmessages).append ⟨message.fields, rfl, rfl⟩

theorem bindsFields_of_fileAt {file : Schema.File} {binding : File}
    (h : fileAt packages table file = .ok binding) :
    BindsFields packages table (file.messages.flatMap (messageIdents packages))
      binding.allFields := by
  rcases bind_eq_ok_iff.1 h with ⟨messages, hmessages, hbinding⟩
  cases hbinding
  apply BindsFields.flatMap
  apply (mapM_eq_ok_iff.1 hmessages).imp
  intro message binding hmessage
  exact bindsFields_of_messageAt hmessage

end

/-! ### References of a field -/

section

variable {packages : Packages} {field : Schema.Field} {ident : Ident}

/--
The default of the field is a floating-point value that has no constant and is got by a call.
-/
def CallsMath (field : Schema.Field) : Prop :=
  field.isRepeated = false
    ∧ (field.type = .scalar .float ∨ field.type = .scalar .double)
    ∧ ∃ written ∈ ["inf", "-inf", "nan", "-nan"], field.defaultValue = some (.constant written)

/--
The field is boxed, so that the call for its default is not written.
-/
def DropsCall (field : Schema.Field) : Prop :=
  field.isWrapper ∧ CallsMath field

def mathCall (narrow : Bool) (function arguments : String) : Code.Expr :=
  if narrow then
    .convert "float32" (.call ⟨function, .ofText "math"⟩ arguments)
  else
    .call ⟨function, .ofText "math"⟩ arguments

theorem idents_mathCall (narrow : Bool) (function arguments : String) :
    (mathCall narrow function arguments).idents = [⟨function, .ofText "math"⟩] := by
  cases narrow with
  | true => rfl
  | false => rfl

theorem mentions_text_mathCall {table : ImportTable} {name function : String}
    (h : Mentions name (table.refer ⟨function, .ofText "math"⟩)) (narrow : Bool)
    (arguments : String) : Mentions name ((mathCall narrow function arguments).text table) := by
  have hcall := ((h.append_right "(").append_right arguments).append_right ")"
  cases narrow with
  | false => exact hcall
  | true =>
    have hdelimits : Code.Delimits "float32(".toList :=
      .concat (s := "float32".toList) (c := '(') (by decide) (by simp)
    exact (hcall.append_left hdelimits).append_right ")"

theorem exists_floatConstant_eq (narrow : Bool) {written : String}
    (h : written ∈ ["inf", "-inf", "nan", "-nan"]) :
    ∃ function arguments, floatConstant narrow written = mathCall narrow function arguments
      ∧ Code.StartsAsName function.toList := by
  have hinf : Code.StartsAsName "Inf".toList := ⟨'I', ['n', 'f'], by decide, by decide⟩
  have hnan : Code.StartsAsName "NaN".toList := ⟨'N', ['a', 'N'], by decide, by decide⟩
  simp only [List.mem_cons, List.not_mem_nil, or_false] at h
  rcases h with rfl | rfl | rfl | rfl
  . exact ⟨_, _, rfl, hinf⟩
  . exact ⟨_, _, rfl, hinf⟩
  . exact ⟨_, _, rfl, hnan⟩
  . exact ⟨_, _, rfl, hnan⟩

theorem mem_idents_floatConstant {narrow : Bool} {written : String}
    (h : ident ∈ (floatConstant narrow written).idents) :
    written ∈ ["inf", "-inf", "nan", "-nan"] ∧ ident.importPath.path = "math" := by
  have hmath : (Code.ImportPath.ofText "math").path = "math" := rfl
  unfold floatConstant at h
  grind [Code.Expr.idents]

theorem fieldType_of_enum {fullName : String} (hrepeated : field.isRepeated = false)
    (htype : field.type = .enum fullName) :
    fieldType packages field = .ident (packages.ident fullName) := by
  simp [fieldType, referenceIdent?, Schema.Field.messageType?, htype, standardType, hrepeated,
    elementType]

theorem mem_idents_explicitDefault {type : Schema.FieldType} {value : Schema.DefaultValue}
    (h : ident ∈ (explicitDefault packages type value).idents) :
    (∃ fullName, type = .enum fullName ∧ ident.importPath = (packages.ident fullName).importPath)
      ∨ ((type = .scalar .float ∨ type = .scalar .double)
          ∧ ∃ written ∈ ["inf", "-inf", "nan", "-nan"], value = .constant written)
        ∧ ident.importPath.path = "math" := by
  cases value with
  | text value => cases h
  | bytes value => cases h
  | constant written =>
    simp only [explicitDefault] at h
    split at h
    . next fullName =>
      rcases List.mem_singleton.1 h with rfl
      exact .inl ⟨fullName, rfl, rfl⟩
    . rcases mem_idents_floatConstant h with ⟨hwritten, hpath⟩
      exact .inr ⟨⟨.inl rfl, written, hwritten, rfl⟩, hpath⟩
    . rcases mem_idents_floatConstant h with ⟨hwritten, hpath⟩
      exact .inr ⟨⟨.inr rfl, written, hwritten, rfl⟩, hpath⟩
    . cases h

theorem mem_idents_zeroValue {type : Schema.FieldType}
    (h : ident ∈ (zeroValue packages type).idents) :
    ∃ fullName, type = .enum fullName
      ∧ ident.importPath = (packages.ident fullName).importPath := by
  unfold zeroValue at h
  split at h
  . next fullName =>
    split at h
    . rcases List.mem_singleton.1 h with rfl
      exact ⟨fullName, rfl, rfl⟩
    . cases h
  . cases h
  . cases h
  . cases h
  . cases h
  . cases h

theorem importPath_of_mem_idents_fieldDefault (h : ident ∈ (fieldDefault packages field).idents) :
    (∃ other ∈ (fieldType packages field).idents, other.importPath = ident.importPath)
      ∨ CallsMath field ∧ ident.importPath.path = "math" := by
  cases hrepeated : field.isRepeated with
  | true =>
    rw [fieldDefault, hrepeated] at h
    cases h
  | false =>
    have henum : (∃ fullName, field.type = .enum fullName
          ∧ ident.importPath = (packages.ident fullName).importPath) →
        ∃ other ∈ (fieldType packages field).idents, other.importPath = ident.importPath := by
      rintro ⟨fullName, htype, hpath⟩
      rw [fieldType_of_enum hrepeated htype]
      exact ⟨_, List.mem_singleton_self _, hpath.symm⟩
    simp only [fieldDefault, hrepeated, Bool.false_eq_true, ↓reduceIte] at h
    split at h
    . next value hvalue =>
      rcases mem_idents_explicitDefault h with htype | ⟨⟨htype, written, hwritten, rfl⟩, hpath⟩
      . exact .inl (henum htype)
      . exact .inr ⟨⟨hrepeated, htype, written, hwritten, hvalue⟩, hpath⟩
    . exact .inl (henum (mem_idents_zeroValue h))

theorem CallsMath.exists_fieldDefault_eq (h : CallsMath field) (packages : Packages) :
    ∃ narrow function arguments, fieldDefault packages field = mathCall narrow function arguments
      ∧ Code.StartsAsName function.toList := by
  rcases h with ⟨hrepeated, htype, written, hwritten, hdefault⟩
  simp only [fieldDefault, hrepeated, Bool.false_eq_true, ↓reduceIte, hdefault]
  rcases htype with htype | htype
  . rw [htype]
    exact ⟨true, exists_floatConstant_eq true hwritten⟩
  . rw [htype]
    exact ⟨false, exists_floatConstant_eq false hwritten⟩

theorem exists_key_of_entryFields?_eq_some (hentries : packages.registry.HasEntries)
    {key value : Schema.Field} (h : entryFields? packages field = some (key, value)) :
    ∃ type, key.type = .scalar type := by
  rcases Option.bind_eq_some_iff.1 h with ⟨fullName, -, h⟩
  rcases Option.bind_eq_some_iff.1 h with ⟨entry, hfound, h⟩
  cases hentry : entry.isMapEntry with
  | false =>
    rw [hentry] at h
    cases h
  | true =>
    rcases hentries fullName entry hfound hentry with ⟨type, value', hisEntry⟩
    rw [hentry, hisEntry.fields] at h
    cases h
    exact ⟨type, rfl⟩

theorem hasScalarKeys_elementType (packages : Packages) (field : Schema.Field) :
    (elementType packages field).HasScalarKeys := by
  unfold elementType
  split
  . next type _ => cases type <;> exact trivial
  . exact trivial
  . exact trivial
  . exact trivial

theorem hasScalarKeys_fieldType (hentries : packages.registry.HasEntries) (field : Schema.Field) :
    (fieldType packages field).HasScalarKeys := by
  unfold fieldType standardType
  split
  . exact trivial
  . split
    . split
      . next key value hfields =>
        rcases exists_key_of_entryFields?_eq_some hentries hfields with ⟨type, htype⟩
        refine ⟨⟨type, ?_⟩, hasScalarKeys_elementType packages value⟩
        unfold elementType
        rw [htype]
      . exact hasScalarKeys_elementType packages field
    . exact hasScalarKeys_elementType packages field

theorem mem_idents_elementType (h : ident ∈ (elementType packages field).idents) :
    ∃ fullName, ident = packages.ident fullName := by
  unfold elementType at h
  cases htype : field.type with
  | scalar type => simp [htype, Code.TypeExpr.idents_ofScalar] at h
  | enum fullName =>
    rw [htype] at h
    exact ⟨fullName, List.mem_singleton.1 h⟩
  | message fullName =>
    rw [htype] at h
    exact ⟨fullName, List.mem_singleton.1 h⟩
  | named written => simp [htype, Code.TypeExpr.idents] at h

theorem mem_idents_standardType (h : ident ∈ (standardType packages field).idents) :
    ∃ fullName, ident = packages.ident fullName := by
  unfold standardType at h
  split at h
  . split at h
    . rcases List.mem_append.1 h with h | h
      . exact mem_idents_elementType h
      . exact mem_idents_elementType h
    . exact mem_idents_elementType h
  . exact mem_idents_elementType h

theorem exists_message?_of_referenceIdent?_eq_some
    (h : referenceIdent? packages field = some ident) :
    ∃ fullName message, packages.registry.message? fullName = some message
      ∧ ident.name = (packages.ident message.fullName).name := by
  rcases Option.bind_eq_some_iff.1 h with ⟨fullName, -, h⟩
  rcases Option.bind_eq_some_iff.1 h with ⟨message, hmessage, h⟩
  rcases Option.bind_eq_some_iff.1 h with ⟨options, -, h⟩
  split at h
  . cases h
  . refine ⟨fullName, message, hmessage, ?_⟩
    rw [← Option.some.inj h]

theorem startsAsName_of_mem_idents_fieldType (hnamed : packages.registry.IsNamed)
    (h : ident ∈ (fieldType packages field).idents) (hpath : ident.importPath.path ≠ "") :
    Code.StartsAsName ident.name.toList := by
  unfold fieldType at h
  split at h
  . next reference hreference =>
    rcases List.mem_singleton.1 h with rfl
    rcases exists_message?_of_referenceIdent?_eq_some hreference
      with ⟨fullName, message, hmessage, hname⟩
    rw [hname]
    exact Packages.startsAsName_ident_of_message? hnamed hmessage
  . rcases mem_idents_standardType h with ⟨fullName, rfl⟩
    exact Packages.startsAsName_ident hnamed hpath

/--
What is written for the field refers to the package at that path.
-/
def RefersTo (packages : Packages) (field : Schema.Field) (path : String) : Prop :=
  (∃ ident ∈ (fieldType packages field).idents, ident.importPath.path = path)
    ∨ field.isWrapper = false
      ∧ ∃ ident ∈ (fieldDefault packages field).idents, ident.importPath.path = path

theorem refersTo_or_dropsCall (h : ident ∈ fieldIdents packages field) :
    RefersTo packages field ident.importPath.path
      ∨ ident.importPath.path = "math" ∧ DropsCall field := by
  rcases List.mem_append.1 h with h | h
  . exact .inl (.inl ⟨ident, h, rfl⟩)
  . cases hwrapper : field.isWrapper with
    | false => exact .inl (.inr ⟨hwrapper, ident, h, rfl⟩)
    | true =>
      rcases importPath_of_mem_idents_fieldDefault h with ⟨other, hother, hpath⟩ | ⟨hcalls, hpath⟩
      . exact .inl (.inl ⟨other, hother, by rw [hpath]⟩)
      . exact .inr ⟨hpath, hwrapper, hcalls⟩

theorem CallsMath.exists_mem_fieldIdents (h : CallsMath field) (packages : Packages) :
    ∃ ident ∈ fieldIdents packages field, ident.importPath.path = "math" := by
  rcases h.exists_fieldDefault_eq packages with ⟨narrow, function, arguments, hdefault, -⟩
  refine ⟨⟨function, .ofText "math"⟩, List.mem_append_right _ ?_, rfl⟩
  rw [hdefault, idents_mathCall]
  exact List.mem_singleton_self _

def Field.Mentions (field : Field) (name : String) : Prop :=
  Code.Mentions name field.typeName ∨ Code.Mentions name field.defaultValue

theorem RefersTo.mentions {path name : String} {table : ImportTable}
    (h : RefersTo packages field path) (hnamed : packages.registry.IsNamed)
    (hentries : packages.registry.HasEntries) (hbare : table.isBare path = false)
    (halias : table.alias? path = some name) : (fieldAt packages table field).Mentions name := by
  have hempty : path ≠ "" := by
    rintro rfl
    simp [ImportTable.isBare] at hbare
  have htype : (∃ ident ∈ (fieldType packages field).idents, ident.importPath.path = path) →
      (fieldAt packages table field).Mentions name := by
    rintro ⟨ident, hident, rfl⟩
    have hname := startsAsName_of_mem_idents_fieldType hnamed hident hempty
    have htext := Code.TypeExpr.mentions_text (hasScalarKeys_fieldType hentries field)
      (ImportTable.mentions_refer hbare halias hname) hident
    left
    unfold fieldAt
    split
    . exact htext.append_left Code.delimits_star
    . exact htext
  rcases h with h | ⟨hwrapper, ident, hident, hpath⟩
  . exact htype h
  . rcases importPath_of_mem_idents_fieldDefault hident
      with ⟨other, hother, hsame⟩ | ⟨hcalls, hmath⟩
    . -- The type, which lies in the same package, is written in any case.
      exact htype ⟨other, hother, by rw [hsame, hpath]⟩
    . rcases hcalls.exists_fieldDefault_eq packages
        with ⟨narrow, function, arguments, hdefault, hname⟩
      obtain rfl : path = "math" := hpath.symm.trans hmath
      have hrefer : Mentions name (table.refer ⟨function, .ofText "math"⟩) :=
        ImportTable.mentions_refer hbare halias hname
      right
      simpa [fieldAt, hwrapper, hdefault] using mentions_text_mathCall hrefer narrow arguments

end

/-! ### Imports of an output -/

section

variable {packages : Packages} {name : String} {output : Output}

theorem generateFile_eq_ok (h : generateFile packages name = .ok output) :
    ∃ file, packages.registry.file? name = some file
      ∧ (bindFile packages file).run.run { own := (packages.forFile? name).getD {} }
        = (.ok output.binding, output.imports) := by
  unfold generateFile at h
  split at h
  . next file hfile =>
    rcases bind_eq_ok_iff.1 h with ⟨filename, -, h⟩
    rcases bind_eq_ok_iff.1 h with ⟨binding, hbinding, h⟩
    cases h
    exact ⟨file, hfile, Prod.ext hbinding rfl⟩
  . cases h

theorem mem_generated {registry : Registry} {config : Config} {names : List String} :
    output ∈ (generate registry config names).generated
      ↔
    ∃ name ∈ names, generateFile ⟨registry, config⟩ name = .ok output := by
  unfold generate
  induction names with
  | nil => simp [generate.go]
  | cons name names ih =>
    rw [generate.go]
    cases hresult : generateFile ⟨registry, config⟩ name with
    | ok first => simp [hresult, ih, eq_comm]
    | error error => simp [hresult, ih]

theorem importPath_of_mem_enums {file : Schema.File}
    (hfile : packages.registry.file? name = some file) {enum : Schema.Enum}
    (henum : enum ∈ file.enums) :
    (packages.ident enum.fullName).importPath = (packages.forFile? name).getD {} := by
  have hmem : file ∈ packages.registry.files := List.mem_of_find?_eq_some hfile
  have hname : file.name = name := by simpa using List.find?_some hfile
  have hfound := (Registry.lookup_enum hmem (.inl henum)).2.2
  simp [Packages.ident, Packages.importPath, hfound, hname]

/--
The imports of an output are the packages that its fields refer to, with those whose reference is
dropped; the enums of the file add nothing.
-/
theorem imports_of_generateFile (h : generateFile packages name = .ok output) :
    output.imports.WellFormed
      ∧ (∀ field ∈ output.binding.allFields,
        field = fieldAt packages output.imports field.schema)
      ∧ ∀ path, path ∈ output.imports.entries.map Prod.fst
        ↔
        output.imports.isBare path = false
          ∧ ∃ field ∈ output.binding.allFields, ∃ ident ∈ fieldIdents packages field.schema,
            ident.importPath.path = path := by
  rcases generateFile_eq_ok h with ⟨file, hfile, hrun⟩
  generalize hown : (packages.forFile? name).getD {} = own at hrun
  have hwrites := writes_bindFile packages file
  have htable := hwrites.table_eq { own } output.binding
  rw [hrun] at htable
  rcases hwrites.stateless (.new own) hrun with ⟨hextends, hreachable, hvalue, -⟩
  rcases bindsFields_of_fileAt hvalue with ⟨bound, hfields, hidents⟩
  refine ⟨hreachable.wellFormed, ?_, ?_⟩
  . intro field hfield
    rw [hfields] at hfield
    rcases List.mem_map.1 hfield with ⟨schema, -, rfl⟩
    rw [schema_fieldAt]
  . intro path
    rw [hextends.isBare_eq]
    rw [show output.imports = _ from htable rfl]
    rw [ImportTable.mem_paths_recordAll]
    simp only [List.map_nil, List.not_mem_nil, false_or]
    apply and_congr_right
    intro hbare
    constructor
    . rintro ⟨ident, hident, rfl⟩
      rcases List.mem_append.1 hident with hident | hident
      . -- An enum of the file lies in the file's own package.
        rcases List.mem_map.1 hident with ⟨enum, henum, rfl⟩
        rw [importPath_of_mem_enums hfile henum, hown] at hbare
        simp [ImportTable.isBare] at hbare
      . rw [hidents] at hident
        rcases List.mem_flatMap.1 hident with ⟨schema, hmem, hident⟩
        rw [hfields]
        refine ⟨_, List.mem_map_of_mem hmem, ident, ?_, rfl⟩
        rw [schema_fieldAt]
        exact hident
    . rintro ⟨field, hfield, ident, hident, rfl⟩
      rw [hfields] at hfield
      rcases List.mem_map.1 hfield with ⟨schema, hmem, rfl⟩
      rw [schema_fieldAt] at hident
      refine ⟨ident, List.mem_append_right _ ?_, rfl⟩
      rw [hidents]
      exact List.mem_flatMap.2 ⟨schema, hmem, hident⟩

theorem mentions_of_refersTo (hnamed : packages.registry.IsNamed)
    (hentries : packages.registry.HasEntries) (h : generateFile packages name = .ok output)
    {path qualifier : String} (hentry : (path, qualifier) ∈ output.imports.entries) {field : Field}
    (hfield : field ∈ output.binding.allFields) (hrefers : RefersTo packages field.schema path) :
    field.Mentions qualifier := by
  rcases imports_of_generateFile h with ⟨hwellFormed, hfieldAt, -⟩
  rw [hfieldAt field hfield]
  apply hrefers.mentions hnamed hentries
  . exact hwellFormed.not_isBare _ hentry
  . exact hwellFormed.alias?_eq_some_iff.2 hentry

theorem mentions_or_dropsCall (hnamed : packages.registry.IsNamed)
    (hentries : packages.registry.HasEntries) (h : generateFile packages name = .ok output)
    {path qualifier : String} (hentry : (path, qualifier) ∈ output.imports.entries) :
    (∃ field ∈ output.binding.allFields, field.Mentions qualifier)
      ∨ path = "math" ∧ ∃ field ∈ output.binding.allFields, DropsCall field.schema := by
  rcases imports_of_generateFile h with ⟨-, -, hpaths⟩
  rcases (hpaths path).1 (List.mem_map_of_mem hentry) with ⟨-, field, hfield, ident, hident, rfl⟩
  rcases refersTo_or_dropsCall hident with hrefers | ⟨hmath, hdrops⟩
  . exact .inl ⟨field, hfield, mentions_of_refersTo hnamed hentries h hentry hfield hrefers⟩
  . exact .inr ⟨hmath, field, hfield, hdrops⟩

theorem exists_mem_entries_of_dropsCall (h : generateFile packages name = .ok output)
    (hown : output.imports.own.path ≠ "math") {field : Field}
    (hfield : field ∈ output.binding.allFields) (hdrops : DropsCall field.schema) :
    ∃ qualifier, ("math", qualifier) ∈ output.imports.entries := by
  rcases imports_of_generateFile h with ⟨-, -, hpaths⟩
  have hmath : "math" ∈ output.imports.entries.map Prod.fst := by
    rw [hpaths]
    refine ⟨?_, field, hfield, hdrops.2.exists_mem_fieldIdents _⟩
    simp [ImportTable.isBare, hown.symm]
  rcases List.mem_map.1 hmath with ⟨⟨_, qualifier⟩, hentry, rfl⟩
  exact ⟨qualifier, hentry⟩

end

/--
Each import of the output is the qualifier of a reference.
-/
def UsesImports (output : Output) : Prop :=
  ∀ path qualifier, (path, qualifier) ∈ output.imports.entries →
    ∃ field ∈ output.binding.allFields, field.Mentions qualifier

/--
The imports of an output are all used, unless a boxed field has a default that would be got by a
call of `math` and nothing in the output refers to `math`, which is not its own package. An import
of any other package is always used, and each field that refers to a package has the reference in
its texts.
-/
theorem usesImports_iff {files : List Schema.File} {registry : Registry} {config : Config}
    {names : List String} {output : Output}
    (hfiles : ∀ file ∈ files, ∃ name text, Schema.File.ofText name text = .ok file)
    (hregistry : Registry.ofFiles files = .ok registry)
    (houtput : output ∈ (generate registry config names).generated) :
    (UsesImports output
      ↔
      output.imports.own.path = "math"
        ∨ (∀ field ∈ output.binding.allFields, ¬ DropsCall field.schema)
        ∨ ∃ qualifier, ("math", qualifier) ∈ output.imports.entries
          ∧ ∃ field ∈ output.binding.allFields, field.Mentions qualifier)
    ∧ ∀ path qualifier, (path, qualifier) ∈ output.imports.entries →
      (path ≠ "math" → ∃ field ∈ output.binding.allFields, field.Mentions qualifier)
        ∧ ∀ field ∈ output.binding.allFields,
          RefersTo ⟨registry, config⟩ field.schema path → field.Mentions qualifier := by
  rcases mem_generated.1 houtput with ⟨name, -, houtput⟩
  have hnamed := Registry.isNamed_of_ofFiles_eq_ok hfiles hregistry
  have hentries := Registry.hasEntries_of_ofFiles_eq_ok hfiles hregistry
  have hwellFormed := (imports_of_generateFile houtput).1
  refine ⟨⟨?_, ?_⟩, ?_⟩
  . intro huses
    by_cases hown : output.imports.own.path = "math"
    . exact .inl hown
    . right
      by_cases hdrops : ∃ field ∈ output.binding.allFields, DropsCall field.schema
      . rcases hdrops with ⟨field, hfield, hdrops⟩
        rcases exists_mem_entries_of_dropsCall houtput hown hfield hdrops
          with ⟨qualifier, hentry⟩
        exact .inr ⟨qualifier, hentry, huses _ _ hentry⟩
      . left
        intro field hfield hfalse
        exact hdrops ⟨field, hfield, hfalse⟩
  . intro hholds path qualifier hentry
    rcases mentions_or_dropsCall hnamed hentries houtput hentry
      with hused | ⟨rfl, field, hfield, hdrops⟩
    . exact hused
    . rcases hholds with hown | hnone | ⟨other, hother, hused⟩
      . have hbare := hwellFormed.not_isBare _ hentry
        simp [ImportTable.isBare, hown] at hbare
      . exact absurd hdrops (hnone field hfield)
      . rw [← hwellFormed.alias?_eq_some_iff] at hentry hother
        rw [hentry] at hother
        rw [Option.some.inj hother]
        exact hused
  . intro path qualifier hentry
    constructor
    . intro hmath
      apply (mentions_or_dropsCall hnamed hentries houtput hentry).resolve_right
      exact fun h => hmath h.1
    . intro field hfield hrefers
      exact mentions_of_refersTo hnamed hentries houtput hentry hfield hrefers

def limitText : String :=
  "message Limit \x7b
  option (q.message_extend) = \x7b java_class_name: \"Limit\" reference_path: \"shop/limits\" \x7d;
  optional Limit next = 1;
  optional double bound = 2 [default = inf];
\x7d
"

theorem generate_limitText :
    ∃ file, Schema.File.ofText "limit.proto" limitText = .ok file
      ∧ ∃ registry, Registry.ofFiles [file] = .ok registry
      ∧ ∃ output ∈ (generate registry {} ["limit.proto"]).generated,
        output.imports.entries = [("shop/limits", "limits"), ("math", "math")]
          ∧ ∀ field ∈ output.binding.allFields, field.schema.isWrapper = false := by
  decide +kernel

theorem usesImports_limitText :
    ∃ file registry output, Schema.File.ofText "limit.proto" limitText = .ok file
      ∧ Registry.ofFiles [file] = .ok registry
      ∧ output ∈ (generate registry {} ["limit.proto"]).generated
      ∧ output.imports.entries = [("shop/limits", "limits"), ("math", "math")]
      ∧ UsesImports output := by
  rcases generate_limitText
    with ⟨file, hfile, registry, hregistry, output, houtput, hentries, hplain⟩
  refine ⟨file, registry, output, hfile, hregistry, houtput, hentries, ?_⟩
  have hfiles : ∀ other ∈ [file], ∃ name text, Schema.File.ofText name text = .ok other := by
    intro other hother
    rcases List.mem_singleton.1 hother with rfl
    exact ⟨"limit.proto", limitText, hfile⟩
  rw [(usesImports_iff hfiles hregistry houtput).1]
  right
  left
  intro field hfield hdrops
  rw [DropsCall, hplain field hfield] at hdrops
  cases hdrops.1

def boxedText : String :=
  "syntax = \"proto2\";
message Limit \x7b
  option (q.message_extend) = \x7b java_class_name: \"Limit\" \x7d;
  optional double bound = 1 [default = inf, (q.field_extend) = \x7b is_wrapper: true \x7d];
\x7d
"

theorem generate_boxedText :
    ∃ file, Schema.File.ofText "limit.proto" boxedText = .ok file
      ∧ ∃ registry, Registry.ofFiles [file] = .ok registry
      ∧ ∃ output ∈ (generate registry {} ["limit.proto"]).generated,
        output.imports.entries = [("math", "math")]
          ∧ ∀ field ∈ output.binding.allFields,
            field.typeName = "*float64" ∧ field.defaultValue = "nil" := by
  decide +kernel

theorem not_usesImports_boxedText :
    ∃ file registry output, Schema.File.ofText "limit.proto" boxedText = .ok file
      ∧ Registry.ofFiles [file] = .ok registry
      ∧ output ∈ (generate registry {} ["limit.proto"]).generated
      ∧ ("math", "math") ∈ output.imports.entries
      ∧ ¬ UsesImports output := by
  rcases generate_boxedText
    with ⟨file, hfile, registry, hregistry, output, houtput, hentries, htexts⟩
  have hentry : ("math", "math") ∈ output.imports.entries := by
    rw [hentries]
    exact List.mem_singleton_self _
  refine ⟨file, registry, output, hfile, hregistry, houtput, hentry, ?_⟩
  intro huses
  rcases huses "math" "math" hentry with ⟨field, hfield, hmentions⟩
  rw [Field.Mentions, (htexts field hfield).1, (htexts field hfield).2] at hmentions
  rcases hmentions with hmentions | hmentions
  . exact Code.not_mentions_of_not_mem (by decide) hmentions
  . exact Code.not_mentions_of_not_mem (by decide) hmentions

end Binding

end HessianGo
