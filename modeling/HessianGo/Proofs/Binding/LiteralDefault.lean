import HessianGo.Proofs.Binding.Bound
import HessianGo.Proofs.Registry.Declared
import HessianGo.Proofs.Source.DefaultText

/-!
This module contains the way of a literal default through a schema text: it is read as what it was
written for, and the binding of the field has the same literal again.
-/

namespace HessianGo

def Source.LiteralDefault.code : Source.LiteralDefault → String
  | text value => Code.quote value
  | bytes value => "[]byte(" ++ Code.quoteBytes value ++ ")"

namespace Binding

open Code (Packages ImportTable)
open Source (LiteralField LiteralFile Located LaidOut Ident)

theorem defaultValue_fieldAt (packages : Packages) (table : ImportTable) (field : LiteralField) :
    (fieldAt packages table field.schema).defaultValue = field.default.code := by
  rcases field with ⟨name, number, value | value⟩
  . rfl
  . rfl

theorem mem_fields_mapFields_literal {field : LiteralField} {message : Schema.Message}
    (h : field.schema ∈ message.fields) (declarations : List Schema.Declaration) :
    field.schema ∈ (message.mapFields (Registry.resolvedField declarations)).fields := by
  -- Among resolved fields the field is as it was read, since its type is built in.
  apply Registry.mem_fields_mapFields h
  intro written htype
  cases htype

/--
The literals of bytes and of texts are string literals of a schema and of Go, and denote in both
what they were written for. So a field that has such a literal as its default is read with the value
of the literal, and when its message is bound the default is the literal again.
-/
theorem literalDefault_survives :
    (∀ bytes : List UInt8,
      Source.stringHere (Code.quoteBytes bytes).toList = .ok (Code.quoteBytes bytes).toList []
        ∧ Source.StringLiteral.bytes (Code.quoteBytes bytes) = .ok bytes
        ∧ ∀ other, Code.GoDenotes (Code.quoteBytes bytes) other ↔ other = bytes)
    ∧ (∀ text : String,
      Source.stringHere (Code.quote text).toList = .ok (Code.quote text).toList []
        ∧ Source.StringLiteral.text (Code.quote text) = .ok text
        ∧ ∀ other, Code.GoDenotes (Code.quote text) other ↔ other = Text.utf8 text.toList)
    ∧ ∀ (q : List Ident) (file : LiteralFile) (text : String),
      LaidOut (file.tokens q) text.toList → ∀ name, ∃ source,
        Schema.File.ofText name text = .ok source
        ∧ ∃ written, Located source file.chain written
          ∧ file.field.schema ∈ written.fields
          ∧ written.options = Source.blockOf (file.place.around.1 ++ file.place.around.2)
          ∧ ∀ files registry, source ∈ files → Registry.ofFiles files = .ok registry →
            ∃ message, registry.message? written.fullName = some message
              ∧ file.field.schema ∈ message.fields
              ∧ message.options = written.options
              ∧ ∀ config table, (∀ inner, message.Exposes inner → inner.lacksClass = false) →
                ∃ binding,
                  ((bindMessage ⟨registry, config⟩ message).run.run table).1 = .ok binding
                  ∧ binding.fields.map (·.schema) = message.fields
                  ∧ ∀ bound ∈ binding.fields, bound.schema = file.field.schema →
                    bound.defaultValue = file.field.default.code := by
  refine ⟨?_, ?_, ?_⟩
  . intro bytes
    have hliteral := Code.isLiteralOf_quoteBytes bytes
    have hmatch := Source.stringHere_append hliteral []
    rw [List.append_nil] at hmatch
    exact ⟨hmatch, Source.StringLiteral.bytes_of_isLiteralOf hliteral, hliteral.goDenotes_iff⟩
  . intro text
    have hliteral := Code.isLiteralOf_quote text
    have hmatch := Source.stringHere_append hliteral []
    rw [List.append_nil] at hmatch
    exact ⟨hmatch, Source.StringLiteral.text_quote text, hliteral.goDenotes_iff⟩
  . intro q file text hlaid name
    rcases file.exists_ofText q hlaid name
      with ⟨source, hsource, written, hlocated, hentry, hfields, hoptions⟩
    have hfield : file.field.schema ∈ written.fields := by
      rw [hfields]
      simp
    refine ⟨source, hsource, written, hlocated, hfield, hoptions, ?_⟩
    intro files registry hmem hregistry
    rcases Registry.exists_located hregistry hmem hlocated with ⟨_, -, -, -, hfound⟩
    refine ⟨_, hfound, mem_fields_mapFields_literal hfield _, ?_, ?_⟩
    . rw [Schema.Message.mapFields_eq]
    . intro config table hclass
      have hentry' :
          (written.mapFields (Registry.resolvedField (Registry.declared files))).isMapEntry
            = false := by
        rw [Schema.Message.mapFields_eq]
        exact hentry
      rcases exists_binding hentry' hclass with ⟨binding, hrun, hschemas, hbound⟩
      refine ⟨binding, hrun, hschemas, ?_⟩
      intro bound hmem hschema
      rcases hbound bound hmem with ⟨final, heq⟩
      rw [heq, hschema]
      exact defaultValue_fieldAt _ final file.field

def noteFile : LiteralFile where
  dialect := some .proto2
  isProto2 := rfl
  package := none
  isPath := nofun
  before := []
  name := ⟨"Book", by decide⟩
  place := .inside [.options [(.javaClassName "Book", .none)]] ⟨"Note", by decide⟩
    (.here [] [.options [(.javaClassName "Note", .none)]]) []
  field := { name := ⟨"f", by decide⟩, number := 1, default := .text "a\"\x01\u00e9" }
  after := []

def noteText : String :=
  String.ofList ((noteFile.tokens []).flatMap fun token => token.toList ++ [' '])

theorem registry_noteText :
    ∃ source, Schema.File.ofText "note.proto" noteText = .ok source
      ∧ (∀ outer ∈ source.messages, outer.messages.map (·.fullName) = ["Book.Note"])
      ∧ ∃ registry, Registry.ofFiles [source] = .ok registry
        ∧ ∀ message ∈ registry.message? "Book.Note",
          ∀ inner ∈ message.postOrder, inner.lacksClass = false := by
  decide +kernel

theorem literalDefault_survives_noteText :
    LaidOut (noteFile.tokens []) noteText.toList
      ∧ ∃ source registry message binding, Schema.File.ofText "note.proto" noteText = .ok source
        ∧ Registry.ofFiles [source] = .ok registry
        ∧ registry.message? "Book.Note" = some message
        ∧ ((bindMessage ⟨registry, {}⟩ message).run.run { own := {} }).1 = .ok binding
        ∧ ∃ bound ∈ binding.fields, bound.schema.name = "f"
          ∧ bound.schema.defaultValue = some (.text "a\"\x01\u00e9")
          ∧ bound.defaultValue = "\"a\\\"\\x01\u00e9\"" := by
  have hlaid : LaidOut (noteFile.tokens []) noteText.toList := by
    rw [noteText, String.toList_ofList]
    apply Source.laidOut_blanks
    decide
  rcases registry_noteText with ⟨source, hsource, hnames, registry, hregistry, hclass⟩
  rcases literalDefault_survives.2.2 [] noteFile noteText hlaid "note.proto"
    with ⟨source', hsource', written, hlocated, -, -, hrest⟩
  obtain rfl : source = source' := Except.ok.inj (hsource.symm.trans hsource')
  have hname : written.fullName = "Book.Note" := by
    rcases hlocated.exists_of_concat (show noteFile.chain = ["Book"] ++ ["Note"] from rfl) (by simp)
      with ⟨outer, houter, hwritten, -⟩
    have := List.mem_map_of_mem (f := (·.fullName)) hwritten
    rw [hnames outer (houter.mem_of_singleton rfl)] at this
    exact List.mem_singleton.1 this
  rw [hname] at hrest
  rcases hrest [source] registry (List.mem_singleton_self source) hregistry
    with ⟨message, hmessage, hfield, -, hbinds⟩
  rcases hbinds {} { own := {} }
    (fun inner hinner => hclass message hmessage inner (Schema.Message.mem_postOrder.2 hinner))
    with ⟨binding, hrun, hschemas, hdefault⟩
  rw [← hschemas] at hfield
  rcases List.mem_map.1 hfield with ⟨bound, hbound, hschema⟩
  refine ⟨hlaid, source, registry, message, binding, hsource, hregistry, hmessage, hrun, bound,
    hbound, ?_, ?_, ?_⟩
  . rw [hschema]
    rfl
  . rw [hschema]
    rfl
  . rw [hdefault bound hbound hschema]
    decide

end Binding

end HessianGo
