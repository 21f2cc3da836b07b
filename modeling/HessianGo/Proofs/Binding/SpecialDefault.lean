import HessianGo.Proofs.Binding.TypeText
import HessianGo.Proofs.Registry.Declared
import HessianGo.Proofs.Source.SpecialFloat

/-!
This module contains the way of a floating-point value that is written as a word from the default of
a field to the binding of the field. There the value is a call of a function of `math`, if nothing
stands between its sign and its word.
-/

namespace HessianGo

open Source (FileTree Declared DeclaresField Located Reads SpecialFloat
  DeclaresSpecial HasSpecialDefault)
open Code (Packages ImportTable)

namespace Source.SpecialFloat

def function (special : SpecialFloat) : String :=
  match special.word with
  | .inf => "Inf"
  | .nan => "NaN"

def arguments (special : SpecialFloat) : String :=
  match special.word with
  | .inf => if special.gap?.isSome then "-1" else "1"
  | .nan => ""

def code (special : SpecialFloat) (math : String) (narrow : Bool) : String :=
  let call := math ++ "." ++ special.function ++ "(" ++ special.arguments ++ ")"
  if narrow then "float32(" ++ call ++ ")" else call

/--
In a file with this import table, the text is the Go expression for the value.
-/
def IsCode (special : SpecialFloat) (table : ImportTable) (narrow : Bool) (text : String) : Prop :=
  ∃ math, ("math", math) ∈ table.entries ∧ text = special.code math narrow

theorem length_written_of_not_isTight {special : SpecialFloat} (h : ¬ special.IsTight) :
    4 < special.written.toList.length := by
  rcases exists_gap_of_not_isTight h with ⟨gap, -, hne, hsign⟩
  have hgap := List.length_pos_of_ne_nil hne
  have hword : special.word.text.toList.length = 3 := by
    cases special.word
    all_goals rfl
  rw [toList_written, hsign, List.length_append, List.length_cons, hword]
  omega

theorem written_mem_iff {special : SpecialFloat} :
    special.written ∈ ["inf", "-inf", "nan", "-nan"] ↔ special.IsTight := by
  constructor
  . intro hmem
    by_contra hloose
    have hshort : ∀ text ∈ ["inf", "-inf", "nan", "-nan"], text.toList.length ≤ 4 := by decide
    have hlong := length_written_of_not_isTight hloose
    have := hshort _ hmem
    omega
  . intro htight
    unfold written
    rcases sign_of_isTight htight with hsign | hsign
    all_goals
      rw [hsign]
      cases special.word
      all_goals decide

end Source.SpecialFloat

namespace Binding

open Source (FloatWord)
open Source.SpecialFloat

theorem floatConstant_of_not_mem {written : String} (h : written ∉ ["inf", "-inf", "nan", "-nan"])
    (narrow : Bool) : floatConstant narrow written = .plain written := by
  unfold floatConstant
  grind

theorem floatConstant_of_isTight {special : SpecialFloat} (h : special.IsTight) (narrow : Bool) :
    floatConstant narrow special.written
      =
    if narrow then
      .convert "float32" (.call ⟨special.function, .ofText "math"⟩ special.arguments)
    else
      .call ⟨special.function, .ofText "math"⟩ special.arguments := by
  rcases gap?_of_isTight h with hgap | hgap
  all_goals
    cases hword : special.word
    all_goals simp [written, sign, hgap, hword, FloatWord.text, function, arguments, floatConstant]

theorem text_floatConstant {special : SpecialFloat} (h : special.IsTight) (narrow : Bool)
    {table : ImportTable} {math : String} (hbare : table.isBare "math" = false)
    (halias : table.alias? "math" = some math) :
    (floatConstant narrow special.written).text table = special.code math narrow := by
  have hrefer :
      table.refer ⟨special.function, .ofText "math"⟩ = math ++ "." ++ special.function := by
    change (if table.isBare "math" then _ else (table.alias? "math").getD "" ++ "." ++ _) = _
    rw [hbare, halias]
    rfl
  rw [floatConstant_of_isTight h, code, ← hrefer]
  cases narrow with
  | true => simp [Code.Expr.text, String.append_assoc]
  | false => rfl

theorem written_ne_code (special : SpecialFloat) (math : String) (narrow : Bool) :
    special.written ≠ special.code math narrow := by
  -- The expression for a value ends in a bracket, and no value is written like this.
  intro h
  have hcode : ∃ front, special.code math narrow = front ++ ")" := by
    cases narrow with
    | true => exact ⟨_, rfl⟩
    | false => exact ⟨_, rfl⟩
  rcases hcode with ⟨front, hfront⟩
  have hlast := congrArg (·.toList.getLast?) (h.trans hfront)
  cases hword : special.word
  all_goals simp [toList_written, hword, FloatWord.text] at hlast

section

variable {packages : Packages} {final : ImportTable} {bound : Field} {narrow : Bool}
  {special : SpecialFloat}

theorem IsBound.defaultValue_eq_text (h : IsBound packages final bound)
    (hspecial : HasSpecialDefault bound.schema narrow special) :
    bound.defaultValue = (floatConstant narrow special.written).text final := by
  rw [h.defaultValue_eq, hspecial.isWrapper,
    fieldDefault_of_some hspecial.isRepeated hspecial.defaultValue, hspecial.type]
  cases narrow with
  | true => rfl
  | false => rfl

theorem callsMath_of_isTight {field : Schema.Field}
    (hspecial : HasSpecialDefault field narrow special) (h : special.IsTight) :
    CallsMath field := by
  refine ⟨hspecial.isRepeated, ?_, _, written_mem_iff.2 h, hspecial.defaultValue⟩
  rw [hspecial.type]
  cases narrow with
  | true => exact .inl rfl
  | false => exact .inr rfl

theorem IsBound.exists_alias_math (h : IsBound packages final bound)
    (hmath : CallsMath bound.schema) (hbare : final.isBare "math" = false) :
    ∃ math, final.alias? "math" = some math := by
  rcases hmath.exists_mem_fieldIdents packages with ⟨ident, hident, hpath⟩
  have hknows := h.eq_fieldAt.2.2 ident hident
  rw [hpath] at hknows
  rcases hknows with hbare' | hsome
  . rw [hbare] at hbare'
    cases hbare'
  . exact Option.isSome_iff_exists.1 hsome

theorem IsBound.isCode_of_isTight (h : IsBound packages final bound)
    (hspecial : HasSpecialDefault bound.schema narrow special) (htight : special.IsTight)
    (hown : final.own.path ≠ "math") : special.IsCode final narrow bound.defaultValue := by
  have hbare : final.isBare "math" = false := by
    simp [ImportTable.isBare, hown.symm]
  rcases h.exists_alias_math (callsMath_of_isTight hspecial htight) hbare with ⟨math, halias⟩
  refine ⟨math, h.eq_fieldAt.2.1.alias?_eq_some_iff.1 halias, ?_⟩
  rw [h.defaultValue_eq_text hspecial, text_floatConstant htight narrow hbare halias]

theorem IsBound.defaultValue_of_not_isTight (h : IsBound packages final bound)
    (hspecial : HasSpecialDefault bound.schema narrow special) (hloose : ¬ special.IsTight) :
    bound.defaultValue = special.written := by
  rw [h.defaultValue_eq_text hspecial, floatConstant_of_not_mem (mt written_mem_iff.1 hloose)]
  rfl

theorem IsBound.not_isCode_of_not_isTight (h : IsBound packages final bound)
    (hspecial : HasSpecialDefault bound.schema narrow special) (hloose : ¬ special.IsTight) :
    ¬ special.IsCode final narrow bound.defaultValue := by
  rintro ⟨math, -, hcode⟩
  rw [h.defaultValue_of_not_isTight hspecial hloose] at hcode
  exact written_ne_code special math narrow hcode

end

/--
However a special value is laid out, it is read as one default. Take a field that is declared with
it, at any depth, alone or in a group of exclusive fields. The field is bound with its message if no
message in there lacks a class, and wherever it is bound, outside of `math` itself, its default is
the Go expression for the value if and only if nothing stands between the sign and the word. If
something does, the default is the text of the schema.
-/
theorem isCode_defaultValue_iff {files : List Schema.File} {registry : Registry}
    (hregistry : Registry.ofFiles files = .ok registry) {name text : String} {file : Schema.File}
    (hfile : file ∈ files) (hread : Schema.File.ofText name text = .ok file) {tree : FileTree}
    (htree : FileTree.ofText? text.toList = some tree) {chain : List String}
    {items : List Source.MessageItem} (hdeclared : Declared tree chain items)
    {decl : Source.FieldDecl} {oneof : Option String} (hdecl : DeclaresField items decl oneof)
    {narrow : Bool} {special : SpecialFloat} (hspecial : DeclaresSpecial decl narrow special) :
    (∀ n limit tokens, n ≤ limit →
      Reads n (Source.assignment limit) ("default" :: "=" :: special.written :: tokens) tokens
        { extension := none, path := ["default"], value := .constant special.written })
    ∧ ∃ resolved ∈ registry.files, resolved.name = file.name
      ∧ ∃ message, Located resolved chain message
      ∧ registry.message? message.fullName = some message
      ∧ ∃ field ∈ message.fields, decl.toField file.dialect oneof = .ok field
      ∧ (∀ config table, table.Reachable →
        (∀ inner, message.Exposes inner → inner.lacksClass = false) →
          ∃ binding final,
            (bindMessage ⟨registry, config⟩ message).run.run table = (.ok binding, final)
            ∧ final.own = table.own
            ∧ ∃ bound ∈ binding.fields, bound.schema = field
              ∧ IsBound ⟨registry, config⟩ final bound)
      ∧ ∀ config final bound, IsBound ⟨registry, config⟩ final bound → bound.schema = field →
        (final.own.path ≠ "math" →
          (special.IsCode final narrow bound.defaultValue ↔ special.IsTight))
        ∧ (¬ special.IsTight → bound.defaultValue = special.written) := by
  rcases Registry.exists_scalarField hregistry hfile hread htree hdeclared hdecl hspecial.type
    with ⟨resolved, hresolved, hname, message, hplace, hfound, hentry, field, hfield, hfieldRead⟩
  have hdefault := hspecial.hasSpecialDefault hfieldRead
  refine ⟨fun _ _ _ => special.reads_default, resolved, hresolved, hname, message, hplace, hfound,
    field, hfield, hfieldRead, ?_, ?_⟩
  . intro config table hreachable hclass
    exact exists_isBound hreachable hentry hclass hfield
  . rintro config final bound hbound rfl
    refine ⟨?_, hbound.defaultValue_of_not_isTight hdefault⟩
    intro hown
    constructor
    . intro hcode
      by_contra hloose
      exact hbound.not_isCode_of_not_isTight hdefault hloose hcode
    . intro htight
      exact hbound.isCode_of_isTight hdefault htight hown

def rangeText : String :=
  "message Range \x7b option (q.message_extend).extend_args = true;"
    ++ " optional float low = 1 [default = -inf]; optional double high = 2 [default = - inf]; \x7d"

def tightInf : SpecialFloat where
  gap? := some []
  isTrivia := by simpa using Source.IsTrivia.nil
  word := .inf

def looseInf : SpecialFloat where
  gap? := some [' ']
  isTrivia := by simpa using Source.IsTrivia.space rfl .nil
  word := .inf

theorem tree_rangeText :
    ∃ tree ∈ FileTree.ofText? rangeText.toList,
      (tree.statements.any fun
        | .message _ items =>
          (items.any fun
            | .field decl => decide (DeclaresSpecial decl true tightInf)
            | _ => false)
          && items.any fun
            | .field decl => decide (DeclaresSpecial decl false looseInf)
            | _ => false
        | _ => false)
      ∧ ∃ file, tree.toFile "range.proto" = .ok file
        ∧ ∃ registry, Registry.ofFiles [file] = .ok registry
          ∧ ∀ resolved ∈ registry.files, ∀ message ∈ resolved.messages,
            ∀ inner ∈ message.postOrder, inner.lacksClass = false := by
  decide +kernel

theorem exists_field_of_any {items : List Source.MessageItem} {narrow : Bool}
    {special : SpecialFloat}
    (h : items.any fun
      | .field decl => decide (DeclaresSpecial decl narrow special)
      | _ => false) :
    ∃ decl, DeclaresField items decl none ∧ DeclaresSpecial decl narrow special := by
  rcases List.any_eq_true.1 h with ⟨item, hitem, hdecl⟩
  cases item with
  | field decl => exact ⟨decl, .alone hitem, of_decide_eq_true hdecl⟩
  | _ => cases hdecl

theorem declared_rangeText :
    ∃ tree file registry name items low high, FileTree.ofText? rangeText.toList = some tree
      ∧ Schema.File.ofText "range.proto" rangeText = .ok file
      ∧ Registry.ofFiles [file] = .ok registry
      ∧ (∀ resolved ∈ registry.files, ∀ message, Located resolved [name] message →
        ∀ inner, message.Exposes inner → inner.lacksClass = false)
      ∧ Declared tree [name] items
      ∧ (DeclaresField items low none ∧ DeclaresSpecial low true tightInf)
      ∧ DeclaresField items high none ∧ DeclaresSpecial high false looseInf := by
  rcases tree_rangeText with ⟨tree, htree, hstatements, file, hread, registry, hregistry, hclass⟩
  have hfile : Schema.File.ofText "range.proto" rangeText = .ok file :=
    (Schema.File.ofText_eq_toFile htree "range.proto").trans hread
  have hexposed : ∀ resolved ∈ registry.files, ∀ name message, Located resolved [name] message →
      ∀ inner, message.Exposes inner → inner.lacksClass = false := by
    intro resolved hresolved name message hplace inner hinner
    exact hclass resolved hresolved message (hplace.mem_of_singleton rfl) inner
      (Schema.Message.mem_postOrder.2 hinner)
  rcases List.any_eq_true.1 hstatements with ⟨statement, hstatement, hitems⟩
  cases statement with
  | message name items =>
    rw [Bool.and_eq_true] at hitems
    rcases exists_field_of_any hitems.1 with ⟨low, hlow⟩
    rcases exists_field_of_any hitems.2 with ⟨high, hhigh⟩
    exact ⟨tree, file, registry, name, items, low, high, htree, hfile, hregistry,
      fun resolved hresolved => hexposed resolved hresolved name, .top hstatement, hlow, hhigh⟩
  | _ => cases hitems

theorem isCode_defaultValue_rangeText :
    ∃ file registry message binding final,
      Schema.File.ofText "range.proto" rangeText = .ok file
      ∧ Registry.ofFiles [file] = .ok registry
      ∧ registry.message? message.fullName = some message
      ∧ (bindMessage ⟨registry, {}⟩ message).run.run { own := {} } = (.ok binding, final)
      ∧ ∃ bound ∈ binding.fields, bound.schema.defaultValue = some (.constant "-inf")
        ∧ ∃ math, ("math", math) ∈ final.entries
          ∧ bound.defaultValue = "float32(" ++ (math ++ ".Inf(-1)") ++ ")" := by
  rcases declared_rangeText with ⟨tree, file, registry, name, items, low, high, htree, hread,
    hregistry, hclass, hdeclared, ⟨hlow, hspecial⟩, -⟩
  rcases isCode_defaultValue_iff hregistry (List.mem_singleton_self file) hread htree hdeclared hlow
    hspecial with ⟨-, resolved, hresolved, -, message, hplace, hfound, field, -, hfieldRead, hbinds,
      hcode⟩
  rcases hbinds {} { own := {} } (.new {}) (hclass resolved hresolved message hplace)
    with ⟨binding, final, hrun, hown, bound, hbound, hschema, hisBound⟩
  have hpath : final.own.path ≠ "math" := by
    rw [hown]
    decide
  have htight : tightInf.IsTight := by
    simp [Source.SpecialFloat.IsTight, tightInf]
  rcases ((hcode {} final bound hisBound hschema).1 hpath).2 htight with ⟨math, hentry, htext⟩
  refine ⟨file, registry, message, binding, final, hread, hregistry, hfound, hrun, bound, hbound,
    ?_, math, hentry, ?_⟩
  . rw [hschema, (hspecial.hasSpecialDefault hfieldRead).defaultValue]
    rfl
  . rw [htext]
    simp [code, function, arguments, tightInf, String.append_assoc]

theorem not_isCode_defaultValue_rangeText :
    ∃ tree file registry name items decl message final bound,
      FileTree.ofText? rangeText.toList = some tree
      ∧ Schema.File.ofText "range.proto" rangeText = .ok file
      ∧ Registry.ofFiles [file] = .ok registry
      ∧ Declared tree [name] items
      ∧ DeclaresField items decl none ∧ DeclaresSpecial decl false looseInf
      ∧ registry.message? message.fullName = some message
      ∧ bound.schema ∈ message.fields ∧ decl.toField file.dialect none = .ok bound.schema
      ∧ IsBound ⟨registry, {}⟩ final bound
      ∧ final.own.path ≠ "math"
      ∧ bound.defaultValue = "- inf"
      ∧ ¬ looseInf.IsCode final false bound.defaultValue := by
  rcases declared_rangeText with ⟨tree, file, registry, name, items, low, high, htree, hread,
    hregistry, hclass, hdeclared, -, hhigh, hspecial⟩
  rcases Registry.exists_scalarField hregistry (List.mem_singleton_self file) hread htree hdeclared
    hhigh hspecial.type
    with ⟨resolved, hresolved, -, message, hplace, hfound, hentry, field, hfield, hfieldRead⟩
  have hdefault := hspecial.hasSpecialDefault hfieldRead
  have hloose : ¬ looseInf.IsTight := by
    simp [Source.SpecialFloat.IsTight, looseInf]
  rcases exists_isBound (.new {}) hentry (hclass resolved hresolved message hplace) hfield
    with ⟨_, final, -, hown, bound, -, rfl, hisBound⟩
  refine ⟨tree, file, registry, name, items, high, message, final, bound, htree, hread, hregistry,
    hdeclared, hhigh, hspecial, hfound, hfield, hfieldRead, hisBound, ?_, ?_,
    hisBound.not_isCode_of_not_isTight hdefault hloose⟩
  . rw [hown]
    decide
  . rw [hisBound.defaultValue_of_not_isTight hdefault hloose]
    rfl

end Binding

end HessianGo
