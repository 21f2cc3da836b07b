import HessianGo.Proofs.Source.Declared
import HessianGo.Proofs.Source.Grammar

/-!
This module contains the floating-point values that are written as words. A minus sign may stand in
front of the word, with or without trivia between them, and what stands there is one constant with
this trivia in it.
-/

namespace HessianGo

namespace Source

inductive FloatWord where
  | inf
  | nan

def FloatWord.text : FloatWord → String
  | inf => "inf"
  | nan => "nan"

theorem FloatWord.isName (word : FloatWord) : IsName word.text := by
  cases word
  all_goals decide

/--
A floating-point value that is written as a word with an optional minus sign in front of it.
-/
structure SpecialFloat where
  gap? : Option (List Char)
  isTrivia : ∀ gap ∈ gap?, IsTrivia gap
  word : FloatWord

namespace SpecialFloat

def sign (special : SpecialFloat) : List Char :=
  match special.gap? with
  | none => []
  | some gap => '-' :: gap

def written (special : SpecialFloat) : String :=
  String.ofList (special.sign ++ special.word.text.toList)

def IsTight (special : SpecialFloat) : Prop :=
  ∀ gap ∈ special.gap?, gap = []

theorem toList_written (special : SpecialFloat) :
    special.written.toList = special.sign ++ special.word.text.toList :=
  String.toList_ofList

theorem gap?_of_isTight {special : SpecialFloat} (h : special.IsTight) :
    special.gap? = none ∨ special.gap? = some [] := by
  unfold IsTight at h
  cases hgap : special.gap? with
  | none => exact .inl rfl
  | some gap => exact .inr (congrArg some (h gap hgap))

theorem sign_of_isTight {special : SpecialFloat} (h : special.IsTight) :
    special.sign = [] ∨ special.sign = ['-'] := by
  unfold sign
  rcases gap?_of_isTight h with hgap | hgap
  . rw [hgap]
    exact .inl rfl
  . rw [hgap]
    exact .inr rfl

theorem exists_gap_of_not_isTight {special : SpecialFloat} (h : ¬ special.IsTight) :
    ∃ gap, IsTrivia gap ∧ gap ≠ [] ∧ special.sign = '-' :: gap := by
  unfold IsTight at h
  push Not at h
  rcases h with ⟨gap, hgap, hne⟩
  refine ⟨gap, special.isTrivia gap hgap, hne, ?_⟩
  unfold sign
  rw [Option.mem_def.1 hgap]

end SpecialFloat

/-! ### Reading -/

variable {n bound : Nat} {tokens : List String} {s : List Char}

theorem floatHere_word {sign : List Char} (hsign : sign = [] ∨ sign = ['-']) (word : FloatWord)
    (hs : ∀ c ∈ s.head?, isNameChar c = false) :
    floatHere (sign ++ (word.text.toList ++ s)) = .ok (sign ++ word.text.toList) s := by
  have hsigned : signHere (sign ++ (word.text.toList ++ s)) = .ok sign (word.text.toList ++ s) := by
    rcases hsign with rfl | rfl
    . cases word
      all_goals rfl
    . rfl
  apply (Reader.bind_eq_of_ok hsigned).trans
  apply Reader.bind_eq_of_ok
  -- The word starts neither with a digit nor with a point.
  cases word
  all_goals
    refine (Reader.orElse_eq_of_mismatch (by rfl)).trans ?_
    refine (Reader.orElse_eq_of_mismatch (by rfl)).trans ?_
    refine (Reader.orElse_eq_of_mismatch (by rfl)).trans ?_
    apply Reader.orElse_eq_of_ok
    exact Reader.bind_eq_of_ok (notBefore_eq_ok hs)

theorem IsTrivia.exists_head {gap : List Char} (h : IsTrivia gap) (hne : gap ≠ []) :
    ∃ c rest, gap = c :: rest ∧ c ∈ [' ', '\t', '\r', '\n', '/'] := by
  cases h with
  | nil => exact absurd rfl hne
  | @space c rest hc _ =>
    refine ⟨c, rest, rfl, ?_⟩
    simp only [isSpace, Bool.or_eq_true, decide_eq_true_eq] at hc
    grind
  | lineComment _ _ => exact ⟨_, _, rfl, by decide⟩
  | blockComment _ _ => exact ⟨_, _, rfl, by decide⟩

theorem number_eq_mismatch {c : Char} (hc : c ∈ [' ', '\t', '\r', '\n', '/']) (s : List Char) :
    floatHere ('-' :: c :: s) = .mismatch ∧ integerHere ('-' :: c :: s) = .mismatch := by
  simp only [List.mem_cons, List.not_mem_nil, or_false] at hc
  rcases hc with rfl | rfl | rfl | rfl | rfl
  all_goals exact ⟨rfl, rfl⟩

theorem signedPath_append {gap : List Char} (hgap : IsTrivia gap) {path : String}
    (hpath : IsPath path) (htoken : IsToken path) (hs : ∀ c ∈ s.head?, isPathChar c = false)
    (hbound : path.toList.length < bound) :
    (do
      let sign ← signHere
      let path ← token (pathHere bound)
      return sign ++ path : Reader (List Char)) ('-' :: (gap ++ (path.toList ++ s)))
      =
    .ok ('-' :: path.toList) s := by
  have htokenPath : token (pathHere bound) (gap ++ (path.toList ++ s)) = .ok path.toList s := by
    change pathHere bound (skipTrivia _) = _
    rw [skipTrivia_append hgap, htoken.skipTrivia_append]
    exact pathHere_append hpath hs hbound
  apply (Reader.bind_eq_of_ok (Reader.orElse_eq_of_ok (literal_append ['-'] _))).trans
  exact Reader.bind_eq_of_ok htokenPath

namespace SpecialFloat

theorem isPathChar_head (special : SpecialFloat) (h : Apart special.written.toList s) :
    ∀ c ∈ s.head?, isPathChar c = false := by
  have hpath := special.word.isName.isPath
  rw [toList_written] at h
  exact (h.of_append hpath.toList_ne_nil).of_word hpath.toList_ne_nil hpath.isPathChar_of_mem

theorem reads_constant (special : SpecialFloat) (hbound : n ≤ bound) :
    Reads n (constant bound) (special.written :: tokens) tokens special.written := by
  apply Source.reads_constant
  intro s hapart hlt
  have hs := special.isPathChar_head hapart
  rw [toList_written] at hlt ⊢
  rw [List.append_assoc]
  by_cases htight : special.IsTight
  . have hfloat := floatHere_word (sign_of_isTight htight) special.word
      fun c hc => isNameChar_eq_false (hs c hc)
    exact ⟨_, Reader.orElse_eq_of_ok hfloat⟩
  . -- The trivia ends what could be a number, and the sign with the word is taken as a path.
    rcases exists_gap_of_not_isTight htight with ⟨gap, hgap, hne, hsign⟩
    have hname := special.word.isName
    have htoken := isToken_of_isNameChar hname.isPath.toList_ne_nil hname.isNameChar_of_mem
    rw [hsign, List.length_append] at hlt
    have hshort : special.word.text.toList.length < bound := by omega
    have hpath := signedPath_append hgap hname.isPath htoken hs hshort
    rcases hgap.exists_head hne with ⟨c, rest, rfl, hc⟩
    rw [hsign]
    rcases number_eq_mismatch hc (rest ++ (special.word.text.toList ++ s)) with ⟨hfloat, hinteger⟩
    exact ⟨_, (Reader.orElse_eq_of_mismatch hfloat).trans
      ((Reader.orElse_eq_of_mismatch hinteger).trans ((Reader.orElse_eq_of_mismatch rfl).trans
        ((Reader.orElse_eq_of_mismatch rfl).trans (Reader.orElse_eq_of_ok hpath))))⟩

theorem head_written_ne (special : SpecialFloat) :
    ∀ c ∈ special.written.toList.head?, c ≠ '\x7b' ∧ c ≠ '[' := by
  rw [toList_written]
  unfold sign
  cases special.gap? with
  | none =>
    cases special.word
    all_goals decide
  | some gap =>
    intro c hc
    obtain rfl : '-' = c := by simpa using hc
    decide

theorem reads_default (special : SpecialFloat) (hbound : n ≤ bound) :
    Reads n (assignment bound) ("default" :: "=" :: special.written :: tokens) tokens
      { extension := none, path := ["default"], value := .constant special.written } := by
  apply Reads.of_length_lt (by simp; omega)
  intro hlt
  apply Reads.assignment _ (by decide) hbound
  exact (special.reads_constant hbound).optionValue special.head_written_ne (by omega)

end SpecialFloat

/-! ### Fields -/

def FieldDecl.defaultConstant? (decl : FieldDecl) : Option String :=
  match lastBuiltin? "default" decl.options with
  | some ⟨_, _, .constant written⟩ => some written
  | _ => none

def FieldDecl.isBoxed (decl : FieldDecl) : Bool :=
  match fieldBlock.read decl.options with
  | .ok block => block.any (·.isWrapper)
  | .error _ => false

/--
The field that is declared like this holds one floating-point value that is not boxed, a narrow one
or not, and the special value is written as its default.
-/
structure DeclaresSpecial (decl : FieldDecl) (narrow : Bool) (special : SpecialFloat) : Prop where
  type : decl.type = .scalar (if narrow then .float else .double)
  label : decl.label ≠ .repeated
  default : decl.defaultConstant? = some special.written
  notBoxed : decl.isBoxed = false

instance (decl : FieldDecl) (narrow : Bool) (special : SpecialFloat) :
    Decidable (DeclaresSpecial decl narrow special) :=
  decidable_of_iff
    (decl.type = .scalar (if narrow then .float else .double) ∧ decl.label ≠ .repeated
      ∧ decl.defaultConstant? = some special.written ∧ decl.isBoxed = false)
    ⟨fun ⟨htype, hlabel, hdefault, hnotBoxed⟩ => ⟨htype, hlabel, hdefault, hnotBoxed⟩,
      fun h => ⟨h.type, h.label, h.default, h.notBoxed⟩⟩

theorem defaultValue_of_defaultConstant? {dialect : Schema.Dialect} {decl : FieldDecl}
    {value : Option Schema.DefaultValue}
    (h : defaultValue dialect decl.type decl.options = .ok value) {narrow : Bool}
    (htype : decl.type = .scalar (if narrow then .float else .double)) {written : String}
    (hwritten : decl.defaultConstant? = some written) : value = some (.constant written) := by
  unfold FieldDecl.defaultConstant? at hwritten
  split at hwritten
  . next hlast =>
    cases hwritten
    unfold defaultValue at h
    simp only [hlast, htype] at h
    split at h
    . cases h
    . cases narrow
      all_goals exact (Except.ok.inj h).symm
  . cases hwritten

/--
The field of a schema holds one floating-point value that is not boxed, and has the special value as
its default, just as it is written.
-/
structure HasSpecialDefault (field : Schema.Field) (narrow : Bool) (special : SpecialFloat) : Prop
  where
  isRepeated : field.isRepeated = false
  isWrapper : field.isWrapper = false
  type : field.type = .scalar (if narrow then .float else .double)
  defaultValue : field.defaultValue = some (.constant special.written)

theorem DeclaresSpecial.hasSpecialDefault {decl : FieldDecl} {narrow : Bool}
    {special : SpecialFloat} (h : DeclaresSpecial decl narrow special) {dialect : Schema.Dialect}
    {oneof : Option String} {field : Schema.Field}
    (hread : decl.toField dialect oneof = .ok field) :
    HasSpecialDefault field narrow special := by
  rcases bind_eq_ok_iff.1 hread with ⟨number, -, hread⟩
  rcases bind_eq_ok_iff.1 hread with ⟨value, hvalue, hread⟩
  rcases bind_eq_ok_iff.1 hread with ⟨options, hoptions, hfield⟩
  cases hfield
  have hnotBoxed := h.notBoxed
  unfold FieldDecl.isBoxed at hnotBoxed
  rw [eq_ok_of_ofOptions hoptions] at hnotBoxed
  exact {
    isRepeated := decide_eq_false h.label
    isWrapper := hnotBoxed
    type := h.type
    defaultValue :=
      defaultValue_of_defaultConstant? (eq_ok_of_ofOptions hvalue) h.type h.default }

end Source

end HessianGo
