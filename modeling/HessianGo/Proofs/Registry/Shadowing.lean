import HessianGo.Proofs.Registry.Declared

/-!
This module contains what further files do to the type names of a registry. A name keeps what it
stands for, unless the further files declare it in a scope that is nearer to where it is used; so
they can shadow a declaration, but never move a name outwards or to another declaration that was
there before.
-/

namespace HessianGo

open Schema

namespace Registry

/-! ### Scopes around a scope -/

/--
`Encloses outer scope`: the first scope is the second one or a scope around it. The unnamed scope is
around all others.
-/
def Encloses (outer scope : String) : Prop :=
  outer = "" ∨ outer = scope ∨ ∃ inner, scope = outer ++ "." ++ inner

theorem Encloses.refl (scope : String) : Encloses scope scope :=
  .inr (.inl rfl)

theorem Encloses.trans {outer middle scope : String} (h : Encloses outer middle)
    (hmiddle : Encloses middle scope) : Encloses outer scope := by
  rcases h with rfl | rfl | ⟨inner, rfl⟩
  . exact .inl rfl
  . exact hmiddle
  . rcases hmiddle with hempty | rfl | ⟨innermost, rfl⟩
    . simp at hempty
    . exact .inr (.inr ⟨inner, rfl⟩)
    . exact .inr (.inr ⟨inner ++ "." ++ innermost, by simp only [String.append_assoc]⟩)

theorem encloses_enclosing (scope : String) : Encloses (enclosing scope) scope := by
  unfold enclosing
  cases hcut : Text.cutLast '.' scope.toList with
  | none => exact .inl rfl
  | some parts =>
    rcases parts with ⟨before, after⟩
    rcases Text.cutLast_eq_some hcut with ⟨hscope, -⟩
    refine .inr (.inr ⟨String.ofList after, ?_⟩)
    apply String.toList_inj.1
    simp [hscope]

/-! ### Names in a larger set of declared names -/

/--
`FoundDeeper scope written outer inner`: both full names are the written name in a scope around the
given one, and the second has the longer scope.
-/
def FoundDeeper (scope written outer inner : String) : Prop :=
  ∃ outerScope innerScope, Encloses outerScope scope ∧ Encloses innerScope scope
    ∧ outer = qualify (some outerScope) written
    ∧ inner = qualify (some innerScope) written
    ∧ outerScope.length < innerScope.length

theorem FoundDeeper.of_encloses {outer scope written : String} {full full' : String}
    (h : FoundDeeper outer written full full') (hscope : Encloses outer scope) :
    FoundDeeper scope written full full' := by
  rcases h with ⟨outerScope, innerScope, houter, hinner, hrest⟩
  exact ⟨outerScope, innerScope, houter.trans hscope, hinner.trans hscope, hrest⟩

theorem Denotes.exists_encloses {names : List String} {written scope full : String}
    (h : Denotes names written scope full) :
    ∃ outer, Encloses outer scope ∧ full = qualify (some outer) written := by
  induction h with
  | @here scope _ => exact ⟨scope, .refl scope, rfl⟩
  | around _ _ _ ih =>
    rcases ih with ⟨outer, houter, hfull⟩
    exact ⟨outer, houter.trans (encloses_enclosing _), hfull⟩

theorem Encloses.length_le {outer scope : String} (h : Encloses outer scope) :
    outer.length ≤ scope.length := by
  rcases h with rfl | rfl | ⟨inner, rfl⟩
  . simp
  . exact Nat.le_refl _
  . simp only [String.length_append]
    omega

theorem Denotes.append {names added : List String} {written scope full full' : String}
    (h : Denotes names written scope full) (h' : Denotes (names ++ added) written scope full') :
    full' = full ∨ full' ∈ added ∧ FoundDeeper scope written full full' := by
  -- Both walks go on together until one of them meets a declared name.
  induction h with
  | here hmem =>
    cases h' with
    | here _ => exact .inl rfl
    | around _ hnot _ => exact absurd (List.mem_append_left added hmem) hnot
  | @around scope full hscope hnot houter ih =>
    cases h' with
    | here hmem =>
      rcases houter.exists_encloses with ⟨outer, hencloses, hfull⟩
      have hlength := hencloses.length_le
      have hlt := length_enclosing_lt hscope
      refine .inr ⟨(List.mem_append.1 hmem).resolve_left hnot, outer, scope,
        hencloses.trans (encloses_enclosing scope), .refl scope, hfull, rfl, ?_⟩
      rw [String.length_toList, String.length_toList] at hlt
      omega
    | around _ _ houter' =>
      rcases ih houter' with heq | ⟨hmem, hdeeper⟩
      . exact .inl heq
      . exact .inr ⟨hmem, hdeeper.of_encloses (encloses_enclosing scope)⟩

theorem StandsFor.append {names added : List String} {scope written full full' : String}
    (h : StandsFor names scope written full) (h' : StandsFor (names ++ added) scope written full') :
    full' = full
      ∨ full' ∈ added ∧ written.toList.head? ≠ some '.' ∧ FoundDeeper scope written full full' := by
  unfold StandsFor at h h'
  split at h
  . next absolute hwritten =>
    simp only [hwritten] at h'
    exact .inl (h'.1.trans h.1.symm)
  . next hrelative =>
    have hhead : written.toList.head? ≠ some '.' := by
      intro hhead
      rcases List.head?_eq_some_iff.1 hhead with ⟨absolute, hwritten⟩
      exact hrelative absolute hwritten
    split at h'
    . next absolute hwritten => exact absurd hwritten (hrelative absolute)
    . rcases h.append h' with heq | ⟨hmem, hdeeper⟩
      . exact .inl heq
      . exact .inr ⟨hmem, hhead, hdeeper⟩

/-! ### Registries of more files -/

section

variable {files added : List File}

theorem declared_append (files added : List File) :
    declared (files ++ added) = declared files ++ declared added :=
  List.flatMap_append

theorem mem_declared_of_mem_declaredNames (hnodup : (declaredNames (files ++ added)).Nodup)
    {declaration : Declaration} (hmem : declaration ∈ declared (files ++ added))
    (hname : declaration.fullName ∈ declaredNames added) : declaration ∈ declared added := by
  rcases List.mem_map.1 hname with ⟨other, hother, heq⟩
  have hother' : other ∈ declared (files ++ added) := by
    rw [declared_append]
    exact List.mem_append_right _ hother
  rwa [← List.inj_on_of_nodup_map hnodup hother' hmem heq]

theorem message?_of_declaresMessage {registry : Registry} (h : ofFiles files = .ok registry)
    {file : File} (hfile : file ∈ files) {message : Message}
    (hmessage : file.DeclaresMessage message) :
    registry.message? message.fullName
      = some (message.mapFields (resolvedField (declared files))) := by
  rcases File.exists_located hmessage with ⟨chain, hlocated⟩
  rcases exists_located h hfile hlocated with ⟨_, _, _, _, hfound⟩
  exact hfound

theorem Replaces.append (hnodup : (declaredNames (files ++ added)).Nodup) {scope written : String}
    {field old new : Field} (htype : field.type = .named written)
    (h : Replaces (declared files) scope field old)
    (h' : Replaces (declared (files ++ added)) scope field new) :
    ∃ before ∈ declared files, ∃ after ∈ declared (files ++ added),
      old.type = before.fieldType
      ∧ new.type = after.fieldType
      ∧ (after = before
        ∨ after ∈ declared added
          ∧ written.toList.head? ≠ some '.'
          ∧ FoundDeeper scope written before.fullName after.fullName) := by
  unfold Replaces at h h'
  rw [htype] at h h'
  rcases h with ⟨before, hbefore, hstands, rfl⟩
  rcases h' with ⟨after, hafter, hstands', rfl⟩
  refine ⟨before, hbefore, after, hafter, rfl, rfl, ?_⟩
  have hbefore' : before ∈ declared (files ++ added) := by
    rw [declared_append]
    exact List.mem_append_left _ hbefore
  have hnames : (declared (files ++ added)).map (·.fullName)
      = (declared files).map (·.fullName) ++ declaredNames added := by
    rw [declared_append, List.map_append]
    rfl
  rw [hnames] at hstands'
  rcases hstands.append hstands' with heq | ⟨hmem, hdeeper⟩
  . exact .inl (List.inj_on_of_nodup_map hnodup hafter hbefore' heq)
  . exact .inr ⟨mem_declared_of_mem_declaredNames hnodup hafter hmem, hdeeper⟩

end

/--
If files make a registry, and make one together with further files, then each type name in them
stands for the same declaration in both, or it is not absolute and stands for one of the further
files, in a longer scope around the message that uses it.
-/
theorem ofFiles_append_shadows {files added : List File} {registry extended : Registry}
    (h : ofFiles files = .ok registry) (hextended : ofFiles (files ++ added) = .ok extended)
    {file : File} (hfile : file ∈ files) {message : Message}
    (hmessage : file.DeclaresMessage message) :
    ∃ old new, registry.message? message.fullName = some old
      ∧ extended.message? message.fullName = some new
      ∧ ∀ (i : Nat) (field : Field) (written : String),
        message.fields[i]? = some field → field.type = .named written →
        ∃ before ∈ declared files, ∃ after ∈ declared (files ++ added),
          old.fields[i]?.map (·.type) = some before.fieldType
          ∧ new.fields[i]?.map (·.type) = some after.fieldType
          ∧ (after = before
            ∨ after ∈ declared added
              ∧ written.toList.head? ≠ some '.'
              ∧ FoundDeeper message.fullName written before.fullName after.fullName) := by
  have hfile' : file ∈ files ++ added := List.mem_append_left added hfile
  refine ⟨_, _, message?_of_declaresMessage h hfile hmessage,
    message?_of_declaresMessage hextended hfile' hmessage, ?_⟩
  intro i field written hfield htype
  have hmem : field ∈ message.fields := List.mem_of_getElem? hfield
  have hreplaces := replaces_resolvedField h hfile hmessage hmem
  have hreplaces' := replaces_resolvedField hextended hfile' hmessage hmem
  have hnodup := (ofFiles_eq_ok_iff.1 hextended).1
  rcases hreplaces.append hnodup htype hreplaces'
    with ⟨before, hbefore, after, hafter, hold, hnew, hcases⟩
  refine ⟨before, hbefore, after, hafter, ?_, ?_, hcases⟩
  . rw [Message.mapFields_eq]
    simp [hfield, hold]
  . rw [Message.mapFields_eq]
    simp [hfield, hnew]

def sizeFile (package : Option String) : File :=
  { name := "size.proto", package
    enums := [{ name := "Size", fullName := qualify package "Size" }] }

def lineFile (size unit : FieldType) : File :=
  { name := "line.proto", package := some "shop"
    messages := [
      { name := "Line", fullName := "shop.Line"
        fields := [
          { name := "size", number := 1, type := size },
          { name := "unit", number := 2, type := unit }] }] }

def lineRegistry : Registry where
  files := [sizeFile none, lineFile (.enum "Size") (.enum "Size")]
  index := {
    entries := [
      ("shop.Line", { file := 1, messages := [0], enum := none }),
      ("Size", { file := 0, messages := [], enum := some 0 })] }
  isIndex := rfl

def extendedLineRegistry : Registry where
  files := [sizeFile none, lineFile (.enum "shop.Size") (.enum "Size"), sizeFile (some "shop")]
  index := {
    entries := [
      ("shop.Size", { file := 2, messages := [], enum := some 0 }),
      ("shop.Line", { file := 1, messages := [0], enum := none }),
      ("Size", { file := 0, messages := [], enum := some 0 })] }
  isIndex := rfl

theorem ofFiles_append_shadows_lineFile :
    ofFiles [sizeFile none, lineFile (.named "Size") (.named ".Size")] = .ok lineRegistry
      ∧ ofFiles ([sizeFile none, lineFile (.named "Size") (.named ".Size")]
          ++ [sizeFile (some "shop")])
        = .ok extendedLineRegistry
      ∧ FoundDeeper "shop.Line" "Size" "Size" "shop.Size" := by
  have h : ofFiles [sizeFile none, lineFile (.named "Size") (.named ".Size")]
      = .ok lineRegistry := rfl
  have hextended : ofFiles ([sizeFile none, lineFile (.named "Size") (.named ".Size")]
      ++ [sizeFile (some "shop")]) = .ok extendedLineRegistry := rfl
  have hmessage : (lineFile (.named "Size") (.named ".Size")).DeclaresMessage _ :=
    ⟨_, List.mem_singleton_self _, .self⟩
  rcases ofFiles_append_shadows h hextended (by simp) hmessage with ⟨old, new, hold, hnew, hfields⟩
  cases hold
  cases hnew
  rcases hfields 0 _ "Size" rfl rfl with ⟨before, -, after, -, htype, htype', hcases⟩
  refine ⟨h, hextended, ?_⟩
  cases before with
  | message _ => cases htype
  | enum before =>
    cases after with
    | message _ => cases htype'
    | enum after =>
      have hname : "Size" = before.fullName := FieldType.enum.inj (Option.some.inj htype)
      have hname' : "shop.Size" = after.fullName := FieldType.enum.inj (Option.some.inj htype')
      rcases hcases with heq | ⟨-, -, hdeeper⟩
      . cases heq
        exact absurd (hname.trans hname'.symm) (by decide)
      . change FoundDeeper _ _ before.fullName after.fullName at hdeeper
        rwa [← hname, ← hname'] at hdeeper

end Registry

end HessianGo
