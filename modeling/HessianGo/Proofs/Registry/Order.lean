import HessianGo.Proofs.Registry.Lookup
import Mathlib.Data.List.FinRange

/-!
This module contains what a registry does not depend on. Since every name is declared once, the
order of the files decides nothing: files in another order make a registry of the same files in that
order. Files that are resolved have no type names left, so resolving them once more keeps them.
-/

namespace HessianGo

open Schema

namespace Registry

/-! ### Declarations in another order -/

section

variable {declarations others : List Declaration}

theorem find?_perm (hperm : declarations.Perm others)
    (hnodup : (declarations.map (·.fullName)).Nodup) : find? others = find? declarations := by
  have hnodup' : (others.map (·.fullName)).Nodup := (hperm.map _).nodup_iff.1 hnodup
  funext name
  apply Option.ext
  intro declaration
  rw [find?_eq_some_iff hnodup, find?_eq_some_iff hnodup', hperm.mem_iff]

theorem resolvedField_perm (hperm : declarations.Perm others)
    (hnodup : (declarations.map (·.fullName)).Nodup) :
    resolvedField others = resolvedField declarations := by
  unfold resolvedField resolve?
  rw [find?_perm hperm hnodup]

end

/-! ### Files in another order -/

section

variable {files permuted : List File} {registry : Registry}

theorem declared_perm (h : files.Perm permuted) : (declared files).Perm (declared permuted) := by
  exact h.flatMap_right File.declarations

theorem mem_declaredNames_perm (h : files.Perm permuted) {name : String} :
    name ∈ declaredNames permuted ↔ name ∈ declaredNames files := by
  exact ((declared_perm h).map _).mem_iff.symm

theorem isResolved_perm (h : files.Perm permuted) {reference : Reference}
    (hresolved : IsResolved (declaredNames files) reference) :
    IsResolved (declaredNames permuted) reference := by
  rcases hresolved with ⟨full, hfull⟩
  refine ⟨full, ?_⟩
  rw [← find?_candidates_eq_some_iff] at hfull ⊢
  simpa only [mem_declaredNames_perm h] using hfull

theorem exists_ofFiles_perm (h : ofFiles files = .ok registry) (hperm : files.Perm permuted) :
    ∃ other, ofFiles permuted = .ok other
      ∧ other.files = permuted.map (.mapFields (resolvedField (declared files))) := by
  rcases ofFiles_eq_ok_iff.1 h with ⟨hnodup, hresolved, -⟩
  have hdeclared := declared_perm hperm
  have hnodup' : (declaredNames permuted).Nodup := (hdeclared.map _).nodup_iff.1 hnodup
  have hresolved' : ∀ reference ∈ permuted.flatMap File.references,
      IsResolved (declaredNames permuted) reference := by
    intro reference hreference
    apply isResolved_perm hperm
    exact hresolved reference ((hperm.flatMap_right _).mem_iff.2 hreference)
  rcases exists_ofFiles_eq_ok hnodup' hresolved' with ⟨other, hother⟩
  refine ⟨other, hother, ?_⟩
  rw [(ofFiles_eq_ok_iff.1 hother).2.2, resolvedField_perm hdeclared hnodup]

theorem lookup_perm {other : Registry} (hperm : registry.files.Perm other.files) (name : String) :
    other.message? name = registry.message? name
      ∧ other.enum? name = registry.enum? name
      ∧ other.fileOf? name = registry.fileOf? name := by
  refine ⟨?_, ?_, ?_⟩
  . apply Option.ext
    intro message
    simp only [message?_eq_some_iff, hperm.mem_iff]
  . apply Option.ext
    intro enum
    simp only [enum?_eq_some_iff, hperm.mem_iff]
  . apply Option.ext
    intro file
    simp only [fileOf?_eq_some_iff, hperm.mem_iff]

/-! ### Files that are resolved -/

theorem ne_named_of_ofFiles (h : ofFiles files = .ok registry) {file : File}
    (hfile : file ∈ registry.files) {message : Message} (hmessage : file.DeclaresMessage message)
    {field : Field} (hfield : field ∈ message.fields) (written : String) :
    field.type ≠ .named written := by
  rcases ofFiles_eq_ok_iff_replaces.1 h with ⟨-, f, hfiles, hreplaces⟩
  rw [hfiles] at hfile
  rcases List.mem_map.1 hfile with ⟨source, hsource, rfl⟩
  rcases File.exists_of_declaresMessage_mapFields f hmessage with ⟨outer, houter, rfl⟩
  rw [Message.mapFields_eq] at hfield
  rcases List.mem_map.1 hfield with ⟨original, horiginal, rfl⟩
  exact ne_named_of_replaces (hreplaces source hsource outer houter original horiginal) written

theorem ofFiles_files (h : ofFiles files = .ok registry) :
    ofFiles registry.files = .ok registry := by
  refine ofFiles_eq_ok_iff_replaces.2 ⟨registry.nodup_declaredNames,
    fun _ field => field, ?_, ?_⟩
  . rw [List.map_congr_left fun file _ => file.mapFields_id, List.map_id']
  . intro file hfile message hmessage field hfield
    have hresolved := ne_named_of_ofFiles h hfile hmessage hfield
    unfold Replaces
    split
    . next written htype => exact absurd htype (hresolved written)
    . rfl

end

/--
The files of a registry make the same registry again. In any other order the files make a registry
too: its files are those of the first one in that order, with the same types of all fields, and all
names lead to the same in it.
-/
theorem ofFiles_stable {files : List File} {registry : Registry}
    (h : ofFiles files = .ok registry) :
    ofFiles registry.files = .ok registry
      ∧ ∃ hlength : files.length = registry.files.length,
        ∀ order : Equiv.Perm (Fin files.length), ∃ other,
          ofFiles (List.ofFn fun i => files.get (order i)) = .ok other
          ∧ other.files = List.ofFn (fun i => registry.files.get ((order i).cast hlength))
          ∧ ∀ name, other.message? name = registry.message? name
            ∧ other.enum? name = registry.enum? name
            ∧ other.fileOf? name = registry.fileOf? name := by
  have hfiles := (ofFiles_eq_ok_iff.1 h).2.2
  have hlength : files.length = registry.files.length := by
    rw [hfiles, List.length_map]
  refine ⟨ofFiles_files h, hlength, ?_⟩
  intro order
  have hperm : files.Perm (List.ofFn fun i => files.get (order i)) := by
    have := order.ofFn_comp_perm files.get
    rw [List.ofFn_get] at this
    exact this.symm
  rcases exists_ofFiles_perm h hperm with ⟨other, hother, hotherFiles⟩
  refine ⟨other, hother, ?_, ?_⟩
  . rw [hotherFiles, List.map_ofFn]
    congr 1
    funext i
    simp [hfiles]
  . apply lookup_perm
    rw [hfiles, hotherFiles]
    exact hperm.map _

def kindFiles (kind : FieldType) : List File :=
  [{ name := "kind.proto", enums := [{ name := "Kind", fullName := "Kind" }] },
   { name := "shop.proto", package := some "shop"
     messages := [
       { name := "Line", fullName := "shop.Line"
         fields := [{ name := "kind", number := 1, type := kind }] }] },
   { name := "shop/kind.proto", package := some "shop"
     enums := [{ name := "Kind", fullName := "shop.Kind" }] }]

def kindRegistry : Registry where
  files := kindFiles (.enum "shop.Kind")
  index := {
    entries := [
      ("shop.Kind", { file := 2, messages := [], enum := some 0 }),
      ("shop.Line", { file := 1, messages := [0], enum := none }),
      ("Kind", { file := 0, messages := [], enum := some 0 })] }
  isIndex := rfl

theorem ofFiles_stable_kindFiles :
    ofFiles (kindFiles (.named "Kind")) = .ok kindRegistry
      ∧ ofFiles (kindFiles (.enum "shop.Kind")) = .ok kindRegistry
      ∧ ∃ other, ofFiles (kindFiles (.named "Kind")).reverse = .ok other
        ∧ other.files = (kindFiles (.enum "shop.Kind")).reverse
        ∧ other.enum? "shop.Kind" = some { name := "Kind", fullName := "shop.Kind" } := by
  have h : ofFiles (kindFiles (.named "Kind")) = .ok kindRegistry := rfl
  rcases ofFiles_stable h with ⟨hagain, _, horder⟩
  rcases horder Fin.revPerm with ⟨other, hother, hfiles, hlookup⟩
  exact ⟨h, hagain, other, hother, hfiles, (hlookup "shop.Kind").2.1⟩

end Registry

end HessianGo
