import HessianGo.Code.Package
import HessianGo.Proofs.Registry.Lookup
import HessianGo.Proofs.Source.Names

/-!
This module contains the first characters of identifiers: in a registry of files that are read from
texts, the identifier of a type starts as a name does, whatever follows.
-/

namespace HessianGo

def Registry.IsNamed (registry : Registry) : Prop :=
  ∀ file ∈ registry.files, ∀ declaration ∈ file.declarations,
    Source.IsDeclaredIn file.package declaration.fullName

theorem Registry.isNamed_of_ofFiles_eq_ok {files : List Schema.File} {registry : Registry}
    (hfiles : ∀ file ∈ files, ∃ name text, Schema.File.ofText name text = .ok file)
    (h : ofFiles files = .ok registry) : registry.IsNamed := by
  intro file hfile declaration hdeclaration
  rw [(ofFiles_eq_ok_iff.1 h).2.2] at hfile
  rcases List.mem_map.1 hfile with ⟨source, hsource, rfl⟩
  rw [Schema.File.declarations_mapFields] at hdeclaration
  rcases List.mem_map.1 hdeclaration with ⟨written, hwritten, rfl⟩
  rw [Schema.Declaration.mapFields_fullName]
  rcases hfiles source hsource with ⟨name, text, htext⟩
  exact Schema.File.isDeclaredIn_of_ofText htext written hwritten

namespace Code

open Source (isNameStart IsDeclaredIn)

def StartsAsName (s : List Char) : Prop :=
  ∃ c rest, s = c :: rest ∧ isNameStart c

theorem toNat_lt_of_isNameStart {c : Char} (h : isNameStart c) : c.toNat < 128 := by
  change (decide (c.val ≥ 'A'.val ∧ c.val ≤ 'Z'.val) || (c.val ≥ 'a'.val && c.val ≤ 'z'.val)
    || c = '_') = true at h
  simp only [Bool.or_eq_true, Bool.and_eq_true, decide_eq_true_eq, UInt32.le_iff_toNat_le] at h
  rcases h with (⟨-, h⟩ | ⟨-, h⟩) | rfl
  . exact Nat.lt_of_le_of_lt h (by decide)
  . exact Nat.lt_of_le_of_lt h (by decide)
  . decide

theorem isNameStart_ascii (n : Fin 128) (h : isNameStart (Char.ofNat n)) :
    byteChars [Char.ofNat n] = [Char.ofNat n]
      ∧ Char.ofNat n ≠ '.'
      ∧ (Char.ofNat n).isDigit = false
      ∧ (Char.ofNat n ≠ '_' → isNameStart (Char.ofNat n).toUpper) := by
  revert n
  decide

theorem startsAsName_camelCase {name : String} (h : StartsAsName name.toList) :
    StartsAsName (camelCase name).toList := by
  rcases h with ⟨c, rest, hname, hc⟩
  have hascii := isNameStart_ascii ⟨c.toNat, toNat_lt_of_isNameStart hc⟩
  simp only [Char.ofNat_toNat] at hascii
  rcases hascii hc with ⟨hbytes, hdot, hdigit, hupper⟩
  have hcons : byteChars (c :: rest) = c :: byteChars rest := by
    calc byteChars (c :: rest)
      _ = byteChars [c] ++ byteChars rest := by simp [byteChars]
      _ = c :: byteChars rest := by rw [hbytes, List.singleton_append]
  unfold camelCase
  rw [String.toList_ofList, hname, hcons]
  unfold camelCase.go
  -- An underscore in front becomes an `X`, a letter its capital.
  by_cases hunderscore : c = '_'
  . simp only [hunderscore, reduceCtorEq, false_and, Char.reduceEq, ↓reduceIte]
    exact ⟨'X', _, rfl, by decide⟩
  . simp only [hdot, hdigit, hunderscore, reduceCtorEq, false_and, Bool.false_eq_true, ↓reduceIte]
    exact ⟨_, _, rfl, hupper hunderscore⟩

theorem isPrefixOf?_eq_none_of_ne {c d : Char} (h : c ≠ d) (s t : List Char) :
    (c :: s).isPrefixOf? (d :: t) = none := by
  simp [List.isPrefixOf?, h]

namespace Packages

theorem startsAsName_relativeName {file : Schema.File} {fullName : String}
    (h : IsDeclaredIn file.package fullName) :
    StartsAsName (relativeName (some file) fullName) := by
  rcases h with ⟨c, rest, rfl, hc⟩
  have hself : StartsAsName (c :: rest) := ⟨c, rest, rfl, hc⟩
  have hdot : '.' ≠ c := by
    rintro rfl
    simp [isNameStart] at hc
  unfold relativeName Schema.qualify
  simp only [Option.bind_some]
  cases file.package with
  | none => simpa using hself
  | some package =>
    by_cases hpackage : package = ""
    . -- The dot alone is no beginning of the name.
      simp [hpackage, isPrefixOf?_eq_none_of_ne hdot, hself]
    . have hrest : (package.toList ++ ['.']).isPrefixOf? (package.toList ++ '.' :: c :: rest)
          = some (c :: rest) := by
        rw [List.isPrefixOf?_eq_some_iff_append_eq]
        simp
      simp [hpackage, hrest, hself]

variable {packages : Packages} {fullName : String}

theorem startsAsName_ident_of_fileOf? (hnamed : packages.registry.IsNamed) {file : Schema.File}
    (h : packages.registry.fileOf? fullName = some file) :
    StartsAsName (packages.ident fullName).name.toList := by
  rcases Registry.fileOf?_eq_some_iff.1 h with ⟨hfile, declaration, hdeclaration, rfl⟩
  unfold ident
  rw [h]
  apply startsAsName_camelCase
  rw [String.toList_ofList]
  apply startsAsName_relativeName
  exact hnamed file hfile declaration hdeclaration

theorem startsAsName_ident (hnamed : packages.registry.IsNamed)
    (h : (packages.ident fullName).importPath.path ≠ "") :
    StartsAsName (packages.ident fullName).name.toList := by
  cases hfound : packages.registry.fileOf? fullName with
  | some file => exact startsAsName_ident_of_fileOf? hnamed hfound
  | none => simp [ident, hfound, importPath] at h

theorem startsAsName_ident_of_message? (hnamed : packages.registry.IsNamed)
    {message : Schema.Message} (h : packages.registry.message? fullName = some message) :
    StartsAsName (packages.ident message.fullName).name.toList := by
  rcases Registry.message?_eq_some_iff.1 h with ⟨file, hfile, hmessage, -⟩
  exact startsAsName_ident_of_fileOf? hnamed (Registry.lookup_message hfile hmessage).2.2

end Packages

end Code

end HessianGo
