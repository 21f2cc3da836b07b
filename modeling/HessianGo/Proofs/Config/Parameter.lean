import HessianGo.Config.Parameter
import HessianGo.Proofs.Except
import Mathlib.Data.List.Sort

/-!
This module contains the way of a configuration through a parameter. Its settings, written in any
order that keeps the include paths, with blanks and empty parts between them, describe it again. A
parameter is refused exactly if one of its parts is, and the first such part gives the error.
-/

namespace HessianGo

/-! ### Tables with the same mappings -/

namespace ImportMappings

theorem mem_insertInto_iff {name path : String} {entries : List (String × String)}
    (h : entries.Pairwise (·.1 < ·.1)) {entry : String × String} :
    entry ∈ insertInto name path entries
      ↔
    entry = (name, path) ∨ entry ∈ entries ∧ entry.1 ≠ name := by
  induction entries with
  | nil => simp [insertInto]
  | cons first entries ih =>
    rcases List.pairwise_cons.1 h with ⟨hfirst, hentries⟩
    unfold insertInto
    split
    . next hlt =>
      have hothers : ∀ other ∈ first :: entries, other.1 ≠ name := by
        rw [List.forall_mem_cons]
        refine ⟨(String.ne_of_lt hlt).symm, ?_⟩
        intro other hother
        exact (String.ne_of_lt (String.lt_trans hlt (hfirst other hother))).symm
      rw [List.mem_cons]
      apply or_congr_right
      exact (and_iff_left_of_imp (hothers entry)).symm
    . split
      . next heq =>
        have hothers : ∀ other ∈ entries, other.1 ≠ name := by
          intro other hother
          rw [heq]
          exact (String.ne_of_lt (hfirst other hother)).symm
        rw [List.mem_cons, List.mem_cons]
        apply or_congr_right
        constructor
        . intro hentry
          exact ⟨.inr hentry, hothers entry hentry⟩
        . rintro ⟨rfl | hentry, hname⟩
          . exact absurd heq.symm hname
          . exact hentry
      . next heq =>
        rw [List.mem_cons, List.mem_cons, ih hentries]
        constructor
        . rintro (rfl | hnew | ⟨hentry, hname⟩)
          . exact .inr ⟨.inl rfl, Ne.symm heq⟩
          . exact .inl hnew
          . exact .inr ⟨.inr hentry, hname⟩
        . rintro (hnew | ⟨rfl | hentry, hname⟩)
          . exact .inr (.inl hnew)
          . exact .inl rfl
          . exact .inr (.inr ⟨hentry, hname⟩)

theorem eq_of_mem_iff {first second : ImportMappings}
    (h : ∀ entry, entry ∈ first.entries ↔ entry ∈ second.entries) : first = second := by
  have : Std.Antisymm fun entry other : String × String => entry.1 < other.1 :=
    ⟨fun _ _ hlt hgt => absurd hgt (String.lt_asymm hlt)⟩
  have : Std.Irrefl fun entry other : String × String => entry.1 < other.1 :=
    ⟨fun _ => String.lt_irrefl _⟩
  have hentries : first.entries = second.entries := first.sorted.eq_of_mem_iff second.sorted h
  cases first
  cases second
  cases hentries
  rfl

theorem nodup_names (mappings : ImportMappings) : (mappings.entries.map Prod.fst).Nodup := by
  rw [List.Nodup, List.pairwise_map]
  exact mappings.sorted.imp String.ne_of_lt

def insertAll (mappings : ImportMappings) (entries : List (String × String)) : ImportMappings :=
  entries.foldl (fun mappings entry => mappings.insert entry.1 entry.2) mappings

theorem mem_insertAll_iff {mappings : ImportMappings} {entries : List (String × String)}
    (h : (entries.map Prod.fst).Nodup) {entry : String × String} :
    entry ∈ (mappings.insertAll entries).entries
      ↔
    entry ∈ entries ∨ entry ∈ mappings.entries ∧ entry.1 ∉ entries.map Prod.fst := by
  induction entries generalizing mappings with
  | nil => simp [insertAll]
  | cons first entries ih =>
    rw [List.map_cons, List.nodup_cons] at h
    have hinsert : entry ∈ (mappings.insert first.1 first.2).entries
        ↔ entry = first ∨ entry ∈ mappings.entries ∧ entry.1 ≠ first.1 :=
      mem_insertInto_iff mappings.sorted
    have hstep : entry ∈ (mappings.insertAll (first :: entries)).entries
        ↔ entry ∈ entries
          ∨ entry ∈ (mappings.insert first.1 first.2).entries ∧ entry.1 ∉ entries.map Prod.fst :=
      ih h.2
    rw [hstep, hinsert, List.map_cons, List.mem_cons, List.mem_cons]
    constructor
    . rintro (hlater | ⟨rfl | ⟨hentry, hfirst⟩, hname⟩)
      . exact .inl (.inr hlater)
      . exact .inl (.inl rfl)
      . exact .inr ⟨hentry, not_or.2 ⟨hfirst, hname⟩⟩
    . rintro ((rfl | hlater) | ⟨hentry, hname⟩)
      . exact .inr ⟨.inl rfl, h.1⟩
      . exact .inl hlater
      . rw [not_or] at hname
        exact .inr ⟨.inr ⟨hentry, hname.1⟩, hname.2⟩

theorem insertAll_of_perm {mappings : ImportMappings} {entries : List (String × String)}
    (h : entries.Perm mappings.entries) : insertAll {} entries = mappings := by
  apply eq_of_mem_iff
  intro entry
  rw [mem_insertAll_iff ((h.map Prod.fst).nodup_iff.2 mappings.nodup_names), h.mem_iff]
  simp

end ImportMappings

namespace Config

open Text (isBlank trim)

/-! ### Written settings -/

def IsPlain (text : String) : Prop :=
  ',' ∉ text.toList ∧ ∀ c ∈ text.toList.getLast?, isBlank c = false

-- The last character is looked at, and no search over all characters is made.
instance (text : String) : Decidable (IsPlain text) :=
  decidable_of_iff (',' ∉ text.toList ∧ text.toList.getLast?.any isBlank = false) (by
    rw [IsPlain, Option.any_eq_false]
    rfl)

namespace Setting

def key : Setting → String
  | paths _ => "paths"
  | moduleRoot _ => "module"
  | includePath _ => "include"
  | importMapping name _ => "M" ++ name

def value : Setting → String
  | paths mode => mode.word
  | moduleRoot root => root
  | includePath directory => directory
  | importMapping _ path => path

def part (setting : Setting) : List Char :=
  setting.key.toList ++ '=' :: setting.value.toList

def IsWritable : Setting → Prop
  | paths _ => True
  | moduleRoot root => IsPlain root
  | includePath directory => IsPlain directory
  | importMapping name path =>
    name ≠ "" ∧ '=' ∉ name.toList ∧ ',' ∉ name.toList ∧ IsPlain path

variable {setting : Setting}

theorem IsWritable.isPlain_value (h : setting.IsWritable) : IsPlain setting.value := by
  cases setting with
  | paths mode => cases mode <;> decide
  | moduleRoot root => exact h
  | includePath directory => exact h
  | importMapping name path => exact h.2.2.2

theorem IsWritable.not_mem_key (h : setting.IsWritable) :
    '=' ∉ setting.key.toList ∧ ',' ∉ setting.key.toList := by
  cases setting with
  | paths mode => simp [key]
  | moduleRoot root => simp [key]
  | includePath directory => simp [key]
  | importMapping name path => simpa [key] using ⟨h.2.1, h.2.2.1⟩

theorem exists_key_eq_cons (setting : Setting) :
    ∃ c rest, setting.key.toList = c :: rest ∧ isBlank c = false := by
  cases setting with
  | paths mode => exact ⟨'p', "aths".toList, by simp [key], by decide⟩
  | moduleRoot root => exact ⟨'m', "odule".toList, by simp [key], by decide⟩
  | includePath directory => exact ⟨'i', "nclude".toList, by simp [key], by decide⟩
  | importMapping name path => exact ⟨'M', name.toList, String.toList_append, by decide⟩

theorem IsWritable.trim_part (h : setting.IsWritable) {before after : List Char}
    (hbefore : ∀ c ∈ before, isBlank c) (hafter : ∀ c ∈ after, isBlank c) :
    trim (before ++ setting.part ++ after) = setting.part := by
  rcases setting.exists_key_eq_cons with ⟨c, rest, hkey, hc⟩
  apply Text.trim_append hbefore hafter
  . simpa [part, hkey] using hc
  . rw [part, List.getLast?_append_cons, List.getLast?_cons]
    cases hlast : setting.value.toList.getLast? with
    | none =>
      rintro _ ⟨⟩
      decide
    | some last =>
      rintro _ ⟨⟩
      exact h.isPlain_value.2 last hlast

theorem IsWritable.comma_not_mem_part (h : setting.IsWritable) : ',' ∉ setting.part := by
  simp [part, h.not_mem_key.2, h.isPlain_value.1]

theorem part_ne_nil (setting : Setting) : setting.part ≠ [] := by
  simp [part]

theorem ofPair_mapping (c : Char) (name value : List Char) :
    ofPair ('M' :: c :: name) value
      = .ok (.importMapping (String.ofList (c :: name)) (String.ofList value)) := by
  have hword {word : String} (h : String.ofList ('M' :: c :: name) = word) :
      word.toList.head? = some 'M' := by
    rw [← h, String.toList_ofList]
    rfl
  unfold ofPair
  split
  . next heq => exact absurd (hword heq) (by decide)
  . next heq => exact absurd (hword heq) (by decide)
  . next heq => exact absurd (hword heq) (by decide)
  . next hcons _ _ _ =>
    cases hcons
    rfl
  . next hname => exact absurd rfl (hname c name)

theorem IsWritable.ofPart_part (h : setting.IsWritable) : ofPart setting.part = .ok setting := by
  unfold ofPart part
  rw [Text.cutFirst_append h.not_mem_key.1]
  dsimp only
  cases setting with
  | paths mode => simp [ofPair, key, value, PathsMode.ofWord?_word]
  | moduleRoot root => simp [ofPair, key, value]
  | includePath directory => simp [ofPair, key, value]
  | importMapping name path =>
    cases hname : name.toList with
    | nil => exact absurd (String.toList_eq_nil_iff.1 hname) h.1
    | cons c rest =>
      rw [key, String.toList_append, hname]
      refine (ofPair_mapping c rest _).trans ?_
      rw [← hname, value, String.ofList_toList, String.ofList_toList]

/-! ### Parts that are refused -/

/--
`Refuses part error`: the part is no setting, for that reason. It has no key, or a key that is
neither a known word nor the letter `M` with a name behind it, or a value that is no mode.
-/
inductive Refuses : List Char → Error → Prop where
  | malformed {part : List Char} : '=' ∉ part →
    Refuses part (.malformedParameter (String.ofList part))
  | unknown {key value : List Char} : '=' ∉ key →
    String.ofList key ∉ ["paths", "module", "include"] →
      (∀ name, key = 'M' :: name → name = []) →
        Refuses (key ++ '=' :: value) (.unknownParameter (String.ofList key))
  | invalid {value : List Char} : String.ofList value ∉ ["import", "source_relative"] →
    Refuses ("paths".toList ++ '=' :: value) (.invalidValue "paths" (String.ofList value))

theorem ofWord?_eq_none_iff {text : String} :
    PathsMode.ofWord? text = none ↔ text ∉ ["import", "source_relative"] := by
  constructor
  . intro h hmem
    rw [List.mem_cons, List.mem_singleton] at hmem
    rcases hmem with rfl | rfl
    . exact absurd h (by decide)
    . exact absurd h (by decide)
  . intro h
    rw [PathsMode.ofWord?, List.find?_eq_none]
    intro mode _ hword
    apply h
    rw [← of_decide_eq_true hword]
    cases mode with
    | importPath => exact List.mem_cons_self
    | sourceRelative => exact List.mem_cons_of_mem _ List.mem_cons_self

theorem ofPair_eq_error {key value : List Char} (hkey : '=' ∉ key) {error : Error}
    (h : ofPair key value = .error error) : Refuses (key ++ '=' :: value) error := by
  unfold ofPair at h
  dsimp only at h
  split at h
  . next heq =>
    split at h
    . cases h
    . next hnone =>
      cases h
      have hpaths := congrArg String.toList heq
      rw [String.toList_ofList] at hpaths
      rw [hpaths]
      exact .invalid (ofWord?_eq_none_iff.1 hnone)
  . cases h
  . cases h
  . cases h
  . next hname hpaths hmodule hinclude =>
    cases h
    refine .unknown hkey (by simpa using ⟨hpaths, hmodule, hinclude⟩) ?_
    rintro (- | ⟨c, name⟩) rfl
    . rfl
    . exact absurd rfl (hname c name)

theorem ofPart_eq_error_iff {part : List Char} {error : Error} :
    ofPart part = .error error ↔ Refuses part error := by
  constructor
  . intro h
    unfold ofPart at h
    split at h
    . next key value hcut =>
      rcases Text.cutFirst_eq_some hcut with ⟨rfl, hkey⟩
      exact ofPair_eq_error hkey h
    . next hcut =>
      cases h
      exact .malformed (Text.cutFirst_eq_none_iff.1 hcut)
  . intro h
    unfold ofPart
    cases h with
    | malformed hpart => rw [Text.cutFirst_eq_none_iff.2 hpart]
    | unknown hkey hwords hname =>
      rw [Text.cutFirst_append hkey]
      dsimp only
      unfold ofPair
      split
      . next heq => simp [heq] at hwords
      . next heq => simp [heq] at hwords
      . next heq => simp [heq] at hwords
      . next => simpa using hname _ rfl
      . rfl
    | invalid hvalue =>
      rw [Text.cutFirst_append (by decide)]
      simp [ofPair, ofWord?_eq_none_iff.2 hvalue]

theorem exists_ofPart_eq_ok_iff {part : List Char} :
    (∃ setting, ofPart part = .ok setting) ↔ ∀ error, ¬ Refuses part error := by
  simp only [← ofPart_eq_error_iff]
  cases ofPart part with
  | ok setting => simp
  | error error => simp

end Setting

open Setting (Refuses)

theorem parts_eq_splitOn (parameter : List Char) :
    parts parameter = ((parameter.splitOn ',').map trim).filter (· ≠ []) := by
  rw [parts, Text.pieces_eq_splitOn]

theorem ofParameter_eq_error_iff {parameter : String} {error : Error} :
    ofParameter parameter = .error error
      ↔
    ∃ before part after, parts parameter.toList = before ++ part :: after
      ∧ (∀ other ∈ before, ∀ cause, ¬ Refuses other cause) ∧ Refuses part error := by
  unfold ofParameter
  rw [bind_eq_error_iff, mapM_eq_error_iff]
  simp only [Setting.exists_ofPart_eq_ok_iff, Setting.ofPart_eq_error_iff]
  constructor
  . rintro (h | ⟨settings, -, h⟩)
    . exact h
    . cases h
  . exact .inl

theorem exists_ofParameter_eq_error_iff {parameter : String} :
    (∃ error, ofParameter parameter = .error error)
      ↔
    ∃ part ∈ parts parameter.toList, ∃ error, Refuses part error := by
  constructor
  . rintro ⟨error, h⟩
    rcases ofParameter_eq_error_iff.1 h with ⟨before, part, after, hparts, -, hrefuses⟩
    exact ⟨part, by simp [hparts], error, hrefuses⟩
  . rintro ⟨part, hpart, error, hrefuses⟩
    cases hresult : ofParameter parameter with
    | error cause => exact ⟨cause, rfl⟩
    | ok config =>
      rcases bind_eq_ok_iff.1 hresult with ⟨settings, hsettings, -⟩
      rcases exists_eq_ok_of_mapM_eq_ok hsettings hpart with ⟨setting, hsetting⟩
      rw [Setting.ofPart_eq_error_iff.2 hrefuses] at hsetting
      cases hsetting

/-! ### What settings set -/

namespace Setting

@[simp]
def paths? : Setting → Option PathsMode
  | paths mode => some mode
  | _ => none

@[simp]
def moduleRoot? : Setting → Option String
  | moduleRoot root => some root
  | _ => none

@[simp]
def includePath? : Setting → Option String
  | includePath directory => some directory
  | _ => none

@[simp]
def importMapping? : Setting → Option (String × String)
  | importMapping name path => some (name, path)
  | _ => none

end Setting

open Setting (paths? moduleRoot? includePath? importMapping?)

theorem foldl_apply (settings : List Setting) (config : Config) :
    settings.foldl apply config
      =
    { paths := (settings.filterMap paths?).getLast?.getD config.paths
      moduleRoot := (settings.filterMap moduleRoot?).getLast?.or config.moduleRoot
      importMappings := config.importMappings.insertAll (settings.filterMap importMapping?)
      includePaths := config.includePaths ++ settings.filterMap includePath? } := by
  induction settings generalizing config with
  | nil => simp [ImportMappings.insertAll]
  | cons setting settings ih =>
    rw [List.foldl_cons, ih]
    cases setting with
    | paths mode => simp [apply, List.filterMap_cons, List.getLast?_cons]
    | moduleRoot root => simp [apply, List.filterMap_cons, List.getLast?_cons]
    | includePath directory => simp [apply, List.filterMap_cons]
    | importMapping name path => simp [apply, List.filterMap_cons, ImportMappings.insertAll]

/-! ### Settings of a configuration -/

def settings (config : Config) : List Setting :=
  config.moduleRoot.toList.map .moduleRoot ++ config.includePaths.map .includePath
    ++ config.importMappings.entries.map fun entry => .importMapping entry.1 entry.2

/--
`Arranges settings config`: these are the settings of the configuration in some order that keeps the
include paths. The mode of the output names can be left out if it is the one of the default.
-/
structure Arranges (settings : List Setting) (config : Config) : Prop where
  perm : settings.Perm (.paths config.paths :: config.settings)
    ∨ config.paths = .importPath ∧ settings.Perm config.settings
  includePaths : settings.filterMap includePath? = config.includePaths

theorem Arranges.filterMap_perm {β : Type} {settings : List Setting} {config : Config}
    (h : Arranges settings config) {f : Setting → Option β} (hf : ∀ mode, f (.paths mode) = none) :
    (settings.filterMap f).Perm (config.settings.filterMap f) := by
  rcases h.perm with hperm | ⟨-, hperm⟩
  . have := hperm.filterMap f
    rwa [List.filterMap_cons_none (hf _)] at this
  . exact hperm.filterMap f

section

variable {settings : List Setting} {config : Config} (h : Arranges settings config)

include h

theorem Arranges.paths_eq :
    (settings.filterMap paths?).getLast?.getD .importPath = config.paths := by
  have hother : config.settings.filterMap paths? = [] := by simp [Config.settings]
  rcases h.perm with hperm | ⟨hdefault, hperm⟩
  . have hmodes := hperm.filterMap paths?
    have hmode : (.paths config.paths :: config.settings).filterMap paths? = [config.paths] := by
      simp [hother]
    rw [hmode, List.perm_singleton] at hmodes
    rw [hmodes]
    rfl
  . have hmodes := hperm.filterMap paths?
    rw [hother, List.perm_nil] at hmodes
    rw [hmodes, hdefault]
    rfl

theorem Arranges.moduleRoot_eq :
    (settings.filterMap moduleRoot?).getLast? = config.moduleRoot := by
  have hroots := h.filterMap_perm (f := moduleRoot?) fun _ => rfl
  have hroot : config.settings.filterMap moduleRoot? = config.moduleRoot.toList := by
    simp [Config.settings, List.filterMap_map, Function.comp_def]
  rw [hroot] at hroots
  cases hsome : config.moduleRoot with
  | none =>
    rw [hsome] at hroots
    rw [List.perm_nil.1 hroots]
    rfl
  | some root =>
    rw [hsome] at hroots
    rw [List.perm_singleton.1 hroots]
    rfl

theorem Arranges.importMappings_eq :
    ImportMappings.insertAll {} (settings.filterMap importMapping?) = config.importMappings := by
  have hperm := h.filterMap_perm (f := importMapping?) fun _ => rfl
  have hmappings : config.settings.filterMap importMapping? = config.importMappings.entries := by
    simp [Config.settings, List.filterMap_map, Function.comp_def]
  rw [hmappings] at hperm
  exact ImportMappings.insertAll_of_perm hperm

theorem Arranges.foldl_apply_eq : settings.foldl apply {} = config := by
  rw [foldl_apply, h.paths_eq, h.moduleRoot_eq, h.importMappings_eq, h.includePaths]
  simp

end

structure IsWritable (config : Config) : Prop where
  names : ∀ entry ∈ config.importMappings.entries,
    entry.1 ≠ "" ∧ '=' ∉ entry.1.toList ∧ ',' ∉ entry.1.toList
  paths : ∀ entry ∈ config.importMappings.entries, IsPlain entry.2
  moduleRoot : ∀ root ∈ config.moduleRoot, IsPlain root
  includePaths : ∀ directory ∈ config.includePaths, IsPlain directory

theorem IsWritable.setting {config : Config} (h : config.IsWritable) {settings : List Setting}
    (harranges : Arranges settings config) : ∀ setting ∈ settings, setting.IsWritable := by
  have hgiven : ∀ setting ∈ .paths config.paths :: config.settings, setting.IsWritable := by
    intro setting hsetting
    simp only [Config.settings, List.mem_cons, List.mem_append, List.mem_map, Option.mem_toList]
      at hsetting
    rcases hsetting with rfl | (⟨root, hroot, rfl⟩ | ⟨directory, hdirectory, rfl⟩)
      | ⟨entry, hentry, rfl⟩
    . trivial
    . exact h.moduleRoot root hroot
    . exact h.includePaths directory hdirectory
    . rcases h.names entry hentry with ⟨hne, hequals, hcomma⟩
      exact ⟨hne, hequals, hcomma, h.paths entry hentry⟩
  intro setting hsetting
  rcases harranges.perm with hperm | ⟨-, hperm⟩
  . exact hgiven setting (hperm.mem_iff.1 hsetting)
  . exact hgiven setting (List.mem_cons_of_mem _ (hperm.mem_iff.1 hsetting))

/-! ### Settings in a text -/

/--
`Renders settings pieces`: the pieces are the parts of the settings with blanks around them, and
between them pieces that have only blanks.
-/
inductive Renders : List Setting → List (List Char) → Prop where
  | nil : Renders [] []
  | blank {settings : List Setting} {pieces : List (List Char)} {piece : List Char} :
    (∀ c ∈ piece, isBlank c) → Renders settings pieces → Renders settings (piece :: pieces)
  | setting {setting : Setting} {settings : List Setting} {pieces : List (List Char)}
      {before after : List Char} :
    (∀ c ∈ before, isBlank c) → (∀ c ∈ after, isBlank c) → Renders settings pieces →
      Renders (setting :: settings) ((before ++ setting.part ++ after) :: pieces)

theorem Renders.filter_trim {settings : List Setting} {pieces : List (List Char)}
    (h : Renders settings pieces) (hwritable : ∀ setting ∈ settings, setting.IsWritable) :
    (pieces.map trim).filter (· ≠ []) = settings.map Setting.part := by
  induction h with
  | nil => rfl
  | @blank settings pieces piece hblank _ ih =>
    have htrim : trim piece = [] := by
      have := @Text.trim_append piece [] [] hblank (by simp) (by simp) (by simp)
      simpa using this
    rw [List.map_cons, htrim, ← ih hwritable]
    rfl
  | @setting setting settings pieces before after hbefore hafter _ ih =>
    rw [List.forall_mem_cons] at hwritable
    rw [List.map_cons, hwritable.1.trim_part hbefore hafter, List.map_cons, ← ih hwritable.2]
    exact List.filter_cons_of_pos (by simpa using setting.part_ne_nil)

theorem Renders.comma_not_mem {settings : List Setting} {pieces : List (List Char)}
    (h : Renders settings pieces) (hwritable : ∀ setting ∈ settings, setting.IsWritable) :
    ∀ piece ∈ pieces, ',' ∉ piece := by
  have hcomma {s : List Char} (hs : ∀ c ∈ s, isBlank c) : ',' ∉ s := by
    intro hmem
    exact absurd (hs _ hmem) (by decide)
  induction h with
  | nil => simp
  | blank hblank _ ih =>
    rw [List.forall_mem_cons]
    exact ⟨hcomma hblank, ih hwritable⟩
  | setting hbefore hafter _ ih =>
    rw [List.forall_mem_cons] at hwritable
    rw [List.forall_mem_cons]
    refine ⟨?_, ih hwritable.2⟩
    simp [hcomma hbefore, hcomma hafter, hwritable.1.comma_not_mem_part]

theorem Renders.parts_intercalate {settings : List Setting} {pieces : List (List Char)}
    (h : Renders settings pieces) (hwritable : ∀ setting ∈ settings, setting.IsWritable) :
    parts ([','].intercalate pieces) = settings.map Setting.part := by
  rw [← h.filter_trim hwritable]
  cases pieces with
  | nil => rfl
  | cons piece pieces =>
    rw [parts, Text.pieces_intercalate (h.comma_not_mem hwritable) (by simp)]

theorem ofParameter_of_renders {settings : List Setting} {pieces : List (List Char)}
    (h : Renders settings pieces) (hwritable : ∀ setting ∈ settings, setting.IsWritable) :
    ofParameter (String.ofList ([','].intercalate pieces)) = .ok (settings.foldl apply {}) := by
  unfold ofParameter
  rw [String.toList_ofList, h.parts_intercalate hwritable, bind_eq_ok_iff]
  refine ⟨settings, ?_, rfl⟩
  rw [mapM_eq_ok_iff, List.forall₂_map_left_iff, List.forall₂_same]
  intro setting hsetting
  exact (hwritable setting hsetting).ofPart_part

/--
A configuration whose texts can stand in a parameter is given back by each parameter that has its
settings, with any blanks around the parts and with blank parts between them. A parameter is refused
exactly if some part is, be it without a key, with an unknown key or with a value that is no mode,
and the error is the one of the first such part.
-/
theorem ofParameter_outcome :
    (∀ config settings pieces, IsWritable config → Arranges settings config →
      Renders settings pieces →
        ofParameter (String.ofList ([','].intercalate pieces)) = .ok config)
    ∧ ∀ parameter : String,
      ((∃ error, ofParameter parameter = .error error)
        ↔
        ∃ part ∈ ((parameter.toList.splitOn ',').map trim).filter (· ≠ []),
          ∃ error, Refuses part error)
      ∧ ∀ error, ofParameter parameter = .error error
        ↔
        ∃ before part after,
          ((parameter.toList.splitOn ',').map trim).filter (· ≠ []) = before ++ part :: after
            ∧ (∀ other ∈ before, ∀ cause, ¬ Refuses other cause) ∧ Refuses part error := by
  constructor
  . intro config settings pieces hwritable harranges hrenders
    rw [ofParameter_of_renders hrenders (hwritable.setting harranges), harranges.foldl_apply_eq]
  . intro parameter
    rw [← parts_eq_splitOn]
    exact ⟨exists_ofParameter_eq_error_iff, fun _ => ofParameter_eq_error_iff⟩

def shopConfig : Config where
  paths := .sourceRelative
  moduleRoot := some ""
  importMappings := {
    entries := [("a b.proto", "x/a;b=c"), ("shop.proto", " y")]
    sorted := by decide }
  includePaths := ["z", "a"]

def shopSettings : List Setting :=
  [.includePath "z", .importMapping "shop.proto" " y", .moduleRoot "", .paths .sourceRelative,
   .includePath "a", .importMapping "a b.proto" "x/a;b=c"]

def shopPieces : List (List Char) :=
  [" include=z".toList, "".toList, " ".toList, "Mshop.proto= y ".toList, " module=".toList,
   "paths=source_relative".toList, "include=a".toList, "Ma b.proto=x/a;b=c\t".toList]

theorem renders_shopPieces : Renders shopSettings shopPieces := by
  have hnone : ∀ c ∈ ([] : List Char), isBlank c := by simp
  have hspace : ∀ c ∈ [' '], isBlank c := List.forall_mem_singleton.2 (by decide)
  have htab : ∀ c ∈ ['\t'], isBlank c := List.forall_mem_singleton.2 (by decide)
  exact .setting hspace hnone <| .blank hnone <| .blank hspace <| .setting hnone hspace <|
    .setting hspace hnone <| .setting hnone hnone <| .setting hnone hnone <|
    .setting hnone htab .nil

theorem ofParameter_outcome_shopConfig :
    IsWritable shopConfig ∧ Arranges shopSettings shopConfig
      ∧ ofParameter (" include=z,, ,Mshop.proto= y , module=,paths=source_relative,include=a,"
          ++ "Ma b.proto=x/a;b=c\t")
        = .ok shopConfig
      ∧ ofParameter "paths=import, M =, paths=x,M=" = .error (.invalidValue "paths" "x") := by
  have hwritable : IsWritable shopConfig := ⟨by decide, by decide, by decide, by decide⟩
  have harranges : Arranges shopSettings shopConfig := ⟨.inl (by decide), by decide⟩
  have htext : " include=z,, ,Mshop.proto= y , module=,paths=source_relative,include=a,"
      ++ "Ma b.proto=x/a;b=c\t" = String.ofList ([','].intercalate shopPieces) := by
    decide
  have hpaths : Setting.ofPart "paths=import".toList = .ok (.paths .importPath) := rfl
  have hmapping : Setting.ofPart "M =".toList = .ok (.importMapping " " "") := rfl
  refine ⟨hwritable, harranges, ?_, ?_⟩
  . rw [htext]
    exact ofParameter_outcome.1 _ _ _ hwritable harranges renders_shopPieces
  . rw [(ofParameter_outcome.2 _).2]
    refine ⟨["paths=import".toList, "M =".toList], "paths=x".toList, ["M=".toList], by decide, ?_,
      .invalid (by decide)⟩
    rw [List.forall_mem_cons, List.forall_mem_singleton]
    exact ⟨Setting.exists_ofPart_eq_ok_iff.1 ⟨_, hpaths⟩,
      Setting.exists_ofPart_eq_ok_iff.1 ⟨_, hmapping⟩⟩

end Config

end HessianGo
