import HessianGo.Proofs.Except
import HessianGo.Source.OptionBlock
import Mathlib.Logic.Relation

/-!
This module contains the meaning of option blocks. Whether a block is set as a whole or key by key,
and whatever else is set in between, makes no difference to it, be the outcome a block or a fault. A
block is there exactly if its extension is named, and each key in it has the value that was assigned
last.
-/

namespace HessianGo

namespace Source

open Schema (OptionFault)

/-! ### What assignments say -/

namespace OptionAssignment

def Names (assignment : OptionAssignment) (extension : String) : Prop :=
  ∃ written ∈ assignment.extension,
    written = extension ∨ ∃ package, written = package ++ "." ++ extension

/--
`Sets assignment entries`: the assignment lists these entries in braces, or it is to the one key
among them.
-/
inductive Sets (assignment : OptionAssignment) : List (String × OptionValue) → Prop where
  | whole {entries : List (String × OptionValue)} :
    assignment.path = [] → assignment.value = .aggregate entries → Sets assignment entries
  | single {key : String} : assignment.path = [key] → Sets assignment [(key, assignment.value)]

end OptionAssignment

/--
`SetsIn extension assignments entries`: the assignments to the extension make these entries, in the
order in which they are written.
-/
inductive SetsIn (extension : String) :
    List OptionAssignment → List (String × OptionValue) → Prop where
  | nil : SetsIn extension [] []
  | other {assignment : OptionAssignment} {assignments : List OptionAssignment}
    {entries : List (String × OptionValue)} :
    ¬assignment.Names extension → SetsIn extension assignments entries →
      SetsIn extension (assignment :: assignments) entries
  | cons {assignment : OptionAssignment} {assignments : List OptionAssignment}
    {first entries : List (String × OptionValue)} :
    assignment.Names extension → assignment.Sets first → SetsIn extension assignments entries →
      SetsIn extension (assignment :: assignments) (first ++ entries)

/--
`Rewrites extension assignments others`: one assignment that lists entries in braces is written key
by key, or one that is not to the extension is put in.
-/
inductive Rewrites (extension : String) :
    List OptionAssignment → List OptionAssignment → Prop where
  | spread {before after : List OptionAssignment} {target : Option String}
    {entries : List (String × OptionValue)} :
    entries ≠ [] →
      Rewrites extension
        (before ++ { extension := target, path := [], value := .aggregate entries } :: after)
        (before ++ (entries.map fun entry =>
          { extension := target, path := [entry.1], value := entry.2 }) ++ after)
  | insert {before after : List OptionAssignment} {assignment : OptionAssignment} :
    ¬assignment.Names extension →
      Rewrites extension (before ++ after) (before ++ assignment :: after)

/--
`HoldsLast entries key decode default value`: the value is decoded from the last entry of the key,
or is the default if there is none.
-/
inductive HoldsLast {α : Type} (entries : List (String × OptionValue)) (key : String)
    (decode : String → OptionValue → Except OptionFault α) (default : α) : α → Prop where
  | assigned {before after : List (String × OptionValue)} {written : OptionValue} {value : α} :
    entries = before ++ (key, written) :: after → (∀ entry ∈ after, entry.1 ≠ key) →
      decode key written = .ok value → HoldsLast entries key decode default value
  | unassigned : (∀ entry ∈ entries, entry.1 ≠ key) → HoldsLast entries key decode default default

namespace OptionAssignment

theorem isTo_iff_names {assignment : OptionAssignment} {extension : String}
    (h : '.' ∉ extension.toList) : assignment.isTo extension ↔ assignment.Names extension := by
  unfold isTo Names
  rw [Option.any_eq_true]
  apply exists_congr
  intro written
  apply and_congr_right
  intro _
  rw [decide_eq_true_eq]
  unfold Text.lastPiece
  constructor
  . intro hlast
    cases hcut : Text.cutLast '.' written.toList with
    | none =>
      rw [hcut] at hlast
      exact .inl (String.toList_inj.1 hlast)
    | some parts =>
      rcases parts with ⟨before, after⟩
      rw [hcut] at hlast
      subst hlast
      refine .inr ⟨String.ofList before, ?_⟩
      apply String.toList_inj.1
      simp [(Text.cutLast_eq_some hcut).1]
  . rintro (rfl | ⟨package, rfl⟩)
    . rw [Text.cutLast_eq_none_iff.2 h]
    . have hcut := Text.cutLast_append h package.toList
      simp [hcut]

theorem entries_eq_ok_iff {assignment : OptionAssignment} {entries : List (String × OptionValue)} :
    assignment.entries = .ok entries ↔ assignment.Sets entries := by
  unfold OptionAssignment.entries
  constructor
  . intro h
    split at h
    . next hpath hvalue =>
      cases h
      exact .whole hpath hvalue
    . next hpath =>
      cases h
      exact .single hpath
    . cases h
  . intro h
    cases h with
    | whole hpath hvalue => simp [hpath, hvalue]
    | single hpath => simp [hpath]

end OptionAssignment

theorem setsIn_single {target : Option String} {extension : String}
    (h : ∀ path value, OptionAssignment.Names ⟨target, path, value⟩ extension)
    (entries : List (String × OptionValue)) :
    SetsIn extension (entries.map fun entry => ⟨target, [entry.1], entry.2⟩) entries := by
  induction entries with
  | nil => exact .nil
  | cons entry entries ih => exact .cons (h _ _) (.single rfl) ih

/-! ### Merging -/

namespace BlockKind

section

variable {Block : Type} {kind : BlockKind Block}

theorem extend_of_sets {assignment : OptionAssignment} {entries : List (String × OptionValue)}
    (h : assignment.Sets entries) (block : Option Block) :
    kind.extend block assignment
      =
    some <$> entries.foldlM kind.assign (block.getD kind.initial) := by
  unfold extend
  rw [OptionAssignment.entries_eq_ok_iff.2 h]
  rfl

def extendAll (kind : BlockKind Block) (assignments : List OptionAssignment)
    (block : Option Block) : Except OptionFault (Option Block) :=
  (assignments.filter (·.isTo kind.extension)).foldlM kind.extend block

theorem extendAll_append (before after : List OptionAssignment) (block : Option Block) :
    kind.extendAll (before ++ after) block
      =
    kind.extendAll before block >>= kind.extendAll after := by
  unfold extendAll
  rw [List.filter_append, List.foldlM_append]

variable (hdotless : '.' ∉ kind.extension.toList)

include hdotless

theorem extendAll_cons_of_names {assignment : OptionAssignment}
    (h : assignment.Names kind.extension) (assignments : List OptionAssignment)
    (block : Option Block) :
    kind.extendAll (assignment :: assignments) block
      =
    kind.extend block assignment >>= kind.extendAll assignments := by
  rw [← OptionAssignment.isTo_iff_names hdotless] at h
  unfold extendAll
  rw [List.filter_cons, if_pos h, List.foldlM_cons]

theorem extendAll_cons_of_not_names {assignment : OptionAssignment}
    (h : ¬assignment.Names kind.extension) (assignments : List OptionAssignment)
    (block : Option Block) :
    kind.extendAll (assignment :: assignments) block = kind.extendAll assignments block := by
  rw [← OptionAssignment.isTo_iff_names hdotless] at h
  unfold extendAll
  rw [List.filter_cons, if_neg h]

theorem extendAll_of_not_names {assignments : List OptionAssignment}
    (h : ∀ assignment ∈ assignments, ¬assignment.Names kind.extension) (block : Option Block) :
    kind.extendAll assignments block = .ok block := by
  induction assignments with
  | nil => rfl
  | cons assignment assignments ih =>
    rw [List.forall_mem_cons] at h
    rw [extendAll_cons_of_not_names hdotless h.1, ih h.2]

theorem extendAll_of_setsIn {assignments : List OptionAssignment}
    {entries : List (String × OptionValue)} (h : SetsIn kind.extension assignments entries)
    (block : Option Block)
    (hblock : block.isSome ∨ ∃ assignment ∈ assignments, assignment.Names kind.extension) :
    kind.extendAll assignments block
      =
    some <$> entries.foldlM kind.assign (block.getD kind.initial) := by
  induction h generalizing block with
  | nil =>
    rcases hblock with hblock | ⟨assignment, hmem, -⟩
    . rcases Option.isSome_iff_exists.1 hblock with ⟨value, rfl⟩
      rfl
    . cases hmem
  | other hnot _ ih =>
    rw [extendAll_cons_of_not_names hdotless hnot]
    apply ih
    simpa [hnot] using hblock
  | @cons assignment assignments first entries hnames hsets _ ih =>
    rw [extendAll_cons_of_names hdotless hnames, extend_of_sets hsets, List.foldlM_append]
    rw [bind_map_left, map_bind]
    congr 1
    funext value
    exact ih (some value) (.inl rfl)

theorem exists_setsIn {assignments : List OptionAssignment} {block result : Option Block}
    (h : kind.extendAll assignments block = .ok result) :
    ∃ entries, SetsIn kind.extension assignments entries := by
  induction assignments generalizing block with
  | nil => exact ⟨[], .nil⟩
  | cons assignment assignments ih =>
    by_cases hnames : assignment.Names kind.extension
    . rw [extendAll_cons_of_names hdotless hnames] at h
      rcases bind_eq_ok_iff.1 h with ⟨next, hnext, h⟩
      rcases bind_eq_ok_iff.1 hnext with ⟨first, hfirst, -⟩
      rcases ih h with ⟨entries, hentries⟩
      exact ⟨_, .cons hnames (OptionAssignment.entries_eq_ok_iff.1 hfirst) hentries⟩
    . rw [extendAll_cons_of_not_names hdotless hnames] at h
      rcases ih h with ⟨entries, hentries⟩
      exact ⟨entries, .other hnames hentries⟩

theorem read_eq_ok_none_iff {assignments : List OptionAssignment} :
    kind.read assignments = .ok none
      ↔
    ∀ assignment ∈ assignments, ¬assignment.Names kind.extension := by
  constructor
  . intro h assignment hmem hnames
    rcases exists_setsIn hdotless h with ⟨entries, hentries⟩
    have hread := extendAll_of_setsIn hdotless hentries none (.inr ⟨assignment, hmem, hnames⟩)
    rcases exists_of_map_eq_ok (hread.symm.trans h) with ⟨_, -, hsome⟩
    cases hsome
  . exact fun h => extendAll_of_not_names hdotless h none

theorem read_eq_ok_some_iff {assignments : List OptionAssignment} {block : Block} :
    kind.read assignments = .ok (some block)
      ↔
    (∃ assignment ∈ assignments, assignment.Names kind.extension)
      ∧ ∃ entries, SetsIn kind.extension assignments entries
        ∧ entries.foldlM kind.assign kind.initial = .ok block := by
  constructor
  . intro h
    have hnamed : ∃ assignment ∈ assignments, assignment.Names kind.extension := by
      by_contra hnone
      rw [(read_eq_ok_none_iff hdotless).2 (by simpa using hnone)] at h
      cases h
    rcases exists_setsIn hdotless h with ⟨entries, hentries⟩
    have hread := extendAll_of_setsIn hdotless hentries none (.inr hnamed)
    rcases exists_of_map_eq_ok (hread.symm.trans h) with ⟨_, hfold, hsome⟩
    cases hsome
    exact ⟨hnamed, entries, hentries, hfold⟩
  . rintro ⟨hnamed, entries, hentries, hfold⟩
    apply (extendAll_of_setsIn hdotless hentries none (.inr hnamed)).trans
    rw [Option.getD_none, hfold]
    rfl

theorem extendAll_spread (target : Option String) {entries : List (String × OptionValue)}
    (hne : entries ≠ []) (block : Option Block) :
    kind.extendAll [{ extension := target, path := [], value := .aggregate entries }] block
      =
    kind.extendAll (entries.map fun entry => ⟨target, [entry.1], entry.2⟩) block := by
  -- The path and the value of an assignment say nothing about its extension.
  by_cases hnames : ∀ path value, OptionAssignment.Names ⟨target, path, value⟩ kind.extension
  . have hwhole : SetsIn kind.extension
        [{ extension := target, path := [], value := .aggregate entries }] (entries ++ []) :=
      .cons (hnames _ _) (.whole rfl rfl) .nil
    rw [List.append_nil] at hwhole
    have hsingle := setsIn_single hnames entries
    rw [extendAll_of_setsIn hdotless hwhole, extendAll_of_setsIn hdotless hsingle]
    . rcases List.exists_mem_of_ne_nil entries hne with ⟨entry, hentry⟩
      exact .inr ⟨_, List.mem_map_of_mem hentry, hnames _ _⟩
    . exact .inr ⟨_, List.mem_singleton_self _, hnames _ _⟩
  . have hnot : ∀ path value, ¬OptionAssignment.Names ⟨target, path, value⟩ kind.extension :=
      fun _ _ h => hnames fun _ _ => h
    rw [extendAll_of_not_names hdotless, extendAll_of_not_names hdotless]
    . intro assignment hmem
      rcases List.mem_map.1 hmem with ⟨entry, -, rfl⟩
      exact hnot _ _
    . intro assignment hmem
      rw [List.mem_singleton.1 hmem]
      exact hnot _ _

theorem read_eq_of_rewrites {assignments others : List OptionAssignment}
    (h : Rewrites kind.extension assignments others) :
    kind.read assignments = kind.read others := by
  change kind.extendAll assignments none = kind.extendAll others none
  cases h with
  | spread hne =>
    rw [List.append_cons, extendAll_append, extendAll_append, extendAll_append, extendAll_append]
    rw [funext (extendAll_spread hdotless _ hne)]
  | insert hnot =>
    rw [extendAll_append, extendAll_append]
    rw [funext (extendAll_cons_of_not_names hdotless hnot _)]

theorem read_eq_of_eqvGen {assignments others : List OptionAssignment}
    (h : Relation.EqvGen (Rewrites kind.extension) assignments others) :
    kind.read assignments = kind.read others := by
  induction h with
  | rel _ _ h => exact read_eq_of_rewrites hdotless h
  | refl _ => rfl
  | symm _ _ _ ih => exact ih.symm
  | trans _ _ _ _ _ ih ih' => exact ih.trans ih'

end

/-! ### What the keys hold -/

/--
A key of a block: the part of the block that an assignment to the key sets, and no other one does.
-/
structure IsSlot {Block α : Type} (kind : BlockKind Block) (key : String)
    (decode : String → OptionValue → Except OptionFault α) (get : Block → α) : Prop where
  assigned {block result : Block} {written : OptionValue} :
    kind.assign block (key, written) = .ok result → decode key written = .ok (get result)
  other {block result : Block} {entry : String × OptionValue} :
    entry.1 ≠ key → kind.assign block entry = .ok result → get result = get block

/-- The entries of other keys leave a key as it is, and each of its own replaces the one before. -/
theorem IsSlot.holdsLast {Block α : Type} {kind : BlockKind Block} {key : String}
    {decode : String → OptionValue → Except OptionFault α} {get : Block → α}
    (slot : kind.IsSlot key decode get) {entries : List (String × OptionValue)}
    {start block : Block} (h : entries.foldlM kind.assign start = .ok block) :
    HoldsLast entries key decode (get start) (get block) := by
  induction entries generalizing start with
  | nil =>
    cases h
    exact .unassigned fun _ hmem => nomatch hmem
  | cons entry entries ih =>
    rcases bind_eq_ok_iff.1 h with ⟨next, hnext, h⟩
    -- If no later entry is of the key, it is for the first one to say.
    have hlast := ih h
    generalize get block = value at hlast ⊢
    cases hlast with
    | assigned hentries hlater hdecode =>
      rw [hentries]
      exact .assigned (List.cons_append ..).symm hlater hdecode
    | unassigned hnone =>
      rcases entry with ⟨name, written⟩
      by_cases hkey : name = key
      . subst hkey
        exact .assigned (List.nil_append _).symm hnone (slot.assigned hnext)
      . rw [slot.other hkey hnext]
        exact .unassigned (List.forall_mem_cons.2 ⟨hkey, hnone⟩)

theorem exists_foldlM_assign_iff {Block : Type} {kind : BlockKind Block}
    {Takes : String × OptionValue → Prop}
    (htakes : ∀ block entry, (∃ next, kind.assign block entry = .ok next) ↔ Takes entry)
    (entries : List (String × OptionValue)) (start : Block) :
    (∃ block, entries.foldlM kind.assign start = .ok block) ↔ ∀ entry ∈ entries, Takes entry := by
  induction entries generalizing start with
  | nil => exact ⟨fun _ _ hmem => (nomatch hmem), fun _ => ⟨start, rfl⟩⟩
  | cons entry entries ih =>
    rw [List.forall_mem_cons, ← htakes start]
    constructor
    . rintro ⟨block, h⟩
      rcases bind_eq_ok_iff.1 h with ⟨next, hnext, h⟩
      exact ⟨⟨next, hnext⟩, (ih next).1 ⟨block, h⟩⟩
    . rintro ⟨⟨next, hnext⟩, hentries⟩
      rcases (ih next).2 hentries with ⟨block, h⟩
      exact ⟨block, bind_eq_ok_iff.2 ⟨next, hnext, h⟩⟩

/--
The blocks of that kind are merged from the assignments to them.
-/
structure Merges {Block : Type} (kind : BlockKind Block) (Takes : String × OptionValue → Prop)
    (Holds : List (String × OptionValue) → Block → Prop) : Prop where
  rewritten (assignments others : List OptionAssignment) :
    Relation.EqvGen (Rewrites kind.extension) assignments others →
      kind.read assignments = kind.read others
  absent (assignments : List OptionAssignment) :
    kind.read assignments = .ok none
      ↔
    ∀ assignment ∈ assignments, ¬assignment.Names kind.extension
  present (assignments : List OptionAssignment) :
    (∃ block, kind.read assignments = .ok (some block))
      ↔
    (∃ assignment ∈ assignments, assignment.Names kind.extension)
      ∧ ∃ entries, SetsIn kind.extension assignments entries ∧ ∀ entry ∈ entries, Takes entry
  holds (assignments : List OptionAssignment) (block : Block) :
    kind.read assignments = .ok (some block) →
      ∃ entries, SetsIn kind.extension assignments entries ∧ Holds entries block

theorem merges {Block : Type} {kind : BlockKind Block} {Takes : String × OptionValue → Prop}
    {Holds : List (String × OptionValue) → Block → Prop}
    (hdotless : '.' ∉ kind.extension.toList)
    (htakes : ∀ block entry, (∃ next, kind.assign block entry = .ok next) ↔ Takes entry)
    (hholds : ∀ entries block,
      entries.foldlM kind.assign kind.initial = .ok block → Holds entries block) :
    kind.Merges Takes Holds where
  rewritten _ _ := read_eq_of_eqvGen hdotless
  absent _ := read_eq_ok_none_iff hdotless
  present assignments := by
    simp only [read_eq_ok_some_iff hdotless, ← exists_foldlM_assign_iff htakes _ kind.initial]
    constructor
    . rintro ⟨block, hnamed, entries, hentries, hfold⟩
      exact ⟨hnamed, entries, hentries, block, hfold⟩
    . rintro ⟨hnamed, entries, hentries, block, hfold⟩
      exact ⟨block, hnamed, entries, hentries, hfold⟩
  holds assignments block h := by
    rcases (read_eq_ok_some_iff hdotless).1 h with ⟨-, entries, hentries, hfold⟩
    exact ⟨entries, hentries, hholds entries block hfold⟩

end BlockKind

/-! ### The three blocks -/

/--
`Takes texts flags entry`: the entry gives a text to one of the first keys, or a truth value to one
of the others.
-/
inductive Takes (texts flags : List String) : String × OptionValue → Prop where
  | text {key value : String} {written : OptionValue} :
    key ∈ texts → written.string key = .ok value → Takes texts flags (key, written)
  | flag {key : String} {value : Bool} {written : OptionValue} :
    key ∈ flags → written.bool key = .ok value → Takes texts flags (key, written)

structure MessageHolds (entries : List (String × OptionValue)) (block : Schema.MessageOptions) :
    Prop where
  javaClassName : HoldsLast entries "java_class_name" OptionValue.string "" block.javaClassName
  referencePath : HoldsLast entries "reference_path" OptionValue.string "" block.referencePath
  extendArgs : HoldsLast entries "extend_args" OptionValue.bool false block.extendArgs
  isInheritance : HoldsLast entries "is_inheritance" OptionValue.bool false block.isInheritance

structure FieldHolds (entries : List (String × OptionValue)) (block : Schema.FieldOptions) :
    Prop where
  isWrapper : HoldsLast entries "is_wrapper" OptionValue.bool false block.isWrapper

structure EnumHolds (entries : List (String × OptionValue)) (block : Schema.EnumOptions) :
    Prop where
  javaClassName : HoldsLast entries "java_class_name" OptionValue.string "" block.javaClassName

theorem messageBlock_assign_eq_ok_iff {block result : Schema.MessageOptions} {key : String}
    {written : OptionValue} :
    messageBlock.assign block (key, written) = .ok result
      ↔
    (key = "java_class_name" ∧ ∃ text, written.string key = .ok text
        ∧ { block with javaClassName := text } = result)
      ∨ (key = "reference_path" ∧ ∃ text, written.string key = .ok text
        ∧ { block with referencePath := text } = result)
      ∨ (key = "extend_args" ∧ ∃ flag, written.bool key = .ok flag
        ∧ { block with extendArgs := flag } = result)
      ∨ (key = "is_inheritance" ∧ ∃ flag, written.bool key = .ok flag
        ∧ { block with isInheritance := flag } = result) := by
  unfold messageBlock
  dsimp only
  split <;> simp_all [bind_eq_ok_iff, pure, Except.pure]

theorem fieldBlock_assign_eq_ok_iff {block result : Schema.FieldOptions} {key : String}
    {written : OptionValue} :
    fieldBlock.assign block (key, written) = .ok result
      ↔
    key = "is_wrapper" ∧ ∃ flag, written.bool key = .ok flag
      ∧ { block with isWrapper := flag } = result := by
  unfold fieldBlock
  dsimp only
  split <;> simp_all [bind_eq_ok_iff, pure, Except.pure]

theorem enumBlock_assign_eq_ok_iff {block result : Schema.EnumOptions} {key : String}
    {written : OptionValue} :
    enumBlock.assign block (key, written) = .ok result
      ↔
    key = "java_class_name" ∧ ∃ text, written.string key = .ok text
      ∧ { block with javaClassName := text } = result := by
  unfold enumBlock
  dsimp only
  split <;> simp_all [bind_eq_ok_iff, pure, Except.pure]

theorem messageBlock_takes (block : Schema.MessageOptions) (entry : String × OptionValue) :
    (∃ next, messageBlock.assign block entry = .ok next)
      ↔
    Takes ["java_class_name", "reference_path"] ["extend_args", "is_inheritance"] entry := by
  rcases entry with ⟨key, written⟩
  constructor
  . rintro ⟨next, h⟩
    rcases messageBlock_assign_eq_ok_iff.1 h with ⟨rfl, _, hvalue, -⟩ | ⟨rfl, _, hvalue, -⟩
      | ⟨rfl, _, hvalue, -⟩ | ⟨rfl, _, hvalue, -⟩
    . exact .text (by decide) hvalue
    . exact .text (by decide) hvalue
    . exact .flag (by decide) hvalue
    . exact .flag (by decide) hvalue
  . intro h
    simp only [messageBlock_assign_eq_ok_iff]
    cases h with
    | text hkey hvalue =>
      rcases List.mem_pair.1 hkey with rfl | rfl <;> simp [hvalue]
    | flag hkey hvalue =>
      rcases List.mem_pair.1 hkey with rfl | rfl <;> simp [hvalue]

theorem messageBlock_holds (entries : List (String × OptionValue)) (block : Schema.MessageOptions)
    (h : entries.foldlM messageBlock.assign messageBlock.initial = .ok block) :
    MessageHolds entries block := by
  have hname : messageBlock.IsSlot "java_class_name" OptionValue.string (·.javaClassName) := by
    constructor <;> grind [messageBlock_assign_eq_ok_iff]
  have hpath : messageBlock.IsSlot "reference_path" OptionValue.string (·.referencePath) := by
    constructor <;> grind [messageBlock_assign_eq_ok_iff]
  have hargs : messageBlock.IsSlot "extend_args" OptionValue.bool (·.extendArgs) := by
    constructor <;> grind [messageBlock_assign_eq_ok_iff]
  have hinherited : messageBlock.IsSlot "is_inheritance" OptionValue.bool (·.isInheritance) := by
    constructor <;> grind [messageBlock_assign_eq_ok_iff]
  exact {
    javaClassName := hname.holdsLast h
    referencePath := hpath.holdsLast h
    extendArgs := hargs.holdsLast h
    isInheritance := hinherited.holdsLast h }

theorem fieldBlock_takes (block : Schema.FieldOptions) (entry : String × OptionValue) :
    (∃ next, fieldBlock.assign block entry = .ok next) ↔ Takes [] ["is_wrapper"] entry := by
  rcases entry with ⟨key, written⟩
  simp only [fieldBlock_assign_eq_ok_iff]
  constructor
  . rintro ⟨_, rfl, _, hvalue, -⟩
    exact .flag (List.mem_singleton_self _) hvalue
  . intro h
    cases h with
    | text hkey _ => cases hkey
    | flag hkey hvalue => exact ⟨_, List.mem_singleton.1 hkey, _, hvalue, rfl⟩

theorem fieldBlock_holds (entries : List (String × OptionValue)) (block : Schema.FieldOptions)
    (h : entries.foldlM fieldBlock.assign fieldBlock.initial = .ok block) :
    FieldHolds entries block := by
  have hwrapper : fieldBlock.IsSlot "is_wrapper" OptionValue.bool (·.isWrapper) := by
    constructor <;> grind [fieldBlock_assign_eq_ok_iff]
  exact { isWrapper := hwrapper.holdsLast h }

theorem enumBlock_takes (block : Schema.EnumOptions) (entry : String × OptionValue) :
    (∃ next, enumBlock.assign block entry = .ok next) ↔ Takes ["java_class_name"] [] entry := by
  rcases entry with ⟨key, written⟩
  simp only [enumBlock_assign_eq_ok_iff]
  constructor
  . rintro ⟨_, rfl, _, hvalue, -⟩
    exact .text (List.mem_singleton_self _) hvalue
  . intro h
    cases h with
    | text hkey hvalue => exact ⟨_, List.mem_singleton.1 hkey, _, hvalue, rfl⟩
    | flag hkey _ => cases hkey

theorem enumBlock_holds (entries : List (String × OptionValue)) (block : Schema.EnumOptions)
    (h : entries.foldlM enumBlock.assign enumBlock.initial = .ok block) :
    EnumHolds entries block := by
  have hname : enumBlock.IsSlot "java_class_name" OptionValue.string (·.javaClassName) := by
    constructor <;> grind [enumBlock_assign_eq_ok_iff]
  exact { javaClassName := hname.holdsLast h }

/--
The blocks of messages, fields and enums are merged from all assignments to them, however these are
written. Each key has the value of its last assignment.
-/
theorem merges_blocks :
    messageBlock.Merges
        (Takes ["java_class_name", "reference_path"] ["extend_args", "is_inheritance"]) MessageHolds
      ∧ fieldBlock.Merges (Takes [] ["is_wrapper"]) FieldHolds
      ∧ enumBlock.Merges (Takes ["java_class_name"] []) EnumHolds := by
  refine ⟨?_, ?_, ?_⟩
  . exact BlockKind.merges (by decide) messageBlock_takes messageBlock_holds
  . exact BlockKind.merges (by decide) fieldBlock_takes fieldBlock_holds
  . exact BlockKind.merges (by decide) enumBlock_takes enumBlock_holds

end Source

end HessianGo
