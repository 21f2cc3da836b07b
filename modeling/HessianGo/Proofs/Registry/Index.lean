import HessianGo.Proofs.Registry.Scope
import HessianGo.Registry.Basic
import Mathlib.Data.List.Nodup

/-!
This module contains what the index of schema files has: one entry for each declared type, with a
location that leads to that very type. Files have an index exactly if no name is declared twice.
-/

namespace HessianGo

open Schema

namespace Registry

/-! ### Repeated names -/

def firstRepeated? (seen : List String) : List String → Option String
  | [] => none
  | name :: names => if name ∈ seen then some name else firstRepeated? (name :: seen) names

def FirstRepetition (names : List String) (name : String) : Prop :=
  ∃ before after, names = before ++ name :: after ∧ before.Nodup ∧ name ∈ before

theorem firstRepeated?_eq_none_iff {seen names : List String} :
    firstRepeated? seen names = none ↔ names.Nodup ∧ ∀ name ∈ names, name ∉ seen := by
  induction names generalizing seen with
  | nil => simp [firstRepeated?]
  | cons name names ih =>
    unfold firstRepeated?
    split
    . next hseen => simp [hseen]
    . next hseen =>
      rw [ih]
      simp only [List.nodup_cons, List.mem_cons, not_or, forall_eq_or_imp]
      grind

theorem firstRepeated?_eq_some_iff {seen names : List String} {name : String} :
    firstRepeated? seen names = some name
      ↔
    ∃ before after, names = before ++ name :: after
      ∧ (before.Nodup ∧ ∀ other ∈ before, other ∉ seen) ∧ (name ∈ seen ∨ name ∈ before) := by
  induction names generalizing seen with
  | nil => simp [firstRepeated?]
  | cons head names ih =>
    unfold firstRepeated?
    split
    . next hseen =>
      constructor
      . intro h
        rcases Option.some.inj h with rfl
        exact ⟨[], names, rfl, by simp, .inl hseen⟩
      . rintro ⟨before, after, hnames, ⟨-, hfresh⟩, -⟩
        cases before with
        | nil =>
          rcases List.cons.inj hnames with ⟨rfl, -⟩
          rfl
        | cons first before =>
          rcases List.cons.inj hnames with ⟨rfl, -⟩
          exact absurd hseen (hfresh head (by simp))
    . next hseen =>
      rw [ih]
      constructor
      . rintro ⟨before, after, rfl, ⟨hnodup, hfresh⟩, hname⟩
        refine ⟨head :: before, after, rfl, ?_, ?_⟩
        . grind
        . grind
      . rintro ⟨before, after, hnames, ⟨hnodup, hfresh⟩, hname⟩
        cases before with
        | nil => grind
        | cons first before =>
          rcases List.cons.inj hnames with ⟨rfl, rfl⟩
          refine ⟨before, after, rfl, ?_, ?_⟩
          . grind
          . grind

theorem firstRepeated?_nil_eq_none_iff {names : List String} :
    firstRepeated? [] names = none ↔ names.Nodup := by
  rw [firstRepeated?_eq_none_iff]
  simp

theorem firstRepeated?_nil_eq_some_iff {names : List String} {name : String} :
    firstRepeated? [] names = some name ↔ FirstRepetition names name := by
  rw [firstRepeated?_eq_some_iff]
  simp [FirstRepetition]

/-! ### The places of declarations -/

def declared (files : List File) : List Declaration :=
  files.flatMap File.declarations

def declaredNames (files : List File) : List String :=
  (declared files).map (·.fullName)

structure Place where
  location : Location
  declaration : Declaration

def enumPlaces (file : Nat) (path : List Nat) (enums : List Enum) : List Place :=
  enums.zipIdx.map fun (enum, position) =>
    { location := { file, messages := path, enum := some position }, declaration := .enum enum }

mutual

/--
The declarations in a message that stands at the end of a path, each with its location.
-/
def messagePlaces (file : Nat) (path : List Nat) : Message → List Place
  | ⟨name, fullName, fields, messages, enums, oneofs, isMapEntry, options⟩ =>
    enumPlaces file path enums ++ placesOfMessages file path 0 messages
      ++ [{ location := { file, messages := path, enum := none }
            declaration := .message
              ⟨name, fullName, fields, messages, enums, oneofs, isMapEntry, options⟩ }]

def placesOfMessages (file : Nat) (path : List Nat) (position : Nat) : List Message → List Place
  | [] => []
  | message :: messages =>
    messagePlaces file (path ++ [position]) message
      ++ placesOfMessages file path (position + 1) messages

end

def filePlaces (position : Nat) (file : File) : List Place :=
  enumPlaces position [] file.enums ++ placesOfMessages position [] 0 file.messages

def places (files : List File) : List Place :=
  files.zipIdx.flatMap fun (file, position) => filePlaces position file

theorem messagePlaces_eq (file : Nat) (path : List Nat) (message : Message) :
    messagePlaces file path message
      =
    enumPlaces file path message.enums ++ placesOfMessages file path 0 message.messages
      ++ [{ location := { file, messages := path, enum := none }
            declaration := .message message }] := by
  cases message
  rw [messagePlaces]

theorem map_declaration_enumPlaces (file : Nat) (path : List Nat) (enums : List Enum) :
    (enumPlaces file path enums).map (·.declaration) = enums.map .enum := by
  unfold enumPlaces
  rw [List.map_map]
  calc enums.zipIdx.map _
    _ = (enums.zipIdx.map Prod.fst).map Declaration.enum := by rw [List.map_map]; rfl
    _ = enums.map .enum := by rw [List.zipIdx_map_fst]

mutual

theorem map_declaration_messagePlaces (file : Nat) (path : List Nat) (message : Message) :
    (messagePlaces file path message).map (·.declaration) = message.declarations := by
  match message with
  | ⟨_, _, _, messages, _, _, _, _⟩ =>
    simp [messagePlaces, Message.declarations, map_declaration_enumPlaces,
      map_declaration_placesOfMessages file path 0 messages]

theorem map_declaration_placesOfMessages (file : Nat) (path : List Nat) (position : Nat)
    (messages : List Message) :
    (placesOfMessages file path position messages).map (·.declaration)
      = Message.declarationsOfList messages := by
  match messages with
  | [] => rfl
  | message :: messages =>
    simp [placesOfMessages, Message.declarationsOfList,
      map_declaration_messagePlaces file (path ++ [position]) message,
      map_declaration_placesOfMessages file path (position + 1) messages]

end

theorem map_declaration_filePlaces (position : Nat) (file : File) :
    (filePlaces position file).map (·.declaration) = file.declarations := by
  unfold filePlaces File.declarations
  rw [List.map_append, map_declaration_enumPlaces, map_declaration_placesOfMessages]
  rw [Message.declarationsOfList_eq_flatMap]

theorem map_declaration_places (files : List File) :
    (places files).map (·.declaration) = declared files := by
  unfold places declared
  simp only [List.map_flatMap, map_declaration_filePlaces]
  calc files.zipIdx.flatMap _
    _ = (files.zipIdx.map Prod.fst).flatMap File.declarations := by rw [List.flatMap_map]
    _ = files.flatMap File.declarations := by rw [List.zipIdx_map_fst]

/-! ### Building the index -/

namespace Index

def insertPlace (index : Index) (place : Place) : Except Error Index :=
  index.insert place.declaration.fullName place.location

def insertAll (index : Index) (places : List Place) : Except Error Index :=
  places.foldlM insertPlace index

theorem insertAll_append (index : Index) (first second : List Place) :
    index.insertAll (first ++ second) = index.insertAll first >>= (·.insertAll second) :=
  List.foldlM_append

theorem insertEnums_eq (index : Index) (file : Nat) (path : List Nat) (enums : List Enum) :
    index.insertEnums file path enums = index.insertAll (enumPlaces file path enums) := by
  unfold insertAll enumPlaces
  rw [List.foldlM_map]
  rfl

mutual

theorem insertMessage_eq (index : Index) (file : Nat) (path : List Nat) (message : Message) :
    index.insertMessage file path message = index.insertAll (messagePlaces file path message) := by
  match message with
  | ⟨_, fullName, _, messages, _, _, _, _⟩ =>
    have hmessages := fun known : Index => insertMessages_eq known file path 0 messages
    have hself (known : Index) (message : Message) :
        known.insertAll [⟨⟨file, path, none⟩, .message message⟩]
          = known.insert message.fullName ⟨file, path, none⟩ := by
      unfold insertAll
      rw [List.foldlM_cons]
      apply bind_pure
    simp only [insertMessage, messagePlaces, insertAll_append, insertEnums_eq, hmessages, hself,
      bind_assoc]

theorem insertMessages_eq (index : Index) (file : Nat) (path : List Nat) (position : Nat)
    (messages : List Message) :
    index.insertMessages file path position messages
      = index.insertAll (placesOfMessages file path position messages) := by
  match messages with
  | [] => rfl
  | message :: messages =>
    have hmessages := fun known : Index =>
      insertMessages_eq known file path (position + 1) messages
    simp only [insertMessages, placesOfMessages, insertAll_append, hmessages,
      insertMessage_eq index file (path ++ [position]) message]

end

theorem insertFile_eq (index : Index) (position : Nat) (file : File) :
    index.insertFile position file = index.insertAll (filePlaces position file) := by
  simp only [insertFile, filePlaces, insertAll_append, insertEnums_eq, insertMessages_eq]

theorem ofFiles_eq_insertAll (files : List File) : ofFiles files = insertAll {} (places files) := by
  unfold ofFiles places
  simp only [insertFile_eq]
  generalize ({} : Index) = index
  generalize 0 = position
  induction files generalizing index position with
  | nil => rfl
  | cons file files ih =>
    rw [List.zipIdx_cons, List.foldlM_cons, List.flatMap_cons, insertAll_append]
    simp only [ih]

theorem location?_eq_none_iff {index : Index} {fullName : String} :
    index.location? fullName = none ↔ fullName ∉ index.entries.map Prod.fst := by
  unfold location?
  rw [List.lookup_eq_none_iff, List.mem_map]
  grind

theorem insertAll_eq (index : Index) (places : List Place) :
    index.insertAll places
      =
    match firstRepeated? (index.entries.map Prod.fst) (places.map (·.declaration.fullName)) with
    | some name => .error (.duplicateType name)
    | none =>
      .ok {
        entries := (places.map fun place => (place.declaration.fullName, place.location)).reverse
          ++ index.entries } := by
  induction places generalizing index with
  | nil => rfl
  | cons place places ih =>
    unfold insertAll at ih ⊢
    rw [List.foldlM_cons, List.map_cons]
    unfold firstRepeated? insertPlace insert
    cases hlocation : index.location? place.declaration.fullName with
    | some known =>
      have hseen : place.declaration.fullName ∈ index.entries.map Prod.fst := by
        by_contra hnot
        rw [← location?_eq_none_iff, hlocation] at hnot
        cases hnot
      rw [if_pos hseen]
      rfl
    | none =>
      rw [if_neg (location?_eq_none_iff.1 hlocation)]
      refine (ih _).trans ?_
      simp

theorem ofFiles_eq (files : List File) :
    ofFiles files
      =
    match firstRepeated? [] (declaredNames files) with
    | some name => .error (.duplicateType name)
    | none =>
      .ok {
        entries := ((places files).map fun place =>
          (place.declaration.fullName, place.location)).reverse } := by
  rw [ofFiles_eq_insertAll, insertAll_eq]
  unfold declaredNames
  rw [← map_declaration_places, List.map_map]
  simp only [List.map_nil, List.append_nil]
  rfl

theorem ofFiles_eq_ok_iff {files : List File} {index : Index} :
    ofFiles files = .ok index
      ↔
    (declaredNames files).Nodup
      ∧ index.entries = ((places files).map fun place =>
        (place.declaration.fullName, place.location)).reverse := by
  rw [ofFiles_eq, ← firstRepeated?_nil_eq_none_iff]
  cases firstRepeated? [] (declaredNames files) with
  | some name => simp
  | none =>
    cases index
    simp [eq_comm]

theorem map_fst_entries {files : List File} {index : Index} (h : ofFiles files = .ok index) :
    index.entries.map Prod.fst = (declaredNames files).reverse := by
  unfold declaredNames
  rw [(ofFiles_eq_ok_iff.1 h).2, ← map_declaration_places]
  simp [Function.comp_def]

theorem mem_entries {files : List File} {index : Index} (h : ofFiles files = .ok index)
    {fullName : String} {location : Location} :
    (fullName, location) ∈ index.entries
      ↔
    ∃ place ∈ places files, place.declaration.fullName = fullName ∧ place.location = location := by
  rw [(ofFiles_eq_ok_iff.1 h).2]
  simp only [List.mem_reverse, List.mem_map, Prod.mk.injEq]

theorem location?_eq_some_iff {files : List File} {index : Index} (h : ofFiles files = .ok index)
    {fullName : String} {location : Location} :
    index.location? fullName = some location
      ↔
    ∃ place ∈ places files, place.declaration.fullName = fullName ∧ place.location = location := by
  rw [← mem_entries h]
  constructor
  . intro hlocation
    rcases List.lookup_eq_some_iff.1 hlocation with ⟨before, after, hentries, -⟩
    simp [hentries]
  . intro hmem
    have hnodup : (index.entries.map Prod.fst).Nodup := by
      rw [map_fst_entries h]
      exact List.nodup_reverse.2 (ofFiles_eq_ok_iff.1 h).1
    cases hlocation : index.location? fullName with
    | none =>
      rw [location?_eq_none_iff] at hlocation
      exact absurd (List.mem_map_of_mem hmem) hlocation
    | some found =>
      rcases List.lookup_eq_some_iff.1 hlocation with ⟨before, after, hentries, -⟩
      have hfound : (fullName, found) ∈ index.entries := by simp [hentries]
      have heq := List.inj_on_of_nodup_map hnodup hfound hmem rfl
      rw [(Prod.mk.inj heq).2]

end Index

/-! ### Following a location -/

/--
The location leads to the declared type, as what it is.
-/
def Location.LeadsTo (location : Location) (files : List File) : Declaration → Prop
  | .message message => location.message? files = some message ∧ location.enum? files = none
  | .enum enum => location.enum? files = some enum ∧ location.message? files = none

section

variable {files : List File} {file : Nat}

theorem container?_single {source : File} (h : files[file]? = some source) (position : Nat) :
    (Location.mk file [position] none).container? files = source.messages[position]? := by
  simp [Location.container?, h]

theorem container?_concat {path : List Nat} {message : Message}
    (h : (Location.mk file path none).container? files = some message) (position : Nat) :
    (Location.mk file (path ++ [position]) none).container? files
      = message.messages[position]? := by
  cases path with
  | nil => cases h
  | cons first others =>
    rcases Option.bind_eq_some_iff.1 h with ⟨source, hsource, hrest⟩
    rcases Option.bind_eq_some_iff.1 hrest with ⟨outer, houter, hothers⟩
    unfold Location.container?
    simp only [List.cons_append, List.foldlM_append, hsource, houter, Option.bind_eq_bind,
      Option.bind_some]
    rw [hothers]
    simp

theorem leadsTo_enum {path : List Nat} {message : Message}
    (h : (Location.mk file path none).container? files = some message) {place : Place}
    (hplace : place ∈ enumPlaces file path message.enums) :
    place.location.LeadsTo files place.declaration := by
  rcases List.mem_map.1 hplace with ⟨⟨enum, position⟩, hmem, rfl⟩
  have henum := List.mem_zipIdx_iff_getElem?.1 hmem
  have hpath : path ≠ [] := by
    rintro rfl
    cases h
  refine ⟨?_, rfl⟩
  change (if path = [] then _ else _) = _
  rw [if_neg hpath]
  change ((Location.mk file path none).container? files >>= _) = _
  rw [h]
  exact henum

theorem leadsTo_topEnum {source : File} (h : files[file]? = some source) {place : Place}
    (hplace : place ∈ enumPlaces file [] source.enums) :
    place.location.LeadsTo files place.declaration := by
  rcases List.mem_map.1 hplace with ⟨⟨enum, position⟩, hmem, rfl⟩
  have henum := List.mem_zipIdx_iff_getElem?.1 hmem
  refine ⟨?_, rfl⟩
  change (files[file]? >>= _) = _
  rw [h]
  exact henum

theorem mem_placesOfMessages {path : List Nat} {start : Nat} {messages : List Message}
    {place : Place} :
    place ∈ placesOfMessages file path start messages
      ↔
    ∃ position message, messages[position]? = some message
      ∧ place ∈ messagePlaces file (path ++ [start + position]) message := by
  induction messages generalizing start with
  | nil => simp [placesOfMessages]
  | cons first messages ih =>
    rw [placesOfMessages, List.mem_append, ih]
    constructor
    . rintro (hfirst | ⟨position, message, hmessage, hplace⟩)
      . exact ⟨0, first, rfl, hfirst⟩
      . refine ⟨position + 1, message, hmessage, ?_⟩
        rwa [Nat.add_right_comm] at hplace
    . rintro ⟨position, message, hmessage, hplace⟩
      cases position with
      | zero =>
        cases hmessage
        exact .inl hplace
      | succ position =>
        refine .inr ⟨position, message, hmessage, ?_⟩
        rwa [Nat.add_right_comm]

theorem leadsTo_of_mem_messagePlaces {path : List Nat} {message : Message}
    (h : (Location.mk file path none).container? files = some message) {place : Place}
    (hplace : place ∈ messagePlaces file path message) :
    place.location.LeadsTo files place.declaration := by
  induction message using Message.treeInduction generalizing path with
  | node message ih =>
    rw [messagePlaces_eq] at hplace
    simp only [List.mem_append, List.mem_singleton] at hplace
    rcases hplace with (henum | hnested) | rfl
    . exact leadsTo_enum h henum
    . rcases mem_placesOfMessages.1 hnested with ⟨position, inner, hinner, hplace⟩
      rw [Nat.zero_add] at hplace
      apply ih inner (List.mem_of_getElem? hinner) _ hplace
      rw [container?_concat h, hinner]
    . exact ⟨h, rfl⟩

theorem leadsTo_of_mem_filePlaces {source : File} (h : files[file]? = some source) {place : Place}
    (hplace : place ∈ filePlaces file source) :
    place.location.LeadsTo files place.declaration := by
  rcases List.mem_append.1 hplace with henum | hmessage
  . exact leadsTo_topEnum h henum
  . rcases mem_placesOfMessages.1 hmessage with ⟨position, message, hmessage, hplace⟩
    rw [Nat.zero_add] at hplace
    apply leadsTo_of_mem_messagePlaces _ hplace
    rw [List.nil_append, container?_single h, hmessage]

end

theorem file_eq_of_mem_messagePlaces {file : Nat} {path : List Nat} {message : Message}
    {place : Place} (h : place ∈ messagePlaces file path message) : place.location.file = file := by
  induction message using Message.treeInduction generalizing path with
  | node message ih =>
    rw [messagePlaces_eq] at h
    simp only [List.mem_append, List.mem_singleton] at h
    rcases h with (henum | hnested) | rfl
    . rcases List.mem_map.1 henum with ⟨_, -, rfl⟩
      rfl
    . rcases mem_placesOfMessages.1 hnested with ⟨_, inner, hinner, hplace⟩
      exact ih inner (List.mem_of_getElem? hinner) hplace
    . rfl

theorem file_eq_of_mem_filePlaces {file : Nat} {source : File} {place : Place}
    (h : place ∈ filePlaces file source) : place.location.file = file := by
  rcases List.mem_append.1 h with henum | hmessage
  . rcases List.mem_map.1 henum with ⟨_, -, rfl⟩
    rfl
  . rcases mem_placesOfMessages.1 hmessage with ⟨_, _, -, hplace⟩
    exact file_eq_of_mem_messagePlaces hplace

theorem mem_places {files : List File} {place : Place} :
    place ∈ places files
      ↔
    ∃ file, files[place.location.file]? = some file
      ∧ place ∈ filePlaces place.location.file file := by
  unfold places
  rw [List.mem_flatMap]
  constructor
  . rintro ⟨⟨file, position⟩, hmem, hplace⟩
    rw [List.mem_zipIdx_iff_getElem?] at hmem
    rw [file_eq_of_mem_filePlaces hplace]
    exact ⟨file, hmem, hplace⟩
  . rintro ⟨file, hfile, hplace⟩
    exact ⟨(file, _), List.mem_zipIdx_iff_getElem?.2 hfile, hplace⟩

theorem leadsTo_of_mem_places {files : List File} {place : Place} (h : place ∈ places files) :
    place.location.LeadsTo files place.declaration := by
  rcases mem_places.1 h with ⟨file, hfile, hplace⟩
  exact leadsTo_of_mem_filePlaces hfile hplace

/-! ### Resolution by the index -/

theorem Location.LeadsTo.fieldType_eq {location : Location} {files : List File}
    {declaration : Declaration} (h : location.LeadsTo files declaration) :
    (if location.enum.isSome then FieldType.enum declaration.fullName
        else .message declaration.fullName)
      =
    declaration.fieldType := by
  cases declaration with
  | message message =>
    have hmessage := h.1
    unfold Location.message? at hmessage
    cases henum : location.enum.isSome with
    | true => simp [henum] at hmessage
    | false => rfl
  | enum enum =>
    rcases Option.bind_eq_some_iff.1 h.1 with ⟨position, hposition, -⟩
    rw [hposition]
    rfl

theorem Index.fieldType?_eq {files : List File} {index : Index} (h : ofFiles files = .ok index)
    (fullName : String) :
    index.fieldType? fullName = (find? (declared files) fullName).map (·.fieldType) := by
  have hnodup := (ofFiles_eq_ok_iff.1 h).1
  unfold fieldType?
  cases hlocation : index.location? fullName with
  | none =>
    have hnot : ¬ (find? (declared files) fullName).isSome := by
      rw [isSome_find?_iff]
      rw [location?_eq_none_iff, map_fst_entries h, List.mem_reverse] at hlocation
      exact hlocation
    rw [Option.not_isSome_iff_eq_none.1 hnot]
    rfl
  | some location =>
    rcases (location?_eq_some_iff h).1 hlocation with ⟨place, hplace, rfl, rfl⟩
    have hmem : place.declaration ∈ declared files := by
      rw [← map_declaration_places]
      exact List.mem_map_of_mem hplace
    rw [(find?_eq_some_iff hnodup).2 ⟨hmem, rfl⟩]
    rw [Option.map_some, Option.map_some, (leadsTo_of_mem_places hplace).fieldType_eq]

theorem Index.resolve?_eq {files : List File} {index : Index} (h : ofFiles files = .ok index)
    (scope written : String) :
    index.resolve? scope written
      = (Registry.resolve? (declared files) scope written).map (·.fieldType) := by
  unfold resolve? Registry.resolve?
  rw [List.map_findSome?, funext (fieldType?_eq h)]
  rfl

end Registry

end HessianGo
