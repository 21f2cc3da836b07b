import HessianGo.Proofs.Occurrence
import HessianGo.Proofs.Registry.Located
import HessianGo.Proofs.Registry.Loop
import HessianGo.Proofs.Registry.Resolution
import HessianGo.Proofs.Source.Fault

/-!
This module contains what the loading of files reads: the files that the imports lead to and that
are found in the directories, each once, in the order in which their names come up.
-/

namespace HessianGo

open Schema

namespace Registry

/-! ### What the loop keeps -/

/--
The imports lead from the given names to a name, over the given number of files.
-/
inductive ReachableIn (disk : Disk) (directories names : List String) : Nat → String → Prop
  | requested {name : String} (h : name ∈ names) : ReachableIn disk directories names 0 name
  | imported {distance : Nat} {name other path : String} {file : File}
    (h : ReachableIn disk directories names distance name)
    (hlocated : IsLocated disk directories name path) (hfile : HoldsFile disk path name file)
    (hother : other ∈ file.imports) :
    ReachableIn disk directories names (distance + 1) other

/--
What reading can fail for: a file that was asked for is missing, or a file that was found is broken.
-/
inductive Fault (disk : Disk) (directories names : List String) : Error → Prop
  | missing {name : String} (h : name ∈ names) (hmissing : ¬ IsFound disk directories name) :
    Fault disk directories names (.fileNotFound name)
  | broken {distance : Nat} {name path : String} {error : Error}
    (h : ReachableIn disk directories names distance name)
    (hlocated : IsLocated disk directories name path)
    (hrefused : IsRefused disk path name error) :
    Fault disk directories names error

def discovered (names : List String) (files : List File) : List String :=
  names ++ files.flatMap (·.imports)

namespace Progress

def requests (names : List String) (files : List File) : List Request :=
  (names.map fun name => { name, isRequired := true })
    ++ (files.flatMap (·.imports)).map fun name => { name, isRequired := false }

theorem names_requests (names : List String) (files : List File) :
    (requests names files).map (·.name) = discovered names files := by
  simp [requests, discovered, Function.comp_def]

theorem requests_concat (names : List String) (files : List File) (file : File) :
    requests names (files ++ [file])
      =
    requests names files ++ file.imports.map fun name => { name, isRequired := false } := by
  simp [requests]

theorem mem_names_of_mem_requests {names : List String} {files : List File} {request : Request}
    (h : request ∈ requests names files) (hrequired : request.isRequired) :
    request.name ∈ names := by
  rcases List.mem_append.1 h with h | h
  . rcases List.mem_map.1 h with ⟨name, hname, rfl⟩
    exact hname
  . rcases List.mem_map.1 h with ⟨name, hname, rfl⟩
    cases hrequired

theorem mem_of_mem_names {names : List String} {files : List File} {request : Request}
    {done queue : List Request} (h : requests names files = done ++ request :: queue)
    (hrequired : request.isRequired = false) {name : String} (hname : name ∈ names) :
    name ∈ done.map (·.name) := by
  rcases List.append_eq_append_iff.1 h with ⟨others, hdone, -⟩ | ⟨others, hnames, hothers⟩
  . rw [hdone, List.map_append, List.mem_append]
    left
    simpa using hname
  . cases others with
    | nil =>
      rw [List.append_nil] at hnames
      rw [← hnames]
      simpa using hname
    | cons other others =>
      -- The request itself would have been asked for.
      cases hothers
      have hmem : request ∈ names.map fun name => ({ name, isRequired := true } : Request) := by
        simp [hnames]
      rcases List.mem_map.1 hmem with ⟨_, -, rfl⟩
      cases hrequired

/--
What holds before and after every round.
-/
structure Invariant (disk : Disk) (directories names : List String) (progress : Progress) :
    Prop where
  split : ∃ done, requests names progress.files = done ++ progress.queue
    ∧ progress.seen = (done.map (·.name)).eraseDups
  located : progress.files.map (·.name)
    = progress.seen.filter fun name => IsFound disk directories name
  read : ∀ file ∈ progress.files, ∃ path, IsLocated disk directories file.name path
    ∧ HoldsFile disk path file.name file
  reachable : ∀ name ∈ discovered names progress.files,
    ∃ distance, ReachableIn disk directories names distance name
  found : ∀ name ∈ names, name ∈ progress.seen → IsFound disk directories name

def start (names : List String) : Progress :=
  { queue := names.map fun name => { name, isRequired := true } }

variable {disk : Disk} {directories names : List String} {progress next : Progress}

theorem invariant_start : Invariant disk directories names (start names) where
  split := ⟨[], by simp [requests, start], rfl⟩
  located := rfl
  read := by simp [start]
  reachable := by
    intro name hname
    exact ⟨0, .requested (by simpa [discovered, start] using hname)⟩
  found := by simp [start]

theorem Invariant.exists_reachableIn (h : Invariant disk directories names progress)
    {request : Request} (hrequest : request ∈ progress.queue) :
    ∃ distance, ReachableIn disk directories names distance request.name := by
  rcases h.split with ⟨done, hdone, -⟩
  apply h.reachable
  rw [← names_requests, hdone]
  exact List.mem_map_of_mem (List.mem_append_right done hrequest)

theorem Invariant.mem_names (h : Invariant disk directories names progress)
    {request : Request} (hrequest : request ∈ progress.queue) (hrequired : request.isRequired) :
    request.name ∈ names := by
  rcases h.split with ⟨done, hdone, -⟩
  have hmem : request ∈ requests names progress.files := by
    rw [hdone]
    exact List.mem_append_right done hrequest
  exact mem_names_of_mem_requests hmem hrequired

theorem Invariant.mem_seen (h : Invariant disk directories names progress)
    {request : Request} {queue : List Request} (hqueue : progress.queue = request :: queue)
    (hrequired : request.isRequired = false) {name : String} (hname : name ∈ names) :
    name ∈ progress.seen := by
  rcases h.split with ⟨done, hdone, hseen⟩
  rw [hseen, List.mem_eraseDups]
  rw [hqueue] at hdone
  exact mem_of_mem_names hdone hrequired hname

theorem Invariant.split_of_cons (h : Invariant disk directories names progress)
    {request : Request} {queue : List Request} (hqueue : progress.queue = request :: queue) :
    ∃ done, requests names progress.files = done ++ queue
      ∧ (done.map (·.name)).eraseDups
        = if request.name ∈ progress.seen then progress.seen
          else progress.seen ++ [request.name] := by
  rcases h.split with ⟨done, hdone, hseen⟩
  refine ⟨done ++ [request], by simp [hdone, hqueue], ?_⟩
  rw [List.map_append, List.map_singleton, eraseDups_concat, hseen]
  simp only [List.mem_eraseDups]

theorem Invariant.advance (h : Invariant disk directories names progress)
    (hnext : progress.advance disk directories = .ok next) :
    Invariant disk directories names next := by
  cases hqueue : progress.queue with
  | nil =>
    rw [advance_of_queue_eq_nil hqueue] at hnext
    cases hnext
    exact h
  | cons request queue =>
    rcases h.split_of_cons hqueue with ⟨done, hdone, hseen⟩
    rcases advance_eq_ok hqueue hnext with ⟨hmem, rfl⟩ | ⟨hmem, hlocate, hrequired, rfl⟩
      | ⟨hmem, path, file, hlocate, hfile, rfl⟩
    . -- The name was taken up before.
      rw [if_pos hmem] at hseen
      exact { h with split := ⟨done, hdone, hseen.symm⟩ }
    . -- The file is not there, and need not be.
      rw [if_neg hmem] at hseen
      rw [locate?_eq_none_iff] at hlocate
      refine { h with split := ⟨done, hdone, hseen.symm⟩, located := ?_, found := ?_ }
      . simp [h.located, hlocate]
      . intro name hname _
        exact h.found name hname (h.mem_seen hqueue hrequired hname)
    . rw [if_neg hmem] at hseen
      have hname : file.name = request.name := name_of_read hfile
      rw [locate?_eq_some_iff] at hlocate
      rw [read_eq_ok_iff] at hfile
      have hfound : IsFound disk directories request.name := ⟨path, hlocate⟩
      refine ⟨⟨done, ?_, hseen.symm⟩, ?_, ?_, ?_, ?_⟩
      . rw [requests_concat, hdone, List.append_assoc]
      . simp [h.located, hfound, hname]
      . rw [List.forall_mem_append]
        refine ⟨h.read, ?_⟩
        intro other hother
        rw [List.mem_singleton.1 hother, hname]
        exact ⟨path, hlocate, hfile⟩
      . rcases h.exists_reachableIn (hqueue ▸ List.mem_cons_self) with ⟨distance, hdistance⟩
        intro other hother
        rw [discovered, List.flatMap_append, ← List.append_assoc, List.mem_append] at hother
        rcases hother with hother | hother
        . exact h.reachable other hother
        . exact ⟨distance + 1, hdistance.imported hlocate hfile (by simpa using hother)⟩
      . intro name hin hseen
        rcases List.mem_append.1 hseen with hseen | hseen
        . exact h.found name hin hseen
        . rwa [List.mem_singleton.1 hseen]

theorem Invariant.fault (h : Invariant disk directories names progress) {error : Error}
    (herror : progress.advance disk directories = .error error) :
    Fault disk directories names error := by
  cases hqueue : progress.queue with
  | nil =>
    rw [advance_of_queue_eq_nil hqueue] at herror
    cases herror
  | cons request queue =>
    have hrequest : request ∈ progress.queue := hqueue ▸ List.mem_cons_self
    rcases advance_eq_error hqueue herror with ⟨hlocate, hrequired, rfl⟩ | ⟨path, hlocate, hfile⟩
    . exact .missing (h.mem_names hrequest hrequired) (locate?_eq_none_iff.1 hlocate)
    . rcases h.exists_reachableIn hrequest with ⟨distance, hdistance⟩
      exact .broken hdistance (locate?_eq_some_iff.1 hlocate) (read_eq_error_iff.1 hfile)

theorem Invariant.rounds {count : Nat} (h : Invariant disk directories names progress)
    (hnext : Progress.rounds disk directories count progress = .ok next) :
    Invariant disk directories names next := by
  induction count generalizing progress with
  | zero =>
    cases hnext
    exact h
  | succ count ih =>
    rcases bind_eq_ok_iff.1 hnext with ⟨middle, hmiddle, hnext⟩
    exact ih (h.advance hmiddle) hnext

theorem Invariant.fault_rounds {count : Nat} (h : Invariant disk directories names progress)
    {error : Error} (herror : Progress.rounds disk directories count progress = .error error) :
    Fault disk directories names error := by
  induction count generalizing progress with
  | zero => cases herror
  | succ count ih =>
    rw [Progress.rounds] at herror
    cases hmiddle : progress.advance disk directories with
    | ok middle =>
      rw [hmiddle] at herror
      exact ih (h.advance hmiddle) herror
    | error other =>
      rw [hmiddle] at herror
      cases herror
      exact h.fault hmiddle

end Progress

/-! ### What was read -/

/--
The files are the ones that the imports lead to and that the disk has, each read once, and they come
in the order in which their names came up. So no file comes before one that is closer to the given
names.
-/
structure ReadInOrder (disk : Disk) (directories names : List String) (files : List File) :
    Prop where
  nodup : (files.map (·.name)).Nodup
  mem_iff : ∀ name, name ∈ files.map (·.name)
    ↔ (∃ distance, ReachableIn disk directories names distance name)
      ∧ IsFound disk directories name
  read : ∀ file ∈ files, ∃ path, IsLocated disk directories file.name path
    ∧ HoldsFile disk path file.name file
  order : files.map (·.name)
    = (discovered names files).eraseDups.filter fun name => IsFound disk directories name
  breadth : files.Pairwise fun first second =>
    ∀ distance, ReachableIn disk directories names distance second.name →
      ∃ shorter ≤ distance, ReachableIn disk directories names shorter first.name

namespace Progress

variable {disk : Disk} {directories names : List String} {progress : Progress}

theorem Invariant.seen_eq (h : Invariant disk directories names progress)
    (hqueue : progress.queue = []) :
    progress.seen = (discovered names progress.files).eraseDups := by
  rcases h.split with ⟨done, hdone, hseen⟩
  rw [hqueue, List.append_nil] at hdone
  rw [hseen, ← names_requests, hdone]

theorem Invariant.order (h : Invariant disk directories names progress)
    (hqueue : progress.queue = []) :
    progress.files.map (·.name)
      =
    (discovered names progress.files).eraseDups.filter
      fun name => IsFound disk directories name := by
  rw [h.located, h.seen_eq hqueue]

theorem Invariant.mem_files (h : Invariant disk directories names progress)
    (hqueue : progress.queue = []) {name path : String} {file : File}
    (hname : name ∈ discovered names progress.files)
    (hlocated : IsLocated disk directories name path) (hfile : HoldsFile disk path name file) :
    file ∈ progress.files := by
  have hmem : name ∈ progress.files.map (·.name) := by
    rw [h.order hqueue, List.mem_filter, List.mem_eraseDups]
    exact ⟨hname, decide_eq_true ⟨path, hlocated⟩⟩
  rcases List.mem_map.1 hmem with ⟨other, hother, rfl⟩
  rcases h.read other hother with ⟨_, hlocated', hother'⟩
  rcases hlocated.unique hlocated' with rfl
  rcases hfile.unique hother' with rfl
  exact hother

theorem Invariant.mem_discovered (h : Invariant disk directories names progress)
    (hqueue : progress.queue = []) {distance : Nat} {name : String}
    (hname : ReachableIn disk directories names distance name) :
    name ∈ discovered names progress.files := by
  induction hname with
  | requested hname => exact List.mem_append_left _ hname
  | imported _ hlocated hfile hother ih =>
    have hmem := h.mem_files hqueue ih hlocated hfile
    exact List.mem_append_right _ (List.mem_flatMap_of_mem hmem hother)

theorem Invariant.pairwise_files (h : Invariant disk directories names progress)
    (hqueue : progress.queue = []) :
    progress.files.Pairwise fun first second => ∀ before,
      before <+: discovered names progress.files → second.name ∈ before → first.name ∈ before := by
  have hnames : (progress.files.map (·.name)).Pairwise fun first second => ∀ before,
      before <+: discovered names progress.files → second ∈ before → first ∈ before := by
    rw [h.order hqueue]
    exact (pairwise_eraseDups _).filter _
  exact List.pairwise_map.1 hnames

theorem Invariant.name_mem_of_prefix (h : Invariant disk directories names progress)
    (hqueue : progress.queue = []) {earlier later : List File} {file : File}
    (hfiles : progress.files = earlier ++ [file] ++ later) {before : List String}
    (hbefore : before <+: discovered names progress.files) (hin : file.name ∈ before) :
    ∀ other ∈ earlier ++ [file], other.name ∈ before := by
  have hpairwise := h.pairwise_files hqueue
  rw [hfiles] at hpairwise hbefore
  have hearlier := (List.pairwise_append.1 (List.pairwise_append.1 hpairwise).1).2.2
  rw [List.forall_mem_append]
  constructor
  . intro other hother
    exact hearlier other hother file List.mem_cons_self before hbefore hin
  . simpa using hin

theorem Invariant.exists_discovered_within (h : Invariant disk directories names progress)
    (hqueue : progress.queue = []) {distance : Nat} {name : String}
    (hname : ReachableIn disk directories names distance name) :
    ∃ before, before <+: discovered names progress.files ∧ name ∈ before
      ∧ ∀ other ∈ before, ∃ shorter ≤ distance,
        ReachableIn disk directories names shorter other := by
  induction hname with
  | requested hname =>
    refine ⟨names, List.prefix_append _ _, hname, ?_⟩
    intro other hother
    exact ⟨0, Nat.le_refl 0, .requested hother⟩
  | @imported distance name other path file hname hlocated hfile hother ih =>
    rcases ih with ⟨before, hbefore, hin, hwithin⟩
    rw [← name_of_read (read_eq_ok_iff.2 hfile)] at hin
    have hmem := h.mem_files hqueue (h.mem_discovered hqueue hname) hlocated hfile
    rcases List.append_of_mem hmem with ⟨earlier, later, hfiles⟩
    rw [List.append_cons] at hfiles
    have hearlier := h.name_mem_of_prefix hqueue hfiles hbefore hin
    -- What comes up until the imports of the file have come up.
    refine ⟨discovered names (earlier ++ [file]), ?_, ?_, ?_⟩
    . simp [hfiles, discovered, List.prefix_append_right_inj]
    . simp [discovered, hother]
    . intro reached hreached
      rcases List.mem_append.1 hreached with hreached | hreached
      . exact ⟨0, Nat.zero_le _, .requested hreached⟩
      . rcases List.mem_flatMap.1 hreached with ⟨third, hthird, himport⟩
        rcases hwithin third.name (hearlier third hthird) with ⟨shorter, hshorter, hreachable⟩
        have hread : third ∈ progress.files := by
          rw [hfiles]
          exact List.mem_append_left later hthird
        rcases h.read third hread with ⟨_, hlocated', hfile'⟩
        exact ⟨shorter + 1, Nat.succ_le_succ hshorter, hreachable.imported hlocated' hfile' himport⟩

theorem Invariant.readInOrder (h : Invariant disk directories names progress)
    (hqueue : progress.queue = []) : ReadInOrder disk directories names progress.files where
  nodup := by
    rw [h.order hqueue]
    exact (nodup_eraseDups _).filter _
  mem_iff := by
    intro name
    rw [h.order hqueue, List.mem_filter, List.mem_eraseDups, decide_eq_true_iff]
    apply and_congr_left
    intro _
    constructor
    . exact h.reachable name
    . rintro ⟨distance, hname⟩
      exact h.mem_discovered hqueue hname
  read := h.read
  order := h.order hqueue
  breadth := by
    apply (h.pairwise_files hqueue).imp
    intro first second hfirst distance hsecond
    rcases h.exists_discovered_within hqueue hsecond with ⟨before, hbefore, hin, hwithin⟩
    exact hwithin first.name (hfirst before hbefore hin)

theorem Invariant.isFound (h : Invariant disk directories names progress)
    (hqueue : progress.queue = []) {name : String} (hname : name ∈ names) :
    IsFound disk directories name := by
  apply h.found name hname
  rw [h.seen_eq hqueue, List.mem_eraseDups]
  exact List.mem_append_left _ hname

end Progress

theorem IsRefused.ne_fileNotFound {disk : Disk} {path name : String} {error : Error}
    (h : IsRefused disk path name error) (missing : String) : error ≠ .fileNotFound missing := by
  cases h with
  | unreadable _ => simp
  | notText _ _ => simp
  | text _ _ hfile =>
    rintro rfl
    exact Source.blamesText_ofText name _ _ hfile

theorem Fault.of_fileNotFound {disk : Disk} {directories names : List String} {name : String}
    (h : Fault disk directories names (.fileNotFound name)) :
    name ∈ names ∧ ¬ IsFound disk directories name := by
  cases h with
  | missing hname hmissing => exact ⟨hname, hmissing⟩
  | broken _ _ hrefused => exact absurd rfl (hrefused.ne_fileNotFound name)

theorem ofFiles_ne_fileNotFound (files : List File) (missing : String) :
    ofFiles files ≠ .error (.fileNotFound missing) := by
  rcases ofFiles_cases files with ⟨_, h⟩ | ⟨_, _, h⟩ | ⟨_, h⟩
  . simp [h]
  . simp [h]
  . simp [h]

variable {disk : Disk} {directories names : List String}

theorem Progress.EndsWith.readInOrder {files : List File}
    (h : EndsWith disk directories (.start names) (.ok files)) :
    ReadInOrder disk directories names files
      ∧ ∀ name ∈ names, IsFound disk directories name := by
  rcases h with ⟨count, hqueue, houtcome⟩
  rcases exists_of_map_eq_ok houtcome with ⟨progress, hprogress, rfl⟩
  have hinvariant := invariant_start.rounds hprogress
  have hdone := hqueue progress hprogress
  exact ⟨hinvariant.readInOrder hdone, fun name hname => hinvariant.isFound hdone hname⟩

theorem Progress.EndsWith.fault {error : Error}
    (h : EndsWith disk directories (.start names) (.error error)) :
    Fault disk directories names error := by
  rcases h with ⟨count, -, houtcome⟩
  cases hrounds : rounds disk directories count (.start names) with
  | ok progress =>
    rw [hrounds] at houtcome
    cases houtcome
  | error other =>
    rw [hrounds] at houtcome
    cases houtcome
    exact invariant_start.fault_rounds hrounds

theorem endsWith_start (disk : Disk) (directories names : List String) :
    Progress.EndsWith disk directories (.start names)
      (readAll disk directories (reachableNames disk names)
        (names.map fun name => { name, isRequired := true })) := by
  have hunseen : ∀ name, name ∈ reachableNames disk names
      ↔ name ∈ reachableNames disk names ∧ name ∉ ([] : List String) := by
    simp
  have hqueue : ∀ request ∈ (names.map fun name => ({ name, isRequired := true } : Request)),
      request.name ∈ reachableNames disk names := by
    intro request hrequest
    rcases List.mem_map.1 hrequest with ⟨name, hname, rfl⟩
    exact List.mem_append_left _ hname
  have hends : Progress.EndsWith disk directories (.start names)
      (([] ++ ·) <$> readAll disk directories (reachableNames disk names)
        (names.map fun name => { name, isRequired := true })) :=
    endsWith_readAll _ _ hunseen hqueue
  simpa using hends

theorem ReadInOrder.exists_holdsFile {files : List File}
    (h : ReadInOrder disk directories names files) {distance : Nat} {name path : String}
    (hname : ReachableIn disk directories names distance name)
    (hlocated : IsLocated disk directories name path) : ∃ file, HoldsFile disk path name file := by
  have hmem := (h.mem_iff name).2 ⟨⟨distance, hname⟩, path, hlocated⟩
  rcases List.mem_map.1 hmem with ⟨file, hfile, rfl⟩
  rcases h.read file hfile with ⟨_, hlocated', hfile'⟩
  rcases hlocated.unique hlocated' with rfl
  exact ⟨file, hfile'⟩

/--
The loop ends on every disk. What it read is what the imports lead to and the disk has, and only a
file that was asked for can be missing.
-/
theorem load_outcome (disk : Disk) (directories names : List String) :
    ∃ outcome, Progress.EndsWith disk directories (.start names) outcome
      ∧ load disk directories names = outcome >>= ofFiles
      ∧ (∀ files, outcome = .ok files → ReadInOrder disk directories names files)
      ∧ (∀ error, outcome = .error error → Fault disk directories names error)
      ∧ ((∃ files, outcome = .ok files)
        ↔ (∀ name ∈ names, IsFound disk directories name)
          ∧ ∀ distance name path, ReachableIn disk directories names distance name →
            IsLocated disk directories name path → ∃ file, HoldsFile disk path name file)
      ∧ (∀ name, load disk directories names = .error (.fileNotFound name) →
        name ∈ names ∧ ¬ IsFound disk directories name)
      ∧ ∀ name ∈ names, ¬ IsFound disk directories name →
        ∃ error, load disk directories names = .error error := by
  have hends := endsWith_start disk directories names
  unfold load
  generalize readAll disk directories (reachableNames disk names)
    (names.map fun name => { name, isRequired := true }) = outcome at hends
  refine ⟨outcome, hends, rfl, ?_, ?_, ?_, ?_, ?_⟩
  . rintro files rfl
    exact hends.readInOrder.1
  . rintro error rfl
    exact hends.fault
  . cases outcome with
    | ok files =>
      rcases hends.readInOrder with ⟨hread, hfound⟩
      simp only [Except.ok.injEq, exists_eq', true_iff]
      exact ⟨hfound, fun _ _ _ hname hlocated => hread.exists_holdsFile hname hlocated⟩
    | error error =>
      simp only [reduceCtorEq, exists_false, false_iff]
      rintro ⟨hfound, hreadable⟩
      cases hends.fault with
      | missing hname hmissing => exact hmissing (hfound _ hname)
      | broken hname hlocated hrefused =>
        rcases hreadable _ _ _ hname hlocated with ⟨file, hfile⟩
        rw [← read_eq_ok_iff] at hfile
        rw [← read_eq_error_iff] at hrefused
        cases hfile.symm.trans hrefused
  . intro name hload
    cases outcome with
    | ok files => exact absurd hload (ofFiles_ne_fileNotFound files name)
    | error error =>
      cases hload
      exact hends.fault.of_fileNotFound
  . intro name hname hmissing
    cases outcome with
    | ok files => exact absurd (hends.readInOrder.2 name hname) hmissing
    | error error => exact ⟨error, rfl⟩

/--
Two directories with files that import one another and themselves, over several ways, and one that
is missing. Both directories have a file `b`.
-/
def cyclicTree : FileSystem where
  working := ["work"]
  entries := [
    (["work", "base", "a"], .file (Text.utf8 "import \"b\"; import \"c\";".toList)),
    (["work", "base", "b"], .file (Text.utf8 "import \"d\";".toList)),
    (["shared", "b"], .file (Text.utf8 "import \"hidden\";".toList)),
    (["shared", "c"], .file (Text.utf8 "import \"a\"; import \"gone\"; import \"d\";".toList)),
    (["shared", "d"], .file (Text.utf8 "import \"/work/base/b\"; import \"d\";".toList)),
    (["shared", "hidden"], .file [])]

theorem rounds_cyclicTree :
    ∃ progress,
      Progress.rounds cyclicTree.disk ["base", "../shared/"] 10 (.start ["a"]) = .ok progress
      ∧ progress.queue = []
      ∧ progress.files.map (·.name) = ["a", "b", "c", "d", "/work/base/b"] := by
  decide +kernel

theorem load_outcome_cyclicTree :
    (∃ files, Progress.EndsWith cyclicTree.disk ["base", "../shared/"] (.start ["a"]) (.ok files)
      ∧ load cyclicTree.disk ["base", "../shared/"] ["a"] = ofFiles files
      ∧ files.map (·.name) = ["a", "b", "c", "d", "/work/base/b"]
      ∧ ReadInOrder cyclicTree.disk ["base", "../shared/"] ["a"] files)
    ∧ cyclicTree.disk.isFile "../shared/b"
    ∧ IsLocated cyclicTree.disk ["base", "../shared/"] "b" "base/b"
    ∧ IsLocated cyclicTree.disk ["base", "../shared/"] "d" "../shared/d"
    ∧ ∃ error, load cyclicTree.disk ["base", "../shared/"] ["c", "gone"] = .error error := by
  refine ⟨?_, by decide +kernel, ?_, ?_, ?_⟩
  . rcases rounds_cyclicTree with ⟨progress, hprogress, hqueue, hnames⟩
    rcases load_outcome cyclicTree.disk ["base", "../shared/"] ["a"]
      with ⟨outcome, hends, hload, hread, -⟩
    have hdone : Progress.EndsWith cyclicTree.disk ["base", "../shared/"] (.start ["a"])
        (.ok progress.files) := by
      refine ⟨10, ?_, by rw [hprogress]; rfl⟩
      intro other hother
      cases hprogress.symm.trans hother
      exact hqueue
    cases hends.unique hdone
    exact ⟨progress.files, hdone, hload, hnames, hread progress.files rfl⟩
  . exact locate?_eq_some_iff.1 (by decide +kernel)
  . exact locate?_eq_some_iff.1 (by decide +kernel)
  . rcases load_outcome cyclicTree.disk ["base", "../shared/"] ["c", "gone"]
      with ⟨_, -, -, -, -, -, -, hmissing⟩
    exact hmissing "gone" (by decide) (by decide +kernel)

end Registry

end HessianGo
