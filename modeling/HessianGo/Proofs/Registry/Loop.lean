import HessianGo.Proofs.Except
import HessianGo.Registry.Load

/-!
This module contains the loop that reads files and their imports. It takes one request after the
other from a queue that grows while it is worked off, and it ends on every disk.
-/

namespace HessianGo

open Schema

namespace Registry

/-! ### The loop -/

/--
Where the loop stands: the names that were taken up, in their order, the requests that wait, and the
files that were read.
-/
structure Progress where
  seen : List String := []
  queue : List Request
  files : List File := []

namespace Progress

variable (disk : Disk) (directories : List String)

def advance (progress : Progress) : Except Error Progress :=
  match progress.queue with
  | [] => .ok progress
  | request :: queue =>
    if request.name ∈ progress.seen then
      .ok { progress with queue }
    else
      let seen := progress.seen ++ [request.name]
      match locate? disk directories request.name with
      | none =>
        if request.isRequired then
          .error (.fileNotFound request.name)
        else
          .ok { progress with seen, queue }
      | some path => do
        let file ← File.read disk path request.name
        return { seen
                 queue := queue ++ file.imports.map fun name => { name, isRequired := false }
                 files := progress.files ++ [file] }

def rounds : Nat → Progress → Except Error Progress
  | 0, progress => .ok progress
  | count + 1, progress => progress.advance disk directories >>= rounds count

/--
The loop is left after some number of rounds, because of an error or because no request waits any
more, and the outcome is the error or the files that were read.
-/
def EndsWith (start : Progress) (outcome : Except Error (List File)) : Prop :=
  ∃ count, (∀ progress, rounds disk directories count start = .ok progress → progress.queue = [])
    ∧ (·.files) <$> rounds disk directories count start = outcome

variable {disk : Disk} {directories : List String} {progress next : Progress}

theorem advance_eq_ok {request : Request} {queue : List Request}
    (hqueue : progress.queue = request :: queue)
    (h : progress.advance disk directories = .ok next) :
    (request.name ∈ progress.seen ∧ next = { progress with queue })
    ∨ (request.name ∉ progress.seen ∧ locate? disk directories request.name = none
      ∧ request.isRequired = false
      ∧ next = { progress with seen := progress.seen ++ [request.name], queue })
    ∨ request.name ∉ progress.seen
      ∧ ∃ path file, locate? disk directories request.name = some path
        ∧ File.read disk path request.name = .ok file
        ∧ next = {
          seen := progress.seen ++ [request.name]
          queue := queue ++ file.imports.map fun name => { name, isRequired := false }
          files := progress.files ++ [file] } := by
  unfold advance at h
  rw [hqueue] at h
  dsimp only at h
  split at h
  . next hseen =>
    cases h
    exact .inl ⟨hseen, rfl⟩
  . next hseen =>
    right
    split at h
    . next hlocate =>
      split at h
      . cases h
      . next hrequired =>
        cases h
        exact .inl ⟨hseen, hlocate, by simpa using hrequired, rfl⟩
    . next path hlocate =>
      rcases bind_eq_ok_iff.1 h with ⟨file, hfile, hnext⟩
      cases hnext
      exact .inr ⟨hseen, path, file, hlocate, hfile, rfl⟩

theorem advance_eq_error {request : Request} {queue : List Request}
    (hqueue : progress.queue = request :: queue) {error : Error}
    (h : progress.advance disk directories = .error error) :
    (locate? disk directories request.name = none ∧ request.isRequired
      ∧ error = .fileNotFound request.name)
    ∨ ∃ path, locate? disk directories request.name = some path
      ∧ File.read disk path request.name = .error error := by
  unfold advance at h
  rw [hqueue] at h
  dsimp only at h
  split at h
  . cases h
  . split at h
    . next hlocate =>
      split at h
      . next hrequired =>
        cases h
        exact .inl ⟨hlocate, hrequired, rfl⟩
      . cases h
    . next path hlocate =>
      right
      refine ⟨path, hlocate, ?_⟩
      cases hfile : File.read disk path request.name with
      | error _ =>
        rw [hfile] at h
        cases h
        rfl
      | ok file =>
        rw [hfile] at h
        cases h

theorem EndsWith.done {start : Progress} (h : start.queue = []) :
    EndsWith disk directories start (.ok start.files) := by
  refine ⟨0, ?_, rfl⟩
  intro progress hprogress
  cases hprogress
  exact h

theorem EndsWith.fail {start : Progress} {error : Error}
    (h : start.advance disk directories = .error error) :
    EndsWith disk directories start (.error error) := by
  have hrounds : rounds disk directories 1 start = .error error := by
    rw [rounds, h]
    rfl
  refine ⟨1, ?_, ?_⟩
  . intro progress hprogress
    rw [hrounds] at hprogress
    cases hprogress
  . rw [hrounds]
    rfl

theorem EndsWith.step {start : Progress} {outcome : Except Error (List File)}
    (h : start.advance disk directories = .ok next)
    (hnext : EndsWith disk directories next outcome) :
    EndsWith disk directories start outcome := by
  rcases hnext with ⟨count, hqueue, houtcome⟩
  have hrounds :
      rounds disk directories (count + 1) start = rounds disk directories count next := by
    rw [rounds, h]
    rfl
  refine ⟨count + 1, ?_, ?_⟩
  . rw [hrounds]
    exact hqueue
  . rw [hrounds]
    exact houtcome

theorem advance_of_queue_eq_nil (h : progress.queue = []) :
    progress.advance disk directories = .ok progress := by
  simp only [advance, h]

theorem rounds_of_queue_eq_nil (h : progress.queue = []) (count : Nat) :
    rounds disk directories count progress = .ok progress := by
  induction count with
  | zero => rfl
  | succ count ih =>
    rw [rounds, advance_of_queue_eq_nil h]
    exact ih

theorem rounds_add (first second : Nat) (start : Progress) :
    rounds disk directories (first + second) start
      =
    rounds disk directories first start >>= rounds disk directories second := by
  induction first generalizing start with
  | zero =>
    rw [Nat.zero_add]
    rfl
  | succ first ih =>
    rw [Nat.succ_add, rounds, rounds, bind_assoc]
    exact congrArg _ (funext ih)

theorem rounds_eq_of_le {start : Progress} {count more : Nat}
    (h : ∀ progress, rounds disk directories count start = .ok progress → progress.queue = [])
    (hle : count ≤ more) :
    rounds disk directories more start = rounds disk directories count start := by
  rcases Nat.exists_eq_add_of_le hle with ⟨rest, rfl⟩
  rw [rounds_add]
  cases hrounds : rounds disk directories count start with
  | ok progress => exact rounds_of_queue_eq_nil (h progress hrounds) rest
  | error error => rfl

theorem EndsWith.unique {start : Progress} {first second : Except Error (List File)}
    (hfirst : EndsWith disk directories start first)
    (hsecond : EndsWith disk directories start second) : first = second := by
  rcases hfirst with ⟨count, hqueue, rfl⟩
  rcases hsecond with ⟨count', hqueue', rfl⟩
  rcases Nat.le_total count count' with hle | hle
  . rw [rounds_eq_of_le hqueue hle]
  . rw [rounds_eq_of_le hqueue' hle]

end Progress

/-! ### The end of the loop -/

theorem ofText_rename {name text : String} {file : File} (h : File.ofText name text = .ok file)
    (other : String) :
    File.ofText other text = .ok { file with name := other } ∧ file.name = name := by
  unfold File.ofText at h ⊢
  split at h
  . rcases bind_eq_ok_iff.1 h with ⟨dialect, hdialect, h⟩
    rcases bind_eq_ok_iff.1 h with ⟨imports, himports, h⟩
    rcases bind_eq_ok_iff.1 h with ⟨goPackage, hgoPackage, h⟩
    rcases bind_eq_ok_iff.1 h with ⟨definitions, hdefinitions, hfile⟩
    cases hfile
    refine ⟨?_, rfl⟩
    unfold Source.FileTree.toFile
    rw [hdialect, himports, hgoPackage]
    dsimp only [bind, Except.bind]
    rw [hdefinitions]
    rfl
  . cases h

theorem ofBytes_rename {name : String} {content : List UInt8} {file : File}
    (h : File.ofBytes name content = .ok file) (other : String) :
    File.ofBytes other content = .ok { file with name := other } ∧ file.name = name := by
  unfold File.ofBytes at h ⊢
  split at h
  . exact ofText_rename h other
  . cases h

theorem read_eq_ok {disk : Disk} {path name : String} {file : File}
    (h : File.read disk path name = .ok file) :
    ∃ content, disk.read? path = some content ∧ File.ofBytes name content = .ok file := by
  unfold File.read at h
  split at h
  . next content hcontent => exact ⟨content, hcontent, h⟩
  . cases h

theorem name_of_read {disk : Disk} {path name : String} {file : File}
    (h : File.read disk path name = .ok file) : file.name = name := by
  rcases read_eq_ok h with ⟨content, -, hfile⟩
  exact (ofBytes_rename hfile "").2

theorem mem_reachableNames_of_mem_imports {disk : Disk} {names : List String} {path name : String}
    {file : File} (hfile : File.read disk path name = .ok file) {other : String}
    (hother : other ∈ file.imports) :
    other ∈ reachableNames disk names := by
  rcases read_eq_ok hfile with ⟨content, hcontent, hfile⟩
  unfold reachableNames
  rw [List.mem_append, List.mem_flatMap]
  refine .inr ⟨content, disk.mem_contents path content hcontent, ?_⟩
  unfold importsOf
  rw [(ofBytes_rename hfile "").1]
  exact hother

theorem mem_without_iff {disk : Disk} {names unseen seen : List String} {name : String}
    (h : ∀ other, other ∈ unseen ↔ other ∈ reachableNames disk names ∧ other ∉ seen) :
    ∀ other, other ∈ without unseen name
      ↔ other ∈ reachableNames disk names ∧ other ∉ seen ++ [name] := by
  intro other
  simp only [without, List.mem_filter, h, List.mem_append, List.mem_singleton, not_or, ne_eq,
    decide_eq_true_eq, and_assoc]

section

variable {disk : Disk} {directories unseen seen : List String} {request : Request}
  {queue : List Request} {files : List File} {path : String}

theorem readAll_of_not_mem (h : request.name ∉ unseen) :
    readAll disk directories unseen (request :: queue)
      = readAll disk directories unseen queue := by
  rw [readAll, if_neg h]

theorem readAll_of_missing (h : request.name ∈ unseen)
    (hlocate : locate? disk directories request.name = none) :
    readAll disk directories unseen (request :: queue)
      =
    if request.isRequired then
      .error (.fileNotFound request.name)
    else
      readAll disk directories (without unseen request.name) queue := by
  rw [readAll, if_pos h]
  simp only [hlocate]

theorem readAll_of_located (h : request.name ∈ unseen)
    (hlocate : locate? disk directories request.name = some path) :
    readAll disk directories unseen (request :: queue)
      = (do
        let file ← File.read disk path request.name
        let others ← readAll disk directories (without unseen request.name)
          (queue ++ file.imports.map fun name => { name, isRequired := false })
        return file :: others) := by
  rw [readAll, if_pos h]
  simp only [hlocate]

theorem advance_of_mem (h : request.name ∈ seen) :
    Progress.advance disk directories ⟨seen, request :: queue, files⟩
      = .ok ⟨seen, queue, files⟩ :=
  if_pos h

theorem advance_of_missing (h : request.name ∉ seen)
    (hlocate : locate? disk directories request.name = none) :
    Progress.advance disk directories ⟨seen, request :: queue, files⟩
      =
    if request.isRequired then
      .error (.fileNotFound request.name)
    else
      .ok ⟨seen ++ [request.name], queue, files⟩ := by
  refine (if_neg h).trans ?_
  simp only [hlocate]

theorem advance_of_located (h : request.name ∉ seen)
    (hlocate : locate? disk directories request.name = some path) :
    Progress.advance disk directories ⟨seen, request :: queue, files⟩
      = (do
        let file ← File.read disk path request.name
        return ⟨seen ++ [request.name],
          queue ++ file.imports.map fun name => { name, isRequired := false },
          files ++ [file]⟩) := by
  refine (if_neg h).trans ?_
  simp only [hlocate]

theorem append_map_cons (file : File) (outcome : Except Error (List File)) :
    (files ++ ·) <$> (outcome >>= fun others => return file :: others)
      = (files ++ [file] ++ ·) <$> outcome := by
  cases outcome with
  | ok others => exact congrArg Except.ok (List.append_cons files file others)
  | error error => rfl

end

theorem endsWith_readAll {disk : Disk} {directories names : List String} (unseen : List String)
    (queue : List Request) {seen : List String} {files : List File}
    (hunseen : ∀ name, name ∈ unseen ↔ name ∈ reachableNames disk names ∧ name ∉ seen)
    (hqueue : ∀ request ∈ queue, request.name ∈ reachableNames disk names) :
    Progress.EndsWith disk directories { seen, queue, files }
      ((files ++ ·) <$> readAll disk directories unseen queue) := by
  -- The loop ends, and the names that can come up on the disk are all that it takes to follow it.
  induction unseen, queue using readAll.induct disk directories generalizing seen files with
  | case1 unseen =>
    have hoff : (files ++ ·) <$> readAll disk directories unseen [] = .ok files := by
      rw [readAll]
      exact congrArg Except.ok (List.append_nil files)
    rw [hoff]
    exact .done rfl
  | case2 unseen request queue hmem hlocate hrequired =>
    have hnew : request.name ∉ seen := ((hunseen request.name).1 hmem).2
    rw [readAll_of_missing hmem hlocate, if_pos hrequired]
    apply Progress.EndsWith.fail
    rw [advance_of_missing hnew hlocate, if_pos hrequired]
  | case3 unseen request queue hmem _ hlocate hrequired =>
    rename_i ih
    have hnew : request.name ∉ seen := ((hunseen request.name).1 hmem).2
    have hadvance : Progress.advance disk directories ⟨seen, request :: queue, files⟩ = _ :=
      advance_of_missing hnew hlocate
    rw [if_neg hrequired] at hadvance
    rw [readAll_of_missing hmem hlocate, if_neg hrequired]
    exact .step hadvance (ih (mem_without_iff hunseen) (List.forall_mem_cons.1 hqueue).2)
  | case4 unseen request queue hmem _ path hlocate =>
    rename_i ih
    have hnew : request.name ∉ seen := ((hunseen request.name).1 hmem).2
    have hadvance : Progress.advance disk directories ⟨seen, request :: queue, files⟩ = _ :=
      advance_of_located hnew hlocate
    rw [readAll_of_located hmem hlocate]
    cases hfile : File.read disk path request.name with
    | error error =>
      rw [hfile] at hadvance
      exact .fail hadvance
    | ok file =>
      rw [hfile] at hadvance
      apply Progress.EndsWith.step hadvance
      change Progress.EndsWith _ _ _ ((files ++ ·) <$> (_ >>= fun others => return file :: others))
      rw [append_map_cons]
      apply ih file (mem_without_iff hunseen)
      rw [List.forall_mem_append]
      refine ⟨(List.forall_mem_cons.1 hqueue).2, ?_⟩
      intro imported himported
      rcases List.mem_map.1 himported with ⟨other, hother, rfl⟩
      exact mem_reachableNames_of_mem_imports hfile hother
  | case5 unseen request queue hmem ih =>
    rcases List.forall_mem_cons.1 hqueue with ⟨hrequest, hqueue⟩
    have hseen : request.name ∈ seen := by
      by_contra hnew
      exact hmem ((hunseen request.name).2 ⟨hrequest, hnew⟩)
    rw [readAll_of_not_mem hmem]
    exact .step (advance_of_mem hseen) (ih hunseen hqueue)

end Registry

end HessianGo
