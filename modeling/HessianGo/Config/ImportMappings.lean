/-!
This module contains the table of import mappings: which import path a configuration gives to the
schema file of a name. The table is kept in the order of the names, so that two tables with the same
mappings are equal.
-/

namespace HessianGo

def ImportMappings.insertInto (name path : String) :
    List (String × String) → List (String × String)
  | [] => [(name, path)]
  | entry :: entries =>
    if name < entry.1 then (name, path) :: entry :: entries
    else if name = entry.1 then (name, path) :: entries
    else entry :: insertInto name path entries

theorem ImportMappings.mem_insertInto {name path : String} {entries : List (String × String)}
    {entry : String × String} (h : entry ∈ insertInto name path entries) :
    entry = (name, path) ∨ entry ∈ entries := by
  induction entries with
  | nil => simpa [insertInto] using h
  | cons first entries ih =>
    unfold insertInto at h
    split at h
    . simpa using h
    . split at h
      . rcases List.mem_cons.1 h with h | h
        . exact .inl h
        . exact .inr (List.mem_cons_of_mem _ h)
      . rcases List.mem_cons.1 h with h | h
        . exact .inr (by simp [h])
        . exact (ih h).imp id (List.mem_cons_of_mem _)

theorem ImportMappings.pairwise_insertInto (name path : String) {entries : List (String × String)}
    (h : entries.Pairwise (·.1 < ·.1)) : (insertInto name path entries).Pairwise (·.1 < ·.1) := by
  induction entries with
  | nil => simp [insertInto]
  | cons first entries ih =>
    obtain ⟨hfirst, hentries⟩ := List.pairwise_cons.1 h
    unfold insertInto
    split
    . next hlt =>
      refine List.pairwise_cons.2 ⟨?_, h⟩
      intro entry hentry
      rcases List.mem_cons.1 hentry with rfl | hentry
      . exact hlt
      . exact String.lt_trans hlt (hfirst entry hentry)
    . next hge =>
      split
      . next heq =>
        exact List.pairwise_cons.2 ⟨fun entry hentry => heq ▸ hfirst entry hentry, hentries⟩
      . next hne =>
        refine List.pairwise_cons.2 ⟨?_, ih hentries⟩
        intro entry hentry
        rcases mem_insertInto hentry with rfl | hentry
        . exact Classical.byContradiction fun hn =>
            hne (String.le_antisymm (String.not_lt.1 hn) (String.not_lt.1 hge))
        . exact hfirst entry hentry

theorem ImportMappings.pairwise_nil : ([] : List (String × String)).Pairwise (·.1 < ·.1) :=
  .nil

structure ImportMappings where
  entries : List (String × String) := []
  sorted : entries.Pairwise (·.1 < ·.1) := by exact ImportMappings.pairwise_nil

namespace ImportMappings

instance : Inhabited ImportMappings where
  default := {}

def get? (mappings : ImportMappings) (name : String) : Option String :=
  mappings.entries.lookup name

def insert (mappings : ImportMappings) (name path : String) : ImportMappings where
  entries := insertInto name path mappings.entries
  sorted := pairwise_insertInto name path mappings.sorted

end ImportMappings

end HessianGo
