import Mathlib.Data.List.Induction
import Mathlib.Data.List.Nodup

/-!
This module contains the first occurrences of the items of a list, in their order.
-/

namespace HessianGo

variable {α : Type} [BEq α] [LawfulBEq α]

theorem eraseDups_concat (items : List α) (item : α) :
    (items ++ [item]).eraseDups
      =
    if item ∈ items then items.eraseDups else items.eraseDups ++ [item] := by
  rw [List.eraseDups_append]
  split
  . next hmem => simp [List.removeAll, hmem]
  . next hmem => simp [List.removeAll, hmem, List.eraseDups_cons]

theorem nodup_eraseDups (items : List α) : items.eraseDups.Nodup := by
  induction items using List.reverseRecOn with
  | nil => simp
  | append_singleton items item ih =>
    rw [eraseDups_concat]
    split
    . exact ih
    . next hmem =>
      apply ih.append (List.nodup_singleton item)
      simpa using hmem

theorem pairwise_eraseDups (items : List α) :
    items.eraseDups.Pairwise fun first second =>
      ∀ before, before <+: items → second ∈ before → first ∈ before := by
  induction items using List.reverseRecOn with
  | nil => simp
  | append_singleton items item ih =>
    have hold : items.eraseDups.Pairwise fun first second =>
        ∀ before, before <+: items ++ [item] → second ∈ before → first ∈ before := by
      apply ih.imp_of_mem
      intro first second hfirst _ h before hbefore hsecond
      rcases List.prefix_concat_iff.1 hbefore with rfl | hbefore
      . simp [List.mem_eraseDups.1 hfirst]
      . exact h before hbefore hsecond
    rw [eraseDups_concat]
    split
    . exact hold
    . next hmem =>
      rw [List.pairwise_append]
      refine ⟨hold, List.pairwise_singleton _ _, ?_⟩
      intro first hfirst second hsecond before hbefore hin
      rw [List.mem_singleton.1 hsecond] at hin
      rcases List.prefix_concat_iff.1 hbefore with rfl | hbefore
      . simp [List.mem_eraseDups.1 hfirst]
      . exact absurd (hbefore.subset hin) hmem

end HessianGo
