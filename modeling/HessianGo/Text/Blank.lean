/-!
This module contains the characters with the Unicode property `White_Space` and the removal of such
characters around a text.
-/

namespace HessianGo

namespace Text

def isBlank (c : Char) : Bool :=
  let n := c.toNat
  (0x09 ≤ n && n ≤ 0x0d) || n == 0x20 || n == 0x85 || n == 0xa0 || n == 0x1680
    || (0x2000 ≤ n && n ≤ 0x200a) || n == 0x2028 || n == 0x2029 || n == 0x202f || n == 0x205f
    || n == 0x3000

def trimEnd (s : List Char) : List Char :=
  (s.reverse.dropWhile isBlank).reverse

def trim (s : List Char) : List Char :=
  trimEnd (s.dropWhile isBlank)

theorem trimEnd_append {s after : List Char} (hafter : ∀ c ∈ after, isBlank c)
    (hlast : ∀ c ∈ s.getLast?, isBlank c = false) : trimEnd (s ++ after) = s := by
  have hreverse : ∀ c ∈ s.reverse.head?, isBlank c = false := by simpa using hlast
  unfold trimEnd
  rw [List.reverse_append, List.dropWhile_append_of_pos (by simpa using hafter)]
  cases hs : s.reverse with
  | nil => simpa using hs.symm
  | cons c t =>
    rw [hs] at hreverse
    rw [List.dropWhile_cons_of_neg (by simp [hreverse c rfl]), ← hs, List.reverse_reverse]

theorem trim_append {before s after : List Char} (hbefore : ∀ c ∈ before, isBlank c)
    (hafter : ∀ c ∈ after, isBlank c) (hhead : ∀ c ∈ s.head?, isBlank c = false)
    (hlast : ∀ c ∈ s.getLast?, isBlank c = false) : trim (before ++ s ++ after) = s := by
  unfold trim
  rw [List.append_assoc, List.dropWhile_append_of_pos hbefore]
  cases s with
  | nil =>
    have hall : (after ++ []).dropWhile isBlank = [] := List.dropWhile_append_of_pos hafter
    rw [List.append_nil] at hall
    rw [List.nil_append, hall]
    rfl
  | cons c s =>
    rw [List.cons_append, List.dropWhile_cons_of_neg (by simp [hhead c rfl]), ← List.cons_append]
    exact trimEnd_append hafter hlast

end Text

end HessianGo
