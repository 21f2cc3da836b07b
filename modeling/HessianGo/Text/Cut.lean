/-!
This module contains the ways a text is cut at a separating character: at its first occurrence, at
its last one and at every one of them. Each way works on the characters of a text; the functions on
`String` only convert.
-/

namespace HessianGo

namespace Text

def cutFirst (sep : Char) : List Char → Option (List Char × List Char)
  | [] => none
  | c :: s =>
    if c = sep then
      some ([], s)
    else
      (cutFirst sep s).map fun (before, after) => (c :: before, after)

def cutLast (sep : Char) : List Char → Option (List Char × List Char)
  | [] => none
  | c :: s =>
    match cutLast sep s with
    | some (before, after) => some (c :: before, after)
    | none => if c = sep then some ([], s) else none

def pieces.go (sep : Char) : List Char → List Char × List (List Char)
  | [] => ([], [])
  | c :: s =>
    let (piece, others) := go sep s
    if c = sep then
      ([], piece :: others)
    else
      (c :: piece, others)

/--
The pieces of a text cut at every `sep`. A text without `sep` is its own only piece, so the empty
text has one empty piece.
-/
def pieces (sep : Char) (s : List Char) : List (List Char) :=
  let (piece, others) := pieces.go sep s
  piece :: others

def lastPiece (sep : Char) (s : List Char) : List Char :=
  match cutLast sep s with
  | some (_, after) => after
  | none => s

theorem cutFirst_eq_some {sep : Char} {s before after : List Char}
    (h : cutFirst sep s = some (before, after)) : s = before ++ sep :: after ∧ sep ∉ before := by
  induction s generalizing before with
  | nil => simp [cutFirst] at h
  | cons c s ih =>
    by_cases hc : c = sep
    . simp [cutFirst, hc] at h
      obtain ⟨rfl, rfl⟩ := h
      simp [hc]
    . simp only [cutFirst, hc, ↓reduceIte, Option.map_eq_some_iff, Prod.exists, Prod.mk.injEq] at h
      obtain ⟨b, a, hcut, rfl, rfl⟩ := h
      obtain ⟨hs, hmem⟩ := ih hcut
      exact ⟨by simp [hs], by simp [hmem, Ne.symm hc]⟩

theorem cutFirst_eq_none_iff {sep : Char} {s : List Char} :
    cutFirst sep s = none ↔ sep ∉ s := by
  induction s with
  | nil => simp [cutFirst]
  | cons c s ih =>
    by_cases hc : c = sep
    . simp [cutFirst, hc]
    . simp [cutFirst, hc, ih, Ne.symm hc]

theorem cutFirst_append {sep : Char} {before : List Char} (h : sep ∉ before) (after : List Char) :
    cutFirst sep (before ++ sep :: after) = some (before, after) := by
  induction before with
  | nil => simp [cutFirst]
  | cons c before ih =>
    simp only [List.mem_cons, not_or] at h
    simp [cutFirst, Ne.symm h.1, ih h.2]

theorem cutFirst_of_mem {sep : Char} {s : List Char} (h : sep ∈ s) :
    cutFirst sep s = some (s.takeWhile (· ≠ sep), (s.dropWhile (· ≠ sep)).tail) := by
  induction s with
  | nil => simp at h
  | cons c s ih =>
    by_cases hc : c = sep
    . simp [cutFirst, hc]
    . have hmem : sep ∈ s := (List.mem_cons.1 h).resolve_left (Ne.symm hc)
      simp [cutFirst, hc, ih hmem]

theorem cutLast_eq_none_iff {sep : Char} {s : List Char} :
    cutLast sep s = none ↔ sep ∉ s := by
  induction s with
  | nil => simp [cutLast]
  | cons c s ih =>
    unfold cutLast
    split
    . next heq =>
      have : sep ∈ s := Classical.byContradiction fun hn => by simp [ih.2 hn] at heq
      simp [this]
    . next heq =>
      by_cases hc : c = sep
      . simp [hc]
      . simp [hc, ih.1 heq, Ne.symm hc]

theorem cutLast_eq_some {sep : Char} {s before after : List Char}
    (h : cutLast sep s = some (before, after)) : s = before ++ sep :: after ∧ sep ∉ after := by
  induction s generalizing before with
  | nil => simp [cutLast] at h
  | cons c s ih =>
    unfold cutLast at h
    split at h
    . next heq =>
      simp only [Option.some.injEq, Prod.mk.injEq] at h
      obtain ⟨rfl, rfl⟩ := h
      obtain ⟨hs, hmem⟩ := ih heq
      exact ⟨by simp [hs], hmem⟩
    . next heq =>
      by_cases hc : c = sep
      . simp only [hc, ↓reduceIte, Option.some.injEq, Prod.mk.injEq] at h
        obtain ⟨rfl, rfl⟩ := h
        exact ⟨by simp [hc], cutLast_eq_none_iff.1 heq⟩
      . simp [hc] at h

theorem cutLast_append {sep : Char} {after : List Char} (h : sep ∉ after) (before : List Char) :
    cutLast sep (before ++ sep :: after) = some (before, after) := by
  induction before with
  | nil => simp [cutLast, cutLast_eq_none_iff.2 h]
  | cons c before ih => simp [cutLast, ih]

theorem pieces_eq_splitOn (sep : Char) (s : List Char) : pieces sep s = s.splitOn sep := by
  induction s with
  | nil => simp [pieces, pieces.go]
  | cons c s ih =>
    rw [pieces] at ih
    rw [pieces, pieces.go, List.splitOn_eq_splitOnP, List.splitOnP_cons_eq_if_modifyHead,
      ← List.splitOn_eq_splitOnP, ← ih]
    by_cases hc : c = sep
    . simp [hc]
    . simp [hc]

theorem pieces_append_cons (sep : Char) (s t : List Char) :
    pieces sep (s ++ sep :: t) = pieces sep s ++ pieces sep t := by
  simp only [pieces_eq_splitOn, List.splitOn_eq_splitOnP]
  apply List.splitOnP_append_cons
  simp

theorem pieces_append_replicate (sep : Char) (s : List Char) (n : Nat) :
    pieces sep (s ++ List.replicate n sep) = pieces sep s ++ List.replicate n [] := by
  induction n with
  | zero => simp
  | succ n ih =>
    have hempty : pieces sep [] = [[]] := rfl
    rw [List.replicate_succ', ← List.append_assoc, pieces_append_cons, ih, hempty,
      List.append_assoc, ← List.replicate_succ']

theorem pieces_intercalate {sep : Char} {items : List (List Char)}
    (h : ∀ item ∈ items, sep ∉ item) (hne : items ≠ []) :
    pieces sep ([sep].intercalate items) = items := by
  rw [pieces_eq_splitOn]
  exact List.splitOn_intercalate sep h hne

theorem pieces_of_not_mem {sep : Char} {s : List Char} (h : sep ∉ s) : pieces sep s = [s] := by
  have hpieces := @pieces_intercalate sep [s] (by simpa using h) (by simp)
  simpa using hpieces

end Text

end HessianGo
