import HessianGo.Proofs.Progress
import HessianGo.Proofs.Source.Escape
import HessianGo.Proofs.Source.Token

/-!
This module contains the trivia between tokens and the inside of string literals as repetitions of
smaller readers. Each of these readers takes a character, and the repetitions read what the scans of
the text read.
-/

namespace HessianGo

namespace Source

open Reader

variable {n bound : Nat}

/-! ### Trivia -/

def insideComment (w : List Char) : Reader Char := do
  let _ ← without (literal w)
  char fun _ => true

def upTo (w : List Char) (bound : Nat) : Reader (List Char) :=
  many (insideComment w) bound

def comment (bound : Nat) : Reader Unit :=
  (do
    let _ ← literal ['/', '/']
    let _ ← upTo ['\n'] bound)
  <|> (do
    let _ ← literal ['/', '*']
    let _ ← upTo ['*', '/'] bound
    let _ ← literal ['*', '/'])

def spacedComment (bound : Nat) : Reader (List Char) := do
  let _ ← comment bound
  many (char isSpace) bound

def trivia (bound : Nat) : Reader Unit := do
  let _ ← many (char isSpace) bound
  let _ ← many (spacedComment bound) bound

section

variable {w s : List Char}

theorem without_of_isPrefix (h : w <+: s) : without (literal w) s = .mismatch := by
  rcases h with ⟨rest, rfl⟩
  unfold without
  rw [literal_append]

theorem without_of_not_isPrefix (h : ¬w <+: s) : without (literal w) s = .ok () s := by
  unfold without
  rw [literal_eq_mismatch h]

theorem upTo_of_isPrefix (h : w <+: s) : upTo w (bound + 1) s = .ok [] s :=
  many_of_mismatch (Reader.bind_eq_of_mismatch (without_of_isPrefix h))

theorem upTo_nil (h : w ≠ []) : upTo w (bound + 1) [] = .ok [] [] :=
  many_of_mismatch (Reader.bind_eq_of_ok (without_of_not_isPrefix (by simpa using h)))

theorem upTo_cons {c : Char} (h : ¬w <+: c :: s) :
    upTo w (bound + 1) (c :: s) = (upTo w bound s).map (c :: ·) :=
  many_of_ok (Reader.bind_eq_of_ok (without_of_not_isPrefix h))

end

theorem exists_upTo_lineEnd {s : List Char} (hs : s.length < bound) :
    ∃ taken rest, upTo ['\n'] bound s = .ok taken rest ∧ rest.length ≤ s.length
      ∧ skipTrivia.go .inLine s = skipTrivia rest := by
  induction s generalizing bound with
  | nil =>
    obtain ⟨bound, rfl⟩ := Nat.exists_eq_add_one.2 hs
    exact ⟨[], [], upTo_nil (by simp), Nat.le_refl _, rfl⟩
  | cons c s ih =>
    obtain ⟨bound, rfl⟩ := Nat.exists_eq_add_one.2 (Nat.zero_lt_of_lt hs)
    by_cases hline : c = '\n'
    . subst hline
      exact ⟨[], _, upTo_of_isPrefix ⟨s, rfl⟩, Nat.le_refl _, rfl⟩
    . rcases ih (Nat.lt_of_succ_lt_succ hs) with ⟨taken, rest, htaken, hle, hgo⟩
      refine ⟨c :: taken, rest, ?_, Nat.le_succ_of_le hle, ?_⟩
      . rw [upTo_cons (by simpa using Ne.symm hline), htaken]
        rfl
      . rw [skipTrivia.go, if_neg hline, hgo]

theorem exists_upTo_close {s : List Char} (hs : s.length < bound) (start : List Char) :
    ∃ taken rest, upTo ['*', '/'] bound s = .ok taken rest ∧ rest.length ≤ s.length
      ∧ (rest = [] ∧ skipTrivia.go (.inBlock start) s = start
        ∨ ∃ after, rest = '*' :: '/' :: after
          ∧ skipTrivia.go (.inBlock start) s = skipTrivia after) := by
  induction s generalizing bound with
  | nil =>
    obtain ⟨bound, rfl⟩ := Nat.exists_eq_add_one.2 hs
    exact ⟨[], [], upTo_nil (by simp), Nat.le_refl _, .inl ⟨rfl, rfl⟩⟩
  | cons c s ih =>
    obtain ⟨bound, rfl⟩ := Nat.exists_eq_add_one.2 (Nat.zero_lt_of_lt hs)
    by_cases hclose : ['*', '/'] <+: c :: s
    . have hend : upTo ['*', '/'] (bound + 1) (c :: s) = .ok [] (c :: s) :=
        upTo_of_isPrefix hclose
      rcases hclose with ⟨after, hafter⟩
      rw [← hafter] at hend ⊢
      exact ⟨[], _, hend, Nat.le_refl _, .inr ⟨after, rfl, rfl⟩⟩
    . rcases ih (Nat.lt_of_succ_lt_succ hs) with ⟨taken, rest, htaken, hle, hgo⟩
      refine ⟨c :: taken, rest, ?_, Nat.le_succ_of_le hle, ?_⟩
      . rw [upTo_cons hclose, htaken]
        rfl
      . have hopen : ∀ after, c = '*' → s = '/' :: after → False := by
          rintro after rfl rfl
          exact hclose ⟨after, rfl⟩
        rw [skipTrivia.go.eq_9 _ _ _ hopen]
        exact hgo

theorem comment_outcome {s : List Char} (hs : s.length < bound)
    (hhead : ∀ c ∈ s.head?, isSpace c = false) :
    (comment bound s = .mismatch ∧ skipTrivia s = s)
      ∨ ∃ rest, comment bound s = .ok () rest ∧ rest.length < s.length
        ∧ skipTrivia s = skipTrivia rest := by
  -- Where neither a blank nor a line end stands, a comment is taken, or there is no trivia.
  by_cases hline : ['/', '/'] <+: s
  . rcases hline with ⟨t, rfl⟩
    have ht : t.length < bound := by simp at hs; omega
    rcases exists_upTo_lineEnd ht with ⟨taken, rest, htaken, hle, hgo⟩
    refine .inr ⟨rest, ?_, by simp; omega, hgo⟩
    apply Reader.orElse_eq_of_ok
    apply (Reader.bind_eq_of_ok (literal_append _ t)).trans
    exact Reader.bind_eq_of_ok htaken
  have hnoLine : ∀ {p : List Char → Reader Unit},
      (Reader.literal ['/', '/'] >>= p) s = .mismatch :=
    Reader.bind_eq_of_mismatch (literal_eq_mismatch hline)
  by_cases hblock : ['/', '*'] <+: s
  . rcases hblock with ⟨t, rfl⟩
    have ht : t.length < bound := by simp at hs; omega
    rcases exists_upTo_close ht ('/' :: '*' :: t) with ⟨taken, rest, htaken, hle, hgo⟩
    have hcomment : comment bound (['/', '*'] ++ t)
        = (Reader.literal ['*', '/'] >>= fun _ => pure ()) rest := by
      apply (Reader.orElse_eq_of_mismatch hnoLine).trans
      apply (Reader.bind_eq_of_ok (literal_append _ t)).trans
      exact Reader.bind_eq_of_ok htaken
    rcases hgo with ⟨rfl, hgo⟩ | ⟨after, rfl, hgo⟩
    . exact .inl ⟨hcomment, hgo⟩
    . refine .inr ⟨after, hcomment, ?_, hgo⟩
      simp at hle ⊢
      omega
  . refine .inl ⟨?_, ?_⟩
    . apply (Reader.orElse_eq_of_mismatch hnoLine).trans
      exact Reader.bind_eq_of_mismatch (literal_eq_mismatch hblock)
    . cases s with
      | nil => rfl
      | cons c s =>
        unfold skipTrivia
        rw [skipTrivia.go.eq_4]
        . simp [hhead c rfl]
        . rintro after rfl rfl
          exact hline ⟨after, rfl⟩
        . rintro after rfl rfl
          exact hblock ⟨after, rfl⟩

theorem skipTrivia_dropWhile (s : List Char) : skipTrivia (s.dropWhile isSpace) = skipTrivia s := by
  induction s with
  | nil => rfl
  | cons c s ih =>
    cases hc : isSpace c with
    | true =>
      rw [List.dropWhile_cons_of_pos hc, ih]
      exact (skipTrivia_append (.space hc .nil) s).symm
    | false => rw [List.dropWhile_cons_of_neg (by simp [hc])]

theorem isSpace_head_dropWhile (s : List Char) :
    ∀ c ∈ (s.dropWhile isSpace).head?, isSpace c = false := by
  intro c hc
  have hnot := List.head?_dropWhile_not isSpace s
  rw [hc] at hnot
  exact hnot

theorem exists_many_comment {rounds : Nat} {s : List Char} (hs : s.length < bound)
    (hrounds : s.length < rounds) (hhead : ∀ c ∈ s.head?, isSpace c = false) :
    ∃ taken, many (spacedComment bound) rounds s = .ok taken (skipTrivia s) := by
  induction rounds generalizing s with
  | zero => omega
  | succ rounds ih =>
    rcases comment_outcome hs hhead with ⟨hcomment, hskip⟩ | ⟨rest, hcomment, hlt, hskip⟩
    . rw [hskip]
      exact ⟨[], many_of_mismatch (Reader.bind_eq_of_mismatch hcomment)⟩
    . have hle : (rest.dropWhile isSpace).length ≤ rest.length :=
        (List.dropWhile_suffix isSpace).length_le
      rcases ih (s := rest.dropWhile isSpace) (by omega) (by omega) (isSpace_head_dropWhile rest)
        with ⟨taken, htaken⟩
      rw [skipTrivia_dropWhile, ← hskip] at htaken
      have hround : spacedComment bound s
          = .ok (rest.takeWhile isSpace) (rest.dropWhile isSpace) :=
        (Reader.bind_eq_of_ok hcomment).trans (many_char (by omega))
      exact ⟨_, (many_of_ok hround).trans (by rw [htaken]; rfl)⟩

theorem trivia_eq {s : List Char} (hs : s.length < bound) :
    trivia bound s = .ok () (skipTrivia s) := by
  have hle : (s.dropWhile isSpace).length ≤ s.length := (List.dropWhile_suffix isSpace).length_le
  have hlt : (s.dropWhile isSpace).length < bound := by omega
  rcases exists_many_comment hlt hlt (isSpace_head_dropWhile s) with ⟨taken, htaken⟩
  rw [skipTrivia_dropWhile] at htaken
  apply (Reader.bind_eq_of_ok (many_char hs)).trans
  exact Reader.bind_eq_of_ok htaken

theorem progress_insideComment (w : List Char) :
    Progress n 1 (insideComment w) (insideComment w) :=
  (Progress.literal w).without.after fun _ => .char _

theorem progress_upTo (w : List Char) (hbound : n ≤ bound) :
    Progress n 0 (upTo w bound) (upTo w bound) :=
  (progress_insideComment w).many hbound hbound

theorem progress_comment (hbound : n ≤ bound) : Progress n 1 (comment bound) (comment bound) := by
  apply Progress.orElse
  . refine (progress_word (List.cons_ne_nil _ _)).andThen fun _ => ?_
    exact (progress_upTo ['\n'] hbound).before fun _ => .pure _
  . refine (progress_word (List.cons_ne_nil _ _)).andThen fun _ => ?_
    refine (progress_upTo ['*', '/'] hbound).before fun _ => ?_
    exact (Progress.literal ['*', '/']).before fun _ => .pure _

theorem progress_spacedComment (hbound : n ≤ bound) :
    Progress n 1 (spacedComment bound) (spacedComment bound) :=
  (progress_comment hbound).andThen fun _ => (Progress.char isSpace).many hbound hbound

theorem progress_trivia (hbound : n ≤ bound) : Progress n 0 (trivia bound) (trivia bound) := by
  refine ((Progress.char isSpace).many hbound hbound).andThen fun _ => ?_
  exact ((progress_spacedComment hbound).many hbound hbound).before fun _ => .pure _

theorem progress_token {α : Type} {taken : Nat} {p q : Reader α} (h : Progress n taken p q) :
    Progress n taken (token p) (token q) := by
  have htoken (p : Reader α) (s : List Char) (hs : s.length < n) :
      token p s = (trivia n >>= fun _ => p) s := by
    rw [Reader.bind_eq_of_ok (trivia_eq hs)]
    rfl
  exact .congr (htoken p) (htoken q) ((progress_trivia (Nat.le_refl n)).after fun _ => h)

/-! ### String literals -/

def stringUnit (quote : Char) : Reader (List Char) :=
  (do
    let escape ← char (· = '\\')
    let c ← char fun _ => true
    return [escape, c])
  <|> (do
    let c ← char fun c => c ≠ quote && c ≠ '\n' && c ≠ '\\'
    return [c])

def stringUnits (quote : Char) (bound : Nat) : Reader (List Char) := do
  let units ← many (stringUnit quote) bound
  let closing ← char (· = quote)
  return units.flatten ++ [closing]

theorem stringUnits_of_ok {quote : Char} {s rest unit : List Char}
    (h : stringUnit quote s = .ok unit rest) :
    stringUnits quote (bound + 1) s = (stringUnits quote bound rest).map (unit ++ ·) := by
  have hclosing (units : List (List Char)) (after : List Char) :
      (do
        let closing ← char (· = quote)
        return (unit :: units).flatten ++ [closing] : Reader (List Char)) after
        =
      ((do
        let closing ← char (· = quote)
        return units.flatten ++ [closing] : Reader (List Char)) after).map (unit ++ ·) := by
    change andThen _ _ after = (andThen _ _ after).map _
    unfold andThen
    cases char (· = quote) after with
    | ok closing last =>
      simp only [List.flatten_cons, List.append_assoc]
      rfl
    | mismatch => rfl
    | exhausted => rfl
  change andThen _ _ s = (andThen _ _ rest).map _
  unfold andThen
  rw [many_of_ok h]
  cases many (stringUnit quote) bound rest with
  | ok units after => exact hclosing units after
  | mismatch => rfl
  | exhausted => rfl

theorem stringUnits_of_mismatch {quote : Char} {s : List Char}
    (h : stringUnit quote s = .mismatch) :
    stringUnits quote (bound + 1) s
      =
    (do
      let closing ← char (· = quote)
      return [closing] : Reader (List Char)) s :=
  Reader.bind_eq_of_ok (many_of_mismatch h)

theorem stringUnit_cons {quote c : Char} {s : List Char}
    (h : ∀ d rest, c = '\\' → s = d :: rest → False) :
    stringUnit quote (c :: s)
      =
    if c ≠ quote ∧ ¬(c = '\n' ∨ c = '\\') then .ok [c] s else .mismatch := by
  -- Where no backslash has a character behind it, only a plain character is a unit.
  refine (Reader.orElse_eq_of_mismatch ?_).trans ?_
  . by_cases hc : c = '\\'
    . cases s with
      | nil => exact (Reader.bind_eq_of_ok (char_cons (by simpa using hc) [])).trans rfl
      | cons d rest => exact (h d rest hc rfl).elim
    . exact Reader.bind_eq_of_mismatch (char_eq_mismatch (by simpa using hc) s)
  . split
    . next hplain =>
      exact Reader.bind_eq_of_ok (char_cons (by simpa [and_assoc] using hplain) s)
    . next hplain =>
      exact Reader.bind_eq_of_mismatch (char_eq_mismatch (by simpa using hplain) s)

theorem stringTailHere_eq {quote : Char} {s : List Char} (hs : s.length < bound) :
    stringTailHere quote s = stringUnits quote bound s := by
  obtain ⟨rounds, rfl⟩ := Nat.exists_eq_add_one.2 (Nat.zero_lt_of_lt hs)
  fun_induction stringTailHere quote s generalizing rounds with
  | case1 =>
    have hround : stringUnit quote [] = .mismatch := rfl
    rw [stringUnits_of_mismatch hround]
    rfl
  | case2 c s ih =>
    simp only [List.length_cons] at hs
    obtain ⟨rounds, rfl⟩ : ∃ k, rounds = k + 1 := ⟨rounds - 1, by omega⟩
    have hround : stringUnit quote ('\\' :: c :: s) = .ok ['\\', c] s := rfl
    rw [stringUnits_of_ok hround, ih rounds (by omega)]
    rfl
  | case3 s hunit =>
    rw [stringUnits_of_mismatch ((stringUnit_cons hunit).trans (if_neg fun h => h.1 rfl))]
    have hclosing : char (· = quote) (quote :: s) = .ok quote s := char_cons (by simp) s
    rw [Reader.bind_eq_of_ok hclosing]
    rfl
  | case4 c s hunit hquote hplain =>
    rw [stringUnits_of_mismatch ((stringUnit_cons hunit).trans (if_neg fun h => h.2 hplain))]
    exact (Reader.bind_eq_of_mismatch (char_eq_mismatch (decide_eq_false hquote) s)).symm
  | case5 c s hunit hquote hplain ih =>
    simp only [List.length_cons] at hs
    obtain ⟨rounds, rfl⟩ : ∃ k, rounds = k + 1 := ⟨rounds - 1, by omega⟩
    have hround : stringUnit quote (c :: s) = .ok [c] s :=
      (stringUnit_cons hunit).trans (if_pos ⟨hquote, hplain⟩)
    rw [stringUnits_of_ok hround, ih rounds (by omega)]
    rfl

theorem progress_stringUnit (quote : Char) :
    Progress n 1 (stringUnit quote) (stringUnit quote) := by
  apply Progress.orElse
  . exact (Progress.char _).andThen fun _ => (Progress.char _).before fun _ => .pure _
  . exact (Progress.char _).andThen fun _ => .pure _

theorem progress_stringTailHere (quote : Char) :
    Progress n 1 (stringTailHere quote) (stringTailHere quote) := by
  have hunits : Progress n 1 (stringUnits quote n) (stringUnits quote n) := by
    refine ((progress_stringUnit quote).many (Nat.le_refl n) (Nat.le_refl n)).after fun units => ?_
    exact (Progress.char _).andThen fun _ => .pure _
  exact .congr (fun _ => stringTailHere_eq) (fun _ => stringTailHere_eq) hunits

end Source

end HessianGo
