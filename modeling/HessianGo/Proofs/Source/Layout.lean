import HessianGo.Proofs.Reader
import HessianGo.Source.Token
import Mathlib.Data.List.Infix

/-!
This module contains texts as tokens with trivia between them, and what readers make of such texts:
a reader either takes some tokens off the front and leaves a text of the other tokens, or does not
match. Both facts are about all texts of the tokens at once.
-/

namespace HessianGo

namespace Source

-- With these, `decide` looks only at the characters of the text, also where there is an instance
-- that goes through all characters there are.
instance decidableForallMemChars (s : List Char) (P : Char → Prop) [DecidablePred P] :
    Decidable (∀ c ∈ s, P c) :=
  List.decidableBAll P s

instance decidableForallMemChar? (c? : Option Char) (P : Char → Prop) [DecidablePred P] :
    Decidable (∀ c ∈ c?, P c) :=
  c?.decidableForallMem

/-! ### Trivia -/

inductive IsTrivia : List Char → Prop where
  | nil : IsTrivia []
  | space {c : Char} {s : List Char} : isSpace c → IsTrivia s → IsTrivia (c :: s)
  | lineComment {comment s : List Char} :
    '\n' ∉ comment → IsTrivia s → IsTrivia ('/' :: '/' :: (comment ++ '\n' :: s))
  | blockComment {comment s : List Char} :
    ¬['*', '/'] <:+: comment → IsTrivia s → IsTrivia ('/' :: '*' :: (comment ++ '*' :: '/' :: s))

theorem skipTrivia.go_inLine {comment : List Char} (h : '\n' ∉ comment) (s : List Char) :
    go .inLine (comment ++ '\n' :: s) = go .between s := by
  induction comment with
  | nil => rfl
  | cons c comment ih =>
    simp only [List.mem_cons, not_or] at h
    rw [List.cons_append, go, if_neg (Ne.symm h.1)]
    exact ih h.2

theorem skipTrivia.go_inBlock {comment : List Char} (h : ¬['*', '/'] <:+: comment)
    (start s : List Char) : go (.inBlock start) (comment ++ '*' :: '/' :: s) = go .between s := by
  induction comment with
  | nil => rfl
  | cons c comment ih =>
    have hopen : ∀ rest, c = '*' → comment ++ '*' :: '/' :: s = '/' :: rest → False := by
      rintro rest rfl hrest
      cases comment with
      | nil => simp at hrest
      | cons d comment =>
        simp only [List.cons_append, List.cons.injEq] at hrest
        rw [hrest.1] at h
        exact h ⟨[], comment, rfl⟩
    rw [List.cons_append, go.eq_9 _ _ _ hopen]
    exact ih fun hin => h (hin.trans (List.suffix_cons c comment).isInfix)

theorem skipTrivia_append {gap : List Char} (h : IsTrivia gap) (s : List Char) :
    skipTrivia (gap ++ s) = skipTrivia s := by
  induction h with
  | nil => rfl
  | @space c gap hc _ ih =>
    simp only [isSpace, Bool.or_eq_true, decide_eq_true_eq] at hc
    rcases hc with ((rfl | rfl) | rfl) | rfl
    all_goals exact ih
  | lineComment hcomment _ ih =>
    simp only [List.cons_append, List.append_assoc]
    exact (skipTrivia.go_inLine hcomment _).trans ih
  | blockComment hcomment _ ih =>
    simp only [List.cons_append, List.append_assoc]
    exact (skipTrivia.go_inBlock hcomment _ _).trans ih

theorem skipTrivia_cons {c : Char} (hspace : isSpace c = false) (hslash : c ≠ '/') (s : List Char) :
    skipTrivia (c :: s) = c :: s := by
  unfold skipTrivia
  rw [skipTrivia.go.eq_4]
  . simp [hspace]
  . intro _ hc
    exact absurd hc hslash
  . intro _ hc
    exact absurd hc hslash

/-! ### Tokens with trivia between them -/

def IsToken (token : String) : Prop :=
  ∃ c s, token.toList = c :: s ∧ isSpace c = false ∧ c ≠ '/'

/--
A text that ends in a character of a dotted name is not followed by another such character.
-/
def Apart (before after : List Char) : Prop :=
  ∀ c ∈ before.getLast?, isPathChar c → ∀ d ∈ after.head?, isPathChar d = false

/--
`LaidOut tokens s`: the text `s` has these tokens and trivia around and between them. Where two
words meet there must be trivia between them, elsewhere there may be none.
-/
inductive LaidOut : List String → List Char → Prop where
  | nil {gap : List Char} : IsTrivia gap → LaidOut [] gap
  | cons {gap s : List Char} {token : String} {tokens : List String} :
    IsTrivia gap → IsToken token → Apart token.toList s → LaidOut tokens s →
      LaidOut (token :: tokens) (gap ++ (token.toList ++ s))

theorem IsToken.skipTrivia_append {token : String} (h : IsToken token) (s : List Char) :
    skipTrivia (token.toList ++ s) = token.toList ++ s := by
  rcases h with ⟨c, cs, hc, hspace, hslash⟩
  rw [hc, List.cons_append, skipTrivia_cons hspace hslash]

theorem LaidOut.skipTrivia_nil {s : List Char} (h : LaidOut [] s) : skipTrivia s = [] := by
  cases h with
  | nil hgap =>
    rw [← List.append_nil s, skipTrivia_append hgap]
    rfl

theorem LaidOut.skipTrivia_cons {token : String} {tokens : List String} {s : List Char}
    (h : LaidOut (token :: tokens) s) :
    IsToken token
      ∧ ∃ rest, skipTrivia s = token.toList ++ rest
        ∧ Apart token.toList rest
        ∧ LaidOut tokens rest
        ∧ token.toList.length + rest.length ≤ s.length := by
  cases h with
  | @cons gap rest _ _ hgap htoken hapart hrest =>
    refine ⟨htoken, rest, ?_, hapart, hrest, by simp⟩
    rw [skipTrivia_append hgap, htoken.skipTrivia_append]

theorem IsToken.length_pos {token : String} (h : IsToken token) : 0 < token.toList.length := by
  rcases h with ⟨c, s, hc, -, -⟩
  rw [hc]
  simp

theorem LaidOut.length_le {tokens : List String} {s : List Char} (h : LaidOut tokens s) :
    tokens.length ≤ s.length := by
  induction h with
  | nil _ => simp
  | cons _ htoken _ _ ih =>
    have := htoken.length_pos
    simp only [List.length_cons, List.length_append]
    omega

theorem Apart.of_append {first second after : List Char} (hsecond : second ≠ [])
    (h : Apart (first ++ second) after) : Apart second after := by
  intro c hc
  apply h c
  rw [List.getLast?_append_of_ne_nil _ hsecond]
  exact hc

instance (token : String) : Decidable (IsToken token) :=
  match h : token.toList with
  | [] => isFalse (by rintro ⟨c, s, hc, -⟩; rw [h] at hc; cases hc)
  | c :: s =>
    decidable_of_iff (isSpace c = false ∧ c ≠ '/') (by
      constructor
      . exact fun hc => ⟨c, s, h, hc⟩
      . rintro ⟨d, t, hd, hc⟩
        rw [h] at hd
        cases hd
        exact hc)

theorem IsTrivia.isPathChar_head {gap : List Char} (h : IsTrivia gap) :
    ∀ c ∈ gap.head?, isPathChar c = false := by
  cases h with
  | nil => simp
  | @space c gap hc _ =>
    simp only [isSpace, Bool.or_eq_true, decide_eq_true_eq] at hc
    rcases hc with ((rfl | rfl) | rfl) | rfl
    all_goals simp; decide
  | lineComment _ _ => simp; decide
  | blockComment _ _ => simp; decide

theorem laidOut_of_pieces {pieces : List (String × List Char)} {gap : List Char}
    (hgap : IsTrivia gap) (htokens : ∀ piece ∈ pieces, IsToken piece.1)
    (htrivia : ∀ piece ∈ pieces, IsTrivia piece.2) (hne : ∀ piece ∈ pieces.dropLast, piece.2 ≠ []) :
    LaidOut (pieces.map Prod.fst)
      (gap ++ pieces.flatMap fun piece => piece.1.toList ++ piece.2) := by
  induction pieces generalizing gap with
  | nil =>
    rw [List.flatMap_nil, List.append_nil]
    exact .nil hgap
  | cons piece pieces ih =>
    simp only [List.mem_cons, forall_eq_or_imp] at htokens htrivia
    rw [List.map_cons, List.flatMap_cons, List.append_assoc]
    apply LaidOut.cons hgap htokens.1
    . intro c _ _ d hd
      apply htrivia.1.isPathChar_head
      cases pieces with
      | nil => simpa using hd
      | cons next pieces =>
        rwa [List.head?_append_of_ne_nil _ (hne piece (by simp))] at hd
    . apply ih htrivia.1 htokens.2 htrivia.2
      intro other hother
      apply hne
      cases pieces with
      | nil => cases hother
      | cons next pieces => exact List.mem_cons_of_mem _ hother

theorem laidOut_blanks {tokens : List String} (h : ∀ token ∈ tokens, IsToken token) :
    LaidOut tokens (tokens.flatMap fun token => token.toList ++ [' ']) := by
  have hpieces : ∀ piece ∈ tokens.map (·, [' ']), IsToken piece.1 ∧ piece.2 = [' '] := by
    simpa using h
  have hlaid : LaidOut ((tokens.map (·, [' '])).map Prod.fst)
      ([] ++ (tokens.map (·, [' '])).flatMap fun piece => piece.1.toList ++ piece.2) := by
    apply laidOut_of_pieces .nil
    . exact fun piece hpiece => (hpieces piece hpiece).1
    . intro piece hpiece
      rw [(hpieces piece hpiece).2]
      exact .space rfl .nil
    . intro piece hpiece
      rw [(hpieces piece (List.mem_of_mem_dropLast hpiece)).2]
      simp
  simpa [List.flatMap_map, Function.comp_def] using hlaid

/-! ### Readers of tokens -/

variable {α β : Type} {n m : Nat}

/--
From every text of the tokens that is shorter than `n`, the reader takes the value and leaves a text
of the tokens `rest`.
-/
structure Reads (n : Nat) (p : Reader α) (tokens rest : List String) (value : α) : Prop where
  length_le : rest.length ≤ tokens.length
  exists_eq_ok : ∀ {s}, LaidOut tokens s → s.length < n →
    ∃ after, p s = .ok value after ∧ LaidOut rest after
      -- Each token that is gone takes at least one character with it.
      ∧ after.length + tokens.length ≤ s.length + rest.length

/--
The reader matches no text of the tokens that is shorter than `n`.
-/
structure Fails (n : Nat) (p : Reader α) (tokens : List String) : Prop where
  eq_mismatch : ∀ {s}, LaidOut tokens s → s.length < n → p s = .mismatch

theorem Fails.mono {p : Reader α} {tokens : List String} (h : Fails n p tokens) (hle : m ≤ n) :
    Fails m p tokens where
  eq_mismatch hlaid hlt := h.eq_mismatch hlaid (by omega)

namespace Reads

variable {p q : Reader α} {f : α → Reader β} {tokens between rest : List String} {value : α}
  {result : β}

theorem mono (h : Reads n p tokens rest value) (hle : m ≤ n) : Reads m p tokens rest value where
  length_le := h.length_le
  exists_eq_ok hlaid hlt := h.exists_eq_ok hlaid (by omega)

theorem of_length_lt (hle : rest.length ≤ tokens.length)
    (h : tokens.length < n → Reads n p tokens rest value) : Reads n p tokens rest value where
  length_le := hle
  exists_eq_ok hlaid hlt := (h (by have := hlaid.length_le; omega)).exists_eq_ok hlaid hlt

theorem pure (value : α) : Reads n (Pure.pure value) tokens tokens value where
  length_le := le_refl _
  exists_eq_ok {s} hlaid _ := ⟨s, rfl, hlaid, le_refl _⟩

-- The tokens that are gone make room for a smaller bound on what follows.
theorem bindWithin (hp : Reads n p tokens between value)
    (hf : Reads m (f value) between rest result)
    (hbound : n + between.length ≤ m + tokens.length) :
    Reads n (p >>= f) tokens rest result where
  length_le := hf.length_le.trans hp.length_le
  exists_eq_ok {s} hlaid hlt := by
    rcases hp.exists_eq_ok hlaid hlt with ⟨middle, hmiddle, hlaidMiddle, hle⟩
    rcases hf.exists_eq_ok hlaidMiddle (by omega) with ⟨after, hafter, hlaidAfter, hle'⟩
    refine ⟨after, ?_, hlaidAfter, by omega⟩
    rw [Reader.bind_eq_of_ok hmiddle]
    exact hafter

theorem bind (hp : Reads n p tokens between value) (hf : Reads n (f value) between rest result) :
    Reads n (p >>= f) tokens rest result :=
  hp.bindWithin hf (Nat.add_le_add_left hp.length_le n)

theorem map (g : α → β) (hp : Reads n p tokens rest value) :
    Reads n (g <$> p) tokens rest (g value) := by
  change Reads n (p >>= fun value => Pure.pure (g value)) tokens rest (g value)
  exact hp.bind (.pure _)

theorem orElse_left (hp : Reads n p tokens rest value) :
    Reads n (p <|> q) tokens rest value where
  length_le := hp.length_le
  exists_eq_ok {s} hlaid hlt := by
    rcases hp.exists_eq_ok hlaid hlt with ⟨after, hafter, hrest⟩
    exact ⟨after, Reader.orElse_eq_of_ok hafter, hrest⟩

theorem orElse_right (hp : Fails n p tokens) (hq : Reads n q tokens rest value) :
    Reads n (p <|> q) tokens rest value where
  length_le := hq.length_le
  exists_eq_ok {s} hlaid hlt := by
    rcases hq.exists_eq_ok hlaid hlt with ⟨after, hafter, hrest⟩
    refine ⟨after, ?_, hrest⟩
    rw [Reader.orElse_eq_of_mismatch (hp.eq_mismatch hlaid hlt)]
    exact hafter

theorem maybe_some (hp : Reads n p tokens rest value) :
    Reads n (Reader.maybe p) tokens rest (some value) :=
  (hp.map some).orElse_left

end Reads

namespace Fails

variable {p q : Reader α} {f : α → Reader β} {tokens between : List String} {value : α}

theorem bind (hp : Fails n p tokens) : Fails n (p >>= f) tokens where
  eq_mismatch hlaid hlt := Reader.bind_eq_of_mismatch (hp.eq_mismatch hlaid hlt)

theorem bind_right (hp : Reads n p tokens between value) (hf : Fails n (f value) between) :
    Fails n (p >>= f) tokens where
  eq_mismatch {s} hlaid hlt := by
    rcases hp.exists_eq_ok hlaid hlt with ⟨middle, hmiddle, hlaidMiddle, hle⟩
    have := hp.length_le
    rw [Reader.bind_eq_of_ok hmiddle]
    exact hf.eq_mismatch hlaidMiddle (by omega)

theorem map (g : α → β) (hp : Fails n p tokens) : Fails n (g <$> p) tokens := by
  change Fails n (p >>= fun value => Pure.pure (g value)) tokens
  exact hp.bind

theorem orElse (hp : Fails n p tokens) (hq : Fails n q tokens) : Fails n (p <|> q) tokens where
  eq_mismatch hlaid hlt := by
    rw [Reader.orElse_eq_of_mismatch (hp.eq_mismatch hlaid hlt)]
    exact hq.eq_mismatch hlaid hlt

theorem firstOf {ps : List (Reader α)} (h : ∀ p ∈ ps, Fails n p tokens) :
    Fails n (Reader.firstOf ps) tokens := by
  induction ps with
  | nil => exact ⟨fun _ _ => rfl⟩
  | cons p ps ih => exact (h p (by simp)).orElse (ih fun q hq => h q (by simp [hq]))

theorem maybe_none (hp : Fails n p tokens) : Reads n (Reader.maybe p) tokens tokens none :=
  .orElse_right (hp.map some) (.pure none)

end Fails

/--
From every text of the tokens that is shorter than `n`, the reader takes some value and leaves a
text of the tokens `rest`, or it does not match.
-/
structure Tries (n : Nat) (p : Reader α) (tokens rest : List String) : Prop where
  eq_mismatch_or : ∀ {s}, LaidOut tokens s → s.length < n →
    p s = .mismatch
      ∨ ∃ value after, p s = .ok value after ∧ LaidOut rest after ∧ after.length ≤ s.length

namespace Tries

variable {p q : Reader α} {f : α → Reader β} {tokens between rest : List String}

theorem of_reads {value : α} (h : Reads n p tokens rest value) : Tries n p tokens rest where
  eq_mismatch_or {s} hlaid hlt := by
    rcases h.exists_eq_ok hlaid hlt with ⟨after, hafter, hrest, hle⟩
    have := h.length_le
    exact .inr ⟨value, after, hafter, hrest, by omega⟩

theorem bind (hp : Tries n p tokens between) (hf : ∀ value, Tries n (f value) between rest) :
    Tries n (p >>= f) tokens rest where
  eq_mismatch_or {s} hlaid hlt := by
    rcases hp.eq_mismatch_or hlaid hlt with hmismatch | ⟨value, middle, hmiddle, hlaidMiddle, hle⟩
    . exact .inl (Reader.bind_eq_of_mismatch hmismatch)
    . rw [Reader.bind_eq_of_ok hmiddle]
      rcases (hf value).eq_mismatch_or hlaidMiddle (by omega)
        with hmismatch | ⟨result, after, hafter, hrest, hle'⟩
      . exact .inl hmismatch
      . exact .inr ⟨result, after, hafter, hrest, by omega⟩

theorem fails_bind (hp : Tries n p tokens between) (hf : ∀ value, Fails n (f value) between) :
    Fails n (p >>= f) tokens where
  eq_mismatch {s} hlaid hlt := by
    rcases hp.eq_mismatch_or hlaid hlt with hmismatch | ⟨value, middle, hmiddle, hlaidMiddle, hle⟩
    . exact Reader.bind_eq_of_mismatch hmismatch
    . rw [Reader.bind_eq_of_ok hmiddle]
      exact (hf value).eq_mismatch hlaidMiddle (by omega)

theorem orElse_right (hp : Fails n p tokens) (hq : Tries n q tokens rest) :
    Tries n (p <|> q) tokens rest where
  eq_mismatch_or {s} hlaid hlt := by
    rw [Reader.orElse_eq_of_mismatch (hp.eq_mismatch hlaid hlt)]
    exact hq.eq_mismatch_or hlaid hlt

end Tries

theorem Fails.many_nil {p : Reader α} {tokens : List String} {bound : Nat} (h : Fails n p tokens)
    (hbound : n ≤ bound) : Reads n (Reader.many p bound) tokens tokens [] where
  length_le := le_refl _
  exists_eq_ok {s} hlaid hlt := by
    refine ⟨s, ?_, hlaid, le_refl _⟩
    obtain ⟨bound, rfl⟩ : ∃ k, bound = k + 1 := ⟨bound - 1, by omega⟩
    unfold Reader.many
    rw [h.eq_mismatch hlaid hlt]

/--
A repetition reads the items one by one. What follows an item may matter to it, so `Follows` says
what the tokens after an item are like.
-/
theorem Reads.manyBefore {ι : Type} {p : Reader α} {items : List ι} {tokens : ι → List String}
    {value : ι → α} {rest : List String} {bound : Nat} (Follows : List String → Prop)
    (hitem : ∀ item ∈ items, ∀ after, Follows after →
      Reads n p (tokens item ++ after) after (value item))
    (htokens : ∀ item ∈ items, tokens item ≠ [])
    (hfollows : ∀ item ∈ items, ∀ after, Follows (tokens item ++ after)) (hrest : Follows rest)
    (hfails : Fails n p rest) (hbound : n ≤ bound) :
    Reads n (Reader.many p bound) (items.flatMap tokens ++ rest) rest (items.map value) := by
  induction items generalizing n bound with
  | nil => exact hfails.many_nil hbound
  | cons item items ih =>
    simp only [List.mem_cons, forall_eq_or_imp] at hitem htokens hfollows
    have hafter : Follows (items.flatMap tokens ++ rest) := by
      cases items with
      | nil => exact hrest
      | cons next items =>
        rw [List.flatMap_cons, List.append_assoc]
        exact hfollows.2 next (by simp) _
    have hfirst := hitem.1 _ hafter
    have hpos : 0 < (tokens item).length := List.length_pos_of_ne_nil htokens.1
    rw [List.flatMap_cons, List.append_assoc]
    refine ⟨by simp only [List.length_append]; omega, ?_⟩
    intro s hlaid hlt
    rcases hfirst.exists_eq_ok hlaid hlt with ⟨middle, hmiddle, hlaidMiddle, hle⟩
    obtain ⟨bound, rfl⟩ : ∃ k, bound = k + 1 := ⟨bound - 1, by omega⟩
    -- The item took a character, so one round less is enough for the others.
    have hothers : Reads (n - 1) (Reader.many p bound) (items.flatMap tokens ++ rest) rest
        (items.map value) := by
      refine ih ?_ htokens.2 hfollows.2 (hfails.mono (by omega)) (by omega)
      intro other hother after hnext
      exact (hitem.2 other hother after hnext).mono (by omega)
    simp only [List.length_append] at hle ⊢
    rcases hothers.exists_eq_ok hlaidMiddle (by omega) with ⟨after, hend, hlaidEnd, hle'⟩
    refine ⟨after, ?_, hlaidEnd, ?_⟩
    . unfold Reader.many
      rw [hmiddle]
      dsimp only
      rw [hend]
      rfl
    . simp only [List.length_append] at hle'
      omega

theorem Reads.many {ι : Type} {p : Reader α} {items : List ι} {tokens : ι → List String}
    {value : ι → α} {rest : List String} {bound : Nat}
    (hitem : ∀ item ∈ items, ∀ after, Reads n p (tokens item ++ after) after (value item))
    (htokens : ∀ item ∈ items, tokens item ≠ []) (hfails : Fails n p rest) (hbound : n ≤ bound) :
    Reads n (Reader.many p bound) (items.flatMap tokens ++ rest) rest (items.map value) :=
  .manyBefore (fun _ => True) (fun item hmem after _ => hitem item hmem after) htokens
    (fun _ _ _ => .intro) .intro hfails hbound

end Source

end HessianGo
