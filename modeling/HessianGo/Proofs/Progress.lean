import HessianGo.Proofs.Reader
import Mathlib.Data.List.Forall2

/-!
This module contains why reading ends. A reader is put together from smaller ones so that whatever
it repeats takes a character in each round, and what stands behind characters is needed for shorter
texts only. Such a reader never meets a bound that is above the number of characters, and all such
bounds give the same outcome.
-/

namespace HessianGo

inductive Outcome.Settled {α : Type} (taken : Nat) (s : List Char) :
    Outcome α → Outcome α → Prop where
  | ok {value : α} {rest : List Char} :
    rest.length + taken ≤ s.length → Settled taken s (.ok value rest) (.ok value rest)
  | mismatch : Settled taken s .mismatch .mismatch

theorem Outcome.Settled.longer {α : Type} {taken more : Nat} {s t : List Char}
    {outcome same : Outcome α} (h : outcome.Settled taken s same)
    (hle : s.length + more ≤ t.length + taken) : outcome.Settled more t same := by
  cases h with
  | ok hrest => exact .ok (by omega)
  | mismatch => exact .mismatch

theorem Outcome.Settled.map {α β : Type} {taken : Nat} {s : List Char} {outcome same : Outcome α}
    (h : outcome.Settled taken s same) (f : α → β) :
    (outcome.map f).Settled taken s (same.map f) := by
  cases h with
  | ok hrest => exact .ok hrest
  | mismatch => exact .mismatch

namespace Reader

variable {α β : Type} {n m taken fewer bound other : Nat}

def without (p : Reader α) : Reader Unit :=
  fun s =>
    match p s with
    | .ok _ _ => .mismatch
    | .mismatch => .ok () s
    | .exhausted => .exhausted

/--
`Progress n taken p q`: on texts shorter than `n`, the readers `p` and `q` come to the same outcome
without meeting a bound, and a value takes at least `taken` characters.
-/
structure Progress {α : Type} (n taken : Nat) (p q : Reader α) : Prop where
  settled {s : List Char} : s.length < n → (p s).Settled taken s (q s)

namespace Progress

variable {p q first second : Reader α}

/-! ### Single readers -/

theorem pure (value : α) : Progress n 0 (Pure.pure value) (Pure.pure value) where
  settled _ := .ok (Nat.le_refl _)

theorem mismatch : Progress n taken (mismatch : Reader α) (mismatch : Reader α) where
  settled _ := .mismatch

theorem char (accepts : Char → Bool) : Progress n 1 (char accepts) (char accepts) where
  settled {s} _ := by
    cases s with
    | nil => exact .mismatch
    | cons c s =>
      simp only [Reader.char]
      split
      . exact .ok (Nat.le_refl _)
      . exact .mismatch

theorem literal (w : List Char) : Progress n w.length (literal w) (literal w) where
  settled {s} _ := by
    unfold Reader.literal
    split
    . next rest hrest =>
      rw [List.isPrefixOf?_eq_some_iff_append_eq] at hrest
      refine .ok (Nat.le_of_eq ?_)
      rw [← hrest, List.length_append, Nat.add_comm]
    . exact .mismatch

theorem notBefore (rejects : Char → Bool) :
    Progress n 0 (notBefore rejects) (notBefore rejects) where
  settled {s} _ := by
    cases s with
    | nil => exact .ok (Nat.le_refl _)
    | cons c s =>
      simp only [Reader.notBefore]
      split
      . exact .mismatch
      . exact .ok (Nat.le_refl _)

theorem atEnd : Progress n 0 atEnd atEnd where
  settled {s} _ := by
    cases s with
    | nil => exact .ok (Nat.le_refl _)
    | cons c s => exact .mismatch

/-! ### Readers put together -/

theorem weaken (h : Progress n taken p q) (hle : m ≤ n) (hfewer : fewer ≤ taken) :
    Progress m fewer p q where
  settled hs := (h.settled (by omega)).longer (by omega)

theorem congr (hp : ∀ s, s.length < n → p s = first s) (hq : ∀ s, s.length < n → q s = second s)
    (h : Progress n taken first second) : Progress n taken p q where
  settled {s} hs := by
    rw [hp s hs, hq s hs]
    exact h.settled hs

theorem bind {more : Nat} {f g : α → Reader β} (hp : Progress n taken p q)
    (hf : ∀ value, Progress (n - taken) more (f value) (g value)) :
    Progress n (taken + more) (p >>= f) (q >>= g) where
  settled {s} hs := by
    change (Reader.andThen p f s).Settled (taken + more) s (Reader.andThen q g s)
    unfold Reader.andThen
    have hfirst := hp.settled hs
    generalize p s = outcome, q s = same at hfirst
    cases hfirst with
    | @ok value rest hle => exact ((hf value).settled (by omega)).longer (by omega)
    | mismatch => exact .mismatch

theorem orElse (hp : Progress n taken p q) (hfirst : Progress n taken first second) :
    Progress n taken (p <|> first) (q <|> second) where
  settled {s} hs := by
    change (Reader.orElse p (fun _ => first) s).Settled taken s
      (Reader.orElse q (fun _ => second) s)
    unfold Reader.orElse
    have hchoice := hp.settled hs
    generalize p s = outcome, q s = same at hchoice
    cases hchoice with
    | ok hle => exact .ok hle
    | mismatch => exact hfirst.settled hs

theorem without (h : Progress n taken p q) : Progress n 0 (without p) (without q) where
  settled {s} hs := by
    have hp := h.settled hs
    unfold Reader.without
    generalize p s = outcome, q s = same at hp
    cases hp with
    | ok _ => exact .mismatch
    | mismatch => exact .ok (Nat.le_refl _)

theorem textOf (h : Progress n taken p q) : Progress n taken (textOf p) (textOf q) where
  settled {s} hs := by
    have hp := h.settled hs
    unfold Reader.textOf
    generalize p s = outcome, q s = same at hp
    cases hp with
    | ok hle => exact .ok hle
    | mismatch => exact .mismatch

theorem settled_many (h : Progress n 1 p q) {s : List Char} (hs : s.length < n)
    (hbound : s.length < bound) (hother : s.length < other) :
    (many p bound s).Settled 0 s (many q other s) := by
  -- A round takes a character, so the rounds are fewer than the characters.
  induction bound generalizing other s with
  | zero => omega
  | succ bound ih =>
    obtain ⟨other, rfl⟩ : ∃ k, other = k + 1 := ⟨other - 1, by omega⟩
    have hround := h.settled hs
    unfold Reader.many
    generalize p s = outcome, q s = same at hround
    cases hround with
    | @ok value rest hle =>
      exact ((ih (s := rest) (by omega) (by omega) (by omega)).map _).longer (by omega)
    | mismatch => exact .ok (Nat.le_refl _)

theorem many (h : Progress n 1 p q) (hbound : n ≤ bound) (hother : n ≤ other) :
    Progress n 0 (many p bound) (many q other) where
  settled hs := h.settled_many hs (by omega) (by omega)

theorem zero {k : Nat} (h : Progress n k p q) : Progress n 0 p q :=
  h.weaken (Nat.le_refl _) (Nat.zero_le _)

theorem of_zero : Progress 0 taken p q where
  settled hs := absurd hs (Nat.not_lt_zero _)

theorem andThen {f g : α → Reader β} (hp : Progress n taken p q)
    (hf : ∀ value, Progress n 0 (f value) (g value)) :
    Progress n taken (p >>= f) (q >>= g) := by
  have hbind : Progress n (taken + 0) (p >>= f) (q >>= g) :=
    hp.bind fun value => (hf value).weaken (Nat.sub_le _ _) (Nat.le_refl _)
  exact hbind

theorem before {k : Nat} {f g : α → Reader β} (hp : Progress n k p q)
    (hf : ∀ value, Progress n 0 (f value) (g value)) : Progress n 0 (p >>= f) (q >>= g) :=
  hp.zero.andThen hf

theorem after {f g : α → Reader β} (hp : Progress n fewer p q)
    (hf : ∀ value, Progress n taken (f value) (g value)) :
    Progress n taken (p >>= f) (q >>= g) := by
  have hbind : Progress n (0 + taken) (p >>= f) (q >>= g) := hp.zero.bind hf
  exact hbind.weaken (Nat.le_refl _) (Nat.le_of_eq (Nat.zero_add _).symm)

theorem behind {f g : α → Reader β} (hp : Progress (n + 1) 1 p q)
    (hf : ∀ value, Progress n 0 (f value) (g value)) :
    Progress (n + 1) 1 (p >>= f) (q >>= g) :=
  hp.bind hf

theorem map (h : Progress n taken p q) (f : α → β) : Progress n taken (f <$> p) (f <$> q) :=
  h.andThen fun value => .pure (f value)

theorem maybe {k : Nat} (h : Progress n k p q) : Progress n 0 (Reader.maybe p) (Reader.maybe q) :=
  .orElse (h.map some).zero (.pure none)

theorem firstOf {ps qs : List (Reader α)} (h : List.Forall₂ (Progress n taken) ps qs) :
    Progress n taken (Reader.firstOf ps) (Reader.firstOf qs) := by
  induction h with
  | nil => exact .mismatch
  | cons hp _ ih => exact .orElse hp ih

end Progress

/-! ### Rounds of a repetition -/

theorem many_of_ok {p : Reader α} {s rest : List Char} {value : α} (h : p s = .ok value rest) :
    many p (bound + 1) s = (many p bound rest).map (value :: ·) := by
  simp only [many, h]

theorem many_of_mismatch {p : Reader α} {s : List Char} (h : p s = .mismatch) :
    many p (bound + 1) s = .ok [] s := by
  simp only [many, h]

theorem many_char {accepts : Char → Bool} {s : List Char} (h : s.length < bound) :
    many (char accepts) bound s = chars accepts s := by
  induction bound generalizing s with
  | zero => omega
  | succ bound ih =>
    cases s with
    | nil => rfl
    | cons c s =>
      cases hc : accepts c with
      | true =>
        have hround : char accepts (c :: s) = .ok c s := by simp [char, hc]
        rw [many_of_ok hround]
        simp [ih (Nat.lt_of_succ_lt_succ h), chars, Outcome.map, hc]
      | false =>
        rw [many_of_mismatch (by simp [char, hc])]
        simp [chars, hc]

theorem progress_word {w : List Char} (h : w ≠ []) : Progress n 1 (literal w) (literal w) :=
  (Progress.literal w).weaken (Nat.le_refl _) (List.length_pos_of_ne_nil h)

theorem progress_chars (accepts : Char → Bool) : Progress n 0 (chars accepts) (chars accepts) :=
  .congr (fun _ hs => (many_char hs).symm) (fun _ hs => (many_char hs).symm)
    (.many (.char accepts) (Nat.le_refl n) (Nat.le_refl n))

theorem progress_chars1 (accepts : Char → Bool) : Progress n 1 (chars1 accepts) (chars1 accepts) :=
  (Progress.char accepts).andThen fun _ => (progress_chars accepts).before fun _ => .pure _

/-! ### Recursion -/

/--
A recursive reader takes a character before it comes to itself again: a level of it is `outer`,
which reads texts of up to `n` characters alike over all `inner` that read shorter texts alike.
-/
structure Guarded {α : Type} (outer : (bound : Nat) → Reader α → Reader α)
    (recursive : (bound depth : Nat) → Reader α) : Prop where
  level (bound depth : Nat) : recursive bound (depth + 1) = outer bound (recursive bound depth)
  shorter {n bound other : Nat} {inner same : Reader α} : n < bound → n < other →
    Progress n 1 inner same → Progress (n + 1) 1 (outer bound inner) (outer other same)

/--
Each level stands behind a character, so as many levels as the text has characters are enough.
-/
theorem Guarded.progress {outer : Nat → Reader α → Reader α} {recursive : Nat → Nat → Reader α}
    (h : Guarded outer recursive) {depth otherDepth : Nat} (hbound : n ≤ bound) (hother : n ≤ other)
    (hdepth : n ≤ depth) (hotherDepth : n ≤ otherDepth) :
    Progress n 1 (recursive bound depth) (recursive other otherDepth) := by
  induction n generalizing depth otherDepth with
  | zero => exact .of_zero
  | succ n ih =>
    obtain ⟨depth, rfl⟩ := Nat.exists_eq_add_one.2 (Nat.zero_lt_of_lt hdepth)
    obtain ⟨otherDepth, rfl⟩ := Nat.exists_eq_add_one.2 (Nat.zero_lt_of_lt hotherDepth)
    rw [h.level, h.level]
    exact h.shorter hbound hother (ih (by omega) (by omega) (by omega) (by omega))

end Reader

end HessianGo
