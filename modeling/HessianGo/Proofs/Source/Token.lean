import HessianGo.Proofs.Source.Layout
import HessianGo.Proofs.Source.Names

/-!
This module contains what the readers of single tokens make of a text of tokens: each kind of token
is read as it is written, and a token that starts otherwise does not match.
-/

namespace HessianGo

namespace Source

variable {α : Type} {n bound : Nat} {first : String} {tokens : List String}

/-! ### Tokens in general -/

theorem Reads.token {p : Reader α} {value : α}
    (h : ∀ s, Apart first.toList s → first.toList.length < n →
      p (first.toList ++ s) = .ok value s) :
    Reads n (Source.token p) (first :: tokens) tokens value where
  length_le := by simp
  exists_eq_ok {s} hlaid hlt := by
    rcases hlaid.skipTrivia_cons with ⟨htoken, rest, hskip, hapart, hrest, hle⟩
    have := htoken.length_pos
    refine ⟨rest, ?_, hrest, by simp; omega⟩
    change p (skipTrivia s) = _
    rw [hskip]
    exact h rest hapart (by omega)

theorem Fails.token {p : Reader α}
    (h : IsToken first → ∀ s, Apart first.toList s → p (first.toList ++ s) = .mismatch) :
    Fails n (Source.token p) (first :: tokens) where
  eq_mismatch {s} hlaid _ := by
    rcases hlaid.skipTrivia_cons with ⟨htoken, rest, hskip, hapart, -, -⟩
    change p (skipTrivia s) = _
    rw [hskip]
    exact h htoken rest hapart

theorem Fails.token_nil {p : Reader α} (h : p [] = .mismatch) : Fails n (Source.token p) [] where
  eq_mismatch {s} hlaid _ := by
    change p (skipTrivia s) = _
    rw [hlaid.skipTrivia_nil]
    exact h

theorem Fails.token_of_head {p : Reader α} {q : Char → Prop}
    (hp : ∀ c s, ¬q c → p (c :: s) = .mismatch)
    (h : ∀ c ∈ first.toList.head?, ¬q c) : Fails n (Source.token p) (first :: tokens) := by
  apply Fails.token
  rintro ⟨c, cs, hc, -, -⟩ s _
  rw [hc] at h ⊢
  exact hp c _ (h c rfl)

/-! ### Symbols and keywords -/

theorem char_cons {p : Char → Bool} {c : Char} (h : p c = true) (s : List Char) :
    Reader.char p (c :: s) = .ok c s := by
  simp [Reader.char, h]

theorem char_eq_mismatch {p : Char → Bool} {c : Char} (h : p c = false) (s : List Char) :
    Reader.char p (c :: s) = .mismatch := by
  simp [Reader.char, h]

theorem reads_symbol {c : Char} (h : first.toList = [c]) :
    Reads n (symbol c) (first :: tokens) tokens () := by
  apply Reads.token
  intro s _ _
  rw [h]
  exact Reader.bind_eq_of_ok (char_cons (decide_eq_true rfl) s)

theorem fails_symbol {c : Char} (h : ∀ d ∈ first.toList.head?, d ≠ c) :
    Fails n (symbol c) (first :: tokens) := by
  refine Fails.token_of_head (q := (· = c)) ?_ h
  intro d s hd
  exact Reader.bind_eq_of_mismatch (char_eq_mismatch (decide_eq_false hd) s)

theorem fails_symbol_nil {c : Char} : Fails n (symbol c) [] :=
  .token_nil rfl

theorem literal_append (w s : List Char) : Reader.literal w (w ++ s) = .ok w s := by
  unfold Reader.literal
  rw [List.isPrefixOf?_eq_some_iff_append_eq.2 rfl]

theorem literal_eq_mismatch {w s : List Char} (h : ¬w <+: s) : Reader.literal w s = .mismatch := by
  unfold Reader.literal
  cases hprefix : w.isPrefixOf? s with
  | none => rfl
  | some rest => exact absurd ⟨rest, List.isPrefixOf?_eq_some_iff_append_eq.1 hprefix⟩ h

theorem isPathChar_of_isNameChar {c : Char} (h : isNameChar c) : isPathChar c := by
  simp [isPathChar, h]

theorem not_isPrefix_append {w t s : List Char} (hw : ∀ c ∈ w, isNameChar c) (ht : t ≠ [])
    (hapart : Apart t s) (h : ¬w <+: t) : ¬w <+: t ++ s := by
  rintro ⟨rest, hrest⟩
  rcases List.append_eq_append_iff.1 hrest with ⟨between, rfl, -⟩ | ⟨between, rfl, rfl⟩
  . exact h (List.prefix_append w between)
  . -- The word goes on behind the token, so it would tie the token to what follows.
    cases between with
    | nil => exact h (by simp)
    | cons d between =>
      have hlast : isPathChar (t.getLast ht) := by
        apply isPathChar_of_isNameChar
        apply hw
        simp [List.getLast_mem]
      have hnext := hapart _ (List.getLast_mem_getLast? ht) hlast d (by simp)
      rw [isPathChar_of_isNameChar (hw d (by simp))] at hnext
      cases hnext

theorem reads_keyword (w : String) : Reads n (keyword w) (w :: tokens) tokens () := by
  apply Reads.token
  intro s _ _
  exact Reader.bind_eq_of_ok (literal_append w.toList s)

-- A keyword does not look at the character after it, so it can be the front of a longer word.
theorem reads_keyword_front {w remainder : String} (hfirst : first = w ++ remainder)
    (hremainder : IsToken remainder) :
    Reads n (keyword w) (first :: tokens) (remainder :: tokens) () where
  length_le := by simp
  exists_eq_ok {s} hlaid hlt := by
    subst hfirst
    rcases hlaid.skipTrivia_cons with ⟨-, rest, hskip, hapart, hrest, hle⟩
    rw [String.toList_append] at hskip hapart hle
    have hne : remainder.toList ≠ [] := by
      have := hremainder.length_pos
      exact List.ne_nil_of_length_pos this
    refine ⟨remainder.toList ++ rest, ?_, ?_, ?_⟩
    . apply Reader.bind_eq_of_ok
      rw [hskip, List.append_assoc]
      apply literal_append
    . exact .cons .nil hremainder (hapart.of_append hne) hrest
    . simp only [List.length_append, List.length_cons] at hle ⊢
      omega

theorem fails_keyword {w : String} (hw : ∀ c ∈ w.toList, isNameChar c)
    (h : ¬w.toList <+: first.toList) : Fails n (keyword w) (first :: tokens) := by
  apply Fails.token
  intro htoken s hapart
  have hne := List.ne_nil_of_length_pos htoken.length_pos
  apply Reader.bind_eq_of_mismatch
  exact literal_eq_mismatch (not_isPrefix_append hw hne hapart h)

theorem fails_keyword_nil {w : String} (hw : w.toList ≠ []) : Fails n (keyword w) [] := by
  apply Fails.token_nil
  apply Reader.bind_eq_of_mismatch
  exact literal_eq_mismatch (by simpa using hw)

theorem Apart.of_word {t s : List Char} (h : Apart t s) (hne : t ≠ [])
    (ht : ∀ c ∈ t, isPathChar c) : ∀ c ∈ s.head?, isPathChar c = false :=
  h _ (List.getLast_mem_getLast? hne) (ht _ (List.getLast_mem hne))

theorem notBefore_eq_ok {p : Char → Bool} {s : List Char} (h : ∀ c ∈ s.head?, p c = false) :
    Reader.notBefore p s = .ok () s := by
  cases s with
  | nil => rfl
  | cons c s => simp [Reader.notBefore, h c rfl]

theorem isNameChar_eq_false {c : Char} (h : isPathChar c = false) : isNameChar c = false := by
  simp only [isPathChar, Bool.or_eq_false_iff] at h
  exact h.1

theorem reads_wholeWord {w : String} (hne : w.toList ≠ []) (hw : ∀ c ∈ w.toList, isNameChar c) :
    Reads n (wholeWord w) (w :: tokens) tokens () := by
  apply Reads.token
  intro s hapart _
  have hnext := hapart.of_word hne fun c hc => isPathChar_of_isNameChar (hw c hc)
  exact (Reader.bind_eq_of_ok (literal_append w.toList s)).trans
    (notBefore_eq_ok fun c hc => isNameChar_eq_false (hnext c hc))

theorem fails_wholeWord {w : String} (hw : ∀ c ∈ w.toList, isNameChar c)
    (h : ¬w.toList <+: first.toList) : Fails n (wholeWord w) (first :: tokens) := by
  apply Fails.token
  intro htoken s hapart
  have hne := List.ne_nil_of_length_pos htoken.length_pos
  apply Reader.bind_eq_of_mismatch
  exact literal_eq_mismatch (not_isPrefix_append hw hne hapart h)

/-! ### Names -/

instance (name : String) : Decidable (IsName name) :=
  match h : name.toList with
  | [] => isFalse (by rintro ⟨c, cs, hname, -⟩; rw [h] at hname; cases hname)
  | c :: cs =>
    decidable_of_iff (isNameStart c ∧ ∀ x ∈ cs, isNameChar x) (by
      constructor
      . exact fun hc => ⟨c, cs, h, hc⟩
      . rintro ⟨d, ds, hname, hc⟩
        rw [h] at hname
        cases hname
        exact hc)

theorem isNameChar_of_isNameStart {c : Char} (h : isNameStart c) : isNameChar c := by
  simp only [isNameStart, isNameChar, Char.isAlphanum, Bool.or_eq_true] at h ⊢
  tauto

theorem IsName.isNameChar_of_mem {name : String} (h : IsName name) :
    ∀ c ∈ name.toList, isNameChar c := by
  rcases h with ⟨c, cs, hname, hc, hcs⟩
  rw [hname]
  simp only [List.mem_cons, forall_eq_or_imp]
  exact ⟨isNameChar_of_isNameStart hc, hcs⟩

theorem chars_append {p : Char → Bool} {cs s : List Char} (hcs : ∀ c ∈ cs, p c)
    (hs : ∀ c ∈ s.head?, p c = false) : Reader.chars p (cs ++ s) = .ok cs s := by
  have htake : s.takeWhile p = [] := by
    cases s with
    | nil => rfl
    | cons c s => simp [hs c rfl]
  have hdrop : s.dropWhile p = s := by
    cases s with
    | nil => rfl
    | cons c s => simp [hs c rfl]
  unfold Reader.chars
  rw [List.takeWhile_append_of_pos hcs, List.dropWhile_append_of_pos hcs, htake, hdrop]
  simp

theorem nameHere_append {name s : List Char} {c : Char} {cs : List Char} (hname : name = c :: cs)
    (hc : isNameStart c) (hcs : ∀ x ∈ cs, isNameChar x) (hs : ∀ x ∈ s.head?, isNameChar x = false) :
    nameHere (name ++ s) = .ok name s := by
  subst hname
  apply (Reader.bind_eq_of_ok (char_cons hc (cs ++ s))).trans
  exact Reader.bind_eq_of_ok (chars_append hcs hs)

theorem nameHere_eq_mismatch {c : Char} {s : List Char} (h : ¬isNameStart c) :
    nameHere (c :: s) = .mismatch :=
  Reader.bind_eq_of_mismatch (char_eq_mismatch (Bool.eq_false_iff.2 h) s)

theorem reads_name {name : String} (h : IsName name) :
    Reads n Source.name (name :: tokens) tokens name := by
  have hword := h.isNameChar_of_mem
  rcases h with ⟨c, cs, hname, hc, hcs⟩
  apply Reads.token
  intro s hapart _
  have hnext := hapart.of_word (by simp [hname]) fun c hc => isPathChar_of_isNameChar (hword c hc)
  rw [Reader.map_eq_of_ok
    (nameHere_append hname hc hcs fun c hc => isNameChar_eq_false (hnext c hc))]
  rw [String.ofList_toList]

theorem fails_name (h : ∀ c ∈ first.toList.head?, ¬isNameStart c) :
    Fails n Source.name (first :: tokens) := by
  refine Fails.token_of_head (q := fun c => isNameStart c) ?_ h
  intro c s hc
  exact Reader.map_eq_of_mismatch (nameHere_eq_mismatch hc)

theorem isToken_of_isNameChar {word : String} (hne : word.toList ≠ [])
    (h : ∀ c ∈ word.toList, isNameChar c) : IsToken word := by
  cases hword : word.toList with
  | nil => exact absurd hword hne
  | cons c cs =>
    have hc : isNameChar c := h c (by simp [hword])
    refine ⟨c, cs, hword, ?_, ?_⟩
    . simp only [isSpace, Bool.or_eq_false_iff, decide_eq_false_iff_not]
      refine ⟨⟨⟨?_, ?_⟩, ?_⟩, ?_⟩
      all_goals rintro rfl; exact absurd hc (by decide)
    . rintro rfl
      exact absurd hc (by decide)

/-! ### Dotted names -/

def IsPath (path : String) : Prop :=
  ∃ names, names ≠ [] ∧ (∀ name ∈ names, IsName name) ∧ path = ".".intercalate names

theorem IsName.isPath {name : String} (h : IsName name) : IsPath name :=
  ⟨[name], by simp, by simpa using h, by simp⟩

theorem toList_intercalate_dot (first : String) (others : List String) :
    (".".intercalate (first :: others)).toList
      =
    first.toList ++ others.flatMap fun name => '.' :: name.toList := by
  induction others generalizing first with
  | nil => simp
  | cons second others ih =>
    rw [String.intercalate_cons_cons]
    simp [ih]

theorem IsPath.exists_toList {path : String} (h : IsPath path) :
    ∃ (first : String) (others : List String), IsName first ∧ (∀ name ∈ others, IsName name)
      ∧ path.toList = first.toList ++ others.flatMap fun name => '.' :: name.toList := by
  rcases h with ⟨names, hne, hnames, rfl⟩
  cases names with
  | nil => exact absurd rfl hne
  | cons first others =>
    simp only [List.mem_cons, forall_eq_or_imp] at hnames
    exact ⟨first, others, hnames.1, hnames.2, toList_intercalate_dot first others⟩

theorem IsPath.isPathChar_of_mem {path : String} (h : IsPath path) :
    ∀ c ∈ path.toList, isPathChar c := by
  rcases h.exists_toList with ⟨first, others, hfirst, hothers, hpath⟩
  intro c hc
  rw [hpath, List.mem_append, List.mem_flatMap] at hc
  rcases hc with hc | ⟨name, hname, hc⟩
  . exact isPathChar_of_isNameChar (hfirst.isNameChar_of_mem c hc)
  . rcases List.mem_cons.1 hc with rfl | hc
    . decide
    . exact isPathChar_of_isNameChar ((hothers name hname).isNameChar_of_mem c hc)

theorem IsPath.exists_head {path : String} (h : IsPath path) :
    ∃ c cs, path.toList = c :: cs ∧ isNameStart c := by
  rcases h.exists_toList with ⟨first, others, ⟨c, cs, hfirst, hc, -⟩, -, hpath⟩
  exact ⟨c, _, by rw [hpath, hfirst, List.cons_append], hc⟩

theorem IsPath.toList_ne_nil {path : String} (h : IsPath path) : path.toList ≠ [] := by
  rcases h.exists_head with ⟨c, cs, hpath, -⟩
  simp [hpath]

theorem isNameChar_head_others (others : List String) {s : List Char}
    (hs : ∀ c ∈ s.head?, isPathChar c = false) :
    ∀ c ∈ ((others.flatMap fun name => '.' :: name.toList) ++ s).head?, isNameChar c = false := by
  cases others with
  | nil => exact fun c hc => isNameChar_eq_false (hs c hc)
  | cons name others =>
    intro c hc
    obtain rfl : '.' = c := by simpa using hc
    decide

theorem many_dotted {others : List String} (hothers : ∀ name ∈ others, IsName name) {s : List Char}
    (hs : ∀ c ∈ s.head?, isPathChar c = false) (hbound : others.length < bound) :
    Reader.many (do
      let dot ← Reader.char (· = '.')
      let name ← nameHere
      return dot :: name) bound ((others.flatMap fun name => '.' :: name.toList) ++ s)
      =
    .ok (others.map fun name => '.' :: name.toList) s := by
  induction others generalizing bound with
  | nil =>
    obtain ⟨bound, rfl⟩ : ∃ k, bound = k + 1 := ⟨bound - 1, by simp at hbound; omega⟩
    have hdot : Reader.char (· = '.') s = .mismatch := by
      cases s with
      | nil => rfl
      | cons c s =>
        apply char_eq_mismatch
        have := hs c rfl
        simp only [isPathChar, Bool.or_eq_false_iff] at this
        exact this.2
    unfold Reader.many
    rw [List.flatMap_nil, List.nil_append, Reader.bind_eq_of_mismatch hdot]
    rfl
  | cons name others ih =>
    simp only [List.mem_cons, forall_eq_or_imp] at hothers
    obtain ⟨bound, rfl⟩ : ∃ k, bound = k + 1 := ⟨bound - 1, by simp at hbound; omega⟩
    rcases hothers.1 with ⟨c, cs, hname, hc, hcs⟩
    have hfirst := nameHere_append hname hc hcs (isNameChar_head_others others hs)
    unfold Reader.many
    rw [List.flatMap_cons, List.append_assoc, List.cons_append]
    rw [(Reader.bind_eq_of_ok (char_cons (decide_eq_true rfl) _)).trans
      (Reader.bind_eq_of_ok hfirst)]
    change Outcome.map _ (Reader.many _ bound _) = _
    rw [ih hothers.2 (by simp at hbound; omega)]
    rfl

theorem length_le_length_flatMap (others : List String) :
    others.length ≤ (others.flatMap fun name => '.' :: name.toList).length := by
  induction others with
  | nil => simp
  | cons name others ih =>
    simp only [List.length_cons, List.flatMap_cons, List.length_append]
    omega

theorem pathHere_append {path : String} (h : IsPath path) {s : List Char}
    (hs : ∀ c ∈ s.head?, isPathChar c = false) (hbound : path.toList.length < bound) :
    pathHere bound (path.toList ++ s) = .ok path.toList s := by
  rcases h.exists_toList with ⟨first, others, ⟨c, cs, hfirst, hc, hcs⟩, hothers, hpath⟩
  have hlength := length_le_length_flatMap others
  rw [hpath, List.length_append] at hbound
  rw [hpath, List.append_assoc]
  apply (Reader.bind_eq_of_ok
    (nameHere_append hfirst hc hcs (isNameChar_head_others others hs))).trans
  rw [Reader.bind_eq_of_ok (many_dotted hothers hs (by omega))]
  rw [List.flatMap_def]
  rfl

theorem reads_path {path : String} (h : IsPath path) (hbound : n ≤ bound) :
    Reads n (Source.path bound) (path :: tokens) tokens path := by
  apply Reads.token
  intro s hapart hlt
  have hnext := hapart.of_word h.toList_ne_nil h.isPathChar_of_mem
  rw [Reader.map_eq_of_ok (pathHere_append h hnext (by omega))]
  rw [String.ofList_toList]

/-! ### Types -/

theorem firstOf_words (scalars : List Schema.ScalarType) (s : List Char) :
    (Reader.firstOf (scalars.map fun scalar => do
      let _ ← Reader.literal scalar.word.toList
      return scalar) : Reader Schema.ScalarType) s = .mismatch
    ∨ ∃ scalar ∈ scalars, ∃ rest, s = scalar.word.toList ++ rest
      ∧ (Reader.firstOf (scalars.map fun scalar => do
          let _ ← Reader.literal scalar.word.toList
          return scalar) : Reader Schema.ScalarType) s = .ok scalar rest := by
  induction scalars with
  | nil => exact .inl rfl
  | cons scalar scalars ih =>
    by_cases hprefix : scalar.word.toList <+: s
    . rcases hprefix with ⟨rest, rfl⟩
      refine .inr ⟨scalar, by simp, rest, rfl, ?_⟩
      exact Reader.orElse_eq_of_ok (Reader.bind_eq_of_ok (literal_append _ rest))
    . rw [List.map_cons, Reader.firstOf, Reader.orElse_eq_of_mismatch
        (Reader.bind_eq_of_mismatch (literal_eq_mismatch hprefix))]
      rcases ih with hmismatch | ⟨other, hother, rest, hs, hok⟩
      . exact .inl hmismatch
      . exact .inr ⟨other, by simp [hother], rest, hs, hok⟩

theorem isNameChar_word (scalar : Schema.ScalarType) :
    ∀ c ∈ scalar.word.toList, isNameChar c := by
  cases scalar
  all_goals decide

theorem scalarHere_append (scalar : Schema.ScalarType) {s : List Char}
    (hs : ∀ c ∈ s.head?, isPathChar c = false) :
    scalarHere (scalar.word.toList ++ s) = .ok scalar s := by
  have hfirst : (Reader.firstOf (Schema.ScalarType.all.map fun scalar => do
      let _ ← Reader.literal scalar.word.toList
      return scalar) : Reader Schema.ScalarType) (scalar.word.toList ++ s) = .ok scalar s := by
    cases scalar
    all_goals rfl
  apply (Reader.bind_eq_of_ok hfirst).trans
  exact Reader.bind_eq_of_ok (notBefore_eq_ok hs)

theorem scalarHere_eq_mismatch {t s : List Char} (ht : ∀ c ∈ t, isPathChar c)
    (hs : ∀ c ∈ s.head?, isPathChar c = false)
    (hscalar : ∀ scalar : Schema.ScalarType, t ≠ scalar.word.toList) :
    scalarHere (t ++ s) = .mismatch := by
  rcases firstOf_words Schema.ScalarType.all (t ++ s) with hmismatch | ⟨scalar, -, rest, hrest, hok⟩
  . exact Reader.bind_eq_of_mismatch hmismatch
  . apply (Reader.bind_eq_of_ok hok).trans
    apply Reader.bind_eq_of_mismatch
    -- The word is not the whole of `t`, so it ends inside `t`.
    rcases List.append_eq_append_iff.1 hrest with ⟨between, hword, rfl⟩ | ⟨between, rfl, rfl⟩
    . cases between with
      | nil => exact absurd (by simpa using hword.symm) (hscalar scalar)
      | cons c between =>
        have hc := isNameChar_word scalar c (by simp [hword])
        rw [isNameChar_eq_false (hs c rfl)] at hc
        cases hc
    . cases between with
      | nil => exact absurd (by simp) (hscalar scalar)
      | cons c between => simp [Reader.notBefore, ht c (by simp)]

theorem Apart.of_scalar {scalar : Schema.ScalarType} {s : List Char}
    (h : Apart scalar.word.toList s) : ∀ c ∈ s.head?, isPathChar c = false := by
  apply h.of_word
  . cases scalar
    all_goals decide
  . exact fun c hc => isPathChar_of_isNameChar (isNameChar_word scalar c hc)

theorem reads_scalar (scalar : Schema.ScalarType) :
    Reads n (token scalarHere) (scalar.word :: tokens) tokens scalar := by
  apply Reads.token
  intro s hapart _
  exact scalarHere_append scalar hapart.of_scalar

theorem maybeDot_eq_ok {c : Char} (h : c ≠ '.') (s : List Char) :
    (Reader.literal ['.'] <|> Reader.succeed [] : Reader (List Char)) (c :: s)
      =
    .ok [] (c :: s) := by
  apply Reader.orElse_eq_of_mismatch
  apply literal_eq_mismatch
  rintro ⟨rest, hrest⟩
  exact h (by simpa using congrArg List.head? hrest.symm)

/--
The text can stand for a type that is not built in: a dotted name, possibly with a dot in front.
-/
def IsTypeName (written : String) : Prop :=
  IsPath written ∨ ∃ path, IsPath path ∧ written = "." ++ path

theorem IsTypeName.isPathChar_of_mem {written : String} (h : IsTypeName written) :
    ∀ c ∈ written.toList, isPathChar c := by
  rcases h with hpath | ⟨path, hpath, rfl⟩
  . exact hpath.isPathChar_of_mem
  . intro c hc
    rw [String.toList_append, List.mem_append] at hc
    rcases hc with hc | hc
    . obtain rfl : c = '.' := by simpa using hc
      decide
    . exact hpath.isPathChar_of_mem c hc

theorem IsTypeName.toList_ne_nil {written : String} (h : IsTypeName written) :
    written.toList ≠ [] := by
  rcases h with hpath | ⟨path, hpath, rfl⟩
  . exact hpath.toList_ne_nil
  . simp

theorem typeHere_append {written : String} (h : IsTypeName written)
    (hscalar : ∀ scalar : Schema.ScalarType, written ≠ scalar.word) {s : List Char}
    (hs : ∀ c ∈ s.head?, isPathChar c = false) (hbound : written.toList.length < bound) :
    typeHere bound (written.toList ++ s) = .ok (.named written) s := by
  have hmismatch := scalarHere_eq_mismatch h.isPathChar_of_mem hs
    fun scalar heq => hscalar scalar (String.toList_inj.1 heq)
  apply (Reader.orElse_eq_of_mismatch (Reader.bind_eq_of_mismatch hmismatch)).trans
  rcases h with hpath | ⟨path, hpath, rfl⟩
  . rcases hpath.exists_head with ⟨c, cs, hc, hstart⟩
    have hdot : c ≠ '.' := by
      rintro rfl
      exact absurd hstart (by decide)
    have hmaybe := maybeDot_eq_ok hdot (cs ++ s)
    rw [← List.cons_append, ← hc] at hmaybe
    apply (Reader.bind_eq_of_ok hmaybe).trans
    apply (Reader.bind_eq_of_ok (pathHere_append hpath hs hbound)).trans
    rw [List.nil_append, String.ofList_toList]
    rfl
  . rw [String.toList_append] at hbound ⊢
    rw [List.append_assoc]
    apply (Reader.bind_eq_of_ok (Reader.orElse_eq_of_ok (literal_append ['.'] _))).trans
    rw [List.length_append] at hbound
    apply (Reader.bind_eq_of_ok (pathHere_append hpath hs (by omega))).trans
    rw [String.ofList_append, String.ofList_toList]
    rfl

def typeText : Schema.FieldType → String
  | .scalar scalar => scalar.word
  | .named written => written
  | .message _ => ""
  | .enum _ => ""

/--
The type is what a schema can have written: a built-in type, or a name that is not the word of one.
-/
def IsWritten : Schema.FieldType → Prop
  | .scalar _ => True
  | .named written => IsTypeName written ∧ ∀ scalar : Schema.ScalarType, written ≠ scalar.word
  | .message _ => False
  | .enum _ => False

theorem reads_fieldType {type : Schema.FieldType} (h : IsWritten type) (hbound : n ≤ bound) :
    Reads n (fieldType bound) (typeText type :: tokens) tokens type := by
  cases type with
  | scalar scalar =>
    apply Reads.token
    intro s hapart _
    apply Reader.orElse_eq_of_ok
    exact Reader.bind_eq_of_ok (scalarHere_append scalar hapart.of_scalar)
  | named written =>
    apply Reads.token
    intro s hapart hlt
    have hnext := hapart.of_word h.1.toList_ne_nil h.1.isPathChar_of_mem
    exact typeHere_append h.1 h.2 hnext (hlt.trans_le hbound)
  | message _ => exact h.elim
  | enum _ => exact h.elim

theorem fails_fieldType (h : ∀ c ∈ first.toList.head?, isPathChar c = false) :
    Fails n (fieldType bound) (first :: tokens) := by
  refine Fails.token_of_head (q := fun c => isPathChar c = true) ?_ (by simpa using h)
  intro c s hc
  have hscalar : scalarHere (c :: s) = .mismatch := by
    refine scalarHere_eq_mismatch (t := []) (by simp) (by simpa using hc) ?_
    intro scalar
    cases scalar
    all_goals decide
  have hdot : c ≠ '.' := by
    rintro rfl
    exact hc (by decide)
  have hname : ¬isNameStart c := by
    intro hstart
    exact hc (isPathChar_of_isNameChar (isNameChar_of_isNameStart hstart))
  apply (Reader.orElse_eq_of_mismatch (Reader.bind_eq_of_mismatch hscalar)).trans
  apply (Reader.bind_eq_of_ok (maybeDot_eq_ok hdot s)).trans
  apply Reader.bind_eq_of_mismatch
  exact Reader.bind_eq_of_mismatch (nameHere_eq_mismatch hname)

end Source

end HessianGo
