import HessianGo.Proofs.Source.Literal
import HessianGo.Source.Schema

/-!
This module contains what the readers of the grammar make of a text of tokens: the parts that
declarations of several kinds share, and the way from the statements of a file to its source tree.
-/

namespace HessianGo

namespace Source

variable {n bound : Nat} {first : String} {tokens between rest : List String}

theorem IsName.head_ne {name : String} (h : IsName name) {c : Char} (hc : ¬isNameStart c) :
    ∀ d ∈ name.toList.head?, d ≠ c := by
  rcases h with ⟨start, cs, hname, hstart, -⟩
  rw [hname]
  rintro d hd rfl
  obtain rfl : start = d := by simpa using hd
  exact hc hstart

/-! ### Options -/

theorem fails_extensionName (h : ∀ c ∈ first.toList.head?, c ≠ '(') :
    Fails n (extensionName bound) (first :: tokens) :=
  (fails_symbol h).bind

theorem fails_assignment (h : ∀ c ∈ first.toList.head?, c ≠ '(' ∧ ¬isNameStart c) :
    Fails n (assignment bound) (first :: tokens) := by
  apply Fails.bind
  apply Fails.bind
  apply Fails.orElse
  . exact (fails_extensionName fun c hc => (h c hc).1).bind
  . exact (fails_name fun c hc => (h c hc).2).bind

theorem Reads.optionName_of_name {name : String} {others : List String} (hname : IsName name)
    (h : Reads n (Reader.many (do
      symbol '.'
      Source.name) bound) tokens rest others) :
    Reads n (optionName bound) (name :: tokens) rest (none, name :: others) := by
  have hopen := hname.head_ne (show ¬isNameStart '(' by decide)
  have hfirst : Reads n
      ((do
        let extension ← extensionName bound
        return (some extension, []))
      <|> (do
        let first ← Source.name
        return (none, [first])) : Reader (Option String × List String))
      (name :: tokens) tokens (none, [name]) := by
    apply Reads.orElse_right (fails_extensionName hopen).bind
    exact (reads_name hname).bind (.pure _)
  exact hfirst.bind (h.bind (.pure _))

theorem reads_dots_nil (h : ∀ c ∈ first.toList.head?, c ≠ '.') (hbound : n ≤ bound) :
    Reads n (Reader.many (do
      symbol '.'
      Source.name) bound) (first :: tokens) (first :: tokens) [] :=
  (fails_symbol h).bind.many_nil hbound

theorem name_append {name : String} (hname : IsName name) {s : List Char}
    (hs : ∀ c ∈ s.head?, isNameChar c = false) : Source.name (name.toList ++ s) = .ok name s := by
  have htoken := isToken_of_isNameChar hname.isPath.toList_ne_nil hname.isNameChar_of_mem
  rcases hname with ⟨c, cs, hname, hc, hcs⟩
  change (String.ofList <$> nameHere : Reader String) (skipTrivia _) = _
  rw [htoken.skipTrivia_append, Reader.map_eq_of_ok (nameHere_append hname hc hcs hs)]
  rw [String.ofList_toList]

theorem symbol_cons {c : Char} (hspace : isSpace c = false) (hslash : c ≠ '/') (s : List Char) :
    symbol c (c :: s) = .ok () s := by
  change (do let _ ← Reader.char (· = c) : Reader Unit) (skipTrivia (c :: s)) = _
  rw [skipTrivia_cons hspace hslash]
  exact Reader.bind_eq_of_ok (char_cons (decide_eq_true rfl) s)

theorem many_dots {names : List String} (hnames : ∀ name ∈ names, IsName name) {s : List Char}
    (hs : ∀ c ∈ s.head?, isPathChar c = false) (hstop : symbol '.' s = .mismatch)
    (hbound : names.length < bound) :
    Reader.many (do
      symbol '.'
      Source.name) bound ((names.flatMap fun name => '.' :: name.toList) ++ s)
      =
    .ok names s := by
  induction names generalizing bound with
  | nil =>
    obtain ⟨bound, rfl⟩ : ∃ k, bound = k + 1 := ⟨bound - 1, by simp at hbound; omega⟩
    unfold Reader.many
    rw [List.flatMap_nil, List.nil_append, Reader.bind_eq_of_mismatch hstop]
  | cons name names ih =>
    simp only [List.mem_cons, forall_eq_or_imp] at hnames
    obtain ⟨bound, rfl⟩ : ∃ k, bound = k + 1 := ⟨bound - 1, by simp at hbound; omega⟩
    have hfirst := name_append hnames.1 (isNameChar_head_others names hs)
    unfold Reader.many
    rw [List.flatMap_cons, List.append_assoc, List.cons_append]
    rw [(Reader.bind_eq_of_ok (symbol_cons rfl (by decide) _)).trans hfirst]
    change Outcome.map _ (Reader.many _ bound _) = _
    rw [ih hnames.2 (by simp at hbound; omega)]
    rfl

theorem reads_dots {path : String} (hpath : IsPath path)
    (hfirst : ∀ c ∈ first.toList.head?, c ≠ '.') (hbound : n ≤ bound) :
    ∃ names, Reads n (Reader.many (do
      symbol '.'
      Source.name) bound) (("." ++ path) :: first :: tokens) (first :: tokens) names := by
  have htype : IsTypeName ("." ++ path) := .inr ⟨path, hpath, rfl⟩
  rcases hpath.exists_toList with ⟨name, names, hname, hnames, htoList⟩
  refine ⟨name :: names, by simp, ?_⟩
  intro s hlaid hlt
  rcases hlaid.skipTrivia_cons with ⟨htoken, rest, hskip, hapart, hrest, hle⟩
  have hnext := hapart.of_word htype.toList_ne_nil htype.isPathChar_of_mem
  have hstop : symbol '.' rest = .mismatch :=
    (fails_symbol hfirst).eq_mismatch hrest (Nat.lt_succ_self _)
  have hdotted : ("." ++ path).toList ++ rest
      = '.' :: (name.toList ++ ((names.flatMap fun name => '.' :: name.toList) ++ rest)) := by
    rw [String.toList_append, htoList]
    simp
  have hdot : symbol '.' s
      = .ok () (name.toList ++ ((names.flatMap fun name => '.' :: name.toList) ++ rest)) := by
    change (do let _ ← Reader.char (· = '.') : Reader Unit) (skipTrivia s) = _
    rw [hskip, hdotted]
    exact Reader.bind_eq_of_ok (char_cons rfl _)
  have hlength := congrArg List.length hdotted
  have hnamesLength := length_le_length_flatMap names
  simp only [List.length_append, List.length_cons] at hlength ⊢
  refine ⟨rest, ?_, hrest, by omega⟩
  obtain ⟨bound, rfl⟩ : ∃ k, bound = k + 1 := ⟨bound - 1, by omega⟩
  unfold Reader.many
  rw [(Reader.bind_eq_of_ok hdot).trans (name_append hname (isNameChar_head_others names hnext))]
  dsimp only
  rw [many_dots hnames hnext hstop (by omega)]
  rfl

theorem reads_extensionName {path : String} (hpath : IsPath path) (hbound : n ≤ bound) :
    Reads n (extensionName bound) ("(" :: path :: ")" :: tokens) tokens path := by
  have hdot : ∀ c ∈ path.toList.head?, c ≠ '.' := by
    rcases hpath.exists_head with ⟨c, cs, hc, hstart⟩
    rw [hc]
    rintro d hd rfl
    obtain rfl : c = '.' := by simpa using hd
    exact absurd hstart (by decide)
  apply (reads_symbol rfl).bind
  apply (fails_symbol hdot).maybe_none.bind
  apply (reads_path hpath hbound).bind
  exact (reads_symbol rfl).bind (.pure _)

theorem reads_optionName_extension {path : String} (hpath : IsPath path)
    (hfirst : ∀ c ∈ first.toList.head?, c ≠ '.') (hbound : n ≤ bound) :
    Reads n (optionName bound) ("(" :: path :: ")" :: first :: tokens) (first :: tokens)
      (some path, []) := by
  have hextension : Reads n
      ((do
        let extension ← extensionName bound
        return (some extension, []))
      <|> (do
        let first ← Source.name
        return (none, [first])) : Reader (Option String × List String))
      ("(" :: path :: ")" :: first :: tokens) (first :: tokens) (some path, []) := by
    apply Reads.orElse_left
    exact (reads_extensionName hpath hbound).bind (.pure _)
  exact hextension.bind ((reads_dots_nil hfirst hbound).bind (.pure _))

/-! ### Values of options -/

structure IsConstant (bound : Nat) (text : String) : Prop where
  head_ne : ∀ c ∈ text.toList.head?, c ≠ '\x7b' ∧ c ≠ '['
  reads : ∀ {n : Nat} {tokens : List String}, Reads n (constant bound) (text :: tokens) tokens text

theorem isConstant_integer (z : Int) : IsConstant bound (toString z) where
  head_ne := by
    rcases exists_toList_toString z with ⟨sign, k, hsign, hz⟩
    rcases exists_toDigits k with ⟨d, digits, hdigits, hd, -⟩
    rw [hz, hdigits]
    rcases hsign with ⟨rfl, -⟩ | ⟨rfl, -⟩
    . intro c hc
      obtain rfl : d = c := by simpa using hc
      constructor
      all_goals rintro rfl; exact absurd hd (by decide)
    . intro c hc
      obtain rfl : '-' = c := by simpa using hc
      decide
  reads := reads_constant_integer z

theorem isConstant_bool (value : Bool) : IsConstant bound (toString value) where
  head_ne := by
    cases value
    all_goals decide
  reads := reads_constant_bool value

theorem isConstant_literal {bytes : List UInt8} {literal : String}
    (h : Code.IsLiteralOf bytes literal) : IsConstant bound literal where
  head_ne := by
    rcases h with ⟨units, hliteral, -⟩
    rw [hliteral]
    intro c hc
    obtain rfl : '"' = c := by simpa using hc
    decide
  reads := reads_constant_literal h

theorem Reads.optionValue {text : String}
    (h : Reads n (constant bound) (text :: tokens) tokens text)
    (hhead : ∀ c ∈ text.toList.head?, c ≠ '\x7b' ∧ c ≠ '[') {depth : Nat} (hdepth : 0 < depth) :
    Reads n (Source.optionValue bound depth) (text :: tokens) tokens (.constant text) := by
  obtain ⟨depth, rfl⟩ : ∃ k, depth = k + 1 := ⟨depth - 1, by omega⟩
  unfold Source.optionValue
  apply Reads.orElse_right (fails_symbol fun c hc => (hhead c hc).1).bind
  apply Reads.orElse_right (fails_symbol fun c hc => (hhead c hc).2).bind
  exact (h.map _).orElse_left

theorem IsConstant.reads_optionValue {text : String} (h : IsConstant bound text) {depth : Nat}
    (hdepth : 0 < depth) :
    Reads n (optionValue bound depth) (text :: tokens) tokens (.constant text) :=
  h.reads.optionValue h.head_ne hdepth

theorem Reads.assignment {value : OptionValue}
    (h : Reads n (Source.optionValue bound bound) tokens rest value) {name : String}
    (hname : IsName name) (hbound : n ≤ bound) :
    Reads n (Source.assignment bound) (name :: "=" :: tokens) rest
      { extension := none, path := [name], value } := by
  apply (Reads.optionName_of_name hname (reads_dots_nil (by decide) hbound)).bind
  apply (reads_symbol rfl).bind
  exact h.bind (.pure _)

theorem symbol_append (htoken : IsToken first) {c : Char} (h : ∀ d ∈ first.toList.head?, d ≠ c)
    (s : List Char) : symbol c (first.toList ++ s) = .mismatch := by
  change (do let _ ← Reader.char (· = c) : Reader Unit) (skipTrivia _) = _
  rw [htoken.skipTrivia_append]
  apply Reader.bind_eq_of_mismatch
  apply char_eq_mismatch_of_head
  rw [List.head?_append_of_ne_nil _ (List.ne_nil_of_length_pos htoken.length_pos)]
  intro d hd
  exact decide_eq_false (h d hd)

theorem fails_aggregateKey (h : ∀ c ∈ first.toList.head?, c ≠ '(' ∧ ¬isNameStart c) :
    Fails n (aggregateKey bound) (first :: tokens) := by
  apply Fails.token
  intro htoken s _
  have hextension : extensionName bound (first.toList ++ s) = .mismatch :=
    Reader.bind_eq_of_mismatch (symbol_append htoken (fun c hc => (h c hc).1) s)
  have hname : name (first.toList ++ s) = .mismatch := by
    change (String.ofList <$> nameHere : Reader String) (skipTrivia _) = _
    rw [htoken.skipTrivia_append]
    rcases htoken with ⟨c, cs, hc, -, -⟩
    rw [hc] at h ⊢
    exact Reader.map_eq_of_mismatch (nameHere_eq_mismatch (h c rfl).2)
  apply Reader.map_eq_of_mismatch
  unfold Reader.textOf
  rw [(Reader.orElse_eq_of_mismatch hextension).trans hname]

theorem reads_aggregateKey {key : String} (hkey : IsName key) :
    Reads n (aggregateKey bound) (key :: tokens) tokens key := by
  have htoken := isToken_of_isNameChar hkey.isPath.toList_ne_nil hkey.isNameChar_of_mem
  apply Reads.token
  intro s hapart _
  have hnext := hapart.of_word hkey.isPath.toList_ne_nil hkey.isPath.isPathChar_of_mem
  have hextension : extensionName bound (key.toList ++ s) = .mismatch :=
    Reader.bind_eq_of_mismatch (symbol_append htoken (hkey.head_ne (by decide)) s)
  have hname := name_append hkey fun c hc => isNameChar_eq_false (hnext c hc)
  rw [Reader.map_eq_of_ok (textOf_append ((Reader.orElse_eq_of_mismatch hextension).trans hname))]
  rw [String.ofList_toList]

theorem reads_trailingOptions_nil (h : ∀ c ∈ first.toList.head?, c ≠ '[') :
    Reads n (trailingOptions bound) (first :: tokens) (first :: tokens) [] :=
  .orElse_right (fails_symbol h).bind (.pure [])

/-! ### Files -/

theorem fails_dialectClause (hkeyword : ¬"syntax".toList <+: first.toList)
    (hedition : ¬"edition".toList <+: first.toList) :
    Fails n dialectClause (first :: tokens) := by
  apply Fails.bind
  apply Fails.orElse
  . exact (fails_keyword (by decide) hkeyword).map _
  . exact (fails_keyword (by decide) hedition).map _

theorem fails_dialectClause_nil : Fails n dialectClause [] := by
  apply Fails.bind
  apply Fails.orElse
  . exact (fails_keyword_nil (by decide)).map _
  . exact (fails_keyword_nil (by decide)).map _

theorem fails_statement_nil : Fails n (statement bound) [] := by
  apply Fails.firstOf
  intro p hp
  simp only [List.mem_cons, List.not_mem_nil, or_false] at hp
  rcases hp with rfl | rfl | rfl | rfl | rfl | rfl | rfl | rfl
  . exact (fails_keyword_nil (by decide)).bind
  . exact (fails_keyword_nil (by decide)).bind
  . exact (fails_keyword_nil (by decide)).bind.map _
  . exact (fails_keyword_nil (by decide)).bind
  . exact (fails_keyword_nil (by decide)).bind.map _
  . exact (fails_keyword_nil (by decide)).bind.map _
  . exact (fails_keyword_nil (by decide)).bind.map _
  . exact fails_symbol_nil.map _

theorem reads_atEnd : Reads n (token Reader.atEnd) [] [] () where
  length_le := le_refl _
  exists_eq_ok {s} hlaid _ := by
    refine ⟨[], ?_, .nil .nil, by simp⟩
    change Reader.atEnd (skipTrivia s) = _
    rw [hlaid.skipTrivia_nil]
    rfl

theorem reads_file {dialect : Option DialectClause} {statements : List Statement}
    (hdialect : Reads n (Reader.maybe dialectClause) tokens between dialect)
    (hstatements : Reads n (Reader.many (statement bound) bound) between [] statements) :
    Reads n (file bound) tokens [] { dialect, statements } :=
  hdialect.bind (hstatements.bind (reads_atEnd.bind (.pure _)))

theorem ofText?_eq_some {tree : FileTree} {s : List Char} (hlaid : LaidOut tokens s)
    (h : ∀ bound, Reads bound (file bound) tokens [] tree) : FileTree.ofText? s = some tree := by
  rcases (h (s.length + 1)).exists_eq_ok hlaid (Nat.lt_succ_self _) with ⟨after, hafter, -⟩
  unfold FileTree.ofText?
  rw [hafter]

end Source

end HessianGo
