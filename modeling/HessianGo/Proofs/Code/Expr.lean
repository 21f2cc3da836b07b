import HessianGo.Code.Expr
import HessianGo.Proofs.Code.ImportTable

/-!
This module contains the texts of Go types and expressions in a file with a given import table, and
the proof that writing gives these texts: what is written while the table still grows is the text
for the table that is there in the end.
-/

namespace HessianGo

namespace Code

namespace TypeExpr

def idents : TypeExpr → List Ident
  | plain _ => []
  | .ident name => [name]
  | pointer target => target.idents
  | slice element => element.idents
  | map key value => key.idents ++ value.idents

def text (table : ImportTable) : TypeExpr → String
  | plain name => name
  | .ident name => table.refer name
  | pointer target => "*" ++ target.text table
  | slice element => "[]" ++ element.text table
  | map key value => "map[" ++ key.text table ++ "]" ++ value.text table

theorem text_congr {table other : ImportTable} {type : TypeExpr}
    (h : ∀ ident ∈ type.idents, table.refer ident = other.refer ident) :
    type.text table = type.text other := by
  induction type with
  | plain name => rfl
  | ident name => exact h name (by simp [idents])
  | pointer target ih => rw [text, text, ih h]
  | slice element ih => rw [text, text, ih h]
  | map key value ihKey ihValue =>
    simp only [idents, List.mem_append] at h
    rw [text, text]
    rw [ihKey fun ident hident => h ident (.inl hident)]
    rw [ihValue fun ident hident => h ident (.inr hident)]

end TypeExpr

namespace Expr

def idents : Expr → List Ident
  | plain _ => []
  | .ident name => [name]
  | call function _ => [function]
  | convert _ value => value.idents

def text (table : ImportTable) : Expr → String
  | plain text => text
  | .ident name => table.refer name
  | call function arguments => table.refer function ++ "(" ++ arguments ++ ")"
  | convert type value => type ++ "(" ++ value.text table ++ ")"

theorem text_congr {table other : ImportTable} {expr : Expr}
    (h : ∀ ident ∈ expr.idents, table.refer ident = other.refer ident) :
    expr.text table = expr.text other := by
  induction expr with
  | plain text => rfl
  | ident name => exact h name (by simp [idents])
  | call function arguments => rw [text, text, h function (by simp [idents])]
  | convert type value ih => rw [text, text, ih h]

end Expr

/-! ### Writing -/

namespace Writing

open ImportTable (Extends)

variable {α β : Type}

/--
Writing refers to exactly these identifiers, and what it gives is the given value for the table that
it leaves and for all later ones.
-/
structure Writes (writing : Writing α) (idents : List Ident) (value : ImportTable → α) : Prop where
  table_eq : ∀ table, (writing.run table).2 = table.recordAll idents
  value_eq : ∀ table later, Extends (writing.run table).2 later →
    (writing.run table).1 = value later

theorem Writes.pure (value : α) : Writes (Pure.pure value) [] (fun _ => value) where
  table_eq _ := rfl
  value_eq _ _ _ := rfl

theorem Writes.bind {writing : Writing α} {next : α → Writing β} {first second : List Ident}
    {f : ImportTable → α} {g : α → ImportTable → β} (hwriting : Writes writing first f)
    (hnext : ∀ value, Writes (next value) second (g value)) :
    Writes (writing >>= next) (first ++ second) (fun table => g (f table) table) where
  table_eq table := by
    rw [ImportTable.recordAll_append]
    rw [← hwriting.table_eq]
    apply (hnext _).table_eq
  value_eq table later hlater := by
    -- The table after the first part lies between the two others.
    have hbetween : Extends (writing.run table).2 later := by
      apply Extends.trans ?_ hlater
      change Extends _ ((next _).run _).2
      rw [(hnext _).table_eq]
      apply ImportTable.recordAll_extends
    rw [← hwriting.value_eq table later hbetween]
    exact (hnext _).value_eq _ later hlater

theorem Writes.map {writing : Writing α} {idents : List Ident} {f : ImportTable → α} (g : α → β)
    (h : Writes writing idents f) : Writes (g <$> writing) idents (fun table => g (f table)) where
  table_eq := h.table_eq
  value_eq table later hlater := congrArg g (h.value_eq table later hlater)

theorem writes_ident (ident : Ident) :
    Writes ident.write [ident] (fun table => table.refer ident) where
  table_eq _ := rfl
  value_eq table later hlater := by
    have hknows := ImportTable.record_knows table ident.importPath
    exact (hknows.refer_eq hlater).symm

theorem writes_typeExpr (type : TypeExpr) :
    Writes type.write type.idents (fun table => type.text table) := by
  induction type with
  | plain name => apply Writes.pure
  | ident name => apply writes_ident
  | pointer target ih => exact ih.map ("*" ++ ·)
  | slice element ih => exact ih.map ("[]" ++ ·)
  | map key value ihKey ihValue =>
    exact ihKey.bind fun key => ihValue.map ("map[" ++ key ++ "]" ++ ·)

theorem writes_expr (expr : Expr) :
    Writes expr.write expr.idents (fun table => expr.text table) := by
  induction expr with
  | plain text => apply Writes.pure
  | ident name => apply writes_ident
  | call function arguments => exact (writes_ident function).map (· ++ "(" ++ arguments ++ ")")
  | convert type value ih => exact ih.map (type ++ "(" ++ · ++ ")")

end Writing

end Code

end HessianGo
