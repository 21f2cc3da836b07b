import HessianGo.Document.DateTime

/-!
This module contains the values of TOML documents as far as a configuration holds them, which are
texts, dates, lists and tables, and the rules by which tables grow. A key is defined once. A table
defined by its header takes no second header, a table that came about by dotted keys takes no header
and only further dotted keys, and a table in braces is complete.
-/

namespace HessianGo

namespace Document

inductive TableOrigin where
  | header
  /-- The header of a table inside it mentions it. -/
  | implied
  /-- A dotted key mentions it. -/
  | dotted
  | inline
  deriving DecidableEq, Inhabited

inductive Value where
  | text (value : String)
  | dateTime (value : DateTime)
  | list (items : List Value)
  | table (origin : TableOrigin) (entries : List (String × Value))
  deriving Inhabited

abbrev Entries : Type :=
  List (String × Value)

namespace Entries

def replace (entries : Entries) (key : String) (value : Value) : Entries :=
  entries.map fun entry => if entry.1 = key then (key, value) else entry

def define? (entries : Entries) (value : Value) : List String → Option Entries
  | [] => none
  | [key] =>
    match entries.lookup key with
    | none => some (entries ++ [(key, value)])
    | some _ => none
  | key :: keys =>
    match entries.lookup key with
    | none => do
      let inner ← define? [] value keys
      return entries ++ [(key, .table .dotted inner)]
    | some (.table .dotted inner) => do
      let inner ← define? inner value keys
      return entries.replace key (.table .dotted inner)
    | some _ => none

def open? (entries : Entries) : List String → Option Entries
  | [] => none
  | [key] =>
    match entries.lookup key with
    | none => some (entries ++ [(key, .table .header [])])
    | some (.table .implied inner) => some (entries.replace key (.table .header inner))
    | some _ => none
  | key :: keys =>
    match entries.lookup key with
    | none => do
      let inner ← open? [] keys
      return entries ++ [(key, .table .implied inner)]
    | some (.table .inline _) => none
    | some (.table origin inner) => do
      let inner ← open? inner keys
      return entries.replace key (.table origin inner)
    | some _ => none

def defineIn? (entries : Entries) (header : List String) (keys : List String) (value : Value) :
    Option Entries :=
  match header with
  | [] => entries.define? value keys
  | key :: header =>
    match entries.lookup key with
    | some (.table origin inner) => do
      let inner ← defineIn? inner header keys value
      return entries.replace key (.table origin inner)
    | _ => none

def ofDefinitions? (definitions : List (List String × Value)) : Option Entries :=
  definitions.foldlM (fun entries (keys, value) => entries.define? value keys) []

end Entries

inductive Line where
  | blank
  | header (keys : List String)
  | definition (keys : List String) (value : Value)

def Entries.addLine? : Entries × List String → Line → Option (Entries × List String)
  | (entries, header), .blank => some (entries, header)
  | (entries, _), .header keys => (entries.open? keys).map (·, keys)
  | (entries, header), .definition keys value =>
    (entries.defineIn? header keys value).map (·, header)

def Entries.ofLines? (lines : List Line) : Option Entries :=
  (lines.foldlM Entries.addLine? ([], [])).map Prod.fst

end Document

end HessianGo
