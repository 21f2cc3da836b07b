import HessianGo.Proofs.Binding.Stateless

/-!
This module contains what happens when something is bound again. The first run leaves a table that
knows every package that was referred to, up to the end or up to the error that stopped it. So each
later run refers to the same packages in the same way, stops at the same place and records nothing.
-/

namespace HessianGo

namespace Code

namespace ImportTable

theorem Knows.record_eq {table : ImportTable} {importPath : ImportPath}
    (h : table.Knows importPath.path) : table.record importPath = table := by
  exact if_pos h

theorem recordAll_eq_self {table : ImportTable} {idents : List Ident}
    (h : ∀ ident ∈ idents, table.Knows ident.importPath.path) : table.recordAll idents = table := by
  induction idents with
  | nil => rfl
  | cons ident idents ih =>
    rw [List.forall_mem_cons] at h
    rw [recordAll_cons, h.1.record_eq]
    exact ih h.2

end ImportTable

open ImportTable (Extends)

theorem Writing.Writes.run_eq {α : Type} {writing : Writing α} {idents : List Ident}
    {value : ImportTable → α} (h : Writes writing idents value) {table later : ImportTable}
    (hlater : Extends (writing.run table).2 later) :
    writing.run later = ((writing.run table).1, later) := by
  have htable : (writing.run later).2 = later := by
    rw [h.table_eq]
    apply ImportTable.recordAll_eq_self
    intro ident hident
    rw [h.table_eq] at hlater
    exact (ImportTable.recordAll_knows hident).of_extends hlater
  have hvalue : (writing.run later).1 = (writing.run table).1 := by
    rw [h.value_eq table later hlater]
    apply h.value_eq
    rw [htable]
    apply Extends.refl
  exact Prod.ext hvalue htable

end Code

namespace Binding

open Code (Packages ImportTable Ident Writing)
open Code.ImportTable (Extends)

namespace Binder

variable {α β : Type}

/--
Binding only adds to the table, and for the table that it leaves and for all later ones it has the
same result again, be it an error or not, and adds nothing.
-/
structure Replays (binder : Binder α) : Prop where
  grows : ∀ table, Extends table (binder.run.run table).2
  run_eq : ∀ {table later}, Extends (binder.run.run table).2 later →
    binder.run.run later = ((binder.run.run table).1, later)

theorem Replays.run_later {binder : Binder α} (h : Replays binder) {table after : ImportTable}
    {result : Except Error α} (hrun : binder.run.run table = (result, after)) {later : ImportTable}
    (hlater : Extends after later) : binder.run.run later = (result, later) := by
  have hagain := @h.run_eq table later
  rw [hrun] at hagain
  exact hagain hlater

theorem Replays.pure (result : α) : Replays (Pure.pure result : Binder α) where
  grows := Extends.refl
  run_eq _ := rfl

theorem Replays.throw (error : Error) : Replays (MonadExcept.throw error : Binder α) where
  grows := Extends.refl
  run_eq _ := rfl

theorem Replays.lift {writing : Writing α} {idents : List Ident} {value : ImportTable → α}
    (h : writing.Writes idents value) : Replays (liftM writing : Binder α) where
  grows := (Writes.lift h).extends
  run_eq {table later} hlater := by
    change (Except.ok (writing.run later).1, (writing.run later).2) = (_, later)
    rw [h.run_eq hlater]
    rfl

theorem Replays.bind {binder : Binder α} {next : α → Binder β} (hbinder : Replays binder)
    (hnext : ∀ value, Replays (next value)) : Replays (binder >>= next) where
  grows table := by
    have hfirst := hbinder.grows table
    rw [run_bind]
    cases hrun : binder.run.run table with
    | mk outcome between =>
      rw [hrun] at hfirst
      cases outcome with
      | error error => exact hfirst
      | ok value => exact hfirst.trans ((hnext value).grows between)
  run_eq {table later} hlater := by
    have hfirst := @hbinder.run_eq table later
    rw [run_bind] at hlater
    rw [run_bind, run_bind]
    cases hrun : binder.run.run table with
    | mk outcome between =>
      rw [hrun] at hlater hfirst
      cases outcome with
      | error error => rw [hfirst hlater]
      | ok value =>
        -- The table after the first part lies between the two others.
        rw [hfirst (((hnext value).grows between).trans hlater)]
        exact (hnext value).run_eq hlater

theorem Replays.mapM {f : α → Binder β} {items : List α} (h : ∀ item ∈ items, Replays (f item)) :
    Replays (items.mapM f) := by
  induction items with
  | nil => apply Replays.pure
  | cons item items ih =>
    rw [List.forall_mem_cons] at h
    rw [List.mapM_cons]
    exact h.1.bind fun _ => (ih h.2).bind fun _ => .pure _

end Binder

section

variable (packages : Packages)

theorem replays_bindMessage (message : Schema.Message) :
    (bindMessage packages message).Replays := by
  induction message using Schema.Message.treeInduction with
  | node message ih =>
    have hinner : (bindInnerMessages packages message.messages).Replays := by
      rw [bindInnerMessages_eq_mapM]
      apply Binder.Replays.mapM
      intro inner hmem
      exact (ih inner hmem).bind fun _ => .pure _
    have hfields :
        Binder.Replays (message.fields.mapM fun field => liftM (bindField packages field)) :=
      .mapM fun field _ => .lift (writes_bindField packages field)
    rw [bindMessage_eq]
    cases message.isMapEntry with
    | true => apply Binder.Replays.pure
    | false =>
      cases bindable? message.options with
      | some options => exact hinner.bind fun _ => hfields.bind fun _ => .pure _
      | none => exact hinner.bind fun _ => hfields.bind fun _ => .throw _

theorem replays_bindFile (file : Schema.File) : (bindFile packages file).Replays := by
  have henums :
      Binder.Replays (file.enums.mapM fun enum => liftM (bindEnum packages enum)) :=
    .mapM fun enum _ => .lift (writes_bindEnum packages enum)
  have hmessages : (file.messages.mapM (bindMessage packages)).Replays :=
    .mapM fun message _ => replays_bindMessage packages message
  exact henums.bind fun _ => hmessages.bind fun _ => .pure _

end

/--
A file or a message that is bound twice in a row has the same binding or the same error the second
time, and the second run leaves the imports of the first. The same holds when other things have been
bound in between, so that there are more imports.
-/
theorem binding_again (packages : Packages) (table : ImportTable) :
    (∀ file result after, (bindFile packages file).run.run table = (result, after) →
      (bindFile packages file).run.run after = (result, after)
        ∧ ∀ later, Extends after later →
          (bindFile packages file).run.run later = (result, later))
    ∧ ∀ message result after, (bindMessage packages message).run.run table = (result, after) →
      (bindMessage packages message).run.run after = (result, after)
        ∧ ∀ later, Extends after later →
          (bindMessage packages message).run.run later = (result, later) := by
  constructor
  . intro file result after hrun
    have hreplays := replays_bindFile packages file
    exact ⟨hreplays.run_later hrun (.refl after), fun _ hlater => hreplays.run_later hrun hlater⟩
  . intro message result after hrun
    have hreplays := replays_bindMessage packages message
    exact ⟨hreplays.run_later hrun (.refl after), fun _ hlater => hreplays.run_later hrun hlater⟩

def receiptMessage : Schema.Message :=
  { name := "Receipt", fullName := "shop.Receipt", options := some { javaClassName := "Receipt" }
    messages := [priceMessage, { name := "Stamp", fullName := "shop.Receipt.Stamp" }] }

def taxTable : ImportTable :=
  { priceTable with entries := priceTable.entries ++ [("a/tax", "tax")] }

theorem binding_again_receiptMessage :
    (bindMessage moneyPackages receiptMessage).run.run coinTable
        = (.error (.missingClassName "shop.Receipt.Stamp"), priceTable)
      ∧ (bindMessage moneyPackages receiptMessage).run.run priceTable
        = (.error (.missingClassName "shop.Receipt.Stamp"), priceTable)
      ∧ Extends priceTable taxTable
      ∧ (bindMessage moneyPackages receiptMessage).run.run taxTable
        = (.error (.missingClassName "shop.Receipt.Stamp"), taxTable) := by
  have hrun : (bindMessage moneyPackages receiptMessage).run.run coinTable
      = (.error (.missingClassName "shop.Receipt.Stamp"), priceTable) :=
    rfl
  have hlater : Extends priceTable taxTable := ⟨rfl, List.prefix_append _ _⟩
  rcases (binding_again moneyPackages coinTable).2 receiptMessage _ _ hrun with ⟨hagain, hextended⟩
  exact ⟨hrun, hagain, hlater, hextended taxTable hlater⟩

end Binding

end HessianGo
