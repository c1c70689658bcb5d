import DungeonHub.Lib.Nested
import DungeonHub.Proofs.Cache
import DungeonHub.Proofs.Isolation

/-!
# Transactions within transactions

Transactions that are begun and ended one within the other are all-or-nothing at every level, in a
table and in a cache over two tables: what is stored after them is what it would be if the calls
that no rolled back transaction encloses had been made alone.
-/

namespace DungeonHub

open InventoryStorage Nested Run

/-- A call that concerns no transaction. -/
abbrev PlainCall := { call : StorageCall // ContentCall call }

/-- A storage as its callers use it. -/
def storageMachine (σ : Type) [InventoryStorage σ] : Machine σ Transaction PlainCall where
  begin := beginTransaction
  commit := commitTransaction
  rollback := rollbackTransaction
  call s u := storageStep s u.1

theorem storageMachine_foldl {σ : Type} [InventoryStorage σ] :
    ∀ (us : List PlainCall) (s : σ),
      us.foldl (storageMachine σ).call s = after storageStep s (us.map Subtype.val)
  | [], _ => rfl
  | u :: us, s => storageMachine_foldl us (storageStep s u.1)

section Table

/-- What the transaction would bring back. -/
def InventoryTable.saved (s : InventoryTable) (t : Transaction) : Option TableContent :=
  s.transactionSnapshots[t.transactionId]?

/-- What a call makes of what is stored. -/
def TableContent.step (c : TableContent) (u : PlainCall) : TableContent :=
  (storageStep (tableOf c) u.1).content

theorem numbered_tableOf (c : TableContent) : Numbered (tableOf c) :=
  ⟨le_rfl, fun _ ht => absurd ht Std.ExtTreeMap.not_mem_empty⟩

theorem saved_insert_table (s s' : InventoryTable) (n : ℕ) (c : TableContent)
    (h : s'.transactionSnapshots = s.transactionSnapshots.insert n c) :
    s'.saved = Function.update s.saved ⟨n⟩ (some c) := by
  funext x
  unfold InventoryTable.saved
  rw [h, Dict.get?_insert]
  by_cases hx : x = ⟨n⟩
  · subst hx
    simp
  · have hne : n ≠ x.transactionId := fun heq => hx (by cases x; simp_all)
    simp [hne, hx]

theorem saved_erase_table (s s' : InventoryTable) (t : Transaction)
    (h : s'.transactionSnapshots = s.transactionSnapshots.erase t.transactionId) :
    s'.saved = Function.update s.saved t none := by
  funext x
  unfold InventoryTable.saved
  rw [h, Dict.get?_erase]
  by_cases hx : x = t
  · subst hx
    simp
  · have hne : t.transactionId ≠ x.transactionId := fun heq => hx (by cases x; cases t; simp_all)
    simp [hne, hx]

theorem table_lawful : (storageMachine InventoryTable).Lawful Numbered InventoryTable.content
    InventoryTable.saved TableContent.step where
  begins {s} h := by
    have hbegin := table_begin s h.next_not_mem
    refine ⟨numbered_begin h, rfl, (Dict.not_mem_iff _ _).mp h.next_not_mem, ?_⟩
    exact saved_insert_table s _ s.nextTransactionId s.content (congrArg _ hbegin)
  commits {s t old} h _ :=
    ⟨numbered_step h (.commitTransaction t), rfl, saved_erase_table s _ t rfl⟩
  rolls {s t old} h hold := by
    have hrolled := table_rollback_known hold
    refine ⟨numbered_rollback h t, ?_, saved_erase_table s _ t ?_⟩
    · exact congrArg InventoryTable.content hrolled
    · exact congrArg InventoryTable.transactionSnapshots hrolled
  calls {s} u h := by
    obtain ⟨call, hcall⟩ := u
    refine ⟨numbered_step h call, ?_⟩
    cases call with
    | beginTransaction => exact hcall.elim
    | commitTransaction t => exact hcall.elim
    | rollbackTransaction t => exact hcall.elim
    | _ => exact ⟨rfl, rfl⟩

end Table

section Cached

/-- What both layers store, the persistent one first. -/
def CachedInventoryStorage.contents (s : CachedTables) : TableContent × TableContent :=
  (s.persistent.content, s.cache.content)

/-- Layers that store this, with no transaction open. -/
def layersOf (c : TableContent × TableContent) : CachedTables :=
  { persistent := tableOf c.1, cache := tableOf c.2 }

def CachedInventoryStorage.saved (s : CachedTables) (t : Transaction) :
    Option (TableContent × TableContent) :=
  (s.persistent.saved t).bind fun p => (s.cache.saved t).map fun c => (p, c)

/-- What a call makes of what both layers store. -/
def stepContents (c : TableContent × TableContent) (u : PlainCall) : TableContent × TableContent :=
  (storageStep (layersOf c) u.1).contents

/-- A write that looks at the contents only leaves contents that depend on nothing else. -/
theorem contents_writeThrough (s : CachedTables) (id : InventoryId)
    (pw cw : TableContent → Bool × TableContent) :
    (s.writeThrough id (fun p => ((pw p.content).1, { p with content := (pw p.content).2 }))
      (fun c => ((cw c.content).1, { c with content := (cw c.content).2 }))).2.contents =
    ((layersOf s.contents).writeThrough id
      (fun p => ((pw p.content).1, { p with content := (pw p.content).2 }))
      (fun c => ((cw c.content).1, { c with content := (cw c.content).2 }))).2.contents := by
  rcases hp : pw s.persistent.content with ⟨_ | _, p⟩
  · simp [CachedInventoryStorage.writeThrough, hp, layersOf, tableOf,
      CachedInventoryStorage.contents]
  · rcases hc : cw s.cache.content with ⟨_ | _, c⟩
    · rcases hl : p.inventories[id]? with _ | items <;>
        simp [CachedInventoryStorage.writeThrough, CachedInventoryStorage.refreshCache,
          InventoryStorage.loadInventory, InventoryTable.loadInventory,
          InventoryStorage.saveInventory, hp, hc, hl, layersOf, tableOf,
          CachedInventoryStorage.contents]
    · simp [CachedInventoryStorage.writeThrough, hp, hc, layersOf, tableOf,
        CachedInventoryStorage.contents]

theorem contents_step (s : CachedTables) (u : PlainCall) :
    (storageStep s u.1).contents = stepContents s.contents u := by
  obtain ⟨call, hcall⟩ := u
  cases call with
  | beginTransaction => exact hcall.elim
  | commitTransaction t => exact hcall.elim
  | rollbackTransaction t => exact hcall.elim
  | loadInventory id =>
    show (CachedInventoryStorage.loadInventory s id).2.contents =
      (CachedInventoryStorage.loadInventory (layersOf s.contents) id).2.contents
    rcases hc : s.cache.content.inventories[id]? with _ | items
    · rcases hp : s.persistent.content.inventories[id]? with _ | items <;>
        simp [CachedInventoryStorage.loadInventory, InventoryStorage.loadInventory,
          InventoryTable.loadInventory, InventoryStorage.saveInventory, hc, hp, layersOf, tableOf,
          CachedInventoryStorage.contents]
    · simp [CachedInventoryStorage.loadInventory, InventoryStorage.loadInventory,
        InventoryTable.loadInventory, hc, layersOf, tableOf, CachedInventoryStorage.contents]
  | saveInventory state => rfl
  | addItem id item quantity reason =>
    exact contents_writeThrough s id (fun c => c.addItem id item quantity reason)
      fun c => c.addItem id item quantity reason
  | removeItem id item quantity reason =>
    exact contents_writeThrough s id (fun c => c.removeItem id item quantity reason)
      fun c => c.removeItem id item quantity reason
  | setItem id item quantity reason => rfl

theorem saved_update {s s' : CachedTables} {t : Transaction} {p c : Option TableContent}
    (hp : s'.persistent.saved = Function.update s.persistent.saved t p)
    (hc : s'.cache.saved = Function.update s.cache.saved t c) :
    s'.saved = Function.update s.saved t (p.bind fun p => c.map fun c => (p, c)) := by
  funext x
  unfold CachedInventoryStorage.saved
  rw [hp, hc]
  by_cases hx : x = t
  · subst hx
    simp
  · simp [hx]

theorem mem_transactions {s : CachedTables} (h : Paired s) {t : Transaction}
    {old : TableContent × TableContent} (hold : s.saved t = some old) :
    t.transactionId ∈ s.transactions := by
  obtain ⟨p, hp, -⟩ := Option.bind_eq_some_iff.mp hold
  exact (h.persistentOpen _).mp ((Dict.mem_iff _ _).mpr ⟨p, hp⟩)

theorem saved_none {s : CachedTables} (h : Paired s) {t : ℕ} (ht : t ∉ s.transactions) :
    s.saved ⟨t⟩ = none := by
  have hnone : s.persistent.saved ⟨t⟩ = none :=
    (Dict.not_mem_iff _ _).mp fun hmem => ht ((h.persistentOpen t).mp hmem)
  rw [CachedInventoryStorage.saved, hnone]
  rfl

theorem cached_lawful : (storageMachine CachedTables).Lawful Paired
    CachedInventoryStorage.contents CachedInventoryStorage.saved stepContents where
  begins {s} h := by
    have hbegin := h.cached_begin
    refine ⟨paired_begin h, ?_, saved_none h h.next_not_mem, saved_update (p := some _)
      (c := some _) ?_ ?_⟩
    · show (beginTransaction s).2.contents = s.contents
      rw [hbegin, h.persistent_begin, h.cache_begin]
      rfl
    · refine saved_insert_table s.persistent _ s.nextTransactionId s.persistent.content ?_
      show (beginTransaction s).2.persistent.transactionSnapshots = _
      rw [hbegin, h.persistent_begin]
    · refine saved_insert_table s.cache _ s.nextTransactionId s.cache.content ?_
      show (beginTransaction s).2.cache.transactionSnapshots = _
      rw [hbegin, h.cache_begin]
  commits {s t old} h hold := by
    have hcommit := cached_commit_known h (mem_transactions h hold)
    refine ⟨(paired_step h (.commitTransaction t)).1, ?_, saved_update (p := none) (c := none)
      (saved_erase_table s.persistent _ t ?_) (saved_erase_table s.cache _ t ?_)⟩
    · exact (congrArg CachedInventoryStorage.contents hcommit).trans rfl
    · exact congrArg (fun s : CachedTables => s.persistent.transactionSnapshots) hcommit
    · exact congrArg (fun s : CachedTables => s.cache.transactionSnapshots) hcommit
  rolls {s t old} h hold := by
    obtain ⟨p, c, hp, hc, hrolled⟩ := rollback_contents h (mem_transactions h hold)
    refine ⟨(paired_step h (.rollbackTransaction t)).1, ?_, saved_update (p := none) (c := none)
      (saved_erase_table s.persistent _ t ?_) (saved_erase_table s.cache _ t ?_)⟩
    · have hsaved : s.saved t = some (p, c) := by
        simp [CachedInventoryStorage.saved, InventoryTable.saved, hp, hc]
      rw [hsaved, Option.some.injEq] at hold
      exact (congrArg CachedInventoryStorage.contents hrolled).trans hold
    · exact congrArg (fun s : CachedTables => s.persistent.transactionSnapshots) hrolled
    · exact congrArg (fun s : CachedTables => s.cache.transactionSnapshots) hrolled
  calls {s} u h := by
    refine ⟨(paired_step h u.1).1, contents_step s u, ?_⟩
    obtain ⟨p, c, hs, -⟩ := content_step s u.2
    show (storageStep s u.1).saved = s.saved
    rw [hs]
    rfl

end Cached

section Scripts

/-- A storage of either kind after any calls, overlapping transactions among them, and then a script
of transactions within transactions: every inventory and every change log is what it would be had
the calls that are kept been made alone, and the transactions that are open are those that were open
before the script, with what they would bring back. -/
theorem nested_transactions (c : TableContent) (calls : List StorageCall)
    (script : Script PlainCall) :
    (let s := after storageStep (tableOf c) calls
     let done := (storageMachine InventoryTable).run s script
     let kept := after storageStep s (script.kept.map Subtype.val)
     (∀ id, done.loadInventory id = kept.loadInventory id ∧
        done.changeLog id = kept.changeLog id) ∧
      ∀ t : ℕ, done.transactionSnapshots[t]? = s.transactionSnapshots[t]?) ∧
    (let s := after storageStep (cachedOver c) calls
     let done := (storageMachine CachedTables).run s script
     let kept := after storageStep s (script.kept.map Subtype.val)
     (∀ id, (loadInventory done id).1 = (loadInventory kept id).1 ∧
        changeLog done id = changeLog kept id) ∧
      ∀ t : Transaction, done.saved t = s.saved t) := by
  constructor
  · intro s done kept
    have hs : Numbered s := stable (I := Numbered) (fun _ call h => numbered_step h call) calls
      (numbered_tableOf c)
    obtain ⟨-, hdone, hsaved⟩ := table_lawful.run script hs
    have hkept := table_lawful.content_foldl script.kept hs
    rw [storageMachine_foldl] at hkept
    have hcontent : done.content = kept.content := hdone.trans hkept.symm
    refine ⟨fun id => ⟨?_, ?_⟩, fun t => congrFun hsaved ⟨t⟩⟩
    · unfold InventoryTable.loadInventory
      rw [hcontent]
    · unfold InventoryTable.changeLog
      rw [hcontent]
  · intro s done kept
    have hs : Paired s := stable (I := Paired) (fun _ call h => (paired_step h call).1) calls
      (paired_cachedOver c)
    obtain ⟨-, hdone, hsaved⟩ := cached_lawful.run script hs
    have hkept := cached_lawful.content_foldl script.kept hs
    rw [storageMachine_foldl] at hkept
    obtain ⟨hp, hc⟩ := Prod.mk.inj (hdone.trans hkept.symm)
    refine ⟨fun id => ⟨?_, ?_⟩, fun t => congrFun hsaved t⟩
    · rw [cached_load, cached_load, InventoryTable.loadInventory, InventoryTable.loadInventory, hp,
        hc]
      rfl
    · show InventoryTable.changeLog done.persistent id = InventoryTable.changeLog kept.persistent id
      unfold InventoryTable.changeLog
      rw [hp]

end Scripts

end DungeonHub
