import DungeonHub.Proofs.Cache
import DungeonHub.Security

/-!
# A cache that may fail

Started together from nothing, the two layers stay a mirror of each other even if calls on the cache
fail at will: the cache has what the persistent table has, or lacks an inventory that is there but
empty. Such an inventory comes from a removal that was refused, and a record that the cache starts
from nothing for it is the right one.
-/

namespace DungeonHub

open InventoryStorage

/-- A table whose `addItem` and `removeItem` may fail: whether the next such calls will. -/
structure FaultyTable where
  table : InventoryTable := {}
  faults : Draws Bool

namespace FaultyTable

/-- A call that may fail, and then changes nothing. -/
def attempt (c : FaultyTable) (call : InventoryTable → Bool × InventoryTable) :
    Bool × FaultyTable :=
  let (fails, faults) := c.faults.next
  if fails then (false, { c with faults })
  else
    let (ok, table) := call c.table
    (ok, { table, faults })

instance : InventoryStorage FaultyTable where
  beginTransaction c :=
    let (transaction, table) := InventoryStorage.beginTransaction c.table
    (transaction, { c with table })
  commitTransaction c transaction :=
    { c with table := InventoryStorage.commitTransaction c.table transaction }
  rollbackTransaction c transaction :=
    { c with table := InventoryStorage.rollbackTransaction c.table transaction }
  loadInventory c id := (c.table.loadInventory id, c)
  saveInventory c state := { c with table := InventoryStorage.saveInventory c.table state }
  addItem c id item quantity reason :=
    c.attempt fun table => InventoryStorage.addItem table id item quantity reason
  removeItem c id item quantity reason :=
    c.attempt fun table => InventoryStorage.removeItem table id item quantity reason
  setItem c id item quantity reason :=
    { c with table := InventoryStorage.setItem c.table id item quantity reason }
  changeLog c := c.table.changeLog

end FaultyTable

/-- A faulty cache over a persistent table. -/
abbrev FaultyCached := CachedInventoryStorage MySqlInventoryStorage FaultyTable

/-- Both layers empty, and the faults to come. -/
def emptyWith (faults : Draws Bool) : FaultyCached := { persistent := {}, cache := { faults } }

section Mirrors

open TableContent

/-- The cache has what the persistent table has, or lacks an inventory that is empty there. -/
def Mirrors (c p : TableContent) : Prop :=
  ∀ id : InventoryId, c.inventories[id]? = p.inventories[id]? ∨
    c.inventories[id]? = none ∧ p.inventories[id]? = some ∅

variable {c p : TableContent}

theorem Mirrors.itemsOf (h : Mirrors c p) (id : InventoryId) : c.itemsOf id = p.itemsOf id := by
  rcases h id with heq | ⟨hc, hp⟩
  · rw [itemsOf_eq, itemsOf_eq, heq]
  · rw [itemsOf_of_none hc, itemsOf_of_get hp]

theorem Mirrors.covers (h : Mirrors c p) : Covers c p := by
  intro id items hitems
  rcases h id with heq | ⟨hc, -⟩
  · exact heq ▸ hitems
  · rw [hc] at hitems
    cases hitems

theorem Mirrors.put (h : Mirrors c p) (id : InventoryId) (items : Items) :
    Mirrors (c.putItems id items) (p.putItems id items) := by
  intro a
  simp only [putItems_inventories, Dict.get?_insert]
  split_ifs
  · exact .inl rfl
  · exact h a

theorem Mirrors.created (h : Mirrors c p) (id : InventoryId) : Mirrors c (p.created id) := by
  intro a
  unfold TableContent.created
  rw [putItems_inventories, Dict.get?_insert]
  split_ifs with ha
  · subst ha
    rcases h id with heq | ⟨hc, hp⟩
    · rcases hp : p.inventories[id]? with _ | items
      · rw [itemsOf_of_none hp]
        exact .inr ⟨heq.trans hp, rfl⟩
      · rw [itemsOf_of_get hp]
        exact .inl (heq.trans hp)
    · rw [itemsOf_of_get hp]
      exact .inr ⟨hc, rfl⟩
  · exact h a

theorem Mirrors.fill (h : Mirrors c p) {id : InventoryId} {items : Items}
    (hp : p.inventories[id]? = some items) : Mirrors (c.putItems id items) p := by
  intro a
  rw [putItems_inventories, Dict.get?_insert]
  split_ifs with ha
  · subst ha
    exact .inl hp.symm
  · exact h a

end Mirrors

section Steps

open TableContent

/-- The storage with its cache taken as a table without faults. -/
def plain (s : FaultyCached) : CachedTables :=
  { nextTransactionId := s.nextTransactionId
    transactions := s.transactions
    persistent := s.persistent
    cache := s.cache.table }

/-- A transaction is begun and ended as if there were no faults. -/
theorem plain_transaction (s : FaultyCached) {call : StorageCall} (hcall : ¬ ContentCall call) :
    plain (storageStep s call) = storageStep (plain s) call := by
  cases call with
  | beginTransaction => rfl
  | commitTransaction t =>
    show plain (CachedInventoryStorage.commitTransaction s t) =
      CachedInventoryStorage.commitTransaction (plain s) t
    unfold CachedInventoryStorage.commitTransaction
    rw [show (plain s).transactions = s.transactions from rfl]
    rcases s.transactions[t.transactionId]? with _ | pair
    · rfl
    · rfl
  | rollbackTransaction t =>
    show plain (CachedInventoryStorage.rollbackTransaction s t) =
      CachedInventoryStorage.rollbackTransaction (plain s) t
    unfold CachedInventoryStorage.rollbackTransaction
    rw [show (plain s).transactions = s.transactions from rfl]
    rcases s.transactions[t.transactionId]? with _ | pair
    · rfl
    · rfl
  | loadInventory id => exact absurd trivial hcall
  | saveInventory state => exact absurd trivial hcall
  | addItem id item quantity reason => exact absurd trivial hcall
  | removeItem id item quantity reason => exact absurd trivial hcall
  | setItem id item quantity reason => exact absurd trivial hcall

theorem plain_load (s : FaultyCached) (id : InventoryId) :
    (loadInventory s id).1 = (loadInventory (plain s) id).1 := by
  rw [cached_load]
  show (CachedInventoryStorage.loadInventory s id).1 = _
  unfold CachedInventoryStorage.loadInventory
  simp only [loadInventory, plain]
  rcases s.cache.table.loadInventory id with _ | cached
  · rcases s.persistent.loadInventory id with _ | persisted
    · rfl
    · rfl
  · rfl

/-- The call leaves the layers with these contents. -/
def Leaves (s s' : FaultyCached) (p c : TableContent) : Prop := plain s' = withContent (plain s) p c

variable (s : FaultyCached)

theorem faulty_load (id : InventoryId)
    (h : Mirrors s.cache.table.content s.persistent.content) :
    ∃ p c, Leaves s (storageStep s (.loadInventory id)) p c ∧ Mirrors c p := by
  show ∃ p c, Leaves s (CachedInventoryStorage.loadInventory s id).2 p c ∧ Mirrors c p
  unfold CachedInventoryStorage.loadInventory
  simp only [loadInventory, InventoryTable.loadInventory]
  rcases hc : s.cache.table.content.inventories[id]? with _ | items
  · rcases hp : s.persistent.content.inventories[id]? with _ | items
    · exact ⟨s.persistent.content, s.cache.table.content, rfl, h⟩
    · exact ⟨s.persistent.content, s.cache.table.content.putItems id items, rfl, h.fill hp⟩
  · exact ⟨s.persistent.content, s.cache.table.content, rfl, h⟩

section WriteThrough

variable (id : InventoryId) (pw cw : InventoryTable → Bool × InventoryTable)

theorem faulty_refused {p : TableContent}
    (hp : pw s.persistent = (false, { s.persistent with content := p })) :
    Leaves s (s.writeThrough id pw fun c => c.attempt cw).2 p s.cache.table.content := by
  unfold CachedInventoryStorage.writeThrough
  rw [hp]
  rfl

/-- A write that both layers take gets into the cache, at once or as the cache is filled again from
the inventory written. -/
theorem faulty_accepted {p c : TableContent} {items : Items}
    (hp : pw s.persistent = (true, { s.persistent with content := p }))
    (hc : cw s.cache.table = (true, { s.cache.table with content := c }))
    (hload : p.inventories[id]? = some items) :
    Leaves s (s.writeThrough id pw fun c => c.attempt cw).2 p c ∨
      Leaves s (s.writeThrough id pw fun c => c.attempt cw).2 p
        (s.cache.table.content.putItems id items) := by
  have hpersisted : loadInventory { s.persistent with content := p } id =
      (some ⟨id, items⟩, { s.persistent with content := p }) := by
    show (InventoryTable.loadInventory _ id, _) = _
    unfold InventoryTable.loadInventory
    rw [hload]
    rfl
  unfold CachedInventoryStorage.writeThrough FaultyTable.attempt Draws.next
  rw [hp]
  simp only [hc]
  by_cases hfails : s.cache.faults 0 = true
  · refine .inr ?_
    simp only [if_pos hfails, CachedInventoryStorage.refreshCache, hpersisted]
    rfl
  · refine .inl ?_
    simp only [if_neg hfails]
    rfl

end WriteThrough

variable (id : InventoryId) (item : ItemId) (quantity : Quantity) (reason : Str)

theorem faulty_add (h : Mirrors s.cache.table.content s.persistent.content) :
    ∃ p c, Leaves s (storageStep s (.addItem id item quantity reason)) p c ∧ Mirrors c p := by
  by_cases hq : quantity = 0
  · subst hq
    exact ⟨s.persistent.content, s.cache.table.content, rfl, h⟩
  have hwrite : ∀ t : InventoryTable, addItem t id item quantity reason = (true, { t with
      content := (t.content.putItems id (addTo (t.content.itemsOf id) item quantity)).recordChange
        id item quantity .add reason }) := by
    intro t
    show (_, _) = _
    rw [addItem_eq t.content id item reason hq]
  rcases faulty_accepted s id (fun t => addItem t id item quantity reason)
    (fun t => addItem t id item quantity reason) (hwrite _) (hwrite _)
    (Dict.get?_insert_self ..) with hleaves | hleaves
  · refine ⟨_, _, hleaves, ?_⟩
    rw [h.itemsOf id]
    exact h.put id _
  · exact ⟨_, _, hleaves, h.put id _⟩

theorem faulty_remove (h : Mirrors s.cache.table.content s.persistent.content) :
    ∃ p c, Leaves s (storageStep s (.removeItem id item quantity reason)) p c ∧ Mirrors c p := by
  by_cases hq : quantity = 0
  · subst hq
    exact ⟨s.persistent.content, s.cache.table.content, rfl, h⟩
  have hitems := h.itemsOf id
  have hwrite : ∀ (t : InventoryTable) {r : Bool × TableContent},
      t.content.removeItem id item quantity reason = r →
      removeItem t id item quantity reason = (r.1, { t with content := r.2 }) := by
    rintro t r rfl
    rfl
  rcases removeItem_cases s.persistent.content id item reason hq with
    ⟨held, hheld, hle, hp⟩ | ⟨-, hp⟩
  · rcases removeItem_cases s.cache.table.content id item reason hq with
      ⟨held', hheld', -, hc⟩ | ⟨hless, -⟩
    · rw [hitems, hheld, Option.some.injEq] at hheld'
      subst hheld'
      rcases faulty_accepted s id (fun t => removeItem t id item quantity reason)
        (fun t => removeItem t id item quantity reason) (hwrite _ hp) (hwrite _ hc)
        (Dict.get?_insert_self ..) with hleaves | hleaves
      · refine ⟨_, _, hleaves, ?_⟩
        rw [hitems]
        exact h.put id _
      · exact ⟨_, _, hleaves, h.put id _⟩
    · -- both layers hold the same items, so the cache has enough of this one too
      have hlt := hless held (hitems ▸ hheld)
      exact absurd hlt (UInt32.not_lt.mpr hle)
  · exact ⟨_, _, faulty_refused s id (fun t => removeItem t id item quantity reason)
      (fun t => removeItem t id item quantity reason) (hwrite _ hp), h.created id⟩

/-- Whatever the cache does, a call that concerns no transaction leaves a mirror. -/
theorem faulty_content (h : Mirrors s.cache.table.content s.persistent.content)
    {call : StorageCall} (hcall : ContentCall call) :
    ∃ p c, Leaves s (storageStep s call) p c ∧ Mirrors c p := by
  cases call with
  | beginTransaction => exact hcall.elim
  | commitTransaction t => exact hcall.elim
  | rollbackTransaction t => exact hcall.elim
  | loadInventory id => exact faulty_load s id h
  | saveInventory state => exact ⟨_, _, rfl, h.put state.inventoryId state.items⟩
  | addItem id item quantity reason => exact faulty_add s id item quantity reason h
  | removeItem id item quantity reason => exact faulty_remove s id item quantity reason h
  | setItem id item quantity reason =>
    refine ⟨s.persistent.content.setItem id item quantity reason,
      s.cache.table.content.setItem id item quantity reason, rfl, ?_⟩
    rw [setItem_eq, setItem_eq, h.itemsOf id]
    exact h.put id _

end Steps

section Runs

open Run

/-- The layers have the same transactions open, and mirror each other now and when each of these
began. -/
structure Mirrored (s : FaultyCached) : Prop where
  paired : Paired (plain s)
  joint : Joint Mirrors (plain s)

theorem mirrored_step (s : FaultyCached) (call : StorageCall) (h : Mirrored s) :
    Mirrored (storageStep s call) := by
  by_cases hcall : ContentCall call
  · obtain ⟨p, c, hleaves, hmirrors⟩ := faulty_content s h.joint.now hcall
    constructor
    · rw [hleaves]
      exact paired_withContent h.paired p c
    · rw [hleaves]
      exact h.joint.withContent hmirrors
  · constructor
    · rw [plain_transaction s hcall]
      exact (paired_step h.paired call).1
    · rw [plain_transaction s hcall]
      exact h.joint.transaction h.paired hcall

theorem mirrored_empty (faults : Draws Bool) : Mirrored (emptyWith faults) where
  paired := paired_cachedOver {}
  joint := ⟨fun _ => .inl rfl, fun t c p hc => by simp [plain, emptyWith] at hc⟩

/-- Whatever calls on the cache fail, in every run from empty layers the cached storage loads what
its persistent table loads. -/
theorem faulty_cache_coherent (faults : Draws Bool) (calls : List StorageCall) (id : InventoryId) :
    (loadInventory (after storageStep (emptyWith faults) calls) id).1 =
      (loadInventory (after storageStep (emptyWith faults) calls).persistent id).1 := by
  have hmirrored := stable mirrored_step calls (mirrored_empty faults)
  rw [plain_load]
  exact (load_eq_iff _).mpr hmirrored.joint.now.covers id

end Runs

end DungeonHub
