import DungeonHub.Proofs.Inventory

/-!
# When the cache agrees with what it caches

A cached inventory is a copy of the persisted one as long as the first write to a persisted but
uncached inventory leaves nothing behind: the cache starts such an inventory from nothing, and only
the item written gets into it.
-/

namespace DungeonHub

open InventoryStorage

/-- The cache over a persistent table, as the server sets it up. -/
abbrev CachedTables := CachedInventoryStorage MySqlInventoryStorage InMemoryInventoryStorage

/-- A table that holds the content, with no transaction open. -/
def tableOf (c : TableContent) : InventoryTable := { content := c }

/-- An empty cache over a persistent table that holds the content. -/
def cachedOver (c : TableContent) : CachedTables := { persistent := tableOf c, cache := {} }

/-- The write leaves a cache record equal to the persisted one: the inventory is cached, or the
persisted one has nothing that a record started from nothing would lack. -/
def WriteSafe (s : CachedTables) : StorageCall → Prop
  | .addItem id item quantity _ => quantity = 0 ∨ id ∈ s.cache.content.inventories ∨
      ((s.persistent.content.itemsOf id).getD item 0 = 0 ∧
        ∀ i ∈ s.persistent.content.itemsOf id, i = item)
  | .setItem id item _ _ => id ∈ s.cache.content.inventories ∨
      ∀ i ∈ s.persistent.content.itemsOf id, i = item
  | _ => True

section Covers

/-- What is in the cache is persisted as it is. -/
def Covers (c p : TableContent) : Prop :=
  ∀ (id : InventoryId) (items : Items), c.inventories[id]? = some items →
    p.inventories[id]? = some items

namespace TableContent

theorem itemsOf_of_get {c : TableContent} {id : InventoryId} {items : Items}
    (h : c.inventories[id]? = some items) : c.itemsOf id = items := by
  rw [itemsOf_eq, h]
  rfl

theorem itemsOf_of_none {c : TableContent} {id : InventoryId} (h : c.inventories[id]? = none) :
    c.itemsOf id = ∅ := by
  rw [itemsOf_eq, h]
  rfl

theorem addTo_empty_eq_iff (items : Items) (item : ItemId) (quantity : Quantity) :
    addTo ∅ item quantity = addTo items item quantity ↔
      items.getD item 0 = 0 ∧ ∀ i ∈ items, i = item := by
  constructor
  · intro h
    have hget : ∀ i : ItemId, (addTo ∅ item quantity)[i]? = (addTo items item quantity)[i]? :=
      fun i => by rw [h]
    refine ⟨?_, fun i hi => ?_⟩
    · have hitem := hget item
      simp only [addTo, Dict.get?_insert_self, Std.ExtTreeMap.getD_empty, Option.some.injEq]
        at hitem
      exact (UInt32.add_left_inj quantity).mp hitem.symm
    · by_contra hne
      have hi' := hget i
      simp only [addTo, Dict.get?_insert_of_ne _ _ (Ne.symm hne), Dict.get?_empty] at hi'
      exact (Dict.not_mem_iff _ _).mpr hi'.symm hi
  · rintro ⟨h0, hi⟩
    refine Dict.ext fun i => ?_
    unfold addTo
    simp only [Dict.get?_insert, h0, Std.ExtTreeMap.getD_empty]
    split_ifs with hne
    · rfl
    · rw [Dict.get?_empty, ((Dict.not_mem_iff items i).mp fun hmem => hne (hi i hmem).symm)]

theorem setTo_empty_eq_iff (items : Items) (item : ItemId) (quantity : Quantity) :
    setTo ∅ item quantity = setTo items item quantity ↔ ∀ i ∈ items, i = item := by
  constructor
  · intro h i hi
    by_contra hne
    have hi' : (setTo ∅ item quantity)[i]? = (setTo items item quantity)[i]? := by rw [h]
    unfold setTo at hi'
    split_ifs at hi' with hq
    · simp only [Dict.get?_erase_of_ne _ (Ne.symm hne), Dict.get?_empty] at hi'
      exact (Dict.not_mem_iff _ _).mpr hi'.symm hi
    · simp only [Dict.get?_insert_of_ne _ _ (Ne.symm hne), Dict.get?_empty] at hi'
      exact (Dict.not_mem_iff _ _).mpr hi'.symm hi
  · intro hi
    have hnone : ∀ i, item ≠ i → items[i]? = none := fun i hne =>
      (Dict.not_mem_iff items i).mp fun hmem => hne (hi i hmem).symm
    refine Dict.ext fun i => ?_
    unfold setTo
    split_ifs with hq
    · simp only [Dict.get?_erase, Dict.get?_empty]
      split_ifs with hne
      · rfl
      · exact (hnone i hne).symm
    · simp only [Dict.get?_insert, Dict.get?_empty]
      split_ifs with hne
      · rfl
      · exact (hnone i hne).symm

end TableContent

open TableContent

theorem Covers.itemsOf {c p : TableContent} (h : Covers c p) {id : InventoryId}
    (hid : id ∈ c.inventories) : c.itemsOf id = p.itemsOf id := by
  obtain ⟨items, hitems⟩ := (Dict.mem_iff _ _).mp hid
  rw [itemsOf_of_get hitems, itemsOf_of_get (h id items hitems)]

/-- Two layers that write one inventory stay together exactly if they write the same items. -/
theorem Covers.put_iff {c p : TableContent} (h : Covers c p) (id : InventoryId) (x y : Items) :
    Covers (c.putItems id x) (p.putItems id y) ↔ x = y := by
  constructor
  · intro hput
    have hx := hput id x (Dict.get?_insert_self ..)
    rw [putItems_inventories, Dict.get?_insert_self, Option.some.injEq] at hx
    exact hx.symm
  · rintro rfl a items ha
    rw [putItems_inventories, Dict.get?_insert] at ha ⊢
    split_ifs at ha ⊢ with hid
    · exact ha
    · exact h a items ha

theorem Covers.created {c p : TableContent} (h : Covers c p) (id : InventoryId) :
    Covers c (p.created id) := by
  intro a items ha
  unfold TableContent.created
  rw [putItems_inventories, Dict.get?_insert]
  split_ifs with hid
  · subst hid
    rw [itemsOf_of_get (h _ _ ha)]
  · exact h a items ha

end Covers

section Content

open TableContent

/-- The storage with its two layers' contents replaced. -/
def withContent (s : CachedTables) (p c : TableContent) : CachedTables :=
  { s with persistent := { s.persistent with content := p }, cache := { s.cache with content := c } }

/-- A call that concerns no transaction. -/
def ContentCall : StorageCall → Prop
  | .beginTransaction | .commitTransaction _ | .rollbackTransaction _ => False
  | _ => True

/-- What the cache makes of the call on top of what the persistent table makes of it: its content
`c`, which stays a copy exactly if the write is safe. -/
def StepsTo (s : CachedTables) (call : StorageCall) (p c : TableContent) : Prop :=
  storageStep s call = withContent s p c ∧
    storageStep s.persistent call = { s.persistent with content := p } ∧
    (Covers s.cache.content s.persistent.content → (Covers c p ↔ WriteSafe s call))

theorem cached_load (s : CachedTables) (id : InventoryId) :
    (loadInventory s id).1 =
      (s.cache.loadInventory id).or (s.persistent.loadInventory id) := by
  show (CachedInventoryStorage.loadInventory s id).1 = _
  unfold CachedInventoryStorage.loadInventory
  simp only [loadInventory]
  rcases s.cache.loadInventory id with _ | cached
  · rcases s.persistent.loadInventory id with _ | persisted
    · rfl
    · rfl
  · rfl

/-- The cached storage answers as the persistent table does exactly if the cache holds copies. -/
theorem load_eq_iff (s : CachedTables) :
    (∀ id, (loadInventory s id).1 = (loadInventory s.persistent id).1) ↔
      Covers s.cache.content s.persistent.content := by
  have hp : ∀ id, (loadInventory s.persistent id).1 = s.persistent.loadInventory id := fun _ => rfl
  simp only [cached_load, hp, InventoryTable.loadInventory]
  constructor
  · intro h id items hc
    have hid := h id
    rw [hc] at hid
    rcases hpi : s.persistent.content.inventories[id]? with _ | items'
    · rw [hpi] at hid
      cases hid
    · rw [hpi] at hid
      simp only [Option.map_some, Option.some_or, Option.some.injEq,
        InventoryState.mk.injEq, true_and] at hid
      rw [hid]
  · intro h id
    rcases hc : s.cache.content.inventories[id]? with _ | items
    · rfl
    · rw [h id items hc]
      rfl

theorem step_load (s : CachedTables) (id : InventoryId) :
    ∃ p c, StepsTo s (.loadInventory id) p c := by
  refine ⟨s.persistent.content, ?_⟩
  rcases hc : s.cache.content.inventories[id]? with _ | items
  · rcases hp : s.persistent.content.inventories[id]? with _ | items
    · refine ⟨s.cache.content, ?_, rfl, fun h => ⟨fun _ => trivial, fun _ => h⟩⟩
      show (CachedInventoryStorage.loadInventory s id).2 = _
      simp only [CachedInventoryStorage.loadInventory, loadInventory,
        InventoryTable.loadInventory, hc, hp, Option.map_none]
      rfl
    · refine ⟨s.cache.content.putItems id items, ?_, rfl, fun h => ⟨fun _ => trivial, fun _ => ?_⟩⟩
      · show (CachedInventoryStorage.loadInventory s id).2 = _
        simp only [CachedInventoryStorage.loadInventory, loadInventory,
          InventoryTable.loadInventory, hc, hp, Option.map_none, Option.map_some]
        rfl
      · intro a items' ha
        rw [putItems_inventories, Dict.get?_insert] at ha
        split_ifs at ha with hid
        · rw [← hid, hp, ha]
        · exact h a items' ha
  · refine ⟨s.cache.content, ?_, rfl, fun h => ⟨fun _ => trivial, fun _ => h⟩⟩
    show (CachedInventoryStorage.loadInventory s id).2 = _
    simp only [CachedInventoryStorage.loadInventory, loadInventory,
      InventoryTable.loadInventory, hc, Option.map_some]
    rfl

theorem step_save (s : CachedTables) (state : InventoryState) :
    ∃ p c, StepsTo s (.saveInventory state) p c := by
  refine ⟨s.persistent.content.saveInventory state, s.cache.content.saveInventory state, rfl, rfl,
    fun h => ⟨fun _ => trivial, fun _ => ?_⟩⟩
  exact (h.put_iff _ _ _).mpr rfl

section WriteThrough

variable (s : CachedTables) (id : InventoryId)
  (pw : InventoryTable → Bool × InventoryTable) (cw : InventoryTable → Bool × InventoryTable)

theorem writeThrough_refused (hp : (pw s.persistent).1 = false) :
    s.writeThrough id pw cw = (false, { s with persistent := (pw s.persistent).2 }) := by
  unfold CachedInventoryStorage.writeThrough
  rcases h : pw s.persistent with ⟨ok, p⟩
  rw [h] at hp
  cases hp
  rfl

theorem writeThrough_both (hp : (pw s.persistent).1 = true) (hc : (cw s.cache).1 = true) :
    s.writeThrough id pw cw =
      (true, { s with persistent := (pw s.persistent).2, cache := (cw s.cache).2 }) := by
  unfold CachedInventoryStorage.writeThrough
  rcases h : pw s.persistent with ⟨ok, p⟩
  rcases h' : cw s.cache with ⟨ok', c⟩
  rw [h] at hp
  rw [h'] at hc
  cases hp
  cases hc
  rfl

theorem writeThrough_refresh {items : Items} (hp : (pw s.persistent).1 = true)
    (hc : (cw s.cache).1 = false)
    (hload : (pw s.persistent).2.content.inventories[id]? = some items) :
    s.writeThrough id pw cw =
      (true, { s with
        persistent := (pw s.persistent).2
        cache :=
          { (cw s.cache).2 with content := (cw s.cache).2.content.putItems id items } }) := by
  unfold CachedInventoryStorage.writeThrough
  rcases h : pw s.persistent with ⟨ok, p⟩
  rcases h' : cw s.cache with ⟨ok', c⟩
  rw [h] at hp hload
  rw [h'] at hc
  cases hp
  cases hc
  simp only [CachedInventoryStorage.refreshCache, loadInventory, InventoryTable.loadInventory,
    hload, Option.map_some]
  rfl

end WriteThrough

theorem cached_addItem (s : CachedTables) (id : InventoryId) (item : ItemId) {quantity : Quantity}
    (reason : Str) (hq : quantity ≠ 0) :
    addItem s id item quantity reason =
      (true, withContent s (s.persistent.content.addItem id item quantity reason).2
        (s.cache.content.addItem id item quantity reason).2) := by
  have hp := addItem_eq s.persistent.content id item reason hq
  have hc := addItem_eq s.cache.content id item reason hq
  exact writeThrough_both s id (fun p => addItem p id item quantity reason)
    (fun c => addItem c id item quantity reason) (congrArg Prod.fst hp) (congrArg Prod.fst hc)

theorem step_add (s : CachedTables) (id : InventoryId) (item : ItemId) (quantity : Quantity)
    (reason : Str) : ∃ p c, StepsTo s (.addItem id item quantity reason) p c := by
  by_cases hq : quantity = 0
  · subst hq
    exact ⟨s.persistent.content, s.cache.content, rfl, rfl,
      fun h => ⟨fun _ => .inl rfl, fun _ => h⟩⟩
  · have hp := addItem_eq s.persistent.content id item reason hq
    have hc := addItem_eq s.cache.content id item reason hq
    refine ⟨(s.persistent.content.addItem id item quantity reason).2,
      (s.cache.content.addItem id item quantity reason).2,
      congrArg Prod.snd (cached_addItem s id item reason hq), rfl, fun h => ?_⟩
    rw [hp, hc]
    show Covers (s.cache.content.putItems id _) (s.persistent.content.putItems id _) ↔ _
    rw [h.put_iff]
    by_cases hid : id ∈ s.cache.content.inventories
    · rw [h.itemsOf hid]
      exact ⟨fun _ => .inr (.inl hid), fun _ => rfl⟩
    · rw [itemsOf_of_none ((Dict.not_mem_iff _ _).mp hid), addTo_empty_eq_iff]
      exact ⟨fun hs => .inr (.inr hs), fun hs => (hs.resolve_left hq).resolve_left hid⟩

theorem step_remove (s : CachedTables) (id : InventoryId) (item : ItemId) (quantity : Quantity)
    (reason : Str) : ∃ p c, StepsTo s (.removeItem id item quantity reason) p c := by
  by_cases hq : quantity = 0
  · subst hq
    exact ⟨s.persistent.content, s.cache.content, rfl, rfl,
      fun h => ⟨fun _ => trivial, fun _ => h⟩⟩
  rcases removeItem_cases s.persistent.content id item reason hq with
    ⟨held, hheld, hle, hp⟩ | ⟨-, hp⟩
  · rcases removeItem_cases s.cache.content id item reason hq with
      ⟨held', hheld', hle', hc⟩ | ⟨-, hc⟩
    · -- the cache holds the item, so the inventory is cached and both layers agree on it
      refine ⟨(s.persistent.content.removeItem id item quantity reason).2,
        (s.cache.content.removeItem id item quantity reason).2, ?_, rfl,
        fun h => ⟨fun _ => trivial, fun _ => ?_⟩⟩
      · have hw := writeThrough_both s id (fun p => removeItem p id item quantity reason)
          (fun c => removeItem c id item quantity reason)
          (congrArg Prod.fst hp) (congrArg Prod.fst hc)
        exact congrArg Prod.snd hw
      · have hid : id ∈ s.cache.content.inventories := by
          by_contra hid
          rw [itemsOf_of_none ((Dict.not_mem_iff _ _).mp hid), Dict.get?_empty] at hheld'
          cases hheld'
        rw [h.itemsOf hid, hheld, Option.some.injEq] at hheld'
        rw [hp, hc, ← hheld', h.itemsOf hid]
        exact (h.put_iff _ _ _).mpr rfl
    · refine ⟨(s.persistent.content.removeItem id item quantity reason).2,
        (s.cache.content.created id).putItems id
          (takeFrom (s.persistent.content.itemsOf id) item held quantity), ?_, rfl,
        fun h => ⟨fun _ => trivial, fun _ => ?_⟩⟩
      · have hload : (s.persistent.content.removeItem id item quantity reason).2.inventories[id]? =
            some (takeFrom (s.persistent.content.itemsOf id) item held quantity) := by
          rw [hp]
          exact Dict.get?_insert_self ..
        have hw := writeThrough_refresh s id (fun p => removeItem p id item quantity reason)
          (fun c => removeItem c id item quantity reason)
          (congrArg Prod.fst hp) (congrArg Prod.fst hc) hload
        have hcc : (removeItem s.cache id item quantity reason).2.content =
            s.cache.content.created id := congrArg Prod.snd hc
        rw [hcc] at hw
        exact congrArg Prod.snd hw
      · rw [hp, created_putItems]
        exact (h.put_iff _ _ _).mpr rfl
  · refine ⟨(s.persistent.content.removeItem id item quantity reason).2, s.cache.content, ?_, rfl,
      fun h => ⟨fun _ => trivial, fun _ => ?_⟩⟩
    · have hw := writeThrough_refused s id (fun p => removeItem p id item quantity reason)
        (fun c => removeItem c id item quantity reason) (congrArg Prod.fst hp)
      exact congrArg Prod.snd hw
    · rw [hp]
      exact h.created id

theorem step_set (s : CachedTables) (id : InventoryId) (item : ItemId) (quantity : Quantity)
    (reason : Str) : ∃ p c, StepsTo s (.setItem id item quantity reason) p c := by
  have hp := setItem_eq s.persistent.content id item quantity reason
  have hc := setItem_eq s.cache.content id item quantity reason
  refine ⟨s.persistent.content.setItem id item quantity reason,
    s.cache.content.setItem id item quantity reason, rfl, rfl, fun h => ?_⟩
  rw [hp, hc]
  show Covers (s.cache.content.putItems id _) (s.persistent.content.putItems id _) ↔ _
  rw [h.put_iff]
  by_cases hid : id ∈ s.cache.content.inventories
  · rw [h.itemsOf hid]
    exact ⟨fun _ => .inl hid, fun _ => rfl⟩
  · rw [itemsOf_of_none ((Dict.not_mem_iff _ _).mp hid), setTo_empty_eq_iff]
    exact ⟨fun hs => .inr hs, fun hs => hs.resolve_left hid⟩

/-- What a call that concerns no transaction does to both layers. -/
theorem content_step (s : CachedTables) {call : StorageCall} (hcall : ContentCall call) :
    ∃ p c, StepsTo s call p c := by
  cases call with
  | beginTransaction => exact hcall.elim
  | commitTransaction t => exact hcall.elim
  | rollbackTransaction t => exact hcall.elim
  | loadInventory id => exact step_load s id
  | saveInventory state => exact step_save s state
  | addItem id item quantity reason => exact step_add s id item quantity reason
  | removeItem id item quantity reason => exact step_remove s id item quantity reason
  | setItem id item quantity reason => exact step_set s id item quantity reason

end Content

section Transactions

/-- Both layers know the open transactions by the ids the callers know them by. -/
structure Paired (s : CachedTables) : Prop where
  persistentNext : s.persistent.nextTransactionId = s.nextTransactionId
  cacheNext : s.cache.nextTransactionId = s.nextTransactionId
  pair : ∀ (t : ℕ) pr, s.transactions[t]? = some pr → pr = ⟨⟨t⟩, ⟨t⟩⟩
  fresh : ∀ t ∈ s.transactions, t < s.nextTransactionId
  persistentOpen : ∀ t, t ∈ s.persistent.transactionSnapshots ↔ t ∈ s.transactions
  persistentActive : ∀ t, t ∈ s.persistent.activeTransactions ↔ t ∈ s.transactions
  cacheOpen : ∀ t, t ∈ s.cache.transactionSnapshots ↔ t ∈ s.transactions

/-- The cache holds copies, and so did it when each open transaction began. -/
structure Coherent (s : CachedTables) : Prop where
  covers : Covers s.cache.content s.persistent.content
  snapshots : ∀ (t : ℕ) c p, s.cache.transactionSnapshots[t]? = some c →
    s.persistent.transactionSnapshots[t]? = some p → Covers c p

theorem paired_cachedOver (c : TableContent) : Paired (cachedOver c) where
  persistentNext := rfl
  cacheNext := rfl
  pair t pr h := by simp [cachedOver] at h
  fresh t h := by simp [cachedOver] at h
  persistentOpen t := by simp [cachedOver, tableOf]
  persistentActive t := by simp [cachedOver, tableOf]
  cacheOpen t := by simp [cachedOver]

theorem coherent_cachedOver (c : TableContent) : Coherent (cachedOver c) where
  covers id items h := by simp [cachedOver] at h
  snapshots t c p h := by simp [cachedOver] at h

theorem paired_withContent {s : CachedTables} (h : Paired s) (p c : TableContent) :
    Paired (withContent s p c) :=
  ⟨h.persistentNext, h.cacheNext, h.pair, h.fresh, h.persistentOpen, h.persistentActive,
    h.cacheOpen⟩

variable {s : CachedTables}

/-- A table's begin, where no open transaction has the id it hands out. -/
theorem table_begin (t : InventoryTable) (h : t.nextTransactionId ∉ t.transactionSnapshots) :
    (beginTransaction t).2 =
      { t with
        nextTransactionId := t.nextTransactionId + 1
        activeTransactions := t.activeTransactions.insert t.nextTransactionId ()
        transactionSnapshots := t.transactionSnapshots.insert t.nextTransactionId t.content } := by
  show t.beginTransaction.2 = _
  unfold InventoryTable.beginTransaction
  simp only [Dict.insertIfNew_of_not_mem _ _ h]

/-- A table that has no such transaction open takes its end for nothing. -/
theorem table_commit_unknown {p : InventoryTable} {t : Transaction}
    (h : t.transactionId ∉ p.transactionSnapshots) (h' : t.transactionId ∉ p.activeTransactions) :
    commitTransaction p t = p := by
  show p.commitTransaction t = p
  unfold InventoryTable.commitTransaction
  rw [Dict.erase_of_not_mem _ h, Dict.erase_of_not_mem _ h']

theorem table_rollback_unknown {p : InventoryTable} {t : Transaction}
    (h : t.transactionId ∉ p.transactionSnapshots) (h' : t.transactionId ∉ p.activeTransactions) :
    rollbackTransaction p t = p := by
  show p.rollbackTransaction t = p
  unfold InventoryTable.rollbackTransaction
  rw [(Dict.not_mem_iff _ _).mp h]
  simp only [Dict.erase_of_not_mem _ h']

theorem table_rollback_known {p : InventoryTable} {t : ℕ} {snapshot : TableContent}
    (h : p.transactionSnapshots[t]? = some snapshot) :
    rollbackTransaction p ⟨t⟩ =
      { p with
        content := snapshot
        transactionSnapshots := p.transactionSnapshots.erase t
        activeTransactions := p.activeTransactions.erase t } := by
  show p.rollbackTransaction ⟨t⟩ = _
  unfold InventoryTable.rollbackTransaction
  rw [h]

theorem cached_commit_known {t : ℕ} (h : Paired s) (ht : t ∈ s.transactions) :
    commitTransaction s ⟨t⟩ =
      { s with
        persistent := commitTransaction s.persistent ⟨t⟩
        cache := commitTransaction s.cache ⟨t⟩
        transactions := s.transactions.erase t } := by
  obtain ⟨pr, hpr⟩ := (Dict.mem_iff _ _).mp ht
  show CachedInventoryStorage.commitTransaction s ⟨t⟩ = _
  unfold CachedInventoryStorage.commitTransaction
  rw [hpr, h.pair t pr hpr]

theorem cached_rollback_known {t : ℕ} (h : Paired s) (ht : t ∈ s.transactions) :
    rollbackTransaction s ⟨t⟩ =
      { s with
        persistent := rollbackTransaction s.persistent ⟨t⟩
        cache := rollbackTransaction s.cache ⟨t⟩
        transactions := s.transactions.erase t } := by
  obtain ⟨pr, hpr⟩ := (Dict.mem_iff _ _).mp ht
  show CachedInventoryStorage.rollbackTransaction s ⟨t⟩ = _
  unfold CachedInventoryStorage.rollbackTransaction
  rw [hpr, h.pair t pr hpr]

theorem cached_end_unknown {t : ℕ} (ht : t ∉ s.transactions) :
    commitTransaction s ⟨t⟩ = s ∧ rollbackTransaction s ⟨t⟩ = s := by
  have hn := (Dict.not_mem_iff _ _).mp ht
  constructor
  · show CachedInventoryStorage.commitTransaction s ⟨t⟩ = s
    unfold CachedInventoryStorage.commitTransaction
    rw [hn]
  · show CachedInventoryStorage.rollbackTransaction s ⟨t⟩ = s
    unfold CachedInventoryStorage.rollbackTransaction
    rw [hn]

theorem Paired.next_not_mem (h : Paired s) : s.nextTransactionId ∉ s.transactions :=
  fun hmem => lt_irrefl _ (h.fresh _ hmem)

theorem Paired.persistent_begin (h : Paired s) :
    (beginTransaction s.persistent).2 =
      { s.persistent with
        nextTransactionId := s.nextTransactionId + 1
        activeTransactions := s.persistent.activeTransactions.insert s.nextTransactionId ()
        transactionSnapshots := s.persistent.transactionSnapshots.insert s.nextTransactionId
          s.persistent.content } := by
  rw [table_begin s.persistent (by rw [h.persistentNext, h.persistentOpen]; exact h.next_not_mem),
    h.persistentNext]

theorem Paired.cache_begin (h : Paired s) :
    (beginTransaction s.cache).2 =
      { s.cache with
        nextTransactionId := s.nextTransactionId + 1
        activeTransactions := s.cache.activeTransactions.insert s.nextTransactionId ()
        transactionSnapshots := s.cache.transactionSnapshots.insert s.nextTransactionId
          s.cache.content } := by
  rw [table_begin s.cache (by rw [h.cacheNext, h.cacheOpen]; exact h.next_not_mem), h.cacheNext]

theorem Paired.cached_begin (h : Paired s) :
    (beginTransaction s).2 =
      { nextTransactionId := s.nextTransactionId + 1
        transactions := s.transactions.insert s.nextTransactionId
          ⟨⟨s.nextTransactionId⟩, ⟨s.nextTransactionId⟩⟩
        persistent := (beginTransaction s.persistent).2
        cache := (beginTransaction s.cache).2 } := by
  show (CachedInventoryStorage.beginTransaction s).2 = _
  unfold CachedInventoryStorage.beginTransaction
  simp only [Dict.insertIfNew_of_not_mem _ _ h.next_not_mem]
  rw [show (beginTransaction s.persistent).1 = ⟨s.nextTransactionId⟩ from
      congrArg Transaction.mk h.persistentNext,
    show (beginTransaction s.cache).1 = ⟨s.nextTransactionId⟩ from
      congrArg Transaction.mk h.cacheNext]

theorem paired_begin (h : Paired s) : Paired (beginTransaction s).2 := by
  rw [h.cached_begin, h.persistent_begin, h.cache_begin]
  constructor
  · rfl
  · rfl
  · intro t pr ht
    rw [Dict.get?_insert] at ht
    split_ifs at ht with he
    · subst he
      simpa using ht.symm
    · exact h.pair t pr ht
  · intro t ht
    simp only [Std.ExtTreeMap.mem_insert, Std.LawfulEqOrd.compare_eq_iff_eq] at ht
    rcases ht with rfl | ht
    · exact Nat.lt_succ_self _
    · exact Nat.lt_succ_of_lt (h.fresh t ht)
  · intro t
    simp [h.persistentOpen]
  · intro t
    simp [h.persistentActive]
  · intro t
    simp [h.cacheOpen]

/-- An open transaction ends in both layers, whatever contents that leaves. -/
theorem paired_erase (h : Paired s) (t : ℕ) (p c : TableContent) :
    Paired
      { s with
        persistent := { s.persistent with
          content := p
          transactionSnapshots := s.persistent.transactionSnapshots.erase t
          activeTransactions := s.persistent.activeTransactions.erase t }
        cache := { s.cache with
          content := c
          transactionSnapshots := s.cache.transactionSnapshots.erase t
          activeTransactions := s.cache.activeTransactions.erase t }
        transactions := s.transactions.erase t } where
  persistentNext := h.persistentNext
  cacheNext := h.cacheNext
  pair a pr ha := by
    rw [Dict.get?_erase] at ha
    split_ifs at ha
    exact h.pair a pr ha
  fresh a ha := h.fresh a (Std.ExtTreeMap.mem_of_mem_erase ha)
  persistentOpen a := by simp [Std.ExtTreeMap.mem_erase, h.persistentOpen]
  persistentActive a := by simp [Std.ExtTreeMap.mem_erase, h.persistentActive]
  cacheOpen a := by simp [Std.ExtTreeMap.mem_erase, h.cacheOpen]

theorem rollback_contents (h : Paired s) {t : ℕ} (ht : t ∈ s.transactions) :
    ∃ p c, s.persistent.transactionSnapshots[t]? = some p ∧
      s.cache.transactionSnapshots[t]? = some c ∧
      rollbackTransaction s ⟨t⟩ =
        { s with
          persistent := { s.persistent with
            content := p
            transactionSnapshots := s.persistent.transactionSnapshots.erase t
            activeTransactions := s.persistent.activeTransactions.erase t }
          cache := { s.cache with
            content := c
            transactionSnapshots := s.cache.transactionSnapshots.erase t
            activeTransactions := s.cache.activeTransactions.erase t }
          transactions := s.transactions.erase t } := by
  obtain ⟨p, hp⟩ := (Dict.mem_iff _ _).mp ((h.persistentOpen t).mpr ht)
  obtain ⟨c, hc⟩ := (Dict.mem_iff _ _).mp ((h.cacheOpen t).mpr ht)
  refine ⟨p, c, hp, hc, ?_⟩
  rw [cached_rollback_known h ht, table_rollback_known hp, table_rollback_known hc]

/-- The layers stay paired, and the persistent one goes on as it would alone. -/
theorem paired_step (h : Paired s) (call : StorageCall) :
    Paired (storageStep s call) ∧
      (storageStep s call).persistent = storageStep s.persistent call := by
  by_cases hcall : ContentCall call
  · obtain ⟨p, c, hs, hp, -⟩ := content_step s hcall
    rw [hs, hp]
    exact ⟨paired_withContent h p c, rfl⟩
  · cases call with
    | beginTransaction => exact ⟨paired_begin h, congrArg _ h.cached_begin⟩
    | commitTransaction t =>
      by_cases ht : t.transactionId ∈ s.transactions
      · have hs : storageStep s (.commitTransaction t) = _ := cached_commit_known h ht
        rw [hs]
        exact ⟨paired_erase h t.transactionId s.persistent.content s.cache.content, rfl⟩
      · have hp := table_commit_unknown (t := t) (fun hm => ht ((h.persistentOpen _).mp hm))
          (fun hm => ht ((h.persistentActive _).mp hm))
        have hs : storageStep s (.commitTransaction t) = s := (cached_end_unknown ht).1
        rw [hs]
        exact ⟨h, hp.symm⟩
    | rollbackTransaction t =>
      by_cases ht : t.transactionId ∈ s.transactions
      · obtain ⟨p, c, hp, hc, hs⟩ := rollback_contents h ht
        rw [show storageStep s (.rollbackTransaction t) = _ from hs]
        exact ⟨paired_erase h t.transactionId p c, (table_rollback_known hp).symm⟩
      · have hp := table_rollback_unknown (t := t) (fun hm => ht ((h.persistentOpen _).mp hm))
          (fun hm => ht ((h.persistentActive _).mp hm))
        have hs : storageStep s (.rollbackTransaction t) = s := (cached_end_unknown ht).2
        rw [hs]
        exact ⟨h, hp.symm⟩
    | loadInventory id => exact absurd trivial hcall
    | saveInventory state => exact absurd trivial hcall
    | addItem id item quantity reason => exact absurd trivial hcall
    | removeItem id item quantity reason => exact absurd trivial hcall
    | setItem id item quantity reason => exact absurd trivial hcall

/-- The contents of the two layers are related, and so were they when each open transaction
began. -/
structure Joint (R : TableContent → TableContent → Prop) (s : CachedTables) : Prop where
  now : R s.cache.content s.persistent.content
  snapshots : ∀ (t : ℕ) c p, s.cache.transactionSnapshots[t]? = some c →
    s.persistent.transactionSnapshots[t]? = some p → R c p

theorem coherent_iff_joint : Coherent s ↔ Joint Covers s :=
  ⟨fun h => ⟨h.covers, h.snapshots⟩, fun h => ⟨h.now, h.snapshots⟩⟩

section Joint

variable {R : TableContent → TableContent → Prop}

theorem Joint.withContent (hj : Joint R s) {p c : TableContent} (h : R c p) :
    Joint R (withContent s p c) := ⟨h, hj.snapshots⟩

theorem Joint.begin (hj : Joint R s) (h : Paired s) : Joint R (beginTransaction s).2 := by
  rw [h.cached_begin, h.persistent_begin, h.cache_begin]
  refine ⟨hj.now, ?_⟩
  intro t c p hct hpt
  simp only [Dict.get?_insert] at hct hpt
  split_ifs at hct hpt with he
  · cases hct
    cases hpt
    exact hj.now
  · exact hj.snapshots t c p hct hpt

theorem Joint.snapshots_erase (hj : Joint R s) (t : ℕ) :
    ∀ (a : ℕ) c p, (s.cache.transactionSnapshots.erase t)[a]? = some c →
      (s.persistent.transactionSnapshots.erase t)[a]? = some p → R c p := by
  intro a c p ha hpa
  simp only [Dict.get?_erase] at ha hpa
  split_ifs at ha hpa
  exact hj.snapshots a c p ha hpa

/-- Transactions take both layers back together, whatever relates them. -/
theorem Joint.transaction (hj : Joint R s) (h : Paired s) {call : StorageCall}
    (hcall : ¬ ContentCall call) : Joint R (storageStep s call) := by
  cases call with
  | beginTransaction => exact hj.begin h
  | commitTransaction t =>
    by_cases ht : t.transactionId ∈ s.transactions
    · have hs : storageStep s (.commitTransaction t) = _ := cached_commit_known h ht
      rw [hs]
      exact ⟨hj.now, hj.snapshots_erase _⟩
    · have hs : storageStep s (.commitTransaction t) = s := (cached_end_unknown ht).1
      rw [hs]
      exact hj
  | rollbackTransaction t =>
    by_cases ht : t.transactionId ∈ s.transactions
    · obtain ⟨p, c, hpt, hct, hs⟩ := rollback_contents h ht
      rw [show storageStep s (.rollbackTransaction t) = _ from hs]
      exact ⟨hj.snapshots _ c p hct hpt, hj.snapshots_erase _⟩
    · have hs : storageStep s (.rollbackTransaction t) = s := (cached_end_unknown ht).2
      rw [hs]
      exact hj
  | loadInventory id => exact absurd trivial hcall
  | saveInventory state => exact absurd trivial hcall
  | addItem id item quantity reason => exact absurd trivial hcall
  | removeItem id item quantity reason => exact absurd trivial hcall
  | setItem id item quantity reason => exact absurd trivial hcall

end Joint

/-- From a coherent state, exactly the safe writes keep the cache a copy; and then the snapshots
are copies too. -/
theorem coherent_step (h : Paired s) (hc : Coherent s) (call : StorageCall) :
    (Covers (storageStep s call).cache.content (storageStep s call).persistent.content ↔
      WriteSafe s call) ∧
    (WriteSafe s call → Coherent (storageStep s call)) := by
  by_cases hcall : ContentCall call
  · obtain ⟨p, c, hs, -, hcov⟩ := content_step s hcall
    rw [hs]
    exact ⟨hcov hc.covers, fun hw => ⟨(hcov hc.covers).mpr hw, hc.snapshots⟩⟩
  · have hnext := coherent_iff_joint.mpr ((coherent_iff_joint.mp hc).transaction h hcall)
    have hsafe : WriteSafe s call := by
      cases call with
      | addItem id item quantity reason => exact absurd trivial hcall
      | setItem id item quantity reason => exact absurd trivial hcall
      | _ => trivial
    exact ⟨⟨fun _ => hsafe, fun _ => hnext.covers⟩, fun _ => hnext⟩

end Transactions

section Runs

open Run

/-- After every call of the run, the cached storage and the persistent table alone load the same
for every id. -/
def Refines (s : CachedTables) (p : MySqlInventoryStorage) (calls : List StorageCall) : Prop :=
  ∀ front, front <+: calls → ∀ id,
    (loadInventory (after storageStep s front) id).1 =
      (loadInventory (after storageStep p front) id).1

theorem refines_cons {s : CachedTables} (h : Paired s) (hc : Coherent s) (call : StorageCall)
    (calls : List StorageCall) :
    Refines s s.persistent (call :: calls) ↔
      Refines (storageStep s call) (storageStep s call).persistent calls := by
  constructor
  · intro hr front hf id
    have := hr (call :: front) (List.prefix_cons_inj call |>.mpr hf) id
    rw [(paired_step h call).2]
    exact this
  · intro hr front hf id
    rcases front with _ | ⟨call', front⟩
    · exact (load_eq_iff s).mpr hc.covers id
    · obtain ⟨rfl, hrest⟩ := List.cons_prefix_cons.mp hf
      have := hr front hrest id
      rw [(paired_step h call').2] at this
      exact this

theorem refines_iff_writeSafe : ∀ (calls : List StorageCall) (s : CachedTables), Paired s →
    Coherent s →
    (Refines s s.persistent calls ↔ ∀ x ∈ trail storageStep s calls, WriteSafe x.1 x.2)
  | [], s, _, hc => by
    constructor
    · intro _ x hx
      simp [trail] at hx
    · intro _ front hf id
      rw [List.prefix_nil.mp hf]
      exact (load_eq_iff s).mpr hc.covers id
  | call :: calls, s, h, hc => by
    obtain ⟨hiff, hkeep⟩ := coherent_step h hc call
    have ih := fun hw => refines_iff_writeSafe calls (storageStep s call) (paired_step h call).1
      (hkeep hw)
    rw [refines_cons h hc, trail_cons]
    simp only [List.forall_mem_cons]
    constructor
    · intro hr
      have hw := hiff.mp ((load_eq_iff _).mp fun id => hr [] (List.nil_prefix) id)
      exact ⟨hw, (ih hw).mp hr⟩
    · rintro ⟨hw, hrest⟩
      exact (ih hw).mpr hrest

/-- The cached storage loads what the persistent table alone loads, after every call of a run from
any persisted content and an empty cache, exactly if every write of the run is safe. -/
theorem cached_refines_iff (c : TableContent) (calls : List StorageCall) :
    (∀ front, front <+: calls → ∀ id,
      (loadInventory (after storageStep (cachedOver c) front) id).1 =
        (loadInventory (after storageStep (tableOf c) front) id).1) ↔
      ∀ x ∈ trail storageStep (cachedOver c) calls, WriteSafe x.1 x.2 :=
  refines_iff_writeSafe calls (cachedOver c) (paired_cachedOver c) (coherent_cachedOver c)

/-- Inventory 1 is persisted with five of item 1 and not cached. After one of item 2 is added, the
cached storage has lost item 1 from sight. -/
theorem cached_add_hides_item :
    ¬ ∀ (c : TableContent) (calls : List StorageCall) (id : InventoryId),
      (loadInventory (after storageStep (cachedOver c) calls) id).1 =
        (loadInventory (after storageStep (tableOf c) calls) id).1 := by
  intro h
  have h1 := h { inventories := (∅ : Dict _ _).insert 1 ((∅ : Items).insert 1 5) }
    [.addItem 1 2 1 []] 1
  have h2 := congrArg (Option.map fun st => st.items.toList) h1
  exact absurd h2 (by decide +kernel)

end Runs

end DungeonHub
