import DungeonHub.Proofs.Inventory
import DungeonHub.Proofs.Result

/-!
# What a dungeon result pays out

The rewards of a result are granted to an inventory of their own first and then added to the stored
one. What the first takes the second takes too, and it grows by neither more nor less.
-/

namespace DungeonHub

open Run Wire

section Backed

/-- A storage whose persistent layer is a table: a table itself, or a cache over such a storage. -/
class TableBacked (σ : Type) [InventoryStorage σ] where
  /-- What the persistent layer stores. -/
  content : σ → TableContent
  /-- What the persistent layer goes back to if the transaction is rolled back. -/
  snapshot : σ → Transaction → Option TableContent
  /-- The ids of new transactions are not in use. -/
  Ordered : σ → Prop
  changeLog_eq : ∀ (s : σ) id, InventoryStorage.changeLog s id = (content s).changeLog.getD id []
  load : ∀ (s : σ) id, content (InventoryStorage.loadInventory s id).2 = content s ∧
    snapshot (InventoryStorage.loadInventory s id).2 = snapshot s ∧
    (Ordered s → Ordered (InventoryStorage.loadInventory s id).2)
  addItem_zero : ∀ (s : σ) id item reason,
    InventoryStorage.addItem s id item 0 reason = (false, s)
  addItem : ∀ (s : σ) id item quantity reason, quantity ≠ 0 →
    (InventoryStorage.addItem s id item quantity reason).1 = true ∧
    content (InventoryStorage.addItem s id item quantity reason).2 =
      ((content s).addItem id item quantity reason).2 ∧
    snapshot (InventoryStorage.addItem s id item quantity reason).2 = snapshot s ∧
    (Ordered s → Ordered (InventoryStorage.addItem s id item quantity reason).2)
  begin : ∀ s : σ, content (InventoryStorage.beginTransaction s).2 = content s ∧
    (Ordered s → Ordered (InventoryStorage.beginTransaction s).2 ∧
      snapshot (InventoryStorage.beginTransaction s).2 (InventoryStorage.beginTransaction s).1 =
        some (content s))
  commit : ∀ (s : σ) t, content (InventoryStorage.commitTransaction s t) = content s ∧
    (Ordered s → Ordered (InventoryStorage.commitTransaction s t))
  rollback : ∀ (s : σ) t, (∀ c, snapshot s t = some c →
      content (InventoryStorage.rollbackTransaction s t) = c) ∧
    (Ordered s → Ordered (InventoryStorage.rollbackTransaction s t))

theorem ordered_insertIfNew {V : Type} {d : Dict ℕ V} {next : ℕ} (v : V)
    (h : ∀ t ∈ d, t < next) : (∀ t ∈ d.insertIfNew next v, t < next + 1) ∧
      (d.insertIfNew next v)[next]? = some v := by
  have hnew : next ∉ d := fun hmem => absurd (h next hmem) (Nat.lt_irrefl next)
  rw [Dict.insertIfNew_of_not_mem d v hnew]
  refine ⟨fun t ht => ?_, Dict.get?_insert_self ..⟩
  rcases (Dict.mem_insert _ _ _ _).mp ht with rfl | ht
  · exact Nat.lt_succ_self _
  · exact Nat.lt_succ_of_lt (h t ht)

theorem ordered_erase {V : Type} {d : Dict ℕ V} {next : ℕ} (a : ℕ) (h : ∀ t ∈ d, t < next) :
    ∀ t ∈ d.erase a, t < next :=
  fun t ht => h t ((Dict.mem_erase _ _ _).mp ht).2

instance : TableBacked InventoryTable where
  content := InventoryTable.content
  snapshot s t := s.transactionSnapshots[t.transactionId]?
  Ordered s := ∀ t ∈ s.transactionSnapshots, t < s.nextTransactionId
  changeLog_eq _ _ := rfl
  load _ _ := ⟨rfl, rfl, id⟩
  addItem_zero s id item reason := by
    show (_, { s with content := (s.content.addItem id item 0 reason).2 }) = _
    rw [TableContent.addItem_zero]
  addItem s id item quantity reason h := by
    refine ⟨?_, rfl, rfl, fun h => h⟩
    show (s.content.addItem id item quantity reason).1 = true
    rw [TableContent.addItem_eq _ _ _ _ h]
  begin s := ⟨rfl, fun h => ordered_insertIfNew s.content h⟩
  commit s t := ⟨rfl, fun h => ordered_erase t.transactionId h⟩
  rollback s t := by
    show _ ∧ (_ → ∀ a ∈ (s.rollbackTransaction t).transactionSnapshots, _)
    refine ⟨fun c hc => ?_, fun h => ?_⟩
    · show (s.rollbackTransaction t).content = c
      unfold InventoryTable.rollbackTransaction
      rw [hc]
    · show ∀ a ∈ (s.rollbackTransaction t).transactionSnapshots,
        a < (s.rollbackTransaction t).nextTransactionId
      unfold InventoryTable.rollbackTransaction
      rcases s.transactionSnapshots[t.transactionId]? with _ | c
      · exact h
      · exact ordered_erase t.transactionId h

section Cached

variable {π κ : Type} [InventoryStorage π] [InventoryStorage κ] [TableBacked π]

omit [TableBacked π] in
/-- What a write through both layers makes of the persistent one: the write, and a load at most, for
a cache that refused. -/
theorem writeThrough_persistent (s : CachedInventoryStorage π κ) (id : InventoryId)
    (pw : π → Bool × π) (cw : κ → Bool × κ) :
    (s.writeThrough id pw cw).1 = (pw s.persistent).1 ∧
    (s.writeThrough id pw cw).2.transactions = s.transactions ∧
    (s.writeThrough id pw cw).2.nextTransactionId = s.nextTransactionId ∧
    ((s.writeThrough id pw cw).2.persistent = (pw s.persistent).2 ∨
      (s.writeThrough id pw cw).2.persistent =
        (InventoryStorage.loadInventory (pw s.persistent).2 id).2) := by
  unfold CachedInventoryStorage.writeThrough
  rcases pw s.persistent with ⟨_ | _, persistent⟩
  · exact ⟨rfl, rfl, rfl, .inl rfl⟩
  · simp only []
    split
    · unfold CachedInventoryStorage.refreshCache
      simp only []
      split
      · rename_i hload
        rw [hload]
        exact ⟨trivial, rfl, rfl, .inr rfl⟩
      · rename_i hload
        rw [hload]
        exact ⟨trivial, rfl, rfl, .inr rfl⟩
    · exact ⟨rfl, rfl, rfl, .inl rfl⟩

omit [TableBacked π] in
theorem cached_load_persistent (s : CachedInventoryStorage π κ) (id : InventoryId) :
    (s.loadInventory id).2.transactions = s.transactions ∧
    (s.loadInventory id).2.nextTransactionId = s.nextTransactionId ∧
    ((s.loadInventory id).2.persistent = s.persistent ∨
      (s.loadInventory id).2.persistent =
        (InventoryStorage.loadInventory s.persistent id).2) := by
  unfold CachedInventoryStorage.loadInventory
  split
  · exact ⟨rfl, rfl, .inl rfl⟩
  · split
    · rename_i hload
      rw [hload]
      exact ⟨rfl, rfl, .inr rfl⟩
    · rename_i hload
      rw [hload]
      exact ⟨rfl, rfl, .inr rfl⟩

theorem persistent_load {p p' : π} {id : InventoryId}
    (h : p' = p ∨ p' = (InventoryStorage.loadInventory p id).2) :
    TableBacked.content p' = TableBacked.content p ∧
      TableBacked.snapshot p' = TableBacked.snapshot p ∧
      (TableBacked.Ordered p → TableBacked.Ordered p') := by
  rcases h with rfl | rfl
  · exact ⟨rfl, rfl, fun h => h⟩
  · exact TableBacked.load p id

/-- The snapshot of the persistent storage for a transaction of the cached one. -/
def persistentSnapshot (s : CachedInventoryStorage π κ) (t : Transaction) : Option TableContent :=
  s.transactions[t.transactionId]?.bind fun pair =>
    TableBacked.snapshot s.persistent pair.persistent

/-- Neither the storage nor its persistent layer has given out an id that is still to come. -/
def LayersOrdered (s : CachedInventoryStorage π κ) : Prop :=
  (∀ t ∈ s.transactions, t < s.nextTransactionId) ∧ TableBacked.Ordered s.persistent

omit [InventoryStorage κ] in
theorem cached_frame {s s' : CachedInventoryStorage π κ}
    (ht : s'.transactions = s.transactions) (hn : s'.nextTransactionId = s.nextTransactionId)
    (hs : TableBacked.snapshot s'.persistent = TableBacked.snapshot s.persistent)
    (ho : TableBacked.Ordered s.persistent → TableBacked.Ordered s'.persistent) :
    persistentSnapshot s' = persistentSnapshot s ∧ (LayersOrdered s → LayersOrdered s') := by
  refine ⟨funext fun t => ?_, fun h => ⟨?_, ho h.2⟩⟩
  · unfold persistentSnapshot
    rw [ht, hs]
  · rw [ht, hn]
    exact h.1

instance : TableBacked (CachedInventoryStorage π κ) where
  content s := TableBacked.content s.persistent
  snapshot := persistentSnapshot
  Ordered := LayersOrdered
  changeLog_eq s id := TableBacked.changeLog_eq s.persistent id
  load s id := by
    obtain ⟨ht, hn, hp⟩ := cached_load_persistent s id
    obtain ⟨hc, hs, ho⟩ := persistent_load hp
    exact ⟨hc, cached_frame ht hn hs ho⟩
  addItem_zero s id item reason := by
    show s.addItem id item 0 reason = _
    unfold CachedInventoryStorage.addItem CachedInventoryStorage.writeThrough
    simp only [TableBacked.addItem_zero]
  addItem s id item quantity reason h := by
    obtain ⟨hok, hc, hs, ho⟩ := TableBacked.addItem s.persistent id item quantity reason h
    obtain ⟨hok', ht, hn, hp⟩ := writeThrough_persistent s id
      (fun p => InventoryStorage.addItem p id item quantity reason)
      (fun c => InventoryStorage.addItem c id item quantity reason)
    obtain ⟨hc', hs', ho'⟩ := persistent_load hp
    exact ⟨hok'.trans hok, hc'.trans hc, cached_frame ht hn (hs'.trans hs) fun h => ho' (ho h)⟩
  begin s := by
    obtain ⟨hc, ho⟩ := TableBacked.begin s.persistent
    refine ⟨hc, fun h => ?_⟩
    obtain ⟨hlt, hget⟩ := ordered_insertIfNew
      (⟨(InventoryStorage.beginTransaction s.persistent).1,
        (InventoryStorage.beginTransaction s.cache).1⟩ : TransactionPair) h.1
    refine ⟨⟨hlt, (ho h.2).1⟩, ?_⟩
    exact (congrArg (Option.bind · _) hget).trans (ho h.2).2
  commit s t := by
    show TableBacked.content (s.commitTransaction t).persistent = _ ∧
      (_ → LayersOrdered (s.commitTransaction t))
    unfold CachedInventoryStorage.commitTransaction
    split
    · exact ⟨rfl, fun h => h⟩
    · rename_i pair _
      obtain ⟨hc, ho⟩ := TableBacked.commit s.persistent pair.persistent
      exact ⟨hc, fun h => ⟨ordered_erase t.transactionId h.1, ho h.2⟩⟩
  rollback s t := by
    show (∀ c, persistentSnapshot s t = some c →
        TableBacked.content (s.rollbackTransaction t).persistent = c) ∧
      (_ → LayersOrdered (s.rollbackTransaction t))
    unfold CachedInventoryStorage.rollbackTransaction persistentSnapshot
    rcases s.transactions[t.transactionId]? with _ | pair
    · exact ⟨nofun, fun h => h⟩
    · obtain ⟨hc, ho⟩ := TableBacked.rollback s.persistent pair.persistent
      exact ⟨hc, fun h => ⟨ordered_erase t.transactionId h.1, ho h.2⟩⟩

end Cached

end Backed

section Paid

open TableContent

/-- How much of an item a list of rewards gives. -/
def counted (rewards : List RewardItem) (item : ItemId) : ℕ :=
  ((rewards.filter fun reward => reward.itemId = item).map fun reward => reward.count.toNat).sum

/-- The log entries of rewards added one after the other, with ids from `n` on. -/
def rewardChanges (charId : UInt64) (reason : Str) : ℕ → List RewardItem → List InventoryChange
  | _, [] => []
  | n, reward :: rewards =>
    ⟨n, charId, reward.itemId, reward.count, .add, reason⟩ ::
      rewardChanges charId reason (n + 1) rewards

/-- A table before and after rewards were added to one inventory: its items grow by what the rewards
count up to, the log gets one entry for each, and the other inventories are as they were. -/
structure Paid (charId : UInt64) (reason : Str) (rewards : List RewardItem)
    (c c' : TableContent) : Prop where
  quantities : ∀ item, ((c'.itemsOf charId).getD item 0).toNat =
    (((c.itemsOf charId).getD item 0).toNat + counted rewards item) % 2 ^ 32
  log : c'.changeLog.getD charId [] =
    c.changeLog.getD charId [] ++ rewardChanges charId reason c.nextChangeId rewards
  nextChangeId : c'.nextChangeId = c.nextChangeId + rewards.length
  others : ∀ other, other ≠ charId → c'.inventories[other]? = c.inventories[other]? ∧
    c'.changeLog[other]? = c.changeLog[other]?

theorem Paid.refl (charId : UInt64) (reason : Str) (c : TableContent) :
    Paid charId reason [] c c where
  quantities _ := (Nat.mod_eq_of_lt (UInt32.toNat_lt _)).symm
  log := (List.append_nil _).symm
  nextChangeId := rfl
  others _ _ := ⟨rfl, rfl⟩

theorem getD_addTo (items : Items) (item k : ItemId) (quantity : Quantity) :
    ((addTo items item quantity).getD k 0).toNat =
      ((items.getD k 0).toNat + if item = k then quantity.toNat else 0) % 2 ^ 32 := by
  unfold addTo
  simp only [Std.ExtTreeMap.getD_eq_getD_getElem?, Dict.get?_insert]
  split_ifs with hk
  · rw [hk]
    exact UInt32.toNat_add _ _
  · exact (Nat.mod_eq_of_lt (UInt32.toNat_lt _)).symm

theorem paid_addItem (charId : UInt64) (reason : Str) (c : TableContent) {reward : RewardItem}
    (h : reward.count ≠ 0) :
    Paid charId reason [reward] c (c.addItem charId reward.itemId reward.count reason).2 := by
  rw [addItem_eq _ _ _ _ h]
  refine ⟨fun item => ?_, ?_, rfl, fun other hother => ⟨?_, ?_⟩⟩
  · show ((((c.inventories.insert charId _).getD charId ∅).getD item 0)).toNat = _
    rw [Std.ExtTreeMap.getD_insert_self, getD_addTo]
    unfold counted
    by_cases hk : reward.itemId = item <;> simp [hk]
  · show (c.changeLog.insert charId _).getD charId [] = _
    rw [Std.ExtTreeMap.getD_insert_self]
    rfl
  · exact Dict.get?_insert_of_ne _ _ (Ne.symm hother)
  · exact Dict.get?_insert_of_ne _ _ (Ne.symm hother)

theorem rewardChanges_append (charId : UInt64) (reason : Str) (rewards' : List RewardItem) :
    ∀ (rewards : List RewardItem) (n : ℕ), rewardChanges charId reason n (rewards ++ rewards') =
      rewardChanges charId reason n rewards ++
        rewardChanges charId reason (n + rewards.length) rewards'
  | [], _ => rfl
  | reward :: rewards, n => by
    have ih := rewardChanges_append charId reason rewards' rewards (n + 1)
    simp only [List.cons_append, rewardChanges, ih, List.length_cons]
    rw [Nat.add_right_comm, Nat.add_assoc]

theorem length_rewardChanges (charId : UInt64) (reason : Str) :
    ∀ (rewards : List RewardItem) (n : ℕ),
      (rewardChanges charId reason n rewards).length = rewards.length
  | [], _ => rfl
  | _ :: rewards, n => congrArg (· + 1) (length_rewardChanges charId reason rewards (n + 1))

theorem Paid.trans {charId : UInt64} {reason : Str} {rewards rewards' : List RewardItem}
    {c c' c'' : TableContent} (h : Paid charId reason rewards c c')
    (h' : Paid charId reason rewards' c' c'') :
    Paid charId reason (rewards ++ rewards') c c'' where
  quantities item := by
    rw [h'.quantities, h.quantities, Nat.mod_add_mod, Nat.add_assoc]
    unfold counted
    rw [List.filter_append, List.map_append, List.sum_append]
  log := by
    rw [h'.log, h.log, h.nextChangeId, rewardChanges_append, List.append_assoc]
  nextChangeId := by
    rw [h'.nextChangeId, h.nextChangeId, List.length_append, Nat.add_assoc]
  others other hother :=
    ⟨(h'.others other hother).1.trans (h.others other hother).1,
      (h'.others other hother).2.trans (h.others other hother).2⟩

/-- The table after items are added to one inventory one after the other. -/
def addAll (charId : UInt64) (reason : Str) (rewards : List RewardItem) (c : TableContent) :
    TableContent :=
  rewards.foldl (fun c reward => (c.addItem charId reward.itemId reward.count reason).2) c

theorem addAll_paid (charId : UInt64) (reason : Str) :
    ∀ (rewards : List RewardItem) (c : TableContent), (∀ reward ∈ rewards, reward.count ≠ 0) →
      Paid charId reason rewards c (addAll charId reason rewards c)
  | [], c, _ => .refl charId reason c
  | _ :: rewards, c, h => by
    rw [List.forall_mem_cons] at h
    exact (paid_addItem charId reason c h.1).trans (addAll_paid charId reason rewards _ h.2)

end Paid

namespace Server

variable {σ : Type} [InventoryStorage σ] [TableBacked σ]

section Transaction

open TableContent

theorem addItems_accepted (charId : UInt64) (reason : Str) :
    ∀ (rewards : List RewardItem) (storage : σ), (∀ reward ∈ rewards, reward.count ≠ 0) →
      (addItems storage charId reason rewards).1 = true ∧
      TableBacked.content (addItems storage charId reason rewards).2 =
        addAll charId reason rewards (TableBacked.content storage)
  | [], storage, _ => ⟨rfl, rfl⟩
  | reward :: rewards, storage, h => by
    rw [List.forall_mem_cons] at h
    obtain ⟨hok, hc, -, -⟩ := TableBacked.addItem storage charId reward.itemId reward.count reason
      h.1
    unfold addItems
    rcases hadd : InventoryStorage.addItem storage charId reward.itemId reward.count reason with
      ⟨_ | _, storage'⟩
    · rw [hadd] at hok
      cases hok
    · rw [hadd] at hc
      obtain ⟨hok', hc'⟩ := addItems_accepted charId reason rewards storage' h.2
      refine ⟨hok', hc'.trans ?_⟩
      rw [hc]
      rfl

/-- Items are added in one transaction if there is some of each. -/
theorem addInTransaction_accepted (storage : σ) (charId : UInt64) (reason : Str)
    {rewards : List RewardItem} (h : ∀ reward ∈ rewards, reward.count ≠ 0) :
    (addInTransaction storage charId reason rewards).1 = true ∧
      TableBacked.content (addInTransaction storage charId reason rewards).2 =
        addAll charId reason rewards (TableBacked.content storage) := by
  obtain ⟨hb, -⟩ := TableBacked.begin storage
  obtain ⟨hok, hc⟩ := addItems_accepted charId reason rewards
    (InventoryStorage.beginTransaction storage).2 h
  rw [hb] at hc
  unfold addInTransaction
  simp only []
  rcases hadd : addItems (InventoryStorage.beginTransaction storage).2 charId reason rewards with
    ⟨_ | _, storage'⟩
  · rw [hadd] at hok
    cases hok
  · rw [hadd] at hc
    exact ⟨rfl, (TableBacked.commit storage' _).1.trans hc⟩

theorem addInTransaction_paid (storage : σ) (charId : UInt64) (reason : Str)
    {rewards : List RewardItem} (h : ∀ reward ∈ rewards, reward.count ≠ 0) :
    (addInTransaction storage charId reason rewards).1 = true ∧
      Paid charId reason rewards (TableBacked.content storage)
        (TableBacked.content (addInTransaction storage charId reason rewards).2) := by
  obtain ⟨hok, hc⟩ := addInTransaction_accepted storage charId reason h
  rw [hc]
  exact ⟨hok, addAll_paid charId reason rewards _ h⟩

theorem addItems_refused (charId : UInt64) (reason : Str) :
    ∀ (rewards : List RewardItem) (storage : σ), ¬ (∀ reward ∈ rewards, reward.count ≠ 0) →
      (addItems storage charId reason rewards).1 = false
  | [], _, h => absurd (fun _ hmem => by cases hmem) h
  | reward :: rewards, storage, h => by
    rw [List.forall_mem_cons] at h
    unfold addItems
    by_cases hzero : reward.count = 0
    · rw [hzero, TableBacked.addItem_zero]
    · have hrest := fun storage => addItems_refused charId reason rewards storage
        fun hall => h ⟨hzero, hall⟩
      rcases InventoryStorage.addItem storage charId reward.itemId reward.count reason with
        ⟨_ | _, storage'⟩
      · rfl
      · exact hrest storage'

/-- Adding items touches no open transaction. -/
theorem addItems_snapshot (charId : UInt64) (reason : Str) :
    ∀ (rewards : List RewardItem) (storage : σ),
      TableBacked.snapshot (addItems storage charId reason rewards).2 =
        TableBacked.snapshot storage ∧
      (TableBacked.Ordered storage →
        TableBacked.Ordered (addItems storage charId reason rewards).2)
  | [], _ => ⟨rfl, fun h => h⟩
  | reward :: rewards, storage => by
    unfold addItems
    by_cases hzero : reward.count = 0
    · rw [hzero, TableBacked.addItem_zero]
      exact ⟨rfl, fun h => h⟩
    · obtain ⟨hok, -, hs, ho⟩ := TableBacked.addItem storage charId reward.itemId reward.count
        reason hzero
      rcases hadd : InventoryStorage.addItem storage charId reward.itemId reward.count reason with
        ⟨_ | _, storage'⟩
      · rw [hadd] at hok
        cases hok
      · rw [hadd] at hs ho
        obtain ⟨hs', ho'⟩ := addItems_snapshot charId reason rewards storage'
        exact ⟨hs'.trans hs, fun h => ho' (ho h)⟩

/-- If there is none of some item, the transaction is rolled back and nothing is stored. -/
theorem addInTransaction_refused (storage : σ) (charId : UInt64) (reason : Str)
    {rewards : List RewardItem} (h : ¬ ∀ reward ∈ rewards, reward.count ≠ 0) :
    (addInTransaction storage charId reason rewards).1 = false ∧
      (TableBacked.Ordered storage →
        TableBacked.content (addInTransaction storage charId reason rewards).2 =
          TableBacked.content storage) := by
  have hno := addItems_refused charId reason rewards (InventoryStorage.beginTransaction storage).2 h
  have hsnap := (addItems_snapshot charId reason rewards
    (InventoryStorage.beginTransaction storage).2).1
  unfold addInTransaction
  simp only []
  rcases hadd : addItems (InventoryStorage.beginTransaction storage).2 charId reason rewards with
    ⟨_ | _, storage'⟩
  · rw [hadd] at hsnap
    refine ⟨rfl, fun ho => ?_⟩
    refine (TableBacked.rollback storage' _).1 _ ?_
    rw [hsnap]
    exact ((TableBacked.begin storage).2 ho).2
  · rw [hadd] at hno
    cases hno

theorem addInTransaction_ordered (storage : σ) (charId : UInt64) (reason : Str)
    (rewards : List RewardItem) (h : TableBacked.Ordered storage) :
    TableBacked.Ordered (addInTransaction storage charId reason rewards).2 := by
  have ho := (addItems_snapshot charId reason rewards
    (InventoryStorage.beginTransaction storage).2).2 ((TableBacked.begin storage).2 h).1
  unfold addInTransaction
  simp only []
  rcases hadd : addItems (InventoryStorage.beginTransaction storage).2 charId reason rewards with
    ⟨_ | _, storage'⟩
  · rw [hadd] at ho
    exact (TableBacked.rollback storage' _).2 ho
  · rw [hadd] at ho
    exact (TableBacked.commit storage' _).2 ho

end Transaction

section Results

/-- The rewards as the items of a grant. -/
def grantItems (rewards : List RewardItem) : List GrantItem :=
  rewards.map fun reward => ⟨reward.itemId, reward.count⟩

theorem grant_completed_iff {grantId : ℕ} {rewards : List RewardItem} :
    (RewardService.grantRewardsDetailed {} grantId (grantItems rewards)).1 = .completed ↔
      Grantable rewards := by
  unfold grantItems
  rw [grant_rewards]
  split_ifs with h
  · simp [h]
  · simp [h]

/-- What an instance that has just ended gives: all of its rewards, or nothing for want of a
character or because the rewards cannot be granted. -/
theorem grantResult_paid (s : Server σ) (id instanceId : ℕ) (rewards : List RewardItem) :
    (∃ charId, s.sessionCharacters[id]? = some charId ∧ Grantable rewards ∧
      (s.grantResult id instanceId rewards).1.code = str "OK" ∧
      Paid charId (str "dungeon_reward") rewards (TableBacked.content s.inventoryStorage)
        (TableBacked.content (s.grantResult id instanceId rewards).2.inventoryStorage)) ∨
    (((s.grantResult id instanceId rewards).1.code = str "CHAR_NOT_SET" ∨
        (s.grantResult id instanceId rewards).1.code = str "REWARD_FAILED") ∧
      (s.grantResult id instanceId rewards).2.inventoryStorage = s.inventoryStorage) := by
  unfold grantResult
  simp only [grant_rewards]
  split
  · exact .inr ⟨.inl rfl, rfl⟩
  · rename_i charId hchar
    by_cases hg : Grantable rewards
    · obtain ⟨hok, hpaid⟩ := addInTransaction_paid s.inventoryStorage charId
        (str "dungeon_reward") hg.1
      rw [if_pos hg]
      simp only []
      rcases hadd : addInTransaction s.inventoryStorage charId (str "dungeon_reward") rewards with
        ⟨_ | _, inventoryStorage⟩
      · rw [hadd] at hok
        cases hok
      · rw [hadd] at hpaid
        exact .inl ⟨charId, hchar, hg, rfl, hpaid⟩
    · rw [if_neg hg]
      exact .inr ⟨.inr rfl, rfl⟩

omit [InventoryStorage σ] [TableBacked σ] in
/-- A result that is refused before its instance ends is neither OK nor refused by the storage, and
refused for a grant only if there is one. -/
theorem checkResult_code {s : Server σ} {id : ℕ} {payload : Bytes}
    {response : DungeonResultResponse} (h : s.checkResult id payload = .error response) :
    response.code ≠ str "OK" ∧ response.code ≠ str "INVENTORY_FAILED" ∧
      (response.code = str "REWARD_DUPLICATE" → ∃ instanceId,
        s.sessionInstances[id]? = some instanceId ∧
        (s.instanceRewardGrants[instanceId]?).isSome) := by
  unfold checkResult at h
  simp only [bind_eq_error, decodedOr_eq_error, orRefuse_eq_error, unlessRefuse_eq_error,
    pure_ne_error, and_false, exists_false, or_false, orRefuse_eq_ok] at h
  rcases h with ⟨-, rfl⟩ | ⟨_, -, ⟨-, rfl⟩ | ⟨_, -, ⟨-, rfl⟩ | ⟨instanceId, hb, ⟨-, rfl⟩ |
    ⟨_, -, hg, rfl⟩⟩⟩⟩
  · exact ⟨by decide, by decide, fun h => absurd h (by decide)⟩
  · exact ⟨by decide, by decide, fun h => absurd h (by decide)⟩
  · exact ⟨by decide, by decide, fun h => absurd h (by decide)⟩
  · exact ⟨by decide, by decide, fun h => absurd h (by decide)⟩
  · exact ⟨by decide, by decide, fun _ => ⟨instanceId, hb, Option.isSome_iff_ne_none.mpr hg⟩⟩

/-- What the handler of results answers, and what it has paid if it is OK. -/
theorem handleResult_paid (s : Server σ) (id : ℕ) (payload : Bytes) :
    ((s.handleResult id payload).1.code = str "OK" → ∃ request charId,
      decodeDungeonResultNotify payload = .ok request ∧
      s.sessionCharacters[id]? = some charId ∧ Grantable request.rewards ∧
      Paid charId (str "dungeon_reward") request.rewards (TableBacked.content s.inventoryStorage)
        (TableBacked.content (s.handleResult id payload).2.inventoryStorage)) ∧
    (s.handleResult id payload).1.code ≠ str "INVENTORY_FAILED" ∧
    ((s.handleResult id payload).1.code = str "REWARD_DUPLICATE" → ∃ instanceId,
      s.sessionInstances[id]? = some instanceId ∧
      (s.instanceRewardGrants[instanceId]?).isSome) := by
  unfold handleResult
  rcases hc : s.checkResult id payload with response | ⟨request, instanceId⟩
  · obtain ⟨hok, hrest⟩ := checkResult_code hc
    exact ⟨fun h => absurd h hok, hrest⟩
  · obtain ⟨hd, -⟩ := checkResult_eq_ok.mp hc
    simp only []
    split
    · have hcode : (resultRejected "INVALID_STATE" "Dungeon state transition rejected").code =
          str "INVALID_STATE" := rfl
      simp only [hcode]
      exact ⟨fun h => absurd h (by decide), by decide, fun h => absurd h (by decide)⟩
    · rename_i instanceManager _
      rcases { s with instanceManager }.grantResult_paid id instanceId request.rewards with
        ⟨charId, hchar, hg, hcode, hpaid⟩ | ⟨hcode | hcode, -⟩
      · rw [hcode]
        exact ⟨fun _ => ⟨request, charId, hd, hchar, hg, hpaid⟩, by decide,
          fun h => absurd h (by decide)⟩
      · rw [hcode]
        exact ⟨fun h => absurd h (by decide), by decide, fun h => absurd h (by decide)⟩
      · rw [hcode]
        exact ⟨fun h => absurd h (by decide), by decide, fun h => absurd h (by decide)⟩

/-- The reward inventory and the stored one agree: a result is answered OK only with rewards that
were granted and are stored as asked for, and one that was granted is stored. The refusals that
come after the grant, for the storage or for a grant on record, are never given. -/
theorem result_pays_out (s : Server σ) (id : ℕ) (header : FrameHeader) (payload : Bytes)
    (now : Time) (response : DungeonResultResponse)
    (h : (s.answerPacket id header payload now).1 = some ⟨.dungeonResultRes, response⟩) :
    (response.code = str "OK" → ∃ body request charId,
      (∃ session session', s.heap[id]? = some session ∧
        s.gatePacket session header payload now = (.passed body, session')) ∧
      decodeDungeonResultNotify body = .ok request ∧
      s.sessionCharacters[id]? = some charId ∧
      (∀ reward ∈ request.rewards, 1 ≤ reward.count.toNat) ∧
      (request.rewards.map fun reward => reward.count.toNat).sum ≤ 100 ∧
      Paid charId (str "dungeon_reward") request.rewards (TableBacked.content s.inventoryStorage)
        (TableBacked.content (s.answerPacket id header payload now).2.inventoryStorage)) ∧
    (∀ grantId charId reason rewards,
      (RewardService.grantRewardsDetailed {} grantId (grantItems rewards)).1 = .completed →
      (addInTransaction s.inventoryStorage charId reason rewards).1 = true) ∧
    response.code ≠ str "INVENTORY_FAILED" ∧
    (response.code = str "REWARD_DUPLICATE" → ∃ instanceId,
      s.sessionInstances[id]? = some instanceId ∧
      (s.instanceRewardGrants[instanceId]?).isSome) ∧
    ∀ instanceId rewards, (s.grantResult id instanceId rewards).1.code ≠
      str "REWARD_DUPLICATE" := by
  obtain ⟨session, session', body, hs, hg⟩ := passed_of_answer h (by simp)
  rw [answerPacket_of_passed hs hg] at h ⊢
  have ht : PacketType.ofCode header.type = some .dungeonResultNotify := dispatch_request h
  rw [dispatch_result ht] at h ⊢
  obtain ⟨hok, hfailed, hdup⟩ := (s.receive id session' payload).handleResult_paid id body
  cases h
  refine ⟨fun hcode => ?_, fun grantId charId reason rewards hgrant => ?_, hfailed, hdup,
    fun instanceId rewards => ?_⟩
  · obtain ⟨request, charId, hd, hchar, hgrantable, hpaid⟩ := hok hcode
    refine ⟨body, request, charId, ⟨session, session', hs, hg⟩, hd, hchar, fun reward hr => ?_,
      hgrantable.2, hpaid⟩
    exact Nat.one_le_iff_ne_zero.mpr fun h0 =>
      hgrantable.1 reward hr (UInt32.toNat_inj.mp h0)
  · exact (addInTransaction_paid _ charId reason (grant_completed_iff.mp hgrant).1).1
  · rcases s.grantResult_paid id instanceId rewards with ⟨_, -, -, hcode, -⟩ | ⟨hcode | hcode, -⟩
      <;> rw [hcode] <;> decide

theorem result_pays_out_alone :
    ((after serverStep (still {}) playedAlone).answerPacket 1
      (headerOf .dungeonResultNotify (resultOf [⟨1, 2⟩])) (resultOf [⟨1, 2⟩]) 0).1 =
      some ⟨.dungeonResultRes, ⟨true, str "OK", str "Dungeon result recorded",
        str "result recorded"⟩⟩ ∧
    ∃ (request : DungeonResultNotify) (charId : UInt64),
      Paid charId (str "dungeon_reward") request.rewards
      (TableBacked.content (after serverStep (still {}) playedAlone).inventoryStorage)
      (TableBacked.content ((after serverStep (still {}) playedAlone).answerPacket 1
        (headerOf .dungeonResultNotify (resultOf [⟨1, 2⟩])) (resultOf [⟨1, 2⟩])
          0).2.inventoryStorage) := by
  have hanswer : ((after serverStep (still {}) playedAlone).answerPacket 1
      (headerOf .dungeonResultNotify (resultOf [⟨1, 2⟩])) (resultOf [⟨1, 2⟩]) 0).1 =
      some ⟨.dungeonResultRes, ⟨true, str "OK", str "Dungeon result recorded",
        str "result recorded"⟩⟩ := by
    decide +kernel
  obtain ⟨_, request, charId, -, -, -, -, -, hpaid⟩ := (result_pays_out _ 1 _ _ 0 _ hanswer).1 rfl
  exact ⟨hanswer, request, charId, hpaid⟩

end Results

end Server

end DungeonHub
