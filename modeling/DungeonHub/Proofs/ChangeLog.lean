import DungeonHub.Proofs.Inventory

/-!
# The change log of a table

The items, the logs and the counter of changes are kept in step: every log replays to the items
there are, and the changes of all logs together carry each id up to the counter once. A snapshot
holds all three, so a rollback brings back a table in which they are in step as well.
-/

namespace DungeonHub

open Run InventoryStorage

section Replay

/-- A change on the quantities held; more cannot be removed than is held. -/
def applyChange (held : ItemId → Quantity) (change : InventoryChange) :
    Option (ItemId → Quantity) :=
  match change.type with
  | .add => some (Function.update held change.itemId (held change.itemId + change.quantity))
  | .remove =>
    if held change.itemId < change.quantity then none
    else some (Function.update held change.itemId (held change.itemId - change.quantity))
  | .set => some (Function.update held change.itemId change.quantity)

/-- The changes of a log in order, from an empty inventory. -/
def replayLog (log : List InventoryChange) : Option (ItemId → Quantity) :=
  log.foldlM applyChange fun _ => 0

/-- How much there is of each item. -/
def quantities (items : Items) (item : ItemId) : Quantity := items.getD item 0

/-- How much an inventory holds of an item. -/
def InventoryTable.quantityOf (s : InventoryTable) (id : InventoryId) (item : ItemId) : Quantity :=
  (s.loadInventory id).elim 0 fun state => quantities state.items item

theorem quantities_eq (items : Items) (item : ItemId) :
    quantities items item = items[item]?.getD 0 := by
  unfold quantities
  rw [Std.ExtTreeMap.getD_eq_getD_getElem?]

theorem quantities_insert (items : Items) (item : ItemId) (quantity : Quantity) :
    quantities (items.insert item quantity) = Function.update (quantities items) item quantity := by
  funext i
  rw [quantities_eq, Dict.get?_insert, Function.update_apply, quantities_eq]
  by_cases hi : item = i
  · simp [hi]
  · simp [hi, Ne.symm hi]

theorem quantities_erase (items : Items) (item : ItemId) :
    quantities (items.erase item) = Function.update (quantities items) item 0 := by
  funext i
  rw [quantities_eq, Dict.get?_erase, Function.update_apply, quantities_eq]
  by_cases hi : item = i
  · simp [hi]
  · simp [hi, Ne.symm hi]

theorem InventoryTable.quantityOf_eq (s : InventoryTable) (id : InventoryId) :
    s.quantityOf id = quantities (s.content.itemsOf id) := by
  funext item
  unfold quantityOf loadInventory
  rw [TableContent.itemsOf_eq]
  rcases s.content.inventories[id]? with _ | items
  · rw [quantities_eq]
    rfl
  · rfl

end Replay

namespace TableContent

section Step

/-- The log of an inventory. -/
def log (c : TableContent) (id : InventoryId) : List InventoryChange := c.changeLog.getD id []

/-- The ids of all changes in the logs. -/
def changeIds (c : TableContent) : List ℕ :=
  c.changeLog.toList.flatMap fun entry => entry.2.map InventoryChange.changeId

/-- Items, logs and counter are in step. -/
structure Audited (c : TableContent) : Prop where
  replayed : ∀ id, replayLog (c.log id) = some (quantities (c.itemsOf id))
  increasing : ∀ id, (c.log id).Pairwise fun a b => a.changeId < b.changeId
  one_le : 1 ≤ c.nextChangeId
  numbered : c.changeIds.Perm (List.range' 1 (c.nextChangeId - 1))

variable {c : TableContent} {id : InventoryId}

theorem log_eq (c : TableContent) (id : InventoryId) : c.log id = c.changeLog[id]?.getD [] := by
  unfold log
  rw [Std.ExtTreeMap.getD_eq_getD_getElem?]

theorem mem_changeIds {change : InventoryChange} (h : change ∈ c.log id) :
    change.changeId ∈ c.changeIds := by
  rw [log_eq] at h
  rcases hl : c.changeLog[id]? with _ | l
  · simp [hl] at h
  · rw [hl] at h
    exact List.mem_flatMap.mpr
      ⟨(id, l), (Dict.mem_toList _ _ _).mpr hl, List.mem_map.mpr ⟨_, h, rfl⟩⟩

/-- The ids in the logs are below the next one. -/
theorem Audited.changeId_lt (h : Audited c) {change : InventoryChange} (hc : change ∈ c.log id) :
    change.changeId < c.nextChangeId := by
  have hmem := h.numbered.mem_iff.mp (mem_changeIds hc)
  have hone := h.one_le
  rw [List.mem_range'_1] at hmem
  omega

variable (item : ItemId) (quantity : Quantity) (type : ChangeType) (reason : Str)

theorem recordChange_log (id' : InventoryId) :
    (c.recordChange id item quantity type reason).log id' =
      if id = id' then c.log id ++ [⟨c.nextChangeId, id, item, quantity, type, reason⟩]
      else c.log id' := by
  rw [log_eq, log_eq c id']
  unfold recordChange
  rw [Dict.get?_insert]
  split_ifs <;> rfl

theorem recordChange_changeIds :
    (c.recordChange id item quantity type reason).changeIds.Perm
      (c.changeIds ++ [c.nextChangeId]) := by
  -- the other logs, and this one with the new change at its end
  have hnew := (Dict.toList_insert_perm c.changeLog id
    (c.log id ++ [⟨c.nextChangeId, id, item, quantity, type, reason⟩])).flatMap_right
      fun entry => entry.2.map InventoryChange.changeId
  have hold : c.changeIds.Perm ((c.log id).map InventoryChange.changeId ++
      (c.changeLog.toList.filter fun entry => entry.1 ≠ id).flatMap
        fun entry => entry.2.map InventoryChange.changeId) := by
    rw [log_eq]
    rcases hl : c.changeLog[id]? with _ | l
    · unfold changeIds
      rw [Dict.toList_filter_of_none hl]
      exact .refl _
    · exact (Dict.toList_perm_of_get hl).flatMap_right _
  refine hnew.trans ?_
  rw [List.flatMap_cons, List.map_append, List.append_assoc]
  refine List.Perm.trans ?_ (hold.symm.append_right _)
  rw [List.append_assoc]
  exact List.perm_append_comm.append_left _

/-- A change goes into the log and makes the items what it says. -/
theorem Audited.record (h : Audited c) (items : Items)
    (happly : applyChange (quantities (c.itemsOf id))
      ⟨c.nextChangeId, id, item, quantity, type, reason⟩ = some (quantities items)) :
    Audited ((c.putItems id items).recordChange id item quantity type reason) := by
  have hlog : ∀ id', ((c.putItems id items).recordChange id item quantity type reason).log id' =
      if id = id' then c.log id ++ [⟨c.nextChangeId, id, item, quantity, type, reason⟩]
      else c.log id' :=
    fun id' => recordChange_log (c := c.putItems id items) item quantity type reason id'
  refine ⟨fun id' => ?_, fun id' => ?_, Nat.le_succ_of_le h.one_le, ?_⟩
  · rw [hlog, itemsOf_eq, recordChange_inventories, putItems_inventories, Dict.get?_insert]
    split_ifs with hid
    · subst hid
      unfold replayLog
      rw [List.foldlM_append]
      show (replayLog (c.log id) >>= _) = _
      rw [h.replayed id]
      show ([_] : List InventoryChange).foldlM applyChange _ = _
      rw [List.foldlM_cons, happly]
      rfl
    · rw [← itemsOf_eq]
      exact h.replayed id'
  · rw [hlog]
    split_ifs with hid
    · rw [List.pairwise_append]
      refine ⟨h.increasing id, List.pairwise_singleton _ _, ?_⟩
      intro a ha b hb
      rw [List.mem_singleton.mp hb]
      exact h.changeId_lt ha
    · exact h.increasing id'
  · refine (recordChange_changeIds (c := c.putItems id items) item quantity type reason).trans ?_
    have hone := h.one_le
    show (c.changeIds ++ [c.nextChangeId]).Perm (List.range' 1 (c.nextChangeId + 1 - 1))
    have hrange : List.range' 1 (c.nextChangeId + 1 - 1) =
        List.range' 1 (c.nextChangeId - 1) ++ [c.nextChangeId] := by
      obtain ⟨n, hn⟩ := Nat.exists_eq_add_of_le' hone
      rw [hn, Nat.add_sub_cancel, Nat.add_sub_cancel, List.range'_1_concat, Nat.add_comm 1 n]
    rw [hrange]
    exact h.numbered.append_right _

/-- An inventory that comes into being is empty, and logged as such. -/
theorem Audited.created (h : Audited c) (id : InventoryId) : Audited (c.created id) := by
  refine ⟨fun id' => ?_, h.increasing, h.one_le, h.numbered⟩
  have hitems : (c.created id).itemsOf id' = c.itemsOf id' := by
    unfold TableContent.created
    rw [itemsOf_eq, putItems_inventories, Dict.get?_insert]
    split_ifs with hid
    · rw [← hid]
      rfl
    · rw [itemsOf_eq]
  rw [hitems]
  exact h.replayed id'

theorem addItem_audited (h : Audited c) (id : InventoryId) :
    Audited (c.addItem id item quantity reason).2 := by
  by_cases hq : quantity = 0
  · rw [hq, addItem_zero]
    exact h
  · rw [addItem_eq _ _ _ _ hq]
    refine h.record item quantity .add reason _ ?_
    unfold addTo
    rw [quantities_insert]
    rfl

theorem removeItem_audited (h : Audited c) (id : InventoryId) :
    Audited (c.removeItem id item quantity reason).2 := by
  by_cases hq : quantity = 0
  · unfold removeItem
    rw [if_pos hq]
    exact h
  rcases removeItem_cases c id item reason hq with ⟨held, hheld, hle, hr⟩ | ⟨-, hr⟩
  · rw [hr]
    refine h.record item quantity .remove reason _ ?_
    have hq : quantities (c.itemsOf id) item = held := by
      rw [quantities_eq, hheld]
      rfl
    have htake : quantities (takeFrom (c.itemsOf id) item held quantity) =
        Function.update (quantities (c.itemsOf id)) item (held - quantity) := by
      unfold takeFrom
      split_ifs with hzero
      · rw [quantities_erase, hzero]
      · rw [quantities_insert]
    unfold applyChange
    simp only [hq, htake]
    rw [if_neg (UInt32.not_lt.mpr hle)]
  · rw [hr]
    exact h.created id

theorem setItem_audited (h : Audited c) (id : InventoryId) :
    Audited (c.setItem id item quantity reason) := by
  rw [setItem_eq]
  refine h.record item quantity .set reason _ ?_
  unfold setTo
  split_ifs with hzero
  · rw [quantities_erase, hzero]
    rfl
  · rw [quantities_insert]
    rfl

theorem audited_new : Audited {} :=
  ⟨fun _ => rfl, fun _ => List.Pairwise.nil, le_rfl, .refl _⟩

end Step

end TableContent

section Run

open TableContent

/-- The table's content is in step, and so is what its transactions remember. -/
def Kept (s : InventoryTable) : Prop :=
  Audited s.content ∧ s.transactionSnapshots.All fun _ snapshot => Audited snapshot

theorem storageStep_kept {s : InventoryTable} (h : Kept s) {call : StorageCall}
    (hcall : ∀ state, call ≠ .saveInventory state) : Kept (storageStep s call) := by
  cases call with
  | beginTransaction => exact ⟨h.1, h.2.insertIfNew h.1⟩
  | commitTransaction t => exact ⟨h.1, h.2.erase t.transactionId⟩
  | rollbackTransaction t =>
    show Kept (s.rollbackTransaction t)
    unfold InventoryTable.rollbackTransaction
    split
    · exact ⟨h.1, h.2⟩
    · rename_i snapshot hs
      exact ⟨h.2 _ snapshot hs, h.2.erase t.transactionId⟩
  | loadInventory id => exact h
  | saveInventory state => exact absurd rfl (hcall state)
  | addItem id item quantity reason => exact ⟨addItem_audited item quantity reason h.1 id, h.2⟩
  | removeItem id item quantity reason =>
    exact ⟨removeItem_audited item quantity reason h.1 id, h.2⟩
  | setItem id item quantity reason => exact ⟨setItem_audited item quantity reason h.1 id, h.2⟩

/-- Unless an inventory is saved as a whole, every log replays to the quantities there are, its ids
go up, and the ids of all logs are those up to the counter. -/
theorem change_log_audit (calls : List StorageCall)
    (hcalls : ∀ call ∈ calls, ∀ state, call ≠ .saveInventory state) :
    (∀ id, replayLog ((after storageStep ({} : InventoryTable) calls).changeLog id) =
      some ((after storageStep ({} : InventoryTable) calls).quantityOf id)) ∧
    (∀ id, ((after storageStep ({} : InventoryTable) calls).changeLog id).Pairwise
      fun a b => a.changeId < b.changeId) ∧
    (after storageStep ({} : InventoryTable) calls).content.changeIds.Perm
      (List.range' 1 ((after storageStep ({} : InventoryTable) calls).content.nextChangeId - 1)) := by
  have h : Kept (after storageStep ({} : InventoryTable) calls) :=
    invariant (I := Kept) (P := fun _ call => ∀ state, call ≠ .saveInventory state)
      (fun s call hs hcall => storageStep_kept hs hcall) calls {} ⟨audited_new, Dict.all_empty⟩
      fun x hx => hcalls x.2 (mem_of_mem_trail hx)
  refine ⟨fun id => ?_, h.1.increasing, h.1.numbered⟩
  rw [InventoryTable.quantityOf_eq]
  exact h.1.replayed id

/-- A rollback takes back the changes and their ids. -/
theorem change_log_audit_rollback :
    replayLog ((after storageStep ({} : InventoryTable)
        [.addItem 1 1 5 [], .beginTransaction, .removeItem 1 1 2 [], .rollbackTransaction ⟨1⟩,
          .setItem 1 2 7 []]).changeLog 1) =
      some ((after storageStep ({} : InventoryTable)
        [.addItem 1 1 5 [], .beginTransaction, .removeItem 1 1 2 [], .rollbackTransaction ⟨1⟩,
          .setItem 1 2 7 []]).quantityOf 1) :=
  (change_log_audit [.addItem 1 1 5 [], .beginTransaction, .removeItem 1 1 2 [],
    .rollbackTransaction ⟨1⟩, .setItem 1 2 7 []] (by simp)).1 1

end Run

end DungeonHub
