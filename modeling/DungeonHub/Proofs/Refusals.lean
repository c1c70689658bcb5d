import DungeonHub.Proofs.Cache

/-!
# What a refused call leaves behind

A refused addition touches nothing. A refused removal brings the inventory into being if it was not
there, which a later load shows: from then on it finds an empty inventory. In the cached storage
this happens in the persistent layer, and shows unless the cache has a record of its own.
-/

namespace DungeonHub

open InventoryStorage Run TableContent

section Untouched

variable {σ : Type} [InventoryStorage σ]

/-- The storage answers for every inventory as it did. -/
def Untouched (s s' : σ) : Prop :=
  ∀ id, (loadInventory s' id).1 = (loadInventory s id).1 ∧ changeLog s' id = changeLog s id

/-- The call is an addition or a removal, and returns false. -/
def Refused (s : σ) : StorageCall → Prop
  | .addItem id item quantity reason => (addItem s id item quantity reason).1 = false
  | .removeItem id item quantity reason => (removeItem s id item quantity reason).1 = false
  | _ => False

end Untouched

/-- The call removes some of an item from an inventory that is not there. -/
def RemovesFromNone (c : TableContent) : StorageCall → Prop
  | .removeItem id _ quantity _ => quantity ≠ 0 ∧ id ∉ c.inventories
  | _ => False

namespace TableContent

theorem created_of_mem {c : TableContent} {id : InventoryId} (h : id ∈ c.inventories) :
    c.created id = c := by
  obtain ⟨items, hitems⟩ := (Dict.mem_iff _ _).mp h
  have hd : c.inventories.insert id items = c.inventories := Dict.insert_of_get hitems
  unfold created putItems
  rw [itemsOf_of_get hitems, hd]

theorem created_load {c : TableContent} {id : InventoryId} (h : id ∉ c.inventories)
    (a : InventoryId) :
    (c.created id).inventories[a]? = if id = a then some ∅ else c.inventories[a]? := by
  unfold created
  rw [itemsOf_of_none ((Dict.not_mem_iff _ _).mp h), putItems_inventories, Dict.get?_insert]

/-- A refused removal leaves the content alone, or the inventory created. -/
theorem removeItem_refused {c : TableContent} {id : InventoryId} {item : ItemId}
    {quantity : Quantity} {reason : Str} (h : (c.removeItem id item quantity reason).1 = false) :
    (c.removeItem id item quantity reason).2 =
      if quantity ≠ 0 ∧ id ∉ c.inventories then c.created id else c := by
  by_cases hq : quantity = 0
  · rw [if_neg fun h => h.1 hq]
    unfold removeItem
    rw [if_pos hq]
  · rcases c.removeItem_cases id item reason hq with ⟨held, -, -, hr⟩ | ⟨-, hr⟩
    · rw [hr] at h
      cases h
    · rw [hr]
      split_ifs with hnone
      · rfl
      · exact created_of_mem (by_contra fun hid => hnone ⟨hq, hid⟩)

/-- There is nothing to remove from an inventory that is not there. -/
theorem removeItem_none {c : TableContent} {id : InventoryId} (h : id ∉ c.inventories)
    (item : ItemId) (quantity : Quantity) (reason : Str) :
    (c.removeItem id item quantity reason).1 = false := by
  by_cases hq : quantity = 0
  · unfold removeItem
    rw [if_pos hq]
  · rcases c.removeItem_cases id item reason hq with ⟨held, hheld, -⟩ | ⟨-, hr⟩
    · rw [itemsOf_of_none ((Dict.not_mem_iff _ _).mp h), Dict.get?_empty] at hheld
      cases hheld
    · rw [hr]

theorem addItem_refused {c : TableContent} {id : InventoryId} {item : ItemId} {quantity : Quantity}
    {reason : Str} (h : (c.addItem id item quantity reason).1 = false) :
    (c.addItem id item quantity reason).2 = c := by
  by_cases hq : quantity = 0
  · rw [hq, addItem_zero]
  · rw [addItem_eq c id item reason hq] at h
    cases h

end TableContent

theorem table_untouched_iff (t : InventoryTable) {c : TableContent}
    (hlog : c.changeLog = t.content.changeLog) :
    Untouched t { t with content := c } ↔
      ∀ id : InventoryId, c.inventories[id]? = t.content.inventories[id]? := by
  have hload : ∀ (t : InventoryTable) (id : InventoryId), (loadInventory t id).1 =
      t.content.inventories[id]?.map fun items => ⟨id, items⟩ := fun _ _ => rfl
  have hchanges : ∀ id : InventoryId,
      changeLog { t with content := c } id = changeLog t id := fun id =>
    congrArg (fun log => log.getD id []) hlog
  unfold Untouched
  refine forall_congr' fun id => ?_
  rw [hload, hload, and_iff_left (hchanges id)]
  exact (Option.map_injective fun _ _ h => congrArg InventoryState.items h).eq_iff

/-- What the cache has a record of, it answers for. -/
theorem cached_untouched_iff (s : CachedTables) {p : InventoryTable}
    (hlog : p.content.changeLog = s.persistent.content.changeLog) :
    Untouched s { s with persistent := p } ↔
      ∀ id : InventoryId, id ∉ s.cache.content.inventories →
        p.content.inventories[id]? = s.persistent.content.inventories[id]? := by
  have hchanges : ∀ id : InventoryId,
      changeLog { s with persistent := p } id = changeLog s id := fun id =>
    congrArg (fun log => log.getD id []) hlog
  unfold Untouched
  refine forall_congr' fun id => ?_
  rw [cached_load, cached_load, and_iff_left (hchanges id)]
  unfold InventoryTable.loadInventory
  rcases hid : s.cache.content.inventories[id]? with _ | items
  · have hnot : id ∉ s.cache.content.inventories := (Dict.not_mem_iff _ _).mpr hid
    simp only [hnot, not_false_eq_true, true_imp_iff, Option.map_none, Option.none_or]
    exact (Option.map_injective fun _ _ h => congrArg InventoryState.items h).eq_iff
  · have hin : id ∈ s.cache.content.inventories := (Dict.mem_iff _ _).mpr ⟨items, hid⟩
    simp [hin]

/-- What a refused call makes of a table's content. -/
theorem table_refused {t : InventoryTable} {call : StorageCall} (h : Refused t call) :
    (∃ id item quantity reason, call = .removeItem id item quantity reason ∧ quantity ≠ 0 ∧
      id ∉ t.content.inventories ∧
      storageStep t call = { t with content := t.content.created id }) ∨
    (¬ RemovesFromNone t.content call ∧ storageStep t call = t) := by
  cases call with
  | addItem id item quantity reason =>
    have hsame : (t.content.addItem id item quantity reason).2 = t.content := addItem_refused h
    refine .inr ⟨nofun, ?_⟩
    show { t with content := (t.content.addItem id item quantity reason).2 } = t
    rw [hsame]
  | removeItem id item quantity reason =>
    have hcontent : (t.content.removeItem id item quantity reason).2 =
        if quantity ≠ 0 ∧ id ∉ t.content.inventories then t.content.created id else t.content :=
      removeItem_refused h
    have hstep : storageStep t (.removeItem id item quantity reason) =
        { t with content := (t.content.removeItem id item quantity reason).2 } := rfl
    rw [hstep, hcontent]
    by_cases hremoves : quantity ≠ 0 ∧ id ∉ t.content.inventories
    · rw [if_pos hremoves]
      exact .inl ⟨id, item, quantity, reason, rfl, hremoves.1, hremoves.2, rfl⟩
    · rw [if_neg hremoves]
      exact .inr ⟨hremoves, rfl⟩
  | _ => exact h.elim

/-- A removal from an inventory that is not there is refused. -/
theorem refused_of_removesFromNone {t : InventoryTable} {call : StorageCall}
    (h : RemovesFromNone t.content call) : Refused t call := by
  cases call with
  | removeItem id item quantity reason => exact removeItem_none h.2 item quantity reason
  | _ => exact h.elim

/-- One call on a table. -/
theorem table_refused_iff (t : InventoryTable) (call : StorageCall) :
    (Refused t call → Untouched t (storageStep t call)) ↔ ¬ RemovesFromNone t.content call := by
  by_cases href : Refused t call
  · rw [imp_iff_right href]
    rcases table_refused href with ⟨id, item, quantity, reason, rfl, hq, hid, hstep⟩ | ⟨hno, hstep⟩
    · refine iff_of_false ?_ (not_not.mpr ⟨hq, hid⟩)
      rw [hstep, table_untouched_iff (c := t.content.created id) t rfl]
      intro h
      have hload := h id
      rw [created_load hid, if_pos rfl, (Dict.not_mem_iff _ _).mp hid] at hload
      cases hload
    · rw [hstep]
      exact iff_of_true (fun id => ⟨rfl, rfl⟩) hno
  · exact iff_of_true (fun h => absurd h href) fun h => href (refused_of_removesFromNone h)

/-- A write is refused if the persistent layer refuses it, and goes no further. -/
theorem writeThrough_refusal (s : CachedTables) (id : InventoryId)
    (pw : InventoryTable → Bool × InventoryTable) (cw : InventoryTable → Bool × InventoryTable) :
    ((s.writeThrough id pw cw).1 = false ↔ (pw s.persistent).1 = false) ∧
      ((pw s.persistent).1 = false →
        (s.writeThrough id pw cw).2 = { s with persistent := (pw s.persistent).2 }) := by
  refine ⟨?_, fun h => congrArg Prod.snd (writeThrough_refused s id pw cw h)⟩
  unfold CachedInventoryStorage.writeThrough
  rcases pw s.persistent with ⟨_ | _, persistent⟩
  · rfl
  · rcases cw s.cache with ⟨_ | _, cache⟩ <;> rfl

theorem cached_refused (s : CachedTables) (call : StorageCall) :
    (Refused s call ↔ Refused s.persistent call) ∧
      (Refused s.persistent call →
        storageStep s call = { s with persistent := storageStep s.persistent call }) := by
  cases call with
  | addItem id item quantity reason =>
    exact writeThrough_refusal s id (fun p => addItem p id item quantity reason)
      fun c => addItem c id item quantity reason
  | removeItem id item quantity reason =>
    exact writeThrough_refusal s id (fun p => removeItem p id item quantity reason)
      fun c => removeItem c id item quantity reason
  | _ => exact ⟨Iff.rfl, fun h => h.elim⟩

/-- One call on the cached storage. -/
theorem cached_refused_iff (s : CachedTables) (call : StorageCall) :
    (Refused s call → Untouched s (storageStep s call)) ↔
      ¬ (RemovesFromNone s.persistent.content call ∧ RemovesFromNone s.cache.content call) := by
  obtain ⟨hiff, hstep⟩ := cached_refused s call
  by_cases href : Refused s.persistent call
  · rw [imp_iff_right (hiff.mpr href), hstep href]
    rcases table_refused href with ⟨id, item, quantity, reason, rfl, hq, hid, htable⟩ |
      ⟨hno, htable⟩
    · rw [htable, cached_untouched_iff
        (p := { s.persistent with content := s.persistent.content.created id }) s rfl]
      simp only [created_load hid]
      constructor
      · rintro h ⟨-, -, hcache⟩
        have hload := h id hcache
        rw [if_pos rfl, (Dict.not_mem_iff _ _).mp hid] at hload
        cases hload
      · intro hcached a ha
        rw [if_neg]
        rintro rfl
        exact hcached ⟨⟨hq, hid⟩, hq, ha⟩
    · rw [htable]
      exact iff_of_true (fun id => ⟨rfl, rfl⟩) fun h => hno h.1
  · exact iff_of_true (fun h => absurd (hiff.mp h) href) fun h =>
      href (refused_of_removesFromNone h.1)

/-- In a run on a table, and in one on the cached storage, a refused call leaves no trace unless it
removes from an inventory that is not there. -/
theorem refusals_leave_no_trace (t : InventoryTable) (s : CachedTables)
    (calls : List StorageCall) :
    ((∀ x ∈ trail storageStep t calls, Refused x.1 x.2 → Untouched x.1 (storageStep x.1 x.2)) ↔
      ∀ x ∈ trail storageStep t calls, ¬ RemovesFromNone x.1.content x.2) ∧
    ((∀ x ∈ trail storageStep s calls, Refused x.1 x.2 → Untouched x.1 (storageStep x.1 x.2)) ↔
      ∀ x ∈ trail storageStep s calls,
        ¬ (RemovesFromNone x.1.persistent.content x.2 ∧
          RemovesFromNone x.1.cache.content x.2)) :=
  ⟨forall₂_congr fun x _ => table_refused_iff x.1 x.2,
    forall₂_congr fun x _ => cached_refused_iff x.1 x.2⟩

/-- A removal from a new storage: refused, and the inventory is there afterwards. -/
theorem refused_removal_creates :
    let t : InventoryTable := {}
    let s : CachedTables := { persistent := {}, cache := {} }
    (removeItem t 1 1 1 []).1 = false ∧ (loadInventory t 1).1.isNone ∧
      (loadInventory (removeItem t 1 1 1 []).2 1).1.isSome ∧
      (removeItem s 1 1 1 []).1 = false ∧ (loadInventory s 1).1.isNone ∧
      (loadInventory (removeItem s 1 1 1 []).2 1).1.isSome := by
  decide +kernel

end DungeonHub
