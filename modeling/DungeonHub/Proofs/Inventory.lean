import DungeonHub.Inventory
import DungeonHub.Lib.Run

/-!
# What the calls of a table do

One lemma per call says what it makes of the inventories and of the change log; the proofs about
storages go through these and never open a call's body again.
-/

namespace DungeonHub

namespace TableContent

/-- The items of an inventory, none if it is not there. -/
def itemsOf (c : TableContent) (id : InventoryId) : Items := c.inventories.getD id ∅

/-- The items with the quantity added, modulo 2^32. -/
def addTo (items : Items) (item : ItemId) (quantity : Quantity) : Items :=
  items.insert item (items.getD item 0 + quantity)

/-- The items with the quantity taken away. -/
def takeFrom (items : Items) (item : ItemId) (held quantity : Quantity) : Items :=
  if held - quantity = 0 then items.erase item else items.insert item (held - quantity)

/-- The items with the quantity put in place of what was there. -/
def setTo (items : Items) (item : ItemId) (quantity : Quantity) : Items :=
  if quantity = 0 then items.erase item else items.insert item quantity

theorem itemsOf_eq (c : TableContent) (id : InventoryId) :
    c.itemsOf id = c.inventories[id]?.getD ∅ := by
  unfold itemsOf
  rw [Std.ExtTreeMap.getD_eq_getD_getElem?]

/-- The inventory is there, empty if it was not. -/
def created (c : TableContent) (id : InventoryId) : TableContent :=
  c.putItems id (c.itemsOf id)

theorem getOrCreateInventory_eq (c : TableContent) (id : InventoryId) :
    c.getOrCreateInventory id = (c.itemsOf id, c.created id) := by
  unfold created
  rw [itemsOf_eq]
  unfold getOrCreateInventory putItems
  split
  · rename_i items h
    have hd : c.inventories.insert id items = c.inventories := Dict.insert_of_get h
    simp only [h, Option.getD_some, hd]
  · rename_i h
    simp only [h, Option.getD_none]

theorem created_putItems (c : TableContent) (id : InventoryId) (items : Items) :
    (c.created id).putItems id items = c.putItems id items := by
  unfold created putItems
  have hd : (c.inventories.insert id (c.itemsOf id)).insert id items =
      c.inventories.insert id items := Dict.ext fun a => by
    simp only [Dict.get?_insert]
    split_ifs <;> rfl
  simp only [hd]

theorem addItem_zero (c : TableContent) (id : InventoryId) (item : ItemId) (reason : Str) :
    c.addItem id item 0 reason = (false, c) := if_pos rfl

theorem addItem_eq (c : TableContent) (id : InventoryId) (item : ItemId) {quantity : Quantity}
    (reason : Str) (hq : quantity ≠ 0) :
    c.addItem id item quantity reason =
      (true, (c.putItems id (addTo (c.itemsOf id) item quantity)).recordChange id item quantity
        .add reason) := by
  unfold addItem
  simp only [if_neg hq, getOrCreateInventory_eq, created_putItems]
  rfl

/-- A removal goes through if that much is held; else the inventory comes into being at most. -/
theorem removeItem_cases (c : TableContent) (id : InventoryId) (item : ItemId)
    {quantity : Quantity} (reason : Str) (hq : quantity ≠ 0) :
    (∃ held, (c.itemsOf id)[item]? = some held ∧ quantity ≤ held ∧
      c.removeItem id item quantity reason =
        (true, (c.putItems id (takeFrom (c.itemsOf id) item held quantity)).recordChange id item
          quantity .remove reason)) ∨
      ((∀ held, (c.itemsOf id)[item]? = some held → held < quantity) ∧
        c.removeItem id item quantity reason = (false, c.created id)) := by
  unfold removeItem
  simp only [if_neg hq, getOrCreateInventory_eq, created_putItems]
  rcases hh : (c.itemsOf id)[item]? with _ | held
  · exact .inr ⟨by simp, rfl⟩
  · by_cases hlt : held < quantity
    · refine .inr ⟨?_, if_pos hlt⟩
      intro held' hheld'
      cases hheld'
      exact hlt
    · exact .inl ⟨held, rfl, UInt32.not_lt.mp hlt, if_neg hlt⟩

theorem setItem_eq (c : TableContent) (id : InventoryId) (item : ItemId) (quantity : Quantity)
    (reason : Str) :
    c.setItem id item quantity reason =
      (c.putItems id (setTo (c.itemsOf id) item quantity)).recordChange id item quantity
        .set reason := by
  unfold setItem
  simp only [getOrCreateInventory_eq, created_putItems]
  rfl

@[simp] theorem putItems_inventories (c : TableContent) (id : InventoryId) (items : Items) :
    (c.putItems id items).inventories = c.inventories.insert id items := rfl

@[simp] theorem recordChange_inventories (c : TableContent) (id : InventoryId) (item : ItemId)
    (quantity : Quantity) (type : ChangeType) (reason : Str) :
    (c.recordChange id item quantity type reason).inventories = c.inventories := rfl

end TableContent

end DungeonHub
