import DungeonHub.DropTable
import DungeonHub.Proofs.Reward

/-!
# Rolls of a drop table, and the check of a client's rewards

A roll yields for each entry one item at most, within the entry's bounds. An entry that may yield
none of its item is the one thing that a grant cannot take: it refuses quantities of zero, and so
voids the whole roll. The check of a client's rewards adds up 32-bit quantities without ever
wrapping around.
-/

namespace DungeonHub

open RewardInventory

section Validation

namespace RewardService

/-- An item ends the loop of `validateItems`, or is added to the total exactly. -/
theorem validateItems_cons (maxTotalCount total : UInt32) (item : GrantItem)
    (items : List GrantItem) :
    (¬ (1 ≤ item.quantity.toNat ∧ total.toNat + item.quantity.toNat ≤ maxTotalCount.toNat) ∧
      validateItems maxTotalCount (item :: items) total = false ∧
      validateItemsExact maxTotalCount.toNat (item :: items) total.toNat = some false) ∨
    (1 ≤ item.quantity.toNat ∧
      (total + item.quantity).toNat = total.toNat + item.quantity.toNat ∧
      validateItems maxTotalCount (item :: items) total =
        validateItems maxTotalCount items (total + item.quantity) ∧
      validateItemsExact maxTotalCount.toNat (item :: items) total.toNat =
        validateItemsExact maxTotalCount.toNat items (total + item.quantity).toNat) := by
  have hmax := maxTotalCount.toNat_lt
  have hzero : item.quantity = 0 ↔ item.quantity.toNat = 0 := UInt32.toNat_inj.symm
  rw [validateItems, validateItemsExact]
  by_cases hq : item.quantity.toNat = 0
  · exact .inl ⟨by omega, if_pos (hzero.mpr hq), if_pos (by exact_mod_cast hq)⟩
  rw [if_neg fun h => hq (hzero.mp h)]
  simp only [if_neg (show ¬ ((item.quantity.toNat : ℤ) = 0) by exact_mod_cast hq)]
  by_cases hle : maxTotalCount.toNat < item.quantity.toNat
  · refine .inl ⟨by omega, if_pos (UInt32.lt_iff_toNat_lt.mpr hle), if_pos ?_⟩
    exact_mod_cast hle
  have hsub : (maxTotalCount - item.quantity).toNat =
      maxTotalCount.toNat - item.quantity.toNat :=
    UInt32.toNat_sub_of_le _ _ (UInt32.le_iff_toNat_le.mpr (not_lt.mp hle))
  rw [if_neg fun h => hle (UInt32.lt_iff_toNat_lt.mp h)]
  simp only [if_neg (show ¬ (item.quantity.toNat : ℤ) > maxTotalCount.toNat by exact_mod_cast hle)]
  have hroom : Checked.uint32 ((maxTotalCount.toNat : ℤ) - item.quantity.toNat) =
      some ((maxTotalCount.toNat : ℤ) - item.quantity.toNat) :=
    Checked.fit_eq_some.mpr ⟨by omega, rfl⟩
  rw [hroom]
  by_cases hfit : maxTotalCount.toNat < total.toNat + item.quantity.toNat
  · refine .inl ⟨by omega, if_pos (UInt32.lt_iff_toNat_lt.mpr (by omega)), ?_⟩
    exact if_pos (by omega)
  · have hadd : (total + item.quantity).toNat = total.toNat + item.quantity.toNat := by
      rw [UInt32.toNat_add, Nat.mod_eq_of_lt (by omega)]
    refine .inr ⟨by omega, hadd, ?_, ?_⟩
    · rw [if_neg fun h => hfit (by have hlt := UInt32.lt_iff_toNat_lt.mp h; omega)]
    · have htotal : Checked.uint32 ((total.toNat : ℤ) + item.quantity.toNat) =
          some (((total + item.quantity).toNat : ℕ) : ℤ) :=
        Checked.fit_eq_some.mpr ⟨by omega, by rw [hadd]; push_cast; rfl⟩
      simp only [Option.bind_eq_bind, Option.bind_some]
      rw [if_neg (by omega), htotal]
      rfl

theorem validateItems_exact (maxTotalCount : UInt32) :
    ∀ (items : List GrantItem) (total : UInt32),
      validateItemsExact maxTotalCount.toNat items total.toNat =
        some (validateItems maxTotalCount items total)
  | [], total => by
    unfold validateItemsExact validateItems
    simp [UInt32.le_iff_toNat_le]
  | item :: items, total => by
    rcases validateItems_cons maxTotalCount total item items with
      ⟨-, hfalse, hexact⟩ | ⟨-, -, hgo, hexact⟩
    · rw [hexact, hfalse]
    · rw [hexact, hgo]
      exact validateItems_exact maxTotalCount items _

theorem validateItems_iff (maxTotalCount : UInt32) :
    ∀ (items : List GrantItem) (total : UInt32),
      (validateItems maxTotalCount items total = true ↔
        (∀ item ∈ items, 1 ≤ item.quantity.toNat) ∧
          total.toNat + RewardInventory.quantities items ≤ maxTotalCount.toNat)
  | [], total => by
    unfold validateItems RewardInventory.quantities
    simp [UInt32.le_iff_toNat_le]
  | item :: items, total => by
    rw [List.forall_mem_cons, quantities_cons]
    rcases validateItems_cons maxTotalCount total item items with
      ⟨hno, hfalse, -⟩ | ⟨hone, hadd, hgo, -⟩
    · rw [hfalse]
      simp only [Bool.false_eq_true, false_iff]
      rintro ⟨⟨hone, -⟩, hsum⟩
      exact hno ⟨hone, by omega⟩
    · rw [hgo, validateItems_iff maxTotalCount items, hadd, Nat.add_assoc]
      simp [hone]

/-- The check accepts exactly the lists within both limits, and none of its 32-bit sums and
differences wraps around. -/
theorem client_rewards_validated (items : List GrantItem) (maxItems : ℕ)
    (maxTotalCount : UInt32) :
    validateClientRewardsExact items maxItems maxTotalCount =
      some (validateClientRewards items maxItems maxTotalCount) ∧
    (validateClientRewards items maxItems maxTotalCount = true ↔
      items.length ≤ maxItems ∧ (∀ item ∈ items, 1 ≤ item.quantity.toNat) ∧
        (items.map fun item => item.quantity.toNat).sum ≤ maxTotalCount.toNat) := by
  unfold validateClientRewardsExact validateClientRewards
  by_cases hlen : items.length > maxItems
  · rw [if_pos hlen, if_pos hlen]
    exact ⟨rfl, by simp only [Bool.false_eq_true, false_iff]; omega⟩
  · rw [if_neg hlen, if_neg hlen]
    refine ⟨validateItems_exact maxTotalCount items 0, ?_⟩
    have hiff := validateItems_iff maxTotalCount items 0
    rw [UInt32.toNat_zero, Nat.zero_add] at hiff
    rw [hiff]
    exact (and_iff_right (not_lt.mp hlen)).symm

end RewardService

end Validation

section Rolls

/-- The item is one that the entry may yield. -/
def DropEntry.Yields (entry : DropEntry) (drop : GrantItem) : Prop :=
  drop.itemId = entry.itemId ∧ min entry.minQuantity entry.maxQuantity ≤ drop.quantity ∧
    drop.quantity ≤ max entry.minQuantity entry.maxQuantity

/-- What is drawn for an entry: nothing if it does not drop, and else the quantity. -/
def DropEntry.draw (entry : DropEntry) (rng : RewardRng) : Option UInt32 × RewardRng :=
  let (chance, chances) := rng.chance.next
  if chance > entry.probability then (none, { rng with chance := chances })
  else
    let (quantity, quantities) := rng.quantity.next
    (some (quantity.draw (min entry.minQuantity entry.maxQuantity)
        (max entry.minQuantity entry.maxQuantity)),
      { chance := chances, quantity := quantities })

/-- One of the entries drops with the quantity zero. -/
def DrawsZero : List DropEntry → RewardRng → Prop
  | [], _ => False
  | entry :: entries, rng => (entry.draw rng).1 = some 0 ∨ DrawsZero entries (entry.draw rng).2

/-- How much of an item is drawn for the entries. -/
def drawnOf (itemId : UInt32) : List DropEntry → RewardRng → ℕ
  | [], _ => 0
  | entry :: entries, rng =>
    (if itemId = entry.itemId then ((entry.draw rng).1.getD 0).toNat else 0) +
      drawnOf itemId entries (entry.draw rng).2

/-- The entries of a table, none if it is not there. -/
def DropTable.entriesOf (t : DropTable) (tableId : UInt32) : List DropEntry :=
  t.tables.getD tableId []

/-- The most that the entries can yield together. -/
def largest (entries : List DropEntry) : ℕ :=
  (entries.map fun entry => (max entry.minQuantity entry.maxQuantity).toNat).sum

theorem DropEntry.min_le_max (entry : DropEntry) :
    min entry.minQuantity entry.maxQuantity ≤ max entry.minQuantity entry.maxQuantity := by
  show (if _ ≤ _ then _ else _) ≤ (if _ ≤ _ then _ else _)
  split_ifs with h
  · exact h
  · exact (UInt32.le_total _ _).resolve_left h

namespace DropTable

theorem rollEntries_cons (entry : DropEntry) (entries : List DropEntry) (rng : RewardRng) :
    ((entry.draw rng).1 = none ∧
      rollEntries (entry :: entries) rng = rollEntries entries (entry.draw rng).2) ∨
    ∃ quantity, (entry.draw rng).1 = some quantity ∧ entry.Yields ⟨entry.itemId, quantity⟩ ∧
      (rollEntries (entry :: entries) rng).1 =
        ⟨entry.itemId, quantity⟩ :: (rollEntries entries (entry.draw rng).2).1 := by
  rw [rollEntries]
  unfold DropEntry.draw
  simp only []
  split_ifs with hchance
  · exact .inl ⟨rfl, rfl⟩
  · refine .inr ⟨_, rfl, ⟨rfl, ?_⟩, rfl⟩
    exact rng.quantity.next.1.within _ _ entry.min_le_max

theorem roll_fst (t : DropTable) (tableId : UInt32) (rng : RewardRng) :
    (t.roll tableId rng).1 = (rollEntries (t.entriesOf tableId) rng).1 := by
  unfold roll entriesOf
  rw [Std.ExtTreeMap.getD_eq_getD_getElem?]
  rcases t.tables[tableId]? with _ | entries
  · rfl
  · rfl

/-- The items are those of entries of the table, in their order. -/
theorem rollEntries_yields : ∀ (entries : List DropEntry) (rng : RewardRng),
    List.SublistForall₂ (fun drop entry => entry.Yields drop) (rollEntries entries rng).1 entries
  | [], _ => .nil
  | entry :: entries, rng => by
    have ih := rollEntries_yields entries (entry.draw rng).2
    rcases rollEntries_cons entry entries rng with ⟨-, hroll⟩ | ⟨quantity, -, hyields, hroll⟩
    · rw [hroll]
      exact .cons_right ih
    · rw [hroll]
      exact .cons hyields ih

theorem drawsZero_iff : ∀ (entries : List DropEntry) (rng : RewardRng),
    DrawsZero entries rng ↔ ∃ drop ∈ (rollEntries entries rng).1, drop.quantity = 0
  | [], _ => by simp [DrawsZero, rollEntries]
  | entry :: entries, rng => by
    unfold DrawsZero
    rw [drawsZero_iff entries]
    rcases rollEntries_cons entry entries rng with ⟨hnone, hroll⟩ | ⟨quantity, hsome, -, hroll⟩
    · rw [hroll, hnone]
      simp
    · rw [hroll, hsome]
      simp

theorem drawnOf_eq (itemId : UInt32) : ∀ (entries : List DropEntry) (rng : RewardRng),
    drawnOf itemId entries rng = requested (rollEntries entries rng).1 itemId
  | [], _ => rfl
  | entry :: entries, rng => by
    unfold drawnOf
    rw [drawnOf_eq itemId entries]
    rcases rollEntries_cons entry entries rng with ⟨hnone, hroll⟩ | ⟨quantity, hsome, -, hroll⟩
    · rw [hroll, hnone]
      simp
    · rw [hroll, hsome, requested_cons]
      rfl

theorem quantities_le_largest {drops : List GrantItem} {entries : List DropEntry}
    (h : List.SublistForall₂ (fun drop entry => entry.Yields drop) drops entries) :
    RewardInventory.quantities drops ≤ largest entries := by
  induction h with
  | nil => exact Nat.zero_le _
  | cons hyields _ ih => exact Nat.add_le_add (UInt32.le_iff_toNat_le.mp hyields.2.2) ih
  | cons_right _ ih => exact ih.trans (Nat.le_add_left _ _)

end DropTable

end Rolls

section Grants

namespace RewardService

/-- What is there of an item is a 32-bit number, whatever is added. -/
theorem addItem_taken (inv : RewardInventory) (itemId : UInt32) {quantity : UInt32}
    (hq : quantity ≠ 0) (hfit : inv.totalQuantity + quantity.toNat ≤ inv.capacity) :
    ∃ inv', inv.addItem itemId quantity = (true, inv') ∧ inv'.capacity = inv.capacity ∧
      inv'.totalQuantity ≤ inv.totalQuantity + quantity.toNat ∧
      ∀ k, inv'.held k =
        (inv.held k + if k = itemId then quantity.toNat else 0) % 2 ^ 32 := by
  unfold RewardInventory.addItem
  rw [if_neg hq, if_neg (not_lt.mpr hfit)]
  refine ⟨_, rfl, rfl, ?_, fun k => ?_⟩
  · have hsplit := inv.totalQuantity_split itemId
    have hle : (inv.items.getD itemId 0 + quantity).toNat ≤
        (inv.items.getD itemId 0).toNat + quantity.toNat := by
      rw [UInt32.toNat_add]
      exact Nat.mod_le _ _
    rw [totalQuantity_insert]
    omega
  · unfold RewardInventory.held
    simp only [Std.ExtTreeMap.getD_eq_getD_getElem?, Dict.get?_insert]
    by_cases hk : itemId = k
    · subst hk
      simp [UInt32.toNat_add]
    · rw [if_neg hk, if_neg (Ne.symm hk), Nat.add_zero, Nat.mod_eq_of_lt (UInt32.toNat_lt _)]

/-- Without a zero among them, items that fit are all added. -/
theorem applyItems_taken : ∀ (items applied : List GrantItem) (inv : RewardInventory),
    (∀ item ∈ items, item.quantity ≠ 0) →
    inv.totalQuantity + RewardInventory.quantities items ≤ inv.capacity →
    ∃ inv', applyItems applied items inv = (true, inv') ∧
      ∀ k, inv'.held k = (inv.held k + requested items k) % 2 ^ 32
  | [], _, inv, _, _ => by
    refine ⟨inv, rfl, fun k => ?_⟩
    exact (Nat.mod_eq_of_lt (UInt32.toNat_lt _)).symm
  | item :: items, applied, inv, hall, hfit => by
    rw [List.forall_mem_cons] at hall
    rw [quantities_cons] at hfit
    obtain ⟨inv', hadd, hcap, htotal, hheld⟩ :=
      addItem_taken inv item.itemId hall.1 (by omega)
    obtain ⟨inv'', happ, hheld'⟩ := applyItems_taken items (applied ++ [item]) inv' hall.2
      (by omega)
    refine ⟨inv'', ?_, fun k => ?_⟩
    · unfold applyItems
      rw [hadd]
      exact happ
    · rw [hheld', hheld, Nat.mod_add_mod, requested_cons, Nat.add_assoc]

/-- A zero among the items ends the loop. -/
theorem applyItems_zero : ∀ (items applied : List GrantItem) (inv : RewardInventory),
    (∃ item ∈ items, item.quantity = 0) → (applyItems applied items inv).1 = false
  | [], _, _, h => by simp at h
  | item :: items, applied, inv, h => by
    unfold applyItems
    rcases hadd : inv.addItem item.itemId item.quantity with ⟨_ | _, inv'⟩
    · rfl
    · refine applyItems_zero items _ inv' ?_
      obtain ⟨zero, hmem, hzero⟩ := h
      rcases List.mem_cons.mp hmem with rfl | hmem
      · simp [RewardInventory.addItem, hzero] at hadd
      · exact ⟨zero, hmem, hzero⟩

/-- A grant that is new to the inventory, of items that fit if none of them is zero. -/
theorem grantRewards_fresh {inv : RewardInventory} {grantId : ℕ} {items : List GrantItem}
    (hfresh : inv.statusOf grantId = .none)
    (hfit : inv.totalQuantity + RewardInventory.quantities items ≤ inv.capacity) :
    ((∀ item ∈ items, item.quantity ≠ 0) ∧ (grantRewards inv grantId items).1 = true ∧
      ∀ k, (grantRewards inv grantId items).2.held k =
        (inv.held k + requested items k) % 2 ^ 32) ∨
    ((∃ item ∈ items, item.quantity = 0) ∧ (grantRewards inv grantId items).1 = false) := by
  have hbegin : inv.beginGrant grantId =
      (true, { inv with grantStatus := inv.grantStatus.insert grantId .pending }) := by
    unfold RewardInventory.beginGrant
    have hnone : inv.grantStatus.getD grantId .none = .none := hfresh
    simp only [hnone]
    exact if_neg (by simp)
  unfold grantRewards grantRewardsDetailed
  rw [hbegin]
  by_cases hzero : ∃ item ∈ items, item.quantity = 0
  · have hfalse := applyItems_zero items []
      { inv with grantStatus := inv.grantStatus.insert grantId .pending } hzero
    refine .inr ⟨hzero, ?_⟩
    rcases happ : applyItems [] items _ with ⟨ok, inv'⟩
    rw [happ] at hfalse
    cases hfalse
    simp only [happ]
    rfl
  · have hall : ∀ item ∈ items, item.quantity ≠ 0 := fun item hmem h => hzero ⟨item, hmem, h⟩
    obtain ⟨inv', happ, hheld⟩ := applyItems_taken items []
      { inv with grantStatus := inv.grantStatus.insert grantId .pending } hall hfit
    simp only [happ]
    exact .inl ⟨hall, rfl, hheld⟩

/-- A roll that fits into the inventory in every outcome is granted, each item with what was drawn
for it, if and only if no entry drops with the quantity zero and no item's 32-bit amount wraps
around. -/
theorem drops_granted (dropTable : DropTable) (tableId : UInt32) (rng : RewardRng)
    (inv : RewardInventory) (grantId : ℕ) (hfresh : inv.statusOf grantId = .none)
    (hfit : inv.totalQuantity + largest (dropTable.entriesOf tableId) ≤ inv.capacity) :
    let entries := dropTable.entriesOf tableId
    let drops := (dropTable.roll tableId rng).1
    let r := grantFromTable dropTable inv grantId tableId rng
    (r.1 = true ∧
        List.SublistForall₂ (fun drop entry => DropEntry.Yields entry drop) drops entries ∧
        ∀ k, r.2.1.held k = inv.held k + requested drops k) ↔
      ¬ DrawsZero entries rng ∧ ∀ k, inv.held k + drawnOf k entries rng < 2 ^ 32 := by
  intro entries drops r
  have hdrops : drops = (DropTable.rollEntries entries rng).1 := dropTable.roll_fst tableId rng
  have hyields := DropTable.rollEntries_yields entries rng
  rw [← hdrops] at hyields
  have hlargest := DropTable.quantities_le_largest hyields
  have hr : r.1 = (grantRewards inv grantId drops).1 ∧
      r.2.1 = (grantRewards inv grantId drops).2 := ⟨rfl, rfl⟩
  simp only [DropTable.drawsZero_iff, DropTable.drawnOf_eq, ← hdrops, hr.1, hr.2]
  rcases grantRewards_fresh hfresh ((Nat.add_le_add_left hlargest _).trans hfit) with
    ⟨hall, htrue, hheld⟩ | ⟨hzero, hfalse⟩
  · have hno : ¬ ∃ drop ∈ drops, drop.quantity = 0 := fun ⟨drop, hmem, h⟩ => hall drop hmem h
    simp only [htrue, hyields, hno, true_and, not_false_eq_true, hheld]
    exact forall_congr' fun k => Nat.mod_eq_iff_lt (by norm_num)
  · rw [hfalse]
    simp [hzero]

theorem requested_le (k : UInt32) : ∀ items : List GrantItem,
    requested items k ≤ RewardInventory.quantities items
  | [] => Nat.le_refl _
  | item :: items => by
    rw [requested_cons, quantities_cons]
    have ih := requested_le k items
    split_ifs <;> omega

/-- Where the capacity is a 32-bit number no amount wraps around. -/
theorem drawn_lt {inv : RewardInventory} {entries : List DropEntry} (rng : RewardRng)
    (hcap : inv.capacity < 2 ^ 32) (hfit : inv.totalQuantity + largest entries ≤ inv.capacity)
    (k : UInt32) : inv.held k + drawnOf k entries rng < 2 ^ 32 := by
  have hsplit := inv.totalQuantity_split k
  have hlargest := DropTable.quantities_le_largest (DropTable.rollEntries_yields entries rng)
  have hrequested := requested_le k (DropTable.rollEntries entries rng).1
  rw [DropTable.drawnOf_eq]
  unfold RewardInventory.held
  omega

/-- A generator that draws the least of everything. -/
def lowest : RewardRng where
  chance _ := 0
  quantity _ := ⟨fun lo _ => lo, fun _ _ h => ⟨UInt32.le_refl _, h⟩⟩

theorem drops_granted_lowest :
    statusOf {} 77 = .none ∧ totalQuantity {} + largest (DropTable.new.entriesOf 1) ≤ 100 ∧
      (grantFromTable DropTable.new {} 77 1 lowest).1 = true := by
  have hfresh : statusOf {} 77 = .none := by decide +kernel
  have hfit : totalQuantity {} + largest (DropTable.new.entriesOf 1) ≤ 100 := by decide +kernel
  have hzero : ¬ DrawsZero (DropTable.new.entriesOf 1) lowest := by
    rw [DropTable.drawsZero_iff]
    decide +kernel
  have hgranted := (drops_granted DropTable.new 1 lowest {} 77 hfresh hfit).mpr
    ⟨hzero, drawn_lt lowest (by norm_num) hfit⟩
  exact ⟨hfresh, hfit, hgranted.1⟩

/-- The first entry yields one of item 7, the second none of item 8: the grant fails. -/
theorem drops_granted_blank :
    let table := (DropTable.new.addEntry 2 ⟨7, 1, 1, 1⟩).addEntry 2 ⟨8, 0, 2, 1⟩
    statusOf {} 77 = .none ∧ totalQuantity {} + largest (table.entriesOf 2) ≤ 100 ∧
      (grantFromTable table {} 77 2 lowest).1 = false := by
  decide +kernel

end RewardService

end Grants

end DungeonHub
