import DungeonHub.Lib.Run
import DungeonHub.Reward

/-!
# Which grants go through

A grant is completed if no quantity of it is zero and everything fits; then it has added what it was
asked for. A grant that fails takes back what it has added, oldest first, and leaves no trace among
the items: all quantities are added and taken away per item, so the order does not matter.
-/

namespace DungeonHub

open Run

namespace RewardInventory

/-- The total as a sum over the entries. -/
theorem totalQuantity_eq (inv : RewardInventory) :
    inv.totalQuantity = (inv.items.toList.map fun e => e.2.toNat).sum := by
  unfold totalQuantity Dict.elems
  rw [List.map_map]
  rfl

/-- What is there but for one item. -/
theorem totalQuantity_split (inv : RewardInventory) (itemId : UInt32) :
    inv.totalQuantity = (inv.items.getD itemId 0).toNat +
      ((inv.items.toList.filter fun e => e.1 ≠ itemId).map fun e => e.2.toNat).sum := by
  rw [totalQuantity_eq, Std.ExtTreeMap.getD_eq_getD_getElem?]
  rcases h : inv.items[itemId]? with _ | held
  · rw [Dict.toList_filter_of_none h]
    simp
  · rw [((Dict.toList_perm_of_get h).map _).sum_eq]
    simp

theorem totalQuantity_insert (inv : RewardInventory) (itemId quantity : UInt32) :
    ({ inv with items := inv.items.insert itemId quantity } : RewardInventory).totalQuantity =
      quantity.toNat +
        ((inv.items.toList.filter fun e => e.1 ≠ itemId).map fun e => e.2.toNat).sum := by
  rw [totalQuantity_eq, ((Dict.toList_insert_perm inv.items itemId quantity).map _).sum_eq]
  simp

/-- How many of an item are there. -/
def held (inv : RewardInventory) (itemId : UInt32) : ℕ := (inv.items.getD itemId 0).toNat

/-- No entry is kept for an item there is nothing of. -/
def NoZero (inv : RewardInventory) : Prop := Dict.All (fun _ quantity => quantity ≠ 0) inv.items

theorem items_eq_of_held {inv inv' : RewardInventory} (h : inv.NoZero) (h' : inv'.NoZero)
    (hheld : ∀ k, inv.held k = inv'.held k) : inv.items = inv'.items :=
  Dict.ext_getD h h' fun k => UInt32.toNat_inj.mp (hheld k)

/-- How much of an item a list of items asks for. -/
def requested (items : List GrantItem) (itemId : UInt32) : ℕ :=
  ((items.filter fun item => item.itemId = itemId).map fun item => item.quantity.toNat).sum

theorem requested_cons (item : GrantItem) (items : List GrantItem) (k : UInt32) :
    requested (item :: items) k =
      (if k = item.itemId then item.quantity.toNat else 0) + requested items k := by
  unfold requested
  by_cases hk : item.itemId = k
  · simp [hk]
  · simp [hk, Ne.symm hk]

theorem requested_append (items items' : List GrantItem) (k : UInt32) :
    requested (items ++ items') k = requested items k + requested items' k := by
  unfold requested
  rw [List.filter_append, List.map_append, List.sum_append]

/-- How much a list of items asks for in all. -/
def quantities (items : List GrantItem) : ℕ := (items.map fun item => item.quantity.toNat).sum

theorem quantities_cons (item : GrantItem) (items : List GrantItem) :
    quantities (item :: items) = item.quantity.toNat + quantities items := rfl

theorem quantities_append (items items' : List GrantItem) :
    quantities (items ++ items') = quantities items + quantities items' := by
  unfold quantities
  rw [List.map_append, List.sum_append]

/-- One inventory is the other with the items added. -/
structure Adds (inv inv' : RewardInventory) (items : List GrantItem) : Prop where
  capacity : inv'.capacity = inv.capacity
  status : inv'.grantStatus = inv.grantStatus
  total : inv'.totalQuantity = inv.totalQuantity + quantities items
  held : ∀ k, inv'.held k = inv.held k + requested items k
  noZero : inv.NoZero → inv'.NoZero

theorem Adds.refl (inv : RewardInventory) : Adds inv inv [] :=
  ⟨rfl, rfl, rfl, fun _ => rfl, id⟩

theorem Adds.trans {inv inv' inv'' : RewardInventory} {items items' : List GrantItem}
    (h : Adds inv inv' items) (h' : Adds inv' inv'' items') :
    Adds inv inv'' (items ++ items') where
  capacity := h'.capacity.trans h.capacity
  status := h'.status.trans h.status
  total := by rw [h'.total, h.total, Nat.add_assoc, quantities_append]
  held k := by rw [h'.held, h.held, Nat.add_assoc, requested_append]
  noZero hz := h'.noZero (h.noZero hz)

/-- An item is taken if there is some of it and it fits. -/
theorem addItem_cases (inv : RewardInventory) (itemId quantity : UInt32)
    (hcap : inv.capacity < 2 ^ 32) :
    (quantity ≠ 0 ∧ inv.totalQuantity + quantity.toNat ≤ inv.capacity ∧
      ∃ inv', inv.addItem itemId quantity = (true, inv') ∧ Adds inv inv' [⟨itemId, quantity⟩]) ∨
      (¬ (quantity ≠ 0 ∧ inv.totalQuantity + quantity.toNat ≤ inv.capacity) ∧
        inv.addItem itemId quantity = (false, inv)) := by
  unfold addItem
  by_cases hq : quantity = 0
  · exact .inr ⟨fun h => h.1 hq, if_pos hq⟩
  rw [if_neg hq]
  by_cases hfit : inv.totalQuantity + quantity.toNat > inv.capacity
  · exact .inr ⟨fun h => by omega, if_pos hfit⟩
  · rw [if_neg hfit]
    refine .inl ⟨hq, by omega, _, rfl, ?_⟩
    have hsplit := inv.totalQuantity_split itemId
    -- nothing wraps around, since everything there is fits in the capacity
    have hadd : (inv.items.getD itemId 0 + quantity).toNat =
        (inv.items.getD itemId 0).toNat + quantity.toNat := by
      rw [UInt32.toNat_add, Nat.mod_eq_of_lt]
      omega
    have hpos : 0 < quantity.toNat :=
      Nat.pos_of_ne_zero fun h => hq (UInt32.toNat_inj.mp h)
    refine ⟨rfl, rfl, ?_, fun k => ?_, fun h => h.insert fun hzero => ?_⟩
    · rw [totalQuantity_insert, hadd]
      rw [quantities_cons]
      show _ = _ + (quantity.toNat + 0)
      omega
    · rw [requested_cons]
      unfold held requested
      simp only [Std.ExtTreeMap.getD_eq_getD_getElem?, Dict.get?_insert] at hadd ⊢
      by_cases hk : itemId = k
      · simp [← hk, hadd]
      · simp [hk, Ne.symm hk]
    · rw [hzero] at hadd
      simp only [UInt32.toNat_zero] at hadd
      omega

/-- An item is taken away as far as there is some of it. -/
theorem removeItem_held (inv : RewardInventory) (itemId quantity k : UInt32) :
    (inv.removeItem itemId quantity).held k =
      inv.held k - if k = itemId then quantity.toNat else 0 := by
  unfold removeItem held
  by_cases hq : quantity = 0
  · rw [if_pos hq, hq]
    simp
  rw [if_neg hq]
  rcases hi : inv.items[itemId]? with _ | there
  · by_cases hk : k = itemId
    · simp [hk, Std.ExtTreeMap.getD_eq_getD_getElem?, hi]
    · simp [hk]
  · simp only []
    split_ifs with hle hk hk
    · subst hk
      have hle' := UInt32.le_iff_toNat_le.mp hle
      simp [Std.ExtTreeMap.getD_eq_getD_getElem?, hi]
      omega
    · simp [Std.ExtTreeMap.getD_eq_getD_getElem?, Dict.get?_erase_of_ne _ (Ne.symm hk)]
    · subst hk
      simp [Std.ExtTreeMap.getD_eq_getD_getElem?, hi,
        UInt32.toNat_sub_of_le _ _ (UInt32.le_of_lt (UInt32.not_le.mp hle))]
    · simp [Std.ExtTreeMap.getD_eq_getD_getElem?, Dict.get?_insert_of_ne _ _ (Ne.symm hk)]

theorem removeItem_noZero {inv : RewardInventory} (h : inv.NoZero) (itemId quantity : UInt32) :
    (inv.removeItem itemId quantity).NoZero := by
  unfold removeItem
  split_ifs
  · exact h
  · split
    · exact h
    · split_ifs with hle
      · exact h.erase itemId
      · refine h.insert fun hzero => hle ?_
        rw [UInt32.sub_eq_iff_eq_add, UInt32.zero_add] at hzero
        exact hzero ▸ UInt32.le_refl _

theorem removeItem_frame (inv : RewardInventory) (itemId quantity : UInt32) :
    (inv.removeItem itemId quantity).capacity = inv.capacity ∧
      (inv.removeItem itemId quantity).grantStatus = inv.grantStatus := by
  unfold removeItem
  split_ifs
  · exact ⟨rfl, rfl⟩
  · split
    · exact ⟨rfl, rfl⟩
    · split_ifs <;> exact ⟨rfl, rfl⟩

end RewardInventory

namespace RewardService

open RewardInventory

/-- The items fit into the inventory, and there is some of each. -/
def Fits (inv : RewardInventory) (items : List GrantItem) : Prop :=
  (∀ item ∈ items, item.quantity ≠ 0) ∧
    inv.totalQuantity + RewardInventory.quantities items ≤ inv.capacity

/-- Taking back what was added leaves the items as they were. -/
theorem undo_items {base : RewardInventory} (hbase : base.NoZero) :
    ∀ (applied : List GrantItem) (inv : RewardInventory), inv.NoZero →
      (∀ k, inv.held k = base.held k + requested applied k) →
      (applied.foldl (fun inv a => inv.removeItem a.itemId a.quantity) inv).items = base.items
  | [], _, hz, hheld => items_eq_of_held hz hbase hheld
  | item :: applied, inv, hz, hheld => by
    refine undo_items hbase applied _ (removeItem_noZero hz _ _) fun k => ?_
    rw [removeItem_held, hheld, requested_cons]
    omega

theorem undo_frame : ∀ (applied : List GrantItem) (inv : RewardInventory),
    (applied.foldl (fun inv a => inv.removeItem a.itemId a.quantity) inv).capacity =
        inv.capacity ∧
      (applied.foldl (fun inv a => inv.removeItem a.itemId a.quantity) inv).grantStatus =
        inv.grantStatus
  | [], _ => ⟨rfl, rfl⟩
  | item :: applied, inv => by
    obtain ⟨hcap, hstatus⟩ := removeItem_frame inv item.itemId item.quantity
    obtain ⟨hcap', hstatus'⟩ := undo_frame applied (inv.removeItem item.itemId item.quantity)
    exact ⟨hcap'.trans hcap, hstatus'.trans hstatus⟩

/-- The loop adds all items or leaves the inventory as it was before the first of them. -/
theorem applyItems_cases (base : RewardInventory) (hbase : base.NoZero)
    (hcap : base.capacity < 2 ^ 32) : ∀ (items applied : List GrantItem) (inv : RewardInventory),
    Adds base inv applied →
    (∃ inv', applyItems applied items inv = (true, inv') ∧ Adds base inv' (applied ++ items)) ∨
    (applyItems applied items inv = (false, base))
  | [], applied, inv, hadds => by
    refine .inl ⟨inv, rfl, ?_⟩
    rwa [List.append_nil]
  | item :: items, applied, inv, hadds => by
    unfold applyItems
    rcases addItem_cases inv item.itemId item.quantity (hadds.capacity ▸ hcap) with
      ⟨-, -, inv', hadd, hitem⟩ | ⟨-, hadd⟩
    · rw [hadd]
      have ih := applyItems_cases base hbase hcap items (applied ++ [item]) inv' (hadds.trans hitem)
      rwa [List.append_assoc, List.singleton_append] at ih
    · rw [hadd]
      obtain ⟨hc, hs⟩ := undo_frame applied inv
      have hitems := undo_items hbase applied inv (hadds.noZero hbase) hadds.held
      refine .inr (congrArg (Prod.mk false) ?_)
      rw [hadds.capacity] at hc
      rw [hadds.status] at hs
      generalize applied.foldl _ inv = undone at hitems hc hs
      rcases base with ⟨cap, items', status⟩
      rcases undone with ⟨_, _, _⟩
      cases hc
      cases hitems
      cases hs
      rfl

theorem applyItems_iff : ∀ (items applied : List GrantItem) (inv : RewardInventory),
    inv.capacity < 2 ^ 32 → inv.totalQuantity ≤ inv.capacity →
    ((applyItems applied items inv).1 = true ↔ Fits inv items)
  | [], _, inv, _, hle => by
    unfold applyItems Fits
    simpa [RewardInventory.quantities] using hle
  | item :: items, applied, inv, hcap, _ => by
    unfold applyItems Fits
    rw [List.forall_mem_cons, quantities_cons]
    rcases addItem_cases inv item.itemId item.quantity hcap with
      ⟨hq, hfit, inv', hadd, hadds⟩ | ⟨hno, hadd⟩
    · rw [hadd]
      have htotal : inv'.totalQuantity = inv.totalQuantity + item.quantity.toNat := hadds.total
      have ih := applyItems_iff items (applied ++ [item]) inv' (hadds.capacity ▸ hcap)
        (by rw [htotal, hadds.capacity]; exact hfit)
      unfold Fits at ih
      rw [htotal, hadds.capacity] at ih
      refine ih.trans ?_
      constructor
      · rintro ⟨hz, hsum⟩
        exact ⟨⟨hq, hz⟩, by omega⟩
      · rintro ⟨⟨-, hz⟩, hsum⟩
        exact ⟨hz, by omega⟩
    · rw [hadd]
      constructor
      · intro h
        cases h
      · rintro ⟨⟨hq, -⟩, hsum⟩
        exact absurd ⟨hq, by omega⟩ hno

/-- What holds of an inventory between the grants. -/
structure Sound (inv : RewardInventory) : Prop where
  capacity : inv.capacity < 2 ^ 32
  fits : inv.totalQuantity ≤ inv.capacity
  noZero : inv.NoZero
  settled : ∀ grantId, inv.statusOf grantId ≠ .pending

theorem totalQuantity_congr {inv inv' : RewardInventory} (h : inv'.items = inv.items) :
    inv'.totalQuantity = inv.totalQuantity := by
  unfold totalQuantity
  rw [h]

theorem sound_new {capacity : ℕ} (hcap : capacity < 2 ^ 32) :
    Sound { capacity } where
  capacity := hcap
  fits := by
    rw [totalQuantity_eq, Dict.toList_empty]
    exact Nat.zero_le _
  noZero := Dict.all_empty
  settled grantId := by simp [statusOf]

theorem statusOf_insert (inv : RewardInventory) (grantId a : ℕ) (status : GrantStatus) :
    statusOf { inv with grantStatus := inv.grantStatus.insert grantId status } a =
      if a = grantId then status else inv.statusOf a := by
  unfold statusOf
  simp only [Std.ExtTreeMap.getD_eq_getD_getElem?, Dict.get?_insert]
  by_cases ha : grantId = a
  · simp [ha]
  · simp [ha, Ne.symm ha]

/-- A grant was completed before, adds all its items, or fails and leaves the items alone. -/
theorem grant_cases {inv : RewardInventory} (h : Sound inv) (grantId : ℕ)
    (items : List GrantItem) :
    ∃ result inv', grantRewardsDetailed inv grantId items = (result, inv') ∧
      inv'.capacity = inv.capacity ∧
      ((inv.statusOf grantId = .completed ∧ result = .duplicate ∧ inv'.items = inv.items ∧
          ∀ a, inv'.statusOf a = inv.statusOf a) ∨
        (inv.statusOf grantId ≠ .completed ∧ Fits inv items ∧ result = .completed ∧
          Adds inv { inv' with grantStatus := inv.grantStatus } items ∧
          ∀ a, inv'.statusOf a = if a = grantId then .completed else inv.statusOf a) ∨
        (inv.statusOf grantId ≠ .completed ∧ ¬ Fits inv items ∧ result = .failed ∧
          inv'.items = inv.items ∧
          ∀ a, inv'.statusOf a = if a = grantId then .failed else inv.statusOf a)) := by
  unfold grantRewardsDetailed beginGrant
  by_cases hdone : inv.statusOf grantId = .completed
  · have hif : inv.grantStatus.getD grantId .none = .completed ∨
        inv.grantStatus.getD grantId .none = .pending := .inl hdone
    simp only [if_pos hif]
    refine ⟨_, _, rfl, rfl, .inl ⟨hdone, rfl, rfl, fun a => ?_⟩⟩
    rw [statusOf_insert]
    split_ifs with ha
    · rw [ha]
      rfl
    · rfl
  · have hif : ¬ (inv.grantStatus.getD grantId .none = .completed ∨
        inv.grantStatus.getD grantId .none = .pending) :=
      not_or.mpr ⟨hdone, h.settled grantId⟩
    simp only [if_neg hif]
    have hiff := applyItems_iff items []
      { inv with grantStatus := inv.grantStatus.insert grantId .pending } h.capacity h.fits
    rcases applyItems_cases { inv with
        grantStatus := inv.grantStatus.insert grantId .pending } h.noZero h.capacity items [] _
      (.refl _) with ⟨inv', happ, hadds⟩ | happ
    · rw [happ] at hiff ⊢
      refine ⟨_, _, rfl, hadds.capacity, .inr (.inl ⟨hdone, hiff.mp rfl, rfl, ?_, fun a => ?_⟩)⟩
      · exact ⟨hadds.capacity, rfl, hadds.total, hadds.held, hadds.noZero⟩
      · unfold commitGrant
        rw [statusOf_insert]
        split_ifs with ha
        · rfl
        · unfold statusOf
          rw [hadds.status]
          exact (statusOf_insert inv grantId a .pending).trans (if_neg ha)
    · rw [happ] at hiff ⊢
      refine ⟨_, _, rfl, rfl, .inr (.inr ⟨hdone, fun hf => ?_, rfl, rfl, fun a => ?_⟩)⟩
      · cases hiff.mpr hf
      · unfold failGrant
        rw [statusOf_insert, statusOf_insert]
        split_ifs <;> rfl

theorem grantStep_sound {inv : RewardInventory} (h : Sound inv) (grant : ℕ × List GrantItem) :
    Sound (grantStep inv grant) := by
  obtain ⟨result, inv', heq, hcap, hcases⟩ := grant_cases h grant.1 grant.2
  unfold grantStep
  rw [heq]
  rcases hcases with ⟨-, -, hitems, hstatus⟩ | ⟨-, hfits, -, hadds, hstatus⟩ |
    ⟨-, -, -, hitems, hstatus⟩
  · refine ⟨hcap ▸ h.capacity, ?_, ?_, fun a => hstatus a ▸ h.settled a⟩
    · rw [totalQuantity_congr hitems, hcap]
      exact h.fits
    · unfold NoZero
      rw [hitems]
      exact h.noZero
  · refine ⟨hcap ▸ h.capacity, ?_, hadds.noZero h.noZero, fun a => ?_⟩
    · have htotal : inv'.totalQuantity =
          inv.totalQuantity + RewardInventory.quantities grant.2 := hadds.total
      rw [htotal, hcap]
      exact hfits.2
    · rw [hstatus]
      split_ifs
      · exact nofun
      · exact h.settled a
  · refine ⟨hcap ▸ h.capacity, ?_, ?_, fun a => ?_⟩
    · rw [totalQuantity_congr hitems, hcap]
      exact h.fits
    · unfold NoZero
      rw [hitems]
      exact h.noZero
    · rw [hstatus]
      split_ifs
      · exact nofun
      · exact h.settled a

/-- A grant to an empty inventory goes through if no quantity is zero and they add up to the
capacity at most, and fails else. -/
theorem grant_fresh (grantId : ℕ) (items : List GrantItem) :
    (grantRewardsDetailed {} grantId items).1 =
      if (∀ item ∈ items, item.quantity ≠ 0) ∧
        (items.map fun item => item.quantity.toNat).sum ≤ 100 then .completed else .failed := by
  have hsound : Sound {} := sound_new (by norm_num)
  have hfits : Fits {} items ↔ (∀ item ∈ items, item.quantity ≠ 0) ∧
      (items.map fun item => item.quantity.toNat).sum ≤ 100 := by
    have htotal : totalQuantity {} = 0 := Nat.le_zero.mp (sound_new (Nat.two_pow_pos 32)).fits
    unfold Fits RewardInventory.quantities
    rw [htotal, Nat.zero_add]
  obtain ⟨result, inv', heq, -, hcases⟩ := grant_cases hsound grantId items
  rw [heq]
  rcases hcases with ⟨hdone, -⟩ | ⟨-, hf, rfl, -⟩ | ⟨-, hf, rfl, -⟩
  · simp [statusOf] at hdone
  · rw [if_pos (hfits.mp hf)]
  · rw [if_neg fun h => hf (hfits.mpr h)]

/-- The grant was completed by one of the steps. -/
def CompletedIn (l : List (RewardInventory × (ℕ × List GrantItem))) (grantId : ℕ) : Prop :=
  ∃ x ∈ l, x.2.1 = grantId ∧ (grantRewardsDetailed x.1 x.2.1 x.2.2).1 = .completed

/-- The inventory has on record which grants its run has completed. -/
structure Recorded (capacity : ℕ) (inv : RewardInventory)
    (l : List (RewardInventory × (ℕ × List GrantItem))) : Prop where
  sound : Sound inv
  capacity : inv.capacity = capacity
  completed : ∀ grantId, inv.statusOf grantId = .completed ↔ CompletedIn l grantId

theorem completedIn_append {l : List (RewardInventory × (ℕ × List GrantItem))}
    {x : RewardInventory × (ℕ × List GrantItem)} {grantId : ℕ} :
    CompletedIn (l ++ [x]) grantId ↔ CompletedIn l grantId ∨
      (x.2.1 = grantId ∧ (grantRewardsDetailed x.1 x.2.1 x.2.2).1 = .completed) := by
  simp only [CompletedIn, List.mem_append, List.mem_singleton, or_and_right, exists_or,
    exists_eq_left]

theorem Recorded.step {capacity : ℕ} (inv : RewardInventory)
    (l : List (RewardInventory × (ℕ × List GrantItem))) (grant : ℕ × List GrantItem)
    (h : Recorded capacity inv l) :
    Recorded capacity (grantStep inv grant) (l ++ [(inv, grant)]) := by
  obtain ⟨result, inv', heq, hcap, hcases⟩ := grant_cases h.sound grant.1 grant.2
  refine ⟨grantStep_sound h.sound grant, ?_, fun a => ?_⟩
  · unfold grantStep
    rw [heq]
    exact hcap.trans h.capacity
  rw [completedIn_append, ← h.completed a]
  unfold grantStep
  rw [heq]
  rcases hcases with ⟨-, rfl, -, hstatus⟩ | ⟨-, -, rfl, -, hstatus⟩ | ⟨hnot, -, rfl, -, hstatus⟩
  · rw [hstatus a]
    simp
  · rw [hstatus a]
    split_ifs with ha
    · simp [ha]
    · simp [Ne.symm ha]
  · rw [hstatus a]
    split_ifs with ha
    · simp [ha, hnot]
    · simp

theorem recorded_after {capacity : ℕ} (hcap : capacity < 2 ^ 32)
    (grants : List (ℕ × List GrantItem)) :
    Recorded capacity (after grantStep { capacity } grants)
      (trail grantStep { capacity } grants) := by
  refine history Recorded.step grants { capacity } [] ⟨sound_new hcap, rfl, fun a => ?_⟩
  simp [statusOf, CompletedIn]

/-- What a grant makes of an inventory: nothing if it was completed before, and else all it was
asked for or nothing. -/
structure AllOrNothing (inv : RewardInventory) (grantId : ℕ) (items : List GrantItem)
    (result : GrantResult) (inv' : RewardInventory) : Prop where
  duplicate : inv.statusOf grantId = .completed → result = .duplicate ∧ inv'.items = inv.items
  completed : inv.statusOf grantId ≠ .completed → Fits inv items →
    result = .completed ∧ ∀ k, inv'.held k = inv.held k + requested items k
  failed : inv.statusOf grantId ≠ .completed → ¬ Fits inv items →
    result = .failed ∧ inv'.items = inv.items ∧
      ∀ again, (grantRewardsDetailed inv' grantId again).1 ≠ .duplicate

/-- In every run of grants the inventory stays within its capacity and keeps no zeros, and the next
grant gives all of its items or none, and gives them once. -/
theorem grant_all_or_nothing (capacity : ℕ) (hcap : capacity < 2 ^ 32)
    (grants : List (ℕ × List GrantItem)) (grantId : ℕ) (items : List GrantItem) :
    let inv := after grantStep { capacity } grants
    let r := grantRewardsDetailed inv grantId items
    inv.capacity = capacity ∧ inv.totalQuantity ≤ capacity ∧
      (∀ k quantity : UInt32, inv.items[k]? = some quantity → quantity ≠ 0) ∧
      (inv.statusOf grantId = .completed ↔
        CompletedIn (trail grantStep { capacity } grants) grantId) ∧
      AllOrNothing inv grantId items r.1 r.2 := by
  intro inv r
  have hrec : Recorded capacity inv _ := recorded_after hcap grants
  have hfits := hrec.sound.fits
  rw [hrec.capacity] at hfits
  refine ⟨hrec.capacity, hfits, hrec.sound.noZero, hrec.completed grantId, ?_⟩
  have hsound : Sound r.2 := grantStep_sound hrec.sound (grantId, items)
  obtain ⟨result, inv', heq, -, hcases⟩ := grant_cases hrec.sound grantId items
  have hr : r = (result, inv') := heq
  rw [hr] at hsound ⊢
  rcases hcases with ⟨hdone, hres, hitems, -⟩ | ⟨hnot, hfits, hres, hadds, -⟩ |
    ⟨hnot, hno, hres, hitems, hstatus⟩
  · exact ⟨fun _ => ⟨hres, hitems⟩, fun h => absurd hdone h, fun h => absurd hdone h⟩
  · exact ⟨fun h => absurd h hnot, fun _ _ => ⟨hres, hadds.held⟩, fun _ h => absurd hfits h⟩
  · refine ⟨fun h => absurd h hnot, fun _ h => absurd h hno, fun _ _ => ⟨hres, hitems, ?_⟩⟩
    intro again hdup
    obtain ⟨result', inv'', heq', -, hcases'⟩ := grant_cases hsound grantId again
    rw [heq'] at hdup
    rcases hcases' with ⟨hdone, -⟩ | ⟨-, -, rfl, -⟩ | ⟨-, -, rfl, -⟩
    · rw [hstatus, if_pos rfl] at hdone
      cases hdone
    · cases hdup
    · cases hdup

/-- A second grant of item 7 does not fit, so nothing of it is kept. -/
theorem grant_all_or_nothing_ten :
    10 < 2 ^ 32 ∧
      ((grantRewardsDetailed (after grantStep { capacity := 10 } [(1, [⟨7, 4⟩])]) 2
        [⟨7, 3⟩, ⟨8, 4⟩]).2.items =
      (after grantStep { capacity := 10 } [(1, [⟨7, 4⟩])]).items) := by
  obtain ⟨-, -, -, -, hlaw⟩ := grant_all_or_nothing 10 (by norm_num) [(1, [⟨7, 4⟩])] 2
    [⟨7, 3⟩, ⟨8, 4⟩]
  exact ⟨by norm_num, (hlaw.failed (by decide +kernel) (by
    rintro ⟨-, hfits⟩
    revert hfits
    decide +kernel)).2.1⟩

end RewardService

end DungeonHub
