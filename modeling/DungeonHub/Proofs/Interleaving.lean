import DungeonHub.Lib.Lag
import DungeonHub.Lib.Slots
import DungeonHub.Proofs.Cache

/-!
# Concurrent writes through the cache

Each call writes the persistent table first and the cache later, and others may overtake it between
the two. As long as the calls on their way to the cache may come there in any order, no inventory of
the cache has to be filled again, and the cache catches up with the persistent table.
-/

namespace DungeonHub

open InventoryStorage Run Lag

section Cells

/-- The entry an inventory has for an item. -/
def TableContent.held (c : TableContent) (id : InventoryId) (item : ItemId) : Option Quantity :=
  (c.itemsOf id)[item]?

/-- The entry for a quantity that may be nothing. -/
def entryOf (quantity : Quantity) : Option Quantity := if quantity = 0 then none else some quantity

/-- What a call makes of the entry of its item, `none` if it is refused. -/
def cellWrite (call : WriteCall) (held : Option Quantity) : Option (Option Quantity) :=
  match call.type with
  | .add => if call.quantity = 0 then none else some (some (held.getD 0 + call.quantity))
  | .remove =>
    match held with
    | none => none
    | some q =>
      if call.quantity = 0 ∨ q < call.quantity then none else some (entryOf (q - call.quantity))
  | .set => some (entryOf call.quantity)

open TableContent

variable {c : TableContent} {call : WriteCall}

theorem held_put (c : TableContent) (id i : InventoryId) (items : Items) (item : ItemId) :
    (c.putItems id items).held i item = if id = i then items[item]? else c.held i item := by
  unfold held
  rw [itemsOf_eq, putItems_inventories, Dict.get?_insert]
  split_ifs
  · rfl
  · rw [itemsOf_eq]

theorem held_created (c : TableContent) (id i : InventoryId) (item : ItemId) :
    (c.created id).held i item = c.held i item := by
  unfold created
  rw [held_put]
  split_ifs with hi
  · rw [hi]
    rfl
  · rfl

theorem get?_setTo (items : Items) (item k : ItemId) (quantity : Quantity) :
    (setTo items item quantity)[k]? = if k = item then entryOf quantity else items[k]? := by
  unfold setTo entryOf
  by_cases h0 : quantity = 0
  · simp only [if_pos h0, Dict.get?_erase, eq_comm]
  · simp only [if_neg h0, Dict.get?_insert, eq_comm]

/-- A call that is refused changes no entry. -/
theorem on_refused (t : InventoryTable)
    (h : cellWrite call (t.content.held call.inventoryId call.itemId) = none) :
    ∃ c, call.on t = (false, { t with content := c }) ∧
      (∀ i k, c.held i k = t.content.held i k) ∧
      ∀ i ∈ t.content.inventories, i ∈ c.inventories := by
  obtain ⟨type, id, item, quantity, reason⟩ := call
  cases type with
  | add =>
    unfold cellWrite at h
    split_ifs at h with hq
    subst hq
    exact ⟨t.content, rfl, fun _ _ => rfl, fun _ hi => hi⟩
  | remove =>
    by_cases hq : quantity = 0
    · subst hq
      exact ⟨t.content, rfl, fun _ _ => rfl, fun _ hi => hi⟩
    refine ⟨t.content.created id, ?_, held_created _ id, fun i hi => ?_⟩
    · show ((t.content.removeItem id item quantity reason).1, _) = _
      rcases removeItem_cases t.content id item reason hq with ⟨q, hheld, hle, -⟩ | ⟨-, hr⟩
      · unfold cellWrite held at h
        simp only [hheld] at h
        rw [if_neg (by simp [hq, UInt32.not_lt.mpr hle])] at h
        cases h
      · rw [hr]
    · exact (Dict.mem_insert _ _ _ _).mpr (.inr hi)
  | set => cases h

/-- A call that is taken changes the entry of its item, in an inventory that is there then. -/
theorem on_taken (t : InventoryTable) {v : Option Quantity}
    (h : cellWrite call (t.content.held call.inventoryId call.itemId) = some v) :
    ∃ c, call.on t = (true, { t with content := c }) ∧
      (∀ i k, c.held i k =
        if i = call.inventoryId ∧ k = call.itemId then v else t.content.held i k) ∧
      ∀ i, i ∈ c.inventories ↔ call.inventoryId = i ∨ i ∈ t.content.inventories := by
  obtain ⟨type, id, item, quantity, reason⟩ := call
  have hcells : ∀ items : Items,
      (∀ k, items[k]? = if k = item then v else t.content.held id k) → ∀ i k,
        (t.content.putItems id items).held i k =
          if i = id ∧ k = item then v else t.content.held i k := by
    intro items hitems i k
    rw [held_put]
    by_cases hi : id = i
    · subst hi
      rw [if_pos rfl, hitems]
      simp
    · rw [if_neg hi, if_neg]
      exact fun hik => hi hik.1.symm
  have hmem : ∀ items : Items, ∀ i, i ∈ (t.content.putItems id items).inventories ↔
      id = i ∨ i ∈ t.content.inventories := fun items i => Dict.mem_insert _ _ _ _
  cases type with
  | add =>
    unfold cellWrite at h
    simp only [] at h
    split_ifs at h with hq
    cases h
    refine ⟨(t.content.putItems id (addTo (t.content.itemsOf id) item quantity)).recordChange id
      item quantity .add reason, ?_, hcells _ fun k => ?_, hmem _⟩
    · show ((t.content.addItem id item quantity reason).1, _) = _
      rw [addItem_eq t.content id item reason hq]
    · unfold addTo
      rw [Dict.get?_insert, Std.ExtTreeMap.getD_eq_getD_getElem?]
      simp only [eq_comm]
      rfl
  | remove =>
    unfold cellWrite at h
    simp only [] at h
    split at h
    · cases h
    · rename_i q hheld
      split_ifs at h with hq
      cases h
      obtain ⟨hq, hle⟩ := not_or.mp hq
      refine ⟨(t.content.putItems id (takeFrom (t.content.itemsOf id) item q quantity)).recordChange
        id item quantity .remove reason, ?_, hcells _ fun k => ?_, hmem _⟩
      · show ((t.content.removeItem id item quantity reason).1, _) = _
        rcases removeItem_cases t.content id item reason hq with ⟨q', hheld', -, hr⟩ | ⟨hless, -⟩
        · have hsome : some q = some q' := hheld.symm.trans hheld'
          cases hsome
          rw [hr]
        · exact absurd (hless q hheld) hle
      · exact get?_setTo _ item k (q - quantity)
  | set =>
    cases h
    refine ⟨(t.content.putItems id (setTo (t.content.itemsOf id) item quantity)).recordChange id
      item quantity .set reason, ?_, hcells _ fun k => ?_, hmem _⟩
    · show (true, _) = _
      rw [← setItem_eq]
      rfl
    · exact get?_setTo _ item k quantity

end Cells

section Orders

/-- What the calls add, all together. -/
def added (calls : List WriteCall) : ℕ :=
  (calls.map fun call => if call.type = .add then call.quantity.toNat else 0).sum

/-- What the calls remove, all together. -/
def removed (calls : List WriteCall) : ℕ :=
  (calls.map fun call => if call.type = .remove then call.quantity.toNat else 0).sum

/-- Calls for one item, of which that much is held, that may come in any order: additions only,
removals only, settings to one quantity only, or additions and removals such that all that is
removed is held already and all that is added fits in. -/
def Compatible (held : Quantity) (calls : List WriteCall) : Prop :=
  (∀ call ∈ calls, call.type = .add) ∨ (∀ call ∈ calls, call.type = .remove) ∨
  (∀ call ∈ calls, call.type = .set ∧ ∀ other ∈ calls, other.quantity = call.quantity) ∨
  (∀ call ∈ calls, call.type ≠ .set) ∧ removed calls ≤ held.toNat ∧
    held.toNat + added calls < 2 ^ 32

instance (held : Quantity) (calls : List WriteCall) : Decidable (Compatible held calls) := by
  unfold Compatible
  infer_instance

variable {call : WriteCall} {calls : List WriteCall}

theorem getD_entryOf (q : Quantity) : (entryOf q).getD 0 = q := by
  unfold entryOf
  split_ifs with h
  · exact h.symm
  · rfl

theorem cellWrite_add (h : call.type = .add) (s : Option Quantity) :
    cellWrite call s =
      if call.quantity = 0 then none else some (some (s.getD 0 + call.quantity)) := by
  unfold cellWrite
  rw [h]

theorem cellWrite_remove (h : call.type = .remove) (s : Option Quantity) :
    cellWrite call s =
      if call.quantity ≠ 0 ∧ call.quantity ≤ s.getD 0 then
        some (entryOf (s.getD 0 - call.quantity))
      else none := by
  unfold cellWrite
  rw [h]
  rcases s with _ | q
  · simp only []
    rw [if_neg]
    rintro ⟨hq, hle⟩
    exact hq (UInt32.le_antisymm hle UInt32.zero_le)
  · simp only [Option.getD_some]
    by_cases hq : call.quantity = 0 ∨ q < call.quantity
    · rw [if_pos hq, if_neg]
      rintro ⟨hne, hle⟩
      exact hq.elim hne fun hlt => UInt32.not_lt.mpr hle hlt
    · obtain ⟨hne, hlt⟩ := not_or.mp hq
      rw [if_neg hq, if_pos ⟨hne, UInt32.not_lt.mp hlt⟩]

theorem adds_commute {v w : WriteCall} (hv : v.type = .add) (hw : w.type = .add) :
    Commutes cellWrite v w := by
  intro s
  rw [cellWrite_add hv, cellWrite_add hw]
  by_cases hvq : v.quantity = 0
  · by_cases hwq : w.quantity = 0
    · rw [if_pos hvq, if_pos hwq, Option.bind_none, Option.bind_none]
    · rw [if_pos hvq, if_neg hwq, Option.bind_none, Option.bind_some, cellWrite_add hv, if_pos hvq]
  · by_cases hwq : w.quantity = 0
    · rw [if_neg hvq, if_pos hwq, Option.bind_none, Option.bind_some, cellWrite_add hw, if_pos hwq]
    · rw [if_neg hvq, if_neg hwq, Option.bind_some, Option.bind_some, cellWrite_add hv,
        cellWrite_add hw, if_neg hvq, if_neg hwq, Option.getD_some, Option.getD_some,
        UInt32.add_assoc, UInt32.add_assoc, UInt32.add_comm v.quantity]

/-- One removal after the other: both are refused unless all is held that they take together. -/
theorem remove_remove {v w : WriteCall} (hv : v.type = .remove) (hw : w.type = .remove)
    (s : Option Quantity) :
    (cellWrite v s).bind (cellWrite w) =
      if v.quantity ≠ 0 ∧ w.quantity ≠ 0 ∧
          v.quantity.toNat + w.quantity.toNat ≤ (s.getD 0).toNat then
        some (entryOf (s.getD 0 - (v.quantity + w.quantity)))
      else none := by
  rw [cellWrite_remove hv]
  by_cases hfirst : v.quantity ≠ 0 ∧ v.quantity ≤ s.getD 0
  · have hsub := UInt32.toNat_sub_of_le _ _ hfirst.2
    have hle := UInt32.le_iff_toNat_le.mp hfirst.2
    rw [if_pos hfirst, Option.bind_some, cellWrite_remove hw, getD_entryOf]
    have hiff : (w.quantity ≠ 0 ∧ w.quantity ≤ s.getD 0 - v.quantity) ↔ (v.quantity ≠ 0 ∧
        w.quantity ≠ 0 ∧ v.quantity.toNat + w.quantity.toNat ≤ (s.getD 0).toNat) := by
      rw [UInt32.le_iff_toNat_le, hsub]
      constructor
      · rintro ⟨hne, hw⟩
        exact ⟨hfirst.1, hne, by omega⟩
      · rintro ⟨-, hne, hw⟩
        exact ⟨hne, by omega⟩
    by_cases hsecond : w.quantity ≠ 0 ∧ w.quantity ≤ s.getD 0 - v.quantity
    · have htwice : s.getD 0 - v.quantity - w.quantity =
          s.getD 0 - (v.quantity + w.quantity) := by
        rw [UInt32.sub_eq_iff_eq_add, UInt32.sub_eq_iff_eq_add, UInt32.add_assoc,
          UInt32.add_comm w.quantity, UInt32.sub_add_cancel]
      rw [if_pos hsecond, if_pos (hiff.mp hsecond), htwice]
    · rw [if_neg hsecond, if_neg fun h => hsecond (hiff.mpr h)]
  · rw [if_neg hfirst, if_neg, Option.bind_none]
    rintro ⟨hne, -, hw⟩
    exact hfirst ⟨hne, UInt32.le_iff_toNat_le.mpr (by omega)⟩

theorem removes_commute {v w : WriteCall} (hv : v.type = .remove) (hw : w.type = .remove) :
    Commutes cellWrite v w := by
  intro s
  rw [remove_remove hv hw, remove_remove hw hv, UInt32.add_comm, Nat.add_comm]
  simp only [and_left_comm]

theorem sets_commute {v w : WriteCall} (hv : v.type = .set) (hw : w.type = .set)
    (hsame : w.quantity = v.quantity) : Commutes cellWrite v w := by
  intro s
  unfold cellWrite
  rw [hv, hw, hsame]

/-- A call that is no setting only asks how much is held. -/
theorem cellWrite_entryOf (h : call.type ≠ .set) (s : Option Quantity) :
    cellWrite call (entryOf (s.getD 0)) = cellWrite call s := by
  cases ht : call.type with
  | add => rw [cellWrite_add ht, cellWrite_add ht, getD_entryOf]
  | remove => rw [cellWrite_remove ht, cellWrite_remove ht, getD_entryOf]
  | set => exact absurd ht h

theorem writes_refused (hmem : call ∈ calls) (hrefused : ∀ s, cellWrite call s = none) :
    ∀ s, writes cellWrite s calls = none := by
  induction calls with
  | nil => cases hmem
  | cons other calls ih =>
    intro s
    rcases List.mem_cons.mp hmem with rfl | hmem
    · rw [writes, hrefused, Option.bind_none]
    · rw [writes]
      rcases cellWrite other s with _ | s'
      · rfl
      · exact ih hmem s'

/-- Additions and removals that are all covered by what is held and fit in, in the order given. -/
theorem writes_covered : ∀ (calls : List WriteCall) (n : ℕ),
    (∀ call ∈ calls, call.type ≠ .set ∧ call.quantity ≠ 0) → removed calls ≤ n →
    n + added calls < 2 ^ 32 →
    writes cellWrite (entryOf (UInt32.ofNat n)) calls =
      some (entryOf (UInt32.ofNat (n + added calls - removed calls)))
  | [], n, _, _, _ => by simp [writes, added, removed]
  | call :: calls, n, h, hremoved, hadded => by
    obtain ⟨htype, hq⟩ := h call List.mem_cons_self
    have hrest := fun other hother => h other (List.mem_cons_of_mem call hother)
    have hof : ∀ k < 2 ^ 32, (UInt32.ofNat k).toNat = k := fun k hk =>
      UInt32.toNat_ofNat_of_lt' hk
    have hn := hof n (by omega)
    have hpos : 0 < call.quantity.toNat := by
      rw [Nat.pos_iff_ne_zero]
      exact fun h0 => hq (UInt32.toNat_inj.mp h0)
    rw [writes]
    cases ht : call.type with
    | add =>
      have hadds : added (call :: calls) = call.quantity.toNat + added calls := by
        simp [added, ht]
      have hremoves : removed (call :: calls) = removed calls := by simp [removed, ht]
      rw [hadds] at hadded ⊢
      rw [hremoves] at hremoved ⊢
      have hsum : UInt32.ofNat n + call.quantity = UInt32.ofNat (n + call.quantity.toNat) := by
        rw [UInt32.ofNat_add, UInt32.ofNat_toNat]
      have hne : UInt32.ofNat (n + call.quantity.toNat) ≠ 0 := by
        intro h0
        have hzero := congrArg UInt32.toNat h0
        rw [hof _ (by omega), UInt32.toNat_zero] at hzero
        omega
      rw [cellWrite_add ht, if_neg hq, getD_entryOf, hsum, Option.bind_some]
      have ih := writes_covered calls (n + call.quantity.toNat) hrest (by omega) (by omega)
      unfold entryOf at ih
      rw [if_neg hne] at ih
      rw [ih, Nat.add_assoc]
      rfl
    | remove =>
      have hadds : added (call :: calls) = added calls := by simp [added, ht]
      have hremoves : removed (call :: calls) = call.quantity.toNat + removed calls := by
        simp [removed, ht]
      rw [hadds] at hadded ⊢
      rw [hremoves] at hremoved ⊢
      have hle : call.quantity ≤ UInt32.ofNat n := by
        rw [UInt32.le_iff_toNat_le, hn]
        omega
      have hdiff : UInt32.ofNat n - call.quantity = UInt32.ofNat (n - call.quantity.toNat) := by
        apply UInt32.toNat_inj.mp
        rw [UInt32.toNat_sub_of_le _ _ hle, hn, hof _ (by omega)]
      rw [cellWrite_remove ht, getD_entryOf, if_pos ⟨hq, hle⟩, Option.bind_some, hdiff,
        writes_covered calls (n - call.quantity.toNat) hrest (by omega) (by omega)]
      congr 3
      omega
    | set => exact absurd ht htype

theorem covered_unordered {held : Option Quantity} (htypes : ∀ call ∈ calls, call.type ≠ .set)
    (hremoved : removed calls ≤ (held.getD 0).toNat)
    (hadded : (held.getD 0).toNat + added calls < 2 ^ 32) : Unordered cellWrite held calls := by
  intro calls' hperm
  by_cases hzero : ∃ call ∈ calls, call.quantity = 0
  · obtain ⟨call, hmem, hq⟩ := hzero
    have hrefused : ∀ s, cellWrite call s = none := by
      intro s
      cases ht : call.type with
      | add => rw [cellWrite_add ht, if_pos hq]
      | remove => rw [cellWrite_remove ht, if_neg (by simp [hq])]
      | set => exact absurd ht (htypes call hmem)
    rw [writes_refused hmem hrefused, writes_refused (hperm.mem_iff.mpr hmem) hrefused]
  · have hall : ∀ call ∈ calls, call.type ≠ .set ∧ call.quantity ≠ 0 := fun call hmem =>
      ⟨htypes call hmem, fun hq => hzero ⟨call, hmem, hq⟩⟩
    have hadds : added calls' = added calls := (hperm.map _).sum_eq
    have hremoves : removed calls' = removed calls := (hperm.map _).sum_eq
    have hstart : ∀ l : List WriteCall, l.Perm calls → l ≠ [] →
        writes cellWrite held l = writes cellWrite (entryOf (held.getD 0)) l := by
      intro l hl hne
      obtain ⟨call, rest, rfl⟩ := List.exists_cons_of_ne_nil hne
      have hset := htypes call (hl.mem_iff.mp List.mem_cons_self)
      rw [writes, writes, cellWrite_entryOf hset]
    rcases hcalls : calls with _ | ⟨call, rest⟩
    · rw [hcalls] at hperm
      rw [List.perm_nil.mp hperm]
    · rw [← hcalls]
      have hne : calls ≠ [] := by simp [hcalls]
      have hne' : calls' ≠ [] := fun h => hne (List.nil_perm.mp (h ▸ hperm))
      have hn : UInt32.ofNat (held.getD 0).toNat = held.getD 0 := UInt32.ofNat_toNat
      have hcovered := writes_covered calls _ hall hremoved hadded
      have hcovered' := writes_covered calls' _
        (fun call hmem => hall call (hperm.mem_iff.mp hmem)) (hremoves ▸ hremoved)
        (hadds ▸ hadded)
      rw [hn] at hcovered hcovered'
      rw [hstart calls' hperm hne', hstart calls (.refl _) hne, hcovered, hcovered', hadds,
        hremoves]

theorem Compatible.unordered {held : Option Quantity} (h : Compatible (held.getD 0) calls) :
    Unordered cellWrite held calls := by
  rcases h with hadd | hremove | hset | ⟨htypes, hremoved, hadded⟩
  · exact unordered_of_commutes fun v hv w hw => adds_commute (hadd v hv) (hadd w hw)
  · exact unordered_of_commutes fun v hv w hw => removes_commute (hremove v hv) (hremove w hw)
  · exact unordered_of_commutes fun v hv w hw =>
      sets_commute (hset v hv).1 (hset w hw).1 ((hset v hv).2 w hw)
  · exact covered_unordered htypes hremoved hadded

end Orders

section InFlight

/-- The call is not filling the cache again. -/
def WritePhase.Plain : WritePhase → Prop
  | .refreshLoad _ => False
  | .refreshSave _ => False
  | _ => True

/-- The call, if it is on its way to the cache and is for the item. -/
def WritePhase.inFlight (id : InventoryId) (item : ItemId) : WritePhase → Option WriteCall
  | .cacheWrite call => if call.inventoryId = id ∧ call.itemId = item then some call else none
  | _ => none

/-- The calls for an item that are on their way to the cache. -/
def inFlight (calls : List WritePhase) (id : InventoryId) (item : ItemId) : List WriteCall :=
  calls.filterMap (WritePhase.inFlight id item)

variable {calls : List WritePhase} {n : ℕ} {phase : WritePhase}

variable {id : InventoryId} {item : ItemId}

/-- A call on its way to the cache is there. -/
theorem inFlight_arrives {call : WriteCall} (h : calls[n]? = some (.cacheWrite call))
    (hphase : ∀ id item, phase.inFlight id item = none) :
    (inFlight calls id item).Perm
      (if call.inventoryId = id ∧ call.itemId = item then
          call :: inFlight (calls.set n phase) id item
        else inFlight (calls.set n phase) id item) := by
  obtain ⟨front, back, hcalls, hset⟩ := Slots.split h phase
  unfold inFlight
  rw [hset, hcalls]
  simp only [List.filterMap_append, List.filterMap_cons, hphase]
  by_cases hcall : call.inventoryId = id ∧ call.itemId = item
  · have hone : WritePhase.inFlight id item (.cacheWrite call) = some call := if_pos hcall
    rw [hone, if_pos hcall]
    exact List.perm_middle
  · have hnone : WritePhase.inFlight id item (.cacheWrite call) = none := if_neg hcall
    rw [hnone, if_neg hcall]

/-- A call sets out for the cache. -/
theorem inFlight_sets_out (h : calls[n]? = some phase) (call : WriteCall)
    (hphase : ∀ id item, phase.inFlight id item = none) :
    (inFlight (calls.set n (.cacheWrite call)) id item).Perm
      (if call.inventoryId = id ∧ call.itemId = item then call :: inFlight calls id item
        else inFlight calls id item) := by
  obtain ⟨hn, hget⟩ := List.getElem?_eq_some_iff.mp h
  have hthere : (calls.set n (.cacheWrite call))[n]? = some (.cacheWrite call) :=
    List.getElem?_set_self hn
  have hback : (calls.set n (.cacheWrite call)).set n phase = calls := by
    rw [List.set_set, ← hget, List.set_getElem_self]
  have harrives : (inFlight _ id item).Perm _ := inFlight_arrives hthere hphase
  rwa [hback] at harrives

theorem inFlight_same {phase' : WritePhase} (h : calls[n]? = some phase)
    (hphase : ∀ id item, phase.inFlight id item = none)
    (hphase' : ∀ id item, phase'.inFlight id item = none) :
    inFlight (calls.set n phase') id item = inFlight calls id item := by
  obtain ⟨front, back, hcalls, hset⟩ := Slots.split h phase'
  unfold inFlight
  rw [hset, hcalls]
  simp only [List.filterMap_append, List.filterMap_cons, hphase, hphase']

end InFlight

namespace Interleaving

/-- Calls on the cache over a persistent table, as the server sets it up. -/
abbrev Tables := Interleaving MySqlInventoryStorage InMemoryInventoryStorage

section Alone

variable {π κ : Type} [InventoryStorage π] [InventoryStorage κ]

theorem on_cached (s : CachedInventoryStorage π κ) (call : WriteCall) :
    call.on s = s.writeThrough call.inventoryId call.on call.on := by
  obtain ⟨type, id, item, quantity, reason⟩ := call
  cases type with
  | add => rfl
  | remove => rfl
  | set => rfl

/-- A call that runs alone does what the cached storage does in one go. -/
theorem alone (s : CachedInventoryStorage π κ) (call : WriteCall) :
    ∃ persistent cache, (call.on s).2 = { s with persistent, cache } ∧
      after step (launch s.persistent s.cache [call]) [0, 0, 0, 0] =
        { persistent, cache, calls := [.returned] } := by
  rw [on_cached]
  unfold CachedInventoryStorage.writeThrough CachedInventoryStorage.refreshCache
  rcases hp : call.on s.persistent with ⟨_ | _, persistent⟩
  · refine ⟨persistent, s.cache, rfl, ?_⟩
    simp [launch, step, hp]
  · rcases hc : call.on s.cache with ⟨_ | _, cache⟩
    · rcases hload : loadInventory persistent call.inventoryId with ⟨_ | state, persistent'⟩
      · refine ⟨persistent', cache, by simp [hload], ?_⟩
        simp [launch, step, hp, hc, hload]
      · refine ⟨persistent', saveInventory cache state, by simp [hload], ?_⟩
        simp [launch, step, hp, hc, hload]
    · refine ⟨persistent, cache, rfl, ?_⟩
      simp [launch, step, hp, hc]

end Alone

section Steps

/-- When a call writes the persistent table, it and the calls for its item that are on their way to
the cache may come there in any order. -/
def OrderFree (s : Tables) (n : ℕ) : Prop :=
  match s.calls[n]? with
  | some (.persistentWrite call) =>
    (cellWrite call (s.persistent.content.held call.inventoryId call.itemId)).isSome →
    Compatible ((s.cache.content.held call.inventoryId call.itemId).getD 0)
      (call :: inFlight s.calls call.inventoryId call.itemId)
  | _ => True

instance (s : Tables) (n : ℕ) : Decidable (OrderFree s n) := by
  unfold OrderFree
  split <;> infer_instance

/-- The cache catches up with the persistent table, in whatever order the calls get there. -/
structure Trailing (s : Tables) : Prop where
  settles : ∀ id item, Settles cellWrite (s.cache.content.held id item)
    (inFlight s.calls id item) (s.persistent.content.held id item)
  cached : ∀ id ∈ s.cache.content.inventories, id ∈ s.persistent.content.inventories
  persisted : ∀ call, .cacheWrite call ∈ s.calls →
    call.inventoryId ∈ s.persistent.content.inventories
  plain : ∀ phase ∈ s.calls, phase.Plain

variable {s : Tables} {n : ℕ} {call : WriteCall}

theorem Trailing.persistentRefused (h : Trailing s)
    (hn : s.calls[n]? = some (.persistentWrite call))
    (hcell : cellWrite call (s.persistent.content.held call.inventoryId call.itemId) = none) :
    Trailing (s.step n) := by
  obtain ⟨c, hon, hheld, hmem⟩ := on_refused s.persistent hcell
  have hstep : s.step n =
      { s with
        persistent := { s.persistent with content := c }
        calls := s.calls.set n .returned } := by
    unfold step
    rw [hn]
    simp only [hon]
  rw [hstep]
  refine ⟨fun id item => ?_, fun id hid => hmem id (h.cached id hid), fun other hother => ?_,
    fun phase hphase => ?_⟩
  · rw [hheld, inFlight_same hn (fun _ _ => rfl) fun _ _ => rfl]
    exact h.settles id item
  · refine hmem _ (h.persisted other ?_)
    exact (List.mem_or_eq_of_mem_set hother).resolve_right (by simp)
  · rcases List.mem_or_eq_of_mem_set hphase with hphase | rfl
    · exact h.plain phase hphase
    · trivial

theorem Trailing.persistentTaken (h : Trailing s)
    (hn : s.calls[n]? = some (.persistentWrite call)) {v : Option Quantity}
    (hcell : cellWrite call (s.persistent.content.held call.inventoryId call.itemId) = some v)
    (hfree : Compatible ((s.cache.content.held call.inventoryId call.itemId).getD 0)
      (call :: inFlight s.calls call.inventoryId call.itemId)) :
    Trailing (s.step n) := by
  obtain ⟨c, hon, hheld, hmem⟩ := on_taken s.persistent hcell
  have hstep : s.step n =
      { s with
        persistent := { s.persistent with content := c }
        calls := s.calls.set n (.cacheWrite call) } := by
    unfold step
    rw [hn]
    simp only [hon]
  have hkeep : ∀ id ∈ s.persistent.content.inventories, id ∈ c.inventories := fun id hid =>
    (hmem id).mpr (.inr hid)
  rw [hstep]
  refine ⟨fun id item => ?_, fun id hid => hkeep id (h.cached id hid), fun other hother => ?_,
    fun phase hphase => ?_⟩
  · refine Settles.perm ?_ (inFlight_sets_out hn call fun _ _ => rfl)
    by_cases hitem : call.inventoryId = id ∧ call.itemId = item
    · obtain ⟨rfl, rfl⟩ := hitem
      simp only [hheld, and_self, if_true]
      exact (h.settles _ _).put hcell hfree.unordered
    · rw [if_neg hitem, hheld, if_neg fun heq => hitem ⟨heq.1.symm, heq.2.symm⟩]
      exact h.settles id item
  · rcases List.mem_or_eq_of_mem_set hother with hother | heq
    · exact hkeep _ (h.persisted other hother)
    · cases heq
      exact (hmem _).mpr (.inl rfl)
  · rcases List.mem_or_eq_of_mem_set hphase with hphase | rfl
    · exact h.plain phase hphase
    · trivial

/-- The cache takes every call that gets there. -/
theorem Trailing.cacheTaken (h : Trailing s) (hn : s.calls[n]? = some (.cacheWrite call)) :
    Trailing (s.step n) := by
  have harrives := fun id item =>
    @inFlight_arrives s.calls n .returned id item call hn fun _ _ => rfl
  have hsettles := (h.settles call.inventoryId call.itemId).perm (harrives _ _).symm
  simp only [and_self, if_true] at hsettles
  obtain ⟨v, hcell, hrest⟩ := hsettles.takes
  obtain ⟨c, hon, hheld, hmem⟩ := on_taken s.cache hcell
  have hstep : s.step n =
      { s with
        cache := { s.cache with content := c }
        calls := s.calls.set n .returned } := by
    unfold step
    rw [hn]
    simp only [hon]
  rw [hstep]
  refine ⟨fun id item => ?_, fun id hid => ?_, fun other hother => ?_, fun phase hphase => ?_⟩
  · by_cases hitem : call.inventoryId = id ∧ call.itemId = item
    · obtain ⟨rfl, rfl⟩ := hitem
      simp only [hheld, and_self, if_true]
      exact hrest
    · have hthere := (h.settles id item).perm (harrives id item).symm
      rw [if_neg hitem] at hthere
      rw [hheld, if_neg fun heq => hitem ⟨heq.1.symm, heq.2.symm⟩]
      exact hthere
  · rcases (hmem id).mp hid with rfl | hid
    · exact h.persisted call (List.mem_of_getElem? hn)
    · exact h.cached id hid
  · exact h.persisted other ((List.mem_or_eq_of_mem_set hother).resolve_right (by simp))
  · rcases List.mem_or_eq_of_mem_set hphase with hphase | rfl
    · exact h.plain phase hphase
    · trivial

theorem Trailing.step (h : Trailing s) (hfree : OrderFree s n) : Trailing (s.step n) := by
  rcases hn : s.calls[n]? with _ | phase
  · unfold Interleaving.step
    rw [hn]
    exact h
  · have hplain := h.plain phase (List.mem_of_getElem? hn)
    cases phase with
    | persistentWrite call =>
      rcases hcell : cellWrite call (s.persistent.content.held call.inventoryId call.itemId) with
        _ | v
      · exact h.persistentRefused hn hcell
      · unfold OrderFree at hfree
        rw [hn] at hfree
        exact h.persistentTaken hn hcell (hfree (by rw [hcell]; rfl))
    | cacheWrite call => exact h.cacheTaken hn
    | refreshLoad id => exact hplain.elim
    | refreshSave state => exact hplain.elim
    | returned =>
      unfold Interleaving.step
      rw [hn]
      exact h

/-- Once every call has returned, what is in the cache is persisted as it is. -/
theorem Trailing.covers (h : Trailing s) (hreturned : s.Returned) :
    Covers s.cache.content s.persistent.content := by
  have hnone : ∀ id item, inFlight s.calls id item = [] := by
    intro id item
    refine List.filterMap_eq_nil_iff.mpr fun phase hphase => ?_
    rw [hreturned phase hphase]
    rfl
  intro id items hitems
  obtain ⟨items', hitems'⟩ := (Dict.mem_iff _ _).mp
    (h.cached id ((Dict.mem_iff _ _).mpr ⟨items, hitems⟩))
  have hsame : items' = items := by
    refine Dict.ext fun item => ?_
    have hsettles := h.settles id item
    rw [hnone, settles_nil] at hsettles
    unfold TableContent.held at hsettles
    rw [TableContent.itemsOf_of_get hitems, TableContent.itemsOf_of_get hitems'] at hsettles
    exact hsettles.symm
  rw [hitems', hsame]

end Steps

section Runs

theorem trailing_launch {persistent : MySqlInventoryStorage} {cache : InMemoryInventoryStorage}
    (hequal : cache.content.inventories = persistent.content.inventories)
    (calls : List WriteCall) : Trailing (launch persistent cache calls) where
  settles id item := by
    have hnone : inFlight (calls.map .persistentWrite) id item = [] := by
      refine List.filterMap_eq_nil_iff.mpr fun phase hphase => ?_
      obtain ⟨call, -, rfl⟩ := List.mem_map.mp hphase
      rfl
    show Settles cellWrite (cache.content.held id item) (inFlight (calls.map _) id item) _
    rw [hnone, settles_nil]
    unfold TableContent.held
    rw [TableContent.itemsOf_eq, TableContent.itemsOf_eq, hequal]
    rfl
  cached id hid := by
    rw [show (launch persistent cache calls).cache = cache from rfl, hequal] at hid
    exact hid
  persisted call hcall := by
    obtain ⟨other, -, hother⟩ := List.mem_map.mp hcall
    cases hother
  plain phase hphase := by
    obtain ⟨call, -, rfl⟩ := List.mem_map.mp hphase
    trivial

/-- From equal layers, whatever calls run at the same time and however their inner calls interleave:
if at each write of the persistent table the calls on their way to the cache may come in any order,
then once every call has returned each inventory in the cache is the persisted one. -/
theorem write_through_agrees (persistent : MySqlInventoryStorage)
    (cache : InMemoryInventoryStorage)
    (hequal : cache.content.inventories = persistent.content.inventories)
    (calls : List WriteCall) (schedule : List ℕ)
    (hfree : ∀ x ∈ trail step (launch persistent cache calls) schedule, OrderFree x.1 x.2)
    (hreturned : (after step (launch persistent cache calls) schedule).Returned) :
    ∀ (id : InventoryId) (items : Items),
      (after step (launch persistent cache calls) schedule).cache.content.inventories[id]? =
        some items →
      (after step (launch persistent cache calls) schedule).persistent.content.inventories[id]? =
        some items := by
  have htrailing := invariant (I := Trailing) (P := OrderFree) (fun _ _ h hfree => h.step hfree)
    schedule _ (trailing_launch hequal calls) hfree
  exact htrailing.covers hreturned

/-- Ten of item 1 are persisted and cached. -/
def stocked : InventoryTable :=
  tableOf { inventories := (∅ : Dict _ _).insert 1 ((∅ : Items).insert 1 10) }

/-- An addition and a removal of item 1, and a setting of item 2. -/
def mixed : List WriteCall := [⟨.add, 1, 1, 5, []⟩, ⟨.remove, 1, 1, 3, []⟩, ⟨.set, 1, 2, 4, []⟩]

theorem write_through_agrees_stocked :
    let s : Tables := after step (launch stocked stocked mixed) [0, 1, 2, 1, 2, 0]
    s.Returned ∧ ∃ items : Items, items.toList = [(1, 12), (2, 4)] ∧
      s.cache.content.inventories[(1 : InventoryId)]? = some items ∧
      s.persistent.content.inventories[(1 : InventoryId)]? = some items := by
  intro s
  have hcache : (s.cache.content.inventories[(1 : InventoryId)]?.map fun items => items.toList) =
      some [(1, 12), (2, 4)] := by
    decide +kernel
  have hreturned : s.Returned := by
    decide +kernel
  obtain ⟨items, hitems, hlist⟩ := Option.map_eq_some_iff.mp hcache
  have hsame := write_through_agrees stocked stocked rfl mixed [0, 1, 2, 1, 2, 0]
    (by decide +kernel) hreturned 1 items hitems
  exact ⟨hreturned, items, hlist, hitems, hsame⟩

/-- Two settings of one item. -/
def settings : List WriteCall := [⟨.set, 1, 1, 5, []⟩, ⟨.set, 1, 1, 7, []⟩]

/-- The second setting overtakes the first on the way to the cache. -/
theorem settings_overtake :
    ¬ ∀ (persistent : MySqlInventoryStorage) (cache : InMemoryInventoryStorage),
      cache.content.inventories = persistent.content.inventories →
      ∀ (calls : List WriteCall) (schedule : List ℕ),
      (after step (launch persistent cache calls) schedule).Returned →
      ∀ (id : InventoryId) (items : Items),
        (after step (launch persistent cache calls) schedule).cache.content.inventories[id]? =
          some items →
        (after step (launch persistent cache calls) schedule).persistent.content.inventories[id]? =
          some items := by
  intro h
  let s : Tables := after step (launch {} {} settings) [0, 1, 1, 0]
  have hcache : (s.cache.content.inventories[(1 : InventoryId)]?.map fun items => items.toList) =
      some [(1, 5)] := by
    decide +kernel
  have hpersistent :
      (s.persistent.content.inventories[(1 : InventoryId)]?.map fun items => items.toList) =
        some [(1, 7)] := by
    decide +kernel
  obtain ⟨items, hitems, hlist⟩ := Option.map_eq_some_iff.mp hcache
  have hsame := h {} {} rfl settings [0, 1, 1, 0] (by decide +kernel) 1 items hitems
  rw [hsame, Option.map_some, hlist] at hpersistent
  exact absurd hpersistent (by decide)

end Runs

end Interleaving

end DungeonHub
