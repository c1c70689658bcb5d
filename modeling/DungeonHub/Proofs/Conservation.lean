import DungeonHub.Proofs.ChangeLog
import DungeonHub.Proofs.Interleaving

/-!
# What is put into a table is there

Quantities are counted modulo 2^32 in a table, and in unbounded integers in its balance. The two
agree as long as no addition takes an amount past 2^32; the first that does loses what it carries.
-/

namespace DungeonHub

open InventoryStorage Run TableContent

section Balance

/-- A write, in unbounded integers. -/
def WriteCall.onAmount (call : WriteCall) (amount : ℤ) : ℤ :=
  match call.type with
  | .add => amount + call.quantity.toNat
  | .remove => amount - call.quantity.toNat
  | .set => call.quantity.toNat

/-- The amount of an item after a call, if the call is one of that item and succeeds. -/
def tally (id : InventoryId) (item : ItemId) (amount : ℤ) (made : InventoryTable × WriteCall) : ℤ :=
  if made.2.inventoryId = id ∧ made.2.itemId = item ∧ (made.2.on made.1).1 = true then
    made.2.onAmount amount
  else amount

/-- What was last set, and all that was added and removed since. -/
def balance (id : InventoryId) (item : ItemId) (made : List (InventoryTable × WriteCall)) : ℤ :=
  made.foldl (tally id item) 0

namespace InventoryTable

def write (s : InventoryTable) (call : WriteCall) : InventoryTable := (call.on s).2

/-- The call adds more than there is room for. -/
def Overflows (s : InventoryTable) (call : WriteCall) : Prop :=
  call.type = .add ∧
    2 ^ 32 ≤ (s.quantityOf call.inventoryId call.itemId).toNat + call.quantity.toNat

/-- The table holds the balance of every item, and no entry of quantity 0. -/
structure Conserved (s : InventoryTable) (made : List (InventoryTable × WriteCall)) : Prop where
  exact : ∀ id item, ((s.quantityOf id item).toNat : ℤ) = balance id item made
  solid : ∀ id item, s.content.held id item ≠ some 0

theorem quantityOf_held (s : InventoryTable) (id : InventoryId) (item : ItemId) :
    s.quantityOf id item = (s.content.held id item).getD 0 := by
  rw [quantityOf_eq, quantities_eq]
  rfl

end InventoryTable

end Balance

section Entries

variable {call : WriteCall} {entry v : Option Quantity}

theorem entryOf_ne (quantity : Quantity) : entryOf quantity ≠ some 0 := by
  unfold entryOf
  split_ifs with h0
  · simp
  · simpa using h0

theorem entryOf_getD (quantity : Quantity) : (entryOf quantity).getD 0 = quantity := by
  unfold entryOf
  split_ifs with h0
  · exact h0.symm
  · rfl

/-- With room for what it adds, a call that is taken leaves the exact amount, and no entry of
quantity 0. -/
theorem cellWrite_exact (h : cellWrite call entry = some v)
    (hroom : call.type = .add → (entry.getD 0).toNat + call.quantity.toNat < 2 ^ 32) :
    ((v.getD 0).toNat : ℤ) = call.onAmount (entry.getD 0).toNat ∧ v ≠ some 0 := by
  unfold cellWrite at h
  unfold WriteCall.onAmount
  rcases htype : call.type with _ | _ | _ <;> rw [htype] at h <;> simp only [] at h
  · split_ifs at h with hq
    cases h
    have hsum : (entry.getD 0 + call.quantity).toNat =
        (entry.getD 0).toNat + call.quantity.toNat := by
      rw [UInt32.toNat_add, Nat.mod_eq_of_lt (hroom htype)]
    refine ⟨?_, fun hzero => ?_⟩
    · rw [Option.getD_some, hsum]
      exact Nat.cast_add _ _
    · rw [Option.some.inj hzero] at hsum
      exact hq (UInt32.toNat_inj.mp (Nat.add_eq_zero_iff.mp hsum.symm).2)
  · rcases entry with _ | held
    · cases h
    · simp only [] at h
      split_ifs at h with hq
      cases h
      have hle : call.quantity ≤ held := UInt32.not_lt.mp (not_or.mp hq).2
      refine ⟨?_, entryOf_ne _⟩
      rw [entryOf_getD, Option.getD_some, UInt32.toNat_sub_of_le _ _ hle]
      exact Nat.cast_sub hle
  · cases h
    exact ⟨congrArg (fun q : Quantity => (q.toNat : ℤ)) (entryOf_getD _), entryOf_ne _⟩

end Entries

namespace InventoryTable

section Run

variable {s : InventoryTable} {call : WriteCall} {made : List (InventoryTable × WriteCall)}

theorem balance_snoc (id : InventoryId) (item : ItemId) :
    balance id item (made ++ [(s, call)]) = tally id item (balance id item made) (s, call) := by
  unfold balance
  rw [List.foldl_append]
  rfl

theorem conserved_new : Conserved {} [] :=
  ⟨fun _ _ => rfl, fun id item h => by simp [held, itemsOf_eq] at h⟩

/-- The table and its balance go on together if each entry goes on as the tally does. -/
theorem Conserved.next (h : s.Conserved made) {ok : Bool} {c : TableContent}
    (hon : call.on s = (ok, { s with content := c }))
    (hexact : ∀ id item, (((c.held id item).getD 0).toNat : ℤ) =
      tally id item ((s.content.held id item).getD 0).toNat (s, call))
    (hsolid : ∀ id item, c.held id item ≠ some 0) :
    (s.write call).Conserved (made ++ [(s, call)]) := by
  have hwrite : s.write call = { s with content := c } := congrArg Prod.snd hon
  rw [hwrite]
  refine ⟨fun id item => ?_, hsolid⟩
  rw [balance_snoc, ← h.exact id item, quantityOf_held, quantityOf_held]
  exact hexact id item

/-- So they do with every call that has room for what it adds. -/
theorem Conserved.step (h : s.Conserved made) (hfit : ¬s.Overflows call) :
    (s.write call).Conserved (made ++ [(s, call)]) := by
  have hroom : call.type = .add →
      ((s.content.held call.inventoryId call.itemId).getD 0).toNat + call.quantity.toNat <
        2 ^ 32 := by
    intro hadd
    rw [← quantityOf_held]
    exact not_le.mp fun hle => hfit ⟨hadd, hle⟩
  rcases hw : cellWrite call (s.content.held call.inventoryId call.itemId) with _ | v
  · -- a refused call changes neither
    obtain ⟨c, hon, hheld, -⟩ := on_refused s hw
    refine h.next hon (fun id item => ?_) fun id item => ?_
    · unfold tally
      rw [if_neg (by simp [hon]), hheld]
    · rw [hheld]
      exact h.solid id item
  · obtain ⟨c, hon, hheld, -⟩ := on_taken s hw
    obtain ⟨hexact, hne⟩ := cellWrite_exact hw hroom
    refine h.next hon (fun id item => ?_) fun id item => ?_
    · unfold tally
      rw [hheld]
      by_cases hit : id = call.inventoryId ∧ item = call.itemId
      · obtain ⟨rfl, rfl⟩ := hit
        rw [if_pos ⟨rfl, rfl⟩, if_pos ⟨rfl, rfl, congrArg Prod.fst hon⟩]
        exact hexact
      · rw [if_neg hit, if_neg fun hmade => hit ⟨hmade.1.symm, hmade.2.1.symm⟩]
    · rw [hheld]
      split_ifs
      · exact hne
      · exact h.solid id item

/-- An addition there is no room for breaks the balance. -/
theorem Conserved.room (h : s.Conserved made)
    (hnext : (s.write call).Conserved (made ++ [(s, call)])) : ¬s.Overflows call := by
  rintro ⟨hadd, hle⟩
  have hq : call.quantity ≠ 0 := by
    rintro h0
    have hlt := (s.quantityOf call.inventoryId call.itemId).toNat_lt
    rw [h0] at hle
    exact absurd hle (not_le.mpr hlt)
  have hw : cellWrite call (s.content.held call.inventoryId call.itemId) =
      some (some (s.quantityOf call.inventoryId call.itemId + call.quantity)) := by
    unfold cellWrite
    rw [hadd, quantityOf_held]
    exact if_neg hq
  obtain ⟨c, hon, -, -⟩ := on_taken s hw
  have hexact := hnext.exact call.inventoryId call.itemId
  rw [balance_snoc, ← h.exact] at hexact
  unfold tally at hexact
  rw [if_pos ⟨rfl, rfl, congrArg Prod.fst hon⟩] at hexact
  unfold WriteCall.onAmount at hexact
  rw [hadd] at hexact
  have hlt := ((s.write call).quantityOf call.inventoryId call.itemId).toNat_lt
  simp only [] at hexact
  omega

/-- In a run of additions, removals and settings, the table holds in every state reached just what
was put into it if and only if no addition of the run takes an amount to 2^32. -/
theorem items_conserved (calls : List WriteCall) :
    (∀ made, made <+: calls → (after write {} made).Conserved (trail write {} made)) ↔
      ∀ x ∈ trail write {} calls, ¬x.1.Overflows x.2 :=
  recorded_iff (J := fun _ => True) (P := fun s call => ¬s.Overflows call) (fun _ _ _ => trivial)
    (fun _ _ _ _ h => ⟨fun hnext => h.room hnext, fun hfit => h.step hfit⟩) calls trivial
    conserved_new

/-- One more than 2^32 - 1 is nothing. -/
theorem items_conserved_overflow :
    (after write {} [⟨.add, 1, 1, 4294967295, []⟩, ⟨.add, 1, 1, 1, []⟩]).content.held 1 1 = some 0 ∧
      balance 1 1 (trail write {} [⟨.add, 1, 1, 4294967295, []⟩, ⟨.add, 1, 1, 1, []⟩]) =
        4294967296 ∧
      ¬(after write {} [⟨.add, 1, 1, 4294967295, []⟩, ⟨.add, 1, 1, 1, []⟩]).Conserved
        (trail write {} [⟨.add, 1, 1, 4294967295, []⟩, ⟨.add, 1, 1, 1, []⟩]) := by
  have hzero : (after write {} [⟨.add, 1, 1, 4294967295, []⟩,
      ⟨.add, 1, 1, 1, []⟩]).content.held 1 1 = some 0 := by
    decide +kernel
  exact ⟨hzero, by decide +kernel, fun h => h.solid 1 1 hzero⟩

end Run

end InventoryTable

end DungeonHub
