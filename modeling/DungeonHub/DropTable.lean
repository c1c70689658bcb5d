import DungeonHub.Lib.Checked
import DungeonHub.Reward
import DungeonHub.Security

/-!
# Drop tables and the reward service's checks

`drop_table.cpp`, and what `reward_service.cpp` does besides the grants themselves. A `float` is the
rational it stands for.
-/

namespace DungeonHub

structure DropEntry where
  itemId : UInt32 := 0
  minQuantity : UInt32 := 0
  maxQuantity : UInt32 := 0
  probability : ℚ := 0
  deriving DecidableEq

/-- What a `std::uniform_int_distribution<std::uint32_t>` draws next, for each closed range it may
be given. -/
structure UniformDraw where
  draw : UInt32 → UInt32 → UInt32
  within : ∀ lo hi : UInt32, lo ≤ hi → lo ≤ draw lo hi ∧ draw lo hi ≤ hi

/-- The `std::mt19937` as what the two distributions will draw from it. -/
structure RewardRng where
  chance : Draws ℚ
  quantity : Draws UniformDraw

structure DropTable where
  tables : Dict UInt32 (List DropEntry) := ∅

namespace DropTable

def addEntry (t : DropTable) (tableId : UInt32) (entry : DropEntry) : DropTable where
  tables := t.tables.insert tableId (t.tables.getD tableId [] ++ [entry])

/-- The table a reward service starts with; `0.10f` is not exactly a tenth. -/
def new : DropTable :=
  let t : DropTable := {}
  let t := t.addEntry 1 ⟨1001, 1, 2, 3 / 4⟩
  let t := t.addEntry 1 ⟨2001, 1, 1, 1 / 4⟩
  t.addEntry 1 ⟨3001, 2, 4, 13421773 / 134217728⟩

/-- The loop of `roll`. -/
def rollEntries : List DropEntry → RewardRng → List GrantItem × RewardRng
  | [], rng => ([], rng)
  | entry :: entries, rng =>
    let (chance, chances) := rng.chance.next
    let rng := { rng with chance := chances }
    if chance > entry.probability then rollEntries entries rng
    else
      let minQty := min entry.minQuantity entry.maxQuantity
      let maxQty := max entry.minQuantity entry.maxQuantity
      let (quantity, quantities) := rng.quantity.next
      let rng := { rng with quantity := quantities }
      let (rewards, rng) := rollEntries entries rng
      (⟨entry.itemId, quantity.draw minQty maxQty⟩ :: rewards, rng)

def roll (t : DropTable) (tableId : UInt32) (rng : RewardRng) : List GrantItem × RewardRng :=
  match t.tables[tableId]? with
  | none => ([], rng)
  | some entries => rollEntries entries rng

end DropTable

namespace RewardService

def grantRewards (inv : RewardInventory) (grantId : ℕ) (items : List GrantItem) :
    Bool × RewardInventory :=
  let (result, inv) := grantRewardsDetailed inv grantId items
  (decide (result = .completed), inv)

def grantFromTable (dropTable : DropTable) (inv : RewardInventory) (grantId : ℕ)
    (tableId : UInt32) (rng : RewardRng) : Bool × RewardInventory × RewardRng :=
  let (rewards, rng) := dropTable.roll tableId rng
  let (granted, inv) := grantRewards inv grantId rewards
  (granted, inv, rng)

/-- The loop of `validateClientRewards`, with the total so far. -/
def validateItems (maxTotalCount : UInt32) : List GrantItem → UInt32 → Bool
  | [], total => decide (total ≤ maxTotalCount)
  | item :: items, total =>
    if item.quantity = 0 then false
    else if item.quantity > maxTotalCount then false
    else if total > maxTotalCount - item.quantity then false
    else validateItems maxTotalCount items (total + item.quantity)

def validateClientRewards (items : List GrantItem) (maxItems : ℕ) (maxTotalCount : UInt32) :
    Bool :=
  if items.length > maxItems then false else validateItems maxTotalCount items 0

/-- `validateItems` on integers, as far as each sum and difference fits in 32 bits. -/
def validateItemsExact (maxTotalCount : ℤ) : List GrantItem → ℤ → Option Bool
  | [], total => some (decide (total ≤ maxTotalCount))
  | item :: items, total =>
    let quantity : ℤ := item.quantity.toNat
    if quantity = 0 then some false
    else if quantity > maxTotalCount then some false
    else do
      let room ← Checked.uint32 (maxTotalCount - quantity)
      if total > room then some false
      else do
        let total ← Checked.uint32 (total + quantity)
        validateItemsExact maxTotalCount items total

/-- `validateClientRewards` on integers, as far as each sum and difference fits in 32 bits. -/
def validateClientRewardsExact (items : List GrantItem) (maxItems : ℕ) (maxTotalCount : UInt32) :
    Option Bool :=
  if items.length > maxItems then some false
  else validateItemsExact maxTotalCount.toNat items 0

end RewardService

end DungeonHub
