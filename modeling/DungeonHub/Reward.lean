import DungeonHub.Lib.Dict
import DungeonHub.Protocol

/-!
# Reward grants

`reward/inventory.cpp` and the grants of `reward_service.cpp`: an inventory of limited capacity
that takes the items of a grant together or not at all.
-/

namespace DungeonHub

inductive GrantStatus where
  | none
  | pending
  | completed
  | failed
  deriving DecidableEq

/-- `reward::RewardItem`. -/
structure GrantItem where
  itemId : UInt32
  quantity : UInt32
  deriving DecidableEq

/-- `reward::Inventory`. -/
structure RewardInventory where
  capacity : ℕ := 100
  items : Dict UInt32 UInt32 := ∅
  grantStatus : Dict ℕ GrantStatus := ∅

namespace RewardInventory

def beginGrant (inv : RewardInventory) (grantId : ℕ) : Bool × RewardInventory :=
  let status := inv.grantStatus.getD grantId .none
  if status = .completed ∨ status = .pending then
    -- the lookup has put the grant's entry there
    (false, { inv with grantStatus := inv.grantStatus.insert grantId status })
  else (true, { inv with grantStatus := inv.grantStatus.insert grantId .pending })

def commitGrant (inv : RewardInventory) (grantId : ℕ) : RewardInventory :=
  { inv with grantStatus := inv.grantStatus.insert grantId .completed }

def failGrant (inv : RewardInventory) (grantId : ℕ) : RewardInventory :=
  { inv with grantStatus := inv.grantStatus.insert grantId .failed }

/-- `Inventory::grantStatus`. -/
def statusOf (inv : RewardInventory) (grantId : ℕ) : GrantStatus :=
  inv.grantStatus.getD grantId .none

def totalQuantity (inv : RewardInventory) : ℕ := (inv.items.elems.map UInt32.toNat).sum

def addItem (inv : RewardInventory) (itemId quantity : UInt32) : Bool × RewardInventory :=
  if quantity = 0 then (false, inv)
  else if inv.totalQuantity + quantity.toNat > inv.capacity then (false, inv)
  else (true, { inv with
    items := inv.items.insert itemId (inv.items.getD itemId 0 + quantity) })

def removeItem (inv : RewardInventory) (itemId quantity : UInt32) : RewardInventory :=
  if quantity = 0 then inv
  else
    match inv.items[itemId]? with
    | none => inv
    | some held =>
      if held ≤ quantity then { inv with items := inv.items.erase itemId }
      else { inv with items := inv.items.insert itemId (held - quantity) }

end RewardInventory

inductive GrantResult where
  | completed
  | duplicate
  | failed
  deriving DecidableEq

namespace RewardService

/-- The loop of `grantRewardsDetailed`, with the items applied so far: `false` if an item was
refused, after the applied ones have been taken back. -/
def applyItems (applied : List GrantItem) :
    List GrantItem → RewardInventory → Bool × RewardInventory
  | [], inv => (true, inv)
  | item :: items, inv =>
    match inv.addItem item.itemId item.quantity with
    | (true, inv) => applyItems (applied ++ [item]) items inv
    | (false, inv) => (false, applied.foldl (fun inv a => inv.removeItem a.itemId a.quantity) inv)

def grantRewardsDetailed (inv : RewardInventory) (grantId : ℕ) (items : List GrantItem) :
    GrantResult × RewardInventory :=
  match inv.beginGrant grantId with
  | (false, inv) => (.duplicate, inv)
  | (true, inv) =>
    match applyItems [] items inv with
    | (false, inv) => (.failed, inv.failGrant grantId)
    | (true, inv) => (.completed, inv.commitGrant grantId)

/-- The inventory a grant leaves. -/
def grantStep (inv : RewardInventory) (grant : ℕ × List GrantItem) : RewardInventory :=
  (grantRewardsDetailed inv grant.1 grant.2).2

end RewardService

end DungeonHub
