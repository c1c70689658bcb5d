import DungeonHub.Lib.Dict
import DungeonHub.Bytes

/-!
# Inventory storage

The storage interface of `inventory_storage.h`, the table behind both `InMemoryInventoryStorage`
and `MySqlInventoryStorage`, and the write-through cache over two storages. Calls of a storage are
atomic under its mutex; those of the cache over two storages are not, and their inner calls may
interleave. Ids that are counted up are natural numbers, and the time stamps of changes are left
out.
-/

namespace DungeonHub

abbrev InventoryId := UInt64
abbrev ItemId := UInt32
abbrev Quantity := UInt32

/-- The items of one inventory. -/
abbrev Items := Dict ItemId Quantity

structure InventoryState where
  inventoryId : InventoryId
  items : Items

inductive ChangeType where
  | add
  | remove
  | set
  deriving DecidableEq, Repr

structure InventoryChange where
  changeId : ℕ
  inventoryId : InventoryId
  itemId : ItemId
  quantity : Quantity
  type : ChangeType
  reason : Str
  deriving DecidableEq

structure Transaction where
  transactionId : ℕ
  deriving DecidableEq

/-- The calls of an `InventoryStorage`. `loadInventory` is `const` in the source, but a cache fills
itself there. -/
class InventoryStorage (σ : Type) where
  beginTransaction : σ → Transaction × σ
  commitTransaction : σ → Transaction → σ
  rollbackTransaction : σ → Transaction → σ
  loadInventory : σ → InventoryId → Option InventoryState × σ
  saveInventory : σ → InventoryState → σ
  addItem : σ → InventoryId → ItemId → Quantity → Str → Bool × σ
  removeItem : σ → InventoryId → ItemId → Quantity → Str → Bool × σ
  setItem : σ → InventoryId → ItemId → Quantity → Str → σ
  changeLog : σ → InventoryId → List InventoryChange

section InventoryTable

/-- What a transaction remembers, and a rollback brings back: everything a table stores. -/
structure TableContent where
  inventories : Dict InventoryId Items := ∅
  changeLog : Dict InventoryId (List InventoryChange) := ∅
  nextChangeId : ℕ := 1

/-- The storage of `in_memory_inventory_storage.cpp` and `mysql_inventory_storage.cpp`: the two
differ in the name of the class only. An inventory's own copy of the id it is filed under is left
out. -/
structure InventoryTable where
  nextTransactionId : ℕ := 1
  activeTransactions : Dict ℕ Unit := ∅
  transactionSnapshots : Dict ℕ TableContent := ∅
  content : TableContent := {}

abbrev InMemoryInventoryStorage := InventoryTable
abbrev MySqlInventoryStorage := InventoryTable

namespace TableContent

/-- `getOrCreateInventory`: the table with the inventory in it, and its items. -/
def getOrCreateInventory (c : TableContent) (inventoryId : InventoryId) : Items × TableContent :=
  match c.inventories[inventoryId]? with
  | some items => (items, c)
  | none => (∅, { c with inventories := c.inventories.insert inventoryId ∅ })

/-- Store the items back, through the reference `getOrCreateInventory` returned. -/
def putItems (c : TableContent) (inventoryId : InventoryId) (items : Items) : TableContent :=
  { c with inventories := c.inventories.insert inventoryId items }

def recordChange (c : TableContent) (inventoryId : InventoryId) (itemId : ItemId)
    (quantity : Quantity) (type : ChangeType) (reason : Str) : TableContent :=
  let change := ⟨c.nextChangeId, inventoryId, itemId, quantity, type, reason⟩
  { c with
    nextChangeId := c.nextChangeId + 1
    changeLog := c.changeLog.insert inventoryId (c.changeLog.getD inventoryId [] ++ [change]) }

def saveInventory (c : TableContent) (state : InventoryState) : TableContent :=
  c.putItems state.inventoryId state.items

def addItem (c : TableContent) (inventoryId : InventoryId) (itemId : ItemId) (quantity : Quantity)
    (reason : Str) : Bool × TableContent :=
  if quantity = 0 then (false, c)
  else
    let (items, c) := c.getOrCreateInventory inventoryId
    let c := c.putItems inventoryId (items.insert itemId (items.getD itemId 0 + quantity))
    (true, c.recordChange inventoryId itemId quantity .add reason)

def removeItem (c : TableContent) (inventoryId : InventoryId) (itemId : ItemId)
    (quantity : Quantity) (reason : Str) : Bool × TableContent :=
  if quantity = 0 then (false, c)
  else
    let (items, c) := c.getOrCreateInventory inventoryId
    match items[itemId]? with
    | none => (false, c)
    | some held =>
      if held < quantity then (false, c)
      else
        let items := if held - quantity = 0 then items.erase itemId
          else items.insert itemId (held - quantity)
        (true, (c.putItems inventoryId items).recordChange inventoryId itemId quantity
          .remove reason)

def setItem (c : TableContent) (inventoryId : InventoryId) (itemId : ItemId) (quantity : Quantity)
    (reason : Str) : TableContent :=
  let (items, c) := c.getOrCreateInventory inventoryId
  let items := if quantity = 0 then items.erase itemId else items.insert itemId quantity
  (c.putItems inventoryId items).recordChange inventoryId itemId quantity .set reason

end TableContent

namespace InventoryTable

def beginTransaction (s : InventoryTable) : Transaction × InventoryTable :=
  let transaction := s.nextTransactionId
  (⟨transaction⟩,
    { s with
      nextTransactionId := s.nextTransactionId + 1
      activeTransactions := s.activeTransactions.insert transaction ()
      -- emplace keeps a snapshot that is there already
      transactionSnapshots := s.transactionSnapshots.insertIfNew transaction s.content })

def commitTransaction (s : InventoryTable) (transaction : Transaction) : InventoryTable :=
  { s with
    activeTransactions := s.activeTransactions.erase transaction.transactionId
    transactionSnapshots := s.transactionSnapshots.erase transaction.transactionId }

def rollbackTransaction (s : InventoryTable) (transaction : Transaction) : InventoryTable :=
  let s := match s.transactionSnapshots[transaction.transactionId]? with
    | none => s
    | some snapshot => { s with
        content := snapshot
        transactionSnapshots := s.transactionSnapshots.erase transaction.transactionId }
  { s with activeTransactions := s.activeTransactions.erase transaction.transactionId }

def loadInventory (s : InventoryTable) (inventoryId : InventoryId) : Option InventoryState :=
  s.content.inventories[inventoryId]?.map fun items => ⟨inventoryId, items⟩

def changeLog (s : InventoryTable) (inventoryId : InventoryId) : List InventoryChange :=
  s.content.changeLog.getD inventoryId []

instance : InventoryStorage InventoryTable where
  beginTransaction := beginTransaction
  commitTransaction := commitTransaction
  rollbackTransaction := rollbackTransaction
  loadInventory s id := (s.loadInventory id, s)
  saveInventory s state := { s with content := s.content.saveInventory state }
  addItem s id item quantity reason :=
    let r := s.content.addItem id item quantity reason
    (r.1, { s with content := r.2 })
  removeItem s id item quantity reason :=
    let r := s.content.removeItem id item quantity reason
    (r.1, { s with content := r.2 })
  setItem s id item quantity reason :=
    { s with content := s.content.setItem id item quantity reason }
  changeLog := changeLog

end InventoryTable

end InventoryTable

section Cached

structure TransactionPair where
  persistent : Transaction
  cache : Transaction
  deriving DecidableEq

/-- `CachedInventoryStorage` over a persistent storage `π` and a cache `κ`. -/
structure CachedInventoryStorage (π κ : Type) where
  nextTransactionId : ℕ := 1
  transactions : Dict ℕ TransactionPair := ∅
  persistent : π
  cache : κ

namespace CachedInventoryStorage

open InventoryStorage

variable {π κ : Type} [InventoryStorage π] [InventoryStorage κ]

def beginTransaction (s : CachedInventoryStorage π κ) :
    Transaction × CachedInventoryStorage π κ :=
  let transaction := s.nextTransactionId
  let (tp, persistent) := InventoryStorage.beginTransaction s.persistent
  let (tc, cache) := InventoryStorage.beginTransaction s.cache
  (⟨transaction⟩,
    { nextTransactionId := s.nextTransactionId + 1
      transactions := s.transactions.insertIfNew transaction ⟨tp, tc⟩
      persistent, cache })

def commitTransaction (s : CachedInventoryStorage π κ) (transaction : Transaction) :
    CachedInventoryStorage π κ :=
  match s.transactions[transaction.transactionId]? with
  | none => s
  | some pair => { s with
      persistent := InventoryStorage.commitTransaction s.persistent pair.persistent
      cache := InventoryStorage.commitTransaction s.cache pair.cache
      transactions := s.transactions.erase transaction.transactionId }

def rollbackTransaction (s : CachedInventoryStorage π κ) (transaction : Transaction) :
    CachedInventoryStorage π κ :=
  match s.transactions[transaction.transactionId]? with
  | none => s
  | some pair => { s with
      persistent := InventoryStorage.rollbackTransaction s.persistent pair.persistent
      cache := InventoryStorage.rollbackTransaction s.cache pair.cache
      transactions := s.transactions.erase transaction.transactionId }

def refreshCache (s : CachedInventoryStorage π κ) (inventoryId : InventoryId) :
    CachedInventoryStorage π κ :=
  match InventoryStorage.loadInventory s.persistent inventoryId with
  | (none, persistent) => { s with persistent }
  | (some persisted, persistent) =>
    { s with persistent, cache := InventoryStorage.saveInventory s.cache persisted }

def loadInventory (s : CachedInventoryStorage π κ) (inventoryId : InventoryId) :
    Option InventoryState × CachedInventoryStorage π κ :=
  match InventoryStorage.loadInventory s.cache inventoryId with
  | (some cached, cache) => (some cached, { s with cache })
  | (none, cache) =>
    match InventoryStorage.loadInventory s.persistent inventoryId with
    | (none, persistent) => (none, { s with persistent, cache })
    | (some persisted, persistent) => (some persisted,
        { s with persistent, cache := InventoryStorage.saveInventory cache persisted })

def saveInventory (s : CachedInventoryStorage π κ) (state : InventoryState) :
    CachedInventoryStorage π κ :=
  { s with
    persistent := InventoryStorage.saveInventory s.persistent state
    cache := InventoryStorage.saveInventory s.cache state }

/-- The body shared by `addItem` and `removeItem`: the persistent storage decides, and a cache that
refuses what it accepted is filled again. -/
def writeThrough (s : CachedInventoryStorage π κ) (inventoryId : InventoryId)
    (persistentWrite : π → Bool × π) (cacheWrite : κ → Bool × κ) :
    Bool × CachedInventoryStorage π κ :=
  match persistentWrite s.persistent with
  | (false, persistent) => (false, { s with persistent })
  | (true, persistent) =>
    match cacheWrite s.cache with
    | (false, cache) => (true, refreshCache { s with persistent, cache } inventoryId)
    | (true, cache) => (true, { s with persistent, cache })

def addItem (s : CachedInventoryStorage π κ) (inventoryId : InventoryId) (itemId : ItemId)
    (quantity : Quantity) (reason : Str) : Bool × CachedInventoryStorage π κ :=
  s.writeThrough inventoryId
    (fun p => InventoryStorage.addItem p inventoryId itemId quantity reason)
    (fun c => InventoryStorage.addItem c inventoryId itemId quantity reason)

def removeItem (s : CachedInventoryStorage π κ) (inventoryId : InventoryId) (itemId : ItemId)
    (quantity : Quantity) (reason : Str) : Bool × CachedInventoryStorage π κ :=
  s.writeThrough inventoryId
    (fun p => InventoryStorage.removeItem p inventoryId itemId quantity reason)
    (fun c => InventoryStorage.removeItem c inventoryId itemId quantity reason)

def setItem (s : CachedInventoryStorage π κ) (inventoryId : InventoryId) (itemId : ItemId)
    (quantity : Quantity) (reason : Str) : CachedInventoryStorage π κ :=
  { s with
    persistent := InventoryStorage.setItem s.persistent inventoryId itemId quantity reason
    cache := InventoryStorage.setItem s.cache inventoryId itemId quantity reason }

def changeLog (s : CachedInventoryStorage π κ) (inventoryId : InventoryId) :
    List InventoryChange :=
  InventoryStorage.changeLog s.persistent inventoryId

instance : InventoryStorage (CachedInventoryStorage π κ) where
  beginTransaction := beginTransaction
  commitTransaction := commitTransaction
  rollbackTransaction := rollbackTransaction
  loadInventory := loadInventory
  saveInventory := saveInventory
  addItem := addItem
  removeItem := removeItem
  setItem := setItem
  changeLog := changeLog

end CachedInventoryStorage

end Cached

section Calls

open InventoryStorage

/-- A call on a storage that may change it. -/
inductive StorageCall where
  | beginTransaction
  | commitTransaction (transaction : Transaction)
  | rollbackTransaction (transaction : Transaction)
  | loadInventory (inventoryId : InventoryId)
  | saveInventory (state : InventoryState)
  | addItem (inventoryId : InventoryId) (itemId : ItemId) (quantity : Quantity) (reason : Str)
  | removeItem (inventoryId : InventoryId) (itemId : ItemId) (quantity : Quantity) (reason : Str)
  | setItem (inventoryId : InventoryId) (itemId : ItemId) (quantity : Quantity) (reason : Str)

/-- The storage a call leaves. -/
def storageStep {σ : Type} [InventoryStorage σ] (s : σ) : StorageCall → σ
  | .beginTransaction => (beginTransaction s).2
  | .commitTransaction t => commitTransaction s t
  | .rollbackTransaction t => rollbackTransaction s t
  | .loadInventory id => (loadInventory s id).2
  | .saveInventory state => saveInventory s state
  | .addItem id item quantity reason => (addItem s id item quantity reason).2
  | .removeItem id item quantity reason => (removeItem s id item quantity reason).2
  | .setItem id item quantity reason => setItem s id item quantity reason

end Calls

section Interleaved

open InventoryStorage

/-- A call of `addItem`, `removeItem` or `setItem`. -/
structure WriteCall where
  type : ChangeType
  inventoryId : InventoryId
  itemId : ItemId
  quantity : Quantity
  reason : Str := []
  deriving DecidableEq

/-- The call on a storage; `setItem` refuses nothing. -/
def WriteCall.on {σ : Type} [InventoryStorage σ] (call : WriteCall) (s : σ) : Bool × σ :=
  match call.type with
  | .add => addItem s call.inventoryId call.itemId call.quantity call.reason
  | .remove => removeItem s call.inventoryId call.itemId call.quantity call.reason
  | .set => (true, setItem s call.inventoryId call.itemId call.quantity call.reason)

/-- Where a call on a `CachedInventoryStorage` stands: the inner call it makes next. -/
inductive WritePhase where
  | persistentWrite (call : WriteCall)
  | cacheWrite (call : WriteCall)
  | refreshLoad (inventoryId : InventoryId)
  | refreshSave (state : InventoryState)
  | returned

/-- Calls on a `CachedInventoryStorage` that several threads make at the same time. No lock is held
from one inner call to the next. -/
structure Interleaving (π κ : Type) where
  persistent : π
  cache : κ
  calls : List WritePhase

instance (phase : WritePhase) : Decidable (phase = .returned) :=
  match phase with
  | .returned => isTrue rfl
  | .persistentWrite _ => isFalse nofun
  | .cacheWrite _ => isFalse nofun
  | .refreshLoad _ => isFalse nofun
  | .refreshSave _ => isFalse nofun

namespace Interleaving

variable {π κ : Type} [InventoryStorage π] [InventoryStorage κ]

/-- The `n`-th call makes its next inner call. -/
def step (s : Interleaving π κ) (n : ℕ) : Interleaving π κ :=
  match s.calls[n]? with
  | none => s
  | some .returned => s
  | some (.persistentWrite call) =>
    match call.on s.persistent with
    | (false, persistent) => { s with persistent, calls := s.calls.set n .returned }
    | (true, persistent) => { s with persistent, calls := s.calls.set n (.cacheWrite call) }
  | some (.cacheWrite call) =>
    match call.on s.cache with
    | (false, cache) =>
      { s with cache, calls := s.calls.set n (.refreshLoad call.inventoryId) }
    | (true, cache) => { s with cache, calls := s.calls.set n .returned }
  | some (.refreshLoad inventoryId) =>
    match loadInventory s.persistent inventoryId with
    | (none, persistent) => { s with persistent, calls := s.calls.set n .returned }
    | (some state, persistent) =>
      { s with persistent, calls := s.calls.set n (.refreshSave state) }
  | some (.refreshSave state) =>
    { s with cache := saveInventory s.cache state, calls := s.calls.set n .returned }

/-- The calls set out over the two storages. -/
def launch (persistent : π) (cache : κ) (calls : List WriteCall) : Interleaving π κ :=
  { persistent, cache, calls := calls.map .persistentWrite }

/-- Every call has returned. -/
def Returned (s : Interleaving π κ) : Prop := ∀ phase ∈ s.calls, phase = .returned

instance (s : Interleaving π κ) : Decidable s.Returned := by
  unfold Returned
  infer_instance

end Interleaving

end Interleaved

end DungeonHub
