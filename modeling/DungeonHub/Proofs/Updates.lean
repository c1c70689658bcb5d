import DungeonHub.Proofs.Authority
import DungeonHub.Proofs.Cache

/-!
# An inventory update goes through as a whole or not at all

A transaction of the cached storage is one of each of its layers. With no transaction open before,
what its end leaves is worked out in full: both layers have taken all of the items or are back to
what they stored, and no transaction is open again.
-/

namespace DungeonHub

open InventoryStorage Run TableContent Wire

section Closed

/-- No transaction of the table is open. -/
structure InventoryTable.Closed (s : InventoryTable) : Prop where
  active : s.activeTransactions = ∅
  snapshots : s.transactionSnapshots = ∅

/-- No transaction is open, of the storage or of a layer. -/
structure CachedInventoryStorage.Closed (s : CachedTables) : Prop where
  transactions : s.transactions = ∅
  persistent : s.persistent.Closed
  cache : s.cache.Closed

/-- A table after a transaction that leaves it the content. -/
def InventoryTable.ended (s : InventoryTable) (c : TableContent) : InventoryTable :=
  { s with nextTransactionId := s.nextTransactionId + 1, content := c }

/-- The storage after a transaction that leaves its layers the contents. -/
def ended (s : CachedTables) (p c : TableContent) : CachedTables :=
  { s with
    nextTransactionId := s.nextTransactionId + 1
    persistent := s.persistent.ended p
    cache := s.cache.ended c }

theorem ended_closed {s : CachedTables} (h : s.Closed) (p c : TableContent) :
    (ended s p c).Closed :=
  ⟨h.transactions, ⟨h.persistent.active, h.persistent.snapshots⟩,
    ⟨h.cache.active, h.cache.snapshots⟩⟩

section Table

variable {s : InventoryTable} (c : TableContent)

theorem table_closed_begin (h : s.Closed) :
    (beginTransaction s).2 =
      { s with
        nextTransactionId := s.nextTransactionId + 1
        activeTransactions := (∅ : Dict ℕ Unit).insert s.nextTransactionId ()
        transactionSnapshots :=
          (∅ : Dict ℕ TableContent).insert s.nextTransactionId s.content } := by
  rw [table_begin s (by rw [h.snapshots]; exact Std.ExtTreeMap.not_mem_empty), h.active,
    h.snapshots]

theorem table_closed_commit (h : s.Closed) :
    commitTransaction { (beginTransaction s).2 with content := c } (beginTransaction s).1 =
      s.ended c := by
  rw [table_closed_begin h]
  show InventoryTable.commitTransaction _ ⟨s.nextTransactionId⟩ = _
  unfold InventoryTable.commitTransaction InventoryTable.ended
  simp only [Dict.erase_insert_empty, h.active, h.snapshots]

theorem table_closed_rollback (h : s.Closed) :
    rollbackTransaction { (beginTransaction s).2 with content := c } (beginTransaction s).1 =
      s.ended s.content := by
  rw [table_closed_begin h]
  show rollbackTransaction _ ⟨s.nextTransactionId⟩ = _
  rw [table_rollback_known (Dict.get?_insert_self ..)]
  unfold InventoryTable.ended
  simp only [Dict.erase_insert_empty, h.active, h.snapshots]

end Table

section Cached

variable {s : CachedTables} (p c : TableContent)

theorem cached_closed_begin (h : s.Closed) :
    (beginTransaction s).2 =
      { nextTransactionId := s.nextTransactionId + 1
        transactions := (∅ : Dict ℕ TransactionPair).insert s.nextTransactionId
          ⟨(beginTransaction s.persistent).1, (beginTransaction s.cache).1⟩
        persistent := (beginTransaction s.persistent).2
        cache := (beginTransaction s.cache).2 } := by
  show s.beginTransaction.2 = _
  unfold CachedInventoryStorage.beginTransaction
  simp only []
  rw [h.transactions, Dict.insertIfNew_of_not_mem _ _ Std.ExtTreeMap.not_mem_empty]

/-- Whatever a transaction made of the contents of the layers, a commit leaves. -/
theorem cached_closed_commit (h : s.Closed) :
    commitTransaction (withContent (beginTransaction s).2 p c) (beginTransaction s).1 =
      ended s p c := by
  rw [cached_closed_begin h]
  show CachedInventoryStorage.commitTransaction _ ⟨s.nextTransactionId⟩ = _
  unfold CachedInventoryStorage.commitTransaction withContent ended
  simp only [Dict.get?_insert_self, Dict.erase_insert_empty, table_closed_commit _ h.persistent,
    table_closed_commit _ h.cache, h.transactions]

/-- A rollback leaves what there was. -/
theorem cached_closed_rollback (h : s.Closed) :
    rollbackTransaction (withContent (beginTransaction s).2 p c) (beginTransaction s).1 =
      ended s s.persistent.content s.cache.content := by
  rw [cached_closed_begin h]
  show CachedInventoryStorage.rollbackTransaction _ ⟨s.nextTransactionId⟩ = _
  unfold CachedInventoryStorage.rollbackTransaction withContent ended
  simp only [Dict.get?_insert_self, Dict.erase_insert_empty, table_closed_rollback _ h.persistent,
    table_closed_rollback _ h.cache, h.transactions]

end Cached

end Closed

section Items

variable (charId : UInt64) (reason : Str)

/-- Both layers take the same items, and no more than their contents change. -/
theorem cached_addItems :
    ∀ (items : List RewardItem) (s : CachedTables), ∃ p c,
      (Server.addItems s charId reason items).2 = withContent s p c ∧
      ((∀ item ∈ items, item.count ≠ 0) → p = addAll charId reason items s.persistent.content ∧
        c = addAll charId reason items s.cache.content)
  | [], s => ⟨s.persistent.content, s.cache.content, rfl, fun _ => ⟨rfl, rfl⟩⟩
  | item :: items, s => by
    unfold Server.addItems
    by_cases hzero : item.count = 0
    · rw [hzero, TableBacked.addItem_zero]
      exact ⟨s.persistent.content, s.cache.content, rfl,
        fun h => absurd hzero (h item List.mem_cons_self)⟩
    · rw [cached_addItem s charId item.itemId reason hzero]
      obtain ⟨p, c, heq, hall⟩ := cached_addItems items (withContent s
        (s.persistent.content.addItem charId item.itemId item.count reason).2
        (s.cache.content.addItem charId item.itemId item.count reason).2)
      exact ⟨p, c, heq, fun h => hall fun item hitem => h item (List.mem_cons_of_mem _ hitem)⟩

variable {s : CachedTables} {items : List RewardItem}

theorem cached_transaction_accepted (h : s.Closed) (hall : ∀ item ∈ items, item.count ≠ 0) :
    Server.addInTransaction s charId reason items =
      (true, ended s (addAll charId reason items s.persistent.content)
        (addAll charId reason items s.cache.content)) := by
  have hok := (Server.addItems_accepted charId reason items (beginTransaction s).2 hall).1
  obtain ⟨p, c, heq, hcontents⟩ := cached_addItems charId reason items (beginTransaction s).2
  obtain ⟨rfl, rfl⟩ := hcontents hall
  unfold Server.addInTransaction
  rcases hadd : Server.addItems (beginTransaction s).2 charId reason items with ⟨_ | _, s'⟩
  · rw [hadd] at hok
    cases hok
  · rw [hadd] at heq
    obtain rfl : s' = _ := heq
    simp only [hadd, cached_closed_commit _ _ h]
    rw [cached_closed_begin h]
    rfl

theorem cached_transaction_refused (h : s.Closed) (hnot : ¬∀ item ∈ items, item.count ≠ 0) :
    Server.addInTransaction s charId reason items =
      (false, ended s s.persistent.content s.cache.content) := by
  have hno := Server.addItems_refused charId reason items (beginTransaction s).2 hnot
  obtain ⟨p, c, heq, -⟩ := cached_addItems charId reason items (beginTransaction s).2
  unfold Server.addInTransaction
  rcases hadd : Server.addItems (beginTransaction s).2 charId reason items with ⟨_ | _, s'⟩
  · rw [hadd] at heq
    obtain rfl : s' = _ := heq
    simp only [hadd, cached_closed_rollback _ _ h]
  · rw [hadd] at hno
    cases hno

theorem cached_transaction_closed (h : s.Closed) (items : List RewardItem) :
    (Server.addInTransaction s charId reason items).2.Closed := by
  by_cases hall : ∀ item ∈ items, item.count ≠ 0
  · rw [cached_transaction_accepted charId reason h hall]
    exact ended_closed h _ _
  · rw [cached_transaction_refused charId reason h hall]
    exact ended_closed h _ _

end Items

namespace Server

section Updates

/-- A layer stores and logs of every character what it did before. -/
structure Same (t t' : InventoryTable) : Prop where
  inventories : ∀ charId, t'.loadInventory charId = t.loadInventory charId
  changeLogs : ∀ charId, t'.changeLog charId = t.changeLog charId

/-- The packet is one of an authenticated session, and gets to its handler with the update. -/
def Updates {σ : Type} (s : Server σ) (id : ℕ) (header : FrameHeader) (payload : Bytes) (now : Time)
    (request : InventoryUpdateNotify) : Prop :=
  PacketType.ofCode header.type = some .inventoryUpdateNotify ∧ (s.userContext id).isSome ∧
  ∃ session session' body, s.heap[id]? = some session ∧
    s.gatePacket session header payload now = (.passed body, session') ∧
    decodeInventoryUpdateNotify body = .ok request

theorem same_of_content {t t' : InventoryTable} (h : t'.content = t.content) : Same t t' := by
  refine ⟨fun charId => ?_, fun charId => ?_⟩
  · unfold InventoryTable.loadInventory
    rw [h]
  · unfold InventoryTable.changeLog
    rw [h]

theorem length_log_of_paid {charId : UInt64} {reason : Str} {items : List RewardItem}
    {c c' : TableContent} (h : Paid charId reason items c c') :
    (c'.changeLog.getD charId []).length = (c.changeLog.getD charId []).length + items.length := by
  rw [h.log, List.length_append, length_rewardChanges]

/-- What an update is answered. -/
def updateAnswer (ok : Bool) (version : ℕ) : InventoryUpdateResponse :=
  { success := ok
    code := if ok then str "OK" else str "INVENTORY_FAILED"
    message := if ok then str "Inventory updated" else str "Failed to update inventory"
    inventoryVersion := UInt64.ofNat version }

theorem handlePacket_update {σ : Type} [InventoryStorage σ] {s : Server σ} {id : ℕ}
    {header : FrameHeader} {payload : Bytes} {now : Time} {request : InventoryUpdateNotify}
    (h : s.Updates id header payload now request) {ok : Bool} {stored : σ}
    (hadd : addInTransaction s.inventoryStorage request.charId (str "inventory_update")
      request.items = (ok, stored)) :
    (s.handlePacket id header payload now).1 = some (Answer.frame ⟨.inventoryUpdateRes,
      updateAnswer ok (changeLog stored request.charId).length⟩ header.version) ∧
    (s.handlePacket id header payload now).2.inventoryStorage = stored := by
  obtain ⟨ht, hu, session, session', body, hs, hg, hd⟩ := h
  have hcontext := s.gatePacket_userContext session header payload now
  rw [hg] at hcontext
  rw [← (s.receive_calm payload hs hcontext).userContext] at hu
  obtain ⟨user, huser⟩ := Option.isSome_iff_exists.mp hu
  have hhandler : (s.receive id session' payload).handleInventoryUpdate id body =
      (updateAnswer ok (changeLog stored request.charId).length,
        { s.receive id session' payload with inventoryStorage := stored }) := by
    have hadd' : addInTransaction (s.receive id session' payload).inventoryStorage request.charId
      (str "inventory_update") request.items = (ok, stored) := hadd
    unfold handleInventoryUpdate
    rw [hd, huser]
    simp only [decodedOr, orRefuse, bind, Except.bind, pure, Except.pure, hadd']
    rfl
  unfold handlePacket
  rw [answerPacket_of_passed hs hg, dispatch_inventory ht, hhandler]
  exact ⟨rfl, rfl⟩

/-- In every state of a server with the storage it has by default, an inventory update of an
authenticated session that gives none of some item is answered INVENTORY_FAILED and leaves both
layers as they are; any other is answered OK, and both layers take all of its items. The answer
carries the length of the log there is then, and no transaction is left open. -/
theorem update_all_or_nothing (securityPolicy : SecurityPolicy) (tokenBytes : Draws UInt8)
    (seeds : Draws { n : UInt32 // n ≠ 0 }) (ticketBytes : Draws UInt8) (clock : Draws Time)
    (es : List ServerEvent) (id : ℕ) (header : FrameHeader) (payload : Bytes) (now : Time)
    (request : InventoryUpdateNotify) :
    let s := after serverStep
      (Server.new defaultStorage securityPolicy tokenBytes seeds ticketBytes clock) es
    let stored := s.inventoryStorage
    let stored' := (s.handlePacket id header payload now).2.inventoryStorage
    s.Updates id header payload now request →
    ∃ response : InventoryUpdateResponse,
      (s.handlePacket id header payload now).1 =
        some (Answer.frame ⟨.inventoryUpdateRes, response⟩ header.version) ∧
      ((∃ item ∈ request.items, item.count = 0) →
        response.success = false ∧ response.code = str "INVENTORY_FAILED" ∧
        Same stored.persistent stored'.persistent ∧ Same stored.cache stored'.cache) ∧
      ((∀ item ∈ request.items, item.count ≠ 0) →
        response.success = true ∧ response.code = str "OK" ∧
        Paid request.charId (str "inventory_update") request.items stored.persistent.content
          stored'.persistent.content ∧
        Paid request.charId (str "inventory_update") request.items stored.cache.content
          stored'.cache.content ∧
        (changeLog stored' request.charId).length =
          (changeLog stored request.charId).length + request.items.length) ∧
      response.inventoryVersion = UInt64.ofNat (changeLog stored' request.charId).length ∧
      stored'.Closed := by
  intro s stored stored' h
  have hclosed : stored.Closed := by
    refine stable (I := fun s : Server CachedTables => s.inventoryStorage.Closed)
      (fun s e h => ?_) es ⟨rfl, ⟨rfl, rfl⟩, ⟨rfl, rfl⟩⟩
    rcases s.step_storage e with heq | ⟨charId, reason, items, heq⟩
    · exact heq ▸ h
    · exact heq ▸ cached_transaction_closed charId reason h items
  by_cases hall : ∀ item ∈ request.items, item.count ≠ 0
  · have hadd := cached_transaction_accepted request.charId (str "inventory_update") hclosed hall
    obtain ⟨hframe, hstored⟩ := handlePacket_update h hadd
    have hpaid := fun c => addAll_paid request.charId (str "inventory_update") request.items c hall
    refine ⟨_, hframe, fun ⟨item, hitem, hzero⟩ => absurd hzero (hall item hitem), fun _ => ?_, ?_⟩
    · rw [show stored' = _ from hstored]
      exact ⟨rfl, rfl, hpaid _, hpaid _, length_log_of_paid (hpaid stored.persistent.content)⟩
    · rw [show stored' = _ from hstored]
      exact ⟨rfl, ended_closed hclosed _ _⟩
  · have hadd := cached_transaction_refused request.charId (str "inventory_update") hclosed hall
    obtain ⟨hframe, hstored⟩ := handlePacket_update h hadd
    refine ⟨_, hframe, fun _ => ?_, fun hno => absurd hno hall, ?_⟩
    · rw [show stored' = _ from hstored]
      exact ⟨rfl, rfl, same_of_content rfl, same_of_content rfl⟩
    · rw [show stored' = _ from hstored]
      exact ⟨rfl, ended_closed hclosed _ _⟩

/-- An update with one of an item and none of another. -/
def halfEmpty : Bytes := encodeInventoryUpdateNotify ⟨7001, [⟨601, 1⟩, ⟨602, 0⟩]⟩

theorem halfEmpty_updates :
    (after serverStep (still {}) playedAlone).Updates 1 (headerOf .inventoryUpdateNotify halfEmpty)
      halfEmpty 0 ⟨7001, [⟨601, 1⟩, ⟨602, 0⟩]⟩ := by
  have hsome : ((after serverStep (still {}) playedAlone).heap[1]?).isSome := by decide +kernel
  obtain ⟨session, hs⟩ := Option.isSome_iff_exists.mp hsome
  exact ⟨by decide, by decide +kernel, session, _, _, hs,
    gatePacket_open (by decide +kernel) (by decide +kernel) (by decide +kernel) (by decide) ..,
    by decide⟩

theorem update_all_or_nothing_halfEmpty :
    ∃ response : InventoryUpdateResponse,
      ((after serverStep (still {}) playedAlone).handlePacket 1
        (headerOf .inventoryUpdateNotify halfEmpty) halfEmpty 0).1 =
        some (Answer.frame ⟨.inventoryUpdateRes, response⟩ kMinProtocolVersion) ∧
      response.code = str "INVENTORY_FAILED" ∧
      Same (after serverStep (still {}) playedAlone).inventoryStorage.cache
        ((after serverStep (still {}) playedAlone).handlePacket 1
          (headerOf .inventoryUpdateNotify halfEmpty) halfEmpty 0).2.inventoryStorage.cache := by
  obtain ⟨response, hframe, hfailed, -⟩ := update_all_or_nothing _ _ _ _ _ playedAlone 1 _ _ 0 _
    halfEmpty_updates
  obtain ⟨-, hcode, -, hcache⟩ := hfailed ⟨⟨602, 0⟩, by decide, rfl⟩
  exact ⟨response, hframe, hcode, hcache⟩

end Updates

end Server

end DungeonHub
