import DungeonHub.Proofs.Authority
import DungeonHub.Proofs.ChangeLog

/-!
# What inventories are paid from

Every item in an inventory comes from a packet that was answered with success, a dungeon result or
an inventory update. The table below a server is what these deposits make of it, one after the
other.
-/

namespace DungeonHub

open Run Wire TableContent

/-- Items that are put into one inventory at a time. -/
structure Deposit where
  charId : UInt64
  reason : Str
  items : List RewardItem
  deriving DecidableEq

/-- There is some of each item. -/
def Deposit.Full (d : Deposit) : Prop := ∀ item ∈ d.items, item.count ≠ 0

/-- A change without its id. -/
def unnumbered (change : InventoryChange) : InventoryChange := { change with changeId := 0 }

/-- What a log says of a deposit. -/
def Deposit.lines (d : Deposit) : List InventoryChange :=
  d.items.map fun item => ⟨0, d.charId, item.itemId, item.count, .add, d.reason⟩

/-- The table once the deposit is in it. -/
def TableContent.deposit (c : TableContent) (d : Deposit) : TableContent :=
  addAll d.charId d.reason d.items c

section Ledger

theorem unnumbered_rewardChanges (charId : UInt64) (reason : Str) :
    ∀ (items : List RewardItem) (n : ℕ),
      (rewardChanges charId reason n items).map unnumbered = Deposit.lines ⟨charId, reason, items⟩
  | [], _ => rfl
  | item :: items, n => by
    rw [rewardChanges, List.map_cons, unnumbered_rewardChanges charId reason items (n + 1)]
    rfl

theorem log_deposit {c : TableContent} {d : Deposit} (hd : d.Full) (charId : UInt64) :
    ∃ new, (c.deposit d).log charId = c.log charId ++ new ∧
      new.map unnumbered = if d.charId = charId then d.lines else [] := by
  have hpaid := addAll_paid d.charId d.reason d.items c hd
  by_cases h : d.charId = charId
  · subst h
    exact ⟨_, hpaid.log, by rw [if_pos rfl]; exact unnumbered_rewardChanges ..⟩
  · refine ⟨[], ?_, by rw [if_neg h]; rfl⟩
    rw [TableContent.log_eq, TableContent.log_eq, List.append_nil]
    exact congrArg (Option.getD · []) (hpaid.others charId (Ne.symm h)).2

theorem held_deposit {c : TableContent} {d : Deposit} (hd : d.Full) (charId : UInt64)
    (item : ItemId) :
    (quantities ((c.deposit d).itemsOf charId) item).toNat =
      ((quantities (c.itemsOf charId) item).toNat +
        if d.charId = charId then counted d.items item else 0) % 2 ^ 32 := by
  have hpaid := addAll_paid d.charId d.reason d.items c hd
  by_cases h : d.charId = charId
  · subst h
    rw [if_pos rfl]
    exact hpaid.quantities item
  · have hsame : (c.deposit d).itemsOf charId = c.itemsOf charId := by
      rw [itemsOf_eq, itemsOf_eq]
      exact congrArg (Option.getD · ∅) (hpaid.others charId (Ne.symm h)).1
    have hlt := UInt32.toNat_lt (quantities (c.itemsOf charId) item)
    rw [if_neg h, hsame]
    omega

theorem addAll_audited (charId : UInt64) (reason : Str) :
    ∀ (items : List RewardItem) {c : TableContent}, Audited c →
      Audited (addAll charId reason items c)
  | [], _, h => h
  | item :: items, _, h =>
    addAll_audited charId reason items (addItem_audited item.itemId item.count reason h charId)

/-- The deposits that go to one character. -/
def depositsTo (charId : UInt64) (ds : List Deposit) : List Deposit :=
  ds.filter fun d => d.charId = charId

theorem depositsTo_cons (charId : UInt64) (d : Deposit) (ds : List Deposit) :
    depositsTo charId (d :: ds) =
      if d.charId = charId then d :: depositsTo charId ds else depositsTo charId ds := by
  unfold depositsTo
  by_cases h : d.charId = charId <;> simp [h]

theorem counted_append (l l' : List RewardItem) (item : ItemId) :
    counted (l ++ l') item = counted l item + counted l' item := by
  simp [counted]

/-- The log of a character after deposits: what there was, and a line for each item of those that go
to the character. -/
theorem log_deposits (charId : UInt64) :
    ∀ {ds : List Deposit} {c : TableContent}, (∀ d ∈ ds, d.Full) →
      ∃ new, (ds.foldl TableContent.deposit c).log charId = c.log charId ++ new ∧
        new.map unnumbered = (depositsTo charId ds).flatMap Deposit.lines
  | [], c, _ => ⟨[], (List.append_nil _).symm, rfl⟩
  | d :: ds, c, h => by
    rw [List.forall_mem_cons] at h
    obtain ⟨first, hfirst, hline⟩ := log_deposit (c := c) h.1 charId
    obtain ⟨rest, hrest, hlines⟩ := log_deposits charId (c := c.deposit d) h.2
    refine ⟨first ++ rest, ?_, ?_⟩
    · rw [List.foldl_cons, hrest, hfirst, List.append_assoc]
    · rw [List.map_append, hline, hlines, depositsTo_cons]
      split_ifs <;> simp

/-- What a character holds after deposits: what there was, and what those that go to the character
count up to. -/
theorem held_deposits (charId : UInt64) (item : ItemId) :
    ∀ {ds : List Deposit} {c : TableContent}, (∀ d ∈ ds, d.Full) →
      (quantities ((ds.foldl TableContent.deposit c).itemsOf charId) item).toNat =
        ((quantities (c.itemsOf charId) item).toNat +
          counted ((depositsTo charId ds).flatMap Deposit.items) item) % 2 ^ 32
  | [], c, _ => by
    have hlt := UInt32.toNat_lt (quantities (c.itemsOf charId) item)
    simp only [List.foldl_nil, depositsTo, List.filter_nil, List.flatMap_nil, counted,
      List.map_nil, List.sum_nil]
    omega
  | d :: ds, c, h => by
    rw [List.forall_mem_cons] at h
    rw [List.foldl_cons, held_deposits charId item h.2, held_deposit h.1, depositsTo_cons]
    split_ifs
    · rw [List.flatMap_cons, counted_append]
      omega
    · omega

theorem audited_deposits :
    ∀ (ds : List Deposit) {c : TableContent}, Audited c →
      Audited (ds.foldl TableContent.deposit c)
  | [], _, h => h
  | d :: ds, _, h => audited_deposits ds (addAll_audited d.charId d.reason d.items h)

end Ledger

namespace Server

variable {σ : Type} [InventoryStorage σ]

section Deposits

omit [InventoryStorage σ] in
/-- What a request would put where: a result its rewards, for the character of the session, and an
update its items, for the character that it names. -/
def requested (s : Server σ) (id : ℕ) (body : Bytes) : PacketType → Option Deposit
  | .dungeonResultNotify => do
    let request ← (decodeDungeonResultNotify body).toOption
    let charId ← s.sessionCharacters[id]?
    return ⟨charId, str "dungeon_reward", request.rewards⟩
  | .inventoryUpdateNotify => do
    let request ← (decodeInventoryUpdateNotify body).toOption
    return ⟨request.charId, str "inventory_update", request.items⟩
  | _ => none

omit [InventoryStorage σ] in
/-- What a packet that is answered so has deposited. -/
def granted (s : Server σ) (id : ℕ) (header : FrameHeader) (body : Bytes)
    (answer : Option Answer) : Option Deposit :=
  if succeeded answer then (PacketType.ofCode header.type).bind (s.requested id body) else none

/-- What an event deposits: what a packet asks for that its session may send and that is answered
with success. -/
def deposited (s : Server σ) : ServerEvent → Option Deposit
  | .packet id header payload now =>
    match s.heap[id]? with
    | none => none
    | some session =>
      match (s.gatePacket session header payload now).1 with
      | .passed body => s.granted id header body (s.answerPacket id header payload now).1
      | _ => none
  | _ => none

/-- All that has been deposited in a run. -/
def deposits (s : Server σ) (es : List ServerEvent) : List Deposit :=
  (trail serverStep s es).filterMap fun x => x.1.deposited x.2

end Deposits

section Posting

variable [TableBacked σ]

/-- The table below the server takes a deposit, if there is one. -/
def Posts (s s' : Server σ) (deposit : Option Deposit) : Prop :=
  (∀ d ∈ deposit, d.Full) ∧ TableBacked.content s'.inventoryStorage =
    deposit.elim (TableBacked.content s.inventoryStorage)
      (TableBacked.content s.inventoryStorage).deposit

theorem posts_none {s s' : Server σ} (h : s'.inventoryStorage = s.inventoryStorage) :
    Posts s s' none :=
  ⟨by simp, by rw [h]; rfl⟩

/-- A result that is answered with success has given the session's character its rewards. -/
theorem grantResult_posts (s : Server σ) (id instanceId : ℕ) (rewards : List RewardItem) :
    ((s.grantResult id instanceId rewards).1.success = false ∧
      Posts s (s.grantResult id instanceId rewards).2 none) ∨
    ((s.grantResult id instanceId rewards).1.success = true ∧
      ∃ charId, s.sessionCharacters[id]? = some charId ∧
        Posts s (s.grantResult id instanceId rewards).2
          (some ⟨charId, str "dungeon_reward", rewards⟩)) := by
  unfold grantResult
  simp only [grant_rewards]
  rcases hchar : s.sessionCharacters[id]? with _ | charId
  · exact .inl ⟨rfl, posts_none rfl⟩
  by_cases hg : Grantable rewards
  · obtain ⟨hok, hcontent⟩ := addInTransaction_accepted s.inventoryStorage charId
      (str "dungeon_reward") hg.1
    rw [if_pos hg]
    simp only []
    rcases hadd : addInTransaction s.inventoryStorage charId (str "dungeon_reward") rewards with
      ⟨_ | _, inventoryStorage⟩
    · rw [hadd] at hok
      cases hok
    · rw [hadd] at hcontent
      exact .inr ⟨rfl, charId, rfl, by simpa [Deposit.Full] using hg.1, hcontent⟩
  · rw [if_neg hg]
    exact .inl ⟨rfl, posts_none rfl⟩

theorem handleResult_posts {s : Server σ} {id : ℕ} {header : FrameHeader} (body : Bytes)
    (ht : PacketType.ofCode header.type = some .dungeonResultNotify) :
    Posts s (s.handleResult id body).2 (s.granted id header body
      (some ⟨.dungeonResultRes, (s.handleResult id body).1⟩)) := by
  unfold granted succeeded
  simp only [Option.map_some, Option.getD_some, Answer.success, ht, Option.bind_some, requested]
  rcases s.handleResult_cases id body with
    ⟨request, instanceId, record, next, hends, -, heq⟩ | ⟨-, hfalse, heq⟩
  · rw [heq, hends.decoded]
    rcases grantResult_posts { s with instanceManager := { s.instanceManager with
        instances := s.instanceManager.instances.insert instanceId
          { record with state := next } } } id instanceId request.rewards with
      ⟨hfalse, hposts⟩ | ⟨htrue, charId, hchar, hposts⟩
    · rw [hfalse]
      exact hposts
    · have hchar' : s.sessionCharacters[id]? = some charId := hchar
      rw [htrue, hchar']
      exact hposts
  · rw [hfalse, heq]
    exact posts_none rfl

theorem handleInventoryUpdate_posts {s : Server σ} {id : ℕ} {header : FrameHeader} (body : Bytes)
    (ht : PacketType.ofCode header.type = some .inventoryUpdateNotify)
    (ho : TableBacked.Ordered s.inventoryStorage) :
    Posts s (s.handleInventoryUpdate id body).2 (s.granted id header body
      (some ⟨.inventoryUpdateRes, (s.handleInventoryUpdate id body).1⟩)) := by
  unfold granted succeeded
  simp only [Option.map_some, Option.getD_some, Answer.success, ht, Option.bind_some, requested]
  rcases s.handleInventoryUpdate_cases id body with
    ⟨request, hdecoded, -, hsuccess, heq⟩ | ⟨-, hfalse, heq⟩
  · rw [hsuccess, heq, hdecoded]
    by_cases hall : ∀ item ∈ request.items, item.count ≠ 0
    · obtain ⟨hok, hcontent⟩ := addInTransaction_accepted s.inventoryStorage request.charId
        (str "inventory_update") hall
      rw [hok]
      refine ⟨fun d hd => ?_, hcontent⟩
      obtain rfl : _ = d := Option.some.inj hd
      exact hall
    · obtain ⟨hno, hcontent⟩ := addInTransaction_refused s.inventoryStorage request.charId
        (str "inventory_update") hall
      rw [hno]
      exact ⟨by simp, hcontent ho⟩
  · rw [hfalse, heq]
    exact posts_none rfl

theorem dispatch_posts {s : Server σ} (id : ℕ) (header : FrameHeader) (body : Bytes) (now : Time)
    (ho : TableBacked.Ordered s.inventoryStorage) :
    Posts s (s.dispatch id header body now).2
      (s.granted id header body (s.dispatch id header body now).1) := by
  by_cases hresult : PacketType.ofCode header.type = some .dungeonResultNotify
  · rw [dispatch_result hresult]
    exact handleResult_posts body hresult
  by_cases hupdate : PacketType.ofCode header.type = some .inventoryUpdateNotify
  · rw [dispatch_inventory hupdate]
    exact handleInventoryUpdate_posts body hupdate ho
  · have hnone : s.granted id header body (s.dispatch id header body now).1 = none := by
      unfold granted requested
      rcases ht : PacketType.ofCode header.type with _ | type
      · simp
      · cases type <;> simp_all
    rw [hnone]
    exact posts_none (s.dispatch_storage id body now hresult hupdate)

/-- A step puts into the table what it deposits, and nothing else. -/
theorem step_posts {s : Server σ} (e : ServerEvent) (ho : TableBacked.Ordered s.inventoryStorage) :
    Posts s (serverStep s e) (s.deposited e) := by
  cases e with
  | packet id header payload now =>
    show Posts s (s.answerPacket id header payload now).2 _
    unfold deposited
    rcases hs : s.heap[id]? with _ | session
    · simp only [answerPacket, hs]
      exact posts_none rfl
    · rcases hg : s.gatePacket session header payload now with ⟨_ | reject | body, session'⟩ <;>
        simp only [hs, answerPacket_of_some hs, hg]
      · exact posts_none rfl
      · exact posts_none rfl
      · exact dispatch_posts (s := s.receive id session' payload) id header body now ho
  | tick now => exact posts_none (s.tick_storage now)
  | removeSession id => exact posts_none (s.removeSession_storage id)
  | forceDisconnect id =>
    refine posts_none ?_
    show (s.forceDisconnect id).2.inventoryStorage = _
    unfold forceDisconnect
    split
    · rfl
    · exact s.removeSession_storage id
  | createSession config now => exact posts_none rfl
  | party call => exact posts_none rfl
  | inst call => exact posts_none rfl
  | session id call => exact posts_none rfl

/-- The table after a run is what the deposits of the run make of it. -/
theorem content_run {s : Server σ} (ho : TableBacked.Ordered s.inventoryStorage)
    (es : List ServerEvent) :
    (∀ d ∈ s.deposits es, d.Full) ∧
      TableBacked.content (after serverStep s es).inventoryStorage =
        (s.deposits es).foldl TableContent.deposit (TableBacked.content s.inventoryStorage) := by
  refine (history (S := Server σ) (E := ServerEvent)
    (I := fun t l => TableBacked.Ordered t.inventoryStorage ∧
      (∀ d ∈ l.filterMap fun x => x.1.deposited x.2, d.Full) ∧
      TableBacked.content t.inventoryStorage = (l.filterMap fun x => x.1.deposited x.2).foldl
        TableContent.deposit (TableBacked.content s.inventoryStorage))
    ?_ es s [] ⟨ho, by simp, rfl⟩).2
  rintro t l e ⟨ht, hfull, hcontent⟩
  obtain ⟨hnew, hposts⟩ := step_posts e ht
  refine ⟨step_ordered ht e, ?_⟩
  rcases hd : t.deposited e with _ | d
  · rw [hd] at hposts
    simp only [List.filterMap_append, List.filterMap_cons, hd, List.filterMap_nil, List.append_nil]
    exact ⟨hfull, hposts.trans hcontent⟩
  · rw [hd] at hposts hnew
    simp only [List.filterMap_append, List.filterMap_cons, hd, List.filterMap_nil,
      List.foldl_append, List.foldl_cons, List.foldl_nil, ← hcontent]
    exact ⟨List.forall_mem_append.mpr ⟨hfull, List.forall_mem_singleton.mpr (hnew d rfl)⟩, hposts⟩

end Posting

section Books

variable [TableBacked σ]

/-- In every run of a server over a storage whose logs are in step, a character's log is what it was
at first and a line for each item that was deposited to the character, in order; it only grows, its
ids go up, and it replays to what the character holds, which is what there was at first and what the
deposits count up to. -/
theorem inventories_paid_for (inventoryStorage : σ)
    (hstorage : TableBacked.Ordered inventoryStorage)
    (haudited : Audited (TableBacked.content inventoryStorage)) (securityPolicy : SecurityPolicy)
    (tokenBytes : Draws UInt8) (seeds : Draws { n : UInt32 // n ≠ 0 }) (ticketBytes : Draws UInt8)
    (clock : Draws Time) (es es' : List ServerEvent) (charId : UInt64) :
    let start := Server.new inventoryStorage securityPolicy tokenBytes seeds ticketBytes clock
    let log := fun es =>
      InventoryStorage.changeLog (after serverStep start es).inventoryStorage charId
    let received := depositsTo charId (start.deposits es)
    (log es).map unnumbered = (log []).map unnumbered ++ received.flatMap Deposit.lines ∧
    log es <+: log (es ++ es') ∧
    ((log es).Pairwise fun a b => a.changeId < b.changeId) ∧
    ∃ held held₀, replayLog (log es) = some held ∧ replayLog (log []) = some held₀ ∧
      ∀ item, (held item).toNat =
        ((held₀ item).toNat + counted (received.flatMap Deposit.items) item) % 2 ^ 32 := by
  intro start log received
  have hlog : ∀ es, log es =
      (TableBacked.content (after serverStep start es).inventoryStorage).log charId :=
    fun es => TableBacked.changeLog_eq _ charId
  have ho : TableBacked.Ordered (after serverStep start es).inventoryStorage :=
    stable (I := fun s : Server σ => TableBacked.Ordered s.inventoryStorage)
      (fun _ e h => step_ordered h e) es hstorage
  obtain ⟨hfull, hcontent⟩ := content_run (s := start) hstorage es
  obtain ⟨hfull', hcontent'⟩ := content_run ho es'
  obtain ⟨new, hnew, hlines⟩ := log_deposits charId
    (c := TableBacked.content start.inventoryStorage) hfull
  obtain ⟨next, hnext, -⟩ := log_deposits charId
    (c := TableBacked.content (after serverStep start es).inventoryStorage) hfull'
  have hnow : Audited (TableBacked.content (after serverStep start es).inventoryStorage) := by
    rw [hcontent]
    exact audited_deposits _ haudited
  refine ⟨?_, ?_, ?_, quantities ((TableBacked.content
    (after serverStep start es).inventoryStorage).itemsOf charId),
    quantities ((TableBacked.content inventoryStorage).itemsOf charId), ?_, ?_, fun item => ?_⟩
  · rw [hlog, hlog, hcontent, hnew, List.map_append, hlines]
    rfl
  · rw [hlog, hlog, after_append, hcontent', hnext]
    exact List.prefix_append _ _
  · rw [hlog]
    exact hnow.increasing charId
  · rw [hlog]
    exact hnow.replayed charId
  · rw [hlog]
    exact haudited.replayed charId
  · rw [hcontent]
    exact held_deposits charId item hfull

/-- A result puts a line into the log of the session's character. -/
theorem inventories_paid_for_alone :
    (InventoryStorage.changeLog (after serverStep (still {}) (playedAlone ++
      [.packet 1 (headerOf .dungeonResultNotify (resultOf [⟨1, 2⟩])) (resultOf [⟨1, 2⟩])
        0])).inventoryStorage 7).map unnumbered =
      [⟨0, 7, 1, 2, .add, str "dungeon_reward"⟩] :=
  (inventories_paid_for defaultStorage (defaultStorage_ordered []) audited_new _ _ _ _ _ _ []
    7).1.trans (by decide +kernel)

end Books

end Server

end DungeonHub
