import DungeonHub.Proofs.Accounting

/-!
# Who may write to an inventory

A dungeon result writes to the inventory of the character its session plays, as it ends the
instance. An inventory update writes to the inventory that it names.
-/

namespace DungeonHub

open Run Wire

namespace TableContent

section Added

variable (charId : UInt64) (reason : Str)

theorem addAll_inventories :
    ∀ {rewards : List RewardItem} {c : TableContent}, rewards ≠ [] →
      (∀ reward ∈ rewards, reward.count ≠ 0) →
      ∃ items, (addAll charId reason rewards c).inventories[charId]? = some items ∧
        ∀ k : ItemId, k ∈ items ↔ k ∈ c.itemsOf charId ∨ ∃ reward ∈ rewards, reward.itemId = k
  | [reward], c, _, h => by
    refine ⟨addTo (c.itemsOf charId) reward.itemId reward.count, ?_, fun k => ?_⟩
    · show (c.addItem charId reward.itemId reward.count reason).2.inventories[charId]? = _
      rw [addItem_eq _ _ _ _ (h reward List.mem_cons_self)]
      exact Dict.get?_insert_self ..
    · unfold addTo
      simp only [Dict.mem_insert, List.mem_singleton, exists_eq_left]
      exact or_comm
  | reward :: next :: rewards, c, _, h => by
    rw [List.forall_mem_cons] at h
    obtain ⟨items, hget, hmem⟩ := addAll_inventories
      (c := (c.addItem charId reward.itemId reward.count reason).2)
      (List.cons_ne_nil next rewards) h.2
    refine ⟨items, hget, fun k => ?_⟩
    have hone : (c.addItem charId reward.itemId reward.count reason).2.itemsOf charId =
        addTo (c.itemsOf charId) reward.itemId reward.count := by
      rw [addItem_eq _ _ _ _ h.1]
      exact Std.ExtTreeMap.getD_insert_self
    rw [hmem, hone]
    unfold addTo
    rw [Dict.mem_insert, List.exists_mem_cons_iff (a := reward), eq_comm, or_left_comm, or_assoc]

/-- Items whose addition leaves an inventory as it is: each is in it, and is given a multiple of
2^32 times. -/
def Vain (items : Option Items) (rewards : List RewardItem) : Prop :=
  ∀ reward ∈ rewards, (∃ held, items = some held ∧ reward.itemId ∈ held) ∧
    counted rewards reward.itemId % 2 ^ 32 = 0

theorem addAll_unchanged_iff {rewards : List RewardItem} {c : TableContent}
    (h : ∀ reward ∈ rewards, reward.count ≠ 0) :
    (addAll charId reason rewards c).inventories[charId]? = c.inventories[charId]? ↔
      Vain c.inventories[charId]? rewards := by
  rcases eq_or_ne rewards [] with rfl | hne
  · exact iff_of_true rfl fun reward hr => absurd hr List.not_mem_nil
  obtain ⟨items, hget, hmem⟩ := addAll_inventories charId reason (c := c)
    hne h
  have hpaid := (addAll_paid charId reason rewards c h).quantities
  have hitems : (addAll charId reason rewards c).itemsOf charId = items := by
    unfold itemsOf
    rw [Std.ExtTreeMap.getD_eq_getD_getElem?, hget]
    rfl
  rw [hitems] at hpaid
  have hheld : ∀ {held}, c.inventories[charId]? = some held → c.itemsOf charId = held := by
    intro held hc
    unfold itemsOf
    rw [Std.ExtTreeMap.getD_eq_getD_getElem?, hc]
    rfl
  rw [hget]
  constructor
  · intro heq reward hr
    rw [hheld heq.symm] at hmem hpaid
    refine ⟨⟨items, heq.symm, (hmem _).mpr (.inr ⟨reward, hr, rfl⟩)⟩, ?_⟩
    have hq := hpaid reward.itemId
    have hlt := UInt32.toNat_lt (items.getD reward.itemId 0)
    omega
  · intro hvain
    obtain ⟨reward, hr⟩ := List.exists_mem_of_ne_nil rewards hne
    obtain ⟨⟨held, hc, -⟩, -⟩ := hvain reward hr
    rw [hheld hc] at hmem hpaid
    rw [hc, Option.some.injEq]
    have hsame : ∀ k : ItemId, k ∈ items ↔ k ∈ held := by
      intro k
      rw [hmem, or_iff_left_iff_imp]
      rintro ⟨reward', hr', rfl⟩
      obtain ⟨⟨held', hc', hin⟩, -⟩ := hvain reward' hr'
      rw [hc, Option.some.injEq] at hc'
      exact hc' ▸ hin
    have hcount : ∀ k, counted rewards k % 2 ^ 32 = 0 := by
      intro k
      by_cases hk : ∃ reward ∈ rewards, reward.itemId = k
      · obtain ⟨reward', hr', rfl⟩ := hk
        exact (hvain reward' hr').2
      · unfold counted
        rw [List.filter_eq_nil_iff.mpr fun reward' hr' => by
          simpa using fun heq => hk ⟨reward', hr', heq⟩]
        rfl
    have hgetD : ∀ k : ItemId, items.getD k 0 = held.getD k 0 := by
      intro k
      have hq := hpaid k
      have hz := hcount k
      have hlt := UInt32.toNat_lt (held.getD k 0)
      refine UInt32.toNat_inj.mp ?_
      omega
    exact Dict.ext_mem hsame hgetD

end Added

end TableContent

section Ordered

theorem InventoryTable.ordered_step {s : InventoryTable} (h : TableBacked.Ordered s)
    (call : StorageCall) : TableBacked.Ordered (storageStep s call) := by
  cases call with
  | beginTransaction => exact ((TableBacked.begin s).2 h).1
  | commitTransaction t => exact (TableBacked.commit s t).2 h
  | rollbackTransaction t => exact (TableBacked.rollback s t).2 h
  | loadInventory id => exact h
  | saveInventory state => exact h
  | addItem id item quantity reason => exact h
  | removeItem id item quantity reason => exact h
  | setItem id item quantity reason => exact h

variable {π κ : Type} [InventoryStorage π] [InventoryStorage κ] [TableBacked π]

theorem CachedInventoryStorage.ordered_step
    (hπ : ∀ {p : π}, TableBacked.Ordered p → ∀ call, TableBacked.Ordered (storageStep p call))
    {s : CachedInventoryStorage π κ} (h : TableBacked.Ordered s) (call : StorageCall) :
    TableBacked.Ordered (storageStep s call) := by
  have hwrite : ∀ id (pw : π → Bool × π) (cw : κ → Bool × κ),
      TableBacked.Ordered (pw s.persistent).2 → LayersOrdered (s.writeThrough id pw cw).2 := by
    intro id pw cw hpw
    obtain ⟨-, ht, hn, hp⟩ := writeThrough_persistent s id pw cw
    refine ⟨?_, (persistent_load hp).2.2 hpw⟩
    rw [ht, hn]
    exact h.1
  cases call with
  | beginTransaction => exact ((TableBacked.begin s).2 h).1
  | commitTransaction t => exact (TableBacked.commit s t).2 h
  | rollbackTransaction t => exact (TableBacked.rollback s t).2 h
  | loadInventory id => exact (TableBacked.load s id).2.2 h
  | saveInventory state => exact ⟨h.1, hπ h.2 (.saveInventory state)⟩
  | addItem id item quantity reason =>
    exact hwrite id _ _ (hπ h.2 (.addItem id item quantity reason))
  | removeItem id item quantity reason =>
    exact hwrite id _ _ (hπ h.2 (.removeItem id item quantity reason))
  | setItem id item quantity reason => exact ⟨h.1, hπ h.2 (.setItem id item quantity reason)⟩

/-- Whatever calls were made of it, the storage of a server that is given none gives out ids that
are not in use. -/
theorem defaultStorage_ordered (calls : List StorageCall) :
    TableBacked.Ordered (after storageStep Server.defaultStorage calls) := by
  refine stable (I := TableBacked.Ordered) (fun _ call h =>
    CachedInventoryStorage.ordered_step InventoryTable.ordered_step h call) calls ?_
  exact ⟨fun _ ht => absurd ht Std.ExtTreeMap.not_mem_empty,
    fun _ ht => absurd ht Std.ExtTreeMap.not_mem_empty⟩

end Ordered

namespace Server

variable {σ : Type}

section Storage

variable [InventoryStorage σ] (s : Server σ) (id : ℕ)

/-- Results and inventory updates are the only packets that touch the storage. -/
theorem dispatch_storage {header : FrameHeader} (body : Bytes) (now : Time)
    (hresult : PacketType.ofCode header.type ≠ some .dungeonResultNotify)
    (hupdate : PacketType.ofCode header.type ≠ some .inventoryUpdateNotify) :
    (s.dispatch id header body now).2.inventoryStorage = s.inventoryStorage := by
  unfold dispatch
  rcases ht : PacketType.ofCode header.type with _ | type
  · rfl
  cases type with
  | loginReq => exact (s.handleLogin_books id body now).storage
  | logoutReq => exact (s.handleLogout_books id body).storage
  | sessionReconnectReq => exact (s.handleReconnect_books id body now).storage
  | matchReq => exact (s.handleMatch_books id header.version body now).storage
  | dungeonEnterReq => exact (s.handleEnter_books id body).storage
  | dungeonResultNotify => exact absurd ht hresult
  | inventoryUpdateNotify => exact absurd ht hupdate
  | guildCreateReq => exact (s.handleGuildCreate_books id body).storage
  | guildJoinReq =>
    rcases s.handleGuildJoin_books id body with ⟨-, -, hb⟩ | ⟨-, hb⟩
    · exact hb.storage
    · exact hb.storage
  | guildLeaveReq =>
    rcases s.handleGuildLeave_books id body with ⟨-, -, hb⟩ | ⟨-, hb⟩
    · exact hb.storage
    · exact hb.storage
  | chatSendReq =>
    rcases s.handleChat_books id body with ⟨-, -, hb⟩ | ⟨-, hb⟩
    · exact hb.storage
    · exact hb.storage
  | _ => rfl

theorem grantResult_storage (instanceId : ℕ) (rewards : List RewardItem) :
    (s.grantResult id instanceId rewards).2.inventoryStorage = s.inventoryStorage ∨
    ∃ charId reason items, (s.grantResult id instanceId rewards).2.inventoryStorage =
      (addInTransaction s.inventoryStorage charId reason items).2 := by
  unfold grantResult
  simp only [grant_rewards]
  split
  · exact .inl rfl
  · rename_i charId _
    by_cases hg : Grantable rewards
    · rw [if_pos hg]
      refine .inr ⟨charId, str "dungeon_reward", rewards, ?_⟩
      simp only []
      split
      · rename_i hadd
        exact (congrArg Prod.snd hadd).symm
      · rename_i hadd
        exact (congrArg Prod.snd hadd).symm
    · rw [if_neg hg]
      exact .inl rfl

/-- What a packet does to the storage: nothing, or it adds items in one transaction. -/
theorem answerPacket_storage (header : FrameHeader) (payload : Bytes) (now : Time) :
    (s.answerPacket id header payload now).2.inventoryStorage = s.inventoryStorage ∨
    ∃ charId reason items, (s.answerPacket id header payload now).2.inventoryStorage =
      (addInTransaction s.inventoryStorage charId reason items).2 := by
  unfold answerPacket
  split
  · exact .inl rfl
  · rename_i session _
    rcases s.gatePacket session header payload now with ⟨_ | reject | body, session'⟩
    · exact .inl rfl
    · exact .inl rfl
    by_cases hresult : PacketType.ofCode header.type = some .dungeonResultNotify
    · simp only [dispatch_result hresult]
      rcases (s.receive id session' payload).handleResult_cases id body with
        ⟨request, instanceId, record, next, -, -, heq⟩ | ⟨-, -, heq⟩
      · rw [heq]
        exact grantResult_storage _ id instanceId request.rewards
      · rw [heq]
        exact .inl rfl
    by_cases hupdate : PacketType.ofCode header.type = some .inventoryUpdateNotify
    · simp only [dispatch_inventory hupdate]
      rcases (s.receive id session' payload).handleInventoryUpdate_cases id body with
        ⟨request, -, -, -, heq⟩ | ⟨-, -, heq⟩
      · rw [heq]
        exact .inr ⟨_, _, _, rfl⟩
      · rw [heq]
        exact .inl rfl
    · exact .inl (dispatch_storage _ id body now hresult hupdate)

omit [InventoryStorage σ] in
theorem removeSession_storage : (s.removeSession id).inventoryStorage = s.inventoryStorage := by
  obtain ⟨heap, clock, h, -⟩ := s.removeSession_delivers id
  rw [h]
  rfl

omit [InventoryStorage σ] in
theorem tick_storage (now : Time) : (s.tick now).inventoryStorage = s.inventoryStorage := by
  have hticked : (s.tickSessions now).2.inventoryStorage = s.inventoryStorage := by
    unfold tickSessions
    refine List.foldlRecOn (motive := fun p : List ℕ × Server σ =>
      p.2.inventoryStorage = s.inventoryStorage) _ _ rfl ?_
    rintro ⟨toRemove, t⟩ ht id -
    simp only []
    split
    · exact ht
    · exact ht
  exact List.foldlRecOn (motive := fun t : Server σ => t.inventoryStorage = s.inventoryStorage)
    _ _ hticked fun t ht id _ => (t.removeSession_storage id).trans ht

/-- What a step does to the storage: nothing, or it adds items in one transaction. -/
theorem step_storage (e : ServerEvent) :
    (serverStep s e).inventoryStorage = s.inventoryStorage ∨
    ∃ charId reason items, (serverStep s e).inventoryStorage =
      (addInTransaction s.inventoryStorage charId reason items).2 := by
  cases e with
  | packet id header payload now => exact s.answerPacket_storage id header payload now
  | tick now => exact .inl (s.tick_storage now)
  | removeSession id => exact .inl (s.removeSession_storage id)
  | forceDisconnect id =>
    show (s.forceDisconnect id).2.inventoryStorage = _ ∨ _
    unfold forceDisconnect
    split
    · exact .inl rfl
    · exact .inl (s.removeSession_storage id)
  | createSession config now => exact .inl rfl
  | party call => exact .inl rfl
  | inst call => exact .inl rfl
  | session id call => exact .inl rfl

theorem step_ordered [TableBacked σ] {s : Server σ} (h : TableBacked.Ordered s.inventoryStorage)
    (e : ServerEvent) : TableBacked.Ordered (serverStep s e).inventoryStorage := by
  rcases s.step_storage e with heq | ⟨charId, reason, items, heq⟩
  · exact heq ▸ h
  · exact heq ▸ addInTransaction_ordered _ charId reason items h

end Storage

section Authority

variable [InventoryStorage σ] [TableBacked σ] {s s' : Server σ} {id : ℕ}

/-- What is stored of a character's inventory, if there is one: its items only, not its change
log. -/
def inventoryOf (s : Server σ) (charId : UInt64) : Option Items :=
  (TableBacked.content s.inventoryStorage).inventories[charId]?

omit [InventoryStorage σ] [TableBacked σ] in
/-- The instance that the session is bound to has come to its end, cleared or failed. -/
def Concludes (s s' : Server σ) (id : ℕ) : Prop :=
  ∃ instanceId record record', s.sessionInstances[id]? = some instanceId ∧
    s.instanceManager.instances[instanceId]? = some record ∧
    s'.instanceManager.instances[instanceId]? = some record' ∧
    record.state ≠ record'.state ∧ (record'.state = .clear ∨ record'.state = .fail)

/-- No inventory has changed but that of the session's character, as the session's instance came to
its end. -/
def Authorized (s s' : Server σ) (id : ℕ) : Prop :=
  ∀ charId, s'.inventoryOf charId ≠ s.inventoryOf charId →
    s.sessionCharacters[id]? = some charId ∧ Concludes s s' id

/-- An inventory update of a user that names an inventory and some of each of its items, and does
not leave the inventory as it is. -/
def Overwrites (s : Server σ) (id : ℕ) (body : Bytes) : Prop :=
  ∃ request, decodeInventoryUpdateNotify body = .ok request ∧ (s.userContext id).isSome ∧
    (∀ item ∈ request.items, item.count ≠ 0) ∧
    ¬ TableContent.Vain (s.inventoryOf request.charId) request.items

theorem authorized_of_storage (h : s'.inventoryStorage = s.inventoryStorage) :
    Authorized s s' id := by
  intro charId hne
  unfold inventoryOf at hne
  exact absurd (by rw [h]) hne

theorem handleResult_authorized (s : Server σ) (id : ℕ) (payload : Bytes) :
    Authorized s (s.handleResult id payload).2 id := by
  rcases s.handleResult_cases id payload with
    ⟨request, instanceId, record, next, hends, hnext, heq⟩ | ⟨-, -, heq⟩
  · rw [heq]
    rcases grantResult_paid { s with instanceManager := { s.instanceManager with
        instances := s.instanceManager.instances.insert instanceId
          { record with state := next } } } id instanceId request.rewards with
      ⟨charId, hchar, -, -, hpaid⟩ | ⟨-, hs⟩
    · intro other hne
      have hother : other = charId := by
        by_contra hno
        exact hne (hpaid.others other hno).1
      subst hother
      refine ⟨hchar, instanceId, record, { record with state := next }, hends.bound, hends.inst,
        ?_, ?_, hnext⟩
      · rw [grantResult_instances]
        exact Dict.get?_insert_self ..
      · rw [hends.playing]
        rcases hnext with rfl | rfl
        · exact nofun
        · exact nofun
    · exact authorized_of_storage hs
  · rw [heq]
    exact authorized_of_storage rfl

omit [InventoryStorage σ] [TableBacked σ] in
theorem not_concludes (h : s'.instanceManager = s.instanceManager) : ¬ Concludes s s' id := by
  rintro ⟨instanceId, record, record', -, hr, hr', hne, -⟩
  rw [h, hr, Option.some.injEq] at hr'
  exact hne (by rw [hr'])

theorem handleInventoryUpdate_authorized (s : Server σ) (id : ℕ) (payload : Bytes)
    (ho : TableBacked.Ordered s.inventoryStorage) :
    Authorized s (s.handleInventoryUpdate id payload).2 id ↔ ¬ Overwrites s id payload := by
  rcases s.handleInventoryUpdate_cases id payload with ⟨request, hd, hu, -, heq⟩ | ⟨hno, -, heq⟩
  · have hover : Overwrites s id payload ↔ (∀ item ∈ request.items, item.count ≠ 0) ∧
        ¬ TableContent.Vain (s.inventoryOf request.charId) request.items := by
      unfold Overwrites
      simp only [hd, Except.ok.injEq, exists_eq_left', hu, true_and]
    rw [hover, not_and, not_not, heq]
    by_cases hall : ∀ item ∈ request.items, item.count ≠ 0
    · obtain ⟨-, hc⟩ := addInTransaction_accepted s.inventoryStorage request.charId
        (str "inventory_update") hall
      have hvain : _ ↔ TableContent.Vain (s.inventoryOf request.charId) request.items :=
        TableContent.addAll_unchanged_iff request.charId (str "inventory_update") hall
      rw [← hc] at hvain
      constructor
      · intro hauth _
        by_contra hno
        exact not_concludes rfl (hauth request.charId fun h => hno (hvain.mp h)).2
      · intro h charId hne
        by_cases hchar : charId = request.charId
        · exact absurd (hchar ▸ hvain.mpr (h hall)) hne
        · obtain ⟨-, hpaid⟩ := addInTransaction_paid s.inventoryStorage request.charId
            (str "inventory_update") hall
          exact absurd (hpaid.others charId hchar).1 hne
    · refine iff_of_true (fun charId hne => ?_) fun h => absurd h hall
      refine absurd ?_ hne
      have hsame := (addInTransaction_refused s.inventoryStorage request.charId
        (str "inventory_update") hall).2 ho
      unfold inventoryOf
      rw [hsame]
  · rw [heq]
    exact iff_of_true (authorized_of_storage rfl) fun ⟨request, hd, hu, _⟩ => hno request hd hu

/-- The packet gets to its handler as such an inventory update. -/
def OverwritesAt (s : Server σ) (id : ℕ) (header : FrameHeader) (payload : Bytes) (now : Time) :
    Prop :=
  PacketType.ofCode header.type = some .inventoryUpdateNotify ∧
  ∃ session session' body, s.heap[id]? = some session ∧
    s.gatePacket session header payload now = (.passed body, session') ∧ Overwrites s id body

theorem answerPacket_authorized (header : FrameHeader) (payload : Bytes) (now : Time)
    (ho : TableBacked.Ordered s.inventoryStorage) :
    Authorized s (s.answerPacket id header payload now).2 id ↔
      ¬ OverwritesAt s id header payload now := by
  rcases hs : s.heap[id]? with _ | session
  · refine iff_of_true (authorized_of_storage ?_) ?_
    · unfold answerPacket
      rw [hs]
    · rintro ⟨-, _, _, _, hs', -⟩
      rw [hs] at hs'
      cases hs'
  have hat : ∀ {gated session'}, s.gatePacket session header payload now = (gated, session') →
      (OverwritesAt s id header payload now ↔
        PacketType.ofCode header.type = some .inventoryUpdateNotify ∧
          ∃ body, gated = .passed body ∧ Overwrites s id body) := by
    intro gated session' hg
    unfold OverwritesAt
    exact and_congr_right fun _ => exists_passed_iff hs hg
  have huser := s.gatePacket_userContext session header payload now
  rw [answerPacket_of_some hs]
  rcases hg : s.gatePacket session header payload now with ⟨_ | reject | body, session'⟩
  · rw [hat hg]
    exact iff_of_true (authorized_of_storage rfl) (by simp)
  · rw [hat hg]
    exact iff_of_true (authorized_of_storage rfl) (by simp)
  rw [hg] at huser
  rw [hat hg]
  simp only [Gated.passed.injEq, exists_eq_left']
  by_cases hupdate : PacketType.ofCode header.type = some .inventoryUpdateNotify
  · have hover : Overwrites (s.receive id session' payload) id body ↔ Overwrites s id body := by
      unfold Overwrites
      rw [(s.receive_calm payload hs huser).userContext]
      rfl
    rw [← hover, dispatch_inventory hupdate]
    simp only [hupdate, true_and]
    exact handleInventoryUpdate_authorized (s.receive id session' payload) id body ho
  · refine iff_of_true ?_ fun h => hupdate h.1
    by_cases hresult : PacketType.ofCode header.type = some .dungeonResultNotify
    · rw [dispatch_result hresult]
      exact handleResult_authorized (s.receive id session' payload) id body
    · exact authorized_of_storage (dispatch_storage _ id body now hresult hupdate)

/-- In every state of a server, a packet changes at most the inventory of its session's character,
as the session's instance ends, unless it is an inventory update that changes what it names. -/
theorem authorized_iff (inventoryStorage : σ) (hstorage : TableBacked.Ordered inventoryStorage)
    (securityPolicy : SecurityPolicy) (tokenBytes : Draws UInt8)
    (seeds : Draws { n : UInt32 // n ≠ 0 }) (ticketBytes : Draws UInt8) (clock : Draws Time)
    (es : List ServerEvent) (id : ℕ) (header : FrameHeader) (payload : Bytes) (now : Time) :
    let s := after serverStep
      (Server.new inventoryStorage securityPolicy tokenBytes seeds ticketBytes clock) es
    Authorized s (s.handlePacket id header payload now).2 id ↔
      ¬ OverwritesAt s id header payload now := by
  intro s
  have ho : TableBacked.Ordered s.inventoryStorage :=
    stable (I := fun s : Server σ => TableBacked.Ordered s.inventoryStorage)
      (fun _ e h => step_ordered h e) es hstorage
  exact answerPacket_authorized header payload now ho

/-- The result of an instance changes what it may. -/
theorem authorized_iff_alone :
    Authorized (after serverStep (still {}) playedAlone)
      ((after serverStep (still {}) playedAlone).handlePacket 1
        (headerOf .dungeonResultNotify (resultOf [⟨1, 2⟩])) (resultOf [⟨1, 2⟩]) 0).2 1 :=
  (authorized_iff defaultStorage (defaultStorage_ordered []) _ _ _ _ _ playedAlone 1 _ _ 0).mpr
    fun h => absurd h.1 (by decide)

/-- An update of the inventory of another character. -/
def granting : Bytes := encodeInventoryUpdateNotify ⟨99, [⟨1, 1⟩]⟩

/-- A user who plays character 7 adds an item to the inventory of character 99. -/
theorem update_overwrites :
    ¬ ∀ (es : List ServerEvent) (id : ℕ) (header : FrameHeader) (payload : Bytes) (now : Time),
      Authorized (after serverStep (still {}) es)
        ((after serverStep (still {}) es).handlePacket id header payload now).2 id := by
  intro h
  have hchar := (h playedAlone 1 (headerOf .inventoryUpdateNotify granting) granting 0 99
    (by decide +kernel)).1
  exact absurd hchar (by decide +kernel)

end Authority

end Server

end DungeonHub
