import DungeonHub.Lib.Run
import DungeonHub.Proofs.Message
import DungeonHub.Proofs.Reward
import DungeonHub.Proofs.Server

/-!
# Dungeon results

A dungeon result is refused before anything has changed, or it ends its instance. Only then are the
character and the rewards looked at, so a result may be refused with its instance over already.
-/

namespace DungeonHub

open Run Wire

section Transition

namespace InstanceManager

/-- An instance ends if it is being played. -/
theorem requestTransition_end (m : InstanceManager) (instanceId : ℕ) {next : InstanceState}
    (hnext : next = .clear ∨ next = .fail) (partyService : PartyService) :
    (∃ record, m.getInstance instanceId = some record ∧ record.state = .playing ∧
      m.requestTransition instanceId next partyService = (true, { m with
        instances := m.instances.insert instanceId { record with state := next } })) ∨
    ((∀ record, m.getInstance instanceId = some record → record.state ≠ .playing) ∧
      m.requestTransition instanceId next partyService = (false, m)) := by
  unfold requestTransition getInstance
  rcases h : m.instances[instanceId]? with _ | record
  · exact .inr ⟨by simp, rfl⟩
  · by_cases hp : record.state = .playing
    · refine .inl ⟨record, rfl, hp, ?_⟩
      rcases hnext with rfl | rfl <;> simp [hp, transitionAllowed]
    · refine .inr ⟨by simpa using hp, ?_⟩
      rcases record with ⟨_, _, _ | _ | _ | _ | _ | _⟩ <;> rcases hnext with rfl | rfl <;>
        simp_all [transitionAllowed]

end InstanceManager

end Transition

section Lawful

/-- A storage takes every item there is some of. -/
class LawfulInventoryStorage (σ : Type) [InventoryStorage σ] : Prop where
  addItem_accepts : ∀ (s : σ) (inventoryId : InventoryId) (itemId : ItemId) (quantity : Quantity)
    (reason : Str), quantity ≠ 0 →
      (InventoryStorage.addItem s inventoryId itemId quantity reason).1 = true

instance : LawfulInventoryStorage InventoryTable where
  addItem_accepts s inventoryId itemId quantity reason h := by
    show (s.content.addItem inventoryId itemId quantity reason).1 = true
    unfold TableContent.addItem
    rw [if_neg h]

instance {π κ : Type} [InventoryStorage π] [InventoryStorage κ] [LawfulInventoryStorage π] :
    LawfulInventoryStorage (CachedInventoryStorage π κ) where
  addItem_accepts s inventoryId itemId quantity reason h := by
    have hp := LawfulInventoryStorage.addItem_accepts s.persistent inventoryId itemId quantity
      reason h
    show (s.addItem inventoryId itemId quantity reason).1 = true
    unfold CachedInventoryStorage.addItem CachedInventoryStorage.writeThrough
    simp only []
    split
    · rename_i heq
      rw [heq] at hp
      cases hp
    · split <;> rfl

end Lawful

namespace Server

variable {σ : Type}

section Grant

variable [InventoryStorage σ]

/-- Rewards that are granted: there is some of each, and they fit. -/
def Grantable (rewards : List RewardItem) : Prop :=
  (∀ item ∈ rewards, item.count ≠ 0) ∧ (rewards.map fun item => item.count.toNat).sum ≤ 100

instance (rewards : List RewardItem) : Decidable (Grantable rewards) := by
  unfold Grantable
  infer_instance

theorem grant_rewards (grantId : ℕ) (rewards : List RewardItem) :
    (RewardService.grantRewardsDetailed {} grantId
      (rewards.map fun item => (⟨item.itemId, item.count⟩ : GrantItem))).1 =
      if Grantable rewards then .completed else .failed := by
  rw [RewardService.grant_fresh]
  unfold Grantable
  simp only [List.mem_map, List.map_map, forall_exists_index, and_imp,
    forall_apply_eq_imp_iff₂, Function.comp_def]

theorem addItems_accepts [LawfulInventoryStorage σ] (charId : UInt64) (reason : Str) :
    ∀ (rewards : List RewardItem) (storage : σ), (∀ item ∈ rewards, item.count ≠ 0) →
      (addItems storage charId reason rewards).1 = true
  | [], _, _ => rfl
  | item :: rewards, storage, h => by
    rw [List.forall_mem_cons] at h
    have hadd := LawfulInventoryStorage.addItem_accepts storage charId item.itemId item.count
      reason h.1
    unfold addItems
    split
    · rename_i heq
      rw [heq] at hadd
      cases hadd
    · exact addItems_accepts charId reason rewards _ h.2

theorem addInTransaction_accepts [LawfulInventoryStorage σ] (storage : σ) (charId : UInt64)
    (reason : Str) {rewards : List RewardItem} (h : ∀ item ∈ rewards, item.count ≠ 0) :
    (addInTransaction storage charId reason rewards).1 = true := by
  have hadd := addItems_accepts charId reason rewards
    (InventoryStorage.beginTransaction storage).2 h
  unfold addInTransaction
  simp only []
  split
  · rename_i heq
    rw [heq] at hadd
    cases hadd
  · rfl

/-- What becomes of the result of an instance that has just ended. -/
theorem grantResult_cases (s : Server σ) (id instanceId : ℕ) (rewards : List RewardItem) :
    ((s.grantResult id instanceId rewards).1.success = false ∧
      ∃ nextRewardGrantId inventoryStorage, (s.grantResult id instanceId rewards).2 =
        countError { s with nextRewardGrantId, inventoryStorage }) ∨
    ((s.grantResult id instanceId rewards).1.success = true ∧
      s.sessionCharacters[id]?.isSome ∧ Grantable rewards ∧
      ∃ nextRewardGrantId inventoryStorage grantId, (s.grantResult id instanceId rewards).2 =
        { s with
          nextRewardGrantId, inventoryStorage
          instanceRewardGrants := s.instanceRewardGrants.insert instanceId grantId }) := by
  unfold grantResult
  simp only [grant_rewards]
  split
  · exact .inl ⟨rfl, s.nextRewardGrantId, s.inventoryStorage, rfl⟩
  · rename_i charId hchar
    by_cases hg : Grantable rewards
    · rw [if_pos hg]
      simp only []
      split
      · exact .inl ⟨rfl, _, _, rfl⟩
      · exact .inr ⟨rfl, by rw [hchar]; rfl, hg, _, _, _, rfl⟩
    · rw [if_neg hg]
      exact .inl ⟨rfl, _, s.inventoryStorage, rfl⟩

theorem grantResult_instances (s : Server σ) (id instanceId : ℕ) (rewards : List RewardItem) :
    (s.grantResult id instanceId rewards).2.instanceManager = s.instanceManager := by
  rcases s.grantResult_cases id instanceId rewards with ⟨-, _, _, h⟩ | ⟨-, -, -, _, _, _, h⟩
  · rw [h]
    rfl
  · rw [h]

/-- With a character, rewards that can be granted are. -/
theorem grantResult_lawful [LawfulInventoryStorage σ] (s : Server σ) (id instanceId : ℕ)
    (rewards : List RewardItem) :
    ((s.grantResult id instanceId rewards).1.success = true ↔
      s.sessionCharacters[id]?.isSome ∧ Grantable rewards) ∧
    ((s.grantResult id instanceId rewards).1.success = false →
      (s.grantResult id instanceId rewards).2.inventoryStorage = s.inventoryStorage) := by
  unfold grantResult
  simp only [grant_rewards]
  rcases hchar : s.sessionCharacters[id]? with _ | charId
  · exact ⟨by simp [resultRejected], fun _ => rfl⟩
  · by_cases hg : Grantable rewards
    · have hadd := addInTransaction_accepts s.inventoryStorage charId (str "dungeon_reward") hg.1
      simp only [if_pos hg]
      split
      · rename_i heq
        rw [heq] at hadd
        cases hadd
      · exact ⟨by simp [hg], fun h => by cases h⟩
    · simp only [if_neg hg]
      exact ⟨by simp [resultRejected, hg], fun _ => rfl⟩

end Grant

section Result

/-- A result that ends an instance: it is well formed and from a user, and the instance of its
session is being played and has no grant yet. -/
structure Ends (s : Server σ) (id : ℕ) (payload : Bytes) (request : DungeonResultNotify)
    (instanceId : ℕ) (record : InstanceRecord) : Prop where
  decoded : decodeDungeonResultNotify payload = .ok request
  user : (s.userContext id).isSome
  bound : s.sessionInstances[id]? = some instanceId
  inst : s.instanceManager.getInstance instanceId = some record
  playing : record.state = .playing
  fresh : s.instanceRewardGrants[instanceId]? = none

theorem checkResult_eq_ok {s : Server σ} {id : ℕ} {payload : Bytes}
    {request : DungeonResultNotify} {instanceId : ℕ} :
    s.checkResult id payload = .ok (request, instanceId) ↔
      decodeDungeonResultNotify payload = .ok request ∧ (s.userContext id).isSome ∧
      s.sessionInstances[id]? = some instanceId ∧
      (∃ record, s.instanceManager.getInstance instanceId = some record) ∧
      s.instanceRewardGrants[instanceId]? = none := by
  unfold checkResult
  simp only [bind_eq_ok, decodedOr_eq_ok, orRefuse_eq_ok, unlessRefuse_eq_ok, pure_eq_ok,
    Prod.mk.injEq, Option.isSome_iff_exists]
  constructor
  · rintro ⟨_, hd, user, hu, _, hb, record, hi, -, hg, rfl, rfl⟩
    exact ⟨hd, ⟨user, hu⟩, hb, ⟨record, hi⟩, hg⟩
  · rintro ⟨hd, ⟨user, hu⟩, hb, ⟨record, hi⟩, hg⟩
    exact ⟨_, hd, user, hu, _, hb, record, hi, (), hg, rfl, rfl⟩

theorem checkResult_refuses {s : Server σ} {id : ℕ} {payload : Bytes}
    {response : DungeonResultResponse} (h : s.checkResult id payload = .error response) :
    response.success = false := by
  unfold checkResult at h
  simp only [bind_eq_error, decodedOr_eq_error, orRefuse_eq_error, unlessRefuse_eq_error,
    pure_ne_error, and_false, exists_false, or_false] at h
  rcases h with ⟨-, rfl⟩ | ⟨_, -, ⟨-, rfl⟩ | ⟨_, -, ⟨-, rfl⟩ | ⟨_, -, ⟨-, rfl⟩ | ⟨_, -, -, rfl⟩⟩⟩⟩
    <;> rfl

variable [InventoryStorage σ]

/-- A result ends its instance and goes on to the rewards, or nothing but the error count
changes. -/
theorem handleResult_cases (s : Server σ) (id : ℕ) (payload : Bytes) :
    (∃ request instanceId record next, Ends s id payload request instanceId record ∧
      (next = .clear ∨ next = .fail) ∧
      s.handleResult id payload = grantResult
        { s with instanceManager := { s.instanceManager with
            instances := s.instanceManager.instances.insert instanceId
              { record with state := next } } }
        id instanceId request.rewards) ∨
    ((∀ request instanceId record, ¬ Ends s id payload request instanceId record) ∧
      (s.handleResult id payload).1.success = false ∧
      (s.handleResult id payload).2 = s.countError) := by
  unfold handleResult
  rcases hc : s.checkResult id payload with response | ⟨request, instanceId⟩
  · refine .inr ⟨?_, checkResult_refuses hc, rfl⟩
    intro request instanceId record h
    rw [checkResult_eq_ok.mpr ⟨h.decoded, h.user, h.bound, ⟨record, h.inst⟩, h.fresh⟩] at hc
    cases hc
  · obtain ⟨hd, hu, hb, -, hg⟩ := checkResult_eq_ok.mp hc
    have hnext : (if request.result = .clear then InstanceState.clear else .fail) = .clear ∨
        (if request.result = .clear then InstanceState.clear else .fail) = .fail := by
      split_ifs <;> simp
    simp only []
    rcases s.instanceManager.requestTransition_end instanceId hnext s.partyService with
      ⟨record, hi, hp, htrans⟩ | ⟨hno, htrans⟩
    · rw [htrans]
      exact .inl ⟨request, instanceId, record, _, ⟨hd, hu, hb, hi, hp, hg⟩, hnext, rfl⟩
    · rw [htrans]
      refine .inr ⟨?_, rfl, rfl⟩
      intro request' instanceId' record h
      rw [h.bound, Option.some.injEq] at hb
      subst hb
      exact hno record h.inst h.playing

/-- A result is refused, or the instance of its session gets its first grant. -/
theorem handleResult_effect (s : Server σ) (id : ℕ) (payload : Bytes) :
    ((s.handleResult id payload).1.success = false ∧
      Calm Session.stamp s (s.handleResult id payload).2) ∨
    ((s.handleResult id payload).1.success = true ∧ ∃ instanceId grantId,
      s.sessionInstances[id]? = some instanceId ∧ s.instanceRewardGrants[instanceId]? = none ∧
      Calm Session.stamp
        { s with instanceRewardGrants := s.instanceRewardGrants.insert instanceId grantId }
        (s.handleResult id payload).2) := by
  rcases s.handleResult_cases id payload with
    ⟨request, instanceId, record, next, hends, -, heq⟩ | ⟨-, hf, heq⟩
  · rw [heq]
    rcases grantResult_cases { s with instanceManager := { s.instanceManager with
        instances := s.instanceManager.instances.insert instanceId
          { record with state := next } } } id instanceId request.rewards with
      ⟨hf, _, _, hs⟩ | ⟨ht, -, -, _, _, grantId, hs⟩
    · refine .inl ⟨hf, ?_⟩
      rw [hs]
      exact ⟨rfl, rfl, rfl, rfl, rfl, rfl, rfl, rfl, rfl, .refl _ _, fun _ h => .inl h⟩
    · refine .inr ⟨ht, instanceId, grantId, hends.bound, hends.fresh, ?_⟩
      rw [hs]
      exact ⟨rfl, rfl, rfl, rfl, rfl, rfl, rfl, rfl, rfl, .refl _ _, fun _ h => .inl h⟩
  · rw [heq]
    exact .inl ⟨hf, s.countError_calm⟩

end Result

section Slips

/-- A result that ends its instance though it cannot be granted: its session has no character, or
its rewards are too many or none of some item. -/
def Slips (s : Server σ) (id : ℕ) (payload : Bytes) : Prop :=
  ∃ request instanceId record, Ends s id payload request instanceId record ∧
    ¬ (s.sessionCharacters[id]?.isSome ∧ Grantable request.rewards)

theorem slips_receive {s : Server σ} {id : ℕ} {session session' : Session} (payload inner : Bytes)
    (h : s.heap[id]? = some session) (hu : session'.userContext = session.userContext) :
    Slips (s.receive id session' payload) id inner ↔ Slips s id inner := by
  have huser := (s.receive_calm payload h hu).userContext id
  constructor
  · rintro ⟨request, instanceId, record, hends, hno⟩
    exact ⟨request, instanceId, record, ⟨hends.decoded, huser ▸ hends.user, hends.bound,
      hends.inst, hends.playing, hends.fresh⟩, hno⟩
  · rintro ⟨request, instanceId, record, hends, hno⟩
    exact ⟨request, instanceId, record, ⟨hends.decoded, huser ▸ hends.user, hends.bound,
      hends.inst, hends.playing, hends.fresh⟩, hno⟩

/-- The packet gets to the handler of results and slips there. -/
def SlipsAt (s : Server σ) (id : ℕ) (header : FrameHeader) (payload : Bytes) (now : Time) :
    Prop :=
  ∃ session inner, s.heap[id]? = some session ∧
    (s.gatePacket session header payload now).1 = .passed inner ∧ Slips s id inner

theorem slipsAt_iff {s : Server σ} {id : ℕ} {header : FrameHeader} {payload : Bytes} {now : Time}
    {session : Session} (hs : s.heap[id]? = some session) :
    SlipsAt s id header payload now ↔
      ∃ inner, (s.gatePacket session header payload now).1 = .passed inner ∧ Slips s id inner := by
  unfold SlipsAt
  rw [hs]
  constructor
  · rintro ⟨_, inner, heq, h⟩
    rw [Option.some.injEq] at heq
    subst heq
    exact ⟨inner, h⟩
  · rintro ⟨inner, h⟩
    exact ⟨session, inner, rfl, h⟩

end Slips

section Refused

theorem encodeFrame_inj {type version : UInt16} {p p' : Bytes}
    (h : encodeFrame type version p = encodeFrame type version p') : p = p' := by
  have h8 := congrArg (List.drop 8) h
  simpa [encodeFrame, writeU32, writeU16] using h8

/-- The success byte of a framed response tells what the response says. -/
theorem resultFrame_success {r r' : DungeonResultResponse} {version : UInt16}
    (h : Answer.frame ⟨.dungeonResultRes, r⟩ version =
      Answer.frame ⟨.dungeonResultRes, r'⟩ version) :
    r.success = r'.success := by
  have henc : Message.encode r = Message.encode r' := encodeFrame_inj h
  have hr := LawfulMessage.decode_append r []
  have hr' := LawfulMessage.decode_append r' []
  rw [List.append_nil, if_pos rfl] at hr hr'
  rw [henc, hr', Except.ok.injEq] at hr
  exact (congrArg DungeonResultResponse.success hr).symm

variable [InventoryStorage σ]

/-- Every instance, every grant and every inventory with its change log is as it was. -/
structure Untouched (s s' : Server σ) : Prop where
  instances : ∀ instanceId,
    s'.instanceManager.getInstance instanceId = s.instanceManager.getInstance instanceId
  grants : s'.instanceRewardGrants = s.instanceRewardGrants
  inventories : ∀ charId, (InventoryStorage.loadInventory s'.inventoryStorage charId).1 =
    (InventoryStorage.loadInventory s.inventoryStorage charId).1
  changeLogs : ∀ charId, InventoryStorage.changeLog s'.inventoryStorage charId =
    InventoryStorage.changeLog s.inventoryStorage charId

theorem untouched_of_eq {s s' : Server σ} (hi : s'.instanceManager = s.instanceManager)
    (hg : s'.instanceRewardGrants = s.instanceRewardGrants)
    (hs : s'.inventoryStorage = s.inventoryStorage) : Untouched s s' :=
  ⟨fun _ => by rw [hi], hg, fun _ => by rw [hs], fun _ => by rw [hs]⟩

theorem handleResult_refused_iff [LawfulInventoryStorage σ] (s : Server σ) (id : ℕ)
    (payload : Bytes) :
    ((s.handleResult id payload).1.success = false → Untouched s (s.handleResult id payload).2) ↔
      ¬ Slips s id payload := by
  rcases s.handleResult_cases id payload with
    ⟨request, instanceId, record, next, hends, hnext, heq⟩ | ⟨hno, hf, heq⟩
  · rw [heq]
    have hlaw := grantResult_lawful { s with instanceManager := { s.instanceManager with
        instances := s.instanceManager.instances.insert instanceId
          { record with state := next } } } id instanceId request.rewards
    constructor
    · rintro h ⟨request', instanceId', record', hends', hno⟩
      have hr : request' = request := by
        have := hends'.decoded.symm.trans hends.decoded
        rwa [Except.ok.injEq] at this
      subst hr
      have hfalse := Bool.eq_false_iff.mpr fun ht => hno (hlaw.1.mp ht)
      have hkept := (h hfalse).instances instanceId
      rw [grantResult_instances, hends.inst] at hkept
      simp only [InstanceManager.getInstance, Dict.get?_insert_self, Option.some.injEq] at hkept
      have hplaying : next = .playing := (congrArg InstanceRecord.state hkept).trans hends.playing
      rcases hnext with rfl | rfl <;> cases hplaying
    · intro h hfalse
      refine absurd ⟨request, instanceId, record, hends, fun hyes => ?_⟩ h
      rw [hlaw.1.mpr hyes] at hfalse
      cases hfalse
  · refine iff_of_true (fun _ => ?_) ?_
    · rw [heq]
      exact untouched_of_eq rfl rfl rfl
    · rintro ⟨request, instanceId, record, hends, -⟩
      exact hno request instanceId record hends

/-- A refused result leaves instances, grants and inventories as they were, but if it slips. -/
theorem result_refused_iff [LawfulInventoryStorage σ] (s : Server σ) (id : ℕ)
    (header : FrameHeader) (payload : Bytes) (now : Time)
    (ht : PacketType.ofCode header.type = some .dungeonResultNotify) :
    (∀ response, (s.handlePacket id header payload now).1 =
        some (Answer.frame ⟨.dungeonResultRes, response⟩ header.version) →
      response.success = false → Untouched s (s.handlePacket id header payload now).2) ↔
      ¬ SlipsAt s id header payload now := by
  rcases s.handlePacket_cases id header payload now with
    ⟨hs, heq⟩ | ⟨session, session', hs, ⟨hg, heq⟩ | ⟨reject, hg, heq⟩ | ⟨inner, hg, heq⟩⟩
  · rw [heq]
    refine iff_of_true (fun _ h => by cases h) ?_
    rintro ⟨session, inner, hs', -⟩
    rw [hs] at hs'
    cases hs'
  · rw [heq, slipsAt_iff hs, hg]
    exact iff_of_true (fun _ h => by cases h) (by simp)
  · rw [heq, slipsAt_iff hs, hg]
    exact iff_of_true (fun _ _ _ => untouched_of_eq rfl rfl rfl) (by simp)
  · have hu := s.gatePacket_userContext session header payload now
    rw [hg] at hu
    have hiff := (s.receive id session' payload).handleResult_refused_iff id inner
    rw [slips_receive payload inner hs hu] at hiff
    rw [heq, slipsAt_iff hs, hg, dispatch_result ht]
    simp only [Gated.passed.injEq, exists_eq_left']
    rw [← hiff]
    constructor
    · intro h hf
      have hun := h _ rfl hf
      exact ⟨hun.instances, hun.grants, hun.inventories, hun.changeLogs⟩
    · intro h response hr hf
      rw [Option.map_some, Option.some.injEq] at hr
      have hun := h ((resultFrame_success hr).trans hf)
      exact ⟨hun.instances, hun.grants, hun.inventories, hun.changeLogs⟩

/-- A user alone in a party gets an instance and enters it, and it is being played. -/
def playedAlone : List ServerEvent :=
  [.createSession {} 0,
    packetOf 1 .loginReq (encodeLoginRequest ⟨str "u", str "letmein"⟩),
    .party (.createParty 1 (str "u")),
    packetOf 1 .matchReq (encodeMatchRequest {}),
    packetOf 1 .dungeonEnterReq (encodeDungeonEnterRequest ⟨1, List.replicate 32 48, 7⟩),
    .inst (.requestTransition 1 .playing)]

/-- A result with the rewards. -/
def resultOf (rewards : List RewardItem) : Bytes := encodeDungeonResultNotify { rewards }

/-- A result that comes before the instance is being played is refused, and touches nothing. -/
theorem result_refused_iff_unplayed :
    let s := after serverStep (still {}) playedAlone.dropLast
    let header := headerOf .dungeonResultNotify (resultOf [⟨1, 2⟩])
    (s.handlePacket 1 header (resultOf [⟨1, 2⟩]) 0).1 =
        some (Answer.frame ⟨.dungeonResultRes,
          resultRejected "INVALID_STATE" "Dungeon state transition rejected"⟩ header.version) ∧
      Untouched s (s.handlePacket 1 header (resultOf [⟨1, 2⟩]) 0).2 := by
  intro s header
  have hanswer : (s.handlePacket 1 header (resultOf [⟨1, 2⟩]) 0).1 =
      some (Answer.frame ⟨.dungeonResultRes,
        resultRejected "INVALID_STATE" "Dungeon state transition rejected"⟩ header.version) := by
    decide +kernel
  refine ⟨hanswer, (result_refused_iff s 1 header _ 0 (by decide)).mpr ?_ _ hanswer rfl⟩
  rintro ⟨session, inner, -, -, request, instanceId, record, hends, -⟩
  have hbound : s.sessionInstances[1]? = some 1 := by decide +kernel
  have hready : (s.instanceManager.getInstance 1).map InstanceRecord.state = some .ready := by
    decide +kernel
  obtain rfl : 1 = instanceId := Option.some.inj (hbound.symm.trans hends.bound)
  rw [hends.inst, Option.map_some, hends.playing] at hready
  cases hready

/-- A result that gives none of item 1 is refused, and its instance is over. -/
theorem refused_result_ends_instance :
    ¬ ∀ (es : List ServerEvent) (id : ℕ) (header : FrameHeader) (payload : Bytes) (now : Time)
      (response : DungeonResultResponse),
      PacketType.ofCode header.type = some .dungeonResultNotify →
      ((after serverStep (still {}) es).handlePacket id header payload now).1 =
        some (Answer.frame ⟨.dungeonResultRes, response⟩ header.version) →
      response.success = false →
      Untouched (after serverStep (still {}) es)
        ((after serverStep (still {}) es).handlePacket id header payload now).2 := by
  intro h
  have hun := h playedAlone 1 (headerOf .dungeonResultNotify (resultOf [⟨1, 0⟩]))
    (resultOf [⟨1, 0⟩]) 0 (resultRejected "REWARD_FAILED" "Reward grant failed") (by decide)
    (by decide +kernel) rfl
  exact absurd (hun.instances 1) (by decide +kernel)

end Refused

end Server

end DungeonHub
