import DungeonHub.Proofs.Matches
import DungeonHub.Proofs.Payout

/-!
# What the error count tells

Every packet is counted, and a packet that is refused is counted as an error, but for four
refusals that the handlers forget to count.
-/

namespace DungeonHub

open Run Wire

/-- The answer tells of success. -/
def Answer.success : Answer → Bool
  | ⟨.loginRes, response⟩ => LoginResponse.accepted response
  | ⟨.logoutRes, response⟩ => LogoutResponse.success response
  | ⟨.sessionReconnectRes, response⟩ => SessionReconnectResponse.success response
  | ⟨.matchFoundNotify, response⟩ => MatchFoundNotify.success response
  | ⟨.dungeonEnterRes, response⟩ => DungeonEnterResponse.success response
  | ⟨.dungeonResultRes, response⟩ => DungeonResultResponse.success response
  | ⟨.inventoryUpdateRes, response⟩ => InventoryUpdateResponse.success response
  | ⟨.guildCreateRes, response⟩ => GuildCreateResponse.success response
  | ⟨.guildJoinRes, response⟩ => GuildJoinResponse.success response
  | ⟨.guildLeaveRes, response⟩ => GuildLeaveResponse.success response
  | ⟨.chatSendRes, response⟩ => ChatSendResponse.success response
  | _ => false

namespace Server

variable {σ : Type}

section Books

/-- Nothing is stored, and an error is counted unless all went well. -/
structure Books (s s' : Server σ) (ok : Bool) : Prop where
  metrics : s'.metrics = if ok then s.metrics else s.countError.metrics
  storage : s'.inventoryStorage = s.inventoryStorage

theorem Books.refl (s : Server σ) : Books s s true := ⟨rfl, rfl⟩

theorem Books.error (s : Server σ) : Books s s.countError false := ⟨rfl, rfl⟩

theorem Books.trans {s s' s'' : Server σ} {ok : Bool} (h : Books s s' true)
    (h' : Books s' s'' ok) : Books s s'' ok where
  metrics := by
    have hm : s'.metrics = s.metrics := h.metrics
    rw [h'.metrics]
    unfold countError
    rw [hm]
  storage := h'.storage.trans h.storage

theorem Delivers.books {s s' : Server σ} (h : Delivers s s') : Books s s' true := by
  obtain ⟨heap, clock, rfl, -⟩ := h
  exact ⟨rfl, rfl⟩

theorem bindMember_books (s : Server σ) (instanceId : ℕ) (frame : Bytes) (asked : ℕ → Bool)
    (member : PartyMember) : Books s (s.bindMember instanceId frame asked member) true := by
  unfold bindMember
  split
  · exact .refl s
  · have hbind : Books s { s with
        sessionInstances := s.sessionInstances.insert member.sessionId instanceId } true :=
      ⟨rfl, rfl⟩
    simp only []
    split_ifs
    · exact hbind
    · exact hbind.trans (deliver_delivers ..).books

theorem openInstance_books (s : Server σ) (instanceId partyId : ℕ) (version : UInt16)
    (asked : ℕ → Bool) :
    (s.openInstance instanceId partyId version asked).1.success = true ∧
      Books s (s.openInstance instanceId partyId version asked).2 true := by
  unfold openInstance
  refine ⟨rfl, Books.trans ?_ (Run.related (R := fun s t => Books s t true) .refl .trans
    (fun s member => s.bindMember_books _ _ _ member) _ _)⟩
  exact ⟨rfl, rfl⟩

theorem matchLoop_books (id partyId : ℕ) (version : UInt16) :
    ∀ (matches' : List MatchCandidate) (requester : Option MatchFoundNotify) (s : Server σ),
      (∀ notify, requester = some notify → notify.success = true) →
      Books s (matchLoop id partyId version matches' requester s).2
        (matchLoop id partyId version matches' requester s).1.success
  | [], some notify, s, h => by
    unfold matchLoop
    rw [h notify rfl]
    exact .refl s
  | [], none, s, _ => .error s
  | candidate :: rest, requester, s, h => by
    unfold matchLoop
    rcases s.instanceManager.createInstance candidate.partyId s.partyService with
      ⟨_ | instanceId, instanceManager⟩
    · exact .error s
    · obtain ⟨hsuccess, hopen⟩ := openInstance_books { s with instanceManager } instanceId
        candidate.partyId version fun member => candidate.partyId = partyId && member = id
      have hfirst : Books s { s with instanceManager } true := ⟨rfl, rfl⟩
      refine (hfirst.trans hopen).trans (matchLoop_books id partyId version rest _ _ ?_)
      intro notify hnotify
      split_ifs at hnotify
      · cases hnotify
        exact hsuccess
      · exact h notify hnotify

end Books

section Handlers

theorem handleLogin_books (s : Server σ) (id : ℕ) (payload : Bytes) (now : Time) :
    Books s (s.handleLogin id payload now).2 (s.handleLogin id payload now).1.accepted := by
  unfold handleLogin
  simp only []
  split
  · rename_i response h
    simp only [bind_eq_error, decodedOr_eq_error, unlessRefuse_eq_error, pure_ne_error, and_false,
      exists_false, or_false] at h
    rcases h with ⟨-, rfl⟩ | ⟨_, -, ⟨-, rfl⟩ | ⟨_, -, -, rfl⟩⟩ <;> exact ⟨rfl, rfl⟩
  · split <;> exact ⟨rfl, rfl⟩

theorem handleLogout_books (s : Server σ) (id : ℕ) (payload : Bytes) :
    Books s (s.handleLogout id payload).2 (s.handleLogout id payload).1.success := by
  unfold handleLogout
  split <;> exact ⟨rfl, rfl⟩

theorem takeOver_books (s : Server σ) (existing id : ℕ) :
    Books s (s.takeOver existing id) true := by
  unfold takeOver
  split <;> exact ⟨rfl, rfl⟩

theorem reclaim_books (s : Server σ) (userId : Str) (id : ℕ) :
    Books s (s.reclaim userId id) true := by
  unfold reclaim
  split
  · exact .refl s
  · exact takeOver_books s _ id

theorem handleReconnect_books (s : Server σ) (id : ℕ) (payload : Bytes) (now : Time) :
    Books s (s.handleReconnect id payload now).2 (s.handleReconnect id payload now).1.success := by
  rcases s.handleReconnect_refused id payload now with
    ⟨hf, tokenService, -, heq⟩ | ⟨request, userId, hr⟩
  · rw [hf, heq]
    exact ⟨rfl, rfl⟩
  · have hreclaim := s.reclaim_books userId id
    rw [handleReconnect_eq hr]
    split_ifs
    · exact hreclaim.trans ⟨rfl, rfl⟩
    · exact hreclaim.trans ⟨rfl, rfl⟩

theorem handleMatch_books (s : Server σ) (id : ℕ) (version : UInt16) (payload : Bytes)
    (now : Time) :
    Books s (s.handleMatch id version payload now).2
      (s.handleMatch id version payload now).1.success := by
  unfold handleMatch
  split
  · rename_i response h
    simp only [(checkMatch_refuses h).1]
    exact .error s
  · simp only []
    split
    · exact .error s
    · have hqueue : ∀ matchQueue, Books s { s with matchQueue } true := fun _ => ⟨rfl, rfl⟩
      split
      · exact (hqueue _).trans (matchLoop_books _ _ _ _ _ _ fun _ h => by cases h)
      · exact (hqueue _).trans (matchLoop_books _ _ _ _ _ _ fun _ h => by cases h)

theorem handleEnter_books (s : Server σ) (id : ℕ) (payload : Bytes) :
    Books s (s.handleEnter id payload).2 (s.handleEnter id payload).1.success := by
  unfold handleEnter
  split
  · rename_i response h
    simp only [checkEnter_refuses h]
    exact .error s
  · simp only []
    split <;> exact ⟨rfl, rfl⟩

theorem guild_books (s : Server σ) (guildService : GuildService) (events : GuildService.Events) :
    Books s ({ s with guildService }.deliverGuildEvents events) true := by
  have hfirst : Books s { s with guildService } true := ⟨rfl, rfl⟩
  exact hfirst.trans (deliverGuildEvents_delivers _ _).books

theorem handleGuildCreate_books (s : Server σ) (id : ℕ) (payload : Bytes) :
    Books s (s.handleGuildCreate id payload).2 (s.handleGuildCreate id payload).1.success := by
  unfold handleGuildCreate
  simp only []
  split
  · rename_i response h
    simp only [bind_eq_error, decodedOr_eq_error, orRefuse_eq_error, pure_ne_error, and_false,
      exists_false, or_false] at h
    rcases h with ⟨-, rfl⟩ | ⟨_, -, -, rfl⟩ <;> exact .error s
  · rename_i request user h
    rcases s.guildService.createGuild id user.userId request.guildName with
      ⟨_ | guildId, events, guildService⟩
    · exact (s.guild_books guildService events).trans (.error _)
    · exact s.guild_books guildService events

/-- A request to join a guild that there is not, or from a session that is in one. -/
def JoinFails (s : Server σ) (id : ℕ) (payload : Bytes) : Prop :=
  ∃ request, decodeGuildJoinRequest payload = .ok request ∧ (s.userContext id).isSome ∧
    (request.guildId.toNat ∉ s.guildService.guilds ∨ id ∈ s.guildService.memberIndex)

theorem joinGuild_refuses_iff (g : GuildService) (guildId memberSessionId : ℕ) (user : Str) :
    (g.joinGuild guildId memberSessionId user).1 = false ↔
      guildId ∉ g.guilds ∨ memberSessionId ∈ g.memberIndex := by
  unfold GuildService.joinGuild
  rw [Dict.not_mem_iff]
  rcases g.guilds[guildId]? with _ | guild
  · simp
  · by_cases hm : memberSessionId ∈ g.memberIndex <;> simp [hm]

theorem handleGuildJoin_books (s : Server σ) (id : ℕ) (payload : Bytes) :
    (JoinFails s id payload ∧ (s.handleGuildJoin id payload).1.success = false ∧
      Books s (s.handleGuildJoin id payload).2 true) ∨
    (¬ JoinFails s id payload ∧
      Books s (s.handleGuildJoin id payload).2 (s.handleGuildJoin id payload).1.success) := by
  unfold handleGuildJoin
  simp only []
  split
  · rename_i response h
    simp only [bind_eq_error, decodedOr_eq_error, orRefuse_eq_error, pure_ne_error, and_false,
      exists_false, or_false] at h
    refine .inr ⟨?_, ?_⟩
    · rintro ⟨request, hd, hu, -⟩
      rcases h with ⟨⟨e, he⟩, -⟩ | ⟨_, -, hno, -⟩
      · rw [he] at hd
        cases hd
      · rw [hno] at hu
        cases hu
    · rcases h with ⟨-, rfl⟩ | ⟨_, -, -, rfl⟩ <;> exact .error s
  · rename_i h
    simp only [bind_eq_ok, decodedOr_eq_ok, orRefuse_eq_ok, pure_eq_ok, Prod.mk.injEq] at h
    obtain ⟨request, hd, user, hu, rfl, rfl⟩ := h
    have hfails : JoinFails s id payload ↔
        (s.guildService.joinGuild request.guildId.toNat id user.userId).1 = false := by
      rw [joinGuild_refuses_iff]
      constructor
      · rintro ⟨request', hd', -, hwhy⟩
        rw [hd, Except.ok.injEq] at hd'
        exact hd' ▸ hwhy
      · intro hwhy
        exact ⟨request, hd, by rw [hu]; rfl, hwhy⟩
    by_cases hno : (s.guildService.joinGuild request.guildId.toNat id user.userId).1 = false
    · exact .inl ⟨hfails.mpr hno, hno, s.guild_books _ _⟩
    · refine .inr ⟨fun h => hno (hfails.mp h), ?_⟩
      rw [Bool.eq_true_of_not_eq_false hno]
      exact s.guild_books _ _

/-- The guild that an id in a request to leave stands for: 0 is the session's own. -/
def guildAddressed (s : Server σ) (id : ℕ) (guildId : UInt64) : Option ℕ :=
  if guildId = 0 then s.guildService.guildForMember id else some guildId.toNat

/-- A request to leave a guild that there is not, or that the session is not in. -/
def LeaveFails (s : Server σ) (id : ℕ) (payload : Bytes) : Prop :=
  ∃ request guildId, decodeGuildLeaveRequest payload = .ok request ∧ (s.userContext id).isSome ∧
    s.guildAddressed id request.guildId = some guildId ∧
    ∀ guild, s.guildService.guilds[guildId]? = some guild → id ∉ guild.members

theorem leaveGuild_refuses_iff (g : GuildService) (guildId memberSessionId : ℕ) :
    (g.leaveGuild guildId memberSessionId).1 = false ↔
      ∀ guild, g.guilds[guildId]? = some guild → memberSessionId ∉ guild.members := by
  unfold GuildService.leaveGuild
  rcases g.guilds[guildId]? with _ | guild
  · simp
  · simp only [Option.some.injEq, forall_eq', Dict.not_mem_iff]
    rcases guild.members[memberSessionId]? with _ | member
    · simp
    · by_cases hl : guild.leaderSessionId = memberSessionId <;> simp [hl]

theorem checkGuildLeave_eq_ok {s : Server σ} {id guildId : ℕ} {payload : Bytes} :
    s.checkGuildLeave id payload = .ok guildId ↔
      ∃ request, decodeGuildLeaveRequest payload = .ok request ∧ (s.userContext id).isSome ∧
        s.guildAddressed id request.guildId = some guildId := by
  unfold checkGuildLeave guildAddressed
  simp only [bind_eq_ok, decodedOr_eq_ok, orRefuse_eq_ok, Option.isSome_iff_exists]
  constructor
  · rintro ⟨request, hd, user, hu, h⟩
    refine ⟨request, hd, ⟨user, hu⟩, ?_⟩
    split_ifs at h ⊢
    · exact orRefuse_eq_ok.mp h
    · cases h
      rfl
  · rintro ⟨request, hd, ⟨user, hu⟩, h⟩
    refine ⟨request, hd, user, hu, ?_⟩
    split_ifs at h ⊢
    · exact orRefuse_eq_ok.mpr h
    · cases h
      rfl

theorem checkGuildLeave_refuses {s : Server σ} {id : ℕ} {payload : Bytes}
    {response : GuildLeaveResponse} (h : s.checkGuildLeave id payload = .error response) :
    response.success = false := by
  unfold checkGuildLeave at h
  simp only [bind_eq_error, decodedOr_eq_error, orRefuse_eq_error] at h
  rcases h with ⟨-, rfl⟩ | ⟨request, -, ⟨-, rfl⟩ | ⟨_, -, h⟩⟩
  · rfl
  · rfl
  · split_ifs at h
    rw [(orRefuse_eq_error.mp h).2.symm]

theorem handleGuildLeave_books (s : Server σ) (id : ℕ) (payload : Bytes) :
    (LeaveFails s id payload ∧ (s.handleGuildLeave id payload).1.success = false ∧
      Books s (s.handleGuildLeave id payload).2 true) ∨
    (¬ LeaveFails s id payload ∧
      Books s (s.handleGuildLeave id payload).2 (s.handleGuildLeave id payload).1.success) := by
  unfold handleGuildLeave
  rcases hc : s.checkGuildLeave id payload with response | guildId
  · refine .inr ⟨?_, ?_⟩
    · rintro ⟨request, guildId, hd, hu, hguild, -⟩
      rw [checkGuildLeave_eq_ok.mpr ⟨request, hd, hu, hguild⟩] at hc
      cases hc
    · simp only [checkGuildLeave_refuses hc]
      exact .error s
  · obtain ⟨request, hd, hu, hguild⟩ := checkGuildLeave_eq_ok.mp hc
    have hfails : LeaveFails s id payload ↔ (s.guildService.leaveGuild guildId id).1 = false := by
      rw [leaveGuild_refuses_iff]
      constructor
      · rintro ⟨request', guildId', hd', -, hguild', hwhy⟩
        rw [hd, Except.ok.injEq] at hd'
        subst hd'
        rw [hguild, Option.some.injEq] at hguild'
        exact hguild' ▸ hwhy
      · intro hwhy
        exact ⟨request, guildId, hd, hu, hguild, hwhy⟩
    by_cases hno : (s.guildService.leaveGuild guildId id).1 = false
    · exact .inl ⟨hfails.mpr hno, hno, s.guild_books _ _⟩
    · refine .inr ⟨fun h => hno (hfails.mp h), ?_⟩
      simp only [Bool.eq_true_of_not_eq_false hno]
      exact s.guild_books _ _

/-- A global message that there is nobody to send to. -/
def ChatFails (s : Server σ) (id : ℕ) (payload : Bytes) : Prop :=
  ∃ request, decodeChatSendRequest payload = .ok request ∧ (s.userContext id).isSome ∧
    request.message ≠ [] ∧ request.channel = .global ∧ s.loggedIn = []

theorem sendChat_books (s : Server σ) (event : ChatEvent) (hm : event.message ≠ [])
    (recipients : List ℕ) :
    ((s.sendChat event recipients).1 = false ↔ recipients = []) ∧
      Books s (s.sendChat event recipients).2 true := by
  unfold sendChat
  by_cases hr : recipients = []
  · rw [if_pos (.inr hr)]
    exact ⟨by simp [hr], .refl s⟩
  · rw [if_neg (not_or.mpr ⟨hm, hr⟩)]
    exact ⟨by simp [hr], Run.related (R := fun s t => Books s t true) .refl .trans
      (fun s _ => (s.deliver_delivers _ _).books) recipients s⟩

theorem handlePartyChat_books (s : Server σ) (id : ℕ) (user : UserContext)
    {request : ChatSendRequest} (hm : request.message ≠ []) :
    Books s (s.handlePartyChat id user request).2
      (s.handlePartyChat id user request).1.success := by
  unfold handlePartyChat
  split
  · rename_i response h
    simp only [checkPartyChat_refuses h]
    exact .error s
  · rename_i partyId recipients h
    simp only []
    have hsend := (s.sendChat_books ⟨.party, UInt64.ofNat partyId, user.userId, request.message⟩
      hm recipients).2
    rcases hs : s.sendChat ⟨.party, UInt64.ofNat partyId, user.userId, request.message⟩ recipients
      with ⟨_ | _, s'⟩
    · rw [hs] at hsend
      exact hsend.trans (.error s')
    · rw [hs] at hsend
      exact hsend

theorem handleChat_books (s : Server σ) (id : ℕ) (payload : Bytes) :
    (ChatFails s id payload ∧ (s.handleChat id payload).1.success = false ∧
      Books s (s.handleChat id payload).2 true) ∨
    (¬ ChatFails s id payload ∧
      Books s (s.handleChat id payload).2 (s.handleChat id payload).1.success) := by
  unfold handleChat
  simp only []
  split
  · rename_i response h
    simp only [bind_eq_error, decodedOr_eq_error, orRefuse_eq_error, unlessRefuse_eq_error,
      pure_ne_error, and_false, exists_false, or_false, decodedOr_eq_ok, orRefuse_eq_ok] at h
    refine .inr ⟨?_, ?_⟩
    · rintro ⟨request, hd, hu, hm, -⟩
      rcases h with ⟨⟨e, he⟩, -⟩ | ⟨request', hd', ⟨hno, -⟩ | ⟨_, -, hm', -⟩⟩
      · rw [he] at hd
        cases hd
      · rw [hno] at hu
        cases hu
      · rw [hd, Except.ok.injEq] at hd'
        exact hm' (hd' ▸ hm)
    · rcases h with ⟨-, rfl⟩ | ⟨_, -, ⟨-, rfl⟩ | ⟨_, -, -, rfl⟩⟩ <;> exact .error s
  · rename_i _ _ h
    simp only [bind_eq_ok, decodedOr_eq_ok, orRefuse_eq_ok, unlessRefuse_eq_ok, pure_eq_ok,
      Prod.mk.injEq] at h
    obtain ⟨request, hd, user, hu, -, hm, rfl, rfl⟩ := h
    by_cases hglobal : request.channel = .global
    · rw [if_pos hglobal]
      obtain ⟨hiff, hsend⟩ := s.sendChat_books ⟨.global, 0, user.userId, request.message⟩ hm
        s.loggedIn
      by_cases hempty : s.loggedIn = []
      · exact .inl ⟨⟨request, hd, by rw [hu]; rfl, hm, hglobal, hempty⟩, hiff.mpr hempty, hsend⟩
      · refine .inr ⟨?_, ?_⟩
        · rintro ⟨-, -, -, -, -, h⟩
          exact hempty h
        · simp only [Bool.eq_true_of_not_eq_false fun h => hempty (hiff.mp h)]
          exact hsend
    · rw [if_neg hglobal]
      refine .inr ⟨?_, ?_⟩
      · rintro ⟨request', hd', -, -, hglobal', -⟩
        rw [hd, Except.ok.injEq] at hd'
        exact hglobal (hd' ▸ hglobal')
      · split_ifs
        · exact s.handlePartyChat_books id user hm
        · exact .error s

end Handlers

section Results

variable [InventoryStorage σ]

theorem handleResult_metrics (s : Server σ) (id : ℕ) (payload : Bytes) :
    (s.handleResult id payload).2.metrics =
      if (s.handleResult id payload).1.success then s.metrics else s.countError.metrics := by
  rcases s.handleResult_cases id payload with
    ⟨request, instanceId, record, next, -, -, heq⟩ | ⟨-, hf, heq⟩
  · rw [heq]
    rcases grantResult_cases { s with instanceManager := { s.instanceManager with
        instances := s.instanceManager.instances.insert instanceId
          { record with state := next } } } id instanceId request.rewards with
      ⟨hf, _, _, hs⟩ | ⟨ht, -, -, _, _, _, hs⟩
    · rw [hf, hs]
      rfl
    · rw [ht, hs]
      rfl
  · rw [hf, heq]
    rfl

/-- The items of an update are added in one transaction, or the update is refused before that. -/
theorem handleInventoryUpdate_cases (s : Server σ) (id : ℕ) (payload : Bytes) :
    (∃ request, decodeInventoryUpdateNotify payload = .ok request ∧ (s.userContext id).isSome ∧
      (s.handleInventoryUpdate id payload).1.success = (addInTransaction s.inventoryStorage
        request.charId (str "inventory_update") request.items).1 ∧
      (s.handleInventoryUpdate id payload).2 = { s with
        inventoryStorage := (addInTransaction s.inventoryStorage request.charId
          (str "inventory_update") request.items).2 }) ∨
    ((∀ request, decodeInventoryUpdateNotify payload = .ok request →
        ¬ (s.userContext id).isSome) ∧
      (s.handleInventoryUpdate id payload).1.success = false ∧
      (s.handleInventoryUpdate id payload).2 = s.countError) := by
  unfold handleInventoryUpdate
  simp only []
  split
  · rename_i response h
    simp only [bind_eq_error, decodedOr_eq_error, orRefuse_eq_error, pure_ne_error, and_false,
      exists_false, or_false] at h
    refine .inr ⟨fun request hd hu => ?_, ?_, rfl⟩
    · rcases h with ⟨⟨e, he⟩, -⟩ | ⟨_, -, hno, -⟩
      · rw [he] at hd
        cases hd
      · rw [hno] at hu
        cases hu
    · rcases h with ⟨-, rfl⟩ | ⟨_, -, -, rfl⟩ <;> rfl
  · rename_i h
    simp only [bind_eq_ok, decodedOr_eq_ok, orRefuse_eq_ok, pure_eq_ok] at h
    obtain ⟨request, hd, user, hu, rfl⟩ := h
    exact .inl ⟨request, hd, by rw [hu]; rfl, rfl, rfl⟩

/-- An inventory update that gives none of some item. -/
def UpdateFails (s : Server σ) (id : ℕ) (payload : Bytes) : Prop :=
  ∃ request, decodeInventoryUpdateNotify payload = .ok request ∧ (s.userContext id).isSome ∧
    ∃ item ∈ request.items, item.count = 0

theorem handleInventoryUpdate_metrics [TableBacked σ] (s : Server σ) (id : ℕ)
    (payload : Bytes) :
    (UpdateFails s id payload ∧ (s.handleInventoryUpdate id payload).1.success = false ∧
      (s.handleInventoryUpdate id payload).2.metrics = s.metrics) ∨
    (¬ UpdateFails s id payload ∧
      (s.handleInventoryUpdate id payload).2.metrics =
        if (s.handleInventoryUpdate id payload).1.success then s.metrics
        else s.countError.metrics) := by
  rcases s.handleInventoryUpdate_cases id payload with
    ⟨request, hd, hu, hsuccess, heq⟩ | ⟨hno, hsuccess, heq⟩
  · rw [hsuccess, heq]
    by_cases hall : ∀ item ∈ request.items, item.count ≠ 0
    · rw [(addInTransaction_paid s.inventoryStorage request.charId (str "inventory_update")
        hall).1]
      refine .inr ⟨?_, rfl⟩
      rintro ⟨request', hd', -, item, hitem, hzero⟩
      rw [hd, Except.ok.injEq] at hd'
      exact hall item (hd' ▸ hitem) hzero
    · have hfalse := (addInTransaction_refused s.inventoryStorage request.charId
        (str "inventory_update") hall).1
      push Not at hall
      exact .inl ⟨⟨request, hd, hu, hall⟩, hfalse, rfl⟩
  · rw [hsuccess, heq]
    exact .inr ⟨fun ⟨request, hd, hu, _⟩ => hno request hd hu, rfl⟩

end Results

section Packets

variable [InventoryStorage σ]

/-- The answer tells of success; no answer does not. -/
def succeeded (answer : Option Answer) : Bool := (answer.map Answer.success).getD false

omit [InventoryStorage σ] in
/-- The handler of the packet refuses it without counting an error. -/
def Uncounted (s : Server σ) (id : ℕ) (header : FrameHeader) (body : Bytes) : Prop :=
  match PacketType.ofCode header.type with
  | some .inventoryUpdateNotify => UpdateFails s id body
  | some .guildJoinReq => JoinFails s id body
  | some .guildLeaveReq => LeaveFails s id body
  | some .chatSendReq => ChatFails s id body
  | _ => False

/-- What the handler of the packet answers and counts. -/
theorem dispatch_accounting [TableBacked σ] (s : Server σ) (id : ℕ) (header : FrameHeader)
    (body : Bytes) (now : Time) :
    (Uncounted s id header body ∧ succeeded (s.dispatch id header body now).1 = false ∧
      (s.dispatch id header body now).2.metrics = s.metrics) ∨
    (¬ Uncounted s id header body ∧
      (s.dispatch id header body now).2.metrics =
        if succeeded (s.dispatch id header body now).1 then s.metrics
        else s.countError.metrics) := by
  unfold dispatch Uncounted
  rcases PacketType.ofCode header.type with _ | type
  · exact .inr ⟨fun h => h, rfl⟩
  cases type with
  | loginReq => exact .inr ⟨fun h => h, (s.handleLogin_books id body now).metrics⟩
  | logoutReq => exact .inr ⟨fun h => h, (s.handleLogout_books id body).metrics⟩
  | sessionReconnectReq => exact .inr ⟨fun h => h, (s.handleReconnect_books id body now).metrics⟩
  | matchReq => exact .inr ⟨fun h => h, (s.handleMatch_books id header.version body now).metrics⟩
  | dungeonEnterReq => exact .inr ⟨fun h => h, (s.handleEnter_books id body).metrics⟩
  | dungeonResultNotify => exact .inr ⟨fun h => h, s.handleResult_metrics id body⟩
  | inventoryUpdateNotify => exact s.handleInventoryUpdate_metrics id body
  | guildCreateReq => exact .inr ⟨fun h => h, (s.handleGuildCreate_books id body).metrics⟩
  | guildJoinReq =>
    rcases s.handleGuildJoin_books id body with ⟨hu, hf, hb⟩ | ⟨hu, hb⟩
    · exact .inl ⟨hu, hf, hb.metrics⟩
    · exact .inr ⟨hu, hb.metrics⟩
  | guildLeaveReq =>
    rcases s.handleGuildLeave_books id body with ⟨hu, hf, hb⟩ | ⟨hu, hb⟩
    · exact .inl ⟨hu, hf, hb.metrics⟩
    · exact .inr ⟨hu, hb.metrics⟩
  | chatSendReq =>
    rcases s.handleChat_books id body with ⟨hu, hf, hb⟩ | ⟨hu, hb⟩
    · exact .inl ⟨hu, hf, hb.metrics⟩
    · exact .inr ⟨hu, hb.metrics⟩
  | _ => exact .inr ⟨fun h => h, rfl⟩

/-- The packet gets to a handler that refuses it without counting an error. -/
def UncountedAt (s : Server σ) (id : ℕ) (header : FrameHeader) (payload : Bytes) (now : Time) :
    Prop :=
  ∃ session session' body, s.heap[id]? = some session ∧
    s.gatePacket session header payload now = (.passed body, session') ∧
    Uncounted s id header body

omit [InventoryStorage σ] in
theorem uncounted_receive {s : Server σ} {id : ℕ} {session session' : Session} (payload : Bytes)
    (header : FrameHeader) (body : Bytes) (h : s.heap[id]? = some session)
    (hu : session'.userContext = session.userContext) :
    Uncounted (s.receive id session' payload) id header body ↔ Uncounted s id header body := by
  have huser := (s.receive_calm payload h hu).userContext
  have hlogged : (s.receive id session' payload).loggedIn = s.loggedIn := by
    unfold loggedIn
    simp only [huser]
    rfl
  unfold Uncounted UpdateFails JoinFails LeaveFails ChatFails guildAddressed
  rw [huser, hlogged]
  rfl

/-- The packet is counted with its bytes, and one error is counted unless it is answered with
success. -/
def Accounted (s s' : Server σ) (payload : Bytes) (answer : Option Answer) : Prop :=
  s'.metrics.packetsTotal = s.metrics.packetsTotal + 1 ∧
  s'.metrics.bytesTotal = s.metrics.bytesTotal + payload.length ∧
  s'.metrics.errorTotal = s.metrics.errorTotal + if succeeded answer then 0 else 1

instance (s s' : Server σ) (payload : Bytes) (answer : Option Answer) :
    Decidable (Accounted s s' payload answer) := by
  unfold Accounted
  infer_instance

/-- A packet is accounted for unless its handler refuses it without counting an error. -/
theorem accounted_iff [TableBacked σ] (s : Server σ) (id : ℕ) (session : Session)
    (hs : s.heap[id]? = some session) (header : FrameHeader) (payload : Bytes) (now : Time) :
    Accounted s (s.answerPacket id header payload now).2 payload
        (s.answerPacket id header payload now).1 ↔
      ¬ UncountedAt s id header payload now := by
  have hat : UncountedAt s id header payload now ↔ ∃ body,
      (s.gatePacket session header payload now).1 = .passed body ∧ Uncounted s id header body :=
    exists_passed_iff hs rfl
  have huser := s.gatePacket_userContext session header payload now
  rw [hat, answerPacket_of_some hs]
  rcases hg : s.gatePacket session header payload now with ⟨_ | reject | body, session'⟩
  · exact iff_of_true ⟨rfl, rfl, rfl⟩ (by simp)
  · exact iff_of_true ⟨rfl, rfl, rfl⟩ (by simp)
  · rw [hg] at huser
    have hrec := uncounted_receive payload header body hs huser
    simp only [Gated.passed.injEq, exists_eq_left']
    unfold Accounted
    rcases (s.receive id session' payload).dispatch_accounting id header body now with
      ⟨hun, hf, hm⟩ | ⟨hun, hm⟩
    · rw [hf, hm]
      refine iff_of_false (fun h => ?_) (not_not.mpr (hrec.mp hun))
      have herror : s.metrics.errorTotal = s.metrics.errorTotal + 1 := h.2.2
      omega
    · rw [hm]
      refine iff_of_true ?_ fun h => hun (hrec.mpr h)
      split_ifs <;> exact ⟨rfl, rfl, rfl⟩

/-- A guild without a name is refused, and the refusal is counted. -/
theorem accounted_iff_nameless :
    (after serverStep (still {}) playedAlone).heap[1]?.isSome ∧
    Accounted (after serverStep (still {}) playedAlone)
      ((after serverStep (still {}) playedAlone).answerPacket 1
        (headerOf .guildCreateReq (encodeGuildCreateRequest ⟨[]⟩))
        (encodeGuildCreateRequest ⟨[]⟩) 0).2 (encodeGuildCreateRequest ⟨[]⟩)
      ((after serverStep (still {}) playedAlone).answerPacket 1
        (headerOf .guildCreateReq (encodeGuildCreateRequest ⟨[]⟩))
        (encodeGuildCreateRequest ⟨[]⟩) 0).1 := by
  have hsome : (after serverStep (still {}) playedAlone).heap[1]?.isSome := by decide +kernel
  obtain ⟨session, hs⟩ := Option.isSome_iff_exists.mp hsome
  refine ⟨hsome, (accounted_iff _ 1 session hs _ _ 0).mpr ?_⟩
  rintro ⟨_, _, _, -, -, h⟩
  exact h

/-- A request to join a guild that there is not is refused, and no error is counted. -/
theorem refused_join_not_counted :
    ¬ ∀ (es : List ServerEvent) (id : ℕ) (session : Session),
      (after serverStep (still {}) es).heap[id]? = some session →
      ∀ (header : FrameHeader) (payload : Bytes) (now : Time),
      Accounted (after serverStep (still {}) es)
        ((after serverStep (still {}) es).answerPacket id header payload now).2 payload
        ((after serverStep (still {}) es).answerPacket id header payload now).1 := by
  intro h
  have hsome : (after serverStep (still {}) playedAlone).heap[1]?.isSome := by decide +kernel
  obtain ⟨session, hs⟩ := Option.isSome_iff_exists.mp hsome
  exact absurd (h playedAlone 1 session hs (headerOf .guildJoinReq (encodeGuildJoinRequest ⟨5⟩))
    (encodeGuildJoinRequest ⟨5⟩) 0) (by decide +kernel)

end Packets

end Server

end DungeonHub
