import DungeonHub.Proofs.Result

/-!
# What one event does to the server

A packet that has passed the gate has one of a few effects, and a session is removed in one way.
What the server keeps up over whole runs is shown for each of these.
-/

namespace DungeonHub

open Wire

theorem SessionRegistry.registerSession_iff (r : SessionRegistry) (id : ℕ)
    (context : UserContext) :
    (r.registerSession id context).1 = true ↔ r.heldByOther context.userId id = none := by
  unfold registerSession
  split
  · rename_i h
    simp [h]
  · rename_i h
    simp [h]

theorem TokenService.validateToken_some {t t' : TokenService} {token user : Str} {now : Time}
    (h : t.validateToken token now = (some user, t')) : t' = t := by
  unfold validateToken at h
  split at h
  · cases h
  · split_ifs at h
    · cases h
    · cases h
      rfl

/-- Tokens were forgotten at most. -/
def TokenService.Prunes (t t' : TokenService) : Prop :=
  ∃ tokens, t' = { t with tokens } ∧ ∀ (token : Str) (record : TokenRecord),
    tokens[token]? = some record → t.tokens[token]? = some record

theorem TokenService.Prunes.refl (t : TokenService) : t.Prunes t :=
  ⟨t.tokens, rfl, fun _ _ h => h⟩

theorem TokenService.validateToken_prunes (t : TokenService) (token : Str) (now : Time) :
    t.Prunes (t.validateToken token now).2 := by
  unfold validateToken
  split
  · exact .refl t
  · split_ifs
    · refine ⟨t.tokens.erase token, rfl, fun token' record h => ?_⟩
      rw [Dict.get?_erase] at h
      split_ifs at h
      exact h
    · exact .refl t

namespace Server

variable {σ : Type}

section Logins

/-- A session has got a user: in its own context, and in the registry. -/
def attach (s : Server σ) (id : ℕ) (context : UserContext) : Server σ :=
  { s.modifySession id (·.attachUserContext context) with
    registry := (s.registry.registerSession id context).2 }

/-- A session has no user any more. -/
def detach (s : Server σ) (id : ℕ) : Server σ :=
  { s.modifySession id Session.clearUserContext with
    registry := s.registry.removeSession id }

/-- Whichever other session holds the user has been taken over. -/
def reclaim (s : Server σ) (userId : Str) (id : ℕ) : Server σ :=
  match s.registry.heldByOther userId id with
  | none => s
  | some existing => s.takeOver existing id

theorem takeOver_of_known {s : Server σ} {existing : ℕ} {session : Session}
    (h : s.findSession existing = some session) (id : ℕ) :
    s.takeOver existing id =
      { s with
        heap := s.heap.modify existing Session.clearUserContext
        sessions := s.sessions.erase existing
        registry := s.registry.removeSession existing
        partyService := (s.partyService.replaceMemberSession existing id).2
        guildService := (s.guildService.replaceMemberSession existing id).2
        sessionInstances := moveKey s.sessionInstances existing id
        sessionCharacters := moveKey s.sessionCharacters existing id } := by
  unfold takeOver
  rw [h]
  rfl

/-- A login that is accepted. -/
structure Logs (s : Server σ) (id : ℕ) (payload : Bytes) (request : LoginRequest) : Prop where
  decoded : decodeLoginRequest payload = .ok request
  password : request.password = str "letmein"
  free : s.registry.heldByOther request.userId id = none

/-- What an accepted login attaches to its session. -/
def loginContext (s : Server σ) (request : LoginRequest) (now : Time) : UserContext :=
  ⟨request.userId, (s.tokenService.issueToken request.userId now).1⟩

/-- What an accepted login leaves. -/
theorem handleLogin_of_logs {s : Server σ} {id : ℕ} {payload : Bytes} {request : LoginRequest}
    (h : Logs s id payload request) (now : Time) :
    s.handleLogin id payload now =
      ({ accepted := true
         token := (s.tokenService.issueToken request.userId now).1
         message := str "Login accepted" },
        { s with tokenService := (s.tokenService.issueToken request.userId now).2 }.attach id
          (s.loginContext request now)) := by
  have hreg := (s.registry.registerSession_iff id (s.loginContext request now)).mpr h.free
  unfold handleLogin
  simp only []
  split
  · rename_i response herr
    simp only [bind_eq_error, decodedOr_eq_ok, decodedOr_eq_error, unlessRefuse_eq_error,
      pure_ne_error, and_false, exists_false, or_false] at herr
    rcases herr with ⟨⟨e, he⟩, -⟩ | ⟨request', hd, ⟨hpass, -⟩ | ⟨-, -, hheld, -⟩⟩
    · rw [h.decoded] at he
      cases he
    · rw [h.decoded, Except.ok.injEq] at hd
      exact absurd h.password (hd ▸ hpass)
    · rw [h.decoded, Except.ok.injEq] at hd
      exact absurd h.free (hd ▸ hheld)
  · rename_i request' hok
    simp only [bind_eq_ok, decodedOr_eq_ok, unlessRefuse_eq_ok, pure_eq_ok, h.decoded,
      Except.ok.injEq] at hok
    obtain ⟨_, rfl, -, -, -, -, rfl⟩ := hok
    simp only [attach, modifySession]
    split
    · rename_i hr
      rw [loginContext, hr] at hreg
      cases hreg
    · rename_i hr
      rw [loginContext, hr]

/-- A login is accepted, or nothing but the error count changes. -/
theorem handleLogin_cases (s : Server σ) (id : ℕ) (payload : Bytes) (now : Time) :
    (∃ request, Logs s id payload request) ∨
      ((s.handleLogin id payload now).1.accepted = false ∧
        (s.handleLogin id payload now).2 = s.countError) := by
  by_cases hlogs : ∃ request, Logs s id payload request
  · exact .inl hlogs
  · refine .inr ?_
    unfold handleLogin
    simp only []
    split
    · rename_i response h
      refine ⟨?_, rfl⟩
      simp only [bind_eq_error, decodedOr_eq_error, unlessRefuse_eq_error, pure_ne_error,
        and_false, exists_false, or_false] at h
      rcases h with ⟨-, rfl⟩ | ⟨_, -, ⟨-, rfl⟩ | ⟨_, -, -, rfl⟩⟩ <;> rfl
    · rename_i request h
      simp only [bind_eq_ok, decodedOr_eq_ok, unlessRefuse_eq_ok, pure_eq_ok] at h
      obtain ⟨request', hd, -, hpass, -, hfree, -⟩ := h
      exact absurd ⟨request', hd, hpass, hfree⟩ hlogs

/-- A reconnect whose token is good. -/
structure Reconnects (s : Server σ) (payload : Bytes) (now : Time)
    (request : SessionReconnectRequest) (userId : Str) : Prop where
  decoded : decodeSessionReconnectRequest payload = .ok request
  valid : s.tokenService.validateToken request.token now = (some userId, s.tokenService)

/-- The sequence number a reconnect leaves its session with. -/
def restoredLastSeq (s : Server σ) (id : ℕ) (request : SessionReconnectRequest) (userId : Str) :
    UInt64 :=
  max request.lastSeq.toUInt64 (s.previousLastSeq (s.registry.heldByOther userId id))

/-- The server after an accepted reconnect. -/
def resume (s : Server σ) (id : ℕ) (request : SessionReconnectRequest) (userId : Str) :
    Server σ :=
  ((s.reclaim userId id).attach id ⟨userId, request.token⟩).modifySession id
    (·.setLastSeq (s.restoredLastSeq id request userId))

/-- What a reconnect with a good token answers and leaves. -/
theorem handleReconnect_eq {s : Server σ} {payload : Bytes} {now : Time}
    {request : SessionReconnectRequest} {userId : Str}
    (h : Reconnects s payload now request userId) (id : ℕ) :
    s.handleReconnect id payload now =
      if ((s.reclaim userId id).registry.registerSession id ⟨userId, request.token⟩).1 then
        ({ success := true
           message := str "Reconnect accepted"
           sessionId := UInt64.ofNat id
           resumeFromSeq := (s.restoredLastSeq id request userId + 1).toUInt32 },
          s.resume id request userId)
      else
        ({ message := str "User already logged in" },
          ((s.reclaim userId id).modifySession id
            (·.attachUserContext ⟨userId, request.token⟩)).countError) := by
  unfold handleReconnect resume restoredLastSeq attach reclaim
  rw [h.decoded]
  simp only [h.valid, modifySession]
  rcases s.registry.heldByOther userId id with _ | existing
  · simp only []
    split
    · rename_i heq
      rw [heq]
      rfl
    · rename_i heq
      rw [heq]
      rfl
  · simp only []
    split
    · rename_i heq
      rw [heq]
      rfl
    · rename_i heq
      rw [heq]
      rfl

theorem handleReconnect_of_valid {s : Server σ} {payload : Bytes} {now : Time}
    {request : SessionReconnectRequest} {userId : Str}
    (h : Reconnects s payload now request userId) (id : ℕ) :
    (s.handleReconnect id payload now).2 =
      if ((s.reclaim userId id).registry.registerSession id ⟨userId, request.token⟩).1 then
        s.resume id request userId
      else ((s.reclaim userId id).modifySession id
        (·.attachUserContext ⟨userId, request.token⟩)).countError := by
  rw [handleReconnect_eq h]
  split_ifs <;> rfl

/-- A reconnect with a good token is accepted if its session can be registered. -/
theorem handleReconnect_success {s : Server σ} {payload : Bytes} {now : Time}
    {request : SessionReconnectRequest} {userId : Str}
    (h : Reconnects s payload now request userId) (id : ℕ) :
    (s.handleReconnect id payload now).1.success =
      ((s.reclaim userId id).registry.registerSession id ⟨userId, request.token⟩).1 := by
  rw [handleReconnect_eq h]
  split_ifs with hreg
  · exact hreg.symm
  · exact (Bool.eq_false_iff.mpr hreg).symm

/-- A reconnect is refused, or its token is good. -/
theorem handleReconnect_refused (s : Server σ) (id : ℕ) (payload : Bytes) (now : Time) :
    ((s.handleReconnect id payload now).1.success = false ∧ ∃ tokenService,
      s.tokenService.Prunes tokenService ∧
      (s.handleReconnect id payload now).2 = { s with tokenService }.countError) ∨
    ∃ request userId, Reconnects s payload now request userId := by
  rcases hd : decodeSessionReconnectRequest payload with e | request
  · refine .inl ?_
    unfold handleReconnect
    rw [hd]
    exact ⟨rfl, s.tokenService, .refl _, rfl⟩
  · have hprunes := s.tokenService.validateToken_prunes request.token now
    rcases hv : s.tokenService.validateToken request.token now with ⟨_ | userId, tokenService⟩
    · rw [hv] at hprunes
      refine .inl ?_
      unfold handleReconnect
      rw [hd]
      simp only [hv]
      exact ⟨trivial, tokenService, hprunes, rfl⟩
    · have htok := TokenService.validateToken_some hv
      subst htok
      exact .inr ⟨request, userId, hd, hv⟩

end Logins

section Packets

/-- What a packet that has passed the gate may do. -/
inductive Effect (s : Server σ) (id : ℕ) (header : FrameHeader) (payload : Bytes) (now : Time) :
    Server σ → Prop where
  | calm {s' : Server σ} (tokenService : TokenService)
      (h : Calm Session.stamp { s with tokenService } s') : Effect s id header payload now s'
  | login (tokenService : TokenService) (context : UserContext)
      (h : s.registry.heldByOther context.userId id = none) :
      Effect s id header payload now ({ s with tokenService }.attach id context)
  | logout : Effect s id header payload now (s.detach id)
  | reconnect (request : SessionReconnectRequest) (userId : Str)
      (ht : PacketType.ofCode header.type = some .sessionReconnectReq)
      (h : Reconnects s payload now request userId)
      (hr : ((s.reclaim userId id).registry.registerSession id ⟨userId, request.token⟩).1 = true) :
      Effect s id header payload now (s.resume id request userId)
  | clash (request : SessionReconnectRequest) (userId : Str)
      (h : Reconnects s payload now request userId)
      (hr : ((s.reclaim userId id).registry.registerSession id ⟨userId, request.token⟩).1 = false) :
      Effect s id header payload now ((s.reclaim userId id).modifySession id
        (·.attachUserContext ⟨userId, request.token⟩)).countError
  | enter {s' : Server σ} (charId : UInt64) (instanceId : ℕ)
      (h : Calm Session.stamp
        { s with
          sessionCharacters := s.sessionCharacters.insert id charId
          sessionInstances := s.sessionInstances.insert id instanceId } s') :
      Effect s id header payload now s'
  | grant {s' : Server σ} (instanceId grantId : ℕ)
      (h : Calm Session.stamp
        { s with
          instanceRewardGrants := s.instanceRewardGrants.insert instanceId grantId } s') :
      Effect s id header payload now s'
  | guild {s' : Server σ} (call : GuildCall) (hc : GuildCallBy id call)
      (h : Calm Session.stamp { s with guildService := s.guildService.call call } s') :
      Effect s id header payload now s'

variable {s s' : Server σ} {id : ℕ} {header : FrameHeader} {payload : Bytes} {now : Time}

theorem Effect.ofCalm (h : Calm Session.stamp s s') : Effect s id header payload now s' :=
  .calm s.tokenService h

/-- What a packet that has passed the gate does, with all that its handler asked for. -/
inductive Outcome (s : Server σ) (id : ℕ) (header : FrameHeader) (payload : Bytes) (now : Time) :
    Server σ → Prop where
  | calm {s' : Server σ} (h : Calm Session.stamp s s') : Outcome s id header payload now s'
  | badToken (tokenService : TokenService) (h : s.tokenService.Prunes tokenService) :
      Outcome s id header payload now { s with tokenService }.countError
  | login (request : LoginRequest) (ht : PacketType.ofCode header.type = some .loginReq)
      (h : Logs s id payload request) :
      Outcome s id header payload now
        ({ s with tokenService := (s.tokenService.issueToken request.userId now).2 }.attach id
          (s.loginContext request now))
  | logout (ht : PacketType.ofCode header.type = some .logoutReq)
      (h : (decodeLogoutRequest payload).isOk) : Outcome s id header payload now (s.detach id)
  | reconnect (request : SessionReconnectRequest) (userId : Str)
      (ht : PacketType.ofCode header.type = some .sessionReconnectReq)
      (h : Reconnects s payload now request userId)
      (hr : ((s.reclaim userId id).registry.registerSession id ⟨userId, request.token⟩).1 = true) :
      Outcome s id header payload now (s.resume id request userId)
  | clash (request : SessionReconnectRequest) (userId : Str)
      (ht : PacketType.ofCode header.type = some .sessionReconnectReq)
      (h : Reconnects s payload now request userId)
      (hr : ((s.reclaim userId id).registry.registerSession id ⟨userId, request.token⟩).1 = false) :
      Outcome s id header payload now ((s.reclaim userId id).modifySession id
        (·.attachUserContext ⟨userId, request.token⟩)).countError
  | enter {s' : Server σ} (charId : UInt64) (instanceId : ℕ) (hu : (s.userContext id).isSome)
      (h : Calm Session.stamp
        { s with
          sessionCharacters := s.sessionCharacters.insert id charId
          sessionInstances := s.sessionInstances.insert id instanceId } s') :
      Outcome s id header payload now s'
  | grant {s' : Server σ} (instanceId grantId : ℕ)
      (h : Calm Session.stamp
        { s with
          instanceRewardGrants := s.instanceRewardGrants.insert instanceId grantId } s') :
      Outcome s id header payload now s'
  | guild {s' : Server σ} (call : GuildCall) (user : UserContext)
      (hu : s.userContext id = some user) (hc : GuildCallAs id user.userId call)
      (h : Calm Session.stamp { s with guildService := s.guildService.call call } s') :
      Outcome s id header payload now s'

/-- The packet is a login that is accepted, or a reconnect with a good token. -/
def Attaches (s : Server σ) (id : ℕ) (header : FrameHeader) (payload : Bytes) (now : Time) : Prop :=
  (PacketType.ofCode header.type = some .loginReq ∧ ∃ request, Logs s id payload request) ∨
    (PacketType.ofCode header.type = some .sessionReconnectReq ∧
      ∃ request userId, Reconnects s payload now request userId)

theorem Attaches.congr (h : s'.Attaches id header payload now)
    (hregistry : s'.registry = s.registry) (htokens : s'.tokenService = s.tokenService) :
    s.Attaches id header payload now := by
  rcases h with ⟨ht, request, hdecoded, hpassword, hfree⟩ | ⟨ht, request, userId, hdecoded, hvalid⟩
  · exact .inl ⟨ht, request, hdecoded, hpassword, hregistry ▸ hfree⟩
  · rw [htokens] at hvalid
    exact .inr ⟨ht, request, userId, hdecoded, hvalid⟩

theorem Outcome.effect (h : Outcome s id header payload now s') :
    Effect s id header payload now s' := by
  cases h with
  | calm h => exact .ofCalm h
  | badToken tokenService h => exact .calm tokenService (countError_calm _)
  | login request ht h => exact .login _ _ h.free
  | logout ht h => exact .logout
  | reconnect request userId ht h hr => exact .reconnect request userId ht h hr
  | clash request userId ht h hr => exact .clash request userId h hr
  | enter charId instanceId hu h => exact .enter charId instanceId h
  | grant instanceId grantId h => exact .grant instanceId grantId h
  | guild call user hu hc h => exact .guild call hc.by h

theorem Outcome.ofGuild (h : GuildEffect s s' id) : Outcome s id header payload now s' := by
  rcases h with h | ⟨call, user, hu, hc, h⟩
  · exact .calm h
  · exact .guild call user hu hc h

theorem handleReconnect_outcome (ht : PacketType.ofCode header.type = some .sessionReconnectReq) :
    Outcome s id header payload now (s.handleReconnect id payload now).2 := by
  rcases s.handleReconnect_refused id payload now with
    ⟨-, tokenService, hprunes, h⟩ | ⟨request, userId, h⟩
  · rw [h]
    exact .badToken tokenService hprunes
  · rw [handleReconnect_of_valid h]
    split_ifs with hr
    · exact .reconnect request userId ht h hr
    · exact .clash request userId ht h (Bool.eq_false_iff.mpr hr)

theorem dispatch_outcome [InventoryStorage σ] (s : Server σ) (id : ℕ) (header : FrameHeader)
    (payload : Bytes) (now : Time) :
    Outcome s id header payload now (s.dispatch id header payload now).2 := by
  unfold dispatch
  split
  · rename_i ht
    show Outcome s id header payload now (s.handleLogin id payload now).2
    rcases s.handleLogin_cases id payload now with ⟨request, h⟩ | ⟨-, h⟩
    · rw [handleLogin_of_logs h]
      exact .login request ht h
    · rw [h]
      exact .calm s.countError_calm
  · rename_i ht
    show Outcome s id header payload now (s.handleLogout id payload).2
    unfold handleLogout
    split
    · exact .calm s.countError_calm
    · rename_i hd
      refine .logout ht ?_
      rw [hd]
      rfl
  · rename_i ht
    exact handleReconnect_outcome ht
  · exact .calm (s.handleMatch_calm id header.version payload now)
  · rcases s.handleEnter_effect id payload with ⟨-, h⟩ | ⟨-, hu, charId, instanceId, h⟩
    · exact .calm h
    · exact .enter charId instanceId hu h
  · rcases s.handleResult_effect id payload with ⟨-, h⟩ | ⟨-, instanceId, grantId, -, -, h⟩
    · exact .calm h
    · exact .grant instanceId grantId h
  · exact .calm (s.handleInventoryUpdate_calm id payload)
  · exact .ofGuild (s.handleGuildCreate_effect id payload)
  · exact .ofGuild (s.handleGuildJoin_effect id payload)
  · exact .ofGuild (s.handleGuildLeave_effect id payload)
  · exact .calm (s.handleChat_calm id payload)
  · exact .calm s.countError_calm

/-- A packet is for no session, stops at the gate, or has an outcome. -/
theorem handlePacket_outcome [InventoryStorage σ] (s : Server σ) (id : ℕ) (header : FrameHeader)
    (payload : Bytes) (now : Time) :
    (s.heap[id]? = none ∧ (s.handlePacket id header payload now).2 = s) ∨
    ∃ session gated session', s.heap[id]? = some session ∧
      s.gatePacket session header payload now = (gated, session') ∧
      (((∀ inner, gated ≠ .passed inner) ∧ Calm Session.stamp (s.receive id session' payload)
          (s.handlePacket id header payload now).2) ∨
      ∃ inner, gated = .passed inner ∧ Outcome (s.receive id session' payload) id header inner now
          (s.handlePacket id header payload now).2) := by
  rcases s.handlePacket_cases id header payload now with
    ⟨hs, h⟩ | ⟨session, session', hs, ⟨hg, h⟩ | ⟨reject, hg, h⟩ | ⟨inner, hg, h⟩⟩
  · exact .inl ⟨hs, congrArg Prod.snd h⟩
  · rw [h]
    exact .inr ⟨session, _, session', hs, hg, .inl ⟨by simp, countError_calm _⟩⟩
  · rw [h]
    exact .inr ⟨session, _, session', hs, hg, .inl ⟨by simp, countError_calm _⟩⟩
  · rw [h]
    exact .inr ⟨session, _, session', hs, hg, .inr ⟨inner, rfl, dispatch_outcome ..⟩⟩

/-- A packet is for no session, stops at the gate, or has an effect. -/
theorem handlePacket_effect [InventoryStorage σ] (s : Server σ) (id : ℕ) (header : FrameHeader)
    (payload : Bytes) (now : Time) :
    (s.heap[id]? = none ∧ (s.handlePacket id header payload now).2 = s) ∨
    ∃ session gated session', s.heap[id]? = some session ∧
      s.gatePacket session header payload now = (gated, session') ∧
      (((∀ inner, gated ≠ .passed inner) ∧ Calm Session.stamp (s.receive id session' payload)
          (s.handlePacket id header payload now).2) ∨
      ∃ inner, gated = .passed inner ∧ Effect (s.receive id session' payload) id header inner now
          (s.handlePacket id header payload now).2) := by
  rcases s.handlePacket_outcome id header payload now with
    h | ⟨session, gated, session', hs, hg, h | ⟨inner, hinner, h⟩⟩
  · exact .inl h
  · exact .inr ⟨session, gated, session', hs, hg, .inl h⟩
  · exact .inr ⟨session, gated, session', hs, hg, .inr ⟨inner, hinner, h.effect⟩⟩

end Packets

section Removal

/-- The server without a session. -/
def without (s : Server σ) (id : ℕ) : Server σ :=
  { s with
    heap := if id ∈ s.sessions then s.heap.modify id Session.clearUserContext else s.heap
    sessions := s.sessions.erase id
    registry := s.registry.removeSession id
    partyService := (s.partyService.removeMember id).2.2
    guildService := (s.guildService.removeMember id).2.2
    sessionInstances := s.sessionInstances.erase id
    sessionCharacters := s.sessionCharacters.erase id }

/-- A removed session is gone, and then the guild it was in is told. -/
theorem removeSession_delivers (s : Server σ) (id : ℕ) :
    Delivers (s.without id) (s.removeSession id) := by
  unfold removeSession forgetSession without modifySession
  simp only []
  split_ifs with h
  · obtain ⟨heap, clock, heq, hk⟩ := deliverGuildEvents_delivers
      { s with
        heap := s.heap.modify id Session.clearUserContext
        sessions := s.sessions.erase id
        registry := s.registry.removeSession id
        partyService := (s.partyService.removeMember id).2.2
        guildService := (s.guildService.removeMember id).2.2 }
      (s.guildService.removeMember id).2.1
    rw [heq]
    exact ⟨heap, clock, rfl, hk⟩
  · obtain ⟨heap, clock, heq, hk⟩ := deliverGuildEvents_delivers
      { s with
        registry := s.registry.removeSession id
        partyService := (s.partyService.removeMember id).2.2
        guildService := (s.guildService.removeMember id).2.2 }
      (s.guildService.removeMember id).2.1
    rw [heq, Dict.erase_of_not_mem s.sessions h]
    exact ⟨heap, clock, rfl, hk⟩

theorem removeSession_calm (s : Server σ) (id : ℕ) :
    Calm Session.stamp (s.without id) (s.removeSession id) :=
  (s.removeSession_delivers id).calm

theorem tickSessions_calm (s : Server σ) (now : Time) :
    Calm Session.stamp s (s.tickSessions now).2 := by
  unfold tickSessions
  refine List.foldlRecOn (motive := fun p : List ℕ × Server σ => Calm Session.stamp s p.2) _ _
    (.refl _ s) ?_
  rintro ⟨toRemove, t⟩ ht id -
  simp only []
  split
  · exact ht
  · rename_i session hs
    exact ht.trans ⟨rfl, rfl, rfl, rfl, rfl, rfl, rfl, rfl, rfl,
      keeps_insert hs (tick_stamp _ _), fun _ h => .inl h⟩

variable {I : Server σ → Prop} (hcalm : ∀ s s', Calm Session.stamp s s' → I s → I s')
  (hremove : ∀ s id, I s → I (s.without id))

include hcalm hremove in
/-- What calm changes and removals keep, a tick keeps. -/
theorem tick_preserves {s : Server σ} (now : Time) (h : I s) : I (s.tick now) :=
  List.foldlRecOn (motive := I) _ _ (hcalm s _ (s.tickSessions_calm now) h)
    fun t ht id _ => hcalm _ _ (t.removeSession_calm id) (hremove t id ht)

include hcalm hremove in
/-- What calm changes and removals keep, every event keeps if new sessions, party calls and packets
do. -/
theorem step_preserves [InventoryStorage σ] {s : Server σ} {e : ServerEvent} (h : I s)
    (hcreate : ∀ config now, I (s.createSession config now))
    (hparty : ∀ call, e = .party call →
      I { s with partyService := s.partyService.call call })
    (hpacket : ∀ id header payload now, e = .packet id header payload now →
      I (s.handlePacket id header payload now).2) : I (serverStep s e) := by
  have hgone : ∀ id, I (s.removeSession id) :=
    fun id => hcalm _ _ (s.removeSession_calm id) (hremove s id h)
  cases e with
  | createSession config now => exact hcreate config now
  | packet id header payload now => exact hpacket id header payload now rfl
  | tick now => exact tick_preserves hcalm hremove now h
  | removeSession id => exact hgone id
  | forceDisconnect id =>
    show I (s.forceDisconnect id).2
    unfold forceDisconnect
    split
    · exact hcalm s _ s.countError_calm h
    · exact hgone id
  | party call => exact hparty call rfl
  | inst call => exact hcalm s _ (s.instances_calm _) h
  | session id call =>
    refine hcalm s _ ⟨rfl, rfl, rfl, rfl, rfl, rfl, rfl, rfl, rfl, ?_, fun _ h => .inl h⟩ h
    exact keeps_modify _ _ fun session => call_stamp session call

end Removal

end Server

end DungeonHub
