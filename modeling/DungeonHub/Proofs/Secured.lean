import DungeonHub.Lib.Veil
import DungeonHub.Proofs.Mediation
import DungeonHub.Proofs.Replay
import DungeonHub.Proofs.Tampering

/-!
# The secured transport

Only the gate looks at a policy's two security checks and at the sequence number and nonces of a
packet's own session, and nothing looks at the bytes counted. So a packet that is wrapped for the
gate is handled just as what is in it would be without a gate.
-/

namespace DungeonHub

open Wire Veil

/-- A session without what only the gate looks at. -/
def Session.veil (s : Session) : Session :=
  { s with lastSeq := 0, nonceCache := ∅, nonceOrder := [] }

theorem admitted_veil (sec : SecurityHeader) (s : Session) : (admitted sec s).veil = s.veil := by
  unfold admitted Session.recordNonce
  split_ifs <;> rfl

theorem enqueueSend_veil (s : Session) (payload : Bytes) (now : Time) :
    s.veil.enqueueSend payload now =
      ((s.enqueueSend payload now).1, (s.enqueueSend payload now).2.veil) := by
  unfold Session.enqueueSend Session.enqueueAnswered
  by_cases hconnected : (!s.connected) = true
  · rw [if_pos hconnected]
    exact if_pos hconnected
  rw [if_neg hconnected]
  refine (if_neg hconnected).trans ?_
  simp only []
  by_cases hok : (!(s.bucket.consume payload.length now).1) = true
  · rw [if_pos hok]
    exact if_pos hok
  rw [if_neg hok]
  refine (if_neg hok).trans ?_
  by_cases hfull : s.sendQueueBytes + payload.length > s.config.sendQueueLimitBytes
  · rw [if_pos hfull]
    refine (if_pos hfull).trans ?_
    rcases hpolicy : s.config.overflowPolicy with _ | _ | _
    all_goals
      have hveil : s.veil.config.overflowPolicy = _ := hpolicy
      rw [hveil]
      rfl
  · rw [if_neg hfull]
    exact if_neg hfull

section Wrapping

variable (policy : SecurityPolicy) (header : FrameHeader) (session : Session) {seq : UInt32}
  {nonce : UInt64}

/-- A wrapped payload that is new passes both checks, and is admitted. -/
theorem gate_wrapSecurePayload (htls : policy.requireTls = true → session.tlsEstablished = true)
    (hversion : kMinProtocolVersion ≤ header.version ∧ header.version ≤ kMaxProtocolVersion)
    (hreplay : policy.enableReplayProtection = true) (hseq : session.lastSeq < seq.toUInt64)
    (hnonce : nonce ∉ session.nonceCache) (payload : Bytes) :
    gate policy header (wrapSecurePayload seq nonce policy.hmacKey payload) session =
      (.passed payload,
        admitted ⟨seq, nonce, computeSignature policy.hmacKey seq nonce payload⟩ session) := by
  have hunwrap := unwrap_wrapSecurePayload seq nonce policy.hmacKey payload
  have hpass : Passes policy session header
      (wrapSecurePayload seq nonce policy.hmacKey payload) :=
    ⟨htls, hversion, fun _ => ⟨_, payload, hunwrap, verify_wrapSecurePayload ..⟩,
      fun _ => ⟨_, payload, hunwrap, hseq, hnonce⟩⟩
  obtain ⟨inner, hinner⟩ := gate_passed_iff.mpr hpass
  rcases gate_cases policy header (wrapSecurePayload seq nonce policy.hmacKey payload) session with
    ⟨-, hno⟩ | ⟨sec, inner', hunwrap', -, heq⟩
  · exact absurd hinner (hno hreplay inner)
  · rw [hunwrap] at hunwrap'
    cases hunwrap'
    exact heq

/-- Without the two checks a payload passes as it is. -/
theorem gate_unwrapped (htls : policy.requireTls = true → session.tlsEstablished = true)
    (hversion : kMinProtocolVersion ≤ header.version ∧ header.version ≤ kMaxProtocolVersion)
    (hmac : policy.requireHmac = false) (hreplay : policy.enableReplayProtection = false)
    (payload : Bytes) : gate policy header payload session = (.passed payload, session) := by
  unfold gate securityCheck
  rw [if_neg (by simpa using htls), hmac, hreplay, if_neg]
  · rfl
  · exact not_or.mpr ⟨UInt16.not_lt.mpr hversion.1, UInt16.not_lt.mpr hversion.2⟩

theorem gate_plaintext (hno : ¬ (policy.requireTls = true → session.tlsEstablished = true))
    (payload : Bytes) : gate policy header payload session = (.dropped, session) := by
  unfold gate
  rw [if_pos (by simpa using hno)]

end Wrapping

namespace Server

variable {σ : Type}

/-- A server that lets packets through unsigned and more than once. -/
def unsecured (s : Server σ) : Server σ :=
  { s with
    securityPolicy :=
      { s.securityPolicy with requireHmac := false, enableReplayProtection := false } }

/-- A server without what sets a secured session apart: the two checks, the bytes counted, and the
session's own sequence number and nonces. -/
@[simps]
def veil (k : ℕ) (s : Server σ) : Server σ :=
  { s with
    heap := s.heap.modify k Session.veil
    metrics := { s.metrics with bytesTotal := 0 }
    securityPolicy :=
      { s.securityPolicy with requireHmac := false, enableReplayProtection := false } }

section Primitives

variable (s : Server σ) (k : ℕ)

theorem veil_veil : (s.veil k).veil k = s.veil k := by
  show { s.veil k with heap := (s.heap.modify k Session.veil).modify k Session.veil } = _
  rw [Dict.modify_modify]
  rfl

theorem get?_veil (id : ℕ) :
    (s.veil k).heap[id]? = if k = id then s.heap[id]?.map Session.veil else s.heap[id]? :=
  Dict.get?_modify ..

theorem userContext_veil (id : ℕ) : (s.veil k).userContext id = s.userContext id := by
  unfold userContext
  rw [get?_veil]
  split_ifs
  · rcases s.heap[id]? <;> rfl
  · rfl

theorem modifySession_veil (id : ℕ) {f : Session → Session}
    (h : ∀ session, f session.veil = (f session).veil) :
    (s.veil k).modifySession id f = (s.modifySession id f).veil k := by
  show { s.veil k with heap := (s.heap.modify k Session.veil).modify id f } = _
  rw [Dict.modify_comm _ k id fun session => (h session).symm]
  rfl

theorem deliver_veil (id : ℕ) (frame : Session → Bytes)
    (h : ∀ session, frame session.veil = frame session) :
    (s.veil k).deliver id frame = (s.deliver id frame).veil k := by
  unfold deliver findSession
  rw [veil_sessions, get?_veil]
  by_cases hid : id ∈ s.sessions
  · rw [if_pos hid, if_pos hid]
    rcases hsession : s.heap[id]? with _ | session
    · split_ifs <;> rfl
    · have hsent : (if k = id then (session.enqueueSend (frame session) s.clock.next.1).2.veil
          else (session.enqueueSend (frame session) s.clock.next.1).2) =
        ((if k = id then session.veil else session).enqueueSend
          (frame (if k = id then session.veil else session)) s.clock.next.1).2 := by
        split_ifs
        · rw [h, enqueueSend_veil]
        · rfl
      have hopt : (if k = id then (some session).map Session.veil else some session) =
          some (if k = id then session.veil else session) := by
        split_ifs <;> rfl
      have hheap : (s.veil k).heap.insert id ((if k = id then session.veil else session).enqueueSend
          (frame (if k = id then session.veil else session)) s.clock.next.1).2 =
          (s.heap.insert id (session.enqueueSend (frame session) s.clock.next.1).2).modify k
            Session.veil := by
        rw [Dict.modify_insert, ← hsent]
        rfl
      rw [hopt]
      simp only [veil_clock, hheap]
      rfl
  · rw [if_neg hid, if_neg hid]

theorem findSession_veil (id : ℕ) :
    (s.veil k).findSession id =
      if k = id then (s.findSession id).map Session.veil else s.findSession id := by
  unfold findSession
  rw [veil_sessions, get?_veil]
  split_ifs <;> rfl

theorem findSession_veil_none {s : Server σ} {id : ℕ} (h : s.findSession id = none) :
    (s.veil k).findSession id = none := by
  rw [findSession_veil, h]
  split_ifs <;> rfl

theorem findSession_veil_some {s : Server σ} {id : ℕ} {session : Session}
    (h : s.findSession id = some session) :
    ∃ session', (s.veil k).findSession id = some session' := by
  rw [findSession_veil, h]
  split_ifs
  · exact ⟨session.veil, rfl⟩
  · exact ⟨session, rfl⟩

theorem handleLogout_veil (id : ℕ) (payload : Bytes) :
    (s.veil k).handleLogout id payload =
      ((s.handleLogout id payload).1, (s.handleLogout id payload).2.veil k) := by
  unfold handleLogout
  rcases decodeLogoutRequest payload with e | request
  · rfl
  · simp only []
    rw [modifySession_veil s k id (f := Session.clearUserContext) fun _ => rfl]
    rfl

theorem handleLogin_veil (id : ℕ) (payload : Bytes) (now : Time) :
    (s.veil k).handleLogin id payload now =
      ((s.handleLogin id payload now).1, (s.handleLogin id payload now).2.veil k) := by
  have hattach := fun context => modifySession_veil s k id (f := (·.attachUserContext context))
    fun _ => rfl
  unfold handleLogin
  simp only [veil_registry, veil_tokenService, hattach]
  split
  · rfl
  · simp only [modifySession]
    split <;> rfl

theorem handleInventoryUpdate_veil [InventoryStorage σ] (id : ℕ) (payload : Bytes) :
    (s.veil k).handleInventoryUpdate id payload =
      ((s.handleInventoryUpdate id payload).1, (s.handleInventoryUpdate id payload).2.veil k) := by
  unfold handleInventoryUpdate
  simp only [userContext_veil, veil_inventoryStorage]
  split <;> rfl

theorem deliverGuildEvents_veil (events : GuildService.Events) :
    (s.veil k).deliverGuildEvents events = (s.deliverGuildEvents events).veil k := by
  unfold deliverGuildEvents
  exact List.foldl_hom _ fun t event => t.deliver_veil k event.1 _ fun _ => rfl

theorem handleGuildCreate_veil (id : ℕ) (payload : Bytes) :
    (s.veil k).handleGuildCreate id payload =
      ((s.handleGuildCreate id payload).1, (s.handleGuildCreate id payload).2.veil k) := by
  unfold handleGuildCreate
  simp only [userContext_veil, veil_guildService]
  split
  · rfl
  · rename_i request user h
    rcases s.guildService.createGuild id user.userId request.guildName with
      ⟨_ | guildId, events, guildService⟩
    · refine Prod.ext rfl ?_
      exact congrArg countError (deliverGuildEvents_veil { s with guildService } k events)
    · refine Prod.ext rfl ?_
      exact deliverGuildEvents_veil { s with guildService } k events

theorem handleGuildJoin_veil (id : ℕ) (payload : Bytes) :
    (s.veil k).handleGuildJoin id payload =
      ((s.handleGuildJoin id payload).1, (s.handleGuildJoin id payload).2.veil k) := by
  unfold handleGuildJoin
  simp only [userContext_veil, veil_guildService]
  split
  · rfl
  · rename_i request user h
    rcases s.guildService.joinGuild request.guildId.toNat id user.userId with
      ⟨success, events, guildService⟩
    refine Prod.ext rfl ?_
    exact deliverGuildEvents_veil { s with guildService } k events

theorem handleGuildLeave_veil (id : ℕ) (payload : Bytes) :
    (s.veil k).handleGuildLeave id payload =
      ((s.handleGuildLeave id payload).1, (s.handleGuildLeave id payload).2.veil k) := by
  unfold handleGuildLeave checkGuildLeave
  simp only [userContext_veil, veil_guildService]
  split
  · rfl
  · rename_i guildId h
    rcases s.guildService.leaveGuild guildId id with ⟨success, events, guildService⟩
    refine Prod.ext rfl ?_
    exact deliverGuildEvents_veil { s with guildService } k events

theorem sendChat_veil (event : ChatEvent) (recipients : List ℕ) :
    (s.veil k).sendChat event recipients =
      ((s.sendChat event recipients).1, (s.sendChat event recipients).2.veil k) := by
  unfold sendChat
  split_ifs
  · rfl
  · refine Prod.ext rfl ?_
    exact List.foldl_hom _ fun t recipient => t.deliver_veil k recipient _ fun _ => rfl

theorem loggedIn_veil : (s.veil k).loggedIn = s.loggedIn := by
  unfold loggedIn
  simp only [userContext_veil, veil_sessions]

theorem handlePartyChat_veil (id : ℕ) (user : UserContext) (request : ChatSendRequest) :
    (s.veil k).handlePartyChat id user request =
      ((s.handlePartyChat id user request).1, (s.handlePartyChat id user request).2.veil k) := by
  unfold handlePartyChat checkPartyChat
  simp only [veil_partyService, sendChat_veil]
  split
  · rfl
  · rename_i partyId recipients h
    rcases s.sendChat _ recipients with ⟨_ | _, s'⟩ <;> rfl

theorem handleChat_veil (id : ℕ) (payload : Bytes) :
    (s.veil k).handleChat id payload =
      ((s.handleChat id payload).1, (s.handleChat id payload).2.veil k) := by
  unfold handleChat
  simp only [userContext_veil, loggedIn_veil, sendChat_veil, handlePartyChat_veil]
  split
  · rfl
  · split_ifs <;> rfl

theorem checkEnter_veil (id : ℕ) (payload : Bytes) :
    (s.veil k).checkEnter id payload = s.checkEnter id payload := by
  unfold checkEnter
  simp only [userContext_veil, veil_instanceManager, veil_instanceTickets, veil_partyService]

theorem handleEnter_veil (id : ℕ) (payload : Bytes) :
    (s.veil k).handleEnter id payload =
      ((s.handleEnter id payload).1, (s.handleEnter id payload).2.veil k) := by
  unfold handleEnter
  simp only [checkEnter_veil, veil_instanceManager, veil_partyService]
  split
  · rfl
  · split <;> rfl

theorem grantResult_veil [InventoryStorage σ] (id instanceId : ℕ) (rewards : List RewardItem) :
    (s.veil k).grantResult id instanceId rewards =
      ((s.grantResult id instanceId rewards).1,
        (s.grantResult id instanceId rewards).2.veil k) := by
  unfold grantResult
  simp only [veil_sessionCharacters, veil_nextRewardGrantId, veil_inventoryStorage]
  split
  · rfl
  · split
    · rfl
    · rfl
    · split <;> rfl

theorem handleResult_veil [InventoryStorage σ] (id : ℕ) (payload : Bytes) :
    (s.veil k).handleResult id payload =
      ((s.handleResult id payload).1, (s.handleResult id payload).2.veil k) := by
  unfold handleResult checkResult
  simp only [userContext_veil, veil_sessionInstances, veil_instanceManager,
    veil_instanceRewardGrants, veil_partyService]
  split
  · rfl
  · split
    · rfl
    · rename_i instanceManager h
      exact grantResult_veil { s with instanceManager } k id _ _

theorem bindMember_veil (instanceId : ℕ) (frame : Bytes) (asked : ℕ → Bool)
    (member : PartyMember) :
    (s.veil k).bindMember instanceId frame asked member =
      (s.bindMember instanceId frame asked member).veil k := by
  have hbound := deliver_veil
    { s with sessionInstances := s.sessionInstances.insert member.sessionId instanceId } k
    member.sessionId (fun _ => frame) fun _ => rfl
  unfold bindMember
  rcases hfound : s.findSession member.sessionId with _ | session
  · rw [findSession_veil_none k hfound]
  · obtain ⟨session', hfound'⟩ := findSession_veil_some k hfound
    rw [hfound']
    rcases asked member.sessionId with _ | _
    · exact hbound
    · rfl

theorem bindMembers_veil (instanceId : ℕ) (frame : Bytes) (asked : ℕ → Bool)
    (members : List PartyMember) :
    members.foldl (fun s member => s.bindMember instanceId frame asked member) (s.veil k) =
      (members.foldl (fun s member => s.bindMember instanceId frame asked member) s).veil k :=
  List.foldl_hom (veil k) fun t member => t.bindMember_veil k instanceId frame asked member

theorem openInstance_veil (instanceId partyId : ℕ) (version : UInt16) (asked : ℕ → Bool) :
    (s.veil k).openInstance instanceId partyId version asked =
      ((s.openInstance instanceId partyId version asked).1,
        (s.openInstance instanceId partyId version asked).2.veil k) := by
  unfold openInstance
  refine Prod.ext rfl ?_
  symm
  exact (bindMembers_veil _ k instanceId _ asked _).symm

theorem matchLoop_veil (id partyId : ℕ) (version : UInt16) :
    ∀ (candidates : List MatchCandidate) (requester : Option MatchFoundNotify) (s : Server σ),
      matchLoop id partyId version candidates requester (s.veil k) =
        ((matchLoop id partyId version candidates requester s).1,
          (matchLoop id partyId version candidates requester s).2.veil k)
  | [], some notify, s => rfl
  | [], none, s => rfl
  | candidate :: rest, requester, s => by
    unfold matchLoop
    simp only [veil_instanceManager, veil_partyService]
    rcases s.instanceManager.createInstance candidate.partyId s.partyService with
      ⟨_ | instanceId, instanceManager⟩
    · rfl
    · have hopen := openInstance_veil { s with instanceManager } k instanceId candidate.partyId
        version fun member => candidate.partyId = partyId && member = id
      refine Eq.trans ?_ (matchLoop_veil id partyId version rest _ _)
      exact congrArg (fun opened => matchLoop id partyId version rest
        (if candidate.partyId = partyId then some opened.1 else requester) opened.2) hopen

theorem checkMatch_veil (id : ℕ) (payload : Bytes) :
    (s.veil k).checkMatch id payload = s.checkMatch id payload := by
  unfold checkMatch
  simp only [userContext_veil, veil_partyService]

theorem handleMatch_veil (id : ℕ) (version : UInt16) (payload : Bytes) (now : Time) :
    (s.veil k).handleMatch id version payload now =
      ((s.handleMatch id version payload now).1,
        (s.handleMatch id version payload now).2.veil k) := by
  unfold handleMatch
  simp only [checkMatch_veil, veil_matchQueue]
  rcases s.checkMatch id payload with response | ⟨partyId, info⟩
  · rfl
  simp only []
  rcases s.matchQueue.enqueue _ with ⟨_ | _, queue⟩
  · rfl
  simp only []
  rcases queue.findMatch now with ⟨_ | ⟨first, second⟩, matchQueue⟩
  · exact matchLoop_veil k id partyId version _ none
      { s with matchQueue := (matchQueue.cancel partyId).2 }
  · exact matchLoop_veil k id partyId version _ none { s with matchQueue }

theorem takeOver_veil (existing id : ℕ) :
    (s.veil k).takeOver existing id = (s.takeOver existing id).veil k := by
  rcases hfound : s.findSession existing with _ | session
  · unfold takeOver
    rw [findSession_veil_none k hfound, hfound]
    rfl
  · obtain ⟨session', hfound'⟩ := findSession_veil_some k hfound
    have hheap : (s.veil k).heap.modify existing Session.clearUserContext =
        (s.heap.modify existing Session.clearUserContext).modify k Session.veil :=
      Dict.modify_comm _ k existing fun _ => rfl
    rw [takeOver_of_known hfound, takeOver_of_known hfound', hheap]
    rfl

theorem reclaim_veil (userId : Str) (id : ℕ) :
    (s.veil k).reclaim userId id = (s.reclaim userId id).veil k := by
  unfold reclaim
  rw [veil_registry]
  rcases s.registry.heldByOther userId id with _ | existing
  · rfl
  · exact takeOver_veil s k existing id

/-- The session that is taken over is another one, so its sequence number is in sight. -/
theorem previousLastSeq_veil (userId : Str) (id : ℕ) :
    (s.veil id).previousLastSeq (s.registry.heldByOther userId id) =
      s.previousLastSeq (s.registry.heldByOther userId id) := by
  rcases hheld : s.registry.heldByOther userId id with _ | existing
  · rfl
  · have hne := (SessionRegistry.heldByOther_eq_some.mp hheld).2
    unfold previousLastSeq
    rw [Option.bind_some, Option.bind_some, findSession_veil, if_neg hne.symm]

end Primitives

section Packets

variable (id : ℕ)

theorem attach_veil (s : Server σ) (k : ℕ) (context : UserContext) :
    (s.veil k).attach id context = (s.attach id context).veil k := by
  unfold attach
  rw [modifySession_veil s k id (f := (·.attachUserContext context)) fun _ => rfl]
  rfl

theorem restoredLastSeq_veil (s : Server σ) (request : SessionReconnectRequest) (userId : Str) :
    (s.veil id).restoredLastSeq id request userId = s.restoredLastSeq id request userId := by
  unfold restoredLastSeq
  rw [veil_registry, previousLastSeq_veil]

/-- The sequence number that a session is set to is behind its own veil. -/
theorem setLastSeq_veil (s : Server σ) (lastSeq : UInt64) :
    ((s.veil id).modifySession id (·.setLastSeq lastSeq)).veil id =
      (s.modifySession id (·.setLastSeq lastSeq)).veil id := by
  have hheap : (((s.heap.modify id Session.veil).modify id (·.setLastSeq lastSeq)).modify id
      Session.veil) = (s.heap.modify id (·.setLastSeq lastSeq)).modify id Session.veil := by
    rw [Dict.modify_modify, Dict.modify_modify, Dict.modify_modify]
    rfl
  exact congrArg (fun heap => { s.veil id with heap }) hheap

theorem handleReconnect_blind (payload : Bytes) (now : Time) :
    Blind (veil id) fun s : Server σ => s.handleReconnect id payload now := by
  intro s
  simp only []
  rcases hd : decodeSessionReconnectRequest payload with e | request
  · unfold handleReconnect
    rw [hd]
    exact ⟨rfl, veil_veil s.countError id⟩
  rcases hv : s.tokenService.validateToken request.token now with ⟨_ | userId, tokenService⟩
  · unfold handleReconnect
    simp only [hd, veil_tokenService, hv]
    exact ⟨trivial, veil_veil (countError { s with tokenService }) id⟩
  · obtain rfl := TokenService.validateToken_some hv
    have hre : Reconnects s payload now request userId := ⟨hd, hv⟩
    have hre' : Reconnects (s.veil id) payload now request userId := ⟨hd, hv⟩
    rw [handleReconnect_eq hre, handleReconnect_eq hre', restoredLastSeq_veil, reclaim_veil,
      veil_registry]
    split_ifs
    · refine ⟨rfl, ?_⟩
      unfold resume
      rw [restoredLastSeq_veil, reclaim_veil, attach_veil]
      exact setLastSeq_veil id _ _
    · refine ⟨rfl, ?_⟩
      rw [modifySession_veil _ id id (f := (·.attachUserContext ⟨userId, request.token⟩))
        fun _ => rfl]
      exact veil_veil (countError _) id

variable [InventoryStorage σ]

/-- No handler but that of a reconnect sees or changes what is behind the veil of any session. -/
theorem dispatch_veil (s : Server σ) (k : ℕ) {header : FrameHeader}
    (hno : PacketType.ofCode header.type ≠ some .sessionReconnectReq) (payload : Bytes)
    (now : Time) :
    (s.veil k).dispatch id header payload now =
      ((s.dispatch id header payload now).1, (s.dispatch id header payload now).2.veil k) := by
  unfold dispatch
  split
  · rw [handleLogin_veil]
  · rw [handleLogout_veil]
  · rename_i ht
    exact absurd ht hno
  · rw [handleMatch_veil]
  · rw [handleEnter_veil]
  · rw [handleResult_veil]
  · rw [handleInventoryUpdate_veil]
  · rw [handleGuildCreate_veil]
  · rw [handleGuildJoin_veil]
  · rw [handleGuildLeave_veil]
  · rw [handleChat_veil]
  · rfl

/-- A handler sees nothing of what is behind the veil of the session that it is called on. -/
theorem dispatch_blind (header : FrameHeader) (payload : Bytes) (now : Time) :
    Blind (veil id) fun s : Server σ => s.dispatch id header payload now := by
  by_cases ht : PacketType.ofCode header.type = some .sessionReconnectReq
  · intro s
    simp only [dispatch_reconnect ht]
    obtain ⟨hanswer, hstate⟩ := handleReconnect_blind id payload now s
    exact ⟨congrArg (fun r => some (Answer.mk .sessionReconnectRes r)) hanswer, hstate⟩
  · exact blind_of_commutes (fun s => s.veil_veil id) fun s => s.dispatch_veil id id ht payload now

end Packets

section Transport

theorem receive_veil (s : Server σ) (id : ℕ) {session session' : Session}
    (h : session.veil = session'.veil) (payload payload' : Bytes) :
    (s.receive id session payload).veil id =
      (s.unsecured.receive id session' payload').veil id := by
  have hheap : (s.heap.insert id session).modify id Session.veil =
      (s.heap.insert id session').modify id Session.veil := by
    rw [Dict.modify_insert, Dict.modify_insert, if_pos rfl, if_pos rfl, h]
  exact congrArg (fun heap => { (s.receive id session payload).veil id with heap }) hheap

variable [InventoryStorage σ]

/-- No packet changes the policy. -/
theorem handlePacket_policy (s : Server σ) (id : ℕ) (header : FrameHeader) (payload : Bytes)
    (now : Time) : (s.handlePacket id header payload now).2.securityPolicy = s.securityPolicy := by
  rcases s.handlePacket_effect id header payload now with
    ⟨-, h⟩ | ⟨session, gated, session', -, -, ⟨-, h⟩ | ⟨inner, -, h⟩⟩
  · rw [h]
  · exact h.policy
  · rcases effect_steady h with hsteady | ⟨_, _, t, -, -, -, hsteady, heq⟩
    · exact hsteady.policy
    · rw [heq]
      exact hsteady.policy

variable {s : Server σ} {id : ℕ} {session : Session} {version : UInt16} {seq : UInt32}
  {nonce : UInt64}

theorem answerPacket_wrapSecurePayload (hreplay : s.securityPolicy.enableReplayProtection = true)
    (hsession : s.heap[id]? = some session)
    (hversion : kMinProtocolVersion ≤ version ∧ version ≤ kMaxProtocolVersion)
    (hseq : session.lastSeq < seq.toUInt64) (hnonce : nonce ∉ session.nonceCache)
    (length length' : UInt32) (type : UInt16) (payload : Bytes) (now : Time) :
    (s.answerPacket id ⟨length, type, version⟩
        (wrapSecurePayload seq nonce s.securityPolicy.hmacKey payload) now).1 =
      (s.unsecured.answerPacket id ⟨length', type, version⟩ payload now).1 ∧
    (s.answerPacket id ⟨length, type, version⟩
        (wrapSecurePayload seq nonce s.securityPolicy.hmacKey payload) now).2.veil id =
      (s.unsecured.answerPacket id ⟨length', type, version⟩ payload now).2.veil id := by
  have hsession' : s.unsecured.heap[id]? = some session := hsession
  by_cases htls : s.securityPolicy.requireTls = true → session.tlsEstablished = true
  · have hgate := gate_wrapSecurePayload s.securityPolicy ⟨length, type, version⟩
      ((session.onReceive now).setProtocolVersion version) htls hversion hreplay hseq hnonce payload
    have hgate' := gate_unwrapped s.unsecured.securityPolicy ⟨length', type, version⟩
      ((session.onReceive now).setProtocolVersion version) htls hversion rfl rfl payload
    rw [answerPacket_of_passed hsession hgate, answerPacket_of_passed hsession' hgate']
    exact (dispatch_blind id ⟨length, type, version⟩ payload now).agree
      (receive_veil s id (admitted_veil ..) _ payload)
  · have hgate := gate_plaintext s.securityPolicy ⟨length, type, version⟩
      ((session.onReceive now).setProtocolVersion version) htls
      (wrapSecurePayload seq nonce s.securityPolicy.hmacKey payload)
    have hgate' := gate_plaintext s.unsecured.securityPolicy ⟨length', type, version⟩
      ((session.onReceive now).setProtocolVersion version) htls payload
    rw [answerPacket_of_dropped hsession hgate, answerPacket_of_dropped hsession' hgate']
    exact ⟨rfl, congrArg countError (receive_veil s id rfl _ payload)⟩

/-- With replay protection, with or without a signature, a packet that is new is handled just as
what is wrapped in it would be by the same server without the two checks: the answer is the same,
and so is everything they leave but what the veil hides. -/
theorem secure_transport_transparent (s : Server σ)
    (hreplay : s.securityPolicy.enableReplayProtection = true) (id : ℕ) (session : Session)
    (hsession : s.heap[id]? = some session) (version : UInt16)
    (hversion : kMinProtocolVersion ≤ version ∧ version ≤ kMaxProtocolVersion) (seq : UInt32)
    (nonce : UInt64) (hseq : session.lastSeq < seq.toUInt64) (hnonce : nonce ∉ session.nonceCache)
    (length length' : UInt32) (type : UInt16) (payload : Bytes) (now : Time) :
    (s.handlePacket id ⟨length, type, version⟩
        (wrapSecurePayload seq nonce s.securityPolicy.hmacKey payload) now).1 =
      (s.unsecured.handlePacket id ⟨length', type, version⟩ payload now).1 ∧
    (s.handlePacket id ⟨length, type, version⟩
        (wrapSecurePayload seq nonce s.securityPolicy.hmacKey payload) now).2.veil id =
      (s.unsecured.handlePacket id ⟨length', type, version⟩ payload now).2.veil id ∧
    (s.handlePacket id ⟨length, type, version⟩
        (wrapSecurePayload seq nonce s.securityPolicy.hmacKey payload) now).2.securityPolicy =
      s.securityPolicy ∧
    (s.unsecured.handlePacket id ⟨length', type, version⟩ payload now).2.securityPolicy =
      s.unsecured.securityPolicy := by
  obtain ⟨hanswer, hstate⟩ := answerPacket_wrapSecurePayload hreplay hsession hversion hseq hnonce
    length length' type payload now
  refine ⟨?_, hstate, handlePacket_policy .., handlePacket_policy ..⟩
  exact congrArg (Option.map fun a => a.frame version) hanswer

/-- A server that asks for a signature and a new sequence number, with one session. -/
def secured : Server (CachedInventoryStorage MySqlInventoryStorage InMemoryInventoryStorage) :=
  (still { requireHmac := true, enableReplayProtection := true }).createSession {} 0

theorem secure_transport_transparent_login :
    let login := encodeLoginRequest ⟨str "u", str "letmein"⟩
    let wrapped := wrapSecurePayload 1 7 (str "dev-secret") login
    (secured.handlePacket 1 ⟨0, PacketType.loginReq.code, 1⟩ wrapped 0).1.isSome = true ∧
    (secured.handlePacket 1 ⟨0, PacketType.loginReq.code, 1⟩ wrapped 0).1 =
      (secured.unsecured.handlePacket 1 ⟨0, PacketType.loginReq.code, 1⟩ login 0).1 := by
  refine ⟨by decide +kernel, ?_⟩
  have hsession : secured.heap[1]? = some (Session.new {} 0) := Dict.get?_insert_self ..
  have hnonce : (7 : UInt64) ∉ (Session.new {} 0).nonceCache := by
    rw [Dict.not_mem_iff]
    exact Dict.get?_empty 7
  exact (secure_transport_transparent secured rfl 1 _ hsession 1 (by decide) 1 7 (by decide) hnonce
    0 0 PacketType.loginReq.code _ 0).1

end Transport

end Server

end DungeonHub
