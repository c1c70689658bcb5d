import DungeonHub.Proofs.Packet

/-!
# What a packet must pass

The checks before the dispatch, as conditions on session and packet; and that a packet which fails
one of them, or whose session has no user and no good token to show, leaves everything but its own
session, the registry and the tokens as it was.
-/

namespace DungeonHub

open Wire

section Gate

/-- What the checks before the dispatch ask of a packet on a session. -/
structure Passes (policy : SecurityPolicy) (session : Session) (header : FrameHeader)
    (payload : Bytes) : Prop where
  tls : policy.requireTls = true → session.tlsEstablished = true
  version : kMinProtocolVersion ≤ header.version ∧ header.version ≤ kMaxProtocolVersion
  signed : policy.requireHmac = true → ∃ sec inner, unwrapSecurePayload payload = .ok (sec, inner) ∧
    verifySignature policy.hmacKey sec inner = true
  fresh : policy.enableReplayProtection = true → ∃ sec inner,
    unwrapSecurePayload payload = .ok (sec, inner) ∧ session.lastSeq < sec.seq.toUInt64 ∧
    sec.nonce ∉ session.nonceCache

/-- What a packet carries under the policy: its payload, or what is wrapped in it. -/
def bodyOf (policy : SecurityPolicy) (payload : Bytes) : Option Bytes :=
  if policy.requireHmac || policy.enableReplayProtection then
    (unwrapSecurePayload payload).toOption.map Prod.snd
  else some payload

theorem replayCheck_iff (header : SecurityHeader) (s : Session) :
    (replayCheck header s).1 = true ↔
      s.lastSeq < header.seq.toUInt64 ∧ header.nonce ∉ s.nonceCache := by
  unfold replayCheck
  by_cases hseq : header.seq.toUInt64 ≤ s.lastSeq
  · rw [if_pos hseq]
    refine iff_of_false (by simp) fun h => ?_
    exact UInt64.not_le.mpr h.1 hseq
  · rw [if_neg hseq]
    by_cases hn : header.nonce ∈ s.nonceCache
    · simp [Session.recordNonce, hn]
    · simp [Session.recordNonce, hn, UInt64.not_le.mp hseq]

theorem securityCheck_passed {policy : SecurityPolicy} {payload inner : Bytes} {s : Session}
    (h : (securityCheck policy payload s).1 = .passed inner) :
    bodyOf policy payload = some inner ∧
    (policy.requireHmac = true → ∃ sec body, unwrapSecurePayload payload = .ok (sec, body) ∧
      verifySignature policy.hmacKey sec body = true) ∧
    (policy.enableReplayProtection = true → ∃ sec body,
      unwrapSecurePayload payload = .ok (sec, body) ∧ s.lastSeq < sec.seq.toUInt64 ∧
      sec.nonce ∉ s.nonceCache) := by
  unfold securityCheck at h
  unfold bodyOf
  by_cases hsec : (policy.requireHmac || policy.enableReplayProtection) = true
  · rw [if_pos hsec] at h ⊢
    rcases hun : unwrapSecurePayload payload with e | ⟨sec, body⟩
    · rw [hun] at h
      cases h
    rw [hun] at h
    simp only [] at h
    by_cases hmac : (policy.requireHmac && !verifySignature policy.hmacKey sec body) = true
    · rw [if_pos hmac] at h
      cases h
    rw [if_neg hmac] at h
    have hsigned : policy.requireHmac = true →
        verifySignature policy.hmacKey sec body = true := by
      intro hreq
      simpa [hreq] using hmac
    by_cases hre : policy.enableReplayProtection = true
    · rw [if_pos hre] at h
      have hiff := replayCheck_iff sec s
      rcases hrep : replayCheck sec s with ⟨_ | _, s'⟩
      · rw [hrep] at h
        cases h
      · rw [hrep] at h hiff
        cases h
        exact ⟨rfl, fun hreq => ⟨sec, _, rfl, hsigned hreq⟩, fun _ => ⟨sec, _, rfl, hiff.mp rfl⟩⟩
    · rw [if_neg hre] at h
      cases h
      exact ⟨rfl, fun hreq => ⟨sec, _, rfl, hsigned hreq⟩, fun h => absurd h hre⟩
  · rw [if_neg hsec] at h ⊢
    cases h
    rw [Bool.or_eq_true, not_or] at hsec
    exact ⟨rfl, fun h => absurd h hsec.1, fun h => absurd h hsec.2⟩

/-- A packet that goes on to its handler has passed every check. -/
theorem gate_passed {policy : SecurityPolicy} {header : FrameHeader} {payload inner : Bytes}
    {s : Session} (h : (gate policy header payload s).1 = .passed inner) :
    Passes policy s header payload ∧ bodyOf policy payload = some inner := by
  unfold gate at h
  by_cases htls : (policy.requireTls && !s.tlsEstablished) = true
  · rw [if_pos htls] at h
    cases h
  rw [if_neg htls] at h
  by_cases hv : header.version < kMinProtocolVersion ∨ header.version > kMaxProtocolVersion
  · rw [if_pos hv] at h
    cases h
  rw [if_neg hv] at h
  obtain ⟨hbody, hsigned, hfresh⟩ := securityCheck_passed h
  rw [not_or] at hv
  refine ⟨⟨fun hreq => ?_, ⟨UInt16.not_lt.mp hv.1, UInt16.not_lt.mp hv.2⟩, hsigned, hfresh⟩, hbody⟩
  simpa [hreq] using htls

theorem Passes.securityCheck {policy : SecurityPolicy} {header : FrameHeader} {payload : Bytes}
    {s : Session} (h : Passes policy s header payload) :
    ∃ inner, (securityCheck policy payload s).1 = .passed inner := by
  unfold DungeonHub.securityCheck
  by_cases hsec : (policy.requireHmac || policy.enableReplayProtection) = true
  · rw [if_pos hsec]
    obtain ⟨sec, inner, hun⟩ : ∃ sec inner, unwrapSecurePayload payload = .ok (sec, inner) := by
      rcases Bool.or_eq_true_iff.mp hsec with hreq | hre
      · obtain ⟨sec, inner, hun, -⟩ := h.signed hreq
        exact ⟨sec, inner, hun⟩
      · obtain ⟨sec, inner, hun, -⟩ := h.fresh hre
        exact ⟨sec, inner, hun⟩
    have hmac : ¬ (policy.requireHmac && !verifySignature policy.hmacKey sec inner) = true := by
      intro hno
      rw [Bool.and_eq_true, Bool.not_eq_true'] at hno
      obtain ⟨sec', inner', hun', hv⟩ := h.signed hno.1
      rw [hun] at hun'
      cases hun'
      rw [hno.2] at hv
      cases hv
    simp only [hun]
    rw [if_neg hmac]
    by_cases hre : policy.enableReplayProtection = true
    · obtain ⟨sec', inner', hun', hfresh⟩ := h.fresh hre
      rw [hun] at hun'
      cases hun'
      rw [if_pos hre]
      have hrep := (replayCheck_iff sec s).mpr hfresh
      split
      · rename_i heq
        rw [heq] at hrep
        cases hrep
      · exact ⟨inner, rfl⟩
    · rw [if_neg hre]
      exact ⟨inner, rfl⟩
  · rw [if_neg hsec]
    exact ⟨payload, rfl⟩

/-- The checks before the dispatch let through just what passes. -/
theorem gate_passed_iff {policy : SecurityPolicy} {header : FrameHeader} {payload : Bytes}
    {s : Session} :
    (∃ inner, (gate policy header payload s).1 = .passed inner) ↔
      Passes policy s header payload := by
  constructor
  · rintro ⟨inner, h⟩
    exact (gate_passed h).1
  · intro h
    have htls : ¬ (policy.requireTls && !s.tlsEstablished) = true := by
      intro hno
      rw [Bool.and_eq_true, Bool.not_eq_true'] at hno
      rw [h.tls hno.1] at hno
      cases hno.2
    have hv : ¬ (header.version < kMinProtocolVersion ∨ header.version > kMaxProtocolVersion) :=
      not_or.mpr ⟨UInt16.not_lt.mpr h.version.1, UInt16.not_lt.mpr h.version.2⟩
    unfold gate
    rw [if_neg htls, if_neg hv]
    exact h.securityCheck

end Gate

namespace Server

variable {σ : Type}

section Spared

/-- Parties, guilds, matches, instances, rewards and inventories are as they were, and so is every
session but the one. -/
structure Spares (id : ℕ) (s s' : Server σ) : Prop where
  party : s'.partyService = s.partyService
  guild : s'.guildService = s.guildService
  queue : s'.matchQueue = s.matchQueue
  instances : s'.instanceManager = s.instanceManager
  partyInstances : s'.partyInstances = s.partyInstances
  tickets : s'.instanceTickets = s.instanceTickets
  seeds : s'.instanceSeeds = s.instanceSeeds
  grants : s'.instanceRewardGrants = s.instanceRewardGrants
  nextGrant : s'.nextRewardGrantId = s.nextRewardGrantId
  bound : s'.sessionInstances = s.sessionInstances
  characters : s'.sessionCharacters = s.sessionCharacters
  inventory : s'.inventoryStorage = s.inventoryStorage
  others : ∀ other : ℕ, other ≠ id → s'.heap[other]? = s.heap[other]?

variable {s s' s'' : Server σ} {id : ℕ}

theorem Spares.trans (h : Spares id s s') (h' : Spares id s' s'') : Spares id s s'' where
  party := h'.party.trans h.party
  guild := h'.guild.trans h.guild
  queue := h'.queue.trans h.queue
  instances := h'.instances.trans h.instances
  partyInstances := h'.partyInstances.trans h.partyInstances
  tickets := h'.tickets.trans h.tickets
  seeds := h'.seeds.trans h.seeds
  grants := h'.grants.trans h.grants
  nextGrant := h'.nextGrant.trans h.nextGrant
  bound := h'.bound.trans h.bound
  characters := h'.characters.trans h.characters
  inventory := h'.inventory.trans h.inventory
  others other hne := (h'.others other hne).trans (h.others other hne)

/-- Registry, tokens and counters are not among what is spared. -/
theorem spares_account (id : ℕ) (s : Server σ) (registry : SessionRegistry)
    (tokenService : TokenService) (metrics : Metrics) :
    Spares id s { s with registry, tokenService, metrics } :=
  ⟨rfl, rfl, rfl, rfl, rfl, rfl, rfl, rfl, rfl, rfl, rfl, rfl, fun _ _ => rfl⟩

theorem countError_spares (id : ℕ) (s : Server σ) : Spares id s s.countError :=
  spares_account id s _ _ _

theorem modifySession_spares (id : ℕ) (s : Server σ) (f : Session → Session) :
    Spares id s (s.modifySession id f) := by
  refine ⟨rfl, rfl, rfl, rfl, rfl, rfl, rfl, rfl, rfl, rfl, rfl, rfl, fun other hne => ?_⟩
  show (s.heap.modify id f)[other]? = s.heap[other]?
  rw [Dict.get?_modify, if_neg hne.symm]

theorem receive_spares (s : Server σ) (id : ℕ) (session : Session) (payload : Bytes) :
    Spares id s (s.receive id session payload) := by
  refine ⟨rfl, rfl, rfl, rfl, rfl, rfl, rfl, rfl, rfl, rfl, rfl, rfl, fun other hne => ?_⟩
  exact Dict.get?_insert_of_ne _ _ hne.symm

theorem attach_spares (id : ℕ) (s : Server σ) (context : UserContext) :
    Spares id s (s.attach id context) :=
  (s.modifySession_spares id _).trans (spares_account id _ _ _ _)

theorem handleLogin_spares (s : Server σ) (id : ℕ) (payload : Bytes) (now : Time) :
    Spares id s (s.handleLogin id payload now).2 := by
  rcases s.handleLogin_cases id payload now with ⟨request, h⟩ | ⟨-, h⟩
  · rw [handleLogin_of_logs h]
    exact (spares_account id s _ _ _).trans (attach_spares id _ _)
  · rw [h]
    exact s.countError_spares id

theorem handleLogout_spares (s : Server σ) (id : ℕ) (payload : Bytes) :
    Spares id s (s.handleLogout id payload).2 := by
  unfold handleLogout
  split
  · exact s.countError_spares id
  · exact (s.modifySession_spares id _).trans (spares_account id _ _ _ _)

end Spared

section Anonymous

variable {s : Server σ} {id : ℕ} (h : s.userContext id = none)
include h

/-! A handler that asks for a user does nothing for a session without one. -/

theorem handleMatch_anonymous (version : UInt16) (payload : Bytes) (now : Time) :
    (s.handleMatch id version payload now).2 = s.countError := by
  unfold handleMatch
  split
  · rfl
  · rename_i hc
    simp [checkMatch, h] at hc

theorem handleEnter_anonymous (payload : Bytes) :
    (s.handleEnter id payload).2 = s.countError := by
  unfold handleEnter
  split
  · rfl
  · rename_i hc
    simp [checkEnter, h] at hc

theorem handleGuildCreate_anonymous (payload : Bytes) :
    (s.handleGuildCreate id payload).2 = s.countError := by
  unfold handleGuildCreate
  simp only []
  split
  · rfl
  · rename_i hc
    simp only [bind_eq_ok, orRefuse_eq_ok, h, reduceCtorEq, false_and, and_false,
      exists_false] at hc

theorem handleGuildJoin_anonymous (payload : Bytes) :
    (s.handleGuildJoin id payload).2 = s.countError := by
  unfold handleGuildJoin
  simp only []
  split
  · rfl
  · rename_i hc
    simp only [bind_eq_ok, orRefuse_eq_ok, h, reduceCtorEq, false_and, and_false,
      exists_false] at hc

theorem handleGuildLeave_anonymous (payload : Bytes) :
    (s.handleGuildLeave id payload).2 = s.countError := by
  unfold handleGuildLeave
  split
  · rfl
  · rename_i hc
    simp [checkGuildLeave, h] at hc

theorem handleChat_anonymous (payload : Bytes) :
    (s.handleChat id payload).2 = s.countError := by
  unfold handleChat
  simp only []
  split
  · rfl
  · rename_i hc
    simp only [bind_eq_ok, orRefuse_eq_ok, h, reduceCtorEq, false_and, and_false,
      exists_false] at hc

variable [InventoryStorage σ]

theorem handleResult_anonymous (payload : Bytes) :
    (s.handleResult id payload).2 = s.countError := by
  rcases s.handleResult_cases id payload with ⟨_, _, _, _, hends, -⟩ | ⟨-, -, heq⟩
  · have hu := hends.user
    simp [h] at hu
  · exact heq

theorem handleInventoryUpdate_anonymous (payload : Bytes) :
    (s.handleInventoryUpdate id payload).2 = s.countError := by
  unfold handleInventoryUpdate
  simp only []
  split
  · rfl
  · rename_i hc
    simp only [bind_eq_ok, orRefuse_eq_ok, h, reduceCtorEq, false_and, and_false,
      exists_false] at hc

/-- A session without a user gets at most itself a user, unless it shows a good token. -/
theorem dispatch_anonymous (header : FrameHeader) (payload : Bytes) (now : Time)
    (hno : PacketType.ofCode header.type = some .sessionReconnectReq →
      ∀ request userId, ¬ Reconnects s payload now request userId) :
    Spares id s (s.dispatch id header payload now).2 := by
  unfold dispatch
  split
  · exact s.handleLogin_spares id payload now
  · exact s.handleLogout_spares id payload
  · rename_i ht
    rcases s.handleReconnect_refused id payload now with
      ⟨-, tokenService, -, heq⟩ | ⟨request, userId, hr⟩
    · rw [heq]
      exact spares_account id s _ tokenService _
    · exact absurd hr (hno ht request userId)
  · rw [handleMatch_anonymous h]
    exact s.countError_spares id
  · rw [handleEnter_anonymous h]
    exact s.countError_spares id
  · rw [handleResult_anonymous h]
    exact s.countError_spares id
  · rw [handleInventoryUpdate_anonymous h]
    exact s.countError_spares id
  · rw [handleGuildCreate_anonymous h]
    exact s.countError_spares id
  · rw [handleGuildJoin_anonymous h]
    exact s.countError_spares id
  · rw [handleGuildLeave_anonymous h]
    exact s.countError_spares id
  · rw [handleChat_anonymous h]
    exact s.countError_spares id
  · exact s.countError_spares id

end Anonymous

section Mediation

/-- What entitles a packet to more than an account of its own: its session has a user, or it is a
reconnect with a good token. -/
def Entitled (s : Server σ) (session : Session) (header : FrameHeader) (payload : Bytes)
    (now : Time) : Prop :=
  session.userContext.isSome ∨
    (PacketType.ofCode header.type = some .sessionReconnectReq ∧ ∃ body request userId,
      bodyOf s.securityPolicy payload = some body ∧ Reconnects s body now request userId)

/-- What the checks before the dispatch ask of the session is not touched by receiving. -/
theorem passes_received {s : Server σ} {session : Session} {header : FrameHeader}
    {payload : Bytes} (now : Time) :
    Passes s.securityPolicy ((session.onReceive now).setProtocolVersion header.version) header
      payload ↔ Passes s.securityPolicy session header payload :=
  ⟨fun h => ⟨h.tls, h.version, h.signed, h.fresh⟩, fun h => ⟨h.tls, h.version, h.signed, h.fresh⟩⟩

theorem handlePacket_spares [InventoryStorage σ] {s : Server σ} {id : ℕ} {session : Session}
    (hs : s.heap[id]? = some session) {header : FrameHeader} {payload : Bytes} {now : Time}
    (hno : ¬ (Passes s.securityPolicy session header payload ∧
      Entitled s session header payload now)) :
    Spares id s (s.handlePacket id header payload now).2 := by
  rcases s.handlePacket_cases id header payload now with
    ⟨-, heq⟩ | ⟨session₁, session', hs₁, ⟨-, heq⟩ | ⟨reject, -, heq⟩ | ⟨inner, hg, heq⟩⟩
  · rw [heq]
    exact spares_account id s _ _ _
  · rw [heq]
    exact (s.receive_spares id session' payload).trans (countError_spares id _)
  · rw [heq]
    exact (s.receive_spares id session' payload).trans (countError_spares id _)
  · rw [hs, Option.some.injEq] at hs₁
    subst hs₁
    have hpassed : (s.gatePacket session header payload now).1 = .passed inner := by rw [hg]
    obtain ⟨hpasses, hbody⟩ := gate_passed hpassed
    have hentitled : ¬ Entitled s session header payload now :=
      fun h => hno ⟨(passes_received now).mp hpasses, h⟩
    have huser : (s.receive id session' payload).userContext id = none := by
      have hu := s.gatePacket_userContext session header payload now
      rw [hg] at hu
      rw [(s.receive_calm payload hs hu).userContext id]
      unfold userContext
      rw [hs]
      by_contra hsome
      exact hentitled (.inl (Option.isSome_iff_ne_none.mpr hsome))
    rw [heq]
    refine (s.receive_spares id session' payload).trans (dispatch_anonymous huser _ _ _ ?_)
    intro ht request userId hr
    exact hentitled (.inr ⟨ht, inner, request, userId, hbody, hr.decoded, hr.valid⟩)

/-- A packet that the checks refuse leaves its session's user, sequence number and nonces alone. -/
theorem handlePacket_refused [InventoryStorage σ] {s : Server σ} {id : ℕ} {session : Session}
    (hs : s.heap[id]? = some session) {header : FrameHeader} {payload : Bytes} {now : Time}
    (hno : ¬ Passes s.securityPolicy session header payload) :
    ∃ session' : Session, (s.handlePacket id header payload now).2.heap[id]? = some session' ∧
      session'.userContext = session.userContext ∧ session'.lastSeq = session.lastSeq ∧
      session'.nonceCache = session.nonceCache := by
  have hrefused : ∀ inner, (s.gatePacket session header payload now).1 ≠ .passed inner :=
    fun inner hg => hno ((passes_received now).mp (gate_passed hg).1)
  have hkeep : (s.gatePacket session header payload now).2 =
      (session.onReceive now).setProtocolVersion header.version := by
    rcases gate_cases s.securityPolicy header payload
      ((session.onReceive now).setProtocolVersion header.version) with
      ⟨h, -⟩ | ⟨sec, inner, -, -, h⟩
    · exact h
    · exact absurd (congrArg Prod.fst h) (hrefused inner)
  refine ⟨(session.onReceive now).setProtocolVersion header.version, ?_, rfl, rfl, rfl⟩
  rcases s.handlePacket_cases id header payload now with
    ⟨hnone, -⟩ | ⟨session₁, session', hs₁, h⟩
  · rw [hs] at hnone
    cases hnone
  · rw [hs, Option.some.injEq] at hs₁
    subst hs₁
    rcases h with ⟨hg, heq⟩ | ⟨reject, hg, heq⟩ | ⟨inner, hg, -⟩
    · rw [heq, ← hkeep, hg]
      exact Dict.get?_insert_self _ _ _
    · rw [heq, ← hkeep, hg]
      exact Dict.get?_insert_self _ _ _
    · exact absurd (congrArg Prod.fst hg) (hrefused inner)

/-- What a packet changes beyond its own session and the accounts, it is let through and entitled
to; and one that is not let through leaves its session's user, sequence number and nonces alone. -/
theorem complete_mediation [InventoryStorage σ] (s : Server σ) (id : ℕ) (header : FrameHeader)
    (payload : Bytes) (now : Time) :
    (¬ Spares id s (s.handlePacket id header payload now).2 →
      ∃ session, s.heap[id]? = some session ∧ Passes s.securityPolicy session header payload ∧
        Entitled s session header payload now) ∧
    ∀ session, s.heap[id]? = some session → ¬ Passes s.securityPolicy session header payload →
      ∃ session' : Session, (s.handlePacket id header payload now).2.heap[id]? = some session' ∧
        session'.userContext = session.userContext ∧ session'.lastSeq = session.lastSeq ∧
        session'.nonceCache = session.nonceCache := by
  refine ⟨fun hchange => ?_, fun session hs hno => handlePacket_refused hs hno⟩
  rcases hs : s.heap[id]? with _ | session
  · refine absurd ?_ hchange
    unfold handlePacket answerPacket
    rw [hs]
    exact spares_account id s _ _ _
  · refine ⟨session, rfl, ?_⟩
    by_contra hno
    exact hchange (handlePacket_spares hs hno)

end Mediation

end Server

end DungeonHub
