import DungeonHub.Handlers
import DungeonHub.Lib.Run

/-!
# What the handlers change

Each handler leaves most of the server as it was. One lemma per handler says which fields it may
change and how; the invariants of the server read that off and never open a handler's body.
-/

namespace DungeonHub

open Wire

section Checks

variable {α β ρ : Type}

@[simp] theorem orRefuse_eq_ok {o : Option α} {r : ρ} {a : α} :
    orRefuse o r = .ok a ↔ o = some a := by
  unfold orRefuse
  split <;> simp

@[simp] theorem orRefuse_eq_error {o : Option α} {r r' : ρ} :
    orRefuse o r = .error r' ↔ o = none ∧ r = r' := by
  unfold orRefuse
  split <;> simp

@[simp] theorem decodedOr_eq_ok {d : Except Fault α} {r : ρ} {a : α} :
    decodedOr d r = .ok a ↔ d = .ok a := by
  unfold decodedOr
  split <;> simp

@[simp] theorem decodedOr_eq_error {d : Except Fault α} {r r' : ρ} :
    decodedOr d r = .error r' ↔ (∃ e, d = .error e) ∧ r = r' := by
  unfold decodedOr
  split <;> simp

@[simp] theorem unlessRefuse_eq_ok {p : Prop} [Decidable p] {r : ρ} {u : Unit} :
    unlessRefuse p r = .ok u ↔ p := by
  unfold unlessRefuse
  split_ifs with h <;> simp [h]

@[simp] theorem unlessRefuse_eq_error {p : Prop} [Decidable p] {r r' : ρ} :
    unlessRefuse p r = .error r' ↔ ¬ p ∧ r = r' := by
  unfold unlessRefuse
  split_ifs with h <;> simp [h]

/-- A chain of checks goes through if each of them does. -/
@[simp] theorem bind_eq_ok {x : Except ρ α} {f : α → Except ρ β} {b : β} :
    x >>= f = .ok b ↔ ∃ a, x = .ok a ∧ f a = .ok b := by
  rcases x with e | a
  · constructor
    · intro h
      cases h
    · rintro ⟨a, ha, -⟩
      cases ha
  · constructor
    · intro h
      exact ⟨a, rfl, h⟩
    · rintro ⟨a', ha, h⟩
      cases ha
      exact h

/-- A chain of checks refuses where the first of them does. -/
@[simp] theorem bind_eq_error {x : Except ρ α} {f : α → Except ρ β} {e : ρ} :
    x >>= f = .error e ↔ x = .error e ∨ ∃ a, x = .ok a ∧ f a = .error e := by
  rcases x with e' | a
  · constructor
    · intro h
      cases h
      exact .inl rfl
    · rintro (h | ⟨a, ha, -⟩)
      · cases h
        rfl
      · cases ha
  · constructor
    · intro h
      exact .inr ⟨a, rfl, h⟩
    · rintro (h | ⟨a', ha, h⟩)
      · cases h
      · cases ha
        exact h

@[simp] theorem pure_eq_ok {a b : α} : (pure a : Except ρ α) = .ok b ↔ a = b := by
  constructor
  · intro h
    cases h
    rfl
  · rintro rfl
    rfl

@[simp] theorem pure_ne_error {a : α} {e : ρ} : (pure a : Except ρ α) ≠ .error e := by
  intro h
  cases h

end Checks

section Heap

variable {τ υ : Type}

/-- The same session objects, and each as it was as far as `g` tells. -/
def Keeps (g : Session → τ) (h h' : Dict ℕ Session) : Prop :=
  ∀ id : ℕ, h'[id]?.map g = h[id]?.map g

/-- The parts of a session that only logins, reconnects and the gate change. -/
def Session.stamp (s : Session) : Option UserContext × UInt64 := (s.userContext, s.lastSeq)

theorem Keeps.refl (g : Session → τ) (h : Dict ℕ Session) : Keeps g h h := fun _ => rfl

theorem Keeps.trans {g : Session → τ} {h h' h'' : Dict ℕ Session} (a : Keeps g h h')
    (b : Keeps g h' h'') : Keeps g h h'' := fun id => (b id).trans (a id)

theorem Keeps.comp {g : Session → τ} {h h' : Dict ℕ Session} (a : Keeps g h h') (f : τ → υ) :
    Keeps (f ∘ g) h h' := by
  intro id
  have := congrArg (Option.map f) (a id)
  simpa only [Option.map_map] using this

theorem Keeps.users {h h' : Dict ℕ Session} (a : Keeps Session.stamp h h') :
    Keeps Session.userContext h h' := a.comp Prod.fst

theorem Keeps.seqs {h h' : Dict ℕ Session} (a : Keeps Session.stamp h h') :
    Keeps Session.lastSeq h h' := a.comp Prod.snd

theorem Keeps.mem {g : Session → τ} {h h' : Dict ℕ Session} (a : Keeps g h h') (id : ℕ) :
    id ∈ h' ↔ id ∈ h := by
  have hid := congrArg Option.isSome (a id)
  simp only [Option.isSome_map] at hid
  rw [Std.ExtTreeMap.mem_iff_isSome_getElem?, Std.ExtTreeMap.mem_iff_isSome_getElem?, hid]

theorem keeps_insert {g : Session → τ} {h : Dict ℕ Session} {id : ℕ} {s s' : Session}
    (hs : h[id]? = some s) (hg : g s' = g s) : Keeps g h (h.insert id s') := by
  intro a
  rw [Dict.get?_insert]
  split_ifs with ha
  · rw [← ha, hs, Option.map_some, Option.map_some, hg]
  · rfl

theorem keeps_modify {g : Session → τ} (h : Dict ℕ Session) (id : ℕ) {f : Session → Session}
    (hf : ∀ s, g (f s) = g s) : Keeps g h (h.modify id f) := by
  intro a
  rw [Dict.get?_modify]
  split_ifs
  · rw [Option.map_map]
    exact congrArg (fun k => Option.map k _) (funext hf)
  · rfl

theorem enqueueSend_stamp (s : Session) (payload : Bytes) (now : Time) :
    (s.enqueueSend payload now).2.stamp = s.stamp := by
  unfold Session.enqueueSend Session.enqueueAnswered
  simp only []
  split_ifs
  · rfl
  · rfl
  · split <;> rfl
  · rfl

theorem tick_stamp (s : Session) (now : Time) : (s.tick now).2.stamp = s.stamp := by
  unfold Session.tick
  split_ifs <;> rfl

theorem call_stamp (s : Session) (call : SessionCall) : (s.call call).stamp = s.stamp := by
  cases call with
  | onReceive now => rfl
  | enqueueSend payload now => exact enqueueSend_stamp s payload now
  | dequeueSend =>
    show s.dequeueSend.2.stamp = s.stamp
    unfold Session.dequeueSend
    split <;> rfl
  | markHeartbeatSent now => rfl
  | markTlsEstablished time => rfl
  | tick now => exact tick_stamp s now

end Heap

section Gate

theorem recordNonce_stamp (s : Session) (nonce : UInt64) :
    (s.recordNonce nonce).2.stamp = s.stamp := by
  unfold Session.recordNonce
  split_ifs <;> rfl

/-- The session after a replay check that was passed. -/
def admitted (header : SecurityHeader) (s : Session) : Session :=
  (s.recordNonce header.nonce).2.setLastSeq header.seq.toUInt64

/-- The replay check admits a packet that is newer than all admitted so far, or changes nothing. -/
theorem replayCheck_cases (header : SecurityHeader) (s : Session) :
    replayCheck header s = (false, s) ∨
      (s.lastSeq < header.seq.toUInt64 ∧ replayCheck header s = (true, admitted header s)) := by
  unfold replayCheck admitted
  by_cases hseq : header.seq.toUInt64 ≤ s.lastSeq
  · exact .inl (if_pos hseq)
  · rw [if_neg hseq]
    by_cases hn : header.nonce ∈ s.nonceCache
    · refine .inl ?_
      unfold Session.recordNonce
      rw [if_pos hn]
    · refine .inr ⟨UInt64.not_le.mp hseq, ?_⟩
      unfold Session.recordNonce
      rw [if_neg hn]

/-- The checks before the dispatch change a session only as they admit a packet with a sequence
number. -/
theorem gate_cases (policy : SecurityPolicy) (header : FrameHeader) (payload : Bytes)
    (s : Session) :
    ((gate policy header payload s).2 = s ∧ (policy.enableReplayProtection = true →
      ∀ inner, (gate policy header payload s).1 ≠ .passed inner)) ∨
    ∃ sec inner, unwrapSecurePayload payload = .ok (sec, inner) ∧
      s.lastSeq < sec.seq.toUInt64 ∧
      gate policy header payload s = (.passed inner, admitted sec s) := by
  unfold gate securityCheck
  by_cases htls : (policy.requireTls && !s.tlsEstablished) = true
  · rw [if_pos htls]
    exact .inl ⟨rfl, by simp⟩
  rw [if_neg htls]
  by_cases hv : header.version < kMinProtocolVersion ∨ header.version > kMaxProtocolVersion
  · rw [if_pos hv]
    exact .inl ⟨rfl, by simp⟩
  rw [if_neg hv]
  by_cases hsec : (policy.requireHmac || policy.enableReplayProtection) = true
  · rw [if_pos hsec]
    rcases hun : unwrapSecurePayload payload with e | ⟨sec, inner⟩
    · exact .inl ⟨rfl, by simp⟩
    by_cases hmac : (policy.requireHmac && !verifySignature policy.hmacKey sec inner) = true
    · simp only [if_pos hmac]
      exact .inl ⟨trivial, by simp⟩
    by_cases hre : policy.enableReplayProtection = true
    · simp only [if_neg hmac, if_pos hre]
      rcases replayCheck_cases sec s with hrep | ⟨hlt, hrep⟩
      · rw [hrep]
        exact .inl ⟨rfl, by simp⟩
      · rw [hrep]
        exact .inr ⟨sec, inner, rfl, hlt, rfl⟩
    · simp only [if_neg hmac, if_neg hre]
      exact .inl ⟨trivial, fun h => absurd h hre⟩
  · rw [if_neg hsec]
    have hre : policy.enableReplayProtection ≠ true := by
      intro h
      simp [h] at hsec
    exact .inl ⟨rfl, fun h => absurd h hre⟩

theorem gate_userContext (policy : SecurityPolicy) (header : FrameHeader) (payload : Bytes)
    (s : Session) : (gate policy header payload s).2.userContext = s.userContext := by
  rcases gate_cases policy header payload s with ⟨h, -⟩ | ⟨sec, inner, -, -, h⟩
  · rw [h]
  · rw [h]
    exact congrArg Prod.fst (recordNonce_stamp s sec.nonce)

end Gate

/-- The type of the packets that are answered with packets of a type. -/
def PacketType.request : PacketType → Option PacketType
  | .loginRes => some .loginReq
  | .logoutRes => some .logoutReq
  | .sessionReconnectRes => some .sessionReconnectReq
  | .matchFoundNotify => some .matchReq
  | .dungeonEnterRes => some .dungeonEnterReq
  | .dungeonResultRes => some .dungeonResultNotify
  | .inventoryUpdateRes => some .inventoryUpdateNotify
  | .guildCreateRes => some .guildCreateReq
  | .guildJoinRes => some .guildJoinReq
  | .guildLeaveRes => some .guildLeaveReq
  | .chatSendRes => some .chatSendReq
  | _ => none

namespace Server

variable {σ : Type}

section Samples

/-- A new server whose random sources and clock yield the same value for ever. -/
def still (policy : SecurityPolicy) :
    Server (CachedInventoryStorage MySqlInventoryStorage InMemoryInventoryStorage) :=
  Server.new defaultStorage policy (fun _ => 0) (fun _ => ⟨1, by decide⟩) (fun _ => 0) fun _ => 0

/-- The header of a packet. -/
def headerOf (type : PacketType) (payload : Bytes) : FrameHeader :=
  ⟨UInt32.ofNat payload.length, type.code, kMinProtocolVersion⟩

/-- A packet on a session. -/
def packetOf (id : ℕ) (type : PacketType) (payload : Bytes) : ServerEvent :=
  .packet id (headerOf type payload) payload 0

end Samples

section Deliver

/-- Events were sent, and nothing else was changed. -/
def Delivers (s s' : Server σ) : Prop :=
  ∃ heap clock, s' = { s with heap := heap, clock := clock } ∧ Keeps Session.stamp s.heap heap

theorem Delivers.refl (s : Server σ) : Delivers s s := ⟨s.heap, s.clock, rfl, .refl _ _⟩

theorem Delivers.trans {s s' s'' : Server σ} (h : Delivers s s') (h' : Delivers s' s'') :
    Delivers s s'' := by
  obtain ⟨heap, clock, rfl, hk⟩ := h
  obtain ⟨heap', clock', rfl, hk'⟩ := h'
  exact ⟨heap', clock', rfl, hk.trans hk'⟩

theorem findSession_eq_some {s : Server σ} {id : ℕ} {session : Session} :
    s.findSession id = some session ↔ id ∈ s.sessions ∧ s.heap[id]? = some session := by
  unfold findSession
  split_ifs with h <;> simp [h]

theorem deliver_delivers (s : Server σ) (id : ℕ) (frame : Session → Bytes) :
    Delivers s (s.deliver id frame) := by
  unfold deliver
  split
  · exact .refl s
  · rename_i session h
    refine ⟨_, _, rfl, ?_⟩
    exact keeps_insert (findSession_eq_some.mp h).2 (enqueueSend_stamp ..)

theorem deliverGuildEvents_delivers (s : Server σ) (events : GuildService.Events) :
    Delivers s (s.deliverGuildEvents events) :=
  Run.related .refl .trans (fun s _ => s.deliver_delivers _ _) events s

end Deliver

section Calm

variable {τ υ : Type}

/-- What a packet changes at most if it is not about logins, guilds, characters or rewards: sessions
stay as they are as far as `g` tells, and only sessions the server knows are bound to instances. -/
structure Calm (g : Session → τ) (s s' : Server σ) : Prop where
  nextId : s'.nextId = s.nextId
  sessions : s'.sessions = s.sessions
  registry : s'.registry = s.registry
  tokens : s'.tokenService = s.tokenService
  party : s'.partyService = s.partyService
  guild : s'.guildService = s.guildService
  characters : s'.sessionCharacters = s.sessionCharacters
  grants : s'.instanceRewardGrants = s.instanceRewardGrants
  policy : s'.securityPolicy = s.securityPolicy
  heap : Keeps g s.heap s'.heap
  bound : ∀ k ∈ s'.sessionInstances, k ∈ s.sessionInstances ∨ k ∈ s.sessions

theorem Calm.refl (g : Session → τ) (s : Server σ) : Calm g s s :=
  ⟨rfl, rfl, rfl, rfl, rfl, rfl, rfl, rfl, rfl, .refl _ _, fun _ h => .inl h⟩

theorem Calm.trans {g : Session → τ} {s s' s'' : Server σ} (h : Calm g s s')
    (h' : Calm g s' s'') : Calm g s s'' where
  nextId := h'.nextId.trans h.nextId
  sessions := h'.sessions.trans h.sessions
  registry := h'.registry.trans h.registry
  tokens := h'.tokens.trans h.tokens
  party := h'.party.trans h.party
  guild := h'.guild.trans h.guild
  characters := h'.characters.trans h.characters
  grants := h'.grants.trans h.grants
  policy := h'.policy.trans h.policy
  heap := h.heap.trans h'.heap
  bound k hk := by
    rcases h'.bound k hk with hk | hk
    · exact h.bound k hk
    · exact .inr (h.sessions ▸ hk)

theorem Calm.comp {g : Session → τ} {s s' : Server σ} (h : Calm g s s') (f : τ → υ) :
    Calm (f ∘ g) s s' :=
  { h with heap := h.heap.comp f }

theorem Calm.users {s s' : Server σ} (h : Calm Session.stamp s s') :
    Calm Session.userContext s s' := h.comp Prod.fst

theorem Delivers.calm {s s' : Server σ} (h : Delivers s s') : Calm Session.stamp s s' := by
  obtain ⟨heap, clock, rfl, hk⟩ := h
  exact ⟨rfl, rfl, rfl, rfl, rfl, rfl, rfl, rfl, rfl, hk, fun _ h => .inl h⟩

theorem countError_calm (s : Server σ) : Calm Session.stamp s s.countError :=
  ⟨rfl, rfl, rfl, rfl, rfl, rfl, rfl, rfl, rfl, .refl _ _, fun _ h => .inl h⟩

theorem instances_calm (s : Server σ) (instanceManager : InstanceManager) :
    Calm Session.stamp s { s with instanceManager } :=
  ⟨rfl, rfl, rfl, rfl, rfl, rfl, rfl, rfl, rfl, .refl _ _, fun _ h => .inl h⟩

theorem queue_calm (s : Server σ) (matchQueue : MatchQueue) :
    Calm Session.stamp s { s with matchQueue } :=
  ⟨rfl, rfl, rfl, rfl, rfl, rfl, rfl, rfl, rfl, .refl _ _, fun _ h => .inl h⟩

end Calm

section Receive

theorem gatePacket_userContext (s : Server σ) (session : Session) (header : FrameHeader)
    (payload : Bytes) (now : Time) :
    (s.gatePacket session header payload now).2.userContext = session.userContext :=
  gate_userContext ..

/-- A server that asks for nothing but a version it knows lets a packet through as it is. -/
theorem gatePacket_open {s : Server σ} (htls : s.securityPolicy.requireTls = false)
    (hmac : s.securityPolicy.requireHmac = false)
    (hreplay : s.securityPolicy.enableReplayProtection = false) {header : FrameHeader}
    (hv : ¬ (header.version < kMinProtocolVersion ∨ header.version > kMaxProtocolVersion))
    (session : Session) (payload : Bytes) (now : Time) :
    s.gatePacket session header payload now =
      (.passed payload, (session.onReceive now).setProtocolVersion header.version) := by
  simp [gatePacket, gate, securityCheck, htls, hmac, hreplay, hv]

/-- A packet's way to its handler leaves everything but the session's own counters as it was. -/
theorem receive_calm (s : Server σ) {id : ℕ} {session session' : Session} (payload : Bytes)
    (h : s.heap[id]? = some session) (hu : session'.userContext = session.userContext) :
    Calm Session.userContext s (s.receive id session' payload) :=
  ⟨rfl, rfl, rfl, rfl, rfl, rfl, rfl, rfl, rfl, keeps_insert h hu, fun _ h => .inl h⟩

theorem userContext_eq (s : Server σ) (id : ℕ) :
    s.userContext id = (s.heap[id]?.map Session.userContext).join := by
  unfold userContext
  rcases s.heap[id]? <;> rfl

theorem Calm.userContext {s s' : Server σ} (h : Calm Session.userContext s s') (id : ℕ) :
    s'.userContext id = s.userContext id := by
  rw [userContext_eq, userContext_eq, h.heap id]

/-- A packet is for no session, stops at the gate, or goes to its handler. -/
theorem handlePacket_cases [InventoryStorage σ] (s : Server σ) (id : ℕ) (header : FrameHeader)
    (payload : Bytes) (now : Time) :
    (s.heap[id]? = none ∧ s.handlePacket id header payload now = (none, s)) ∨
    ∃ session session', s.heap[id]? = some session ∧
      ((s.gatePacket session header payload now = (.dropped, session') ∧
        s.handlePacket id header payload now =
          (none, (s.receive id session' payload).countError)) ∨
      (∃ reject, s.gatePacket session header payload now = (.rejected reject, session') ∧
        s.handlePacket id header payload now =
          (some (Answer.frame ⟨.versionReject, reject⟩ header.version),
            (s.receive id session' payload).countError)) ∨
      ∃ inner, s.gatePacket session header payload now = (.passed inner, session') ∧
        s.handlePacket id header payload now =
          (((s.receive id session' payload).dispatch id header inner now).1.map
              fun a => a.frame header.version,
            ((s.receive id session' payload).dispatch id header inner now).2)) := by
  unfold handlePacket answerPacket
  rcases s.heap[id]? with _ | session
  · exact .inl ⟨rfl, rfl⟩
  · refine .inr ⟨session, (s.gatePacket session header payload now).2, rfl, ?_⟩
    simp only []
    rcases s.gatePacket session header payload now with ⟨_ | reject | inner, session'⟩
    · exact .inl ⟨rfl, rfl⟩
    · exact .inr (.inl ⟨reject, rfl, rfl⟩)
    · exact .inr (.inr ⟨inner, rfl, rfl⟩)

end Receive

/-! ## From a packet to its handler -/

section Branches

variable [InventoryStorage σ] {id : ℕ} {header : FrameHeader} {payload : Bytes} {now : Time}

section Gated

variable {s : Server σ} {session session' : Session} {inner : Bytes}

/-- What a packet is answered and leaves, by what the gate makes of it. -/
theorem answerPacket_of_some (hsession : s.heap[id]? = some session) :
    s.answerPacket id header payload now =
      match s.gatePacket session header payload now with
      | (.dropped, session') => (none, (s.receive id session' payload).countError)
      | (.rejected reject, session') =>
        (some ⟨.versionReject, reject⟩, (s.receive id session' payload).countError)
      | (.passed inner, session') =>
        (s.receive id session' payload).dispatch id header inner now := by
  unfold answerPacket
  generalize s.heap[id]? = found at hsession ⊢
  subst hsession
  rfl

theorem answerPacket_of_dropped (hsession : s.heap[id]? = some session)
    (hg : s.gatePacket session header payload now = (.dropped, session')) :
    s.answerPacket id header payload now = (none, (s.receive id session' payload).countError) := by
  rw [answerPacket_of_some hsession, hg]

theorem answerPacket_of_passed (hsession : s.heap[id]? = some session)
    (hg : s.gatePacket session header payload now = (.passed inner, session')) :
    s.answerPacket id header payload now =
      (s.receive id session' payload).dispatch id header inner now := by
  rw [answerPacket_of_some hsession, hg]

omit [InventoryStorage σ] in
/-- What holds of the payload that a packet brings to its handler. -/
theorem exists_passed_iff {gated : Gated} {C : Bytes → Prop} (hsession : s.heap[id]? = some session)
    (hg : s.gatePacket session header payload now = (gated, session')) :
    (∃ session session' inner, s.heap[id]? = some session ∧
      s.gatePacket session header payload now = (.passed inner, session') ∧ C inner) ↔
      ∃ inner, gated = .passed inner ∧ C inner := by
  constructor
  · rintro ⟨found, _, inner, hfound, hpassed, h⟩
    obtain rfl := Option.some.inj (hsession.symm.trans hfound)
    exact ⟨inner, congrArg Prod.fst (hg.symm.trans hpassed), h⟩
  · rintro ⟨inner, rfl, h⟩
    exact ⟨session, session', inner, hsession, hg, h⟩

/-- A packet that is answered otherwise than with a refused version has passed the gate. -/
theorem passed_of_answer {answer : Answer}
    (h : (s.answerPacket id header payload now).1 = some answer)
    (hne : answer.type ≠ .versionReject) :
    ∃ session session' inner, s.heap[id]? = some session ∧
      s.gatePacket session header payload now = (.passed inner, session') := by
  unfold answerPacket at h
  rcases hs : s.heap[id]? with _ | session
  · rw [hs] at h
    cases h
  rw [hs] at h
  rcases hg : s.gatePacket session header payload now with ⟨_ | reject | inner, session'⟩
  · simp only [hg] at h
    cases h
  · simp only [hg, Option.some.injEq] at h
    exact absurd (congrArg Answer.type h).symm hne
  · exact ⟨session, session', inner, rfl, hg⟩

end Gated

theorem dispatch_login (ht : PacketType.ofCode header.type = some .loginReq) (s : Server σ) (id : ℕ)
    (payload : Bytes) (now : Time) :
    s.dispatch id header payload now =
      (some ⟨.loginRes, (s.handleLogin id payload now).1⟩, (s.handleLogin id payload now).2) := by
  unfold dispatch
  rw [ht]

theorem dispatch_logout (ht : PacketType.ofCode header.type = some .logoutReq) (s : Server σ)
    (id : ℕ) (payload : Bytes) (now : Time) :
    s.dispatch id header payload now =
      (some ⟨.logoutRes, (s.handleLogout id payload).1⟩, (s.handleLogout id payload).2) := by
  unfold dispatch
  rw [ht]

theorem dispatch_reconnect (ht : PacketType.ofCode header.type = some .sessionReconnectReq)
    (s : Server σ) (id : ℕ) (payload : Bytes) (now : Time) :
    s.dispatch id header payload now =
      (some ⟨.sessionReconnectRes, (s.handleReconnect id payload now).1⟩,
        (s.handleReconnect id payload now).2) := by
  unfold dispatch
  rw [ht]

theorem dispatch_match (ht : PacketType.ofCode header.type = some .matchReq) (s : Server σ) (id : ℕ)
    (payload : Bytes) (now : Time) :
    s.dispatch id header payload now =
      (some ⟨.matchFoundNotify, (s.handleMatch id header.version payload now).1⟩,
        (s.handleMatch id header.version payload now).2) := by
  unfold dispatch
  rw [ht]

theorem dispatch_enter (ht : PacketType.ofCode header.type = some .dungeonEnterReq)
    (s : Server σ) (id : ℕ) (payload : Bytes) (now : Time) :
    s.dispatch id header payload now =
      (some ⟨.dungeonEnterRes, (s.handleEnter id payload).1⟩, (s.handleEnter id payload).2) := by
  unfold dispatch
  rw [ht]

theorem dispatch_result (ht : PacketType.ofCode header.type = some .dungeonResultNotify)
    (s : Server σ) (id : ℕ) (payload : Bytes) (now : Time) :
    s.dispatch id header payload now =
      (some ⟨.dungeonResultRes, (s.handleResult id payload).1⟩, (s.handleResult id payload).2) := by
  unfold dispatch
  rw [ht]

theorem dispatch_inventory (ht : PacketType.ofCode header.type = some .inventoryUpdateNotify)
    (s : Server σ) (id : ℕ) (payload : Bytes) (now : Time) :
    s.dispatch id header payload now =
      (some ⟨.inventoryUpdateRes, (s.handleInventoryUpdate id payload).1⟩,
        (s.handleInventoryUpdate id payload).2) := by
  unfold dispatch
  rw [ht]

theorem dispatch_chat (ht : PacketType.ofCode header.type = some .chatSendReq)
    (s : Server σ) (id : ℕ) (payload : Bytes) (now : Time) :
    s.dispatch id header payload now =
      (some ⟨.chatSendRes, (s.handleChat id payload).1⟩, (s.handleChat id payload).2) := by
  unfold dispatch
  rw [ht]

/-- An answer tells the type of the packet that it answers. -/
theorem dispatch_request {s : Server σ} {answer : Answer}
    (h : (s.dispatch id header payload now).1 = some answer) :
    PacketType.ofCode header.type = answer.type.request := by
  unfold dispatch at h
  rcases ht : PacketType.ofCode header.type with _ | t
  · rw [ht] at h
    cases h
  · rw [ht] at h
    cases t <;> cases h <;> rfl

end Branches

section Effects

theorem bindMember_calm (s : Server σ) (instanceId : ℕ) (frame : Bytes) (asked : ℕ → Bool)
    (member : PartyMember) : Calm Session.stamp s (s.bindMember instanceId frame asked member) := by
  unfold bindMember
  split
  · exact .refl _ s
  · rename_i session h
    have hbind : Calm Session.stamp s { s with
        sessionInstances := s.sessionInstances.insert member.sessionId instanceId } := by
      refine ⟨rfl, rfl, rfl, rfl, rfl, rfl, rfl, rfl, rfl, .refl _ _, ?_⟩
      intro k hk
      rcases (Dict.mem_insert _ _ _ _).mp hk with rfl | hk
      · exact .inr (findSession_eq_some.mp h).1
      · exact .inl hk
    simp only []
    split_ifs
    · exact hbind
    · exact hbind.trans (deliver_delivers ..).calm

theorem openInstance_calm (s : Server σ) (instanceId partyId : ℕ) (version : UInt16)
    (asked : ℕ → Bool) :
    Calm Session.stamp s (s.openInstance instanceId partyId version asked).2 := by
  unfold openInstance
  refine Calm.trans ?_ (Run.related (.refl _) .trans (fun s member =>
    s.bindMember_calm _ _ _ member) _ _)
  exact ⟨rfl, rfl, rfl, rfl, rfl, rfl, rfl, rfl, rfl, .refl _ _, fun _ h => .inl h⟩

theorem matchLoop_calm (id partyId : ℕ) (version : UInt16) :
    ∀ (matches' : List MatchCandidate) (requester : Option MatchFoundNotify) (s : Server σ),
      Calm Session.stamp s (matchLoop id partyId version matches' requester s).2
  | [], some _, s => .refl _ s
  | [], none, s => s.countError_calm
  | candidate :: rest, requester, s => by
    unfold matchLoop
    rcases s.instanceManager.createInstance candidate.partyId s.partyService with
      ⟨_ | instanceId, instanceManager⟩
    · exact s.countError_calm
    · exact (s.instances_calm instanceManager).trans
        ((openInstance_calm ..).trans (matchLoop_calm id partyId version rest _ _))

theorem handleMatch_calm (s : Server σ) (id : ℕ) (version : UInt16) (payload : Bytes)
    (now : Time) : Calm Session.stamp s (s.handleMatch id version payload now).2 := by
  unfold handleMatch
  split
  · exact s.countError_calm
  · simp only []
    split
    · exact s.countError_calm
    · split
      · exact (s.queue_calm _).trans (matchLoop_calm ..)
      · exact (s.queue_calm _).trans (matchLoop_calm ..)

theorem sendChat_calm (s : Server σ) (event : ChatEvent) (recipients : List ℕ) :
    Calm Session.stamp s (s.sendChat event recipients).2 := by
  unfold sendChat
  split_ifs
  · exact .refl _ s
  · exact Delivers.calm
      (Run.related .refl .trans (fun s _ => s.deliver_delivers _ _) recipients s)

theorem checkPartyChat_refuses {s : Server σ} {id : ℕ} {request : ChatSendRequest}
    {response : ChatSendResponse} (h : s.checkPartyChat id request = .error response) :
    response.success = false := by
  unfold checkPartyChat at h
  by_cases hzero : request.partyId = 0
  · simp only [if_pos hzero, bind_eq_error, orRefuse_eq_error, unlessRefuse_eq_error,
      pure_ne_error, and_false, exists_false, or_false] at h
    rcases h with ⟨-, rfl⟩ | ⟨_, -, ⟨-, rfl⟩ | ⟨_, -, -, rfl⟩⟩ <;> rfl
  · simp only [if_neg hzero, bind_eq_error, orRefuse_eq_error, unlessRefuse_eq_error,
      pure_ne_error, and_false, exists_false, or_false, reduceCtorEq, false_or] at h
    rcases h with ⟨_, -, ⟨-, rfl⟩ | ⟨_, -, -, rfl⟩⟩ <;> rfl

theorem handlePartyChat_calm (s : Server σ) (id : ℕ) (user : UserContext)
    (request : ChatSendRequest) : Calm Session.stamp s (s.handlePartyChat id user request).2 := by
  unfold handlePartyChat
  split
  · exact s.countError_calm
  · rename_i partyId recipients h
    simp only []
    have hsend := s.sendChat_calm
      ⟨.party, UInt64.ofNat partyId, user.userId, request.message⟩ recipients
    rcases hs : s.sendChat ⟨.party, UInt64.ofNat partyId, user.userId, request.message⟩ recipients
      with ⟨_ | _, s'⟩
    · rw [hs] at hsend
      exact hsend.trans s'.countError_calm
    · rw [hs] at hsend
      exact hsend

theorem handleChat_calm (s : Server σ) (id : ℕ) (payload : Bytes) :
    Calm Session.stamp s (s.handleChat id payload).2 := by
  unfold handleChat
  simp only []
  split
  · exact s.countError_calm
  · rename_i request user h
    by_cases hg : request.channel = .global
    · rw [if_pos hg]
      exact s.sendChat_calm _ _
    · rw [if_neg hg]
      split
      · exact s.handlePartyChat_calm id user request
      · exact s.countError_calm

theorem handleInventoryUpdate_calm [InventoryStorage σ] (s : Server σ) (id : ℕ)
    (payload : Bytes) : Calm Session.stamp s (s.handleInventoryUpdate id payload).2 := by
  unfold handleInventoryUpdate
  simp only []
  split
  · exact s.countError_calm
  · exact ⟨rfl, rfl, rfl, rfl, rfl, rfl, rfl, rfl, rfl, .refl _ _, fun _ h => .inl h⟩

theorem checkEnter_refuses {s : Server σ} {id : ℕ} {payload : Bytes}
    {response : DungeonEnterResponse} (h : s.checkEnter id payload = .error response) :
    response.success = false := by
  unfold checkEnter at h
  simp only [bind_eq_error, decodedOr_eq_error, orRefuse_eq_error, unlessRefuse_eq_error,
    pure_ne_error, and_false, exists_false, or_false] at h
  rcases h with ⟨-, rfl⟩ | ⟨_, -, ⟨-, rfl⟩ | ⟨_, -, ⟨-, rfl⟩ | ⟨_, -, ⟨-, rfl⟩ | ⟨_, -, ⟨-, rfl⟩ |
    ⟨_, -, -, rfl⟩⟩⟩⟩⟩ <;> rfl

/-- A request to enter is refused, or puts the asking session, which has a user, on record. -/
theorem handleEnter_effect (s : Server σ) (id : ℕ) (payload : Bytes) :
    ((s.handleEnter id payload).1.success = false ∧
      Calm Session.stamp s (s.handleEnter id payload).2) ∨
    ((s.handleEnter id payload).1.success = true ∧ (s.userContext id).isSome ∧
      ∃ charId instanceId, Calm Session.stamp
        { s with
          sessionCharacters := s.sessionCharacters.insert id charId
          sessionInstances := s.sessionInstances.insert id instanceId }
        (s.handleEnter id payload).2) := by
  unfold handleEnter
  split
  · rename_i response h
    exact .inl ⟨checkEnter_refuses h, s.countError_calm⟩
  · rename_i request h
    simp only []
    split
    · exact .inl ⟨rfl, s.countError_calm⟩
    · refine .inr ⟨rfl, ?_, request.charId, request.instanceId.toNat, rfl, rfl, rfl, rfl, rfl, rfl,
        rfl, rfl, rfl, .refl _ _, fun _ h => .inl h⟩
      simp only [checkEnter, bind_eq_ok, orRefuse_eq_ok] at h
      obtain ⟨_, -, user, hu, -⟩ := h
      exact Option.isSome_iff_exists.mpr ⟨user, hu⟩

/-- The session makes the guild call for itself. -/
def GuildCallBy (id : ℕ) : GuildCall → Prop
  | .createGuild leader _ _ => leader = id
  | .joinGuild _ member _ => member = id
  | .leaveGuild _ member => member = id
  | _ => False

/-- The session makes the guild call for itself, as the user. -/
def GuildCallAs (id : ℕ) (userId : Str) : GuildCall → Prop
  | .createGuild leader user _ => leader = id ∧ user = userId
  | .joinGuild _ member user => member = id ∧ user = userId
  | .leaveGuild _ member => member = id
  | _ => False

theorem GuildCallAs.by {id : ℕ} {userId : Str} {call : GuildCall}
    (h : GuildCallAs id userId call) : GuildCallBy id call := by
  cases call with
  | createGuild leader user name => exact h.1
  | joinGuild guild member user => exact h.1
  | leaveGuild guild member => exact h
  | removeMember member => exact h
  | replaceMemberSession old new => exact h

/-- A guild packet is refused, or makes one call of the guild service for its session and user. -/
def GuildEffect (s s' : Server σ) (id : ℕ) : Prop :=
  Calm Session.stamp s s' ∨ ∃ call user, s.userContext id = some user ∧
    GuildCallAs id user.userId call ∧
    Calm Session.stamp { s with guildService := s.guildService.call call } s'

theorem handleGuildCreate_effect (s : Server σ) (id : ℕ) (payload : Bytes) :
    GuildEffect s (s.handleGuildCreate id payload).2 id := by
  unfold handleGuildCreate
  simp only []
  split
  · exact .inl s.countError_calm
  · rename_i h
    simp only [bind_eq_ok, orRefuse_eq_ok, pure_eq_ok, Prod.mk.injEq] at h
    obtain ⟨request, -, user, hu, rfl, rfl⟩ := h
    refine .inr ⟨.createGuild id user.userId request.guildName, user, hu, ⟨rfl, rfl⟩, ?_⟩
    have hd := (deliverGuildEvents_delivers
      { s with guildService := (s.guildService.createGuild id user.userId request.guildName).2.2 }
      (s.guildService.createGuild id user.userId request.guildName).2.1).calm
    rcases hg : s.guildService.createGuild id user.userId request.guildName with
      ⟨_ | guildId, events, guildService⟩
    · rw [hg] at hd
      simp only [GuildService.call, hg]
      exact hd.trans (countError_calm _)
    · rw [hg] at hd
      simp only [GuildService.call, hg]
      exact hd

theorem handleGuildJoin_effect (s : Server σ) (id : ℕ) (payload : Bytes) :
    GuildEffect s (s.handleGuildJoin id payload).2 id := by
  unfold handleGuildJoin
  simp only []
  split
  · exact .inl s.countError_calm
  · rename_i h
    simp only [bind_eq_ok, orRefuse_eq_ok, pure_eq_ok, Prod.mk.injEq] at h
    obtain ⟨request, -, user, hu, rfl, rfl⟩ := h
    exact .inr ⟨.joinGuild request.guildId.toNat id user.userId, user, hu, ⟨rfl, rfl⟩,
      (deliverGuildEvents_delivers _ _).calm⟩

theorem handleGuildLeave_effect (s : Server σ) (id : ℕ) (payload : Bytes) :
    GuildEffect s (s.handleGuildLeave id payload).2 id := by
  unfold handleGuildLeave
  split
  · exact .inl s.countError_calm
  · rename_i guildId h
    simp only [checkGuildLeave, bind_eq_ok, orRefuse_eq_ok] at h
    obtain ⟨_, -, user, hu, -⟩ := h
    exact .inr ⟨.leaveGuild guildId id, user, hu, rfl, (deliverGuildEvents_delivers _ _).calm⟩

end Effects

end Server

end DungeonHub
