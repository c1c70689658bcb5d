import DungeonHub.Proofs.Chat
import DungeonHub.Proofs.Expiry

/-!
# Which versions events are sent in

Guild and chat events go out in the version of the last packet that came in on their session, even
if that packet was refused. They are all in supported versions as long as every session that is
sent one has spoken in such a version last.
-/

namespace DungeonHub

open Run Wire

def Supported (version : UInt16) : Prop :=
  kMinProtocolVersion ≤ version ∧ version ≤ kMaxProtocolVersion

instance (version : UInt16) : Decidable (Supported version) :=
  inferInstanceAs (Decidable (_ ∧ _))

/-- The frame is in a supported version if it is of a guild or chat event. -/
def Proper (frame : Bytes) : Prop :=
  (FrameDecoder.header frame).type ∈ [PacketType.guildEvent.code, PacketType.chatEvent.code] →
    Supported (FrameDecoder.header frame).version

instance (frame : Bytes) : Decidable (Proper frame) := inferInstanceAs (Decidable (_ → _))

section Queue

variable {P : Bytes → Prop} {session session' session'' : Session}

/-- A session has been handed frames, and nothing but `P` has got into its queue. -/
structure Handed (P : Bytes → Prop) (session session' : Session) : Prop where
  version : session'.protocolVersion = session.protocolVersion
  connected : session'.connected = true → session.connected = true
  frames : ∀ frame ∈ session'.sendQueue, P frame ∨ frame ∈ session.sendQueue

theorem Handed.refl (P : Bytes → Prop) (session : Session) : Handed P session session :=
  ⟨rfl, id, fun _ h => .inr h⟩

theorem Handed.trans (h : Handed P session session') (h' : Handed P session' session'') :
    Handed P session session'' where
  version := h'.version.trans h.version
  connected hc := h.connected (h'.connected hc)
  frames frame hf := by
    rcases h'.frames frame hf with hp | hf
    · exact .inl hp
    · exact h.frames frame hf

theorem dropOldest_subset (limit : ℕ) :
    ∀ (queue : List Bytes) (nextSize bytes : ℕ),
      (Session.dropOldest limit queue nextSize bytes).1 ⊆ queue
  | [], _, _ => by simp [Session.dropOldest]
  | front :: queue, nextSize, bytes => by
    unfold Session.dropOldest
    split_ifs
    · exact List.Subset.trans (dropOldest_subset limit queue _ _) (List.subset_cons_self _ _)
    · exact List.Subset.refl _

/-- Only a connected session takes a frame. -/
theorem enqueueSend_handed (payload : Bytes) (now : Time)
    (h : session.connected = true → P payload) :
    Handed P session (session.enqueueSend payload now).2 := by
  unfold Session.enqueueSend Session.enqueueAnswered
  by_cases hc : session.connected = true
  swap
  · rw [if_pos (by simpa using hc)]
    exact .refl P session
  rw [if_neg (by simpa using hc)]
  have hpush : ∀ queue ⊆ session.sendQueue, ∀ frame ∈ queue ++ [payload],
      P frame ∨ frame ∈ session.sendQueue := by
    intro queue hqueue frame hf
    rcases List.mem_append.mp hf with hf | hf
    · exact .inr (hqueue hf)
    · exact .inl (List.mem_singleton.mp hf ▸ h hc)
  simp only []
  split_ifs
  · exact ⟨rfl, id, fun _ hf => .inr hf⟩
  · split
    · exact ⟨rfl, fun _ => hc, fun _ hf => .inr hf⟩
    · exact ⟨rfl, id, hpush _ (dropOldest_subset _ _ _ _)⟩
    · exact ⟨rfl, id, fun _ hf => .inr hf⟩
  · exact ⟨rfl, id, hpush _ (List.Subset.refl _)⟩

theorem tick_handed (P : Bytes → Prop) (session : Session) (now : Time) :
    Handed P session (session.tick now).2 := by
  unfold Session.tick
  split_ifs with hc
  · exact .refl P session
  · exact ⟨rfl, fun _ => by simpa using hc, fun _ hf => .inr hf⟩
  · exact .refl P session

end Queue

section Heap

variable {P : Bytes → Prop} {heap heap' heap'' : Dict ℕ Session} {Q : ℕ → Bytes → Prop}

/-- Sessions have been handed frames. -/
def Hands (P : Bytes → Prop) (heap heap' : Dict ℕ Session) : Prop :=
  ∀ (k : ℕ) (session' : Session), heap'[k]? = some session' →
    ∃ session, heap[k]? = some session ∧ Handed P session session'

theorem Hands.refl (P : Bytes → Prop) (heap : Dict ℕ Session) : Hands P heap heap :=
  fun _ session h => ⟨session, h, .refl P session⟩

theorem Hands.trans (h : Hands P heap heap') (h' : Hands P heap' heap'') :
    Hands P heap heap'' := by
  intro k session'' hk
  obtain ⟨session', hk', hh'⟩ := h' k session'' hk
  obtain ⟨session, hk, hh⟩ := h k session' hk'
  exact ⟨session, hk, hh.trans hh'⟩

theorem hands_insert {id : ℕ} {session session' : Session} (hs : heap[id]? = some session)
    (h : Handed P session session') : Hands P heap (heap.insert id session') := by
  intro k x hk
  rw [Dict.get?_insert] at hk
  split_ifs at hk with hid
  · cases hk
    exact ⟨session, hid ▸ hs, h⟩
  · exact ⟨x, hk, .refl P x⟩

theorem hands_modify (heap : Dict ℕ Session) (id : ℕ) {f : Session → Session}
    (h : ∀ session, Handed P session (f session)) : Hands P heap (heap.modify id f) := by
  intro k x hk
  rw [Dict.get?_modify] at hk
  split_ifs at hk
  · obtain ⟨session, hs, rfl⟩ := Option.map_eq_some_iff.mp hk
    exact ⟨session, hs, h session⟩
  · exact ⟨x, hk, .refl P x⟩

/-- What is in the sessions' queues. -/
def Queued (Q : ℕ → Bytes → Prop) : Dict ℕ Session → Prop :=
  Dict.All fun k session => ∀ frame ∈ session.sendQueue, Q k frame

theorem Hands.queued (h : Hands P heap heap') (hP : ∀ k frame, P frame → Q k frame)
    (hq : Queued Q heap) : Queued Q heap' := by
  intro k session' hk frame hf
  obtain ⟨session, hs, hh⟩ := h k session' hk
  rcases hh.frames frame hf with hp | hf
  · exact hP k frame hp
  · exact hq k session hs frame hf

end Heap

namespace GuildService

variable {s : GuildService} {x : ℕ × Event}

/-- Both sessions are in one guild. -/
def Mates (s : GuildService) (k j : ℕ) : Prop :=
  ∃ guildId, s.memberIndex[k]? = some guildId ∧ s.memberIndex[j]? = some guildId

theorem mem_emitToGuild {guild : GuildRecord} {event : Event}
    (hx : x ∈ s.emitToGuild guild event) : x.1 ∈ guild.members := by
  unfold emitToGuild at hx
  split_ifs at hx
  · obtain ⟨k, hk, rfl⟩ := List.mem_map.mp hx
    exact Std.ExtTreeMap.mem_keys.mp hk
  · simp at hx

theorem createGuild_tells_leader {leader : ℕ} {user name : Str}
    (hx : x ∈ (s.createGuild leader user name).2.1) : x.1 = leader := by
  unfold createGuild at hx
  split_ifs at hx
  · simp at hx
  · have hmem := mem_emitToGuild hx
    rw [Dict.mem_insert] at hmem
    rcases hmem with h | h
    · exact h.symm
    · simp at h

/-- Those in the guild are told of one who joins, and that one. -/
theorem joinGuild_tells_members (h : s.Sound) {guildId member : ℕ} {user : Str}
    (hx : x ∈ (s.joinGuild guildId member user).2.1) :
    member ∉ s.memberIndex ∧ (x.1 = member ∨ s.memberIndex[x.1]? = some guildId) := by
  unfold joinGuild at hx
  split at hx
  · simp at hx
  · rename_i guild hg
    split_ifs at hx with hfree
    · simp at hx
    · have hmem := mem_emitToGuild hx
      rw [Dict.mem_insertIfNew] at hmem
      exact ⟨hfree, hmem.imp Eq.symm (h.roster.mem_view hg).mp⟩

/-- Whoever is told of one who goes is that one or is in the guild. -/
theorem leaveGuild_tells_members (h : s.Sound) {guildId member : ℕ}
    (hx : x ∈ (s.leaveGuild guildId member).2.1) :
    s.memberIndex[member]? = some guildId ∧ s.memberIndex[x.1]? = some guildId := by
  unfold leaveGuild at hx
  split at hx
  · simp at hx
  rename_i guild hg
  have hindex : ∀ j, j ∈ guild.members ↔ s.memberIndex[j]? = some guildId :=
    fun _ => h.roster.mem_view hg
  split at hx
  · simp at hx
  rename_i member' hm
  have hself := (hindex member).mp ((Dict.mem_iff _ _).mpr ⟨member', hm⟩)
  refine ⟨hself, ?_⟩
  split_ifs at hx
  · exact (hindex _).mp (mem_emitToGuild hx)
  · rcases List.mem_append.mp hx with hx | hx
    · have hmem := mem_emitToGuild hx
      rw [Dict.mem_erase] at hmem
      exact (hindex _).mp hmem.2
    · unfold emitToMember at hx
      split_ifs at hx
      · rw [List.mem_singleton.mp hx]
        exact hself
      · simp at hx

theorem removeMember_tells_mates (h : s.Sound) {member : ℕ}
    (hx : x ∈ (s.removeMember member).2.1) : s.Mates member x.1 := by
  unfold removeMember at hx
  split at hx
  · simp at hx
  rename_i guildId hk
  split at hx
  · simp at hx
  rename_i guild hg
  have hindex : ∀ j, j ∈ guild.members ↔ s.memberIndex[j]? = some guildId :=
    fun _ => h.roster.mem_view hg
  split at hx
  · simp at hx
  split_ifs at hx
  · exact ⟨guildId, hk, (hindex _).mp (mem_emitToGuild hx)⟩
  · have hmem := mem_emitToGuild hx
    rw [Dict.mem_erase] at hmem
    exact ⟨guildId, hk, (hindex _).mp hmem.2⟩

/-- The going of a member makes no new mates. -/
theorem removeMember_mates (h : s.Sound) {member k j : ℕ}
    (hm : (s.removeMember member).2.2.Mates k j) : s.Mates k j := by
  have hkeep : ∀ i guildId : ℕ, (s.removeMember member).2.2.memberIndex[i]? = some guildId →
      s.memberIndex[i]? = some guildId := by
    intro i guildId hi
    have hledger := congrFun (congrArg Roster.Ledger.index (removeMember_ledger h member)) i
    rcases hk : s.ledger.index member with _ | g
    · rw [Roster.Ledger.dismiss_of_none hk] at hledger
      exact hledger.symm.trans hi
    · rw [Roster.Ledger.dismiss_index hk] at hledger
      split_ifs at hledger
      · exact absurd (hi.symm.trans hledger) (by simp)
      · exact hledger.symm.trans hi
  obtain ⟨guildId, hk, hj⟩ := hm
  exact ⟨guildId, hkeep k guildId hk, hkeep j guildId hj⟩

end GuildService

namespace Server

variable {σ : Type} {s s' : Server σ} {k id : ℕ}

/-- Whatever the session gets is in a supported version. -/
def Speaks (s : Server σ) (k : ℕ) : Prop :=
  ∀ session, s.findSession k = some session → session.connected = true →
    Supported session.protocolVersion

section Send

theorem Speaks.handed {P : Bytes → Prop} (h : s.Speaks k)
    (hknown : ∀ k ∈ s'.sessions, k ∈ s.sessions) (hh : Hands P s.heap s'.heap) : s'.Speaks k := by
  intro session' hs' hc'
  obtain ⟨hk, hs'⟩ := findSession_eq_some.mp hs'
  obtain ⟨session, hs, hhanded⟩ := hh k session' hs'
  rw [hhanded.version]
  exact h session (findSession_eq_some.mpr ⟨hknown k hk, hs⟩) (hhanded.connected hc')

theorem proper_encodeFrame {type version : UInt16} (payload : Bytes)
    (h : type ∈ [PacketType.guildEvent.code, PacketType.chatEvent.code] → Supported version) :
    Proper (encodeFrame type version payload) := by
  have hheader := header_encodeFrame type version payload []
  rw [List.append_nil] at hheader
  unfold Proper
  rw [hheader]
  exact h

theorem deliver_hands {P : Bytes → Prop} {frame : Session → Bytes}
    (h : ∀ session, s.findSession k = some session → session.connected = true →
      P (frame session)) : Hands P s.heap (s.deliver k frame).heap := by
  unfold deliver
  split
  · exact .refl P s.heap
  · rename_i session hs
    exact hands_insert (findSession_eq_some.mp hs).2 (enqueueSend_handed _ _ (h session hs))

/-- Events go out in supported versions to sessions that speak them. -/
theorem foldl_deliver_hands {α : Type} (recipient : α → ℕ) (type : UInt16) (body : α → Bytes) :
    ∀ (l : List α) (s : Server σ), (∀ a ∈ l, s.Speaks (recipient a)) →
      Hands Proper s.heap (l.foldl (fun s a => s.deliver (recipient a) fun session =>
        encodeFrame type session.protocolVersion (body a)) s).heap
  | [], s, _ => .refl _ s.heap
  | a :: l, s, h => by
    have hone : Hands Proper s.heap (s.deliver (recipient a) fun session =>
        encodeFrame type session.protocolVersion (body a)).heap :=
      deliver_hands fun session hs hc =>
        proper_encodeFrame _ fun _ => h a List.mem_cons_self session hs hc
    obtain ⟨heap, clock, heq, -⟩ := s.deliver_delivers (recipient a) fun session =>
      encodeFrame type session.protocolVersion (body a)
    refine hone.trans (foldl_deliver_hands recipient type body l _ fun b hb => ?_)
    refine (h b (List.mem_cons_of_mem a hb)).handed (fun k hk => ?_) hone
    rw [heq] at hk
    exact hk

theorem deliverGuildEvents_hands {events : GuildService.Events}
    (h : ∀ x ∈ events, s.Speaks x.1) : Hands Proper s.heap (s.deliverGuildEvents events).heap :=
  foldl_deliver_hands Prod.fst _ _ events s h

end Send

section Handlers

variable {payload : Bytes}

theorem handleLogin_hands (s : Server σ) (id : ℕ) (payload : Bytes) (now : Time) :
    Hands Proper s.heap (s.handleLogin id payload now).2.heap := by
  rcases s.handleLogin_cases id payload now with ⟨request, hlogs⟩ | ⟨-, h⟩
  · rw [handleLogin_of_logs hlogs]
    exact hands_modify s.heap id fun _ => ⟨rfl, fun hc => hc, fun _ hf => .inr hf⟩
  · rw [h]
    exact .refl _ s.heap

theorem handleLogout_hands (s : Server σ) (id : ℕ) (payload : Bytes) :
    Hands Proper s.heap (s.handleLogout id payload).2.heap := by
  unfold handleLogout
  split
  · exact .refl _ s.heap
  · exact hands_modify s.heap id fun _ => ⟨rfl, fun hc => hc, fun _ hf => .inr hf⟩

theorem reclaim_hands (s : Server σ) (userId : Str) (id : ℕ) :
    Hands Proper s.heap (s.reclaim userId id).heap := by
  unfold reclaim takeOver
  split
  · exact .refl _ s.heap
  · rename_i existing _
    rcases s.findSession existing with _ | session
    · exact .refl _ s.heap
    · exact hands_modify s.heap existing fun _ => ⟨rfl, fun hc => hc, fun _ hf => .inr hf⟩

theorem handleReconnect_hands (s : Server σ) (id : ℕ) (payload : Bytes) (now : Time) :
    Hands Proper s.heap (s.handleReconnect id payload now).2.heap := by
  rcases s.handleReconnect_refused id payload now with
    ⟨-, tokenService, -, h⟩ | ⟨request, userId, h⟩
  · rw [h]
    exact .refl _ s.heap
  · have hattach : Hands Proper s.heap ((s.reclaim userId id).heap.modify id
        (·.attachUserContext ⟨userId, request.token⟩)) :=
      (s.reclaim_hands userId id).trans
        (hands_modify _ id fun _ => ⟨rfl, fun hc => hc, fun _ hf => .inr hf⟩)
    rw [handleReconnect_of_valid h]
    split_ifs
    · exact hattach.trans (hands_modify _ id fun _ => ⟨rfl, fun hc => hc, fun _ hf => .inr hf⟩)
    · exact hattach

theorem bindMember_hands (instanceId : ℕ) {frame : Bytes} (hframe : Proper frame)
    (asked : ℕ → Bool) (s : Server σ) (member : PartyMember) :
    Hands Proper s.heap (s.bindMember instanceId frame asked member).heap := by
  unfold bindMember
  split
  · exact .refl _ s.heap
  · simp only []
    split_ifs
    · exact .refl _ s.heap
    · exact deliver_hands (s := { s with
        sessionInstances := s.sessionInstances.insert member.sessionId instanceId })
        fun _ _ _ => hframe

theorem openInstance_hands (s : Server σ) (instanceId partyId : ℕ) (version : UInt16)
    (asked : ℕ → Bool) :
    Hands Proper s.heap (s.openInstance instanceId partyId version asked).2.heap := by
  unfold openInstance
  refine related (R := fun s t : Server σ => Hands Proper s.heap t.heap) (fun s => .refl _ s.heap)
    .trans (fun s member => bindMember_hands _ ?_ _ s member) _ _
  exact proper_encodeFrame _ fun h => absurd h (by decide)

theorem matchLoop_hands (id partyId : ℕ) (version : UInt16) :
    ∀ (candidates : List MatchCandidate) (requester : Option MatchFoundNotify) (s : Server σ),
      Hands Proper s.heap (matchLoop id partyId version candidates requester s).2.heap
  | [], some _, s => .refl _ s.heap
  | [], none, s => .refl _ s.heap
  | candidate :: rest, requester, s => by
    unfold matchLoop
    rcases s.instanceManager.createInstance candidate.partyId s.partyService with
      ⟨_ | instanceId, instanceManager⟩
    · exact .refl _ s.heap
    · have hopen : Hands Proper s.heap _ := openInstance_hands { s with instanceManager } instanceId
        candidate.partyId version fun member => candidate.partyId = partyId && member = id
      exact hopen.trans (matchLoop_hands id partyId version rest _ _)

theorem handleMatch_hands (s : Server σ) (id : ℕ) (version : UInt16) (payload : Bytes)
    (now : Time) : Hands Proper s.heap (s.handleMatch id version payload now).2.heap := by
  unfold handleMatch
  split
  · exact .refl _ s.heap
  · simp only []
    split
    · exact .refl _ s.heap
    · rename_i queue _
      rcases queue.findMatch now with ⟨_ | ⟨first, second⟩, matchQueue⟩
      · exact matchLoop_hands id _ version _ _ { s with matchQueue := (matchQueue.cancel _).2 }
      · exact matchLoop_hands id _ version _ _ { s with matchQueue }

theorem handleEnter_heap (s : Server σ) (id : ℕ) (payload : Bytes) :
    (s.handleEnter id payload).2.heap = s.heap := by
  unfold handleEnter
  split
  · rfl
  · simp only []
    split <;> rfl

theorem grantResult_heap [InventoryStorage σ] (s : Server σ) (id instanceId : ℕ)
    (rewards : List RewardItem) : (s.grantResult id instanceId rewards).2.heap = s.heap := by
  unfold grantResult
  split
  · rfl
  · simp only []
    split
    · rfl
    · rfl
    · split <;> rfl

theorem handleResult_heap [InventoryStorage σ] (s : Server σ) (id : ℕ) (payload : Bytes) :
    (s.handleResult id payload).2.heap = s.heap := by
  unfold handleResult
  split
  · rfl
  · simp only []
    split
    · rfl
    · exact grantResult_heap ..

theorem handleInventoryUpdate_heap [InventoryStorage σ] (s : Server σ) (id : ℕ)
    (payload : Bytes) : (s.handleInventoryUpdate id payload).2.heap = s.heap := by
  unfold handleInventoryUpdate
  simp only []
  split <;> rfl

theorem handleGuildCreate_hands (h : s.Speaks id) :
    Hands Proper s.heap (s.handleGuildCreate id payload).2.heap := by
  unfold handleGuildCreate
  simp only []
  split
  · exact .refl _ s.heap
  · rename_i request user _
    have hevents : Hands Proper s.heap
        ({ s with guildService := (s.guildService.createGuild id user.userId
          request.guildName).2.2 }.deliverGuildEvents
          (s.guildService.createGuild id user.userId request.guildName).2.1).heap :=
      deliverGuildEvents_hands (s := { s with
        guildService := (s.guildService.createGuild id user.userId request.guildName).2.2 })
        fun x hx => GuildService.createGuild_tells_leader hx ▸ h
    split <;> exact hevents

theorem handleGuildJoin_hands (hs : s.guildService.Sound) (hself : s.Speaks id)
    (h : ∀ request, decodeGuildJoinRequest payload = .ok request → (s.userContext id).isSome →
      id ∉ s.guildService.memberIndex → ∀ k : ℕ,
        s.guildService.memberIndex[k]? = some request.guildId.toNat → s.Speaks k) :
    Hands Proper s.heap (s.handleGuildJoin id payload).2.heap := by
  unfold handleGuildJoin
  simp only []
  split
  · exact .refl _ s.heap
  · rename_i request user hcheck
    simp only [bind_eq_ok, decodedOr_eq_ok, orRefuse_eq_ok, pure_eq_ok, Prod.mk.injEq] at hcheck
    obtain ⟨request, hdecoded, user, huser, rfl, rfl⟩ := hcheck
    refine deliverGuildEvents_hands (s := { s with
      guildService := (s.guildService.joinGuild request.guildId.toNat id user.userId).2.2 })
      fun x hx => ?_
    obtain ⟨hfree, hx⟩ := GuildService.joinGuild_tells_members hs hx
    rcases hx with hx | hx
    · exact hx ▸ hself
    · exact h request hdecoded (Option.isSome_iff_exists.mpr ⟨user, huser⟩) hfree x.1 hx

theorem handleGuildLeave_hands (hs : s.guildService.Sound)
    (h : ∀ guildId, s.checkGuildLeave id payload = .ok guildId →
      s.guildService.memberIndex[id]? = some guildId → ∀ k : ℕ,
        s.guildService.memberIndex[k]? = some guildId → s.Speaks k) :
    Hands Proper s.heap (s.handleGuildLeave id payload).2.heap := by
  unfold handleGuildLeave
  split
  · exact .refl _ s.heap
  · rename_i guildId hcheck
    refine deliverGuildEvents_hands (s := { s with
      guildService := (s.guildService.leaveGuild guildId id).2.2 }) fun x hx => ?_
    obtain ⟨hid, hx⟩ := GuildService.leaveGuild_tells_members hs hx
    exact h guildId hcheck hid x.1 hx

/-- An answer of success to a chat request is for a message that is not empty. -/
theorem handleChat_message {request : ChatSendRequest}
    (hdecoded : decodeChatSendRequest payload = .ok request)
    (hyes : (s.handleChat id payload).1.success = true) : request.message ≠ [] := by
  intro hempty
  unfold handleChat at hyes
  simp only [] at hyes
  split at hyes
  · rename_i response h
    simp only [bind_eq_error, decodedOr_eq_error, orRefuse_eq_error, unlessRefuse_eq_error,
      pure_ne_error, and_false, exists_false, or_false] at h
    rcases h with ⟨-, rfl⟩ | ⟨_, -, ⟨-, rfl⟩ | ⟨_, -, -, rfl⟩⟩ <;> cases hyes
  · rename_i h
    simp only [bind_eq_ok, decodedOr_eq_ok, orRefuse_eq_ok, unlessRefuse_eq_ok, pure_eq_ok,
      hdecoded, Except.ok.injEq] at h
    obtain ⟨_, rfl, _, -, -, hmessage, -⟩ := h
    exact hmessage hempty

theorem handleChat_hands (hparty : s.partyService.Sound) (hknown : ∀ k ∈ s.sessions, k ∈ s.heap)
    (h : ∀ request partyId picked, decodeChatSendRequest payload = .ok request →
      request.message ≠ [] → (s.userContext id).isSome → s.Addresses id request partyId picked →
      ∀ k, picked k → s.Speaks k) :
    Hands Proper s.heap (s.handleChat id payload).2.heap := by
  rcases handleChat_cases hparty hknown id payload with
    ⟨-, hheap⟩ | ⟨hyes, user, request, partyId, picked, hchats⟩
  · rw [hheap]
    exact .refl _ s.heap
  have hmessage := handleChat_message hchats.decoded hyes
  have huser : (s.userContext id).isSome := Option.isSome_iff_exists.mpr ⟨user, hchats.sender⟩
  have hspeaks := h request partyId picked hchats.decoded hmessage huser hchats.addressed
  have hpicked : ∀ k, picked k → k ∈ s.sessions := by
    intro k hk
    cases hchats.addressed with
    | global => exact hk.1
    | party => exact hk.1
  intro k session' hk
  by_cases hp : picked k
  · obtain ⟨session, now, hsession, hafter⟩ := (hchats.offers k).1 hp
    obtain rfl := Option.some.inj (hk.symm.trans hafter)
    refine ⟨session, hsession, enqueueSend_handed _ _ fun hc => ?_⟩
    exact proper_encodeFrame _ fun _ =>
      hspeaks k hp session (findSession_eq_some.mpr ⟨hpicked k hp, hsession⟩) hc
  · rw [(hchats.offers k).2 hp] at hk
    exact ⟨session', hk, .refl _ session'⟩

end Handlers

section Hearing

/-- A packet of a user gets to its handler. -/
structure Arrives (s : Server σ) (id : ℕ) (header : FrameHeader) (payload : Bytes)
    (type : PacketType) (body : Bytes) : Prop where
  passes : ∃ session, s.heap[id]? = some session ∧ Passes s.securityPolicy session header payload
  body : bodyOf s.securityPolicy payload = some body
  type : PacketType.ofCode header.type = some type
  user : (s.userContext id).isSome

/-- The event is told to a session, other than the one whose packet it is. -/
inductive Hears (s : Server σ) (k : ℕ) : ServerEvent → Prop where
  | removed {id : ℕ} (hmates : s.guildService.Mates id k) (hne : k ≠ id) :
      Hears s k (.removeSession id)
  | forced {id : ℕ} (hknown : id ∈ s.sessions) (hmates : s.guildService.Mates id k)
      (hne : k ≠ id) : Hears s k (.forceDisconnect id)
  | expired {now : Time} {id : ℕ} (hknown : id ∈ s.sessions) (hover : s.expires now id = true)
      (hmates : s.guildService.Mates id k) (hstays : s.expires now k = false) :
      Hears s k (.tick now)
  | joined {id : ℕ} {header : FrameHeader} {payload : Bytes} {now : Time} {body : Bytes}
      {request : GuildJoinRequest} (harrives : s.Arrives id header payload .guildJoinReq body)
      (hdecoded : decodeGuildJoinRequest body = .ok request)
      (hfree : id ∉ s.guildService.memberIndex)
      (hmember : s.guildService.memberIndex[k]? = some request.guildId.toNat) (hne : k ≠ id) :
      Hears s k (.packet id header payload now)
  | left {id : ℕ} {header : FrameHeader} {payload : Bytes} {now : Time} {body : Bytes}
      {guildId : ℕ} (harrives : s.Arrives id header payload .guildLeaveReq body)
      (hguild : s.checkGuildLeave id body = .ok guildId)
      (hid : s.guildService.memberIndex[id]? = some guildId)
      (hmember : s.guildService.memberIndex[k]? = some guildId) (hne : k ≠ id) :
      Hears s k (.packet id header payload now)
  | chatted {id : ℕ} {header : FrameHeader} {payload : Bytes} {now : Time} {body : Bytes}
      {request : ChatSendRequest} {partyId : ℕ} {picked : ℕ → Prop}
      (harrives : s.Arrives id header payload .chatSendReq body)
      (hdecoded : decodeChatSendRequest body = .ok request) (hmessage : request.message ≠ [])
      (haddressed : s.Addresses id request partyId picked) (hpicked : picked k) (hne : k ≠ id) :
      Hears s k (.packet id header payload now)

/-- Every session that is told of the event speaks a supported version. -/
def Heard (s : Server σ) (e : ServerEvent) : Prop := ∀ k, Hears s k e → s.Speaks k

theorem gatePacket_version (s : Server σ) (session : Session) (header : FrameHeader)
    (payload : Bytes) (now : Time) :
    (s.gatePacket session header payload now).2.protocolVersion = header.version := by
  refine gatePacket_reads (f := Session.protocolVersion) (fun sec session => ?_) s session header
    payload now
  unfold admitted Session.recordNonce
  split_ifs <;> rfl

variable [InventoryStorage σ] {header : FrameHeader} {payload body : Bytes} {now : Time}

/-- A packet that gets to its handler has events sent in supported versions only. -/
theorem dispatch_hands (hparty : s.partyService.Sound) (hguild : s.guildService.Sound)
    (hknown : ∀ k ∈ s.sessions, k ∈ s.heap) (hself : s.Speaks id)
    (hjoin : PacketType.ofCode header.type = some .guildJoinReq → ∀ request,
      decodeGuildJoinRequest body = .ok request → (s.userContext id).isSome →
      id ∉ s.guildService.memberIndex → ∀ k : ℕ,
        s.guildService.memberIndex[k]? = some request.guildId.toNat → s.Speaks k)
    (hleave : PacketType.ofCode header.type = some .guildLeaveReq → ∀ guildId,
      s.checkGuildLeave id body = .ok guildId →
      s.guildService.memberIndex[id]? = some guildId → ∀ k : ℕ,
        s.guildService.memberIndex[k]? = some guildId → s.Speaks k)
    (hchat : PacketType.ofCode header.type = some .chatSendReq → ∀ request partyId picked,
      decodeChatSendRequest body = .ok request → request.message ≠ [] →
      (s.userContext id).isSome → s.Addresses id request partyId picked →
      ∀ k, picked k → s.Speaks k) :
    Hands Proper s.heap (s.dispatch id header body now).2.heap := by
  unfold dispatch
  split
  · exact s.handleLogin_hands id body now
  · exact s.handleLogout_hands id body
  · exact s.handleReconnect_hands id body now
  · exact s.handleMatch_hands id header.version body now
  · rw [handleEnter_heap]
    exact .refl _ s.heap
  · rw [handleResult_heap]
    exact .refl _ s.heap
  · rw [handleInventoryUpdate_heap]
    exact .refl _ s.heap
  · exact handleGuildCreate_hands hself
  · rename_i ht
    exact handleGuildJoin_hands hguild hself (hjoin ht)
  · rename_i ht
    exact handleGuildLeave_hands hguild (hleave ht)
  · rename_i ht
    exact handleChat_hands hparty hknown (hchat ht)
  · exact .refl _ s.heap

omit [InventoryStorage σ] in
/-- The session whose packet is let in speaks a supported version from then on. -/
theorem receive_speaks {session session' : Session}
    (hg : s.gatePacket session header payload now = (.passed body, session'))
    (h : k ≠ id → s.Speaks k) : (s.receive id session' payload).Speaks k := by
  have hversion := s.gatePacket_version session header payload now
  rw [hg] at hversion
  intro x hx
  obtain ⟨hknown, hx⟩ := findSession_eq_some.mp hx
  change (s.heap.insert id session')[k]? = some x at hx
  by_cases hne : k = id
  · rw [hne, Dict.get?_insert_self, Option.some.injEq] at hx
    rw [← hx, hversion]
    exact fun _ => (gate_passed (congrArg Prod.fst hg)).1.version
  · rw [Dict.get?_insert_of_ne _ _ (Ne.symm hne)] at hx
    exact h hne x (findSession_eq_some.mpr ⟨hknown, hx⟩)

omit [InventoryStorage σ] in
theorem checkGuildLeave_calm (h : Calm Session.userContext s s') (id : ℕ) (payload : Bytes) :
    s'.checkGuildLeave id payload = s.checkGuildLeave id payload := by
  unfold checkGuildLeave
  rw [h.userContext, h.guild]

omit [InventoryStorage σ] in
theorem checkGuildLeave_user {guildId : ℕ} (h : s.checkGuildLeave id payload = .ok guildId) :
    (s.userContext id).isSome := by
  simp only [checkGuildLeave, bind_eq_ok, orRefuse_eq_ok] at h
  obtain ⟨_, -, user, huser, -⟩ := h
  exact Option.isSome_iff_exists.mpr ⟨user, huser⟩

/-- A packet that is let in has events sent in supported versions if those that hear of it speak
such versions. -/
theorem passed_hands {session session' : Session} (hs : Orderly s)
    (h : s.Heard (.packet id header payload now)) (hsession : s.heap[id]? = some session)
    (hg : s.gatePacket session header payload now = (.passed body, session')) :
    Hands Proper (s.receive id session' payload).heap
      ((s.receive id session' payload).dispatch id header body now).2.heap := by
  obtain ⟨hpasses, hbody⟩ := gate_passed (congrArg Prod.fst hg)
  have hu := s.gatePacket_userContext session header payload now
  rw [hg] at hu
  have hcalm := s.receive_calm payload hsession hu
  have ht := hs.calm hcalm
  have harrives : ∀ type, PacketType.ofCode header.type = some type →
      ((s.receive id session' payload).userContext id).isSome →
      s.Arrives id header payload type body := by
    intro type htype huser
    rw [hcalm.userContext] at huser
    exact ⟨⟨session, hsession, (passes_received now).mp hpasses⟩, hbody, htype, huser⟩
  have hspeaks : ∀ k, (k ≠ id → Hears s k (.packet id header payload now)) →
      (s.receive id session' payload).Speaks k :=
    fun k hk => receive_speaks hg fun hne => h k (hk hne)
  refine dispatch_hands ht.party ht.guild ht.known ?_ ?_ ?_ ?_
  · exact receive_speaks hg fun hne => absurd rfl hne
  · intro htype request hdecoded huser hfree k hk
    exact hspeaks k (.joined (harrives _ htype huser) hdecoded hfree hk)
  · intro htype guildId hcheck hid k hk
    exact hspeaks k (.left (harrives _ htype (checkGuildLeave_user hcheck))
      (checkGuildLeave_calm hcalm id body ▸ hcheck) hid hk)
  · intro htype request partyId picked hdecoded hmessage huser haddressed k hk
    exact hspeaks k (.chatted (harrives _ htype huser) hdecoded hmessage
      (haddressed.calm hcalm) hk)

theorem packet_queued {Q : ℕ → Bytes → Prop} (hs : Orderly s)
    (h : s.Heard (.packet id header payload now)) (hQ : ∀ k frame, Proper frame → Q k frame)
    (hq : Queued Q s.heap) : Queued Q (s.handlePacket id header payload now).2.heap := by
  rcases s.handlePacket_cases id header payload now with
    ⟨-, heq⟩ | ⟨session, session', hsession, hway⟩
  · rw [heq]
    exact hq
  have hreceive : ∀ gated, s.gatePacket session header payload now = (gated, session') →
      Queued Q (s.receive id session' payload).heap := by
    intro gated hg
    refine hq.insert fun frame hf => hq id session hsession frame ?_
    have hqueue := s.gatePacket_sendQueue session header payload now
    rw [hg] at hqueue
    exact hqueue ▸ hf
  rcases hway with ⟨hg, heq⟩ | ⟨reject, hg, heq⟩ | ⟨body, hg, heq⟩
  · rw [heq]
    exact hreceive _ hg
  · rw [heq]
    exact hreceive _ hg
  · rw [heq]
    exact (passed_hands hs h hsession hg).queued hQ (hreceive _ hg)

end Hearing

section Removal

theorem tick_connected (session : Session) (now : Time) :
    (session.tick now).2.connected = (session.tick now).1 := by
  unfold Session.tick
  split_ifs with hc
  · simpa using hc
  · rfl
  · rfl

theorem forgetSession_hands (hguild : s.guildService.Sound)
    (h : ∀ k, s.guildService.Mates id k → s.Speaks k) :
    Hands Proper s.heap (s.forgetSession id).heap := by
  unfold forgetSession
  exact deliverGuildEvents_hands (s := { s with
    registry := s.registry.removeSession id
    partyService := (s.partyService.removeMember id).2.2
    guildService := (s.guildService.removeMember id).2.2 })
    fun x hx => h x.1 (GuildService.removeMember_tells_mates hguild hx)

/-- The others in the guild are told of a session's removal. -/
theorem removeSession_hands (hguild : s.guildService.Sound)
    (h : ∀ k, s.guildService.Mates id k → k ≠ id → s.Speaks k) :
    Hands Proper s.heap (s.removeSession id).heap := by
  unfold removeSession
  split_ifs with hknown
  · have hclear : Hands Proper s.heap (s.heap.modify id Session.clearUserContext) :=
      hands_modify s.heap id fun _ => ⟨rfl, fun hc => hc, fun _ hf => .inr hf⟩
    refine hclear.trans (forgetSession_hands (s := { s.modifySession id Session.clearUserContext
      with sessions := s.sessions.erase id }) hguild fun k hmates => ?_)
    by_cases hne : k = id
    · intro session hs
      have hk : k ∈ s.sessions.erase id := (findSession_eq_some.mp hs).1
      rw [Dict.mem_erase] at hk
      exact absurd hne.symm hk.1
    · refine (h k hmates hne).handed (fun j hj => ?_) hclear
      exact ((Dict.mem_erase _ _ _).mp hj).2
  · refine forgetSession_hands hguild fun k hmates => ?_
    by_cases hne : k = id
    · intro session hs
      exact absurd (findSession_eq_some.mp hs).1 (hne ▸ hknown)
    · exact h k hmates hne

theorem foldl_removeSession_hands : ∀ (ids : List ℕ) (s : Server σ), s.guildService.Sound →
    (∀ id ∈ ids, ∀ k, s.guildService.Mates id k → k ≠ id → s.Speaks k) →
    Hands Proper s.heap (ids.foldl removeSession s).heap
  | [], s, _, _ => .refl _ s.heap
  | id :: ids, s, hguild, h => by
    have hone := removeSession_hands hguild (h id List.mem_cons_self)
    obtain ⟨heap, clock, heq, -⟩ := s.removeSession_delivers id
    have hservice : (s.removeSession id).guildService = (s.guildService.removeMember id).2.2 := by
      rw [heq]
      rfl
    have hsessions : ∀ k ∈ (s.removeSession id).sessions, k ∈ s.sessions := by
      intro k hk
      rw [heq] at hk
      exact ((Dict.mem_erase _ _ _).mp hk).2
    have hsound := (GuildService.removeMember_goes (A := ∅) hguild id).1.2
    have hrest : ∀ j ∈ ids, ∀ k, (s.removeSession id).guildService.Mates j k → k ≠ j →
        (s.removeSession id).Speaks k := by
      intro j hj k hmates hne
      rw [hservice] at hmates
      have hbefore := GuildService.removeMember_mates hguild hmates
      exact (h j (List.mem_cons_of_mem id hj) k hbefore hne).handed hsessions hone
    exact hone.trans (foldl_removeSession_hands ids _ (hservice ▸ hsound) hrest)

/-- Those who stay are told of the sessions that a tick removes. -/
theorem tick_hands (hguild : s.guildService.Sound) {now : Time} (h : s.Heard (.tick now)) :
    Hands Proper s.heap (s.tick now).heap := by
  have hkeys : s.sessions.keys.Nodup := Std.ExtTreeMap.nodup_keys
  obtain ⟨t, htables, hheap, heq⟩ := visit_eq s now _ hkeys [] s rfl fun _ _ => rfl
  have hsessions : t.sessions = s.sessions := congrArg Tables.sessions htables
  have hservice : t.guildService = s.guildService := congrArg Tables.guildService htables
  have hvisited : Hands Proper s.heap t.heap := by
    intro k session' hk
    rw [hheap k] at hk
    split_ifs at hk
    · obtain ⟨session, hs, rfl⟩ := Option.map_eq_some_iff.mp hk
      exact ⟨session, hs, tick_handed _ session now⟩
    · exact ⟨session', hk, .refl _ session'⟩
  rw [tick_eq, tickIn, heq]
  simp only [List.nil_append]
  refine hvisited.trans (foldl_removeSession_hands _ t (hservice ▸ hguild) ?_)
  intro id hid k hmates _
  obtain ⟨hid, hover⟩ := List.mem_filter.mp hid
  rw [hservice] at hmates
  intro session' hs' hc'
  obtain ⟨hk, hs'⟩ := findSession_eq_some.mp hs'
  rw [hsessions] at hk
  have hticked := hs'
  rw [hheap k, if_pos (Std.ExtTreeMap.mem_keys.mpr hk)] at hticked
  obtain ⟨session, hsession, rfl⟩ := Option.map_eq_some_iff.mp hticked
  have hstays : s.expires now k = false := by
    unfold expires
    simp only [hsession, ← tick_connected, hc', Bool.not_true]
  have hspeaks := h k (.expired (Std.ExtTreeMap.mem_keys.mp hid) hover hmates hstays)
  exact hspeaks.handed (fun j hj => hsessions ▸ hj) hvisited _
    (findSession_eq_some.mpr ⟨hsessions.symm ▸ hk, hs'⟩) hc'

end Removal

section Runs

variable [InventoryStorage σ] {e : ServerEvent}

omit [InventoryStorage σ] in
theorem call_frames {session : Session} {call : SessionCall} {frame : Bytes}
    (hf : frame ∈ (session.call call).sendQueue) :
    (∃ now, call = .enqueueSend frame now) ∨ frame ∈ session.sendQueue := by
  cases call with
  | onReceive now => exact .inr hf
  | enqueueSend payload now =>
    have hhanded : Handed (· = payload) session (session.enqueueSend payload now).2 :=
      enqueueSend_handed payload now fun _ => rfl
    rcases hhanded.frames frame hf with rfl | hf
    · exact .inl ⟨now, rfl⟩
    · exact .inr hf
  | dequeueSend =>
    refine .inr ?_
    change frame ∈ session.dequeueSend.2.sendQueue at hf
    unfold Session.dequeueSend at hf
    split at hf
    · exact hf
    · rename_i payload queue hqueue
      exact hqueue ▸ List.mem_cons_of_mem payload hf
  | markHeartbeatSent now => exact .inr hf
  | markTlsEstablished handshakeTime => exact .inr hf
  | tick now =>
    have hhanded := tick_handed (fun _ => False) session now
    exact .inr ((hhanded.frames frame hf).resolve_left id)

/-- A step whose event is heard by such sessions only fills the queues with such frames, and with
what the transport enqueues. -/
theorem step_queued {Q : ℕ → Bytes → Prop} (hs : Orderly s) (h : s.Heard e)
    (hQ : ∀ k frame, Proper frame → Q k frame)
    (htransport : ∀ k frame now, e = .session k (.enqueueSend frame now) → Q k frame)
    (hq : Queued Q s.heap) : Queued Q (serverStep s e).heap := by
  cases e with
  | createSession config now => exact hq.insert fun frame hf => absurd hf (by simp [Session.new])
  | packet id header payload now => exact packet_queued hs h hQ hq
  | tick now => exact (tick_hands hs.guild h).queued hQ hq
  | removeSession id =>
    have hhands := removeSession_hands hs.guild fun k hmates hne => h k (.removed hmates hne)
    exact hhands.queued hQ hq
  | forceDisconnect id =>
    show Queued Q (s.forceDisconnect id).2.heap
    unfold forceDisconnect
    split
    · exact hq
    · rename_i session hsession
      have hknown := (findSession_eq_some.mp hsession).1
      have hhands := removeSession_hands hs.guild fun k hmates hne =>
        h k (.forced hknown hmates hne)
      exact hhands.queued hQ hq
  | party call => exact hq
  | inst call => exact hq
  | session id call =>
    intro k session' hk frame hf
    change (s.heap.modify id _)[k]? = some session' at hk
    rw [Dict.get?_modify] at hk
    split_ifs at hk with hid
    · obtain ⟨session, hsession, rfl⟩ := Option.map_eq_some_iff.mp hk
      rcases call_frames hf with ⟨now, rfl⟩ | hf
      · exact htransport k frame now (hid ▸ rfl)
      · exact hq k session hsession frame hf
    · exact hq k session' hk frame hf

/-- Every guild or chat event in a queue is in a supported version, unless it is the transport that
has put it there. -/
def Versioned (es : List ServerEvent) (s : Server σ) : Prop :=
  Queued (fun k frame => Proper frame ∨ ∃ now, ServerEvent.session k (.enqueueSend frame now) ∈ es)
    s.heap

/-- Events are in supported versions as long as those who hear of an event speak one. -/
theorem events_versioned (inventoryStorage : σ) (securityPolicy : SecurityPolicy)
    (tokenBytes : Draws UInt8) (seeds : Draws { n : UInt32 // n ≠ 0 }) (ticketBytes : Draws UInt8)
    (clock : Draws Time) (es : List ServerEvent)
    (h : ∀ x ∈ trail serverStep
      (Server.new inventoryStorage securityPolicy tokenBytes seeds ticketBytes clock) es,
      x.1.Heard x.2) :
    Versioned es (after serverStep
      (Server.new inventoryStorage securityPolicy tokenBytes seeds ticketBytes clock) es) := by
  have hsteps : ∀ x ∈ trail serverStep
      (Server.new inventoryStorage securityPolicy tokenBytes seeds ticketBytes clock) es,
      x.1.Heard x.2 ∧ x.2 ∈ es := fun x hx => ⟨h x hx, mem_of_mem_trail hx⟩
  refine (invariant (I := fun s : Server σ => Orderly s ∧ Versioned es s)
    (P := fun s e => s.Heard e ∧ e ∈ es) (fun s e hs he => ⟨hs.1.step e, ?_⟩) es _
    ⟨orderly_new inventoryStorage securityPolicy tokenBytes seeds ticketBytes clock, ?_⟩ hsteps).2
  · exact step_queued hs.1 he.1 (fun k frame hp => .inl hp)
      (fun k frame now heq => .inr ⟨now, heq ▸ he.2⟩) hs.2
  · exact Dict.all_empty

/-- A new session, or a packet while all other sessions speak supported versions. -/
def polite (s : Server σ) : ServerEvent → Bool
  | .createSession _ _ => true
  | .packet id _ _ _ => s.sessions.keys.all fun k => k = id ||
    (s.findSession k).all fun session => Supported session.protocolVersion
  | _ => false

omit [InventoryStorage σ] in
theorem heard_of_polite (h : s.polite e = true) : s.Heard e := by
  have hother : ∀ id header payload now, e = .packet id header payload now →
      ∀ k, k ≠ id → s.Speaks k := by
    rintro id header payload now rfl k hne session hs -
    have hk := Std.ExtTreeMap.mem_keys.mpr (findSession_eq_some.mp hs).1
    have hall := List.all_eq_true.mp h k hk
    rw [hs] at hall
    simpa [hne] using hall
  intro k hears
  cases hears with
  | removed => cases h
  | forced => cases h
  | expired => cases h
  | joined _ _ _ _ hne => exact hother _ _ _ _ rfl k hne
  | left _ _ _ _ hne => exact hother _ _ _ _ rfl k hne
  | chatted _ _ _ _ _ hne => exact hother _ _ _ _ rfl k hne

/-- Two users log in and are in a guild. -/
def befriended : List ServerEvent :=
  [.createSession {} 0, packetOf 1 .loginReq (encodeLoginRequest ⟨str "u", str "letmein"⟩),
    .createSession {} 0, packetOf 2 .loginReq (encodeLoginRequest ⟨str "v", str "letmein"⟩),
    packetOf 1 .guildCreateReq (encodeGuildCreateRequest ⟨str "g"⟩),
    packetOf 2 .guildJoinReq (encodeGuildJoinRequest ⟨1⟩)]

theorem events_versioned_befriended :
    Versioned befriended (after serverStep (still {}) befriended) := by
  refine events_versioned defaultStorage {} (fun _ => 0) (fun _ => ⟨1, by decide⟩) (fun _ => 0)
    (fun _ => 0) befriended fun x hx => heard_of_polite ?_
  have hall : (trail serverStep (still {}) befriended).all (fun x => x.1.polite x.2) = true := by
    decide +kernel
  exact List.all_eq_true.mp hall x hx

/-- The second has a packet refused for its version, and then the guild ends. -/
def refused : List ServerEvent :=
  befriended ++ [.packet 2 ⟨0, PacketType.loginReq.code, 9999⟩ [] 0, .removeSession 1]

/-- The second is told of the guild's end in that version. -/
theorem events_versioned_refused : ¬ Versioned refused (after serverStep (still {}) refused) := by
  intro h
  have hframe : ∃ frame ∈ ((after serverStep (still {}) refused).heap[2]?.map
      Session.sendQueue).getD [], ¬ Proper frame := by decide +kernel
  obtain ⟨frame, hf, himproper⟩ := hframe
  rcases hsession : (after serverStep (still {}) refused).heap[2]? with _ | session
  · rw [hsession] at hf
    simp at hf
  · rw [hsession] at hf
    rcases h 2 session hsession frame hf with hproper | ⟨now, hmem⟩
    · exact himproper hproper
    · simp [refused, befriended, packetOf] at hmem

end Runs

end Server

end DungeonHub
