import DungeonHub.Proofs.Services

/-!
# Matches

Between two packets nobody waits in the queue: a party that is put there is alone in it, finds no
other, and is taken out again before its request is answered. So each request that is let through
gets its own party an instance, and no two parties are ever matched.
-/

namespace DungeonHub

open Run Wire InstanceManager

namespace Server

variable {σ : Type}

section Idle

/-- Nobody is in the queue, and the services behind the server are in order. -/
structure Idle (s : Server σ) : Prop where
  queue : s.matchQueue = {}
  party : s.partyService.Sound
  counted : s.partyService.Counted
  below : s.instanceManager.Below

variable {s s' : Server σ}

theorem Serves.idle (h : Serves s s') (hs : Idle s) : Idle s' := by
  obtain ⟨calls, hcalls⟩ := h.services
  have hafter := stable
    (I := fun p : PartyService × InstanceManager => p.1.Sound ∧ p.1.Counted ∧ p.2.Below)
    (fun p call hp => show (act p call).1.Sound ∧ (act p call).1.Counted ∧ (act p call).2.Below by
      refine ⟨?_, ?_, act_below hp.2.2 call⟩
      · cases call with
        | party call => exact (PartyService.call_goes hp.1 call).2
        | inst call => exact hp.1
      · cases call with
        | party call => exact PartyService.call_counted hp.2.1 call
        | inst call => exact hp.2.1)
    calls (s := (s.partyService, s.instanceManager)) ⟨hs.party, hs.counted, hs.below⟩
  rw [← hcalls] at hafter
  exact ⟨h.queue.trans hs.queue, hafter.1, hafter.2.1, hafter.2.2⟩

/-- A party's members are listed, and there is one at least. -/
theorem Idle.getPartyInfo_cases (hs : Idle s) {partyId : ℕ} {info : PartyInfo}
    (h : s.partyService.getPartyInfo partyId = some info) :
    partyId ≠ 0 ∧ 1 ≤ info.members.length := by
  have hready := isPartyReady_eq s.partyService hs.party partyId
  rw [h] at hready
  unfold isPartyReady at hready
  rw [h] at hready
  simp only [Option.isSome_some, Bool.and_eq_true, Bool.not_eq_true',
    List.isEmpty_eq_false_iff] at hready
  refine ⟨?_, List.length_pos_iff.mpr hready.1⟩
  obtain ⟨party, hp, -⟩ := Option.map_eq_some_iff.mp h
  exact Nat.one_le_iff_ne_zero.mp (hs.counted.positive _ ((Dict.mem_iff _ _).mpr ⟨party, hp⟩))

/-- A party of a size that the rule allows gets into the empty queue, finds nobody there, and is
taken out again. -/
theorem enqueue_alone {c : MatchCandidate} (hid : c.partyId ≠ 0) (hsize : 1 ≤ c.partySize) :
    (({} : MatchRule).maxPartySize < c.partySize ∧ MatchQueue.enqueue {} c = (false, {})) ∨
    (c.partySize ≤ ({} : MatchRule).maxPartySize ∧
      MatchQueue.enqueue {} c = (true, ⟨{}, [c]⟩)) := by
  have hmin : ¬ c.partySize < ({} : MatchRule).minPartySize := Nat.not_lt.mpr hsize
  unfold MatchQueue.enqueue
  rw [if_neg hid]
  by_cases hmax : ({} : MatchRule).maxPartySize < c.partySize
  · exact .inl ⟨hmax, if_pos (.inr hmax)⟩
  · exact .inr ⟨Nat.not_lt.mp hmax, if_neg (not_or.mpr ⟨hmin, hmax⟩)⟩

theorem findMatch_alone (rule : MatchRule) (candidate : MatchCandidate) (now : Time) :
    MatchQueue.findMatch ⟨rule, [candidate]⟩ now = (none, ⟨rule, [candidate]⟩) := rfl

theorem cancel_alone (rule : MatchRule) (candidate : MatchCandidate) :
    (MatchQueue.cancel ⟨rule, [candidate]⟩ candidate.partyId).2 = ⟨rule, []⟩ := by
  unfold MatchQueue.cancel
  simp

end Idle

section Handler

variable {s : Server σ}

/-- What the code of a refused match request can be. -/
def matchRefusals : List Str :=
  ["MALFORMED", "UNAUTHENTICATED", "NO_PARTY", "PARTY_NOT_FOUND", "NOT_PARTY_MEMBER",
    "QUEUE_REJECTED"].map str

theorem checkMatch_refuses {id : ℕ} {payload : Bytes} {response : MatchFoundNotify}
    (h : s.checkMatch id payload = .error response) :
    response.success = false ∧ response.code ∈ matchRefusals := by
  unfold checkMatch at h
  simp only [bind_eq_error, decodedOr_eq_error, orRefuse_eq_error] at h
  rcases h with ⟨-, rfl⟩ | ⟨request, -, ⟨-, rfl⟩ | ⟨_, -, h⟩⟩
  · exact ⟨rfl, by decide⟩
  · exact ⟨rfl, by decide⟩
  · by_cases hzero : request.partyId = 0
    · simp only [if_pos hzero, bind_eq_error, orRefuse_eq_error, unlessRefuse_eq_error,
        pure_ne_error, and_false, exists_false, or_false] at h
      rcases h with ⟨-, rfl⟩ | ⟨_, -, ⟨-, rfl⟩ | ⟨_, -, -, rfl⟩⟩
      · exact ⟨rfl, by decide⟩
      · exact ⟨rfl, by decide⟩
      · exact ⟨rfl, by decide⟩
    · simp only [if_neg hzero, bind_eq_error, orRefuse_eq_error, unlessRefuse_eq_error,
        pure_ne_error, and_false, exists_false, or_false, reduceCtorEq, false_or] at h
      rcases h with ⟨_, -, ⟨-, rfl⟩ | ⟨_, -, -, rfl⟩⟩
      · exact ⟨rfl, by decide⟩
      · exact ⟨rfl, by decide⟩

/-- The party that an id in a request stands for: 0 is the session's own. -/
def addressed (s : Server σ) (id : ℕ) (partyId : UInt64) : Option ℕ :=
  if partyId = 0 then s.partyService.partyForMember id else some partyId.toNat

theorem checkMatch_eq_ok {id partyId : ℕ} {payload : Bytes} {info : PartyInfo} :
    s.checkMatch id payload = .ok (partyId, info) ↔
      ∃ request, decodeMatchRequest payload = .ok request ∧ (s.userContext id).isSome ∧
        s.addressed id request.partyId = some partyId ∧
        s.partyService.getPartyInfo partyId = some info ∧
        ∃ member ∈ info.members, member.sessionId = id := by
  unfold checkMatch addressed
  simp only [bind_eq_ok, decodedOr_eq_ok, orRefuse_eq_ok, Option.isSome_iff_exists]
  constructor
  · rintro ⟨request, hd, user, hu, h⟩
    refine ⟨request, hd, ⟨user, hu⟩, ?_⟩
    by_cases hzero : request.partyId = 0
    · simp only [if_pos hzero, bind_eq_ok, orRefuse_eq_ok, unlessRefuse_eq_ok, pure_eq_ok,
        Prod.mk.injEq, List.any_eq_true, decide_eq_true_eq] at h ⊢
      obtain ⟨_, hp, _, hinfo, -, hmem, rfl, rfl⟩ := h
      exact ⟨hp, hinfo, hmem⟩
    · simp only [if_neg hzero, bind_eq_ok, orRefuse_eq_ok, unlessRefuse_eq_ok, pure_eq_ok,
        Prod.mk.injEq, List.any_eq_true, decide_eq_true_eq, Except.ok.injEq] at h ⊢
      obtain ⟨_, rfl, _, hinfo, -, hmem, rfl, rfl⟩ := h
      exact ⟨rfl, hinfo, hmem⟩
  · rintro ⟨request, hd, ⟨user, hu⟩, hp, hinfo, hmem⟩
    refine ⟨request, hd, user, hu, ?_⟩
    by_cases hzero : request.partyId = 0
    · simp only [if_pos hzero, bind_eq_ok, orRefuse_eq_ok, unlessRefuse_eq_ok, pure_eq_ok,
        Prod.mk.injEq, List.any_eq_true, decide_eq_true_eq] at hp ⊢
      exact ⟨partyId, hp, info, hinfo, (), hmem, rfl, rfl⟩
    · simp only [if_neg hzero, bind_eq_ok, orRefuse_eq_ok, unlessRefuse_eq_ok, pure_eq_ok,
        Prod.mk.injEq, List.any_eq_true, decide_eq_true_eq, Except.ok.injEq,
        Option.some.injEq] at hp ⊢
      exact ⟨partyId, hp, info, hinfo, (), hmem, rfl, rfl⟩

/-- The server that a match request leaves which gets its party the next instance. -/
def matched (s : Server σ) (id partyId : ℕ) (version : UInt16) : MatchFoundNotify × Server σ :=
  openInstance
    { s with instanceManager := (s.instanceManager.createInstance partyId s.partyService).2 }
    s.instanceManager.nextInstanceId partyId version fun member => member = id

theorem createInstance_of_party {m : InstanceManager} {partyService : PartyService} {partyId : ℕ}
    {info : PartyInfo} (h : partyService.getPartyInfo partyId = some info) :
    m.createInstance partyId partyService =
      (some m.nextInstanceId, (m.createInstance partyId partyService).2) := by
  unfold createInstance
  rw [h]

/-- With an empty queue a match request is refused, by the checks or for its party's size, or gets
its party an instance. -/
theorem Idle.handleMatch_cases (hs : Idle s) (id : ℕ) (version : UInt16) (payload : Bytes)
    (now : Time) :
    (∃ response, s.handleMatch id version payload now = (response, s.countError) ∧
      response.success = false ∧ response.code ∈ matchRefusals ∧
      ∀ partyId info, s.checkMatch id payload = .ok (partyId, info) →
        s.matchQueue.rule.maxPartySize < info.members.length) ∨
    ∃ partyId info, s.checkMatch id payload = .ok (partyId, info) ∧
      info.members.length ≤ s.matchQueue.rule.maxPartySize ∧
      s.handleMatch id version payload now = s.matched id partyId version := by
  unfold handleMatch
  rcases hc : s.checkMatch id payload with response | ⟨partyId, info⟩
  · obtain ⟨hsuccess, hcode⟩ := checkMatch_refuses hc
    exact .inl ⟨response, rfl, hsuccess, hcode, by simp⟩
  · obtain ⟨_, -, -, -, hinfo, -⟩ := checkMatch_eq_ok.mp hc
    obtain ⟨hid, hsize⟩ := hs.getPartyInfo_cases hinfo
    simp only [hs.queue]
    rcases enqueue_alone (c := ⟨partyId, 0, info.members.length, now⟩) hid hsize with
      ⟨hmax, he⟩ | ⟨hmax, he⟩
    · rw [he]
      refine .inl ⟨_, rfl, rfl, by decide, ?_⟩
      rintro _ _ ⟨⟩
      exact hmax
    · rw [he]
      refine .inr ⟨partyId, info, rfl, hmax, ?_⟩
      simp only [findMatch_alone]
      have hcancel := cancel_alone {} ⟨partyId, 0, info.members.length, now⟩
      simp only [] at hcancel
      rw [hcancel]
      unfold matchLoop matched
      simp only []
      rw [createInstance_of_party hinfo]
      simp only [decide_true, Bool.true_and, if_true]
      have hqueue : (⟨{}, []⟩ : MatchQueue) = s.matchQueue := hs.queue.symm
      rw [hqueue]
      rfl

/-- Binding members to an instance touches their sessions and bindings only. -/
theorem foldl_bindMember (instanceId : ℕ) (frame : Bytes) (asked : ℕ → Bool) :
    ∀ (members : List PartyMember) (s : Server σ), ∃ sessionInstances heap clock,
      members.foldl (fun s member => s.bindMember instanceId frame asked member) s =
        { s with sessionInstances, heap, clock }
  | [], s => ⟨_, _, _, rfl⟩
  | member :: members, s => by
    have hbind : ∃ sessionInstances heap clock, s.bindMember instanceId frame asked member =
        { s with sessionInstances, heap, clock } := by
      unfold bindMember
      split
      · exact ⟨_, _, _, rfl⟩
      · simp only []
        split_ifs
        · exact ⟨_, _, _, rfl⟩
        · unfold deliver
          split
          · exact ⟨_, _, _, rfl⟩
          · exact ⟨_, _, _, rfl⟩
    obtain ⟨sessionInstances, heap, clock, h⟩ := hbind
    rw [List.foldl_cons, h]
    obtain ⟨sessionInstances', heap', clock', h'⟩ := foldl_bindMember instanceId frame asked members
      { s with sessionInstances, heap, clock }
    exact ⟨sessionInstances', heap', clock', h'⟩

/-- The next instance is the party's, and has a ticket that the answer carries. -/
theorem matched_spec (s : Server σ) (id partyId : ℕ) (version : UInt16) :
    ∃ ticket seed ticketBytes seeds sessionInstances heap clock,
      s.matched id partyId version =
        ({ success := true
           code := str "OK"
           message := str "Match found"
           partyId := UInt64.ofNat partyId
           instanceId := UInt64.ofNat s.instanceManager.nextInstanceId
           endpoint := str "dungeon.local:7777"
           ticket },
          { s with
            instanceManager := (s.instanceManager.createInstance partyId s.partyService).2
            ticketBytes, seeds
            partyInstances := s.partyInstances.insert partyId s.instanceManager.nextInstanceId
            instanceTickets :=
              s.instanceTickets.insert s.instanceManager.nextInstanceId ticket
            instanceSeeds := s.instanceSeeds.insert s.instanceManager.nextInstanceId seed
            sessionInstances, heap, clock }) := by
  unfold matched openInstance
  simp only []
  rcases s.partyService.getPartyInfo partyId with _ | info
  · exact ⟨_, _, _, _, _, _, _, rfl⟩
  · simp only []
    obtain ⟨sessionInstances, heap, clock, h⟩ := foldl_bindMember _ _ _ info.members _
    rw [h]
    exact ⟨_, _, _, _, _, _, _, rfl⟩

theorem matched_serves (s : Server σ) (id partyId : ℕ) (version : UInt16) :
    Serves s (s.matched id partyId version).2 := by
  obtain ⟨ticket, seed, ticketBytes, seeds, sessionInstances, heap, clock, h⟩ :=
    s.matched_spec id partyId version
  rw [h]
  refine ⟨rfl, ⟨[.inst (.createInstance partyId)], rfl⟩, fun i hi => ?_⟩
  exact Dict.get?_insert_of_ne _ _ hi.ne'

theorem Idle.handleMatch_serves (hs : Idle s) (id : ℕ) (version : UInt16) (payload : Bytes)
    (now : Time) : Serves s (s.handleMatch id version payload now).2 := by
  rcases hs.handleMatch_cases id version payload now with
    ⟨response, h, -⟩ | ⟨partyId, info, -, -, h⟩
  · rw [h]
    exact s.countError_apart.serves
  · rw [h]
    exact s.matched_serves id partyId version

end Handler

section Runs

variable [InventoryStorage σ] {s : Server σ}

theorem Idle.dispatch_serves (hs : Idle s) (id : ℕ) (header : FrameHeader) (payload : Bytes)
    (now : Time) : Serves s (s.dispatch id header payload now).2 := by
  unfold dispatch
  split
  · exact (s.handleLogin_spares id payload now).apart.serves
  · exact (s.handleLogout_spares id payload).apart.serves
  · exact s.handleReconnect_serves id payload now
  · exact hs.handleMatch_serves id header.version payload now
  · exact s.handleEnter_serves id payload
  · exact s.handleResult_serves id payload
  · exact (s.handleInventoryUpdate_apart id payload).serves
  · exact (s.handleGuildCreate_apart id payload).serves
  · exact (s.handleGuildJoin_apart id payload).serves
  · exact (s.handleGuildLeave_apart id payload).serves
  · exact (s.handleChat_apart id payload).serves
  · exact s.countError_apart.serves

theorem Idle.handlePacket_serves (hs : Idle s) (id : ℕ) (header : FrameHeader) (payload : Bytes)
    (now : Time) : Serves s (s.handlePacket id header payload now).2 := by
  rcases s.handlePacket_cases id header payload now with
    ⟨-, h⟩ | ⟨session, session', -, ⟨-, h⟩ | ⟨reject, -, h⟩ | ⟨inner, -, h⟩⟩
  · rw [h]
    exact (Apart.refl s).serves
  · rw [h]
    exact ((s.receive_apart id session' payload).trans (countError_apart _)).serves
  · rw [h]
    exact ((s.receive_apart id session' payload).trans (countError_apart _)).serves
  · rw [h]
    have hr := (s.receive_apart id session' payload).serves
    exact hr.trans ((hr.idle hs).dispatch_serves id header inner now)

theorem Idle.step_serves (hs : Idle s) (e : ServerEvent) : Serves s (serverStep s e) := by
  cases e with
  | createSession config now => exact Apart.serves ⟨rfl, rfl, rfl, rfl⟩
  | packet id header payload now => exact hs.handlePacket_serves id header payload now
  | tick now => exact s.tick_serves now
  | removeSession id => exact s.removeSession_serves id
  | forceDisconnect id =>
    show Serves s (s.forceDisconnect id).2
    unfold forceDisconnect
    split
    · exact s.countError_apart.serves
    · exact s.removeSession_serves id
  | party call => exact s.serves_call (.party call)
  | inst call => exact s.serves_call (.inst call)
  | session id call => exact Apart.serves ⟨rfl, rfl, rfl, rfl⟩

omit [InventoryStorage σ] in
theorem idle_new (inventoryStorage : σ) (securityPolicy : SecurityPolicy)
    (tokenBytes : Draws UInt8) (seeds : Draws { n : UInt32 // n ≠ 0 }) (ticketBytes : Draws UInt8)
    (clock : Draws Time) :
    Idle (Server.new inventoryStorage securityPolicy tokenBytes seeds ticketBytes clock) where
  queue := rfl
  party := PartyService.sound_new
  counted := ⟨le_rfl, fun _ hp => absurd hp Std.ExtTreeMap.not_mem_empty⟩
  below _ hi := absurd hi Std.ExtTreeMap.not_mem_empty

/-- Every state of a server is idle. -/
theorem idle_after (inventoryStorage : σ) (securityPolicy : SecurityPolicy)
    (tokenBytes : Draws UInt8) (seeds : Draws { n : UInt32 // n ≠ 0 }) (ticketBytes : Draws UInt8)
    (clock : Draws Time) (es : List ServerEvent) :
    Idle (after serverStep
      (Server.new inventoryStorage securityPolicy tokenBytes seeds ticketBytes clock) es) :=
  stable (I := Idle) (fun _ e hs => (hs.step_serves e).idle hs) es (idle_new ..)

/-- What a match request is answered, and what it leaves, in terms of its session's state. -/
theorem answerPacket_match {session : Session} {id : ℕ} {header : FrameHeader}
    {payload body : Bytes} (ht : PacketType.ofCode header.type = some .matchReq)
    (hsession : s.heap[id]? = some session) (hpass : Passes s.securityPolicy session header payload)
    (hbody : bodyOf s.securityPolicy payload = some body) (now : Time) :
    ∃ session', session'.userContext = session.userContext ∧
      s.answerPacket id header payload now =
        (some ⟨.matchFoundNotify, ((s.receive id session' payload).handleMatch id header.version
          body now).1⟩,
        ((s.receive id session' payload).handleMatch id header.version body now).2) := by
  obtain ⟨session', hg⟩ := gatePacket_of_passes hpass hbody now
  have hu := s.gatePacket_userContext session header payload now
  rw [hg] at hu
  exact ⟨session', hu, by rw [answerPacket_of_passed hsession hg, dispatch_match ht]⟩

section Requests

variable {id : ℕ} {header : FrameHeader} {payload : Bytes} {now : Time}

omit [InventoryStorage σ] in
/-- Whoever is put into the empty queue is alone there. -/
theorem Idle.nobody_found (hs : Idle s) {candidate : MatchCandidate} {queue : MatchQueue}
    (he : s.matchQueue.enqueue candidate = (true, queue)) (now : Time) :
    (queue.findMatch now).1 = none := by
  rw [hs.queue] at he
  unfold MatchQueue.enqueue at he
  split_ifs at he
  · cases he
  · cases he
  · cases he
    rfl

/-- No match request fails because of an instance or a party that is not there. -/
theorem Idle.match_codes (hs : Idle s) {response : MatchFoundNotify}
    (hanswer : (s.answerPacket id header payload now).1 = some ⟨.matchFoundNotify, response⟩) :
    response.code ≠ str "INSTANCE_FAILED" ∧ response.code ≠ str "MATCH_NOT_FOUND" := by
  obtain ⟨session, session', inner, hsession, hg⟩ := passed_of_answer hanswer (by simp)
  rw [answerPacket_of_passed hsession hg] at hanswer
  rw [dispatch_match (dispatch_request hanswer)] at hanswer
  cases hanswer
  have hreceived := (s.receive_apart id session' payload).serves.idle hs
  rcases hreceived.handleMatch_cases id header.version inner now with
    ⟨response, h, -, hcode, -⟩ | ⟨partyId, info, -, -, h⟩
  · rw [h]
    refine ⟨fun heq => ?_, fun heq => ?_⟩
    · rw [heq] at hcode
      exact absurd hcode (by decide)
    · rw [heq] at hcode
      exact absurd hcode (by decide)
  · obtain ⟨_, _, _, _, _, _, _, hm⟩ :=
      (s.receive id session' payload).matched_spec id partyId header.version
    rw [h, hm]
    show str "OK" ≠ str "INSTANCE_FAILED" ∧ str "OK" ≠ str "MATCH_NOT_FOUND"
    exact ⟨by decide, by decide⟩

/-- A member's match request for a party that is not too large is granted a new instance. -/
theorem Idle.match_granted (hs : Idle s) {session : Session} {body : Bytes}
    {request : MatchRequest} {partyId : ℕ} {info : PartyInfo}
    (ht : PacketType.ofCode header.type = some .matchReq) (hsession : s.heap[id]? = some session)
    (hpass : Passes s.securityPolicy session header payload)
    (hbody : bodyOf s.securityPolicy payload = some body)
    (hdecoded : decodeMatchRequest body = .ok request) (huser : (s.userContext id).isSome)
    (haddressed : s.addressed id request.partyId = some partyId)
    (hinfo : s.partyService.getPartyInfo partyId = some info)
    (hmember : ∃ member ∈ info.members, member.sessionId = id)
    (hsize : info.members.length ≤ s.matchQueue.rule.maxPartySize) :
    ∃ response, (s.answerPacket id header payload now).1 = some ⟨.matchFoundNotify, response⟩ ∧
      response.success = true ∧
      s.instanceManager.nextInstanceId ∉ s.instanceManager.instances ∧
      (s.handlePacket id header payload now).2.instanceManager.instances =
        s.instanceManager.instances.insert s.instanceManager.nextInstanceId
          ⟨s.instanceManager.nextInstanceId, partyId, .waiting⟩ ∧
      (s.handlePacket id header payload now).2.partyInstances =
        s.partyInstances.insert partyId s.instanceManager.nextInstanceId := by
  obtain ⟨session', hu, hanswer⟩ := answerPacket_match ht hsession hpass hbody now
  have huser' : ((s.receive id session' payload).userContext id).isSome := by
    rw [(s.receive_calm payload hsession hu).userContext]
    exact huser
  have hc : (s.receive id session' payload).checkMatch id body = .ok (partyId, info) :=
    checkMatch_eq_ok.mpr ⟨request, hdecoded, huser', haddressed, hinfo, hmember⟩
  have hnew : s.instanceManager.nextInstanceId ∉ s.instanceManager.instances :=
    fun hmem => Nat.lt_irrefl _ (hs.below _ hmem)
  have hreceived := (s.receive_apart id session' payload).serves.idle hs
  rcases hreceived.handleMatch_cases id header.version body now with
    ⟨response, -, -, -, hlarge⟩ | ⟨partyId', info', hc', -, h⟩
  · exact absurd hsize (Nat.not_le.mpr (hlarge partyId info hc))
  · rw [hc, Except.ok.injEq, Prod.mk.injEq] at hc'
    obtain ⟨rfl, rfl⟩ := hc'
    obtain ⟨_, _, _, _, _, _, _, hm⟩ :=
      (s.receive id session' payload).matched_spec id partyId header.version
    unfold handlePacket
    rw [hanswer, h, hm]
    refine ⟨_, rfl, rfl, hnew, ?_, rfl⟩
    show (s.instanceManager.createInstance partyId s.partyService).2.instances = _
    unfold createInstance
    rw [hinfo]
    exact Dict.insertIfNew_of_not_mem _ _ hnew

end Requests

/-- In every state of a server the queue is empty and whoever is put there finds nobody, so no
request fails for want of an instance or of a match; and each request of a member for a party of an
allowed size is accepted and gets that party one new instance. -/
theorem match_queue_idle (inventoryStorage : σ) (securityPolicy : SecurityPolicy)
    (tokenBytes : Draws UInt8) (seeds : Draws { n : UInt32 // n ≠ 0 }) (ticketBytes : Draws UInt8)
    (clock : Draws Time) (es : List ServerEvent) (s : Server σ)
    (hes : s = after serverStep
      (Server.new inventoryStorage securityPolicy tokenBytes seeds ticketBytes clock) es) :
    s.matchQueue.queue = [] ∧
    (∀ candidate queue now, s.matchQueue.enqueue candidate = (true, queue) →
      (queue.findMatch now).1 = none) ∧
    (∀ id header payload now response,
      (s.answerPacket id header payload now).1 = some ⟨.matchFoundNotify, response⟩ →
      response.code ≠ str "INSTANCE_FAILED" ∧ response.code ≠ str "MATCH_NOT_FOUND") ∧
    ∀ id session header payload now body request partyId info,
      PacketType.ofCode header.type = some .matchReq → s.heap[id]? = some session →
      Passes s.securityPolicy session header payload →
      bodyOf s.securityPolicy payload = some body → decodeMatchRequest body = .ok request →
      (s.userContext id).isSome → s.addressed id request.partyId = some partyId →
      s.partyService.getPartyInfo partyId = some info →
      (∃ member ∈ info.members, member.sessionId = id) →
      info.members.length ≤ s.matchQueue.rule.maxPartySize →
      ∃ response, (s.answerPacket id header payload now).1 = some ⟨.matchFoundNotify, response⟩ ∧
        response.success = true ∧
        s.instanceManager.nextInstanceId ∉ s.instanceManager.instances ∧
        (s.handlePacket id header payload now).2.instanceManager.instances =
          s.instanceManager.instances.insert s.instanceManager.nextInstanceId
            ⟨s.instanceManager.nextInstanceId, partyId, .waiting⟩ ∧
        (s.handlePacket id header payload now).2.partyInstances =
          s.partyInstances.insert partyId s.instanceManager.nextInstanceId := by
  have hs : Idle s := by
    rw [hes]
    exact idle_after ..
  refine ⟨by rw [hs.queue], fun candidate queue now he => hs.nobody_found he now,
    fun id header payload now response hanswer => hs.match_codes hanswer, ?_⟩
  intro id session header payload now body request partyId info ht hsession hpass hbody hdecoded
    huser haddressed hinfo hmember hsize
  exact hs.match_granted ht hsession hpass hbody hdecoded huser haddressed hinfo hmember hsize

/-- Two users log in and make a party. -/
def paired : List ServerEvent :=
  [.createSession {} 0, .createSession {} 0,
    packetOf 1 .loginReq (encodeLoginRequest ⟨str "u", str "letmein"⟩),
    packetOf 2 .loginReq (encodeLoginRequest ⟨str "v", str "letmein"⟩),
    .party (.createParty 1 (str "u")), .party (.inviteMember 1 1 2 (str "v") 0),
    .party (.acceptInvite 1 2 0)]

/-- A match request for the session's own party. -/
def asking : Bytes := encodeMatchRequest {}

theorem match_queue_idle_paired :
    ∃ response, ((after serverStep (still {}) paired).answerPacket 2 (headerOf .matchReq asking)
      asking 0).1 = some ⟨.matchFoundNotify, response⟩ ∧ response.success = true := by
  obtain ⟨session, hsession⟩ := Option.isSome_iff_exists.mp
    (show (after serverStep (still {}) paired).heap[2]?.isSome by decide +kernel)
  have hmembers : ((after serverStep (still {}) paired).partyService.getPartyInfo 1).map
      (fun info => info.members.map PartyMember.sessionId) = some [1, 2] := by decide +kernel
  obtain ⟨info, hinfo, hmembers⟩ := Option.map_eq_some_iff.mp hmembers
  have hmember : ∃ member ∈ info.members, member.sessionId = 2 :=
    List.mem_map.mp (hmembers ▸ by decide)
  have hsize : info.members.length = 2 := by
    rw [← List.length_map (f := PartyMember.sessionId), hmembers]
    rfl
  have hpass : Passes (after serverStep (still {}) paired).securityPolicy session
      (headerOf .matchReq asking) asking :=
    ⟨fun h => absurd h (by decide +kernel), by decide, fun h => absurd h (by decide +kernel),
      fun h => absurd h (by decide +kernel)⟩
  obtain ⟨response, hanswer, hsuccess, -⟩ := (match_queue_idle _ _ _ _ _ _ paired _ rfl).2.2.2 2
    session (headerOf .matchReq asking) asking 0 asking {} 1 info (by decide) hsession hpass
    (by decide +kernel) (by decide) (by decide +kernel) (by decide +kernel) hinfo hmember
    (hsize ▸ by decide +kernel)
  exact ⟨response, hanswer, hsuccess⟩

end Runs

end Server

end DungeonHub
