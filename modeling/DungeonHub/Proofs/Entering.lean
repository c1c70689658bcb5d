import DungeonHub.Proofs.Matches

/-!
# Entering an instance

The ticket of an instance goes to every member of its party, but only the first to ask gets in: its
request makes the instance ready, and one that is ready cannot be made ready again. So a whole party
enters only if it has one member.
-/

namespace DungeonHub

open Run Wire InstanceManager

namespace Server

variable {σ : Type}

section Handler

variable {s : Server σ} {id : ℕ} {payload : Bytes} {request : DungeonEnterRequest}

theorem checkEnter_eq_ok :
    s.checkEnter id payload = .ok request ↔
      decodeDungeonEnterRequest payload = .ok request ∧ (s.userContext id).isSome ∧
      ∃ record info, s.instanceManager.getInstance request.instanceId.toNat = some record ∧
        s.instanceTickets[request.instanceId.toNat]? = some request.ticket ∧
        s.partyService.getPartyInfo record.partyId = some info ∧
        ∃ member ∈ info.members, member.sessionId = id := by
  unfold checkEnter
  simp only [bind_eq_ok, decodedOr_eq_ok, orRefuse_eq_ok, unlessRefuse_eq_ok, pure_eq_ok,
    Option.isSome_iff_exists, List.any_eq_true, decide_eq_true_eq]
  constructor
  · rintro ⟨_, hd, user, hu, record, hr, -, ht, info, hinfo, -, hm, rfl⟩
    exact ⟨hd, ⟨user, hu⟩, record, info, hr, ht, hinfo, hm⟩
  · rintro ⟨hd, ⟨user, hu⟩, record, info, hr, ht, hinfo, hm⟩
    exact ⟨request, hd, user, hu, record, hr, (), ht, info, hinfo, (), hm, rfl⟩

/-- What lets a waiting instance be entered: its ticket is shown for a member of its party. -/
structure Admits (s : Server σ) (id instanceId : ℕ) (ticket : Str) (record : InstanceRecord)
    (info : PartyInfo) : Prop where
  user : (s.userContext id).isSome
  inst : s.instanceManager.getInstance instanceId = some record
  ticket : s.instanceTickets[instanceId]? = some ticket
  party : s.partyService.getPartyInfo record.partyId = some info
  member : ∃ member ∈ info.members, member.sessionId = id

/-- A member with the ticket gets in if the instance is waiting, and only then. -/
theorem handleEnter_cases (hs : s.partyService.Sound)
    (hd : decodeDungeonEnterRequest payload = .ok request) {record : InstanceRecord}
    {info : PartyInfo} (h : Admits s id request.instanceId.toNat request.ticket record info) :
    (record.state = .waiting ∧ (s.handleEnter id payload).1.success = true ∧
      (s.handleEnter id payload).2.sessionCharacters[id]? = some request.charId ∧
      (s.handleEnter id payload).2.sessionInstances[id]? = some request.instanceId.toNat ∧
      (s.handleEnter id payload).2.instanceManager.getInstance request.instanceId.toNat =
        some { record with state := .ready }) ∨
    (record.state ≠ .waiting ∧ (s.handleEnter id payload).1.success = false) := by
  have hc : s.checkEnter id payload = .ok request :=
    checkEnter_eq_ok.mpr ⟨hd, h.user, record, info, h.inst, h.ticket, h.party, h.member⟩
  have hready : isPartyReady record.partyId s.partyService = true := by
    rw [isPartyReady_eq _ hs, h.party]
    rfl
  unfold handleEnter
  rw [hc]
  simp only []
  rcases s.instanceManager.requestTransition_cases s.partyService request.instanceId.toNat .ready
    with ⟨record', hr, he, -, htrans⟩ | ⟨hno, htrans⟩
  · rw [h.inst, Option.some.injEq] at hr
    subst hr
    rw [htrans]
    exact .inl ⟨he.of_ready, rfl, Dict.get?_insert_self _ _ _, Dict.get?_insert_self _ _ _,
      Dict.get?_insert_self _ _ _⟩
  · rw [htrans]
    refine .inr ⟨fun hwaiting => ?_, rfl⟩
    have hedge : Edge record.state .ready := by
      rw [hwaiting]
      decide
    rw [(hno record h.inst hedge).2] at hready
    cases hready

end Handler

section Requests

variable [InventoryStorage σ]

/-- The session and the character of a request to enter the instance with the ticket, if the event
is one that is let through. -/
def entering (instanceId : ℕ) (ticket : Str) (s : Server σ) : ServerEvent → Option (ℕ × UInt64)
  | .packet id header payload now =>
    match s.heap[id]? with
    | none => none
    | some session =>
      match (s.gatePacket session header payload now).1 with
      | .passed body =>
        match PacketType.ofCode header.type, decodeDungeonEnterRequest body with
        | some .dungeonEnterReq, .ok request =>
          if request.instanceId.toNat = instanceId ∧ request.ticket = ticket then
            some (id, request.charId)
          else none
        | _, _ => none
      | _ => none
  | _ => none

/-- The requests of a run to enter the instance, in order. -/
def asked (instanceId : ℕ) (ticket : Str) (s : Server σ) (es : List ServerEvent) :
    List (ℕ × UInt64) :=
  (trail serverStep s es).filterMap fun x => entering instanceId ticket x.1 x.2

/-- The packet is answered with an accepted entry, and character and instance of its session are on
record. -/
def Enters (s : Server σ) (e : ServerEvent) (id instanceId : ℕ) (charId : UInt64) : Prop :=
  (∃ header payload now response, e = .packet id header payload now ∧
    (s.answerPacket id header payload now).1 = some ⟨.dungeonEnterRes, response⟩ ∧
    response.success = true) ∧
  (serverStep s e).sessionCharacters[id]? = some charId ∧
  (serverStep s e).sessionInstances[id]? = some instanceId

variable {s : Server σ} {e : ServerEvent} {id instanceId : ℕ} {ticket : Str} {charId : UInt64}

omit [InventoryStorage σ] in
theorem entering_eq_some :
    entering instanceId ticket s e = some (id, charId) ↔
      ∃ header payload now session session' body request, e = .packet id header payload now ∧
        s.heap[id]? = some session ∧
        s.gatePacket session header payload now = (.passed body, session') ∧
        PacketType.ofCode header.type = some .dungeonEnterReq ∧
        decodeDungeonEnterRequest body = .ok request ∧
        request = ⟨request.instanceId, ticket, charId⟩ ∧ request.instanceId.toNat = instanceId := by
  constructor
  · intro h
    unfold entering at h
    split at h
    · rename_i id' header payload now
      split at h
      · cases h
      · rename_i session hs
        split at h
        · rename_i body hg
          split at h
          · rename_i request ht hd
            split_ifs at h with hr
            obtain ⟨hi, rfl⟩ := hr
            cases h
            exact ⟨header, payload, now, session, _, body, request, rfl, hs, Prod.ext hg rfl, ht,
              hd, rfl, hi⟩
          · cases h
        · cases h
    · cases h
  · rintro ⟨header, payload, now, session, session', body, request, rfl, hs, hg, ht, hd, hr, hi⟩
    unfold entering
    simp only [hs, hg, ht, hd]
    rw [if_pos ⟨hi, by rw [hr]⟩, hr]

/-- A member's request succeeds if its instance is waiting, which it then no longer is. -/
theorem enters_iff (hs : s.partyService.Sound)
    (he : entering instanceId ticket s e = some (id, charId)) {record : InstanceRecord}
    {info : PartyInfo} (h : Admits s id instanceId ticket record info) :
    (Enters s e id instanceId charId ↔ record.state = .waiting) ∧
      (Enters s e id instanceId charId →
        (serverStep s e).instanceManager.getInstance instanceId =
          some { record with state := .ready }) := by
  obtain ⟨header, payload, now, session, session', body, request, rfl, hsession, hg, ht, hd, hr,
    rfl⟩ := entering_eq_some.mp he
  have hu := s.gatePacket_userContext session header payload now
  rw [hg] at hu
  have huser : ((s.receive id session' payload).userContext id).isSome := by
    rw [(s.receive_calm payload hsession hu).userContext]
    exact h.user
  have hway : s.answerPacket id header payload now =
      (some ⟨.dungeonEnterRes, ((s.receive id session' payload).handleEnter id body).1⟩,
        ((s.receive id session' payload).handleEnter id body).2) := by
    rw [answerPacket_of_passed hsession hg, dispatch_enter ht]
  have hstep : serverStep s (.packet id header payload now) =
      ((s.receive id session' payload).handleEnter id body).2 := congrArg Prod.snd hway
  have hticket : s.instanceTickets[request.instanceId.toNat]? = some request.ticket := by
    rw [hr]
    exact h.ticket
  have hchar : request.charId = charId := by rw [hr]
  rcases handleEnter_cases (s := s.receive id session' payload) hs hd
    ⟨huser, h.inst, hticket, h.party, h.member⟩ with
    ⟨hwaiting, hsuccess, hcharacter, hbound, hready⟩ | ⟨hno, hrefused⟩
  · refine ⟨⟨fun _ => hwaiting, fun _ => ⟨⟨header, payload, now, _, rfl, congrArg Prod.fst hway,
      hsuccess⟩, ?_, ?_⟩⟩, fun _ => ?_⟩
    · rw [hstep, ← hchar]
      exact hcharacter
    · rw [hstep]
      exact hbound
    · rw [hstep]
      exact hready
  · have hnot : ¬ Enters s (.packet id header payload now) id request.instanceId.toNat charId := by
      rintro ⟨⟨header', payload', now', response, heq, hanswer, hsuccess⟩, -, -⟩
      cases heq
      rw [hway] at hanswer
      cases hanswer
      rw [hrefused] at hsuccess
      cases hsuccess
    exact ⟨⟨fun h => absurd h hnot, fun h => absurd h hno⟩, fun h => absurd h hnot⟩

end Requests

section Members

/-- An instance stays its party's, and once it is not waiting it is not again. -/
theorem instance_kept (calls : List Call) {s : PartyService × InstanceManager} {instanceId : ℕ}
    {record : InstanceRecord} (h : s.2.getInstance instanceId = some record) :
    ∃ record', (after act s calls).2.getInstance instanceId = some record' ∧
      record'.id = record.id ∧ record'.partyId = record.partyId ∧
      (record.state ≠ .waiting → record'.state ≠ .waiting) := by
  refine stable (I := fun s : PartyService × InstanceManager =>
    ∃ record', s.2.getInstance instanceId = some record' ∧ record'.id = record.id ∧
      record'.partyId = record.partyId ∧ (record.state ≠ .waiting → record'.state ≠ .waiting))
    (fun s call hs => ?_) calls ⟨record, h, rfl, rfl, id⟩
  obtain ⟨record', hr, hid, hparty, hbegun⟩ := hs
  have hmoves := act_moves s call instanceId
  unfold getInstance at hr ⊢
  rw [hr] at hmoves
  generalize (act s call).2.instances[instanceId]? = entry at hmoves ⊢
  cases hmoves with
  | stay => exact ⟨record', rfl, hid, hparty, hbegun⟩
  | move _ next h =>
    refine ⟨{ record' with state := next }, rfl, hid, hparty, fun _ hnext => ?_⟩
    simp only [] at hnext
    rw [hnext] at h
    exact edge_waiting _ h

end Members

section Party

variable [InventoryStorage σ] {s : Server σ} {instanceId partyId : ℕ} {ticket : Str}
  {members : List PartyMember}

/-- The instance was opened for the party, with the ticket. -/
structure Opened (s : Server σ) (instanceId partyId : ℕ) (ticket : Str) : Prop where
  idle : Idle s
  inst : ∃ state, s.instanceManager.getInstance instanceId = some ⟨instanceId, partyId, state⟩
  ticket : s.instanceTickets[instanceId]? = some ticket

/-- The party has these members, and all of them are there and logged in. -/
structure Together (s : Server σ) (partyId : ℕ) (members : List PartyMember) : Prop where
  party : (s.partyService.getPartyInfo partyId).map PartyInfo.members = some members
  live : ∀ member ∈ members, member.sessionId ∈ s.sessions
  user : ∀ member ∈ members, (s.userContext member.sessionId).isSome

instance : Decidable (Together s partyId members) :=
  decidable_of_iff ((s.partyService.getPartyInfo partyId).map PartyInfo.members = some members ∧
      (∀ member ∈ members, member.sessionId ∈ s.sessions) ∧
      ∀ member ∈ members, (s.userContext member.sessionId).isSome)
    ⟨fun h => ⟨h.1, h.2.1, h.2.2⟩, fun h => ⟨h.party, h.live, h.user⟩⟩

/-- The instance is still waiting for its party. -/
def Waits (s : Server σ) (instanceId : ℕ) : Prop :=
  (s.instanceManager.getInstance instanceId).map InstanceRecord.state = some .waiting

instance : Decidable (Waits s instanceId) :=
  inferInstanceAs (Decidable (_ = some InstanceState.waiting))

theorem Idle.instance_kept (hs : Idle s) (e : ServerEvent) {record : InstanceRecord}
    (h : s.instanceManager.getInstance instanceId = some record) :
    ∃ record', (serverStep s e).instanceManager.getInstance instanceId = some record' ∧
      record'.id = record.id ∧ record'.partyId = record.partyId ∧
      (record.state ≠ .waiting → record'.state ≠ .waiting) := by
  obtain ⟨calls, hcalls⟩ := (hs.step_serves e).services
  have hkept := Server.instance_kept calls (s := (s.partyService, s.instanceManager)) h
  rw [← hcalls] at hkept
  exact hkept

theorem Opened.step (h : Opened s instanceId partyId ticket) (e : ServerEvent) :
    Opened (serverStep s e) instanceId partyId ticket := by
  obtain ⟨state, hr⟩ := h.inst
  obtain ⟨record', hr', hid, hparty, -⟩ := h.idle.instance_kept e hr
  have hrecord : record' = ⟨instanceId, partyId, record'.state⟩ := by
    rw [← show record'.id = instanceId from hid, ← show record'.partyId = partyId from hparty]
  have hlt : instanceId < s.instanceManager.nextInstanceId :=
    h.idle.below _ ((Dict.mem_iff _ _).mpr ⟨_, hr⟩)
  exact ⟨(h.idle.step_serves e).idle h.idle, ⟨_, hr'.trans (congrArg some hrecord)⟩,
    ((h.idle.step_serves e).tickets instanceId hlt).trans h.ticket⟩

theorem Opened.not_waits_step (h : Opened s instanceId partyId ticket) (e : ServerEvent)
    (hno : ¬ Waits s instanceId) : ¬ Waits (serverStep s e) instanceId := by
  obtain ⟨state, hr⟩ := h.inst
  obtain ⟨record', hr', -, -, hbegun⟩ := h.idle.instance_kept e hr
  unfold Waits at hno ⊢
  rw [hr] at hno
  rw [hr']
  simp only [Option.map_some, Option.some.injEq] at hno ⊢
  exact hbegun hno

omit [InventoryStorage σ] in
/-- Whoever asks may enter. -/
theorem Opened.admits (h : Opened s instanceId partyId ticket)
    (htogether : Together s partyId members) {id : ℕ}
    (hmember : ∃ member ∈ members, member.sessionId = id) :
    ∃ record info, Admits s id instanceId ticket record info ∧
      (record.state = .waiting ↔ Waits s instanceId) := by
  obtain ⟨state, hr⟩ := h.inst
  obtain ⟨info, hinfo, rfl⟩ := Option.map_eq_some_iff.mp htogether.party
  refine ⟨⟨instanceId, partyId, state⟩, info, ⟨?_, hr, h.ticket, hinfo, hmember⟩, ?_⟩
  · obtain ⟨member, hm, rfl⟩ := hmember
    exact htogether.user member hm
  · unfold Waits
    rw [hr, Option.map_some, Option.some.injEq]

theorem Opened.enters_iff (h : Opened s instanceId partyId ticket)
    (htogether : Together s partyId members) {e : ServerEvent} {id : ℕ} {charId : UInt64}
    (he : entering instanceId ticket s e = some (id, charId))
    (hmember : ∃ member ∈ members, member.sessionId = id) :
    (Enters s e id instanceId charId ↔ Waits s instanceId) ∧
      (Enters s e id instanceId charId → ¬ Waits (serverStep s e) instanceId) := by
  obtain ⟨record, info, hadmits, hwaits⟩ := h.admits htogether hmember
  obtain ⟨hiff, hready⟩ := Server.enters_iff h.idle.party he hadmits
  refine ⟨hiff.trans hwaits, fun henters => ?_⟩
  unfold Waits
  rw [hready henters]
  simp

variable {more : List ServerEvent}

/-- Along a run in which the party stays together. -/
theorem Opened.enters_iff_along (h : Opened s instanceId partyId ticket)
    (htogether : ∀ x ∈ trail serverStep s more, Together x.1 partyId members)
    (hmember : ∀ k ∈ (asked instanceId ticket s more).map Prod.fst,
      ∃ member ∈ members, member.sessionId = k) :
    ∀ x ∈ trail serverStep s more, ∀ id charId,
      entering instanceId ticket x.1 x.2 = some (id, charId) →
      (Enters x.1 x.2 id instanceId charId ↔ Waits x.1 instanceId) ∧
        (Enters x.1 x.2 id instanceId charId → ¬ Waits (serverStep x.1 x.2) instanceId) := by
  intro x hx id charId he
  have hopened := stable_along (I := fun s : Server σ => Opened s instanceId partyId ticket)
    (fun s e hs => hs.step e) more h x hx
  have hmem : id ∈ (asked instanceId ticket s more).map Prod.fst :=
    List.mem_map.mpr ⟨(id, charId), List.mem_filterMap.mpr ⟨x, hx, he⟩, rfl⟩
  exact hopened.enters_iff (htogether x hx) he (hmember id hmem)

/-- Of those who ask, one at most gets in. -/
theorem Opened.asked_length_le (h : Opened s instanceId partyId ticket)
    (htogether : ∀ x ∈ trail serverStep s more, Together x.1 partyId members)
    (hmember : ∀ k ∈ (asked instanceId ticket s more).map Prod.fst,
      ∃ member ∈ members, member.sessionId = k)
    (hall : ∀ x ∈ trail serverStep s more, ∀ id charId,
      entering instanceId ticket x.1 x.2 = some (id, charId) →
        Enters x.1 x.2 id instanceId charId) :
    (asked instanceId ticket s more).length ≤ 1 := by
  have henters := h.enters_iff_along htogether hmember
  have hpairs : (trail serverStep s more).Pairwise fun x y =>
      (entering instanceId ticket x.1 x.2).isSome → ¬ Waits y.1 instanceId := by
    refine pairwise (I := fun s : Server σ => Opened s instanceId partyId ticket)
      (P := fun s e =>
        (entering instanceId ticket s e).isSome → ¬ Waits (serverStep s e) instanceId)
      (Q := fun s e t => (entering instanceId ticket s e).isSome → ¬ Waits t instanceId)
      (fun s e hs _ => hs.step e) (fun s e _ hgone => hgone)
      (fun s e t f ht _ hno hasks => ht.not_waits_step f (hno hasks)) more s h ?_
    intro x hx hasks
    obtain ⟨⟨id, charId⟩, he⟩ := Option.isSome_iff_exists.mp hasks
    exact (henters x hx id charId he).2 (hall x hx id charId he)
  have halone : (asked instanceId ticket s more).Pairwise fun _ _ => False := by
    unfold asked
    rw [List.pairwise_filterMap]
    refine hpairs.imp_of_mem fun {x y} _ hy hno b hb b' hb' => ?_
    exact hno (Option.isSome_iff_exists.mpr ⟨b, hb⟩)
      ((henters y hy b'.1 b'.2 hb').1.mp (hall y hy b'.1 b'.2 hb'))
  rcases hasked : asked instanceId ticket s more with _ | ⟨b, _ | ⟨b', rest⟩⟩
  · exact Nat.zero_le 1
  · exact le_rfl
  · rw [hasked] at halone
    exact (List.rel_of_pairwise_cons halone List.mem_cons_self).elim

/-- When all members ask, all of them get in if there is only one, whom the instance has waited
for. -/
theorem Opened.all_enter_iff (h : Opened s instanceId partyId ticket)
    (hnodup : (members.map PartyMember.sessionId).Nodup) (hpos : 1 ≤ members.length)
    (htogether : ∀ x ∈ trail serverStep s more, Together x.1 partyId members)
    (hasked : ∀ k, k ∈ (asked instanceId ticket s more).map Prod.fst ↔
      ∃ member ∈ members, member.sessionId = k) :
    (∀ x ∈ trail serverStep s more, ∀ id charId,
      entering instanceId ticket x.1 x.2 = some (id, charId) →
        Enters x.1 x.2 id instanceId charId) ↔
    members.length = 1 ∧ ∀ x ∈ trail serverStep s more,
      (entering instanceId ticket x.1 x.2).isSome → Waits x.1 instanceId := by
  have henters := h.enters_iff_along htogether fun k hk => (hasked k).mp hk
  constructor
  · intro hall
    refine ⟨le_antisymm ?_ hpos, fun x hx hasks => ?_⟩
    · have hsubset : members.map PartyMember.sessionId ⊆
          (asked instanceId ticket s more).map Prod.fst := fun k hk =>
        (hasked k).mpr (List.mem_map.mp hk)
      have hle := (List.subperm_of_subset hnodup hsubset).length_le
      rw [List.length_map, List.length_map] at hle
      exact hle.trans (h.asked_length_le htogether (fun k hk => (hasked k).mp hk) hall)
    · obtain ⟨⟨id, charId⟩, he⟩ := Option.isSome_iff_exists.mp hasks
      exact (henters x hx id charId he).1.mp (hall x hx id charId he)
  · rintro ⟨-, hwaits⟩ x hx id charId he
    exact (henters x hx id charId he).1.mpr (hwaits x hx (Option.isSome_iff_exists.mpr ⟨_, he⟩))

/-- An accepted match request opens an instance for a party that is there. -/
theorem opened_of_answer (hs : Idle s) {id : ℕ} {header : FrameHeader} {payload : Bytes}
    {now : Time} {notify : MatchFoundNotify}
    (hanswer : (s.answerPacket id header payload now).1 = some ⟨.matchFoundNotify, notify⟩)
    (hsuccess : notify.success = true) :
    ∃ instanceId partyId info, notify.instanceId = UInt64.ofNat instanceId ∧
      notify.partyId = UInt64.ofNat partyId ∧
      s.partyService.getPartyInfo partyId = some info ∧
      (serverStep s (.packet id header payload now)).instanceManager.getInstance instanceId =
        some ⟨instanceId, partyId, .waiting⟩ ∧
      Opened (serverStep s (.packet id header payload now)) instanceId partyId notify.ticket := by
  have hidle := (hs.step_serves (.packet id header payload now)).idle hs
  have hstep : serverStep s (.packet id header payload now) =
    (s.answerPacket id header payload now).2 := rfl
  obtain ⟨session, session', inner, hsession, hg⟩ := passed_of_answer hanswer (by simp)
  rw [answerPacket_of_passed hsession hg] at hanswer hstep
  have ht := dispatch_request hanswer
  rw [dispatch_match ht] at hanswer hstep
  cases hanswer
  rcases ((s.receive_apart id session' payload).serves.idle hs).handleMatch_cases id
    header.version inner now with ⟨response, h, hno, -⟩ | ⟨partyId, info, hc, -, h⟩
  · rw [h, hno] at hsuccess
    cases hsuccess
  · obtain ⟨_, -, -, -, hinfo, -⟩ := checkMatch_eq_ok.mp hc
    obtain ⟨_, _, _, _, _, _, _, hm⟩ :=
      (s.receive id session' payload).matched_spec id partyId header.version
    rw [h, hm] at hstep ⊢
    have hinst : (serverStep s (.packet id header payload now)).instanceManager.getInstance
        s.instanceManager.nextInstanceId =
        some ⟨s.instanceManager.nextInstanceId, partyId, .waiting⟩ := by
      rw [hstep]
      show (s.instanceManager.createInstance partyId s.partyService).2.instances[_]? = _
      unfold createInstance
      rw [show s.partyService.getPartyInfo partyId = some info from hinfo]
      simp only []
      rw [Dict.insertIfNew_of_not_mem _ _ fun hmem => Nat.lt_irrefl _ (hs.below _ hmem)]
      exact Dict.get?_insert_self _ _ _
    refine ⟨_, partyId, info, rfl, rfl, hinfo, hinst, hidle, ⟨_, hinst⟩, ?_⟩
    rw [hstep]
    exact Dict.get?_insert_self _ _ _

/-- A party that was given an instance stays together, and all of its members ask to enter, in any
order and with anything else in between. All of them get in if there is only one, whose requests
find the instance waiting, and otherwise not. -/
theorem party_enters_iff (inventoryStorage : σ) (securityPolicy : SecurityPolicy)
    (tokenBytes : Draws UInt8) (seeds : Draws { n : UInt32 // n ≠ 0 }) (ticketBytes : Draws UInt8)
    (clock : Draws Time) (es : List ServerEvent) (s : Server σ)
    (hes : s = after serverStep
      (Server.new inventoryStorage securityPolicy tokenBytes seeds ticketBytes clock) es)
    (id : ℕ) (header : FrameHeader) (payload : Bytes) (now : Time) (notify : MatchFoundNotify)
    (hanswer : (s.answerPacket id header payload now).1 = some ⟨.matchFoundNotify, notify⟩)
    (hsuccess : notify.success = true) :
    ∃ instanceId partyId info, notify.instanceId = UInt64.ofNat instanceId ∧
      notify.partyId = UInt64.ofNat partyId ∧
      s.partyService.getPartyInfo partyId = some info ∧
      (serverStep s (.packet id header payload now)).instanceManager.getInstance instanceId =
        some ⟨instanceId, partyId, .waiting⟩ ∧
      ∀ more, (∀ x ∈ trail serverStep (serverStep s (.packet id header payload now)) more,
          Together x.1 partyId info.members) →
        (∀ k, k ∈ (asked instanceId notify.ticket
            (serverStep s (.packet id header payload now)) more).map Prod.fst ↔
          ∃ member ∈ info.members, member.sessionId = k) →
        ((∀ x ∈ trail serverStep (serverStep s (.packet id header payload now)) more,
            ∀ k charId, entering instanceId notify.ticket x.1 x.2 = some (k, charId) →
              Enters x.1 x.2 k instanceId charId) ↔
          info.members.length = 1 ∧
            ∀ x ∈ trail serverStep (serverStep s (.packet id header payload now)) more,
              (entering instanceId notify.ticket x.1 x.2).isSome → Waits x.1 instanceId) := by
  have hs : Idle s := by
    rw [hes]
    exact idle_after ..
  obtain ⟨instanceId, partyId, info, hid, hparty, hinfo, hinst, hopened⟩ :=
    opened_of_answer hs hanswer hsuccess
  refine ⟨instanceId, partyId, info, hid, hparty, hinfo, hinst, fun more htogether hasked => ?_⟩
  exact hopened.all_enter_iff (PartyService.getPartyInfo_nodup hs.party hinfo)
    (hs.getPartyInfo_cases hinfo).2 htogether hasked

/-- A request to enter the first instance, whose ticket is all zeros where the draws are. -/
def entry (charId : UInt64) : Bytes :=
  encodeDungeonEnterRequest ⟨1, List.replicate 32 48, charId⟩

/-- One user logs in and makes a party. -/
def lone : List ServerEvent :=
  [.createSession {} 0, packetOf 1 .loginReq (encodeLoginRequest ⟨str "u", str "letmein"⟩),
    .party (.createParty 1 (str "u"))]

/-- The answer to the first match request of the first party. -/
def firstMatch : MatchFoundNotify :=
  ⟨true, str "OK", str "Match found", 1, 1, str "dungeon.local:7777", List.replicate 32 48⟩

theorem party_enters_iff_lone :
    Enters (serverStep (after serverStep (still {}) lone) (packetOf 1 .matchReq asking))
      (packetOf 1 .dungeonEnterReq (entry 7)) 1 1 7 := by
  have hanswer : ((after serverStep (still {}) lone).answerPacket 1 (headerOf .matchReq asking)
      asking 0).1 = some ⟨.matchFoundNotify, firstMatch⟩ := by decide +kernel
  obtain ⟨instanceId, partyId, info, -, -, hinfo, hinst, hall⟩ := party_enters_iff
    _ _ _ _ _ _ lone
    (after serverStep (still {}) lone) rfl 1 (headerOf .matchReq asking) asking 0 firstMatch hanswer
    rfl
  have hlist : (serverStep (after serverStep (still {}) lone) (.packet 1 (headerOf .matchReq asking)
      asking 0)).instanceManager.instances.toList = [(1, ⟨1, 1, .waiting⟩)] := by decide +kernel
  have hone := (Dict.mem_toList _ _ _).mpr hinst
  rw [hlist] at hone
  obtain ⟨rfl, rfl⟩ : instanceId = 1 ∧ partyId = 1 := by simpa using hone
  have hmembers : (after serverStep (still {}) lone).partyService.getPartyInfo 1 =
      some ⟨1, 1, [⟨1, str "u"⟩]⟩ := by decide +kernel
  obtain rfl := Option.some.inj (hinfo.symm.trans hmembers)
  have hasked : asked 1 firstMatch.ticket (serverStep (after serverStep (still {}) lone)
      (.packet 1 (headerOf .matchReq asking) asking 0))
      [packetOf 1 .dungeonEnterReq (entry 7)] = [(1, 7)] := by decide +kernel
  refine (hall [packetOf 1 .dungeonEnterReq (entry 7)] (by decide +kernel) ?_).mpr
    ⟨rfl, by decide +kernel⟩ _ List.mem_cons_self 1 7 (by decide +kernel)
  intro k
  rw [hasked]
  simp [eq_comm]

/-- What a request is answered that finds its instance begun. -/
def tooLate : DungeonEnterResponse :=
  { code := str "INVALID_STATE", message := str "Dungeon not ready to enter" }

/-- Two members are given an instance, and the second of them is not let in. -/
theorem second_member_kept_out :
    ((after serverStep (still {}) paired).answerPacket 1 (headerOf .matchReq asking)
      asking 0).1 = some ⟨.matchFoundNotify, firstMatch⟩ ∧
    (∀ x ∈ trail serverStep
        (after serverStep (still {}) (paired ++ [packetOf 1 .matchReq asking]))
        [packetOf 1 .dungeonEnterReq (entry 7), packetOf 2 .dungeonEnterReq (entry 8)],
      Together x.1 1 [⟨1, str "u"⟩, ⟨2, str "v"⟩]) ∧
    asked 1 firstMatch.ticket
        (after serverStep (still {}) (paired ++ [packetOf 1 .matchReq asking]))
        [packetOf 1 .dungeonEnterReq (entry 7), packetOf 2 .dungeonEnterReq (entry 8)] =
      [(1, 7), (2, 8)] ∧
    ((after serverStep (still {}) (paired ++ [packetOf 1 .matchReq asking,
        packetOf 1 .dungeonEnterReq (entry 7)])).answerPacket 2
      (headerOf .dungeonEnterReq (entry 8)) (entry 8) 0).1 =
      some ⟨.dungeonEnterRes, tooLate⟩ := by
  exact ⟨by decide +kernel, by decide +kernel, by decide +kernel, by decide +kernel⟩

end Party

end Server

end DungeonHub
