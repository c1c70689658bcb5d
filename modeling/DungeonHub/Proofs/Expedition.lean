import DungeonHub.Proofs.Entering
import DungeonHub.Proofs.Ledger
import DungeonHub.Proofs.References
import DungeonHub.Proofs.Secured
import DungeonHub.Proofs.Versions

/-!
# Expeditions

What a player is there for: a member of a party asks for a match, enters the instance that the party
is given, has it played and reports how it went. Each of these goes through, is about nothing but
the party and its instance, and leaves the member ready for the next.
-/

namespace DungeonHub

open Run Wire TableContent InstanceManager

/-- What a client sends a packet with. -/
structure Stamp where
  seq : UInt32
  nonce : UInt64
  version : UInt16
  sentAt : Time

/-- The stamp's version is one that the server speaks. -/
def Stamp.Supported (stamp : Stamp) : Prop :=
  kMinProtocolVersion ≤ stamp.version ∧ stamp.version ≤ kMaxProtocolVersion

instance (stamp : Stamp) : Decidable stamp.Supported := inferInstanceAs (Decidable (_ ∧ _))

/-- Packets with these stamps are new to the session, one after the other. -/
structure Session.Takes (session : Session) (stamps : List Stamp) : Prop where
  rising : (session.lastSeq :: stamps.map fun stamp => stamp.seq.toUInt64).Pairwise (· < ·)
  nonces : (stamps.map Stamp.nonce).Nodup
  unseen : ∀ stamp ∈ stamps, stamp.nonce ∉ session.nonceCache

/-- The payload as the policy wants it. -/
def wrapped (policy : SecurityPolicy) (stamp : Stamp) (body : Bytes) : Bytes :=
  if policy.requireHmac || policy.enableReplayProtection then
    wrapSecurePayload stamp.seq stamp.nonce policy.hmacKey body
  else body

/-- A client's packet. -/
def clientPacket (policy : SecurityPolicy) (id : ℕ) (type : PacketType) (stamp : Stamp)
    (body : Bytes) : ServerEvent :=
  .packet id ⟨UInt32.ofNat (wrapped policy stamp body).length, type.code, stamp.version⟩
    (wrapped policy stamp body) stamp.sentAt

/-- An expedition: as which character, how it ends, and what its packets are sent with. -/
structure Expedition where
  charId : UInt64
  report : DungeonResultNotify
  asking : Stamp
  entering : Stamp
  reporting : Stamp

def Expedition.stamps (x : Expedition) : List Stamp := [x.asking, x.entering, x.reporting]

/-- What an expedition is paid. -/
def Expedition.deposit (x : Expedition) : Deposit :=
  ⟨x.charId, str "dungeon_reward", x.report.rewards⟩

section Stamps

variable {policy : SecurityPolicy} {session : Session} {stamp : Stamp} {stamps : List Stamp}

theorem mem_forgetNonces {limit : ℕ} {nonce : UInt64} :
    ∀ {order : List UInt64} {cache : Dict UInt64 Unit},
      nonce ∈ (Session.forgetNonces limit order cache).2 → nonce ∈ cache
  | [], _, h => h
  | oldest :: order, cache, h => by
    unfold Session.forgetNonces at h
    split_ifs at h
    · exact ((Dict.mem_erase _ _ _).mp (mem_forgetNonces h)).2
    · exact h

/-- The session that has admitted a packet takes the next ones. -/
theorem Session.Takes.admitted (h : session.Takes (stamp :: stamps)) (signature : Bytes) :
    (DungeonHub.admitted ⟨stamp.seq, stamp.nonce, signature⟩ session).Takes stamps := by
  obtain ⟨-, hrising⟩ := List.pairwise_cons.mp h.rising
  obtain ⟨hnew, hnonces⟩ := List.nodup_cons.mp h.nonces
  refine ⟨hrising, hnonces, fun next hnext hmem => ?_⟩
  unfold DungeonHub.admitted Session.recordNonce Session.setLastSeq at hmem
  rw [if_neg (h.unseen stamp List.mem_cons_self)] at hmem
  rcases (Dict.mem_insert _ _ _ _).mp (mem_forgetNonces hmem) with heq | hseen
  · exact hnew (List.mem_map.mpr ⟨next, hnext, heq.symm⟩)
  · exact h.unseen next (List.mem_cons_of_mem _ hnext) hseen

theorem bodyOf_wrapped (policy : SecurityPolicy) (stamp : Stamp) (body : Bytes) :
    bodyOf policy (wrapped policy stamp body) = some body := by
  unfold bodyOf wrapped
  split_ifs
  · rw [unwrap_wrapSecurePayload]
    rfl
  · rfl

/-- What a client sends as the policy wants it passes. -/
theorem passes_wrapped {header : FrameHeader} (body : Bytes)
    (htls : policy.requireTls = true → session.tlsEstablished = true)
    (hversion : kMinProtocolVersion ≤ header.version ∧ header.version ≤ kMaxProtocolVersion)
    (htakes : policy.enableReplayProtection = true → session.Takes (stamp :: stamps)) :
    Passes policy session header (wrapped policy stamp body) := by
  have hunwrap := unwrap_wrapSecurePayload stamp.seq stamp.nonce policy.hmacKey body
  refine ⟨htls, hversion, fun hmac => ?_, fun hreplay => ?_⟩
  · rw [wrapped, hmac, Bool.true_or, if_pos rfl]
    exact ⟨_, body, hunwrap, verify_wrapSecurePayload ..⟩
  · rw [wrapped, hreplay, Bool.or_true, if_pos rfl]
    obtain ⟨hlast, -⟩ := List.pairwise_cons.mp (htakes hreplay).rising
    exact ⟨_, body, hunwrap, hlast _ List.mem_cons_self,
      (htakes hreplay).unseen stamp List.mem_cons_self⟩

theorem gate_tlsEstablished (policy : SecurityPolicy) (header : FrameHeader) (payload : Bytes)
    (session : Session) :
    (gate policy header payload session).2.tlsEstablished = session.tlsEstablished := by
  rcases gate_cases policy header payload session with ⟨h, -⟩ | ⟨sec, inner, -, -, h⟩
  · rw [h]
  · rw [h]
    unfold DungeonHub.admitted Session.recordNonce
    split_ifs <;> rfl

end Stamps

namespace Server

variable {σ : Type}

section Client

/-- The session has a user, and takes packets with these stamps. -/
structure Open (policy : SecurityPolicy) (stamps : List Stamp) (session : Session) : Prop where
  user : session.userContext.isSome
  tls : policy.requireTls = true → session.tlsEstablished = true
  takes : policy.enableReplayProtection = true → session.Takes stamps

variable {s : Server σ} {session : Session} {stamp : Stamp} {stamps : List Stamp}

/-- A client's packet goes to its handler, and the session takes the next one. -/
theorem Open.gatePacket (h : Open s.securityPolicy (stamp :: stamps) session)
    (header : FrameHeader)
    (hversion : kMinProtocolVersion ≤ header.version ∧ header.version ≤ kMaxProtocolVersion)
    (body : Bytes) (now : Time) :
    ∃ session', s.gatePacket session header (wrapped s.securityPolicy stamp body) now =
        (.passed body, session') ∧ Open s.securityPolicy stamps session' := by
  obtain ⟨session', hg⟩ := gatePacket_of_passes (passes_wrapped body h.tls hversion h.takes)
    (bodyOf_wrapped ..) now
  refine ⟨session', hg, ?_, fun htls => ?_, fun hreplay => ?_⟩
  · have huser := s.gatePacket_userContext session header
      (wrapped s.securityPolicy stamp body) now
    rw [hg] at huser
    exact huser ▸ h.user
  · have hsame := gate_tlsEstablished s.securityPolicy header
      (wrapped s.securityPolicy stamp body)
      ((session.onReceive now).setProtocolVersion header.version)
    unfold Server.gatePacket at hg
    rw [hg] at hsame
    exact hsame.trans (h.tls htls)
  · have htakes := h.takes hreplay
    have hreceived : ((session.onReceive now).setProtocolVersion header.version).Takes
        (stamp :: stamps) := ⟨htakes.rising, htakes.nonces, htakes.unseen⟩
    obtain ⟨hlast, -⟩ := List.pairwise_cons.mp htakes.rising
    have hwrapped := gate_wrapSecurePayload s.securityPolicy header
      ((session.onReceive now).setProtocolVersion header.version) h.tls hversion hreplay
      (hlast _ List.mem_cons_self) (htakes.unseen stamp List.mem_cons_self) body
    unfold Server.gatePacket at hg
    rw [wrapped, hreplay, Bool.or_true, if_pos rfl, hwrapped] at hg
    cases hg
    exact hreceived.admitted _

end Client

section Local

/-- Nothing is touched but what is about these sessions and this instance. -/
structure Local (ids : ℕ → Prop) (instanceId : ℕ) (s s' : Server σ) : Prop where
  party : s'.partyService = s.partyService
  policy : s'.securityPolicy = s.securityPolicy
  heap : ∀ k, ¬ ids k → s'.heap[k]? = s.heap[k]?
  bound : ∀ k, ¬ ids k → s'.sessionInstances[k]? = s.sessionInstances[k]?
  characters : ∀ k, ¬ ids k → s'.sessionCharacters[k]? = s.sessionCharacters[k]?
  instances : ∀ j, j ≠ instanceId →
    s'.instanceManager.getInstance j = s.instanceManager.getInstance j
  tickets : ∀ j, j ≠ instanceId → s'.instanceTickets[j]? = s.instanceTickets[j]?
  next : s'.instanceManager.nextInstanceId ≤ s.instanceManager.nextInstanceId + 1

/-- Only members that did not ask are sent anything. -/
theorem bindMembers_heap (instanceId k : ℕ) (frame : Bytes) (asked : ℕ → Bool) :
    ∀ (members : List PartyMember) (s : Server σ),
      (∀ member ∈ members, member.sessionId = k → asked k = true) →
      (members.foldl (fun s member => s.bindMember instanceId frame asked member) s).heap[k]? =
        s.heap[k]?
  | [], _, _ => rfl
  | member :: members, s, h => by
    rw [List.forall_mem_cons] at h
    rw [List.foldl_cons, bindMembers_heap instanceId k frame asked members _ h.2]
    unfold bindMember
    split
    · rfl
    · simp only []
      split_ifs with hasked
      · rfl
      · unfold deliver
        split
        · rfl
        · refine Dict.get?_insert_of_ne _ _ fun heq => hasked ?_
          rw [heq]
          exact h.1 heq

theorem bindMembers_bound (instanceId k : ℕ) (frame : Bytes) (asked : ℕ → Bool) :
    ∀ (members : List PartyMember) (s : Server σ),
      (∀ member ∈ members, member.sessionId ≠ k) →
      (members.foldl (fun s member => s.bindMember instanceId frame asked member)
        s).sessionInstances[k]? = s.sessionInstances[k]?
  | [], _, _ => rfl
  | member :: members, s, h => by
    rw [List.forall_mem_cons] at h
    rw [List.foldl_cons, bindMembers_bound instanceId k frame asked members _ h.2]
    unfold bindMember
    split
    · rfl
    · simp only []
      split_ifs
      · exact Dict.get?_insert_of_ne _ _ h.1
      · obtain ⟨_, _, hd, -⟩ := deliver_delivers
          { s with sessionInstances := s.sessionInstances.insert member.sessionId instanceId }
          member.sessionId fun _ => frame
        rw [hd]
        exact Dict.get?_insert_of_ne _ _ h.1

variable {s : Server σ} {id partyId k : ℕ} {info : PartyInfo}

/-- A match touches the sessions of the party's members only, and not the one that asks for it. -/
theorem matched_heap (version : UInt16) (hinfo : s.partyService.getPartyInfo partyId = some info)
    (h : ∀ member ∈ info.members, member.sessionId = k → k = id) :
    (s.matched id partyId version).2.heap[k]? = s.heap[k]? := by
  unfold matched openInstance
  simp only [hinfo]
  exact bindMembers_heap _ k _ _ _ _ fun member hm hk => decide_eq_true (h member hm hk)

theorem matched_bound (version : UInt16) (hinfo : s.partyService.getPartyInfo partyId = some info)
    (h : ∀ member ∈ info.members, member.sessionId ≠ k) :
    (s.matched id partyId version).2.sessionInstances[k]? = s.sessionInstances[k]? := by
  unfold matched openInstance
  simp only [hinfo]
  exact bindMembers_bound _ k _ _ _ _ h

theorem length_toHex (upper : Bool) (bytes : Bytes) :
    (toHex upper bytes).length = bytes.length * 2 := by
  simp [toHex]

theorem length_ticket (s : Server σ) (id partyId : ℕ) (version : UInt16) :
    (s.matched id partyId version).1.ticket.length = 32 := by
  show (toHex false (s.ticketBytes.take 16).1).length = 32
  rw [length_toHex]
  rfl

theorem partyForMember_of_member (hs : s.partyService.Sound)
    (hinfo : s.partyService.getPartyInfo partyId = some info)
    (hmember : ∃ member ∈ info.members, member.sessionId = k) :
    s.partyService.partyForMember k = some partyId := by
  obtain ⟨party, hp, rfl⟩ := Option.map_eq_some_iff.mp hinfo
  obtain ⟨member, hm, rfl⟩ := hmember
  obtain ⟨k, hk⟩ := (Dict.mem_elems _ _).mp ((List.mem_insertionSort _).mp hm)
  obtain rfl := hs.named partyId party hp k member hk
  exact (hs.roster.mem_view hp).mp ((Dict.mem_iff _ _).mpr ⟨member, hk⟩)

end Local

section Party

variable [InventoryStorage σ]

/-- The session is a member of a party that a match may take, and is open for these stamps. -/
structure Ready (s : Server σ) (policy : SecurityPolicy) (id partyId : ℕ) (stamps : List Stamp) :
    Prop where
  checks : s.securityPolicy = policy
  idle : Idle s
  balanced : s.instanceBook.Balanced
  party : ∃ info, s.partyService.getPartyInfo partyId = some info ∧
    (∃ member ∈ info.members, member.sessionId = id) ∧ info.members.length ≤ 5
  session : ∃ session, s.heap[id]? = some session ∧ Open policy stamps session

/-- The session is a member of the party. -/
def InParty (s : Server σ) (partyId k : ℕ) : Prop := s.partyService.partyForMember k = some partyId

variable {s : Server σ} {policy : SecurityPolicy} {id partyId instanceId : ℕ} {stamp : Stamp}
  {stamps stamps' : List Stamp}

omit [InventoryStorage σ] in
theorem Ready.inParty (h : Ready s policy id partyId stamps) : InParty s partyId id := by
  obtain ⟨info, hinfo, hmember, -⟩ := h.party
  exact partyForMember_of_member h.idle.party hinfo hmember

/-- A step that leaves parties and policy alone keeps the session ready. -/
theorem Ready.step (h : Ready s policy id partyId stamps) {e : ServerEvent} {ids : ℕ → Prop}
    (hlocal : Local ids instanceId s (serverStep s e)) {session : Session}
    (hsession : (serverStep s e).heap[id]? = some session)
    (hopen : Open policy stamps' session) : Ready (serverStep s e) policy id partyId stamps' where
  checks := hlocal.policy.trans h.checks
  idle := (h.idle.step_serves e).idle h.idle
  balanced := ((h.idle.step_bookings e).keep h.balanced).1
  party := by
    rw [hlocal.party]
    exact h.party
  session := ⟨session, hsession, hopen⟩

/-- What an event is answered. -/
def answerTo (s : Server σ) : ServerEvent → Option Answer
  | .packet id header payload now => (s.answerPacket id header payload now).1
  | _ => none

/-- A client's packet is handled as what it carries. -/
theorem Ready.dispatched (h : Ready s policy id partyId (stamp :: stamps))
    (hversion : stamp.Supported) (type : PacketType) (body : Bytes) :
    ∃ header payload session', PacketType.ofCode header.type = some type ∧
      (s.receive id session' payload).dispatch id header body stamp.sentAt =
        (s.answerTo (clientPacket policy id type stamp body),
          serverStep s (clientPacket policy id type stamp body)) ∧
      s.deposited (clientPacket policy id type stamp body) = s.granted id header body
        (s.answerTo (clientPacket policy id type stamp body)) ∧
      ((s.receive id session' payload).userContext id).isSome ∧
      (s.receive id session' payload).heap[id]? = some session' ∧
      Open policy stamps session' := by
  obtain rfl := h.checks
  obtain ⟨session, hsession, hopen⟩ := h.session
  have hpassed := hopen.gatePacket
    ⟨UInt32.ofNat (wrapped s.securityPolicy stamp body).length, type.code, stamp.version⟩ hversion
    body stamp.sentAt
  obtain ⟨session', hg, hopen'⟩ := hpassed
  have hself : (s.receive id session' (wrapped s.securityPolicy stamp body)).heap[id]? =
      some session' := Dict.get?_insert_self ..
  refine ⟨_, _, session', type.ofCode_code, (answerPacket_of_passed hsession hg).symm, ?_, ?_,
    hself, hopen'⟩
  · unfold deposited clientPacket
    simp only [hsession, hg]
    rfl
  · unfold userContext
    rw [hself]
    exact hopen'.user

omit [InventoryStorage σ] in
/-- Most requests are for nothing to be put anywhere. -/
theorem granted_none {header : FrameHeader} {type : PacketType}
    (ht : PacketType.ofCode header.type = some type) (hresult : type ≠ .dungeonResultNotify)
    (hupdate : type ≠ .inventoryUpdateNotify) (body : Bytes) (answer : Option Answer) :
    s.granted id header body answer = none := by
  unfold granted
  rw [ht, Option.bind_some]
  split_ifs
  · cases type <;> first | rfl | contradiction
  · rfl

omit [InventoryStorage σ] in
/-- That a packet was received for one of the sessions does not matter. -/
theorem Local.received {ids : ℕ → Prop} {s' : Server σ} {session' : Session} {payload : Bytes}
    (h : Local ids instanceId (s.receive id session' payload) s') (hid : ids id) :
    Local ids instanceId s s' where
  party := h.party
  policy := h.policy
  heap k hk := (h.heap k hk).trans (Dict.get?_insert_of_ne _ _ fun heq => hk (heq ▸ hid))
  bound := h.bound
  characters := h.characters
  instances := h.instances
  tickets := h.tickets
  next := h.next

omit [InventoryStorage σ] in
/-- A match is about the sessions of its party and an instance that there was not. -/
theorem matched_local (hs : Idle s) (id : ℕ) (version : UInt16) {info : PartyInfo}
    (hinfo : s.partyService.getPartyInfo partyId = some info) :
    let s' := (s.matched id partyId version).2
    let next := s.instanceManager.nextInstanceId
    Local (InParty s partyId) next s s' ∧ s'.heap[id]? = s.heap[id]? ∧
      s'.instanceManager.getInstance next = some ⟨next, partyId, .waiting⟩ ∧
      s'.instanceTickets[next]? = some (s.matched id partyId version).1.ticket := by
  intro s' next
  have hoff : ∀ k, ¬ InParty s partyId k → ∀ member ∈ info.members, member.sessionId ≠ k :=
    fun k hk member hm heq => hk (partyForMember_of_member hs.party hinfo ⟨member, hm, heq⟩)
  have hheap : ∀ k, (∀ member ∈ info.members, member.sessionId = k → k = id) →
      s'.heap[k]? = s.heap[k]? := fun k => matched_heap version hinfo
  have hbound : ∀ k, ¬ InParty s partyId k → s'.sessionInstances[k]? = s.sessionInstances[k]? :=
    fun k hk => matched_bound version hinfo (hoff k hk)
  obtain ⟨ticket, seed, ticketBytes, seeds, sessionInstances, heap, clock, hspec⟩ :=
    s.matched_spec id partyId version
  have hnew : next ∉ s.instanceManager.instances := fun hmem => Nat.lt_irrefl _ (hs.below _ hmem)
  have hcreated : s'.instanceManager = ⟨next + 1,
      s.instanceManager.instances.insert next ⟨next, partyId, .waiting⟩⟩ := by
    simp only [s', hspec]
    unfold createInstance
    rw [hinfo, ← Dict.insertIfNew_of_not_mem _ _ hnew]
  have htickets : s'.instanceTickets = s.instanceTickets.insert next ticket := by
    simp only [s', hspec]
    rfl
  refine ⟨⟨?_, ?_, fun k hk => ?_, hbound, fun k hk => ?_, fun j hj => ?_, fun j hj => ?_, ?_⟩,
    hheap id fun _ _ _ => rfl, ?_, ?_⟩
  · simp only [s', hspec]
  · simp only [s', hspec]
  · exact hheap k fun member hm heq => absurd heq (hoff k hk member hm)
  · simp only [s', hspec]
  · rw [hcreated]
    exact Dict.get?_insert_of_ne _ _ hj.symm
  · rw [htickets]
    exact Dict.get?_insert_of_ne _ _ hj.symm
  · rw [hcreated]
  · rw [hcreated]
    exact Dict.get?_insert_self ..
  · rw [htickets, hspec]
    exact Dict.get?_insert_self ..

omit [InventoryStorage σ] in
/-- A member of a party of at most five gets a match. -/
theorem handleMatch_of_member (hs : Idle s) (huser : (s.userContext id).isSome) {info : PartyInfo}
    (hinfo : s.partyService.getPartyInfo partyId = some info)
    (hmember : ∃ member ∈ info.members, member.sessionId = id) (hsize : info.members.length ≤ 5)
    (version : UInt16) (now : Time) :
    s.handleMatch id version (encodeMatchRequest {}) now = s.matched id partyId version := by
  have hcheck : s.checkMatch id (encodeMatchRequest {}) = .ok (partyId, info) :=
    checkMatch_eq_ok.mpr ⟨{}, decode_encode_of_sizes (m := ({} : MatchRequest)) (by decide), huser,
      partyForMember_of_member hs.party hinfo hmember, hinfo, hmember⟩
  rcases hs.handleMatch_cases id version (encodeMatchRequest {}) now with
    ⟨-, -, -, -, hlarge⟩ | ⟨partyId', info', hcheck', -, hmatched⟩
  · have hfive := hlarge partyId info hcheck
    rw [hs.queue] at hfive
    exact absurd hsize (Nat.not_le.mpr hfive)
  · obtain ⟨rfl, rfl⟩ : partyId = partyId' ∧ info = info' := by
      simpa using hcheck.symm.trans hcheck'
    exact hmatched

/-- A member's request for a match gets its party the next instance. -/
theorem Ready.match_step (h : Ready s policy id partyId (stamp :: stamps))
    (hversion : stamp.Supported) :
    let e := clientPacket policy id .matchReq stamp (encodeMatchRequest {})
    let next := s.instanceManager.nextInstanceId
    Local (InParty s partyId) next s (serverStep s e) ∧
    Ready (serverStep s e) policy id partyId stamps ∧ s.deposited e = none ∧
    ∃ notify : MatchFoundNotify, s.answerTo e = some ⟨.matchFoundNotify, notify⟩ ∧
      notify.success = true ∧ notify.instanceId = UInt64.ofNat next ∧ notify.ticket.length = 32 ∧
      (serverStep s e).instanceManager.getInstance next = some ⟨next, partyId, .waiting⟩ ∧
      (serverStep s e).instanceTickets[next]? = some notify.ticket := by
  intro e next
  obtain ⟨header, payload, session', ht, hd, hdeposited, huser, hself, hopen⟩ :=
    h.dispatched hversion .matchReq (encodeMatchRequest {})
  obtain ⟨info, hinfo, hmember, hsize⟩ := h.party
  have hidle : Idle (s.receive id session' payload) :=
    (s.receive_apart id session' payload).serves.idle h.idle
  rw [dispatch_match ht, handleMatch_of_member hidle huser hinfo hmember hsize] at hd
  obtain ⟨hanswer, hstep⟩ := Prod.mk.inj hd
  have hlength := (s.receive id session' payload).length_ticket id partyId header.version
  obtain ⟨hlocal, hheap, hwaiting, hticket⟩ :=
    matched_local hidle id header.version hinfo
  rw [hstep] at hlocal hheap hwaiting hticket
  refine ⟨hlocal.received h.inParty, h.step (hlocal.received h.inParty) (hheap.trans hself) hopen,
    ?_, _, hanswer.symm, ?_, ?_, hlength, hwaiting, hticket⟩
  · rw [hdeposited]
    exact granted_none ht (by decide) (by decide) _ _
  · obtain ⟨_, _, _, _, _, _, _, hspec⟩ :=
      (s.receive id session' payload).matched_spec id partyId header.version
    rw [hspec]
  · obtain ⟨_, _, _, _, _, _, _, hspec⟩ :=
      (s.receive id session' payload).matched_spec id partyId header.version
    rw [hspec]
    rfl

omit [InventoryStorage σ] in
/-- Who may enter a waiting instance does. -/
theorem handleEnter_of_admits (hs : s.partyService.Sound) {payload : Bytes}
    {request : DungeonEnterRequest} (hd : decodeDungeonEnterRequest payload = .ok request)
    {record : InstanceRecord} {info : PartyInfo}
    (h : Admits s id request.instanceId.toNat request.ticket record info)
    (hwaiting : record.state = .waiting) :
    ∃ response instanceSeeds, response.success = true ∧ s.handleEnter id payload = (response,
      { s with
        instanceManager := { s.instanceManager with
          instances := s.instanceManager.instances.insert request.instanceId.toNat
            { record with state := .ready } }
        sessionCharacters := s.sessionCharacters.insert id request.charId
        sessionInstances := s.sessionInstances.insert id request.instanceId.toNat
        instanceSeeds }) := by
  have hcheck : s.checkEnter id payload = .ok request :=
    checkEnter_eq_ok.mpr ⟨hd, h.user, record, info, h.inst, h.ticket, h.party, h.member⟩
  have hready : isPartyReady record.partyId s.partyService = true := by
    rw [isPartyReady_eq _ hs, h.party]
    rfl
  unfold handleEnter
  rw [hcheck]
  simp only []
  rcases s.instanceManager.requestTransition_cases s.partyService request.instanceId.toNat .ready
    with ⟨record', hr, -, -, htrans⟩ | ⟨hno, -⟩
  · obtain rfl := Option.some.inj (h.inst.symm.trans hr)
    rw [htrans]
    exact ⟨_, _, rfl, rfl⟩
  · have hedge : Edge record.state .ready := by
      rw [hwaiting]
      decide
    rw [(hno record h.inst hedge).2] at hready
    cases hready

/-- A member who shows the ticket of a waiting instance enters it. -/
theorem Ready.enter_step (h : Ready s policy id partyId (stamp :: stamps))
    (hversion : stamp.Supported) {i : UInt64} {ticket : Str} (hlength : ticket.length = 32)
    (hinst : s.instanceManager.getInstance i.toNat = some ⟨i.toNat, partyId, .waiting⟩)
    (hticket : s.instanceTickets[i.toNat]? = some ticket) (charId : UInt64) :
    let e := clientPacket policy id .dungeonEnterReq stamp
      (encodeDungeonEnterRequest ⟨i, ticket, charId⟩)
    Local (InParty s partyId) i.toNat s (serverStep s e) ∧
    Ready (serverStep s e) policy id partyId stamps ∧ s.deposited e = none ∧
    ∃ response : DungeonEnterResponse, s.answerTo e = some ⟨.dungeonEnterRes, response⟩ ∧
      response.success = true ∧
      (serverStep s e).instanceManager.getInstance i.toNat = some ⟨i.toNat, partyId, .ready⟩ ∧
      (serverStep s e).sessionCharacters[id]? = some charId ∧
      (serverStep s e).sessionInstances[id]? = some i.toNat := by
  intro e
  obtain ⟨header, payload, session', ht, hd, hdeposited, huser, hself, hopen⟩ :=
    h.dispatched hversion .dungeonEnterReq (encodeDungeonEnterRequest ⟨i, ticket, charId⟩)
  rw [dispatch_enter ht] at hd
  obtain ⟨info, hinfo, hmember, -⟩ := h.party
  have hdecoded : decodeDungeonEnterRequest (encodeDungeonEnterRequest ⟨i, ticket, charId⟩) =
      .ok ⟨i, ticket, charId⟩ :=
    decode_encode_of_sizes (m := (⟨i, ticket, charId⟩ : DungeonEnterRequest))
      (List.forall_mem_singleton.mpr (by rw [hlength]; decide))
  have hadmits : Admits (s.receive id session' payload) id i.toNat ticket
      ⟨i.toNat, partyId, .waiting⟩ info := ⟨huser, hinst, hticket, hinfo, hmember⟩
  obtain ⟨response, instanceSeeds, hsuccess, hentered⟩ :=
    handleEnter_of_admits (s := s.receive id session' payload) h.idle.party hdecoded hadmits rfl
  rw [hentered] at hd
  obtain ⟨hanswer, hstep⟩ := Prod.mk.inj hd
  have hne : ∀ k, ¬ InParty s partyId k → id ≠ k := fun k hk heq => hk (heq ▸ h.inParty)
  have hlocal : Local (InParty s partyId) i.toNat s (serverStep s e) := by
    rw [← hstep]
    exact ⟨rfl, rfl, fun k hk => Dict.get?_insert_of_ne _ _ (hne k hk),
      fun k hk => Dict.get?_insert_of_ne _ _ (hne k hk),
      fun k hk => Dict.get?_insert_of_ne _ _ (hne k hk),
      fun j hj => Dict.get?_insert_of_ne _ _ hj.symm, fun _ _ => rfl, Nat.le_succ _⟩
  refine ⟨hlocal, h.step hlocal ?_ hopen, ?_, response, hanswer.symm,
    hsuccess, ?_, ?_, ?_⟩
  · rw [← hstep]
    exact hself
  · rw [hdeposited]
    exact granted_none ht (by decide) (by decide) _ _
  · rw [← hstep]
    exact Dict.get?_insert_self ..
  · rw [← hstep]
    exact Dict.get?_insert_self ..
  · rw [← hstep]
    exact Dict.get?_insert_self ..

/-- An instance that is ready can be played. -/
theorem Ready.play_step (h : Ready s policy id partyId stamps)
    (hinst : s.instanceManager.getInstance instanceId = some ⟨instanceId, partyId, .ready⟩) :
    let e := ServerEvent.inst (.requestTransition instanceId .playing)
    Local (InParty s partyId) instanceId s (serverStep s e) ∧
    Ready (serverStep s e) policy id partyId stamps ∧
    (s.instanceManager.requestTransition instanceId .playing s.partyService).1 = true ∧
    (serverStep s e).instanceManager.getInstance instanceId =
      some ⟨instanceId, partyId, .playing⟩ ∧
    (serverStep s e).sessionCharacters = s.sessionCharacters ∧
    (serverStep s e).sessionInstances = s.sessionInstances := by
  intro e
  obtain ⟨info, hinfo, -, -⟩ := h.party
  obtain ⟨session, hsession, hopen⟩ := h.session
  have hready : isPartyReady partyId s.partyService = true := by
    rw [isPartyReady_eq _ h.idle.party, hinfo]
    rfl
  rcases s.instanceManager.requestTransition_cases s.partyService instanceId .playing
    with ⟨record, hr, -, -, htrans⟩ | ⟨hno, -⟩
  · obtain rfl := Option.some.inj (hinst.symm.trans hr)
    have hmanager : (serverStep s e).instanceManager = { s.instanceManager with
        instances := s.instanceManager.instances.insert instanceId
          ⟨instanceId, partyId, .playing⟩ } := congrArg Prod.snd htrans
    have hlocal : Local (InParty s partyId) instanceId s (serverStep s e) := by
      refine ⟨rfl, rfl, fun _ _ => rfl, fun _ _ => rfl, fun _ _ => rfl, fun j hj => ?_,
        fun _ _ => rfl, ?_⟩
      · rw [hmanager]
        exact Dict.get?_insert_of_ne _ _ hj.symm
      · rw [hmanager]
        exact Nat.le_succ _
    refine ⟨hlocal, h.step hlocal hsession hopen, congrArg Prod.fst htrans, ?_, rfl, rfl⟩
    rw [hmanager]
    exact Dict.get?_insert_self ..
  · rw [(hno _ hinst (show Edge .ready .playing by decide)).2] at hready
    cases hready

section Report

variable [TableBacked σ]

/-- With a character, rewards that can be granted are. -/
theorem grantResult_accepts (s : Server σ) {id : ℕ} (instanceId : ℕ) {charId : UInt64}
    {rewards : List RewardItem} (hchar : s.sessionCharacters[id]? = some charId)
    (hg : Grantable rewards) : (s.grantResult id instanceId rewards).1.success = true := by
  obtain ⟨hok, -⟩ := addInTransaction_accepted s.inventoryStorage charId (str "dungeon_reward") hg.1
  unfold grantResult
  simp only [grant_rewards, hchar, if_pos hg]
  split
  · rename_i heq
    rw [heq] at hok
    cases hok
  · rfl

/-- So a result that ends its instance is paid for, if it can be. -/
theorem handleResult_of_ends {payload : Bytes} {request : DungeonResultNotify}
    {record : InstanceRecord} (h : Ends s id payload request instanceId record) {charId : UInt64}
    (hchar : s.sessionCharacters[id]? = some charId) (hg : Grantable request.rewards) :
    (s.handleResult id payload).1.success = true ∧
    ∃ (record' : InstanceRecord) (nextRewardGrantId : ℕ) (inventoryStorage : σ)
        (instanceRewardGrants : Dict ℕ ℕ),
      (s.handleResult id payload).2 = { s with
        instanceManager := { s.instanceManager with
          instances := s.instanceManager.instances.insert instanceId record' }
        nextRewardGrantId, inventoryStorage, instanceRewardGrants } := by
  rcases s.handleResult_cases id payload with
    ⟨request', i, record', next, h', -, heq⟩ | ⟨hno, -⟩
  · obtain rfl : request = request' := by simpa using h.decoded.symm.trans h'.decoded
    obtain rfl : instanceId = i := by simpa using h.bound.symm.trans h'.bound
    rw [heq]
    have hpaid := grantResult_accepts { s with instanceManager := { s.instanceManager with
      instances := s.instanceManager.instances.insert instanceId { record' with state := next } } }
      instanceId hchar hg
    refine ⟨hpaid, ?_⟩
    rcases grantResult_cases { s with instanceManager := { s.instanceManager with
        instances := s.instanceManager.instances.insert instanceId
          { record' with state := next } } } id instanceId request.rewards with
      ⟨hfalse, -⟩ | ⟨-, -, -, nextRewardGrantId, inventoryStorage, grantId, hgranted⟩
    · rw [hpaid] at hfalse
      cases hfalse
    · rw [hgranted]
      exact ⟨{ record' with state := next }, nextRewardGrantId, inventoryStorage,
        s.instanceRewardGrants.insert instanceId grantId, rfl⟩
  · exact absurd h (hno _ _ _)

theorem length_of_grantable {rewards : List RewardItem} (h : Grantable rewards) :
    rewards.length ≤ 100 := by
  have hlength := List.length_le_sum_of_one_le (rewards.map fun item => item.count.toNat) (by
    simp only [List.forall_mem_map]
    intro item hitem
    have hcount := h.1 item hitem
    rw [Ne, ← UInt32.toNat_inj] at hcount
    exact Nat.one_le_iff_ne_zero.mpr hcount)
  rw [List.length_map] at hlength
  exact hlength.trans h.2

/-- The report of an instance that is played is paid for. -/
theorem Ready.report_step (h : Ready s policy id partyId (stamp :: stamps))
    (hversion : stamp.Supported)
    (hinst : s.instanceManager.getInstance instanceId = some ⟨instanceId, partyId, .playing⟩)
    {charId : UInt64} (hchar : s.sessionCharacters[id]? = some charId)
    (hbound : s.sessionInstances[id]? = some instanceId) {report : DungeonResultNotify}
    (hg : Grantable report.rewards) :
    let e := clientPacket policy id .dungeonResultNotify stamp (encodeDungeonResultNotify report)
    Local (InParty s partyId) instanceId s (serverStep s e) ∧
    Ready (serverStep s e) policy id partyId stamps ∧
    s.deposited e = some ⟨charId, str "dungeon_reward", report.rewards⟩ ∧
    ∃ response : DungeonResultResponse, s.answerTo e = some ⟨.dungeonResultRes, response⟩ ∧
      response.success = true := by
  intro e
  obtain ⟨header, payload, session', ht, hd, hdeposited, huser, hself, hopen⟩ :=
    h.dispatched hversion .dungeonResultNotify (encodeDungeonResultNotify report)
  rw [dispatch_result ht] at hd
  have hdecoded : decodeDungeonResultNotify (encodeDungeonResultNotify report) = .ok report :=
    decode_encode_of_sizes (m := report) (List.forall_mem_singleton.mpr
      ((length_of_grantable hg).trans (by decide)))
  have hfresh : s.instanceRewardGrants[instanceId]? = none := by
    refine (Dict.not_mem_iff _ _).mp fun hmem => ?_
    obtain ⟨record, hr, hover⟩ := h.balanced.granted instanceId hmem
    obtain rfl := Option.some.inj (hinst.symm.trans hr)
    simp [InstanceState.Over] at hover
  have hends : Ends (s.receive id session' payload) id (encodeDungeonResultNotify report) report
      instanceId ⟨instanceId, partyId, .playing⟩ :=
    ⟨hdecoded, huser, hbound, hinst, rfl, hfresh⟩
  obtain ⟨hpaid, record, nextRewardGrantId, inventoryStorage, grants, hended⟩ :=
    handleResult_of_ends hends hchar hg
  obtain ⟨hanswer, hstep⟩ := Prod.mk.inj hd
  rw [hended] at hstep
  have hlocal : Local (InParty s partyId) instanceId s (serverStep s e) := by
    rw [← hstep]
    exact ⟨rfl, rfl, fun k hk => Dict.get?_insert_of_ne _ _ fun heq => hk (heq ▸ h.inParty),
      fun _ _ => rfl, fun _ _ => rfl, fun j hj => Dict.get?_insert_of_ne _ _ hj.symm,
      fun _ _ => rfl, Nat.le_succ _⟩
  refine ⟨hlocal, h.step hlocal ?_ hopen, ?_, _, hanswer.symm, hpaid⟩
  · rw [← hstep]
    exact hself
  · rw [hdeposited, ← hanswer]
    unfold granted succeeded
    simp only [Option.map_some, Option.getD_some, Answer.success, ht, Option.bind_some,
      requested, hdecoded]
    rw [if_pos hpaid, hchar]
    rfl

end Report

end Party

end Server

end DungeonHub
