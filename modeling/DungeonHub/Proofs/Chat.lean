import DungeonHub.Lib.Mail
import DungeonHub.Proofs.Codec
import DungeonHub.Proofs.Matches
import DungeonHub.Proofs.Renaming

/-!
# Who gets a chat message

An accepted chat request offers one frame to each session that it is for, and to nobody else; a
refused one offers nothing. A decoder reads in the frame what was sent: all its strings have come
through a decoder before, and are short enough to go out again.
-/

namespace DungeonHub

open Run Wire Mail

/-- The sessions picked are offered their frames, once each, and the others nothing. -/
def Offers (heap heap' : Dict ℕ Session) (picked : ℕ → Prop) (frame : Session → Bytes) : Prop :=
  ∀ k, (picked k → ∃ session now, heap[k]? = some session ∧
      heap'[k]? = some (session.enqueueSend (frame session) now).2) ∧
    (¬ picked k → heap'[k]? = heap[k]?)

/-- The frame of an event, in the version its session speaks. -/
def chatFrame (event : ChatEvent) (session : Session) : Bytes :=
  encodeFrame PacketType.chatEvent.code session.protocolVersion (encodeChatEvent event)

/-- A decoder finds one frame, with the event. -/
def Carries (frame : Bytes) (event : ChatEvent) : Prop :=
  ∃ header body, (({} : FrameDecoder).append frame).drain = ([(header, body)], {}) ∧
    header.type = PacketType.chatEvent.code ∧ decodeChatEvent body = .ok event

section Frame

theorem length_writeString_le (s : Str) : (writeString s).length ≤ 2 + s.length := by
  unfold writeString
  simp only [List.length_append]
  exact Nat.add_le_add le_rfl (List.length_take_le' _ _)

/-- An event with short strings gets through. -/
theorem chatFrame_carries {event : ChatEvent} (hsender : event.senderUserId.length ≤ maxU16)
    (hmessage : event.message.length ≤ maxU16) (session : Session) :
    Carries (chatFrame event session) event := by
  have hcut : Message.cut event = event := LawfulMessage.cut_eq event (by
    simp [Message.sizes, hsender, hmessage])
  have hdecode := LawfulMessage.decode_append event []
  rw [List.append_nil, if_pos rfl, hcut] at hdecode
  have hlength : (encodeChatEvent event).length < 2 ^ 32 := by
    have hs := length_writeString_le event.senderUserId
    have hm := length_writeString_le event.message
    unfold encodeChatEvent
    simp only [List.length_append, writeU16, writeU64, List.length_cons, List.length_nil,
      List.length_map]
    unfold maxU16 at hsender hmessage
    omega
  exact ⟨_, _, drain_encodeFrame hlength, rfl, hdecode⟩

end Frame

namespace Server

variable {σ : Type}

section Send

variable {s s' : Server σ}

theorem deliver_other (frame : Session → Bytes) (s : Server σ) (k j : ℕ) (h : k ≠ j) :
    (s.deliver k frame).heap[j]? = s.heap[j]? := by
  unfold deliver
  split
  · rfl
  · exact Dict.get?_insert_of_ne _ _ h

/-- A session that the server knows is offered its frame, another one nothing. -/
theorem deliver_self (frame : Session → Bytes) (s : Server σ) (k : ℕ)
    (hknown : ∀ k ∈ s.sessions, k ∈ s.heap) :
    (k ∈ s.sessions → ∃ session now, s.heap[k]? = some session ∧
      (s.deliver k frame).heap[k]? = some (session.enqueueSend (frame session) now).2) ∧
    (k ∉ s.sessions → (s.deliver k frame).heap[k]? = s.heap[k]?) := by
  unfold deliver
  split
  · rename_i hnone
    unfold findSession at hnone
    refine ⟨fun hk => ?_, fun _ => rfl⟩
    obtain ⟨session, hsession⟩ := (Dict.mem_iff _ _).mp (hknown k hk)
    rw [if_pos hk, hsession] at hnone
    cases hnone
  · rename_i session hsome
    obtain ⟨hk, hsession⟩ := findSession_eq_some.mp hsome
    exact ⟨fun _ => ⟨session, _, hsession, Dict.get?_insert_self _ _ _⟩, fun hno => absurd hk hno⟩

theorem foldl_deliver_offers (frame : Session → Bytes) {recipients : List ℕ}
    (hnodup : recipients.Nodup) (hknown : ∀ k ∈ s.sessions, k ∈ s.heap) :
    Offers s.heap (recipients.foldl (fun s k => s.deliver k frame) s).heap
      (fun k => k ∈ s.sessions ∧ k ∈ recipients) frame := by
  have hmem := fun k (hr : k ∈ recipients) =>
    round_of_mem (fun (s : Server σ) k => s.deliver k frame) (fun s k => s.heap[k]?)
    (I := fun t : Server σ => t.sessions = s.sessions ∧ ∀ k ∈ t.sessions, k ∈ t.heap)
    (P := fun k v v' => (k ∈ s.sessions → ∃ session now, v = some session ∧
      v' = some (session.enqueueSend (frame session) now).2) ∧ (k ∉ s.sessions → v' = v))
    (fun t k ht => by
      obtain ⟨heap, clock, heq, hkeeps⟩ := t.deliver_delivers k frame
      rw [heq]
      exact ⟨ht.1, fun j hj => (hkeeps.mem j).mpr (ht.2 j hj)⟩)
    (fun t k ht => ht.1 ▸ t.deliver_self frame k ht.2) (deliver_other frame) hnodup hr s
    ⟨rfl, hknown⟩
  have hnot := fun k (hr : k ∉ recipients) =>
    round_of_not_mem (fun (s : Server σ) k => s.deliver k frame) (fun s k => s.heap[k]?)
    (deliver_other frame) hr s
  intro k
  refine ⟨fun ⟨hk, hr⟩ => (hmem k hr).1 hk, fun hno => ?_⟩
  by_cases hr : k ∈ recipients
  · exact (hmem k hr).2 fun hk => hno ⟨hk, hr⟩
  · exact hnot k hr

theorem loggedIn_nodup (s : Server σ) : s.loggedIn.Nodup := by
  refine List.Nodup.filter _ ?_
  exact Std.ExtTreeMap.distinct_keys.imp fun hab heq => hab (by simp [heq])

theorem mem_loggedIn (s : Server σ) (k : ℕ) :
    k ∈ s.loggedIn ↔ k ∈ s.sessions ∧ (s.userContext k).isSome := by
  unfold loggedIn
  rw [List.mem_filter, Std.ExtTreeMap.mem_keys]

/-- A message goes out to all recipients or to nobody. -/
theorem sendChat_cases (s : Server σ) (event : ChatEvent) {recipients : List ℕ}
    (hnodup : recipients.Nodup) (hknown : ∀ k ∈ s.sessions, k ∈ s.heap) :
    s.sendChat event recipients = (false, s) ∨
    ∃ s', s.sendChat event recipients = (true, s') ∧
      Offers s.heap s'.heap (fun k => k ∈ s.sessions ∧ k ∈ recipients) (chatFrame event) := by
  unfold sendChat
  split_ifs
  · exact .inl rfl
  · exact .inr ⟨_, rfl, foldl_deliver_offers (chatFrame event) hnodup hknown⟩

end Send

section Handler

/-- Whom a chat request is for: the party's id, 0 for none, and the sessions. -/
inductive Addresses (s : Server σ) (id : ℕ) (request : ChatSendRequest) : ℕ → (ℕ → Prop) → Prop
  where
  | global (hchannel : request.channel = .global) :
      Addresses s id request 0 fun k => k ∈ s.sessions ∧ (s.userContext k).isSome
  | party (hchannel : request.channel = .party) {partyId : ℕ} {info : PartyInfo}
      (haddressed : s.addressed id request.partyId = some partyId)
      (hinfo : s.partyService.getPartyInfo partyId = some info)
      (hsender : ∃ member ∈ info.members, member.sessionId = id) :
      Addresses s id request partyId fun k =>
        k ∈ s.sessions ∧ ∃ member ∈ info.members, member.sessionId = k

/-- The event that a chat request sends out. -/
def chatEventOf (request : ChatSendRequest) (partyId : ℕ) (user : UserContext) : ChatEvent where
  channel := request.channel
  partyId := UInt64.ofNat partyId
  senderUserId := user.userId
  message := request.message

/-- A chat request was accepted, and offered to those it is for. -/
structure Chats (s : Server σ) (id : ℕ) (payload : Bytes) (s' : Server σ) (user : UserContext)
    (request : ChatSendRequest) (partyId : ℕ) (picked : ℕ → Prop) : Prop where
  decoded : decodeChatSendRequest payload = .ok request
  sender : s.userContext id = some user
  addressed : s.Addresses id request partyId picked
  offers : Offers s.heap s'.heap picked (chatFrame (chatEventOf request partyId user))

variable {s : Server σ} {id : ℕ} {request : ChatSendRequest}

theorem checkPartyChat_eq_ok {partyId : ℕ} {recipients : List ℕ} :
    s.checkPartyChat id request = .ok (partyId, recipients) ↔
      s.addressed id request.partyId = some partyId ∧
      ∃ info, s.partyService.getPartyInfo partyId = some info ∧
        (∃ member ∈ info.members, member.sessionId = id) ∧
        info.members.map PartyMember.sessionId = recipients := by
  unfold checkPartyChat addressed
  by_cases hzero : request.partyId = 0
  · simp only [if_pos hzero, bind_eq_ok, orRefuse_eq_ok, unlessRefuse_eq_ok, pure_eq_ok,
      Prod.mk.injEq, List.any_eq_true, decide_eq_true_eq]
    constructor
    · rintro ⟨_, hp, info, hinfo, -, hmem, rfl, rfl⟩
      exact ⟨hp, info, hinfo, hmem, rfl⟩
    · rintro ⟨hp, info, hinfo, hmem, rfl⟩
      exact ⟨partyId, hp, info, hinfo, (), hmem, rfl, rfl⟩
  · simp only [if_neg hzero, bind_eq_ok, orRefuse_eq_ok, unlessRefuse_eq_ok, pure_eq_ok,
      Prod.mk.injEq, List.any_eq_true, decide_eq_true_eq, Except.ok.injEq, Option.some.injEq]
    constructor
    · rintro ⟨_, rfl, info, hinfo, -, hmem, rfl, rfl⟩
      exact ⟨rfl, info, hinfo, hmem, rfl⟩
    · rintro ⟨rfl, info, hinfo, hmem, rfl⟩
      exact ⟨_, rfl, info, hinfo, (), hmem, rfl, rfl⟩

theorem handlePartyChat_cases (hparty : s.partyService.Sound)
    (hknown : ∀ k ∈ s.sessions, k ∈ s.heap) (id : ℕ) (user : UserContext)
    {request : ChatSendRequest} (hchannel : request.channel = .party) :
    ((s.handlePartyChat id user request).1.success = false ∧
      (s.handlePartyChat id user request).2.heap = s.heap) ∨
    ((s.handlePartyChat id user request).1.success = true ∧ ∃ partyId picked,
      s.Addresses id request partyId picked ∧
      Offers s.heap (s.handlePartyChat id user request).2.heap picked
        (chatFrame (chatEventOf request partyId user))) := by
  unfold handlePartyChat
  rcases hc : s.checkPartyChat id request with response | ⟨partyId, recipients⟩
  · exact .inl ⟨checkPartyChat_refuses hc, rfl⟩
  · obtain ⟨haddressed, info, hinfo, hsender, rfl⟩ := checkPartyChat_eq_ok.mp hc
    simp only []
    rcases s.sendChat_cases ⟨.party, UInt64.ofNat partyId, user.userId, request.message⟩
      (PartyService.getPartyInfo_nodup hparty hinfo) hknown with hsend | ⟨s', hsend, hoffers⟩
    · rw [hsend]
      exact .inl ⟨rfl, rfl⟩
    · rw [hsend]
      simp only [List.mem_map] at hoffers
      refine .inr ⟨rfl, partyId, _, .party hchannel haddressed hinfo hsender, ?_⟩
      unfold chatEventOf
      rw [hchannel]
      exact hoffers

/-- A chat request is refused and changes no session, or goes to those it is for. -/
theorem handleChat_cases (hparty : s.partyService.Sound) (hknown : ∀ k ∈ s.sessions, k ∈ s.heap)
    (id : ℕ) (payload : Bytes) :
    ((s.handleChat id payload).1.success = false ∧ (s.handleChat id payload).2.heap = s.heap) ∨
    ((s.handleChat id payload).1.success = true ∧ ∃ user request partyId picked,
      Chats s id payload (s.handleChat id payload).2 user request partyId picked) := by
  unfold handleChat
  simp only []
  split
  · rename_i response h
    simp only [bind_eq_error, decodedOr_eq_error, orRefuse_eq_error, unlessRefuse_eq_error,
      pure_ne_error, and_false, exists_false, or_false] at h
    rcases h with ⟨-, rfl⟩ | ⟨_, -, ⟨-, rfl⟩ | ⟨_, -, -, rfl⟩⟩
    · exact .inl ⟨rfl, rfl⟩
    · exact .inl ⟨rfl, rfl⟩
    · exact .inl ⟨rfl, rfl⟩
  · rename_i _ _ h
    simp only [bind_eq_ok, decodedOr_eq_ok, orRefuse_eq_ok, unlessRefuse_eq_ok, pure_eq_ok,
      Prod.mk.injEq] at h
    obtain ⟨request, hdecoded, user, huser, -, -, rfl, rfl⟩ := h
    by_cases hglobal : request.channel = .global
    · rw [if_pos hglobal]
      rcases s.sendChat_cases ⟨.global, 0, user.userId, request.message⟩ s.loggedIn_nodup hknown
        with hsend | ⟨s', hsend, hoffers⟩
      · rw [hsend]
        exact .inl ⟨rfl, rfl⟩
      · rw [hsend]
        simp only [mem_loggedIn, and_self_left] at hoffers
        refine .inr ⟨rfl, user, request, 0, _, hdecoded, huser, .global hglobal, ?_⟩
        unfold chatEventOf
        rw [hglobal]
        exact hoffers
    · rw [if_neg hglobal]
      split_ifs with hchannel
      · rcases handlePartyChat_cases hparty hknown id user hchannel with
          hno | ⟨hyes, partyId, picked, haddresses, hoffers⟩
        · exact .inl hno
        · exact .inr ⟨hyes, user, request, partyId, picked, hdecoded, huser, haddresses, hoffers⟩
      · exact .inl ⟨rfl, rfl⟩

/-- Sessions are addressed in the same way as long as they are the same and have the same users. -/
theorem Addresses.calm {s' : Server σ} (h : Calm Session.userContext s s') {partyId : ℕ}
    {picked : ℕ → Prop} (ha : s'.Addresses id request partyId picked) :
    s.Addresses id request partyId picked := by
  cases ha with
  | global hchannel =>
    have hpicked : (fun k => k ∈ s'.sessions ∧ (s'.userContext k).isSome) =
        fun k => k ∈ s.sessions ∧ (s.userContext k).isSome := by
      funext k
      rw [h.sessions, h.userContext]
    rw [hpicked]
    exact .global hchannel
  | party hchannel haddressed hinfo hsender =>
    unfold addressed at haddressed
    rw [h.party] at haddressed hinfo
    rw [h.sessions]
    exact .party hchannel haddressed hinfo hsender

end Handler

section Runs

variable [InventoryStorage σ] {s : Server σ} {id : ℕ} {header : FrameHeader} {payload : Bytes}
  {now : Time}

omit [InventoryStorage σ] in
/-- The sessions after the arrival of a packet, which goes through the gate. -/
def arrived (s : Server σ) (id : ℕ) (header : FrameHeader) (payload : Bytes) (now : Time) :
    Dict ℕ Session :=
  s.heap.modify id fun session => (s.gatePacket session header payload now).2

omit [InventoryStorage σ] in
theorem arrived_eq {session session' : Session} {gated : Gated}
    (hsession : s.heap[id]? = some session)
    (hg : s.gatePacket session header payload now = (gated, session')) :
    (s.receive id session' payload).heap = s.arrived id header payload now := by
  refine Dict.ext fun k => ?_
  show (s.heap.insert id session')[k]? = _
  unfold arrived
  rw [Dict.get?_insert, Dict.get?_modify]
  split_ifs with hk
  · rw [← hk, hsession, Option.map_some, hg]
  · rfl

omit [InventoryStorage σ] in
/-- The gate changes nothing of the session but what the replay check keeps. -/
theorem gatePacket_reads {τ : Type} {f : Session → τ}
    (hf : ∀ sec session, f (admitted sec session) = f session) (s : Server σ) (session : Session)
    (header : FrameHeader) (payload : Bytes) (now : Time) :
    f (s.gatePacket session header payload now).2 =
      f ((session.onReceive now).setProtocolVersion header.version) := by
  unfold gatePacket
  rcases gate_cases s.securityPolicy header payload
    ((session.onReceive now).setProtocolVersion header.version) with ⟨h, -⟩ | ⟨sec, inner, -, -, h⟩
  · rw [h]
  · rw [h]
    exact hf sec _

omit [InventoryStorage σ] in
theorem gatePacket_sendQueue (s : Server σ) (session : Session) (header : FrameHeader)
    (payload : Bytes) (now : Time) :
    (s.gatePacket session header payload now).2.sendQueue = session.sendQueue := by
  refine gatePacket_reads (f := Session.sendQueue) (fun sec session => ?_) s session header payload
    now
  unfold admitted Session.recordNonce
  split_ifs <;> rfl

omit [InventoryStorage σ] in
/-- Nothing is sent as a packet arrives. -/
theorem arrived_sendQueue (s : Server σ) (id : ℕ) (header : FrameHeader) (payload : Bytes)
    (now : Time) (k : ℕ) :
    (s.arrived id header payload now)[k]?.map Session.sendQueue =
      s.heap[k]?.map Session.sendQueue := by
  unfold arrived
  rw [Dict.get?_modify]
  split_ifs
  · rw [Option.map_map]
    exact congrArg (Option.map · _) (funext fun session => s.gatePacket_sendQueue session ..)
  · rfl

omit [InventoryStorage σ] in
theorem arrived_of_none (h : s.heap[id]? = none) : s.arrived id header payload now = s.heap := by
  refine Dict.ext fun k => ?_
  unfold arrived
  rw [Dict.get?_modify]
  split_ifs with hk
  · rw [← hk, h]
    rfl
  · rfl

/-- The way of a chat request that passes the gate. -/
theorem answerPacket_chat {session session' : Session} {body : Bytes}
    (ht : PacketType.ofCode header.type = some .chatSendReq) (hsession : s.heap[id]? = some session)
    (hg : s.gatePacket session header payload now = (.passed body, session')) :
    s.answerPacket id header payload now =
      (some ⟨.chatSendRes, ((s.receive id session' payload).handleChat id body).1⟩,
        ((s.receive id session' payload).handleChat id body).2) := by
  rw [answerPacket_of_passed hsession hg, dispatch_chat ht]

/-- A chat request that is not answered with success leaves the sessions as it has found them. -/
theorem chat_refused (hs : Orderly s) (ht : PacketType.ofCode header.type = some .chatSendReq)
    (hno : ¬ ∃ response, (s.answerPacket id header payload now).1 = some ⟨.chatSendRes, response⟩ ∧
      response.success = true) :
    (s.handlePacket id header payload now).2.heap = s.arrived id header payload now := by
  have hstate : (s.handlePacket id header payload now).2 =
    (s.answerPacket id header payload now).2 := rfl
  rw [hstate]
  rcases hsession : s.heap[id]? with _ | session
  · unfold answerPacket
    rw [arrived_of_none hsession, hsession]
  rcases hg : s.gatePacket session header payload now with ⟨_ | reject | body, session'⟩
  · rw [answerPacket_of_some hsession, hg]
    exact arrived_eq hsession hg
  · rw [answerPacket_of_some hsession, hg]
    exact arrived_eq hsession hg
  · have hu := s.gatePacket_userContext session header payload now
    rw [hg] at hu
    have hknown := (hs.calm (s.receive_calm payload hsession hu)).known
    rw [answerPacket_chat ht hsession hg] at hno ⊢
    rcases handleChat_cases (s := s.receive id session' payload) hs.party hknown id body with
      ⟨-, hheap⟩ | ⟨hyes, -⟩
    · exact hheap.trans (arrived_eq hsession hg)
    · exact absurd ⟨_, rfl, hyes⟩ hno

/-- A chat request that is answered with success was sent by a user, and is offered to just the
sessions that it addresses. -/
theorem chat_offers (hs : Orderly s) (ht : PacketType.ofCode header.type = some .chatSendReq)
    {response : ChatSendResponse}
    (hanswer : (s.answerPacket id header payload now).1 = some ⟨.chatSendRes, response⟩)
    (hyes : response.success = true) :
    ∃ body request user partyId picked, bodyOf s.securityPolicy payload = some body ∧
      decodeChatSendRequest body = .ok request ∧ s.userContext id = some user ∧
      s.Addresses id request partyId picked ∧
      Offers (s.arrived id header payload now) (s.handlePacket id header payload now).2.heap
        picked (chatFrame (chatEventOf request partyId user)) := by
  have hstate : (s.handlePacket id header payload now).2 =
    (s.answerPacket id header payload now).2 := rfl
  rw [hstate]
  obtain ⟨session, session', body, hsession, hg⟩ := passed_of_answer hanswer (by simp)
  have hbody := (gate_passed (congrArg Prod.fst hg)).2
  have hu := s.gatePacket_userContext session header payload now
  rw [hg] at hu
  have hcalm := s.receive_calm payload hsession hu
  rw [answerPacket_chat ht hsession hg] at hanswer ⊢
  cases hanswer
  rcases handleChat_cases (s := s.receive id session' payload) hs.party
    (hs.calm hcalm).known id body with ⟨hno, -⟩ | ⟨-, user, request, partyId, picked, hchats⟩
  · rw [hno] at hyes
    cases hyes
  · have hoffers := hchats.offers
    rw [arrived_eq hsession hg] at hoffers
    exact ⟨body, request, user, partyId, picked, hbody, hchats.decoded,
      (hcalm.userContext id).symm.trans hchats.sender, hchats.addressed.calm hcalm, hoffers⟩

/-- The users of all sessions are short enough for the wire. -/
theorem userId_length (inventoryStorage : σ) (securityPolicy : SecurityPolicy)
    (tokenBytes : Draws UInt8) (seeds : Draws { n : UInt32 // n ≠ 0 }) (ticketBytes : Draws UInt8)
    (clock : Draws Time) (es : List ServerEvent) {k : ℕ} {user : UserContext}
    (h : (after serverStep
      (Server.new inventoryStorage securityPolicy tokenBytes seeds ticketBytes clock)
      es).userContext k = some user) : user.userId.length ≤ maxU16 := by
  obtain ⟨x, -, token, time, id, header, payload, -, hlogin⟩ :=
    (traced_after inventoryStorage securityPolicy tokenBytes seeds ticketBytes clock es).users k
      user h
  obtain ⟨body, request, -, hdecoded, huser, -⟩ := hlogin.asked
  have hcut := LawfulMessage.cut_of_decode (α := LoginRequest) rfl hdecoded
  rw [← huser]
  exact length_of_cutString (congrArg LoginRequest.userId hcut)

/-- In every state of a server a chat request is answered with success only if it is sent by a user
and for sessions that may be addressed; then each of these is offered one frame, which carries the
message, and otherwise nobody is offered anything. -/
theorem chat_delivered (inventoryStorage : σ) (securityPolicy : SecurityPolicy)
    (tokenBytes : Draws UInt8) (seeds : Draws { n : UInt32 // n ≠ 0 }) (ticketBytes : Draws UInt8)
    (clock : Draws Time) (es : List ServerEvent) (s : Server σ)
    (hes : s = after serverStep
      (Server.new inventoryStorage securityPolicy tokenBytes seeds ticketBytes clock) es)
    (id : ℕ) (header : FrameHeader) (payload : Bytes) (now : Time)
    (ht : PacketType.ofCode header.type = some .chatSendReq) :
    (∀ k : ℕ, (s.arrived id header payload now)[k]?.map Session.sendQueue =
      s.heap[k]?.map Session.sendQueue) ∧
    ((¬ ∃ response, (s.answerPacket id header payload now).1 = some ⟨.chatSendRes, response⟩ ∧
        response.success = true) →
      (s.handlePacket id header payload now).2.heap = s.arrived id header payload now) ∧
    ∀ response, (s.answerPacket id header payload now).1 = some ⟨.chatSendRes, response⟩ →
      response.success = true →
      ∃ body request user partyId picked, bodyOf s.securityPolicy payload = some body ∧
        decodeChatSendRequest body = .ok request ∧ s.userContext id = some user ∧
        s.Addresses id request partyId picked ∧
        Offers (s.arrived id header payload now) (s.handlePacket id header payload now).2.heap
          picked (chatFrame (chatEventOf request partyId user)) ∧
        ∀ session, Carries (chatFrame (chatEventOf request partyId user) session)
          (chatEventOf request partyId user) := by
  have hs : Orderly s := by
    rw [hes]
    exact stable (I := Orderly) (fun _ e hs => hs.step e) es (orderly_new ..)
  refine ⟨s.arrived_sendQueue id header payload now, fun hno => chat_refused hs ht hno, ?_⟩
  intro response hanswer hyes
  obtain ⟨body, request, user, partyId, picked, hbody, hdecoded, huser, haddressed, hoffers⟩ :=
    chat_offers hs ht hanswer hyes
  have hname : user.userId.length ≤ maxU16 := by
    rw [hes] at huser
    exact userId_length _ _ _ _ _ _ es huser
  have htext := length_of_cutString (congrArg ChatSendRequest.message
    (LawfulMessage.cut_of_decode (α := ChatSendRequest) rfl hdecoded))
  exact ⟨body, request, user, partyId, picked, hbody, hdecoded, huser, haddressed, hoffers,
    chatFrame_carries hname htext⟩

/-- A message to the sender's own party. -/
def chatting : Bytes := encodeChatSendRequest { channel := .party, message := str "hi" }

/-- The other member of the party is offered it. -/
theorem chat_delivered_paired :
    ∃ session now, (after serverStep (still {}) paired).heap[2]? = some session ∧
      ((after serverStep (still {}) paired).handlePacket 1 (headerOf .chatSendReq chatting) chatting
        0).2.heap[2]? =
        some (session.enqueueSend (chatFrame ⟨.party, 1, str "u", str "hi"⟩ session) now).2 := by
  obtain ⟨body, request, user, partyId, picked, hbody, hdecoded, huser, haddresses, hoffers, -⟩ :=
    (chat_delivered _ _ _ _ _ _ paired (after serverStep (still {}) paired) rfl 1
      (headerOf .chatSendReq chatting) chatting 0 (by decide)).2.2
      ⟨true, str "Party chat delivered"⟩ (by decide +kernel) rfl
  have hpassed : bodyOf (after serverStep (still {}) paired).securityPolicy chatting =
    some chatting := by decide +kernel
  rw [hpassed, Option.some.injEq] at hbody
  subst hbody
  have hrequest : decodeChatSendRequest chatting =
    .ok { channel := .party, message := str "hi" } := by decide
  rw [hrequest, Except.ok.injEq] at hdecoded
  subst hdecoded
  have hsender : ((after serverStep (still {}) paired).userContext 1).map UserContext.userId =
    some (str "u") := by decide +kernel
  rw [huser, Option.map_some, Option.some.injEq] at hsender
  cases haddresses with
  | global hchannel => exact absurd hchannel (by decide)
  | party hchannel haddressed hinfo _ =>
    have hparty : (after serverStep (still {}) paired).addressed 1 0 = some 1 := by decide +kernel
    obtain rfl := Option.some.inj (haddressed.symm.trans hparty)
    have hmembers : (after serverStep (still {}) paired).partyService.getPartyInfo 1 =
      some ⟨1, 1, [⟨1, str "u"⟩, ⟨2, str "v"⟩]⟩ := by decide +kernel
    obtain rfl := Option.some.inj (hinfo.symm.trans hmembers)
    obtain ⟨session, now, hbefore, hafter⟩ := (hoffers 2).1 ⟨by decide +kernel, by decide⟩
    unfold arrived at hbefore
    rw [Dict.get?_modify, if_neg (by decide)] at hbefore
    unfold chatEventOf at hafter
    rw [hsender] at hafter
    exact ⟨session, now, hbefore, hafter⟩

end Runs

end Server

end DungeonHub
