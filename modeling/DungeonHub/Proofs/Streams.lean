import DungeonHub.Proofs.Gateway
import DungeonHub.Proofs.Sending
import DungeonHub.Proofs.Versions

/-!
# What a client reads

A session's queue holds nothing but whole frames of the server's messages. So what has been taken
from it comes out of a decoder as the messages that went in, however the bytes are cut into reads.
-/

namespace DungeonHub

open Run Wire

section Reading

/-- The frames that a decoder gives for pieces of a stream, one read after the other. -/
def FrameDecoder.reads : FrameDecoder → List Bytes → List (FrameHeader × Bytes)
  | _, [] => []
  | d, piece :: pieces =>
    (d.append piece).drain.1 ++ FrameDecoder.reads (d.append piece).drain.2 pieces

/-- More pieces give more frames. -/
theorem reads_earlier :
    ∀ (pieces more : List Bytes) (d : FrameDecoder), d.reads pieces <+: d.reads (pieces ++ more)
  | [], _, _ => List.nil_prefix
  | piece :: pieces, more, d =>
    (List.prefix_append_right_inj _).mpr (reads_earlier pieces more (d.append piece).drain.2)

/-- The frames are the stream's, up to an incomplete rest. -/
theorem reads_framed :
    ∀ (pieces : List Bytes) {d : FrameDecoder}, d.nextFrame = none →
      Gateway.Framed (d.buffer ++ pieces.flatten) (d.reads pieces)
  | [], d, h => ⟨d.buffer, by simp [FrameDecoder.reads], by simp [FrameDecoder.reads],
      nextFrame_none h⟩
  | piece :: pieces, d, _ => by
    obtain ⟨hbuffer, hlengths, hnone⟩ := drain_spec (d.append piece)
    obtain ⟨r, hr, hrest, hincomplete⟩ := reads_framed pieces hnone
    refine ⟨r, ?_, ?_, hincomplete⟩
    · have happend : d.buffer ++ piece = (d.append piece).buffer := rfl
      rw [List.flatten_cons, ← List.append_assoc, happend, hbuffer, List.append_assoc, hr,
        FrameDecoder.reads, List.flatMap_append, List.append_assoc]
    · exact List.forall_mem_append.mpr ⟨hlengths, hrest⟩

/-- A stream of frames is read as these frames, and the beginning of one as the first of them. -/
theorem reads_frames {fs : List (FrameHeader × Bytes)}
    (hfs : ∀ f ∈ fs, f.1.length.toNat = f.2.length) (pieces : List Bytes) :
    (pieces.flatten = fs.flatMap frameBytes → FrameDecoder.reads {} pieces = fs) ∧
    (pieces.flatten <+: fs.flatMap frameBytes → FrameDecoder.reads {} pieces <+: fs) := by
  have hwhole : ∀ pieces : List Bytes, pieces.flatten = fs.flatMap frameBytes →
      FrameDecoder.reads {} pieces = fs := by
    intro pieces hpieces
    have hread : Gateway.Framed pieces.flatten (FrameDecoder.reads {} pieces) :=
      reads_framed pieces (d := {}) rfl
    have hsent : Gateway.Framed pieces.flatten fs :=
      ⟨[], by simp [hpieces], hfs, .inl (by simp [headerSize])⟩
    exact hread.drain_eq.symm.trans hsent.drain_eq
  refine ⟨hwhole pieces, ?_⟩
  rintro ⟨rest, hrest⟩
  have hall := hwhole (pieces ++ [rest]) (by simpa using hrest)
  exact hall ▸ reads_earlier pieces [rest] {}

end Reading

section Messages

/-- The frame carries a message. -/
def Sent (frame : Bytes) : Prop := ∃ (a : Answer) (version : UInt16), frame = a.frame version

/-- What a client makes of a frame. -/
def understand (f : FrameHeader × Bytes) : Option Answer :=
  (PacketType.ofCode f.1.type).bind fun type =>
    (Message.decode (α := type.Payload) f.2).toOption.map fun payload => ⟨type, payload⟩

/-- The message with its strings and lists cut to their first 65535 elements. -/
def Answer.cut (a : Answer) : Answer := ⟨a.type, Message.cut a.payload⟩

/-- The frame of a message as a decoder returns it. -/
def Answer.decoded (a : Answer) (version : UInt16) : FrameHeader × Bytes :=
  (⟨UInt32.ofNat (Message.encode a.payload).length, a.type.code, version⟩,
    Message.encode a.payload)

theorem understand_decoded (a : Answer) (version : UInt16) :
    understand (a.decoded version) = some a.cut := by
  simp only [understand, Answer.decoded, PacketType.ofCode_code, Option.bind_some, decode_encode,
    Except.toOption, Option.map_some, Answer.cut]

end Messages

namespace Session

/-- The queue holds whole frames of messages, none of them 4 GiB long. -/
structure Clean (session : Session) : Prop where
  capacity : session.bucket.capacity < 2 ^ 32
  frames : ∀ frame ∈ session.sendQueue, Sent frame ∧ frame.length < 2 ^ 32

variable {session session' : Session}

theorem Clean.same (h : session.Clean) (hbucket : session'.bucket = session.bucket)
    (hqueue : session'.sendQueue = session.sendQueue) : session'.Clean :=
  ⟨hbucket ▸ h.capacity, hqueue ▸ h.frames⟩

/-- The rate limiter lets nothing through that is longer than its capacity. -/
theorem Clean.enqueueSend (h : session.Clean) {payload : Bytes} (hsent : Sent payload)
    (now : Time) : (session.enqueueSend payload now).2.Clean := by
  have henqueued := enqueueSend_enqueued session payload now
  have hcapacity : (session.enqueueSend payload now).2.bucket.capacity = session.bucket.capacity := by
    rw [henqueued.bucket]
    split_ifs
    · exact (consume_eq session.bucket payload.length now).1
    · rfl
  refine ⟨hcapacity ▸ h.capacity, ?_⟩
  rcases hok : (session.enqueueSend payload now).1 with _ | _
  · rw [(henqueued.refused hok).1]
    exact h.frames
  · obtain ⟨-, hroom, hnonneg⟩ := bucket_of_accepted hok
    have hlength : payload.length < 2 ^ 32 := by
      have hle : (payload.length : ℚ) < 2 ^ 32 := by
        have hlt := h.capacity
        linarith
      exact_mod_cast hle
    obtain ⟨-, -, -, hqueue, -⟩ := henqueued.accepted hok
    rw [hqueue]
    refine List.forall_mem_append.mpr ⟨fun frame hf => ?_, by simpa using ⟨hsent, hlength⟩⟩
    exact h.frames frame (dropOldest_subset _ _ _ _ hf)

theorem Clean.tick (h : session.Clean) (now : Time) : (session.tick now).2.Clean := by
  unfold Session.tick
  split_ifs <;> exact h.same rfl rfl

theorem Clean.call (h : session.Clean) {call : SessionCall}
    (hcall : ∀ payload now, call = .enqueueSend payload now → Sent payload) :
    (session.call call).Clean := by
  cases call with
  | enqueueSend payload now => exact h.enqueueSend (hcall payload now rfl) now
  | dequeueSend =>
    show session.dequeueSend.2.Clean
    unfold Session.dequeueSend
    split
    · exact h
    · rename_i payload queue hqueue
      exact ⟨h.capacity, fun frame hf => h.frames frame (hqueue ▸ List.mem_cons_of_mem _ hf)⟩
  | tick now => exact h.tick now
  | onReceive now => exact h.same rfl rfl
  | markHeartbeatSent now => exact h.same rfl rfl
  | markTlsEstablished handshakeTime => exact h.same rfl rfl

end Session

namespace Server

variable {σ : Type} {s : Server σ} {id : ℕ}

/-- The queues of all sessions are clean. -/
def Clean (s : Server σ) : Prop := s.heap.All fun _ session => session.Clean

section Handlers

theorem Clean.insert (h : Clean s) {session session' : Session} (hs : s.heap[id]? = some session)
    (hkeep : session.Clean → session'.Clean) :
    Dict.All (fun _ session => session.Clean) (s.heap.insert id session') :=
  Dict.All.insert h (hkeep (h id session hs))

theorem Clean.modify (h : Clean s) (id : ℕ) {f : Session → Session}
    (hf : ∀ session, session.Clean → (f session).Clean) : Clean (s.modifySession id f) := by
  intro k session' hk
  change (s.heap.modify id f)[k]? = some session' at hk
  rw [Dict.get?_modify] at hk
  split_ifs at hk
  · obtain ⟨session, hs, rfl⟩ := Option.map_eq_some_iff.mp hk
    exact hf session (h k session hs)
  · exact h k session' hk

theorem Clean.deliver (h : Clean s) {frame : Session → Bytes}
    (hframe : ∀ session, Sent (frame session)) : Clean (s.deliver id frame) := by
  unfold Server.deliver
  split
  · exact h
  · rename_i session hs
    exact h.insert (findSession_eq_some.mp hs).2 fun hc => hc.enqueueSend (hframe session) _

/-- A message that goes to several sessions. -/
theorem Clean.foldl_deliver {α : Type} (recipient : α → ℕ) {frame : α → Session → Bytes}
    (hframe : ∀ a session, Sent (frame a session)) :
    ∀ (l : List α) {s : Server σ}, Clean s →
      Clean (l.foldl (fun s a => s.deliver (recipient a) (frame a)) s)
  | [], _, h => h
  | _ :: l, _, h => Clean.foldl_deliver recipient hframe l (h.deliver (hframe _))

theorem Clean.deliverGuildEvents (h : Clean s) (events : GuildService.Events) :
    Clean (s.deliverGuildEvents events) :=
  Clean.foldl_deliver Prod.fst
    (fun _ session => ⟨⟨.guildEvent, _⟩, session.protocolVersion, rfl⟩) events h

theorem Clean.handleLogin (h : Clean s) (id : ℕ) (payload : Bytes) (now : Time) :
    Clean (s.handleLogin id payload now).2 := by
  rcases s.handleLogin_cases id payload now with ⟨request, hlogs⟩ | ⟨-, heq⟩
  · rw [handleLogin_of_logs hlogs]
    exact h.modify id fun _ hc => hc.same rfl rfl
  · rw [heq]
    exact h

theorem Clean.handleLogout (h : Clean s) (id : ℕ) (payload : Bytes) :
    Clean (s.handleLogout id payload).2 := by
  unfold Server.handleLogout
  split
  · exact h
  · exact h.modify id fun _ hc => hc.same rfl rfl

theorem Clean.reclaim (h : Clean s) (userId : Str) (id : ℕ) : Clean (s.reclaim userId id) := by
  unfold Server.reclaim takeOver
  split
  · exact h
  · rename_i existing _
    rcases s.findSession existing with _ | session
    · exact h
    · exact h.modify existing fun _ hc => hc.same rfl rfl

theorem Clean.handleReconnect (h : Clean s) (id : ℕ) (payload : Bytes) (now : Time) :
    Clean (s.handleReconnect id payload now).2 := by
  rcases s.handleReconnect_refused id payload now with
    ⟨-, tokenService, -, heq⟩ | ⟨request, userId, hvalid⟩
  · rw [heq]
    exact h
  · have hattach : Clean ((s.reclaim userId id).modifySession id
        (·.attachUserContext ⟨userId, request.token⟩)) :=
      (h.reclaim userId id).modify id fun _ hc => hc.same rfl rfl
    rw [handleReconnect_of_valid hvalid]
    split_ifs
    · exact hattach.modify id fun _ hc => hc.same rfl rfl
    · exact hattach

theorem Clean.bindMember (h : Clean s) (instanceId : ℕ) {frame : Bytes} (hframe : Sent frame)
    (asked : ℕ → Bool) (member : PartyMember) :
    Clean (s.bindMember instanceId frame asked member) := by
  unfold Server.bindMember
  split
  · exact h
  · simp only []
    split_ifs
    · exact h
    · exact Clean.deliver (s := { s with
        sessionInstances := s.sessionInstances.insert member.sessionId instanceId }) h
        fun _ => hframe

theorem Clean.openInstance (h : Clean s) (instanceId partyId : ℕ) (version : UInt16)
    (asked : ℕ → Bool) : Clean (s.openInstance instanceId partyId version asked).2 := by
  unfold Server.openInstance
  exact stable (I := fun s : Server σ => Clean s)
    (fun s member hs => hs.bindMember _ ⟨⟨.matchFoundNotify, _⟩, version, rfl⟩ _ member) _ h

theorem Clean.matchLoop (id partyId : ℕ) (version : UInt16) :
    ∀ (candidates : List MatchCandidate) (requester : Option MatchFoundNotify) {s : Server σ},
      Clean s → Clean (matchLoop id partyId version candidates requester s).2
  | [], some _, _, h => h
  | [], none, _, h => h
  | candidate :: rest, requester, s, h => by
    unfold Server.matchLoop
    rcases s.instanceManager.createInstance candidate.partyId s.partyService with
      ⟨_ | instanceId, instanceManager⟩
    · exact h
    · have hopen := Clean.openInstance (s := { s with instanceManager }) h instanceId
        candidate.partyId version fun member => candidate.partyId = partyId && member = id
      exact Clean.matchLoop id partyId version rest _ hopen

theorem Clean.handleMatch (h : Clean s) (id : ℕ) (version : UInt16) (payload : Bytes)
    (now : Time) : Clean (s.handleMatch id version payload now).2 := by
  unfold Server.handleMatch
  split
  · exact h
  · simp only []
    split
    · exact h
    · rename_i queue _
      rcases queue.findMatch now with ⟨_ | ⟨first, second⟩, matchQueue⟩
      · exact Clean.matchLoop id _ version _ _ (s := { s with
          matchQueue := (matchQueue.cancel _).2 }) h
      · exact Clean.matchLoop id _ version _ _ (s := { s with matchQueue }) h

theorem Clean.of_heap {s' : Server σ} (h : Clean s) (heq : s'.heap = s.heap) : Clean s' := by
  unfold Clean
  rw [heq]
  exact h

theorem Clean.handleGuildCreate (h : Clean s) (id : ℕ) (payload : Bytes) :
    Clean (s.handleGuildCreate id payload).2 := by
  unfold Server.handleGuildCreate
  simp only []
  split
  · exact h
  · rename_i request user _
    have hevents := Clean.deliverGuildEvents (s := { s with
      guildService := (s.guildService.createGuild id user.userId request.guildName).2.2 }) h
      (s.guildService.createGuild id user.userId request.guildName).2.1
    split <;> exact hevents

theorem Clean.handleGuildJoin (h : Clean s) (id : ℕ) (payload : Bytes) :
    Clean (s.handleGuildJoin id payload).2 := by
  unfold Server.handleGuildJoin
  simp only []
  split
  · exact h
  · rename_i request user _
    exact Clean.deliverGuildEvents (s := { s with
      guildService := (s.guildService.joinGuild request.guildId.toNat id user.userId).2.2 }) h _

theorem Clean.handleGuildLeave (h : Clean s) (id : ℕ) (payload : Bytes) :
    Clean (s.handleGuildLeave id payload).2 := by
  unfold Server.handleGuildLeave
  split
  · exact h
  · rename_i guildId _
    exact Clean.deliverGuildEvents (s := { s with
      guildService := (s.guildService.leaveGuild guildId id).2.2 }) h _

theorem Clean.sendChat (h : Clean s) (event : ChatEvent) (recipients : List ℕ) :
    Clean (s.sendChat event recipients).2 := by
  unfold Server.sendChat
  split_ifs
  · exact h
  · exact Clean.foldl_deliver id
      (fun _ session => ⟨⟨.chatEvent, event⟩, session.protocolVersion, rfl⟩) recipients h

theorem Clean.handlePartyChat (h : Clean s) (id : ℕ) (user : UserContext)
    (request : ChatSendRequest) : Clean (s.handlePartyChat id user request).2 := by
  unfold Server.handlePartyChat
  split
  · exact h
  · rename_i partyId recipients _
    have hsend := h.sendChat ⟨.party, UInt64.ofNat partyId, user.userId, request.message⟩ recipients
    simp only []
    split
    · rename_i heq
      rw [heq] at hsend
      exact hsend
    · rename_i heq
      rw [heq] at hsend
      exact hsend

theorem Clean.handleChat (h : Clean s) (id : ℕ) (payload : Bytes) :
    Clean (s.handleChat id payload).2 := by
  unfold Server.handleChat
  simp only []
  split
  · exact h
  · rename_i request user _
    by_cases hglobal : request.channel = .global
    · rw [if_pos hglobal]
      exact h.sendChat _ _
    rw [if_neg hglobal]
    by_cases hparty : request.channel = .party
    · rw [if_pos hparty]
      exact h.handlePartyChat id user request
    · rw [if_neg hparty]
      exact h

end Handlers

section Steps

variable [InventoryStorage σ]

theorem Clean.dispatch (h : Clean s) (id : ℕ) (header : FrameHeader) (body : Bytes) (now : Time) :
    Clean (s.dispatch id header body now).2 := by
  unfold Server.dispatch
  split
  · exact h.handleLogin id body now
  · exact h.handleLogout id body
  · exact h.handleReconnect id body now
  · exact h.handleMatch id header.version body now
  · exact h.of_heap (handleEnter_heap ..)
  · exact h.of_heap (handleResult_heap ..)
  · exact h.of_heap (handleInventoryUpdate_heap ..)
  · exact h.handleGuildCreate id body
  · exact h.handleGuildJoin id body
  · exact h.handleGuildLeave id body
  · exact h.handleChat id body
  · exact h

theorem Clean.handlePacket (h : Clean s) (id : ℕ) (header : FrameHeader) (payload : Bytes)
    (now : Time) : Clean (s.handlePacket id header payload now).2 := by
  rcases s.handlePacket_cases id header payload now with
    ⟨-, heq⟩ | ⟨session, session', hsession, hway⟩
  · rw [heq]
    exact h
  have hreceive : ∀ gated, s.gatePacket session header payload now = (gated, session') →
      Clean (s.receive id session' payload) := by
    intro gated hg
    have hkept := gatePacket_reads (f := fun session => (session.bucket, session.sendQueue))
      (fun sec session => by unfold admitted Session.recordNonce; split_ifs <;> rfl) s session header
      payload now
    rw [hg] at hkept
    obtain ⟨hbucket, hqueue⟩ := Prod.mk.inj hkept
    exact h.insert hsession fun hc => hc.same hbucket hqueue
  rcases hway with ⟨hg, heq⟩ | ⟨reject, hg, heq⟩ | ⟨body, hg, heq⟩
  · rw [heq]
    exact hreceive _ hg
  · rw [heq]
    exact hreceive _ hg
  · rw [heq]
    exact (hreceive _ hg).dispatch id header body now

omit [InventoryStorage σ] in
theorem Clean.removeSession (h : Clean s) (id : ℕ) : Clean (s.removeSession id) := by
  have hforget : ∀ s : Server σ, Clean s → Clean (s.forgetSession id) := by
    intro s hs
    unfold forgetSession
    exact Clean.deliverGuildEvents (s := { s with
      registry := s.registry.removeSession id
      partyService := (s.partyService.removeMember id).2.2
      guildService := (s.guildService.removeMember id).2.2 }) hs _
  unfold Server.removeSession
  split_ifs
  · exact hforget _ (h.modify id fun _ hc => hc.same rfl rfl)
  · exact hforget s h

omit [InventoryStorage σ] in
theorem Clean.tick (h : Clean s) (now : Time) : Clean (s.tick now) := by
  have hticked : Clean (s.tickSessions now).2 := by
    unfold tickSessions
    refine List.foldlRecOn (motive := fun p : List ℕ × Server σ => Clean p.2) _ _ h ?_
    rintro ⟨toRemove, t⟩ ht id -
    simp only []
    split
    · exact ht
    · rename_i session hs
      exact ht.insert hs fun hc => hc.tick now
  exact stable (I := fun s : Server σ => Clean s) (fun _ id hs => hs.removeSession id) _ hticked

/-- Sessions may hold back less than 4 GiB, and the transport enqueues nothing but messages. -/
def Decent : ServerEvent → Prop
  | .createSession config _ => config.rateLimitCapacity < 2 ^ 32
  | .session _ (.enqueueSend payload _) => Sent payload
  | _ => True

theorem Clean.step (h : Clean s) {e : ServerEvent} (he : Decent e) : Clean (serverStep s e) := by
  cases e with
  | createSession config now => exact Dict.All.insert h ⟨he, by simp [Session.new]⟩
  | packet id header payload now => exact h.handlePacket id header payload now
  | tick now => exact h.tick now
  | removeSession id => exact h.removeSession id
  | forceDisconnect id =>
    show Clean (s.forceDisconnect id).2
    unfold Server.forceDisconnect
    split
    · exact h
    · exact h.removeSession id
  | party call => exact h
  | inst call => exact h
  | session id call =>
    refine h.modify id fun session hc => hc.call fun payload now heq => ?_
    subst heq
    exact he

end Steps

section Wire

variable [InventoryStorage σ]

omit [InventoryStorage σ] in
/-- What an event takes from the session's queue for the wire. -/
def dequeued (s : Server σ) (id : ℕ) : ServerEvent → Option Bytes
  | .session k .dequeueSend =>
    if k = id then s.heap[id]?.bind fun session => session.dequeueSend.1 else none
  | _ => none

/-- What goes over the wire of a session in a run. -/
def wire (s : Server σ) (es : List ServerEvent) (id : ℕ) : List Bytes :=
  (trail serverStep s es).filterMap fun x => x.1.dequeued id x.2

omit [InventoryStorage σ] in
theorem Clean.dequeued (h : Clean s) {e : ServerEvent} {frame : Bytes}
    (hf : s.dequeued id e = some frame) : Sent frame ∧ frame.length < 2 ^ 32 := by
  unfold Server.dequeued at hf
  split at hf
  · split_ifs at hf with hid
    obtain ⟨session, hs, hf⟩ := Option.bind_eq_some_iff.mp hf
    refine (h id session hs).frames frame ?_
    unfold Session.dequeueSend at hf
    split at hf
    · simp at hf
    · rename_i payload queue hqueue
      obtain rfl : payload = frame := by simpa using hf
      simp [hqueue]
  · cases hf

theorem wire_clean (h : Clean s) {es : List ServerEvent} (hes : ∀ e ∈ es, Decent e) (id : ℕ) :
    ∀ frame ∈ s.wire es id, Sent frame ∧ frame.length < 2 ^ 32 := by
  intro frame hf
  obtain ⟨x, hx, hframe⟩ := List.mem_filterMap.mp hf
  have hclean : Clean x.1 := along (I := fun s : Server σ => Clean s) (P := fun _ e => Decent e)
    (fun _ _ hs he => hs.step he) es s h (fun x hx => hes x.2 (mem_of_mem_trail hx)) x hx
  exact hclean.dequeued hframe

omit [InventoryStorage σ] in
/-- Frames of messages, with what a decoder returns for them. -/
theorem exists_messages : ∀ {frames : List Bytes},
    (∀ frame ∈ frames, Sent frame ∧ frame.length < 2 ^ 32) →
    ∃ sent : List (Answer × UInt16), frames = sent.map (fun m => m.1.frame m.2) ∧
      ∀ m ∈ sent, (m.1.decoded m.2).1.length.toNat = (m.1.decoded m.2).2.length
  | [], _ => ⟨[], rfl, by simp⟩
  | frame :: frames, h => by
    rw [List.forall_mem_cons] at h
    obtain ⟨⟨⟨a, version, rfl⟩, hlength⟩, hrest⟩ := h
    obtain ⟨sent, rfl, hsent⟩ := exists_messages hrest
    refine ⟨(a, version) :: sent, rfl, List.forall_mem_cons.mpr ⟨?_, hsent⟩⟩
    refine UInt32.toNat_ofNat_of_lt' (Nat.lt_of_le_of_lt ?_ hlength)
    simp only [Answer.frame, encodeFrame, List.length_append]
    omega

/-- In every run whose sessions may hold back less than 4 GiB and whose transport enqueues nothing
but messages, what goes over the wire of a session is messages in frames, and however the client
reads it, it gets these messages in order; from the beginning of it, the first of them. -/
theorem streams_understood (inventoryStorage : σ) (securityPolicy : SecurityPolicy)
    (tokenBytes : Draws UInt8) (seeds : Draws { n : UInt32 // n ≠ 0 }) (ticketBytes : Draws UInt8)
    (clock : Draws Time) (es : List ServerEvent) (hes : ∀ e ∈ es, Decent e) (id : ℕ) :
    let start := Server.new inventoryStorage securityPolicy tokenBytes seeds ticketBytes clock
    ∃ sent : List (Answer × UInt16),
      start.wire es id = sent.map (fun m => m.1.frame m.2) ∧
      ∀ pieces : List Bytes,
        (pieces.flatten = (start.wire es id).flatten →
          (FrameDecoder.reads {} pieces).map understand = sent.map fun m => some m.1.cut) ∧
        (pieces.flatten <+: (start.wire es id).flatten →
          (FrameDecoder.reads {} pieces).map understand <+: sent.map fun m => some m.1.cut) := by
  intro start
  obtain ⟨sent, hwire, hlengths⟩ := exists_messages
    (wire_clean (s := start) Dict.all_empty hes id)
  refine ⟨sent, hwire, fun pieces => ?_⟩
  have hbytes : (start.wire es id).flatten =
      (sent.map fun m => m.1.decoded m.2).flatMap frameBytes := by
    rw [hwire, List.flatMap_map]
    rfl
  have hunderstood : (sent.map fun m => m.1.decoded m.2).map understand =
      sent.map fun m => some m.1.cut := by
    rw [List.map_map]
    exact List.map_congr_left fun m _ => understand_decoded m.1 m.2
  have hframed : ∀ f ∈ sent.map fun m => m.1.decoded m.2, f.1.length.toNat = f.2.length :=
    List.forall_mem_map.mpr hlengths
  obtain ⟨hall, hsome⟩ := reads_frames hframed pieces
  rw [hbytes, ← hunderstood]
  exact ⟨fun h => by rw [hall h], fun h => (hsome h).map understand⟩

/-- A user founds a guild, and what the user is told goes over the wire. -/
def founded : List ServerEvent :=
  [.createSession {} 0, packetOf 1 .loginReq (encodeLoginRequest ⟨str "u", str "letmein"⟩),
    packetOf 1 .guildCreateReq (encodeGuildCreateRequest ⟨str "g"⟩), .session 1 .dequeueSend]

theorem streams_understood_founded :
    ∃ sent : List (Answer × UInt16), sent.length = 1 ∧
      (FrameDecoder.reads {} ((still {}).wire founded 1)).map understand =
        sent.map fun m => some m.1.cut := by
  have hdecent : ∀ e ∈ founded, Decent e := by
    simp only [founded, packetOf, List.forall_mem_cons, Decent]
    norm_num
  obtain ⟨sent, hwire, hread⟩ := streams_understood defaultStorage {} (fun _ => 0)
    (fun _ => ⟨1, by decide⟩) (fun _ => 0) (fun _ => 0) founded hdecent 1
  have hone : ((still {}).wire founded 1).length = 1 := by decide +kernel
  refine ⟨sent, ?_, (hread _).1 rfl⟩
  have hlength := congrArg List.length hwire
  rw [List.length_map] at hlength
  exact hlength.symm.trans hone

end Wire

end Server

end DungeonHub
