import DungeonHub.Reward
import DungeonHub.Server

/-!
# The packet handlers

`Server::handlePacket`. A handler is a chain of checks, each with its own refusal, and then what the
packet does; the checks of a handler that come before its first change of the state stand in a
function of their own.
-/

namespace DungeonHub

open Wire

section Checks

variable {α ρ : Type}

/-- The value, or the refusal. -/
def orRefuse (o : Option α) (refusal : ρ) : Except ρ α :=
  match o with
  | some a => .ok a
  | none => .error refusal

/-- The decoded message, or the refusal. -/
def decodedOr (d : Except Fault α) (refusal : ρ) : Except ρ α :=
  match d with
  | .ok a => .ok a
  | .error _ => .error refusal

/-- Go on if the condition holds, else the refusal. -/
def unlessRefuse (p : Prop) [Decidable p] (refusal : ρ) : Except ρ Unit :=
  if p then .ok () else .error refusal

end Checks

/-- An answer: a packet type and its message. -/
structure Answer where
  type : PacketType
  payload : type.Payload
  deriving DecidableEq

/-- The frame that carries the answer. -/
def Answer.frame (a : Answer) (version : UInt16) : Bytes :=
  encodeFrame a.type.code version (Message.encode a.payload)

namespace Server

variable {σ : Type}

section Login

def handleLogin (s : Server σ) (id : ℕ) (payload : Bytes) (now : Time) :
    LoginResponse × Server σ :=
  let check : Except LoginResponse LoginRequest := do
    let request ← decodedOr (decodeLoginRequest payload)
      { message := str "Malformed login payload" }
    unlessRefuse (request.password = str "letmein") { message := str "Invalid credentials" }
    unlessRefuse (s.registry.heldByOther request.userId id = none)
      { message := str "User already logged in" }
    return request
  match check with
  | .error response => (response, s.countError)
  | .ok request =>
    let (token, tokenService) := s.tokenService.issueToken request.userId now
    let context : UserContext := ⟨request.userId, token⟩
    let s := { s.modifySession id (·.attachUserContext context) with tokenService }
    match s.registry.registerSession id context with
    | (false, _) => ({ message := str "User already logged in" }, s.countError)
    | (true, registry) =>
      ({ accepted := true, token, message := str "Login accepted" }, { s with registry })

def handleLogout (s : Server σ) (id : ℕ) (payload : Bytes) : LogoutResponse × Server σ :=
  match decodeLogoutRequest payload with
  | .error _ => ({ message := str "Malformed logout payload" }, s.countError)
  | .ok _ =>
    ({ success := true, message := str "Logout successful" },
      { s.modifySession id Session.clearUserContext with
        registry := s.registry.removeSession id })

/-- `auto it = m.find(from); if (it != m.end()) { m[to] = it->second; m.erase(it); }`. -/
def moveKey {V : Type} (m : Dict ℕ V) (source target : ℕ) : Dict ℕ V :=
  match m[source]? with
  | none => m
  | some v => (m.insert target v).erase source

/-- What a reconnect does to the session that holds the user: session `id` takes its places, and the
server forgets it. -/
def takeOver (s : Server σ) (existing id : ℕ) : Server σ :=
  let s := match s.findSession existing with
    | none => s
    | some _ =>
      { s.modifySession existing Session.clearUserContext with
        partyService := (s.partyService.replaceMemberSession existing id).2
        guildService := (s.guildService.replaceMemberSession existing id).2
        sessionInstances := moveKey s.sessionInstances existing id
        sessionCharacters := moveKey s.sessionCharacters existing id
        sessions := s.sessions.erase existing }
  { s with registry := s.registry.removeSession existing }

/-- The sequence number of the session that is taken over, 0 if none is. -/
def previousLastSeq (s : Server σ) (existing : Option ℕ) : UInt64 :=
  match existing.bind s.findSession with
  | none => 0
  | some session => session.lastSeq

def handleReconnect (s : Server σ) (id : ℕ) (payload : Bytes) (now : Time) :
    SessionReconnectResponse × Server σ :=
  match decodeSessionReconnectRequest payload with
  | .error _ => ({ message := str "Malformed reconnect payload" }, s.countError)
  | .ok request =>
    let (user, tokenService) := s.tokenService.validateToken request.token now
    let s := { s with tokenService }
    match user with
    | none => ({ message := str "Invalid or expired token" }, s.countError)
    | some userId =>
      let existing := s.registry.heldByOther userId id
      let previousLastSeq := s.previousLastSeq existing
      let s := match existing with
        | none => s
        | some existing => s.takeOver existing id
      let context : UserContext := ⟨userId, request.token⟩
      let s := s.modifySession id (·.attachUserContext context)
      match s.registry.registerSession id context with
      | (false, _) => ({ message := str "User already logged in" }, s.countError)
      | (true, registry) =>
        let restoredLastSeq := max request.lastSeq.toUInt64 previousLastSeq
        ({ success := true
           message := str "Reconnect accepted"
           sessionId := UInt64.ofNat id
           resumeFromSeq := (restoredLastSeq + 1).toUInt32 },
          { s.modifySession id (·.setLastSeq restoredLastSeq) with registry })

end Login

section Match

/-- The checks of a match request: its party, and the party's members. -/
def checkMatch (s : Server σ) (id : ℕ) (payload : Bytes) :
    Except MatchFoundNotify (ℕ × PartyInfo) := do
  let request ← decodedOr (decodeMatchRequest payload)
    { code := str "MALFORMED", message := str "Malformed match request" }
  let _ ← orRefuse (s.userContext id)
    { code := str "UNAUTHENTICATED", message := str "Authentication required" }
  let partyId ← if request.partyId = 0 then
      orRefuse (s.partyService.partyForMember id)
        { code := str "NO_PARTY", message := str "Not in a party" }
    else .ok request.partyId.toNat
  let info ← orRefuse (s.partyService.getPartyInfo partyId)
    { code := str "PARTY_NOT_FOUND", message := str "Party not found" }
  unlessRefuse (info.members.any fun member => member.sessionId = id)
    { code := str "NOT_PARTY_MEMBER", message := str "Not authorized for match" }
  return (partyId, info)

/-- One member of a party that got an instance: the session is bound to it, and told of it unless
it is the one that asked. -/
def bindMember (s : Server σ) (instanceId : ℕ) (frame : Bytes) (asked : ℕ → Bool)
    (member : PartyMember) : Server σ :=
  match s.findSession member.sessionId with
  | none => s
  | some _ =>
    let s := { s with
      sessionInstances := s.sessionInstances.insert member.sessionId instanceId }
    if asked member.sessionId then s else s.deliver member.sessionId fun _ => frame

/-- A new instance of a party: its ticket and seed, and its members bound to it. -/
def openInstance (s : Server σ) (instanceId partyId : ℕ) (version : UInt16) (asked : ℕ → Bool) :
    MatchFoundNotify × Server σ :=
  let (bytes, ticketBytes) := s.ticketBytes.take 16
  let ticket := toHex false bytes
  let (seed, seeds) := s.seeds.next
  let s := { s with
    ticketBytes, seeds
    partyInstances := s.partyInstances.insert partyId instanceId
    instanceTickets := s.instanceTickets.insert instanceId ticket
    instanceSeeds := s.instanceSeeds.insert instanceId seed.val }
  let notify : MatchFoundNotify := {
    success := true
    code := str "OK"
    message := str "Match found"
    partyId := UInt64.ofNat partyId
    instanceId := UInt64.ofNat instanceId
    endpoint := str "dungeon.local:7777"
    ticket }
  let frame := encodeFrame PacketType.matchFoundNotify.code version (encodeMatchFoundNotify notify)
  let members := match s.partyService.getPartyInfo partyId with
    | none => []
    | some info => info.members
  (notify, members.foldl (fun s member => s.bindMember instanceId frame asked member) s)

/-- The loop over the matched candidates, with the answer for the party that asked as far as it is
known. -/
def matchLoop (id partyId : ℕ) (version : UInt16) :
    List MatchCandidate → Option MatchFoundNotify → Server σ → MatchFoundNotify × Server σ
  | [], some notify, s => (notify, s)
  | [], none, s =>
    ({ code := str "MATCH_NOT_FOUND", message := str "Match not found" }, s.countError)
  | candidate :: rest, requester, s =>
    match s.instanceManager.createInstance candidate.partyId s.partyService with
    | (none, _) =>
      ({ code := str "INSTANCE_FAILED", message := str "Unable to create dungeon instance" },
        s.countError)
    | (some instanceId, instanceManager) =>
      let (notify, s) := openInstance { s with instanceManager } instanceId candidate.partyId
        version fun member => candidate.partyId = partyId && member = id
      matchLoop id partyId version rest
        (if candidate.partyId = partyId then some notify else requester) s

def handleMatch (s : Server σ) (id : ℕ) (version : UInt16) (payload : Bytes) (now : Time) :
    MatchFoundNotify × Server σ :=
  match s.checkMatch id payload with
  | .error response => (response, s.countError)
  | .ok (partyId, info) =>
    let candidate : MatchCandidate :=
      { partyId, partySize := info.members.length, enqueueTime := now }
    match s.matchQueue.enqueue candidate with
    | (false, _) =>
      ({ code := str "QUEUE_REJECTED", message := str "Unable to enqueue for match" },
        s.countError)
    | (true, queue) =>
      match queue.findMatch now with
      | (some (first, second), matchQueue) =>
        matchLoop id partyId version [first, second] none { s with matchQueue }
      | (none, queue) =>
        matchLoop id partyId version [candidate] none
          { s with matchQueue := (queue.cancel partyId).2 }

end Match

section Dungeon

/-- The checks of a request to enter, before the instance's own state is asked. -/
def checkEnter (s : Server σ) (id : ℕ) (payload : Bytes) :
    Except DungeonEnterResponse DungeonEnterRequest := do
  let request ← decodedOr (decodeDungeonEnterRequest payload)
    { code := str "MALFORMED", message := str "Malformed dungeon enter payload" }
  let _ ← orRefuse (s.userContext id)
    { code := str "UNAUTHENTICATED", message := str "Authentication required" }
  let inst ← orRefuse (s.instanceManager.getInstance request.instanceId.toNat)
    { code := str "INSTANCE_NOT_FOUND", message := str "Dungeon instance not found" }
  unlessRefuse (s.instanceTickets[request.instanceId.toNat]? = some request.ticket)
    { code := str "INVALID_TICKET", message := str "Invalid enter ticket" }
  let info ← orRefuse (s.partyService.getPartyInfo inst.partyId)
    { code := str "PARTY_NOT_FOUND", message := str "Party not found for instance" }
  unlessRefuse (info.members.any fun member => member.sessionId = id)
    { code := str "NOT_PARTY_MEMBER", message := str "Not authorized for instance" }
  return request

def handleEnter (s : Server σ) (id : ℕ) (payload : Bytes) : DungeonEnterResponse × Server σ :=
  match s.checkEnter id payload with
  | .error response => (response, s.countError)
  | .ok request =>
    let instanceId := request.instanceId.toNat
    match s.instanceManager.requestTransition instanceId .ready s.partyService with
    | (false, _) =>
      ({ code := str "INVALID_STATE", message := str "Dungeon not ready to enter" }, s.countError)
    | (true, instanceManager) =>
      -- instance_seeds_[...] puts a 0 there if it has no entry
      let seed := s.instanceSeeds.getD instanceId 0
      ({ success := true
         code := str "OK"
         message := str "Dungeon entry accepted"
         state := .ready
         seed },
        { s with
          instanceManager
          sessionCharacters := s.sessionCharacters.insert id request.charId
          sessionInstances := s.sessionInstances.insert id instanceId
          instanceSeeds := s.instanceSeeds.insert instanceId seed })

/-- A refused dungeon result. -/
def resultRejected (code message : String) : DungeonResultResponse :=
  { code := str code, message := str message, summary := str "result rejected" }

/-- The checks of a dungeon result before the instance changes its state: the result and the
instance it is for. -/
def checkResult (s : Server σ) (id : ℕ) (payload : Bytes) :
    Except DungeonResultResponse (DungeonResultNotify × ℕ) := do
  let request ← decodedOr (decodeDungeonResultNotify payload)
    (resultRejected "MALFORMED" "Malformed dungeon result payload")
  let _ ← orRefuse (s.userContext id)
    (resultRejected "UNAUTHENTICATED" "Authentication required")
  let instanceId ← orRefuse s.sessionInstances[id]?
    (resultRejected "NO_INSTANCE" "No active dungeon instance")
  let _ ← orRefuse (s.instanceManager.getInstance instanceId)
    (resultRejected "INSTANCE_NOT_FOUND" "Dungeon instance missing")
  unlessRefuse (s.instanceRewardGrants[instanceId]? = none)
    (resultRejected "REWARD_DUPLICATE" "Reward grant already processed")
  return (request, instanceId)

variable [InventoryStorage σ]

/-- The items added one after the other, up to the first that is refused. -/
def addItems (storage : σ) (charId : UInt64) (reason : Str) : List RewardItem → Bool × σ
  | [] => (true, storage)
  | item :: items =>
    match InventoryStorage.addItem storage charId item.itemId item.count reason with
    | (false, storage) => (false, storage)
    | (true, storage) => addItems storage charId reason items

/-- The items of a packet added in one transaction. -/
def addInTransaction (storage : σ) (charId : UInt64) (reason : Str) (items : List RewardItem) :
    Bool × σ :=
  let (transaction, storage) := InventoryStorage.beginTransaction storage
  match addItems storage charId reason items with
  | (false, storage) => (false, InventoryStorage.rollbackTransaction storage transaction)
  | (true, storage) => (true, InventoryStorage.commitTransaction storage transaction)

/-- What the result of an instance that has just ended gives: the rewards go to the session's
character, and the instance's grant is on record. -/
def grantResult (s : Server σ) (id instanceId : ℕ) (rewards : List RewardItem) :
    DungeonResultResponse × Server σ :=
  match s.sessionCharacters[id]? with
  | none =>
    (resultRejected "CHAR_NOT_SET" "Character not registered for session", s.countError)
  | some charId =>
    let items := rewards.map fun item => (⟨item.itemId, item.count⟩ : GrantItem)
    let grantId := s.nextRewardGrantId
    let s := { s with nextRewardGrantId := s.nextRewardGrantId + 1 }
    match (RewardService.grantRewardsDetailed {} grantId items).1 with
    | .duplicate =>
      (resultRejected "REWARD_DUPLICATE" "Reward grant already processed", s.countError)
    | .failed => (resultRejected "REWARD_FAILED" "Reward grant failed", s.countError)
    | .completed =>
      match addInTransaction s.inventoryStorage charId (str "dungeon_reward") rewards with
      | (false, inventoryStorage) =>
        (resultRejected "INVENTORY_FAILED" "Failed to update inventory",
          countError { s with inventoryStorage })
      | (true, inventoryStorage) =>
        ({ success := true
           code := str "OK"
           message := str "Dungeon result recorded"
           summary := str "result recorded" },
          { s with
            inventoryStorage
            instanceRewardGrants := s.instanceRewardGrants.insert instanceId grantId })

def handleResult (s : Server σ) (id : ℕ) (payload : Bytes) : DungeonResultResponse × Server σ :=
  match s.checkResult id payload with
  | .error response => (response, s.countError)
  | .ok (request, instanceId) =>
    let nextState := if request.result = .clear then InstanceState.clear else .fail
    match s.instanceManager.requestTransition instanceId nextState s.partyService with
    | (false, _) =>
      (resultRejected "INVALID_STATE" "Dungeon state transition rejected", s.countError)
    | (true, instanceManager) =>
      { s with instanceManager }.grantResult id instanceId request.rewards

def handleInventoryUpdate (s : Server σ) (id : ℕ) (payload : Bytes) :
    InventoryUpdateResponse × Server σ :=
  let check : Except InventoryUpdateResponse InventoryUpdateNotify := do
    let request ← decodedOr (decodeInventoryUpdateNotify payload)
      { code := str "MALFORMED", message := str "Malformed inventory update payload" }
    let _ ← orRefuse (s.userContext id)
      { code := str "UNAUTHENTICATED", message := str "Authentication required" }
    return request
  match check with
  | .error response => (response, s.countError)
  | .ok request =>
    let (ok, inventoryStorage) :=
      addInTransaction s.inventoryStorage request.charId (str "inventory_update") request.items
    ({ success := ok
       code := if ok then str "OK" else str "INVENTORY_FAILED"
       message := if ok then str "Inventory updated" else str "Failed to update inventory"
       inventoryVersion := UInt64.ofNat
         (InventoryStorage.changeLog inventoryStorage request.charId).length },
      { s with inventoryStorage })

end Dungeon

section Guild

def handleGuildCreate (s : Server σ) (id : ℕ) (payload : Bytes) : GuildCreateResponse × Server σ :=
  let check : Except GuildCreateResponse (GuildCreateRequest × UserContext) := do
    let request ← decodedOr (decodeGuildCreateRequest payload)
      { message := str "Malformed guild create payload" }
    let user ← orRefuse (s.userContext id) { message := str "Authentication required" }
    return (request, user)
  match check with
  | .error response => (response, s.countError)
  | .ok (request, user) =>
    let (guildId, events, guildService) :=
      s.guildService.createGuild id user.userId request.guildName
    let s := { s with guildService }.deliverGuildEvents events
    match guildId with
    | none => ({ message := str "Unable to create guild" }, s.countError)
    | some guildId =>
      ({ success := true, guildId := UInt64.ofNat guildId, message := str "Guild created" }, s)

def handleGuildJoin (s : Server σ) (id : ℕ) (payload : Bytes) : GuildJoinResponse × Server σ :=
  let check : Except GuildJoinResponse (GuildJoinRequest × UserContext) := do
    let request ← decodedOr (decodeGuildJoinRequest payload)
      { message := str "Malformed guild join payload" }
    let user ← orRefuse (s.userContext id) { message := str "Authentication required" }
    return (request, user)
  match check with
  | .error response => (response, s.countError)
  | .ok (request, user) =>
    let (success, events, guildService) :=
      s.guildService.joinGuild request.guildId.toNat id user.userId
    ({ success
       message := if success then str "Joined guild" else str "Unable to join guild" },
      { s with guildService }.deliverGuildEvents events)

/-- The checks of a request to leave a guild: the guild it is about. -/
def checkGuildLeave (s : Server σ) (id : ℕ) (payload : Bytes) : Except GuildLeaveResponse ℕ := do
  let request ← decodedOr (decodeGuildLeaveRequest payload)
    { message := str "Malformed guild leave payload" }
  let _ ← orRefuse (s.userContext id) { message := str "Authentication required" }
  if request.guildId = 0 then
    orRefuse (s.guildService.guildForMember id) { message := str "Not in a guild" }
  else .ok request.guildId.toNat

def handleGuildLeave (s : Server σ) (id : ℕ) (payload : Bytes) : GuildLeaveResponse × Server σ :=
  match s.checkGuildLeave id payload with
  | .error response => (response, s.countError)
  | .ok guildId =>
    let (success, events, guildService) := s.guildService.leaveGuild guildId id
    ({ success, message := if success then str "Left guild" else str "Unable to leave guild" },
      { s with guildService }.deliverGuildEvents events)

end Guild

section Chat

/-- `ChatService::sendGlobal` and `sendParty` with the server's sink: whether the message is sent
to the recipients, and the server after it. -/
def sendChat (s : Server σ) (event : ChatEvent) (recipients : List ℕ) : Bool × Server σ :=
  if event.message = [] ∨ recipients = [] then (false, s)
  else (true, recipients.foldl (fun s recipient => s.deliver recipient fun session =>
    encodeFrame PacketType.chatEvent.code session.protocolVersion (encodeChatEvent event)) s)

/-- The sessions that a global message goes to: those the server knows and that are logged in. -/
def loggedIn (s : Server σ) : List ℕ :=
  s.sessions.keys.filter fun id => (s.userContext id).isSome

/-- The checks of a party message: the party, and its members' sessions. -/
def checkPartyChat (s : Server σ) (id : ℕ) (request : ChatSendRequest) :
    Except ChatSendResponse (ℕ × List ℕ) := do
  let partyId ← if request.partyId = 0 then
      orRefuse (s.partyService.partyForMember id) { message := str "Not in a party" }
    else .ok request.partyId.toNat
  let info ← orRefuse (s.partyService.getPartyInfo partyId) { message := str "Party not found" }
  unlessRefuse (info.members.any fun member => member.sessionId = id)
    { message := str "Not authorized for party chat" }
  return (partyId, info.members.map PartyMember.sessionId)

def handlePartyChat (s : Server σ) (id : ℕ) (user : UserContext) (request : ChatSendRequest) :
    ChatSendResponse × Server σ :=
  match s.checkPartyChat id request with
  | .error response => (response, s.countError)
  | .ok (partyId, recipients) =>
    let event : ChatEvent := {
      channel := .party
      partyId := UInt64.ofNat partyId
      senderUserId := user.userId
      message := request.message }
    match s.sendChat event recipients with
    | (false, s) => ({ message := str "Failed to deliver party chat" }, s.countError)
    | (true, s) => ({ success := true, message := str "Party chat delivered" }, s)

def handleChat (s : Server σ) (id : ℕ) (payload : Bytes) : ChatSendResponse × Server σ :=
  let check : Except ChatSendResponse (ChatSendRequest × UserContext) := do
    let request ← decodedOr (decodeChatSendRequest payload)
      { message := str "Malformed chat payload" }
    let user ← orRefuse (s.userContext id) { message := str "Authentication required" }
    unlessRefuse (request.message ≠ []) { message := str "Chat message cannot be empty" }
    return (request, user)
  match check with
  | .error response => (response, s.countError)
  | .ok (request, user) =>
    if request.channel = .global then
      let event : ChatEvent := {
        channel := .global
        senderUserId := user.userId
        message := request.message }
      let (success, s) := s.sendChat event s.loggedIn
      ({ success
         message := if success then str "Global chat delivered"
           else str "Failed to deliver global chat" }, s)
    else if request.channel = .party then s.handlePartyChat id user request
    else ({ message := str "Unknown chat channel" }, s.countError)

end Chat

section Packet

variable [InventoryStorage σ]

/-- The `switch` over the packet type. -/
def dispatch (s : Server σ) (id : ℕ) (header : FrameHeader) (payload : Bytes) (now : Time) :
    Option Answer × Server σ :=
  match PacketType.ofCode header.type with
  | some .loginReq =>
    let (r, s) := s.handleLogin id payload now
    (some ⟨.loginRes, r⟩, s)
  | some .logoutReq =>
    let (r, s) := s.handleLogout id payload
    (some ⟨.logoutRes, r⟩, s)
  | some .sessionReconnectReq =>
    let (r, s) := s.handleReconnect id payload now
    (some ⟨.sessionReconnectRes, r⟩, s)
  | some .matchReq =>
    let (r, s) := s.handleMatch id header.version payload now
    (some ⟨.matchFoundNotify, r⟩, s)
  | some .dungeonEnterReq =>
    let (r, s) := s.handleEnter id payload
    (some ⟨.dungeonEnterRes, r⟩, s)
  | some .dungeonResultNotify =>
    let (r, s) := s.handleResult id payload
    (some ⟨.dungeonResultRes, r⟩, s)
  | some .inventoryUpdateNotify =>
    let (r, s) := s.handleInventoryUpdate id payload
    (some ⟨.inventoryUpdateRes, r⟩, s)
  | some .guildCreateReq =>
    let (r, s) := s.handleGuildCreate id payload
    (some ⟨.guildCreateRes, r⟩, s)
  | some .guildJoinReq =>
    let (r, s) := s.handleGuildJoin id payload
    (some ⟨.guildJoinRes, r⟩, s)
  | some .guildLeaveReq =>
    let (r, s) := s.handleGuildLeave id payload
    (some ⟨.guildLeaveRes, r⟩, s)
  | some .chatSendReq =>
    let (r, s) := s.handleChat id payload
    (some ⟨.chatSendRes, r⟩, s)
  | _ => (none, s.countError)

/-- The packet is counted, and its session has received it. -/
def receive (s : Server σ) (id : ℕ) (session : Session) (payload : Bytes) : Server σ :=
  { s with
    heap := s.heap.insert id session
    metrics := { s.metrics with
      packetsTotal := s.metrics.packetsTotal + 1
      bytesTotal := s.metrics.bytesTotal + payload.length } }

/-- What the gate makes of a packet on a session, and the session after it. -/
def gatePacket (s : Server σ) (session : Session) (header : FrameHeader) (payload : Bytes)
    (now : Time) : Gated × Session :=
  gate s.securityPolicy header payload
    ((session.onReceive now).setProtocolVersion header.version)

/-- `Server::handlePacket` on the session with the id, up to the framing of its answer. -/
def answerPacket (s : Server σ) (id : ℕ) (header : FrameHeader) (payload : Bytes) (now : Time) :
    Option Answer × Server σ :=
  match s.heap[id]? with
  | none => (none, s)
  | some session =>
    match s.gatePacket session header payload now with
    | (.dropped, session) => (none, (s.receive id session payload).countError)
    | (.rejected reject, session) =>
      (some ⟨.versionReject, reject⟩, (s.receive id session payload).countError)
    | (.passed inner, session) => (s.receive id session payload).dispatch id header inner now

def handlePacket (s : Server σ) (id : ℕ) (header : FrameHeader) (payload : Bytes) (now : Time) :
    Option Bytes × Server σ :=
  let (answer, s) := s.answerPacket id header payload now
  (answer.map fun a => a.frame header.version, s)

end Packet

end Server

/-! ## Runs of the server -/

/-- A call on the service behind `partyService()`. -/
inductive PartyCall where
  | createParty (leaderSessionId : ℕ) (leaderUserId : Str)
  | inviteMember (partyId inviterSessionId inviteeSessionId : ℕ) (inviteeUserId : Str) (now : Time)
  | acceptInvite (partyId inviteeSessionId : ℕ) (now : Time)
  | rejectInvite (partyId inviteeSessionId : ℕ)
  | disbandParty (partyId requesterSessionId : ℕ)
  | removeMember (memberSessionId : ℕ)
  | replaceMemberSession (oldSessionId newSessionId : ℕ)
  | expireInvites (now : Time)
  | setEventSink (sink : Bool)
  | setInviteTimeout (timeout : Time)

/-- The party service a call leaves. -/
def PartyService.call (s : PartyService) : PartyCall → PartyService
  | .createParty leader user => (s.createParty leader user).2.2
  | .inviteMember party inviter invitee user now =>
    (s.inviteMember party inviter invitee user now).2.2
  | .acceptInvite party invitee now => (s.acceptInvite party invitee now).2.2
  | .rejectInvite party invitee => (s.rejectInvite party invitee).2.2
  | .disbandParty party requester => (s.disbandParty party requester).2.2
  | .removeMember member => (s.removeMember member).2.2
  | .replaceMemberSession old new => (s.replaceMemberSession old new).2
  | .expireInvites now => (s.expireInvites now).2.2
  | .setEventSink sink => s.setEventSink sink
  | .setInviteTimeout timeout => s.setInviteTimeout timeout

/-- A call on the guild service, which the server makes itself. -/
inductive GuildCall where
  | createGuild (leaderSessionId : ℕ) (leaderUserId guildName : Str)
  | joinGuild (guildId memberSessionId : ℕ) (memberUserId : Str)
  | leaveGuild (guildId memberSessionId : ℕ)
  | removeMember (memberSessionId : ℕ)
  | replaceMemberSession (oldSessionId newSessionId : ℕ)

/-- The guild service a call leaves. -/
def GuildService.call (s : GuildService) : GuildCall → GuildService
  | .createGuild leader user name => (s.createGuild leader user name).2.2
  | .joinGuild guild member user => (s.joinGuild guild member user).2.2
  | .leaveGuild guild member => (s.leaveGuild guild member).2.2
  | .removeMember member => (s.removeMember member).2.2
  | .replaceMemberSession old new => (s.replaceMemberSession old new).2

/-- A call on the manager behind `instanceManager()`. -/
inductive InstanceCall where
  | createInstance (partyId : ℕ)
  | terminateInstance (instanceId : ℕ)
  | requestTransition (instanceId : ℕ) (nextState : InstanceState)

/-- The instance manager a call leaves. -/
def InstanceManager.call (m : InstanceManager) (partyService : PartyService) :
    InstanceCall → InstanceManager
  | .createInstance party => (m.createInstance party partyService).2
  | .terminateInstance instanceId => (m.terminateInstance instanceId).2
  | .requestTransition instanceId next =>
    (m.requestTransition instanceId next partyService).2

/-- A call of the transport on a session object. -/
inductive SessionCall where
  | onReceive (now : Time)
  | enqueueSend (payload : Bytes) (now : Time)
  | dequeueSend
  | markHeartbeatSent (now : Time)
  | markTlsEstablished (handshakeTime : Time)
  | tick (now : Time)

/-- The session a call leaves. -/
def Session.call (s : Session) : SessionCall → Session
  | .onReceive now => s.onReceive now
  | .enqueueSend payload now => (s.enqueueSend payload now).2
  | .dequeueSend => s.dequeueSend.2
  | .markHeartbeatSent now => s.markHeartbeatSent now
  | .markTlsEstablished handshakeTime => s.markTlsEstablished handshakeTime
  | .tick now => (s.tick now).2

/-- What can happen to a server. -/
inductive ServerEvent where
  | createSession (config : SessionConfig) (now : Time)
  | packet (id : ℕ) (header : FrameHeader) (payload : Bytes) (now : Time)
  | tick (now : Time)
  | removeSession (id : ℕ)
  | forceDisconnect (id : ℕ)
  | party (call : PartyCall)
  | inst (call : InstanceCall)
  | session (id : ℕ) (call : SessionCall)

/-- The server after an event. -/
def serverStep {σ : Type} [InventoryStorage σ] (s : Server σ) : ServerEvent → Server σ
  | .createSession config now => s.createSession config now
  | .packet id header payload now => (s.handlePacket id header payload now).2
  | .tick now => s.tick now
  | .removeSession id => s.removeSession id
  | .forceDisconnect id => (s.forceDisconnect id).2
  | .party call => { s with partyService := s.partyService.call call }
  | .inst call => { s with instanceManager := s.instanceManager.call s.partyService call }
  | .session id call => s.modifySession id (·.call call)

end DungeonHub
