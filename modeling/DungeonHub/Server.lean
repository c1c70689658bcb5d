import DungeonHub.Dungeon
import DungeonHub.Guild
import DungeonHub.Inventory
import DungeonHub.Message
import DungeonHub.Security

/-!
# The server's state and its sessions

`server.cpp` without the packet handlers. The objects behind `std::shared_ptr<Session>` are kept in
`heap`, since a caller may hold on to a session that the server has dropped; the keys of `sessions_`
are the ids the server knows. Counted ids are natural numbers, and are cut to 64 bits where they are
sent. What only goes to the log is left out.
-/

namespace DungeonHub

open Wire

structure SecurityPolicy where
  requireTls : Bool := false
  requireHmac : Bool := false
  enableReplayProtection : Bool := false
  hmacKey : Str := str "dev-secret"

structure Metrics where
  packetsTotal : ℕ := 0
  bytesTotal : ℕ := 0
  errorTotal : ℕ := 0
  deriving DecidableEq

section Registry

structure SessionRegistry where
  records : Dict ℕ UserContext := ∅
  activeUsers : Dict Str ℕ := ∅

namespace SessionRegistry

def hasUser (r : SessionRegistry) (userId : Str) : Option ℕ := r.activeUsers[userId]?

/-- The session that holds the user, if it is another one. -/
def heldByOther (r : SessionRegistry) (userId : Str) (id : ℕ) : Option ℕ :=
  (r.hasUser userId).filter fun existing => existing ≠ id

def registerSession (r : SessionRegistry) (id : ℕ) (record : UserContext) :
    Bool × SessionRegistry :=
  match r.heldByOther record.userId id with
  | some _ => (false, r)
  | none =>
    let activeUsers := match r.records[id]? with
      | some previous => r.activeUsers.erase previous.userId
      | none => r.activeUsers
    (true, ⟨r.records.insert id record, activeUsers.insert record.userId id⟩)

def removeSession (r : SessionRegistry) (id : ℕ) : SessionRegistry :=
  match r.records[id]? with
  | none => r
  | some record => ⟨r.records.erase id, r.activeUsers.erase record.userId⟩

def find (r : SessionRegistry) (id : ℕ) : Option UserContext := r.records[id]?

end SessionRegistry

end Registry

/-- The server over an inventory storage `σ`. The random sources are what they will yield: the seed
of each instance, the bytes of each ticket, and the readings of the clock as events are sent. -/
structure Server (σ : Type) where
  nextId : ℕ := 1
  heap : Dict ℕ Session := ∅
  sessions : Dict ℕ Unit := ∅
  registry : SessionRegistry := {}
  tokenService : TokenService
  partyService : PartyService := {}
  guildService : GuildService := { eventSink := true }
  matchQueue : MatchQueue := {}
  instanceManager : InstanceManager := {}
  inventoryStorage : σ
  partyInstances : Dict ℕ ℕ := ∅
  instanceTickets : Dict ℕ Str := ∅
  instanceSeeds : Dict ℕ UInt32 := ∅
  instanceRewardGrants : Dict ℕ ℕ := ∅
  sessionInstances : Dict ℕ ℕ := ∅
  sessionCharacters : Dict ℕ UInt64 := ∅
  seeds : Draws { n : UInt32 // n ≠ 0 }
  ticketBytes : Draws UInt8
  clock : Draws Time
  nextRewardGrantId : ℕ := 1
  metrics : Metrics := {}
  securityPolicy : SecurityPolicy := {}

namespace Server

variable {σ : Type}

/-- A server as it starts, with the random sources it will draw from. -/
def new (inventoryStorage : σ) (securityPolicy : SecurityPolicy) (tokenBytes : Draws UInt8)
    (seeds : Draws { n : UInt32 // n ≠ 0 }) (ticketBytes : Draws UInt8) (clock : Draws Time) :
    Server σ :=
  { tokenService := { rng := tokenBytes }
    inventoryStorage, securityPolicy, seeds, ticketBytes, clock }

/-- The inventory storage of a server that is given none. -/
def defaultStorage : CachedInventoryStorage MySqlInventoryStorage InMemoryInventoryStorage where
  persistent := {}
  cache := {}

/-- `metrics_.error_total += 1`. -/
def countError (s : Server σ) : Server σ :=
  { s with metrics := { s.metrics with errorTotal := s.metrics.errorTotal + 1 } }

/-- A change of a session object. -/
def modifySession (s : Server σ) (id : ℕ) (f : Session → Session) : Server σ :=
  { s with heap := s.heap.modify id f }

def findSession (s : Server σ) (id : ℕ) : Option Session :=
  if id ∈ s.sessions then s.heap[id]? else none

/-- The user context of a session object, dropped or not. -/
def userContext (s : Server σ) (id : ℕ) : Option UserContext :=
  s.heap[id]?.bind fun session => session.userContext

def createSession (s : Server σ) (config : SessionConfig) (now : Time) : Server σ :=
  { s with
    nextId := s.nextId + 1
    heap := s.heap.insert s.nextId (Session.new config now)
    sessions := s.sessions.insertIfNew s.nextId () }

/-- `session->enqueueSend(frame, std::chrono::steady_clock::now())`, if the server knows the
session; the frame may depend on it. -/
def deliver (s : Server σ) (id : ℕ) (frame : Session → Bytes) : Server σ :=
  match s.findSession id with
  | none => s
  | some session =>
    let (now, clock) := s.clock.next
    { s with heap := s.heap.insert id (session.enqueueSend (frame session) now).2, clock }

/-- The server's guild event sink, over the calls made of it. -/
def deliverGuildEvents (s : Server σ) (events : GuildService.Events) : Server σ :=
  events.foldl (fun s (id, event) => s.deliver id fun session =>
    encodeFrame PacketType.guildEvent.code session.protocolVersion (encodeGuildEvent {
      type := event.type
      guildId := UInt64.ofNat event.guildId
      actorUserId := event.actorUserId
      memberUserIds := event.memberUserIds
      message := event.message })) s

/-- `registry_.removeSession` and what follows it in `Server::removeSession`. -/
def forgetSession (s : Server σ) (id : ℕ) : Server σ :=
  let (_, _, partyService) := s.partyService.removeMember id
  let (_, events, guildService) := s.guildService.removeMember id
  let s := { s with registry := s.registry.removeSession id, partyService, guildService }
  let s := s.deliverGuildEvents events
  { s with
    sessionInstances := s.sessionInstances.erase id
    sessionCharacters := s.sessionCharacters.erase id }

def removeSession (s : Server σ) (id : ℕ) : Server σ :=
  let s := if id ∈ s.sessions then
      { s.modifySession id Session.clearUserContext with sessions := s.sessions.erase id }
    else s
  s.forgetSession id

/-- The first loop of `tick`: every session's own tick, and the ids of those that are over. -/
def tickSessions (s : Server σ) (now : Time) : List ℕ × Server σ :=
  s.sessions.keys.foldl (fun (toRemove, s) id =>
    match s.heap[id]? with
    | none => (toRemove, s)
    | some session =>
      let (alive, session) := session.tick now
      (if alive then toRemove else toRemove ++ [id], { s with heap := s.heap.insert id session }))
    ([], s)

def tick (s : Server σ) (now : Time) : Server σ :=
  let (toRemove, s) := s.tickSessions now
  toRemove.foldl removeSession s

def forceDisconnect (s : Server σ) (id : ℕ) : Bool × Server σ :=
  match s.findSession id with
  | none => (false, s.countError)
  | some _ => (true, s.removeSession id)

def sessionUser (s : Server σ) (id : ℕ) : Option UserContext := s.registry.find id

end Server

section Gate

/-- What the checks before the dispatch make of a packet: nothing is answered, a version is
rejected, or the payload goes on to its handler. -/
inductive Gated where
  | dropped
  | rejected (reject : VersionReject)
  | passed (payload : Bytes)
  deriving DecidableEq

/-- A natural number in decimal. -/
def decimal (n : ℕ) : Str := (Nat.toDigits 10 n).map fun c => c.toNat.toUInt8

def versionReject (version : UInt16) : VersionReject where
  minVersion := kMinProtocolVersion
  maxVersion := kMaxProtocolVersion
  clientVersion := version
  message := str "Unsupported client version " ++ decimal version.toNat ++ str " (supported " ++
    decimal kMinProtocolVersion.toNat ++ str "-" ++ decimal kMaxProtocolVersion.toNat ++ str ")"

/-- The replay check: the sequence number must rise and the nonce be new, and both are recorded. -/
def replayCheck (header : SecurityHeader) (session : Session) : Bool × Session :=
  if header.seq.toUInt64 ≤ session.lastSeq then (false, session)
  else
    match session.recordNonce header.nonce with
    | (false, session) => (false, session)
    | (true, session) => (true, session.setLastSeq header.seq.toUInt64)

/-- The security checks on a payload: signature, then replay. -/
def securityCheck (policy : SecurityPolicy) (payload : Bytes) (session : Session) :
    Gated × Session :=
  if policy.requireHmac || policy.enableReplayProtection then
    match unwrapSecurePayload payload with
    | .error _ => (.dropped, session)
    | .ok (header, inner) =>
      if policy.requireHmac && !verifySignature policy.hmacKey header inner then
        (.dropped, session)
      else if policy.enableReplayProtection then
        match replayCheck header session with
        | (false, session) => (.dropped, session)
        | (true, session) => (.passed inner, session)
      else (.passed inner, session)
  else (.passed payload, session)

/-- All checks before the dispatch, on a session that has just received the packet. -/
def gate (policy : SecurityPolicy) (header : FrameHeader) (payload : Bytes) (session : Session) :
    Gated × Session :=
  if policy.requireTls && !session.tlsEstablished then (.dropped, session)
  else if header.version < kMinProtocolVersion ∨ header.version > kMaxProtocolVersion then
    (.rejected (versionReject header.version), session)
  else securityCheck policy payload session

end Gate

end DungeonHub
