import DungeonHub.Bytes

/-!
# The protocol's messages

`protocol.h` and `protocol.cpp`: the packet types, the 34 messages, and the encoder and decoder of
each. A decoder returns `.error .refused` where the source returns false; `.error .outOfBounds` is a
read of the payload at an index it does not have, which the source does not guard against other than
by its own length checks.
-/

namespace DungeonHub

open Wire

def kMinProtocolVersion : UInt16 := 1
def kMaxProtocolVersion : UInt16 := 3

inductive PacketType where
  | loginReq | loginRes | versionReject | logoutReq | logoutRes | sessionReconnectReq
  | sessionReconnectRes | partyCreateReq | partyCreateRes | partyInviteReq | partyInviteRes
  | partyAcceptReq | partyAcceptRes | partyDisbandReq | partyDisbandRes | partyEvent | matchReq
  | matchFoundNotify | guildCreateReq | guildCreateRes | guildJoinReq | guildJoinRes
  | guildLeaveReq | guildLeaveRes | guildEvent | dungeonEnterReq | dungeonEnterRes
  | dungeonResultNotify | dungeonResultRes | chatSendReq | chatSendRes | chatEvent
  | inventoryUpdateNotify | inventoryUpdateRes
  deriving DecidableEq

namespace PacketType

def code : PacketType → UInt16
  | loginReq => 1
  | loginRes => 2
  | versionReject => 3
  | logoutReq => 4
  | logoutRes => 5
  | sessionReconnectReq => 6
  | sessionReconnectRes => 7
  | partyCreateReq => 100
  | partyCreateRes => 101
  | partyInviteReq => 102
  | partyInviteRes => 103
  | partyAcceptReq => 104
  | partyAcceptRes => 105
  | partyDisbandReq => 106
  | partyDisbandRes => 107
  | partyEvent => 108
  | matchReq => 400
  | matchFoundNotify => 401
  | guildCreateReq => 200
  | guildCreateRes => 201
  | guildJoinReq => 202
  | guildJoinRes => 203
  | guildLeaveReq => 204
  | guildLeaveRes => 205
  | guildEvent => 206
  | dungeonEnterReq => 500
  | dungeonEnterRes => 501
  | dungeonResultNotify => 502
  | dungeonResultRes => 503
  | chatSendReq => 300
  | chatSendRes => 301
  | chatEvent => 302
  | inventoryUpdateNotify => 600
  | inventoryUpdateRes => 601

/-- `static_cast<PacketType>(header.type)`, `none` for a value the enumeration does not name. -/
def ofCode : UInt16 → Option PacketType
  | 1 => some loginReq
  | 2 => some loginRes
  | 3 => some versionReject
  | 4 => some logoutReq
  | 5 => some logoutRes
  | 6 => some sessionReconnectReq
  | 7 => some sessionReconnectRes
  | 100 => some partyCreateReq
  | 101 => some partyCreateRes
  | 102 => some partyInviteReq
  | 103 => some partyInviteRes
  | 104 => some partyAcceptReq
  | 105 => some partyAcceptRes
  | 106 => some partyDisbandReq
  | 107 => some partyDisbandRes
  | 108 => some partyEvent
  | 400 => some matchReq
  | 401 => some matchFoundNotify
  | 200 => some guildCreateReq
  | 201 => some guildCreateRes
  | 202 => some guildJoinReq
  | 203 => some guildJoinRes
  | 204 => some guildLeaveReq
  | 205 => some guildLeaveRes
  | 206 => some guildEvent
  | 500 => some dungeonEnterReq
  | 501 => some dungeonEnterRes
  | 502 => some dungeonResultNotify
  | 503 => some dungeonResultRes
  | 300 => some chatSendReq
  | 301 => some chatSendRes
  | 302 => some chatEvent
  | 600 => some inventoryUpdateNotify
  | 601 => some inventoryUpdateRes
  | _ => none

end PacketType

/-! ## The messages -/

/-- A 16-bit enumeration: a decoder casts any 16-bit value to it. -/
structure GuildEventType where
  code : UInt16
  deriving DecidableEq

namespace GuildEventType

def created : GuildEventType := ⟨1⟩
def joined : GuildEventType := ⟨2⟩
def left : GuildEventType := ⟨3⟩
def disbanded : GuildEventType := ⟨4⟩

end GuildEventType

/-- A 16-bit enumeration. -/
structure PartyEventType where
  code : UInt16
  deriving DecidableEq

namespace PartyEventType

def created : PartyEventType := ⟨1⟩
def inviteSent : PartyEventType := ⟨2⟩
def inviteAccepted : PartyEventType := ⟨3⟩
def inviteRejected : PartyEventType := ⟨4⟩
def inviteExpired : PartyEventType := ⟨5⟩
def disbanded : PartyEventType := ⟨6⟩

end PartyEventType

/-- A 16-bit enumeration. -/
structure DungeonState where
  code : UInt16
  deriving DecidableEq

namespace DungeonState

def waiting : DungeonState := ⟨0⟩
def ready : DungeonState := ⟨1⟩
def playing : DungeonState := ⟨2⟩
def clear : DungeonState := ⟨3⟩
def fail : DungeonState := ⟨4⟩
def terminate : DungeonState := ⟨5⟩

end DungeonState

/-- A 16-bit enumeration. -/
structure DungeonResultType where
  code : UInt16
  deriving DecidableEq

namespace DungeonResultType

def clear : DungeonResultType := ⟨1⟩
def fail : DungeonResultType := ⟨2⟩

end DungeonResultType

/-- A 16-bit enumeration. -/
structure ChatChannel where
  code : UInt16
  deriving DecidableEq

namespace ChatChannel

def global : ChatChannel := ⟨1⟩
def party : ChatChannel := ⟨2⟩

end ChatChannel

structure RewardItem where
  itemId : UInt32 := 0
  count : UInt32 := 0
  deriving DecidableEq

structure LoginRequest where
  userId : Str := []
  password : Str := []
  deriving DecidableEq

structure LoginResponse where
  accepted : Bool := false
  token : Str := []
  message : Str := []
  deriving DecidableEq

structure VersionReject where
  minVersion : UInt16 := 0
  maxVersion : UInt16 := 0
  clientVersion : UInt16 := 0
  message : Str := []
  deriving DecidableEq

structure LogoutRequest where
  deriving DecidableEq

structure LogoutResponse where
  success : Bool := false
  message : Str := []
  deriving DecidableEq

structure SessionReconnectRequest where
  token : Str := []
  lastSeq : UInt32 := 0
  deriving DecidableEq

structure SessionReconnectResponse where
  success : Bool := false
  message : Str := []
  sessionId : UInt64 := 0
  resumeFromSeq : UInt32 := 0
  deriving DecidableEq

structure GuildCreateRequest where
  guildName : Str := []
  deriving DecidableEq

structure GuildCreateResponse where
  success : Bool := false
  guildId : UInt64 := 0
  message : Str := []
  deriving DecidableEq

structure GuildJoinRequest where
  guildId : UInt64 := 0
  deriving DecidableEq

structure GuildJoinResponse where
  success : Bool := false
  message : Str := []
  deriving DecidableEq

structure GuildLeaveRequest where
  guildId : UInt64 := 0
  deriving DecidableEq

structure GuildLeaveResponse where
  success : Bool := false
  message : Str := []
  deriving DecidableEq

structure GuildEvent where
  type : GuildEventType := .created
  guildId : UInt64 := 0
  actorUserId : Str := []
  memberUserIds : List Str := []
  message : Str := []
  deriving DecidableEq

structure PartyCreateRequest where
  leaderUserId : Str := []
  deriving DecidableEq

structure PartyCreateResponse where
  success : Bool := false
  partyId : UInt64 := 0
  message : Str := []
  deriving DecidableEq

structure PartyInviteRequest where
  partyId : UInt64 := 0
  inviterUserId : Str := []
  inviteeUserId : Str := []
  deriving DecidableEq

structure PartyInviteResponse where
  success : Bool := false
  message : Str := []
  deriving DecidableEq

structure PartyAcceptRequest where
  partyId : UInt64 := 0
  inviteeUserId : Str := []
  deriving DecidableEq

structure PartyAcceptResponse where
  success : Bool := false
  message : Str := []
  deriving DecidableEq

structure PartyDisbandRequest where
  partyId : UInt64 := 0
  requesterUserId : Str := []
  deriving DecidableEq

structure PartyDisbandResponse where
  success : Bool := false
  message : Str := []
  deriving DecidableEq

structure PartyEvent where
  type : PartyEventType := .created
  partyId : UInt64 := 0
  actorUserId : Str := []
  targetUserId : Str := []
  memberUserIds : List Str := []
  message : Str := []
  deriving DecidableEq

structure MatchRequest where
  partyId : UInt64 := 0
  dungeonId : UInt32 := 0
  difficulty : Str := []
  deriving DecidableEq

structure MatchFoundNotify where
  success : Bool := false
  code : Str := []
  message : Str := []
  partyId : UInt64 := 0
  instanceId : UInt64 := 0
  endpoint : Str := []
  ticket : Str := []
  deriving DecidableEq

structure DungeonEnterRequest where
  instanceId : UInt64 := 0
  ticket : Str := []
  charId : UInt64 := 0
  deriving DecidableEq

structure DungeonEnterResponse where
  success : Bool := false
  code : Str := []
  message : Str := []
  state : DungeonState := .waiting
  seed : UInt32 := 0
  deriving DecidableEq

structure DungeonResultNotify where
  result : DungeonResultType := .clear
  timeSec : UInt32 := 0
  deaths : UInt16 := 0
  rewards : List RewardItem := []
  deriving DecidableEq

structure DungeonResultResponse where
  success : Bool := false
  code : Str := []
  message : Str := []
  summary : Str := []
  deriving DecidableEq

structure ChatSendRequest where
  channel : ChatChannel := .global
  partyId : UInt64 := 0
  message : Str := []
  deriving DecidableEq

structure ChatSendResponse where
  success : Bool := false
  message : Str := []
  deriving DecidableEq

structure ChatEvent where
  channel : ChatChannel := .global
  partyId : UInt64 := 0
  senderUserId : Str := []
  message : Str := []
  deriving DecidableEq

structure InventoryUpdateNotify where
  charId : UInt64 := 0
  items : List RewardItem := []
  deriving DecidableEq

structure InventoryUpdateResponse where
  success : Bool := false
  code : Str := []
  message : Str := []
  inventoryVersion : UInt64 := 0
  deriving DecidableEq

/-! ## Encoders and decoders -/

def readRewardItems : Reader (List RewardItem) := readList do
  let itemId ← readU32
  let count ← readU32
  return { itemId, count }

def writeRewardItems (items : List RewardItem) : Bytes :=
  writeList (fun item => writeU32 item.itemId ++ writeU32 item.count) items

def encodeLoginRequest (request : LoginRequest) : Bytes :=
  writeString request.userId ++ writeString request.password

def decodeLoginRequest : Bytes → Except Fault LoginRequest :=
  Reader.whole do
    let userId ← readString
    let password ← readString
    return { userId, password }

def encodeLoginResponse (response : LoginResponse) : Bytes :=
  writeFlag response.accepted ++ writeString response.token ++ writeString response.message

def decodeLoginResponse : Bytes → Except Fault LoginResponse :=
  decodeFlagged fun accepted => do
    let token ← readString
    let message ← readString
    return { accepted, token, message }

def encodeVersionReject (reject : VersionReject) : Bytes :=
  writeU16 reject.minVersion ++ writeU16 reject.maxVersion ++ writeU16 reject.clientVersion ++
    writeString reject.message

def decodeVersionReject : Bytes → Except Fault VersionReject :=
  Reader.whole do
    let minVersion ← readU16
    let maxVersion ← readU16
    let clientVersion ← readU16
    let message ← readString
    return { minVersion, maxVersion, clientVersion, message }

def encodeLogoutRequest (_ : LogoutRequest) : Bytes := []

def decodeLogoutRequest (payload : Bytes) : Except Fault LogoutRequest :=
  if payload.isEmpty then .ok {} else .error .refused

def encodeLogoutResponse (response : LogoutResponse) : Bytes :=
  writeFlag response.success ++ writeString response.message

def decodeLogoutResponse : Bytes → Except Fault LogoutResponse :=
  decodeFlagged fun success => do
    let message ← readString
    return { success, message }

def encodeSessionReconnectRequest (request : SessionReconnectRequest) : Bytes :=
  writeString request.token ++ writeU32 request.lastSeq

def decodeSessionReconnectRequest : Bytes → Except Fault SessionReconnectRequest :=
  Reader.whole do
    let token ← readString
    let lastSeq ← readU32
    return { token, lastSeq }

def encodeSessionReconnectResponse (response : SessionReconnectResponse) : Bytes :=
  writeFlag response.success ++ writeString response.message ++ writeU64 response.sessionId ++
    writeU32 response.resumeFromSeq

def decodeSessionReconnectResponse : Bytes → Except Fault SessionReconnectResponse :=
  decodeFlagged fun success => do
    let message ← readString
    let sessionId ← readU64
    let resumeFromSeq ← readU32
    return { success, message, sessionId, resumeFromSeq }

def encodeGuildCreateRequest (request : GuildCreateRequest) : Bytes :=
  writeString request.guildName

def decodeGuildCreateRequest : Bytes → Except Fault GuildCreateRequest :=
  Reader.whole do
    let guildName ← readString
    return { guildName }

def encodeGuildCreateResponse (response : GuildCreateResponse) : Bytes :=
  writeFlag response.success ++ writeU64 response.guildId ++ writeString response.message

def decodeGuildCreateResponse : Bytes → Except Fault GuildCreateResponse :=
  decodeFlagged fun success => do
    let guildId ← readU64
    let message ← readString
    return { success, guildId, message }

def encodeGuildJoinRequest (request : GuildJoinRequest) : Bytes :=
  writeU64 request.guildId

def decodeGuildJoinRequest : Bytes → Except Fault GuildJoinRequest :=
  Reader.whole do
    let guildId ← readU64
    return { guildId }

def encodeGuildJoinResponse (response : GuildJoinResponse) : Bytes :=
  writeFlag response.success ++ writeString response.message

def decodeGuildJoinResponse : Bytes → Except Fault GuildJoinResponse :=
  decodeFlagged fun success => do
    let message ← readString
    return { success, message }

def encodeGuildLeaveRequest (request : GuildLeaveRequest) : Bytes :=
  writeU64 request.guildId

def decodeGuildLeaveRequest : Bytes → Except Fault GuildLeaveRequest :=
  Reader.whole do
    let guildId ← readU64
    return { guildId }

def encodeGuildLeaveResponse (response : GuildLeaveResponse) : Bytes :=
  writeFlag response.success ++ writeString response.message

def decodeGuildLeaveResponse : Bytes → Except Fault GuildLeaveResponse :=
  decodeFlagged fun success => do
    let message ← readString
    return { success, message }

def encodeGuildEvent (event : GuildEvent) : Bytes :=
  writeU16 event.type.code ++ writeU64 event.guildId ++ writeString event.actorUserId ++
    writeStringList event.memberUserIds ++ writeString event.message

def decodeGuildEvent : Bytes → Except Fault GuildEvent :=
  Reader.whole do
    let type ← readU16
    let guildId ← readU64
    let actorUserId ← readString
    let memberUserIds ← readStringList
    let message ← readString
    return { type := ⟨type⟩, guildId, actorUserId, memberUserIds, message }

def encodePartyCreateRequest (request : PartyCreateRequest) : Bytes :=
  writeString request.leaderUserId

def decodePartyCreateRequest : Bytes → Except Fault PartyCreateRequest :=
  Reader.whole do
    let leaderUserId ← readString
    return { leaderUserId }

def encodePartyCreateResponse (response : PartyCreateResponse) : Bytes :=
  writeFlag response.success ++ writeU64 response.partyId ++ writeString response.message

def decodePartyCreateResponse : Bytes → Except Fault PartyCreateResponse :=
  decodeFlagged fun success => do
    let partyId ← readU64
    let message ← readString
    return { success, partyId, message }

def encodePartyInviteRequest (request : PartyInviteRequest) : Bytes :=
  writeU64 request.partyId ++ writeString request.inviterUserId ++
    writeString request.inviteeUserId

def decodePartyInviteRequest : Bytes → Except Fault PartyInviteRequest :=
  Reader.whole do
    let partyId ← readU64
    let inviterUserId ← readString
    let inviteeUserId ← readString
    return { partyId, inviterUserId, inviteeUserId }

def encodePartyInviteResponse (response : PartyInviteResponse) : Bytes :=
  writeFlag response.success ++ writeString response.message

def decodePartyInviteResponse : Bytes → Except Fault PartyInviteResponse :=
  decodeFlagged fun success => do
    let message ← readString
    return { success, message }

def encodePartyAcceptRequest (request : PartyAcceptRequest) : Bytes :=
  writeU64 request.partyId ++ writeString request.inviteeUserId

def decodePartyAcceptRequest : Bytes → Except Fault PartyAcceptRequest :=
  Reader.whole do
    let partyId ← readU64
    let inviteeUserId ← readString
    return { partyId, inviteeUserId }

def encodePartyAcceptResponse (response : PartyAcceptResponse) : Bytes :=
  writeFlag response.success ++ writeString response.message

def decodePartyAcceptResponse : Bytes → Except Fault PartyAcceptResponse :=
  decodeFlagged fun success => do
    let message ← readString
    return { success, message }

def encodePartyDisbandRequest (request : PartyDisbandRequest) : Bytes :=
  writeU64 request.partyId ++ writeString request.requesterUserId

def decodePartyDisbandRequest : Bytes → Except Fault PartyDisbandRequest :=
  Reader.whole do
    let partyId ← readU64
    let requesterUserId ← readString
    return { partyId, requesterUserId }

def encodePartyDisbandResponse (response : PartyDisbandResponse) : Bytes :=
  writeFlag response.success ++ writeString response.message

def decodePartyDisbandResponse : Bytes → Except Fault PartyDisbandResponse :=
  decodeFlagged fun success => do
    let message ← readString
    return { success, message }

def encodePartyEvent (event : PartyEvent) : Bytes :=
  writeU16 event.type.code ++ writeU64 event.partyId ++ writeString event.actorUserId ++
    writeString event.targetUserId ++ writeStringList event.memberUserIds ++
    writeString event.message

def decodePartyEvent : Bytes → Except Fault PartyEvent :=
  Reader.whole do
    let type ← readU16
    let partyId ← readU64
    let actorUserId ← readString
    let targetUserId ← readString
    let memberUserIds ← readStringList
    let message ← readString
    return { type := ⟨type⟩, partyId, actorUserId, targetUserId, memberUserIds, message }

def encodeMatchRequest (request : MatchRequest) : Bytes :=
  writeU64 request.partyId ++ writeU32 request.dungeonId ++ writeString request.difficulty

def decodeMatchRequest : Bytes → Except Fault MatchRequest :=
  Reader.whole do
    let partyId ← readU64
    let dungeonId ← readU32
    let difficulty ← readString
    return { partyId, dungeonId, difficulty }

def encodeMatchFoundNotify (notify : MatchFoundNotify) : Bytes :=
  writeFlag notify.success ++ writeString notify.code ++ writeString notify.message ++
    writeU64 notify.partyId ++ writeU64 notify.instanceId ++ writeString notify.endpoint ++
    writeString notify.ticket

def decodeMatchFoundNotify : Bytes → Except Fault MatchFoundNotify :=
  decodeFlagged fun success => do
    let code ← readString
    let message ← readString
    let partyId ← readU64
    let instanceId ← readU64
    let endpoint ← readString
    let ticket ← readString
    return { success, code, message, partyId, instanceId, endpoint, ticket }

def encodeDungeonEnterRequest (request : DungeonEnterRequest) : Bytes :=
  writeU64 request.instanceId ++ writeString request.ticket ++ writeU64 request.charId

def decodeDungeonEnterRequest : Bytes → Except Fault DungeonEnterRequest :=
  Reader.whole do
    let instanceId ← readU64
    let ticket ← readString
    let charId ← readU64
    return { instanceId, ticket, charId }

def encodeDungeonEnterResponse (response : DungeonEnterResponse) : Bytes :=
  writeFlag response.success ++ writeString response.code ++ writeString response.message ++
    writeU16 response.state.code ++ writeU32 response.seed

def decodeDungeonEnterResponse : Bytes → Except Fault DungeonEnterResponse :=
  decodeFlagged fun success => do
    let code ← readString
    let message ← readString
    let state ← readU16
    let seed ← readU32
    return { success, code, message, state := ⟨state⟩, seed }

def encodeDungeonResultNotify (notify : DungeonResultNotify) : Bytes :=
  writeU16 notify.result.code ++ writeU32 notify.timeSec ++ writeU16 notify.deaths ++
    writeRewardItems notify.rewards

def decodeDungeonResultNotify : Bytes → Except Fault DungeonResultNotify :=
  Reader.whole do
    let result ← readU16
    let timeSec ← readU32
    let deaths ← readU16
    let rewards ← readRewardItems
    return { result := ⟨result⟩, timeSec, deaths, rewards }

def encodeDungeonResultResponse (response : DungeonResultResponse) : Bytes :=
  writeFlag response.success ++ writeString response.code ++ writeString response.message ++
    writeString response.summary

def decodeDungeonResultResponse : Bytes → Except Fault DungeonResultResponse :=
  decodeFlagged fun success => do
    let code ← readString
    let message ← readString
    let summary ← readString
    return { success, code, message, summary }

def encodeChatSendRequest (request : ChatSendRequest) : Bytes :=
  writeU16 request.channel.code ++ writeU64 request.partyId ++ writeString request.message

def decodeChatSendRequest : Bytes → Except Fault ChatSendRequest :=
  Reader.whole do
    let channel ← readU16
    let partyId ← readU64
    let message ← readString
    return { channel := ⟨channel⟩, partyId, message }

def encodeChatSendResponse (response : ChatSendResponse) : Bytes :=
  writeFlag response.success ++ writeString response.message

def decodeChatSendResponse : Bytes → Except Fault ChatSendResponse :=
  decodeFlagged fun success => do
    let message ← readString
    return { success, message }

def encodeChatEvent (event : ChatEvent) : Bytes :=
  writeU16 event.channel.code ++ writeU64 event.partyId ++ writeString event.senderUserId ++
    writeString event.message

def decodeChatEvent : Bytes → Except Fault ChatEvent :=
  Reader.whole do
    let channel ← readU16
    let partyId ← readU64
    let senderUserId ← readString
    let message ← readString
    return { channel := ⟨channel⟩, partyId, senderUserId, message }

def encodeInventoryUpdateNotify (notify : InventoryUpdateNotify) : Bytes :=
  writeU64 notify.charId ++ writeRewardItems notify.items

def decodeInventoryUpdateNotify : Bytes → Except Fault InventoryUpdateNotify :=
  Reader.whole do
    let charId ← readU64
    let items ← readRewardItems
    return { charId, items }

def encodeInventoryUpdateResponse (response : InventoryUpdateResponse) : Bytes :=
  writeFlag response.success ++ writeString response.code ++ writeString response.message ++
    writeU64 response.inventoryVersion

def decodeInventoryUpdateResponse : Bytes → Except Fault InventoryUpdateResponse :=
  decodeFlagged fun success => do
    let code ← readString
    let message ← readString
    let inventoryVersion ← readU64
    return { success, code, message, inventoryVersion }

end DungeonHub
