import DungeonHub.Protocol

/-!
# The messages as one family

Each packet type carries one message type, with its encoder and decoder and what a trip over the
wire makes of a value: strings and lists come back cut to their first 65535 elements.
-/

namespace DungeonHub

open Wire

/-- A list of strings as it comes back from the wire. -/
def cutStrings (l : List Str) : List Str := (l.take maxU16).map cutString

/-- A list of items as it comes back from the wire. -/
def cutItems (l : List RewardItem) : List RewardItem := l.take maxU16

/-- A message type of the protocol. -/
class Message (α : Type) where
  encode : α → Bytes
  decode : Bytes → Except Fault α
  /-- Whether the message starts with a boolean byte. -/
  flagged : Bool
  /-- The value with every string and list cut to its first 65535 elements. -/
  cut : α → α
  /-- The lengths of the value's strings and lists. -/
  sizes : α → List ℕ

/-- The payload with a leading boolean byte as the encoder writes it. -/
def normalise (flagged : Bool) : Bytes → Bytes
  | [] => []
  | b :: p => if flagged && b != 0 then 1 :: p else b :: p

instance : Message LoginRequest where
  encode := encodeLoginRequest
  decode := decodeLoginRequest
  flagged := false
  cut m := { userId := cutString m.userId, password := cutString m.password }
  sizes m := [m.userId.length, m.password.length]

instance : Message LoginResponse where
  encode := encodeLoginResponse
  decode := decodeLoginResponse
  flagged := true
  cut m := { m with token := cutString m.token, message := cutString m.message }
  sizes m := [m.token.length, m.message.length]

instance : Message VersionReject where
  encode := encodeVersionReject
  decode := decodeVersionReject
  flagged := false
  cut m := { m with message := cutString m.message }
  sizes m := [m.message.length]

instance : Message LogoutRequest where
  encode := encodeLogoutRequest
  decode := decodeLogoutRequest
  flagged := false
  cut m := m
  sizes _ := []

instance : Message LogoutResponse where
  encode := encodeLogoutResponse
  decode := decodeLogoutResponse
  flagged := true
  cut m := { m with message := cutString m.message }
  sizes m := [m.message.length]

instance : Message SessionReconnectRequest where
  encode := encodeSessionReconnectRequest
  decode := decodeSessionReconnectRequest
  flagged := false
  cut m := { m with token := cutString m.token }
  sizes m := [m.token.length]

instance : Message SessionReconnectResponse where
  encode := encodeSessionReconnectResponse
  decode := decodeSessionReconnectResponse
  flagged := true
  cut m := { m with message := cutString m.message }
  sizes m := [m.message.length]

instance : Message GuildCreateRequest where
  encode := encodeGuildCreateRequest
  decode := decodeGuildCreateRequest
  flagged := false
  cut m := { guildName := cutString m.guildName }
  sizes m := [m.guildName.length]

instance : Message GuildCreateResponse where
  encode := encodeGuildCreateResponse
  decode := decodeGuildCreateResponse
  flagged := true
  cut m := { m with message := cutString m.message }
  sizes m := [m.message.length]

instance : Message GuildJoinRequest where
  encode := encodeGuildJoinRequest
  decode := decodeGuildJoinRequest
  flagged := false
  cut m := m
  sizes _ := []

instance : Message GuildJoinResponse where
  encode := encodeGuildJoinResponse
  decode := decodeGuildJoinResponse
  flagged := true
  cut m := { m with message := cutString m.message }
  sizes m := [m.message.length]

instance : Message GuildLeaveRequest where
  encode := encodeGuildLeaveRequest
  decode := decodeGuildLeaveRequest
  flagged := false
  cut m := m
  sizes _ := []

instance : Message GuildLeaveResponse where
  encode := encodeGuildLeaveResponse
  decode := decodeGuildLeaveResponse
  flagged := true
  cut m := { m with message := cutString m.message }
  sizes m := [m.message.length]

instance : Message GuildEvent where
  encode := encodeGuildEvent
  decode := decodeGuildEvent
  flagged := false
  cut m := { m with
    actorUserId := cutString m.actorUserId
    memberUserIds := cutStrings m.memberUserIds
    message := cutString m.message }
  sizes m := [m.actorUserId.length, m.memberUserIds.length,
    m.message.length] ++ m.memberUserIds.map List.length

instance : Message PartyCreateRequest where
  encode := encodePartyCreateRequest
  decode := decodePartyCreateRequest
  flagged := false
  cut m := { leaderUserId := cutString m.leaderUserId }
  sizes m := [m.leaderUserId.length]

instance : Message PartyCreateResponse where
  encode := encodePartyCreateResponse
  decode := decodePartyCreateResponse
  flagged := true
  cut m := { m with message := cutString m.message }
  sizes m := [m.message.length]

instance : Message PartyInviteRequest where
  encode := encodePartyInviteRequest
  decode := decodePartyInviteRequest
  flagged := false
  cut m := { m with
    inviterUserId := cutString m.inviterUserId
    inviteeUserId := cutString m.inviteeUserId }
  sizes m := [m.inviterUserId.length, m.inviteeUserId.length]

instance : Message PartyInviteResponse where
  encode := encodePartyInviteResponse
  decode := decodePartyInviteResponse
  flagged := true
  cut m := { m with message := cutString m.message }
  sizes m := [m.message.length]

instance : Message PartyAcceptRequest where
  encode := encodePartyAcceptRequest
  decode := decodePartyAcceptRequest
  flagged := false
  cut m := { m with inviteeUserId := cutString m.inviteeUserId }
  sizes m := [m.inviteeUserId.length]

instance : Message PartyAcceptResponse where
  encode := encodePartyAcceptResponse
  decode := decodePartyAcceptResponse
  flagged := true
  cut m := { m with message := cutString m.message }
  sizes m := [m.message.length]

instance : Message PartyDisbandRequest where
  encode := encodePartyDisbandRequest
  decode := decodePartyDisbandRequest
  flagged := false
  cut m := { m with requesterUserId := cutString m.requesterUserId }
  sizes m := [m.requesterUserId.length]

instance : Message PartyDisbandResponse where
  encode := encodePartyDisbandResponse
  decode := decodePartyDisbandResponse
  flagged := true
  cut m := { m with message := cutString m.message }
  sizes m := [m.message.length]

instance : Message PartyEvent where
  encode := encodePartyEvent
  decode := decodePartyEvent
  flagged := false
  cut m := { m with
    actorUserId := cutString m.actorUserId
    targetUserId := cutString m.targetUserId
    memberUserIds := cutStrings m.memberUserIds
    message := cutString m.message }
  sizes m := [m.actorUserId.length, m.targetUserId.length, m.memberUserIds.length,
    m.message.length] ++ m.memberUserIds.map List.length

instance : Message MatchRequest where
  encode := encodeMatchRequest
  decode := decodeMatchRequest
  flagged := false
  cut m := { m with difficulty := cutString m.difficulty }
  sizes m := [m.difficulty.length]

instance : Message MatchFoundNotify where
  encode := encodeMatchFoundNotify
  decode := decodeMatchFoundNotify
  flagged := true
  cut m := { m with
    code := cutString m.code
    message := cutString m.message
    endpoint := cutString m.endpoint
    ticket := cutString m.ticket }
  sizes m := [m.code.length, m.message.length, m.endpoint.length, m.ticket.length]

instance : Message DungeonEnterRequest where
  encode := encodeDungeonEnterRequest
  decode := decodeDungeonEnterRequest
  flagged := false
  cut m := { m with ticket := cutString m.ticket }
  sizes m := [m.ticket.length]

instance : Message DungeonEnterResponse where
  encode := encodeDungeonEnterResponse
  decode := decodeDungeonEnterResponse
  flagged := true
  cut m := { m with code := cutString m.code, message := cutString m.message }
  sizes m := [m.code.length, m.message.length]

instance : Message DungeonResultNotify where
  encode := encodeDungeonResultNotify
  decode := decodeDungeonResultNotify
  flagged := false
  cut m := { m with rewards := cutItems m.rewards }
  sizes m := [m.rewards.length]

instance : Message DungeonResultResponse where
  encode := encodeDungeonResultResponse
  decode := decodeDungeonResultResponse
  flagged := true
  cut m := { m with
    code := cutString m.code
    message := cutString m.message
    summary := cutString m.summary }
  sizes m := [m.code.length, m.message.length, m.summary.length]

instance : Message ChatSendRequest where
  encode := encodeChatSendRequest
  decode := decodeChatSendRequest
  flagged := false
  cut m := { m with message := cutString m.message }
  sizes m := [m.message.length]

instance : Message ChatSendResponse where
  encode := encodeChatSendResponse
  decode := decodeChatSendResponse
  flagged := true
  cut m := { m with message := cutString m.message }
  sizes m := [m.message.length]

instance : Message ChatEvent where
  encode := encodeChatEvent
  decode := decodeChatEvent
  flagged := false
  cut m := { m with senderUserId := cutString m.senderUserId, message := cutString m.message }
  sizes m := [m.senderUserId.length, m.message.length]

instance : Message InventoryUpdateNotify where
  encode := encodeInventoryUpdateNotify
  decode := decodeInventoryUpdateNotify
  flagged := false
  cut m := { m with items := cutItems m.items }
  sizes m := [m.items.length]

instance : Message InventoryUpdateResponse where
  encode := encodeInventoryUpdateResponse
  decode := decodeInventoryUpdateResponse
  flagged := true
  cut m := { m with code := cutString m.code, message := cutString m.message }
  sizes m := [m.code.length, m.message.length]

namespace PacketType

/-- The message a packet of this type carries. -/
def Payload : PacketType → Type
  | .loginReq => LoginRequest
  | .loginRes => LoginResponse
  | .versionReject => VersionReject
  | .logoutReq => LogoutRequest
  | .logoutRes => LogoutResponse
  | .sessionReconnectReq => SessionReconnectRequest
  | .sessionReconnectRes => SessionReconnectResponse
  | .guildCreateReq => GuildCreateRequest
  | .guildCreateRes => GuildCreateResponse
  | .guildJoinReq => GuildJoinRequest
  | .guildJoinRes => GuildJoinResponse
  | .guildLeaveReq => GuildLeaveRequest
  | .guildLeaveRes => GuildLeaveResponse
  | .guildEvent => GuildEvent
  | .partyCreateReq => PartyCreateRequest
  | .partyCreateRes => PartyCreateResponse
  | .partyInviteReq => PartyInviteRequest
  | .partyInviteRes => PartyInviteResponse
  | .partyAcceptReq => PartyAcceptRequest
  | .partyAcceptRes => PartyAcceptResponse
  | .partyDisbandReq => PartyDisbandRequest
  | .partyDisbandRes => PartyDisbandResponse
  | .partyEvent => PartyEvent
  | .matchReq => MatchRequest
  | .matchFoundNotify => MatchFoundNotify
  | .dungeonEnterReq => DungeonEnterRequest
  | .dungeonEnterRes => DungeonEnterResponse
  | .dungeonResultNotify => DungeonResultNotify
  | .dungeonResultRes => DungeonResultResponse
  | .chatSendReq => ChatSendRequest
  | .chatSendRes => ChatSendResponse
  | .chatEvent => ChatEvent
  | .inventoryUpdateNotify => InventoryUpdateNotify
  | .inventoryUpdateRes => InventoryUpdateResponse

instance : (t : PacketType) → Message t.Payload
  | .loginReq => inferInstanceAs (Message LoginRequest)
  | .loginRes => inferInstanceAs (Message LoginResponse)
  | .versionReject => inferInstanceAs (Message VersionReject)
  | .logoutReq => inferInstanceAs (Message LogoutRequest)
  | .logoutRes => inferInstanceAs (Message LogoutResponse)
  | .sessionReconnectReq => inferInstanceAs (Message SessionReconnectRequest)
  | .sessionReconnectRes => inferInstanceAs (Message SessionReconnectResponse)
  | .guildCreateReq => inferInstanceAs (Message GuildCreateRequest)
  | .guildCreateRes => inferInstanceAs (Message GuildCreateResponse)
  | .guildJoinReq => inferInstanceAs (Message GuildJoinRequest)
  | .guildJoinRes => inferInstanceAs (Message GuildJoinResponse)
  | .guildLeaveReq => inferInstanceAs (Message GuildLeaveRequest)
  | .guildLeaveRes => inferInstanceAs (Message GuildLeaveResponse)
  | .guildEvent => inferInstanceAs (Message GuildEvent)
  | .partyCreateReq => inferInstanceAs (Message PartyCreateRequest)
  | .partyCreateRes => inferInstanceAs (Message PartyCreateResponse)
  | .partyInviteReq => inferInstanceAs (Message PartyInviteRequest)
  | .partyInviteRes => inferInstanceAs (Message PartyInviteResponse)
  | .partyAcceptReq => inferInstanceAs (Message PartyAcceptRequest)
  | .partyAcceptRes => inferInstanceAs (Message PartyAcceptResponse)
  | .partyDisbandReq => inferInstanceAs (Message PartyDisbandRequest)
  | .partyDisbandRes => inferInstanceAs (Message PartyDisbandResponse)
  | .partyEvent => inferInstanceAs (Message PartyEvent)
  | .matchReq => inferInstanceAs (Message MatchRequest)
  | .matchFoundNotify => inferInstanceAs (Message MatchFoundNotify)
  | .dungeonEnterReq => inferInstanceAs (Message DungeonEnterRequest)
  | .dungeonEnterRes => inferInstanceAs (Message DungeonEnterResponse)
  | .dungeonResultNotify => inferInstanceAs (Message DungeonResultNotify)
  | .dungeonResultRes => inferInstanceAs (Message DungeonResultResponse)
  | .chatSendReq => inferInstanceAs (Message ChatSendRequest)
  | .chatSendRes => inferInstanceAs (Message ChatSendResponse)
  | .chatEvent => inferInstanceAs (Message ChatEvent)
  | .inventoryUpdateNotify => inferInstanceAs (Message InventoryUpdateNotify)
  | .inventoryUpdateRes => inferInstanceAs (Message InventoryUpdateResponse)

instance (t : PacketType) : DecidableEq t.Payload := by
  cases t <;> dsimp only [Payload] <;> infer_instance

end PacketType

end DungeonHub
