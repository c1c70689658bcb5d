import DungeonHub.Lib.Dict
import DungeonHub.Protocol

/-!
# Guilds

`guild.cpp`. An operation returns its result, the calls it makes of the event sink, and the service
it leaves.
-/

namespace DungeonHub

structure GuildMember where
  sessionId : ℕ
  userId : Str
  deriving DecidableEq

structure GuildRecord where
  id : ℕ
  leaderSessionId : ℕ
  name : Str
  members : Dict ℕ GuildMember := ∅

namespace GuildService

/-- `guild::GuildEvent`. -/
structure Event where
  type : GuildEventType
  guildId : ℕ
  actorUserId : Str
  memberUserIds : List Str
  message : Str
  deriving DecidableEq

/-- The calls of the event sink, in order. -/
abbrev Events := List (ℕ × Event)

end GuildService

/-- `eventSink` says whether a sink was given. -/
structure GuildService where
  nextGuildId : ℕ := 1
  guilds : Dict ℕ GuildRecord := ∅
  memberIndex : Dict ℕ ℕ := ∅
  eventSink : Bool := false

namespace GuildService

def emitToGuild (s : GuildService) (guild : GuildRecord) (event : Event) : Events :=
  if s.eventSink then guild.members.keys.map fun member => (member, event) else []

def emitToMember (s : GuildService) (memberSessionId : ℕ) (event : Event) : Events :=
  if s.eventSink then [(memberSessionId, event)] else []

/-- The user ids of a guild's members, in the order of its table. -/
def userIds (guild : GuildRecord) : List Str := guild.members.elems.map GuildMember.userId

def createGuild (s : GuildService) (leaderSessionId : ℕ) (leaderUserId guildName : Str) :
    Option ℕ × Events × GuildService :=
  if leaderSessionId ∈ s.memberIndex ∨ guildName = [] then (none, [], s)
  else
    let record : GuildRecord := {
      id := s.nextGuildId
      leaderSessionId
      name := guildName
      members := (∅ : Dict _ _).insert leaderSessionId ⟨leaderSessionId, leaderUserId⟩ }
    let event : Event := {
      type := .created
      guildId := record.id
      actorUserId := leaderUserId
      memberUserIds := [leaderUserId]
      message := str "Guild created" }
    (some record.id, s.emitToGuild record event,
      { s with
        nextGuildId := s.nextGuildId + 1
        guilds := s.guilds.insertIfNew record.id record
        memberIndex := s.memberIndex.insert leaderSessionId record.id })

def joinGuild (s : GuildService) (guildId memberSessionId : ℕ) (memberUserId : Str) :
    Bool × Events × GuildService :=
  match s.guilds[guildId]? with
  | none => (false, [], s)
  | some guild =>
    if memberSessionId ∈ s.memberIndex then (false, [], s)
    else
      let guild := { guild with
        members := guild.members.insertIfNew memberSessionId ⟨memberSessionId, memberUserId⟩ }
      let event : Event := {
        type := .joined
        guildId
        actorUserId := memberUserId
        memberUserIds := userIds guild
        message := str "Guild member joined" }
      (true, s.emitToGuild guild event,
        { s with
          guilds := s.guilds.insert guildId guild
          memberIndex := s.memberIndex.insert memberSessionId guildId })

/-- The end of a guild, as a leader's `leaveGuild` and `removeMember` bring it about. -/
def disband (s : GuildService) (guildId : ℕ) (guild : GuildRecord) (actorUserId : Str) :
    Events × GuildService :=
  let event : Event := {
    type := .disbanded
    guildId
    actorUserId
    memberUserIds := userIds guild
    message := str "Guild disbanded" }
  (s.emitToGuild guild event,
    { s with
      memberIndex := s.memberIndex.eraseAll guild.members.keys
      guilds := s.guilds.erase guildId })

/-- The event of another member's going, and the service without that member. -/
def dropMember (s : GuildService) (guildId : ℕ) (guild : GuildRecord) (memberSessionId : ℕ)
    (actorUserId : Str) : Event × Events × GuildService :=
  let guild := { guild with members := guild.members.erase memberSessionId }
  let event : Event := {
    type := .left
    guildId
    actorUserId
    memberUserIds := userIds guild
    message := str "Guild member left" }
  (event, s.emitToGuild guild event,
    { s with
      guilds := s.guilds.insert guildId guild
      memberIndex := s.memberIndex.erase memberSessionId })

def leaveGuild (s : GuildService) (guildId memberSessionId : ℕ) : Bool × Events × GuildService :=
  match s.guilds[guildId]? with
  | none => (false, [], s)
  | some guild =>
    match guild.members[memberSessionId]? with
    | none => (false, [], s)
    | some member =>
      if guild.leaderSessionId = memberSessionId then
        (true, s.disband guildId guild member.userId)
      else
        let (event, events, s') := s.dropMember guildId guild memberSessionId member.userId
        -- the one who leaves is told too
        (true, events ++ s.emitToMember memberSessionId event, s')

def removeMember (s : GuildService) (memberSessionId : ℕ) : Bool × Events × GuildService :=
  match s.memberIndex[memberSessionId]? with
  | none => (false, [], s)
  | some guildId =>
    match s.guilds[guildId]? with
    | none => (false, [], { s with memberIndex := s.memberIndex.erase memberSessionId })
    | some guild =>
      match guild.members[memberSessionId]? with
      | none => (false, [], { s with memberIndex := s.memberIndex.erase memberSessionId })
      | some member =>
        if guild.leaderSessionId = memberSessionId then
          (true, s.disband guildId guild member.userId)
        else
          let (_, events, s') := s.dropMember guildId guild memberSessionId member.userId
          (true, events, s')

def replaceMemberSession (s : GuildService) (oldSessionId newSessionId : ℕ) :
    Bool × GuildService :=
  if oldSessionId = newSessionId then (true, s)
  else
    match s.memberIndex[oldSessionId]? with
    | none => (false, s)
    | some guildId =>
      if newSessionId ∈ s.memberIndex then (false, s)
      else
        match s.guilds[guildId]? with
        | none => (false, s)
        | some guild =>
          match guild.members[oldSessionId]? with
          | none => (false, s)
          | some member =>
            let guild := { guild with
              members := (guild.members.erase oldSessionId).insertIfNew newSessionId
                { member with sessionId := newSessionId }
              leaderSessionId := if guild.leaderSessionId = oldSessionId then newSessionId
                else guild.leaderSessionId }
            (true, { s with
              guilds := s.guilds.insert guildId guild
              memberIndex := (s.memberIndex.erase oldSessionId).insert newSessionId guildId })

def guildForMember (s : GuildService) (sessionId : ℕ) : Option ℕ := s.memberIndex[sessionId]?

end GuildService

end DungeonHub
