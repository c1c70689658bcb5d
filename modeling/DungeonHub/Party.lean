import DungeonHub.Codec
import DungeonHub.Protocol

/-!
# Parties

`party.cpp`. An operation returns its result, the calls it makes of the event sink, and the service
it leaves.
-/

namespace DungeonHub

structure PartyMember where
  sessionId : ℕ
  userId : Str
  deriving DecidableEq

structure PartyInfo where
  partyId : ℕ
  leaderSessionId : ℕ
  members : List PartyMember
  deriving DecidableEq

structure PartyRecord where
  id : ℕ
  leaderSessionId : ℕ
  members : Dict ℕ PartyMember := ∅

structure PartyInvite where
  inviterSessionId : ℕ
  inviteeUserId : Str
  sentAt : Time
  deriving DecidableEq

namespace PartyService

/-- `party::PartyEvent`. -/
structure Event where
  type : PartyEventType
  partyId : ℕ
  actorSessionId : ℕ := 0
  targetSessionId : ℕ := 0
  memberSessionIds : List ℕ := []
  message : Str
  deriving DecidableEq

/-- The calls of the event sink, in order. -/
abbrev Events := List (ℕ × Event)

end PartyService

/-- `eventSink` says whether a sink was given. -/
structure PartyService where
  nextPartyId : ℕ := 1
  parties : Dict ℕ PartyRecord := ∅
  memberIndex : Dict ℕ ℕ := ∅
  invites : Dict ℕ (Dict ℕ PartyInvite) := ∅
  eventSink : Bool := false
  inviteTimeout : Time := seconds 300

namespace PartyService

def emitToParty (s : PartyService) (party : PartyRecord) (event : Event) : Events :=
  if s.eventSink then party.members.keys.map fun member => (member, event) else []

def emitToInvitee (s : PartyService) (inviteeSessionId : ℕ) (event : Event) : Events :=
  if s.eventSink then [(inviteeSessionId, event)] else []

def createParty (s : PartyService) (leaderSessionId : ℕ) (leaderUserId : Str) :
    Option ℕ × Events × PartyService :=
  if leaderSessionId ∈ s.memberIndex then (none, [], s)
  else
    let record : PartyRecord := {
      id := s.nextPartyId
      leaderSessionId
      members := (∅ : Dict _ _).insert leaderSessionId ⟨leaderSessionId, leaderUserId⟩ }
    let event : Event := {
      type := .created
      partyId := record.id
      actorSessionId := leaderSessionId
      memberSessionIds := [leaderSessionId]
      message := str "Party created" }
    (some record.id, s.emitToParty record event,
      { s with
        nextPartyId := s.nextPartyId + 1
        memberIndex := s.memberIndex.insert leaderSessionId record.id
        parties := s.parties.insertIfNew record.id record })

def inviteMember (s : PartyService) (partyId inviterSessionId inviteeSessionId : ℕ)
    (inviteeUserId : Str) (now : Time) : Bool × Events × PartyService :=
  match s.parties[partyId]? with
  | none => (false, [], s)
  | some party =>
    if inviterSessionId ∉ party.members then (false, [], s)
    else if inviteeSessionId ∈ s.memberIndex then (false, [], s)
    else
      let partyInvites := s.invites.getD partyId ∅
      if inviteeSessionId ∈ partyInvites then (false, [], s)
      else
        let event : Event := {
          type := .inviteSent
          partyId
          actorSessionId := inviterSessionId
          targetSessionId := inviteeSessionId
          message := str "Party invite sent" }
        (true, s.emitToParty party event ++ s.emitToInvitee inviteeSessionId event,
          { s with
            invites := s.invites.insert partyId
              (partyInvites.insert inviteeSessionId ⟨inviterSessionId, inviteeUserId, now⟩) })

def acceptInvite (s : PartyService) (partyId inviteeSessionId : ℕ) (now : Time) :
    Bool × Events × PartyService :=
  match s.parties[partyId]? with
  | none => (false, [], s)
  | some party =>
    match s.invites[partyId]? with
    | none => (false, [], s)
    | some partyInvites =>
      match partyInvites[inviteeSessionId]? with
      | none => (false, [], s)
      | some entry =>
        let s' := { s with
          invites := s.invites.insert partyId (partyInvites.erase inviteeSessionId) }
        if now - entry.sentAt > s.inviteTimeout then
          let expired : Event := {
            type := .inviteExpired
            partyId
            targetSessionId := inviteeSessionId
            message := str "Party invite expired" }
          (false, s.emitToParty party expired ++ s.emitToInvitee inviteeSessionId expired, s')
        else if inviteeSessionId ∈ s.memberIndex then (false, [], s')
        else
          let party := { party with
            members := party.members.insertIfNew inviteeSessionId
              ⟨inviteeSessionId, entry.inviteeUserId⟩ }
          let event : Event := {
            type := .inviteAccepted
            partyId
            actorSessionId := inviteeSessionId
            memberSessionIds := party.members.keys
            message := str "Party invite accepted" }
          (true, s.emitToParty party event,
            { s' with
              parties := s.parties.insert partyId party
              memberIndex := s.memberIndex.insert inviteeSessionId partyId })

def rejectInvite (s : PartyService) (partyId inviteeSessionId : ℕ) :
    Bool × Events × PartyService :=
  match s.parties[partyId]? with
  | none => (false, [], s)
  | some party =>
    match s.invites[partyId]? with
    | none => (false, [], s)
    | some partyInvites =>
      if inviteeSessionId ∉ partyInvites then (false, [], s)
      else
        let event : Event := {
          type := .inviteRejected
          partyId
          actorSessionId := inviteeSessionId
          targetSessionId := inviteeSessionId
          message := str "Party invite rejected" }
        (true, s.emitToParty party event ++ s.emitToInvitee inviteeSessionId event,
          { s with invites := s.invites.insert partyId (partyInvites.erase inviteeSessionId) })

/-- The end of a party, as a leader's `disbandParty` and `removeMember` bring it about. -/
def disband (s : PartyService) (partyId : ℕ) (party : PartyRecord) (actorSessionId : ℕ) :
    Events × PartyService :=
  let event : Event := {
    type := .disbanded
    partyId
    actorSessionId
    memberSessionIds := party.members.keys
    message := str "Party disbanded" }
  (s.emitToParty party event,
    { s with
      memberIndex := s.memberIndex.eraseAll party.members.keys
      parties := s.parties.erase partyId
      invites := s.invites.erase partyId })

def disbandParty (s : PartyService) (partyId requesterSessionId : ℕ) :
    Bool × Events × PartyService :=
  match s.parties[partyId]? with
  | none => (false, [], s)
  | some party =>
    if party.leaderSessionId ≠ requesterSessionId then (false, [], s)
    else (true, s.disband partyId party requesterSessionId)

def removeMember (s : PartyService) (memberSessionId : ℕ) : Bool × Events × PartyService :=
  match s.memberIndex[memberSessionId]? with
  | none => (false, [], s)
  | some partyId =>
    match s.parties[partyId]? with
    | none => (false, [], { s with memberIndex := s.memberIndex.erase memberSessionId })
    | some party =>
      if party.leaderSessionId = memberSessionId then
        (true, s.disband partyId party memberSessionId)
      else
        (true, [], { s with
          parties := s.parties.insert partyId
            { party with members := party.members.erase memberSessionId }
          memberIndex := s.memberIndex.erase memberSessionId
          invites := s.invites.modify partyId fun invites => invites.erase memberSessionId })

/-- The invites of one party with those to one session passed on to another. -/
def renameInvites (oldSessionId newSessionId : ℕ) (invites : Dict ℕ PartyInvite) :
    Dict ℕ PartyInvite :=
  match invites[oldSessionId]? with
  | none => invites
  | some invite => (invites.erase oldSessionId).insertIfNew newSessionId invite

def replaceMemberSession (s : PartyService) (oldSessionId newSessionId : ℕ) :
    Bool × PartyService :=
  if oldSessionId = newSessionId then (true, s)
  else
    match s.memberIndex[oldSessionId]? with
    | none => (false, s)
    | some partyId =>
      if newSessionId ∈ s.memberIndex then (false, s)
      else
        match s.parties[partyId]? with
        | none => (false, s)
        | some party =>
          match party.members[oldSessionId]? with
          | none => (false, s)
          | some member =>
            let party := { party with
              members := (party.members.erase oldSessionId).insertIfNew newSessionId
                { member with sessionId := newSessionId }
              leaderSessionId := if party.leaderSessionId = oldSessionId then newSessionId
                else party.leaderSessionId }
            (true, { s with
              parties := s.parties.insert partyId party
              memberIndex := (s.memberIndex.erase oldSessionId).insert newSessionId partyId
              invites := s.invites.map fun _ => renameInvites oldSessionId newSessionId })

/-- One party's part of `expireInvites`: how many invites have expired, the events, and the
invites that are left. -/
def expirePartyInvites (s : PartyService) (party : PartyRecord) (partyId : ℕ)
    (partyInvites : Dict ℕ PartyInvite) (now : Time) : ℕ × Events × Dict ℕ PartyInvite :=
  let expired := partyInvites.toList.filter fun entry => now - entry.2.sentAt > s.inviteTimeout
  let event (invitee : ℕ) : Event := {
    type := .inviteExpired
    partyId
    targetSessionId := invitee
    message := str "Party invite expired" }
  (expired.length,
    expired.flatMap fun entry =>
      s.emitToParty party (event entry.1) ++ s.emitToInvitee entry.1 (event entry.1),
    partyInvites.eraseAll (expired.map Prod.fst))

def expireInvites (s : PartyService) (now : Time) : ℕ × Events × PartyService :=
  s.parties.toList.foldl (fun (count, events, s') (partyId, party) =>
    match s'.invites[partyId]? with
    | none => (count, events, s')
    | some partyInvites =>
      let (n, es, left) := s.expirePartyInvites party partyId partyInvites now
      (count + n, events ++ es, { s' with invites := s'.invites.insert partyId left }))
    (0, [], s)

def getPartyInfo (s : PartyService) (partyId : ℕ) : Option PartyInfo :=
  s.parties[partyId]?.map fun party => {
    partyId := party.id
    leaderSessionId := party.leaderSessionId
    members := party.members.elems.insertionSort fun a b => a.sessionId ≤ b.sessionId }

def partyForMember (s : PartyService) (sessionId : ℕ) : Option ℕ := s.memberIndex[sessionId]?

def setEventSink (s : PartyService) (sink : Bool) : PartyService := { s with eventSink := sink }

def setInviteTimeout (s : PartyService) (timeout : Time) : PartyService :=
  { s with inviteTimeout := timeout }

end PartyService

end DungeonHub
