import DungeonHub.Lib.Checked
import DungeonHub.Party

/-!
# Matches and dungeon instances

`match_queue.cpp` and `instance_manager.cpp`. Waiting times are rationals of seconds where the
source has floating point, and `int` arithmetic is that of integers: the source does not define
what it gives on overflow, and `compatibleInt` is the part of `compatible` that it does define.
`findMatchBy` is the search for any other arithmetic.
-/

namespace DungeonHub

section Match

structure MatchRule where
  maxMmrDelta : ℤ := 100
  expansionPerSecond : ℤ := 5
  minPartySize : ℕ := 1
  maxPartySize : ℕ := 5

structure MatchCandidate where
  partyId : ℕ
  mmr : ℤ := 0
  partySize : ℕ := 1
  enqueueTime : Time
  deriving DecidableEq

structure MatchQueue where
  rule : MatchRule := {}
  queue : List MatchCandidate := []

namespace MatchQueue

/-- `*existing = candidate` on the first entry of the party, `push_back` if there is none. -/
def place (candidate : MatchCandidate) : List MatchCandidate → List MatchCandidate
  | [] => [candidate]
  | entry :: rest =>
    if entry.partyId = candidate.partyId then candidate :: rest else entry :: place candidate rest

def enqueue (q : MatchQueue) (candidate : MatchCandidate) : Bool × MatchQueue :=
  if candidate.partyId = 0 then (false, q)
  else if candidate.partySize < q.rule.minPartySize ∨ candidate.partySize > q.rule.maxPartySize then
    (false, q)
  else (true, { q with queue := place candidate q.queue })

def cancel (q : MatchQueue) (partyId : ℕ) : Bool × MatchQueue :=
  if q.queue.any fun entry => entry.partyId = partyId then
    (true, { q with queue := q.queue.filter fun entry => entry.partyId ≠ partyId })
  else (false, q)

/-- `updatePartySize` on the first entry of the party. -/
def resize (rule : MatchRule) (partyId partySize : ℕ) (now : Time) :
    List MatchCandidate → List MatchCandidate
  | [] => []
  | entry :: rest =>
    if entry.partyId = partyId then
      if partySize < rule.minPartySize ∨ partySize > rule.maxPartySize then rest
      else { entry with partySize, enqueueTime := now } :: rest
    else entry :: resize rule partyId partySize now rest

def updatePartySize (q : MatchQueue) (partyId partySize : ℕ) (now : Time) : Bool × MatchQueue :=
  if q.queue.any fun entry => entry.partyId = partyId then
    (true, { q with queue := resize q.rule partyId partySize now q.queue })
  else (false, q)

/-- `static_cast<int>` of a value in seconds: the part before the point. -/
def truncate (x : ℚ) : ℤ := Int.tdiv x.num x.den

def compatible (q : MatchQueue) (first second : MatchCandidate) (now : Time) : Bool :=
  if first.partySize < q.rule.minPartySize ∨ first.partySize > q.rule.maxPartySize ∨
      second.partySize < q.rule.minPartySize ∨ second.partySize > q.rule.maxPartySize then false
  else
    let waitFirst : ℚ := (now - first.enqueueTime : ℤ) / 1000000000
    let waitSecond : ℚ := (now - second.enqueueTime : ℤ) / 1000000000
    let waitSeconds := min waitFirst waitSecond
    let allowedDelta := q.rule.maxMmrDelta + truncate (q.rule.expansionPerSecond * waitSeconds)
    let delta := |first.mmr - second.mmr|
    decide (delta ≤ allowedDelta)

/-- `compatible` with each `int` it computes, as far as all of them fit in 32 bits. -/
def compatibleInt (q : MatchQueue) (first second : MatchCandidate) (now : Time) : Option Bool :=
  if first.partySize < q.rule.minPartySize ∨ first.partySize > q.rule.maxPartySize ∨
      second.partySize < q.rule.minPartySize ∨ second.partySize > q.rule.maxPartySize then
    some false
  else do
    let waitFirst : ℚ := (now - first.enqueueTime : ℤ) / 1000000000
    let waitSecond : ℚ := (now - second.enqueueTime : ℤ) / 1000000000
    let waitSeconds := min waitFirst waitSecond
    let expansion ← Checked.int32 (truncate (q.rule.expansionPerSecond * waitSeconds))
    let allowedDelta ← Checked.int32 (q.rule.maxMmrDelta + expansion)
    let difference ← Checked.int32 (first.mmr - second.mmr)
    let delta ← Checked.int32 |difference|
    some (decide (delta ≤ allowedDelta))

section Search

variable (goes : MatchCandidate → MatchCandidate → Bool)

/-- The inner loop of `findMatch`: the first entry of the list that goes with `first`, and the
list without it. -/
def partner (first : MatchCandidate) :
    List MatchCandidate → Option (MatchCandidate × List MatchCandidate)
  | [] => none
  | second :: rest =>
    if goes first second then some (second, rest)
    else (partner first rest).map fun r => (r.1, second :: r.2)

/-- The outer loop of `findMatch`. -/
def findPair : List MatchCandidate →
    Option ((MatchCandidate × MatchCandidate) × List MatchCandidate)
  | [] => none
  | first :: rest =>
    match partner goes first rest with
    | some (second, rest') => some ((first, second), rest')
    | none => (findPair rest).map fun r => (r.1, first :: r.2)

/-- `findMatch`, whatever the call of `compatible` answers. -/
def findMatchBy (q : MatchQueue) : Option (MatchCandidate × MatchCandidate) × MatchQueue :=
  match findPair goes q.queue with
  | none => (none, q)
  | some (pair, queue) => (some pair, { q with queue })

end Search

def findMatch (q : MatchQueue) (now : Time) :
    Option (MatchCandidate × MatchCandidate) × MatchQueue :=
  q.findMatchBy fun first second => q.compatible first second now

end MatchQueue

end Match

section Instances

inductive InstanceState where
  | waiting
  | ready
  | playing
  | clear
  | fail
  | terminate
  deriving DecidableEq

structure InstanceRecord where
  id : ℕ
  partyId : ℕ
  state : InstanceState
  deriving DecidableEq

structure InstanceManager where
  nextInstanceId : ℕ := 1
  instances : Dict ℕ InstanceRecord := ∅

namespace InstanceManager

def createInstance (m : InstanceManager) (partyId : ℕ) (partyService : PartyService) :
    Option ℕ × InstanceManager :=
  match partyService.getPartyInfo partyId with
  | none => (none, m)
  | some _ =>
    (some m.nextInstanceId,
      { nextInstanceId := m.nextInstanceId + 1
        instances := m.instances.insertIfNew m.nextInstanceId
          ⟨m.nextInstanceId, partyId, .waiting⟩ })

def terminateInstance (m : InstanceManager) (instanceId : ℕ) : Bool × InstanceManager :=
  match m.instances[instanceId]? with
  | none => (false, m)
  | some record => (true, { m with
      instances := m.instances.insert instanceId { record with state := .terminate } })

def isPartyReady (partyId : ℕ) (partyService : PartyService) : Bool :=
  match partyService.getPartyInfo partyId with
  | none => false
  | some info => !info.members.isEmpty &&
      info.members.any fun member => member.sessionId = info.leaderSessionId

def transitionAllowed : InstanceState → InstanceState → Bool
  | .waiting, next => next = .ready ∨ next = .terminate
  | .ready, next => next = .playing ∨ next = .terminate
  | .playing, next => next = .clear ∨ next = .fail ∨ next = .terminate
  | .clear, next => next = .terminate
  | .fail, next => next = .terminate
  | .terminate, _ => false

def requestTransition (m : InstanceManager) (instanceId : ℕ) (nextState : InstanceState)
    (partyService : PartyService) : Bool × InstanceManager :=
  match m.instances[instanceId]? with
  | none => (false, m)
  | some record =>
    if record.state = nextState then (false, m)
    else if !transitionAllowed record.state nextState then (false, m)
    else if (nextState = .ready ∨ nextState = .playing) ∧
        !isPartyReady record.partyId partyService then (false, m)
    else (true, { m with
      instances := m.instances.insert instanceId { record with state := nextState } })

def getInstance (m : InstanceManager) (instanceId : ℕ) : Option InstanceRecord :=
  m.instances[instanceId]?

end InstanceManager

end Instances

end DungeonHub
