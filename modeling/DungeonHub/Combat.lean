import Mathlib.Data.List.Basic

/-!
# Combat

`combat/dispatcher.cpp`. What a validator or handler does is up to those who set it: while it runs
it may call the dispatcher again, and it returns what it likes. So a step leads from one call or
return to the next, and the calls that have not returned are kept in order.
-/

namespace DungeonHub

abbrev EntityId := UInt64

structure SkillEvent where
  attackerId : EntityId := 0
  targetId : EntityId := 0
  skillId : UInt32 := 0
  baseDamage : Int32 := 0
  deriving DecidableEq

structure DamageEvent where
  sourceId : EntityId := 0
  targetId : EntityId := 0
  skillId : UInt32 := 0
  amount : Int32 := 0
  deriving DecidableEq

/-- A validator or handler that runs, and the skill event that `processSkillEvent` has called it
for, if it was not `processDamageEvent` on its own. -/
inductive Callback where
  | skillValidator (event : SkillEvent)
  | skillHandler (event : SkillEvent)
  | damageHandler (event : DamageEvent) (skill : Option SkillEvent)
  deriving DecidableEq

/-- A validator or handler is called, or `processSkillEvent` returns. -/
inductive Note where
  | calls (callback : Callback)
  | returns (event : SkillEvent) (valid : Bool) (damage : DamageEvent)
  deriving DecidableEq

/-- What the running validator or handler, or the program if none runs, does next. -/
inductive Move where
  | setSkillValidator (set : Bool)
  | setSkillHandler (set : Bool)
  | setDamageHandler (set : Bool)
  | processSkillEvent (event : SkillEvent)
  | processDamageEvent (event : DamageEvent)
  | validated (valid : Bool)
  | derived (damage : Option DamageEvent)
  | handled
  deriving DecidableEq

/-- Of each function it is told whether one is set; `running` has the innermost call first. -/
structure Dispatcher where
  skillValidator : Bool := false
  skillHandler : Bool := false
  damageHandler : Bool := false
  damageHistory : List DamageEvent := []
  running : List Callback := []

namespace Dispatcher

def call (s : Dispatcher) (callback : Callback) : Dispatcher × Option Note :=
  ({ s with running := callback :: s.running }, some (.calls callback))

def buildDamageFromSkill (event : SkillEvent) : DamageEvent where
  sourceId := event.attackerId
  targetId := event.targetId
  skillId := event.skillId
  amount := event.baseDamage

/-- The end of `processDamageEvent`, and of the `processSkillEvent` that has called it. -/
def finish (s : Dispatcher) (event : DamageEvent) :
    Option SkillEvent → Dispatcher × Option Note
  | none => (s, none)
  | some skill => (s, some (.returns skill true event))

/-- `processDamageEvent` for a skill event, or on its own. -/
def dealDamage (s : Dispatcher) (event : DamageEvent) (skill : Option SkillEvent) :
    Dispatcher × Option Note :=
  let s := { s with damageHistory := s.damageHistory ++ [event] }
  if s.damageHandler then s.call (.damageHandler event skill) else s.finish event skill

def processDamageEvent (s : Dispatcher) (event : DamageEvent) : Dispatcher × Option Note :=
  s.dealDamage event none

/-- `processSkillEvent` from where the damage has been derived. -/
def afterHandler (s : Dispatcher) (event : SkillEvent) (derived : Option DamageEvent) :
    Dispatcher × Option Note :=
  s.dealDamage (derived.getD (buildDamageFromSkill event)) (some event)

/-- `processSkillEvent` from where the event is valid. -/
def afterValidator (s : Dispatcher) (event : SkillEvent) : Dispatcher × Option Note :=
  if s.skillHandler then s.call (.skillHandler event) else s.afterHandler event none

def processSkillEvent (s : Dispatcher) (event : SkillEvent) : Dispatcher × Option Note :=
  if s.skillValidator then s.call (.skillValidator event) else s.afterValidator event

/-- A return of what does not run, and a function set while it runs, are no moves. -/
def move (s : Dispatcher) : Move → Dispatcher × Option Note
  | .setSkillValidator set =>
    if s.running.any (fun | .skillValidator _ => true | _ => false) then (s, none)
    else ({ s with skillValidator := set }, none)
  | .setSkillHandler set =>
    if s.running.any (fun | .skillHandler _ => true | _ => false) then (s, none)
    else ({ s with skillHandler := set }, none)
  | .setDamageHandler set =>
    if s.running.any (fun | .damageHandler .. => true | _ => false) then (s, none)
    else ({ s with damageHandler := set }, none)
  | .processSkillEvent event => s.processSkillEvent event
  | .processDamageEvent event => s.processDamageEvent event
  | .validated valid =>
    match s.running with
    | .skillValidator event :: running =>
      let s := { s with running }
      if valid then s.afterValidator event else (s, some (.returns event false {}))
    | _ => (s, none)
  | .derived damage =>
    match s.running with
    | .skillHandler event :: running => { s with running }.afterHandler event damage
    | _ => (s, none)
  | .handled =>
    match s.running with
    | .damageHandler event skill :: running => { s with running }.finish event skill
    | _ => (s, none)

end Dispatcher

end DungeonHub
