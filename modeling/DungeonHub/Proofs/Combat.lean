import DungeonHub.Combat
import DungeonHub.Lib.Run

/-!
# Damage is dealt once

Validators and handlers may call the dispatcher they are called by. Whatever they do, a damage event
is recorded once for everyone who is told of it, and a skill event gets one answer.
-/

namespace DungeonHub

open Run

def Move.skill : Move → Option SkillEvent
  | .processSkillEvent event => some event
  | _ => none

/-- The damage that is dealt without a skill. -/
def Move.direct : Move → Option DamageEvent
  | .processDamageEvent event => some event
  | _ => none

/-- The skill event that is waiting for the call. -/
def Callback.skill : Callback → Option SkillEvent
  | .skillValidator event => some event
  | .skillHandler event => some event
  | .damageHandler _ skill => skill

/-- The damage of the skill event that is waiting for the call. -/
def Callback.damage : Callback → Option DamageEvent
  | .damageHandler event skill => skill.map fun _ => event
  | _ => none

def Note.skill : Note → Option SkillEvent
  | .returns event _ _ => some event
  | _ => none

/-- The damage that a valid skill event has done. -/
def Note.damage : Note → Option DamageEvent
  | .returns _ true damage => some damage
  | _ => none

/-- The damage that the damage handler is told of. -/
def Note.told : Note → Option DamageEvent
  | .calls (.damageHandler event _) => some event
  | _ => none

namespace Dispatcher

variable {s t : Dispatcher} {skills : List SkillEvent} {due new : List DamageEvent}
  {r : Dispatcher × Option Note}

/-- The skill events that have no answer yet. -/
def unanswered (s : Dispatcher) : List SkillEvent := s.running.filterMap Callback.skill

/-- The damage of theirs that has been dealt. -/
def owed (s : Dispatcher) : List DamageEvent := s.running.filterMap Callback.damage

/-- What is done for the skill events, once it is clear which damage they do. -/
structure Books (s : Dispatcher) (skills : List SkillEvent) (due new : List DamageEvent)
    (r : Dispatcher × Option Note) : Prop where
  history : r.1.damageHistory = s.damageHistory ++ new
  damage : r.2.toList.filterMap Note.damage ++ r.1.owed = due ++ s.owed
  skills : r.2.toList.filterMap Note.skill ++ r.1.unanswered = skills ++ s.unanswered
  handler : r.1.damageHandler = s.damageHandler
  told : s.damageHandler = true → r.2.toList.filterMap Note.told = new
  refused : ∀ {event damage}, r.2 = some (.returns event false damage) → damage = {}

theorem finish_books (s : Dispatcher) (event : DamageEvent) :
    ∀ skill : Option SkillEvent,
      Books s skill.toList (skill.toList.map fun _ => event) [] (s.finish event skill)
  | none => by constructor <;> simp [finish]
  | some skill => by constructor <;> simp [finish, Note.damage, Note.skill, Note.told]

theorem dealDamage_books (s : Dispatcher) (event : DamageEvent) (skill : Option SkillEvent) :
    Books s skill.toList (skill.toList.map fun _ => event) [event] (s.dealDamage event skill) := by
  unfold dealDamage
  simp only []
  split_ifs with h
  · constructor <;>
      cases skill <;>
        simp [call, Note.damage, Note.skill, Note.told, owed, unanswered, Callback.damage,
          Callback.skill, List.filterMap_cons]
  · obtain ⟨-, hdamage, hskills, -, -, hrefused⟩ :=
      finish_books { s with damageHistory := s.damageHistory ++ [event] } event skill
    refine ⟨?_, hdamage, hskills, ?_, fun hset => absurd hset h, hrefused⟩ <;>
      cases skill <;>
        rfl

/-- A validator or skill handler is called for one skill event, and nothing is dealt yet. -/
theorem call_books {callback : Callback} {event : SkillEvent}
    (h : callback = .skillValidator event ∨ callback = .skillHandler event) (s : Dispatcher) :
    Books s [event] [] [] (s.call callback) := by
  rcases h with rfl | rfl <;>
    constructor <;>
      simp [call, Note.damage, Note.skill, Note.told, owed, unanswered, Callback.damage,
        Callback.skill, List.filterMap_cons]

theorem afterHandler_books (s : Dispatcher) (event : SkillEvent) (derived : Option DamageEvent) :
    Books s [event] [derived.getD (buildDamageFromSkill event)]
      [derived.getD (buildDamageFromSkill event)] (s.afterHandler event derived) :=
  s.dealDamage_books _ (some event)

/-- A valid event does the damage that is built from it, unless it is the skill handler's to say. -/
theorem afterValidator_books (s : Dispatcher) (event : SkillEvent) :
    ∃ new, Books s [event] new new (s.afterValidator event) ∧
      ∀ d ∈ new, d = buildDamageFromSkill event := by
  unfold afterValidator
  split_ifs
  · exact ⟨[], call_books (.inr rfl) s, by simp⟩
  · exact ⟨_, s.afterHandler_books event none, by simp⟩

theorem processSkillEvent_books (s : Dispatcher) (event : SkillEvent) :
    ∃ new, Books s [event] new new (s.processSkillEvent event) ∧
      ∀ d ∈ new, d = buildDamageFromSkill event := by
  unfold processSkillEvent
  split_ifs
  · exact ⟨[], call_books (.inl rfl) s, by simp⟩
  · exact s.afterValidator_books event

/-- A move records what is dealt by it, tells the damage handler, and answers or takes over the
skill events that it is about. -/
structure Moves (s : Dispatcher) (m : Move) (new : List DamageEvent) : Prop where
  history : (s.move m).1.damageHistory = s.damageHistory ++ new
  damage : (new ++ s.owed).Perm
    (m.direct.toList ++ ((s.move m).2.toList.filterMap Note.damage ++ (s.move m).1.owed))
  skills : (m.skill.toList ++ s.unanswered).Perm
    ((s.move m).2.toList.filterMap Note.skill ++ (s.move m).1.unanswered)
  handler : s.damageHandler = true → m ≠ .setDamageHandler false →
    (s.move m).1.damageHandler = true
  told : s.damageHandler = true → (s.move m).2.toList.filterMap Note.told = new
  refused : ∀ {event damage}, (s.move m).2 = some (.returns event false damage) → damage = {}
  source : ∀ d ∈ new, m = .processDamageEvent d ∨ m = .derived (some d) ∨
    ∃ event ∈ m.skill.toList ++ s.unanswered, d = buildDamageFromSkill event

/-- A move that does what is done for some skill events from a state that it has popped. -/
theorem Books.moves {m : Move} (h : Books t skills due new (s.move m))
    (hhistory : t.damageHistory = s.damageHistory) (hhandler : t.damageHandler = s.damageHandler)
    (hdamage : (new ++ s.owed).Perm (m.direct.toList ++ (due ++ t.owed)))
    (hskills : (m.skill.toList ++ s.unanswered).Perm (skills ++ t.unanswered))
    (hsource : ∀ d ∈ new, m = .processDamageEvent d ∨ m = .derived (some d) ∨
      ∃ event ∈ m.skill.toList ++ s.unanswered, d = buildDamageFromSkill event) :
    Moves s m new where
  history := hhistory ▸ h.history
  damage := h.damage ▸ hdamage
  skills := h.skills ▸ hskills
  handler := fun hset _ => h.handler.trans (hhandler.trans hset)
  told := fun hset => h.told (hhandler.trans hset)
  refused := h.refused
  source := hsource

/-- A move that is no call and no return. -/
theorem moves_nothing {m : Move} (hskill : m.skill = none) (hdirect : m.direct = none)
    (h : s.move m = (t, none)) (hhistory : t.damageHistory = s.damageHistory)
    (hrunning : t.running = s.running)
    (hhandler : s.damageHandler = true → m ≠ .setDamageHandler false → t.damageHandler = true) :
    Moves s m [] := by
  constructor
  case handler => rwa [h]
  all_goals simp [h, hhistory, hrunning, hskill, hdirect, owed, unanswered]

/-- A return of what does not run. -/
theorem moves_unfit {m : Move} (hskill : m.skill = none) (hdirect : m.direct = none)
    (h : s.move m = (s, none)) : Moves s m [] :=
  moves_nothing hskill hdirect h rfl rfl fun hset _ => hset

theorem exists_moves (s : Dispatcher) : ∀ m : Move, ∃ new, Moves s m new
  | .setSkillValidator set => by
    refine ⟨[], moves_nothing (t := (s.move (.setSkillValidator set)).1) rfl rfl ?_ ?_ ?_ ?_⟩ <;>
      simp only [move] <;> split_ifs <;> simp
  | .setSkillHandler set => by
    refine ⟨[], moves_nothing (t := (s.move (.setSkillHandler set)).1) rfl rfl ?_ ?_ ?_ ?_⟩ <;>
      simp only [move] <;> split_ifs <;> simp
  | .setDamageHandler set => by
    refine ⟨[], moves_nothing (t := (s.move (.setDamageHandler set)).1) rfl rfl ?_ ?_ ?_ ?_⟩ <;>
      simp only [move] <;> split_ifs <;> simp +contextual
  | .processSkillEvent event => by
    obtain ⟨new, hbooks, hbuilt⟩ := s.processSkillEvent_books event
    refine ⟨new, Books.moves (m := .processSkillEvent event) hbooks rfl rfl (.refl _) (.refl _) ?_⟩
    exact fun d hd => .inr (.inr ⟨event, by simp [Move.skill], hbuilt d hd⟩)
  | .processDamageEvent event => ⟨_, Books.moves (m := .processDamageEvent event)
      (s.dealDamage_books event none) rfl rfl (.refl _) (.refl _) (by simp)⟩
  | .validated valid => by
    rcases hr : s.running with - | ⟨event | event | ⟨event, skill⟩, running⟩
    · exact ⟨[], moves_unfit rfl rfl (by simp [move, hr])⟩
    · have hunanswered : s.unanswered = event :: { s with running }.unanswered := by
        simp [unanswered, hr, Callback.skill]
      have howed : s.owed = { s with running }.owed := by
        simp [owed, hr, Callback.damage, List.filterMap_cons]
      cases valid with
      | true =>
        obtain ⟨new, hbooks, hbuilt⟩ := { s with running }.afterValidator_books event
        rw [show afterValidator _ event = s.move (.validated true) by simp [move, hr]] at hbooks
        refine ⟨new, hbooks.moves rfl rfl (by simp [howed, Move.direct])
          (by simp [hunanswered, Move.skill]) fun d hd => ?_⟩
        exact .inr (.inr ⟨event, by simp [hunanswered], hbuilt d hd⟩)
      | false =>
        have hbooks : Books { s with running } [event] [] [] (s.move (.validated false)) := by
          constructor <;> simp [move, hr, Note.damage, Note.skill, Note.told]
        exact ⟨[], hbooks.moves rfl rfl (by simp [howed, Move.direct])
          (by simp [hunanswered, Move.skill]) (by simp)⟩
    · exact ⟨[], moves_unfit rfl rfl (by simp [move, hr])⟩
    · exact ⟨[], moves_unfit rfl rfl (by simp [move, hr])⟩
  | .derived damage => by
    rcases hr : s.running with - | ⟨event | event | ⟨event, skill⟩, running⟩
    · exact ⟨[], moves_unfit rfl rfl (by simp [move, hr])⟩
    · exact ⟨[], moves_unfit rfl rfl (by simp [move, hr])⟩
    · have hunanswered : s.unanswered = event :: { s with running }.unanswered := by
        simp [unanswered, hr, Callback.skill]
      have howed : s.owed = { s with running }.owed := by
        simp [owed, hr, Callback.damage, List.filterMap_cons]
      have hbooks := { s with running }.afterHandler_books event damage
      rw [show afterHandler _ event damage = s.move (.derived damage) by simp [move, hr]] at hbooks
      refine ⟨_, hbooks.moves rfl rfl (by simp [howed, Move.direct])
        (by simp [hunanswered, Move.skill]) fun d hd => ?_⟩
      obtain rfl := List.mem_singleton.mp hd
      cases damage with
      | none => exact .inr (.inr ⟨event, by simp [hunanswered], rfl⟩)
      | some damage => exact .inr (.inl rfl)
    · exact ⟨[], moves_unfit rfl rfl (by simp [move, hr])⟩
  | .handled => by
    rcases hr : s.running with - | ⟨event | event | ⟨event, skill⟩, running⟩
    · exact ⟨[], moves_unfit rfl rfl (by simp [move, hr])⟩
    · exact ⟨[], moves_unfit rfl rfl (by simp [move, hr])⟩
    · exact ⟨[], moves_unfit rfl rfl (by simp [move, hr])⟩
    · have hbooks := { s with running }.finish_books event skill
      rw [show finish _ event skill = s.move .handled by simp [move, hr]] at hbooks
      refine ⟨[], hbooks.moves rfl rfl ?_ ?_ (by simp)⟩ <;>
        cases skill <;>
          simp [owed, unanswered, hr, Callback.damage, Callback.skill, Move.direct, Move.skill,
            List.filterMap_cons]

def play (s : Dispatcher) (m : Move) : Dispatcher := (s.move m).1

/-- What there is to see of a run. -/
def notes (s : Dispatcher) (ms : List Move) : List Note :=
  (trail play s ms).filterMap fun x => (x.1.move x.2).2

theorem notes_cons (s : Dispatcher) (m : Move) (ms : List Move) :
    s.notes (m :: ms) = (s.move m).2.toList ++ (s.play m).notes ms :=
  filterMap_trail_cons ..

/-- A run does what its moves do. -/
structure Plays (s : Dispatcher) (ms : List Move) (new : List DamageEvent) : Prop where
  history : (after play s ms).damageHistory = s.damageHistory ++ new
  damage : (new ++ s.owed).Perm
    (ms.filterMap Move.direct ++ ((s.notes ms).filterMap Note.damage ++ (after play s ms).owed))
  skills : (ms.filterMap Move.skill ++ s.unanswered).Perm
    ((s.notes ms).filterMap Note.skill ++ (after play s ms).unanswered)
  told : s.damageHandler = true → .setDamageHandler false ∉ ms →
    (s.notes ms).filterMap Note.told = new
  refused : ∀ {event damage}, .returns event false damage ∈ s.notes ms → damage = {}
  source : ∀ d ∈ new, .processDamageEvent d ∈ ms ∨ .derived (some d) ∈ ms ∨
    ∃ event ∈ ms.filterMap Move.skill ++ s.unanswered, d = buildDamageFromSkill event

theorem Moves.plays {m : Move} {ms : List Move} {later : List DamageEvent} (h : Moves s m new)
    (hs : Plays (s.play m) ms later) : Plays s (m :: ms) (new ++ later) where
  history := by
    rw [after_cons, hs.history, play, h.history, List.append_assoc]
  damage := by
    rw [List.perm_iff_count]
    intro d
    have hnow := h.damage.count_eq d
    have hlater := hs.damage.count_eq d
    rw [filterMap_cons_toList, notes_cons, List.filterMap_append, after_cons]
    simp only [play, List.count_append] at hnow hlater ⊢
    omega
  skills := by
    rw [List.perm_iff_count]
    intro event
    have hnow := h.skills.count_eq event
    have hlater := hs.skills.count_eq event
    rw [filterMap_cons_toList, notes_cons, List.filterMap_append, after_cons]
    simp only [play, List.count_append] at hnow hlater ⊢
    omega
  told := fun hset hkept => by
    rw [List.mem_cons, not_or] at hkept
    rw [notes_cons, List.filterMap_append, h.told hset,
      hs.told (h.handler hset (Ne.symm hkept.1)) hkept.2]
  refused := fun hmem => by
    rw [notes_cons, List.mem_append, Option.mem_toList] at hmem
    rcases hmem with hnow | hlater
    · exact h.refused hnow
    · exact hs.refused hlater
  source := fun d hd => by
    rw [filterMap_cons_toList]
    rcases List.mem_append.mp hd with hnow | hlater
    · rcases h.source d hnow with rfl | rfl | ⟨event, hevent, rfl⟩
      · simp
      · simp
      · refine .inr (.inr ⟨event, ?_, rfl⟩)
        simp only [List.mem_append] at hevent ⊢
        tauto
    · rcases hs.source d hlater with hdirect | hderived | ⟨event, hevent, rfl⟩
      · exact .inl (List.mem_cons_of_mem _ hdirect)
      · exact .inr (.inl (List.mem_cons_of_mem _ hderived))
      · refine .inr (.inr ⟨event, ?_, rfl⟩)
        have hheld : (s.play m).unanswered ⊆ m.skill.toList ++ s.unanswered :=
          fun _ hheld => h.skills.symm.subset (List.mem_append_right _ hheld)
        have hfrom := @hheld event
        simp only [List.mem_append] at hevent hfrom ⊢
        tauto

theorem exists_plays : ∀ (ms : List Move) (s : Dispatcher), ∃ new, Plays s ms new
  | [], s => ⟨[], by constructor <;> simp [notes, trail]⟩
  | m :: ms, s => by
    obtain ⟨new, hnow⟩ := s.exists_moves m
    obtain ⟨later, hlater⟩ := exists_plays ms (s.play m)
    exact ⟨_, hnow.plays hlater⟩

/-- However validators and handlers call back, what a run adds to the history is the damage dealt
directly and that of the valid skill events, once each, and nobody has made it up. Every skill event
has one answer, or is on its way to it; one that is not valid does no damage. A damage handler that
stays is told of what is recorded, in that order. -/
theorem damage_dealt_once (s : Dispatcher) (hs : s.running = []) (ms : List Move) :
    let t := after play s ms
    ∃ new, t.damageHistory = s.damageHistory ++ new ∧
      new.Perm (ms.filterMap Move.direct ++ ((s.notes ms).filterMap Note.damage ++ t.owed)) ∧
      (ms.filterMap Move.skill).Perm ((s.notes ms).filterMap Note.skill ++ t.unanswered) ∧
      (∀ d ∈ new, .processDamageEvent d ∈ ms ∨ .derived (some d) ∈ ms ∨
        ∃ event, .processSkillEvent event ∈ ms ∧ d = buildDamageFromSkill event) ∧
      (∀ event damage, .returns event false damage ∈ s.notes ms → damage = {}) ∧
      (s.damageHandler = true → .setDamageHandler false ∉ ms →
        (s.notes ms).filterMap Note.told = new) := by
  intro t
  obtain ⟨new, hplays⟩ := exists_plays ms s
  have howed : s.owed = [] := by simp [owed, hs]
  have hunanswered : s.unanswered = [] := by simp [unanswered, hs]
  have hdamage := hplays.damage
  have hskills := hplays.skills
  rw [howed, List.append_nil] at hdamage
  rw [hunanswered, List.append_nil] at hskills
  refine ⟨new, hplays.history, hdamage, hskills, fun d hd => ?_, fun _ _ => hplays.refused,
    hplays.told⟩
  rcases hplays.source d hd with hdirect | hderived | ⟨event, hevent, heq⟩
  · exact .inl hdirect
  · exact .inr (.inl hderived)
  · rw [hunanswered, List.append_nil] at hevent
    obtain ⟨m, hm, hskill⟩ := List.mem_filterMap.mp hevent
    cases m <;> simp [Move.skill] at hskill
    exact .inr (.inr ⟨event, hskill ▸ hm, heq⟩)

/-- A skill event whose damage is answered in kind. -/
theorem damage_dealt_once_thorns :
    (notes { damageHandler := true } [.processSkillEvent ⟨1, 2, 9, 10⟩,
      .processDamageEvent ⟨2, 1, 9, 3⟩, .handled, .handled]).filterMap Note.told =
        [⟨1, 2, 9, 10⟩, ⟨2, 1, 9, 3⟩] := by
  obtain ⟨new, hnew, -, -, -, -, htold⟩ := damage_dealt_once { damageHandler := true } rfl
    [.processSkillEvent ⟨1, 2, 9, 10⟩, .processDamageEvent ⟨2, 1, 9, 3⟩, .handled, .handled]
  rw [htold rfl (by simp)]
  exact hnew.symm

end Dispatcher

end DungeonHub
