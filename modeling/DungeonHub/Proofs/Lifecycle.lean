import DungeonHub.Lib.Walk
import DungeonHub.Proofs.Parties

/-!
# The lives of instances

An instance is never deleted and keeps its id and its party. It moves along the edges that the
architecture lists or ends early, so the states it enters are a walk that goes up all the time: a
run that is over has been ready and played before, once each.
-/

namespace DungeonHub

namespace InstanceManager

open Run

section Graph

/-- The transitions that the rules of the architecture list. -/
def documented : List (InstanceState × InstanceState) :=
  [(.waiting, .ready), (.ready, .playing), (.playing, .clear), (.playing, .fail),
    (.clear, .terminate), (.fail, .terminate)]

/-- A listed transition, or the end of an instance that has not ended. -/
def Edge (a b : InstanceState) : Prop :=
  (a, b) ∈ documented ∨ (b = .terminate ∧ a ≠ .terminate)

instance (a b : InstanceState) : Decidable (Edge a b) :=
  inferInstanceAs (Decidable ((a, b) ∈ documented ∨ (b = .terminate ∧ a ≠ .terminate)))

/-- Every edge goes up. -/
def rank : InstanceState → ℕ
  | .waiting => 0
  | .ready => 1
  | .playing => 2
  | .clear => 3
  | .fail => 3
  | .terminate => 4

variable {a b : InstanceState}

theorem transitionAllowed_iff : transitionAllowed a b = true ↔ Edge a b := by
  cases a <;> cases b <;> decide

theorem Edge.rank_lt (h : Edge a b) : rank a < rank b := by
  revert h
  cases a <;> cases b <;> decide

theorem Edge.ne (h : Edge a b) : a ≠ b := by
  rintro rfl
  exact Nat.lt_irrefl _ h.rank_lt

theorem edge_waiting (a : InstanceState) : ¬ Edge a .waiting := by
  cases a <;> decide

theorem Edge.of_ready (h : Edge a .ready) : a = .waiting := by
  revert h
  cases a <;> decide

theorem Edge.of_playing (h : Edge a .playing) : a = .ready := by
  revert h
  cases a <;> decide

theorem Edge.of_over (h : Edge a b) (hb : b = .clear ∨ b = .fail) : a = .playing := by
  revert h
  rcases hb with rfl | rfl
  · cases a <;> decide
  · cases a <;> decide

theorem Edge.not_terminate (h : Edge .terminate b) : False := by
  revert h
  cases b <;> decide

variable {log : List InstanceState}

/-- Whatever is over was waiting, ready and played, in this order and once each. -/
theorem walk_over (h : Walk .waiting Edge log (some b)) (hb : b = .clear ∨ b = .fail) :
    log = [.waiting, .ready, .playing, b] := by
  have hne : b ≠ .waiting := by rcases hb with rfl | rfl <;> decide
  obtain ⟨log₁, a₁, rfl, hover, h⟩ := h.from_of_ne hne
  obtain rfl := hover.of_over hb
  obtain ⟨log₂, a₂, rfl, hplay, h⟩ := h.from_of_ne (by decide)
  obtain rfl := hplay.of_playing
  obtain ⟨log₃, a₃, rfl, hready, h⟩ := h.from_of_ne (by decide)
  obtain rfl := hready.of_ready
  rw [h.eq_of_start edge_waiting]
  rfl

end Graph

section Moves

/-- What a call can do to the entry of an instance. -/
inductive Moves (instanceId : ℕ) : Option InstanceRecord → Option InstanceRecord → Prop where
  | stay (entry : Option InstanceRecord) : Moves instanceId entry entry
  | create (partyId : ℕ) : Moves instanceId none (some ⟨instanceId, partyId, .waiting⟩)
  | move (record : InstanceRecord) (next : InstanceState) (h : Edge record.state next) :
      Moves instanceId (some record) (some { record with state := next })

variable (m : InstanceManager) (partyService : PartyService)

/-- A party that is there has its leader among its members. -/
theorem isPartyReady_eq (h : partyService.Sound) (partyId : ℕ) :
    isPartyReady partyId partyService = (partyService.getPartyInfo partyId).isSome := by
  unfold isPartyReady PartyService.getPartyInfo
  rcases hp : partyService.parties[partyId]? with _ | party
  · rfl
  obtain ⟨leader, hleader⟩ := (Dict.mem_iff _ _).mp (h.roster.leader_view hp)
  have hmem : leader ∈ party.members.elems.insertionSort fun a b => a.sessionId ≤ b.sessionId :=
    (List.mem_insertionSort _).mpr ((Dict.mem_elems _ _).mpr ⟨_, hleader⟩)
  have hid : leader.sessionId = party.leaderSessionId := h.named partyId party hp _ leader hleader
  simp only [Option.map_some, Option.isSome_some, Bool.and_eq_true, Bool.not_eq_true',
    List.isEmpty_eq_false_iff, List.any_eq_true, decide_eq_true_eq]
  exact ⟨List.ne_nil_of_mem hmem, leader, hmem, hid⟩

theorem requestTransition_cases (instanceId : ℕ) (next : InstanceState) :
    (∃ record, m.getInstance instanceId = some record ∧ Edge record.state next ∧
      (next = .ready ∨ next = .playing → isPartyReady record.partyId partyService = true) ∧
      m.requestTransition instanceId next partyService = (true, { m with
        instances := m.instances.insert instanceId { record with state := next } })) ∨
    ((∀ record, m.getInstance instanceId = some record → Edge record.state next →
        (next = .ready ∨ next = .playing) ∧ isPartyReady record.partyId partyService = false) ∧
      m.requestTransition instanceId next partyService = (false, m)) := by
  unfold requestTransition getInstance
  split
  · rename_i hr
    exact .inr ⟨by simp [hr], rfl⟩
  · rename_i record hr
    rw [hr]
    split_ifs with hsame hno hparty
    · refine .inr ⟨?_, rfl⟩
      rintro _ ⟨⟩ he
      exact absurd hsame he.ne
    · refine .inr ⟨?_, rfl⟩
      rintro _ ⟨⟩ he
      rw [Bool.not_eq_true', ← Bool.not_eq_true, transitionAllowed_iff] at hno
      exact absurd he hno
    · refine .inr ⟨?_, rfl⟩
      rintro _ ⟨⟩ he
      exact ⟨hparty.1, by simpa using hparty.2⟩
    · refine .inl ⟨record, rfl, ?_, ?_, rfl⟩
      · rw [Bool.not_eq_true', Bool.not_eq_false, transitionAllowed_iff] at hno
        exact hno
      · intro hnext
        by_contra hready
        exact hparty ⟨hnext, by simpa using hready⟩

/-- One entry is changed. -/
theorem moves_insert {instanceId : ℕ} {record : InstanceRecord} {next : InstanceState}
    (hr : m.instances[instanceId]? = some record) (h : Edge record.state next) (i : ℕ) :
    Moves i m.instances[i]?
      (m.instances.insert instanceId { record with state := next })[i]? := by
  rw [Dict.get?_insert]
  split_ifs with hi
  · rw [← hi, hr]
    exact .move record next h
  · exact .stay _

theorem createInstance_moves (partyId i : ℕ) :
    Moves i m.instances[i]? (m.createInstance partyId partyService).2.instances[i]? := by
  unfold createInstance
  split
  · exact .stay _
  · by_cases hm : m.nextInstanceId ∈ m.instances
    · rw [show (m.instances.insertIfNew m.nextInstanceId _)[i]? = m.instances[i]? by
        rw [Std.ExtTreeMap.getElem?_insertIfNew, if_neg fun h => h.2 hm]]
      exact .stay _
    · rw [show (m.instances.insertIfNew m.nextInstanceId _)[i]? =
          if m.nextInstanceId = i then some _ else m.instances[i]? by
        rw [Dict.insertIfNew_of_not_mem _ _ hm, Dict.get?_insert]]
      split_ifs with hi
      · subst hi
        rw [(Dict.not_mem_iff _ _).mp hm]
        exact .create partyId
      · exact .stay _

theorem terminateInstance_moves (instanceId i : ℕ) :
    Moves i m.instances[i]? (m.terminateInstance instanceId).2.instances[i]? := by
  unfold terminateInstance
  split
  · exact .stay _
  · rename_i record hr
    by_cases ht : record.state = .terminate
    · have hrecord : { record with state := .terminate } = record := by rw [← ht]
      show Moves i _ (m.instances.insert instanceId { record with state := .terminate })[i]?
      rw [hrecord, Dict.get?_insert]
      split_ifs with hi
      · rw [← hi, hr]
        exact .stay _
      · exact .stay _
    · exact m.moves_insert hr (.inr ⟨rfl, ht⟩) i

theorem call_moves (call : InstanceCall) (i : ℕ) :
    Moves i m.instances[i]? (m.call partyService call).instances[i]? := by
  cases call with
  | createInstance partyId => exact m.createInstance_moves partyService partyId i
  | terminateInstance instanceId => exact m.terminateInstance_moves instanceId i
  | requestTransition instanceId next =>
    show Moves i _ (m.requestTransition instanceId next partyService).2.instances[i]?
    rcases m.requestTransition_cases partyService instanceId next with
      ⟨record, hr, he, -, h⟩ | ⟨-, h⟩
    · rw [h]
      exact m.moves_insert hr he i
    · rw [h]
      exact .stay _

end Moves

section Runs

/-- A call on one of the two services. -/
inductive Call where
  | party (call : PartyCall)
  | inst (call : InstanceCall)

/-- The two services after a call on one of them. -/
def act (s : PartyService × InstanceManager) : Call → PartyService × InstanceManager
  | .party call => (s.1.call call, s.2)
  | .inst call => (s.1, s.2.call s.1 call)

/-- The two services after a run from the start. -/
def reached (calls : List Call) : PartyService × InstanceManager := after act ({}, {}) calls

/-- The state of an instance. -/
def stateOf (instanceId : ℕ) (s : PartyService × InstanceManager) : Option InstanceState :=
  (s.2.getInstance instanceId).map InstanceRecord.state

/-- The states that an instance enters in a run from the start, in order. -/
def statesOf (instanceId : ℕ) (calls : List Call) : List InstanceState :=
  entered act (stateOf instanceId) ({}, {}) calls

theorem act_moves (s : PartyService × InstanceManager) (call : Call) (instanceId : ℕ) :
    Moves instanceId s.2.instances[instanceId]? (act s call).2.instances[instanceId]? := by
  cases call with
  | party call => exact .stay _
  | inst call => exact s.2.call_moves s.1 call instanceId

theorem walk_statesOf (instanceId : ℕ) (calls : List Call) :
    Walk .waiting Edge (statesOf instanceId calls) (stateOf instanceId (reached calls)) := by
  refine walk_entered (fun s call => ?_) calls (by simp [stateOf, getInstance])
  have hmoves := act_moves s call instanceId
  unfold stateOf getInstance
  generalize s.2.instances[instanceId]? = entry at hmoves ⊢
  generalize (act s call).2.instances[instanceId]? = entry' at hmoves ⊢
  cases hmoves with
  | stay => exact .inl rfl
  | create partyId => exact .inr (.inl ⟨rfl, rfl⟩)
  | move record next h => exact .inr (.inr ⟨record.state, next, rfl, rfl, h⟩)

theorem reached_sound (calls : List Call) : (reached calls).1.Sound := by
  refine stable (I := fun s : PartyService × InstanceManager => s.1.Sound) (fun s call hs => ?_)
    calls PartyService.sound_new
  cases call with
  | party call => exact (PartyService.call_goes hs call).2
  | inst call => exact hs

/-- An instance stays, with its id and its party, and once it has ended just as it is. -/
theorem instance_stays (calls more : List Call) (instanceId : ℕ) (record : InstanceRecord)
    (h : (reached calls).2.getInstance instanceId = some record) :
    ∃ record', (reached (calls ++ more)).2.getInstance instanceId = some record' ∧
      record'.id = record.id ∧ record'.partyId = record.partyId ∧
      (record.state = .terminate → record' = record) := by
  unfold reached
  rw [after_append]
  refine stable (I := fun s : PartyService × InstanceManager =>
    ∃ record', s.2.getInstance instanceId = some record' ∧ record'.id = record.id ∧
      record'.partyId = record.partyId ∧ (record.state = .terminate → record' = record))
    (fun s call hs => ?_) more ⟨record, h, rfl, rfl, fun _ => rfl⟩
  obtain ⟨record', hr, hid, hparty, hend⟩ := hs
  have hmoves := act_moves s call instanceId
  unfold getInstance at hr ⊢
  rw [hr] at hmoves
  generalize (act s call).2.instances[instanceId]? = entry at hmoves ⊢
  cases hmoves with
  | stay => exact ⟨record', rfl, hid, hparty, hend⟩
  | move _ next h =>
    refine ⟨{ record' with state := next }, rfl, hid, hparty, fun ht => ?_⟩
    rw [hend ht, ht] at h
    exact h.not_terminate.elim

theorem request_iff {partyService : PartyService} (hs : partyService.Sound) (m : InstanceManager)
    (instanceId : ℕ) (next : InstanceState) :
    (m.requestTransition instanceId next partyService).1 = true ↔
      ∃ record, m.getInstance instanceId = some record ∧ Edge record.state next ∧
        (next = .ready ∨ next = .playing → record.partyId ∈ partyService.parties) := by
  have hready : ∀ partyId,
      isPartyReady partyId partyService = true ↔ partyId ∈ partyService.parties := by
    intro partyId
    rw [isPartyReady_eq _ hs, PartyService.getPartyInfo, Option.isSome_map,
      Std.ExtTreeMap.mem_iff_isSome_getElem?]
  rcases m.requestTransition_cases partyService instanceId next with
    ⟨record, hr, he, hp, h⟩ | ⟨hno, h⟩
  · rw [h]
    exact ⟨fun _ => ⟨record, hr, he, fun hnext => (hready _).mp (hp hnext)⟩, fun _ => rfl⟩
  · rw [h]
    refine ⟨fun hfalse => absurd hfalse (by simp), ?_⟩
    rintro ⟨record, hr, he, hp⟩
    obtain ⟨hnext, hfalse⟩ := hno record hr he
    rw [(hready _).mpr (hp hnext)] at hfalse
    cases hfalse

/-- The life of every instance, in any run of the two services. -/
theorem lifecycle (calls : List Call) :
    (∀ instanceId record, (reached calls).2.getInstance instanceId = some record →
      ∀ more, ∃ record', (reached (calls ++ more)).2.getInstance instanceId = some record' ∧
        record'.id = record.id ∧ record'.partyId = record.partyId ∧
        (record.state = .terminate → record' = record)) ∧
    (∀ instanceId next,
      ((reached calls).2.requestTransition instanceId next (reached calls).1).1 = true ↔
        ∃ record, (reached calls).2.getInstance instanceId = some record ∧
          Edge record.state next ∧
          (next = .ready ∨ next = .playing → record.partyId ∈ (reached calls).1.parties)) ∧
    (∀ partyId, isPartyReady partyId (reached calls).1 =
      ((reached calls).1.getPartyInfo partyId).isSome) ∧
    (∀ instanceId next,
      ((reached calls).2.requestTransition instanceId next (reached calls).1).1 = false →
      ((reached calls).2.requestTransition instanceId next (reached calls).1).2 =
        (reached calls).2) ∧
    (∀ instanceId record, (reached calls).2.getInstance instanceId = some record →
      record.state = .clear ∨ record.state = .fail →
      statesOf instanceId calls = [.waiting, .ready, .playing, record.state]) ∧
    ∀ instanceId, (statesOf instanceId calls).Nodup := by
  have hsound := reached_sound calls
  refine ⟨fun instanceId record h more => instance_stays calls more instanceId record h,
    request_iff hsound _, isPartyReady_eq _ hsound, ?_, ?_, ?_⟩
  · intro instanceId next hfalse
    rcases (reached calls).2.requestTransition_cases (reached calls).1 instanceId next with
      ⟨record, -, -, -, h⟩ | ⟨-, h⟩
    · rw [h] at hfalse
      cases hfalse
    · rw [h]
  · intro instanceId record hr hover
    have hwalk := walk_statesOf instanceId calls
    unfold stateOf at hwalk
    rw [hr] at hwalk
    exact walk_over hwalk hover
  · intro instanceId
    exact (walk_statesOf instanceId calls).nodup rank fun a b he => he.rank_lt

/-- The rules list no way to end an instance that is still waiting, and yet it can be ended. -/
theorem waiting_terminates :
    ¬ ∀ (calls : List Call) (instanceId : ℕ) (next : InstanceState),
      ((reached calls).2.requestTransition instanceId next (reached calls).1).1 = true ↔
        ∃ record, (reached calls).2.getInstance instanceId = some record ∧
          (record.state, next) ∈ documented ∧
          (next = .ready ∨ next = .playing → record.partyId ∈ (reached calls).1.parties) := by
  intro h
  obtain ⟨record, hr, he, -⟩ :=
    (h [.party (.createParty 1 (str "a")), .inst (.createInstance 1)] 1 .terminate).mp
      (by decide +kernel)
  have hrecord : (reached [.party (.createParty 1 (str "a")),
      .inst (.createInstance 1)]).2.getInstance 1 = some ⟨1, 1, .waiting⟩ := by decide +kernel
  rw [hrecord] at hr
  cases hr
  revert he
  decide

end Runs

end InstanceManager

end DungeonHub
