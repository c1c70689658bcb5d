import DungeonHub.Proofs.Lifecycle
import DungeonHub.Proofs.Provenance

/-!
# The server and the services behind it

Whatever happens to a server, its parties and instances change by calls of the two services only, so
what holds in any run of the services holds in the server. Most packets leave parties, matches and
instances alone.
-/

namespace DungeonHub

open Run Wire

namespace InstanceManager

section Numbers

variable {s : PartyService × InstanceManager}

/-- Ids of instances are counted up. -/
def Below (m : InstanceManager) : Prop := ∀ i ∈ m.instances, i < m.nextInstanceId

theorem requestTransition_next (m : InstanceManager) (instanceId : ℕ) (next : InstanceState)
    (partyService : PartyService) :
    (m.requestTransition instanceId next partyService).2.nextInstanceId = m.nextInstanceId := by
  rcases m.requestTransition_cases partyService instanceId next with ⟨_, -, -, -, h⟩ | ⟨-, h⟩
  · rw [h]
  · rw [h]

theorem terminateInstance_next (m : InstanceManager) (instanceId : ℕ) :
    (m.terminateInstance instanceId).2.nextInstanceId = m.nextInstanceId := by
  unfold terminateInstance
  split <;> rfl

theorem act_next_le (s : PartyService × InstanceManager) (call : Call) :
    s.2.nextInstanceId ≤ (act s call).2.nextInstanceId := by
  cases call with
  | party call => exact le_rfl
  | inst call =>
    cases call with
    | createInstance partyId =>
      show _ ≤ (s.2.createInstance partyId s.1).2.nextInstanceId
      unfold createInstance
      split
      · exact le_rfl
      · exact Nat.le_succ _
    | terminateInstance instanceId => exact (s.2.terminateInstance_next instanceId).ge
    | requestTransition instanceId next =>
      exact (s.2.requestTransition_next instanceId next s.1).ge

theorem next_le_after (calls : List Call) (s : PartyService × InstanceManager) :
    s.2.nextInstanceId ≤ (after act s calls).2.nextInstanceId :=
  stable (I := fun s' : PartyService × InstanceManager => s.2.nextInstanceId ≤ s'.2.nextInstanceId)
    (fun s' call h => h.trans (act_next_le s' call)) calls le_rfl

theorem insert_below {m : InstanceManager} (h : m.Below) {instanceId : ℕ}
    {record record' : InstanceRecord} (hr : m.instances[instanceId]? = some record) :
    Below { m with instances := m.instances.insert instanceId record' } := by
  intro i hi
  rcases (Dict.mem_insert _ _ _ _).mp hi with rfl | hi
  · exact h _ ((Dict.mem_iff _ _).mpr ⟨record, hr⟩)
  · exact h i hi

theorem act_below (h : s.2.Below) (call : Call) : (act s call).2.Below := by
  cases call with
  | party call => exact h
  | inst call =>
    cases call with
    | createInstance partyId =>
      show (s.2.createInstance partyId s.1).2.Below
      unfold createInstance
      split
      · exact h
      · intro i hi
        rcases (Dict.mem_insertIfNew _ _ _ _).mp hi with rfl | hi
        · exact Nat.lt_succ_self _
        · exact Nat.lt_succ_of_lt (h i hi)
    | terminateInstance instanceId =>
      show (s.2.terminateInstance instanceId).2.Below
      unfold terminateInstance
      split
      · exact h
      · rename_i record hr
        exact insert_below h hr
    | requestTransition instanceId next =>
      show (s.2.requestTransition instanceId next s.1).2.Below
      rcases s.2.requestTransition_cases s.1 instanceId next with ⟨record, hr, -, -, h'⟩ | ⟨-, h'⟩
      · rw [h']
        exact insert_below h hr
      · rw [h']
        exact h

end Numbers

end InstanceManager

namespace Server

open InstanceManager

variable {σ : Type}

section Passing

variable {s : Server σ} {id : ℕ} {session : Session} {header : FrameHeader} {payload body : Bytes}

/-- A packet that passes goes on to its handler with what it carries. -/
theorem gatePacket_of_passes (h : Passes s.securityPolicy session header payload)
    (hbody : bodyOf s.securityPolicy payload = some body) (now : Time) :
    ∃ session', s.gatePacket session header payload now = (.passed body, session') := by
  obtain ⟨inner, hinner⟩ := gate_passed_iff.mpr ((passes_received now).mpr h)
  have hcarried := (gate_passed hinner).2
  rw [hbody, Option.some.injEq] at hcarried
  subst hcarried
  exact ⟨(s.gatePacket session header payload now).2, Prod.ext hinner rfl⟩

end Passing

section Apart

/-- Parties, matches and instances are as they were. -/
structure Apart (s s' : Server σ) : Prop where
  party : s'.partyService = s.partyService
  queue : s'.matchQueue = s.matchQueue
  instances : s'.instanceManager = s.instanceManager
  tickets : s'.instanceTickets = s.instanceTickets

variable {s s' s'' : Server σ}

theorem Apart.refl (s : Server σ) : Apart s s := ⟨rfl, rfl, rfl, rfl⟩

theorem Apart.trans (h : Apart s s') (h' : Apart s' s'') : Apart s s'' where
  party := h'.party.trans h.party
  queue := h'.queue.trans h.queue
  instances := h'.instances.trans h.instances
  tickets := h'.tickets.trans h.tickets

theorem Delivers.apart (h : Delivers s s') : Apart s s' := by
  obtain ⟨heap, clock, rfl, -⟩ := h
  exact ⟨rfl, rfl, rfl, rfl⟩

theorem Spares.apart {id : ℕ} (h : Spares id s s') : Apart s s' :=
  ⟨h.party, h.queue, h.instances, h.tickets⟩

/-- Guilds are something else. -/
theorem Apart.of_guild {guildService : GuildService} (h : Apart { s with guildService } s') :
    Apart s s' := ⟨h.party, h.queue, h.instances, h.tickets⟩

theorem countError_apart (s : Server σ) : Apart s s.countError := ⟨rfl, rfl, rfl, rfl⟩

theorem receive_apart (s : Server σ) (id : ℕ) (session : Session) (payload : Bytes) :
    Apart s (s.receive id session payload) := ⟨rfl, rfl, rfl, rfl⟩

theorem sendChat_apart (s : Server σ) (event : ChatEvent) (recipients : List ℕ) :
    Apart s (s.sendChat event recipients).2 := by
  unfold sendChat
  split_ifs
  · exact .refl s
  · exact Run.related .refl .trans (fun s _ => (s.deliver_delivers _ _).apart) recipients s

theorem handlePartyChat_apart (s : Server σ) (id : ℕ) (user : UserContext)
    (request : ChatSendRequest) : Apart s (s.handlePartyChat id user request).2 := by
  unfold handlePartyChat
  split
  · exact s.countError_apart
  · rename_i partyId recipients h
    simp only []
    have hsend := s.sendChat_apart
      ⟨.party, UInt64.ofNat partyId, user.userId, request.message⟩ recipients
    rcases hs : s.sendChat ⟨.party, UInt64.ofNat partyId, user.userId, request.message⟩ recipients
      with ⟨_ | _, s'⟩
    · rw [hs] at hsend
      exact hsend.trans s'.countError_apart
    · rw [hs] at hsend
      exact hsend

theorem handleChat_apart (s : Server σ) (id : ℕ) (payload : Bytes) :
    Apart s (s.handleChat id payload).2 := by
  unfold handleChat
  simp only []
  split
  · exact s.countError_apart
  · rename_i request user h
    by_cases hg : request.channel = .global
    · rw [if_pos hg]
      exact s.sendChat_apart _ _
    · rw [if_neg hg]
      split
      · exact s.handlePartyChat_apart id user request
      · exact s.countError_apart

theorem handleGuildCreate_apart (s : Server σ) (id : ℕ) (payload : Bytes) :
    Apart s (s.handleGuildCreate id payload).2 := by
  unfold handleGuildCreate
  simp only []
  split
  · exact s.countError_apart
  · rename_i request user h
    have hs := (deliverGuildEvents_delivers
      { s with guildService := (s.guildService.createGuild id user.userId request.guildName).2.2 }
      (s.guildService.createGuild id user.userId request.guildName).2.1).apart.of_guild
    rcases hg : s.guildService.createGuild id user.userId request.guildName with
      ⟨_ | guildId, events, guildService⟩
    · rw [hg] at hs
      exact hs.trans (countError_apart _)
    · rw [hg] at hs
      exact hs

theorem handleGuildJoin_apart (s : Server σ) (id : ℕ) (payload : Bytes) :
    Apart s (s.handleGuildJoin id payload).2 := by
  unfold handleGuildJoin
  simp only []
  split
  · exact s.countError_apart
  · exact (deliverGuildEvents_delivers _ _).apart.of_guild

theorem handleGuildLeave_apart (s : Server σ) (id : ℕ) (payload : Bytes) :
    Apart s (s.handleGuildLeave id payload).2 := by
  unfold handleGuildLeave
  split
  · exact s.countError_apart
  · exact (deliverGuildEvents_delivers _ _).apart.of_guild

theorem handleInventoryUpdate_apart [InventoryStorage σ] (s : Server σ) (id : ℕ)
    (payload : Bytes) : Apart s (s.handleInventoryUpdate id payload).2 := by
  unfold handleInventoryUpdate
  simp only []
  split
  · exact s.countError_apart
  · exact ⟨rfl, rfl, rfl, rfl⟩

theorem grantResult_apart [InventoryStorage σ] (s : Server σ) (id instanceId : ℕ)
    (rewards : List RewardItem) : Apart s (s.grantResult id instanceId rewards).2 := by
  rcases s.grantResult_cases id instanceId rewards with ⟨-, _, _, h⟩ | ⟨-, -, -, _, _, _, h⟩
  · rw [h]
    exact ⟨rfl, rfl, rfl, rfl⟩
  · rw [h]
    exact ⟨rfl, rfl, rfl, rfl⟩

theorem tickSessions_apart (s : Server σ) (now : Time) : Apart s (s.tickSessions now).2 := by
  unfold tickSessions
  refine List.foldlRecOn (motive := fun p : List ℕ × Server σ => Apart s p.2) _ _ (.refl s) ?_
  rintro ⟨toRemove, t⟩ ht id -
  simp only []
  split
  · exact ht
  · exact ht.trans ⟨rfl, rfl, rfl, rfl⟩

end Apart

section Serves

/-- Parties and instances have changed by calls of their services, and the tickets of the instances
there were are as they were. -/
structure Serves (s s' : Server σ) : Prop where
  queue : s'.matchQueue = s.matchQueue
  services : ∃ calls, (s'.partyService, s'.instanceManager) =
    after act (s.partyService, s.instanceManager) calls
  tickets : ∀ i < s.instanceManager.nextInstanceId, s'.instanceTickets[i]? = s.instanceTickets[i]?

variable {s s' s'' : Server σ}

theorem Apart.serves (h : Apart s s') : Serves s s' := by
  refine ⟨h.queue, ⟨[], ?_⟩, fun i _ => by rw [h.tickets]⟩
  rw [h.party, h.instances, after_nil]

theorem Serves.trans (h : Serves s s') (h' : Serves s' s'') : Serves s s'' := by
  obtain ⟨calls, hcalls⟩ := h.services
  obtain ⟨calls', hcalls'⟩ := h'.services
  refine ⟨h'.queue.trans h.queue, ⟨calls ++ calls', ?_⟩, fun i hi => ?_⟩
  · rw [after_append, ← hcalls, hcalls']
  · refine (h'.tickets i ?_).trans (h.tickets i hi)
    have hnext := next_le_after calls (s.partyService, s.instanceManager)
    rw [← hcalls] at hnext
    exact Nat.lt_of_lt_of_le hi hnext

/-- A call of one of the services. -/
theorem serves_call (s : Server σ) (call : Call) :
    Serves s { s with
      partyService := (act (s.partyService, s.instanceManager) call).1
      instanceManager := (act (s.partyService, s.instanceManager) call).2 } :=
  ⟨rfl, ⟨[call], rfl⟩, fun _ _ => rfl⟩

theorem takeOver_serves (s : Server σ) (existing id : ℕ) : Serves s (s.takeOver existing id) := by
  unfold takeOver
  split
  · exact Apart.serves ⟨rfl, rfl, rfl, rfl⟩
  · exact (s.serves_call (.party (.replaceMemberSession existing id))).trans
      (Apart.serves ⟨rfl, rfl, rfl, rfl⟩)

theorem reclaim_serves (s : Server σ) (userId : Str) (id : ℕ) :
    Serves s (s.reclaim userId id) := by
  unfold reclaim
  split
  · exact (Apart.refl s).serves
  · exact s.takeOver_serves _ _

theorem handleReconnect_serves (s : Server σ) (id : ℕ) (payload : Bytes) (now : Time) :
    Serves s (s.handleReconnect id payload now).2 := by
  rcases s.handleReconnect_refused id payload now with
    ⟨-, tokenService, -, h⟩ | ⟨request, userId, h⟩
  · rw [h]
    exact Apart.serves ⟨rfl, rfl, rfl, rfl⟩
  · rw [handleReconnect_of_valid h]
    split_ifs
    · exact (s.reclaim_serves userId id).trans (Apart.serves ⟨rfl, rfl, rfl, rfl⟩)
    · exact (s.reclaim_serves userId id).trans (Apart.serves ⟨rfl, rfl, rfl, rfl⟩)

theorem removeSession_serves (s : Server σ) (id : ℕ) : Serves s (s.removeSession id) := by
  have h := (s.removeSession_delivers id).apart
  refine (s.serves_call (.party (.removeMember id))).trans (Apart.serves ?_)
  exact ⟨h.party, h.queue, h.instances, h.tickets⟩

theorem tick_serves (s : Server σ) (now : Time) : Serves s (s.tick now) :=
  List.foldlRecOn (motive := fun t => Serves s t) _ _ (s.tickSessions_apart now).serves
    fun t ht id _ => ht.trans (t.removeSession_serves id)

theorem handleEnter_serves (s : Server σ) (id : ℕ) (payload : Bytes) :
    Serves s (s.handleEnter id payload).2 := by
  unfold handleEnter
  split
  · exact s.countError_apart.serves
  · rename_i request h
    have hcall := s.serves_call (.inst (.requestTransition request.instanceId.toNat .ready))
    simp only []
    split
    · exact s.countError_apart.serves
    · rename_i instanceManager hr
      have hm : (s.instanceManager.requestTransition request.instanceId.toNat .ready
          s.partyService).2 = instanceManager := by rw [hr]
      subst hm
      exact hcall.trans (Apart.serves ⟨rfl, rfl, rfl, rfl⟩)

theorem handleResult_serves [InventoryStorage σ] (s : Server σ) (id : ℕ) (payload : Bytes) :
    Serves s (s.handleResult id payload).2 := by
  unfold handleResult
  split
  · exact s.countError_apart.serves
  · rename_i request instanceId h
    have hcall := fun next => s.serves_call (.inst (.requestTransition instanceId next))
    simp only []
    split
    · exact s.countError_apart.serves
    · rename_i instanceManager hr
      refine Serves.trans ?_ (grantResult_apart _ _ _ _).serves
      have hm := congrArg Prod.snd hr
      simp only [] at hm
      rw [← hm]
      exact hcall _

end Serves

end Server

end DungeonHub
