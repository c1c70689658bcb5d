import DungeonHub.Proofs.Rematch

/-!
# The server's books on instances

What the server writes down about instances: whose they are, their tickets and seeds, their grants,
and which sessions and characters are in them. The books change in a few ways only, and each of them
keeps what they say of each other: no entry is about an instance that there is not.
-/

namespace DungeonHub

open Run Wire InstanceManager

/-- What a server has on record about instances. -/
structure InstanceBook where
  manager : InstanceManager
  parties : Dict ℕ ℕ
  tickets : Dict ℕ Str
  seeds : Dict ℕ UInt32
  grants : Dict ℕ ℕ
  nextGrant : ℕ
  bound : Dict ℕ ℕ
  characters : Dict ℕ UInt64

/-- The instance has ended, or has been ended. -/
def InstanceState.Over (a : InstanceState) : Prop := a = .clear ∨ a = .fail ∨ a = .terminate

theorem InstanceManager.Edge.over {a b : InstanceState} (h : Edge a b) (ha : a.Over) :
    b.Over := by
  revert h
  rcases ha with rfl | rfl | rfl <;> cases b <;> simp [InstanceState.Over] <;> decide

namespace InstanceBook

section Bookings

/-- How the books change. -/
inductive Booking (b : InstanceBook) : InstanceBook → Prop where
  | manages (partyService : PartyService) (call : InstanceCall) :
      Booking b { b with manager := b.manager.call partyService call }
  | opens {partyService : PartyService} {partyId : ℕ} {info : PartyInfo}
      (h : partyService.getPartyInfo partyId = some info) (ticket : Str) {seed : UInt32}
      (hseed : seed ≠ 0) :
      Booking b { b with
        manager := (b.manager.createInstance partyId partyService).2
        parties := b.parties.insert partyId b.manager.nextInstanceId
        tickets := b.tickets.insert b.manager.nextInstanceId ticket
        seeds := b.seeds.insert b.manager.nextInstanceId seed }
  | binds (k : ℕ) {i : ℕ} (h : i ∈ b.manager.instances) :
      Booking b { b with bound := b.bound.insert k i }
  | enters (k : ℕ) {i : ℕ} (charId : UInt64) (h : i ∈ b.tickets) :
      Booking b { b with
        characters := b.characters.insert k charId
        bound := b.bound.insert k i
        seeds := b.seeds.insert i (b.seeds.getD i 0) }
  | counts : Booking b { b with nextGrant := b.nextGrant + 1 }
  | grants {i : ℕ} {record : InstanceRecord} (h : b.manager.instances[i]? = some record)
      (hover : record.state.Over) (hnew : i ∉ b.grants) :
      Booking b { b with
        grants := b.grants.insert i b.nextGrant
        nextGrant := b.nextGrant + 1 }
  | moves (k k' : ℕ) :
      Booking b { b with
        bound := Server.moveKey b.bound k k'
        characters := Server.moveKey b.characters k k' }
  | forgets (k : ℕ) :
      Booking b { b with bound := b.bound.erase k, characters := b.characters.erase k }

/-- Any number of bookings. -/
abbrev Bookings : InstanceBook → InstanceBook → Prop := Relation.ReflTransGen Booking

/-- What the books say fits together: instances have numbers that were given out; the entry of a
party is an instance of its own; tickets and seeds come together and for instances, no seed is 0;
granted instances are over, and no two have the same grant; and every session that is bound is bound
to an instance, those with characters among them. -/
structure Balanced (b : InstanceBook) : Prop where
  below : b.manager.Below
  parties : Dict.All (fun p i => ∃ record, b.manager.instances[i]? = some record ∧
    record.partyId = p) b.parties
  ticketed : ∀ i : ℕ, i ∈ b.tickets ↔ i ∈ b.seeds
  opened : ∀ i ∈ b.tickets, i ∈ b.manager.instances
  seeded : Dict.All (fun _ seed => seed ≠ 0) b.seeds
  granted : ∀ i ∈ b.grants, ∃ record, b.manager.instances[i]? = some record ∧ record.state.Over
  numbered : Dict.All (fun _ grant => grant < b.nextGrant) b.grants
  distinct : ∀ (i j grant : ℕ), b.grants[i]? = some grant → b.grants[j]? = some grant → i = j
  bound : Dict.All (fun _ i => i ∈ b.manager.instances) b.bound
  characters : ∀ k ∈ b.characters, k ∈ b.bound

variable {b b' : InstanceBook}

/-- What is later on record about an instance: it is its party's, and over once it is over. -/
def Continues (record : InstanceRecord) (entry : Option InstanceRecord) : Prop :=
  ∃ record', entry = some record' ∧ record'.partyId = record.partyId ∧
    (record.state.Over → record'.state.Over)

theorem Continues.refl (record : InstanceRecord) : Continues record (some record) :=
  ⟨record, rfl, rfl, id⟩

theorem call_keeps {m : InstanceManager} {i : ℕ} {record : InstanceRecord}
    (h : m.instances[i]? = some record) (partyService : PartyService) (call : InstanceCall) :
    Continues record (m.call partyService call).instances[i]? := by
  have hmoves := call_moves m partyService call i
  rw [h] at hmoves
  generalize (m.call partyService call).instances[i]? = entry at hmoves ⊢
  cases hmoves with
  | stay => exact ⟨record, rfl, rfl, id⟩
  | move _ next he => exact ⟨_, rfl, rfl, he.over⟩

theorem call_mem {m : InstanceManager} {i : ℕ} (h : i ∈ m.instances)
    (partyService : PartyService) (call : InstanceCall) :
    i ∈ (m.call partyService call).instances := by
  obtain ⟨record, hi⟩ := (Dict.mem_iff _ _).mp h
  obtain ⟨record', hi', -⟩ := call_keeps hi partyService call
  exact (Dict.mem_iff _ _).mpr ⟨record', hi'⟩

theorem Balanced.manages (h : b.Balanced) (partyService : PartyService) (call : InstanceCall) :
    Balanced { b with manager := b.manager.call partyService call } where
  below := act_below (s := (partyService, b.manager)) h.below (.inst call)
  parties := h.parties.imp fun p i ⟨record, hi, hp⟩ => by
    obtain ⟨record', hi', hp', -⟩ := call_keeps hi partyService call
    exact ⟨record', hi', hp'.trans hp⟩
  ticketed := h.ticketed
  opened i hi := call_mem (h.opened i hi) partyService call
  seeded := h.seeded
  granted i hi := by
    obtain ⟨record, hr, hover⟩ := h.granted i hi
    obtain ⟨record', hr', -, hover'⟩ := call_keeps hr partyService call
    exact ⟨record', hr', hover' hover⟩
  numbered := h.numbered
  distinct := h.distinct
  bound := h.bound.imp fun k i hi => call_mem hi partyService call
  characters := h.characters

theorem Balanced.opens (h : b.Balanced) {partyService : PartyService} {partyId : ℕ}
    {info : PartyInfo} (hparty : partyService.getPartyInfo partyId = some info) (ticket : Str)
    {seed : UInt32} (hseed : seed ≠ 0) :
    Balanced { b with
      manager := (b.manager.createInstance partyId partyService).2
      parties := b.parties.insert partyId b.manager.nextInstanceId
      tickets := b.tickets.insert b.manager.nextInstanceId ticket
      seeds := b.seeds.insert b.manager.nextInstanceId seed } := by
  have hcalled := h.manages partyService (.createInstance partyId)
  have hnew : b.manager.nextInstanceId ∉ b.manager.instances :=
    fun hmem => Nat.lt_irrefl _ (h.below _ hmem)
  have hcreated : (b.manager.createInstance partyId partyService).2.instances[
      b.manager.nextInstanceId]? = some ⟨b.manager.nextInstanceId, partyId, .waiting⟩ := by
    unfold createInstance
    rw [hparty]
    show (b.manager.instances.insertIfNew _ _)[_]? = _
    rw [Dict.insertIfNew_of_not_mem _ _ hnew, Dict.get?_insert_self]
  refine ⟨hcalled.below, hcalled.parties.insert ⟨_, hcreated, rfl⟩, fun i => ?_, fun i hi => ?_,
    h.seeded.insert hseed, hcalled.granted, h.numbered, h.distinct, hcalled.bound, h.characters⟩
  · rw [Dict.mem_insert, Dict.mem_insert, h.ticketed]
  · rcases (Dict.mem_insert _ _ _ _).mp hi with rfl | hi
    · exact (Dict.mem_iff _ _).mpr ⟨_, hcreated⟩
    · exact hcalled.opened i hi

/-- A seed is drawn when the instance is opened, and not made up when it is entered. -/
theorem Balanced.seed_of_ticket (h : b.Balanced) {i : ℕ} (hi : i ∈ b.tickets) :
    b.seeds[i]? = some (b.seeds.getD i 0) ∧ b.seeds.insert i (b.seeds.getD i 0) = b.seeds := by
  obtain ⟨seed, hseed⟩ := (Dict.mem_iff _ _).mp ((h.ticketed i).mp hi)
  have hget : b.seeds.getD i 0 = seed := by
    rw [Std.ExtTreeMap.getD_eq_getD_getElem?, hseed, Option.getD_some]
  rw [hget]
  exact ⟨hseed, Dict.insert_of_get hseed⟩

theorem Balanced.enters (h : b.Balanced) (k : ℕ) {i : ℕ} (charId : UInt64) (hi : i ∈ b.tickets) :
    Balanced { b with
      characters := b.characters.insert k charId
      bound := b.bound.insert k i
      seeds := b.seeds.insert i (b.seeds.getD i 0) } := by
  rw [(h.seed_of_ticket hi).2]
  refine { h with bound := h.bound.insert (h.opened i hi), characters := fun k' hk' => ?_ }
  rw [Dict.mem_insert] at hk' ⊢
  exact hk'.imp_right (h.characters k')

theorem Balanced.grants (h : b.Balanced) {i : ℕ} {record : InstanceRecord}
    (hi : b.manager.instances[i]? = some record) (hover : record.state.Over) :
    Balanced { b with
      grants := b.grants.insert i b.nextGrant
      nextGrant := b.nextGrant + 1 } := by
  have hnumbered : Dict.All (fun _ grant => grant < b.nextGrant + 1) b.grants :=
    h.numbered.imp fun _ _ hg => Nat.lt_succ_of_lt hg
  have hother : ∀ j grant : ℕ, b.grants[j]? = some grant → grant ≠ b.nextGrant :=
    fun j grant hj => (h.numbered j grant hj).ne
  refine { h with
    granted := fun j hj => ?_
    numbered := hnumbered.insert (Nat.lt_succ_self _)
    distinct := fun j j' grant hj hj' => ?_ }
  · rcases (Dict.mem_insert _ _ _ _).mp hj with rfl | hj
    · exact ⟨record, hi, hover⟩
    · exact h.granted j hj
  · rw [Dict.get?_insert] at hj hj'
    split_ifs at hj hj' with heq heq' heq'
    · exact heq.symm.trans heq'
    · exact absurd (Option.some.inj hj).symm (hother j' grant hj')
    · exact absurd (Option.some.inj hj').symm (hother j grant hj)
    · exact h.distinct j j' grant hj hj'

theorem all_moveKey {V : Type} {P : V → Prop} {m : Dict ℕ V} (h : Dict.All (fun _ v => P v) m)
    (k k' : ℕ) : Dict.All (fun _ v => P v) (Server.moveKey m k k') := by
  unfold Server.moveKey
  split
  · exact h
  · rename_i v hv
    exact (h.insert (h k v hv)).erase k

theorem mem_moveKey_iff {V : Type} {m : Dict ℕ V} {k k' a : ℕ} :
    a ∈ Server.moveKey m k k' ↔ k ≠ a ∧ (a ∈ m ∨ k ∈ m ∧ k' = a) := by
  unfold Server.moveKey
  rcases hk : m[k]? with _ | v
  · have hnone := (Dict.not_mem_iff _ _).mpr hk
    constructor
    · intro ha
      exact ⟨fun heq => hnone (heq ▸ ha), .inl ha⟩
    · rintro ⟨-, ha | ⟨hmem, -⟩⟩
      · exact ha
      · exact absurd hmem hnone
  · have hmem := (Dict.mem_iff _ _).mpr ⟨v, hk⟩
    rw [Dict.mem_erase, Dict.mem_insert]
    exact and_congr_right fun _ => ⟨fun ha => ha.symm.imp_right fun heq => ⟨hmem, heq⟩,
      fun ha => (ha.imp_right And.right).symm⟩

theorem Balanced.moves (h : b.Balanced) (k k' : ℕ) :
    Balanced { b with
      bound := Server.moveKey b.bound k k'
      characters := Server.moveKey b.characters k k' } := by
  refine { h with bound := all_moveKey h.bound k k', characters := fun a ha => ?_ }
  obtain ⟨hne, ha⟩ := mem_moveKey_iff.mp ha
  exact mem_moveKey_iff.mpr ⟨hne, ha.imp (h.characters a) (And.imp_left (h.characters k))⟩

/-- Every booking keeps the books balanced. -/
theorem Booking.balanced (hb : Booking b b') (h : b.Balanced) : b'.Balanced := by
  cases hb with
  | manages partyService call => exact h.manages partyService call
  | opens hparty ticket hseed => exact h.opens hparty ticket hseed
  | binds k hi => exact { h with
      bound := h.bound.insert hi
      characters := fun a ha => (Dict.mem_insert _ _ _ _).mpr (.inr (h.characters a ha)) }
  | enters k charId hi => exact h.enters k charId hi
  | counts => exact { h with numbered := h.numbered.imp fun _ _ hg => Nat.lt_succ_of_lt hg }
  | grants hi hover hnew => exact h.grants hi hover
  | moves k k' => exact h.moves k k'
  | forgets k => exact { h with
      bound := h.bound.erase k
      characters := fun a ha => by
        obtain ⟨hne, ha⟩ := (Dict.mem_erase _ _ _).mp ha
        exact (Dict.mem_erase _ _ _).mpr ⟨hne, h.characters a ha⟩ }

/-- Instances stay their parties', and tickets, seeds and grants are never changed. -/
structure Lasts (b b' : InstanceBook) : Prop where
  instances : ∀ (i : ℕ) (record : InstanceRecord), b.manager.instances[i]? = some record →
    Continues record b'.manager.instances[i]?
  tickets : ∀ (i : ℕ) (ticket : Str), b.tickets[i]? = some ticket → b'.tickets[i]? = some ticket
  seeds : ∀ (i : ℕ) (seed : UInt32), b.seeds[i]? = some seed → b'.seeds[i]? = some seed
  grants : ∀ i grant : ℕ, b.grants[i]? = some grant → b'.grants[i]? = some grant

theorem Lasts.refl (b : InstanceBook) : Lasts b b :=
  ⟨fun _ record h => h ▸ .refl record, fun _ _ h => h, fun _ _ h => h, fun _ _ h => h⟩

theorem Lasts.trans {b b' b'' : InstanceBook} (h : Lasts b b') (h' : Lasts b' b'') :
    Lasts b b'' where
  instances i record hi := by
    obtain ⟨record', hi', hparty, hover⟩ := h.instances i record hi
    obtain ⟨record'', hi'', hparty', hover'⟩ := h'.instances i record' hi'
    exact ⟨record'', hi'', hparty'.trans hparty, hover' ∘ hover⟩
  tickets i ticket hi := h'.tickets i ticket (h.tickets i ticket hi)
  seeds i seed hi := h'.seeds i seed (h.seeds i seed hi)
  grants i grant hi := h'.grants i grant (h.grants i grant hi)

theorem Booking.lasts (hb : Booking b b') (h : b.Balanced) : Lasts b b' := by
  cases hb with
  | manages partyService call =>
    exact { Lasts.refl b with instances := fun _ _ hi => call_keeps hi partyService call }
  | @opens partyService partyId _ hparty ticket _ hseed =>
    have hne : ∀ i ∈ b.tickets, b.manager.nextInstanceId ≠ i :=
      fun i hi => (h.below i (h.opened i hi)).ne'
    refine ⟨fun _ _ hi => call_keeps hi partyService (.createInstance partyId),
      fun i t hi => ?_, fun i seed hi => ?_, fun _ _ h => h⟩
    · rw [Dict.get?_insert_of_ne _ _ (hne i ((Dict.mem_iff _ _).mpr ⟨t, hi⟩)), hi]
    · have hmem := (h.ticketed i).mpr ((Dict.mem_iff _ _).mpr ⟨seed, hi⟩)
      rw [Dict.get?_insert_of_ne _ _ (hne i hmem), hi]
  | enters k charId hi =>
    refine { Lasts.refl b with seeds := ?_ }
    show ∀ (i : ℕ) (seed : UInt32), b.seeds[i]? = some seed → (b.seeds.insert _ _)[i]? = _
    rw [(h.seed_of_ticket hi).2]
    exact fun _ _ h => h
  | @grants i _ _ _ hnew =>
    refine { Lasts.refl b with grants := fun j grant hj => ?_ }
    have hmem := (Dict.mem_iff _ _).mpr ⟨grant, hj⟩
    have hne : i ≠ j := by
      rintro rfl
      exact hnew hmem
    rw [Dict.get?_insert_of_ne _ _ hne, hj]
  | binds | counts | moves | forgets => exact { Lasts.refl b with }

theorem Bookings.keep (hb : Bookings b b') (h : b.Balanced) : b'.Balanced ∧ Lasts b b' := by
  induction hb with
  | refl => exact ⟨h, .refl _⟩
  | tail _ hstep ih =>
    obtain ⟨hbalanced, hlasts⟩ := ih
    exact ⟨hstep.balanced hbalanced, hlasts.trans (hstep.lasts hbalanced)⟩

end Bookings

end InstanceBook

namespace Server

open InstanceBook

variable {σ : Type}

/-- What the server has on record. -/
def instanceBook (s : Server σ) : InstanceBook where
  manager := s.instanceManager
  parties := s.partyInstances
  tickets := s.instanceTickets
  seeds := s.instanceSeeds
  grants := s.instanceRewardGrants
  nextGrant := s.nextRewardGrantId
  bound := s.sessionInstances
  characters := s.sessionCharacters

section Unbooked

variable {s s' : Server σ}

theorem Delivers.instanceBook (h : Delivers s s') : s'.instanceBook = s.instanceBook := by
  obtain ⟨heap, clock, rfl, -⟩ := h
  rfl

theorem Spares.instanceBook {id : ℕ} (h : Spares id s s') :
    s'.instanceBook = s.instanceBook := by
  unfold Server.instanceBook
  rw [h.instances, h.partyInstances, h.tickets, h.seeds, h.grants, h.nextGrant, h.bound,
    h.characters]

theorem sendChat_instanceBook (s : Server σ) (event : ChatEvent) (recipients : List ℕ) :
    (s.sendChat event recipients).2.instanceBook = s.instanceBook := by
  unfold sendChat
  split_ifs
  · rfl
  · exact Delivers.instanceBook
      (Run.related .refl .trans (fun s _ => s.deliver_delivers _ _) recipients s)

theorem handleChat_instanceBook (s : Server σ) (id : ℕ) (payload : Bytes) :
    (s.handleChat id payload).2.instanceBook = s.instanceBook := by
  have hparty : ∀ user request, (s.handlePartyChat id user request).2.instanceBook =
      s.instanceBook := by
    intro user request
    unfold handlePartyChat
    split
    · rfl
    · rename_i partyId recipients h
      have hsend := s.sendChat_instanceBook
        ⟨.party, UInt64.ofNat partyId, user.userId, request.message⟩ recipients
      simp only []
      rcases hs : s.sendChat ⟨.party, UInt64.ofNat partyId, user.userId, request.message⟩
        recipients with ⟨_ | _, s'⟩
      · rw [hs] at hsend
        exact hsend
      · rw [hs] at hsend
        exact hsend
  unfold handleChat
  simp only []
  split
  · rfl
  · rename_i request user h
    by_cases hg : request.channel = .global
    · rw [if_pos hg]
      exact s.sendChat_instanceBook _ _
    · rw [if_neg hg]
      split
      · exact hparty user request
      · rfl

theorem handleGuildCreate_instanceBook (s : Server σ) (id : ℕ) (payload : Bytes) :
    (s.handleGuildCreate id payload).2.instanceBook = s.instanceBook := by
  unfold handleGuildCreate
  simp only []
  split
  · rfl
  · rename_i request user h
    have hs := (deliverGuildEvents_delivers
      { s with guildService := (s.guildService.createGuild id user.userId request.guildName).2.2 }
      (s.guildService.createGuild id user.userId request.guildName).2.1).instanceBook
    rcases hg : s.guildService.createGuild id user.userId request.guildName with
      ⟨_ | guildId, events, guildService⟩
    · rw [hg] at hs
      exact hs
    · rw [hg] at hs
      exact hs

theorem handleGuildJoin_instanceBook (s : Server σ) (id : ℕ) (payload : Bytes) :
    (s.handleGuildJoin id payload).2.instanceBook = s.instanceBook := by
  unfold handleGuildJoin
  simp only []
  split
  · rfl
  · exact (deliverGuildEvents_delivers _ _).instanceBook

theorem handleGuildLeave_instanceBook (s : Server σ) (id : ℕ) (payload : Bytes) :
    (s.handleGuildLeave id payload).2.instanceBook = s.instanceBook := by
  unfold handleGuildLeave
  split
  · rfl
  · exact (deliverGuildEvents_delivers _ _).instanceBook

theorem tickSessions_instanceBook (s : Server σ) (now : Time) :
    (s.tickSessions now).2.instanceBook = s.instanceBook := by
  unfold tickSessions
  refine List.foldlRecOn
    (motive := fun p : List ℕ × Server σ => p.2.instanceBook = s.instanceBook) _ _ rfl ?_
  rintro ⟨toRemove, t⟩ ht id -
  simp only []
  split
  · exact ht
  · exact ht

end Unbooked

section Booked

variable {s : Server σ}

theorem bookings_of_eq {s s' : Server σ} (h : s'.instanceBook = s.instanceBook) :
    Bookings s.instanceBook s'.instanceBook := by
  rw [h]

/-- The members of a party are bound to its instance one by one. -/
theorem bindMembers_bookings (instanceId : ℕ) (frame : Bytes) (asked : ℕ → Bool) :
    ∀ (members : List PartyMember) (s : Server σ), instanceId ∈ s.instanceManager.instances →
      Bookings s.instanceBook (members.foldl
        (fun s member => s.bindMember instanceId frame asked member) s).instanceBook
  | [], s, _ => .refl
  | member :: members, s, h => by
    rw [List.foldl_cons]
    have hone : Bookings s.instanceBook (s.bindMember instanceId frame asked member).instanceBook ∧
        (s.bindMember instanceId frame asked member).instanceManager = s.instanceManager := by
      unfold bindMember
      split
      · exact ⟨.refl, rfl⟩
      · have hbinds : Bookings s.instanceBook _ := .single (.binds member.sessionId h)
        simp only []
        split_ifs
        · exact ⟨hbinds, rfl⟩
        · have hd := deliver_delivers
            { s with sessionInstances := s.sessionInstances.insert member.sessionId instanceId }
            member.sessionId fun _ => frame
          exact ⟨hbinds.trans (bookings_of_eq hd.instanceBook), hd.apart.instances⟩
    refine hone.1.trans (bindMembers_bookings instanceId frame asked members _ ?_)
    rw [hone.2]
    exact h

theorem matched_bookings (s : Server σ) (id : ℕ) {partyId : ℕ} {info : PartyInfo}
    (version : UInt16) (hinfo : s.partyService.getPartyInfo partyId = some info) :
    Bookings s.instanceBook (s.matched id partyId version).2.instanceBook := by
  have hmem : s.instanceManager.nextInstanceId ∈
      (s.instanceManager.createInstance partyId s.partyService).2.instances := by
    unfold createInstance
    rw [hinfo]
    exact (Dict.mem_insertIfNew _ _ _ _).mpr (.inl rfl)
  unfold matched openInstance
  simp only [hinfo]
  refine Relation.ReflTransGen.trans (.single ?_)
    (bindMembers_bookings _ _ _ info.members _ hmem)
  exact .opens (b := s.instanceBook) hinfo _ s.seeds.next.1.property

theorem Idle.handleMatch_bookings (hs : Idle s) (id : ℕ) (version : UInt16) (payload : Bytes)
    (now : Time) :
    Bookings s.instanceBook (s.handleMatch id version payload now).2.instanceBook := by
  rcases hs.handleMatch_cases id version payload now with
    ⟨response, h, -⟩ | ⟨partyId, info, hcheck, -, h⟩
  · rw [h]
    exact bookings_of_eq rfl
  · rw [h]
    obtain ⟨_, -, -, -, hinfo, -⟩ := checkMatch_eq_ok.mp hcheck
    exact s.matched_bookings id version hinfo

theorem handleEnter_bookings (s : Server σ) (id : ℕ) (payload : Bytes) :
    Bookings s.instanceBook (s.handleEnter id payload).2.instanceBook := by
  unfold handleEnter
  split
  · exact bookings_of_eq rfl
  · rename_i request h
    have hticket : request.instanceId.toNat ∈ s.instanceTickets := by
      simp only [checkEnter, bind_eq_ok, unlessRefuse_eq_ok, pure_eq_ok] at h
      obtain ⟨request', -, _, -, _, -, -, hticket, _, -, -, -, rfl⟩ := h
      exact (Dict.mem_iff _ _).mpr ⟨_, hticket⟩
    simp only []
    split
    · exact bookings_of_eq rfl
    · rename_i instanceManager hr
      have hm : s.instanceManager.call s.partyService
          (.requestTransition request.instanceId.toNat .ready) = instanceManager := by
        show (s.instanceManager.requestTransition _ _ _).2 = _
        rw [hr]
      have hmanages := Booking.manages (b := s.instanceBook) s.partyService
        (.requestTransition request.instanceId.toNat .ready)
      refine (Relation.ReflTransGen.single hmanages).tail ?_
      show Booking { s.instanceBook with manager := s.instanceManager.call _ _ } _
      rw [hm]
      exact .enters id request.charId hticket

theorem takeOver_bookings (s : Server σ) (existing id : ℕ) :
    Bookings s.instanceBook (s.takeOver existing id).instanceBook := by
  unfold takeOver
  split
  · exact bookings_of_eq rfl
  · exact .single (.moves existing id)

theorem handleReconnect_bookings (s : Server σ) (id : ℕ) (payload : Bytes) (now : Time) :
    Bookings s.instanceBook (s.handleReconnect id payload now).2.instanceBook := by
  have hreclaim : ∀ userId, Bookings s.instanceBook (s.reclaim userId id).instanceBook := by
    intro userId
    unfold reclaim
    split
    · exact .refl
    · exact s.takeOver_bookings _ id
  rcases s.handleReconnect_refused id payload now with
    ⟨-, tokenService, -, h⟩ | ⟨request, userId, h⟩
  · rw [h]
    exact bookings_of_eq rfl
  · rw [handleReconnect_of_valid h]
    split_ifs
    · exact (hreclaim userId).trans (bookings_of_eq rfl)
    · exact (hreclaim userId).trans (bookings_of_eq rfl)

theorem removeSession_bookings (s : Server σ) (id : ℕ) :
    Bookings s.instanceBook (s.removeSession id).instanceBook := by
  rw [(s.removeSession_delivers id).instanceBook]
  exact .single (.forgets id)

theorem tick_bookings (s : Server σ) (now : Time) :
    Bookings s.instanceBook (s.tick now).instanceBook :=
  List.foldlRecOn (motive := fun t : Server σ => Bookings s.instanceBook t.instanceBook) _ _
    (bookings_of_eq (s.tickSessions_instanceBook now))
    fun t ht id _ => ht.trans (t.removeSession_bookings id)

variable [InventoryStorage σ]

/-- A result that is paid out leaves its grant under the next number. -/
theorem grantResult_bookings (s : Server σ) (id : ℕ) {instanceId : ℕ} {record : InstanceRecord}
    (rewards : List RewardItem) (hi : s.instanceManager.instances[instanceId]? = some record)
    (hover : record.state.Over) (hnew : instanceId ∉ s.instanceRewardGrants) :
    Bookings s.instanceBook (s.grantResult id instanceId rewards).2.instanceBook := by
  have hcounts : Bookings s.instanceBook
      { s with nextRewardGrantId := s.nextRewardGrantId + 1 }.instanceBook := .single .counts
  unfold grantResult
  simp only []
  split
  · exact bookings_of_eq rfl
  · split
    · exact hcounts
    · exact hcounts
    · split
      · exact hcounts
      · exact .single (.grants (b := s.instanceBook) hi hover hnew)

theorem handleResult_bookings (s : Server σ) (id : ℕ) (payload : Bytes) :
    Bookings s.instanceBook (s.handleResult id payload).2.instanceBook := by
  rcases s.handleResult_cases id payload with
    ⟨request, instanceId, record, next, hends, hnext, h⟩ | ⟨-, -, h⟩
  · rw [h]
    have hcall : s.instanceManager.call s.partyService (.requestTransition instanceId next) =
        { s.instanceManager with
          instances := s.instanceManager.instances.insert instanceId
            { record with state := next } } := by
      show (s.instanceManager.requestTransition _ _ _).2 = _
      rcases s.instanceManager.requestTransition_end instanceId hnext s.partyService with
        ⟨record', hr, -, htrans⟩ | ⟨hno, -⟩
      · obtain rfl := Option.some.inj (hends.inst.symm.trans hr)
        rw [htrans]
      · exact absurd hends.playing (hno record hends.inst)
    have hmanages := Booking.manages (b := s.instanceBook) s.partyService
      (.requestTransition instanceId next)
    rw [show s.instanceBook.manager = s.instanceManager from rfl, hcall] at hmanages
    refine (Relation.ReflTransGen.single hmanages).trans ?_
    have hover : InstanceState.Over next := hnext.imp_right .inl
    have hget : ({ s with instanceManager := { s.instanceManager with
        instances := s.instanceManager.instances.insert instanceId
          { record with state := next } } } : Server σ).instanceManager.instances[instanceId]? =
        some { record with state := next } := Dict.get?_insert_self ..
    exact grantResult_bookings _ id request.rewards hget hover
      ((Dict.not_mem_iff _ _).mpr hends.fresh)
  · rw [h]
    exact bookings_of_eq rfl

theorem Idle.dispatch_bookings (hs : Idle s) (id : ℕ) (header : FrameHeader) (payload : Bytes)
    (now : Time) :
    Bookings s.instanceBook (s.dispatch id header payload now).2.instanceBook := by
  unfold dispatch
  split
  · exact bookings_of_eq (s.handleLogin_spares id payload now).instanceBook
  · exact bookings_of_eq (s.handleLogout_spares id payload).instanceBook
  · exact s.handleReconnect_bookings id payload now
  · exact hs.handleMatch_bookings id header.version payload now
  · exact s.handleEnter_bookings id payload
  · exact s.handleResult_bookings id payload
  · refine bookings_of_eq ?_
    show (s.handleInventoryUpdate id payload).2.instanceBook = _
    unfold handleInventoryUpdate
    simp only []
    split <;> rfl
  · exact bookings_of_eq (s.handleGuildCreate_instanceBook id payload)
  · exact bookings_of_eq (s.handleGuildJoin_instanceBook id payload)
  · exact bookings_of_eq (s.handleGuildLeave_instanceBook id payload)
  · exact bookings_of_eq (s.handleChat_instanceBook id payload)
  · exact bookings_of_eq rfl

/-- Whatever happens to a server changes its books by bookings. -/
theorem Idle.step_bookings (hs : Idle s) (e : ServerEvent) :
    Bookings s.instanceBook (serverStep s e).instanceBook := by
  cases e with
  | createSession config now => exact bookings_of_eq rfl
  | packet id header payload now =>
    show Bookings _ (s.handlePacket id header payload now).2.instanceBook
    rcases s.handlePacket_cases id header payload now with
      ⟨-, h⟩ | ⟨session, session', -, ⟨-, h⟩ | ⟨reject, -, h⟩ | ⟨inner, -, h⟩⟩
    · rw [h]
    · rw [h]
      exact bookings_of_eq rfl
    · rw [h]
      exact bookings_of_eq rfl
    · rw [h]
      have hr := (s.receive_apart id session' payload).serves.idle hs
      exact hr.dispatch_bookings id header inner now
  | tick now => exact s.tick_bookings now
  | removeSession id => exact s.removeSession_bookings id
  | forceDisconnect id =>
    show Bookings _ (s.forceDisconnect id).2.instanceBook
    unfold forceDisconnect
    split
    · exact bookings_of_eq rfl
    · exact s.removeSession_bookings id
  | party call => exact bookings_of_eq rfl
  | inst call => exact .single (.manages s.partyService call)
  | session id call => exact bookings_of_eq rfl

end Booked

section Answers

variable [InventoryStorage σ] {s : Server σ} {id : ℕ} {header : FrameHeader} {payload : Bytes}
  {now : Time}

theorem answer_of_result {response : DungeonResultResponse}
    (h : (s.answerPacket id header payload now).1 = some ⟨.dungeonResultRes, response⟩) :
    ∃ (t : Server σ) (inner : Bytes), t.instanceBook = s.instanceBook ∧
      (t.handleResult id inner).1 = response := by
  obtain ⟨session, session', inner, hs, hg⟩ := passed_of_answer h (by simp)
  rw [answerPacket_of_passed hs hg] at h
  have ht := dispatch_request h
  rw [dispatch_result ht] at h
  refine ⟨s.receive id session' payload, inner, rfl, ?_⟩
  cases h
  rfl

theorem answer_of_enter {response : DungeonEnterResponse}
    (h : (s.answerPacket id header payload now).1 = some ⟨.dungeonEnterRes, response⟩) :
    ∃ (t : Server σ) (inner : Bytes), t.instanceBook = s.instanceBook ∧
      t.handleEnter id inner = (response, (s.answerPacket id header payload now).2) := by
  obtain ⟨session, session', inner, hs, hg⟩ := passed_of_answer h (by simp)
  rw [answerPacket_of_passed hs hg] at h ⊢
  have ht := dispatch_request h
  rw [dispatch_enter ht] at h ⊢
  refine ⟨s.receive id session' payload, inner, rfl, Prod.ext ?_ rfl⟩
  cases h
  rfl

/-- A session that is bound is bound to an instance that is there. -/
theorem result_finds (hb : s.instanceBook.Balanced) :
    (s.handleResult id payload).1.code ≠ str "INSTANCE_NOT_FOUND" := by
  unfold handleResult
  split
  · rename_i response h
    show response.code ≠ _
    unfold checkResult at h
    simp only [bind_eq_error, decodedOr_eq_error, orRefuse_eq_error, orRefuse_eq_ok,
      unlessRefuse_eq_error, pure_ne_error, and_false, exists_false, or_false] at h
    rcases h with ⟨-, rfl⟩ | ⟨_, -, ⟨-, rfl⟩ | ⟨_, -, ⟨-, rfl⟩ | ⟨i, hi, ⟨hnone, -⟩ |
      ⟨_, -, -, rfl⟩⟩⟩⟩
    · decide
    · decide
    · decide
    · exact absurd ((Dict.not_mem_iff _ _).mpr hnone) (not_not.mpr (hb.bound id i hi))
    · decide
  · simp only []
    split
    · show (resultRejected _ _).code ≠ _
      decide
    · unfold grantResult
      simp only []
      split
      · show (resultRejected _ _).code ≠ _
        decide
      · split
        · show (resultRejected _ _).code ≠ _
          decide
        · show (resultRejected _ _).code ≠ _
          decide
        · split
          · show (resultRejected _ _).code ≠ _
            decide
          · show str "OK" ≠ _
            decide

omit [InventoryStorage σ] in
/-- Who enters is given the seed of the instance. -/
theorem enter_seed (hb : s.instanceBook.Balanced) (h : (s.handleEnter id payload).1.success = true) :
    (s.handleEnter id payload).1.seed ≠ 0 ∧ ∃ i,
      (s.handleEnter id payload).2.sessionInstances[id]? = some i ∧
      s.instanceSeeds[i]? = some (s.handleEnter id payload).1.seed := by
  unfold handleEnter at h ⊢
  split at h
  · rename_i response herror
    have hrefuses := checkEnter_refuses herror
    rw [hrefuses] at h
    cases h
  · rename_i request hok
    have hticket : request.instanceId.toNat ∈ s.instanceTickets := by
      simp only [checkEnter, bind_eq_ok, unlessRefuse_eq_ok, pure_eq_ok] at hok
      obtain ⟨request', -, _, -, _, -, -, hticket, _, -, -, -, rfl⟩ := hok
      exact (Dict.mem_iff _ _).mpr ⟨_, hticket⟩
    have hseed := (hb.seed_of_ticket hticket).1
    simp only [] at h ⊢
    split at h
    · cases h
    · exact ⟨hb.seeded _ _ hseed, request.instanceId.toNat, Dict.get?_insert_self .., hseed⟩

end Answers

section Runs

variable [InventoryStorage σ]

omit [InventoryStorage σ] in
/-- The books of a new server are balanced. -/
theorem balanced_new (inventoryStorage : σ) (securityPolicy : SecurityPolicy)
    (tokenBytes : Draws UInt8) (seeds : Draws { n : UInt32 // n ≠ 0 }) (ticketBytes : Draws UInt8)
    (clock : Draws Time) :
    (Server.new inventoryStorage securityPolicy tokenBytes seeds ticketBytes
      clock).instanceBook.Balanced where
  below := fun _ h => absurd h Std.ExtTreeMap.not_mem_empty
  parties := Dict.all_empty
  ticketed := fun _ => ⟨fun h => absurd h Std.ExtTreeMap.not_mem_empty,
    fun h => absurd h Std.ExtTreeMap.not_mem_empty⟩
  opened := fun _ h => absurd h Std.ExtTreeMap.not_mem_empty
  seeded := Dict.all_empty
  granted := fun _ h => absurd h Std.ExtTreeMap.not_mem_empty
  numbered := Dict.all_empty
  distinct := fun i _ _ h => by
    rw [show (Server.new inventoryStorage securityPolicy tokenBytes seeds ticketBytes
      clock).instanceBook.grants[i]? = none from Dict.get?_empty i] at h
    cases h
  bound := Dict.all_empty
  characters := fun _ h => absurd h Std.ExtTreeMap.not_mem_empty

/-- The books change by bookings through a run. -/
theorem Idle.run_bookings {s : Server σ} (hs : Idle s) (es : List ServerEvent) :
    Idle (after serverStep s es) ∧
      Bookings s.instanceBook (after serverStep s es).instanceBook :=
  stable (I := fun t : Server σ => Idle t ∧ Bookings s.instanceBook t.instanceBook)
    (fun _ e h => ⟨(h.1.step_serves e).idle h.1, h.2.trans (h.1.step_bookings e)⟩) es ⟨hs, .refl⟩

/-- In every state of a server its books on instances are balanced, and what they say of an
instance, its party, ticket, seed and grant, they say for ever. So no result is refused because the
instance of its session is missing, and whoever enters an instance is given the seed that was drawn
for it, never 0. -/
theorem references_kept (inventoryStorage : σ) (securityPolicy : SecurityPolicy)
    (tokenBytes : Draws UInt8) (seeds : Draws { n : UInt32 // n ≠ 0 }) (ticketBytes : Draws UInt8)
    (clock : Draws Time) (es es' : List ServerEvent) :
    let s := after serverStep
      (Server.new inventoryStorage securityPolicy tokenBytes seeds ticketBytes clock) es
    s.instanceBook.Balanced ∧ Lasts s.instanceBook (after serverStep s es').instanceBook ∧
    ∀ (id : ℕ) (header : FrameHeader) (payload : Bytes) (now : Time),
      (∀ response : DungeonResultResponse,
        (s.answerPacket id header payload now).1 = some ⟨.dungeonResultRes, response⟩ →
          response.code ≠ str "INSTANCE_NOT_FOUND") ∧
      ∀ response : DungeonEnterResponse,
        (s.answerPacket id header payload now).1 = some ⟨.dungeonEnterRes, response⟩ →
          response.success = true → response.seed ≠ 0 ∧
            ∃ i, (s.answerPacket id header payload now).2.sessionInstances[id]? = some i ∧
              s.instanceSeeds[i]? = some response.seed := by
  intro s
  obtain ⟨hs, hbookings⟩ := (idle_new inventoryStorage securityPolicy tokenBytes seeds ticketBytes
    clock).run_bookings es
  have hbalanced := (hbookings.keep (balanced_new ..)).1
  refine ⟨hbalanced, ((hs.run_bookings es').2.keep hbalanced).2, fun id header payload now =>
    ⟨fun response h => ?_, fun response h hsuccess => ?_⟩⟩
  · obtain ⟨t, inner, hbook, rfl⟩ := answer_of_result h
    exact result_finds (hbook ▸ hbalanced)
  · obtain ⟨t, inner, hbook, hentered⟩ := answer_of_enter h
    have hseeds : t.instanceSeeds = s.instanceSeeds := congrArg InstanceBook.seeds hbook
    have hgranted : (t.handleEnter id inner).1.success = true := by
      rw [hentered]
      exact hsuccess
    have hseed := enter_seed (hbook ▸ hbalanced) hgranted
    rw [hentered, hseeds] at hseed
    exact hseed

end Runs

end Server

end DungeonHub
