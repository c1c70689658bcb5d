import DungeonHub.Proofs.Members
import DungeonHub.Proofs.Registry

/-!
# No session is left behind

A session that goes is taken out of the registry, of parties and guilds and of the tables of
instances and characters. A takeover is the exception: if both sessions are in parties, or both in
guilds, the one that goes keeps its place. In runs without such a takeover, whoever is named
anywhere is known to the server.
-/

namespace DungeonHub

open Roster Run Wire

namespace Server

variable {σ : Type}

/-- All that names sessions agrees with the sessions the server knows. -/
structure Tidy (s : Server σ) : Prop where
  consistent : Consistent s
  party : s.partyService.Sound
  guild : s.guildService.Sound
  partyMembers : ∀ k ∈ s.partyService.memberIndex, k ∈ s.sessions
  guildMembers : ∀ k ∈ s.guildService.memberIndex, k ∈ s.sessions
  bound : ∀ k ∈ s.sessionInstances, k ∈ s.sessions
  characters : ∀ k ∈ s.sessionCharacters, k ∈ s.sessions

section Tables

theorem mem_moveKey {V : Type} {m : Dict ℕ V} {source target k : ℕ}
    (h : k ∈ moveKey m source target) : source ≠ k ∧ (k ∈ m ∨ k = target) := by
  unfold moveKey at h
  split at h
  · rename_i hs
    refine ⟨?_, .inl h⟩
    rintro rfl
    exact (Dict.not_mem_iff _ _).mpr hs h
  · rw [Dict.mem_erase, Dict.mem_insert] at h
    exact ⟨h.1, h.2.symm.imp id Eq.symm⟩

end Tables

section Preserved

variable {s s' : Server σ}

theorem Tidy.calm (hs : Tidy s) (h : Calm Session.userContext s s') : Tidy s' where
  consistent := hs.consistent.calm h
  party := h.party ▸ hs.party
  guild := h.guild ▸ hs.guild
  partyMembers := by rw [h.party, h.sessions]; exact hs.partyMembers
  guildMembers := by rw [h.guild, h.sessions]; exact hs.guildMembers
  bound k hk := by
    rw [h.sessions]
    rcases h.bound k hk with hk | hk
    · exact hs.bound k hk
    · exact hk
  characters := by rw [h.characters, h.sessions]; exact hs.characters

theorem Tidy.attach (hs : Tidy s) {id : ℕ} (hid : id ∈ s.sessions) {context : UserContext}
    (hfree : s.registry.heldByOther context.userId id = none) : Tidy (s.attach id context) :=
  ⟨hs.consistent.attach hid hfree, hs.party, hs.guild, hs.partyMembers, hs.guildMembers, hs.bound,
    hs.characters⟩

theorem Tidy.detach (hs : Tidy s) (id : ℕ) : Tidy (s.detach id) :=
  ⟨hs.consistent.detach id, hs.party, hs.guild, hs.partyMembers, hs.guildMembers, hs.bound,
    hs.characters⟩

theorem Tidy.createSession (hs : Tidy s) (config : SessionConfig) (now : Time) :
    Tidy (s.createSession config now) := by
  have hmem : ∀ k ∈ s.sessions, k ∈ (s.createSession config now).sessions := fun k hk =>
    (Dict.mem_insertIfNew _ _ _ _).mpr (.inr hk)
  exact ⟨hs.consistent.createSession config now, hs.party, hs.guild,
    fun k hk => hmem k (hs.partyMembers k hk), fun k hk => hmem k (hs.guildMembers k hk),
    fun k hk => hmem k (hs.bound k hk), fun k hk => hmem k (hs.characters k hk)⟩

theorem Tidy.partyCall (hs : Tidy s) {call : PartyCall}
    (hcall : ∀ k ∈ call.sessions, k ∈ s.sessions) :
    Tidy { s with partyService := s.partyService.call call } := by
  have hgoes := PartyService.call_goes hs.party call
  refine ⟨hs.consistent.congr rfl rfl rfl rfl, hgoes.2, hs.guild, ?_, hs.guildMembers, hs.bound,
    hs.characters⟩
  intro k hk
  rcases hgoes.mem hk with hk | hk
  · exact hs.partyMembers k hk
  · exact hcall k hk

theorem Tidy.guildCall (hs : Tidy s) {id : ℕ} (hid : id ∈ s.sessions) {call : GuildCall}
    (hcall : GuildCallBy id call) :
    Tidy { s with guildService := s.guildService.call call } := by
  have hgoes := GuildService.call_goes hs.guild call
  refine ⟨hs.consistent.congr rfl rfl rfl rfl, hs.party, hgoes.2, hs.partyMembers, ?_, hs.bound,
    hs.characters⟩
  intro k hk
  rcases hgoes.mem hk with hk | hk
  · exact hs.guildMembers k hk
  · have hkid : k = id := by
      unfold GuildCallBy at hcall
      split at hcall
      · subst hcall
        exact List.mem_singleton.mp hk
      · subst hcall
        exact List.mem_singleton.mp hk
      · subst hcall
        exact List.mem_singleton.mp hk
      · exact hcall.elim
    exact hkid ▸ hid

theorem Tidy.enter (hs : Tidy s) {id : ℕ} (hid : id ∈ s.sessions) (charId : UInt64)
    (instanceId : ℕ) :
    Tidy { s with
      sessionCharacters := s.sessionCharacters.insert id charId
      sessionInstances := s.sessionInstances.insert id instanceId } := by
  refine ⟨hs.consistent.congr rfl rfl rfl rfl, hs.party, hs.guild, hs.partyMembers,
    hs.guildMembers, ?_, ?_⟩
  · intro k hk
    rcases (Dict.mem_insert _ _ _ _).mp hk with rfl | hk
    · exact hid
    · exact hs.bound k hk
  · intro k hk
    rcases (Dict.mem_insert _ _ _ _).mp hk with rfl | hk
    · exact hid
    · exact hs.characters k hk

theorem Tidy.without (hs : Tidy s) (id : ℕ) : Tidy (s.without id) := by
  obtain ⟨hparty, hpartyNot⟩ := PartyService.removeMember_goes (A := ∅) hs.party id
  obtain ⟨hguild, hguildNot⟩ := GuildService.removeMember_goes (A := ∅) hs.guild id
  have hmem : ∀ k, k ∈ (s.without id).sessions ↔ id ≠ k ∧ k ∈ s.sessions := fun k =>
    Dict.mem_erase _ _ _
  refine ⟨hs.consistent.without id, hparty.2, hguild.2, ?_, ?_, ?_, ?_⟩
  · intro k hk
    refine (hmem k).mpr ⟨?_, hs.partyMembers k ((hparty.mem hk).resolve_right (Set.notMem_empty k))⟩
    rintro rfl
    exact (Dict.not_mem_iff _ _).mpr hpartyNot hk
  · intro k hk
    refine (hmem k).mpr ⟨?_, hs.guildMembers k ((hguild.mem hk).resolve_right (Set.notMem_empty k))⟩
    rintro rfl
    exact (Dict.not_mem_iff _ _).mpr hguildNot hk
  · intro k hk
    obtain ⟨hne, hk⟩ := (Dict.mem_erase _ _ _).mp hk
    exact (hmem k).mpr ⟨hne, hs.bound k hk⟩
  · intro k hk
    obtain ⟨hne, hk⟩ := (Dict.mem_erase _ _ _).mp hk
    exact (hmem k).mpr ⟨hne, hs.characters k hk⟩

/-- The session that holds the user is in no party if session `id` is in one, and so for guilds. -/
def Unclashing (s : Server σ) (userId : Str) (id : ℕ) : Prop :=
  ∀ existing, s.registry.heldByOther userId id = some existing →
    (existing ∉ s.partyService.memberIndex ∨ id ∉ s.partyService.memberIndex) ∧
    (existing ∉ s.guildService.memberIndex ∨ id ∉ s.guildService.memberIndex)

theorem Tidy.takeOver (hs : Tidy s) {existing id : ℕ} (he : existing ∈ s.sessions)
    (hid : id ∈ s.sessions) (hne : existing ≠ id)
    (hparty : existing ∉ s.partyService.memberIndex ∨ id ∉ s.partyService.memberIndex)
    (hguild : existing ∉ s.guildService.memberIndex ∨ id ∉ s.guildService.memberIndex) :
    Tidy (s.takeOver existing id) := by
  have hconsistent := hs.consistent.takeOver he id
  obtain ⟨session, hsession⟩ := (Dict.mem_iff _ _).mp (hs.consistent.known existing he)
  rw [takeOver_of_known (findSession_eq_some.mpr ⟨he, hsession⟩)] at hconsistent ⊢
  have hp := PartyService.replaceMemberSession_goes (A := {id}) hs.party rfl existing
  have hg := GuildService.replaceMemberSession_goes (A := {id}) hs.guild rfl existing
  have hpNot := PartyService.replaceMemberSession_index hs.party hne hparty
  have hgNot := GuildService.replaceMemberSession_index hs.guild hne hguild
  have hmem : ∀ k, existing ≠ k → (k ∈ s.sessions ∨ k = id) →
      k ∈ s.sessions.erase existing := by
    rintro k hk (hks | rfl)
    · exact (Dict.mem_erase _ _ _).mpr ⟨hk, hks⟩
    · exact (Dict.mem_erase _ _ _).mpr ⟨hk, hid⟩
  refine ⟨hconsistent, hp.2, hg.2, ?_, ?_, ?_, ?_⟩
  · intro k hk
    refine hmem k ?_ ((hp.mem hk).imp (hs.partyMembers k) fun h => h)
    rintro rfl
    exact (Dict.not_mem_iff _ _).mpr hpNot hk
  · intro k hk
    refine hmem k ?_ ((hg.mem hk).imp (hs.guildMembers k) fun h => h)
    rintro rfl
    exact (Dict.not_mem_iff _ _).mpr hgNot hk
  · intro k hk
    obtain ⟨hk, hm⟩ := mem_moveKey hk
    exact hmem k hk (hm.imp_left (hs.bound k))
  · intro k hk
    obtain ⟨hk, hm⟩ := mem_moveKey hk
    exact hmem k hk (hm.imp_left (hs.characters k))

theorem Tidy.reclaim (hs : Tidy s) {userId : Str} {id : ℕ} (hid : id ∈ s.sessions)
    (hun : Unclashing s userId id) : Tidy (s.reclaim userId id) := by
  unfold Server.reclaim
  split
  · exact hs
  · rename_i existing hheld
    obtain ⟨hparty, hguild⟩ := hun existing hheld
    exact hs.takeOver (hs.consistent.holder_known hheld) hid
      (SessionRegistry.heldByOther_eq_some.mp hheld).2 hparty hguild

/-- Every session that is registered, in a party, in a guild, bound to an instance or on record with
a character is known to the server. -/
structure NoDangling (s : Server σ) : Prop where
  registered : ∀ id ∈ s.registry.records, id ∈ s.sessions
  active : ∀ (userId : Str) (id : ℕ), s.registry.activeUsers[userId]? = some id → id ∈ s.sessions
  parties : s.partyService.parties.All fun _ party => party.leaderSessionId ∈ s.sessions ∧
    party.members.All fun k member => k ∈ s.sessions ∧ member.sessionId ∈ s.sessions
  partyIndex : ∀ k ∈ s.partyService.memberIndex, k ∈ s.sessions
  guilds : s.guildService.guilds.All fun _ guild => guild.leaderSessionId ∈ s.sessions ∧
    guild.members.All fun k member => k ∈ s.sessions ∧ member.sessionId ∈ s.sessions
  guildIndex : ∀ k ∈ s.guildService.memberIndex, k ∈ s.sessions
  instances : ∀ k ∈ s.sessionInstances, k ∈ s.sessions
  characters : ∀ k ∈ s.sessionCharacters, k ∈ s.sessions

theorem Tidy.noDangling (hs : Tidy s) : NoDangling s where
  registered := hs.consistent.registered
  active userId id h := by
    refine hs.consistent.registered id ?_
    rw [Std.ExtTreeMap.mem_iff_isSome_getElem?, ← Option.isSome_map,
      (hs.consistent.inverse userId id).mp h]
    rfl
  parties partyId party hp := by
    have hmem : ∀ k ∈ party.members, k ∈ s.sessions := fun k hk =>
      hs.partyMembers k ((Dict.mem_iff _ _).mpr ⟨partyId, (hs.party.roster.mem_view hp).mp hk⟩)
    refine ⟨hmem _ (hs.party.roster.leader_view hp), fun k member hm => ?_⟩
    have hk := hmem k ((Dict.mem_iff _ _).mpr ⟨member, hm⟩)
    have hname : member.sessionId = k := hs.party.named partyId party hp k member hm
    exact ⟨hk, hname ▸ hk⟩
  partyIndex := hs.partyMembers
  guilds guildId guild hg := by
    have hmem : ∀ k ∈ guild.members, k ∈ s.sessions := fun k hk =>
      hs.guildMembers k ((Dict.mem_iff _ _).mpr ⟨guildId, (hs.guild.roster.mem_view hg).mp hk⟩)
    refine ⟨hmem _ (hs.guild.roster.leader_view hg), fun k member hm => ?_⟩
    have hk := hmem k ((Dict.mem_iff _ _).mpr ⟨member, hm⟩)
    have hname : member.sessionId = k := hs.guild.named guildId guild hg k member hm
    exact ⟨hk, hname ▸ hk⟩
  guildIndex := hs.guildMembers
  instances := hs.bound
  characters := hs.characters

end Preserved

section Runs

/-- Packets and calls of the party service are for sessions the server knows. -/
def ForKnown (s : Server σ) : ServerEvent → Prop
  | .packet id _ _ _ => id ∈ s.sessions
  | .party call => ∀ k ∈ call.sessions, k ∈ s.sessions
  | _ => True

instance (s : Server σ) : (e : ServerEvent) → Decidable (ForKnown s e)
  | .packet id _ _ _ => inferInstanceAs (Decidable (id ∈ s.sessions))
  | .party call => inferInstanceAs (Decidable (∀ k ∈ call.sessions, k ∈ s.sessions))
  | .createSession .. => .isTrue trivial
  | .tick .. => .isTrue trivial
  | .removeSession .. => .isTrue trivial
  | .forceDisconnect .. => .isTrue trivial
  | .inst .. => .isTrue trivial
  | .session .. => .isTrue trivial

/-- A reconnect with a good token clashes with no session it takes over. -/
def TakesOverFreely (s : Server σ) : ServerEvent → Prop
  | .packet id header payload now => ∀ session inner request userId,
    PacketType.ofCode header.type = some .sessionReconnectReq → s.heap[id]? = some session →
    (s.gatePacket session header payload now).1 = .passed inner →
    Reconnects s inner now request userId → Unclashing s userId id
  | _ => True

theorem Tidy.effect {s s' : Server σ} (hs : Tidy s) {id : ℕ} (hid : id ∈ s.sessions)
    {header : FrameHeader} {payload : Bytes} {now : Time}
    (hfree : ∀ request userId, PacketType.ofCode header.type = some .sessionReconnectReq →
      Reconnects s payload now request userId → Unclashing s userId id)
    (h : Effect s id header payload now s') : Tidy s' := by
  have htokens : ∀ tokenService, Tidy { s with tokenService } := fun _ =>
    ⟨hs.consistent.congr rfl rfl rfl rfl, hs.party, hs.guild, hs.partyMembers, hs.guildMembers,
      hs.bound, hs.characters⟩
  cases h with
  | calm tokenService h => exact (htokens tokenService).calm h.users
  | login tokenService context h => exact (htokens tokenService).attach hid h
  | logout => exact hs.detach id
  | reconnect request userId ht h hr =>
    obtain ⟨-, hheld, hmem⟩ := hs.consistent.reclaim userId id
    have hattach : Tidy ((s.reclaim userId id).attach id ⟨userId, request.token⟩) :=
      (hs.reclaim hid (hfree request userId ht h)).attach (hmem hid) hheld
    exact hattach.calm (modifySession_calm _ id fun _ => rfl)
  | clash request userId h hr =>
    obtain ⟨-, hheld, -⟩ := hs.consistent.reclaim userId id
    rw [(SessionRegistry.registerSession_iff _ _ _).mpr hheld] at hr
    cases hr
  | enter charId instanceId h => exact (hs.enter hid charId instanceId).calm h.users
  | grant instanceId grantId h =>
    refine Tidy.calm ?_ h.users
    exact ⟨hs.consistent.congr rfl rfl rfl rfl, hs.party, hs.guild, hs.partyMembers,
      hs.guildMembers, hs.bound, hs.characters⟩
  | guild call hc h => exact (hs.guildCall hid hc).calm h.users

theorem tidy_new (inventoryStorage : σ) (securityPolicy : SecurityPolicy)
    (tokenBytes : Draws UInt8) (seeds : Draws { n : UInt32 // n ≠ 0 }) (ticketBytes : Draws UInt8)
    (clock : Draws Time) :
    Tidy (Server.new inventoryStorage securityPolicy tokenBytes seeds ticketBytes clock) := by
  have hmem : ∀ {V : Type} (k : ℕ), k ∉ (∅ : Dict ℕ V) := fun k =>
    (Dict.not_mem_iff _ _).mpr (Dict.get?_empty k)
  refine ⟨consistent_new .., ⟨sound_empty _, Dict.all_empty, Dict.all_empty⟩,
    ⟨sound_empty _, Dict.all_empty, Dict.all_empty⟩, ?_, ?_, ?_, ?_⟩
  · exact fun k h => absurd h (hmem k)
  · exact fun k h => absurd h (hmem k)
  · exact fun k h => absurd h (hmem k)
  · exact fun k h => absurd h (hmem k)

variable [InventoryStorage σ]

theorem Tidy.packet {s : Server σ} (hs : Tidy s) {id : ℕ} {header : FrameHeader}
    {payload : Bytes} {now : Time} (hid : id ∈ s.sessions)
    (hfree : TakesOverFreely s (.packet id header payload now)) :
    Tidy (s.handlePacket id header payload now).2 := by
  rcases s.handlePacket_effect id header payload now with
    ⟨-, h⟩ | ⟨session, gated, session', hsession, hg, hway⟩
  · rwa [h]
  have hu := s.gatePacket_userContext session header payload now
  rw [hg] at hu
  have hreceived := hs.calm (s.receive_calm payload hsession hu)
  rcases hway with ⟨-, h⟩ | ⟨inner, rfl, h⟩
  · exact hreceived.calm h.users
  · refine hreceived.effect hid ?_ h
    intro request userId ht hre
    exact hfree session inner request userId ht hsession (congrArg Prod.fst hg)
      ⟨hre.decoded, hre.valid⟩

theorem Tidy.step {s : Server σ} (hs : Tidy s) {e : ServerEvent} (hknown : ForKnown s e)
    (hfree : TakesOverFreely s e) : Tidy (serverStep s e) := by
  refine step_preserves (I := Tidy) (fun s s' h hs => hs.calm h.users)
    (fun s id hs => hs.without id) hs hs.createSession ?_ ?_
  · rintro call rfl
    exact hs.partyCall hknown
  · rintro id header payload now rfl
    exact hs.packet hknown hfree

/-- In every run whose packets and party calls are for known sessions and whose reconnects clash
with no session they take over, no unknown session is named anywhere. -/
theorem no_dangling_sessions (inventoryStorage : σ) (securityPolicy : SecurityPolicy)
    (tokenBytes : Draws UInt8) (seeds : Draws { n : UInt32 // n ≠ 0 }) (ticketBytes : Draws UInt8)
    (clock : Draws Time) (es : List ServerEvent)
    (hes : ∀ x ∈ trail serverStep
      (Server.new inventoryStorage securityPolicy tokenBytes seeds ticketBytes clock) es,
      ForKnown x.1 x.2 ∧ TakesOverFreely x.1 x.2) :
    NoDangling (after serverStep
      (Server.new inventoryStorage securityPolicy tokenBytes seeds ticketBytes clock) es) := by
  have hs := invariant (I := Tidy) (P := fun s e => ForKnown s e ∧ TakesOverFreely s e)
    (fun _ _ hs he => hs.step he.1 he.2) es _ (tidy_new ..) hes
  exact hs.noDangling

/-- A user's session with a party is taken over by session 2, once some parties are made. -/
def takenOverFrom (parties : List ServerEvent) : List ServerEvent :=
  [.createSession {} 0, .createSession {} 0,
    packetOf 1 .loginReq (encodeLoginRequest ⟨str "u", str "letmein"⟩)] ++ parties ++
  [packetOf 2 .sessionReconnectReq (encodeSessionReconnectRequest ⟨List.replicate 32 48, 0⟩)]

theorem no_dangling_taken_over : NoDangling
    (after serverStep (still {}) (takenOverFrom [.party (.createParty 1 (str "u"))])) := by
  refine no_dangling_sessions _ _ _ _ _ _ (takenOverFrom [.party (.createParty 1 (str "u"))]) ?_
  simp only [takenOverFrom, packetOf, List.cons_append, List.nil_append, trail,
    List.forall_mem_cons]
  refine ⟨⟨trivial, trivial⟩, ⟨trivial, trivial⟩, ⟨by decide +kernel, ?_⟩,
    ⟨by decide +kernel, trivial⟩, ⟨by decide +kernel, ?_⟩, by simp⟩
  · intro _ _ _ _ ht
    exact absurd ht (by decide)
  · intro _ _ _ _ _ _ _ _ existing _
    exact ⟨.inr (by decide +kernel), .inr (by decide +kernel)⟩

/-- Session 1 leads a party and is taken over by session 2, which leads another one: it is known no
more, and still leads its party. -/
theorem takeover_leaves_member :
    ¬ ∀ es : List ServerEvent, (∀ x ∈ trail serverStep (still {}) es, ForKnown x.1 x.2) →
      NoDangling (after serverStep (still {}) es) := by
  intro h
  have hs := h (takenOverFrom [.party (.createParty 1 (str "u")),
    .party (.createParty 2 (str "v"))]) (by decide +kernel)
  exact absurd (hs.partyIndex 1 (by decide +kernel)) (by decide +kernel)

end Runs

end Server

end DungeonHub
