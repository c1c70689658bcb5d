import DungeonHub.Proofs.Members
import DungeonHub.Proofs.Provenance

/-!
# A reconnect renames a session

What a reconnect on a session that nothing is known of yet does is to put its id in the place of
that of the session it takes over: in party and guild, as their leader, in the bindings to instance
and character, and in the registry.
-/

namespace DungeonHub

open Run Wire

section Groups

/-- The party with one session in another's place. -/
structure PartyRecord.Renamed (a b : ℕ) (party party' : PartyRecord) : Prop where
  id : party'.id = party.id
  leader : party'.leaderSessionId =
    if party.leaderSessionId = a then b else party.leaderSessionId
  members : party.members.Renames (fun member => { member with sessionId := b }) a b party'.members

/-- Parties and index with one session in another's place. -/
structure PartyService.Renamed (a b : ℕ) (s s' : PartyService) : Prop where
  index : s.memberIndex.Renames id a b s'.memberIndex
  parties : ∀ partyId : ℕ, Option.Rel (PartyRecord.Renamed a b) s.parties[partyId]?
    s'.parties[partyId]?
  next : s'.nextPartyId = s.nextPartyId

/-- The guild with one session in another's place. -/
structure GuildRecord.Renamed (a b : ℕ) (guild guild' : GuildRecord) : Prop where
  id : guild'.id = guild.id
  name : guild'.name = guild.name
  leader : guild'.leaderSessionId =
    if guild.leaderSessionId = a then b else guild.leaderSessionId
  members : guild.members.Renames (fun member => { member with sessionId := b }) a b guild'.members

/-- Guilds and index with one session in another's place. -/
structure GuildService.Renamed (a b : ℕ) (s s' : GuildService) : Prop where
  index : s.memberIndex.Renames id a b s'.memberIndex
  guilds : ∀ guildId : ℕ, Option.Rel (GuildRecord.Renamed a b) s.guilds[guildId]?
    s'.guilds[guildId]?
  next : s'.nextGuildId = s.nextGuildId

/-- Two records tables agree up to `R` if the one record that changes does, and each other one
with itself. -/
theorem rel_insert {V : Type} {R : V → V → Prop} {d : Dict ℕ V} {g : ℕ} {x x' : V}
    (hg : d[g]? = some x) (hx : R x x')
    (hR : ∀ (g' : ℕ) (y : V), d[g']? = some y → g' ≠ g → R y y) (k : ℕ) :
    Option.Rel R d[k]? (d.insert g x')[k]? := by
  rw [Dict.get?_insert]
  by_cases hk : g = k
  · subst hk
    rw [if_pos rfl, hg]
    exact .some hx
  · rw [if_neg hk]
    rcases hy : d[k]? with _ | y
    · exact .none
    · exact .some (hR k y hy (Ne.symm hk))

theorem rel_refl {V : Type} {R : V → V → Prop} {d : Dict ℕ V}
    (hR : ∀ (g : ℕ) (y : V), d[g]? = some y → R y y) (k : ℕ) : Option.Rel R d[k]? d[k]? := by
  rcases hy : d[k]? with _ | y
  · exact .none
  · exact .some (hR k y hy)

/-- A party that neither session is in stays. -/
theorem PartyService.Sound.renamed_self {s : PartyService} (h : s.Sound) {a b partyId : ℕ}
    {party : PartyRecord} (hp : s.parties[partyId]? = some party)
    (ha : s.memberIndex[a]? ≠ some partyId) (hb : b ∉ s.memberIndex) :
    party.Renamed a b party := by
  have hmem : ∀ k, k ∈ party.members ↔ s.memberIndex[k]? = some partyId :=
    fun k => h.roster.mem_view hp
  have hleader : party.leaderSessionId ≠ a := by
    rintro rfl
    exact ha ((hmem _).mp (h.roster.leader_view hp))
  refine ⟨rfl, by rw [if_neg hleader], Dict.renames_of_not_mem _ (mt (hmem a).mp ha) ?_⟩
  intro hin
  exact hb ((Dict.mem_iff _ _).mpr ⟨partyId, (hmem b).mp hin⟩)

/-- A session nothing knows of takes another's place in its party. -/
theorem PartyService.replaceMemberSession_renamed {s : PartyService} (h : s.Sound) {a b : ℕ}
    (hne : a ≠ b) (hb : b ∉ s.memberIndex) : s.Renamed a b (s.replaceMemberSession a b).2 := by
  unfold replaceMemberSession
  rw [if_neg hne]
  rcases ha : s.memberIndex[a]? with _ | partyId
  · have hnot : a ∉ s.memberIndex := (Dict.not_mem_iff _ _).mpr ha
    refine ⟨Dict.renames_of_not_mem _ hnot hb, rel_refl fun g party hp => ?_, rfl⟩
    exact h.renamed_self hp (by rw [ha]; simp) hb
  · obtain ⟨party, member, hp, hm⟩ := h.party_of_index ha
    simp only [if_neg hb, hp, hm]
    have hbparty : b ∉ party.members := by
      intro hin
      exact hb ((Dict.mem_iff _ _).mpr ⟨partyId, (h.roster.mem_view hp).mp hin⟩)
    refine ⟨Dict.renames_erase_insert id ha, rel_insert hp ⟨rfl, rfl, ?_⟩ ?_, rfl⟩
    · exact Dict.renames_erase_insertIfNew (fun member => { member with sessionId := b }) hm hbparty
    · intro g party' hp' hg
      refine h.renamed_self hp' ?_ hb
      rw [ha]
      simp [Ne.symm hg]

/-- A guild that neither session is in stays. -/
theorem GuildService.Sound.renamed_self {s : GuildService} (h : s.Sound) {a b guildId : ℕ}
    {guild : GuildRecord} (hg : s.guilds[guildId]? = some guild)
    (ha : s.memberIndex[a]? ≠ some guildId) (hb : b ∉ s.memberIndex) :
    guild.Renamed a b guild := by
  have hmem : ∀ k, k ∈ guild.members ↔ s.memberIndex[k]? = some guildId :=
    fun k => h.roster.mem_view hg
  have hleader : guild.leaderSessionId ≠ a := by
    rintro rfl
    exact ha ((hmem _).mp (h.roster.leader_view hg))
  refine ⟨rfl, rfl, by rw [if_neg hleader], Dict.renames_of_not_mem _ (mt (hmem a).mp ha) ?_⟩
  intro hin
  exact hb ((Dict.mem_iff _ _).mpr ⟨guildId, (hmem b).mp hin⟩)

/-- A session nothing knows of takes another's place in its guild. -/
theorem GuildService.replaceMemberSession_renamed {s : GuildService} (h : s.Sound) {a b : ℕ}
    (hne : a ≠ b) (hb : b ∉ s.memberIndex) : s.Renamed a b (s.replaceMemberSession a b).2 := by
  unfold replaceMemberSession
  rw [if_neg hne]
  rcases ha : s.memberIndex[a]? with _ | guildId
  · have hnot : a ∉ s.memberIndex := (Dict.not_mem_iff _ _).mpr ha
    refine ⟨Dict.renames_of_not_mem _ hnot hb, rel_refl fun g guild hg => ?_, rfl⟩
    exact h.renamed_self hg (by rw [ha]; simp) hb
  · obtain ⟨guild, member, hg, hm⟩ := h.guild_of_index ha
    simp only [if_neg hb, hg, hm]
    have hbguild : b ∉ guild.members := by
      intro hin
      exact hb ((Dict.mem_iff _ _).mpr ⟨guildId, (h.roster.mem_view hg).mp hin⟩)
    refine ⟨Dict.renames_erase_insert id ha, rel_insert hg ⟨rfl, rfl, rfl, ?_⟩ ?_, rfl⟩
    · exact Dict.renames_erase_insertIfNew (fun member => { member with sessionId := b }) hm hbguild
    · intro g guild' hg' hne'
      refine h.renamed_self hg' ?_ hb
      rw [ha]
      simp [Ne.symm hne']

end Groups

namespace SessionRegistry

variable {r : SessionRegistry} {a b : ℕ}

/-- The user of one session is registered for another that had none. -/
theorem Inverse.registerSession_taken (hr : r.Inverse) (context : UserContext) (hne : a ≠ b)
    (ha : r.activeUsers[context.userId]? = some a) (hb : r.records[b]? = none) :
    (∀ userId : Str, ((r.removeSession a).registerSession b context).2.activeUsers[userId]? =
      if r.activeUsers[userId]? = some a then some b else r.activeUsers[userId]?) ∧
    ∀ k : ℕ, ((r.removeSession a).registerSession b context).2.records[k]? =
      if k = b then some context else if k = a then none else r.records[k]? := by
  have hheld : r.heldByOther context.userId b = some a := heldByOther_eq_some.mpr ⟨ha, hne⟩
  have hfree := hr.heldByOther_removeSession hheld
  have hbnone : (r.removeSession a).records[b]? = none := by
    rw [removeSession_records, Dict.get?_erase_of_ne _ hne, hb]
  have huser : ∀ userId : Str, r.activeUsers[userId]? = some a ↔ context.userId = userId := by
    intro userId
    have hmap := (hr _ a).mp ha
    rw [hr, hmap, Option.some.injEq]
  unfold SessionRegistry.registerSession
  rw [hfree, hbnone]
  refine ⟨fun userId => ?_, fun k => ?_⟩
  · show ((r.removeSession a).activeUsers.insert context.userId b)[userId]? = _
    rw [Dict.get?_insert, hr.removeSession_activeUsers]
    by_cases hu : context.userId = userId
    · rw [if_pos hu, if_pos ((huser userId).mpr hu)]
    · rw [if_neg hu, if_neg (mt (huser userId).mp hu), if_neg (mt (huser userId).mp hu)]
  · show ((r.removeSession a).records.insert b context)[k]? = _
    rw [removeSession_records, Dict.get?_erase_insert]

end SessionRegistry

namespace Server

variable {σ : Type}

/-- What holds in every state of a server, whatever sessions its packets come on. -/
structure Orderly (s : Server σ) : Prop where
  inverse : s.registry.Inverse
  recorded : ∀ id ∈ s.registry.records, id ∈ s.heap
  contexts : ∀ id ∈ s.sessions, s.userContext id = s.registry.records[id]?
  known : ∀ id ∈ s.sessions, id ∈ s.heap
  below : ∀ id ∈ s.heap, id < s.nextId
  party : s.partyService.Sound
  guild : s.guildService.Sound

section Orderly

variable {s s' : Server σ}

theorem Orderly.calm (hs : Orderly s) (h : Calm Session.userContext s s') : Orderly s' where
  inverse := h.registry ▸ hs.inverse
  recorded id hid := by
    rw [h.registry] at hid
    exact (h.heap.mem id).mpr (hs.recorded id hid)
  contexts id hid := by
    rw [h.sessions] at hid
    rw [h.userContext, h.registry]
    exact hs.contexts id hid
  known id hid := by
    rw [h.sessions] at hid
    exact (h.heap.mem id).mpr (hs.known id hid)
  below id hid := by
    rw [h.nextId]
    exact hs.below id ((h.heap.mem id).mp hid)
  party := h.party ▸ hs.party
  guild := h.guild ▸ hs.guild

/-- Changes elsewhere, and of the members of parties and guilds. -/
theorem Orderly.congr (hs : Orderly s) (hregistry : s'.registry = s.registry)
    (hsessions : s'.sessions = s.sessions) (hheap : s'.heap = s.heap)
    (hnext : s'.nextId = s.nextId) (hparty : s'.partyService.Sound)
    (hguild : s'.guildService.Sound) : Orderly s' where
  inverse := hregistry ▸ hs.inverse
  recorded := by rw [hregistry, hheap]; exact hs.recorded
  contexts := by unfold userContext; rw [hregistry, hsessions, hheap]; exact hs.contexts
  known := by rw [hsessions, hheap]; exact hs.known
  below := by rw [hheap, hnext]; exact hs.below
  party := hparty
  guild := hguild

/-- A session object gets a user that no other session holds. -/
theorem Orderly.attach (hs : Orderly s) {id : ℕ} (hid : id ∈ s.heap) {context : UserContext}
    (hfree : s.registry.heldByOther context.userId id = none) :
    Orderly (s.attach id context) where
  inverse := hs.inverse.registerSession hfree
  recorded k hk := by
    unfold Server.attach at hk
    simp only [SessionRegistry.registerSession_records hfree] at hk
    refine (mem_modifySession ..).mpr ?_
    rcases (Dict.mem_insert _ _ _ _).mp hk with rfl | hk
    · exact hid
    · exact hs.recorded k hk
  contexts k hk := userContext_attach hid hfree (hs.contexts k hk)
  known k hk := (mem_modifySession ..).mpr (hs.known k hk)
  below k hk := hs.below k ((mem_modifySession ..).mp hk)
  party := hs.party
  guild := hs.guild

/-- A session leaves the registry, and the sessions if it is one of them or has no user any more;
the others keep their users. -/
theorem Orderly.drop (hs : Orderly s) (id : ℕ)
    (hregistry : s'.registry = s.registry.removeSession id)
    (hsessions : ∀ k ∈ s'.sessions, k ∈ s.sessions ∧ (k = id → s'.userContext id = none))
    (hheap : ∀ k, k ∈ s'.heap ↔ k ∈ s.heap)
    (husers : ∀ k, k ≠ id → s'.userContext k = s.userContext k)
    (hnext : s'.nextId = s.nextId) (hparty : s'.partyService.Sound)
    (hguild : s'.guildService.Sound) : Orderly s' where
  inverse := hregistry ▸ hs.inverse.removeSession id
  recorded k hk := by
    rw [hregistry, SessionRegistry.removeSession_records, Dict.mem_erase] at hk
    exact (hheap k).mpr (hs.recorded k hk.2)
  contexts k hk := by
    obtain ⟨hin, hnone⟩ := hsessions k hk
    rw [hregistry, SessionRegistry.removeSession_records, Dict.get?_erase]
    by_cases hne : k = id
    · rw [if_pos hne.symm, hne, hnone hne]
    · rw [if_neg (Ne.symm hne), husers k hne, hs.contexts k hin]
  known k hk := (hheap k).mpr (hs.known k (hsessions k hk).1)
  below k hk := by
    rw [hnext]
    exact hs.below k ((hheap k).mp hk)
  party := hparty
  guild := hguild

theorem userContext_clear (s : Server σ) (id k : ℕ) :
    (s.modifySession id Session.clearUserContext).userContext k =
      if k = id then none else s.userContext k := by
  rw [userContext_modifySession]
  by_cases h : k = id
  · rw [if_pos h.symm, if_pos h]
    rcases s.heap[k]? <;> rfl
  · rw [if_neg (Ne.symm h), if_neg h]

theorem Orderly.detach (hs : Orderly s) (id : ℕ) : Orderly (s.detach id) := by
  have huser : ∀ k, (s.detach id).userContext k = if k = id then none else s.userContext k :=
    s.userContext_clear id
  refine hs.drop id rfl (fun k hk => ⟨hk, fun _ => ?_⟩) (fun k => mem_modifySession ..)
    (fun k hk => ?_) rfl hs.party hs.guild
  · rw [huser, if_pos rfl]
  · rw [huser, if_neg hk]

theorem Orderly.without (hs : Orderly s) (id : ℕ) : Orderly (s.without id) := by
  have hparty := (PartyService.removeMember_goes (A := ∅) hs.party id).1.2
  have hguild := (GuildService.removeMember_goes (A := ∅) hs.guild id).1.2
  refine hs.drop id rfl (fun k hk => ?_) (fun k => ?_) (fun k hk => ?_) rfl hparty hguild
  · obtain ⟨hne, hin⟩ := (Dict.mem_erase _ _ _).mp hk
    exact ⟨hin, fun heq => absurd heq.symm hne⟩
  · unfold Server.without
    simp only []
    split_ifs
    · exact mem_modifySession s id k _
    · rfl
  · have hclear := s.userContext_clear id k
    rw [if_neg hk] at hclear
    unfold Server.without
    by_cases hin : id ∈ s.sessions
    · simp only [if_pos hin]
      exact hclear
    · simp only [if_neg hin]
      rfl

theorem Orderly.takeOver (hs : Orderly s) {existing id : ℕ} : Orderly (s.takeOver existing id) := by
  rcases hfind : s.findSession existing with _ | session
  · have hnot : existing ∉ s.sessions := by
      intro hin
      obtain ⟨session, hsession⟩ := (Dict.mem_iff _ _).mp (hs.known existing hin)
      rw [findSession_eq_some.mpr ⟨hin, hsession⟩] at hfind
      cases hfind
    unfold Server.takeOver
    rw [hfind]
    refine hs.drop existing rfl (fun k hk => ⟨hk, fun heq => ?_⟩) (fun _ => Iff.rfl)
      (fun _ _ => rfl) rfl hs.party hs.guild
    exact absurd (heq ▸ hk) hnot
  · rw [takeOver_of_known hfind]
    have hparty := PartyService.replaceMemberSession_goes (A := Set.univ) hs.party
      (Set.mem_univ id) existing
    have hguild := GuildService.replaceMemberSession_goes (A := Set.univ) hs.guild
      (Set.mem_univ id) existing
    refine hs.drop existing rfl (fun k hk => ?_) (fun k => mem_modifySession s existing k _)
      (fun k hk => ?_) rfl hparty.2 hguild.2
    · obtain ⟨hne, hin⟩ := (Dict.mem_erase _ _ _).mp hk
      exact ⟨hin, fun heq => absurd heq.symm hne⟩
    · have hclear := s.userContext_clear existing k
      rw [if_neg hk] at hclear
      exact hclear

theorem Orderly.reclaim (hs : Orderly s) (userId : Str) (id : ℕ) :
    Orderly (s.reclaim userId id) ∧
      (s.reclaim userId id).registry.heldByOther userId id = none ∧
      ∀ k, k ∈ (s.reclaim userId id).heap ↔ k ∈ s.heap := by
  unfold Server.reclaim
  rcases hheld : s.registry.heldByOther userId id with _ | existing
  · exact ⟨hs, hheld, fun _ => Iff.rfl⟩
  · refine ⟨hs.takeOver, ?_, fun k => ?_⟩
    · have hregistry : (s.takeOver existing id).registry = s.registry.removeSession existing := by
        unfold Server.takeOver
        split <;> rfl
      simp only [hregistry]
      exact hs.inverse.heldByOther_removeSession hheld
    · simp only []
      unfold Server.takeOver
      split
      · exact Iff.rfl
      · exact mem_modifySession s existing k _

theorem Orderly.createSession (hs : Orderly s) (config : SessionConfig) (now : Time) :
    Orderly (s.createSession config now) := by
  have hheap : ∀ k, k ∈ (s.createSession config now).heap ↔ s.nextId = k ∨ k ∈ s.heap :=
    fun k => Dict.mem_insert _ _ _ _
  have hsessions : ∀ k, k ∈ (s.createSession config now).sessions ↔
      s.nextId = k ∨ k ∈ s.sessions := fun k => Dict.mem_insertIfNew _ _ _ _
  refine ⟨hs.inverse, fun k hk => (hheap k).mpr (.inr (hs.recorded k hk)), fun k hk => ?_,
    fun k hk => ?_, fun k hk => ?_, hs.party, hs.guild⟩
  · refine userContext_createSession config now (fun h => ?_) fun hne => ?_
    · exact Nat.lt_irrefl _ (hs.below _ (hs.recorded _ h))
    · exact hs.contexts k (((hsessions k).mp hk).resolve_left hne)
  · rcases (hsessions k).mp hk with h | h
    · exact (hheap k).mpr (.inl h)
    · exact (hheap k).mpr (.inr (hs.known k h))
  · show k < s.nextId + 1
    rcases (hheap k).mp hk with h | h
    · omega
    · have := hs.below k h
      omega

theorem Orderly.effect (hs : Orderly s) {id : ℕ} (hid : id ∈ s.heap) {header : FrameHeader}
    {payload : Bytes} {now : Time} (h : Effect s id header payload now s') : Orderly s' := by
  cases h with
  | calm tokenService h =>
    refine Orderly.calm ?_ h.users
    exact hs.congr rfl rfl rfl rfl hs.party hs.guild
  | login tokenService context h =>
    have htokens : Orderly { s with tokenService } :=
      hs.congr rfl rfl rfl rfl hs.party hs.guild
    exact htokens.attach hid h
  | logout => exact hs.detach id
  | reconnect request userId ht h hr =>
    obtain ⟨hre, hfree, hmem⟩ := hs.reclaim userId id
    have hattach : Orderly ((s.reclaim userId id).attach id ⟨userId, request.token⟩) :=
      hre.attach ((hmem id).mpr hid) hfree
    exact hattach.calm (modifySession_calm _ id fun _ => rfl)
  | clash request userId h hr =>
    obtain ⟨-, hfree, -⟩ := hs.reclaim userId id
    rw [(SessionRegistry.registerSession_iff _ _ _).mpr hfree] at hr
    cases hr
  | enter charId instanceId h =>
    refine Orderly.calm ?_ h.users
    exact hs.congr rfl rfl rfl rfl hs.party hs.guild
  | grant instanceId grantId h =>
    refine Orderly.calm ?_ h.users
    exact hs.congr rfl rfl rfl rfl hs.party hs.guild
  | guild call hc h =>
    refine Orderly.calm ?_ h.users
    exact hs.congr rfl rfl rfl rfl hs.party (GuildService.call_goes hs.guild call).2

theorem Orderly.receive (hs : Orderly s) {id : ℕ} {session session' : Session}
    {header : FrameHeader} {payload : Bytes} {now : Time} {gated : Gated}
    (hsession : s.heap[id]? = some session)
    (hg : s.gatePacket session header payload now = (gated, session')) :
    Orderly (s.receive id session' payload) := by
  have hu := s.gatePacket_userContext session header payload now
  rw [hg] at hu
  exact hs.calm (s.receive_calm payload hsession hu)

theorem Orderly.step [InventoryStorage σ] (hs : Orderly s) (e : ServerEvent) :
    Orderly (serverStep s e) := by
  refine step_preserves (I := Orderly) (fun s s' h hs => hs.calm h.users)
    (fun s id hs => hs.without id) hs hs.createSession ?_ ?_
  · intro call _
    exact hs.congr rfl rfl rfl rfl (PartyService.call_goes hs.party call).2 hs.guild
  · rintro id header payload now rfl
    rcases s.handlePacket_effect id header payload now with
      ⟨-, h⟩ | ⟨session, gated, session', hsession, hg, hway⟩
    · rwa [h]
    · have hreceived := hs.receive hsession hg
      rcases hway with ⟨-, h⟩ | ⟨inner, -, h⟩
      · exact hreceived.calm h.users
      · exact hreceived.effect ((Dict.mem_insert _ _ _ _).mpr (.inl rfl)) h

theorem orderly_new (inventoryStorage : σ) (securityPolicy : SecurityPolicy)
    (tokenBytes : Draws UInt8) (seeds : Draws { n : UInt32 // n ≠ 0 }) (ticketBytes : Draws UInt8)
    (clock : Draws Time) :
    Orderly (Server.new inventoryStorage securityPolicy tokenBytes seeds ticketBytes clock) := by
  have hmem : ∀ {V : Type} (id : ℕ), id ∉ (∅ : Dict ℕ V) := fun id =>
    (Dict.not_mem_iff _ _).mpr (Dict.get?_empty id)
  have hconsistent := consistent_new inventoryStorage securityPolicy tokenBytes seeds ticketBytes
    clock
  exact ⟨hconsistent.inverse, fun id h => absurd h (hmem id), hconsistent.contexts,
    hconsistent.known, fun id h => absurd h (hmem id),
    ⟨Roster.sound_empty _, Dict.all_empty, Dict.all_empty⟩,
    ⟨Roster.sound_empty _, Dict.all_empty, Dict.all_empty⟩⟩

end Orderly

section Renaming

/-- A known session without a user, and without a place in anything. -/
structure Fresh (s : Server σ) (id : ℕ) : Prop where
  known : id ∈ s.sessions
  anonymous : s.userContext id = none
  party : id ∉ s.partyService.memberIndex
  guild : id ∉ s.guildService.memberIndex
  bound : id ∉ s.sessionInstances
  characters : id ∉ s.sessionCharacters

/-- The server with session `b` in the place of session `a`. -/
structure Renamed (a b : ℕ) (s s' : Server σ) : Prop where
  party : s.partyService.Renamed a b s'.partyService
  guild : s.guildService.Renamed a b s'.guildService
  bound : s.sessionInstances.Renames id a b s'.sessionInstances
  characters : s.sessionCharacters.Renames id a b s'.sessionCharacters
  active : ∀ userId : Str, s'.registry.activeUsers[userId]? =
    if s.registry.activeUsers[userId]? = some a then some b else s.registry.activeUsers[userId]?
  users : ∀ k : ℕ, s'.registry.records[k]?.map UserContext.userId =
    if k = b then s.registry.records[a]?.map UserContext.userId
    else if k = a then none else s.registry.records[k]?.map UserContext.userId
  sessions : ∀ k : ℕ, k ∈ s'.sessions ↔ k ∈ s.sessions ∧ k ≠ a
  others : ∀ k : ℕ, k ≠ a → k ≠ b → s'.heap[k]? = s.heap[k]? ∧
    s'.registry.records[k]? = s.registry.records[k]?
  tokens : s'.tokenService = s.tokenService
  queue : s'.matchQueue = s.matchQueue
  instances : s'.instanceManager = s.instanceManager
  inventory : s'.inventoryStorage = s.inventoryStorage
  partyInstances : s'.partyInstances = s.partyInstances
  tickets : s'.instanceTickets = s.instanceTickets
  seeds : s'.instanceSeeds = s.instanceSeeds
  grants : s'.instanceRewardGrants = s.instanceRewardGrants

theorem moveKey_renames {V : Type} {d : Dict ℕ V} {a b : ℕ} (hne : a ≠ b) (hb : b ∉ d) :
    d.Renames id a b (moveKey d a b) := by
  unfold moveKey
  split
  · rename_i ha
    exact Dict.renames_of_not_mem _ ((Dict.not_mem_iff _ _).mpr ha) hb
  · rename_i v ha
    intro k
    rw [Dict.get?_erase, Dict.get?_insert, ha]
    by_cases hkb : k = b
    · simp [hkb, hne]
    · by_cases hka : k = a
      · simp [hka, hne]
      · simp [hkb, hka, Ne.symm hkb, Ne.symm hka]

theorem le_max_seq (m n : UInt64) : n ≤ max m n := by
  show n ≤ if m ≤ n then n else m
  split_ifs with h
  · exact UInt64.le_refl n
  · exact UInt64.le_of_lt (UInt64.not_le.mp h)

/-- What an accepted reconnect leaves, if it takes over a session the server knows. -/
theorem resume_of_held {s : Server σ} {a b : ℕ} {sa : Session} (request : SessionReconnectRequest)
    {userId : Str} (hheld : s.registry.heldByOther userId b = some a)
    (ha : s.findSession a = some sa) :
    s.resume b request userId =
      { s with
        heap := ((s.heap.modify a Session.clearUserContext).modify b
          (·.attachUserContext ⟨userId, request.token⟩)).modify b
          (·.setLastSeq (max request.lastSeq.toUInt64 sa.lastSeq))
        sessions := s.sessions.erase a
        registry := ((s.registry.removeSession a).registerSession b ⟨userId, request.token⟩).2
        partyService := (s.partyService.replaceMemberSession a b).2
        guildService := (s.guildService.replaceMemberSession a b).2
        sessionInstances := moveKey s.sessionInstances a b
        sessionCharacters := moveKey s.sessionCharacters a b } := by
  have hreclaim : s.reclaim userId b = s.takeOver a b := by
    unfold reclaim
    rw [hheld]
  have hseq : s.previousLastSeq (some a) = sa.lastSeq := by
    unfold previousLastSeq
    rw [Option.bind_some, ha]
  unfold resume restoredLastSeq
  rw [hreclaim, hheld, hseq, takeOver_of_known ha]
  rfl

/-- The two session objects after such a reconnect. -/
theorem resume_heap {s : Server σ} {a b : ℕ} {sa sb : Session} (request : SessionReconnectRequest)
    {userId : Str} (hheld : s.registry.heldByOther userId b = some a)
    (ha : s.findSession a = some sa) (hb : s.heap[b]? = some sb) :
    (s.resume b request userId).heap[a]? = some sa.clearUserContext ∧
      (s.resume b request userId).heap[b]? =
        some ((sb.attachUserContext ⟨userId, request.token⟩).setLastSeq
          (max request.lastSeq.toUInt64 sa.lastSeq)) := by
  have hne := (SessionRegistry.heldByOther_eq_some.mp hheld).2
  rw [resume_of_held request hheld ha]
  simp only [Dict.get?_modify, (findSession_eq_some.mp ha).2, hb, if_neg hne, if_neg hne.symm]
  exact ⟨rfl, rfl⟩

/-- A session nothing is known of takes the place of the one that holds the user. -/
theorem Orderly.resume_renamed {s : Server σ} (hs : Orderly s) {a b : ℕ} {sa : Session}
    (request : SessionReconnectRequest) {userId : Str} (hfresh : Fresh s b) (hne : a ≠ b)
    (hactive : s.registry.activeUsers[userId]? = some a) (ha : s.findSession a = some sa) :
    Renamed a b s (s.resume b request userId) := by
  have hheld : s.registry.heldByOther userId b = some a :=
    SessionRegistry.heldByOther_eq_some.mpr ⟨hactive, hne⟩
  have hb : s.registry.records[b]? = none := by
    rw [← hs.contexts b hfresh.known]
    exact hfresh.anonymous
  have ⟨husers, hrecords⟩ := hs.inverse.registerSession_taken ⟨userId, request.token⟩ hne hactive hb
  rw [resume_of_held request hheld ha]
  refine ⟨PartyService.replaceMemberSession_renamed hs.party hne hfresh.party,
    GuildService.replaceMemberSession_renamed hs.guild hne hfresh.guild,
    moveKey_renames hne hfresh.bound, moveKey_renames hne hfresh.characters, husers, fun k => ?_,
    fun k => ?_, fun k hka hkb => ⟨?_, ?_⟩, rfl, rfl, rfl, rfl, rfl, rfl, rfl, rfl⟩
  · show ((s.registry.removeSession a).registerSession b ⟨userId, request.token⟩).2.records[k]?.map
      UserContext.userId = _
    rw [hrecords, (hs.inverse userId a).mp hactive]
    by_cases hkb : k = b
    · rw [if_pos hkb, if_pos hkb]
      rfl
    · rw [if_neg hkb, if_neg hkb]
      by_cases hka : k = a
      · rw [if_pos hka, if_pos hka]
        rfl
      · rw [if_neg hka, if_neg hka]
  · show k ∈ s.sessions.erase a ↔ _
    rw [Dict.mem_erase, and_comm, ne_comm]
  · show (((s.heap.modify a _).modify b _).modify b _)[k]? = s.heap[k]?
    rw [heap_modify_of_ne (Ne.symm hkb), heap_modify_of_ne (Ne.symm hkb),
      heap_modify_of_ne (Ne.symm hka)]
  · show ((s.registry.removeSession a).registerSession b ⟨userId, request.token⟩).2.records[k]? = _
    rw [hrecords, if_neg hkb, if_neg hka]

theorem Renamed.receive {s s' : Server σ} {a b : ℕ} {session : Session} {payload : Bytes}
    (h : Renamed a b (s.receive b session payload) s') : Renamed a b s s' where
  party := h.party
  guild := h.guild
  bound := h.bound
  characters := h.characters
  active := h.active
  users := h.users
  sessions := h.sessions
  others k hka hkb := by
    refine ⟨(h.others k hka hkb).1.trans ?_, (h.others k hka hkb).2⟩
    exact Dict.get?_insert_of_ne _ _ (Ne.symm hkb)
  tokens := h.tokens
  queue := h.queue
  instances := h.instances
  inventory := h.inventory
  partyInstances := h.partyInstances
  tickets := h.tickets
  seeds := h.seeds
  grants := h.grants

/-- In every state of a server, a good token gets its session registered. -/
theorem Orderly.reconnect_success {s : Server σ} (hs : Orderly s) {payload : Bytes} {now : Time}
    {request : SessionReconnectRequest} {userId : Str}
    (h : Reconnects s payload now request userId) (id : ℕ) :
    (s.handleReconnect id payload now).1.success = true := by
  rw [handleReconnect_success h]
  exact (SessionRegistry.registerSession_iff _ _ _).mpr (hs.reclaim userId id).2.1

variable [InventoryStorage σ]

/-- In every state of a server, an accepted reconnect of a user on a session nothing is known of
puts it in the place of the known session the user is on, which is dropped; and it goes on with a
sequence number no lower. -/
theorem reconnect_renames (inventoryStorage : σ) (securityPolicy : SecurityPolicy)
    (tokenBytes : Draws UInt8) (seeds : Draws { n : UInt32 // n ≠ 0 }) (ticketBytes : Draws UInt8)
    (clock : Draws Time) (es : List ServerEvent) (s : Server σ)
    (hes : s = after serverStep
      (Server.new inventoryStorage securityPolicy tokenBytes seeds ticketBytes clock) es)
    {a b : ℕ} {context : UserContext} (ha : a ∈ s.sessions)
    (huser : s.userContext a = some context) (hfresh : Fresh s b)
    (header : FrameHeader) (payload body : Bytes) (now : Time)
    (request : SessionReconnectRequest) (response : SessionReconnectResponse)
    (ht : PacketType.ofCode header.type = some .sessionReconnectReq)
    (hbody : bodyOf s.securityPolicy payload = some body)
    (hdecoded : decodeSessionReconnectRequest body = .ok request)
    (htoken : (s.tokenService.validateToken request.token now).1 = some context.userId)
    (hanswer : (s.answerPacket b header payload now).1 = some ⟨.sessionReconnectRes, response⟩)
    (hsuccess : response.success = true) :
    Renamed a b s (s.handlePacket b header payload now).2 ∧
      a ∉ (s.handlePacket b header payload now).2.sessions ∧
      (s.handlePacket b header payload now).2.userContext a = none ∧
      (s.handlePacket b header payload now).2.userContext b =
        some ⟨context.userId, request.token⟩ ∧
      ∃ sa sb : Session, s.heap[a]? = some sa ∧
        (s.handlePacket b header payload now).2.heap[b]? = some sb ∧ sa.lastSeq ≤ sb.lastSeq := by
  have hs : Orderly s := by
    rw [hes]
    exact stable (I := Orderly) (fun _ e hs => hs.step e) es (orderly_new ..)
  have hne : a ≠ b := by
    rintro rfl
    rw [hfresh.anonymous] at huser
    cases huser
  obtain ⟨session, session', userId, hsession, hg, hre, hstate⟩ :=
    reconnects_of_answer ht hbody hdecoded hanswer hsuccess
  have huserId : userId = context.userId := by
    have hvalid := congrArg Prod.fst hre.valid
    change (s.tokenService.validateToken request.token now).1 = some userId at hvalid
    rw [htoken, Option.some.injEq] at hvalid
    exact hvalid.symm
  subst huserId
  have hactive : s.registry.activeUsers[context.userId]? = some a := by
    rw [hs.inverse, ← hs.contexts a ha, huser]
    rfl
  obtain ⟨sa, hsa⟩ := (Dict.mem_iff _ _).mp (hs.known a ha)
  have hreceived := hs.receive hsession hg
  have hsa' : (s.receive b session' payload).heap[a]? = some sa :=
    (Dict.get?_insert_of_ne _ _ (Ne.symm hne)).trans hsa
  have hfind : (s.receive b session' payload).findSession a = some sa :=
    findSession_eq_some.mpr ⟨ha, hsa'⟩
  have hu := s.gatePacket_userContext session header payload now
  rw [hg] at hu
  have hcalm := s.receive_calm payload hsession hu
  have hfresh' : Fresh (s.receive b session' payload) b :=
    ⟨hfresh.known, (hcalm.userContext b).trans hfresh.anonymous, hfresh.party, hfresh.guild,
      hfresh.bound, hfresh.characters⟩
  have hheld : (s.receive b session' payload).registry.heldByOther context.userId b = some a :=
    SessionRegistry.heldByOther_eq_some.mpr ⟨hactive, hne⟩
  have hrenamed := (hreceived.resume_renamed request hfresh' hne hactive hfind).receive
  obtain ⟨hheapa, hheapb⟩ := resume_heap request hheld hfind (Dict.get?_insert_self _ _ _)
  rw [hstate]
  refine ⟨hrenamed, fun hin => ((hrenamed.sessions a).mp hin).2 rfl, ?_, ?_, sa, _, hsa, hheapb,
    le_max_seq _ _⟩
  · unfold userContext
    rw [hheapa]
    rfl
  · unfold userContext
    rw [hheapb]
    rfl

/-- A user logs in on session 1 and leads a party. -/
def leading : List ServerEvent :=
  [.createSession {} 0, .createSession {} 0,
    packetOf 1 .loginReq (encodeLoginRequest ⟨str "u", str "letmein"⟩),
    .party (.createParty 1 (str "u"))]

/-- A reconnect that shows the token of that login. -/
def reconnecting : Bytes := encodeSessionReconnectRequest ⟨List.replicate 32 48, 0⟩

theorem reconnect_renames_leader :
    (after serverStep (still {}) leading).userContext 1 =
      some ⟨str "u", List.replicate 32 48⟩ ∧
    Fresh (after serverStep (still {}) leading) 2 ∧
    Renamed 1 2 (after serverStep (still {}) leading)
      (serverStep (after serverStep (still {}) leading)
        (packetOf 2 .sessionReconnectReq reconnecting)) := by
  have huser : (after serverStep (still {}) leading).userContext 1 =
      some ⟨str "u", List.replicate 32 48⟩ := by
    decide +kernel
  have hfresh : Fresh (after serverStep (still {}) leading) 2 :=
    ⟨by decide +kernel, by decide +kernel, by decide +kernel, by decide +kernel,
      by decide +kernel, by decide +kernel⟩
  have htoken : ((after serverStep (still {}) leading).tokenService.validateToken
      (List.replicate 32 48) 0).1 = some (str "u") := by
    decide +kernel
  have hs : Orderly (after serverStep (still {}) leading) :=
    stable (fun _ e hs => hs.step e) leading (orderly_new ..)
  obtain ⟨session, hsession⟩ := (Dict.mem_iff _ 2).mp (hs.known 2 hfresh.known)
  have hg : (after serverStep (still {}) leading).gatePacket session
      (headerOf .sessionReconnectReq reconnecting) reconnecting 0 = _ :=
    gatePacket_open (by decide +kernel) (by decide +kernel) (by decide +kernel) (by decide) ..
  have hre : Reconnects ((after serverStep (still {}) leading).receive 2
      ((session.onReceive 0).setProtocolVersion kMinProtocolVersion) reconnecting) reconnecting 0
      ⟨List.replicate 32 48, 0⟩ (str "u") :=
    ⟨by decide, Prod.ext htoken (TokenService.validateToken_some (Prod.ext htoken rfl))⟩
  have hanswer := congrArg Prod.fst (answerPacket_of_passed hsession hg)
  rw [dispatch_reconnect (by decide)] at hanswer
  refine ⟨huser, hfresh, ?_⟩
  exact (reconnect_renames _ _ _ _ _ _ leading _ rfl (by decide +kernel) huser hfresh _ _
    reconnecting 0 ⟨List.replicate 32 48, 0⟩ _ (by decide) (by decide +kernel) (by decide) htoken
    hanswer ((hs.receive hsession hg).reconnect_success hre 2)).1

end Renaming

end Server

end DungeonHub
