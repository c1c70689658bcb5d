import DungeonHub.Handlers
import DungeonHub.Lib.Roster

/-!
# Parties and guilds as rosters

Both services keep a roster: each of their calls is a step of it, with new members only from the
sessions it is called for.
-/

namespace DungeonHub

open Roster

/-- A group with the keys of a table as its members. -/
def crewOf {M : Type} (leader : ℕ) (members : Dict ℕ M) : Crew ℕ := ⟨leader, {k | k ∈ members}⟩

section Crew

variable {M : Type} (leader k k' : ℕ) (members : Dict ℕ M) (member : M)

theorem crewOf_single :
    crewOf k ((∅ : Dict ℕ M).insert k member) = ⟨k, {k}⟩ := by
  simp only [crewOf, Crew.mk.injEq, true_and]
  ext j
  rw [Set.mem_ofPred_eq, Dict.mem_insert, Set.mem_singleton_iff, eq_comm]
  simp

theorem crewOf_insertIfNew :
    crewOf leader (members.insertIfNew k member) =
      ⟨(crewOf leader members).leader, insert k (crewOf leader members).members⟩ := by
  simp only [crewOf, Crew.mk.injEq, true_and]
  ext j
  rw [Set.mem_ofPred_eq, Dict.mem_insertIfNew, Set.mem_insert_iff, eq_comm]
  rfl

theorem crewOf_erase :
    crewOf leader (members.erase k) =
      ⟨(crewOf leader members).leader, (crewOf leader members).members \ {k}⟩ := by
  simp only [crewOf, Crew.mk.injEq, true_and]
  ext j
  rw [Set.mem_ofPred_eq, Dict.mem_erase, Set.mem_sdiff, and_comm, Ne, eq_comm]
  rfl

theorem crewOf_rename :
    crewOf (if leader = k then k' else leader) ((members.erase k).insertIfNew k' member) =
      ⟨if (crewOf leader members).leader = k then k' else (crewOf leader members).leader,
        insert k' ((crewOf leader members).members \ {k})⟩ := by
  rw [crewOf_insertIfNew, crewOf_erase]
  rfl

end Crew

/-- The sessions that a call is about. -/
def PartyCall.sessions : PartyCall → List ℕ
  | .createParty leader _ => [leader]
  | .inviteMember _ inviter invitee _ _ => [inviter, invitee]
  | .acceptInvite _ invitee _ => [invitee]
  | .rejectInvite _ invitee => [invitee]
  | .disbandParty _ requester => [requester]
  | .removeMember member => [member]
  | .replaceMemberSession old new => [old, new]
  | .expireInvites _ => []
  | .setEventSink _ => []
  | .setInviteTimeout _ => []

namespace PartyService

/-- What the service keeps of parties and members. -/
def roster (s : PartyService) : Roster ℕ ℕ :=
  ofDicts (fun party : PartyRecord => crewOf party.leaderSessionId party.members) s.parties
    s.memberIndex

/-- The roster is sound, ids of new parties are new, and members are filed under their sessions. -/
structure Sound (s : PartyService) : Prop where
  roster : s.roster.Sound
  below : s.parties.All fun partyId _ => partyId < s.nextPartyId
  named : s.parties.All fun _ party => party.members.All fun k member => member.sessionId = k

/-- A call goes well: a step of the roster with new members from `A`, to a sound service. -/
def Goes (A : Set ℕ) (s s' : PartyService) : Prop := Step A s.roster s'.roster ∧ s'.Sound

variable {s s' : PartyService} {A : Set ℕ}

theorem Goes.mem (h : Goes A s s') {k : ℕ} (hk : k ∈ s'.memberIndex) :
    k ∈ s.memberIndex ∨ k ∈ A := h.1.mem_index hk

theorem Sound.not_mem_next (h : s.Sound) : s.nextPartyId ∉ s.parties := by
  intro hm
  obtain ⟨party, hp⟩ := (Dict.mem_iff _ _).mp hm
  exact Nat.lt_irrefl _ (h.below _ party hp)

theorem Sound.goes (h : s.Sound) (hstep : Step A s.roster s'.roster)
    (hbelow : s'.parties.All fun partyId _ => partyId < s'.nextPartyId)
    (hnamed : s'.parties.All fun _ party =>
      party.members.All fun k member => member.sessionId = k) : Goes A s s' :=
  ⟨hstep, h.roster.step hstep, hbelow, hnamed⟩

/-- Calls that are about invites and settings leave the roster alone. -/
theorem Sound.same (h : s.Sound) (hparties : s'.parties = s.parties)
    (hindex : s'.memberIndex = s.memberIndex) (hnext : s'.nextPartyId = s.nextPartyId) :
    Goes A s s' := by
  have hroster : s'.roster = s.roster := by
    unfold PartyService.roster
    rw [hparties, hindex]
  refine h.goes ?_ ?_ ?_
  · rw [hroster]
    exact .stay
  · rw [hparties, hnext]
    exact h.below
  · rw [hparties]
    exact h.named

theorem createParty_goes (h : s.Sound) {leader : ℕ} (hA : leader ∈ A) (user : Str) :
    Goes A s (s.createParty leader user).2.2 := by
  unfold createParty
  split_ifs with hk
  · exact h.same rfl rfl rfl
  · refine h.goes (h.roster.found h.not_mem_next hk hA (crewOf_single _ _)) ?_ ?_
    · exact (h.below.imp fun _ _ hlt => Nat.lt_succ_of_lt hlt).insertIfNew (Nat.lt_succ_self _)
    · exact h.named.insertIfNew (Dict.all_empty.insert rfl)

theorem disband_goes (h : s.Sound) {partyId : ℕ} {party : PartyRecord}
    (hp : s.parties[partyId]? = some party) (actor : ℕ) :
    Goes A s (s.disband partyId party actor).2 := by
  unfold disband
  refine h.goes (h.roster.dissolve hp ?_) (h.below.erase _) (h.named.erase _)
  intro k
  exact Std.ExtTreeMap.mem_keys

/-- A member's party is there, and has the member. -/
theorem Sound.party_of_index (h : s.Sound) {k partyId : ℕ} (hk : s.memberIndex[k]? = some partyId) :
    ∃ party member, s.parties[partyId]? = some party ∧ party.members[k]? = some member := by
  obtain ⟨party, hp, hm⟩ := h.roster.record_of_index hk
  obtain ⟨member, hmember⟩ := (Dict.mem_iff _ _).mp hm
  exact ⟨party, member, hp, hmember⟩

theorem removeMember_goes (h : s.Sound) (k : ℕ) :
    Goes A s (s.removeMember k).2.2 ∧ (s.removeMember k).2.2.memberIndex[k]? = none := by
  unfold removeMember
  split
  · rename_i hk
    exact ⟨h.same rfl rfl rfl, hk⟩
  · rename_i partyId hk
    obtain ⟨party, member, hp, hm⟩ := h.party_of_index hk
    rw [hp]
    simp only []
    split_ifs with hl
    · refine ⟨disband_goes h hp k, ?_⟩
      show (s.memberIndex.eraseAll party.members.keys)[k]? = none
      rw [Dict.get?_eraseAll, if_pos (Std.ExtTreeMap.mem_keys.mpr ((h.roster.mem_view hp).mpr hk))]
    · refine ⟨h.goes (h.roster.leave hp hk hl (crewOf_erase _ _ _)) ?_ ?_,
        Dict.get?_erase_self _ _⟩
      · exact h.below.insert (h.below _ _ hp)
      · exact h.named.insert ((h.named _ _ hp).erase k)

theorem acceptInvite_goes (h : s.Sound) {k : ℕ} (hA : k ∈ A) (partyId : ℕ) (now : Time) :
    Goes A s (s.acceptInvite partyId k now).2.2 := by
  unfold acceptInvite
  split
  · exact h.same rfl rfl rfl
  · rename_i party hp
    split
    · exact h.same rfl rfl rfl
    · split
      · exact h.same rfl rfl rfl
      · rename_i entry he
        simp only []
        split_ifs with hlate hk
        · exact h.same rfl rfl rfl
        · exact h.same rfl rfl rfl
        · refine h.goes (h.roster.join hp hk hA (crewOf_insertIfNew _ _ _ _)) ?_ ?_
          · exact h.below.insert (h.below _ _ hp)
          · exact h.named.insert ((h.named _ _ hp).insertIfNew rfl)

theorem replaceMemberSession_goes (h : s.Sound) {new : ℕ} (hA : new ∈ A) (old : ℕ) :
    Goes A s (s.replaceMemberSession old new).2 := by
  unfold replaceMemberSession
  by_cases hne : old = new
  · rw [if_pos hne]
    exact h.same rfl rfl rfl
  rw [if_neg hne]
  split
  · exact h.same rfl rfl rfl
  rename_i partyId ho
  by_cases hn : new ∈ s.memberIndex
  · rw [if_pos hn]
    exact h.same rfl rfl rfl
  rw [if_neg hn]
  obtain ⟨party, member, hp, hm⟩ := h.party_of_index ho
  rw [hp]
  simp only [hm]
  refine h.goes (h.roster.rename hp ho hn hA (crewOf_rename _ _ _ _ _)) ?_ ?_
  · exact h.below.insert (h.below _ _ hp)
  · exact h.named.insert (((h.named _ _ hp).erase old).insertIfNew rfl)

/-- A member whose place another session takes has none any more, unless the other one had one. -/
theorem replaceMemberSession_index (h : s.Sound) {old new : ℕ} (hne : old ≠ new)
    (hfree : old ∉ s.memberIndex ∨ new ∉ s.memberIndex) :
    (s.replaceMemberSession old new).2.memberIndex[old]? = none := by
  unfold replaceMemberSession
  rw [if_neg hne]
  split
  · assumption
  · rename_i partyId ho
    have hn : new ∉ s.memberIndex :=
      hfree.resolve_left fun hno => hno ((Dict.mem_iff _ _).mpr ⟨partyId, ho⟩)
    obtain ⟨party, member, hp, hm⟩ := h.party_of_index ho
    rw [if_neg hn, hp]
    simp only [hm]
    rw [Dict.get?_insert_of_ne _ _ hne.symm, Dict.get?_erase_self]

theorem expireInvites_roster (s : PartyService) (now : Time) :
    (s.expireInvites now).2.2.parties = s.parties ∧
      (s.expireInvites now).2.2.memberIndex = s.memberIndex ∧
      (s.expireInvites now).2.2.nextPartyId = s.nextPartyId := by
  unfold expireInvites
  refine List.foldlRecOn (motive := fun p : ℕ × Events × PartyService =>
    p.2.2.parties = s.parties ∧ p.2.2.memberIndex = s.memberIndex ∧
      p.2.2.nextPartyId = s.nextPartyId) _ _ ⟨rfl, rfl, rfl⟩ ?_
  rintro ⟨count, events, s'⟩ h ⟨partyId, party⟩ -
  simp only []
  split
  · exact h
  · exact h

theorem call_goes (h : s.Sound) (call : PartyCall) :
    Goes {k | k ∈ call.sessions} s (s.call call) := by
  cases call with
  | createParty leader user => exact createParty_goes h (by simp [PartyCall.sessions]) user
  | inviteMember party inviter invitee user now =>
    show Goes _ s (s.inviteMember party inviter invitee user now).2.2
    unfold inviteMember
    split
    · exact h.same rfl rfl rfl
    · simp only []
      split_ifs <;> exact h.same rfl rfl rfl
  | acceptInvite party invitee now =>
    exact acceptInvite_goes h (by simp [PartyCall.sessions]) party now
  | rejectInvite party invitee =>
    show Goes _ s (s.rejectInvite party invitee).2.2
    unfold rejectInvite
    split
    · exact h.same rfl rfl rfl
    · split
      · exact h.same rfl rfl rfl
      · split_ifs <;> exact h.same rfl rfl rfl
  | disbandParty party requester =>
    show Goes _ s (s.disbandParty party requester).2.2
    unfold disbandParty
    split
    · exact h.same rfl rfl rfl
    · rename_i record hp
      split_ifs
      · exact h.same rfl rfl rfl
      · exact disband_goes h hp requester
  | removeMember member => exact (removeMember_goes h member).1
  | replaceMemberSession old new =>
    exact replaceMemberSession_goes h (by simp [PartyCall.sessions]) old
  | expireInvites now =>
    obtain ⟨hparties, hindex, hnext⟩ := s.expireInvites_roster now
    exact h.same hparties hindex hnext
  | setEventSink sink => exact h.same rfl rfl rfl
  | setInviteTimeout timeout => exact h.same rfl rfl rfl

end PartyService

/-- The sessions that a call is about. -/
def GuildCall.sessions : GuildCall → List ℕ
  | .createGuild leader _ _ => [leader]
  | .joinGuild _ member _ => [member]
  | .leaveGuild _ member => [member]
  | .removeMember member => [member]
  | .replaceMemberSession old new => [old, new]

namespace GuildService

/-- What the service keeps of guilds and members. -/
def roster (s : GuildService) : Roster ℕ ℕ :=
  ofDicts (fun guild : GuildRecord => crewOf guild.leaderSessionId guild.members) s.guilds
    s.memberIndex

/-- The roster is sound, ids of new guilds are new, and members are filed under their sessions. -/
structure Sound (s : GuildService) : Prop where
  roster : s.roster.Sound
  below : s.guilds.All fun guildId _ => guildId < s.nextGuildId
  named : s.guilds.All fun _ guild => guild.members.All fun k member => member.sessionId = k

/-- A call goes well: a step of the roster with new members from `A`, to a sound service. -/
def Goes (A : Set ℕ) (s s' : GuildService) : Prop := Step A s.roster s'.roster ∧ s'.Sound

variable {s s' : GuildService} {A : Set ℕ}

theorem Goes.mem (h : Goes A s s') {k : ℕ} (hk : k ∈ s'.memberIndex) :
    k ∈ s.memberIndex ∨ k ∈ A := h.1.mem_index hk

theorem Sound.not_mem_next (h : s.Sound) : s.nextGuildId ∉ s.guilds := by
  intro hm
  obtain ⟨guild, hg⟩ := (Dict.mem_iff _ _).mp hm
  exact Nat.lt_irrefl _ (h.below _ guild hg)

theorem Sound.stays (h : s.Sound) : Goes A s s := ⟨.stay, h⟩

theorem Sound.goes (h : s.Sound) (hstep : Step A s.roster s'.roster)
    (hbelow : s'.guilds.All fun guildId _ => guildId < s'.nextGuildId)
    (hnamed : s'.guilds.All fun _ guild =>
      guild.members.All fun k member => member.sessionId = k) : Goes A s s' :=
  ⟨hstep, h.roster.step hstep, hbelow, hnamed⟩

theorem createGuild_goes (h : s.Sound) {leader : ℕ} (hA : leader ∈ A) (user name : Str) :
    Goes A s (s.createGuild leader user name).2.2 := by
  unfold createGuild
  split_ifs with hk
  · exact h.stays
  · rw [not_or] at hk
    refine h.goes (h.roster.found h.not_mem_next hk.1 hA (crewOf_single _ _)) ?_ ?_
    · exact (h.below.imp fun _ _ hlt => Nat.lt_succ_of_lt hlt).insertIfNew (Nat.lt_succ_self _)
    · exact h.named.insertIfNew (Dict.all_empty.insert rfl)

theorem joinGuild_goes (h : s.Sound) {k : ℕ} (hA : k ∈ A) (guildId : ℕ) (user : Str) :
    Goes A s (s.joinGuild guildId k user).2.2 := by
  unfold joinGuild
  split
  · exact h.stays
  · rename_i guild hg
    split_ifs with hk
    · exact h.stays
    · refine h.goes (h.roster.join hg hk hA (crewOf_insertIfNew _ _ _ _)) ?_ ?_
      · exact h.below.insert (h.below _ _ hg)
      · exact h.named.insert ((h.named _ _ hg).insertIfNew rfl)

theorem disband_goes (h : s.Sound) {guildId : ℕ} {guild : GuildRecord}
    (hg : s.guilds[guildId]? = some guild) (user : Str) :
    Goes A s (s.disband guildId guild user).2 := by
  unfold disband
  refine h.goes (h.roster.dissolve hg ?_) (h.below.erase _) (h.named.erase _)
  intro k
  exact Std.ExtTreeMap.mem_keys

theorem dropMember_goes (h : s.Sound) {guildId k : ℕ} {guild : GuildRecord}
    (hg : s.guilds[guildId]? = some guild) (hk : s.memberIndex[k]? = some guildId)
    (hl : guild.leaderSessionId ≠ k) (user : Str) :
    Goes A s (s.dropMember guildId guild k user).2.2 := by
  unfold dropMember
  refine h.goes (h.roster.leave hg hk hl (crewOf_erase _ _ _)) ?_ ?_
  · exact h.below.insert (h.below _ _ hg)
  · exact h.named.insert ((h.named _ _ hg).erase k)

theorem leaveGuild_goes (h : s.Sound) (guildId k : ℕ) :
    Goes A s (s.leaveGuild guildId k).2.2 := by
  unfold leaveGuild
  split
  · exact h.stays
  · rename_i guild hg
    split
    · exact h.stays
    · rename_i member hm
      have hk := (h.roster.mem_view hg).mp ((Dict.mem_iff _ _).mpr ⟨member, hm⟩)
      split_ifs with hl
      · exact disband_goes h hg member.userId
      · exact dropMember_goes h hg hk hl member.userId

/-- A member's guild is there, and has the member. -/
theorem Sound.guild_of_index (h : s.Sound) {k guildId : ℕ} (hk : s.memberIndex[k]? = some guildId) :
    ∃ guild member, s.guilds[guildId]? = some guild ∧ guild.members[k]? = some member := by
  obtain ⟨guild, hg, hm⟩ := h.roster.record_of_index hk
  obtain ⟨member, hmember⟩ := (Dict.mem_iff _ _).mp hm
  exact ⟨guild, member, hg, hmember⟩

theorem removeMember_goes (h : s.Sound) (k : ℕ) :
    Goes A s (s.removeMember k).2.2 ∧ (s.removeMember k).2.2.memberIndex[k]? = none := by
  unfold removeMember
  split
  · rename_i hk
    exact ⟨h.stays, hk⟩
  · rename_i guildId hk
    obtain ⟨guild, member, hg, hm⟩ := h.guild_of_index hk
    rw [hg]
    simp only [hm]
    split_ifs with hl
    · refine ⟨disband_goes h hg _, ?_⟩
      show (s.memberIndex.eraseAll guild.members.keys)[k]? = none
      rw [Dict.get?_eraseAll, if_pos (Std.ExtTreeMap.mem_keys.mpr ((h.roster.mem_view hg).mpr hk))]
    · exact ⟨dropMember_goes h hg hk hl _, Dict.get?_erase_self _ _⟩

theorem replaceMemberSession_goes (h : s.Sound) {new : ℕ} (hA : new ∈ A) (old : ℕ) :
    Goes A s (s.replaceMemberSession old new).2 := by
  unfold replaceMemberSession
  by_cases hne : old = new
  · rw [if_pos hne]
    exact h.stays
  rw [if_neg hne]
  split
  · exact h.stays
  rename_i guildId ho
  by_cases hn : new ∈ s.memberIndex
  · rw [if_pos hn]
    exact h.stays
  rw [if_neg hn]
  obtain ⟨guild, member, hg, hm⟩ := h.guild_of_index ho
  rw [hg]
  simp only [hm]
  refine h.goes (h.roster.rename hg ho hn hA (crewOf_rename _ _ _ _ _)) ?_ ?_
  · exact h.below.insert (h.below _ _ hg)
  · exact h.named.insert (((h.named _ _ hg).erase old).insertIfNew rfl)

theorem replaceMemberSession_index (h : s.Sound) {old new : ℕ} (hne : old ≠ new)
    (hfree : old ∉ s.memberIndex ∨ new ∉ s.memberIndex) :
    (s.replaceMemberSession old new).2.memberIndex[old]? = none := by
  unfold replaceMemberSession
  rw [if_neg hne]
  split
  · assumption
  · rename_i guildId ho
    have hn : new ∉ s.memberIndex :=
      hfree.resolve_left fun hno => hno ((Dict.mem_iff _ _).mpr ⟨guildId, ho⟩)
    obtain ⟨guild, member, hg, hm⟩ := h.guild_of_index ho
    rw [if_neg hn, hg]
    simp only [hm]
    rw [Dict.get?_insert_of_ne _ _ hne.symm, Dict.get?_erase_self]

theorem call_goes (h : s.Sound) (call : GuildCall) :
    Goes {k | k ∈ call.sessions} s (s.call call) := by
  cases call with
  | createGuild leader user name =>
    exact createGuild_goes h (by simp [GuildCall.sessions]) user name
  | joinGuild guild member user =>
    exact joinGuild_goes h (by simp [GuildCall.sessions]) guild user
  | leaveGuild guild member => exact leaveGuild_goes h guild member
  | removeMember member => exact (removeMember_goes h member).1
  | replaceMemberSession old new =>
    exact replaceMemberSession_goes h (by simp [GuildCall.sessions]) old

end GuildService

end DungeonHub
