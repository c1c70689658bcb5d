import DungeonHub.Lib.Mail
import DungeonHub.Lib.Run
import DungeonHub.Proofs.Members

/-!
# The maps of the guild service, and what its members are told

Guilds and index agree in every state that the service's calls lead to, so the lookups that guard
against a missing guild or member never fail. Each call that changes a guild tells all who are in it
afterwards, so that the last event of a member lists the members there are.
-/

namespace DungeonHub

namespace GuildService

open Run Mail

section Maps

/-- What the maps of the service say of each other. -/
structure Agrees (s : GuildService) : Prop where
  index_iff : ∀ k guildId, s.memberIndex[k]? = some guildId ↔
    ∃ guild : GuildRecord, s.guilds[guildId]? = some guild ∧ k ∈ guild.members
  keyed : s.guilds.All fun guildId guild => guild.id = guildId ∧ guildId < s.nextGuildId
  recorded : s.guilds.All fun _ guild => guild.members.All fun k member => member.sessionId = k
  led : s.guilds.All fun _ guild => guild.leaderSessionId ∈ guild.members
  named : s.guilds.All fun _ guild => guild.name ≠ []

/-- Guilds are filed under their ids, and have names. -/
structure Filed (s : GuildService) : Prop where
  keyed : s.guilds.All fun guildId guild => guild.id = guildId
  named : s.guilds.All fun _ guild => guild.name ≠ []

variable {s s' : GuildService}

theorem Sound.agrees (h : s.Sound) (hf : s.Filed) : s.Agrees where
  index_iff k guildId := by
    constructor
    · intro hk
      obtain ⟨guild, hg, hm⟩ := h.roster.record_of_index hk
      exact ⟨guild, hg, hm⟩
    · rintro ⟨guild, hg, hm⟩
      exact (h.roster.mem_view hg).mp hm
  keyed guildId guild hg := ⟨hf.keyed guildId guild hg, h.below guildId guild hg⟩
  recorded := h.named
  led _ _ hg := h.roster.leader_view hg
  named := hf.named

/-- A guild changes under its own id and name. -/
theorem Filed.put (h : s.Filed) {guildId : ℕ} {guild guild' : GuildRecord}
    (hg : s.guilds[guildId]? = some guild) (hid : guild'.id = guild.id)
    (hname : guild'.name = guild.name) (hguilds : s'.guilds = s.guilds.insert guildId guild') :
    s'.Filed := by
  refine ⟨?_, ?_⟩
  · rw [hguilds]
    exact h.keyed.insert (hid.trans (h.keyed _ _ hg))
  · rw [hguilds]
    refine h.named.insert ?_
    rw [hname]
    exact h.named _ _ hg

theorem disband_filed (h : s.Filed) (guildId : ℕ) (guild : GuildRecord) (user : Str) :
    (s.disband guildId guild user).2.Filed := ⟨h.keyed.erase guildId, h.named.erase guildId⟩

theorem createGuild_filed (h : s.Filed) (leader : ℕ) (user name : Str) :
    (s.createGuild leader user name).2.2.Filed := by
  unfold createGuild
  split_ifs with hk
  · exact h
  · rw [not_or] at hk
    exact ⟨h.keyed.insertIfNew rfl, h.named.insertIfNew hk.2⟩

theorem joinGuild_filed (h : s.Filed) (guildId member : ℕ) (user : Str) :
    (s.joinGuild guildId member user).2.2.Filed := by
  unfold joinGuild
  split
  · exact h
  · rename_i guild hg
    split_ifs
    · exact h
    · refine h.put hg ?_ ?_ rfl
      · rfl
      · rfl

theorem dropMember_filed (h : s.Filed) {guildId : ℕ} {guild : GuildRecord}
    (hg : s.guilds[guildId]? = some guild) (member : ℕ) (user : Str) :
    (s.dropMember guildId guild member user).2.2.Filed := by
  refine h.put hg ?_ ?_ rfl
  · rfl
  · rfl

theorem leaveGuild_filed (h : s.Filed) (guildId member : ℕ) :
    (s.leaveGuild guildId member).2.2.Filed := by
  unfold leaveGuild
  split
  · exact h
  · rename_i guild hg
    split
    · exact h
    · rename_i member' hm
      split_ifs
      · exact disband_filed h _ _ _
      · exact dropMember_filed h hg member member'.userId

theorem removeMember_filed (h : s.Filed) (member : ℕ) : (s.removeMember member).2.2.Filed := by
  unfold removeMember
  split
  · exact h
  · split
    · exact ⟨h.keyed, h.named⟩
    · rename_i guild hg
      split
      · exact ⟨h.keyed, h.named⟩
      · rename_i member' hm
        split_ifs
        · exact disband_filed h _ _ _
        · exact dropMember_filed h hg member member'.userId

theorem replaceMemberSession_filed (h : s.Filed) (old new : ℕ) :
    (s.replaceMemberSession old new).2.Filed := by
  unfold replaceMemberSession
  by_cases hne : old = new
  · rw [if_pos hne]
    exact h
  rw [if_neg hne]
  split
  · exact h
  by_cases hn : new ∈ s.memberIndex
  · rw [if_pos hn]
    exact h
  rw [if_neg hn]
  split
  · exact h
  · rename_i guild hg
    split
    · exact h
    · refine h.put hg ?_ ?_ rfl
      · rfl
      · rfl

theorem call_filed (h : s.Filed) (call : GuildCall) : (s.call call).Filed := by
  cases call with
  | createGuild leader user name => exact createGuild_filed h leader user name
  | joinGuild guildId member user => exact joinGuild_filed h guildId member user
  | leaveGuild guildId member => exact leaveGuild_filed h guildId member
  | removeMember member => exact removeMember_filed h member
  | replaceMemberSession old new => exact replaceMemberSession_filed h old new

theorem sound_new (sink : Bool) : ({ eventSink := sink } : GuildService).Sound :=
  ⟨Roster.sound_empty _, Dict.all_empty, Dict.all_empty⟩

theorem filed_new (sink : Bool) : ({ eventSink := sink } : GuildService).Filed :=
  ⟨Dict.all_empty, Dict.all_empty⟩

/-- After any calls the maps agree, and whoever the index knows has a guild and a record in it. -/
theorem guilds_agree (sink : Bool) (calls : List GuildCall) :
    (after GuildService.call { eventSink := sink } calls).Agrees ∧
      ∀ k guildId : ℕ,
        (after GuildService.call { eventSink := sink } calls).memberIndex[k]? = some guildId →
        ∃ (guild : GuildRecord) (member : GuildMember),
          (after GuildService.call { eventSink := sink } calls).guilds[guildId]? = some guild ∧
          guild.members[k]? = some member := by
  have h : (after GuildService.call { eventSink := sink } calls).Sound ∧
      (after GuildService.call { eventSink := sink } calls).Filed :=
    stable (I := fun s : GuildService => s.Sound ∧ s.Filed)
      (fun s call hs => ⟨(call_goes hs.1 call).2, call_filed hs.2 call⟩) calls
      ⟨sound_new sink, filed_new sink⟩
  exact ⟨h.1.agrees h.2, fun k guildId hk => h.1.guild_of_index hk⟩

end Maps

section Events

/-- The events that a call delivers. -/
def emits (s : GuildService) : GuildCall → Events
  | .createGuild leader user name => (s.createGuild leader user name).2.1
  | .joinGuild guildId member user => (s.joinGuild guildId member user).2.1
  | .leaveGuild guildId member => (s.leaveGuild guildId member).2.1
  | .removeMember member => (s.removeMember member).2.1
  | .replaceMemberSession _ _ => []

/-- The events that the calls of a run deliver, in order. -/
def delivered (s : GuildService) (calls : List GuildCall) : Events :=
  (trail GuildService.call s calls).flatMap fun x => x.1.emits x.2

/-- A call that comes with events if it changes anything. -/
def Announced : GuildCall → Prop
  | .replaceMemberSession _ _ => False
  | _ => True

/-- The event tells who is in the guild. -/
structure Shows (event : Event) (guildId : ℕ) (guild : GuildRecord) : Prop where
  about : event.guildId = guildId
  alive : event.type ≠ .disbanded
  listed : event.memberUserIds.Perm (userIds guild)

/-- What a call does to the guilds, and whom it tells. -/
inductive Tells (s s' : GuildService) (events : Events) : Prop where
  | same (hguilds : s'.guilds = s.guilds) (hnone : events = [])
  | put (guildId : ℕ) (guild : GuildRecord) (event : Event) (rest : Events)
      (hguilds : s'.guilds = s.guilds.insert guildId guild)
      (hevents : events = guild.members.keys.map (fun k => (k, event)) ++ rest)
      (hshows : Shows event guildId guild) (hrest : ∀ m ∈ rest, m.1 ∉ s'.memberIndex)
  | gone (guildId : ℕ) (hguilds : s'.guilds = s.guilds.erase guildId)
      (hevents : ∀ m ∈ events, m.1 ∉ s'.memberIndex)

variable {s s' : GuildService}

theorem userIds_single (k : ℕ) (member : GuildMember) (guild : GuildRecord)
    (h : guild.members = (∅ : Dict _ _).insert k member) : userIds guild = [member.userId] := by
  have hperm := Dict.toList_insert_perm (∅ : Dict ℕ GuildMember) k member
  rw [Dict.toList_empty, List.filter_nil, List.perm_singleton] at hperm
  unfold userIds Dict.elems
  rw [h, hperm]
  rfl

theorem emitToGuild_eq (hsink : s.eventSink = true) (guild : GuildRecord) (event : Event) :
    s.emitToGuild guild event = guild.members.keys.map fun k => (k, event) := by
  unfold emitToGuild
  rw [if_pos hsink]

theorem createGuild_tells (h : s.Sound) (hsink : s.eventSink = true) (leader : ℕ)
    (user name : Str) :
    Tells s (s.createGuild leader user name).2.2 (s.createGuild leader user name).2.1 := by
  unfold createGuild
  split_ifs with hk
  · exact .same rfl rfl
  · refine .put _ _ _ [] (Dict.insertIfNew_of_not_mem _ _ h.not_mem_next)
      ((emitToGuild_eq hsink _ _).trans (List.append_nil _).symm) ⟨rfl, ?_, ?_⟩ ?_
    · show GuildEventType.created ≠ .disbanded
      decide
    · rw [userIds_single leader ⟨leader, user⟩ _ rfl]
    · simp

theorem joinGuild_tells (hsink : s.eventSink = true) (guildId member : ℕ) (user : Str) :
    Tells s (s.joinGuild guildId member user).2.2 (s.joinGuild guildId member user).2.1 := by
  unfold joinGuild
  split
  · exact .same rfl rfl
  · split_ifs
    · exact .same rfl rfl
    · refine .put _ _ _ [] rfl ((emitToGuild_eq hsink _ _).trans (List.append_nil _).symm)
        ⟨rfl, ?_, .refl _⟩ ?_
      · show GuildEventType.joined ≠ .disbanded
        decide
      · simp

/-- Only those who were in the guild are told of its end. -/
theorem disband_tells (guildId : ℕ) (guild : GuildRecord) (user : Str) :
    Tells s (s.disband guildId guild user).2 (s.disband guildId guild user).1 := by
  refine .gone guildId rfl ?_
  unfold disband emitToGuild
  split_ifs
  · intro m hm
    obtain ⟨k, hk, rfl⟩ := List.mem_map.mp hm
    rw [Dict.not_mem_iff, Dict.get?_eraseAll, if_pos hk]
  · simp

/-- Those who stay are told of one who goes, and perhaps that one too. -/
theorem dropMember_tells (hsink : s.eventSink = true) (guildId k : ℕ) (guild : GuildRecord)
    (user : Str) {rest : Events} (hrest : ∀ m ∈ rest, m.1 = k) :
    Tells s (s.dropMember guildId guild k user).2.2
      ((s.dropMember guildId guild k user).2.1 ++ rest) := by
  unfold dropMember
  refine .put guildId { guild with members := guild.members.erase k } _ rest rfl
    (congrArg (· ++ rest) (emitToGuild_eq hsink _ _)) ⟨rfl, ?_, .refl _⟩ ?_
  · show GuildEventType.left ≠ .disbanded
    decide
  · intro m hm
    rw [hrest m hm]
    simp

theorem leaveGuild_tells (hsink : s.eventSink = true) (guildId k : ℕ) :
    Tells s (s.leaveGuild guildId k).2.2 (s.leaveGuild guildId k).2.1 := by
  unfold leaveGuild
  split
  · exact .same rfl rfl
  · rename_i guild hg
    split
    · exact .same rfl rfl
    · rename_i member hm
      split_ifs
      · exact disband_tells _ _ _
      · refine dropMember_tells hsink guildId k guild member.userId ?_
        unfold emitToMember
        rw [if_pos hsink]
        simp

theorem removeMember_tells (hsink : s.eventSink = true) (k : ℕ) :
    Tells s (s.removeMember k).2.2 (s.removeMember k).2.1 := by
  unfold removeMember
  split
  · exact .same rfl rfl
  · rename_i guildId hk
    split
    · exact .same rfl rfl
    · rename_i guild hg
      split
      · exact .same rfl rfl
      · rename_i member hm
        split_ifs
        · exact disband_tells _ _ _
        · have h := dropMember_tells hsink guildId k guild member.userId (List.forall_mem_nil _)
          rwa [List.append_nil] at h

theorem call_tells (h : s.Sound) (hsink : s.eventSink = true) {call : GuildCall}
    (hcall : Announced call) : Tells s (s.call call) (s.emits call) := by
  cases call with
  | createGuild leader user name => exact createGuild_tells h hsink leader user name
  | joinGuild guildId member user => exact joinGuild_tells hsink guildId member user
  | leaveGuild guildId member => exact leaveGuild_tells hsink guildId member
  | removeMember member => exact removeMember_tells hsink member
  | replaceMemberSession old new => exact hcall.elim

theorem call_eventSink (s : GuildService) (call : GuildCall) :
    (s.call call).eventSink = s.eventSink := by
  cases call with
  | createGuild leader user name =>
    show (s.createGuild leader user name).2.2.eventSink = s.eventSink
    unfold createGuild
    split_ifs <;> rfl
  | joinGuild guildId member user =>
    show (s.joinGuild guildId member user).2.2.eventSink = s.eventSink
    unfold joinGuild
    split
    · rfl
    · split_ifs <;> rfl
  | leaveGuild guildId member =>
    show (s.leaveGuild guildId member).2.2.eventSink = s.eventSink
    unfold leaveGuild
    split
    · rfl
    · split
      · rfl
      · split_ifs <;> rfl
  | removeMember member =>
    show (s.removeMember member).2.2.eventSink = s.eventSink
    unfold removeMember
    split
    · rfl
    · split
      · rfl
      · split
        · rfl
        · split_ifs <;> rfl
  | replaceMemberSession old new =>
    show (s.replaceMemberSession old new).2.eventSink = s.eventSink
    unfold replaceMemberSession
    repeat' split
    all_goals rfl

/-- The last event of each member tells who is in the guild. -/
def Told (s : GuildService) (mail : Events) : Prop :=
  ∀ (guildId : ℕ) (guild : GuildRecord) (k : ℕ), s.guilds[guildId]? = some guild →
    k ∈ guild.members → ∃ event, lastTo k mail = some event ∧ Shows event guildId guild

theorem Told.step {mail events : Events} (h : Told s mail) (hs' : s'.Sound)
    (htells : Tells s s' events) : Told s' (mail ++ events) := by
  intro guildId guild k hg hk
  -- who is in a guild is in the index, so nothing was sent to `k` as one who left
  have hindex : s'.memberIndex[k]? = some guildId := (hs'.roster.mem_view hg).mp hk
  have hin : k ∈ s'.memberIndex := (Dict.mem_iff _ _).mpr ⟨guildId, hindex⟩
  cases htells with
  | same hguilds hnone =>
    rw [hguilds] at hg
    rw [hnone, List.append_nil]
    exact h guildId guild k hg hk
  | gone gone hguilds hevents =>
    rw [lastTo_append_of_forall_ne fun m hm he => hevents m hm (he ▸ hin)]
    rw [hguilds, Dict.get?_erase] at hg
    split_ifs at hg
    exact h guildId guild k hg hk
  | put changed guild' event rest hguilds hevents hshows hrest =>
    rw [hevents, ← List.append_assoc,
      lastTo_append_of_forall_ne fun m hm he => hrest m hm (he ▸ hin)]
    by_cases hid : changed = guildId
    · subst hid
      rw [hguilds, Dict.get?_insert_self, Option.some.injEq] at hg
      subst hg
      refine ⟨event, lastTo_append_map (Std.ExtTreeMap.mem_keys.mpr hk), hshows⟩
    · rw [lastTo_append_of_forall_ne ?_]
      · rw [hguilds, Dict.get?_insert_of_ne _ _ hid] at hg
        exact h guildId guild k hg hk
      · -- a member of the changed guild is in no other one
        intro m hm he
        obtain ⟨j, hj, rfl⟩ := List.mem_map.mp hm
        obtain rfl : j = k := he
        have hchanged : s'.guilds[changed]? = some guild' := by
          rw [hguilds, Dict.get?_insert_self]
        have hj' := (hs'.roster.mem_view hchanged).mp (Std.ExtTreeMap.mem_keys.mp hj)
        rw [hindex, Option.some.injEq] at hj'
        exact hid hj'.symm

/-- After any announced calls each member was last told who is in its guild. -/
theorem rosters_seen (calls : List GuildCall) (hcalls : ∀ call ∈ calls, Announced call)
    (guildId : ℕ) (guild : GuildRecord) (k : ℕ)
    (hg : (after GuildService.call { eventSink := true } calls).guilds[guildId]? = some guild)
    (hk : k ∈ guild.members) :
    ∃ event, lastTo k (delivered { eventSink := true } calls) = some event ∧
      event.guildId = guildId ∧ event.type ≠ .disbanded ∧
      event.memberUserIds.Perm (userIds guild) := by
  have h : (∀ x ∈ [] ++ trail GuildService.call { eventSink := true } calls, Announced x.2) →
      _ ∧ _ ∧ _ := history
    (I := fun s log => (∀ x ∈ log, Announced x.2) →
      s.Sound ∧ s.eventSink = true ∧ Told s (log.flatMap fun x => x.1.emits x.2))
    (fun s log call ih hlog => by
      obtain ⟨hsound, hsink, htold⟩ := ih fun x hx => hlog x (List.mem_append_left _ hx)
      have hcall : Announced call := hlog (s, call) (by simp)
      have hsound' := (call_goes hsound call).2
      refine ⟨hsound', (call_eventSink s call).trans hsink, ?_⟩
      rw [List.flatMap_append, List.flatMap_singleton]
      exact htold.step hsound' (call_tells hsound hsink hcall))
    calls { eventSink := true } []
    fun _ => ⟨sound_new true, rfl, fun guildId guild k hg => by simp at hg⟩
  obtain ⟨-, -, htold⟩ := h fun x hx => hcalls x.2 (mem_of_mem_trail (by simpa using hx))
  obtain ⟨event, hlast, hshows⟩ := htold guildId guild k hg hk
  exact ⟨event, hlast, hshows.about, hshows.alive, hshows.listed⟩

/-- The founder sees who joins. -/
theorem rosters_seen_join :
    ∃ event, lastTo 1 (delivered { eventSink := true }
        [.createGuild 1 (str "a") (str "g"), .joinGuild 1 2 (str "b")]) = some event ∧
      event.guildId = 1 ∧ event.type ≠ .disbanded ∧
      event.memberUserIds.Perm [str "a", str "b"] := by
  have hguild : ((after GuildService.call { eventSink := true }
      [.createGuild 1 (str "a") (str "g"), .joinGuild 1 2 (str "b")]).guilds[1]?.map
        fun guild => (userIds guild, decide (1 ∈ guild.members))) =
      some ([str "a", str "b"], true) := by decide +kernel
  obtain ⟨guild, hg, hguild⟩ := Option.map_eq_some_iff.mp hguild
  rw [Prod.mk.injEq, decide_eq_true_iff] at hguild
  rw [← hguild.1]
  exact rosters_seen _ (by simp [Announced]) 1 guild 1 hg hguild.2

end Events

end GuildService

end DungeonHub
