import DungeonHub.Proofs.Dangling
import DungeonHub.Proofs.Renaming

/-!
# Whose memberships they are

A session keeps its guild and its character when it is logged out or gets another user, since only
`removeSession` and a takeover look after them. In runs in which such a packet finds its session
without them, every member of a guild is logged in as the user it is a member as, and every
character is on record from its session's current login.
-/

namespace DungeonHub

open Run Wire

namespace GuildService

/-- Every member record is as the property says, by its session and user. -/
def MembersAre (P : ℕ → Str → Prop) (s : GuildService) : Prop :=
  s.guilds.All fun _ guild => guild.members.All fun k member => P k member.userId

variable {s : GuildService} {P Q : ℕ → Str → Prop}

theorem MembersAre.imp (h : MembersAre P s) (hs : s.Sound)
    (hPQ : ∀ k u, k ∈ s.memberIndex → P k u → Q k u) : MembersAre Q s := by
  intro guildId guild hg k member hm
  refine hPQ k member.userId ?_ (h guildId guild hg k member hm)
  have hk := (hs.roster.mem_view hg).mp ((Dict.mem_iff _ _).mpr ⟨member, hm⟩)
  exact (Dict.mem_iff _ _).mpr ⟨guildId, hk⟩

theorem disband_members (h : MembersAre P s) (guildId : ℕ) (guild : GuildRecord) (user : Str) :
    MembersAre P (s.disband guildId guild user).2 := h.erase guildId

theorem dropMember_members (h : MembersAre P s) {guildId : ℕ} {guild : GuildRecord}
    (hg : s.guilds[guildId]? = some guild) (k : ℕ) (user : Str) :
    MembersAre P (s.dropMember guildId guild k user).2.2 :=
  h.insert ((h guildId guild hg).erase k)

theorem removeMember_members (h : MembersAre P s) (k : ℕ) :
    MembersAre P (s.removeMember k).2.2 := by
  unfold removeMember
  split
  · exact h
  · split
    · exact h
    · rename_i guild hg
      split
      · exact h
      · split_ifs
        · exact disband_members h _ _ _
        · exact dropMember_members h hg _ _

theorem leaveGuild_members (h : MembersAre P s) (guildId k : ℕ) :
    MembersAre P (s.leaveGuild guildId k).2.2 := by
  unfold leaveGuild
  split
  · exact h
  · rename_i guild hg
    split
    · exact h
    · rename_i member hm
      split_ifs
      · exact disband_members h _ _ _
      · exact dropMember_members h hg k member.userId

/-- A session becomes a member as the user it makes the call as. -/
theorem call_members (h : MembersAre P s) {id : ℕ} {userId : Str} {call : GuildCall}
    (hcall : Server.GuildCallAs id userId call) (hP : P id userId) :
    MembersAre P (s.call call) := by
  cases call with
  | createGuild leader user name =>
    obtain ⟨rfl, rfl⟩ := hcall
    show MembersAre P (s.createGuild leader user name).2.2
    unfold createGuild
    split_ifs
    · exact h
    · exact h.insertIfNew (Dict.all_empty.insert hP)
  | joinGuild guildId member user =>
    obtain ⟨rfl, rfl⟩ := hcall
    show MembersAre P (s.joinGuild guildId member user).2.2
    unfold joinGuild
    split
    · exact h
    · rename_i guild hg
      split_ifs
      · exact h
      · exact h.insert ((h guildId guild hg).insertIfNew hP)
  | leaveGuild guildId member => exact leaveGuild_members h guildId member
  | removeMember member => exact removeMember_members h member
  | replaceMemberSession old new => exact hcall.elim

theorem replaceMemberSession_members (h : MembersAre P s) {old new : ℕ}
    (hP : ∀ u, P old u → P new u) : MembersAre P (s.replaceMemberSession old new).2 := by
  unfold replaceMemberSession
  by_cases hne : old = new
  · rw [if_pos hne]
    exact h
  rw [if_neg hne]
  split
  · exact h
  by_cases hn : new ∈ s.memberIndex
  · rw [if_pos hn]
    exact h
  rw [if_neg hn]
  split
  · exact h
  · rename_i guild hg
    split
    · exact h
    · rename_i member hm
      have hmember := hP _ (h _ guild hg old member hm)
      exact h.insert (((h _ guild hg).erase old).insertIfNew hmember)

end GuildService

/-- The logins of a server's sessions, numbered: which one each session is in, and in which one its
character was put on record. -/
structure Logins where
  current : Dict ℕ ℕ := ∅
  made : Dict ℕ ℕ := ∅
  next : ℕ := 0

namespace Logins

/-- The session begins a login. -/
def begins (l : Logins) (id : ℕ) : Logins :=
  { l with current := l.current.insert id l.next, next := l.next + 1 }

/-- The session's login is over. -/
def ends (l : Logins) (id : ℕ) : Logins := { l with current := l.current.erase id }

/-- One session carries on the login of another, with its character. -/
def carries (l : Logins) (source target : ℕ) : Logins :=
  { l with
    current := Server.moveKey l.current source target
    made := Server.moveKey l.made source target }

/-- The session's character is put on record. -/
def enters (l : Logins) (id : ℕ) : Logins :=
  match l.current[id]? with
  | none => l
  | some n => { l with made := l.made.insert id n }

/-- A reconnect carries on the login of the session that holds the user, be it the session itself,
and begins one if no session does. -/
def resumes (l : Logins) (r : SessionRegistry) (id : ℕ) (userId : Str) : Logins :=
  match r.hasUser userId with
  | none => l.begins id
  | some holder => if holder = id then l else l.carries holder id

/-- The logins after a packet on a session, by the answer to it; `r` is the registry the packet
finds, and `user` whom its session has then. -/
def answered (l : Logins) (r : SessionRegistry) (id : ℕ) (user : Option UserContext) :
    Option Answer → Logins
  | some ⟨.loginRes, response⟩ => if LoginResponse.accepted response then l.begins id else l
  | some ⟨.logoutRes, response⟩ => if LogoutResponse.success response then l.ends id else l
  | some ⟨.sessionReconnectRes, response⟩ =>
    match user with
    | none => l
    | some context =>
      if SessionReconnectResponse.success response then l.resumes r id context.userId else l
  | some ⟨.dungeonEnterRes, response⟩ =>
    if DungeonEnterResponse.success response then l.enters id else l
  | _ => l

/-- The logins after an event. -/
def step {σ : Type} [InventoryStorage σ] (l : Logins) (s : Server σ) : ServerEvent → Logins
  | .packet id header payload now =>
    l.answered s.registry id ((s.handlePacket id header payload now).2.userContext id)
      (s.answerPacket id header payload now).1
  | _ => l

end Logins

namespace Server

variable {σ : Type}

section Identity

/-- The session is known and logged in as the user. -/
def LoggedInAs (s : Server σ) (k : ℕ) (userId : Str) : Prop :=
  k ∈ s.sessions ∧ ∃ context, s.userContext k = some context ∧ context.userId = userId

/-- Every member of a guild is logged in as the user it is a member as, and every character was put
on record in its session's current login. -/
structure Identified (l : Logins) (s : Server σ) : Prop where
  members : s.guildService.MembersAre s.LoggedInAs
  characters : ∀ k ∈ s.sessionCharacters, (∃ userId, s.LoggedInAs k userId) ∧
    ∃ n, l.current[k]? = some n ∧ l.made[k]? = some n

/-- What the runs keep up with it. -/
structure Settled (l : Logins) (s : Server σ) : Prop extends Identified l s where
  consistent : Consistent s
  guild : s.guildService.Sound
  logged : ∀ k userId, s.LoggedInAs k userId → k ∈ l.current

variable {l l' : Logins} {s s' : Server σ}

/-- Sessions and users stay, and so do guilds, characters and logins. -/
theorem Settled.congr (h : Settled l s) (hconsistent : Consistent s')
    (hlogged : ∀ k userId, s'.LoggedInAs k userId ↔ s.LoggedInAs k userId)
    (hguild : s'.guildService = s.guildService)
    (hcharacters : s'.sessionCharacters = s.sessionCharacters) : Settled l s' where
  members := by
    rw [hguild]
    exact h.members.imp h.guild fun k u _ hk => (hlogged k u).mpr hk
  characters k hk := by
    rw [hcharacters] at hk
    obtain ⟨⟨userId, huser⟩, hmade⟩ := h.characters k hk
    exact ⟨⟨userId, (hlogged k userId).mpr huser⟩, hmade⟩
  consistent := hconsistent
  guild := hguild ▸ h.guild
  logged k userId hk := h.logged k userId ((hlogged k userId).mp hk)

theorem Calm.loggedInAs (h : Calm Session.userContext s s') (k : ℕ) (userId : Str) :
    s'.LoggedInAs k userId ↔ s.LoggedInAs k userId := by
  unfold LoggedInAs
  rw [h.sessions, h.userContext]

theorem Settled.calm (hs : Settled l s) (h : Calm Session.userContext s s') : Settled l s' :=
  hs.congr (hs.consistent.calm h) h.loggedInAs h.guild h.characters

theorem Settled.createSession (h : Settled l s) (config : SessionConfig) (now : Time) :
    Settled l (s.createSession config now) := by
  refine h.congr (h.consistent.createSession config now) (fun k userId => ?_) rfl rfl
  unfold LoggedInAs
  rw [show k ∈ (s.createSession config now).sessions ↔ s.nextId = k ∨ k ∈ s.sessions from
    Dict.mem_insertIfNew _ _ _ _]
  have huser : (s.createSession config now).userContext k =
      if s.nextId = k then none else s.userContext k := by
    unfold userContext Server.createSession
    rw [Dict.get?_insert]
    split_ifs <;> rfl
  rw [huser]
  by_cases hk : s.nextId = k
  · have hnot : k ∉ s.sessions := fun hin => by
      have := h.consistent.fresh k hin
      omega
    simp [hk, hnot]
  · simp [hk]

/-- A session goes, and with it its place in its guild and its character. -/
theorem Settled.without (h : Settled l s) (id : ℕ) : Settled l (s.without id) := by
  obtain ⟨hgoes, hgone⟩ := GuildService.removeMember_goes (A := ∅) h.guild id
  have hlogged : ∀ k userId, (s.without id).LoggedInAs k userId ↔
      k ≠ id ∧ s.LoggedInAs k userId := by
    intro k userId
    have hin : k ∈ (s.without id).sessions ↔ k ≠ id ∧ k ∈ s.sessions := by
      rw [show k ∈ (s.without id).sessions ↔ id ≠ k ∧ k ∈ s.sessions from Dict.mem_erase _ _ _,
        ne_comm]
    have huser : k ≠ id → (s.without id).userContext k = s.userContext k := by
      intro hne
      have hclear := s.userContext_clear id k
      rw [if_neg hne] at hclear
      unfold Server.without
      by_cases hid : id ∈ s.sessions
      · simp only [if_pos hid]
        exact hclear
      · simp only [if_neg hid]
        rfl
    unfold LoggedInAs
    rw [hin]
    constructor
    · rintro ⟨⟨hne, hk⟩, context, hc, rfl⟩
      exact ⟨hne, hk, context, huser hne ▸ hc, rfl⟩
    · rintro ⟨hne, hk, context, hc, rfl⟩
      exact ⟨⟨hne, hk⟩, context, (huser hne).trans hc, rfl⟩
  refine ⟨⟨?_, fun k hk => ?_⟩, h.consistent.without id, hgoes.2, fun k userId hk => ?_⟩
  · refine (GuildService.removeMember_members h.members id).imp hgoes.2 fun k u hindex hk => ?_
    refine (hlogged k u).mpr ⟨?_, hk⟩
    rintro rfl
    exact (Dict.not_mem_iff _ _).mpr hgone hindex
  · obtain ⟨hne, hk⟩ := (Dict.mem_erase _ _ _).mp hk
    obtain ⟨⟨userId, huser⟩, hmade⟩ := h.characters k hk
    exact ⟨⟨userId, (hlogged k userId).mpr ⟨Ne.symm hne, huser⟩⟩, hmade⟩
  · exact h.logged k userId ((hlogged k userId).mp hk).2

theorem LoggedInAs.unique {k : ℕ} {u u' : Str} (h : s.LoggedInAs k u) (h' : s.LoggedInAs k u') :
    u = u' := by
  obtain ⟨-, context, hc, rfl⟩ := h
  obtain ⟨-, context', hc', rfl⟩ := h'
  rw [hc, Option.some.injEq] at hc'
  rw [hc']

/-- Who is logged in once a session has got a user. -/
theorem loggedInAs_attach {id : ℕ} (hid : id ∈ s.sessions) (hheap : id ∈ s.heap)
    (context : UserContext) (k : ℕ) (u : Str) :
    (s.attach id context).LoggedInAs k u ↔
      if k = id then u = context.userId else s.LoggedInAs k u := by
  have huser : (s.attach id context).userContext k =
      if id = k then s.heap[k]?.bind fun _ => some context else s.userContext k :=
    s.userContext_modifySession id k (·.attachUserContext context)
  unfold LoggedInAs
  rw [huser]
  by_cases hk : k = id
  · subst hk
    obtain ⟨session, hsession⟩ := (Dict.mem_iff _ _).mp hheap
    have hin : k ∈ (s.attach k context).sessions := hid
    simp only [if_pos, hsession, Option.bind_some, Option.some.injEq, exists_eq_left', hin,
      true_and, eq_comm]
  · rw [if_neg (Ne.symm hk), if_neg hk]
    exact Iff.rfl

/-- A session gets a user as a login begins: it has no character on record, and is in a guild only
as that user. -/
theorem Settled.begins (h : Settled l s) {id : ℕ} (hid : id ∈ s.sessions) (context : UserContext)
    (hfree : s.registry.heldByOther context.userId id = none) (hchar : id ∉ s.sessionCharacters)
    (hguild : id ∈ s.guildService.memberIndex → s.LoggedInAs id context.userId) :
    Settled (l.begins id) (s.attach id context) := by
  have hlogged := loggedInAs_attach hid (h.consistent.known id hid) context
  have hcurrent : ∀ k : ℕ, k ≠ id → (l.begins id).current[k]? = l.current[k]? :=
    fun k hne => Dict.get?_insert_of_ne _ _ (Ne.symm hne)
  refine ⟨⟨?_, fun k hk => ?_⟩, h.consistent.attach hid hfree, h.guild, fun k u hk => ?_⟩
  · refine h.members.imp h.guild fun k u hindex hk => (hlogged k u).mpr ?_
    split_ifs with heq
    · subst heq
      exact hk.unique (hguild hindex)
    · exact hk
  · have hne : k ≠ id := by
      rintro rfl
      exact hchar hk
    obtain ⟨⟨u, hu⟩, n, hn, hmade⟩ := h.characters k hk
    refine ⟨⟨u, (hlogged k u).mpr ?_⟩, n, (hcurrent k hne).trans hn, hmade⟩
    rw [if_neg hne]
    exact hu
  · refine (Dict.mem_insert _ _ _ _).mpr ?_
    by_cases hne : k = id
    · exact .inl hne.symm
    · have hk := (hlogged k u).mp hk
      rw [if_neg hne] at hk
      exact .inr (h.logged k u hk)

/-- A session gets the user it has. -/
theorem Settled.again (h : Settled l s) {id : ℕ} {context : UserContext}
    (huser : s.LoggedInAs id context.userId)
    (hfree : s.registry.heldByOther context.userId id = none) :
    Settled l (s.attach id context) := by
  refine h.congr (h.consistent.attach huser.1 hfree) (fun k u => ?_) rfl rfl
  rw [loggedInAs_attach huser.1 (h.consistent.known id huser.1) context k u]
  split_ifs with hk
  · subst hk
    constructor
    · rintro rfl
      exact huser
    · intro hu
      exact hu.unique huser
  · exact Iff.rfl

/-- A session without guild and character is logged out. -/
theorem Settled.ends (h : Settled l s) {id : ℕ} (hchar : id ∉ s.sessionCharacters)
    (hguild : id ∉ s.guildService.memberIndex) : Settled (l.ends id) (s.detach id) := by
  have hlogged : ∀ k u, (s.detach id).LoggedInAs k u ↔ k ≠ id ∧ s.LoggedInAs k u := by
    intro k u
    have huser : (s.detach id).userContext k = if k = id then none else s.userContext k :=
      s.userContext_clear id k
    have hsessions : (s.detach id).sessions = s.sessions := rfl
    unfold LoggedInAs
    rw [huser, hsessions]
    by_cases hk : k = id
    · simp [hk]
    · simp [hk]
  have hcurrent : ∀ k : ℕ, k ≠ id → (l.ends id).current[k]? = l.current[k]? :=
    fun k hne => Dict.get?_erase_of_ne _ (Ne.symm hne)
  refine ⟨⟨?_, fun k hk => ?_⟩, h.consistent.detach id, h.guild, fun k u hk => ?_⟩
  · refine h.members.imp h.guild fun k u hindex hk => (hlogged k u).mpr ⟨?_, hk⟩
    rintro rfl
    exact hguild hindex
  · have hne : k ≠ id := by
      rintro rfl
      exact hchar hk
    obtain ⟨⟨u, hu⟩, n, hn, hmade⟩ := h.characters k hk
    exact ⟨⟨u, (hlogged k u).mpr ⟨hne, hu⟩⟩, n, (hcurrent k hne).trans hn, hmade⟩
  · obtain ⟨hne, hk⟩ := (hlogged k u).mp hk
    exact (Dict.mem_erase _ _ _).mpr ⟨Ne.symm hne, h.logged k u hk⟩

theorem get?_moveKey {V : Type} {m : Dict ℕ V} {source target : ℕ} {v : V}
    (h : m[source]? = some v) (hne : source ≠ target) (k : ℕ) :
    (moveKey m source target)[k]? =
      if k = source then none else if k = target then some v else m[k]? := by
  unfold moveKey
  rw [h]
  simp only [Dict.get?_erase, Dict.get?_insert]
  by_cases hs : k = source
  · simp [hs]
  · by_cases ht : k = target
    · simp [ht, hne, Ne.symm hne]
    · simp [hs, ht, Ne.symm hs, Ne.symm ht]

section TakeOver

variable {existing id : ℕ} {userId : Str}

theorem Consistent.reclaim_of_held (h : Consistent s)
    (hheld : s.registry.heldByOther userId id = some existing) :
    s.reclaim userId id =
      { s with
        heap := s.heap.modify existing Session.clearUserContext
        sessions := s.sessions.erase existing
        registry := s.registry.removeSession existing
        partyService := (s.partyService.replaceMemberSession existing id).2
        guildService := (s.guildService.replaceMemberSession existing id).2
        sessionInstances := moveKey s.sessionInstances existing id
        sessionCharacters := moveKey s.sessionCharacters existing id } := by
  have hknown := h.holder_known hheld
  obtain ⟨session, hsession⟩ := (Dict.mem_iff _ _).mp (h.known existing hknown)
  unfold Server.reclaim
  rw [hheld]
  exact takeOver_of_known (findSession_eq_some.mpr ⟨hknown, hsession⟩) id

/-- The session that holds a user is logged in as the user. -/
theorem Consistent.holder_loggedIn (h : Consistent s)
    (hactive : s.registry.activeUsers[userId]? = some existing) :
    s.LoggedInAs existing userId := by
  obtain ⟨record, hrecord, huser⟩ := Option.map_eq_some_iff.mp ((h.inverse _ existing).mp hactive)
  have hknown := h.registered existing ((Dict.mem_iff _ _).mpr ⟨record, hrecord⟩)
  exact ⟨hknown, record, (h.contexts existing hknown).trans hrecord, huser⟩

/-- Who is logged in once a session has been taken over. -/
theorem Consistent.loggedInAs_carried (h : Consistent s) {context : UserContext}
    (hid : id ∈ s.sessions)
    (hheld : s.registry.heldByOther context.userId id = some existing) (k : ℕ) (u : Str) :
    ((s.reclaim context.userId id).attach id context).LoggedInAs k u ↔
      if k = id then u = context.userId else k ≠ existing ∧ s.LoggedInAs k u := by
  obtain ⟨hreclaim, -, hmem⟩ := h.reclaim context.userId id
  rw [loggedInAs_attach (hmem hid) (hreclaim.known id (hmem hid)) context k u]
  split_ifs with hk
  · exact Iff.rfl
  · have hsessions : k ∈ (s.reclaim context.userId id).sessions ↔
        k ≠ existing ∧ k ∈ s.sessions := by
      rw [h.reclaim_of_held hheld, show k ∈ s.sessions.erase existing ↔
        existing ≠ k ∧ k ∈ s.sessions from Dict.mem_erase _ _ _, ne_comm]
    have huser : (s.reclaim context.userId id).userContext k =
        if k = existing then none else s.userContext k := by
      rw [h.reclaim_of_held hheld]
      exact s.userContext_clear existing k
    unfold LoggedInAs
    rw [hsessions, huser]
    by_cases hke : k = existing
    · simp [hke]
    · simp [hke]

/-- The members of guilds after a takeover by a session without a guild. -/
theorem Settled.members_carried (h : Settled l s) {context : UserContext} (hid : id ∈ s.sessions)
    (hheld : s.registry.heldByOther context.userId id = some existing)
    (hguild : id ∉ s.guildService.memberIndex) :
    (s.guildService.replaceMemberSession existing id).2.MembersAre
      ((s.reclaim context.userId id).attach id context).LoggedInAs := by
  obtain ⟨hactive, hne⟩ := SessionRegistry.heldByOther_eq_some.mp hheld
  have hexisting := h.consistent.holder_loggedIn hactive
  have hgoes := GuildService.replaceMemberSession_goes (A := Set.univ) h.guild (Set.mem_univ id)
    existing
  have hgone := GuildService.replaceMemberSession_index h.guild hne (.inr hguild)
  have hmembers : s.guildService.MembersAre fun k u =>
      if k = id then u = context.userId else s.LoggedInAs k u := by
    refine h.members.imp h.guild fun k u hindex hk => ?_
    rw [if_neg]
    · exact hk
    · rintro rfl
      exact hguild hindex
  refine (GuildService.replaceMemberSession_members hmembers fun u hu => ?_).imp hgoes.2
    fun k u hindex hk => (h.consistent.loggedInAs_carried hid hheld k u).mpr ?_
  · rw [if_neg hne] at hu
    rw [if_pos rfl]
    exact hu.unique hexisting
  · have hke : k ≠ existing := by
      rintro rfl
      exact (Dict.not_mem_iff _ _).mpr hgone hindex
    split_ifs at hk ⊢
    · exact hk
    · exact ⟨hke, hk⟩

/-- A session without a guild takes the place of another, and with it its login, its guild and its
character. -/
theorem Settled.carries (h : Settled l s) {context : UserContext} (hid : id ∈ s.sessions)
    (hheld : s.registry.heldByOther context.userId id = some existing)
    (hguild : id ∉ s.guildService.memberIndex)
    (hchar : existing ∈ s.sessionCharacters ∨ id ∉ s.sessionCharacters) :
    Settled (l.carries existing id) ((s.reclaim context.userId id).attach id context) := by
  obtain ⟨hactive, hne⟩ := SessionRegistry.heldByOther_eq_some.mp hheld
  obtain ⟨hreclaim, hfree, hmem⟩ := h.consistent.reclaim context.userId id
  have hexisting := h.consistent.holder_loggedIn hactive
  have hgoes := GuildService.replaceMemberSession_goes (A := Set.univ) h.guild (Set.mem_univ id)
    existing
  have hlogged := h.consistent.loggedInAs_carried hid hheld
  have hguildEq : ((s.reclaim context.userId id).attach id context).guildService =
      (s.guildService.replaceMemberSession existing id).2 :=
    congrArg Server.guildService (h.consistent.reclaim_of_held hheld)
  have hcharEq : ((s.reclaim context.userId id).attach id context).sessionCharacters =
      moveKey s.sessionCharacters existing id :=
    congrArg Server.sessionCharacters (h.consistent.reclaim_of_held hheld)
  obtain ⟨n, hn⟩ := (Dict.mem_iff _ _).mp (h.logged existing _ hexisting)
  have hcurrent : ∀ k : ℕ, (l.carries existing id).current[k]? =
      if k = existing then none else if k = id then some n else l.current[k]? :=
    get?_moveKey hn hne
  refine ⟨⟨?_, fun k hk => ?_⟩, hreclaim.attach (hmem hid) hfree, ?_, fun k u hk => ?_⟩
  · rw [hguildEq]
    exact h.members_carried hid hheld hguild
  · rw [hcharEq] at hk
    obtain ⟨hke, hin⟩ := mem_moveKey hk
    by_cases hkid : k = id
    · subst hkid
      have hmoved : existing ∈ s.sessionCharacters := by
        rcases hchar with hmoved | hnot
        · exact hmoved
        · by_contra hno
          unfold moveKey at hk
          rw [(Dict.not_mem_iff _ _).mp hno] at hk
          exact hnot hk
      obtain ⟨-, n', hn', hmade⟩ := h.characters existing hmoved
      rw [hn, Option.some.injEq] at hn'
      subst hn'
      refine ⟨⟨context.userId, (hlogged k _).mpr (by rw [if_pos rfl])⟩, n, ?_, ?_⟩
      · rw [hcurrent, if_neg (Ne.symm hke), if_pos rfl]
      · exact (get?_moveKey hmade hne k).trans (by rw [if_neg (Ne.symm hke), if_pos rfl])
    · have hk : k ∈ s.sessionCharacters := hin.resolve_right hkid
      obtain ⟨⟨u, hu⟩, n', hn', hmade⟩ := h.characters k hk
      refine ⟨⟨u, (hlogged k u).mpr ?_⟩, n', ?_, ?_⟩
      · rw [if_neg hkid]
        exact ⟨Ne.symm hke, hu⟩
      · rw [hcurrent, if_neg (Ne.symm hke), if_neg hkid, hn']
      · show (moveKey l.made existing id)[k]? = some n'
        rcases hm : l.made[existing]? with _ | m
        · unfold moveKey
          rw [hm]
          exact hmade
        · rw [get?_moveKey hm hne, if_neg (Ne.symm hke), if_neg hkid, hmade]
  · rw [hguildEq]
    exact hgoes.2
  · refine (Dict.mem_iff _ _).mpr ?_
    rw [hcurrent]
    have hk := (hlogged k u).mp hk
    by_cases hkid : k = id
    · rw [if_neg (by rw [hkid]; exact Ne.symm hne), if_pos hkid]
      exact ⟨n, rfl⟩
    · rw [if_neg hkid] at hk
      rw [if_neg hk.1, if_neg hkid]
      exact (Dict.mem_iff _ _).mp (h.logged k u hk.2)

end TakeOver

/-- A session with a user puts its character on record. -/
theorem Settled.enters (h : Settled l s) {id : ℕ} {userId : Str} (huser : s.LoggedInAs id userId)
    (charId : UInt64) (instanceId : ℕ) :
    Settled (l.enters id)
      { s with
        sessionCharacters := s.sessionCharacters.insert id charId
        sessionInstances := s.sessionInstances.insert id instanceId } := by
  obtain ⟨n, hn⟩ := (Dict.mem_iff _ _).mp (h.logged id userId huser)
  have henters : l.enters id = { l with made := l.made.insert id n } := by
    unfold Logins.enters
    rw [hn]
  rw [henters]
  refine ⟨⟨h.members, fun k hk => ?_⟩, h.consistent.congr rfl rfl rfl rfl, h.guild, h.logged⟩
  by_cases hne : id = k
  · subst hne
    exact ⟨⟨userId, huser⟩, n, hn, Dict.get?_insert_self _ _ _⟩
  · obtain ⟨hu, n', hn', hmade⟩ := h.characters k
      (((Dict.mem_insert _ _ _ _).mp hk).resolve_left hne)
    exact ⟨hu, n', hn', (Dict.get?_insert_of_ne _ _ hne).trans hmade⟩

/-- A session with a user makes a guild call as that user. -/
theorem Settled.guildCall (h : Settled l s) {id : ℕ} {context : UserContext}
    (hid : id ∈ s.sessions) (huser : s.userContext id = some context) {call : GuildCall}
    (hcall : GuildCallAs id context.userId call) :
    Settled l { s with guildService := s.guildService.call call } := by
  refine ⟨⟨?_, h.characters⟩, h.consistent.congr rfl rfl rfl rfl,
    (GuildService.call_goes h.guild call).2, h.logged⟩
  exact GuildService.call_members h.members hcall ⟨hid, context, huser, rfl⟩

end Identity

section Packets

/-- The session has no character on record and is in no guild. -/
def Unplaced (s : Server σ) (id : ℕ) : Prop :=
  id ∉ s.sessionCharacters ∧ id ∉ s.guildService.memberIndex

/-- The session has no character on record, and is in a guild only if it has the user. -/
def LoginKeeps (s : Server σ) (id : ℕ) (userId : Str) : Prop :=
  id ∉ s.sessionCharacters ∧ (id ∈ s.guildService.memberIndex →
    (s.userContext id).map UserContext.userId = some userId)

/-- The session holds the user; or nobody does, and it is unplaced; or another session does, it is
in no guild, and its own character, if any, makes room for the other's. -/
def ReconnectKeeps (s : Server σ) (id : ℕ) (userId : Str) : Prop :=
  (s.registry.hasUser userId = none → Unplaced s id) ∧
  ∀ holder, s.registry.hasUser userId = some holder → holder ≠ id →
    id ∉ s.guildService.memberIndex ∧
    (holder ∈ s.sessionCharacters ∨ id ∉ s.sessionCharacters)

/-- A packet that changes who a session is finds it without memberships of someone else. -/
def KeepsIdentity (s : Server σ) : ServerEvent → Prop
  | .packet id header payload now => ∀ session inner, s.heap[id]? = some session →
    (s.gatePacket session header payload now).1 = .passed inner →
    (PacketType.ofCode header.type = some .loginReq →
      ∀ request, Logs s id inner request → LoginKeeps s id request.userId) ∧
    (PacketType.ofCode header.type = some .logoutReq →
      (decodeLogoutRequest inner).isOk → Unplaced s id) ∧
    (PacketType.ofCode header.type = some .sessionReconnectReq →
      ∀ request userId, Reconnects s inner now request userId → ReconnectKeeps s id userId)
  | _ => True

variable {l : Logins} {s : Server σ} {id : ℕ} {payload : Bytes} {now : Time}

theorem keepsIdentity_of_other {header : FrameHeader}
    (hlogin : PacketType.ofCode header.type ≠ some .loginReq)
    (hlogout : PacketType.ofCode header.type ≠ some .logoutReq)
    (hreconnect : PacketType.ofCode header.type ≠ some .sessionReconnectReq) :
    KeepsIdentity s (.packet id header payload now) := by
  intro session inner _ _
  refine ⟨fun ht => absurd ht hlogin, fun ht => absurd ht hlogout, fun ht => ?_⟩
  exact absurd ht hreconnect

theorem Settled.tokens (h : Settled l s) (tokenService : TokenService) :
    Settled l { s with tokenService } :=
  h.congr (h.consistent.congr rfl rfl rfl rfl) (fun _ _ => Iff.rfl) rfl rfl

theorem Settled.grants (h : Settled l s) (instanceRewardGrants : Dict ℕ ℕ) :
    Settled l { s with instanceRewardGrants } :=
  h.congr (h.consistent.congr rfl rfl rfl rfl) (fun _ _ => Iff.rfl) rfl rfl

theorem Settled.login (h : Settled l s) (hid : id ∈ s.sessions)
    (hkeeps : ∀ request, Logs s id payload request → LoginKeeps s id request.userId) :
    Settled (if (s.handleLogin id payload now).1.accepted then l.begins id else l)
      (s.handleLogin id payload now).2 := by
  rcases s.handleLogin_cases id payload now with ⟨request, hlogs⟩ | ⟨hrefused, heq⟩
  · rw [handleLogin_of_logs hlogs, if_pos rfl]
    obtain ⟨hchar, hguild⟩ := hkeeps request hlogs
    have ht := h.tokens (s.tokenService.issueToken request.userId now).2
    refine ht.begins hid (s.loginContext request now) hlogs.free hchar fun hindex => ?_
    obtain ⟨context, hcontext, huser⟩ := Option.map_eq_some_iff.mp (hguild hindex)
    exact ⟨hid, context, hcontext, huser⟩
  · rw [heq, hrefused]
    exact h.calm s.countError_calm.users

theorem Settled.logout (h : Settled l s)
    (hkeeps : (decodeLogoutRequest payload).isOk → Unplaced s id) :
    Settled (if (s.handleLogout id payload).1.success then l.ends id else l)
      (s.handleLogout id payload).2 := by
  unfold handleLogout
  split
  · exact h.calm s.countError_calm.users
  · rename_i hd
    obtain ⟨hchar, hguild⟩ := hkeeps (by rw [hd]; rfl)
    exact h.ends hchar hguild

/-- A session with a good token gets the user of the token. -/
theorem Settled.resumes (h : Settled l s) (hid : id ∈ s.sessions) (context : UserContext)
    (hkeeps : ReconnectKeeps s id context.userId) :
    Settled (l.resumes s.registry id context.userId)
      ((s.reclaim context.userId id).attach id context) := by
  unfold Logins.resumes
  rcases hholder : s.registry.hasUser context.userId with _ | holder
  · have hfree : s.registry.heldByOther context.userId id = none := by
      unfold SessionRegistry.heldByOther
      rw [hholder]
      rfl
    have hreclaim : s.reclaim context.userId id = s := by
      unfold reclaim
      rw [hfree]
    obtain ⟨hchar, hguild⟩ := hkeeps.1 hholder
    rw [hreclaim]
    exact h.begins hid context hfree hchar fun hindex => absurd hindex hguild
  · by_cases hself : holder = id
    · subst hself
      have hfree : s.registry.heldByOther context.userId holder = none :=
        SessionRegistry.heldByOther_eq_none.mpr fun existing he => by
          change s.registry.hasUser context.userId = some existing at he
          rw [hholder, Option.some.injEq] at he
          exact he.symm
      have hreclaim : s.reclaim context.userId holder = s := by
        unfold reclaim
        rw [hfree]
      simp only [if_pos]
      rw [hreclaim]
      exact h.again (h.consistent.holder_loggedIn hholder) hfree
    · simp only [if_neg hself]
      obtain ⟨hguild, hchar⟩ := hkeeps.2 holder hholder hself
      exact h.carries hid (SessionRegistry.heldByOther_eq_some.mpr ⟨hholder, hself⟩) hguild hchar

theorem Settled.reconnect (h : Settled l s) (hid : id ∈ s.sessions)
    (hkeeps : ∀ request userId, Reconnects s payload now request userId →
      ReconnectKeeps s id userId) :
    Settled (l.answered s.registry id ((s.handleReconnect id payload now).2.userContext id)
      (some ⟨.sessionReconnectRes, (s.handleReconnect id payload now).1⟩))
      (s.handleReconnect id payload now).2 := by
  unfold Logins.answered
  simp only []
  rcases s.handleReconnect_refused id payload now with
    ⟨hrefused, tokenService, -, heq⟩ | ⟨request, userId, hre⟩
  · have hsettled : Settled l (s.handleReconnect id payload now).2 := by
      rw [heq]
      exact (h.tokens tokenService).calm (countError_calm _).users
    split
    · exact hsettled
    · rw [hrefused]
      exact hsettled
  · have hsuccess : (s.handleReconnect id payload now).1.success = true := by
      rw [handleReconnect_success hre]
      exact (SessionRegistry.registerSession_iff _ _ _).mpr (h.consistent.reclaim userId id).2.1
    have heq := handleReconnect_of_valid hre id
    rw [← handleReconnect_success hre, if_pos hsuccess] at heq
    have hcalm : Calm Session.userContext ((s.reclaim userId id).attach id ⟨userId, request.token⟩)
        (s.resume id request userId) := modifySession_calm _ id fun _ => rfl
    have hresumed := (h.resumes hid ⟨userId, request.token⟩ (hkeeps request userId hre)).calm hcalm
    have huser : (s.resume id request userId).LoggedInAs id userId := by
      obtain ⟨hreclaim, -, hmem⟩ := h.consistent.reclaim userId id
      refine (hcalm.loggedInAs id userId).mpr ?_
      rw [loggedInAs_attach (hmem hid) (hreclaim.known id (hmem hid)), if_pos rfl]
    obtain ⟨-, context, hcontext, rfl⟩ := huser
    rw [heq, hcontext, hsuccess]
    exact hresumed

theorem Settled.ofGuild (h : Settled l s) {s' : Server σ} (hid : id ∈ s.sessions)
    (heffect : GuildEffect s s' id) : Settled l s' := by
  rcases heffect with hcalm | ⟨call, user, hu, hc, hcalm⟩
  · exact h.calm hcalm.users
  · exact (h.guildCall hid hu hc).calm hcalm.users

theorem Settled.enter (h : Settled l s) (hid : id ∈ s.sessions) :
    Settled (if (s.handleEnter id payload).1.success then l.enters id else l)
      (s.handleEnter id payload).2 := by
  rcases s.handleEnter_effect id payload with
    ⟨hrefused, hcalm⟩ | ⟨hsuccess, huser, charId, instanceId, hcalm⟩
  · rw [hrefused]
    exact h.calm hcalm.users
  · obtain ⟨context, hcontext⟩ := Option.isSome_iff_exists.mp huser
    rw [hsuccess]
    exact (h.enters ⟨hid, context, hcontext, rfl⟩ charId instanceId).calm hcalm.users

variable [InventoryStorage σ] {header : FrameHeader}

/-- A packet that has passed the gate. -/
theorem Settled.dispatch (h : Settled l s) (hid : id ∈ s.sessions)
    (hlogin : PacketType.ofCode header.type = some .loginReq →
      ∀ request, Logs s id payload request → LoginKeeps s id request.userId)
    (hlogout : PacketType.ofCode header.type = some .logoutReq →
      (decodeLogoutRequest payload).isOk → Unplaced s id)
    (hreconnect : PacketType.ofCode header.type = some .sessionReconnectReq →
      ∀ request userId, Reconnects s payload now request userId → ReconnectKeeps s id userId) :
    Settled (l.answered s.registry id ((s.dispatch id header payload now).2.userContext id)
      (s.dispatch id header payload now).1) (s.dispatch id header payload now).2 := by
  unfold Server.dispatch
  split
  · rename_i ht
    exact h.login hid (hlogin ht)
  · rename_i ht
    exact h.logout (hlogout ht)
  · rename_i ht
    exact h.reconnect hid (hreconnect ht)
  · exact h.calm (s.handleMatch_calm id header.version payload now).users
  · exact h.enter hid
  · rcases s.handleResult_effect id payload with ⟨-, hcalm⟩ | ⟨-, _, _, -, -, hcalm⟩
    · exact h.calm hcalm.users
    · exact (h.grants _).calm hcalm.users
  · exact h.calm (s.handleInventoryUpdate_calm id payload).users
  · exact h.ofGuild hid (s.handleGuildCreate_effect id payload)
  · exact h.ofGuild hid (s.handleGuildJoin_effect id payload)
  · exact h.ofGuild hid (s.handleGuildLeave_effect id payload)
  · exact h.calm (s.handleChat_calm id payload).users
  · exact h.calm s.countError_calm.users

theorem Settled.packet (h : Settled l s) (hid : id ∈ s.sessions)
    (hkeeps : KeepsIdentity s (.packet id header payload now)) :
    Settled (l.step s (.packet id header payload now))
      (s.handlePacket id header payload now).2 := by
  obtain ⟨session, hsession⟩ := (Dict.mem_iff _ _).mp (h.consistent.known id hid)
  have huser := s.gatePacket_userContext session header payload now
  show Settled (l.answered s.registry id ((s.answerPacket id header payload now).2.userContext id)
    (s.answerPacket id header payload now).1) (s.answerPacket id header payload now).2
  unfold answerPacket
  simp only [hsession]
  have hkeeps := hkeeps session
  rcases hgate : s.gatePacket session header payload now with ⟨_ | reject | inner, session'⟩
  · rw [hgate] at huser
    exact (h.calm (s.receive_calm payload hsession huser)).calm (countError_calm _).users
  · rw [hgate] at huser
    exact (h.calm (s.receive_calm payload hsession huser)).calm (countError_calm _).users
  · rw [hgate] at huser
    have hcalm := s.receive_calm payload hsession huser
    obtain ⟨hlogin, hlogout, hreconnect⟩ := hkeeps inner hsession (congrArg Prod.fst hgate)
    refine (h.calm hcalm).dispatch hid (fun ht request hlogs => ?_) hlogout
      fun ht request userId hre => ?_
    · obtain ⟨hchar, hguild⟩ := hlogin ht request ⟨hlogs.decoded, hlogs.password, hlogs.free⟩
      refine ⟨hchar, fun hindex => ?_⟩
      rw [hcalm.userContext]
      exact hguild hindex
    · exact hreconnect ht request userId ⟨hre.decoded, hre.valid⟩

theorem Settled.step (h : Settled l s) {e : ServerEvent} (hknown : OnKnown s e)
    (hkeeps : KeepsIdentity s e) : Settled (l.step s e) (serverStep s e) := by
  have hother : (∀ id header payload now, e ≠ .packet id header payload now) →
      Settled l (serverStep s e) := by
    intro hne
    refine step_preserves (I := Settled l) (fun _ _ hcalm hs => hs.calm hcalm.users)
      (fun _ id hs => hs.without id) h h.createSession ?_ ?_
    · rintro call rfl
      exact h.congr (h.consistent.congr rfl rfl rfl rfl) (fun _ _ => Iff.rfl) rfl rfl
    · intro id header payload now he
      exact absurd he (hne id header payload now)
  cases e with
  | packet id header payload now => exact h.packet hknown hkeeps
  | createSession => exact hother (by simp)
  | tick => exact hother (by simp)
  | removeSession => exact hother (by simp)
  | forceDisconnect => exact hother (by simp)
  | party => exact hother (by simp)
  | inst => exact hother (by simp)
  | session => exact hother (by simp)

end Packets

section Runs

theorem settled_new (inventoryStorage : σ) (securityPolicy : SecurityPolicy)
    (tokenBytes : Draws UInt8) (seeds : Draws { n : UInt32 // n ≠ 0 }) (ticketBytes : Draws UInt8)
    (clock : Draws Time) :
    Settled {} (Server.new inventoryStorage securityPolicy tokenBytes seeds ticketBytes clock) := by
  have htidy := tidy_new inventoryStorage securityPolicy tokenBytes seeds ticketBytes clock
  have hnone : ∀ k : ℕ, k ∉ (∅ : Dict ℕ Session) := fun k =>
    (Dict.not_mem_iff _ _).mpr (Dict.get?_empty k)
  refine ⟨⟨Dict.all_empty, fun k hk => ?_⟩, htidy.consistent, htidy.guild, fun k u hk => ?_⟩
  · exact absurd (htidy.characters k hk) (hnone k)
  · exact absurd hk.1 (hnone k)

variable [InventoryStorage σ]

/-- The logins after the events. -/
def loginsAfter : Server σ → Logins → List ServerEvent → Logins
  | _, l, [] => l
  | s, l, e :: es => loginsAfter (serverStep s e) (l.step s e) es

theorem Settled.run : ∀ (es : List ServerEvent) (s : Server σ) (l : Logins), Settled l s →
    (∀ x ∈ trail serverStep s es, OnKnown x.1 x.2 ∧ KeepsIdentity x.1 x.2) →
    Settled (loginsAfter s l es) (after serverStep s es)
  | [], _, _, h, _ => h
  | e :: es, s, l, h, hes => by
    rw [trail_cons, List.forall_mem_cons] at hes
    obtain ⟨⟨hknown, hkeeps⟩, hrest⟩ := hes
    exact Settled.run es _ _ (h.step hknown hkeeps) hrest

/-- In every run whose packets are for known sessions, and change who a session is only when it has
no membership of someone else, the memberships and characters of every session are those of its
current login. -/
theorem memberships_identified (inventoryStorage : σ) (securityPolicy : SecurityPolicy)
    (tokenBytes : Draws UInt8) (seeds : Draws { n : UInt32 // n ≠ 0 }) (ticketBytes : Draws UInt8)
    (clock : Draws Time) (es : List ServerEvent)
    (hes : ∀ x ∈ trail serverStep
      (Server.new inventoryStorage securityPolicy tokenBytes seeds ticketBytes clock) es,
      OnKnown x.1 x.2 ∧ KeepsIdentity x.1 x.2) :
    Identified
      (loginsAfter (Server.new inventoryStorage securityPolicy tokenBytes seeds ticketBytes clock)
        {} es)
      (after serverStep
        (Server.new inventoryStorage securityPolicy tokenBytes seeds ticketBytes clock) es) :=
  (Settled.run es _ _ (settled_new ..) hes).toIdentified

/-- A user founds a guild on session 1 and enters an instance, and is back on session 2. -/
def comeBack : List ServerEvent :=
  [.createSession {} 0, .createSession {} 0,
    packetOf 1 .loginReq (encodeLoginRequest ⟨str "u", str "letmein"⟩),
    packetOf 1 .guildCreateReq (encodeGuildCreateRequest ⟨str "g"⟩),
    .party (.createParty 1 (str "u")),
    packetOf 1 .matchReq (encodeMatchRequest {}),
    packetOf 1 .dungeonEnterReq (encodeDungeonEnterRequest ⟨1, List.replicate 32 48, 7⟩),
    packetOf 2 .sessionReconnectReq reconnecting]

theorem memberships_identified_come_back :
    2 ∈ (after serverStep (still {}) comeBack).guildService.memberIndex ∧
    2 ∈ (after serverStep (still {}) comeBack).sessionCharacters ∧
    Identified (loginsAfter (still {}) {} comeBack) (after serverStep (still {}) comeBack) := by
  refine ⟨by decide +kernel, by decide +kernel,
    memberships_identified _ _ _ _ _ _ comeBack ?_⟩
  simp only [comeBack, packetOf, trail, List.forall_mem_cons]
  refine ⟨⟨trivial, trivial⟩, ⟨trivial, trivial⟩, ⟨by decide +kernel, ?_⟩,
    ⟨by decide +kernel, keepsIdentity_of_other (by decide) (by decide) (by decide)⟩,
    ⟨trivial, trivial⟩,
    ⟨by decide +kernel, keepsIdentity_of_other (by decide) (by decide) (by decide)⟩,
    ⟨by decide +kernel, keepsIdentity_of_other (by decide) (by decide) (by decide)⟩,
    ⟨by decide +kernel, ?_⟩, by simp⟩
  · intro session inner _ _
    refine ⟨fun _ request _ => ⟨by decide +kernel, fun hindex => ?_⟩, fun ht => ?_, fun ht => ?_⟩
    · exact absurd hindex (by decide +kernel)
    · exact absurd ht (by decide)
    · exact absurd ht (by decide)
  · intro session inner _ _
    refine ⟨fun ht => ?_, fun ht => ?_, fun _ request userId _ => ⟨fun _ => ?_, ?_⟩⟩
    · exact absurd ht (by decide)
    · exact absurd ht (by decide)
    · exact ⟨by decide +kernel, by decide +kernel⟩
    · exact fun holder _ _ => ⟨by decide +kernel, .inr (by decide +kernel)⟩

/-- A user founds a guild on session 1 and logs out, and another logs in there. -/
def leftBehind : List ServerEvent :=
  [.createSession {} 0,
    packetOf 1 .loginReq (encodeLoginRequest ⟨str "u", str "letmein"⟩),
    packetOf 1 .guildCreateReq (encodeGuildCreateRequest ⟨str "g"⟩),
    packetOf 1 .logoutReq (encodeLogoutRequest {}),
    packetOf 1 .loginReq (encodeLoginRequest ⟨str "v", str "letmein"⟩)]

/-- The second user leads the guild of the first, who is its member by record. -/
theorem logout_leaves_membership :
    ¬ ∀ es : List ServerEvent, (∀ x ∈ trail serverStep (still {}) es, OnKnown x.1 x.2) →
      Identified (loginsAfter (still {}) {} es) (after serverStep (still {}) es) := by
  intro h
  have hs := h leftBehind (by decide +kernel)
  have hmember : (((after serverStep (still {}) leftBehind).guildService.guilds[1]?.bind
      fun guild => guild.members[1]?).map GuildMember.userId) = some (str "u") := by
    decide +kernel
  have huser : ((after serverStep (still {}) leftBehind).userContext 1).map UserContext.userId =
      some (str "v") := by
    decide +kernel
  obtain ⟨member, hmember, hu⟩ := Option.map_eq_some_iff.mp hmember
  obtain ⟨guild, hg, hm⟩ := Option.bind_eq_some_iff.mp hmember
  obtain ⟨-, context, hcontext, hsame⟩ := hs.members 1 guild hg 1 member hm
  rw [hcontext, Option.map_some, hsame, hu, Option.some.injEq] at huser
  exact absurd huser (by decide)

end Runs

end Server

end DungeonHub
