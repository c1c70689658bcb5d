import DungeonHub.Proofs.Renaming

/-!
# Which sessions a tick removes

A tick removes the sessions that are disconnected or have not been heard from for their timeout.
The removals commute in what the server keeps of its sessions, although a leader takes a party or
a guild along, so the order in which the sessions are visited does not matter.
-/

namespace DungeonHub

open Function Roster Run

namespace PartyService

variable {s s' : PartyService}

/-- Each party with its invites. -/
abbrev Entry := Option PartyRecord × Option (Dict ℕ PartyInvite)

def ledger (s : PartyService) : Ledger ℕ ℕ Entry where
  entries p := (s.parties[p]?, s.invites[p]?)
  index k := s.memberIndex[k]?

def Entry.leader (entry : Entry) : Option ℕ := entry.1.map PartyRecord.leaderSessionId

def Entry.expel (k : ℕ) (entry : Entry) : Entry :=
  (entry.1.map fun party => { party with members := party.members.erase k },
    entry.2.map fun invites => invites.erase k)

theorem eq_of_ledger (h : s.ledger = s'.ledger) (hnext : s.nextPartyId = s'.nextPartyId)
    (hsink : s.eventSink = s'.eventSink) (htimeout : s.inviteTimeout = s'.inviteTimeout) :
    s = s' := by
  obtain ⟨next, parties, index, invites, sink, timeout⟩ := s
  obtain ⟨next', parties', index', invites', sink', timeout'⟩ := s'
  have hentries : ∀ p : ℕ, (parties[p]?, invites[p]?) = (parties'[p]?, invites'[p]?) :=
    congrFun (congrArg Ledger.entries h)
  have hparties : parties = parties' := Dict.ext fun p => congrArg Prod.fst (hentries p)
  have hinvites : invites = invites' := Dict.ext fun p => congrArg Prod.snd (hentries p)
  have hindex : index = index' := Dict.ext (congrFun (congrArg Ledger.index h))
  cases hnext
  cases hsink
  cases htimeout
  rw [hparties, hinvites, hindex]

theorem removeMember_rest (s : PartyService) (k : ℕ) :
    (s.removeMember k).2.2.nextPartyId = s.nextPartyId ∧
      (s.removeMember k).2.2.eventSink = s.eventSink ∧
      (s.removeMember k).2.2.inviteTimeout = s.inviteTimeout := by
  unfold removeMember
  split
  · exact ⟨rfl, rfl, rfl⟩
  · split
    · exact ⟨rfl, rfl, rfl⟩
    · split_ifs <;> exact ⟨rfl, rfl, rfl⟩

theorem removeMember_ledger (h : s.Sound) (k : ℕ) :
    (s.removeMember k).2.2.ledger = s.ledger.dismiss Entry.leader (none, none) Entry.expel k := by
  unfold removeMember
  split
  · rename_i hk
    exact (Ledger.dismiss_of_none hk).symm
  rename_i p hk
  obtain ⟨party, member, hp, hm⟩ := h.party_of_index hk
  have hindex : s.ledger.index k = some p := hk
  have hentry : (s.ledger.entries p).leader = some party.leaderSessionId := by
    show (s.parties[p]?).map _ = _
    rw [hp]
    rfl
  have hmem : ∀ j, j ∈ party.members ↔ s.memberIndex[j]? = some p := fun _ => h.roster.mem_view hp
  rw [hp]
  simp only []
  split_ifs with hl
  · rw [Ledger.dismiss_of_leader hindex (hentry.trans (congrArg some hl))]
    ext x : 2
    · show ((s.parties.erase p)[x]?, (s.invites.erase p)[x]?) =
        update s.ledger.entries p (none, none) x
      rw [Dict.get?_erase, Dict.get?_erase, update_apply]
      by_cases hx : x = p
      · rw [if_pos hx.symm, if_pos hx.symm, if_pos hx]
      · rw [if_neg (Ne.symm hx), if_neg (Ne.symm hx), if_neg hx]
        rfl
    · show (s.memberIndex.eraseAll party.members.keys)[x]? = if s.memberIndex[x]? = some p then
        none else s.memberIndex[x]?
      rw [Dict.get?_eraseAll]
      exact if_congr (Std.ExtTreeMap.mem_keys.trans (hmem x)) rfl rfl
  · rw [Ledger.dismiss_of_member hindex (fun h => hl (Option.some.inj (hentry.symm.trans h)))]
    ext x : 2
    · show ((s.parties.insert p _)[x]?, (s.invites.modify p _)[x]?) =
        update s.ledger.entries p ((s.ledger.entries p).expel k) x
      rw [Dict.get?_insert, Dict.get?_modify, update_apply]
      by_cases hx : x = p
      · subst hx
        rw [if_pos rfl, if_pos rfl, if_pos rfl]
        show _ = ((s.parties[x]?).map _, (s.invites[x]?).map _)
        rw [hp]
        rfl
      · rw [if_neg (Ne.symm hx), if_neg (Ne.symm hx), if_neg hx]
        rfl
    · show (s.memberIndex.erase k)[x]? = update s.ledger.index k none x
      rw [Dict.get?_erase, update_apply]
      exact if_congr eq_comm rfl rfl

theorem Entry.leader_expel (k : ℕ) (entry : Entry) : (entry.expel k).leader = entry.leader := by
  unfold Entry.leader Entry.expel
  rw [Option.map_map]
  rfl

theorem Entry.expel_comm (k j : ℕ) (entry : Entry) :
    (entry.expel j).expel k = (entry.expel k).expel j := by
  unfold Entry.expel
  simp only [Option.map_map, Function.comp_def, Dict.erase_comm _ j k]

/-- It does not matter which of two members is removed first. -/
theorem removeMember_comm (h : s.Sound) (a b : ℕ) :
    ((s.removeMember a).2.2.removeMember b).2.2 = ((s.removeMember b).2.2.removeMember a).2.2 := by
  have hsound : ∀ k, (s.removeMember k).2.2.Sound := fun k =>
    (removeMember_goes (A := ∅) h k).1.2
  obtain ⟨hnext, hsink, htimeout⟩ := s.removeMember_rest a
  obtain ⟨hnext', hsink', htimeout'⟩ := s.removeMember_rest b
  obtain ⟨hnextb, hsinkb, htimeoutb⟩ := (s.removeMember a).2.2.removeMember_rest b
  obtain ⟨hnexta, hsinka, htimeouta⟩ := (s.removeMember b).2.2.removeMember_rest a
  refine eq_of_ledger ?_ ?_ ?_ ?_
  · rw [removeMember_ledger (hsound a), removeMember_ledger (hsound b), removeMember_ledger h,
      removeMember_ledger h]
    exact Ledger.dismiss_comm Entry.leader_expel Entry.expel_comm s.ledger a b
  · rw [hnextb, hnexta, hnext, hnext']
  · rw [hsinkb, hsinka, hsink, hsink']
  · rw [htimeoutb, htimeouta, htimeout, htimeout']

end PartyService

namespace GuildService

variable {s s' : GuildService}

def ledger (s : GuildService) : Ledger ℕ ℕ (Option GuildRecord) where
  entries g := s.guilds[g]?
  index k := s.memberIndex[k]?

def leaderOf (entry : Option GuildRecord) : Option ℕ := entry.map GuildRecord.leaderSessionId

def expel (k : ℕ) (entry : Option GuildRecord) : Option GuildRecord :=
  entry.map fun guild => { guild with members := guild.members.erase k }

theorem eq_of_ledger (h : s.ledger = s'.ledger) (hnext : s.nextGuildId = s'.nextGuildId)
    (hsink : s.eventSink = s'.eventSink) : s = s' := by
  obtain ⟨next, guilds, index, sink⟩ := s
  obtain ⟨next', guilds', index', sink'⟩ := s'
  have hguilds : guilds = guilds' := Dict.ext (congrFun (congrArg Ledger.entries h))
  have hindex : index = index' := Dict.ext (congrFun (congrArg Ledger.index h))
  cases hnext
  cases hsink
  rw [hguilds, hindex]

theorem removeMember_rest (s : GuildService) (k : ℕ) :
    (s.removeMember k).2.2.nextGuildId = s.nextGuildId ∧
      (s.removeMember k).2.2.eventSink = s.eventSink := by
  unfold removeMember
  split
  · exact ⟨rfl, rfl⟩
  · split
    · exact ⟨rfl, rfl⟩
    · split
      · exact ⟨rfl, rfl⟩
      · split_ifs <;> exact ⟨rfl, rfl⟩

theorem removeMember_ledger (h : s.Sound) (k : ℕ) :
    (s.removeMember k).2.2.ledger = s.ledger.dismiss leaderOf none expel k := by
  unfold removeMember
  split
  · rename_i hk
    exact (Ledger.dismiss_of_none hk).symm
  rename_i g hk
  obtain ⟨guild, member, hg, hm⟩ := h.guild_of_index hk
  have hindex : s.ledger.index k = some g := hk
  have hentry : leaderOf (s.ledger.entries g) = some guild.leaderSessionId := by
    show (s.guilds[g]?).map _ = _
    rw [hg]
    rfl
  have hmem : ∀ j, j ∈ guild.members ↔ s.memberIndex[j]? = some g := fun _ => h.roster.mem_view hg
  rw [hg]
  simp only [hm]
  split_ifs with hl
  · rw [Ledger.dismiss_of_leader hindex (hentry.trans (congrArg some hl))]
    ext x : 2
    · show (s.guilds.erase g)[x]? = update s.ledger.entries g none x
      rw [Dict.get?_erase, update_apply]
      exact if_congr eq_comm rfl rfl
    · show (s.memberIndex.eraseAll guild.members.keys)[x]? = if s.memberIndex[x]? = some g then
        none else s.memberIndex[x]?
      rw [Dict.get?_eraseAll]
      exact if_congr (Std.ExtTreeMap.mem_keys.trans (hmem x)) rfl rfl
  · rw [Ledger.dismiss_of_member hindex (fun h => hl (Option.some.inj (hentry.symm.trans h)))]
    ext x : 2
    · show (s.guilds.insert g _)[x]? = update s.ledger.entries g ((s.guilds[g]?).map _) x
      rw [Dict.get?_insert, hg, update_apply]
      exact if_congr eq_comm rfl rfl
    · show (s.memberIndex.erase k)[x]? = update s.ledger.index k none x
      rw [Dict.get?_erase, update_apply]
      exact if_congr eq_comm rfl rfl

theorem leaderOf_expel (k : ℕ) (entry : Option GuildRecord) :
    leaderOf (expel k entry) = leaderOf entry := by
  unfold leaderOf expel
  rw [Option.map_map]
  rfl

theorem expel_comm (k j : ℕ) (entry : Option GuildRecord) :
    expel k (expel j entry) = expel j (expel k entry) := by
  unfold expel
  simp only [Option.map_map, Function.comp_def, Dict.erase_comm _ j k]

/-- It does not matter which of two members is removed first. -/
theorem removeMember_comm (h : s.Sound) (a b : ℕ) :
    ((s.removeMember a).2.2.removeMember b).2.2 = ((s.removeMember b).2.2.removeMember a).2.2 := by
  have hsound : ∀ k, (s.removeMember k).2.2.Sound := fun k =>
    (removeMember_goes (A := ∅) h k).1.2
  obtain ⟨hnext, hsink⟩ := s.removeMember_rest a
  obtain ⟨hnext', hsink'⟩ := s.removeMember_rest b
  obtain ⟨hnextb, hsinkb⟩ := (s.removeMember a).2.2.removeMember_rest b
  obtain ⟨hnexta, hsinka⟩ := (s.removeMember b).2.2.removeMember_rest a
  refine eq_of_ledger ?_ ?_ ?_
  · rw [removeMember_ledger (hsound a), removeMember_ledger (hsound b), removeMember_ledger h,
      removeMember_ledger h]
    exact Ledger.dismiss_comm leaderOf_expel expel_comm s.ledger a b
  · rw [hnextb, hnexta, hnext, hnext']
  · rw [hsinkb, hsinka, hsink, hsink']

end GuildService

namespace SessionRegistry

theorem eq_of_tables {r r' : SessionRegistry} (hrecords : r.records = r'.records)
    (husers : r.activeUsers = r'.activeUsers) : r = r' := by
  cases r
  cases r'
  cases hrecords
  cases husers
  rfl

/-- It does not matter which of two sessions is removed first. -/
theorem Inverse.removeSession_comm {r : SessionRegistry} (h : r.Inverse) (a b : ℕ) :
    (r.removeSession a).removeSession b = (r.removeSession b).removeSession a := by
  have hrecords : ((r.removeSession a).removeSession b).records =
      ((r.removeSession b).removeSession a).records := by
    rw [removeSession_records, removeSession_records, removeSession_records, removeSession_records,
      Dict.erase_comm]
  have husers : ((r.removeSession a).removeSession b).activeUsers =
      ((r.removeSession b).removeSession a).activeUsers := by
    refine Dict.ext fun userId => ?_
    rw [(h.removeSession a).removeSession_activeUsers,
      (h.removeSession b).removeSession_activeUsers, h.removeSession_activeUsers,
      h.removeSession_activeUsers]
    split_ifs <;> simp_all
  exact eq_of_tables hrecords husers

end SessionRegistry

namespace Server

variable {σ : Type} {s : Server σ}

/-- What the server keeps of its sessions. -/
structure Tables where
  sessions : Dict ℕ Unit
  registry : SessionRegistry
  partyService : PartyService
  guildService : GuildService
  sessionInstances : Dict ℕ ℕ
  sessionCharacters : Dict ℕ UInt64

def tables (s : Server σ) : Tables :=
  ⟨s.sessions, s.registry, s.partyService, s.guildService, s.sessionInstances, s.sessionCharacters⟩

/-- What the first loop of `tick` does with a session. -/
def visit (now : Time) : List ℕ × Server σ → ℕ → List ℕ × Server σ := fun (toRemove, s) id =>
  match s.heap[id]? with
  | none => (toRemove, s)
  | some session =>
    let (alive, session) := session.tick now
    (if alive then toRemove else toRemove ++ [id], { s with heap := s.heap.insert id session })

/-- `tick` when it visits the sessions in this order. -/
def tickIn (order : List ℕ) (s : Server σ) (now : Time) : Server σ :=
  let (toRemove, s) := order.foldl (visit now) ([], s)
  toRemove.foldl removeSession s

theorem tick_eq (s : Server σ) (now : Time) : s.tick now = s.tickIn s.sessions.keys now := rfl

section Removal

def Tables.remove (t : Tables) (id : ℕ) : Tables where
  sessions := t.sessions.erase id
  registry := t.registry.removeSession id
  partyService := (t.partyService.removeMember id).2.2
  guildService := (t.guildService.removeMember id).2.2
  sessionInstances := t.sessionInstances.erase id
  sessionCharacters := t.sessionCharacters.erase id

structure Tables.Sound (t : Tables) : Prop where
  inverse : t.registry.Inverse
  party : t.partyService.Sound
  guild : t.guildService.Sound

theorem Tables.Sound.remove {t : Tables} (h : t.Sound) (id : ℕ) : (t.remove id).Sound :=
  ⟨h.inverse.removeSession id, (PartyService.removeMember_goes (A := ∅) h.party id).1.2,
    (GuildService.removeMember_goes (A := ∅) h.guild id).1.2⟩

theorem Tables.Sound.remove_comm {t : Tables} (h : t.Sound) (a b : ℕ) :
    (t.remove a).remove b = (t.remove b).remove a := by
  unfold Tables.remove
  simp only [Tables.mk.injEq]
  exact ⟨Dict.erase_comm _ a b, h.inverse.removeSession_comm a b,
    PartyService.removeMember_comm h.party a b, GuildService.removeMember_comm h.guild a b,
    Dict.erase_comm _ a b, Dict.erase_comm _ a b⟩

theorem removeSession_tables (s : Server σ) (id : ℕ) :
    (s.removeSession id).tables = s.tables.remove id := by
  obtain ⟨heap, clock, h, -⟩ := s.removeSession_delivers id
  rw [h]
  rfl

theorem foldl_removeSession_tables (ids : List ℕ) (s : Server σ) :
    (ids.foldl removeSession s).tables = after Tables.remove s.tables ids := by
  induction ids generalizing s with
  | nil => rfl
  | cons id ids ih => rw [List.foldl_cons, ih, removeSession_tables, after_cons]

theorem mem_after_remove (ids : List ℕ) (t : Tables) (k : ℕ) :
    k ∈ (after Tables.remove t ids).sessions ↔ k ∈ t.sessions ∧ k ∉ ids := by
  induction ids generalizing t with
  | nil => simp
  | cons id ids ih =>
    rw [after_cons, ih]
    show k ∈ t.sessions.erase id ∧ _ ↔ _
    rw [Dict.mem_erase, List.mem_cons, not_or]
    exact ⟨fun h => ⟨h.1.2, Ne.symm h.1.1, h.2⟩, fun h => ⟨⟨Ne.symm h.2.1, h.1⟩, h.2.2⟩⟩

end Removal

section Visit

/-- The session is connected, and was heard from less than its timeout ago. -/
def Alive (session : Session) (now : Time) : Prop :=
  session.connected = true ∧ now - session.lastReceive < session.config.timeout

theorem tick_alive (session : Session) (now : Time) :
    (session.tick now).1 = true ↔ Alive session now := by
  unfold Session.tick Alive
  by_cases hc : session.connected = true
  · rw [hc]
    simp only [Bool.not_true, Bool.false_eq_true, if_false, true_and]
    split_ifs with hlate
    · simpa [Session.disconnect] using hlate
    · simpa [hc] using hlate
  · simp [hc]

/-- The session is over. -/
def expires (s : Server σ) (now : Time) (id : ℕ) : Bool :=
  match s.heap[id]? with
  | none => false
  | some session => !(session.tick now).1

/-- The visits find who is over, and change nothing but the sessions' connections. -/
theorem visit_eq (s : Server σ) (now : Time) :
    ∀ (order : List ℕ), order.Nodup → ∀ (toRemove : List ℕ) (t : Server σ),
      t.tables = s.tables → (∀ id ∈ order, t.heap[id]? = s.heap[id]?) →
      ∃ t' : Server σ, t'.tables = s.tables ∧
        (∀ k : ℕ, t'.heap[k]? = if k ∈ order then s.heap[k]?.map fun session =>
          (session.tick now).2 else t.heap[k]?) ∧
        order.foldl (visit now) (toRemove, t) = (toRemove ++ order.filter (s.expires now), t')
  | [], _, toRemove, t, ht, _ => ⟨t, ht, fun k => by simp, by simp⟩
  | id :: order, hnodup, toRemove, t, ht, hheap => by
    obtain ⟨hid, hnodup⟩ := List.nodup_cons.mp hnodup
    rw [List.foldl_cons, visit]
    simp only [hheap id List.mem_cons_self]
    have hrest : ∀ k ∈ order, t.heap[k]? = s.heap[k]? :=
      fun k hk => hheap k (List.mem_cons_of_mem id hk)
    rcases hsession : s.heap[id]? with _ | session
    · have hexpires : s.expires now id = false := by
        unfold expires
        rw [hsession]
      rw [List.filter_cons_of_neg (by simp [hexpires])]
      obtain ⟨t', ht', hheap', heq⟩ := visit_eq s now order hnodup toRemove t ht hrest
      refine ⟨t', ht', fun k => ?_, heq⟩
      rw [hheap' k]
      by_cases hk : k = id
      · rw [hk, if_neg hid, if_pos List.mem_cons_self, hheap id List.mem_cons_self, hsession]
        rfl
      · simp only [List.mem_cons, hk, false_or]
    · have hexpires : s.expires now id = !(session.tick now).1 := by
        unfold expires
        rw [hsession]
      have hnext := visit_eq s now order hnodup
        (if (session.tick now).1 then toRemove else toRemove ++ [id])
        { t with heap := t.heap.insert id (session.tick now).2 } ht fun k hk => ?_
      · obtain ⟨t', ht', hheap', heq⟩ := hnext
        refine ⟨t', ht', fun k => ?_, heq.trans ?_⟩
        · rw [hheap' k]
          by_cases hk : k = id
          · rw [hk, if_neg hid, if_pos List.mem_cons_self, hsession]
            exact Dict.get?_insert_self _ _ _
          · simp only [List.mem_cons, hk, false_or]
            rw [Dict.get?_insert_of_ne _ _ (Ne.symm hk)]
        · rcases halive : (session.tick now).1 with _ | _
          · rw [List.filter_cons_of_pos (by simp [hexpires, halive])]
            simp
          · rw [List.filter_cons_of_neg (by simp [hexpires, halive])]
            simp
      · have hne : id ≠ k := fun h => hid (h ▸ hk)
        show (t.heap.insert id _)[k]? = _
        rw [Dict.get?_insert_of_ne _ _ hne, hrest k hk]

theorem tickIn_tables {order : List ℕ} (h : order.Nodup) (s : Server σ) (now : Time) :
    (s.tickIn order now).tables =
      after Tables.remove s.tables (order.filter (s.expires now)) := by
  obtain ⟨t, ht, -, heq⟩ := visit_eq s now order h [] s rfl fun _ _ => rfl
  unfold tickIn
  rw [heq]
  simp only [List.nil_append]
  rw [foldl_removeSession_tables, ht]

end Visit

section Expiry

variable [InventoryStorage σ]

/-- A tick leaves those sessions that are connected and have been heard from in time, and what it
leaves of the tables does not depend on the order in which it visits the sessions. -/
theorem tick_removes (inventoryStorage : σ) (securityPolicy : SecurityPolicy)
    (tokenBytes : Draws UInt8) (seeds : Draws { n : UInt32 // n ≠ 0 }) (ticketBytes : Draws UInt8)
    (clock : Draws Time) (es : List ServerEvent) (now : Time) {order : List ℕ}
    (horder : order.Perm (after serverStep
      (Server.new inventoryStorage securityPolicy tokenBytes seeds ticketBytes clock)
      es).sessions.keys) :
    let s := after serverStep
      (Server.new inventoryStorage securityPolicy tokenBytes seeds ticketBytes clock) es
    (∀ id, id ∈ (s.tickIn order now).sessions ↔
      id ∈ s.sessions ∧ ∃ session, s.heap[id]? = some session ∧ Alive session now) ∧
    (s.tickIn order now).tables = (s.tick now).tables := by
  intro s
  have hs : Orderly s := stable (fun _ e h => h.step e) es
    (orderly_new inventoryStorage securityPolicy tokenBytes seeds ticketBytes clock)
  have hkeys : s.sessions.keys.Nodup := Std.ExtTreeMap.nodup_keys
  have hnodup : order.Nodup := horder.nodup_iff.mpr hkeys
  have hsound : s.tables.Sound := ⟨hs.inverse, hs.party, hs.guild⟩
  refine ⟨fun id => ?_, ?_⟩
  · show id ∈ (s.tickIn order now).tables.sessions ↔ _
    rw [tickIn_tables hnodup, mem_after_remove, List.mem_filter, horder.mem_iff,
      Std.ExtTreeMap.mem_keys]
    refine and_congr_right fun hid => ?_
    obtain ⟨session, hsession⟩ := (Dict.mem_iff _ _).mp (hs.known id hid)
    have hexpires : s.expires now id = true ↔ ¬ Alive session now := by
      unfold expires
      rw [hsession, ← tick_alive]
      simp
    rw [hexpires]
    constructor
    · intro h
      exact ⟨session, hsession, by_contra fun hover => h ⟨hid, hover⟩⟩
    · rintro ⟨session', hsession', halive⟩ ⟨-, hover⟩
      obtain rfl := Option.some.inj (hsession.symm.trans hsession')
      exact hover halive
  · rw [tick_eq, tickIn_tables hnodup, tickIn_tables hkeys]
    exact after_perm (I := Tables.Sound) (fun _ id h => h.remove id)
      (fun _ a b h => h.remove_comm a b) (horder.filter _) hsound

/-- A leader and a member who have been silent too long, and a third session. -/
def silent : List ServerEvent :=
  [.createSession {} 0, .createSession {} 0, .createSession {} (seconds 10),
    .party (.createParty 1 (str "u")), .party (.inviteMember 1 1 2 (str "v") 0),
    .party (.acceptInvite 1 2 0)]

theorem tick_removes_silent :
    let s := after serverStep (still {}) silent
    (∀ id, id ∈ (s.tickIn [2, 3, 1] (seconds 45)).sessions ↔
      id ∈ s.sessions ∧ ∃ session, s.heap[id]? = some session ∧ Alive session (seconds 45)) ∧
    (s.tickIn [2, 3, 1] (seconds 45)).tables = (s.tick (seconds 45)).tables :=
  tick_removes defaultStorage {} (fun _ => 0) (fun _ => ⟨1, by decide⟩) (fun _ => 0) (fun _ => 0)
    silent (seconds 45) (by decide +kernel)

example : ((after serverStep (still {}) silent).tick (seconds 45)).sessions.keys = [3] := by
  decide +kernel

end Expiry

end Server

end DungeonHub
