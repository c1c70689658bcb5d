import DungeonHub.Lib.Run
import DungeonHub.Proofs.Members

/-!
# What the members of a party know

A session that reads its events and hears who has been removed and who goes by another session,
which no event tells, knows who is in its party.
-/

namespace DungeonHub

open Run

namespace PartyService

/-- The events that a call delivers. -/
def emits (s : PartyService) : PartyCall → Events
  | .createParty leader user => (s.createParty leader user).2.1
  | .inviteMember party inviter invitee user now =>
    (s.inviteMember party inviter invitee user now).2.1
  | .acceptInvite party invitee now => (s.acceptInvite party invitee now).2.1
  | .rejectInvite party invitee => (s.rejectInvite party invitee).2.1
  | .disbandParty party requester => (s.disbandParty party requester).2.1
  | .removeMember member => (s.removeMember member).2.1
  | .expireInvites now => (s.expireInvites now).2.1
  | _ => []

/-- The roster that an event carries. -/
def Event.roster (event : Event) : Option (Finset ℕ) :=
  if event.type = .created ∨ event.type = .inviteAccepted ∨ event.type = .disbanded then
    some event.memberSessionIds.toFinset
  else none

/-- An event comes to a session: a roster takes the place of what the session knew. -/
def tell (knows : ℕ → Finset ℕ) (m : ℕ × Event) : ℕ → Finset ℕ :=
  match m.2.roster with
  | none => knows
  | some roster => Function.update knows m.1 roster

/-- A set with the old session's place taken by the new one. -/
def rename (old new : ℕ) (ks : Finset ℕ) : Finset ℕ :=
  if old ∈ ks then insert new (ks.erase old) else ks

/-- What no event tells. -/
def amend (s : PartyService) (knows : ℕ → Finset ℕ) : PartyCall → ℕ → Finset ℕ
  | .removeMember member => fun k => (knows k).erase member
  | .replaceMemberSession old new =>
    if (s.replaceMemberSession old new).1 then
      fun k => rename old new (knows (if k = new then old else k))
    else knows
  | _ => knows

/-- What the sessions know after a call of what they knew before it. -/
def learn (knows : ℕ → Finset ℕ) (x : PartyService × PartyCall) : ℕ → Finset ℕ :=
  (x.1.emits x.2).foldl tell (x.1.amend knows x.2)

/-- What the sessions know after the calls. -/
def known (s : PartyService) (calls : List PartyCall) : ℕ → Finset ℕ :=
  (trail PartyService.call s calls).foldl learn fun _ => ∅

/-- Who is in the party. -/
def crew (party : PartyRecord) : Finset ℕ := party.members.keys.toFinset

/-- The members know who is in their party. -/
def Known (s : PartyService) (knows : ℕ → Finset ℕ) : Prop :=
  s.parties.All fun _ party => ∀ k ∈ party.members, knows k = crew party

section Telling

variable {knows : ℕ → Finset ℕ} {event : Event}

theorem foldl_tell_silent :
    ∀ {events : Events}, (∀ m ∈ events, m.2.roster = none) → events.foldl tell knows = knows
  | [], _ => rfl
  | m :: events, h => by
    rw [List.forall_mem_cons] at h
    have hm : tell knows m = knows := by
      unfold tell
      rw [h.1]
    rw [List.foldl_cons, hm, foldl_tell_silent h.2]

theorem foldl_tell_map {roster : Finset ℕ} (h : event.roster = some roster) (j : ℕ) :
    ∀ (ks : List ℕ) (knows : ℕ → Finset ℕ),
      (ks.map fun k => (k, event)).foldl tell knows j = if j ∈ ks then roster else knows j
  | [], _ => by simp
  | k :: ks, knows => by
    have hk : tell knows (k, event) = Function.update knows k roster := by
      unfold tell
      simp only [h]
    rw [List.map_cons, List.foldl_cons, hk, foldl_tell_map h j ks]
    by_cases hj : j = k
    · subst hj
      simp
    · simp [hj]

/-- Events without a roster that go to a party and to one session more. -/
theorem emit_silent {s : PartyService} {party : PartyRecord} {k : ℕ} (h : event.roster = none) :
    ∀ m ∈ s.emitToParty party event ++ s.emitToInvitee k event, m.2.roster = none := by
  unfold emitToParty emitToInvitee
  split_ifs <;> simp +contextual [h, or_imp]

@[simp] theorem mem_crew {party : PartyRecord} {k : ℕ} : k ∈ crew party ↔ k ∈ party.members := by
  simp [crew]

end Telling

section Known

variable {s s' : PartyService} {knows knows' : ℕ → Finset ℕ}

theorem Known.same (h : Known s knows) (hparties : s'.parties = s.parties) : Known s' knows := by
  unfold Known
  rw [hparties]
  exact h

/-- One party changes, and its members come to know it. -/
theorem Known.put {p : ℕ} {party : PartyRecord}
    (hparties : s'.parties = s.parties.insert p party)
    (hown : ∀ k ∈ party.members, knows' k = crew party)
    (hothers : ∀ (q : ℕ) (other : PartyRecord), q ≠ p → s.parties[q]? = some other →
      ∀ k ∈ other.members, knows' k = crew other) : Known s' knows' := by
  intro q other hq
  rw [hparties, Dict.get?_insert] at hq
  split_ifs at hq with hpq
  · obtain rfl := Option.some.inj hq
    exact hown
  · exact hothers q other (Ne.symm hpq) hq

/-- Sessions in one party are in no other. -/
theorem Sound.apart (h : s.Sound) {p q : ℕ} {party other : PartyRecord} (hne : q ≠ p)
    (hp : s.parties[p]? = some party) (hq : s.parties[q]? = some other) {k : ℕ}
    (hk : k ∈ other.members) : k ∉ party.members := by
  intro hin
  have hone := (h.roster.mem_view hp).mp hin
  rw [(h.roster.mem_view hq).mp hk] at hone
  exact hne (Option.some.inj hone)

theorem createParty_known (h : s.Sound) (hsink : s.eventSink = true) (hk : Known s knows)
    (leader : ℕ) (user : Str) :
    Known (s.createParty leader user).2.2
      ((s.createParty leader user).2.1.foldl tell knows) := by
  unfold createParty
  split_ifs with hin
  · exact hk
  · simp only [emitToParty, if_pos hsink]
    refine Known.put (Dict.insertIfNew_of_not_mem _ _ h.not_mem_next) (fun k hmem => ?_)
      fun q other hne hq k hmem => ?_
    · rw [foldl_tell_map rfl, if_pos (Std.ExtTreeMap.mem_keys.mpr hmem)]
      ext j
      rw [mem_crew, Dict.mem_insert]
      simp [eq_comm]
    · rw [foldl_tell_map rfl, if_neg, hk q other hq k hmem]
      intro hleader
      refine hin ((Dict.mem_iff _ _).mpr ⟨q, (h.roster.mem_view hq).mp ?_⟩)
      rw [Std.ExtTreeMap.mem_keys, Dict.mem_insert] at hleader
      obtain rfl : leader = k := hleader.resolve_right (by simp)
      exact hmem

theorem acceptInvite_known (h : s.Sound) (hsink : s.eventSink = true) (hk : Known s knows)
    (p invitee : ℕ) (now : Time) :
    Known (s.acceptInvite p invitee now).2.2
      ((s.acceptInvite p invitee now).2.1.foldl tell knows) := by
  unfold acceptInvite
  split
  · exact hk
  rename_i party hp
  split
  · exact hk
  split
  · exact hk
  simp only []
  split_ifs with hlate hin
  · rw [foldl_tell_silent (emit_silent rfl)]
    exact hk.same rfl
  · exact hk.same rfl
  · simp only [emitToParty, if_pos hsink]
    refine Known.put rfl (fun k hmem => ?_) fun q other hne hq k hmem => ?_
    · rw [foldl_tell_map rfl, if_pos (Std.ExtTreeMap.mem_keys.mpr hmem)]
      rfl
    · rw [foldl_tell_map rfl, if_neg, hk q other hq k hmem]
      intro hnew
      rcases (Dict.mem_insertIfNew _ _ _ _).mp (Std.ExtTreeMap.mem_keys.mp hnew) with rfl | hold
      · exact hin ((Dict.mem_iff _ _).mpr ⟨q, (h.roster.mem_view hq).mp hmem⟩)
      · exact h.apart hne hp hq hmem hold

/-- A party comes to its end, and the others go on. -/
theorem disband_known (h : s.Sound) (hsink : s.eventSink = true) {p : ℕ} {party : PartyRecord}
    (hp : s.parties[p]? = some party) (actor : ℕ)
    (hothers : ∀ (q : ℕ) (other : PartyRecord), q ≠ p → s.parties[q]? = some other →
      ∀ k ∈ other.members, knows k = crew other) :
    Known (s.disband p party actor).2 ((s.disband p party actor).1.foldl tell knows) := by
  unfold disband
  simp only [emitToParty, if_pos hsink]
  intro q other hq k hmem
  rw [Dict.get?_erase] at hq
  split_ifs at hq with hne
  rw [foldl_tell_map rfl, if_neg, hothers q other (Ne.symm hne) hq k hmem]
  exact fun hin => h.apart (Ne.symm hne) hp hq hmem (Std.ExtTreeMap.mem_keys.mp hin)

theorem removeMember_known (h : s.Sound) (hsink : s.eventSink = true) (hk : Known s knows)
    (j : ℕ) :
    Known (s.removeMember j).2.2
      ((s.removeMember j).2.1.foldl tell fun k => (knows k).erase j) := by
  -- a member of another party does not know the one who goes
  have hothers : ∀ (p q : ℕ) (other : PartyRecord), s.memberIndex[j]? = some p → q ≠ p →
      s.parties[q]? = some other → ∀ k ∈ other.members, (knows k).erase j = crew other := by
    intro p q other hj hne hq k hmem
    rw [hk q other hq k hmem]
    refine Finset.erase_eq_of_notMem fun hin => hne ?_
    have hj' := (h.roster.mem_view hq).mp (mem_crew.mp hin)
    exact Option.some.inj (hj'.symm.trans hj)
  unfold removeMember
  split
  · rename_i hj
    intro q other hq k hmem
    show (knows k).erase j = crew other
    rw [hk q other hq k hmem]
    refine Finset.erase_eq_of_notMem fun hin => ?_
    have hj' := (h.roster.mem_view hq).mp (mem_crew.mp hin)
    exact absurd (hj'.symm.trans hj) (by simp)
  · rename_i p hj
    obtain ⟨party, -, hp, -⟩ := h.party_of_index hj
    rw [hp]
    simp only []
    split_ifs with hlead
    · exact disband_known h hsink hp j fun q other hne => hothers p q other hj hne
    · refine Known.put rfl (fun k hmem => ?_) fun q other hne => hothers p q other hj hne
      show (knows k).erase j = _
      rw [hk p party hp k ((Dict.mem_erase _ _ _).mp hmem).2]
      ext i
      rw [mem_crew, Dict.mem_erase, Finset.mem_erase, mem_crew, ne_comm]

theorem mem_rename {old new : ℕ} {ks : Finset ℕ} (hold : old ∈ ks) (j : ℕ) :
    j ∈ rename old new ks ↔ j = new ∨ (j ≠ old ∧ j ∈ ks) := by
  unfold rename
  rw [if_pos hold, Finset.mem_insert, Finset.mem_erase]

theorem replaceMemberSession_known (h : s.Sound) (hk : Known s knows) (old new : ℕ) :
    Known (s.replaceMemberSession old new).2
      (s.amend knows (.replaceMemberSession old new)) := by
  unfold amend
  by_cases hne : old = new
  · subst hne
    have hself : ∀ ks : Finset ℕ, rename old old ks = ks := by
      intro ks
      unfold rename
      split_ifs with hin
      · exact Finset.insert_erase hin
      · rfl
    have hsame : ∀ k, (if k = old then old else k) = k := by
      intro k
      split_ifs with hkold
      · exact hkold.symm
      · rfl
    simp only [replaceMemberSession, if_true, hself, hsame]
    exact hk
  rcases ho : s.memberIndex[old]? with _ | p
  · simp only [replaceMemberSession, if_neg hne, ho]
    exact hk
  by_cases hn : new ∈ s.memberIndex
  · simp only [replaceMemberSession, if_neg hne, ho, if_pos hn]
    exact hk
  obtain ⟨party, member, hp, hm⟩ := h.party_of_index ho
  have hold : old ∈ party.members := (Dict.mem_iff _ _).mpr ⟨member, hm⟩
  have hfresh : ∀ (q : ℕ) (other : PartyRecord), s.parties[q]? = some other →
      new ∉ other.members :=
    fun q other hq hin => hn ((Dict.mem_iff _ _).mpr ⟨q, (h.roster.mem_view hq).mp hin⟩)
  simp only [replaceMemberSession, if_neg hne, ho, if_neg hn, hp, hm, if_true]
  refine Known.put rfl (fun k hmem => ?_) fun q other hq' hq k hmem => ?_
  · -- whoever reads the events now, the party was known under its old names
    have hknew : knows (if k = new then old else k) = crew party := by
      split_ifs with hkn
      · exact hk p party hp old hold
      · rcases (Dict.mem_insertIfNew _ _ _ _).mp hmem with heq | hin
        · exact absurd heq.symm hkn
        · exact hk p party hp k ((Dict.mem_erase _ _ _).mp hin).2
    rw [hknew]
    ext j
    rw [mem_rename (mem_crew.mpr hold), mem_crew, mem_crew, Dict.mem_insertIfNew, Dict.mem_erase,
      ne_comm, eq_comm]
  · have hkn : k ≠ new := fun heq => hfresh q other hq (heq ▸ hmem)
    rw [if_neg hkn, hk q other hq k hmem]
    unfold rename
    exact if_neg fun hin => h.apart hq' hp hq (mem_crew.mp hin) hold

end Known

section Run

variable {s : PartyService} {knows : ℕ → Finset ℕ}

theorem inviteMember_known (hk : Known s knows) (p inviter invitee : ℕ) (user : Str) (now : Time) :
    Known (s.inviteMember p inviter invitee user now).2.2
      ((s.inviteMember p inviter invitee user now).2.1.foldl tell knows) := by
  unfold inviteMember
  split
  · exact hk
  simp only []
  split_ifs
  · exact hk
  · exact hk
  · rw [foldl_tell_silent (emit_silent rfl)]
    exact hk.same rfl
  · exact hk

theorem rejectInvite_known (hk : Known s knows) (p invitee : ℕ) :
    Known (s.rejectInvite p invitee).2.2 ((s.rejectInvite p invitee).2.1.foldl tell knows) := by
  unfold rejectInvite
  split
  · exact hk
  split
  · exact hk
  simp only []
  split_ifs
  · rw [foldl_tell_silent (emit_silent rfl)]
    exact hk.same rfl
  · exact hk

theorem expireInvites_silent (s : PartyService) (now : Time) :
    ∀ m ∈ (s.expireInvites now).2.1, m.2.roster = none := by
  unfold expireInvites
  refine List.foldlRecOn (motive := fun p : ℕ × Events × PartyService =>
    ∀ m ∈ p.2.1, m.2.roster = none) _ _ (by simp) ?_
  rintro ⟨count, events, s'⟩ h ⟨partyId, party⟩ -
  simp only []
  split
  · exact h
  · refine List.forall_mem_append.mpr ⟨h, fun m hm => ?_⟩
    obtain ⟨entry, -, hm⟩ := List.mem_flatMap.mp hm
    exact emit_silent rfl m hm

theorem call_known (h : s.Sound) (hsink : s.eventSink = true) (hk : Known s knows)
    (call : PartyCall) : Known (s.call call) (learn knows (s, call)) := by
  cases call with
  | createParty leader user => exact createParty_known h hsink hk leader user
  | inviteMember p inviter invitee user now => exact inviteMember_known hk p inviter invitee user now
  | acceptInvite p invitee now => exact acceptInvite_known h hsink hk p invitee now
  | rejectInvite p invitee => exact rejectInvite_known hk p invitee
  | disbandParty p requester =>
    show Known (s.disbandParty p requester).2.2 ((s.disbandParty p requester).2.1.foldl tell knows)
    unfold disbandParty
    split
    · exact hk
    · rename_i party hp
      split_ifs
      · exact hk
      · exact disband_known h hsink hp requester fun q other _ => hk q other
  | removeMember member => exact removeMember_known h hsink hk member
  | replaceMemberSession old new => exact replaceMemberSession_known h hk old new
  | expireInvites now =>
    show Known (s.expireInvites now).2.2 ((s.expireInvites now).2.1.foldl tell knows)
    rw [foldl_tell_silent (s.expireInvites_silent now)]
    exact hk.same (s.expireInvites_roster now).1
  | setEventSink sink => exact hk
  | setInviteTimeout timeout => exact hk

/-- The sink that was given stays, unless it is taken away. -/
theorem call_eventSink (hsink : s.eventSink = true) {call : PartyCall}
    (hcall : call ≠ .setEventSink false) : (s.call call).eventSink = true := by
  cases call with
  | createParty leader user =>
    show (s.createParty leader user).2.2.eventSink = true
    unfold createParty
    split_ifs <;> exact hsink
  | inviteMember p inviter invitee user now =>
    show (s.inviteMember p inviter invitee user now).2.2.eventSink = true
    unfold inviteMember
    split
    · exact hsink
    · simp only []
      split_ifs <;> exact hsink
  | acceptInvite p invitee now =>
    show (s.acceptInvite p invitee now).2.2.eventSink = true
    unfold acceptInvite
    repeat' split
    all_goals exact hsink
  | rejectInvite p invitee =>
    show (s.rejectInvite p invitee).2.2.eventSink = true
    unfold rejectInvite
    repeat' split
    all_goals exact hsink
  | disbandParty p requester =>
    show (s.disbandParty p requester).2.2.eventSink = true
    unfold disbandParty
    repeat' split
    all_goals exact hsink
  | removeMember member =>
    show (s.removeMember member).2.2.eventSink = true
    unfold removeMember
    repeat' split
    all_goals exact hsink
  | replaceMemberSession old new =>
    show (s.replaceMemberSession old new).2.eventSink = true
    unfold replaceMemberSession
    repeat' split
    all_goals exact hsink
  | expireInvites now =>
    show (s.expireInvites now).2.2.eventSink = true
    unfold expireInvites
    refine List.foldlRecOn (motive := fun p : ℕ × Events × PartyService =>
      p.2.2.eventSink = true) _ _ hsink ?_
    rintro ⟨count, events, s'⟩ h ⟨partyId, party⟩ -
    simp only []
    split <;> exact h
  | setEventSink sink =>
    cases sink with
    | true => rfl
    | false => exact absurd rfl hcall
  | setInviteTimeout timeout => exact hsink

/-- After any calls on a service whose events are read, what a member was last told, less those who
have been removed since and with the new sessions of those who have others, is its party. -/
theorem rosters_known (calls : List PartyCall) (hcalls : ∀ call ∈ calls, call ≠ .setEventSink false)
    (partyId : ℕ) (party : PartyRecord) (k : ℕ)
    (hp : (after PartyService.call { eventSink := true } calls).parties[partyId]? = some party)
    (hk : k ∈ party.members) :
    known { eventSink := true } calls k = crew party := by
  have h := recorded
    (I := fun s l => s.Sound ∧ s.eventSink = true ∧ Known s (l.foldl learn fun _ => ∅))
    (P := fun _ call => call ≠ .setEventSink false)
    (fun s l call ⟨hsound, hsink, hknown⟩ hcall => ⟨(call_goes hsound call).2,
      call_eventSink hsink hcall, by
        rw [List.foldl_append]
        exact call_known hsound hsink hknown call⟩)
    calls { eventSink := true } []
    ⟨⟨Roster.sound_empty _, Dict.all_empty, Dict.all_empty⟩, rfl, Dict.all_empty⟩
    fun x hx => hcalls x.2 (mem_of_mem_trail hx)
  exact h.2.2 partyId party hp k hk

/-- Two join a party, and one of them is removed and leaves it unannounced. -/
def removed : List PartyCall :=
  [.createParty 1 (str "a"), .inviteMember 1 1 2 (str "b") 0, .acceptInvite 1 2 0,
    .inviteMember 1 1 3 (str "c") 0, .acceptInvite 1 3 0, .removeMember 2]

theorem rosters_known_removed : known { eventSink := true } removed 3 = {1, 3} := by
  have hparty : ((after PartyService.call { eventSink := true } removed).parties[1]?.map
      fun party => (crew party, decide (3 ∈ party.members))) = some ({1, 3}, true) := by
    decide +kernel
  obtain ⟨party, hp, hparty⟩ := Option.map_eq_some_iff.mp hparty
  rw [Prod.mk.injEq, decide_eq_true_iff] at hparty
  rw [← hparty.1]
  exact rosters_known removed (by simp [removed]) 1 party 3 hp hparty.2

end Run

end PartyService

end DungeonHub
