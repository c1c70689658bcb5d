import DungeonHub.Lib.Run
import DungeonHub.Proofs.Members

/-!
# The maps of the party service

Parties, index and invites agree in every state that the service's calls lead to: the roster is
sound, each party is filed under its own id, and only parties that are there have invites.
-/

namespace DungeonHub

namespace PartyService

open Run

/-- What the maps of the service say of each other. -/
structure Agrees (s : PartyService) : Prop where
  index_iff : ∀ k partyId, s.memberIndex[k]? = some partyId ↔
    ∃ party : PartyRecord, s.parties[partyId]? = some party ∧ k ∈ party.members
  keyed : s.parties.All fun partyId party => party.id = partyId ∧ partyId < s.nextPartyId
  named : s.parties.All fun _ party => party.members.All fun k member => member.sessionId = k
  led : s.parties.All fun _ party => party.leaderSessionId ∈ party.members
  invited : ∀ partyId ∈ s.invites, partyId ∈ s.parties

/-- Parties are filed under their ids, and invites under parties. -/
structure Filed (s : PartyService) : Prop where
  keyed : s.parties.All fun partyId party => party.id = partyId
  invited : ∀ partyId ∈ s.invites, partyId ∈ s.parties

variable {s s' : PartyService}

theorem Sound.agrees (h : s.Sound) (hf : s.Filed) : s.Agrees where
  index_iff k partyId := by
    constructor
    · intro hk
      obtain ⟨party, hp, hm⟩ := h.roster.record_of_index hk
      exact ⟨party, hp, hm⟩
    · rintro ⟨party, hp, hm⟩
      exact (h.roster.mem_view hp).mp hm
  keyed partyId party hp := ⟨hf.keyed partyId party hp, h.below partyId party hp⟩
  named := h.named
  led _ _ hp := h.roster.leader_view hp
  invited := hf.invited

/-- Calls about invites file nothing for parties that are not there. -/
theorem Filed.same (h : s.Filed) (hparties : s'.parties = s.parties)
    (hinvites : ∀ partyId ∈ s'.invites, partyId ∈ s.invites ∨ partyId ∈ s.parties) :
    s'.Filed := by
  refine ⟨?_, fun partyId hi => ?_⟩
  · rw [hparties]
    exact h.keyed
  · rw [hparties]
    rcases hinvites partyId hi with hi | hp
    · exact h.invited partyId hi
    · exact hp

/-- A party changes under its own id, and the invites stay with the parties. -/
theorem Filed.put (h : s.Filed) {partyId : ℕ} {party party' : PartyRecord}
    (hp : s.parties[partyId]? = some party) (hid : party'.id = party.id)
    (hparties : s'.parties = s.parties.insert partyId party')
    (hinvites : ∀ p ∈ s'.invites, p ∈ s.invites ∨ p ∈ s.parties) : s'.Filed := by
  refine ⟨?_, fun p hi => ?_⟩
  · rw [hparties]
    exact h.keyed.insert (hid.trans (h.keyed _ _ hp))
  · rw [hparties, Dict.mem_insert]
    rcases hinvites p hi with hi | hm
    · exact .inr (h.invited p hi)
    · exact .inr hm

/-- The invites of a party that is there change. -/
theorem mem_insert_invites {partyId p : ℕ} {party : PartyRecord}
    (hp : s.parties[partyId]? = some party) {left : Dict ℕ PartyInvite}
    (hi : p ∈ s.invites.insert partyId left) : p ∈ s.invites ∨ p ∈ s.parties := by
  rcases (Dict.mem_insert _ _ _ _).mp hi with rfl | hi
  · exact .inr ((Dict.mem_iff _ _).mpr ⟨party, hp⟩)
  · exact .inl hi

theorem createParty_filed (h : s.Filed) (leader : ℕ) (user : Str) :
    (s.createParty leader user).2.2.Filed := by
  unfold createParty
  split_ifs
  · exact h
  · refine ⟨h.keyed.insertIfNew rfl, fun partyId hi => ?_⟩
    exact (Dict.mem_insertIfNew _ _ _ _).mpr (.inr (h.invited partyId hi))

theorem inviteMember_filed (h : s.Filed) (partyId inviter invitee : ℕ) (user : Str) (now : Time) :
    (s.inviteMember partyId inviter invitee user now).2.2.Filed := by
  unfold inviteMember
  split
  · exact h
  · rename_i party hp
    simp only []
    split_ifs with hin hindex hinvited
    · exact h
    · exact h
    · exact h.same rfl fun p hi => mem_insert_invites hp hi
    · exact h

theorem acceptInvite_filed (h : s.Filed) (partyId invitee : ℕ) (now : Time) :
    (s.acceptInvite partyId invitee now).2.2.Filed := by
  unfold acceptInvite
  split
  · exact h
  · rename_i party hp
    split
    · exact h
    · split
      · exact h
      · simp only []
        split_ifs
        · exact h.same rfl fun p hi => mem_insert_invites hp hi
        · exact h.same rfl fun p hi => mem_insert_invites hp hi
        · refine h.put hp ?_ rfl fun p hi => mem_insert_invites hp hi
          rfl

theorem rejectInvite_filed (h : s.Filed) (partyId invitee : ℕ) :
    (s.rejectInvite partyId invitee).2.2.Filed := by
  unfold rejectInvite
  split
  · exact h
  · rename_i party hp
    split
    · exact h
    · split_ifs
      · exact h.same rfl fun p hi => mem_insert_invites hp hi
      · exact h

/-- A party's invites go with it. -/
theorem disband_filed (h : s.Filed) (partyId : ℕ) (party : PartyRecord) (actor : ℕ) :
    (s.disband partyId party actor).2.Filed := by
  unfold disband
  refine ⟨h.keyed.erase partyId, fun p hi => ?_⟩
  obtain ⟨hne, hi⟩ := (Dict.mem_erase _ _ _).mp hi
  exact (Dict.mem_erase _ _ _).mpr ⟨hne, h.invited p hi⟩

theorem disbandParty_filed (h : s.Filed) (partyId requester : ℕ) :
    (s.disbandParty partyId requester).2.2.Filed := by
  unfold disbandParty
  split
  · exact h
  · split_ifs
    · exact h
    · exact disband_filed h _ _ _

theorem removeMember_filed (h : s.Filed) (k : ℕ) : (s.removeMember k).2.2.Filed := by
  unfold removeMember
  split
  · exact h
  · split
    · exact h.same rfl fun p hi => .inl hi
    · rename_i party hp
      split_ifs
      · exact disband_filed h _ _ _
      · refine h.put hp ?_ rfl fun p hi => .inl (Std.ExtTreeMap.mem_modify.mp hi)
        rfl

theorem replaceMemberSession_filed (h : s.Filed) (old new : ℕ) :
    (s.replaceMemberSession old new).2.Filed := by
  unfold replaceMemberSession
  by_cases hne : old = new
  · rw [if_pos hne]
    exact h
  rw [if_neg hne]
  split
  · exact h
  by_cases hn : new ∈ s.memberIndex
  · rw [if_pos hn]
    exact h
  rw [if_neg hn]
  split
  · exact h
  · rename_i party hp
    split
    · exact h
    · refine h.put hp ?_ rfl fun p hi => .inl (Std.ExtTreeMap.mem_map.mp hi)
      rfl

theorem expireInvites_filed (h : s.Filed) (now : Time) : (s.expireInvites now).2.2.Filed := by
  refine h.same (s.expireInvites_roster now).1 ?_
  -- the loop files invites only under the keys it finds
  unfold expireInvites
  refine List.foldlRecOn (motive := fun p : ℕ × Events × PartyService =>
    ∀ partyId ∈ p.2.2.invites, partyId ∈ s.invites ∨ partyId ∈ s.parties) _ _
    (fun partyId hi => .inl hi) ?_
  rintro ⟨count, events, s'⟩ hs ⟨partyId, party⟩ hmem p hi
  simp only [] at hi
  split at hi
  · exact hs p hi
  · rcases (Dict.mem_insert _ _ _ _).mp hi with rfl | hi
    · exact .inr ((Dict.mem_iff _ _).mpr ⟨party, (Dict.mem_toList _ _ _).mp hmem⟩)
    · exact hs p hi

theorem call_filed (h : s.Filed) (call : PartyCall) : (s.call call).Filed := by
  cases call with
  | createParty leader user => exact createParty_filed h leader user
  | inviteMember party inviter invitee user now =>
    exact inviteMember_filed h party inviter invitee user now
  | acceptInvite party invitee now => exact acceptInvite_filed h party invitee now
  | rejectInvite party invitee => exact rejectInvite_filed h party invitee
  | disbandParty party requester => exact disbandParty_filed h party requester
  | removeMember member => exact removeMember_filed h member
  | replaceMemberSession old new => exact replaceMemberSession_filed h old new
  | expireInvites now => exact expireInvites_filed h now
  | setEventSink sink => exact h.same rfl fun p hi => .inl hi
  | setInviteTimeout timeout => exact h.same rfl fun p hi => .inl hi

/-- Ids of parties are counted up, from 1. -/
structure Counted (s : PartyService) : Prop where
  one_le : 1 ≤ s.nextPartyId
  positive : ∀ partyId ∈ s.parties, 1 ≤ partyId

/-- What a call does to the ids of parties: one that is new is the next one. -/
structure Numbers (s s' : PartyService) : Prop where
  next : s.nextPartyId ≤ s'.nextPartyId
  parties : ∀ p ∈ s'.parties, p ∈ s.parties ∨ p = s.nextPartyId

theorem Counted.numbers (h : s.Counted) (hn : s.Numbers s') : s'.Counted := by
  refine ⟨h.one_le.trans hn.next, fun p hp => ?_⟩
  rcases hn.parties p hp with hp | rfl
  · exact h.positive p hp
  · exact h.one_le

theorem numbers_same (hparties : ∀ p ∈ s'.parties, p ∈ s.parties)
    (hnext : s'.nextPartyId = s.nextPartyId) : s.Numbers s' :=
  ⟨hnext.ge, fun p hp => .inl (hparties p hp)⟩

theorem numbers_put {partyId : ℕ} {party party' : PartyRecord}
    (hp : s.parties[partyId]? = some party)
    (hparties : s'.parties = s.parties.insert partyId party')
    (hnext : s'.nextPartyId = s.nextPartyId) : s.Numbers s' := by
  refine numbers_same (fun p hmem => ?_) hnext
  rw [hparties] at hmem
  rcases (Dict.mem_insert _ _ _ _).mp hmem with rfl | hmem
  · exact (Dict.mem_iff _ _).mpr ⟨party, hp⟩
  · exact hmem

theorem disband_numbers (s : PartyService) (partyId : ℕ) (party : PartyRecord) (actor : ℕ) :
    s.Numbers (s.disband partyId party actor).2 :=
  numbers_same (fun _ hp => Std.ExtTreeMap.mem_of_mem_erase hp) rfl

theorem removeMember_numbers (s : PartyService) (k : ℕ) : s.Numbers (s.removeMember k).2.2 := by
  unfold removeMember
  split
  · exact numbers_same (fun _ hp => hp) rfl
  · split
    · exact numbers_same (fun _ hp => hp) rfl
    · rename_i party hp
      split_ifs
      · exact disband_numbers s _ _ _
      · exact numbers_put hp rfl rfl

theorem replaceMemberSession_numbers (s : PartyService) (old new : ℕ) :
    s.Numbers (s.replaceMemberSession old new).2 := by
  have hsame : s.Numbers s := numbers_same (fun _ hp => hp) rfl
  unfold replaceMemberSession
  by_cases hne : old = new
  · rw [if_pos hne]
    exact hsame
  rw [if_neg hne]
  split
  · exact hsame
  by_cases hn : new ∈ s.memberIndex
  · rw [if_pos hn]
    exact hsame
  rw [if_neg hn]
  split
  · exact hsame
  · rename_i party hp
    split
    · exact hsame
    · exact numbers_put hp rfl rfl

theorem call_numbers (s : PartyService) (call : PartyCall) : s.Numbers (s.call call) := by
  have hsame : s.Numbers s := numbers_same (fun _ hp => hp) rfl
  cases call with
  | createParty leader user =>
    show s.Numbers (s.createParty leader user).2.2
    unfold createParty
    split_ifs
    · exact hsame
    · refine ⟨Nat.le_succ _, fun p hp => ?_⟩
      rcases (Dict.mem_insertIfNew _ _ _ _).mp hp with rfl | hp
      · exact .inr rfl
      · exact .inl hp
  | inviteMember partyId inviter invitee user now =>
    show s.Numbers (s.inviteMember partyId inviter invitee user now).2.2
    unfold inviteMember
    split
    · exact hsame
    · simp only []
      split_ifs <;> exact numbers_same (fun _ hp => hp) rfl
  | acceptInvite partyId invitee now =>
    show s.Numbers (s.acceptInvite partyId invitee now).2.2
    unfold acceptInvite
    split
    · exact hsame
    · rename_i party hp
      split
      · exact hsame
      · split
        · exact hsame
        · simp only []
          split_ifs
          · exact numbers_same (fun _ hp => hp) rfl
          · exact numbers_same (fun _ hp => hp) rfl
          · exact numbers_put hp rfl rfl
  | rejectInvite partyId invitee =>
    show s.Numbers (s.rejectInvite partyId invitee).2.2
    unfold rejectInvite
    split
    · exact hsame
    · split
      · exact hsame
      · split_ifs <;> exact numbers_same (fun _ hp => hp) rfl
  | disbandParty partyId requester =>
    show s.Numbers (s.disbandParty partyId requester).2.2
    unfold disbandParty
    split
    · exact hsame
    · split_ifs
      · exact hsame
      · exact disband_numbers s _ _ _
  | removeMember member => exact removeMember_numbers s member
  | replaceMemberSession old new => exact replaceMemberSession_numbers s old new
  | expireInvites now =>
    obtain ⟨hparties, -, hnext⟩ := s.expireInvites_roster now
    exact numbers_same (fun _ hp => hparties ▸ hp) hnext
  | setEventSink sink => exact numbers_same (fun _ hp => hp) rfl
  | setInviteTimeout timeout => exact numbers_same (fun _ hp => hp) rfl

theorem call_counted (h : s.Counted) (call : PartyCall) : (s.call call).Counted :=
  h.numbers (call_numbers s call)

theorem sound_new : ({} : PartyService).Sound :=
  ⟨Roster.sound_empty _, Dict.all_empty, Dict.all_empty⟩

theorem filed_new : ({} : PartyService).Filed :=
  ⟨Dict.all_empty, fun partyId hi => absurd hi (by simp)⟩

theorem sound_filed_after (calls : List PartyCall) :
    (after PartyService.call {} calls).Sound ∧ (after PartyService.call {} calls).Filed :=
  stable (I := fun s : PartyService => s.Sound ∧ s.Filed)
    (fun _ call hs => ⟨(call_goes hs.1 call).2, call_filed hs.2 call⟩) calls ⟨sound_new, filed_new⟩

theorem agrees_after (calls : List PartyCall) : (after PartyService.call {} calls).Agrees :=
  (sound_filed_after calls).1.agrees (sound_filed_after calls).2

/-- After any calls the maps agree; so nobody is in two parties, and each party has members. -/
theorem maps_agree (calls : List PartyCall) :
    (after PartyService.call {} calls).Agrees ∧
      (∀ (k p p' : ℕ) (party party' : PartyRecord),
        (after PartyService.call {} calls).parties[p]? = some party →
        (after PartyService.call {} calls).parties[p']? = some party' →
        k ∈ party.members → k ∈ party'.members → p = p') ∧
      ∀ (p : ℕ) (party : PartyRecord), (after PartyService.call {} calls).parties[p]? = some party →
        ∃ leader, party.members[party.leaderSessionId]? = some leader ∧
          leader.sessionId = party.leaderSessionId := by
  have hagrees := agrees_after calls
  refine ⟨hagrees, ?_, ?_⟩
  · intro k p p' party party' hp hp' hk hk'
    have hi := (hagrees.index_iff k p).mpr ⟨party, hp, hk⟩
    rw [(hagrees.index_iff k p').mpr ⟨party', hp', hk'⟩] at hi
    exact (Option.some.inj hi).symm
  · intro p party hp
    obtain ⟨leader, hleader⟩ := (Dict.mem_iff _ _).mp (hagrees.led p party hp)
    exact ⟨leader, hleader, hagrees.named p party hp _ leader hleader⟩

/-- A party's members are listed once each. -/
theorem getPartyInfo_nodup (h : s.Sound) {partyId : ℕ} {info : PartyInfo}
    (hinfo : s.getPartyInfo partyId = some info) :
    (info.members.map PartyMember.sessionId).Nodup := by
  obtain ⟨party, hp, rfl⟩ := Option.map_eq_some_iff.mp hinfo
  have hnamed : party.members.elems.map PartyMember.sessionId =
      party.members.toList.map Prod.fst := by
    unfold Dict.elems
    rw [List.map_map]
    refine List.map_congr_left fun entry hentry => ?_
    exact h.named partyId party hp entry.1 entry.2 ((Dict.mem_toList _ _ _).mp hentry)
  rw [((List.perm_insertionSort _ _).map _).nodup_iff, hnamed, List.nodup_iff_pairwise_ne,
    List.pairwise_map]
  exact Std.ExtTreeMap.distinct_keys_toList.imp fun hab hfst => hab (by simp [hfst])

end PartyService

end DungeonHub
