import DungeonHub.Proofs.Invited

/-!
# Pending invites

What becomes of the invites that nobody has answered. A session that takes another's place gets its
invites if the other one was in a party, and a sweep takes away those that are too old to be
accepted.
-/

namespace DungeonHub

namespace PartyService

open Run

variable {s : PartyService} {p k old new : ℕ} {invite : PartyInvite} {now : Time}

section Passing

theorem renames_renameInvites {invites : Dict ℕ PartyInvite} (hnew : new ∉ invites) :
    Dict.Renames id old new invites (renameInvites old new invites) := by
  unfold renameInvites
  rcases hold : invites[old]? with _ | invite
  · exact Dict.renames_of_not_mem id ((Dict.not_mem_iff _ _).mpr hold) hnew
  · exact Dict.renames_erase_insertIfNew id hold hnew

/-- Nothing happens to the invites if the old session is in no party. -/
theorem replaceMemberSession_of_not_mem (hold : old ∉ s.memberIndex) :
    (s.replaceMemberSession old new).2 = s := by
  unfold replaceMemberSession
  rw [(Dict.not_mem_iff _ _).mp hold]
  split_ifs <;> rfl

theorem replaceMemberSession_invites (hs : s.Sound) (hold : old ∈ s.memberIndex)
    (hnew : new ∉ s.memberIndex) :
    (s.replaceMemberSession old new).2.invites =
      s.invites.map fun _ => renameInvites old new := by
  have hne : old ≠ new := fun heq => hnew (heq ▸ hold)
  obtain ⟨partyId, hindex⟩ := (Dict.mem_iff _ _).mp hold
  obtain ⟨party, member, hparty, hmember⟩ := hs.party_of_index hindex
  unfold replaceMemberSession
  rw [if_neg hne, hindex]
  simp only [if_neg hnew, hparty, hmember]

/-- The invites of a session in a party go to the one that takes its place. -/
theorem replaceMemberSession_passes (hs : s.Sound) (hold : old ∈ s.memberIndex)
    (hnew : new ∉ s.memberIndex) (hnone : ∀ q, s.inviteOf q new = none) (p k : ℕ) :
    (s.replaceMemberSession old new).2.inviteOf p k =
      if k = new then s.inviteOf p old else if k = old then none else s.inviteOf p k := by
  unfold inviteOf
  rw [replaceMemberSession_invites hs hold hnew, Std.ExtTreeMap.getElem?_map]
  rcases hp : s.invites[p]? with _ | invites
  · simp
  · have hnot : new ∉ invites := by
      have hempty := hnone p
      unfold inviteOf at hempty
      rw [hp] at hempty
      exact (Dict.not_mem_iff _ _).mpr hempty
    have hrenames : (renameInvites old new invites)[k]? = _ := renames_renameInvites hnot k
    rw [Option.map_id] at hrenames
    exact hrenames

/-- The other session takes over the invites, and nobody else's change. -/
def PassesInvites (s : PartyService) (old new : ℕ) (s' : PartyService) : Prop :=
  (∀ p invite, s.inviteOf p old = some invite →
    s'.inviteOf p new = some invite ∧ s'.inviteOf p old = none) ∧
  ∀ p k, k ≠ old → k ≠ new → s'.inviteOf p k = s.inviteOf p k

/-- With an invite on its way, a session passes its invites on if and only if it is in a party. -/
theorem invites_passed (calls : List PartyCall)
    (hnew : new ∉ (after PartyService.call {} calls).memberIndex)
    (hnone : ∀ q, (after PartyService.call {} calls).inviteOf q new = none)
    (hinvite : (after PartyService.call {} calls).inviteOf p old = some invite) :
    PassesInvites (after PartyService.call {} calls) old new
        ((after PartyService.call {} calls).replaceMemberSession old new).2 ↔
      old ∈ (after PartyService.call {} calls).memberIndex := by
  constructor
  · intro h
    by_contra hold
    rw [replaceMemberSession_of_not_mem hold] at h
    rw [(h.1 p invite hinvite).2] at hinvite
    cases hinvite
  · intro hold
    have hne : old ≠ new := fun heq => hnew (heq ▸ hold)
    have hpass := replaceMemberSession_passes (sound_filed_after calls).1 hold hnew hnone
    refine ⟨fun q invite' hinvite' => ⟨?_, ?_⟩, fun q k hko hkn => ?_⟩
    · rw [hpass, if_pos rfl, hinvite']
    · rw [hpass, if_neg hne, if_pos rfl]
    · rw [hpass, if_neg hkn, if_neg hko]

/-- Only party 1 has an invite, for session 2. -/
theorem inviteOf_invited {q : ℕ} (h : s.invites = (∅ : Dict ℕ (Dict ℕ PartyInvite)).insert 1
    ((∅ : Dict ℕ PartyInvite).insert 2 invite)) : s.inviteOf q 3 = none := by
  unfold inviteOf
  rw [h, Dict.get?_insert]
  split_ifs
  · exact Dict.get?_insert_of_ne _ _ (by decide)
  · rfl

/-- Session 2 is invited to party 1, and then gets a party of its own. -/
theorem invites_passed_leader :
    let s := after PartyService.call {} [.createParty 1 (str "a"),
      .inviteMember 1 1 2 (str "b") 0, .createParty 2 (str "b")]
    PassesInvites s 2 3 (s.replaceMemberSession 2 3).2 ↔ 2 ∈ s.memberIndex := by
  intro s
  exact invites_passed _ (by decide +kernel) (fun q => inviteOf_invited rfl)
    (show s.inviteOf 1 2 = some ⟨1, str "b", 0⟩ by decide +kernel)

/-- Session 2 is invited to party 1, and is in no party. -/
theorem invites_passed_lost :
    ¬∀ (calls : List PartyCall) (old new p : ℕ) (invite : PartyInvite),
      new ∉ (after PartyService.call {} calls).memberIndex →
      (∀ q, (after PartyService.call {} calls).inviteOf q new = none) →
      (after PartyService.call {} calls).inviteOf p old = some invite →
      PassesInvites (after PartyService.call {} calls) old new
        ((after PartyService.call {} calls).replaceMemberSession old new).2 := by
  intro h
  have hpasses := h [.createParty 1 (str "a"), .inviteMember 1 1 2 (str "b") 0] 2 3 1
    ⟨1, str "b", 0⟩ (by decide +kernel) (fun q => inviteOf_invited rfl) (by decide +kernel)
  have hlost := (hpasses.1 1 ⟨1, str "b", 0⟩ (by decide +kernel)).2
  revert hlost
  decide +kernel

end Passing

section Sweep

theorem mem_expired (hf : s.Filed) (now : Time) (p k : ℕ) :
    (p, k) ∈ s.expired now s.invites (s.parties.toList.map Prod.fst) ↔
      ∃ invite, s.inviteOf p k = some invite ∧ s.Late now invite := by
  unfold expired
  rw [List.mem_flatMap]
  constructor
  · rintro ⟨q, -, hq⟩
    obtain ⟨⟨k', invite⟩, hentry, heq⟩ := List.mem_map.mp hq
    cases heq
    obtain ⟨hmem, hlate⟩ := List.mem_filter.mp hentry
    rw [Dict.mem_toList, Std.ExtTreeMap.getD_eq_getD_getElem?] at hmem
    refine ⟨invite, ?_, of_decide_eq_true hlate⟩
    unfold inviteOf
    rcases hinvites : s.invites[p]? with _ | invites
    · rw [hinvites] at hmem
      simp at hmem
    · rw [hinvites] at hmem
      exact hmem
  · rintro ⟨invite, hinvite, hlate⟩
    obtain ⟨invites, hp, hk⟩ := inviteOf_eq_some.mp hinvite
    refine ⟨p, (mem_parties_iff s p).mpr (hf.invited p ((Dict.mem_iff _ _).mpr ⟨invites, hp⟩)), ?_⟩
    rw [Std.ExtTreeMap.getD_eq_getD_getElem?, hp]
    exact List.mem_map.mpr ⟨(k, invite), List.mem_filter.mpr
      ⟨(Dict.mem_toList _ _ _).mpr hk, decide_eq_true hlate⟩, rfl⟩

theorem nodup_expired (s : PartyService) (now : Time) :
    (s.expired now s.invites (s.parties.toList.map Prod.fst)).Nodup := by
  refine List.nodup_flatMap.mpr ⟨fun p _ => ?_, ?_⟩
  · have hkeys : ((s.invites.getD p ∅).toList.map Prod.fst).Nodup := by
      rw [Std.ExtTreeMap.map_fst_toList_eq_keys]
      exact Std.ExtTreeMap.nodup_keys
    have hlates : ((s.lates now (s.invites.getD p ∅)).map Prod.fst).Nodup :=
      hkeys.sublist (List.filter_sublist.map _)
    have hpairs := hlates.map (Prod.mk_right_injective p)
    rwa [List.map_map] at hpairs
  · refine (nodup_parties s).imp fun {p q} hne => ?_
    rintro ⟨r, k⟩ hp hq
    obtain ⟨_, -, heq⟩ := List.mem_map.mp hp
    obtain ⟨_, -, heq'⟩ := List.mem_map.mp hq
    exact hne ((congrArg Prod.fst heq).trans (congrArg Prod.fst heq').symm)

/-- What accepting comes to, given the invite there is. -/
def acceptance (s : PartyService) (p k : ℕ) (now : Time) :
    Option PartyInvite → Bool × Dict ℕ PartyRecord × Dict ℕ ℕ
  | none => (false, s.parties, s.memberIndex)
  | some invite =>
    match s.parties[p]? with
    | none => (false, s.parties, s.memberIndex)
    | some party =>
      if s.Late now invite ∨ k ∈ s.memberIndex then (false, s.parties, s.memberIndex)
      else (true,
        s.parties.insert p { party with
          members := party.members.insertIfNew k ⟨k, invite.inviteeUserId⟩ },
        s.memberIndex.insert k p)

theorem acceptInvite_acceptance (s : PartyService) (p k : ℕ) (now : Time) :
    ((s.acceptInvite p k now).1, (s.acceptInvite p k now).2.2.parties,
      (s.acceptInvite p k now).2.2.memberIndex) = s.acceptance p k now (s.inviteOf p k) := by
  unfold acceptInvite inviteOf
  rcases hp : s.parties[p]? with _ | party
  · rcases s.invites[p]?.bind (fun invites => invites[k]?) with _ | invite
    · rfl
    · simp only [acceptance, hp]
  rcases s.invites[p]? with _ | invites
  · rfl
  rcases hk : invites[k]? with _ | invite
  · simp only [Option.bind_some, hk, acceptance]
  · simp only [Option.bind_some, hk, acceptance, hp]
    unfold Late
    by_cases hlate : now - invite.sentAt > s.inviteTimeout
    · rw [if_pos hlate, if_pos (.inl hlate)]
    · by_cases hindex : k ∈ s.memberIndex
      · rw [if_neg hlate, if_pos hindex, if_pos (.inr hindex)]
      · rw [if_neg hlate, if_neg hindex, if_neg (by tauto)]

theorem acceptance_congr {s' : PartyService} (hparties : s'.parties = s.parties)
    (hindex : s'.memberIndex = s.memberIndex) (htimeout : s'.inviteTimeout = s.inviteTimeout) :
    s'.acceptance p k now = s.acceptance p k now := by
  cases s
  cases s'
  simp only at hparties hindex htimeout
  subst hparties hindex htimeout
  rfl

/-- An invite that is too old is as good as none. -/
theorem acceptance_filter (s : PartyService) (p k : ℕ) (now : Time) (invite? : Option PartyInvite) :
    s.acceptance p k now (invite?.filter fun invite => ¬s.Late now invite) =
      s.acceptance p k now invite? := by
  rcases invite? with _ | invite
  · rfl
  · rw [Option.filter_some]
    by_cases hlate : s.Late now invite
    · rw [if_neg (by simp [hlate])]
      rcases hp : s.parties[p]? with _ | party
      · simp only [acceptance, hp]
      · simp only [acceptance, hp, if_pos (Or.inl hlate)]
    · rw [if_pos (by simp [hlate])]

/-- After any calls, a sweep takes away just the invites that are too old, counts them and touches
nothing else, and what comes of accepting an invite is the same after it as before it. -/
theorem expiry_agrees (calls : List PartyCall) (now : Time) :
    let s := after PartyService.call {} calls
    let swept := (s.expireInvites now).2.2
    (∀ p k, swept.inviteOf p k = (s.inviteOf p k).filter fun invite =>
      ¬now - invite.sentAt > s.inviteTimeout) ∧
    (∃ gone : Finset (ℕ × ℕ), (s.expireInvites now).1 = gone.card ∧
      ∀ p k, (p, k) ∈ gone ↔
        ∃ invite, s.inviteOf p k = some invite ∧ now - invite.sentAt > s.inviteTimeout) ∧
    swept.parties = s.parties ∧ swept.memberIndex = s.memberIndex ∧
    ∀ p k, (swept.acceptInvite p k now).1 = (s.acceptInvite p k now).1 ∧
      (swept.acceptInvite p k now).2.2.parties = (s.acceptInvite p k now).2.2.parties ∧
      (swept.acceptInvite p k now).2.2.memberIndex = (s.acceptInvite p k now).2.2.memberIndex := by
  intro s swept
  have hf : s.Filed := (sound_filed_after calls).2
  obtain ⟨hparties, hindex, -⟩ := s.expireInvites_roster now
  have htimeout := s.expireInvites_timeout now
  refine ⟨expireInvites_filter hf now,
    ⟨(s.expired now s.invites (s.parties.toList.map Prod.fst)).toFinset, ?_, ?_⟩,
    hparties, hindex, fun p k => ?_⟩
  · have hcount := congrArg Prod.fst (expireInvites_sweep s now)
    simp only [] at hcount
    rw [hcount, (foldl_sweep s now _ (0, s.invites) (nodup_parties s)).1,
      List.toFinset_card_of_nodup (nodup_expired s now), Nat.zero_add]
  · intro p k
    rw [List.mem_toFinset]
    exact mem_expired hf now p k
  · have hsame : swept.acceptance p k now (swept.inviteOf p k) =
        s.acceptance p k now (s.inviteOf p k) := by
      rw [expireInvites_filter hf, acceptance_congr hparties hindex htimeout, acceptance_filter]
    rw [← acceptInvite_acceptance, ← acceptInvite_acceptance, Prod.mk.injEq, Prod.mk.injEq]
      at hsame
    exact hsame

end Sweep

end PartyService

end DungeonHub
