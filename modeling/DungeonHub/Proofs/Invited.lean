import DungeonHub.Proofs.Parties

/-!
# Nobody joins a party uninvited

A member of a party has created it, or has accepted an invite of a member while it was good, or has
taken the place of such a session. An invite is good until it is answered or has expired, its party
is gone, or another session has got it.
-/

namespace DungeonHub

namespace PartyService

open Run

variable {s : PartyService} {call : PartyCall} {p k old : ℕ} {invite : PartyInvite}

/-- The invite of a session to a party, if it has one. -/
def inviteOf (s : PartyService) (p k : ℕ) : Option PartyInvite :=
  s.invites[p]?.bind fun invites => invites[k]?

/-- The calls of a run so far, each with the service it finds. -/
abbrev History := List (PartyService × PartyCall)

/-- Another session takes the session's place. -/
def Yields (s : PartyService) (call : PartyCall) (k : ℕ) : Prop :=
  ∃ new, call = .replaceMemberSession k new ∧ k ≠ new ∧ (s.replaceMemberSession k new).1 = true

/-- The invite is answered or has expired, its party is gone, or another session has got it. -/
def Ends (s : PartyService) (call : PartyCall) (p k : ℕ) (invite : PartyInvite) : Prop :=
  (∃ now, call = .acceptInvite p k now) ∨ call = .rejectInvite p k ∨
    (∃ now, call = .expireInvites now ∧ s.inviteTimeout < now - invite.sentAt) ∨
    p ∉ (s.call call).parties ∨ s.Yields call k

/-- In this history the session has got the invite to the party, from one of its members or from a
session it took the place of, and the invite has not ended since. -/
inductive Invited : History → ℕ → ℕ → PartyInvite → Prop where
  | sent {history : History} {s : PartyService} {p inviter k : ℕ} {user : Str} {now : Time}
      {party : PartyRecord} (member : s.parties[p]? = some party ∧ inviter ∈ party.members)
      (done : (s.inviteMember p inviter k user now).1 = true) :
      Invited (history ++ [(s, .inviteMember p inviter k user now)]) p k ⟨inviter, user, now⟩
  | passed {history : History} {s : PartyService} {p old k : ℕ} {invite : PartyInvite}
      (before : Invited history p old invite)
      (done : old ≠ k ∧ (s.replaceMemberSession old k).1 = true) :
      Invited (history ++ [(s, .replaceMemberSession old k)]) p k invite
  | kept {history : History} {s : PartyService} {call : PartyCall} {p k : ℕ} {invite : PartyInvite}
      (before : Invited history p k invite) (good : ¬ s.Ends call p k invite) :
      Invited (history ++ [(s, call)]) p k invite

/-- The session is removed or yields its place, or its party is gone. -/
def Leaves (s : PartyService) (call : PartyCall) (p k : ℕ) : Prop :=
  call = .removeMember k ∨ p ∉ (s.call call).parties ∨ s.Yields call k

/-- In this history the session has created the party, accepted an invite no older than the timeout,
or taken the place of a session for which this is true, and has not left since. -/
inductive Admitted : History → ℕ → ℕ → Prop where
  | created {history : History} {s : PartyService} {p k : ℕ} {user : Str}
      (done : (s.createParty k user).1 = some p) :
      Admitted (history ++ [(s, .createParty k user)]) p k
  | accepted {history : History} {s : PartyService} {p k : ℕ} {invite : PartyInvite} {now : Time}
      (before : Invited history p k invite) (age : now - invite.sentAt ≤ s.inviteTimeout)
      (done : (s.acceptInvite p k now).1 = true) :
      Admitted (history ++ [(s, .acceptInvite p k now)]) p k
  | replaced {history : History} {s : PartyService} {p old k : ℕ}
      (before : Admitted history p old)
      (done : old ≠ k ∧ (s.replaceMemberSession old k).1 = true) :
      Admitted (history ++ [(s, .replaceMemberSession old k)]) p k
  | stayed {history : History} {s : PartyService} {call : PartyCall} {p k : ℕ}
      (before : Admitted history p k) (there : ¬ s.Leaves call p k) :
      Admitted (history ++ [(s, call)]) p k

section Sweep

/-- The invite is too old to be accepted. -/
def Late (s : PartyService) (now : Time) (invite : PartyInvite) : Prop :=
  now - invite.sentAt > s.inviteTimeout

instance (s : PartyService) (now : Time) : DecidablePred (s.Late now) :=
  fun _ => inferInstanceAs (Decidable (_ > _))

/-- The entries of a party's invites that are too old. -/
def lates (s : PartyService) (now : Time) (invites : Dict ℕ PartyInvite) :
    List (ℕ × PartyInvite) :=
  invites.toList.filter fun entry => s.Late now entry.2

/-- A party's invites without those. -/
def unexpired (s : PartyService) (now : Time) (invites : Dict ℕ PartyInvite) :
    Dict ℕ PartyInvite :=
  invites.eraseAll ((s.lates now invites).map Prod.fst)

theorem get?_unexpired (s : PartyService) (now : Time) (invites : Dict ℕ PartyInvite) (k : ℕ) :
    (s.unexpired now invites)[k]? = invites[k]?.filter fun invite => ¬s.Late now invite := by
  have hmem : k ∈ (s.lates now invites).map Prod.fst ↔
      ∃ invite, invites[k]? = some invite ∧ s.Late now invite := by
    simp [lates]
  unfold unexpired
  rw [Dict.get?_eraseAll]
  rcases hk : invites[k]? with _ | invite
  · rw [hk] at hmem
    simp
  · rw [hk] at hmem
    by_cases hlate : s.Late now invite
    · rw [if_pos (hmem.mpr ⟨invite, rfl, hlate⟩), Option.filter_some, if_neg (by simp [hlate])]
    · rw [if_neg, Option.filter_some, if_pos (by simp [hlate])]
      rintro hin
      obtain ⟨invite', heq, hlate'⟩ := hmem.mp hin
      cases heq
      exact hlate hlate'

/-- A turn of the loop, as far as the count and the invites go. -/
def sweep (s : PartyService) (now : Time) (acc : ℕ × Dict ℕ (Dict ℕ PartyInvite)) (p : ℕ) :
    ℕ × Dict ℕ (Dict ℕ PartyInvite) :=
  match acc.2[p]? with
  | none => acc
  | some invites =>
    (acc.1 + (s.lates now invites).length, acc.2.insert p (s.unexpired now invites))

theorem expireInvites_sweep (s : PartyService) (now : Time) :
    ((s.expireInvites now).1, (s.expireInvites now).2.2.invites) =
      (s.parties.toList.map Prod.fst).foldl (s.sweep now) (0, s.invites) := by
  rw [List.foldl_map]
  unfold expireInvites
  refine (List.foldl_hom (fun acc : ℕ × Events × PartyService => (acc.1, acc.2.2.invites)) ?_).symm
  rintro ⟨count, events, s'⟩ ⟨p, party⟩
  unfold sweep
  rcases hp : s'.invites[p]? with _ | invites
  · simp only [hp]
  · simp only [hp]
    rfl

theorem expireInvites_timeout (s : PartyService) (now : Time) :
    (s.expireInvites now).2.2.inviteTimeout = s.inviteTimeout := by
  unfold expireInvites
  refine List.foldlRecOn (motive := fun acc : ℕ × Events × PartyService =>
    acc.2.2.inviteTimeout = s.inviteTimeout) _ _ rfl ?_
  rintro ⟨count, events, s'⟩ h ⟨p, party⟩ -
  simp only []
  split <;> exact h

theorem sweep_invites (s : PartyService) (now : Time) (acc : ℕ × Dict ℕ (Dict ℕ PartyInvite))
    (q p : ℕ) : (s.sweep now acc q).2[p]? =
      if p = q then acc.2[p]?.map (s.unexpired now) else acc.2[p]? := by
  unfold sweep
  rcases hq : acc.2[q]? with _ | invites
  · simp only []
    split_ifs with h
    · rw [h, hq]
      rfl
    · rfl
  · simp only []
    rw [Dict.get?_insert]
    by_cases h : q = p
    · rw [if_pos h, if_pos h.symm, ← h, hq]
      rfl
    · rw [if_neg h, if_neg (Ne.symm h)]

/-- Which invites of the parties are too old. -/
def expired (s : PartyService) (now : Time) (invites : Dict ℕ (Dict ℕ PartyInvite))
    (ps : List ℕ) : List (ℕ × ℕ) :=
  ps.flatMap fun p => (s.lates now (invites.getD p ∅)).map fun entry => (p, entry.1)

theorem sweep_count (s : PartyService) (now : Time) (acc : ℕ × Dict ℕ (Dict ℕ PartyInvite))
    (q : ℕ) : (s.sweep now acc q).1 = acc.1 + (s.lates now (acc.2.getD q ∅)).length := by
  unfold sweep
  rw [Std.ExtTreeMap.getD_eq_getD_getElem?]
  rcases hq : acc.2[q]? with _ | invites
  · simp [lates, Dict.toList_empty]
  · rfl

/-- A round of turns for different parties clears the invites of each, and counts what goes. -/
theorem foldl_sweep (s : PartyService) (now : Time) :
    ∀ (ps : List ℕ) (acc : ℕ × Dict ℕ (Dict ℕ PartyInvite)), ps.Nodup →
      (ps.foldl (s.sweep now) acc).1 = acc.1 + (s.expired now acc.2 ps).length ∧
      ∀ p, (ps.foldl (s.sweep now) acc).2[p]? =
        if p ∈ ps then acc.2[p]?.map (s.unexpired now) else acc.2[p]?
  | [], acc, _ => by simp [expired]
  | q :: ps, acc, hnodup => by
    rw [List.nodup_cons] at hnodup
    obtain ⟨hcount, hinvites⟩ := foldl_sweep s now ps (s.sweep now acc q) hnodup.2
    have hother : ∀ p ∈ ps, (s.sweep now acc q).2[p]? = acc.2[p]? := by
      intro p hp
      rw [sweep_invites, if_neg]
      rintro rfl
      exact hnodup.1 hp
    have hrest : s.expired now (s.sweep now acc q).2 ps = s.expired now acc.2 ps := by
      refine List.flatMap_congr fun p hp => ?_
      rw [Std.ExtTreeMap.getD_eq_getD_getElem?, Std.ExtTreeMap.getD_eq_getD_getElem?, hother p hp]
    refine ⟨?_, fun p => ?_⟩
    · rw [List.foldl_cons, hcount, hrest, sweep_count]
      simp only [expired, List.flatMap_cons, List.length_append, List.length_map]
      omega
    · rw [List.foldl_cons, hinvites]
      by_cases hp : p ∈ ps
      · rw [if_pos hp, if_pos (List.mem_cons_of_mem q hp), hother p hp]
      · rw [if_neg hp, sweep_invites]
        simp only [List.mem_cons, hp, or_false]

theorem mem_parties_iff (s : PartyService) (p : ℕ) :
    p ∈ s.parties.toList.map Prod.fst ↔ p ∈ s.parties := by
  rw [Std.ExtTreeMap.map_fst_toList_eq_keys, Std.ExtTreeMap.mem_keys]

theorem nodup_parties (s : PartyService) : (s.parties.toList.map Prod.fst).Nodup := by
  rw [Std.ExtTreeMap.map_fst_toList_eq_keys]
  exact Std.ExtTreeMap.nodup_keys

/-- A sweep leaves the invites that are not too old. -/
theorem expireInvites_filter (hf : s.Filed) (now : Time) (p k : ℕ) :
    (s.expireInvites now).2.2.inviteOf p k =
      (s.inviteOf p k).filter fun invite => ¬s.Late now invite := by
  have hsweep : (s.expireInvites now).2.2.invites = _ :=
    congrArg Prod.snd (expireInvites_sweep s now)
  have hinvites := (foldl_sweep s now _ (0, s.invites) (nodup_parties s)).2 p
  unfold inviteOf
  rw [hsweep, hinvites]
  rcases hp : s.invites[p]? with _ | invites
  · split_ifs <;> rfl
  · have hparty := hf.invited p ((Dict.mem_iff _ _).mpr ⟨invites, hp⟩)
    rw [if_pos ((mem_parties_iff s p).mpr hparty)]
    exact get?_unexpired s now invites k

end Sweep

section Invites

theorem inviteOf_congr {s' : PartyService} (h : s'.invites = s.invites) :
    s'.inviteOf p k = s.inviteOf p k := by
  unfold inviteOf
  rw [h]

theorem inviteOf_eq_some :
    s.inviteOf p k = some invite ↔ ∃ invites, s.invites[p]? = some invites ∧
      invites[k]? = some invite := Option.bind_eq_some_iff

theorem mem_invites_of_inviteOf (h : s.inviteOf p k = some invite) : p ∈ s.invites := by
  obtain ⟨invites, hp, -⟩ := inviteOf_eq_some.mp h
  exact (Dict.mem_iff _ _).mpr ⟨invites, hp⟩

/-- One party's invites change. -/
theorem inviteOf_insert {s' : PartyService} {q : ℕ} {left : Dict ℕ PartyInvite}
    (h : s'.invites = s.invites.insert q left) :
    s'.inviteOf p k = if q = p then left[k]? else s.inviteOf p k := by
  unfold inviteOf
  rw [h, Dict.get?_insert]
  split_ifs <;> rfl

theorem inviteOf_erase {s' : PartyService} {q j : ℕ} {invites : Dict ℕ PartyInvite}
    (hq : s.invites[q]? = some invites) (h : s'.invites = s.invites.insert q (invites.erase j)) :
    s'.inviteOf p k = if q = p ∧ j = k then none else s.inviteOf p k := by
  rw [inviteOf_insert h]
  by_cases hp : q = p
  · subst hp
    have hold : s.inviteOf q k = invites[k]? := by
      unfold inviteOf
      rw [hq]
      rfl
    rw [if_pos rfl, Dict.get?_erase, hold]
    simp only [true_and]
  · rw [if_neg hp, if_neg fun h => hp h.1]

theorem disband_inviteOf (s : PartyService) (q : ℕ) (party : PartyRecord) (actor : ℕ)
    (h : (s.disband q party actor).2.inviteOf p k = some invite) :
    s.inviteOf p k = some invite := by
  obtain ⟨invites, hp, hk⟩ := inviteOf_eq_some.mp h
  change (s.invites.erase q)[p]? = some invites at hp
  rw [Dict.get?_erase] at hp
  split_ifs at hp
  exact inviteOf_eq_some.mpr ⟨invites, hp, hk⟩

/-- What an answer makes of the invites: it finds no invite, or takes it away. -/
def Answers (s : PartyService) (q j : ℕ) (s' : PartyService) : Prop :=
  s.inviteOf q j = none ∧ s'.invites = s.invites ∨
    ∃ invites, s.invites[q]? = some invites ∧ s'.invites = s.invites.insert q (invites.erase j)

theorem Answers.inviteOf {s' : PartyService} {q j : ℕ} (h : s.Answers q j s') :
    s'.inviteOf p k = if q = p ∧ j = k then none else s.inviteOf p k := by
  rcases h with ⟨hnone, hsame⟩ | ⟨invites, hq, herased⟩
  · rw [inviteOf_congr hsame]
    split_ifs with heq
    · rw [← heq.1, ← heq.2, hnone]
    · rfl
  · exact inviteOf_erase hq herased

theorem Filed.inviteOf_eq_none (h : s.Filed) {q : ℕ} (hq : s.parties[q]? = none) (j : ℕ) :
    s.inviteOf q j = none := by
  rw [← Option.not_isSome_iff_eq_none, Option.isSome_iff_exists]
  rintro ⟨i, hi⟩
  exact (Dict.not_mem_iff _ _).mpr hq (h.invited q (mem_invites_of_inviteOf hi))

theorem acceptInvite_answers (h : s.Filed) (q j : ℕ) (now : Time) :
    s.Answers q j (s.acceptInvite q j now).2.2 := by
  unfold acceptInvite
  split
  · exact .inl ⟨h.inviteOf_eq_none (by assumption) j, rfl⟩
  · split
    · rename_i hq
      exact .inl ⟨by unfold inviteOf; rw [hq]; rfl, rfl⟩
    · rename_i invites hq
      split
      · rename_i hj
        exact .inl ⟨by unfold inviteOf; rw [hq]; exact hj, rfl⟩
      · simp only []
        split_ifs <;> exact .inr ⟨invites, hq, rfl⟩

theorem rejectInvite_answers (h : s.Filed) (q j : ℕ) :
    s.Answers q j (s.rejectInvite q j).2.2 := by
  unfold rejectInvite
  split
  · exact .inl ⟨h.inviteOf_eq_none (by assumption) j, rfl⟩
  · split
    · rename_i hq
      exact .inl ⟨by unfold inviteOf; rw [hq]; rfl, rfl⟩
    · rename_i invites hq
      split_ifs with hj
      · exact .inr ⟨invites, hq, rfl⟩
      · exact .inl ⟨by unfold inviteOf; rw [hq]; exact (Dict.not_mem_iff _ _).mp hj, rfl⟩

theorem removeMember_inviteOf (s : PartyService) (j : ℕ)
    (h : (s.removeMember j).2.2.inviteOf p k = some invite) : s.inviteOf p k = some invite := by
  unfold removeMember at h
  split at h
  · exact h
  · split at h
    · exact h
    · split_ifs at h
      · exact disband_inviteOf s _ _ _ h
      · obtain ⟨invites, hp, hk⟩ := inviteOf_eq_some.mp h
        change (s.invites.modify _ _)[p]? = some invites at hp
        rw [Dict.get?_modify] at hp
        split_ifs at hp
        · obtain ⟨old, hold, rfl⟩ := Option.map_eq_some_iff.mp hp
          rw [Dict.get?_erase] at hk
          split_ifs at hk
          exact inviteOf_eq_some.mpr ⟨old, hold, hk⟩
        · exact inviteOf_eq_some.mpr ⟨invites, hp, hk⟩

/-- What a session has after the renaming: its own invite, or that of the session before it. -/
theorem get?_renameInvites {invites : Dict ℕ PartyInvite} {old new : ℕ} (hne : old ≠ new)
    (h : (renameInvites old new invites)[k]? = some invite) :
    k ≠ old ∧ (invites[k]? = some invite ∨ k = new ∧ invites[old]? = some invite) := by
  unfold renameInvites at h
  split at h
  · rename_i hold
    refine ⟨?_, .inl h⟩
    rintro rfl
    rw [hold] at h
    cases h
  · rename_i passed hold
    rw [Std.ExtTreeMap.getElem?_insertIfNew] at h
    split_ifs at h with hnew
    · obtain ⟨heq, -⟩ := hnew
      obtain rfl : new = k := Std.LawfulEqOrd.compare_eq_iff_eq.mp heq
      cases h
      exact ⟨hne.symm, .inr ⟨rfl, hold⟩⟩
    · rw [Dict.get?_erase] at h
      split_ifs at h with hk
      exact ⟨Ne.symm hk, .inl h⟩

theorem replaceMemberSession_inviteOf {new : ℕ}
    (h : (s.replaceMemberSession old new).2.inviteOf p k = some invite) :
    s.inviteOf p k = some invite ∧ ¬ (k = old ∧ old ≠ new ∧
      (s.replaceMemberSession old new).1 = true) ∨
    k = new ∧ old ≠ new ∧ (s.replaceMemberSession old new).1 = true ∧
      s.inviteOf p old = some invite := by
  unfold replaceMemberSession at h ⊢
  by_cases hne : old = new
  · rw [if_pos hne] at h
    exact .inl ⟨h, fun hk => hk.2.1 hne⟩
  rw [if_neg hne] at h ⊢
  split at h
  · exact .inl ⟨h, by simp⟩
  split_ifs at h ⊢
  · exact .inl ⟨h, by simp⟩
  split at h
  · exact .inl ⟨h, by simp⟩
  split at h
  · exact .inl ⟨h, by simp⟩
  obtain ⟨invites, hp, hk⟩ := inviteOf_eq_some.mp h
  change (s.invites.map _)[p]? = some invites at hp
  rw [Std.ExtTreeMap.getElem?_map] at hp
  obtain ⟨before, hbefore, rfl⟩ := Option.map_eq_some_iff.mp hp
  obtain ⟨hold, hk | ⟨hk, ho⟩⟩ := get?_renameInvites hne hk
  · exact .inl ⟨inviteOf_eq_some.mpr ⟨before, hbefore, hk⟩, fun h => hold h.1⟩
  · exact .inr ⟨hk, hne, rfl, inviteOf_eq_some.mpr ⟨before, hbefore, ho⟩⟩

theorem expireInvites_inviteOf (hf : s.Filed) {now : Time}
    (h : (s.expireInvites now).2.2.inviteOf p k = some invite) :
    s.inviteOf p k = some invite ∧ ¬ s.inviteTimeout < now - invite.sentAt := by
  rw [expireInvites_filter hf] at h
  obtain ⟨hbefore, hgood⟩ := Option.filter_eq_some_iff.mp h
  exact ⟨hbefore, of_decide_eq_true hgood⟩

theorem inviteMember_inviteOf {q inviter j : ℕ} {user : Str} {now : Time}
    (h : (s.inviteMember q inviter j user now).2.2.inviteOf p k = some invite) :
    s.inviteOf p k = some invite ∨
    q = p ∧ j = k ∧ (s.inviteMember q inviter j user now).1 = true ∧
      (∃ party, s.parties[q]? = some party ∧ inviter ∈ party.members) ∧
      invite = ⟨inviter, user, now⟩ := by
  unfold inviteMember at h ⊢
  split at h
  · exact .inl h
  · rename_i party hparty
    simp only [] at h ⊢
    split_ifs at h ⊢ with hinviter hindex hinvited
    · exact .inl h
    · exact .inl h
    · rw [inviteOf_insert (s := s) rfl] at h
      split_ifs at h with hq
      · rw [Dict.get?_insert] at h
        split_ifs at h with hj
        · cases h
          exact .inr ⟨hq, hj, rfl, ⟨party, hparty, hinviter⟩, rfl⟩
        · subst hq
          rcases hinvites : s.invites[q]? with _ | invites
          · rw [Std.ExtTreeMap.getD_eq_getD_getElem?, hinvites] at h
            simp at h
          · rw [Std.ExtTreeMap.getD_eq_getD_getElem?, hinvites] at h
            exact .inl (inviteOf_eq_some.mpr ⟨invites, hinvites, h⟩)
      · exact .inl h
    · exact .inl h

/-- An invite that is there after a call was there before it, or came with it. -/
theorem call_inviteOf (hf : s.Filed) (h : (s.call call).inviteOf p k = some invite) :
    s.inviteOf p k = some invite ∨
    (∃ inviter user now, call = .inviteMember p inviter k user now ∧
      (s.inviteMember p inviter k user now).1 = true ∧
      (∃ party, s.parties[p]? = some party ∧ inviter ∈ party.members) ∧
      invite = ⟨inviter, user, now⟩) ∨
    ∃ old, call = .replaceMemberSession old k ∧ old ≠ k ∧
      (s.replaceMemberSession old k).1 = true ∧ s.inviteOf p old = some invite := by
  cases call with
  | createParty leader user =>
    refine .inl ?_
    rw [← h]
    refine (inviteOf_congr ?_).symm
    show (s.createParty leader user).2.2.invites = s.invites
    unfold createParty
    split_ifs <;> rfl
  | inviteMember q inviter j user now =>
    rcases inviteMember_inviteOf h with h | ⟨rfl, rfl, hdone, hmember, rfl⟩
    · exact .inl h
    · exact .inr (.inl ⟨inviter, user, now, rfl, hdone, hmember, rfl⟩)
  | acceptInvite q j now =>
    change (s.acceptInvite q j now).2.2.inviteOf p k = some invite at h
    rw [(acceptInvite_answers hf q j now).inviteOf] at h
    split_ifs at h
    exact .inl h
  | rejectInvite q j =>
    change (s.rejectInvite q j).2.2.inviteOf p k = some invite at h
    rw [(rejectInvite_answers hf q j).inviteOf] at h
    split_ifs at h
    exact .inl h
  | disbandParty q requester =>
    change (s.disbandParty q requester).2.2.inviteOf p k = some invite at h
    unfold disbandParty at h
    split at h
    · exact .inl h
    · split_ifs at h
      · exact .inl h
      · exact .inl (disband_inviteOf s _ _ _ h)
  | removeMember j => exact .inl (removeMember_inviteOf s j h)
  | replaceMemberSession old new =>
    rcases replaceMemberSession_inviteOf h with ⟨h, -⟩ | ⟨rfl, hne, hdone, hold⟩
    · exact .inl h
    · exact .inr (.inr ⟨old, rfl, hne, hdone, hold⟩)
  | expireInvites now => exact .inl (expireInvites_inviteOf hf h).1
  | setEventSink sink => exact .inl h
  | setInviteTimeout timeout => exact .inl h

/-- No call that ends an invite leaves it there. -/
theorem not_ends (hf : s.Filed) (h : (s.call call).inviteOf p k = some invite) :
    ¬ s.Ends call p k invite := by
  rintro (⟨now, rfl⟩ | rfl | ⟨now, rfl, hlate⟩ | hgone | ⟨new, rfl, hne, hdone⟩)
  · change (s.acceptInvite p k now).2.2.inviteOf p k = some invite at h
    rw [(acceptInvite_answers hf p k now).inviteOf, if_pos ⟨rfl, rfl⟩] at h
    cases h
  · change (s.rejectInvite p k).2.2.inviteOf p k = some invite at h
    rw [(rejectInvite_answers hf p k).inviteOf, if_pos ⟨rfl, rfl⟩] at h
    cases h
  · exact (expireInvites_inviteOf hf h).2 hlate
  · exact hgone ((call_filed hf call).invited p (mem_invites_of_inviteOf h))
  · rcases replaceMemberSession_inviteOf h with ⟨-, hkept⟩ | ⟨heq, -, -, -⟩
    · exact hkept ⟨rfl, hne, hdone⟩
    · exact hne heq

end Invites

section Members

theorem get?_insert_index {index : Dict ℕ ℕ} {q j : ℕ} (h : (index.insert j q)[k]? = some p) :
    index[k]? = some p ∨ j = k ∧ q = p := by
  rw [Dict.get?_insert] at h
  split_ifs at h with hj
  · exact .inr ⟨hj, Option.some.inj h⟩
  · exact .inl h

theorem get?_erase_index {index : Dict ℕ ℕ} {j : ℕ} (h : (index.erase j)[k]? = some p) :
    index[k]? = some p := by
  rw [Dict.get?_erase] at h
  split_ifs at h
  exact h

theorem disband_memberIndex (s : PartyService) {q actor : ℕ} {party : PartyRecord}
    (h : (s.disband q party actor).2.memberIndex[k]? = some p) : s.memberIndex[k]? = some p := by
  change (s.memberIndex.eraseAll _)[k]? = some p at h
  rw [Dict.get?_eraseAll] at h
  split_ifs at h
  exact h

theorem acceptInvite_memberIndex {q j : ℕ} {now : Time}
    (h : (s.acceptInvite q j now).2.2.memberIndex[k]? = some p) :
    s.memberIndex[k]? = some p ∨ j = k ∧ q = p ∧ (s.acceptInvite q j now).1 = true ∧
      ∃ invite, s.inviteOf q j = some invite ∧ now - invite.sentAt ≤ s.inviteTimeout := by
  unfold acceptInvite at h ⊢
  split at h
  · exact .inl h
  split at h
  · exact .inl h
  rename_i invites hinvites
  split at h
  · exact .inl h
  rename_i entry hentry
  simp only [] at h ⊢
  split_ifs at h ⊢ with hlate hindex
  · exact .inl h
  · exact .inl h
  · rcases get?_insert_index h with h | ⟨hj, hq⟩
    · exact .inl h
    · exact .inr ⟨hj, hq, rfl, entry, inviteOf_eq_some.mpr ⟨invites, hinvites, hentry⟩,
        not_lt.mp hlate⟩

theorem replaceMemberSession_memberIndex {new : ℕ}
    (h : (s.replaceMemberSession old new).2.memberIndex[k]? = some p) :
    s.memberIndex[k]? = some p ∨ new = k ∧ old ≠ new ∧
      (s.replaceMemberSession old new).1 = true ∧ s.memberIndex[old]? = some p := by
  unfold replaceMemberSession at h ⊢
  by_cases hne : old = new
  · rw [if_pos hne] at h
    exact .inl h
  rw [if_neg hne] at h ⊢
  split at h
  · exact .inl h
  rename_i q hq
  split_ifs at h ⊢
  · exact .inl h
  split at h
  · exact .inl h
  split at h
  · exact .inl h
  rcases get?_insert_index h with h | ⟨hj, rfl⟩
  · exact .inl (get?_erase_index h)
  · exact .inr ⟨hj, hne, rfl, hq⟩

/-- A member that is there after a call was there before it, or came with it. -/
theorem call_memberIndex (h : (s.call call).memberIndex[k]? = some p) :
    s.memberIndex[k]? = some p ∨
    (∃ user, call = .createParty k user ∧ (s.createParty k user).1 = some p) ∨
    (∃ now invite, call = .acceptInvite p k now ∧ (s.acceptInvite p k now).1 = true ∧
      s.inviteOf p k = some invite ∧ now - invite.sentAt ≤ s.inviteTimeout) ∨
    ∃ old, call = .replaceMemberSession old k ∧ old ≠ k ∧
      (s.replaceMemberSession old k).1 = true ∧ s.memberIndex[old]? = some p := by
  cases call with
  | createParty leader user =>
    change (s.createParty leader user).2.2.memberIndex[k]? = some p at h
    unfold createParty at h
    split_ifs at h with hleader
    · exact .inl h
    · rcases get?_insert_index h with h | ⟨rfl, rfl⟩
      · exact .inl h
      · refine .inr (.inl ⟨user, rfl, ?_⟩)
        unfold createParty
        rw [if_neg hleader]
  | inviteMember q inviter j user now =>
    change (s.inviteMember q inviter j user now).2.2.memberIndex[k]? = some p at h
    unfold inviteMember at h
    split at h
    · exact .inl h
    · simp only [] at h
      split_ifs at h <;> exact .inl h
  | acceptInvite q j now =>
    rcases acceptInvite_memberIndex h with h | ⟨rfl, rfl, hdone, invite, hinvite, hage⟩
    · exact .inl h
    · exact .inr (.inr (.inl ⟨now, invite, rfl, hdone, hinvite, hage⟩))
  | rejectInvite q j =>
    change (s.rejectInvite q j).2.2.memberIndex[k]? = some p at h
    unfold rejectInvite at h
    split at h
    · exact .inl h
    · split at h
      · exact .inl h
      · split_ifs at h <;> exact .inl h
  | disbandParty q requester =>
    change (s.disbandParty q requester).2.2.memberIndex[k]? = some p at h
    unfold disbandParty at h
    split at h
    · exact .inl h
    · split_ifs at h
      · exact .inl h
      · exact .inl (disband_memberIndex s h)
  | removeMember j =>
    change (s.removeMember j).2.2.memberIndex[k]? = some p at h
    unfold removeMember at h
    split at h
    · exact .inl h
    · split at h
      · exact .inl (get?_erase_index h)
      · split_ifs at h
        · exact .inl (disband_memberIndex s h)
        · exact .inl (get?_erase_index h)
  | replaceMemberSession old new =>
    rcases replaceMemberSession_memberIndex h with h | ⟨rfl, hne, hdone, hold⟩
    · exact .inl h
    · exact .inr (.inr (.inr ⟨old, rfl, hne, hdone, hold⟩))
  | expireInvites now =>
    obtain ⟨-, hindex, -⟩ := s.expireInvites_roster now
    exact .inl (hindex ▸ h)
  | setEventSink sink => exact .inl h
  | setInviteTimeout timeout => exact .inl h

/-- Nobody who leaves with a call is a member after it. -/
theorem not_leaves (hs : s.Sound) (h : (s.call call).memberIndex[k]? = some p) :
    ¬ s.Leaves call p k := by
  rintro (rfl | hgone | ⟨new, rfl, hne, hdone⟩)
  · have hnone := (removeMember_goes (A := ∅) hs k).2
    exact absurd (hnone.symm.trans h) (by simp)
  · obtain ⟨party, -, hp, -⟩ := (call_goes hs call).2.party_of_index h
    exact hgone ((Dict.mem_iff _ _).mpr ⟨party, hp⟩)
  · have hfree : k ∉ s.memberIndex ∨ new ∉ s.memberIndex := by
      by_contra hboth
      obtain ⟨hk, hnew⟩ := not_or.mp hboth
      obtain ⟨q, hq⟩ := (Dict.mem_iff _ _).mp (not_not.mp hk)
      unfold replaceMemberSession at hdone
      simp [hne, hq, not_not.mp hnew] at hdone
    have hnone := replaceMemberSession_index hs hne hfree
    exact absurd (hnone.symm.trans h) (by simp)

end Members

section History

/-- What the history has to say of a service: how its members and its invites came. -/
structure Accounts (s : PartyService) (history : History) : Prop where
  sound : s.Sound
  filed : s.Filed
  members : ∀ p k, s.memberIndex[k]? = some p → Admitted history p k
  invites : ∀ p k invite, s.inviteOf p k = some invite → Invited history p k invite

theorem Accounts.step {history : History} (h : s.Accounts history) (call : PartyCall) :
    (s.call call).Accounts (history ++ [(s, call)]) := by
  refine ⟨(call_goes h.sound call).2, call_filed h.filed call, fun p k hk => ?_,
    fun p k invite hi => ?_⟩
  · rcases call_memberIndex hk with hbefore | ⟨user, rfl, hdone⟩ |
      ⟨now, invite, rfl, hdone, hinvite, hage⟩ | ⟨old, rfl, hne, hdone, hold⟩
    · exact .stayed (h.members p k hbefore) (not_leaves h.sound hk)
    · exact .created hdone
    · exact .accepted (h.invites p k invite hinvite) hage hdone
    · exact .replaced (h.members p old hold) ⟨hne, hdone⟩
  · rcases call_inviteOf h.filed hi with hbefore |
      ⟨inviter, user, now, rfl, hdone, ⟨party, hmember⟩, rfl⟩ | ⟨old, rfl, hne, hdone, hold⟩
    · exact .kept (h.invites p k invite hbefore) (not_ends h.filed hi)
    · exact .sent hmember hdone
    · exact .passed (h.invites p old invite hold) ⟨hne, hdone⟩

theorem accounts_new : ({} : PartyService).Accounts [] := by
  refine ⟨sound_new, filed_new, fun p k hk => ?_, fun p k invite hi => ?_⟩
  · exact absurd hk (by simp)
  · exact absurd (mem_invites_of_inviteOf hi) (by simp)

/-- Nobody joins a party that has been disbanded, and no later one has its id. -/
theorem gone_for_good (calls : List PartyCall) :
    (trail PartyService.call {} calls).Pairwise fun x y =>
      ∀ p ∈ x.1.parties, p ∉ (x.1.call x.2).parties → p ∉ y.1.parties ∧
        ∀ k now, y.1.inviteOf p k = none ∧ (y.1.acceptInvite p k now).1 = false := by
  have hgone : (trail PartyService.call {} calls).Pairwise fun x y => y.1.Filed ∧
      ∀ p ∈ x.1.parties, p ∉ (x.1.call x.2).parties → p ∉ y.1.parties ∧ p < y.1.nextPartyId :=
    pairwise (P := fun _ _ => True) (I := fun s : PartyService => s.Sound ∧ s.Filed)
    (Q := fun s call t => t.Filed ∧ ∀ p ∈ s.parties, p ∉ (s.call call).parties →
      p ∉ t.parties ∧ p < t.nextPartyId)
    (fun s call hs _ => ⟨(call_goes hs.1 call).2, call_filed hs.2 call⟩)
    (fun s call hs _ => ⟨call_filed hs.2 call, fun p hp hleft => ⟨hleft, ?_⟩⟩)
    (fun s call t later ht _ hq => ⟨call_filed ht.2 later, fun p hp hleft => ?_⟩)
    calls {} ⟨sound_new, filed_new⟩ fun _ _ => trivial
  · refine hgone.imp fun {x y} h p hp hleft => ⟨(h.2 p hp hleft).1, fun k now => ?_⟩
    have hnone := (Dict.not_mem_iff _ _).mp (h.2 p hp hleft).1
    refine ⟨h.1.inviteOf_eq_none hnone k, ?_⟩
    unfold acceptInvite
    rw [hnone]
  · obtain ⟨party, hparty⟩ := (Dict.mem_iff _ _).mp hp
    exact (hs.1.below p party hparty).trans_le (call_numbers s call).next
  · obtain ⟨hnot, hlt⟩ := hq.2 p hp hleft
    refine ⟨fun hin => ?_, hlt.trans_le (call_numbers t later).next⟩
    rcases (call_numbers t later).parties p hin with hin | rfl
    · exact hnot hin
    · exact lt_irrefl _ hlt

/-- Every member of a party has been admitted to it, and none by the invite to another. -/
theorem no_uninvited_member (calls : List PartyCall) :
    (∀ (p k : ℕ) (party : PartyRecord),
      (after PartyService.call {} calls).parties[p]? = some party → k ∈ party.members →
        Admitted (trail PartyService.call {} calls) p k) ∧
    (trail PartyService.call {} calls).Pairwise fun x y =>
      ∀ p ∈ x.1.parties, p ∉ (x.1.call x.2).parties → p ∉ y.1.parties ∧
        ∀ k now, y.1.inviteOf p k = none ∧ (y.1.acceptInvite p k now).1 = false := by
  refine ⟨fun p k party hp hk => ?_, gone_for_good calls⟩
  have haccounts : (after PartyService.call {} calls).Accounts
      ([] ++ trail PartyService.call {} calls) :=
    history (I := Accounts) (fun _ _ call h => h.step call) calls {} [] accounts_new
  have hindex := (haccounts.sound.agrees haccounts.filed).index_iff k p
  exact haccounts.members p k (hindex.mpr ⟨party, hp, hk⟩)

end History

end PartyService

end DungeonHub
