import DungeonHub.Lib.Dict

/-!
# Groups with members

Groups of members under leaders, and an index that tells the group of each member. The roster is
sound if the index agrees with the groups and each leader is a member, so that nobody is in two
groups. Two dictionaries, of the groups and of the index, keep a roster.
-/

/-- A group: its leader and its members. -/
structure Crew (K : Type*) where
  leader : K
  members : Set K

/-- The groups, and the group of each member. -/
structure Roster (K G : Type*) where
  crews : G → Option (Crew K)
  index : K → Option G

namespace Roster

open Function Classical

section Abstract

variable {K G : Type*} {r r' : Roster K G} {g : G} {c c' : Crew K} {k : K} {A : Set K}

structure Sound (r : Roster K G) : Prop where
  index_iff : ∀ k g, r.index k = some g ↔ ∃ c, r.crews g = some c ∧ k ∈ c.members
  leader_mem : ∀ g c, r.crews g = some c → c.leader ∈ c.members

/-- The group is the crew now, whatever it was. -/
noncomputable def put (r : Roster K G) (g : G) (c : Crew K) : Roster K G where
  crews := update r.crews g (some c)
  index k := if k ∈ c.members then some g else if r.index k = some g then none else r.index k

/-- The group is gone, and all its members with it. -/
noncomputable def remove (r : Roster K G) (g : G) : Roster K G where
  crews := update r.crews g none
  index k := if r.index k = some g then none else r.index k

/-- A change of one group, with new members from `A` only. -/
inductive Step (A : Set K) (r : Roster K G) : Roster K G → Prop where
  | stay : Step A r r
  | put (g : G) (c : Crew K) (hl : c.leader ∈ c.members)
      (hm : ∀ k ∈ c.members, r.index k = some g ∨ (r.index k = none ∧ k ∈ A)) :
      Step A r (r.put g c)
  | remove (g : G) : Step A r (r.remove g)

theorem Sound.mem_iff (h : r.Sound) (hg : r.crews g = some c) :
    k ∈ c.members ↔ r.index k = some g := by
  rw [h.index_iff, hg]
  simp

theorem Sound.index_ne (h : r.Sound) (hg : r.crews g = none) : r.index k ≠ some g := by
  intro hk
  obtain ⟨c, hc, -⟩ := (h.index_iff k g).mp hk
  rw [hg] at hc
  cases hc

theorem Sound.put (h : r.Sound) (hl : c.leader ∈ c.members)
    (hm : ∀ k ∈ c.members, r.index k = some g ∨ r.index k = none) : (r.put g c).Sound := by
  refine ⟨fun k g' => ?_, fun g' c' hc' => ?_⟩
  · simp only [Roster.put, update_apply]
    by_cases hg : g' = g
    · subst hg
      rw [if_pos rfl]
      by_cases hk : k ∈ c.members
      · simp [hk]
      · by_cases hi : r.index k = some g'
        · simp [hk, hi]
        · simp [hk, hi]
    · rw [if_neg hg, ← h.index_iff]
      by_cases hk : k ∈ c.members
      · rw [if_pos hk]
        rcases hm k hk with hi | hi
        · rw [hi]
        · rw [hi]
          simp [Ne.symm hg]
      · rw [if_neg hk]
        split_ifs with hi
        · simp [hi, Ne.symm hg]
        · rfl
  · simp only [Roster.put, update_apply] at hc'
    split_ifs at hc' with hg
    · rw [Option.some.injEq] at hc'
      exact hc' ▸ hl
    · exact h.leader_mem g' c' hc'

theorem Sound.remove (h : r.Sound) (g : G) : (r.remove g).Sound := by
  refine ⟨fun k g' => ?_, fun g' c' hc' => ?_⟩
  · simp only [Roster.remove, update_apply]
    by_cases hg : g' = g
    · subst hg
      rw [if_pos rfl]
      split_ifs with hi
      · simp
      · simp [hi]
    · rw [if_neg hg, ← h.index_iff]
      split_ifs with hi
      · simp [hi, Ne.symm hg]
      · rfl
  · simp only [Roster.remove, update_apply] at hc'
    split_ifs at hc' with hg
    exact h.leader_mem g' c' hc'

theorem Sound.step (h : r.Sound) (hs : Step A r r') : r'.Sound := by
  cases hs with
  | stay => exact h
  | put g c hl hm => exact h.put hl fun k hk => (hm k hk).imp id And.left
  | remove g => exact h.remove g

/-- Who has a group after a step had one before, or is from `A`. -/
theorem Step.index (hs : Step A r r') (hk : r'.index k ≠ none) : r.index k ≠ none ∨ k ∈ A := by
  cases hs with
  | stay => exact .inl hk
  | put g c hl hm =>
    simp only [Roster.put] at hk
    by_cases hmem : k ∈ c.members
    · rcases hm k hmem with hi | ⟨-, hA⟩
      · exact .inl (by simp [hi])
      · exact .inr hA
    · rw [if_neg hmem] at hk
      split_ifs at hk
      · exact absurd rfl hk
      · exact .inl hk
  | remove g =>
    simp only [Roster.remove] at hk
    split_ifs at hk
    · exact absurd rfl hk
    · exact .inl hk

end Abstract

section Dismissal

variable {K G X : Type*} [DecidableEq K] [DecidableEq G]

/-- What is kept of each group, and the group of each member. -/
@[ext] structure Ledger (K G X : Type*) where
  entries : G → X
  index : K → Option G

variable (leader : X → Option K) (gone : X) (expel : K → X → X)

/-- What is left of the group of one who goes: nothing if it is the leader. -/
def Ledger.left (k : K) (x : X) : X := if leader x = some k then gone else expel k x

/-- A member goes, and the leader takes the others along. -/
def Ledger.dismiss (t : Ledger K G X) (k : K) : Ledger K G X :=
  match t.index k with
  | none => t
  | some g =>
    { entries := update t.entries g (left leader gone expel k (t.entries g))
      index := fun j =>
        if j = k ∨ leader (t.entries g) = some k ∧ t.index j = some g then none else t.index j }

variable {leader gone expel} {t : Ledger K G X} {a b k : K} {g g' : G}

theorem Ledger.dismiss_of_none (h : t.index k = none) : t.dismiss leader gone expel k = t := by
  unfold dismiss
  rw [h]

theorem Ledger.dismiss_entries (h : t.index k = some g) :
    (t.dismiss leader gone expel k).entries =
      update t.entries g (left leader gone expel k (t.entries g)) := by
  unfold dismiss
  rw [h]

theorem Ledger.dismiss_index (h : t.index k = some g) (j : K) :
    (t.dismiss leader gone expel k).index j =
      if j = k ∨ leader (t.entries g) = some k ∧ t.index j = some g then none else t.index j := by
  unfold dismiss
  rw [h]

/-- A leader's going ends the group. -/
theorem Ledger.dismiss_of_leader (h : t.index k = some g) (hl : leader (t.entries g) = some k) :
    t.dismiss leader gone expel k =
      { entries := update t.entries g gone
        index := fun j => if t.index j = some g then none else t.index j } := by
  ext j : 2
  · rw [dismiss_entries h, left, if_pos hl]
  · rw [dismiss_index h]
    refine if_congr ⟨?_, fun hj => .inr ⟨hl, hj⟩⟩ rfl rfl
    rintro (rfl | ⟨-, hj⟩)
    · exact h
    · exact hj

/-- Another member's going is its own. -/
theorem Ledger.dismiss_of_member (h : t.index k = some g) (hl : leader (t.entries g) ≠ some k) :
    t.dismiss leader gone expel k =
      { entries := update t.entries g (expel k (t.entries g))
        index := update t.index k none } := by
  ext j : 2
  · rw [dismiss_entries h, left, if_neg hl]
  · show _ = update t.index k none j
    rw [dismiss_index h, update_apply]
    simp only [hl, false_and, or_false]

/-- Who has no group gets none when another one goes. -/
theorem Ledger.dismiss_index_none (h : t.index a = none) :
    (t.dismiss leader gone expel b).index a = none := by
  rcases hb : t.index b with _ | g
  · rwa [dismiss_of_none hb]
  · rw [dismiss_index hb, h, ite_self]

variable (hleader : ∀ k x, leader (expel k x) = leader x)
  (hexpel : ∀ k j x, expel k (expel j x) = expel j (expel k x))

include hleader in
/-- When the leader goes it does not matter who of the group has gone before. -/
theorem Ledger.dismiss_leader_comm (hne : a ≠ b) (ha : t.index a = some g)
    (hb : t.index b = some g) (hl : leader (t.entries g) = some a) :
    (t.dismiss leader gone expel a).dismiss leader gone expel b =
      (t.dismiss leader gone expel b).dismiss leader gone expel a := by
  have hlb : leader (t.entries g) ≠ some b := by
    rw [hl]
    simpa using hne
  have hnone : (t.dismiss leader gone expel a).index b = none := by
    rw [dismiss_index ha, if_pos (.inr ⟨hl, hb⟩)]
  have hindex : ∀ j,
      (t.dismiss leader gone expel b).index j = if j = b then none else t.index j := by
    intro j
    rw [dismiss_index hb]
    simp only [hlb, false_and, or_false]
  have hsome : (t.dismiss leader gone expel b).index a = some g := by
    rw [hindex, if_neg hne, ha]
  have hentry : (t.dismiss leader gone expel b).entries g = expel b (t.entries g) := by
    rw [dismiss_entries hb, update_self, left, if_neg hlb]
  rw [dismiss_of_none hnone]
  ext j : 2
  · rw [dismiss_entries hsome, dismiss_entries ha, hentry, dismiss_entries hb, update_idem, left,
      left, hleader, if_pos hl, if_pos hl]
  · rw [dismiss_index hsome, dismiss_index ha, hentry, hleader, hindex]
    by_cases hj : j = b
    · rw [hj, if_pos rfl, ite_self, if_pos (.inr ⟨hl, hb⟩)]
    · rw [if_neg hj]

include hleader hexpel in
/-- Nor does it matter which of two other members goes first. -/
theorem Ledger.dismiss_members_comm (hne : a ≠ b) (ha : t.index a = some g)
    (hb : t.index b = some g) (hla : leader (t.entries g) ≠ some a)
    (hlb : leader (t.entries g) ≠ some b) :
    (t.dismiss leader gone expel a).dismiss leader gone expel b =
      (t.dismiss leader gone expel b).dismiss leader gone expel a := by
  have hindex : ∀ {k}, t.index k = some g → leader (t.entries g) ≠ some k →
      ∀ j, (t.dismiss leader gone expel k).index j = if j = k then none else t.index j := by
    intro k hk hl j
    rw [dismiss_index hk]
    simp only [hl, false_and, or_false]
  have hentry : ∀ {k}, t.index k = some g → leader (t.entries g) ≠ some k →
      (t.dismiss leader gone expel k).entries = update t.entries g (expel k (t.entries g)) := by
    intro k hk hl
    rw [dismiss_entries hk, left, if_neg hl]
  have hab : (t.dismiss leader gone expel a).index b = some g := by
    rw [hindex ha hla, if_neg (Ne.symm hne), hb]
  have hba : (t.dismiss leader gone expel b).index a = some g := by
    rw [hindex hb hlb, if_neg hne, ha]
  ext j : 2
  · rw [dismiss_entries hab, dismiss_entries hba, hentry ha hla, hentry hb hlb, update_idem,
      update_idem, update_self, update_self, left, left, hleader, hleader, if_neg hla,
      if_neg hlb, hexpel]
  · rw [dismiss_index hab, dismiss_index hba, hentry ha hla, hentry hb hlb, update_self,
      update_self, hleader, hleader, hindex ha hla, hindex hb hlb]
    simp only [hla, hlb, false_and, or_false]
    split_ifs <;> rfl

theorem Ledger.dismiss_apart (ha : t.index a = some g) (hb : t.index b = some g') (hg : g ≠ g') :
    (t.dismiss leader gone expel b).index a = some g ∧
      (t.dismiss leader gone expel b).entries g = t.entries g := by
  refine ⟨?_, by rw [dismiss_entries hb, update_of_ne hg]⟩
  rw [dismiss_index hb, if_neg, ha]
  rintro (rfl | ⟨-, h⟩)
  · exact hg (Option.some.inj (ha.symm.trans hb))
  · exact hg (Option.some.inj (ha.symm.trans h))

/-- What goes on in one group does not touch another. -/
theorem Ledger.dismiss_apart_comm (ha : t.index a = some g) (hb : t.index b = some g')
    (hg : g ≠ g') :
    (t.dismiss leader gone expel a).dismiss leader gone expel b =
      (t.dismiss leader gone expel b).dismiss leader gone expel a := by
  obtain ⟨hab, hxa⟩ : (t.dismiss leader gone expel b).index a = some g ∧
      (t.dismiss leader gone expel b).entries g = t.entries g := dismiss_apart ha hb hg
  obtain ⟨hba, hxb⟩ : (t.dismiss leader gone expel a).index b = some g' ∧
      (t.dismiss leader gone expel a).entries g' = t.entries g' :=
    dismiss_apart hb ha (Ne.symm hg)
  ext j : 2
  · rw [dismiss_entries hab, dismiss_entries hba, hxa, hxb, dismiss_entries ha,
      dismiss_entries hb, update_comm hg]
  · rw [dismiss_index hab, dismiss_index hba, hxa, hxb, dismiss_index ha, dismiss_index hb]
    split_ifs <;> simp_all

include hleader hexpel in
/-- It does not matter which of two members goes first. -/
theorem Ledger.dismiss_comm (t : Ledger K G X) (a b : K) :
    (t.dismiss leader gone expel a).dismiss leader gone expel b =
      (t.dismiss leader gone expel b).dismiss leader gone expel a := by
  by_cases hne : a = b
  · rw [hne]
  rcases ha : t.index a with _ | g
  · rw [dismiss_of_none ha, dismiss_of_none (dismiss_index_none ha)]
  rcases hb : t.index b with _ | g'
  · rw [dismiss_of_none hb, dismiss_of_none (dismiss_index_none hb)]
  by_cases hg : g = g'
  · subst hg
    by_cases hla : leader (t.entries g) = some a
    · exact dismiss_leader_comm hleader hne ha hb hla
    by_cases hlb : leader (t.entries g) = some b
    · exact (dismiss_leader_comm hleader (Ne.symm hne) hb ha hlb).symm
    · exact dismiss_members_comm hleader hexpel hne ha hb hla hlb
  · exact dismiss_apart_comm ha hb hg

end Dismissal

section Dictionaries

variable {K G R : Type} [Ord K] [Std.TransOrd K] [Ord G] [Std.TransOrd G]

/-- The roster that two dictionaries keep, with what a record says of its group. -/
def ofDicts (view : R → Crew K) (records : Dict G R) (index : Dict K G) : Roster K G where
  crews g := records[g]?.map view
  index k := index[k]?

variable {view : R → Crew K} {records : Dict G R} {index index' : Dict K G} {g : G} {x x' : R}
  {k old new : K} {A : Set K}

theorem Sound.mem_view (h : (ofDicts view records index).Sound) (hg : records[g]? = some x) :
    k ∈ (view x).members ↔ index[k]? = some g :=
  h.mem_iff (by simp [ofDicts, hg])

theorem Sound.record_of_index (h : (ofDicts view records index).Sound) (hk : index[k]? = some g) :
    ∃ x, records[g]? = some x ∧ k ∈ (view x).members := by
  obtain ⟨c, hc, hm⟩ := (h.index_iff k g).mp hk
  obtain ⟨x, hx, rfl⟩ := Option.map_eq_some_iff.mp hc
  exact ⟨x, hx, hm⟩

theorem Sound.leader_view (h : (ofDicts view records index).Sound) (hg : records[g]? = some x) :
    (view x).leader ∈ (view x).members :=
  h.leader_mem g _ (by simp [ofDicts, hg])

theorem sound_empty (view : R → Crew K) :
    (ofDicts view (∅ : Dict G R) (∅ : Dict K G)).Sound := by
  refine ⟨fun k g => ?_, fun g c hc => ?_⟩
  · simp [ofDicts]
  · simp [ofDicts] at hc

theorem Step.mem_index {records' : Dict G R}
    (hs : Step A (ofDicts view records index) (ofDicts view records' index'))
    (hk : k ∈ index') : k ∈ index ∨ k ∈ A := by
  refine (hs.index (k := k) ?_).imp_left ?_
  · exact mt (Dict.not_mem_iff _ _).mpr (not_not_intro hk)
  · intro h
    by_contra hno
    exact h ((Dict.not_mem_iff _ _).mp hno)

variable [Std.LawfulEqOrd G]

theorem ofDicts_insert
    (h : ∀ k, index'[k]? = ((ofDicts view records index).put g (view x)).index k) :
    ofDicts view (records.insert g x) index' = (ofDicts view records index).put g (view x) := by
  unfold ofDicts Roster.put at *
  simp only [Roster.mk.injEq]
  refine ⟨funext fun g' => ?_, funext h⟩
  rw [Dict.get?_insert, update_apply]
  by_cases hg : g = g'
  · simp [hg]
  · simp [hg, Ne.symm hg]

theorem ofDicts_erase (h : ∀ k, index'[k]? = ((ofDicts view records index).remove g).index k) :
    ofDicts view (records.erase g) index' = (ofDicts view records index).remove g := by
  unfold ofDicts Roster.remove at *
  simp only [Roster.mk.injEq]
  refine ⟨funext fun g' => ?_, funext h⟩
  rw [Dict.get?_erase, update_apply]
  by_cases hg : g = g'
  · simp [hg]
  · simp [hg, Ne.symm hg]

variable [Std.LawfulEqOrd K]

theorem Sound.found (h : (ofDicts view records index).Sound) (hg : g ∉ records) (hk : k ∉ index)
    (hA : k ∈ A) (hx : view x = ⟨k, {k}⟩) :
    Step A (ofDicts view records index)
      (ofDicts view (records.insertIfNew g x) (index.insert k g)) := by
  rw [Dict.insertIfNew_of_not_mem _ _ hg, ofDicts_insert]
  · refine .put g (view x) (by rw [hx]; rfl) ?_
    rw [hx]
    rintro j rfl
    exact .inr ⟨(Dict.not_mem_iff _ _).mp hk, hA⟩
  · intro j
    have hne : index[j]? ≠ some g :=
      h.index_ne (by simp [ofDicts, (Dict.not_mem_iff _ _).mp hg])
    rw [Dict.get?_insert, hx]
    by_cases hj : k = j
    · simp [Roster.put, hj]
    · simp [Roster.put, ofDicts, hj, Ne.symm hj, hne]

theorem Sound.join (h : (ofDicts view records index).Sound) (hg : records[g]? = some x)
    (hk : k ∉ index) (hA : k ∈ A)
    (hx : view x' = ⟨(view x).leader, insert k (view x).members⟩) :
    Step A (ofDicts view records index)
      (ofDicts view (records.insert g x') (index.insert k g)) := by
  rw [ofDicts_insert]
  · refine .put g (view x') ?_ ?_
    · rw [hx]
      exact Set.mem_insert_of_mem _ (h.leader_view hg)
    · rw [hx]
      rintro j (rfl | hj)
      · exact .inr ⟨(Dict.not_mem_iff _ _).mp hk, hA⟩
      · exact .inl ((h.mem_view hg).mp hj)
  · intro j
    rw [Dict.get?_insert, hx]
    by_cases hj : k = j
    · simp [Roster.put, hj]
    · by_cases hm : index[j]? = some g
      · simp [Roster.put, hj, Ne.symm hj, h.mem_view hg, hm]
      · simp [Roster.put, ofDicts, hj, Ne.symm hj, h.mem_view hg, hm]

theorem Sound.leave (h : (ofDicts view records index).Sound) (hg : records[g]? = some x)
    (hk : index[k]? = some g) (hl : (view x).leader ≠ k)
    (hx : view x' = ⟨(view x).leader, (view x).members \ {k}⟩) :
    Step A (ofDicts view records index)
      (ofDicts view (records.insert g x') (index.erase k)) := by
  rw [ofDicts_insert]
  · refine .put g (view x') ?_ ?_
    · rw [hx]
      exact ⟨h.leader_view hg, hl⟩
    · rw [hx]
      rintro j ⟨hj, -⟩
      exact .inl ((h.mem_view hg).mp hj)
  · intro j
    rw [Dict.get?_erase, hx]
    by_cases hj : k = j
    · subst hj
      simp [Roster.put, ofDicts, hk]
    · by_cases hm : index[j]? = some g
      · simp [Roster.put, hj, Ne.symm hj, h.mem_view hg, hm]
      · simp [Roster.put, ofDicts, hj, Ne.symm hj, h.mem_view hg, hm]

theorem Sound.rename [DecidableEq K] (h : (ofDicts view records index).Sound)
    (hg : records[g]? = some x) (ho : index[old]? = some g) (hn : new ∉ index) (hA : new ∈ A)
    (hx : view x' = ⟨if (view x).leader = old then new else (view x).leader,
      insert new ((view x).members \ {old})⟩) :
    Step A (ofDicts view records index)
      (ofDicts view (records.insert g x') ((index.erase old).insert new g)) := by
  rw [ofDicts_insert]
  · refine .put g (view x') ?_ ?_
    · rw [hx]
      by_cases hl : (view x).leader = old
      · simp [hl]
      · simp [hl, h.leader_view hg]
    · rw [hx]
      rintro j (rfl | ⟨hj, -⟩)
      · exact .inr ⟨(Dict.not_mem_iff _ _).mp hn, hA⟩
      · exact .inl ((h.mem_view hg).mp hj)
  · intro j
    rw [Dict.get?_insert, Dict.get?_erase, hx]
    by_cases hj : new = j
    · simp [Roster.put, hj]
    · by_cases hjo : old = j
      · subst hjo
        simp [Roster.put, ofDicts, hj, Ne.symm hj, ho]
      · by_cases hm : index[j]? = some g
        · simp [Roster.put, hj, Ne.symm hj, hjo, Ne.symm hjo, h.mem_view hg, hm]
        · simp [Roster.put, ofDicts, hj, Ne.symm hj, hjo, h.mem_view hg, hm]

theorem Sound.dissolve (h : (ofDicts view records index).Sound) (hg : records[g]? = some x)
    {ks : List K} (hks : ∀ k, k ∈ ks ↔ k ∈ (view x).members) :
    Step A (ofDicts view records index)
      (ofDicts view (records.erase g) (index.eraseAll ks)) := by
  rw [ofDicts_erase]
  · exact .remove g
  · intro j
    rw [Dict.get?_eraseAll]
    by_cases hm : index[j]? = some g
    · simp [Roster.remove, ofDicts, hks, h.mem_view hg, hm]
    · simp [Roster.remove, ofDicts, hks, h.mem_view hg, hm]

end Dictionaries

end Roster
