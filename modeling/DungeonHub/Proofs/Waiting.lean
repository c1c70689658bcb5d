import DungeonHub.Proofs.Compatible
import DungeonHub.Proofs.Pairing

/-!
# How long two parties wait

Of two parties that go together, the one in front is reached by a search unless the search finds a
pair before it, and then there is one party less before it. So the two are found, together or with
others, by as many searches as there are parties up to the first of them.
-/

namespace DungeonHub

/-- The party that a call is about, if it is about one. -/
def MatchCall.about : MatchCall → Option ℕ
  | .enqueue candidate => some candidate.partyId
  | .cancel partyId => some partyId
  | .updatePartySize partyId _ _ => some partyId
  | .findMatch _ => none

def MatchCall.searchTime : MatchCall → Option Time
  | .findMatch now => some now
  | _ => none

namespace MatchQueue

open Run Pairs

section Growing

theorem truncate_neg (x : ℚ) : truncate (-x) = -truncate x := by
  unfold truncate
  rw [Rat.neg_num, Rat.neg_den, Int.neg_tdiv]

theorem truncate_mono {x y : ℚ} (h : x ≤ y) : truncate x ≤ truncate y := by
  have hsign : ∀ {z : ℚ}, 0 ≤ z → 0 ≤ truncate z := by
    intro z hz
    rw [truncate_of_nonneg hz]
    exact Int.floor_nonneg.mpr hz
  rcases le_total 0 x with hx | hx
  · rw [truncate_of_nonneg hx, truncate_of_nonneg (hx.trans h)]
    exact Int.floor_le_floor h
  · have hneg := hsign (neg_nonneg.mpr hx)
    rw [truncate_neg] at hneg
    rcases le_total 0 y with hy | hy
    · have hpos := hsign hy
      omega
    · have hfloor := Int.floor_le_floor (neg_le_neg h)
      rw [← truncate_of_nonneg (neg_nonneg.mpr hx), ← truncate_of_nonneg (neg_nonneg.mpr hy),
        truncate_neg, truncate_neg] at hfloor
      omega

/-- Whoever goes together goes together from then on. -/
theorem compatible_later {q : MatchQueue} {first second : MatchCandidate} {now later : Time}
    (hexpansion : 0 ≤ q.rule.expansionPerSecond) (hle : now ≤ later)
    (h : q.compatible first second now = true) : q.compatible first second later = true := by
  have hcast : (0 : ℚ) ≤ q.rule.expansionPerSecond := by exact_mod_cast hexpansion
  have hwaits : ∀ time : Time,
      ((now - time : ℤ) : ℚ) / 1000000000 ≤ (later - time : ℤ) / 1000000000 := by
    intro time
    have hsub : ((now - time : ℤ) : ℚ) ≤ (later - time : ℤ) := by
      exact_mod_cast sub_le_sub_right hle time
    gcongr
  have hmin := min_le_min (hwaits first.enqueueTime) (hwaits second.enqueueTime)
  have hgrowth := truncate_mono (mul_le_mul_of_nonneg_left hmin hcast)
  unfold compatible at h ⊢
  split_ifs at h ⊢
  rw [decide_eq_true_eq] at h ⊢
  exact h.trans (add_le_add_right hgrowth _)

end Growing

section Places

variable {candidate entry : MatchCandidate} {front rest : List MatchCandidate}

theorem mem_place_of_ne (h : entry.partyId ≠ candidate.partyId) :
    ∀ {queue}, entry ∈ queue → entry ∈ place candidate queue
  | first :: queue, hmem => by
    unfold place
    rcases List.mem_cons.mp hmem with rfl | hmem
    · rw [if_neg h]
      exact List.mem_cons_self
    · split_ifs
      · exact List.mem_cons_of_mem _ hmem
      · exact List.mem_cons_of_mem _ (mem_place_of_ne h hmem)

/-- A candidate that is placed comes before nobody who is not after it already. -/
theorem place_append (h : entry.partyId ≠ candidate.partyId) :
    ∀ front, ∃ front' rest', place candidate (front ++ entry :: rest) = front' ++ entry :: rest' ∧
      (∀ e ∈ rest, e.partyId ≠ candidate.partyId → e ∈ rest') ∧ front'.length = front.length
  | [] => ⟨[], place candidate rest, by rw [List.nil_append, place, if_neg h]; rfl,
      fun _ he hne => mem_place_of_ne hne he, rfl⟩
  | first :: front => by
    rw [List.cons_append]
    unfold place
    split_ifs
    · exact ⟨candidate :: front, rest, rfl, fun _ he _ => he, rfl⟩
    · obtain ⟨front', rest', heq, hrest, hlength⟩ := place_append h front
      exact ⟨first :: front', rest', by rw [heq]; rfl, hrest, by simp [hlength]⟩

variable {rule : MatchRule} {partyId partySize : ℕ} {now : Time}

theorem mem_resize_of_ne (h : entry.partyId ≠ partyId) :
    ∀ {queue}, entry ∈ queue → entry ∈ resize rule partyId partySize now queue
  | first :: queue, hmem => by
    unfold resize
    rcases List.mem_cons.mp hmem with rfl | hmem
    · rw [if_neg h]
      exact List.mem_cons_self
    · split_ifs
      · exact hmem
      · exact List.mem_cons_of_mem _ hmem
      · exact List.mem_cons_of_mem _ (mem_resize_of_ne h hmem)

theorem resize_append (h : entry.partyId ≠ partyId) :
    ∀ front, ∃ front' rest',
      resize rule partyId partySize now (front ++ entry :: rest) = front' ++ entry :: rest' ∧
      (∀ e ∈ rest, e.partyId ≠ partyId → e ∈ rest') ∧ front'.length ≤ front.length
  | [] => ⟨[], resize rule partyId partySize now rest,
      by rw [List.nil_append, resize, if_neg h]; rfl, fun _ he hne => mem_resize_of_ne hne he,
      le_rfl⟩
  | first :: front => by
    rw [List.cons_append]
    unfold resize
    split_ifs
    · exact ⟨front, rest, rfl, fun _ he _ => he, Nat.le_succ _⟩
    · exact ⟨_ :: front, rest, rfl, fun _ he _ => he, le_rfl⟩
    · obtain ⟨front', rest', heq, hrest, hlength⟩ := resize_append h front
      exact ⟨first :: front', rest', by rw [heq]; rfl, hrest, Nat.succ_le_succ hlength⟩

end Places

section Ahead

variable {rule : MatchRule} {q : MatchQueue} {a b : MatchCandidate} {n : ℕ} {now : Time}

/-- Both parties are in the queue, and no more than `n` are before the first of them. -/
def Ahead (a b : MatchCandidate) (n : ℕ) (q : MatchQueue) : Prop :=
  ∃ front rest, q.queue = front ++ a :: rest ∧ b ∈ rest ∧ front.length ≤ n

/-- Calls about others leave the two where they are, or bring them further to the front. -/
theorem Ahead.call (h : Ahead a b n q) {c : MatchCall} (hsearch : c.searchTime = none)
    (hfirst : c.about ≠ some a.partyId) (hsecond : c.about ≠ some b.partyId) :
    Ahead a b n (q.call c) := by
  obtain ⟨front, rest, hqueue, hb, hn⟩ := id h
  cases c with
  | findMatch now => cases hsearch
  | enqueue candidate =>
    have ha' : a.partyId ≠ candidate.partyId := fun heq => hfirst (congrArg some heq.symm)
    have hb' : b.partyId ≠ candidate.partyId := fun heq => hsecond (congrArg some heq.symm)
    show Ahead a b n (q.enqueue candidate).2
    rcases enqueue_cases q candidate with heq | ⟨heq, -⟩
    · rw [heq]
      exact h
    · obtain ⟨front', rest', hplace, hrest, hlength⟩ := place_append ha' front
      rw [heq]
      exact ⟨front', rest', (congrArg (place candidate) hqueue).trans hplace, hrest b hb hb',
        hlength.trans_le hn⟩
  | cancel partyId =>
    have ha' : a.partyId ≠ partyId := fun heq => hfirst (congrArg some heq.symm)
    have hb' : b.partyId ≠ partyId := fun heq => hsecond (congrArg some heq.symm)
    show Ahead a b n (q.cancel partyId).2
    unfold cancel
    split_ifs
    · refine ⟨front.filter fun e => e.partyId ≠ partyId, rest.filter fun e => e.partyId ≠ partyId,
        ?_, List.mem_filter.mpr ⟨hb, by simpa using hb'⟩, (List.length_filter_le _ _).trans hn⟩
      show q.queue.filter _ = _
      rw [hqueue, List.filter_append, List.filter_cons, if_pos (by simpa using ha')]
    · exact h
  | updatePartySize partyId partySize now =>
    have ha' : a.partyId ≠ partyId := fun heq => hfirst (congrArg some heq.symm)
    have hb' : b.partyId ≠ partyId := fun heq => hsecond (congrArg some heq.symm)
    show Ahead a b n (q.updatePartySize partyId partySize now).2
    unfold updatePartySize
    split_ifs
    · obtain ⟨front', rest', hresize, hrest, hlength⟩ := resize_append ha' front
      exact ⟨front', rest', (congrArg (resize q.rule partyId partySize now) hqueue).trans hresize,
        hrest b hb hb', hlength.trans hn⟩
    · exact h

/-- A search finds one of the two, or a pair of which one was before them. -/
theorem Ahead.search (h : Ahead a b n q) (hc : q.compatible a b now = true)
    (ha : returned a.partyId q (.findMatch now) = 0)
    (hb : returned b.partyId q (.findMatch now) = 0) :
    ∃ m, n = m + 1 ∧ Ahead a b m (q.call (.findMatch now)) := by
  obtain ⟨front, rest, hqueue, hmem, hn⟩ := h
  unfold returned returnedBy at ha hb
  rcases findMatchBy_cases (q.compatible · · now) q with
    ⟨heq, hnone⟩ | ⟨i, j, first, second, hfirst, heq⟩
  · rw [hqueue, List.pairwise_append, List.pairwise_cons] at hnone
    exact absurd hc (hnone.2.1.1 b hmem)
  · simp only [heq, List.count_eq_zero, List.mem_cons, List.not_mem_nil, or_false, not_or]
      at ha hb
    rw [hqueue] at hfirst
    obtain ⟨front', rest', hleft, hmem', hlength⟩ := hfirst.before hmem hc
      (fun h => ha.1 (congrArg _ h.symm)) (fun h => ha.2 (congrArg _ h.symm))
      (fun h => hb.2 (congrArg _ h.symm))
    refine ⟨n - 1, by omega, front', rest', ?_, hmem', by omega⟩
    show (q.findMatchBy _).2.queue = _
    rw [heq, ← hleft, ← hqueue]

/-- As long as neither of the two is returned, each search takes one party away from before them. -/
theorem Ahead.searches (hexpansion : 0 ≤ rule.expansionPerSecond) :
    ∀ {calls : List MatchCall} {q : MatchQueue} {n : ℕ}, q.rule = rule → Ahead a b n q →
      q.compatible a b now = true →
      (∀ c ∈ calls, c.about ≠ some a.partyId ∧ c.about ≠ some b.partyId) →
      (∀ time ∈ calls.filterMap MatchCall.searchTime, now ≤ time) →
      (∀ x ∈ trail MatchQueue.call q calls,
        returned a.partyId x.1 x.2 = 0 ∧ returned b.partyId x.1 x.2 = 0) →
      (calls.filterMap MatchCall.searchTime).length ≤ n
  | [], _, _, _, _, _, _, _, _ => Nat.zero_le _
  | c :: calls, q, n, hrule, h, hc, habout, hlater, hnone => by
    have hnext : (q.call c).rule = rule := (call_rule q c).trans hrule
    have hc' : (q.call c).compatible a b now = true := by
      rw [compatible_congr (call_rule q c)]
      exact hc
    have hrest := fun x hx => hnone x (List.mem_cons_of_mem _ hx)
    have hfirst := hnone (q, c) List.mem_cons_self
    have hrestabout := fun d hd => habout d (List.mem_cons_of_mem c hd)
    rcases hsearch : c.searchTime with _ | time
    · rw [List.filterMap_cons_none hsearch] at hlater ⊢
      obtain ⟨ha, hb⟩ := habout c List.mem_cons_self
      exact Ahead.searches hexpansion hnext (h.call hsearch ha hb) hc' hrestabout hlater hrest
    · cases c with
      | findMatch time' =>
        rw [List.filterMap_cons_some hsearch] at hlater ⊢
        obtain rfl : time' = time := Option.some.inj hsearch
        rw [← hrule] at hexpansion
        obtain ⟨m, rfl, hm⟩ := h.search
          (compatible_later hexpansion (hlater time' List.mem_cons_self) hc) hfirst.1 hfirst.2
        rw [hrule] at hexpansion
        exact Nat.succ_le_succ (Ahead.searches hexpansion hnext hm hc' hrestabout
          (fun t ht => hlater t (List.mem_cons_of_mem _ ht)) hrest)
      | enqueue | cancel | updatePartySize => cases hsearch

end Ahead

section Served

variable {a b : MatchCandidate} {now : Time}

/-- The first of two entries has no more before it than either. -/
theorem ahead_of_mem {q : MatchQueue} {p : ℕ} (ha : q.queue[p]? = some a) (hb : b ∈ q.queue)
    (hne : a ≠ b) : Ahead a b p q ∨ Ahead b a p q := by
  obtain ⟨hp, rfl⟩ := List.getElem?_eq_some_iff.mp ha
  have hsplit : q.queue = q.queue.take p ++ q.queue[p] :: q.queue.drop (p + 1) := by
    rw [List.cons_getElem_drop_succ, List.take_append_drop]
  have hlength : (q.queue.take p).length ≤ p := List.length_take_le _ _
  rw [hsplit, List.mem_append, List.mem_cons] at hb
  rcases hb with hb | rfl | hb
  · obtain ⟨front, rest, hfront⟩ := List.append_of_mem hb
    refine .inr ⟨front, rest ++ q.queue[p] :: q.queue.drop (p + 1), ?_,
      List.mem_append_right _ List.mem_cons_self, ?_⟩
    · rw [← List.cons_append, ← List.append_assoc, ← hfront, ← hsplit]
    · rw [hfront, List.length_append] at hlength
      omega
  · exact absurd rfl hne
  · exact .inl ⟨_, _, hsplit, hb, hlength⟩

/-- Two parties of the queue that go together wait no longer than it takes as many searches as there
are parties up to the first of them: by then one of them has been found, if nothing else was done
about them. -/
theorem matched_within (rule : MatchRule) (hexpansion : 0 ≤ rule.expansionPerSecond)
    (calls calls' : List MatchCall) (a b : MatchCandidate) (p : ℕ) (now : Time)
    (ha : (after call ⟨rule, []⟩ calls).queue[p]? = some a)
    (hb : b ∈ (after call ⟨rule, []⟩ calls).queue) (hne : a.partyId ≠ b.partyId)
    (hc : (after call ⟨rule, []⟩ calls).compatible a b now = true)
    (habout : ∀ c ∈ calls', c.about ≠ some a.partyId ∧ c.about ≠ some b.partyId)
    (hlater : ∀ time ∈ calls'.filterMap MatchCall.searchTime, now ≤ time)
    (hlong : p < (calls'.filterMap MatchCall.searchTime).length) :
    ∃ x ∈ trail call (after call ⟨rule, []⟩ calls) calls',
      0 < returned a.partyId x.1 x.2 ∨ 0 < returned b.partyId x.1 x.2 := by
  by_contra hnone
  push Not at hnone
  have hrule : (after call ⟨rule, []⟩ calls).rule = rule :=
    stable (I := fun q => q.rule = rule) (fun q c h => (call_rule q c).trans h) calls rfl
  have hle : (calls'.filterMap MatchCall.searchTime).length ≤ p := by
    rcases ahead_of_mem ha hb fun heq => hne (congrArg _ heq) with h | h
    · exact h.searches hexpansion hrule hc habout hlater fun x hx =>
        (hnone x hx).imp Nat.le_zero.mp Nat.le_zero.mp
    · rw [compatible_comm] at hc
      exact h.searches hexpansion hrule hc (fun c hc => (habout c hc).symm) hlater fun x hx =>
        ((hnone x hx).imp Nat.le_zero.mp Nat.le_zero.mp).symm
  exact absurd hle (Nat.not_le.mpr hlong)

/-- Four parties wait, and the last two go together: two searches leave no one. -/
theorem matched_within_two :
    let calls : List MatchCall := [.enqueue ⟨1, 0, 1, 0⟩, .enqueue ⟨2, 10, 1, 0⟩,
      .enqueue ⟨3, 1000, 1, 0⟩, .enqueue ⟨4, 1010, 1, 0⟩]
    let calls' : List MatchCall := [.findMatch 0, .cancel 7, .findMatch 0, .findMatch 0]
    ∃ x ∈ trail call (after call ⟨{}, []⟩ calls) calls',
      0 < returned 3 x.1 x.2 ∨ 0 < returned 4 x.1 x.2 := by
  intro calls calls'
  exact matched_within {} (by decide) calls calls' ⟨3, 1000, 1, 0⟩ ⟨4, 1010, 1, 0⟩ 2 0 (by decide)
    (by decide) (by decide) (by decide +kernel) (by decide) (by decide) (by decide)

end Served

end MatchQueue

end DungeonHub
