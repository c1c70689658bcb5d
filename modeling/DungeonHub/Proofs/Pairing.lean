import DungeonHub.Dungeon
import DungeonHub.Lib.Flow
import DungeonHub.Lib.Pairs

/-!
# Parties that wait for a match

The queue of `match_queue.cpp` through any run of its operations: who waits in it, which pair is
found, and how often a party is. None of this depends on what `compatible` computes.
-/

namespace DungeonHub

/-- A call of an operation of the queue. -/
inductive MatchCall where
  | enqueue (candidate : MatchCandidate)
  | cancel (partyId : ℕ)
  | updatePartySize (partyId partySize : ℕ) (now : Time)
  | findMatch (now : Time)

namespace MatchQueue

open Run Pairs

/-- The queue a call leaves, if `goes` says who is compatible. -/
def callBy (goes : MatchCandidate → MatchCandidate → Time → Bool) (q : MatchQueue) :
    MatchCall → MatchQueue
  | .enqueue candidate => (q.enqueue candidate).2
  | .cancel partyId => (q.cancel partyId).2
  | .updatePartySize partyId partySize now => (q.updatePartySize partyId partySize now).2
  | .findMatch now => (q.findMatchBy fun first second => goes first second now).2

/-- The queue a call leaves. -/
def call (q : MatchQueue) (c : MatchCall) : MatchQueue := q.callBy q.compatible c

/-- The ids of the candidates, in order. -/
def ids (queue : List MatchCandidate) : List ℕ := queue.map MatchCandidate.partyId

section Operations

variable {q : MatchQueue} {candidate entry : MatchCandidate} {queue : List MatchCandidate}

theorem ids_place (candidate : MatchCandidate) :
    ∀ queue, ids (place candidate queue) =
      if candidate.partyId ∈ ids queue then ids queue else ids queue ++ [candidate.partyId]
  | [] => by simp [place, ids]
  | entry :: queue => by
    have ih := ids_place candidate queue
    unfold place
    by_cases h : entry.partyId = candidate.partyId
    · rw [if_pos h, if_pos (by simp [ids, h])]
      simp [ids, h]
    · have hmem : candidate.partyId ∈ ids (entry :: queue) ↔ candidate.partyId ∈ ids queue := by
        simp [ids, Ne.symm h]
      rw [if_neg h]
      show entry.partyId :: ids (place candidate queue) = _
      rw [ih]
      simp only [hmem]
      split_ifs <;> rfl

theorem mem_place : ∀ {queue}, entry ∈ place candidate queue → entry = candidate ∨ entry ∈ queue
  | [], h => .inl (List.mem_singleton.mp h)
  | first :: queue, h => by
    unfold place at h
    split_ifs at h
    · rcases List.mem_cons.mp h with rfl | h
      · exact .inl rfl
      · exact .inr (List.mem_cons_of_mem first h)
    · rcases List.mem_cons.mp h with rfl | h
      · exact .inr List.mem_cons_self
      · exact (mem_place h).imp id (List.mem_cons_of_mem first)

theorem ids_resize (rule : MatchRule) (partyId partySize : ℕ) (now : Time) :
    ∀ queue, (ids (resize rule partyId partySize now queue)).Sublist (ids queue)
  | [] => List.Sublist.refl _
  | entry :: queue => by
    unfold resize
    split_ifs
    · exact List.sublist_cons_self _ _
    · exact List.Sublist.refl _
    · exact (ids_resize rule partyId partySize now queue).cons_cons _

/-- An entry of the resized queue was there, or it has been given a size within the bounds. -/
theorem mem_resize {rule : MatchRule} {partyId partySize : ℕ} {now : Time} :
    ∀ {queue}, entry ∈ resize rule partyId partySize now queue →
      entry ∈ queue ∨ rule.minPartySize ≤ entry.partySize ∧ entry.partySize ≤ rule.maxPartySize
  | [], h => .inl h
  | first :: queue, h => by
    unfold resize at h
    split_ifs at h with hid hsize
    · exact .inl (List.mem_cons_of_mem first h)
    · rcases List.mem_cons.mp h with rfl | h
      · rw [not_or, not_lt, not_lt] at hsize
        exact .inr hsize
      · exact .inl (List.mem_cons_of_mem first h)
    · rcases List.mem_cons.mp h with rfl | h
      · exact .inl List.mem_cons_self
      · exact (mem_resize h).imp (List.mem_cons_of_mem first) id

end Operations

section Search

variable {goes : MatchCandidate → MatchCandidate → Bool} {first : MatchCandidate}

theorem partner_eq_none :
    ∀ {queue}, partner goes first queue = none → ∀ entry ∈ queue, ¬goes first entry
  | [], _, _, hmem => absurd hmem (by simp)
  | second :: queue, h, entry, hmem => by
    unfold partner at h
    split_ifs at h with hc
    rw [Option.map_eq_none_iff] at h
    rcases List.mem_cons.mp hmem with rfl | hmem
    · exact hc
    · exact partner_eq_none h entry hmem

theorem partner_eq_some :
    ∀ {queue rest second}, partner goes first queue = some (second, rest) →
      ∃ j, queue[j]? = some second ∧ goes first second ∧ rest = queue.eraseIdx j ∧
        ∀ {j' : ℕ} {b : MatchCandidate}, queue[j']? = some b → goes first b → j ≤ j'
  | [], _, _, h => by simp [partner] at h
  | entry :: queue, _, _, h => by
    unfold partner at h
    split_ifs at h with hc
    · cases h
      exact ⟨0, rfl, hc, rfl, fun _ _ => Nat.zero_le _⟩
    · obtain ⟨⟨second, rest⟩, hrest, heq⟩ := Option.map_eq_some_iff.mp h
      cases heq
      obtain ⟨j, hj, hcompatible, rfl, hleast⟩ := partner_eq_some hrest
      refine ⟨j + 1, hj, hcompatible, rfl, fun {j' b} hb hR => ?_⟩
      rcases j' with _ | j'
      · cases hb
        exact absurd hR hc
      · exact Nat.succ_le_succ (hleast hb hR)

theorem findPair_eq_some :
    ∀ {queue rest first second}, findPair goes queue = some ((first, second), rest) →
      ∃ i j, First (fun a b => goes a b) queue i j first second ∧
        rest = (queue.eraseIdx j).eraseIdx i
  | [], _, _, _, h => by simp [findPair] at h
  | entry :: queue, _, _, _, h => by
    unfold findPair at h
    split at h
    · rename_i hpartner
      cases h
      obtain ⟨j, hj, hcompatible, rfl, hleast⟩ := partner_eq_some hpartner
      exact ⟨0, j + 1, First.head hj hcompatible hleast, rfl⟩
    · rename_i hnone
      obtain ⟨⟨pair, rest⟩, hrest, heq⟩ := Option.map_eq_some_iff.mp h
      cases heq
      obtain ⟨i, j, hfirst, rfl⟩ := findPair_eq_some hrest
      exact ⟨i + 1, j + 1, hfirst.tail (partner_eq_none hnone), rfl⟩

theorem findPair_eq_none :
    ∀ {queue}, findPair goes queue = none → queue.Pairwise fun a b => ¬goes a b
  | [], _ => List.Pairwise.nil
  | entry :: queue, h => by
    unfold findPair at h
    split at h
    · cases h
    · rename_i hnone
      rw [Option.map_eq_none_iff] at h
      exact List.Pairwise.cons (partner_eq_none hnone) (findPair_eq_none h)

theorem findMatchBy_cases (goes : MatchCandidate → MatchCandidate → Bool) (q : MatchQueue) :
    (q.findMatchBy goes = (none, q) ∧ q.queue.Pairwise fun a b => ¬goes a b) ∨
      ∃ i j first second, First (fun a b => goes a b) q.queue i j first second ∧
        q.findMatchBy goes =
          (some (first, second), { q with queue := (q.queue.eraseIdx j).eraseIdx i }) := by
  unfold findMatchBy
  rcases h : findPair goes q.queue with _ | ⟨⟨first, second⟩, rest⟩
  · exact .inl ⟨rfl, findPair_eq_none h⟩
  · obtain ⟨i, j, hfirst, rfl⟩ := findPair_eq_some h
    exact .inr ⟨i, j, first, second, hfirst, rfl⟩

/-- A pair is found if and only if there is one, the one of it that is in front asked first. -/
theorem findMatchBy_isSome_iff (goes : MatchCandidate → MatchCandidate → Bool) (q : MatchQueue) :
    (q.findMatchBy goes).1.isSome ↔ ∃ (i j : ℕ) (a b : MatchCandidate), i < j ∧
      q.queue[i]? = some a ∧ q.queue[j]? = some b ∧ goes a b := by
  rcases findMatchBy_cases goes q with ⟨heq, hnone⟩ | ⟨i, j, first, second, hfirst, heq⟩
  · rw [heq]
    refine iff_of_false (by simp) ?_
    rintro ⟨i, j, a, b, hlt, ha, hb, hc⟩
    obtain ⟨hi, rfl⟩ := List.getElem?_eq_some_iff.mp ha
    obtain ⟨hj, rfl⟩ := List.getElem?_eq_some_iff.mp hb
    exact List.pairwise_iff_getElem.mp hnone i j hi hj hlt hc
  · rw [heq]
    exact iff_of_true rfl ⟨i, j, first, second, hfirst.lt, hfirst.left, hfirst.right,
      hfirst.related⟩

end Search

section Runs

variable {rule : MatchRule} {q : MatchQueue} {goes : MatchCandidate → MatchCandidate → Time → Bool}

/-- Nobody waits twice, and whoever waits may. -/
structure Valid (rule : MatchRule) (q : MatchQueue) : Prop where
  ruled : q.rule = rule
  nodup : (ids q.queue).Nodup
  nonzero : 0 ∉ ids q.queue
  sizes : ∀ entry ∈ q.queue,
    rule.minPartySize ≤ entry.partySize ∧ entry.partySize ≤ rule.maxPartySize

/-- What is left of a valid queue is one. -/
theorem Valid.of_sublist (h : Valid rule q) {queue : List MatchCandidate}
    (hqueue : queue.Sublist q.queue) : Valid rule { q with queue } where
  ruled := h.ruled
  nodup := h.nodup.sublist (hqueue.map _)
  nonzero hmem := h.nonzero ((hqueue.map _).subset hmem)
  sizes entry hentry := h.sizes entry (hqueue.subset hentry)

theorem enqueue_cases (q : MatchQueue) (candidate : MatchCandidate) :
    q.enqueue candidate = (false, q) ∨
      q.enqueue candidate = (true, { q with queue := place candidate q.queue }) ∧
        candidate.partyId ≠ 0 ∧ q.rule.minPartySize ≤ candidate.partySize ∧
        candidate.partySize ≤ q.rule.maxPartySize := by
  unfold enqueue
  split_ifs with hid hsize
  · exact .inl rfl
  · exact .inl rfl
  · rw [not_or, not_lt, not_lt] at hsize
    exact .inr ⟨rfl, hid, hsize⟩

theorem Valid.place (h : Valid rule q) {candidate : MatchCandidate} (hid : candidate.partyId ≠ 0)
    (hsize : rule.minPartySize ≤ candidate.partySize ∧ candidate.partySize ≤ rule.maxPartySize) :
    Valid rule { q with queue := MatchQueue.place candidate q.queue } where
  ruled := h.ruled
  nodup := by
    show (ids (MatchQueue.place candidate q.queue)).Nodup
    rw [ids_place]
    split_ifs with hmem
    · exact h.nodup
    · exact List.nodup_append.mpr ⟨h.nodup, List.nodup_singleton _, fun a ha b hb => by
        rw [List.mem_singleton.mp hb]
        exact fun heq => hmem (heq ▸ ha)⟩
  nonzero := by
    show 0 ∉ ids (MatchQueue.place candidate q.queue)
    rw [ids_place]
    split_ifs
    · exact h.nonzero
    · rw [List.mem_append, List.mem_singleton, not_or]
      exact ⟨h.nonzero, Ne.symm hid⟩
  sizes entry hentry := by
    rcases mem_place hentry with rfl | hentry
    · exact hsize
    · exact h.sizes entry hentry

theorem callBy_valid (h : Valid rule q) (call : MatchCall) : Valid rule (q.callBy goes call) := by
  cases call with
  | enqueue candidate =>
    show Valid rule (q.enqueue candidate).2
    rcases enqueue_cases q candidate with heq | ⟨heq, hid, hsize⟩
    · rw [heq]
      exact h
    · rw [heq]
      rw [h.ruled] at hsize
      exact h.place hid hsize
  | cancel partyId =>
    show Valid rule (q.cancel partyId).2
    unfold cancel
    split_ifs
    · exact h.of_sublist List.filter_sublist
    · exact h
  | updatePartySize partyId partySize now =>
    show Valid rule (q.updatePartySize partyId partySize now).2
    unfold updatePartySize
    split_ifs
    · have hids := ids_resize q.rule partyId partySize now q.queue
      refine ⟨h.ruled, h.nodup.sublist hids, fun hmem => h.nonzero (hids.subset hmem),
        fun entry hentry => ?_⟩
      rcases mem_resize hentry with hentry | hsize
      · exact h.sizes entry hentry
      · rw [h.ruled] at hsize
        exact hsize
    · exact h
  | findMatch now =>
    show Valid rule (q.findMatchBy _).2
    rcases findMatchBy_cases (goes · · now) q with ⟨heq, -⟩ | ⟨i, j, first, second, -, heq⟩
    · rw [heq]
      exact h
    · rw [heq]
      exact h.of_sublist ((List.eraseIdx_sublist _ _).trans (List.eraseIdx_sublist _ _))

theorem valid_new (rule : MatchRule) : Valid rule ⟨rule, []⟩ :=
  ⟨rfl, List.nodup_nil, by simp [ids], by simp⟩

/-- How often the party is in the queue. -/
def waiting (partyId : ℕ) (q : MatchQueue) : ℕ := (ids q.queue).count partyId

/-- How often the party gets into the queue, in which it was not: once, or not. -/
def entered (partyId : ℕ) (q : MatchQueue) : MatchCall → ℕ
  | .enqueue candidate =>
    if (q.enqueue candidate).1 ∧ candidate.partyId = partyId ∧ partyId ∉ ids q.queue then 1 else 0
  | _ => 0

/-- How often the party is in the pair that the call returns, if `goes` says who is compatible. -/
def returnedBy (goes : MatchCandidate → MatchCandidate → Time → Bool) (partyId : ℕ)
    (q : MatchQueue) : MatchCall → ℕ
  | .findMatch now =>
    match (q.findMatchBy fun first second => goes first second now).1 with
    | none => 0
    | some (first, second) => [first.partyId, second.partyId].count partyId
  | _ => 0

/-- How often the party is in the pair that the call returns. -/
def returned (partyId : ℕ) (q : MatchQueue) (c : MatchCall) : ℕ :=
  returnedBy q.compatible partyId q c

/-- A party that is returned was in the queue and is no longer. -/
theorem returnedBy_add_waiting_le (goes : MatchCandidate → MatchCandidate → Time → Bool)
    (partyId : ℕ) (q : MatchQueue) (call : MatchCall) :
    returnedBy goes partyId q call + waiting partyId (q.callBy goes call) ≤
      waiting partyId q + entered partyId q call := by
  unfold waiting
  cases call with
  | enqueue candidate =>
    show 0 + (ids (q.enqueue candidate).2.queue).count partyId ≤ _
    unfold entered
    rcases enqueue_cases q candidate with heq | ⟨heq, -⟩
    · rw [heq]
      simp
    · rw [heq]
      show 0 + (ids (MatchQueue.place candidate q.queue)).count partyId ≤ _
      rw [ids_place]
      by_cases hmem : candidate.partyId ∈ ids q.queue
      · simp [hmem]
      · by_cases hid : candidate.partyId = partyId
        · subst hid
          simp [hmem, heq]
        · simp [hmem, hid]
  | cancel partyId' =>
    show 0 + (ids (q.cancel partyId').2.queue).count partyId ≤ _
    unfold cancel
    split_ifs
    · rw [zero_add]
      exact (List.filter_sublist.map _).count_le _
    · simp [entered]
  | updatePartySize partyId' partySize now =>
    show 0 + (ids (q.updatePartySize partyId' partySize now).2.queue).count partyId ≤ _
    unfold updatePartySize
    split_ifs
    · rw [zero_add]
      exact (ids_resize q.rule partyId' partySize now q.queue).count_le _
    · simp [entered]
  | findMatch now =>
    show returnedBy goes partyId q (.findMatch now) +
      (ids (q.findMatchBy (goes · · now)).2.queue).count partyId ≤ _
    unfold returnedBy entered
    rcases findMatchBy_cases (goes · · now) q with ⟨heq, -⟩ | ⟨i, j, first, second, hfirst, heq⟩
    · simp [heq]
    · have hperm : ([first.partyId, second.partyId] ++
          ids ((q.queue.eraseIdx j).eraseIdx i)).Perm (ids q.queue) := hfirst.perm.map _
      simp only [heq]
      rw [← List.count_append, hperm.count_eq, add_zero]

theorem returnedBy_le (goes : MatchCandidate → MatchCandidate → Time → Bool) (partyId : ℕ)
    (q : MatchQueue) (calls : List MatchCall) :
    ((trail (callBy goes) q calls).map fun x => returnedBy goes partyId x.1 x.2).sum +
        waiting partyId (after (callBy goes) q calls) ≤
      waiting partyId q +
        ((trail (callBy goes) q calls).map fun x => entered partyId x.1 x.2).sum :=
  Flow.outlay_le (returnedBy_add_waiting_le goes partyId) calls q

/-- In every run nobody waits twice; the pair that is found is the first one that goes together,
these two leave and the others stay in order; and nobody is found more often than they got in, from
the start and from any state on. `goes` is what `compatible` computes, in floating point and with
`int`s: it may be anything, and if it does not mind the order, nor does who is found. -/
theorem matches_found (goes : MatchCandidate → MatchCandidate → Time → Bool) (rule : MatchRule)
    (calls : List MatchCall) :
    let q := after (callBy goes) ⟨rule, []⟩ calls
    let findMatch := fun now => q.findMatchBy fun first second => goes first second now
    Valid rule q ∧
      (∀ now, (findMatch now).1.isSome ↔ ∃ (i j : ℕ) (a b : MatchCandidate), i < j ∧
        q.queue[i]? = some a ∧ q.queue[j]? = some b ∧ goes a b now) ∧
      (∀ now, (∀ a b, goes a b now = goes b a now) →
        ((findMatch now).1.isSome ↔ ∃ (i j : ℕ) (a b : MatchCandidate), i ≠ j ∧
          q.queue[i]? = some a ∧ q.queue[j]? = some b ∧ goes a b now)) ∧
      (∀ now, (findMatch now).1 = none → (findMatch now).2 = q) ∧
      (∀ now first second, (findMatch now).1 = some (first, second) →
        first.partyId ≠ second.partyId ∧ ∃ i j,
          First (fun a b => goes a b now) q.queue i j first second ∧
          (findMatch now).2 = { q with queue := (q.queue.eraseIdx j).eraseIdx i }) ∧
      (∀ partyId,
        ((trail (callBy goes) ⟨rule, []⟩ calls).map fun x => returnedBy goes partyId x.1 x.2).sum +
            waiting partyId q ≤
          ((trail (callBy goes) ⟨rule, []⟩ calls).map fun x => entered partyId x.1 x.2).sum) ∧
      ∀ partyId calls',
        ((trail (callBy goes) q calls').map fun x => returnedBy goes partyId x.1 x.2).sum +
            waiting partyId (after (callBy goes) q calls') ≤
          waiting partyId q +
            ((trail (callBy goes) q calls').map fun x => entered partyId x.1 x.2).sum := by
  intro q findMatch
  have hq : Valid rule q :=
    stable (I := Valid rule) (fun _ call h => callBy_valid h call) calls (valid_new rule)
  have hcases := fun now => findMatchBy_cases (goes · · now) q
  refine ⟨hq, fun now => findMatchBy_isSome_iff _ q, fun now hcomm => ?_, fun now hnone => ?_,
    fun now first second hsome => ?_, fun partyId => ?_,
    fun partyId calls' => returnedBy_le goes partyId q calls'⟩
  · rw [findMatchBy_isSome_iff]
    constructor
    · rintro ⟨i, j, a, b, hlt, h⟩
      exact ⟨i, j, a, b, hlt.ne, h⟩
    · rintro ⟨i, j, a, b, hne, ha, hb, hc⟩
      rcases Nat.lt_or_gt_of_ne hne with hlt | hlt
      · exact ⟨i, j, a, b, hlt, ha, hb, hc⟩
      · exact ⟨j, i, b, a, hlt, hb, ha, hcomm a b ▸ hc⟩
  · rcases hcases now with ⟨heq, -⟩ | ⟨i, j, first, second, -, heq⟩
    · exact congrArg Prod.snd heq
    · rw [show findMatch now = _ from heq] at hnone
      cases hnone
  · rcases hcases now with ⟨heq, -⟩ | ⟨i, j, first', second', hfirst, heq⟩
    · rw [show findMatch now = _ from heq] at hsome
      cases hsome
    · rw [show findMatch now = _ from heq] at hsome
      cases hsome
      exact ⟨hfirst.ne hq.nodup, i, j, hfirst, congrArg Prod.snd heq⟩
  · have hall := returnedBy_le goes partyId ⟨rule, []⟩ calls
    simpa [waiting, ids] using hall

end Runs

section Exact

theorem compatible_comm (q : MatchQueue) (first second : MatchCandidate) (now : Time) :
    q.compatible first second now = q.compatible second first now := by
  unfold compatible
  dsimp only
  rw [abs_sub_comm, min_comm]
  congr 1
  simp only [eq_iff_iff]
  tauto

theorem compatible_congr {q q' : MatchQueue} (h : q'.rule = q.rule)
    (first second : MatchCandidate) (now : Time) :
    q'.compatible first second now = q.compatible first second now := by
  unfold compatible
  rw [h]

theorem call_rule (q : MatchQueue) (c : MatchCall) : (q.call c).rule = q.rule := by
  cases c with
  | enqueue candidate =>
    show (q.enqueue candidate).2.rule = _
    unfold enqueue
    split_ifs <;> rfl
  | cancel partyId =>
    show (q.cancel partyId).2.rule = _
    unfold cancel
    split_ifs <;> rfl
  | updatePartySize partyId partySize now =>
    show (q.updatePartySize partyId partySize now).2.rule = _
    unfold updatePartySize
    split_ifs <;> rfl
  | findMatch now =>
    show (q.findMatchBy _).2.rule = _
    unfold findMatchBy
    split <;> rfl

/-- A run with the exact `compatible` is one of those runs. -/
theorem after_call {rule : MatchRule} : ∀ (calls : List MatchCall) {q : MatchQueue},
    q.rule = rule → after call q calls = after (callBy (compatible ⟨rule, []⟩)) q calls
  | [], _, _ => rfl
  | c :: calls, q, h => by
    have hc : q.call c = q.callBy (compatible ⟨rule, []⟩) c := by
      have hgoes : q.compatible = compatible ⟨rule, []⟩ :=
        funext fun a => funext fun b => funext fun now => compatible_congr h a b now
      show q.callBy q.compatible c = _
      rw [hgoes]
    rw [after_cons, after_cons, ← hc]
    exact after_call calls ((call_rule q c).trans h)

end Exact

end MatchQueue

end DungeonHub
