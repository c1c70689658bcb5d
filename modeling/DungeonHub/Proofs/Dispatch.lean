import DungeonHub.Proofs.WorkerPool

/-!
# What becomes of each job

Each job is in one place at a time: with a producer, in the queue, with the dispatcher thread, in
the pool, or with a worker. Jobs leave the queue at its front, evicted or popped, and go on in that
order until a worker has taken them.
-/

namespace DungeonHub

/-- The job a thread has in hand. -/
def ProducerPhase.hand : ProducerPhase → List PushedJob
  | .ready job => [job]
  | .waiting job => [job]
  | _ => []

def DispatchPhase.hand : DispatchPhase → List PushedJob
  | .notifying job => [job]
  | .holding job => [job]
  | _ => []

def WorkerPhase.hand : WorkerPhase → List PushedJob
  | .running job => [job]
  | _ => []

/-- Whether the step moves a job; the others only move threads. -/
def DispatchEvent.moves : DispatchEvent → Bool
  | .call _ _ => true
  | .push _ => true
  | .pop => true
  | .submit => true
  | .take _ => true
  | .run _ => true
  | _ => false

namespace PacketDispatcher

open Run

/-- The jobs the producers and the workers have in hand. -/
def pushing (s : PacketDispatcher) : List PushedJob := s.producers.flatMap ProducerPhase.hand

def running (s : PacketDispatcher) : List PushedJob := s.workers.flatMap WorkerPhase.hand

variable {s s' : PacketDispatcher} {i k : ℕ} {job : PushedJob}

@[simp] theorem jobsOf_append (record : List (Fate × PushedJob)) (fate : Fate) (job : PushedJob)
    (fates : List Fate) : jobsOf (record ++ [(fate, job)]) fates =
      if fate ∈ fates then jobsOf record fates ++ [job] else jobsOf record fates := by
  unfold jobsOf
  simp only [List.filter_append, List.map_append, List.filter_cons, List.filter_nil,
    decide_eq_true_eq]
  split_ifs <;> simp

theorem mem_jobsOf_cons {record : List (Fate × PushedJob)} {fate : Fate} {fates : List Fate} :
    job ∈ jobsOf record (fate :: fates) ↔
      job ∈ jobsOf record [fate] ∨ job ∈ jobsOf record fates := by
  simp only [jobsOf, List.mem_map, List.mem_filter, decide_eq_true_eq, List.mem_cons,
    List.not_mem_nil, or_false, and_or_left, or_and_right, exists_or]

section Flow

/-- Where the jobs are: each call of `push` has a job of its own; the accepted ones have left the
queue or are in it, in order; those that were popped have been submitted, or the dispatcher thread
has them, unless no handler is set; those that were submitted have been taken, or are in the pool;
and those that were taken have been handled, or the workers have them. -/
structure Flow (s : PacketDispatcher) : Prop where
  fresh : ∀ job ∈ s.pushing ++ jobsOf s.record [.accepted, .late], job.call < s.calls
  distinct : (s.pushing ++ jobsOf s.record [.accepted, .late]).Nodup
  queued : jobsOf s.record [.accepted, .late] = jobsOf s.record [.evicted, .popped] ++ s.queue.queue
  popped : s.handler = true →
    jobsOf s.record [.popped] = jobsOf s.record [.submitted] ++ s.dispatcher.hand
  discarded : s.handler = false → jobsOf s.record [.submitted] = []
  submitted : jobsOf s.record [.submitted] = jobsOf s.record [.taken] ++ s.pool.jobs
  taken : (jobsOf s.record [.taken]).Perm (jobsOf s.record [.handled] ++ s.running)
  dropped : s.queue.dropped =
    (jobsOf s.record [.refused]).length + (jobsOf s.record [.evicted]).length
  bounded : s.queue.config.capacity ≠ 0 → s.queue.queue.length ≤ s.queue.config.capacity

/-- No job moves. -/
structure Still (s s' : PacketDispatcher) : Prop where
  handler : s'.handler = s.handler
  calls : s'.calls = s.calls
  record : s'.record = s.record
  config : s'.queue.config = s.queue.config
  queue : s'.queue.queue = s.queue.queue
  dropped : s'.queue.dropped = s.queue.dropped
  jobs : s'.pool.jobs = s.pool.jobs
  pushing : s'.pushing = s.pushing
  hand : s'.dispatcher.hand = s.dispatcher.hand
  running : s'.running = s.running

theorem Flow.still (h : Flow s) (hs : Still s s') : Flow s' := by
  constructor
  · rw [hs.pushing, hs.record, hs.calls]
    exact h.fresh
  · rw [hs.pushing, hs.record]
    exact h.distinct
  · rw [hs.record, hs.queue]
    exact h.queued
  · rw [hs.handler, hs.record, hs.hand]
    exact h.popped
  · rw [hs.handler, hs.record]
    exact h.discarded
  · rw [hs.record, hs.jobs]
    exact h.submitted
  · rw [hs.record, hs.running]
    exact h.taken
  · rw [hs.dropped, hs.record]
    exact h.dropped
  · rw [hs.config, hs.queue]
    exact h.bounded

theorem pushing_set {p p' : ProducerPhase} (h : s.producers[i]? = some p) (hp : p'.hand = p.hand) :
    (s.producers.set i p').flatMap ProducerPhase.hand = s.pushing :=
  Slots.flatMap_set_of_eq _ h hp

theorem running_set {w w' : WorkerPhase} (h : s.workers[k]? = some w) (hw : w'.hand = w.hand) :
    (s.workers.set k w').flatMap WorkerPhase.hand = s.running :=
  Slots.flatMap_set_of_eq _ h hw

theorem wake_still {waiter : Waiter} (h : s.wake waiter = some s') : Still s s' := by
  rcases wake_cases h with ⟨i, job, hi, rfl⟩ | ⟨hd, rfl⟩
  · exact ⟨rfl, rfl, rfl, rfl, rfl, rfl, rfl, pushing_set hi rfl, rfl, rfl⟩
  · exact ⟨rfl, rfl, rfl, rfl, rfl, rfl, rfl, rfl, by rw [hd]; rfl, rfl⟩

theorem Still.trans {t : PacketDispatcher} (h : Still s s') (h' : Still s' t) : Still s t :=
  ⟨h'.handler.trans h.handler, h'.calls.trans h.calls, h'.record.trans h.record,
    h'.config.trans h.config, h'.queue.trans h.queue, h'.dropped.trans h.dropped,
    h'.jobs.trans h.jobs, h'.pushing.trans h.pushing, h'.hand.trans h.hand,
    h'.running.trans h.running⟩

theorem Still.refl (s : PacketDispatcher) : Still s s :=
  ⟨rfl, rfl, rfl, rfl, rfl, rfl, rfl, rfl, rfl, rfl⟩

theorem notifyOne_still {waiter : Option Waiter} (h : s.notifyOne waiter = some s') :
    Still s s' :=
  notifyOne_keeps (.refl s) (fun _ _ => wake_still) h

theorem wakeAll_still (s : PacketDispatcher) : Still s s.wakeAll := by
  refine ⟨rfl, rfl, rfl, rfl, rfl, rfl, rfl, ?_, ?_, rfl⟩
  · show (s.producers.map _).flatMap ProducerPhase.hand = s.producers.flatMap ProducerPhase.hand
    rw [List.flatMap_map]
    refine congrArg (List.flatMap · s.producers) (funext fun p => ?_)
    cases p <;> rfl
  · unfold wakeAll
    cases s.dispatcher <;> rfl

theorem wakeAllWorkers_still (s : PacketDispatcher) : Still s s.wakeAllWorkers := by
  refine ⟨rfl, rfl, rfl, rfl, rfl, rfl, rfl, rfl, rfl, ?_⟩
  show (s.workers.map _).flatMap WorkerPhase.hand = s.workers.flatMap WorkerPhase.hand
  rw [List.flatMap_map]
  refine congrArg (List.flatMap · s.workers) (funext fun w => ?_)
  cases w <;> rfl

theorem Flow.call (h : Flow s) (hi : s.producers[i]? = some .idle) (packet : PacketJob) :
    Flow { s with
      producers := s.producers.set i (.ready ⟨s.calls, packet⟩)
      calls := s.calls + 1 } := by
  have hperm : ((s.producers.set i (.ready ⟨s.calls, packet⟩)).flatMap ProducerPhase.hand).Perm
      (⟨s.calls, packet⟩ :: s.pushing) :=
    Slots.flatMap_set_perm ProducerPhase.hand hi (.ready ⟨s.calls, packet⟩)
  have hall := hperm.append_right (jobsOf s.record [.accepted, .late])
  refine ⟨fun job hjob => ?_, ?_, h.queued, h.popped, h.discarded, h.submitted, h.taken, h.dropped,
    h.bounded⟩
  · rcases List.mem_cons.mp (hall.mem_iff.mp hjob) with rfl | hjob
    · exact Nat.lt_succ_self _
    · exact Nat.lt_succ_of_lt (h.fresh job hjob)
  · refine hall.nodup_iff.mpr (List.nodup_cons.mpr ⟨fun hmem => ?_, h.distinct⟩)
    exact lt_irrefl _ (h.fresh _ hmem)

/-- A producer lets go of its job. -/
theorem pushing_lets_go {p : ProducerPhase} (hi : s.producers[i]? = some (.ready job))
    (hp : p.hand = []) :
    (job :: (s.producers.set i p).flatMap ProducerPhase.hand).Perm s.pushing := by
  have hperm := Slots.flatMap_set_perm ProducerPhase.hand hi p
  rwa [hp, List.nil_append] at hperm

/-- `push` returns `false`: the queue counts the job, or is stopped. -/
theorem Flow.rejected (h : Flow s) (hi : s.producers[i]? = some (.ready job)) {fate : Fate}
    {dropped : ℕ} (hfate : fate = .refused ∧ dropped = s.queue.dropped + 1 ∨
      fate = .turnedAway ∧ dropped = s.queue.dropped) :
    Flow ({ s with
      queue := { s.queue with dropped }
      producers := s.producers.set i .idle }.note fate job) := by
  have hall := (pushing_lets_go hi (p := .idle) rfl).append_right
    (jobsOf s.record [.accepted, .late])
  have hsame : ∀ fates, .refused ∉ fates → .turnedAway ∉ fates →
      jobsOf (s.record ++ [(fate, job)]) fates = jobsOf s.record fates := by
    intro fates hrefused hturned
    rw [jobsOf_append, if_neg]
    rcases hfate with ⟨rfl, -⟩ | ⟨rfl, -⟩
    · exact hrefused
    · exact hturned
  constructor
  · intro other hother
    refine h.fresh other (hall.mem_iff.mp (List.mem_cons_of_mem _ ?_))
    rwa [note, hsame _ (by simp) (by simp)] at hother
  · rw [note, hsame _ (by simp) (by simp)]
    exact (List.nodup_cons.mp (hall.nodup_iff.mpr h.distinct)).2
  · rw [note, hsame _ (by simp) (by simp), hsame _ (by simp) (by simp)]
    exact h.queued
  · rw [note, hsame _ (by simp) (by simp), hsame _ (by simp) (by simp)]
    exact h.popped
  · rw [note, hsame _ (by simp) (by simp)]
    exact h.discarded
  · rw [note, hsame _ (by simp) (by simp), hsame _ (by simp) (by simp)]
    exact h.submitted
  · rw [note, hsame _ (by simp) (by simp), hsame _ (by simp) (by simp)]
    exact h.taken
  · have hdropped := h.dropped
    rcases hfate with ⟨rfl, rfl⟩ | ⟨rfl, rfl⟩
    · simp [note]
      omega
    · simpa [note] using hdropped
  · exact h.bounded

/-- The oldest job is put out of the queue. -/
theorem Flow.evicted (h : Flow s) {old : PushedJob} {rest : List PushedJob}
    (hqueue : s.queue.queue = old :: rest) :
    Flow ({ s with
      queue := { s.queue with queue := rest, dropped := s.queue.dropped + 1 } }.note
        .evicted old) := by
  have hdropped := h.dropped
  have hqueued := h.queued
  have hbounded := h.bounded
  rw [hqueue] at hqueued hbounded
  constructor
  · simpa [note, pushing, running] using h.fresh
  · simpa [note, pushing, running] using h.distinct
  · simpa [note, pushing, running] using hqueued
  · simpa [note, pushing, running] using h.popped
  · simpa [note, pushing, running] using h.discarded
  · simpa [note, pushing, running] using h.submitted
  · simpa [note, pushing, running] using h.taken
  · simp [note]
    omega
  · intro hc
    have hle := hbounded hc
    rw [List.length_cons] at hle
    exact (Nat.le_succ _).trans hle

/-- A producer's job is put into the queue, where there is room. -/
theorem Flow.accepted (h : Flow s) (hi : s.producers[i]? = some (.ready job))
    (hroom : s.queue.config.capacity ≠ 0 → s.queue.queue.length < s.queue.config.capacity)
    {fate : Fate} (hfate : fate = .accepted ∨ fate = .late) :
    Flow ({ s with
      queue := { s.queue with queue := s.queue.queue ++ [job] }
      producers := s.producers.set i .notifying }.note fate job) := by
  have hall : ((s.producers.set i .notifying).flatMap ProducerPhase.hand ++
      (jobsOf s.record [.accepted, .late] ++ [job])).Perm
      (s.pushing ++ jobsOf s.record [.accepted, .late]) := by
    refine List.Perm.trans ?_ ((pushing_lets_go hi (p := .notifying) rfl).append_right _)
    rw [← List.append_assoc]
    exact List.perm_append_singleton _ _
  have hrecord : jobsOf (s.record ++ [(fate, job)]) [.accepted, .late] =
      jobsOf s.record [.accepted, .late] ++ [job] := by
    rcases hfate with rfl | rfl <;> simp
  constructor
  · intro other hother
    refine h.fresh other (hall.mem_iff.mp ?_)
    rw [← hrecord]
    exact hother
  · show (_ ++ jobsOf (s.record ++ [(fate, job)]) _).Nodup
    rw [hrecord]
    exact hall.nodup_iff.mpr h.distinct
  · show jobsOf (s.record ++ [(fate, job)]) _ = jobsOf (s.record ++ [(fate, job)]) _ ++ _
    rw [hrecord, h.queued]
    rcases hfate with rfl | rfl <;> simp [note]
  · rcases hfate with rfl | rfl <;> simpa [note, pushing, running] using h.popped
  · rcases hfate with rfl | rfl <;> simpa [note, pushing, running] using h.discarded
  · rcases hfate with rfl | rfl <;> simpa [note, pushing, running] using h.submitted
  · rcases hfate with rfl | rfl <;> simpa [note, pushing, running] using h.taken
  · rcases hfate with rfl | rfl <;> simpa [note, pushing, running] using h.dropped
  · intro hc
    show (s.queue.queue ++ [job]).length ≤ _
    rw [List.length_append]
    exact hroom hc

theorem Flow.push (h : Flow s) (hi : s.producers[i]? = some (.ready job)) :
    Flow (s.afterPush i job (s.queue.push job)) := by
  rcases hp : s.queue.push job with _ | _ | queue | ⟨evicted, queue⟩
  · exact h.still ⟨rfl, rfl, rfl, rfl, rfl, rfl, rfl, pushing_set hi rfl, rfl, rfl⟩
  · exact h.rejected hi (.inr ⟨rfl, rfl⟩)
  · rw [PacketQueue.push_refused hp]
    exact h.rejected hi (.inl ⟨rfl, rfl⟩)
  · obtain ⟨rest, hqueue, rfl, hroom⟩ := PacketQueue.push_taken hp
    have hfate : (if s.queue.stopped then Fate.late else .accepted) = .accepted ∨
        (if s.queue.stopped then Fate.late else .accepted) = .late := by
      split_ifs <;> simp
    rcases evicted with _ | old
    · obtain rfl : s.queue.queue = rest := hqueue
      exact h.accepted hi (fun hc => hroom hc (h.bounded hc)) hfate
    · exact (h.evicted hqueue).accepted hi (fun hc => hroom hc (h.bounded hc)) hfate

theorem afterPop_hand (s : PacketDispatcher) (job : PushedJob) (queue : PacketQueue) :
    (s.afterPop (.taken job queue)).dispatcher.hand = [job] := by
  show (if queue.config.capacity > 0 then DispatchPhase.notifying job else .holding job).hand = _
  split_ifs <;> rfl

theorem Flow.pop (h : Flow s) (hd : s.dispatcher = .ready) :
    Flow (s.afterPop s.queue.pop) := by
  rcases hp : s.queue.pop with _ | _ | ⟨job, queue⟩
  · exact h.still ⟨rfl, rfl, rfl, rfl, rfl, rfl, rfl, rfl, by rw [hd]; rfl, rfl⟩
  · exact h.still ⟨rfl, rfl, rfl, rfl, rfl, rfl, rfl, rfl, by rw [hd]; rfl, rfl⟩
  · obtain ⟨rest, hqueue, rfl⟩ := PacketQueue.pop_taken hp
    have hqueued := h.queued
    have hpopped := h.popped
    have hbounded := h.bounded
    rw [hqueue] at hqueued hbounded
    rw [hd] at hpopped
    constructor
    · simpa [afterPop, note, pushing, running] using h.fresh
    · simpa [afterPop, note, pushing, running] using h.distinct
    · simpa [afterPop, note, pushing, running] using hqueued
    · intro hs
      show jobsOf (s.record ++ [(.popped, job)]) [.popped] =
        jobsOf (s.record ++ [(.popped, job)]) [.submitted] ++ DispatchPhase.hand _
      rw [afterPop_hand]
      simpa [DispatchPhase.hand] using hpopped hs
    · simpa [afterPop, note] using h.discarded
    · simpa [afterPop, note, pushing, running] using h.submitted
    · simpa [afterPop, note, pushing, running] using h.taken
    · simpa [afterPop, note, pushing, running] using h.dropped
    · intro hc
      have hle := hbounded hc
      rw [List.length_cons] at hle
      exact (Nat.le_succ _).trans hle

/-- Without a handler the job is lost. -/
theorem Flow.submit (h : Flow s) (hd : s.dispatcher = .holding job) :
    Flow (if s.handler then
        { s with
          pool := { s.pool with jobs := s.pool.jobs ++ [job] }
          dispatcher := .submitted }.note .submitted job
      else { s with dispatcher := .ready }) := by
  have hpopped := h.popped
  rw [hd] at hpopped
  by_cases hs : s.handler = true
  · rw [if_pos hs]
    constructor
    · simpa [note, pushing, running] using h.fresh
    · simpa [note, pushing, running] using h.distinct
    · simpa [note, pushing, running] using h.queued
    · simpa [note, DispatchPhase.hand] using hpopped
    · simp [note, hs]
    · simp [note, h.submitted]
    · simpa [note, pushing, running] using h.taken
    · simpa [note, pushing, running] using h.dropped
    · exact h.bounded
  · rw [if_neg hs]
    exact ⟨h.fresh, h.distinct, h.queued, fun hs' => absurd hs' hs, h.discarded, h.submitted,
      h.taken, h.dropped, h.bounded⟩

theorem Flow.take (h : Flow s) (hk : s.workers[k]? = some .ready) :
    Flow (s.afterTake k s.pool.take) := by
  unfold WorkerPool.take
  split
  · split_ifs
    · exact h.still ⟨rfl, rfl, rfl, rfl, rfl, rfl, rfl, rfl, rfl, running_set hk rfl⟩
    · exact h.still ⟨rfl, rfl, rfl, rfl, rfl, rfl, rfl, rfl, rfl, running_set hk rfl⟩
  · rename_i job rest hjobs
    have hsubmitted := h.submitted
    rw [hjobs] at hsubmitted
    have hrunning : ((s.workers.set k (.running job)).flatMap WorkerPhase.hand).Perm
        (job :: s.running) := Slots.flatMap_set_perm WorkerPhase.hand hk (.running job)
    constructor
    · simpa [afterTake, note, pushing, running] using h.fresh
    · simpa [afterTake, note, pushing, running] using h.distinct
    · simpa [afterTake, note, pushing, running] using h.queued
    · simpa [afterTake, note, pushing, running] using h.popped
    · simpa [afterTake, note, pushing, running] using h.discarded
    · simpa [afterTake, note, pushing, running] using hsubmitted
    · have hall : (jobsOf s.record [.taken] ++ [job]).Perm (jobsOf s.record [.handled] ++
          (s.workers.set k (.running job)).flatMap WorkerPhase.hand) := by
        refine (List.perm_append_singleton job _).trans ?_
        refine (h.taken.cons job).trans ?_
        refine List.Perm.trans ?_ (hrunning.symm.append_left _)
        exact List.perm_middle.symm
      simpa [afterTake, note, pushing, running] using hall
    · simpa [afterTake, note, pushing, running] using h.dropped
    · exact h.bounded

theorem Flow.run (h : Flow s) (hk : s.workers[k]? = some (.running job)) :
    Flow ({ s with workers := s.workers.set k .ready }.note .handled job) := by
  have hrunning : (job :: (s.workers.set k .ready).flatMap WorkerPhase.hand).Perm s.running :=
    Slots.flatMap_set_perm WorkerPhase.hand hk .ready
  constructor
  · simpa [note, pushing, running] using h.fresh
  · simpa [note, pushing, running] using h.distinct
  · simpa [note, pushing, running] using h.queued
  · simpa [note, pushing, running] using h.popped
  · simpa [note, pushing, running] using h.discarded
  · simpa [note, pushing, running] using h.submitted
  · have hall : (jobsOf s.record [.taken]).Perm (jobsOf s.record [.handled] ++
        job :: (s.workers.set k .ready).flatMap WorkerPhase.hand) :=
      h.taken.trans (hrunning.symm.append_left _)
    simpa [note, pushing, running] using hall
  · simpa [note, pushing, running] using h.dropped
  · exact h.bounded

theorem next_still {e : DispatchEvent} (he : e.moves = false) (h : s.next e = some s') :
    Still s s' := by
  cases e with
  | call | push | pop | submit | take | run => cases he
  | pushNotify i waiter =>
    obtain ⟨hi, hw⟩ := next_pushNotify h
    have hidle : Still s { s with producers := s.producers.set i .idle } :=
      ⟨rfl, rfl, rfl, rfl, rfl, rfl, rfl, pushing_set hi rfl, rfl, rfl⟩
    exact hidle.trans (notifyOne_still hw)
  | popNotify waiter =>
    obtain ⟨job, hd, hw⟩ := next_popNotify h
    have hholding : Still s { s with dispatcher := .holding job } :=
      ⟨rfl, rfl, rfl, rfl, rfl, rfl, rfl, rfl, by rw [hd]; rfl, rfl⟩
    exact hholding.trans (notifyOne_still hw)
  | submitNotify worker =>
    obtain ⟨hd, ⟨k, hk, rfl⟩ | rfl⟩ := next_submitNotify h
    · exact ⟨rfl, rfl, rfl, rfl, rfl, rfl, rfl, rfl, by rw [hd]; rfl, running_set hk rfl⟩
    · exact ⟨rfl, rfl, rfl, rfl, rfl, rfl, rfl, rfl, by rw [hd]; rfl, rfl⟩
  | stop =>
    obtain ⟨-, rfl⟩ := next_stop h
    exact ⟨rfl, rfl, rfl, rfl, rfl, rfl, rfl, rfl, rfl, rfl⟩
  | stopNotify =>
    obtain ⟨-, rfl⟩ := next_stopNotify h
    have hwoken := s.wakeAll_still
    exact ⟨rfl, rfl, rfl, rfl, rfl, rfl, rfl, hwoken.pushing, hwoken.hand, rfl⟩
  | join =>
    obtain ⟨-, -, rfl⟩ := next_join h
    exact ⟨rfl, rfl, rfl, rfl, rfl, rfl, rfl, rfl, rfl, rfl⟩
  | poolStop =>
    obtain ⟨-, rfl⟩ := next_poolStop h
    exact ⟨rfl, rfl, rfl, rfl, rfl, rfl, rfl, rfl, rfl, rfl⟩
  | poolNotify =>
    obtain ⟨-, rfl⟩ := next_poolNotify h
    have hwoken := s.wakeAllWorkers_still
    exact ⟨rfl, rfl, rfl, rfl, rfl, rfl, rfl, rfl, rfl, hwoken.running⟩
  | joinWorkers =>
    obtain ⟨-, -, rfl⟩ := next_joinWorkers h
    exact ⟨rfl, rfl, rfl, rfl, rfl, rfl, rfl, rfl, rfl, rfl⟩
  | spurious waiter => exact wake_still h
  | spuriousWorker k =>
    obtain ⟨hk, rfl⟩ := wakeWorker_cases h
    exact ⟨rfl, rfl, rfl, rfl, rfl, rfl, rfl, rfl, rfl, running_set hk rfl⟩

theorem Flow.step (h : Flow s) (e : DispatchEvent) : Flow (s.step e) := by
  refine step_of_next h fun s' hs' => ?_
  cases e with
  | call i job =>
    obtain ⟨hi, rfl⟩ := next_call hs'
    exact h.call hi job
  | push i =>
    obtain ⟨job, hi, rfl⟩ := next_push hs'
    exact h.push hi
  | pop =>
    obtain ⟨hd, rfl⟩ := next_pop hs'
    exact h.pop hd
  | submit =>
    obtain ⟨job, hd, rfl⟩ := next_submit hs'
    exact h.submit hd
  | take k =>
    obtain ⟨hk, rfl⟩ := next_take hs'
    exact h.take hk
  | run k =>
    obtain ⟨job, hk, rfl⟩ := next_run hs'
    exact h.run hk
  | _ => exact h.still (next_still rfl hs')

theorem flow_start (config : PacketQueue.Config) (handler : Bool) (producers workers : ℕ) :
    Flow (start config handler producers workers) := by
  have hpushing : (start config handler producers workers).pushing = [] := by
    refine List.flatMap_eq_nil_iff.mpr fun p hp => ?_
    rw [List.eq_of_mem_replicate hp]
    rfl
  have hrunning : (start config handler producers workers).running = [] := by
    refine List.flatMap_eq_nil_iff.mpr fun w hw => ?_
    rw [List.eq_of_mem_replicate hw]
    rfl
  constructor
  · rw [hpushing]
    rintro job ⟨⟩
  · rw [hpushing]
    exact List.nodup_nil
  · rfl
  · exact fun _ => rfl
  · exact fun _ => rfl
  · rfl
  · rw [hrunning]
    exact List.Perm.refl _
  · rfl
  · exact fun _ => Nat.zero_le _

theorem flow_after (config : PacketQueue.Config) (handler : Bool) (producers workers : ℕ)
    (es : List DispatchEvent) : Flow (after step (start config handler producers workers) es) :=
  stable (fun _ e h => h.step e) es (flow_start config handler producers workers)

theorem jobsOf_sublist (record : List (Fate × PushedJob)) {fates fates' : List Fate}
    (h : fates ⊆ fates') : (jobsOf record fates).Sublist (jobsOf record fates') := by
  refine List.Sublist.map _ (List.monotone_filter_right _ fun r hr => ?_)
  rw [decide_eq_true_eq] at hr ⊢
  exact h hr

theorem Flow.popped_sublist (h : Flow s) :
    (jobsOf s.record [.popped]).Sublist (jobsOf s.record [.accepted, .late]) := by
  rw [h.queued]
  exact (jobsOf_sublist s.record (by simp)).trans (List.sublist_append_left _ _)

/-- The pool gets the jobs in the order in which they were accepted. -/
theorem Flow.submitted_sublist (h : Flow s) :
    (jobsOf s.record [.submitted]).Sublist (jobsOf s.record [.accepted, .late]) := by
  cases hs : s.handler with
  | true =>
    refine List.Sublist.trans ?_ h.popped_sublist
    rw [h.popped hs]
    exact List.sublist_append_left _ _
  | false =>
    rw [h.discarded hs]
    exact List.nil_sublist _

theorem Flow.taken_sublist (h : Flow s) :
    (jobsOf s.record [.taken]).Sublist (jobsOf s.record [.accepted, .late]) := by
  refine List.Sublist.trans ?_ h.submitted_sublist
  rw [h.submitted]
  exact List.sublist_append_left _ _

theorem Flow.accepted_nodup (h : Flow s) : (jobsOf s.record [.accepted, .late]).Nodup :=
  (List.nodup_append.mp h.distinct).2.1

theorem Flow.handled_nodup (h : Flow s) : (jobsOf s.record [.handled]).Nodup := by
  have htaken : (jobsOf s.record [.taken]).Nodup := h.accepted_nodup.sublist h.taken_sublist
  exact (List.nodup_append.mp (h.taken.nodup_iff.mp htaken)).1

end Flow

end PacketDispatcher

end DungeonHub
