import DungeonHub.IoLayer
import DungeonHub.Proofs.Completion
import DungeonHub.Proofs.Order
import DungeonHub.Proofs.Wakeups

/-!
# A dispatcher that is not stopped

A queue that drops nothing, with a single producer, is never left with a job while the dispatcher
thread sleeps, nor the pool while all workers do. So once the threads have nothing left to do, the
handler has run on all that was brought.
-/

namespace DungeonHub

open Run Progress

namespace PacketDispatcher

variable {s s' : PacketDispatcher} {i k : ℕ} {job : PushedJob}

section Brought

/-- The jobs that a single producer has called `push` with, in order. -/
def brought (s : PacketDispatcher) : List PushedJob :=
  jobsOf s.record [.accepted, .late, .refused, .turnedAway] ++ s.pushing

/-- A single producer is the one that takes a step. -/
theorem producers_of_single (h : s.producers.length = 1) {p : ProducerPhase}
    (hi : s.producers[i]? = some p) : i = 0 ∧ s.producers = [p] := by
  obtain ⟨q, hq⟩ := List.length_eq_one_iff.mp h
  rw [hq] at hi ⊢
  rcases i with _ | i
  · cases hi
    exact ⟨rfl, rfl⟩
  · cases hi

theorem next_single {e : DispatchEvent} (h : s.producers.length = 1) (hs' : s.next e = some s') :
    s'.producers.length = 1 := by
  have hset : ∀ (i : ℕ) (p : ProducerPhase), (s.producers.set i p).length = 1 :=
    fun i p => (List.length_set ..).trans h
  have hwoken : ∀ {t t' : PacketDispatcher} {waiter : Waiter}, t.producers.length = 1 →
      t.wake waiter = some t' → t'.producers.length = 1 := by
    intro t t' waiter ht hw
    rcases wake_cases hw with ⟨i, job, -, rfl⟩ | ⟨-, rfl⟩
    · exact (List.length_set ..).trans ht
    · exact ht
  cases e with
  | call i job =>
    obtain ⟨-, rfl⟩ := next_call hs'
    exact hset i _
  | push i =>
    obtain ⟨job, -, rfl⟩ := next_push hs'
    rcases hp : s.queue.push job with _ | _ | queue | ⟨evicted, queue⟩
    · exact hset i _
    · exact hset i _
    · exact hset i _
    · exact hset i _
  | pushNotify i waiter =>
    obtain ⟨-, hw⟩ := next_pushNotify hs'
    exact notifyOne_keeps (I := fun t => t.producers.length = 1) (hset i _)
      (fun _ _ => hwoken (hset i _)) hw
  | pop =>
    obtain ⟨-, rfl⟩ := next_pop hs'
    rcases s.queue.pop with _ | _ | ⟨job, queue⟩ <;> exact h
  | popNotify waiter =>
    obtain ⟨job, -, hw⟩ := next_popNotify hs'
    have hheld : ({ s with dispatcher := .holding job } : PacketDispatcher).producers.length = 1 :=
      h
    exact notifyOne_keeps (I := fun t => t.producers.length = 1) hheld
      (fun _ _ => hwoken hheld) hw
  | submit =>
    obtain ⟨job, -, rfl⟩ := next_submit hs'
    split_ifs <;> exact h
  | submitNotify worker =>
    obtain ⟨-, ⟨k, -, rfl⟩ | rfl⟩ := next_submitNotify hs' <;> exact h
  | take k =>
    obtain ⟨-, rfl⟩ := next_take hs'
    rcases s.pool.take with _ | _ | ⟨job, pool⟩ <;> exact h
  | run k =>
    obtain ⟨job, -, rfl⟩ := next_run hs'
    exact h
  | stop =>
    obtain ⟨-, rfl⟩ := next_stop hs'
    exact h
  | stopNotify =>
    obtain ⟨-, rfl⟩ := next_stopNotify hs'
    exact (List.length_map ..).trans h
  | join =>
    obtain ⟨-, -, rfl⟩ := next_join hs'
    exact h
  | poolStop =>
    obtain ⟨-, rfl⟩ := next_poolStop hs'
    exact h
  | poolNotify =>
    obtain ⟨-, rfl⟩ := next_poolNotify hs'
    exact h
  | joinWorkers =>
    obtain ⟨-, -, rfl⟩ := next_joinWorkers hs'
    exact h
  | spurious waiter => exact hwoken h hs'
  | spuriousWorker k =>
    obtain ⟨-, rfl⟩ := wakeWorker_cases hs'
    exact h

theorem brought_call {packet : PacketJob} (h : s.producers.length = 1)
    (hs' : s.next (.call 0 packet) = some s') : s'.brought = s.brought ++ [⟨s.calls, packet⟩] := by
  obtain ⟨hi, rfl⟩ := next_call hs'
  obtain ⟨-, hp⟩ := producers_of_single h hi
  simp [brought, pushing, hp, ProducerPhase.hand]

theorem brought_push (h : s.producers.length = 1) (hi : s.producers[i]? = some (.ready job)) :
    (s.afterPush i job (s.queue.push job)).brought = s.brought := by
  obtain ⟨rfl, hp⟩ := producers_of_single h hi
  rcases s.queue.push job with _ | _ | queue | ⟨evicted, queue⟩
  · simp [afterPush, brought, pushing, hp, ProducerPhase.hand]
  · simp [afterPush, note, brought, pushing, hp, ProducerPhase.hand]
  · simp [afterPush, note, brought, pushing, hp, ProducerPhase.hand]
  · rcases evicted with _ | old
    · cases hs : s.queue.stopped <;>
        simp [afterPush, note, brought, pushing, hp, hs, ProducerPhase.hand]
    · cases hs : s.queue.stopped <;>
        simp [afterPush, note, brought, pushing, hp, hs, ProducerPhase.hand, jobsOf]

/-- A single producer brings what it calls `push` with, and nothing else. -/
theorem brought_next {e : DispatchEvent} (h : s.producers.length = 1) (he : e.isCall = false)
    (hs' : s.next e = some s') : s'.brought = s.brought := by
  cases e with
  | call i packet => cases he
  | push i =>
    obtain ⟨job, hi, rfl⟩ := next_push hs'
    exact brought_push h hi
  | pop =>
    obtain ⟨-, rfl⟩ := next_pop hs'
    rcases s.queue.pop with _ | _ | ⟨job, queue⟩
    · rfl
    · rfl
    · simp [afterPop, note, brought, pushing]
  | submit =>
    obtain ⟨job, -, rfl⟩ := next_submit hs'
    split_ifs
    · simp [note, brought, pushing]
    · rfl
  | take k =>
    obtain ⟨-, rfl⟩ := next_take hs'
    rcases s.pool.take with _ | _ | ⟨job, pool⟩
    · rfl
    · rfl
    · simp [afterTake, note, brought, pushing]
  | run k =>
    obtain ⟨job, -, rfl⟩ := next_run hs'
    simp [note, brought, pushing]
  | _ =>
    have hstill : Still s s' := next_still rfl hs'
    unfold brought
    rw [hstill.record, hstill.pushing]

end Brought

section Serving

/-- A queue that has room for every job, or makes its producers wait for it. -/
def Lossless (config : PacketQueue.Config) : Prop :=
  config.capacity = 0 ∨ config.overflowPolicy = .block

theorem push_lossless (hconfig : Lossless s.queue.config) (hrunning : s.queue.stopped = false)
    (job : PushedJob) : s.queue.push job = .waits ∨
      s.queue.push job = .taken none { s.queue with queue := s.queue.queue ++ [job] } := by
  unfold PacketQueue.push
  rcases hconfig with hcapacity | hpolicy
  · simp [hcapacity]
  · by_cases hcapacity : s.queue.config.capacity > 0
    · rw [if_pos hcapacity, hpolicy]
      cases s.queue.isFullLocked <;> simp [hrunning]
    · simp [hcapacity]

/-- While `stop` is not called no thread ends and no job is dropped; and a worker waits while the
pool has a job only if another one is at work, or is about to be woken. -/
structure Serving (s : PacketDispatcher) : Prop where
  config : Lossless s.queue.config
  unstopped : s.stopper = .idle
  running : s.queue.stopped = false
  hiring : s.pool.stopRequested = false
  dispatching : s.dispatcher ≠ .exited
  working : ∀ w ∈ s.workers, w ≠ .exited
  kept : ∀ r ∈ s.record, r.1 ∉ [Fate.late, .refused, .turnedAway, .evicted]
  tended : .waiting ∈ s.workers → s.pool.jobs ≠ [] →
    s.dispatcher = .submitted ∨ ∃ w ∈ s.workers, w ≠ .waiting

theorem serving_start {config : PacketQueue.Config} (hconfig : Lossless config) (handler : Bool)
    (producers workers : ℕ) : Serving (start config handler producers workers) where
  config := hconfig
  unstopped := rfl
  running := rfl
  hiring := rfl
  dispatching := by simp [start]
  working w hw := by
    rw [List.eq_of_mem_replicate hw]
    simp
  kept := by simp [start]
  tended hw := by
    have hready := List.eq_of_mem_replicate hw
    cases hready

/-- A step of the producers or the dispatcher thread that passes on no job. -/
theorem Serving.threads (h : Serving s) (producers : List ProducerPhase) {d : DispatchPhase}
    (hd : d ≠ .exited) (hsubmitted : s.dispatcher = .submitted → d = .submitted) :
    Serving { s with producers, dispatcher := d } :=
  ⟨h.config, h.unstopped, h.running, h.hiring, hd, h.working, h.kept,
    fun hw hjobs => (h.tended hw hjobs).imp_left hsubmitted⟩

/-- A worker that does not wait then. -/
theorem Serving.works (h : Serving s) (hk : k < s.workers.length) {w : WorkerPhase}
    (hw : w = .ready ∨ ∃ job, w = .running job) {d : DispatchPhase} (hd : d ≠ .exited)
    (jobs : List PushedJob) : Serving { s with
      workers := s.workers.set k w
      dispatcher := d
      pool := { s.pool with jobs } } := by
  have hawake : w ≠ .exited ∧ w ≠ .waiting := by
    rcases hw with rfl | ⟨job, rfl⟩ <;> simp
  refine ⟨h.config, h.unstopped, h.running, h.hiring, hd, fun w' hw' => ?_, h.kept, fun _ _ => ?_⟩
  · rcases List.mem_or_eq_of_mem_set hw' with hw' | rfl
    · exact h.working w' hw'
    · exact hawake.1
  · exact .inr ⟨w, List.mem_set hk w, hawake.2⟩

theorem Serving.noted (h : Serving s) {fate : Fate}
    (hfate : fate ∉ [Fate.late, .refused, .turnedAway, .evicted]) : Serving (s.note fate job) := by
  refine ⟨h.config, h.unstopped, h.running, h.hiring, h.dispatching, h.working, fun r hr => ?_,
    h.tended⟩
  rcases List.mem_append.mp hr with hr | hr
  · exact h.kept r hr
  · rw [List.mem_singleton.mp hr]
    exact hfate

theorem Serving.woken (h : Serving s) {waiter : Waiter} (hw : s.wake waiter = some s') :
    Serving s' := by
  rcases wake_cases hw with ⟨i, job, -, rfl⟩ | ⟨hd, rfl⟩
  · exact h.threads _ h.dispatching id
  · exact h.threads _ (by simp) (by simp [hd])

theorem Serving.notified (h : Serving s) {waiter : Option Waiter}
    (hw : s.notifyOne waiter = some s') : Serving s' :=
  notifyOne_keeps h (fun _ _ => h.woken) hw

theorem Serving.queued (h : Serving s) {queue : PacketQueue}
    (hconfig : queue.config = s.queue.config) (hrunning : queue.stopped = s.queue.stopped) :
    Serving { s with queue } :=
  ⟨hconfig ▸ h.config, h.unstopped, hrunning.trans h.running, h.hiring, h.dispatching, h.working,
    h.kept, h.tended⟩

theorem Serving.push (h : Serving s) : Serving (s.afterPush i job (s.queue.push job)) := by
  rcases push_lossless h.config h.running job with hp | hp
  · rw [hp]
    exact h.threads _ h.dispatching id
  · rw [hp]
    have hqueued : Serving { s with queue := { s.queue with queue := s.queue.queue ++ [job] } } :=
      h.queued rfl rfl
    have hpushed := hqueued.threads (s.producers.set i .notifying) h.dispatching id
    unfold afterPush
    rw [h.running]
    exact hpushed.noted (by simp)

theorem Serving.pop (h : Serving s) (hd : s.dispatcher = .ready) :
    Serving (s.afterPop s.queue.pop) := by
  rcases hp : s.queue.pop with _ | _ | ⟨job, queue⟩
  · exact h.threads _ (by simp) (by simp [hd])
  · have hstopped := (PacketQueue.pop_stopped hp).2
    rw [h.running] at hstopped
    cases hstopped
  · obtain ⟨rest, -, rfl⟩ := PacketQueue.pop_taken hp
    have hphase : (if s.queue.config.capacity > 0 then DispatchPhase.notifying job
        else .holding job) ≠ .exited := by
      split_ifs <;> simp
    have hqueued : Serving { s with queue := { s.queue with queue := rest } } := h.queued rfl rfl
    have hpopped := hqueued.threads s.producers hphase (by simp [hd])
    exact hpopped.noted (by simp)

theorem Serving.submit (h : Serving s) (hd : s.dispatcher = .holding job) :
    Serving (if s.handler then
        { s with
          pool := { s.pool with jobs := s.pool.jobs ++ [job] }
          dispatcher := .submitted }.note .submitted job
      else { s with dispatcher := .ready }) := by
  split_ifs
  · have hsubmitted : Serving { s with
        pool := { s.pool with jobs := s.pool.jobs ++ [job] }
        dispatcher := .submitted } :=
      ⟨h.config, h.unstopped, h.running, h.hiring, by simp, h.working, h.kept,
        fun _ _ => .inl rfl⟩
    exact hsubmitted.noted (by simp)
  · exact h.threads _ (by simp) (by simp [hd])

/-- A worker goes to wait only for an empty pool. -/
theorem Serving.take (h : Serving s) (hk : s.workers[k]? = some .ready) :
    Serving (s.afterTake k s.pool.take) := by
  have hlt := (List.getElem?_eq_some_iff.mp hk).1
  unfold WorkerPool.take
  split
  · rename_i hempty
    rw [if_neg (by simp [h.hiring])]
    refine ⟨h.config, h.unstopped, h.running, h.hiring, h.dispatching, fun w hw => ?_, h.kept,
      fun _ hjobs => absurd hempty hjobs⟩
    rcases List.mem_or_eq_of_mem_set hw with hw | rfl
    · exact h.working w hw
    · simp
  · rename_i job rest hjobs
    have htaken := h.works hlt (.inr ⟨job, rfl⟩) h.dispatching rest
    exact htaken.noted (by simp)

/-- The notification of a submission wakes a worker if one waits. -/
theorem Serving.submitNotify (h : Serving s) {worker : Option ℕ}
    (hs' : s.next (.submitNotify worker) = some s') : Serving s' := by
  delta next at hs'
  dsimp only at hs'
  split at hs'
  · unfold notifyWorker at hs'
    split at hs'
    · rename_i k
      obtain ⟨hk, rfl⟩ := wakeWorker_cases hs'
      exact h.works (List.getElem?_eq_some_iff.mp hk).1 (.inl rfl) (by simp) s.pool.jobs
    · split_ifs at hs' with hnone
      cases hs'
      exact ⟨h.config, h.unstopped, h.running, h.hiring, by simp, h.working, h.kept,
        fun hw => absurd hw hnone⟩
  · cases hs'

theorem Serving.step (h : Serving s) {e : DispatchEvent} (he : e ≠ .stop) : Serving (s.step e) := by
  refine step_of_next h fun s' hs' => ?_
  cases e with
  | call i packet =>
    obtain ⟨-, rfl⟩ := next_call hs'
    have hcalled := h.threads (s.producers.set i (.ready ⟨s.calls, packet⟩)) h.dispatching id
    exact ⟨hcalled.config, hcalled.unstopped, hcalled.running, hcalled.hiring,
      hcalled.dispatching, hcalled.working, hcalled.kept, hcalled.tended⟩
  | push i =>
    obtain ⟨job, -, rfl⟩ := next_push hs'
    exact h.push
  | pushNotify i waiter =>
    obtain ⟨-, hw⟩ := next_pushNotify hs'
    exact Serving.notified (h.threads _ h.dispatching id) hw
  | pop =>
    obtain ⟨hd, rfl⟩ := next_pop hs'
    exact h.pop hd
  | popNotify waiter =>
    obtain ⟨job, hd, hw⟩ := next_popNotify hs'
    exact Serving.notified (h.threads s.producers (by simp) (by simp [hd])) hw
  | submit =>
    obtain ⟨job, hd, rfl⟩ := next_submit hs'
    exact h.submit hd
  | submitNotify worker =>
    exact h.submitNotify hs'
  | take k =>
    obtain ⟨hk, rfl⟩ := next_take hs'
    exact h.take hk
  | run k =>
    obtain ⟨job, hk, rfl⟩ := next_run hs'
    have hran := h.works (List.getElem?_eq_some_iff.mp hk).1 (.inl rfl) h.dispatching s.pool.jobs
    exact hran.noted (by simp)
  | stop => exact absurd rfl he
  | stopNotify => exact absurd (next_stopNotify hs').1 (by simp [h.unstopped])
  | join => exact absurd (next_join hs').1 (by simp [h.unstopped])
  | poolStop => exact absurd (next_poolStop hs').1 (by simp [h.unstopped])
  | poolNotify => exact absurd (next_poolNotify hs').1 (by simp [h.unstopped])
  | joinWorkers => exact absurd (next_joinWorkers hs').1 (by simp [h.unstopped])
  | spurious waiter => exact h.woken hs'
  | spuriousWorker k =>
    obtain ⟨hk, rfl⟩ := wakeWorker_cases hs'
    exact h.works (List.getElem?_eq_some_iff.mp hk).1 (.inl rfl) h.dispatching s.pool.jobs

/-- With nothing left to do, the handler has run on all jobs that were brought. -/
theorem Serving.settled (h : Serving s) (hf : Flow s) (hhandler : s.handler = true)
    (hworkers : 0 < s.workers.length)
    (hawake : s.dispatcher = .waiting → s.waiters = 0 ∧ s.queue.queue.length ≤ s.notifiers)
    (hrest : Rests next (fun e : DispatchEvent => e.own = true ∧ e ≠ .stop) s) :
    (∀ p ∈ s.producers, p = .idle) ∧ s.running = [] ∧
      s.brought = jobsOf s.record [.taken] := by
  obtain ⟨hcalls, hdispatcher, hworking⟩ := quiet_of_rests hrest
  have hwaits : s.dispatcher = .waiting := hdispatcher.resolve_right h.dispatching
  obtain ⟨hwaiters, hnotifiers⟩ := hawake hwaits
  have hidle : ∀ p ∈ s.producers, p = .idle := by
    intro p hp
    have hno := List.countP_eq_zero.mp hwaiters p hp
    exact (hcalls p hp).resolve_right hno
  have hqueue : s.queue.queue = [] := by
    have hnone : s.notifiers = 0 := by
      refine List.countP_eq_zero.mpr fun p hp => ?_
      rw [hidle p hp]
      simp [ProducerPhase.isNotifying]
    exact List.length_eq_zero_iff.mp (by omega)
  have hasleep : ∀ w ∈ s.workers, w = .waiting :=
    fun w hw => (hworking w hw).resolve_right (h.working w hw)
  have hpool : s.pool.jobs = [] := by
    by_contra hjobs
    have hmem : .waiting ∈ s.workers := hasleep _ (List.getElem_mem hworkers) ▸ List.getElem_mem _
    rcases h.tended hmem hjobs with hsubmitted | ⟨w, hw, hawake⟩
    · rw [hwaits] at hsubmitted
      cases hsubmitted
    · exact hawake (hasleep w hw)
  have hpushing : s.pushing = [] := by
    refine List.flatMap_eq_nil_iff.mpr fun p hp => ?_
    rw [hidle p hp]
    rfl
  have hrunning : s.running = [] := by
    refine List.flatMap_eq_nil_iff.mpr fun w hw => ?_
    rw [hasleep w hw]
    rfl
  refine ⟨hidle, hrunning, ?_⟩
  have hfates : ∀ fates fates' : List Fate,
      (∀ fate, fate ∈ [Fate.late, .refused, .turnedAway, .evicted] ∨
        (fate ∈ fates ↔ fate ∈ fates')) →
      jobsOf s.record fates = jobsOf s.record fates' := by
    intro fates fates' hiff
    unfold jobsOf
    refine congrArg _ (List.filter_congr fun r hr => ?_)
    simpa using (hiff r.1).resolve_left (h.kept r hr)
  have hpopped := hf.popped hhandler
  have hqueued := hf.queued
  have hsubmitted := hf.submitted
  rw [hwaits, show DispatchPhase.waiting.hand = [] from rfl, List.append_nil] at hpopped
  rw [hqueue, List.append_nil] at hqueued
  rw [hpool, List.append_nil] at hsubmitted
  calc s.brought
      = jobsOf s.record [.accepted, .late, .refused, .turnedAway] := by
        rw [brought, hpushing, List.append_nil]
    _ = jobsOf s.record [.accepted, .late] := hfates _ _ fun fate => by cases fate <;> simp
    _ = jobsOf s.record [.evicted, .popped] := hqueued
    _ = jobsOf s.record [.popped] := hfates _ _ fun fate => by cases fate <;> simp
    _ = jobsOf s.record [.taken] := hpopped.trans hsubmitted

end Serving

section Roomy

/-- With room for every job no producer waits; and while the dispatcher thread does, each job in the
queue comes with a notification. -/
structure Roomy (s : PacketDispatcher) : Prop where
  unbounded : s.queue.config.capacity = 0
  unstopped : s.stopper = .idle
  running : s.queue.stopped = false
  covered : s.waiters = 0
  awake : s.dispatcher = .waiting → s.queue.queue.length ≤ s.notifiers

theorem roomy_start {config : PacketQueue.Config} (hconfig : config.capacity = 0) (handler : Bool)
    (producers workers : ℕ) : Roomy (start config handler producers workers) := by
  refine ⟨hconfig, rfl, rfl, List.countP_eq_zero.mpr fun p hp => ?_, nofun⟩
  rw [List.eq_of_mem_replicate hp]
  simp [ProducerPhase.isWaiting]

/-- A step of the dispatcher thread that leaves it awake. -/
theorem Roomy.dispatches (h : Roomy s) {d : DispatchPhase} (hd : d ≠ .waiting) :
    Roomy { s with dispatcher := d } :=
  ⟨h.unbounded, h.unstopped, h.running, h.covered, fun hw => absurd hw hd⟩

/-- A step of the workers. -/
theorem Roomy.workers (h : Roomy s) (workers : List WorkerPhase) (pool : WorkerPool)
    (record : List (Fate × PushedJob)) : Roomy { s with workers, pool, record } :=
  ⟨h.unbounded, h.unstopped, h.running, h.covered, h.awake⟩

theorem Roomy.none_waits (h : Roomy s) {p : ProducerPhase} (hi : s.producers[i]? = some p) :
    p.isWaiting = false :=
  Bool.eq_false_iff.mpr (List.countP_eq_zero.mp h.covered p (List.mem_of_getElem? hi))

theorem Roomy.woken (h : Roomy s) {waiter : Waiter} (hw : s.wake waiter = some s') :
    Roomy s' := by
  rcases wake_cases hw with ⟨i, job, hi, rfl⟩ | ⟨-, rfl⟩
  · exact absurd (h.none_waits hi) (by simp [ProducerPhase.isWaiting])
  · exact h.dispatches (by simp)

theorem Roomy.push (h : Roomy s) (hi : s.producers[i]? = some (.ready job)) :
    Roomy (s.afterPush i job (s.queue.push job)) := by
  have hwaiters := waiters_set hi .notifying
  have hnotifiers := notifiers_set hi .notifying
  simp only [ProducerPhase.isWaiting, ProducerPhase.isNotifying, Bool.toNat_false,
    Bool.toNat_true] at hwaiters hnotifiers
  have hpush : s.queue.push job =
      .taken none { s.queue with queue := s.queue.queue ++ [job] } := by
    unfold PacketQueue.push
    rw [if_neg (by simp [h.unbounded])]
  rw [hpush]
  refine ⟨h.unbounded, h.unstopped, h.running, ?_, fun hw => ?_⟩
  · have hcovered := h.covered
    show (s.producers.set i .notifying).countP ProducerPhase.isWaiting = 0
    omega
  · have hle := h.awake hw
    show (s.queue.queue ++ [job]).length ≤
      (s.producers.set i .notifying).countP ProducerPhase.isNotifying
    rw [List.length_append, List.length_singleton]
    omega

/-- The notification wakes the dispatcher thread if that waits, since no producer does. -/
theorem Roomy.pushNotify (h : Roomy s) (hi : s.producers[i]? = some .notifying)
    {waiter : Option Waiter}
    (hw : { s with producers := s.producers.set i .idle }.notifyOne waiter = some s') :
    Roomy s' := by
  have hwaiters := waiters_set hi .idle
  simp only [ProducerPhase.isWaiting, Bool.toNat_false] at hwaiters
  have hcovered : (s.producers.set i .idle).countP ProducerPhase.isWaiting = 0 := by
    have := h.covered
    omega
  rcases notifyOne_cases hw with ⟨k, job, hk, -⟩ | ⟨-, rfl⟩ | ⟨hd, -, rfl⟩
  · have hpos := Slots.countP_pos ProducerPhase.isWaiting hk rfl
    change 0 < (s.producers.set i .idle).countP ProducerPhase.isWaiting at hpos
    omega
  · exact ⟨h.unbounded, h.unstopped, h.running, hcovered, fun hwait => by simp at hwait⟩
  · exact ⟨h.unbounded, h.unstopped, h.running, hcovered, fun hwait => absurd hwait hd⟩

theorem Roomy.pop (h : Roomy s) : Roomy (s.afterPop s.queue.pop) := by
  rcases hp : s.queue.pop with _ | _ | ⟨job, queue⟩
  · refine ⟨h.unbounded, h.unstopped, h.running, h.covered, fun _ => ?_⟩
    show s.queue.queue.length ≤ _
    rw [PacketQueue.pop_waits hp]
    exact Nat.zero_le _
  · exact h.dispatches (by simp)
  · obtain ⟨rest, -, rfl⟩ := PacketQueue.pop_taken hp
    have hphase : (if s.queue.config.capacity > 0 then DispatchPhase.notifying job
        else .holding job) ≠ .waiting := by
      split_ifs <;> simp
    exact ⟨h.unbounded, h.unstopped, h.running, h.covered, fun hw => absurd hw hphase⟩

theorem Roomy.step (h : Roomy s) {e : DispatchEvent} (he : e ≠ .stop) : Roomy (s.step e) := by
  refine step_of_next h fun s' hs' => ?_
  cases e with
  | call i packet =>
    obtain ⟨hi, rfl⟩ := next_call hs'
    have hwaiters := waiters_set hi (.ready ⟨s.calls, packet⟩)
    have hnotifiers := notifiers_set hi (.ready ⟨s.calls, packet⟩)
    simp only [ProducerPhase.isWaiting, ProducerPhase.isNotifying, Bool.toNat_false]
      at hwaiters hnotifiers
    have hcovered := h.covered
    refine ⟨h.unbounded, h.unstopped, h.running, ?_, fun hw => (h.awake hw).trans ?_⟩
    · show (s.producers.set i (.ready ⟨s.calls, packet⟩)).countP ProducerPhase.isWaiting = 0
      omega
    · show _ ≤ (s.producers.set i (.ready ⟨s.calls, packet⟩)).countP ProducerPhase.isNotifying
      omega
  | push i =>
    obtain ⟨job, hi, rfl⟩ := next_push hs'
    exact h.push hi
  | pushNotify i waiter =>
    obtain ⟨hi, hw⟩ := next_pushNotify hs'
    exact h.pushNotify hi hw
  | pop =>
    obtain ⟨-, rfl⟩ := next_pop hs'
    exact h.pop
  | popNotify waiter =>
    obtain ⟨job, -, hw⟩ := next_popNotify hs'
    have hheld : Roomy { s with dispatcher := .holding job } := h.dispatches (by simp)
    exact notifyOne_keeps hheld (fun _ _ => hheld.woken) hw
  | submit =>
    obtain ⟨job, -, rfl⟩ := next_submit hs'
    have hsubmitted : Roomy { s with dispatcher := .submitted } := h.dispatches (by simp)
    split_ifs
    · exact hsubmitted.workers _ _ _
    · exact h.dispatches (by simp)
  | submitNotify worker =>
    obtain ⟨-, hw⟩ := next_submitNotify hs'
    have hready : Roomy { s with dispatcher := .ready } := h.dispatches (by simp)
    rcases hw with ⟨k, -, rfl⟩ | rfl
    · exact hready.workers _ _ _
    · exact hready
  | take k =>
    obtain ⟨-, rfl⟩ := next_take hs'
    rcases s.pool.take with _ | _ | ⟨job, pool⟩
    · exact h.workers _ _ _
    · exact h.workers _ _ _
    · exact h.workers _ _ _
  | run k =>
    obtain ⟨job, -, rfl⟩ := next_run hs'
    exact h.workers _ _ _
  | stop => exact absurd rfl he
  | stopNotify => exact absurd (next_stopNotify hs').1 (by simp [h.unstopped])
  | join => exact absurd (next_join hs').1 (by simp [h.unstopped])
  | poolStop => exact absurd (next_poolStop hs').1 (by simp [h.unstopped])
  | poolNotify => exact absurd (next_poolNotify hs').1 (by simp [h.unstopped])
  | joinWorkers => exact absurd (next_joinWorkers hs').1 (by simp [h.unstopped])
  | spurious waiter => exact h.woken hs'
  | spuriousWorker k =>
    obtain ⟨-, rfl⟩ := wakeWorker_cases hs'
    exact h.workers _ _ _

/-- A single producer and the dispatcher thread do not wait for each other. -/
theorem attended {config : PacketQueue.Config} (hconfig : Lossless config) (handler : Bool)
    (workers : ℕ) {es : List DispatchEvent} (hes : .stop ∉ es) :
    let s := after step (start config handler 1 workers) es
    s.dispatcher = .waiting → s.waiters = 0 ∧ s.queue.queue.length ≤ s.notifiers := by
  intro s hwaits
  have hnever : ∀ x ∈ trail step (start config handler 1 workers) es, x.2 ≠ .stop :=
    fun x hx hstop => hes (hstop ▸ mem_of_mem_trail hx)
  by_cases hcapacity : config.capacity = 0
  · have hroomy : Roomy s := invariant (P := fun _ e => e ≠ .stop) (fun _ _ h he => h.step he) es _
      (roomy_start hcapacity handler 1 workers) hnever
    exact ⟨hroomy.covered, hroomy.awake hwaits⟩
  · obtain ⟨capacity, policy⟩ := config
    obtain rfl : policy = .block := hconfig.resolve_left hcapacity
    have hpos : 1 ≤ capacity := Nat.one_le_iff_ne_zero.mpr hcapacity
    have hawake : Awake capacity 1 s := invariant (P := fun _ e => e ≠ .stop)
      (fun _ _ h he => h.step hpos hpos he) es _ (awake_start handler workers) hnever
    exact hawake.awake hwaits

end Roomy

section Turns

/-- One worker has the jobs of each connection in turn. -/
theorem inTurn_of_one (config : PacketQueue.Config) (handler : Bool) (producers : ℕ)
    {workers : ℕ} (hworkers : workers ≤ 1) (es : List DispatchEvent) (c : UInt64) :
    InTurn c (after step (start config handler producers workers) es) := by
  refine throughout (P := Alone c) (fun _ e h => h.step e) es
    (inTurn_start config handler producers workers) fun es' _ => ?_
  have hsetup : Setup config handler workers
      (after step (start config handler producers workers) es') :=
    stable (fun _ e h => h.step e) es' (setup_start producers)
  exact hsetup.alone hworkers

theorem accepted_sublist_brought (s : PacketDispatcher) :
    (jobsOf s.record [.accepted, .late]).Sublist s.brought :=
  (jobsOf_sublist s.record (by simp)).trans (List.sublist_append_left _ _)

/-- The handler runs once at most on each job that is brought. -/
theorem Flow.handled_subperm {s : PacketDispatcher} (h : Flow s) :
    (jobsOf s.record [.handled]).Subperm s.brought := by
  have htaken : (jobsOf s.record [.handled]).Subperm (jobsOf s.record [.taken]) :=
    (List.sublist_append_left _ _).subperm.trans h.taken.symm.subperm
  exact htaken.trans (h.taken_sublist.trans s.accepted_sublist_brought).subperm

end Turns

end PacketDispatcher

end DungeonHub
