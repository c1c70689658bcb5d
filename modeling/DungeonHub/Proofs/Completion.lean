import DungeonHub.Lib.Progress
import DungeonHub.Proofs.Shutdown

/-!
# `stop` comes back

Once no new call of `push` comes in, the threads can take so many steps only, since each of them
brings a job or a thread closer to its end. And they have nothing left to do only when `stop` has
returned: no producer waits for a stopped queue, the dispatcher thread ends when that is empty, and
the workers end after it.
-/

namespace DungeonHub

/-- A step that a thread takes on its own: not a new call of `push`, nor a spurious wake-up. -/
def DispatchEvent.own : DispatchEvent → Bool
  | .call _ _ => false
  | .spurious _ => false
  | .spuriousWorker _ => false
  | _ => true

/-- How many steps may come of what a thread is doing: a producer's job goes through the queue and
the pool, and each notification may wake a thread. -/
def ProducerPhase.effort : ProducerPhase → ℕ
  | .idle => 0
  | .notifying => 2
  | .waiting _ => 10
  | .ready _ => 11

def DispatchPhase.effort : DispatchPhase → ℕ
  | .ready => 1
  | .waiting => 0
  | .notifying _ => 8
  | .holding _ => 6
  | .submitted => 3
  | .exited => 0

def WorkerPhase.effort : WorkerPhase → ℕ
  | .ready => 1
  | .waiting => 0
  | .running _ => 2
  | .exited => 0

/-- Of `stop`, which may wake all producers and the dispatcher thread, and then all workers. -/
def StopPhase.effort (producers workers : ℕ) : StopPhase → ℕ
  | .idle => producers + workers + 7
  | .queueNotify => producers + workers + 6
  | .dispatcherJoin => workers + 4
  | .poolStop => workers + 3
  | .poolNotify => workers + 2
  | .workersJoin => 1
  | .returned => 0

/-- How far `stop` has come. -/
def StopPhase.stage : StopPhase → ℕ
  | .idle => 0
  | .queueNotify => 1
  | .dispatcherJoin => 2
  | .poolStop => 3
  | .poolNotify => 4
  | .workersJoin => 5
  | .returned => 6

namespace PacketQueue

variable {q : PacketQueue} {job : PushedJob}

theorem push_waits (h : q.push job = .waits) : q.stopped = false := by
  unfold push at h
  by_cases hc : q.config.capacity > 0
  · rw [if_pos hc] at h
    split at h
    · split_ifs at h with hs
      exact Bool.eq_false_iff.mpr hs
    · split_ifs at h
    · split_ifs at h
  · rw [if_neg hc] at h
    cases h

theorem pop_waits_running (h : q.pop = .waits) : q.stopped = false := by
  unfold pop at h
  split at h
  · split_ifs at h with hs
    exact Bool.eq_false_iff.mpr hs
  · cases h

end PacketQueue

namespace PacketDispatcher

open Run Progress

variable {s s' : PacketDispatcher} {i k : ℕ} {job : PushedJob}

section Effort

/-- How many steps the threads can take on their own. -/
def effort (s : PacketDispatcher) : ℕ :=
  (s.producers.map ProducerPhase.effort).sum + 8 * s.queue.queue.length + s.dispatcher.effort +
    2 * s.pool.jobs.length + (s.workers.map WorkerPhase.effort).sum +
    s.stopper.effort s.producers.length s.workers.length

theorem producers_effort {p : ProducerPhase} (h : s.producers[i]? = some p) (p' : ProducerPhase) :
    ((s.producers.set i p').map ProducerPhase.effort).sum + p.effort =
      (s.producers.map ProducerPhase.effort).sum + p'.effort := Slots.sum_set _ h p'

theorem workers_effort {w : WorkerPhase} (h : s.workers[k]? = some w) (w' : WorkerPhase) :
    ((s.workers.set k w').map WorkerPhase.effort).sum + w.effort =
      (s.workers.map WorkerPhase.effort).sum + w'.effort := Slots.sum_set _ h w'

/-- A thread that is woken has one step more to take. -/
theorem wake_effort {waiter : Waiter} (h : s.wake waiter = some s') :
    s'.effort ≤ s.effort + 1 := by
  rcases wake_cases h with ⟨i, job, hi, rfl⟩ | ⟨hd, rfl⟩
  · have hp := producers_effort hi (.ready job)
    simp only [effort, ProducerPhase.effort, List.length_set] at hp ⊢
    omega
  · simp only [effort, hd, DispatchPhase.effort]
    omega

theorem notifyOne_effort {waiter : Option Waiter} (h : s.notifyOne waiter = some s') :
    s'.effort ≤ s.effort + 1 :=
  notifyOne_keeps (I := fun t => t.effort ≤ s.effort + 1) (Nat.le_succ _)
    (fun _ _ hw => wake_effort hw) h

/-- A job that gets into the queue leaves its producer with a notification to give. -/
theorem push_effort (hi : s.producers[i]? = some (.ready job)) :
    (s.afterPush i job (s.queue.push job)).effort < s.effort := by
  rcases hp : s.queue.push job with _ | _ | queue | ⟨evicted, queue⟩
  · have hwaits := producers_effort hi (.waiting job)
    simp only [afterPush, effort, ProducerPhase.effort, List.length_set] at hwaits ⊢
    omega
  · have hback := producers_effort hi .idle
    simp only [afterPush, note, effort, ProducerPhase.effort, List.length_set] at hback ⊢
    omega
  · have hback := producers_effort hi .idle
    rw [PacketQueue.push_refused hp]
    simp only [afterPush, note, effort, ProducerPhase.effort, List.length_set] at hback ⊢
    omega
  · have hnotifies := producers_effort hi .notifying
    obtain ⟨rest, hqueue, rfl, -⟩ := PacketQueue.push_taken hp
    have hlength : s.queue.queue.length = evicted.toList.length + rest.length := by
      rw [hqueue, List.length_append]
    rcases evicted with _ | old
    · simp only [afterPush, note, effort, ProducerPhase.effort, List.length_set,
        List.length_append, List.length_singleton, Option.toList_none, List.length_nil]
        at hnotifies hlength ⊢
      omega
    · simp only [afterPush, note, effort, ProducerPhase.effort, List.length_set,
        List.length_append, List.length_singleton] at hnotifies hlength ⊢
      omega

theorem pop_effort (hd : s.dispatcher = .ready) : (s.afterPop s.queue.pop).effort < s.effort := by
  rcases hp : s.queue.pop with _ | _ | ⟨job, queue⟩
  · simp only [afterPop, effort, hd, DispatchPhase.effort]
    omega
  · simp only [afterPop, effort, hd, DispatchPhase.effort]
    omega
  · obtain ⟨rest, hqueue, rfl⟩ := PacketQueue.pop_taken hp
    have hphase : (if s.queue.config.capacity > 0 then DispatchPhase.notifying job
        else .holding job).effort ≤ 8 := by
      split_ifs <;> simp [DispatchPhase.effort]
    simp only [afterPop, note, effort, hd, hqueue, List.length_cons]
    simp only [DispatchPhase.effort] at hphase ⊢
    omega

theorem take_effort (hk : s.workers[k]? = some .ready) :
    (s.afterTake k s.pool.take).effort < s.effort := by
  unfold WorkerPool.take
  split
  · split_ifs
    · have hends := workers_effort hk .exited
      simp only [afterTake, effort, WorkerPhase.effort, List.length_set] at hends ⊢
      omega
    · have hwaits := workers_effort hk .waiting
      simp only [afterTake, effort, WorkerPhase.effort, List.length_set] at hwaits ⊢
      omega
  · rename_i job rest hjobs
    have hruns := workers_effort hk (.running job)
    simp only [afterTake, note, effort, WorkerPhase.effort, List.length_set, hjobs,
      List.length_cons] at hruns ⊢
    omega

theorem submit_effort (hd : s.dispatcher = .holding job) :
    (if s.handler then
      { s with
        pool := { s.pool with jobs := s.pool.jobs ++ [job] }
        dispatcher := .submitted }.note .submitted job
    else { s with dispatcher := .ready }).effort < s.effort := by
  split_ifs
  · simp only [note, effort, hd, DispatchPhase.effort, List.length_append, List.length_singleton]
    omega
  · simp only [effort, hd, DispatchPhase.effort]
    omega

theorem wakeAll_effort (s : PacketDispatcher) :
    s.wakeAll.effort ≤ s.effort + s.producers.length + 1 := by
  have hproducers : (s.wakeAll.producers.map ProducerPhase.effort).sum ≤
      (s.producers.map ProducerPhase.effort).sum + s.producers.length :=
    Slots.sum_map_le (fun p => by cases p <;> simp [ProducerPhase.effort]) s.producers
  have hdispatcher : s.wakeAll.dispatcher.effort ≤ s.dispatcher.effort + 1 := by
    unfold wakeAll
    cases s.dispatcher <;> simp [DispatchPhase.effort]
  have hlength : s.wakeAll.producers.length = s.producers.length := List.length_map ..
  unfold effort
  rw [hlength]
  show _ + 8 * s.queue.queue.length + _ + 2 * s.pool.jobs.length +
    (s.workers.map WorkerPhase.effort).sum +
    s.stopper.effort s.producers.length s.workers.length ≤ _
  omega

theorem wakeAllWorkers_effort (s : PacketDispatcher) :
    s.wakeAllWorkers.effort ≤ s.effort + s.workers.length := by
  have hworkers : (s.wakeAllWorkers.workers.map WorkerPhase.effort).sum ≤
      (s.workers.map WorkerPhase.effort).sum + s.workers.length :=
    Slots.sum_map_le (fun w => by cases w <;> simp [WorkerPhase.effort]) s.workers
  have hlength : s.wakeAllWorkers.workers.length = s.workers.length := List.length_map ..
  unfold effort
  rw [hlength]
  show (s.producers.map ProducerPhase.effort).sum + 8 * s.queue.queue.length +
    s.dispatcher.effort + 2 * s.pool.jobs.length + _ +
    s.stopper.effort s.producers.length s.workers.length ≤ _
  omega

/-- Each step that the threads take on their own leaves them with fewer. -/
theorem next_effort (s : PacketDispatcher) (e : DispatchEvent) (s' : PacketDispatcher)
    (he : e.own = true) (hs' : s.next e = some s') : s'.effort < s.effort := by
  cases e with
  | call i job => simp [DispatchEvent.own] at he
  | push i =>
    obtain ⟨job, hi, rfl⟩ := next_push hs'
    exact push_effort hi
  | pushNotify i waiter =>
    obtain ⟨hi, hw⟩ := next_pushNotify hs'
    have hback := producers_effort hi .idle
    have hwoken := notifyOne_effort hw
    simp only [effort, ProducerPhase.effort, List.length_set] at hback hwoken ⊢
    omega
  | pop =>
    obtain ⟨hd, rfl⟩ := next_pop hs'
    exact pop_effort hd
  | popNotify waiter =>
    obtain ⟨job, hd, hw⟩ := next_popNotify hs'
    have hwoken := notifyOne_effort hw
    simp only [effort, hd, DispatchPhase.effort] at hwoken ⊢
    omega
  | submit =>
    obtain ⟨job, hd, rfl⟩ := next_submit hs'
    exact submit_effort hd
  | submitNotify worker =>
    obtain ⟨hd, ⟨k, hk, rfl⟩ | rfl⟩ := next_submitNotify hs'
    · have hwoken := workers_effort hk .ready
      simp only [effort, hd, DispatchPhase.effort, WorkerPhase.effort, List.length_set]
        at hwoken ⊢
      omega
    · simp only [effort, hd, DispatchPhase.effort]
      omega
  | take k =>
    obtain ⟨hk, rfl⟩ := next_take hs'
    exact take_effort hk
  | run k =>
    obtain ⟨job, hk, rfl⟩ := next_run hs'
    have hback := workers_effort hk .ready
    simp only [note, effort, WorkerPhase.effort, List.length_set] at hback ⊢
    omega
  | stop =>
    obtain ⟨hs, rfl⟩ := next_stop hs'
    simp only [effort, hs, StopPhase.effort]
    omega
  | stopNotify =>
    obtain ⟨hs, rfl⟩ := next_stopNotify hs'
    have hwoken := wakeAll_effort s
    have hlength : s.wakeAll.producers.length = s.producers.length := List.length_map ..
    have hstopper : s.wakeAll.stopper = s.stopper := rfl
    simp only [effort, hstopper, hs, hlength, StopPhase.effort] at hwoken ⊢
    omega
  | join =>
    obtain ⟨hs, -, rfl⟩ := next_join hs'
    simp only [effort, hs, StopPhase.effort]
    omega
  | poolStop =>
    obtain ⟨hs, rfl⟩ := next_poolStop hs'
    simp only [effort, hs, StopPhase.effort]
    omega
  | poolNotify =>
    obtain ⟨hs, rfl⟩ := next_poolNotify hs'
    have hwoken := wakeAllWorkers_effort s
    have hlength : s.wakeAllWorkers.workers.length = s.workers.length := List.length_map ..
    have hstopper : s.wakeAllWorkers.stopper = s.stopper := rfl
    simp only [effort, hstopper, hs, hlength, StopPhase.effort] at hwoken ⊢
    omega
  | joinWorkers =>
    obtain ⟨hs, -, rfl⟩ := next_joinWorkers hs'
    simp only [effort, hs, StopPhase.effort]
    omega
  | spurious waiter => simp [DispatchEvent.own] at he
  | spuriousWorker k => simp [DispatchEvent.own] at he

end Effort

section Released

/-- As `stop` goes on, the queue is stopped, no thread waits for it any more, the pool is stopped,
and no worker waits. -/
structure Released (s : PacketDispatcher) : Prop where
  stopped : 1 ≤ s.stopper.stage → s.queue.stopped = true
  passed : 2 ≤ s.stopper.stage → s.dispatcher ≠ .waiting ∧ ∀ p ∈ s.producers, p.isWaiting = false
  requested : 4 ≤ s.stopper.stage → s.pool.stopRequested = true
  worked : 5 ≤ s.stopper.stage → .waiting ∉ s.workers

/-- A thread goes to wait only for what is not stopped. -/
theorem Released.moves (h : Released s) (hstopper : s'.stopper = s.stopper)
    (hstopped : s'.queue.stopped = s.queue.stopped)
    (hrequested : s'.pool.stopRequested = s.pool.stopRequested)
    (hdispatcher : s'.dispatcher = .waiting → s.queue.stopped = false ∨ s.dispatcher = .waiting)
    (hproducers : ∀ p ∈ s'.producers,
      p.isWaiting = false ∨ s.queue.stopped = false ∨ p ∈ s.producers)
    (hworkers : .waiting ∈ s'.workers → s.pool.stopRequested = false ∨ .waiting ∈ s.workers) :
    Released s' := by
  refine ⟨fun hs => ?_, fun hs => ?_, fun hs => ?_, fun hs => ?_⟩
  all_goals rw [hstopper] at hs
  · rw [hstopped]
    exact h.stopped hs
  · have hqueue := h.stopped (by omega)
    obtain ⟨hd, hp⟩ := h.passed hs
    refine ⟨fun hwait => ?_, fun p hmem => ?_⟩
    · rcases hdispatcher hwait with hrunning | hwait
      · simp [hqueue] at hrunning
      · exact hd hwait
    · rcases hproducers p hmem with hawake | hrunning | hmem
      · exact hawake
      · simp [hqueue] at hrunning
      · exact hp p hmem
  · rw [hrequested]
    exact h.requested hs
  · intro hwait
    rcases hworkers hwait with hrunning | hwait
    · simp [h.requested (by omega)] at hrunning
    · exact h.worked hs hwait

/-- A producer that does not wait takes the place of another phase of it. -/
theorem awake_of_mem_set {p' : ProducerPhase} (hp' : p'.isWaiting = false) :
    ∀ p ∈ s.producers.set i p',
      p.isWaiting = false ∨ s.queue.stopped = false ∨ p ∈ s.producers := by
  intro p hp
  rcases List.mem_or_eq_of_mem_set hp with hp | rfl
  · exact .inr (.inr hp)
  · exact .inl hp'

theorem waiting_of_mem_set {w : WorkerPhase} (hw : w ≠ .waiting)
    (h : .waiting ∈ s.workers.set k w) :
    s.pool.stopRequested = false ∨ .waiting ∈ s.workers := by
  rcases List.mem_or_eq_of_mem_set h with h | h
  · exact .inr h
  · exact absurd h.symm hw

theorem Released.woken (h : Released s) {waiter : Waiter} (hw : s.wake waiter = some s') :
    Released s' := by
  rcases wake_cases hw with ⟨i, job, -, rfl⟩ | ⟨-, rfl⟩
  · exact h.moves rfl rfl rfl .inr (awake_of_mem_set rfl) .inr
  · exact h.moves rfl rfl rfl (by simp) (fun p hp => .inr (.inr hp)) .inr

theorem Released.notified (h : Released s) {waiter : Option Waiter}
    (hw : s.notifyOne waiter = some s') : Released s' :=
  notifyOne_keeps h (fun _ _ => h.woken) hw

theorem Released.push (h : Released s) : Released (s.afterPush i job (s.queue.push job)) := by
  rcases hp : s.queue.push job with _ | _ | queue | ⟨evicted, queue⟩
  · refine h.moves rfl rfl rfl .inr (fun p _ => ?_) .inr
    exact .inr (.inl (PacketQueue.push_waits hp))
  · exact h.moves rfl rfl rfl .inr (awake_of_mem_set rfl) .inr
  · rw [PacketQueue.push_refused hp]
    exact h.moves rfl rfl rfl .inr (awake_of_mem_set rfl) .inr
  · obtain ⟨rest, -, rfl, -⟩ := PacketQueue.push_taken hp
    rcases evicted with _ | old
    · exact h.moves rfl rfl rfl .inr (awake_of_mem_set rfl) .inr
    · exact h.moves rfl rfl rfl .inr (awake_of_mem_set rfl) .inr

theorem Released.pop (h : Released s) : Released (s.afterPop s.queue.pop) := by
  rcases hp : s.queue.pop with _ | _ | ⟨job, queue⟩
  · refine h.moves rfl rfl rfl (fun _ => ?_) (fun p hp => .inr (.inr hp)) .inr
    exact .inl (PacketQueue.pop_waits_running hp)
  · exact h.moves rfl rfl rfl nofun (fun p hp => .inr (.inr hp)) .inr
  · obtain ⟨rest, -, rfl⟩ := PacketQueue.pop_taken hp
    refine h.moves rfl rfl rfl (fun hd => ?_) (fun p hp => .inr (.inr hp)) .inr
    have hphase : (if s.queue.config.capacity > 0 then DispatchPhase.notifying job
        else .holding job) ≠ .waiting := by
      split_ifs <;> simp
    exact absurd hd hphase

theorem Released.take (h : Released s) : Released (s.afterTake k s.pool.take) := by
  unfold WorkerPool.take
  split
  · split_ifs with hrequested
    · exact h.moves rfl rfl rfl .inr (fun p hp => .inr (.inr hp)) (waiting_of_mem_set (by simp))
    · refine h.moves rfl rfl rfl .inr (fun p hp => .inr (.inr hp)) fun _ => .inl ?_
      exact Bool.eq_false_iff.mpr hrequested
  · exact h.moves rfl rfl rfl .inr (fun p hp => .inr (.inr hp)) (waiting_of_mem_set (by simp))

theorem Released.step (h : Released s) (e : DispatchEvent) : Released (s.step e) := by
  refine step_of_next h fun s' hs' => ?_
  have hsame : ∀ p ∈ s.producers,
      p.isWaiting = false ∨ s.queue.stopped = false ∨ p ∈ s.producers :=
    fun p hp => .inr (.inr hp)
  cases e with
  | call i job =>
    obtain ⟨-, rfl⟩ := next_call hs'
    exact h.moves rfl rfl rfl .inr (awake_of_mem_set rfl) .inr
  | push i =>
    obtain ⟨job, -, rfl⟩ := next_push hs'
    exact h.push
  | pushNotify i waiter =>
    obtain ⟨-, hw⟩ := next_pushNotify hs'
    refine Released.notified ?_ hw
    exact h.moves rfl rfl rfl .inr (awake_of_mem_set rfl) .inr
  | pop =>
    obtain ⟨-, rfl⟩ := next_pop hs'
    exact h.pop
  | popNotify waiter =>
    obtain ⟨job, -, hw⟩ := next_popNotify hs'
    refine Released.notified ?_ hw
    exact h.moves rfl rfl rfl nofun hsame .inr
  | submit =>
    obtain ⟨job, -, rfl⟩ := next_submit hs'
    split_ifs
    · exact h.moves rfl rfl rfl nofun hsame .inr
    · exact h.moves rfl rfl rfl nofun hsame .inr
  | submitNotify worker =>
    obtain ⟨-, ⟨k, -, rfl⟩ | rfl⟩ := next_submitNotify hs'
    · exact h.moves rfl rfl rfl nofun hsame (waiting_of_mem_set (by simp))
    · exact h.moves rfl rfl rfl nofun hsame .inr
  | take k =>
    obtain ⟨-, rfl⟩ := next_take hs'
    exact h.take
  | run k =>
    obtain ⟨job, -, rfl⟩ := next_run hs'
    exact h.moves rfl rfl rfl .inr hsame (waiting_of_mem_set (by simp))
  | stop =>
    obtain ⟨-, rfl⟩ := next_stop hs'
    exact ⟨fun _ => rfl, by simp [StopPhase.stage], by simp [StopPhase.stage],
      by simp [StopPhase.stage]⟩
  | stopNotify =>
    obtain ⟨hs, rfl⟩ := next_stopNotify hs'
    refine ⟨fun _ => h.stopped (by simp [hs, StopPhase.stage]), fun _ => ⟨?_, fun p hp => ?_⟩,
      by simp [StopPhase.stage], by simp [StopPhase.stage]⟩
    · show s.wakeAll.dispatcher ≠ .waiting
      unfold wakeAll
      cases s.dispatcher <;> simp
    · obtain ⟨q, -, rfl⟩ := List.mem_map.mp hp
      cases q <;> rfl
  | join =>
    obtain ⟨hs, hd, rfl⟩ := next_join hs'
    have hstage : s.stopper.stage = 2 := by rw [hs]; rfl
    exact ⟨fun _ => h.stopped (by omega), fun _ => h.passed (by omega),
      by simp [StopPhase.stage], by simp [StopPhase.stage]⟩
  | poolStop =>
    obtain ⟨hs, rfl⟩ := next_poolStop hs'
    have hstage : s.stopper.stage = 3 := by rw [hs]; rfl
    exact ⟨fun _ => h.stopped (by omega), fun _ => h.passed (by omega), fun _ => rfl,
      by simp [StopPhase.stage]⟩
  | poolNotify =>
    obtain ⟨hs, rfl⟩ := next_poolNotify hs'
    have hstage : s.stopper.stage = 4 := by rw [hs]; rfl
    refine ⟨fun _ => h.stopped (by omega), fun _ => h.passed (by omega),
      fun _ => h.requested (by omega), fun _ hwait => ?_⟩
    obtain ⟨w, -, hw⟩ := List.mem_map.mp hwait
    split_ifs at hw with hw'
    exact hw' hw
  | joinWorkers =>
    obtain ⟨hs, -, rfl⟩ := next_joinWorkers hs'
    have hstage : s.stopper.stage = 5 := by rw [hs]; rfl
    exact ⟨fun _ => h.stopped (by omega), fun _ => h.passed (by omega),
      fun _ => h.requested (by omega), fun _ => h.worked (by omega)⟩
  | spurious waiter => exact h.woken hs'
  | spuriousWorker k =>
    obtain ⟨-, rfl⟩ := wakeWorker_cases hs'
    exact h.moves rfl rfl rfl .inr hsame (waiting_of_mem_set (by simp))

theorem released_start (config : PacketQueue.Config) (handler : Bool) (producers workers : ℕ) :
    Released (start config handler producers workers) :=
  ⟨by simp [start, StopPhase.stage], by simp [start, StopPhase.stage],
    by simp [start, StopPhase.stage], by simp [start, StopPhase.stage]⟩

end Released

section Over

/-- All threads have ended, and no call of `push` or `stop` is left. -/
structure Over (s : PacketDispatcher) : Prop where
  producers : ∀ p ∈ s.producers, p = .idle
  dispatcher : s.dispatcher = .exited
  workers : ∀ w ∈ s.workers, w = .exited
  stopper : s.stopper = .returned

/-- There is always a thread that a `notify_one` can wake, or none that waits. -/
theorem exists_notifyOne (s : PacketDispatcher) : ∃ waiter, s.notifyOne waiter ≠ none := by
  by_cases hd : s.dispatcher = .waiting
  · exact ⟨some .dispatcher, by simp [notifyOne, wake, hd]⟩
  · by_cases hp : ∀ p ∈ s.producers, p.isWaiting = false
    · exact ⟨none, by simp [notifyOne, hd]; exact hp⟩
    · push Not at hp
      obtain ⟨p, hmem, hp⟩ := hp
      obtain ⟨i, hi⟩ := List.getElem?_of_mem hmem
      refine ⟨some (.producer i), ?_⟩
      cases p <;> simp_all [notifyOne, wake, ProducerPhase.isWaiting]

theorem exists_notifyWorker (s : PacketDispatcher) : ∃ worker, s.notifyWorker worker ≠ none := by
  by_cases hw : .waiting ∈ s.workers
  · obtain ⟨k, hk⟩ := List.getElem?_of_mem hw
    exact ⟨some k, by simp [notifyWorker, wakeWorker, hk]⟩
  · exact ⟨none, by simp [notifyWorker, hw]⟩

/-- Threads that have nothing left to do wait, or have ended, or are in no call. -/
theorem quiet_of_rests
    (hrest : Rests next (fun e : DispatchEvent => e.own = true ∧ e ≠ .stop) s) :
    (∀ p ∈ s.producers, p = .idle ∨ p.isWaiting = true) ∧
      (s.dispatcher = .waiting ∨ s.dispatcher = .exited) ∧
      ∀ w ∈ s.workers, w = .waiting ∨ w = .exited := by
  refine ⟨fun p hp => ?_, ?_, fun w hw => ?_⟩
  · obtain ⟨i, hi⟩ := List.getElem?_of_mem hp
    have hpush : s.next (.push i) = none := hrest (.push i) ⟨rfl, by simp⟩
    delta next at hpush
    dsimp only at hpush
    rw [hi] at hpush
    cases p with
    | idle => exact .inl rfl
    | ready job => simp at hpush
    | waiting job => exact .inr rfl
    | notifying =>
      obtain ⟨waiter, hwaiter⟩ :=
        exists_notifyOne { s with producers := s.producers.set i .idle }
      have hnotify : s.next (.pushNotify i waiter) = none :=
        hrest (.pushNotify i waiter) ⟨rfl, by simp⟩
      delta next at hnotify
      dsimp only at hnotify
      rw [hi] at hnotify
      exact absurd hnotify hwaiter
  · have hpop : s.next .pop = none := hrest .pop ⟨rfl, by simp⟩
    have hsubmit : s.next .submit = none := hrest .submit ⟨rfl, by simp⟩
    delta next at hpop hsubmit
    dsimp only at hpop hsubmit
    cases hd : s.dispatcher with
    | ready => simp [hd] at hpop
    | waiting => exact .inl rfl
    | notifying job =>
      obtain ⟨waiter, hwaiter⟩ := exists_notifyOne { s with dispatcher := .holding job }
      have hnotify : s.next (.popNotify waiter) = none := hrest (.popNotify waiter) ⟨rfl, by simp⟩
      delta next at hnotify
      dsimp only at hnotify
      rw [hd] at hnotify
      exact absurd hnotify hwaiter
    | holding job =>
      rw [hd] at hsubmit
      dsimp only at hsubmit
      split_ifs at hsubmit
    | submitted =>
      obtain ⟨worker, hworker⟩ := exists_notifyWorker { s with dispatcher := .ready }
      have hnotify : s.next (.submitNotify worker) = none :=
        hrest (.submitNotify worker) ⟨rfl, by simp⟩
      delta next at hnotify
      dsimp only at hnotify
      rw [hd] at hnotify
      exact absurd hnotify hworker
    | exited => exact .inr rfl
  · obtain ⟨k, hk⟩ := List.getElem?_of_mem hw
    have htake : s.next (.take k) = none := hrest (.take k) ⟨rfl, by simp⟩
    have hrun : s.next (.run k) = none := hrest (.run k) ⟨rfl, by simp⟩
    delta next at htake hrun
    dsimp only at htake hrun
    rw [hk] at htake hrun
    cases w with
    | ready => simp at htake
    | waiting => exact .inl rfl
    | running job => simp at hrun
    | exited => exact .inr rfl

/-- The threads have nothing left to do only when all is over. -/
theorem Released.over (h : Released s)
    (hrest : Rests next (fun e : DispatchEvent => e.own = true) s) : Over s := by
  obtain ⟨hcalls, hdispatcher, hworking⟩ := quiet_of_rests fun e he => hrest e he.1
  have hstopper : 2 ≤ s.stopper.stage ∧ s.stopper ≠ .poolStop ∧ s.stopper ≠ .poolNotify := by
    have hstop : s.next .stop = none := hrest .stop rfl
    have hnotify : s.next .stopNotify = none := hrest .stopNotify rfl
    have hpool : s.next .poolStop = none := hrest .poolStop rfl
    have hworkers : s.next .poolNotify = none := hrest .poolNotify rfl
    delta next at hstop hnotify hpool hworkers
    dsimp only at hstop hnotify hpool hworkers
    cases hs : s.stopper <;> simp_all [StopPhase.stage]
  obtain ⟨hawake, hproducers⟩ := h.passed hstopper.1
  have hidle : ∀ p ∈ s.producers, p = .idle :=
    fun p hp => (hcalls p hp).resolve_right (by simp [hproducers p hp])
  have hexited : s.dispatcher = .exited := hdispatcher.resolve_left hawake
  have hjoined : 5 ≤ s.stopper.stage := by
    have hjoin : s.next .join = none := hrest .join rfl
    delta next at hjoin
    dsimp only at hjoin
    cases hs : s.stopper <;> simp_all [StopPhase.stage]
  have hworkers : ∀ w ∈ s.workers, w = .exited := fun w hw =>
    (hworking w hw).resolve_left fun hwait => h.worked hjoined (hwait ▸ hw)
  refine ⟨hidle, hexited, hworkers, ?_⟩
  have hjoin : s.next .joinWorkers = none := hrest .joinWorkers rfl
  delta next at hjoin
  dsimp only at hjoin
  have hlate : s.stopper = .workersJoin ∨ s.stopper = .returned := by
    cases hs : s.stopper <;> simp [hs, StopPhase.stage] at hjoined ⊢
  rcases hlate with hs | hs
  · rw [if_pos ⟨hs, hworkers⟩] at hjoin
    cases hjoin
  · exact hs

/-- From wherever the threads have got to, `stop` comes back if the handler always does: they can
take so many steps on their own, there is a way to take them all, and when none is left all threads
have ended, and each job that was accepted before the queue was stopped, and not evicted, has been
handled. -/
theorem stop_completes (config : PacketQueue.Config) (handler : Bool) (producers workers : ℕ)
    (es : List DispatchEvent) :
    let s := after step (start config handler producers workers) es
    (∀ es' t, (∀ e ∈ es', e.own = true) → run next s es' = some t →
      es'.length ≤ s.effort ∧
      (Rests next (fun e : DispatchEvent => e.own = true) t → Over t ∧
        (handler = true → 0 < workers → ∀ job ∈ jobsOf t.record [.accepted],
          job ∉ jobsOf t.record [.evicted] → job ∈ jobsOf t.record [.handled]))) ∧
    ∃ es' t, (∀ e ∈ es', e.own = true) ∧ run next s es' = some t ∧
      Rests next (fun e : DispatchEvent => e.own = true) t := by
  intro s
  refine ⟨fun es' t hown hrun => ⟨?_, fun hrest => ?_⟩, exists_rest next_effort s⟩
  · have hle := length_add_le next_effort hown hrun
    omega
  · obtain rfl : after step (start config handler producers workers) (es ++ es') = t := by
      rw [after_append]
      exact after_of_run hrun
    have hreleased : Released (after step (start config handler producers workers) (es ++ es')) :=
      stable (fun _ e h => h.step e) (es ++ es')
        (released_start config handler producers workers)
    have hover := hreleased.over hrest
    refine ⟨hover, fun hhandler hworkers job hjob hkept => ?_⟩
    have hsetup : Setup config handler workers _ :=
      stable (fun _ e h => h.step e) (es ++ es') (setup_start producers)
    exact (ending_after config handler producers workers (es ++ es')).handled_of_accepted
      (flow_after config handler producers workers (es ++ es')) (hsetup.handler.trans hhandler)
      (hworkers.trans_eq hsetup.workers.symm) hover.stopper hjob hkept

end Over

end PacketDispatcher

end DungeonHub
