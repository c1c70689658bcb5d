import DungeonHub.Lib.Run
import DungeonHub.Lib.Slots
import DungeonHub.WorkerPool

/-!
# What the steps of the dispatcher's threads do

A step that wakes a thread changes nothing but that thread's phase. What the critical sections do to
the queue is said once.
-/

namespace DungeonHub

namespace PacketQueue

/-- A job that was taken is the last in the queue; one that made room for it was the first, and is
counted. -/
theorem push_taken {q q' : PacketQueue} {job : PushedJob} {evicted : Option PushedJob}
    (h : q.push job = .taken evicted q') :
    ∃ rest, q.queue = evicted.toList ++ rest ∧
      q' = { q with queue := rest ++ [job], dropped := q.dropped + evicted.toList.length } ∧
      (q.config.capacity ≠ 0 → q.queue.length ≤ q.config.capacity →
        rest.length < q.config.capacity) := by
  unfold push at h
  by_cases hc : q.config.capacity > 0
  · have hfull : q.isFullLocked = decide (q.config.capacity ≤ q.queue.length) := by
      unfold isFullLocked
      rw [if_neg (by omega)]
    have hroom : q.isFullLocked = false → q.queue.length < q.config.capacity := by
      intro hf
      rw [hfull, decide_eq_false_iff_not] at hf
      omega
    rw [if_pos hc] at h
    split at h
    · split_ifs at h with hs hf
      cases h
      exact ⟨q.queue, rfl, rfl, fun _ _ => hroom (Bool.eq_false_iff.mpr hf)⟩
    · split_ifs at h with hf
      cases h
      exact ⟨q.queue, rfl, rfl, fun _ _ => hroom (Bool.eq_false_iff.mpr hf)⟩
    · split_ifs at h with hf
      · rw [hfull, decide_eq_true_iff] at hf
        cases h
        rcases hq : q.queue with _ | ⟨old, rest⟩
        · rw [hq, List.length_nil] at hf
          omega
        · refine ⟨rest, rfl, rfl, fun _ hle => ?_⟩
          rw [List.length_cons] at hle
          omega
      · cases h
        exact ⟨q.queue, rfl, rfl, fun _ _ => hroom (Bool.eq_false_iff.mpr hf)⟩
  · rw [if_neg hc] at h
    cases h
    exact ⟨q.queue, rfl, rfl, fun hne => absurd (Nat.pos_of_ne_zero hne) hc⟩

theorem push_refused {q q' : PacketQueue} {job : PushedJob} (h : q.push job = .refused q') :
    q' = { q with dropped := q.dropped + 1 } := by
  unfold push at h
  by_cases hc : q.config.capacity > 0
  · rw [if_pos hc] at h
    split at h
    · split_ifs at h
    · split_ifs at h
      cases h
      rfl
    · split_ifs at h
  · rw [if_neg hc] at h
    cases h

theorem pop_taken {q q' : PacketQueue} {job : PushedJob} (h : q.pop = .taken job q') :
    ∃ rest, q.queue = job :: rest ∧ q' = { q with queue := rest } := by
  unfold pop at h
  split at h
  · split_ifs at h
  · rename_i rest hq
    cases h
    exact ⟨rest, hq, rfl⟩

theorem pop_waits {q : PacketQueue} (h : q.pop = .waits) : q.queue = [] := by
  unfold pop at h
  split at h
  · assumption
  · cases h

theorem pop_stopped {q : PacketQueue} (h : q.pop = .stopped) :
    q.queue = [] ∧ q.stopped = true := by
  unfold pop at h
  split at h
  · rename_i hq
    split_ifs at h with hs
    exact ⟨hq, hs⟩
  · cases h

end PacketQueue

namespace PacketDispatcher

variable {s s' : PacketDispatcher}

theorem step_of_next {I : PacketDispatcher → Prop} {e : DispatchEvent} (h : I s)
    (hnext : ∀ s', s.next e = some s' → I s') : I (s.step e) := by
  unfold step
  rcases hs : s.next e with _ | s'
  · exact h
  · exact hnext s' hs

theorem wake_cases {waiter : Waiter} (h : s.wake waiter = some s') :
    (∃ i job, s.producers[i]? = some (.waiting job) ∧
      s' = { s with producers := s.producers.set i (.ready job) }) ∨
    s.dispatcher = .waiting ∧ s' = { s with dispatcher := .ready } := by
  unfold wake at h
  split at h
  · rename_i i
    split at h
    · rename_i job hi
      cases h
      exact .inl ⟨i, job, hi, rfl⟩
    · cases h
  · split at h
    · rename_i hd
      cases h
      exact .inr ⟨hd, rfl⟩
    · cases h

/-- A `notify_one` wakes a thread that waits, or finds none. -/
theorem notifyOne_cases {waiter : Option Waiter} (h : s.notifyOne waiter = some s') :
    (∃ i job, s.producers[i]? = some (.waiting job) ∧
      s' = { s with producers := s.producers.set i (.ready job) }) ∨
    (s.dispatcher = .waiting ∧ s' = { s with dispatcher := .ready }) ∨
    (s.dispatcher ≠ .waiting ∧ (∀ p ∈ s.producers, p.isWaiting = false) ∧ s' = s) := by
  unfold notifyOne at h
  split at h
  · rcases wake_cases h with hp | hd
    · exact .inl hp
    · exact .inr (.inl hd)
  · split_ifs at h with hn
    cases h
    exact .inr (.inr ⟨hn.1, hn.2, rfl⟩)

/-- What holds of the state, and of it with any thread woken, a `notify_one` keeps up. -/
theorem notifyOne_keeps {I : PacketDispatcher → Prop} {waiter : Option Waiter} (h : I s)
    (hwake : ∀ w s', s.wake w = some s' → I s') (hs' : s.notifyOne waiter = some s') : I s' := by
  unfold notifyOne at hs'
  split at hs'
  · exact hwake _ s' hs'
  · split_ifs at hs'
    cases hs'
    exact h

theorem wakeWorker_cases {k : ℕ} (h : s.wakeWorker k = some s') :
    s.workers[k]? = some .waiting ∧ s' = { s with workers := s.workers.set k .ready } := by
  unfold wakeWorker at h
  split at h
  · rename_i hk
    cases h
    exact ⟨hk, rfl⟩
  · cases h

theorem notifyWorker_cases {worker : Option ℕ} (h : s.notifyWorker worker = some s') :
    (∃ k, s.workers[k]? = some .waiting ∧ s' = { s with workers := s.workers.set k .ready }) ∨
    s' = s := by
  unfold notifyWorker at h
  split at h
  · exact .inl ⟨_, wakeWorker_cases h⟩
  · split_ifs at h
    cases h
    exact .inr rfl

section Next

variable {i k : ℕ}

theorem next_call {job : PacketJob} (h : s.next (.call i job) = some s') :
    s.producers[i]? = some .idle ∧
      s' = { s with
        producers := s.producers.set i (.ready ⟨s.calls, job⟩)
        calls := s.calls + 1 } := by
  -- here and below without the equations of `next`, which are many and slow to come
  delta next at h
  dsimp only at h
  split at h
  · rename_i hi
    cases h
    exact ⟨hi, rfl⟩
  · cases h

theorem next_push (h : s.next (.push i) = some s') :
    ∃ job, s.producers[i]? = some (.ready job) ∧ s' = s.afterPush i job (s.queue.push job) := by
  delta next at h
  dsimp only at h
  split at h
  · rename_i job hi
    cases h
    exact ⟨job, hi, rfl⟩
  · cases h

theorem next_pushNotify {waiter : Option Waiter} (h : s.next (.pushNotify i waiter) = some s') :
    s.producers[i]? = some .notifying ∧
      { s with producers := s.producers.set i .idle }.notifyOne waiter = some s' := by
  delta next at h
  dsimp only at h
  split at h
  · rename_i hi
    exact ⟨hi, h⟩
  · cases h

theorem next_pop (h : s.next .pop = some s') :
    s.dispatcher = .ready ∧ s' = s.afterPop s.queue.pop := by
  delta next at h
  dsimp only at h
  split at h
  · rename_i hd
    cases h
    exact ⟨hd, rfl⟩
  · cases h

theorem next_popNotify {waiter : Option Waiter} (h : s.next (.popNotify waiter) = some s') :
    ∃ job, s.dispatcher = .notifying job ∧
      { s with dispatcher := .holding job }.notifyOne waiter = some s' := by
  delta next at h
  dsimp only at h
  split at h
  · rename_i job hd
    exact ⟨job, hd, h⟩
  · cases h

theorem next_submit (h : s.next .submit = some s') :
    ∃ job, s.dispatcher = .holding job ∧
      s' = if s.handler then
        { s with
          pool := { s.pool with jobs := s.pool.jobs ++ [job] }
          dispatcher := .submitted }.note .submitted job
      else { s with dispatcher := .ready } := by
  delta next at h
  dsimp only at h
  split at h
  · rename_i job hd
    refine ⟨job, hd, ?_⟩
    split_ifs at h ⊢
    · cases h
      rfl
    · cases h
      rfl
  · cases h

theorem next_submitNotify {worker : Option ℕ} (h : s.next (.submitNotify worker) = some s') :
    s.dispatcher = .submitted ∧
      ((∃ k, s.workers[k]? = some .waiting ∧
        s' = { s with dispatcher := .ready, workers := s.workers.set k .ready }) ∨
      s' = { s with dispatcher := .ready }) := by
  delta next at h
  dsimp only at h
  split at h
  · rename_i hd
    exact ⟨hd, notifyWorker_cases h⟩
  · cases h

theorem next_take (h : s.next (.take k) = some s') :
    s.workers[k]? = some .ready ∧ s' = s.afterTake k s.pool.take := by
  delta next at h
  dsimp only at h
  split at h
  · rename_i hk
    cases h
    exact ⟨hk, rfl⟩
  · cases h

theorem next_run (h : s.next (.run k) = some s') :
    ∃ job, s.workers[k]? = some (.running job) ∧
      s' = { s with workers := s.workers.set k .ready }.note .handled job := by
  delta next at h
  dsimp only at h
  split at h
  · rename_i job hk
    cases h
    exact ⟨job, hk, rfl⟩
  · cases h

theorem next_stop (h : s.next .stop = some s') :
    s.stopper = .idle ∧
      s' = { s with queue := { s.queue with stopped := true }, stopper := .queueNotify } := by
  delta next at h
  dsimp only at h
  split at h
  · rename_i hs
    cases h
    exact ⟨hs, rfl⟩
  · cases h

theorem next_stopNotify (h : s.next .stopNotify = some s') :
    s.stopper = .queueNotify ∧ s' = { s.wakeAll with stopper := .dispatcherJoin } := by
  delta next at h
  dsimp only at h
  split at h
  · rename_i hs
    cases h
    exact ⟨hs, rfl⟩
  · cases h

theorem next_join (h : s.next .join = some s') :
    s.stopper = .dispatcherJoin ∧ s.dispatcher = .exited ∧
      s' = { s with stopper := .poolStop } := by
  delta next at h
  dsimp only at h
  split_ifs at h with hs
  cases h
  exact ⟨hs.1, hs.2, rfl⟩

theorem next_poolStop (h : s.next .poolStop = some s') :
    s.stopper = .poolStop ∧
      s' = { s with pool := { s.pool with stopRequested := true }, stopper := .poolNotify } := by
  delta next at h
  dsimp only at h
  split at h
  · rename_i hs
    cases h
    exact ⟨hs, rfl⟩
  · cases h

theorem next_poolNotify (h : s.next .poolNotify = some s') :
    s.stopper = .poolNotify ∧ s' = { s.wakeAllWorkers with stopper := .workersJoin } := by
  delta next at h
  dsimp only at h
  split at h
  · rename_i hs
    cases h
    exact ⟨hs, rfl⟩
  · cases h

theorem next_joinWorkers (h : s.next .joinWorkers = some s') :
    s.stopper = .workersJoin ∧ (∀ w ∈ s.workers, w = .exited) ∧
      s' = { s with stopper := .returned } := by
  delta next at h
  dsimp only at h
  split_ifs at h with hs
  cases h
  exact ⟨hs.1, hs.2, rfl⟩

end Next

section Setup

/-- What the dispatcher was made with. -/
structure Setup (config : PacketQueue.Config) (handler : Bool) (workers : ℕ)
    (s : PacketDispatcher) : Prop where
  config : s.queue.config = config
  handler : s.handler = handler
  workers : s.workers.length = workers

variable {config : PacketQueue.Config} {handler : Bool} {workers i k : ℕ}

theorem setup_start (producers : ℕ) :
    Setup config handler workers (start config handler producers workers) :=
  ⟨rfl, rfl, List.length_replicate⟩

theorem Setup.worker (h : Setup config handler workers s) (w : WorkerPhase) :
    (s.workers.set k w).length = workers := (List.length_set ..).trans h.workers

theorem Setup.woken (h : Setup config handler workers s) {waiter : Waiter}
    (hw : s.wake waiter = some s') : Setup config handler workers s' := by
  rcases wake_cases hw with ⟨i, job, -, rfl⟩ | ⟨-, rfl⟩
  · exact ⟨h.config, h.handler, h.workers⟩
  · exact ⟨h.config, h.handler, h.workers⟩

theorem Setup.notified (h : Setup config handler workers s) {waiter : Option Waiter}
    (hw : s.notifyOne waiter = some s') : Setup config handler workers s' :=
  notifyOne_keeps h (fun _ _ => h.woken) hw

theorem Setup.push (h : Setup config handler workers s) (job : PushedJob) :
    Setup config handler workers (s.afterPush i job (s.queue.push job)) := by
  rcases hp : s.queue.push job with _ | _ | queue | ⟨evicted, queue⟩
  · exact ⟨h.config, h.handler, h.workers⟩
  · exact ⟨h.config, h.handler, h.workers⟩
  · rw [PacketQueue.push_refused hp]
    exact ⟨h.config, h.handler, h.workers⟩
  · obtain ⟨rest, -, rfl, -⟩ := PacketQueue.push_taken hp
    rcases evicted with _ | old
    · exact ⟨h.config, h.handler, h.workers⟩
    · exact ⟨h.config, h.handler, h.workers⟩

theorem Setup.pop (h : Setup config handler workers s) :
    Setup config handler workers (s.afterPop s.queue.pop) := by
  rcases hp : s.queue.pop with _ | _ | ⟨job, queue⟩
  · exact ⟨h.config, h.handler, h.workers⟩
  · exact ⟨h.config, h.handler, h.workers⟩
  · obtain ⟨rest, -, rfl⟩ := PacketQueue.pop_taken hp
    exact ⟨h.config, h.handler, h.workers⟩

theorem Setup.step (h : Setup config handler workers s) (e : DispatchEvent) :
    Setup config handler workers (s.step e) := by
  refine step_of_next h fun s' hs' => ?_
  cases e with
  | call i job =>
    obtain ⟨-, rfl⟩ := next_call hs'
    exact ⟨h.config, h.handler, h.workers⟩
  | push i =>
    obtain ⟨job, -, rfl⟩ := next_push hs'
    exact h.push job
  | pushNotify i waiter =>
    obtain ⟨-, hw⟩ := next_pushNotify hs'
    refine Setup.notified ?_ hw
    exact ⟨h.config, h.handler, h.workers⟩
  | pop =>
    obtain ⟨-, rfl⟩ := next_pop hs'
    exact h.pop
  | popNotify waiter =>
    obtain ⟨job, -, hw⟩ := next_popNotify hs'
    refine Setup.notified ?_ hw
    exact ⟨h.config, h.handler, h.workers⟩
  | submit =>
    obtain ⟨job, -, rfl⟩ := next_submit hs'
    split_ifs
    · exact ⟨h.config, h.handler, h.workers⟩
    · exact ⟨h.config, h.handler, h.workers⟩
  | submitNotify worker =>
    obtain ⟨-, ⟨k, -, rfl⟩ | rfl⟩ := next_submitNotify hs'
    · exact ⟨h.config, h.handler, h.worker _⟩
    · exact ⟨h.config, h.handler, h.workers⟩
  | take k =>
    obtain ⟨-, rfl⟩ := next_take hs'
    rcases s.pool.take with _ | _ | ⟨job, pool⟩
    · exact ⟨h.config, h.handler, h.worker _⟩
    · exact ⟨h.config, h.handler, h.worker _⟩
    · exact ⟨h.config, h.handler, h.worker _⟩
  | run k =>
    obtain ⟨job, -, rfl⟩ := next_run hs'
    exact ⟨h.config, h.handler, h.worker _⟩
  | stop =>
    obtain ⟨-, rfl⟩ := next_stop hs'
    exact ⟨h.config, h.handler, h.workers⟩
  | stopNotify =>
    obtain ⟨-, rfl⟩ := next_stopNotify hs'
    exact ⟨h.config, h.handler, h.workers⟩
  | join =>
    obtain ⟨-, -, rfl⟩ := next_join hs'
    exact ⟨h.config, h.handler, h.workers⟩
  | poolStop =>
    obtain ⟨-, rfl⟩ := next_poolStop hs'
    exact ⟨h.config, h.handler, h.workers⟩
  | poolNotify =>
    obtain ⟨-, rfl⟩ := next_poolNotify hs'
    exact ⟨h.config, h.handler, (List.length_map ..).trans h.workers⟩
  | joinWorkers =>
    obtain ⟨-, -, rfl⟩ := next_joinWorkers hs'
    exact ⟨h.config, h.handler, h.workers⟩
  | spurious waiter => exact h.woken hs'
  | spuriousWorker k =>
    obtain ⟨-, rfl⟩ := wakeWorker_cases hs'
    exact ⟨h.config, h.handler, h.worker _⟩

end Setup

end PacketDispatcher

end DungeonHub
