import DungeonHub.Proofs.Shutdown

/-!
# Starting the dispatcher again

Nothing resets the `stopped` of the queue. A dispatcher that is started again ends as soon as it
finds the queue empty, and `push` still takes jobs then, except under `Block`. A job it takes when
no thread is left to pop it stays in the queue.
-/

namespace DungeonHub

namespace PacketQueue

variable {q : PacketQueue}

/-- Under `Block` a bounded queue takes no job once it is stopped. -/
def TurnsAway (q : PacketQueue) : Prop :=
  q.stopped = true ∧ 0 < q.config.capacity ∧ q.config.overflowPolicy = .block

theorem push_of_turnsAway (h : q.TurnsAway) (job : PushedJob) : q.push job = .turnedAway := by
  obtain ⟨hstopped, hcapacity, hpolicy⟩ := h
  unfold push
  rw [if_pos hcapacity, hpolicy]
  exact if_pos hstopped

/-- Any other queue takes a job when it is empty. -/
theorem push_of_empty (hq : q.queue = []) (h : ¬ q.TurnsAway) (job : PushedJob) :
    q.push job = .taken none { q with queue := [job] } := by
  have hroom : q.isFullLocked = false := by
    unfold isFullLocked
    rw [hq, List.length_nil]
    split_ifs with hc
    · rfl
    · exact decide_eq_false (by omega)
  unfold push
  rw [hq, hroom]
  by_cases hc : q.config.capacity > 0
  · rw [if_pos hc]
    split
    · rename_i hpolicy
      have hstopped : ¬ q.stopped = true := fun hs => h ⟨hs, hc, hpolicy⟩
      rw [if_neg hstopped]
      rfl
    · rfl
    · rfl
  · rw [if_neg hc]
    rfl

end PacketQueue

/-- `stop` has joined the dispatch thread. -/
def StopPhase.joined : StopPhase → Bool
  | .poolStop => true
  | .poolNotify => true
  | .workersJoin => true
  | .returned => true
  | _ => false

namespace PacketDispatcher

open Run

variable {s s' : PacketDispatcher} {e : DispatchEvent}

section Threads

/-- The dispatch thread ends when it finds the queue stopped and empty, and only then; and `stop`
gets past its join only when that thread has ended. -/
structure Exits (s : PacketDispatcher) (e : DispatchEvent) (s' : PacketDispatcher) : Prop where
  exited : s'.dispatcher = .exited ↔
    s.dispatcher = .exited ∨ e = .pop ∧ s.dispatcher = .ready ∧ s.queue.pop = .stopped
  joined : s'.stopper.joined = true → s.stopper.joined = true ∨ s.dispatcher = .exited

theorem exits_of_kept (he : e ≠ .pop) (hd : s'.dispatcher = .exited ↔ s.dispatcher = .exited)
    (hs : s'.stopper = s.stopper) : Exits s e s' := by
  refine ⟨⟨fun h => .inl (hd.mp h), fun h => ?_⟩, fun h => .inl (hs ▸ h)⟩
  rcases h with h | ⟨rfl, -⟩
  · exact hd.mpr h
  · exact absurd rfl he

theorem wake_kept {waiter : Waiter} (h : s.wake waiter = some s') :
    (s'.dispatcher = .exited ↔ s.dispatcher = .exited) ∧ s'.stopper = s.stopper := by
  rcases wake_cases h with ⟨i, job, -, rfl⟩ | ⟨hd, rfl⟩
  · exact ⟨Iff.rfl, rfl⟩
  · simp [hd]

theorem notifyOne_kept {waiter : Option Waiter} (h : s.notifyOne waiter = some s') :
    (s'.dispatcher = .exited ↔ s.dispatcher = .exited) ∧ s'.stopper = s.stopper :=
  notifyOne_keeps (I := fun s' => (s'.dispatcher = .exited ↔ s.dispatcher = .exited) ∧
    s'.stopper = s.stopper) ⟨Iff.rfl, rfl⟩ (fun _ _ => wake_kept) h

theorem afterPush_kept (s : PacketDispatcher) (i : ℕ) (job : PushedJob)
    (result : PacketQueue.PushResult) :
    (s.afterPush i job result).dispatcher = s.dispatcher ∧
      (s.afterPush i job result).stopper = s.stopper ∧
      (s.afterPush i job result).workers = s.workers := by
  rcases result with _ | _ | queue | ⟨_ | old, queue⟩ <;> exact ⟨rfl, rfl, rfl⟩

theorem afterPop_exited (s : PacketDispatcher) (result : PacketQueue.PopResult) :
    (s.afterPop result).dispatcher = .exited ↔ result = .stopped := by
  rcases result with _ | _ | ⟨job, queue⟩
  · simp [afterPop]
  · simp [afterPop]
  · have hhand := s.afterPop_hand job queue
    have hrunning : (s.afterPop (.taken job queue)).dispatcher ≠ .exited := by
      intro hexited
      simp [hexited, DispatchPhase.hand] at hhand
    simp [hrunning]

theorem next_exits (h : s.next e = some s') : Exits s e s' := by
  cases e with
  | call i job =>
    obtain ⟨-, rfl⟩ := next_call h
    exact exits_of_kept (by simp) Iff.rfl rfl
  | push i =>
    obtain ⟨job, -, rfl⟩ := next_push h
    obtain ⟨hd, hstopper, -⟩ := s.afterPush_kept i job (s.queue.push job)
    exact exits_of_kept (by simp) (by rw [hd]) hstopper
  | pushNotify i waiter =>
    obtain ⟨-, hw⟩ := next_pushNotify h
    exact exits_of_kept (by simp) (notifyOne_kept hw).1 (notifyOne_kept hw).2
  | pop =>
    obtain ⟨hd, rfl⟩ := next_pop h
    refine ⟨?_, fun hj => .inl ?_⟩
    · simp [afterPop_exited, hd]
    · rcases hp : s.queue.pop with _ | _ | ⟨job, queue⟩ <;> simpa [hp, afterPop, note] using hj
  | popNotify waiter =>
    obtain ⟨job, hd, hw⟩ := next_popNotify h
    refine exits_of_kept (by simp) ((notifyOne_kept hw).1.trans ?_) (notifyOne_kept hw).2
    simp [hd]
  | submit =>
    obtain ⟨job, hd, rfl⟩ := next_submit h
    split_ifs
    · exact exits_of_kept (by simp) (by simp [note, hd]) rfl
    · exact exits_of_kept (by simp) (by simp [hd]) rfl
  | submitNotify worker =>
    obtain ⟨hd, ⟨k, -, rfl⟩ | rfl⟩ := next_submitNotify h
    · exact exits_of_kept (by simp) (by simp [hd]) rfl
    · exact exits_of_kept (by simp) (by simp [hd]) rfl
  | take k =>
    obtain ⟨-, rfl⟩ := next_take h
    rcases s.pool.take with _ | _ | ⟨job, pool⟩
    · exact exits_of_kept (by simp) Iff.rfl rfl
    · exact exits_of_kept (by simp) Iff.rfl rfl
    · exact exits_of_kept (by simp) Iff.rfl rfl
  | run k =>
    obtain ⟨job, -, rfl⟩ := next_run h
    exact exits_of_kept (by simp) Iff.rfl rfl
  | stop =>
    obtain ⟨-, rfl⟩ := next_stop h
    exact ⟨by simp, fun hj => .inl (by cases hj)⟩
  | stopNotify =>
    obtain ⟨-, rfl⟩ := next_stopNotify h
    refine ⟨?_, fun hj => .inl (by cases hj)⟩
    unfold wakeAll
    cases s.dispatcher <;> simp
  | join =>
    obtain ⟨-, hd, rfl⟩ := next_join h
    exact ⟨by simp, fun _ => .inr hd⟩
  | poolStop =>
    obtain ⟨hs, rfl⟩ := next_poolStop h
    exact ⟨by simp, fun _ => .inl (by rw [hs]; rfl)⟩
  | poolNotify =>
    obtain ⟨hs, rfl⟩ := next_poolNotify h
    exact ⟨by simp [wakeAllWorkers], fun _ => .inl (by rw [hs]; rfl)⟩
  | joinWorkers =>
    obtain ⟨hs, -, rfl⟩ := next_joinWorkers h
    exact ⟨by simp, fun _ => .inl (by rw [hs]; rfl)⟩
  | spurious waiter => exact exits_of_kept (by simp) (wake_kept h).1 (wake_kept h).2
  | spuriousWorker k =>
    obtain ⟨-, rfl⟩ := wakeWorker_cases h
    exact exits_of_kept (by simp) Iff.rfl rfl

/-- Of the steps only that of `push` adds to the accepted jobs. -/
theorem step_accepts_none (s : PacketDispatcher) (e : DispatchEvent)
    (h : ∀ i job, e = .push i → s.producers[i]? = some (.ready job) → s.queue.TurnsAway) :
    jobsOf (s.step e).record [.accepted, .late] = jobsOf s.record [.accepted, .late] ∧
      (s.step e).queue.queue <:+ s.queue.queue := by
  refine step_of_next (I := fun s' => jobsOf s'.record [.accepted, .late] =
    jobsOf s.record [.accepted, .late] ∧ s'.queue.queue <:+ s.queue.queue)
    ⟨rfl, List.suffix_rfl⟩ fun s' hs' => ?_
  cases e with
  | call i job =>
    obtain ⟨-, rfl⟩ := next_call hs'
    exact ⟨rfl, List.suffix_rfl⟩
  | push i =>
    obtain ⟨job, hi, rfl⟩ := next_push hs'
    rw [PacketQueue.push_of_turnsAway (h i job rfl hi)]
    exact ⟨by simp [afterPush, note], List.suffix_rfl⟩
  | pop =>
    obtain ⟨-, rfl⟩ := next_pop hs'
    rcases hp : s.queue.pop with _ | _ | ⟨job, queue⟩
    · exact ⟨rfl, List.suffix_rfl⟩
    · exact ⟨rfl, List.suffix_rfl⟩
    · obtain ⟨rest, hqueue, rfl⟩ := PacketQueue.pop_taken hp
      refine ⟨by simp [afterPop, note], ?_⟩
      rw [hqueue]
      exact List.suffix_cons job rest
  | submit =>
    obtain ⟨job, -, rfl⟩ := next_submit hs'
    split_ifs
    · exact ⟨by simp [note], List.suffix_rfl⟩
    · exact ⟨rfl, List.suffix_rfl⟩
  | take k =>
    obtain ⟨-, rfl⟩ := next_take hs'
    rcases s.pool.take with _ | _ | ⟨job, pool⟩
    · exact ⟨rfl, List.suffix_rfl⟩
    · exact ⟨rfl, List.suffix_rfl⟩
    · exact ⟨by simp [afterTake, note], List.suffix_rfl⟩
  | run k =>
    obtain ⟨job, -, rfl⟩ := next_run hs'
    exact ⟨by simp [note], List.suffix_rfl⟩
  | _ =>
    have hstill := next_still rfl hs'
    rw [hstill.record, hstill.queue]
    exact ⟨rfl, List.suffix_rfl⟩

end Threads

section Restart

theorem Flow.restart (h : Flow s) (hrunning : s.running = []) (hhand : s.dispatcher.hand = []) :
    Flow s.restart := by
  refine h.still ⟨rfl, rfl, rfl, rfl, rfl, rfl, rfl, rfl, hhand.symm, ?_⟩
  rw [hrunning]
  refine List.flatMap_eq_nil_iff.mpr fun w hw => ?_
  obtain ⟨_, -, rfl⟩ := List.mem_map.mp hw
  rfl

theorem Ending.restart (s : PacketDispatcher) : Ending s.restart := by
  refine ⟨nofun, nofun, nofun, fun hleft => ?_, nofun⟩
  obtain ⟨_, -, hw⟩ := List.mem_map.mp hleft
  cases hw

theorem Setup.restart {config : PacketQueue.Config} {handler : Bool} {workers : ℕ}
    (h : Setup config handler workers s) : Setup config handler workers s.restart :=
  ⟨h.config, h.handler, (List.length_map ..).trans h.workers⟩

theorem running_of_exited (h : ∀ w ∈ s.workers, w = .exited) : s.running = [] := by
  refine List.flatMap_eq_nil_iff.mpr fun w hw => ?_
  rw [h w hw]
  rfl

/-- What the threads that call `enqueue` leave alone. -/
structure Aside (s s' : PacketDispatcher) : Prop where
  stopper : s'.stopper = s.stopper
  running : s'.running = s.running
  hand : s'.dispatcher.hand = s.dispatcher.hand
  popped : jobsOf s'.record [.popped] = jobsOf s.record [.popped]

theorem step_aside (s : PacketDispatcher) (he : e.ofProducer = true) : Aside s (s.step e) := by
  refine step_of_next (I := Aside s) ⟨rfl, rfl, rfl, rfl⟩ fun s' hs' => ?_
  cases e with
  | call i job =>
    obtain ⟨-, rfl⟩ := next_call hs'
    exact ⟨rfl, rfl, rfl, rfl⟩
  | push i =>
    obtain ⟨job, -, rfl⟩ := next_push hs'
    obtain ⟨hd, hstopper, hworkers⟩ := s.afterPush_kept i job (s.queue.push job)
    refine ⟨hstopper, by rw [running, hworkers]; rfl, by rw [hd], ?_⟩
    have hfate : (if s.queue.stopped then Fate.late else .accepted) ≠ .popped := by
      split_ifs <;> simp
    rcases s.queue.push job with _ | _ | queue | ⟨_ | old, queue⟩
    · rfl
    · simp [afterPush, note]
    · simp [afterPush, note]
    · simp only [afterPush, note, jobsOf_append, List.mem_singleton, if_neg hfate]
    · simp only [afterPush, note, jobsOf_append, List.mem_singleton, if_neg hfate]
      simp
  | pushNotify i waiter =>
    have hstill := next_still rfl hs'
    obtain ⟨-, hw⟩ := next_pushNotify hs'
    exact ⟨(notifyOne_kept hw).2, hstill.running, hstill.hand, by rw [hstill.record]⟩
  | spurious waiter =>
    have hstill := next_still rfl hs'
    exact ⟨(wake_kept hs').2, hstill.running, hstill.hand, by rw [hstill.record]⟩
  | _ => cases he

end Restart

end PacketDispatcher

namespace DispatcherLifetime

open Run PacketDispatcher

variable {config : PacketQueue.Config} {handler : Bool} {workers : ℕ} {s : DispatcherLifetime}

section Lifetime

/-- What holds all the while, whether the dispatcher runs or not. -/
structure Held (config : PacketQueue.Config) (handler : Bool) (workers : ℕ)
    (s : DispatcherLifetime) : Prop where
  flow : Flow s.threads
  ending : Ending s.threads
  setup : Setup config handler workers s.threads
  joined : s.threads.stopper.joined = true → s.threads.dispatcher = .exited
  active : s.running = true → s.threads.stopper ≠ .returned ∧ s.stopped = false
  resting : s.running = false → s.threads.running = [] ∧ s.threads.dispatcher.hand = []
  unstarted : s.running = false →
    s.threads.stopper = .returned ∨ jobsOf s.threads.record [.popped] = []

theorem step_running (hr : s.running = true) (e : DispatchEvent) :
    s.step (.thread e) = if (s.threads.step e).stopper = .returned
      then { threads := s.threads.step e, stopped := true }
      else { s with threads := s.threads.step e } := if_pos hr

theorem step_resting (hr : s.running = false) (e : DispatchEvent) :
    s.step (.thread e) = if e = .stop then { s with stopped := true }
      else if e.ofProducer then { s with threads := s.threads.step e } else s :=
  if_neg (Bool.eq_false_iff.mp hr)

theorem joined_step {t : PacketDispatcher} (h : t.stopper.joined = true → t.dispatcher = .exited)
    (e : DispatchEvent) :
    (t.step e).stopper.joined = true → (t.step e).dispatcher = .exited := by
  refine step_of_next (I := fun t => t.stopper.joined = true → t.dispatcher = .exited) h
    fun t' ht' hj => ?_
  have hexits := next_exits ht'
  rcases hexits.joined hj with hj | hd
  · exact hexits.exited.mpr (.inl (h hj))
  · exact hexits.exited.mpr (.inl hd)

theorem Held.start (h : Held config handler workers s) : Held config handler workers s.start := by
  unfold DispatcherLifetime.start
  by_cases hr : s.running = true
  · rwa [if_pos hr]
  · obtain ⟨hrunning, hhand⟩ := h.resting (Bool.eq_false_iff.mpr hr)
    rw [if_neg hr]
    exact ⟨h.flow.restart hrunning hhand, .restart _, h.setup.restart, nofun,
      fun _ => ⟨nofun, rfl⟩, nofun, nofun⟩

theorem Held.step (h : Held config handler workers s) (e : LifetimeEvent) :
    Held config handler workers (s.step e) := by
  rcases e with _ | e
  · exact h.start
  have hflow : Flow (s.threads.step e) := h.flow.step e
  have hending : Ending (s.threads.step e) := h.ending.step h.flow e
  have hsetup := h.setup.step e
  have hjoined := joined_step h.joined e
  rcases hr : s.running with _ | _
  · rw [step_resting hr]
    split_ifs with hstop hproducer
    · exact ⟨h.flow, h.ending, h.setup, h.joined, fun hr' => by simp [hr] at hr', h.resting,
        h.unstarted⟩
    · have haside := s.threads.step_aside hproducer
      refine ⟨hflow, hending, hsetup, hjoined, fun hr' => by simp [hr] at hr', fun hr' => ?_,
        fun hr' => ?_⟩
      · rw [haside.running, haside.hand]
        exact h.resting hr'
      · rw [haside.stopper, haside.popped]
        exact h.unstarted hr'
    · exact h
  · rw [step_running hr]
    split_ifs with hreturned
    · have hhand : (s.threads.step e).dispatcher.hand = [] := by
        rw [hjoined (by rw [hreturned]; rfl)]
        rfl
      exact ⟨hflow, hending, hsetup, hjoined, nofun,
        fun _ => ⟨running_of_exited (hending.returned hreturned), hhand⟩,
        fun _ => .inl hreturned⟩
    · exact ⟨hflow, hending, hsetup, hjoined, fun _ => ⟨hreturned, (h.active hr).2⟩,
        fun hr' => by simp [hr] at hr', fun hr' => by simp [hr] at hr'⟩

theorem held_new (config : PacketQueue.Config) (handler : Bool) (producers workers : ℕ) :
    Held config handler workers (new config handler producers workers) := by
  refine ⟨flow_start .., ending_start .., setup_start producers, nofun, nofun, fun _ => ⟨?_, rfl⟩,
    fun _ => .inr rfl⟩
  refine List.flatMap_eq_nil_iff.mpr fun w hw => ?_
  rw [List.eq_of_mem_replicate hw]
  rfl

end Lifetime

section Stranded

/-- No thread is left to pop a job: `stop` has returned, or the dispatch thread has ended. -/
def Unserved (s : DispatcherLifetime) : Prop :=
  s.stopped = true ∨ s.running = true ∧ s.threads.dispatcher = .exited

/-- The jobs for which `push` has returned `true`. -/
def taken (s : DispatcherLifetime) : List PushedJob :=
  jobsOf s.threads.record [.accepted, .late]

/-- A `push` into a queue that no thread serves and that takes the job, or a `stop` that leaves the
jobs that came before the first `start`. -/
def Strands (s : DispatcherLifetime) (e : LifetimeEvent) : Prop :=
  (∃ i job, e = .thread (.push i) ∧ s.threads.producers[i]? = some (.ready job) ∧ s.Unserved ∧
    ¬ s.threads.queue.TurnsAway) ∨
  e = .thread .stop ∧ s.running = false ∧ s.threads.queue.queue ≠ []

/-- In the run no job stays in a queue that no thread serves, `push` takes none when `stop` has
returned, and each it has taken by then has been handled once, unless it was evicted. -/
structure NoStrandedJob (s : DispatcherLifetime) (es : List LifetimeEvent) : Prop where
  served : ∀ es', es' <+: es → (after step s es').Unserved →
    (after step s es').threads.queue.queue = []
  refuses : ∀ x ∈ trail step s es, x.1.stopped = true → (x.1.step x.2).taken = x.1.taken
  dispatches : s.threads.handler = true → 0 < s.threads.workers.length →
    ∀ es', es' <+: es → (after step s es').stopped = true → ∀ job ∈ (after step s es').taken,
      job ∉ jobsOf (after step s es').threads.record [.evicted] →
        (jobsOf (after step s es').threads.record [.handled]).count job = 1

theorem turnsAway_of_unserved {e : DispatchEvent} (h : ¬ Strands s (.thread e))
    (hs : s.Unserved) {i : ℕ} {job : PushedJob} (he : e = .push i)
    (hi : s.threads.producers[i]? = some (.ready job)) : s.threads.queue.TurnsAway := by
  subst he
  by_contra hq
  exact h (.inl ⟨i, job, rfl, hi, hs, hq⟩)

/-- While the dispatcher runs: the thread that pops ends only when the queue is empty. -/
theorem served_running (hr : s.running = true) {e : DispatchEvent} (hx : ¬ Strands s (.thread e))
    (hserved : s.Unserved → s.threads.queue.queue = [])
    (hexited : (s.threads.step e).dispatcher = .exited) :
    (s.threads.step e).queue.queue = [] := by
  revert hexited
  by_cases hd : s.threads.dispatcher = .exited
  · have hunserved : s.Unserved := .inr ⟨hr, hd⟩
    obtain ⟨-, hsuffix⟩ := step_accepts_none s.threads e fun i job he hi =>
      turnsAway_of_unserved hx hunserved he hi
    rw [hserved hunserved] at hsuffix
    exact fun _ => List.suffix_nil.mp hsuffix
  · refine step_of_next (I := fun t => t.dispatcher = .exited → t.queue.queue = [])
      (fun h => absurd h hd) fun t ht hexited => ?_
    rcases (next_exits ht).exited.mp hexited with h | ⟨rfl, -, hp⟩
    · exact absurd h hd
    · obtain ⟨-, rfl⟩ := next_pop ht
      rw [hp]
      exact (PacketQueue.pop_stopped hp).1

theorem served_step (h : Held config handler workers s) {e : LifetimeEvent} (hx : ¬ Strands s e)
    (hserved : s.Unserved → s.threads.queue.queue = []) :
    (s.step e).Unserved → (s.step e).threads.queue.queue = [] := by
  rcases e with _ | e
  · show s.start.Unserved → s.start.threads.queue.queue = []
    unfold start
    split_ifs with hr
    · exact hserved
    · rintro (hs | ⟨-, hd⟩)
      · cases hs
      · cases hd
  rcases hr : s.running with _ | _
  · rw [step_resting hr]
    split_ifs with hstop hproducer
    · subst hstop
      intro _
      by_contra hne
      exact hx (.inr ⟨rfl, hr, hne⟩)
    · rintro (hs | ⟨hr', -⟩)
      · obtain ⟨-, hsuffix⟩ := step_accepts_none s.threads e fun i job he hi =>
          turnsAway_of_unserved hx (.inl hs) he hi
        rw [hserved (.inl hs)] at hsuffix
        exact List.suffix_nil.mp hsuffix
      · simp [hr] at hr'
    · exact hserved
  · have hjoined := joined_step h.joined e
    rw [step_running hr]
    split_ifs with hreturned
    · exact fun _ => served_running hr hx hserved (hjoined (by rw [hreturned]; rfl))
    · rintro (hs | ⟨-, hd⟩)
      · simp [(h.active hr).2] at hs
      · exact served_running hr hx hserved hd

theorem taken_step (h : Held config handler workers s) {e : LifetimeEvent} (hx : ¬ Strands s e)
    (hs : s.stopped = true) : (s.step e).taken = s.taken := by
  rcases e with _ | e
  · show s.start.taken = s.taken
    unfold start
    split_ifs <;> rfl
  rcases hr : s.running with _ | _
  · rw [step_resting hr]
    split_ifs with hstop hproducer
    · rfl
    · exact (step_accepts_none s.threads e fun i job he hi =>
        turnsAway_of_unserved hx (.inl hs) he hi).1
    · rfl
  · simp [(h.active hr).2] at hs

theorem handled_of_taken (h : Held config true workers s) (hw : 0 < workers)
    (hs : s.stopped = true) (hqueue : s.threads.queue.queue = []) {job : PushedJob}
    (hjob : job ∈ s.taken) (hkept : job ∉ jobsOf s.threads.record [.evicted]) :
    (jobsOf s.threads.record [.handled]).count job = 1 := by
  have hr : s.running = false := by
    rw [← Bool.not_eq_true]
    exact fun hr => by simp [(h.active hr).2] at hs
  have hpopped : job ∈ jobsOf s.threads.record [.popped] := by
    rw [taken, h.flow.queued, hqueue, List.append_nil] at hjob
    exact (PacketDispatcher.mem_jobsOf_cons.mp hjob).resolve_left hkept
  refine List.count_eq_one_of_mem h.flow.handled_nodup ?_
  rcases h.unstarted hr with hreturned | hnone
  · exact h.ending.handled_of_popped h.flow h.setup.handler (h.setup.workers ▸ hw) hreturned hpopped
  · simp [hnone] at hpopped

/-- What a step that strands a job leaves. -/
theorem strands_step (h : Held config handler workers s) {e : LifetimeEvent} (hx : Strands s e)
    (hserved : s.Unserved → s.threads.queue.queue = []) :
    (s.step e).Unserved ∧ (s.step e).threads.queue.queue ≠ [] := by
  rcases hx with ⟨i, job, rfl, hi, hs, hq⟩ | ⟨rfl, hr, hne⟩
  · have hpush := PacketQueue.push_of_empty (hserved hs) hq job
    have hnext : s.threads.step (.push i) =
        s.threads.afterPush i job (s.threads.queue.push job) := by
      unfold PacketDispatcher.step
      delta next
      simp [hi]
    obtain ⟨hd, hstopper, -⟩ := s.threads.afterPush_kept i job (s.threads.queue.push job)
    have hqueue : (s.threads.step (.push i)).queue.queue = [job] := by
      rw [hnext, hpush]
      rfl
    rcases hr : s.running with _ | _
    · rw [step_resting hr]
      refine ⟨.inl ?_, ?_⟩
      · rcases hs with hs | ⟨hr', -⟩
        · exact hs
        · simp [hr] at hr'
      · show (s.threads.step (.push i)).queue.queue ≠ []
        simp [hqueue]
    · rw [step_running hr, hnext, hstopper, if_neg (h.active hr).1]
      refine ⟨.inr ⟨hr, hd.trans ?_⟩, ?_⟩
      · rcases hs with hs | ⟨-, hd⟩
        · simp [(h.active hr).2] at hs
        · exact hd
      · rw [← hnext]
        simp [hqueue]
  · rw [step_resting hr]
    exact ⟨.inl rfl, hne⟩

/-- No job is stranded in just those runs that push none into a queue that no thread serves, unless
the queue turns it away, and stop no dispatcher before its first start with jobs in the queue. -/
theorem no_stranded_job_iff (config : PacketQueue.Config) (handler : Bool)
    (producers workers : ℕ) (es : List LifetimeEvent) :
    NoStrandedJob (new config handler producers workers) es ↔
      ∀ x ∈ trail step (new config handler producers workers) es, ¬ Strands x.1 x.2 := by
  have hheld : ∀ es', Held config handler workers
      (after step (new config handler producers workers) es') :=
    fun es' => stable (fun _ e h => h.step e) es' (held_new config handler producers workers)
  have hserved : (∀ es', es' <+: es →
      (after step (new config handler producers workers) es').Unserved →
      (after step (new config handler producers workers) es').threads.queue.queue = []) ↔
      ∀ x ∈ trail step (new config handler producers workers) es, ¬ Strands x.1 x.2 := by
    refine throughout_iff (I := fun s : DispatcherLifetime => s.Unserved →
      s.threads.queue.queue = []) (P := fun s e => ¬ Strands s e)
      (s := new config handler producers workers) (fun _ e h => h.step e)
      (fun s e hs hempty => ⟨?_, ?_⟩) es (hheld []) fun _ => rfl
    · intro hnext hstrands
      obtain ⟨hunserved, hne⟩ := strands_step hs hstrands hempty
      exact hne (hnext hunserved)
    · exact fun hx => served_step hs hx hempty
  refine ⟨fun h => hserved.mp h.served, fun h => ⟨hserved.mpr h, fun x hx hs => ?_,
    fun hhandler hw es' hes hs job hjob hkept => ?_⟩⟩
  · obtain ⟨before, hbefore⟩ := exists_after_of_mem_trail hx
    have hx' := h x hx
    rw [hbefore] at hs hx' ⊢
    exact taken_step (hheld before) hx' hs
  · obtain rfl : handler = true := hhandler
    have hw : 0 < workers := by simpa [new, PacketDispatcher.start] using hw
    exact handled_of_taken (hheld es') hw hs (hserved.mpr h es' hes (.inl hs)) hjob hkept

/-- Started and stopped, with a queue of the default configuration. -/
def stoppedOnce : List LifetimeEvent :=
  .start :: [.stop, .stopNotify, .pop, .join, .poolStop, .poolNotify, .take 0, .joinWorkers].map
    .thread

/-- `push` takes a job after `stop`, and the job stays. -/
theorem taken_after_stop : ¬ NoStrandedJob (new {} true 1 1)
    (stoppedOnce ++ [.thread (.call 0 {}), .thread (.push 0)]) := by
  intro h
  have hserved := h.served _ (List.prefix_refl _) (.inl (by decide))
  exact absurd hserved (by decide)

end Stranded

end DispatcherLifetime

end DungeonHub
