import DungeonHub.Proofs.Dispatch

/-!
# What `stop` leaves

The dispatcher thread ends once the queue is stopped and empty, and the workers once nothing more
can come from it. So what was accepted before the queue was stopped has been handled in the end,
unless it had to make room.
-/

namespace DungeonHub

namespace PacketDispatcher

open Run

variable {s s' : PacketDispatcher} {i k : ℕ} {job : PushedJob}

section Ending

/-- How the threads end. The dispatcher thread has left no accepted job in the queue, and does not
come back; the pool is stopped after that; a worker that ended has left no job in the pool; and
`stop` returns when all of them have ended. -/
structure Ending (s : PacketDispatcher) : Prop where
  drained : s.dispatcher = .exited → s.queue.stopped = true ∧
    jobsOf s.record [.accepted] ⊆ jobsOf s.record [.evicted, .popped]
  joined : s.stopper = .poolStop → s.dispatcher = .exited
  requested : s.pool.stopRequested = true → s.dispatcher = .exited
  left : .exited ∈ s.workers → s.pool.stopRequested = true ∧ s.pool.jobs = []
  returned : s.stopper = .returned → ∀ w ∈ s.workers, w = .exited

theorem Ending.noted (h : Ending s) {fate : Fate}
    (hfate : fate = .accepted → s.queue.stopped = false) : Ending (s.note fate job) := by
  refine ⟨fun hd => ?_, h.joined, h.requested, h.left, h.returned⟩
  obtain ⟨hstopped, hgone⟩ := h.drained hd
  refine ⟨hstopped, ?_⟩
  have haccepted : fate ≠ .accepted := by
    rintro rfl
    simp [hfate rfl] at hstopped
  show jobsOf (s.record ++ [(fate, job)]) _ ⊆ jobsOf (s.record ++ [(fate, job)]) _
  rw [jobsOf_append, if_neg (by simpa using haccepted), jobsOf_append]
  split_ifs
  · exact List.Subset.trans hgone (List.subset_append_left _ _)
  · exact hgone

theorem Ending.dispatches (h : Ending s) (hs : s.dispatcher ≠ .exited) {d : DispatchPhase}
    (hd : d ≠ .exited) : Ending { s with dispatcher := d } :=
  ⟨fun hd' => absurd hd' hd, fun hj => absurd (h.joined hj) hs,
    fun hr => absurd (h.requested hr) hs, h.left, h.returned⟩

theorem Ending.works (h : Ending s) {w w' : WorkerPhase} (hk : s.workers[k]? = some w)
    (hw : w ≠ .exited) (hw' : w' ≠ .exited) : Ending { s with workers := s.workers.set k w' } := by
  refine ⟨h.drained, h.joined, h.requested, fun hleft => ?_, fun hr => ?_⟩
  · rcases List.mem_or_eq_of_mem_set hleft with hleft | hleft
    · exact h.left hleft
    · exact absurd hleft.symm hw'
  · exact absurd (h.returned hr w (List.mem_of_getElem? hk)) hw

theorem Ending.woken (h : Ending s) {waiter : Waiter} (hw : s.wake waiter = some s') :
    Ending s' := by
  rcases wake_cases hw with ⟨i, job, -, rfl⟩ | ⟨hd, rfl⟩
  · exact ⟨h.drained, h.joined, h.requested, h.left, h.returned⟩
  · exact h.dispatches (by simp [hd]) (by simp)

theorem Ending.notified (h : Ending s) {waiter : Option Waiter}
    (hw : s.notifyOne waiter = some s') : Ending s' :=
  notifyOne_keeps h (fun _ _ => h.woken) hw

theorem Ending.queued (h : Ending s) {queue : PacketQueue}
    (hqueue : queue.stopped = s.queue.stopped) (producers : List ProducerPhase) :
    Ending { s with queue, producers } := by
  refine ⟨fun hd => ?_, h.joined, h.requested, h.left, h.returned⟩
  show queue.stopped = true ∧ _
  rw [hqueue]
  exact h.drained hd

theorem Ending.push (h : Ending s) : Ending (s.afterPush i job (s.queue.push job)) := by
  rcases hp : s.queue.push job with _ | _ | queue | ⟨evicted, queue⟩
  · exact h.queued (by rfl) _
  · exact (h.queued (by rfl) _).noted (by simp)
  · rw [PacketQueue.push_refused hp]
    have hcounted : Ending { s with
        queue := { s.queue with dropped := s.queue.dropped + 1 }
        producers := s.producers.set i .idle } := h.queued (by rfl) _
    exact hcounted.noted (by simp)
  · obtain ⟨rest, -, rfl, -⟩ := PacketQueue.push_taken hp
    have hfate : (if s.queue.stopped then Fate.late else .accepted) = .accepted →
        s.queue.stopped = false := by
      cases s.queue.stopped <;> simp
    rcases evicted with _ | old
    · exact Ending.noted (h.queued (by rfl) _) hfate
    · have hold : Ending (s.note .evicted old) := h.noted (by simp)
      exact Ending.noted (hold.queued (by rfl) _) hfate

theorem Ending.pop (h : Ending s) (hf : Flow s) (hd : s.dispatcher = .ready) :
    Ending (s.afterPop s.queue.pop) := by
  have hrunning : s.dispatcher ≠ .exited := by simp [hd]
  rcases hp : s.queue.pop with _ | _ | ⟨job, queue⟩
  · exact h.dispatches hrunning (by simp)
  · obtain ⟨hempty, hstopped⟩ := PacketQueue.pop_stopped hp
    refine ⟨fun _ => ⟨hstopped, ?_⟩, fun _ => rfl, fun _ => rfl, h.left, h.returned⟩
    have hqueued := hf.queued
    rw [hempty, List.append_nil] at hqueued
    show jobsOf s.record _ ⊆ jobsOf s.record _
    rw [← hqueued]
    exact (jobsOf_sublist s.record (by simp)).subset
  · obtain ⟨rest, -, rfl⟩ := PacketQueue.pop_taken hp
    have hpopped : Ending { s with
        queue := { s.queue with queue := rest }
        dispatcher := if s.queue.config.capacity > 0 then .notifying job else .holding job } := by
      have hd' : (if s.queue.config.capacity > 0 then DispatchPhase.notifying job
          else .holding job) ≠ .exited := by
        split_ifs <;> simp
      exact (h.dispatches hrunning hd').queued (by rfl) _
    exact hpopped.noted (by simp)

theorem Ending.take (h : Ending s) (hk : s.workers[k]? = some .ready) :
    Ending (s.afterTake k s.pool.take) := by
  unfold WorkerPool.take
  split
  · rename_i hjobs
    split_ifs with hrequested
    · refine ⟨h.drained, h.joined, h.requested, fun _ => ⟨hrequested, hjobs⟩, fun hr => ?_⟩
      exact absurd (h.returned hr _ (List.mem_of_getElem? hk)) (by simp)
    · exact h.works hk (by simp) (by simp)
  · rename_i job rest hjobs
    have hworks : Ending { s with workers := s.workers.set k (.running job) } :=
      h.works hk (by simp) (by simp)
    have htaken : Ending { s with
        pool := { s.pool with jobs := rest }
        workers := s.workers.set k (.running job) } := by
      refine ⟨h.drained, h.joined, h.requested, fun hleft => ?_, hworks.returned⟩
      obtain ⟨-, hnone⟩ := hworks.left hleft
      exact absurd (hjobs.symm.trans hnone) (by simp)
    exact htaken.noted (by simp)

theorem Ending.submit (h : Ending s) (hd : s.dispatcher = .holding job) :
    Ending ({ s with
      pool := { s.pool with jobs := s.pool.jobs ++ [job] }
      dispatcher := .submitted }.note .submitted job) := by
  have hrunning : s.dispatcher ≠ .exited := by simp [hd]
  have hnext := h.dispatches hrunning (d := .submitted) (by simp)
  refine Ending.noted ?_ (by simp)
  refine ⟨hnext.drained, hnext.joined, hnext.requested, fun hleft => ?_, hnext.returned⟩
  exact absurd (h.requested (h.left hleft).1) hrunning

theorem Ending.step (h : Ending s) (hf : Flow s) (e : DispatchEvent) : Ending (s.step e) := by
  refine step_of_next h fun s' hs' => ?_
  cases e with
  | call i job =>
    obtain ⟨-, rfl⟩ := next_call hs'
    exact ⟨h.drained, h.joined, h.requested, h.left, h.returned⟩
  | push i =>
    obtain ⟨job, -, rfl⟩ := next_push hs'
    exact h.push
  | pushNotify i waiter =>
    obtain ⟨-, hw⟩ := next_pushNotify hs'
    refine Ending.notified ?_ hw
    exact ⟨h.drained, h.joined, h.requested, h.left, h.returned⟩
  | pop =>
    obtain ⟨hd, rfl⟩ := next_pop hs'
    exact h.pop hf hd
  | popNotify waiter =>
    obtain ⟨job, hd, hw⟩ := next_popNotify hs'
    exact (h.dispatches (by simp [hd]) (by simp)).notified hw
  | submit =>
    obtain ⟨job, hd, rfl⟩ := next_submit hs'
    split_ifs
    · exact h.submit hd
    · exact h.dispatches (by simp [hd]) (by simp)
  | submitNotify worker =>
    obtain ⟨hd, ⟨k, hk, rfl⟩ | rfl⟩ := next_submitNotify hs'
    · exact (h.works hk (by simp) (by simp)).dispatches (by simp [hd]) (by simp)
    · exact h.dispatches (by simp [hd]) (by simp)
  | take k =>
    obtain ⟨hk, rfl⟩ := next_take hs'
    exact h.take hk
  | run k =>
    obtain ⟨job, hk, rfl⟩ := next_run hs'
    exact (h.works hk (by simp) (by simp)).noted (by simp)
  | stop =>
    obtain ⟨-, rfl⟩ := next_stop hs'
    exact ⟨fun hd => ⟨rfl, (h.drained hd).2⟩, nofun, h.requested, h.left, nofun⟩
  | stopNotify =>
    obtain ⟨-, rfl⟩ := next_stopNotify hs'
    have hd : s.wakeAll.dispatcher = .exited ↔ s.dispatcher = .exited := by
      unfold wakeAll
      cases s.dispatcher <;> simp
    exact ⟨fun hd' => h.drained (hd.mp hd'), nofun, fun hr => hd.mpr (h.requested hr), h.left,
      nofun⟩
  | join =>
    obtain ⟨-, hd, rfl⟩ := next_join hs'
    exact ⟨h.drained, fun _ => hd, h.requested, h.left, nofun⟩
  | poolStop =>
    obtain ⟨hs, rfl⟩ := next_poolStop hs'
    exact ⟨h.drained, nofun, fun _ => h.joined hs, fun hw => ⟨rfl, (h.left hw).2⟩, nofun⟩
  | poolNotify =>
    obtain ⟨-, rfl⟩ := next_poolNotify hs'
    refine ⟨h.drained, nofun, h.requested, fun hw => h.left ?_, nofun⟩
    obtain ⟨w, hmem, hw⟩ := List.mem_map.mp hw
    split_ifs at hw
    exact hw ▸ hmem
  | joinWorkers =>
    obtain ⟨-, hw, rfl⟩ := next_joinWorkers hs'
    exact ⟨h.drained, nofun, h.requested, h.left, fun _ => hw⟩
  | spurious waiter => exact h.woken hs'
  | spuriousWorker k =>
    obtain ⟨hk, rfl⟩ := wakeWorker_cases hs'
    exact h.works hk (by simp) (by simp)

theorem ending_start (config : PacketQueue.Config) (handler : Bool) (producers workers : ℕ) :
    Ending (start config handler producers workers) := by
  refine ⟨nofun, nofun, nofun, fun hleft => ?_, nofun⟩
  exact absurd (List.eq_of_mem_replicate hleft) (by simp)

theorem ending_after (config : PacketQueue.Config) (handler : Bool) (producers workers : ℕ)
    (es : List DispatchEvent) :
    Ending (after step (start config handler producers workers) es) := by
  have hboth : Flow (after step (start config handler producers workers) es) ∧
      Ending (after step (start config handler producers workers) es) :=
    stable (I := fun s => Flow s ∧ Ending s) (fun _ e h => ⟨h.1.step e, h.2.step h.1 e⟩) es
      ⟨flow_start .., ending_start ..⟩
  exact hboth.2

/-- When `stop` has returned, what was popped has been handled. -/
theorem Ending.handled_of_popped (h : Ending s) (hf : Flow s) (hs : s.handler = true)
    (hw : 0 < s.workers.length) (hr : s.stopper = .returned)
    (hjob : job ∈ jobsOf s.record [.popped]) : job ∈ jobsOf s.record [.handled] := by
  have hall := h.returned hr
  obtain ⟨w, hmem⟩ := List.exists_mem_of_length_pos hw
  obtain ⟨hrequested, hjobs⟩ := h.left (hall w hmem ▸ hmem)
  have hd := h.requested hrequested
  have hrunning : s.running = [] := by
    refine List.flatMap_eq_nil_iff.mpr fun w hw => ?_
    rw [hall w hw]
    rfl
  have htaken := hf.taken
  rw [hrunning, List.append_nil] at htaken
  rw [hf.popped hs, hd, hf.submitted, hjobs, List.append_nil] at hjob
  rcases List.mem_append.mp hjob with hjob | hjob
  · exact htaken.mem_iff.mp hjob
  · simp [DispatchPhase.hand] at hjob

theorem Ending.handled_of_accepted (h : Ending s) (hf : Flow s) (hs : s.handler = true)
    (hw : 0 < s.workers.length) (hr : s.stopper = .returned)
    (hjob : job ∈ jobsOf s.record [.accepted]) (hkept : job ∉ jobsOf s.record [.evicted]) :
    job ∈ jobsOf s.record [.handled] := by
  have hall := h.returned hr
  obtain ⟨w, hmem⟩ := List.exists_mem_of_length_pos hw
  have hd := h.requested (h.left (hall w hmem ▸ hmem)).1
  refine h.handled_of_popped hf hs hw hr ?_
  exact (mem_jobsOf_cons.mp ((h.drained hd).2 hjob)).resolve_left hkept

/-- The queue stays within its bound, no job is handled twice, the pool gets the jobs in the order
in which they were accepted, the count of the dropped jobs is right, and when `stop` has returned,
every job that was accepted before it and not evicted has been handled once. -/
theorem dispatched_once (config : PacketQueue.Config) (producers : ℕ) {workers : ℕ}
    (hw : 0 < workers) (es : List DispatchEvent) :
    let s := after step (start config true producers workers) es
    (config.capacity ≠ 0 → s.queue.queue.length ≤ config.capacity) ∧
    (jobsOf s.record [.handled]).Nodup ∧
    ((jobsOf s.record [.accepted, .late]).Nodup ∧
      (jobsOf s.record [.submitted]).Sublist (jobsOf s.record [.accepted, .late])) ∧
    s.queue.dropped = (jobsOf s.record [.refused]).length + (jobsOf s.record [.evicted]).length ∧
    (s.stopper = .returned → ∀ job ∈ jobsOf s.record [.accepted],
      job ∉ jobsOf s.record [.evicted] → (jobsOf s.record [.handled]).count job = 1) := by
  intro s
  have hflow : Flow s := flow_after config true producers workers es
  have hending : Ending s := ending_after config true producers workers es
  have hsetup : Setup config true workers s :=
    stable (fun _ e h => h.step e) es (setup_start producers)
  refine ⟨fun hc => ?_, hflow.handled_nodup, ⟨hflow.accepted_nodup, hflow.submitted_sublist⟩,
    hflow.dropped, fun hr job hjob hkept => ?_⟩
  · have hbounded := hflow.bounded
    rw [hsetup.config] at hbounded
    exact hbounded hc
  · refine List.count_eq_one_of_mem hflow.handled_nodup ?_
    exact hending.handled_of_accepted hflow hsetup.handler (hsetup.workers ▸ hw) hr hjob hkept

/-- Two jobs for a queue with one place; the second takes the place of the first, is handled, and
the dispatcher is stopped. -/
def served : List DispatchEvent :=
  [.call 0 {}, .push 0, .pushNotify 0 none, .call 0 {}, .push 0, .pushNotify 0 none, .pop,
    .popNotify none, .submit, .submitNotify none, .take 0, .run 0, .stop, .stopNotify, .pop, .join,
    .poolStop, .poolNotify, .take 0, .joinWorkers]

theorem dispatched_once_served :
    let s := after step (start ⟨1, .dropOldest⟩ true 1 1) served
    0 < 1 ∧ s.stopper = .returned ∧ (jobsOf s.record [.accepted]).length = 2 ∧
      s.queue.dropped = 1 ∧ (jobsOf s.record [.handled]).count ⟨1, {}⟩ = 1 :=
  ⟨by decide, by decide, by decide, by decide,
    (dispatched_once ⟨1, .dropOldest⟩ 1 (by decide) served).2.2.2.2 (by decide) _ (by decide)
      (by decide)⟩

end Ending

end PacketDispatcher

end DungeonHub
