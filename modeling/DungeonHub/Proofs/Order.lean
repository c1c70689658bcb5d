import DungeonHub.Proofs.Dispatch

/-!
# The order of a connection's jobs

The workers take the jobs of a connection in order, but run the handler on them at the same time.
The order is kept where only one of them has a job of the connection at a time.
-/

namespace DungeonHub

namespace PacketDispatcher

open Run

variable {s s' : PacketDispatcher} {i k : ℕ} {job : PushedJob}

section Order

/-- The jobs of one connection. -/
def ofConnection (connection : UInt64) (jobs : List PushedJob) : List PushedJob :=
  jobs.filter fun job => job.job.connectionId = connection

/-- The workers have had the jobs of the connection in the order in which they took them. -/
def InTurn (connection : UInt64) (s : PacketDispatcher) : Prop :=
  ofConnection connection (jobsOf s.record [.taken]) =
    ofConnection connection (jobsOf s.record [.handled]) ++ ofConnection connection s.running

/-- At most one worker has a job of the connection. -/
def Alone (connection : UInt64) (s : PacketDispatcher) : Prop :=
  (ofConnection connection s.running).length ≤ 1

variable {c : UInt64}

theorem ofConnection_perm {l l' : List PushedJob} (h : l.Perm l') :
    (ofConnection c l).Perm (ofConnection c l') := h.filter _

theorem ofConnection_sublist {l l' : List PushedJob} (h : l.Sublist l') :
    (ofConnection c l).Sublist (ofConnection c l') := h.filter _

theorem eq_of_perm {l l' : List PushedJob} (h : l.Perm l') (hl : l.length ≤ 1) : l = l' := by
  rcases l with _ | ⟨job, _ | ⟨other, l⟩⟩
  · exact h.nil_eq
  · exact h.singleton_eq
  · simp at hl

theorem InTurn.still (h : InTurn c s) (hs : Still s s') : InTurn c s' := by
  unfold InTurn
  rw [hs.record, hs.running]
  exact h

theorem InTurn.woken (h : InTurn c s) (hk : s.workers[k]? = some .waiting) :
    InTurn c { s with workers := s.workers.set k .ready } := by
  have hrunning : (s.workers.set k .ready).flatMap WorkerPhase.hand = s.running :=
    running_set hk rfl
  unfold InTurn at h ⊢
  rwa [← hrunning] at h

theorem InTurn.noted (h : InTurn c s) {fate : Fate} (hfate : fate ≠ .taken ∧ fate ≠ .handled) :
    InTurn c (s.note fate job) := by
  unfold InTurn at h ⊢
  simpa [note, running, hfate.1, hfate.2] using h

theorem InTurn.push (h : InTurn c s) : InTurn c (s.afterPush i job (s.queue.push job)) := by
  rcases hp : s.queue.push job with _ | _ | queue | ⟨evicted, queue⟩
  · exact h
  · exact InTurn.noted h (by simp)
  · exact InTurn.noted h (by simp)
  · have hfate : (if s.queue.stopped then Fate.late else .accepted) ≠ .taken ∧
        (if s.queue.stopped then Fate.late else .accepted) ≠ .handled := by
      split_ifs <;> simp
    rcases evicted with _ | old
    · exact InTurn.noted h hfate
    · have hold : InTurn c (s.note .evicted old) := h.noted (by simp)
      exact InTurn.noted hold hfate

theorem InTurn.pop (h : InTurn c s) : InTurn c (s.afterPop s.queue.pop) := by
  rcases s.queue.pop with _ | _ | ⟨job, queue⟩
  · exact h
  · exact h
  · exact InTurn.noted h (by simp)

/-- A worker takes a job while no other has one of its connection. -/
theorem InTurn.take (h : InTurn c s) (hk : s.workers[k]? = some .ready)
    (halone : Alone c (s.afterTake k s.pool.take)) : InTurn c (s.afterTake k s.pool.take) := by
  revert halone
  rcases s.pool.take with _ | _ | ⟨job, pool⟩
  · intro _
    unfold InTurn
    rw [show (s.afterTake k .waits).running = s.running from running_set hk rfl]
    exact h
  · intro _
    unfold InTurn
    rw [show (s.afterTake k .stopped).running = s.running from running_set hk rfl]
    exact h
  · intro halone
    have hperm : (s.afterTake k (.taken job pool)).running.Perm (job :: s.running) :=
      Slots.flatMap_set_perm WorkerPhase.hand hk (.running job)
    have hrunning := eq_of_perm (ofConnection_perm hperm) halone
    have halone' : (ofConnection c (job :: s.running)).length ≤ 1 := hrunning ▸ halone
    unfold InTurn at h ⊢
    rw [hrunning]
    show ofConnection c (jobsOf (s.record ++ [(.taken, job)]) _) =
      ofConnection c (jobsOf (s.record ++ [(.taken, job)]) _) ++ _
    by_cases hc : job.job.connectionId = c
    · have hnone : ofConnection c s.running = [] := by
        unfold ofConnection at halone' ⊢
        simpa [hc] using halone'
      rw [hnone, List.append_nil] at h
      unfold ofConnection at h hnone ⊢
      simp [hc, h, hnone]
    · unfold ofConnection at h ⊢
      simp [hc, h]

/-- A worker runs the handler while no other has a job of its connection. -/
theorem InTurn.run (h : InTurn c s) (hk : s.workers[k]? = some (.running job))
    (halone : Alone c s) :
    InTurn c ({ s with workers := s.workers.set k .ready }.note .handled job) := by
  have hperm : s.running.Perm (job :: (s.workers.set k .ready).flatMap WorkerPhase.hand) :=
    (Slots.flatMap_set_perm WorkerPhase.hand hk .ready).symm
  have hrunning := eq_of_perm (ofConnection_perm hperm) halone
  unfold InTurn at h ⊢
  rw [hrunning] at h
  show ofConnection c (jobsOf (s.record ++ [(.handled, job)]) _) =
    ofConnection c (jobsOf (s.record ++ [(.handled, job)]) _) ++
      ofConnection c ((s.workers.set k .ready).flatMap WorkerPhase.hand)
  unfold ofConnection at h ⊢
  by_cases hc : job.job.connectionId = c
  · simpa [hc] using h
  · simpa [hc] using h

theorem InTurn.step (h : InTurn c s) (e : DispatchEvent) (halone : Alone c s)
    (halone' : Alone c (s.step e)) : InTurn c (s.step e) := by
  revert halone'
  refine step_of_next (I := fun s' => Alone c s' → InTurn c s') (fun _ => h) fun s' hs' => ?_
  intro halone'
  cases e with
  | call i job =>
    obtain ⟨-, rfl⟩ := next_call hs'
    exact h
  | push i =>
    obtain ⟨job, -, rfl⟩ := next_push hs'
    exact h.push
  | pushNotify i waiter =>
    obtain ⟨-, hw⟩ := next_pushNotify hs'
    exact InTurn.still (s := { s with producers := s.producers.set i .idle }) h
      (notifyOne_still hw)
  | pop =>
    obtain ⟨-, rfl⟩ := next_pop hs'
    exact h.pop
  | popNotify waiter =>
    obtain ⟨job, -, hw⟩ := next_popNotify hs'
    exact InTurn.still (s := { s with dispatcher := .holding job }) h (notifyOne_still hw)
  | submit =>
    obtain ⟨job, -, rfl⟩ := next_submit hs'
    split_ifs
    · exact InTurn.noted h (by simp)
    · exact h
  | submitNotify worker =>
    obtain ⟨-, ⟨k, hk, rfl⟩ | rfl⟩ := next_submitNotify hs'
    · exact h.woken hk
    · exact h
  | take k =>
    obtain ⟨hk, rfl⟩ := next_take hs'
    exact h.take hk halone'
  | run k =>
    obtain ⟨job, hk, rfl⟩ := next_run hs'
    exact h.run hk halone
  | stop =>
    obtain ⟨-, rfl⟩ := next_stop hs'
    exact h
  | stopNotify =>
    obtain ⟨-, rfl⟩ := next_stopNotify hs'
    have hwoken : InTurn c s.wakeAll := h.still s.wakeAll_still
    exact hwoken
  | join =>
    obtain ⟨-, -, rfl⟩ := next_join hs'
    exact h
  | poolStop =>
    obtain ⟨-, rfl⟩ := next_poolStop hs'
    exact h
  | poolNotify =>
    obtain ⟨-, rfl⟩ := next_poolNotify hs'
    have hwoken : InTurn c s.wakeAllWorkers := h.still s.wakeAllWorkers_still
    exact hwoken
  | joinWorkers =>
    obtain ⟨-, -, rfl⟩ := next_joinWorkers hs'
    exact h
  | spurious waiter => exact h.still (wake_still hs')
  | spuriousWorker k =>
    obtain ⟨hk, rfl⟩ := wakeWorker_cases hs'
    exact h.woken hk

theorem inTurn_start (config : PacketQueue.Config) (handler : Bool) (producers workers : ℕ) :
    InTurn c (start config handler producers workers) := by
  have htaken := (flow_start config handler producers workers).taken.nil_eq
  unfold InTurn
  rw [(List.append_eq_nil_iff.mp htaken.symm).2]
  rfl

theorem running_length (s : PacketDispatcher) : s.running.length ≤ s.workers.length := by
  unfold running
  rw [List.length_flatMap]
  refine (List.sum_le_card_nsmul _ 1 fun n hn => ?_).trans (by simp)
  obtain ⟨w, -, rfl⟩ := List.mem_map.mp hn
  cases w <;> simp [WorkerPhase.hand]

theorem Setup.alone {config : PacketQueue.Config} {handler : Bool} {workers : ℕ}
    (h : Setup config handler workers s) (hw : workers ≤ 1) : Alone c s :=
  (List.length_filter_le _ _).trans (s.running_length.trans (h.workers.trans_le hw))

/-- The handler runs in the order in which the jobs were taken, or has yet to. -/
theorem InTurn.handled_sublist (h : InTurn c s) (hf : Flow s) :
    (ofConnection c (jobsOf s.record [.handled])).Sublist
      (ofConnection c (jobsOf s.record [.accepted, .late])) := by
  refine List.Sublist.trans ?_ (ofConnection_sublist hf.taken_sublist)
  rw [h]
  exact List.sublist_append_left _ _

/-- Whatever the number of workers, they take the jobs of a connection in the order in which these
were accepted. The handler runs on them in that order as long as no two workers have one of them at
a time, and so with one worker at most. -/
theorem connection_in_order (config : PacketQueue.Config) (handler : Bool)
    (producers workers : ℕ) (es : List DispatchEvent) (connection : UInt64) :
    let first := start config handler producers workers
    let s := after step first es
    let accepted := jobsOf s.record [.accepted, .late]
    accepted.Nodup ∧
    (ofConnection connection (jobsOf s.record [.taken])).Sublist
      (ofConnection connection accepted) ∧
    ((∀ es', es' <+: es → Alone connection (after step first es')) →
      (ofConnection connection (jobsOf s.record [.handled])).Sublist
        (ofConnection connection accepted)) ∧
    (workers ≤ 1 → (ofConnection connection (jobsOf s.record [.handled])).Sublist
      (ofConnection connection accepted)) := by
  intro first s accepted
  have hflow : Flow s := flow_after config handler producers workers es
  have halone : (∀ es', es' <+: es → Alone connection (after step first es')) →
      (ofConnection connection (jobsOf s.record [.handled])).Sublist
        (ofConnection connection accepted) := by
    intro h
    have hturn : InTurn connection s :=
      throughout (fun _ e h => h.step e) es (inTurn_start config handler producers workers) h
    exact hturn.handled_sublist hflow
  refine ⟨hflow.accepted_nodup, ofConnection_sublist hflow.taken_sublist, halone, fun hw => ?_⟩
  refine halone fun es' _ => ?_
  have hsetup : Setup config handler workers (after step first es') :=
    stable (fun _ e h => h.step e) es' (setup_start producers)
  exact hsetup.alone hw

/-- Two jobs of one connection for one worker, which has run the handler on both. -/
def inTurnRun : List DispatchEvent :=
  [.call 0 { connectionId := 7 }, .push 0, .pushNotify 0 none, .pop, .submit, .submitNotify none,
    .call 0 { connectionId := 7 }, .push 0, .pushNotify 0 none, .take 0, .pop, .submit,
    .submitNotify none, .run 0, .take 0, .run 0]

theorem connection_in_order_single :
    let s := after step (start {} true 1 1) inTurnRun
    1 ≤ 1 ∧ (jobsOf s.record [.handled]).length = 2 ∧
      (ofConnection 7 (jobsOf s.record [.handled])).Sublist
        (ofConnection 7 (jobsOf s.record [.accepted, .late])) :=
  ⟨by decide, by decide, (connection_in_order {} true 1 1 inTurnRun 7).2.2.2 (by decide)⟩

/-- Two jobs of one connection, each taken by a worker of its own; the second worker is faster. -/
def overtaking : List DispatchEvent :=
  [.call 0 { connectionId := 7 }, .push 0, .pushNotify 0 none, .call 0 { connectionId := 7 },
    .push 0, .pushNotify 0 none, .pop, .submit, .submitNotify none, .pop, .submit,
    .submitNotify none, .take 0, .take 1, .run 1, .run 0]

/-- With two workers the handler may run on the later job first. -/
theorem connection_overtaken :
    ¬ ∀ (config : PacketQueue.Config) (handler : Bool) (producers workers : ℕ)
      (es : List DispatchEvent) (connection : UInt64),
      let s := after step (start config handler producers workers) es
      (ofConnection connection (jobsOf s.record [.handled])).Sublist
        (ofConnection connection (jobsOf s.record [.accepted, .late])) := by
  intro h
  have hsublist := h {} true 1 2 overtaking 7
  revert hsublist
  decide

end Order

end PacketDispatcher

end DungeonHub
