import DungeonHub.Proofs.WorkerPool

/-!
# Lost wake-ups

Producers that find the queue full and the dispatcher thread that finds it empty wait for the same
condition variable, and each push and each pop wakes one thread, whichever it is. With no more
producers than the queue has room for, no producer waits while the dispatcher thread does: the queue
would hold a job of every producer, and each of them would still have to wake it. With one more, a
producer that waits may be woken in the place of the dispatcher thread, again and again.
-/

namespace DungeonHub

def ProducerPhase.isNotifying : ProducerPhase → Bool
  | .notifying => true
  | _ => false

/-- How many notifications of `pop` are still to come. -/
def DispatchPhase.owes : DispatchPhase → ℕ
  | .notifying _ => 1
  | _ => 0

namespace PacketDispatcher

open Run

section Awake

/-- The producers that wait, and those before their `notify_one`. -/
def waiters (s : PacketDispatcher) : ℕ := s.producers.countP ProducerPhase.isWaiting

def notifiers (s : PacketDispatcher) : ℕ := s.producers.countP ProducerPhase.isNotifying

/-- With no more than `capacity` producers: each that waits does so for a job in the queue or a
notification of `pop`; and while the dispatcher thread waits, none of them does, and each job in the
queue comes with a notification. -/
structure Awake (capacity producers : ℕ) (s : PacketDispatcher) : Prop where
  config : s.queue.config = ⟨capacity, .block⟩
  running : s.queue.stopped = false
  unstopped : s.stopper = .idle
  size : s.producers.length = producers
  covered : s.waiters ≤ s.queue.queue.length + s.dispatcher.owes
  awake : s.dispatcher = .waiting → s.waiters = 0 ∧ s.queue.queue.length ≤ s.notifiers

variable {c n : ℕ} {s s' : PacketDispatcher} {i : ℕ}

theorem waiters_set {p : ProducerPhase} (h : s.producers[i]? = some p) (p' : ProducerPhase) :
    (s.producers.set i p').countP ProducerPhase.isWaiting + p.isWaiting.toNat =
      s.waiters + p'.isWaiting.toNat := Slots.countP_set _ h p'

theorem notifiers_set {p : ProducerPhase} (h : s.producers[i]? = some p) (p' : ProducerPhase) :
    (s.producers.set i p').countP ProducerPhase.isNotifying + p.isNotifying.toNat =
      s.notifiers + p'.isNotifying.toNat := Slots.countP_set _ h p'

theorem push_of_block (hconfig : s.queue.config = ⟨c, .block⟩) (hrunning : s.queue.stopped = false)
    (hc : 1 ≤ c) (job : PushedJob) :
    s.queue.push job = if c ≤ s.queue.queue.length then .waits else
      .taken none { s.queue with queue := s.queue.queue ++ [job] } := by
  have hcapacity : s.queue.config.capacity = c := congrArg PacketQueue.Config.capacity hconfig
  have hpolicy : s.queue.config.overflowPolicy = .block :=
    congrArg PacketQueue.Config.overflowPolicy hconfig
  have hfull : s.queue.isFullLocked = decide (c ≤ s.queue.queue.length) := by
    unfold PacketQueue.isFullLocked
    rw [hcapacity, if_neg (Nat.one_le_iff_ne_zero.mp hc)]
  have hpos : c > 0 := hc
  unfold PacketQueue.push
  rw [hcapacity, if_pos hpos, hpolicy]
  simp [hfull, hrunning]

/-- A step of the dispatcher thread that leaves it awake. -/
theorem Awake.dispatches (h : Awake c n s) {d : DispatchPhase} (hd : d ≠ .waiting)
    (howes : s.dispatcher.owes ≤ d.owes) : Awake c n { s with dispatcher := d } := by
  refine ⟨h.config, h.running, h.unstopped, h.size, ?_, fun hw => absurd hw hd⟩
  have hcovered := h.covered
  show s.waiters ≤ s.queue.queue.length + d.owes
  omega

/-- A producer that does not wait and has nothing to notify goes to another such phase, or has been
woken. -/
theorem Awake.produces (h : Awake c n s) {p p' : ProducerPhase} (hi : s.producers[i]? = some p)
    (hp : p.isNotifying = false) (hp' : p'.isWaiting = false) :
    Awake c n { s with producers := s.producers.set i p' } := by
  have hwaiters := waiters_set hi p'
  have hnotifiers := notifiers_set hi p'
  rw [hp', Bool.toNat_false] at hwaiters
  rw [hp, Bool.toNat_false] at hnotifiers
  refine ⟨h.config, h.running, h.unstopped, (List.length_set ..).trans h.size, ?_, fun hw => ?_⟩
  · have hcovered := h.covered
    show (s.producers.set i p').countP ProducerPhase.isWaiting ≤
      s.queue.queue.length + s.dispatcher.owes
    omega
  · obtain ⟨h0, hle⟩ := h.awake hw
    refine ⟨?_, ?_⟩
    · show (s.producers.set i p').countP ProducerPhase.isWaiting = 0
      omega
    · show s.queue.queue.length ≤ (s.producers.set i p').countP ProducerPhase.isNotifying
      omega

theorem Awake.woken (h : Awake c n s) {waiter : Waiter} (hw : s.wake waiter = some s') :
    Awake c n s' := by
  rcases wake_cases hw with ⟨i, job, hi, rfl⟩ | ⟨hd, rfl⟩
  · exact h.produces hi rfl rfl
  · refine h.dispatches (by simp) ?_
    rw [hd]
    exact Nat.le_refl 0

theorem Awake.push (h : Awake c n s) (hn : n ≤ c) (hc : 1 ≤ c) {job : PushedJob}
    (hi : s.producers[i]? = some (.ready job)) :
    Awake c n (s.afterPush i job (s.queue.push job)) := by
  rw [push_of_block h.config h.running hc]
  by_cases hf : c ≤ s.queue.queue.length
  · have hwaiters := waiters_set hi (.waiting job)
    have hnotifiers := notifiers_set hi (.waiting job)
    simp only [ProducerPhase.isWaiting, ProducerPhase.isNotifying, Bool.toNat_false,
      Bool.toNat_true] at hwaiters hnotifiers
    have hlength : (s.producers.set i (.waiting job)).length = n :=
      (List.length_set ..).trans h.size
    have hboth := Slots.countP_add_le (p := ProducerPhase.isWaiting)
      (q := ProducerPhase.isNotifying) (fun p => by cases p <;> simp [ProducerPhase.isWaiting,
        ProducerPhase.isNotifying]) (s.producers.set i (.waiting job))
    rw [if_pos hf]
    refine ⟨h.config, h.running, h.unstopped, hlength, ?_, fun hw => ?_⟩
    · show (s.producers.set i (.waiting job)).countP ProducerPhase.isWaiting ≤
        s.queue.queue.length + _
      omega
    · -- as many producers as jobs would have to be before their notification, and this one is not
      obtain ⟨-, hle⟩ := h.awake hw
      omega
  · have hwaiters := waiters_set hi .notifying
    have hnotifiers := notifiers_set hi .notifying
    simp only [ProducerPhase.isWaiting, ProducerPhase.isNotifying, Bool.toNat_false,
      Bool.toNat_true] at hwaiters hnotifiers
    rw [if_neg hf]
    refine ⟨h.config, h.running, h.unstopped, (List.length_set ..).trans h.size, ?_,
      fun hw => ?_⟩
    · have hcovered := h.covered
      show (s.producers.set i .notifying).countP ProducerPhase.isWaiting ≤
        (s.queue.queue ++ [job]).length + s.dispatcher.owes
      rw [List.length_append]
      omega
    · obtain ⟨h0, hle⟩ := h.awake hw
      refine ⟨?_, ?_⟩
      · show (s.producers.set i .notifying).countP ProducerPhase.isWaiting = 0
        omega
      · show (s.queue.queue ++ [job]).length ≤
          (s.producers.set i .notifying).countP ProducerPhase.isNotifying
        rw [List.length_append, List.length_singleton]
        omega

/-- A notification of a producer wakes the dispatcher thread if that waits, since no producer does
then. -/
theorem Awake.pushNotify (h : Awake c n s) (hi : s.producers[i]? = some .notifying)
    {waiter : Option Waiter}
    (hw : { s with producers := s.producers.set i .idle }.notifyOne waiter = some s') :
    Awake c n s' := by
  have hwaiters := waiters_set hi .idle
  simp only [ProducerPhase.isWaiting, Bool.toNat_false] at hwaiters
  have hlength : (s.producers.set i .idle).length = n := (List.length_set ..).trans h.size
  have hcovered := h.covered
  have hquiet : ∀ d : DispatchPhase, d ≠ .waiting → s.dispatcher.owes ≤ d.owes →
      Awake c n { s with producers := s.producers.set i .idle, dispatcher := d } := by
    intro d hd howes
    refine ⟨h.config, h.running, h.unstopped, hlength, ?_, fun hwait => absurd hwait hd⟩
    show (s.producers.set i .idle).countP ProducerPhase.isWaiting ≤
      s.queue.queue.length + d.owes
    omega
  rcases notifyOne_cases hw with ⟨k, job, hk, rfl⟩ | ⟨hd, rfl⟩ | ⟨hd, -, rfl⟩
  · have hpos := Slots.countP_pos ProducerPhase.isWaiting hk rfl
    have hd : s.dispatcher ≠ .waiting := by
      intro hwait
      have h0 := (h.awake hwait).1
      change 0 < (s.producers.set i .idle).countP ProducerPhase.isWaiting at hpos
      omega
    exact (hquiet s.dispatcher hd (Nat.le_refl _)).produces hk rfl rfl
  · refine hquiet .ready (by simp) ?_
    rw [show s.dispatcher = .waiting from hd]
    exact Nat.le_refl 0
  · exact hquiet s.dispatcher hd (Nat.le_refl _)

theorem Awake.pop (h : Awake c n s) (hc : 1 ≤ c) (hd : s.dispatcher = .ready) :
    Awake c n (s.afterPop s.queue.pop) := by
  have hcovered := h.covered
  rw [hd] at hcovered
  rcases hp : s.queue.pop with _ | _ | ⟨job, queue⟩
  · have hempty := PacketQueue.pop_waits hp
    rw [hempty] at hcovered
    have h0 : s.waiters = 0 := Nat.le_zero.mp hcovered
    refine ⟨h.config, h.running, h.unstopped, h.size, ?_, fun _ => ⟨h0, ?_⟩⟩
    · show s.waiters ≤ _
      omega
    · show s.queue.queue.length ≤ _
      rw [hempty]
      exact Nat.zero_le _
  · have hstopped := (PacketQueue.pop_stopped hp).2
    rw [h.running] at hstopped
    cases hstopped
  · obtain ⟨rest, hqueue, rfl⟩ := PacketQueue.pop_taken hp
    have hphase : (s.afterPop (.taken job { s.queue with queue := rest })).dispatcher =
        .notifying job := by
      show (if s.queue.config.capacity > 0 then _ else _) = _
      rw [h.config]
      exact if_pos hc
    rw [hqueue, List.length_cons] at hcovered
    refine ⟨h.config, h.running, h.unstopped, h.size, ?_, fun hw => ?_⟩
    · rw [hphase]
      exact hcovered
    · rw [hphase] at hw
      cases hw

/-- The notification of a pop wakes a producer if one waits. -/
theorem Awake.popNotify (h : Awake c n s) {job : PushedJob} (hd : s.dispatcher = .notifying job)
    {waiter : Option Waiter}
    (hw : { s with dispatcher := .holding job }.notifyOne waiter = some s') : Awake c n s' := by
  have hcovered := h.covered
  rw [hd] at hcovered
  rcases notifyOne_cases hw with ⟨k, waiting, hk, rfl⟩ | ⟨hwait, -⟩ | ⟨-, hnone, rfl⟩
  · have hwaiters := waiters_set (show s.producers[k]? = _ from hk) (.ready waiting)
    simp only [ProducerPhase.isWaiting, Bool.toNat_false, Bool.toNat_true] at hwaiters
    refine ⟨h.config, h.running, h.unstopped, (List.length_set ..).trans h.size, ?_, nofun⟩
    show (s.producers.set k (.ready waiting)).countP ProducerPhase.isWaiting ≤
      s.queue.queue.length
    change s.waiters ≤ s.queue.queue.length + 1 at hcovered
    omega
  · cases hwait
  · refine ⟨h.config, h.running, h.unstopped, h.size, ?_, nofun⟩
    have h0 : s.waiters = 0 := List.countP_eq_zero.mpr fun p hp => by simp [hnone p hp]
    show s.waiters ≤ _
    omega

/-- A step of the workers. -/
theorem Awake.workers (h : Awake c n s) (workers : List WorkerPhase) (pool : WorkerPool)
    (record : List (Fate × PushedJob)) : Awake c n { s with workers, pool, record } :=
  ⟨h.config, h.running, h.unstopped, h.size, h.covered, h.awake⟩

theorem Awake.step (h : Awake c n s) (hn : n ≤ c) (hc : 1 ≤ c) {e : DispatchEvent}
    (he : e ≠ .stop) : Awake c n (s.step e) := by
  refine step_of_next h fun s' hs' => ?_
  cases e with
  | call i job =>
    obtain ⟨hi, rfl⟩ := next_call hs'
    have hcalled := h.produces hi rfl (show (ProducerPhase.ready ⟨s.calls, job⟩).isWaiting = false
      from rfl)
    exact ⟨hcalled.config, hcalled.running, hcalled.unstopped, hcalled.size, hcalled.covered,
      hcalled.awake⟩
  | push i =>
    obtain ⟨job, hi, rfl⟩ := next_push hs'
    exact h.push hn hc hi
  | pushNotify i waiter =>
    obtain ⟨hi, hw⟩ := next_pushNotify hs'
    exact h.pushNotify hi hw
  | pop =>
    obtain ⟨hd, rfl⟩ := next_pop hs'
    exact h.pop hc hd
  | popNotify waiter =>
    obtain ⟨job, hd, hw⟩ := next_popNotify hs'
    exact h.popNotify hd hw
  | submit =>
    obtain ⟨job, hd, rfl⟩ := next_submit hs'
    have howes : s.dispatcher.owes = 0 := by rw [hd]; rfl
    have hsubmitted : Awake c n { s with dispatcher := .submitted } :=
      h.dispatches (by simp) howes.le
    split_ifs
    · exact hsubmitted.workers _ _ _
    · exact h.dispatches (by simp) howes.le
  | submitNotify worker =>
    obtain ⟨hd, hw⟩ := next_submitNotify hs'
    have howes : s.dispatcher.owes = 0 := by rw [hd]; rfl
    have hready : Awake c n { s with dispatcher := .ready } := h.dispatches (by simp) howes.le
    rcases hw with ⟨k, -, rfl⟩ | rfl
    · exact hready.workers _ _ _
    · exact hready
  | take k =>
    obtain ⟨-, rfl⟩ := next_take hs'
    rcases s.pool.take with _ | _ | ⟨job, pool⟩
    · exact h.workers _ _ _
    · exact h.workers _ _ _
    · exact h.workers _ _ _
  | run k =>
    obtain ⟨job, -, rfl⟩ := next_run hs'
    exact h.workers _ _ _
  | stop => exact absurd rfl he
  | stopNotify => exact absurd (next_stopNotify hs').1 (by simp [h.unstopped])
  | join => exact absurd (next_join hs').1 (by simp [h.unstopped])
  | poolStop => exact absurd (next_poolStop hs').1 (by simp [h.unstopped])
  | poolNotify => exact absurd (next_poolNotify hs').1 (by simp [h.unstopped])
  | joinWorkers => exact absurd (next_joinWorkers hs').1 (by simp [h.unstopped])
  | spurious waiter => exact h.woken hs'
  | spuriousWorker k =>
    obtain ⟨-, rfl⟩ := wakeWorker_cases hs'
    exact h.workers _ _ _

/-- Each job in the queue comes with a producer that will wake the dispatcher thread. -/
theorem Awake.not_stuck (h : Awake c n s) : ¬ Stuck s := by
  rintro ⟨hd, hjobs, hidle⟩
  have hle := (h.awake hd).2
  have h0 : s.notifiers = 0 := by
    refine List.countP_eq_zero.mpr fun p hp => ?_
    rcases hidle p hp with rfl | hw
    · simp [ProducerPhase.isNotifying]
    · cases p <;> simp_all [ProducerPhase.isWaiting, ProducerPhase.isNotifying]
  exact hjobs (List.length_eq_zero_iff.mp (by omega))

theorem awake_start (handler : Bool) (workers : ℕ) :
    Awake c n (start ⟨c, .block⟩ handler n workers) := by
  have h0 : (start ⟨c, .block⟩ handler n workers).waiters = 0 := by
    refine List.countP_eq_zero.mpr fun p hp => ?_
    rw [List.eq_of_mem_replicate hp]
    simp [ProducerPhase.isWaiting]
  refine ⟨rfl, rfl, rfl, List.length_replicate, ?_, nofun⟩
  rw [h0]
  exact Nat.zero_le _

end Awake

section Sleeping

/-- The dispatcher thread waits, the queue holds so many jobs, and the producers are in these
phases. -/
structure Sleeping (capacity producers size : ℕ) (phases : ℕ → ProducerPhase)
    (s : PacketDispatcher) : Prop where
  config : s.queue.config = ⟨capacity, .block⟩
  running : s.queue.stopped = false
  asleep : s.dispatcher = .waiting
  size : s.queue.queue.length = size
  length : s.producers.length = producers
  phases : ∀ i < producers, s.producers[i]? = some (phases i)

variable {c n k i j : ℕ} {phases : ℕ → ProducerPhase} {s : PacketDispatcher} {job : PushedJob}

theorem Sleeping.congr (h : Sleeping c n k phases s) {phases' : ℕ → ProducerPhase}
    (hphases : ∀ i < n, phases i = phases' i) : Sleeping c n k phases' s :=
  ⟨h.config, h.running, h.asleep, h.size, h.length, fun i hi => hphases i hi ▸ h.phases i hi⟩

theorem Sleeping.set (h : Sleeping c n k phases s) (hi : i < n) (p : ProducerPhase) :
    ∀ a < n, (s.producers.set i p)[a]? = some (Function.update phases i p a) := by
  intro a ha
  have hlength : i < s.producers.length := h.length ▸ hi
  rw [List.getElem?_set]
  by_cases hia : i = a
  · subst hia
    rw [if_pos rfl, if_pos hlength, Function.update_self]
  · rw [if_neg hia, Function.update_of_ne (Ne.symm hia)]
    exact h.phases a ha

theorem Sleeping.call (h : Sleeping c n k phases s) (hi : i < n) (hidle : phases i = .idle)
    (packet : PacketJob) :
    ∃ job, Sleeping c n k (Function.update phases i (.ready job)) (s.step (.call i packet)) := by
  have hstep : s.step (.call i packet) =
      { s with
        producers := s.producers.set i (.ready ⟨s.calls, packet⟩)
        calls := s.calls + 1 } := by
    unfold step
    simp only [next, h.phases i hi, hidle]
    rfl
  rw [hstep]
  exact ⟨_, h.config, h.running, h.asleep, h.size, (List.length_set ..).trans h.length,
    h.set hi _⟩

theorem Sleeping.push (h : Sleeping c n k phases s) (hc : 1 ≤ c) (hi : i < n)
    (hready : phases i = .ready job) :
    Sleeping c n (if c ≤ k then k else k + 1)
      (Function.update phases i (if c ≤ k then .waiting job else .notifying))
      (s.step (.push i)) := by
  have hpush := push_of_block h.config h.running hc job
  have hstep : s.step (.push i) = s.afterPush i job (s.queue.push job) := by
    unfold step
    simp only [next, h.phases i hi, hready]
    rfl
  rw [h.size] at hpush
  rw [hstep, hpush]
  split_ifs
  · exact ⟨h.config, h.running, h.asleep, h.size, (List.length_set ..).trans h.length,
      h.set hi _⟩
  · refine ⟨h.config, h.running, h.asleep, ?_, (List.length_set ..).trans h.length, h.set hi _⟩
    show (s.queue.queue ++ [job]).length = k + 1
    rw [List.length_append, h.size, List.length_singleton]

/-- A producer wakes another one, and the dispatcher thread sleeps on. -/
theorem Sleeping.wakes (h : Sleeping c n k phases s) (hi : i < n) (hj : j < n) (hne : i ≠ j)
    (hnotifying : phases i = .notifying) (hwaiting : phases j = .waiting job) :
    Sleeping c n k (Function.update (Function.update phases i .idle) j (.ready job))
      (s.step (.pushNotify i (some (.producer j)))) := by
  have hidle : Sleeping c n k (Function.update phases i .idle)
      { s with producers := s.producers.set i .idle } :=
    ⟨h.config, h.running, h.asleep, h.size, (List.length_set ..).trans h.length, h.set hi _⟩
  have hstep : s.step (.pushNotify i (some (.producer j))) =
      { s with producers := (s.producers.set i .idle).set j (.ready job) } := by
    have hget := hidle.phases j hj
    rw [Function.update_of_ne (Ne.symm hne), hwaiting] at hget
    unfold step
    simp only [next, h.phases i hi, hnotifying, notifyOne, wake, hget]
    rfl
  rw [hstep]
  exact ⟨h.config, h.running, h.asleep, h.size,
    ((List.length_set ..).trans (List.length_set ..)).trans h.length, hidle.set hj _⟩

variable (hc : 1 ≤ c) (hn : c < n) (handler : Bool) (workers : ℕ)

include hc hn in
/-- The queue is filled while the dispatcher thread sleeps, and no one has notified yet. -/
theorem fills (k : ℕ) (hk : k ≤ c) : ∃ es, .stop ∉ es ∧
    Sleeping c n k (fun i => if i < k then .notifying else .idle)
      (after step (start ⟨c, .block⟩ handler n workers) es) := by
  induction k with
  | zero =>
    refine ⟨[.pop], by simp, rfl, rfl, rfl, rfl, List.length_replicate, fun i hi => ?_⟩
    show (List.replicate n ProducerPhase.idle)[i]? = _
    rw [List.getElem?_replicate_of_lt hi, if_neg (Nat.not_lt_zero i)]
  | succ k ih =>
    obtain ⟨es, hes, hs⟩ := ih (by omega)
    obtain ⟨job, hcalled⟩ := hs.call (i := k) (by omega) (if_neg (lt_irrefl k)) {}
    have hpushed := hcalled.push (i := k) hc (by omega) (Function.update_self ..)
    rw [if_neg (by omega), if_neg (by omega)] at hpushed
    refine ⟨es ++ [.call k {}, .push k], by simp [hes], ?_⟩
    rw [after_append]
    refine hpushed.congr fun i hi => ?_
    by_cases hik : i = k
    · subst hik
      rw [Function.update_self, if_pos (Nat.lt_succ_self i)]
    · rw [Function.update_of_ne hik, Function.update_of_ne hik]
      have hiff : i < k + 1 ↔ i < k := by omega
      simp only [hiff]

include hc hn in
/-- One producer more waits, and takes the notifications of the others. -/
theorem robs (k : ℕ) (hk : k ≤ c) : ∃ es job, .stop ∉ es ∧
    Sleeping c n c (fun i => if i < k then .idle else if i < c then .notifying
        else if i = c then .waiting job else .idle)
      (after step (start ⟨c, .block⟩ handler n workers) es) := by
  induction k with
  | zero =>
    obtain ⟨es, hes, hs⟩ := fills hc hn handler workers c (Nat.le_refl c)
    obtain ⟨job, hcalled⟩ := hs.call (i := c) hn (if_neg (lt_irrefl c)) {}
    have hpushed := hcalled.push (i := c) hc hn (Function.update_self ..)
    rw [if_pos (Nat.le_refl c), if_pos (Nat.le_refl c)] at hpushed
    refine ⟨es ++ [.call c {}, .push c], job, by simp [hes], ?_⟩
    rw [after_append]
    refine hpushed.congr fun i hi => ?_
    by_cases hic : i = c
    · subst hic
      simp
    · rw [Function.update_of_ne hic, Function.update_of_ne hic]
      simp [hic]
  | succ k ih =>
    obtain ⟨es, job, hes, hs⟩ := ih (by omega)
    have hwaiting : (if c < k then .idle else if c < c then .notifying
        else if c = c then .waiting job else ProducerPhase.idle) = .waiting job := by
      simp [show ¬ c < k by omega]
    have hwoken := hs.wakes (i := k) (j := c) (by omega) hn (by omega)
      (by simp [show k < c by omega]) hwaiting
    have hpushed := hwoken.push (i := c) hc hn (Function.update_self ..)
    rw [if_pos (Nat.le_refl c), if_pos (Nat.le_refl c)] at hpushed
    refine ⟨es ++ [.pushNotify k (some (.producer c)), .push c], job, by simp [hes], ?_⟩
    rw [after_append]
    refine hpushed.congr fun i hi => ?_
    by_cases hic : i = c
    · subst hic
      simp [show ¬ i < k + 1 by omega]
    · rw [Function.update_of_ne hic, Function.update_of_ne hic]
      by_cases hik : i = k
      · subst hik
        simp
      · rw [Function.update_of_ne hik]
        have hiff : i < k + 1 ↔ i < k := by omega
        simp only [hiff]

end Sleeping

section Runs

/-- With the policy to block, the queue never gets stuck before it is stopped exactly if there are
no more producers than it has room for. -/
theorem never_stuck_iff (capacity producers workers : ℕ) (handler : Bool) (hc : 1 ≤ capacity) :
    (∀ es : List DispatchEvent, .stop ∉ es →
      ¬ Stuck (after step (start ⟨capacity, .block⟩ handler producers workers) es)) ↔
    producers ≤ capacity := by
  constructor
  · intro h
    by_contra hn
    obtain ⟨es, job, hes, hs⟩ := robs hc (Nat.lt_of_not_le hn) handler workers capacity
      (Nat.le_refl capacity)
    refine h es hes ⟨hs.asleep, fun hempty => ?_, fun p hp => ?_⟩
    · have hsize := hs.size
      rw [hempty, List.length_nil] at hsize
      omega
    · obtain ⟨i, hi, hget⟩ := List.getElem_of_mem hp
      have hphase := hs.phases i (hs.length ▸ hi)
      rw [List.getElem?_eq_getElem hi, hget, Option.some.injEq] at hphase
      rw [hphase]
      split_ifs
      · exact .inl rfl
      · exact .inr rfl
      · exact .inl rfl
  · intro hn es hes
    refine Awake.not_stuck (c := capacity) (n := producers) ?_
    refine invariant (P := fun _ e => e ≠ .stop) (fun s e h he => h.step hn hc he) es _
      (awake_start handler workers) fun x hx => ?_
    rintro hstop
    exact hes (hstop ▸ mem_of_mem_trail hx)

theorem never_stuck_iff_two : 1 ≤ 2 ∧ ∀ es : List DispatchEvent, .stop ∉ es →
    ¬ Stuck (after step (start ⟨2, .block⟩ true 2 4) es) :=
  ⟨by decide, (never_stuck_iff 2 2 4 true (by decide)).mpr (by decide)⟩

/-- The dispatcher thread waits, producer 0 fills the queue, and producer 1 waits for room. It is
woken in the dispatcher's place and waits again, and so does producer 0 with its next job. -/
def robbed : List DispatchEvent :=
  [.pop, .call 0 {}, .push 0, .call 1 {}, .push 1, .pushNotify 0 (some (.producer 1)), .push 1,
    .call 0 {}, .push 0]

/-- With one place in the queue and two producers, all three threads may wait for each other. -/
theorem robbed_stuck :
    ¬ ∀ (capacity producers workers : ℕ) (handler : Bool), 1 ≤ capacity →
      ∀ es : List DispatchEvent, .stop ∉ es →
        ¬ Stuck (after step (start ⟨capacity, .block⟩ handler producers workers) es) := by
  intro h
  have hstuck := h 1 2 1 true (by decide) robbed (by decide)
  exact hstuck (by decide)

end Runs

end PacketDispatcher

end DungeonHub
