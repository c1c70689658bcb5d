import DungeonHub.Codec

/-!
# The packet queue and the worker pool

`worker_pool.cpp`. Producers push packets, one thread passes them on to a pool of workers, and these
run the handler on them. The threads interleave at their critical sections, a notification comes
after the mutex is free again, and a thread that waits for a condition variable checks its predicate
anew when it is woken. The handler runs in one step and always returns; one that threw would end the
process, as `workerLoop` catches nothing. What becomes of each job is put on record. One thread
starts and stops the dispatcher, as often as it likes; the others may call it all the while.
-/

namespace DungeonHub

open Wire

structure PacketJob where
  connectionId : UInt64 := 0
  header : FrameHeader := ⟨0, 0, 0⟩
  payload : Bytes := []
  receivedAt : Time := 0
  deriving DecidableEq

/-- A job, with the number of the call of `push` that brought it. -/
structure PushedJob where
  call : ℕ
  job : PacketJob
  deriving DecidableEq

section PacketQueue

inductive PacketQueue.OverflowPolicy where
  | block
  | dropNewest
  | dropOldest
  deriving DecidableEq

structure PacketQueue.Config where
  capacity : ℕ := 0
  overflowPolicy : PacketQueue.OverflowPolicy := .dropNewest
  deriving DecidableEq

structure PacketQueue where
  config : PacketQueue.Config
  queue : List PushedJob := []
  stopped : Bool := false
  dropped : ℕ := 0

namespace PacketQueue

/-- How a call of `push` leaves its critical section: it waits, or returns `false` because the
queue is stopped or drops the job, or has put its job into the queue. -/
inductive PushResult where
  | waits
  | turnedAway
  | refused (queue : PacketQueue)
  | taken (evicted : Option PushedJob) (queue : PacketQueue)

def isFullLocked (q : PacketQueue) : Bool :=
  if q.config.capacity = 0 then false else q.config.capacity ≤ q.queue.length

/-- `push` from where it has the lock. -/
def push (q : PacketQueue) (job : PushedJob) : PushResult :=
  if q.config.capacity > 0 then
    match q.config.overflowPolicy with
    | .block =>
      if q.stopped then .turnedAway
      else if q.isFullLocked then .waits
      else .taken none { q with queue := q.queue ++ [job] }
    | .dropNewest =>
      if q.isFullLocked then .refused { q with dropped := q.dropped + 1 }
      else .taken none { q with queue := q.queue ++ [job] }
    | .dropOldest =>
      if q.isFullLocked then
        .taken q.queue.head? { q with queue := q.queue.tail ++ [job], dropped := q.dropped + 1 }
      else .taken none { q with queue := q.queue ++ [job] }
  else .taken none { q with queue := q.queue ++ [job] }

/-- How a call of `pop` leaves its critical section: it waits, returns `false`, or has a job. -/
inductive PopResult where
  | waits
  | stopped
  | taken (job : PushedJob) (queue : PacketQueue)

/-- `pop` from where it has the lock. -/
def pop (q : PacketQueue) : PopResult :=
  match q.queue with
  | [] => if q.stopped then .stopped else .waits
  | job :: rest => .taken job { q with queue := rest }

end PacketQueue

end PacketQueue

section WorkerPool

structure WorkerPool where
  jobs : List PushedJob := []
  stopRequested : Bool := false

namespace WorkerPool

/-- How a worker leaves its critical section. -/
inductive TakeResult where
  | waits
  | stopped
  | taken (job : PushedJob) (pool : WorkerPool)

/-- `workerLoop` from where it has the lock to where it has a job. -/
def take (p : WorkerPool) : TakeResult :=
  match p.jobs with
  | [] => if p.stopRequested then .stopped else .waits
  | job :: rest => .taken job { p with jobs := rest }

end WorkerPool

end WorkerPool

section Threads

/-- Where a thread stands that calls `push`: in no call, before its critical section, waiting for
`cv_`, or before its `notify_one`. -/
inductive ProducerPhase where
  | idle
  | ready (job : PushedJob)
  | waiting (job : PushedJob)
  | notifying
  deriving DecidableEq

def ProducerPhase.isWaiting : ProducerPhase → Bool
  | .waiting _ => true
  | _ => false

/-- Where `dispatchLoop` stands: before the critical section of `pop`, waiting for `cv_`, before the
`notify_one` of `pop`, before `submit`, before the `notify_one` of `submit`, or at its end. -/
inductive DispatchPhase where
  | ready
  | waiting
  | notifying (job : PushedJob)
  | holding (job : PushedJob)
  | submitted
  | exited
  deriving DecidableEq

/-- Where a `workerLoop` stands. -/
inductive WorkerPhase where
  | ready
  | waiting
  | running (job : PushedJob)
  | exited
  deriving DecidableEq

/-- Where `PacketDispatcher::stop` stands: not called, before the `notify_all` of the queue, before
the join of the dispatcher thread, before and after the critical section of the pool's `stop`,
before the joins of the workers, or back. -/
inductive StopPhase where
  | idle
  | queueNotify
  | dispatcherJoin
  | poolStop
  | poolNotify
  | workersJoin
  | returned
  deriving DecidableEq

/-- What may become of a job. It is `accepted`, or `late` if the queue is stopped by then;
`refused` by a full queue; `turnedAway` by a stopped one. -/
inductive Fate where
  | accepted
  | late
  | refused
  | turnedAway
  | evicted
  | popped
  | submitted
  | taken
  | handled
  deriving DecidableEq

/-- A `PacketDispatcher` once it is started, and the threads that call it. -/
structure PacketDispatcher where
  queue : PacketQueue
  pool : WorkerPool := {}
  /-- Whether `handler_` is set. -/
  handler : Bool
  producers : List ProducerPhase
  dispatcher : DispatchPhase := .ready
  workers : List WorkerPhase
  stopper : StopPhase := .idle
  calls : ℕ := 0
  record : List (Fate × PushedJob) := []

/-- A thread that may wait for the queue's `cv_`. -/
inductive Waiter where
  | producer (i : ℕ)
  | dispatcher
  deriving DecidableEq

/-- What the threads do next. A `notify_one` comes with the thread it wakes, if any is waiting. -/
inductive DispatchEvent where
  | call (i : ℕ) (job : PacketJob)
  | push (i : ℕ)
  | pushNotify (i : ℕ) (waiter : Option Waiter)
  | pop
  | popNotify (waiter : Option Waiter)
  | submit
  | submitNotify (worker : Option ℕ)
  | take (k : ℕ)
  | run (k : ℕ)
  | stop
  | stopNotify
  | join
  | poolStop
  | poolNotify
  | joinWorkers
  | spurious (waiter : Waiter)
  | spuriousWorker (k : ℕ)
  deriving DecidableEq

namespace PacketDispatcher

/-- A dispatcher that has just been started, with so many threads to call it. -/
def start (config : PacketQueue.Config) (handler : Bool) (producers workers : ℕ) :
    PacketDispatcher where
  queue := { config }
  handler := handler
  producers := List.replicate producers .idle
  workers := List.replicate workers .ready

/-- The jobs on record with one of these fates, in order. -/
def jobsOf (record : List (Fate × PushedJob)) (fates : List Fate) : List PushedJob :=
  (record.filter fun r => r.1 ∈ fates).map Prod.snd

def note (s : PacketDispatcher) (fate : Fate) (job : PushedJob) : PacketDispatcher :=
  { s with record := s.record ++ [(fate, job)] }

/-- The waiting thread is woken. -/
def wake (s : PacketDispatcher) : Waiter → Option PacketDispatcher
  | .producer i =>
    match s.producers[i]? with
    | some (.waiting job) => some { s with producers := s.producers.set i (.ready job) }
    | _ => none
  | .dispatcher =>
    match s.dispatcher with
    | .waiting => some { s with dispatcher := .ready }
    | _ => none

def wakeWorker (s : PacketDispatcher) (k : ℕ) : Option PacketDispatcher :=
  match s.workers[k]? with
  | some .waiting => some { s with workers := s.workers.set k .ready }
  | _ => none

/-- `notify_one` on the queue's `cv_`: it wakes no one only if no one waits. -/
def notifyOne (s : PacketDispatcher) : Option Waiter → Option PacketDispatcher
  | some waiter => s.wake waiter
  | none =>
    if s.dispatcher ≠ .waiting ∧ ∀ p ∈ s.producers, p.isWaiting = false then some s
    else none

/-- `notify_one` on the pool's `cv_`. -/
def notifyWorker (s : PacketDispatcher) : Option ℕ → Option PacketDispatcher
  | some k => s.wakeWorker k
  | none => if .waiting ∈ s.workers then none else some s

/-- A critical section of `push` by the `i`-th producer. -/
def afterPush (s : PacketDispatcher) (i : ℕ) (job : PushedJob) :
    PacketQueue.PushResult → PacketDispatcher
  | .waits => { s with producers := s.producers.set i (.waiting job) }
  | .turnedAway => { s with producers := s.producers.set i .idle }.note .turnedAway job
  | .refused queue => { s with queue, producers := s.producers.set i .idle }.note .refused job
  | .taken evicted queue =>
    let s' := match evicted with
      | none => s
      | some old => s.note .evicted old
    { s' with queue, producers := s.producers.set i .notifying }.note
      (if s.queue.stopped then .late else .accepted) job

/-- The critical section of `pop`. -/
def afterPop (s : PacketDispatcher) : PacketQueue.PopResult → PacketDispatcher
  | .waits => { s with dispatcher := .waiting }
  | .stopped => { s with dispatcher := .exited }
  | .taken job queue =>
    { s with
      queue
      dispatcher := if queue.config.capacity > 0 then .notifying job else .holding job }.note
      .popped job

/-- The critical section of the `k`-th worker. -/
def afterTake (s : PacketDispatcher) (k : ℕ) : WorkerPool.TakeResult → PacketDispatcher
  | .waits => { s with workers := s.workers.set k .waiting }
  | .stopped => { s with workers := s.workers.set k .exited }
  | .taken job pool => { s with pool, workers := s.workers.set k (.running job) }.note .taken job

/-- What `notify_all` makes of the threads. -/
def wakeAll (s : PacketDispatcher) : PacketDispatcher :=
  { s with
    producers := s.producers.map fun p =>
      match p with
      | .waiting job => .ready job
      | p => p
    dispatcher :=
      match s.dispatcher with
      | .waiting => .ready
      | d => d }

def wakeAllWorkers (s : PacketDispatcher) : PacketDispatcher :=
  { s with workers := s.workers.map fun w => if w = .waiting then .ready else w }

/-- What the event leaves, `none` if it cannot happen. -/
def next (s : PacketDispatcher) : DispatchEvent → Option PacketDispatcher
  | .call i job =>
    match s.producers[i]? with
    | some .idle =>
      some { s with producers := s.producers.set i (.ready ⟨s.calls, job⟩), calls := s.calls + 1 }
    | _ => none
  | .push i =>
    match s.producers[i]? with
    | some (.ready job) => some (s.afterPush i job (s.queue.push job))
    | _ => none
  | .pushNotify i waiter =>
    match s.producers[i]? with
    | some .notifying => { s with producers := s.producers.set i .idle }.notifyOne waiter
    | _ => none
  | .pop =>
    match s.dispatcher with
    | .ready => some (s.afterPop s.queue.pop)
    | _ => none
  | .popNotify waiter =>
    match s.dispatcher with
    | .notifying job => { s with dispatcher := .holding job }.notifyOne waiter
    | _ => none
  | .submit =>
    match s.dispatcher with
    | .holding job =>
      if s.handler then
        some ({ s with
          pool := { s.pool with jobs := s.pool.jobs ++ [job] }
          dispatcher := .submitted }.note .submitted job)
      else some { s with dispatcher := .ready }
    | _ => none
  | .submitNotify worker =>
    match s.dispatcher with
    | .submitted => { s with dispatcher := .ready }.notifyWorker worker
    | _ => none
  | .take k =>
    match s.workers[k]? with
    | some .ready => some (s.afterTake k s.pool.take)
    | _ => none
  | .run k =>
    match s.workers[k]? with
    | some (.running job) =>
      some ({ s with workers := s.workers.set k .ready }.note .handled job)
    | _ => none
  | .stop =>
    match s.stopper with
    | .idle => some { s with queue := { s.queue with stopped := true }, stopper := .queueNotify }
    | _ => none
  | .stopNotify =>
    match s.stopper with
    | .queueNotify => some { s.wakeAll with stopper := .dispatcherJoin }
    | _ => none
  | .join =>
    if s.stopper = .dispatcherJoin ∧ s.dispatcher = .exited then
      some { s with stopper := .poolStop }
    else none
  | .poolStop =>
    match s.stopper with
    | .poolStop =>
      some { s with pool := { s.pool with stopRequested := true }, stopper := .poolNotify }
    | _ => none
  | .poolNotify =>
    match s.stopper with
    | .poolNotify => some { s.wakeAllWorkers with stopper := .workersJoin }
    | _ => none
  | .joinWorkers =>
    if s.stopper = .workersJoin ∧ ∀ w ∈ s.workers, w = .exited then
      some { s with stopper := .returned }
    else none
  | .spurious waiter => s.wake waiter
  | .spuriousWorker k => s.wakeWorker k

/-- The event happens, if it can. -/
def step (s : PacketDispatcher) (e : DispatchEvent) : PacketDispatcher := (s.next e).getD s

/-- Nothing goes on in the queue although it holds a job: the dispatcher thread waits without having
been woken, and no other thread is in the middle of a call but for those that wait too. -/
def Stuck (s : PacketDispatcher) : Prop :=
  s.dispatcher = .waiting ∧ s.queue.queue ≠ [] ∧
    ∀ p ∈ s.producers, p = .idle ∨ p.isWaiting

instance (s : PacketDispatcher) : Decidable s.Stuck := by
  unfold Stuck
  infer_instance

/-- `start` after a `stop`: new threads, and a pool that is not stopped. The queue stays as it
is. -/
def restart (s : PacketDispatcher) : PacketDispatcher :=
  { s with
    pool := { s.pool with stopRequested := false }
    dispatcher := .ready
    workers := s.workers.map fun _ => .ready
    stopper := .idle }

end PacketDispatcher

end Threads

section Lifetime

/-- A `PacketDispatcher` from its constructor on. Before the first `start` its threads stand where
they begin. -/
structure DispatcherLifetime where
  threads : PacketDispatcher
  running : Bool := false
  /-- Whether `stop` has returned and no `start` has followed. -/
  stopped : Bool := false

inductive LifetimeEvent where
  | start
  | thread (e : DispatchEvent)
  deriving DecidableEq

/-- A step of a thread that calls `enqueue`. -/
def DispatchEvent.ofProducer : DispatchEvent → Bool
  | .call _ _ => true
  | .push _ => true
  | .pushNotify _ _ => true
  | .spurious (.producer _) => true
  | _ => false

namespace DispatcherLifetime

def new (config : PacketQueue.Config) (handler : Bool) (producers workers : ℕ) :
    DispatcherLifetime where
  threads := .start config handler producers workers

def start (s : DispatcherLifetime) : DispatcherLifetime :=
  if s.running then s else { threads := s.threads.restart, running := true }

/-- While it runs, the threads take their steps until `stop` is back; otherwise `stop` returns at
once, and only the threads that call `enqueue` go on. -/
def step (s : DispatcherLifetime) : LifetimeEvent → DispatcherLifetime
  | .start => s.start
  | .thread e =>
    if s.running then
      let threads := s.threads.step e
      if threads.stopper = .returned then { threads, stopped := true } else { s with threads }
    else if e = .stop then { s with stopped := true }
    else if e.ofProducer then { s with threads := s.threads.step e }
    else s

end DispatcherLifetime

end Lifetime

end DungeonHub
