import DungeonHub.Codec
import DungeonHub.WorkerPool

/-!
# The event loop

`IoEventLoop` of `io_layer.cpp`, and the path of a packet from there: what the loop reads goes
through a packet pipeline, whose packets are handed to a packet dispatcher. One thread runs the
loop. The handlers it calls do not call it, and neither they nor the dispatcher's handler throw
anything: one that did would end the process.
-/

namespace DungeonHub

open Wire

section IoEventLoop

/-- `IoEvent::Type`. -/
inductive IoEventType where
  | accept
  | read
  | write
  | disconnect
  deriving DecidableEq, Repr

structure IoEvent where
  type : IoEventType := .read
  connectionId : UInt64 := 0
  payload : Bytes := []
  bytesTransferred : ℕ := 0
  deriving DecidableEq

/-- A handler changes what it has captured, a `σ`. -/
structure IoEventLoop (σ : Type) where
  pending : List IoEvent := []
  onAccept : Option (UInt64 → Time → σ → σ) := none
  onRead : Option (UInt64 → Bytes → Time → σ → σ) := none
  onWrite : Option (UInt64 → ℕ → Time → σ → σ) := none
  onDisconnect : Option (UInt64 → Time → σ → σ) := none

namespace IoEventLoop

variable {σ : Type}

def setAcceptHandler (l : IoEventLoop σ) (handler : UInt64 → Time → σ → σ) : IoEventLoop σ :=
  { l with onAccept := some handler }

def setReadHandler (l : IoEventLoop σ) (handler : UInt64 → Bytes → Time → σ → σ) :
    IoEventLoop σ :=
  { l with onRead := some handler }

def setWriteHandler (l : IoEventLoop σ) (handler : UInt64 → ℕ → Time → σ → σ) : IoEventLoop σ :=
  { l with onWrite := some handler }

def setDisconnectHandler (l : IoEventLoop σ) (handler : UInt64 → Time → σ → σ) : IoEventLoop σ :=
  { l with onDisconnect := some handler }

def enqueueEvent (l : IoEventLoop σ) (event : IoEvent) : IoEventLoop σ :=
  { l with pending := l.pending ++ [event] }

/-- The body of the loop in `drain`. -/
def handle (l : IoEventLoop σ) (now : Time) (s : σ) (event : IoEvent) : σ :=
  match event.type with
  | .accept => l.onAccept.elim s fun f => f event.connectionId now s
  | .read => l.onRead.elim s fun f => f event.connectionId event.payload now s
  | .write => l.onWrite.elim s fun f => f event.connectionId event.bytesTransferred now s
  | .disconnect => l.onDisconnect.elim s fun f => f event.connectionId now s

def drain (l : IoEventLoop σ) (now : Time) (s : σ) : σ × IoEventLoop σ :=
  (l.pending.foldl (l.handle now) s, { l with pending := [] })

end IoEventLoop

end IoEventLoop

section Gateway

/-- The job that the pipeline's callback makes of a packet. -/
def Dispatch.job (f : Dispatch) : PacketJob where
  connectionId := f.connectionId
  header := f.header
  payload := f.payload
  receivedAt := f.now

/-- What the handlers of the loop have captured, but for the sessions: the pipeline, and the jobs
its callback has yet to pass to `enqueue`, which may wait. No other thread looks at the pipeline, so
that a read may be decoded as a whole before its first packet is enqueued. -/
structure Intake where
  pipeline : PacketPipeline := { dispatch := true }
  outbox : List PacketJob := []

def Intake.call (s : Intake) (c : PacketPipeline.Call) : Intake where
  pipeline := (s.pipeline.call c).2
  outbox := s.outbox ++ (s.pipeline.call c).1.map Dispatch.job

/-- The event loop, the pipeline and the dispatcher. The events that a `drain` has taken are put on
record. -/
structure Gateway where
  loop : IoEventLoop Intake
  intake : Intake := {}
  dispatcher : PacketDispatcher
  drained : List (IoEvent × Time) := []

/-- What the loop's thread and the others do next. -/
inductive GatewayEvent where
  | enqueueEvent (event : IoEvent)
  | drain (now : Time)
  | enqueue
  | thread (e : DispatchEvent)

/-- A new call of `push`. -/
def DispatchEvent.isCall : DispatchEvent → Bool
  | .call _ _ => true
  | _ => false

namespace Gateway

/-- Handlers that hand the pipeline what happens on a connection; what else a program does in them
is left out. -/
def handlers : IoEventLoop Intake :=
  ({} : IoEventLoop Intake)
    |>.setAcceptHandler (fun id _ s => s.call (.registerConnection id))
    |>.setReadHandler (fun id payload now s => s.call (.onRead id payload now))
    |>.setWriteHandler (fun _ _ _ s => s)
    |>.setDisconnectHandler (fun id _ s => s.call (.removeConnection id))

/-- The loop's thread is the only one that calls `enqueue`. -/
def start (config : PacketQueue.Config) (workers : ℕ) : Gateway where
  loop := handlers
  dispatcher := .start config true 1 workers

/-- The last `drain` is back. -/
def Returned (g : Gateway) : Prop :=
  g.intake.outbox = [] ∧ g.dispatcher.producers[0]? = some .idle

instance (g : Gateway) : Decidable g.Returned := by
  unfold Returned
  infer_instance

/-- What the event leaves, `none` if it cannot happen. -/
def next (g : Gateway) : GatewayEvent → Option Gateway
  | .enqueueEvent event =>
    if g.Returned then some { g with loop := g.loop.enqueueEvent event } else none
  | .drain now =>
    if g.Returned then
      let r := g.loop.drain now g.intake
      some { g with
        loop := r.2
        intake := r.1
        drained := g.drained ++ g.loop.pending.map fun event => (event, now) }
    else none
  | .enqueue =>
    match g.intake.outbox with
    | [] => none
    | job :: rest => (g.dispatcher.next (.call 0 job)).map fun dispatcher =>
        { g with intake := { g.intake with outbox := rest }, dispatcher }
  | .thread e =>
    if e.isCall then none
    else (g.dispatcher.next e).map fun dispatcher => { g with dispatcher }

/-- The event happens, if it can. -/
def step (g : Gateway) (e : GatewayEvent) : Gateway := (g.next e).getD g

/-- What is read on connection `c`, one stream for each time that it is accepted and until it
disconnects; `o` is the stream that is open at the start. -/
def streams (c : UInt64) (o : Option Bytes) : List IoEvent → List Bytes
  | [] => o.toList
  | event :: rest =>
    match event.type with
    | .accept => streams c (if event.connectionId = c then some (o.getD []) else o) rest
    | .read =>
      streams c (o.map fun b => if event.connectionId = c then b ++ event.payload else b) rest
    | .write => streams c o rest
    | .disconnect =>
      if event.connectionId = c then o.toList ++ streams c none rest else streams c o rest

end Gateway

end Gateway

end DungeonHub
