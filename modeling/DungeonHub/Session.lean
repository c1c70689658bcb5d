import DungeonHub.Codec

/-!
# Sessions

`session.cpp`. Durations and time points are integers of nanoseconds, and the rate limiter's
floating-point amounts are rationals; `enqueueAnswered` is what follows, whatever the limiter
answers. What only goes to the log is left out.
-/

namespace DungeonHub

open Wire

inductive OverflowPolicy where
  | dropNewest
  | dropOldest
  | disconnect
  deriving DecidableEq

structure SessionConfig where
  timeout : Time := milliseconds 45000
  sendQueueLimitBytes : ℕ := 262144
  overflowPolicy : OverflowPolicy := .dropNewest
  rateLimitCapacity : ℚ := 65536
  rateLimitRefillPerSec : ℚ := 32768
  nonceCacheLimit : ℕ := 64

section TokenBucket

structure TokenBucket where
  capacity : ℚ
  tokens : ℚ
  refillRate : ℚ
  lastRefill : Time

namespace TokenBucket

def consume (b : TokenBucket) (amount : ℚ) (now : Time) : Bool × TokenBucket :=
  let elapsed : ℚ := (now - b.lastRefill : ℤ) / 1000000000
  let tokens := min b.capacity (b.tokens + elapsed * b.refillRate)
  if tokens ≥ amount then (true, { b with tokens := tokens - amount, lastRefill := now })
  else (false, { b with tokens, lastRefill := now })

end TokenBucket

end TokenBucket

structure UserContext where
  userId : Str
  token : Str
  deriving DecidableEq

structure Session where
  config : SessionConfig
  bucket : TokenBucket
  connected : Bool := true
  lastActivity : Time
  lastReceive : Time
  lastHeartbeat : Time
  sendQueue : List Bytes := []
  sendQueueBytes : ℕ := 0
  userContext : Option UserContext := none
  protocolVersion : UInt16 := 0
  lastSeq : UInt64 := 0
  nonceCache : Dict UInt64 Unit := ∅
  nonceOrder : List UInt64 := []
  tlsEstablished : Bool := false
  tlsHandshakeTime : Time := 0

namespace Session

def new (config : SessionConfig) (now : Time) : Session where
  config := config
  bucket := ⟨config.rateLimitCapacity, config.rateLimitCapacity, config.rateLimitRefillPerSec, now⟩
  lastActivity := now
  lastReceive := now
  lastHeartbeat := now

def onReceive (s : Session) (now : Time) : Session :=
  { s with lastReceive := now, lastActivity := now }

def disconnect (s : Session) : Session := { s with connected := false }

/-- `while (!send_queue_.empty() && next_size > limit)`: the oldest payloads go, until the new one
fits. -/
def dropOldest (limit : ℕ) : List Bytes → ℕ → ℕ → List Bytes × ℕ × ℕ
  | [], nextSize, bytes => ([], nextSize, bytes)
  | front :: queue, nextSize, bytes =>
    if nextSize > limit then
      dropOldest limit queue (nextSize - front.length) (bytes - front.length)
    else (front :: queue, nextSize, bytes)

/-- `enqueueSend` from the rate limiter's answer on. -/
def enqueueAnswered (s : Session) (ok : Bool) (payload : Bytes) (now : Time) : Bool × Session :=
  if !ok then (false, s)
  else
    let push (s : Session) (nextSize : ℕ) : Bool × Session :=
      (true, { s with
        sendQueueBytes := nextSize
        sendQueue := s.sendQueue ++ [payload]
        lastActivity := now })
    let nextSize := s.sendQueueBytes + payload.length
    if nextSize > s.config.sendQueueLimitBytes then
      match s.config.overflowPolicy with
      | .disconnect => (false, s.disconnect)
      | .dropOldest =>
        let (queue, nextSize, bytes) :=
          dropOldest s.config.sendQueueLimitBytes s.sendQueue nextSize s.sendQueueBytes
        push { s with sendQueue := queue, sendQueueBytes := bytes } nextSize
      | .dropNewest => (false, s)
    else push s nextSize

def enqueueSend (s : Session) (payload : Bytes) (now : Time) : Bool × Session :=
  if !s.connected then (false, s)
  else
    let (ok, bucket) := s.bucket.consume payload.length now
    { s with bucket }.enqueueAnswered ok payload now

def markHeartbeatSent (s : Session) (now : Time) : Session := { s with lastHeartbeat := now }

def tick (s : Session) (now : Time) : Bool × Session :=
  if !s.connected then (false, s)
  else
    let s := if now - s.lastReceive ≥ s.config.timeout then s.disconnect else s
    (s.connected, s)

def attachUserContext (s : Session) (context : UserContext) : Session :=
  { s with userContext := some context }

def clearUserContext (s : Session) : Session := { s with userContext := none }

def setProtocolVersion (s : Session) (version : UInt16) : Session :=
  { s with protocolVersion := version }

def setLastSeq (s : Session) (lastSeq : UInt64) : Session := { s with lastSeq }

/-- `while (nonce_order_.size() > limit)`: the oldest nonces are forgotten. -/
def forgetNonces (limit : ℕ) : List UInt64 → Dict UInt64 Unit → List UInt64 × Dict UInt64 Unit
  | [], cache => ([], cache)
  | oldest :: order, cache =>
    if (oldest :: order).length > limit then forgetNonces limit order (cache.erase oldest)
    else (oldest :: order, cache)

def recordNonce (s : Session) (nonce : UInt64) : Bool × Session :=
  if nonce ∈ s.nonceCache then (false, s)
  else
    let (nonceOrder, nonceCache) := forgetNonces s.config.nonceCacheLimit
      (s.nonceOrder ++ [nonce]) (s.nonceCache.insert nonce ())
    (true, { s with nonceOrder, nonceCache })

def markTlsEstablished (s : Session) (handshakeTime : Time) : Session :=
  { s with tlsEstablished := true, tlsHandshakeTime := handshakeTime }

def dequeueSend (s : Session) : Option Bytes × Session :=
  match s.sendQueue with
  | [] => (none, s)
  | payload :: queue => (some payload,
      { s with sendQueueBytes := s.sendQueueBytes - payload.length, sendQueue := queue })

end Session

end DungeonHub
