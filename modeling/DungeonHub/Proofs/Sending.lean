import DungeonHub.Handlers
import DungeonHub.Lib.Flow

/-!
# What a session sends

The send queue of a session through any run of calls on it: how many bytes it holds, what has become
of the payloads it took, and how many of them the rate limiter lets through.
-/

namespace DungeonHub

namespace Session

open Run Wire

/-- How many bytes the payloads come to. -/
def sizes (payloads : List Bytes) : ℕ := (payloads.map List.length).sum

@[simp] theorem sizes_nil : sizes [] = 0 := rfl

@[simp] theorem sizes_cons (payload : Bytes) (payloads : List Bytes) :
    sizes (payload :: payloads) = payload.length + sizes payloads := by
  simp [sizes]

@[simp] theorem sizes_append (payloads payloads' : List Bytes) :
    sizes (payloads ++ payloads') = sizes payloads + sizes payloads' := by
  simp [sizes]

section Eviction

/-- The loop of `dropOldest` subtracts no payload's size from less than that. -/
def Subtracts (limit : ℕ) : List Bytes → ℕ → ℕ → Prop
  | [], _, _ => True
  | front :: queue, nextSize, bytes =>
    nextSize > limit → front.length ≤ nextSize ∧ front.length ≤ bytes ∧
      Subtracts limit queue (nextSize - front.length) (bytes - front.length)

theorem dropOldest_of_le {limit nextSize : ℕ} (h : nextSize ≤ limit) (queue : List Bytes)
    (bytes : ℕ) : dropOldest limit queue nextSize bytes = (queue, nextSize, bytes) := by
  cases queue with
  | nil => rfl
  | cons front queue =>
    unfold dropOldest
    rw [if_neg (by omega)]

theorem dropOldest_suffix (limit : ℕ) :
    ∀ (queue : List Bytes) (nextSize bytes : ℕ),
      (dropOldest limit queue nextSize bytes).1 <:+ queue
  | [], _, _ => List.suffix_refl _
  | front :: queue, nextSize, bytes => by
    unfold dropOldest
    split_ifs
    · exact (dropOldest_suffix limit queue _ _).trans (List.suffix_cons front queue)
    · exact List.suffix_refl _

/-- With the counters at what is queued and what will be, the loop keeps them so, and ends with
everything gone or room enough. -/
theorem dropOldest_counts (limit size : ℕ) :
    ∀ (queue : List Bytes),
      let r := dropOldest limit queue (sizes queue + size) (sizes queue)
      Subtracts limit queue (sizes queue + size) (sizes queue) ∧ r.2.1 = sizes r.1 + size ∧
        r.2.2 = sizes r.1 ∧ (r.1 = [] ∨ r.2.1 ≤ limit)
  | [] => by simp [dropOldest, Subtracts]
  | front :: queue => by
    have ih := dropOldest_counts limit size queue
    have hnext : sizes (front :: queue) + size - front.length = sizes queue + size := by
      rw [sizes_cons]
      omega
    have hbytes : sizes (front :: queue) - front.length = sizes queue := by
      rw [sizes_cons]
      omega
    unfold dropOldest Subtracts
    rw [hnext, hbytes]
    split_ifs with h
    · refine ⟨fun _ => ⟨?_, ?_, ih.1⟩, ih.2⟩ <;> rw [sizes_cons] <;> omega
    · exact ⟨fun hover => absurd hover h, rfl, rfl, .inr (not_lt.mp h)⟩

end Eviction

section Enqueue

variable {s : Session} {payload : Bytes} {now : Time}

/-- What `enqueueSend` comes to after the rate limiter's answer, whatever that is. -/
structure Answered (s : Session) (passed : Bool) (payload : Bytes) (ok : Bool) (s' : Session) :
    Prop where
  config : s'.config = s.config
  bucket : s'.bucket = s.bucket
  refused : ok = false → s'.sendQueue = s.sendQueue ∧ s'.sendQueueBytes = s.sendQueueBytes
  accepted : ok = true →
    passed = true ∧
      (s.config.overflowPolicy = .dropOldest ∨
        s.sendQueueBytes + payload.length ≤ s.config.sendQueueLimitBytes) ∧
      s'.sendQueue = (dropOldest s.config.sendQueueLimitBytes s.sendQueue
        (s.sendQueueBytes + payload.length) s.sendQueueBytes).1 ++ [payload] ∧
      s'.sendQueueBytes = (dropOldest s.config.sendQueueLimitBytes s.sendQueue
        (s.sendQueueBytes + payload.length) s.sendQueueBytes).2.1
  taken : passed = true → s.config.overflowPolicy = .dropOldest → ok = true

theorem enqueueAnswered_answered (s : Session) (passed : Bool) (payload : Bytes) (now : Time) :
    Answered s passed payload (s.enqueueAnswered passed payload now).1
      (s.enqueueAnswered passed payload now).2 := by
  unfold enqueueAnswered
  rcases passed with _ | _
  · exact ⟨rfl, rfl, fun _ => ⟨rfl, rfl⟩, by simp, by simp⟩
  simp only [Bool.not_true, Bool.false_eq_true, if_false]
  split_ifs with hover
  · split
    · rename_i hpolicy
      exact ⟨rfl, rfl, fun _ => ⟨rfl, rfl⟩, by simp, by simp [hpolicy]⟩
    · rename_i hpolicy
      exact ⟨rfl, rfl, by simp, fun _ => ⟨rfl, .inl hpolicy, rfl, rfl⟩, fun _ _ => rfl⟩
    · rename_i hpolicy
      exact ⟨rfl, rfl, fun _ => ⟨rfl, rfl⟩, by simp, by simp [hpolicy]⟩
  · have hroom : s.sendQueueBytes + payload.length ≤ s.config.sendQueueLimitBytes := by omega
    refine ⟨rfl, rfl, by simp, fun _ => ?_, fun _ _ => rfl⟩
    rw [dropOldest_of_le hroom]
    exact ⟨rfl, .inr hroom, rfl, rfl⟩

/-- What `enqueueSend` comes to. -/
structure Enqueued (s : Session) (payload : Bytes) (now : Time) (ok : Bool) (s' : Session) :
    Prop where
  config : s'.config = s.config
  bucket : s'.bucket = if s.connected then (s.bucket.consume payload.length now).2 else s.bucket
  refused : ok = false → s'.sendQueue = s.sendQueue ∧ s'.sendQueueBytes = s.sendQueueBytes
  accepted : ok = true →
    s.connected = true ∧ (s.bucket.consume payload.length now).1 = true ∧
      (s.config.overflowPolicy = .dropOldest ∨
        s.sendQueueBytes + payload.length ≤ s.config.sendQueueLimitBytes) ∧
      s'.sendQueue = (dropOldest s.config.sendQueueLimitBytes s.sendQueue
        (s.sendQueueBytes + payload.length) s.sendQueueBytes).1 ++ [payload] ∧
      s'.sendQueueBytes = (dropOldest s.config.sendQueueLimitBytes s.sendQueue
        (s.sendQueueBytes + payload.length) s.sendQueueBytes).2.1
  taken : s.connected = true → (s.bucket.consume payload.length now).1 = true →
    s.config.overflowPolicy = .dropOldest → ok = true

theorem enqueueSend_of_disconnected (hc : s.connected = false) (payload : Bytes) (now : Time) :
    s.enqueueSend payload now = (false, s) := by
  unfold enqueueSend
  rw [if_pos (by simp [hc])]

theorem enqueueSend_of_connected (hc : s.connected = true) (payload : Bytes) (now : Time) :
    s.enqueueSend payload now =
      enqueueAnswered { s with bucket := (s.bucket.consume payload.length now).2 }
        (s.bucket.consume payload.length now).1 payload now := by
  unfold enqueueSend
  rw [if_neg (by simp [hc])]

theorem enqueueSend_enqueued (s : Session) (payload : Bytes) (now : Time) :
    Enqueued s payload now (s.enqueueSend payload now).1 (s.enqueueSend payload now).2 := by
  by_cases hc : s.connected = true
  · have h := enqueueAnswered_answered
      { s with bucket := (s.bucket.consume payload.length now).2 }
      (s.bucket.consume payload.length now).1 payload now
    rw [enqueueSend_of_connected hc]
    exact ⟨h.config, h.bucket.trans (if_pos hc).symm, h.refused,
      fun hok => ⟨hc, h.accepted hok⟩, fun _ => h.taken⟩
  · rw [enqueueSend_of_disconnected (Bool.eq_false_iff.mpr hc)]
    exact ⟨rfl, (if_neg hc).symm, fun _ => ⟨rfl, rfl⟩, by simp,
      fun hconnected => absurd hconnected hc⟩

end Enqueue

section Answers

/-- The session after a call to which the rate limiter gives this answer, if it is asked. -/
def answeredCall (s : Session) (x : SessionCall × Bool) : Session :=
  match x.1 with
  | .enqueueSend payload now =>
    if s.connected then (s.enqueueAnswered x.2 payload now).2 else s
  | c => s.call c

theorem answeredCall_enqueueSend (s : Session) (payload : Bytes) (now : Time) (passed : Bool) :
    s.answeredCall (.enqueueSend payload now, passed) =
      if s.connected then (s.enqueueAnswered passed payload now).2 else s := rfl

/-- What the token bucket answers to a call. -/
def answer (s : Session) : SessionCall → Bool
  | .enqueueSend payload now => (s.bucket.consume payload.length now).1
  | _ => false

theorem enqueueAnswered_bucket (s : Session) (b : TokenBucket) (passed : Bool) (payload : Bytes)
    (now : Time) :
    (enqueueAnswered { s with bucket := b } passed payload now).2 =
      { (s.enqueueAnswered passed payload now).2 with bucket := b } := by
  unfold enqueueAnswered
  dsimp only
  split_ifs
  · rfl
  · split <;> rfl
  · rfl

/-- The token bucket matters for its answers only. -/
theorem call_answered (s : Session) (b : TokenBucket) (c : SessionCall) :
    { s.call c with bucket := b } = answeredCall { s with bucket := b } (c, s.answer c) := by
  cases c with
  | enqueueSend payload now =>
    show { (s.enqueueSend payload now).2 with bucket := b } =
      if s.connected then
        (enqueueAnswered { s with bucket := b } (s.bucket.consume payload.length now).1
          payload now).2
      else { s with bucket := b }
    split_ifs with hc
    · rw [enqueueSend_of_connected hc, enqueueAnswered_bucket]
      exact (enqueueAnswered_bucket s b _ payload now).symm
    · rw [enqueueSend_of_disconnected (Bool.eq_false_iff.mpr hc)]
  | dequeueSend =>
    show { s.dequeueSend.2 with bucket := b } = (dequeueSend { s with bucket := b }).2
    unfold dequeueSend
    dsimp only
    split <;> rfl
  | tick now =>
    show { (s.tick now).2 with bucket := b } = (tick { s with bucket := b } now).2
    unfold tick disconnect
    dsimp only
    split_ifs <;> rfl
  | onReceive | markHeartbeatSent | markTlsEstablished => rfl

/-- The runs of a session are those in which the rate limiter answers as the token bucket does. -/
theorem after_answered (b : TokenBucket) : ∀ (calls : List SessionCall) (s : Session),
    { after call s calls with bucket := b } = after answeredCall { s with bucket := b }
      ((trail call s calls).map fun x => (x.2, x.1.answer x.2))
  | [], _ => rfl
  | c :: calls, s => by
    rw [trail_cons, List.map_cons, after_cons, after_cons, ← call_answered]
    exact after_answered b calls (s.call c)

end Answers

section Queue

/-- What a call puts into the queue. -/
def accepts (s : Session) : SessionCall → List Bytes
  | .enqueueSend payload now => if (s.enqueueSend payload now).1 then [payload] else []
  | _ => []

/-- What a call hands to the transport. -/
def dequeues (s : Session) : SessionCall → List Bytes
  | .dequeueSend => s.dequeueSend.1.toList
  | _ => []

/-- What a call evicts: as many of the oldest payloads as the queue has lost by it. -/
def evicts (s : Session) : SessionCall → List Bytes
  | .enqueueSend payload now =>
    s.sendQueue.take (s.sendQueue.length + (s.accepts (.enqueueSend payload now)).length -
      (s.enqueueSend payload now).2.sendQueue.length)
  | _ => []

/-- No subtraction of the call takes a counter below zero. -/
def Exact (s : Session) : SessionCall → Prop
  | .enqueueSend payload _ => Subtracts s.config.sendQueueLimitBytes s.sendQueue
      (s.sendQueueBytes + payload.length) s.sendQueueBytes
  | .dequeueSend => ∀ payload ∈ s.sendQueue.head?, payload.length ≤ s.sendQueueBytes
  | _ => True

/-- The byte counter is right. -/
def Counted (s : Session) : Prop := s.sendQueueBytes = sizes s.sendQueue

variable {s : Session}

theorem answeredCall_config (s : Session) (x : SessionCall × Bool) :
    (s.answeredCall x).config = s.config := by
  obtain ⟨call, passed⟩ := x
  cases call with
  | enqueueSend payload now =>
    rw [answeredCall_enqueueSend]
    split_ifs
    · exact (enqueueAnswered_answered s passed payload now).config
    · rfl
  | dequeueSend =>
    show s.dequeueSend.2.config = s.config
    unfold dequeueSend
    split <;> rfl
  | tick now =>
    show (s.tick now).2.config = s.config
    unfold tick disconnect
    split_ifs <;> rfl
  | onReceive | markHeartbeatSent | markTlsEstablished => rfl

theorem call_config (s : Session) (call : SessionCall) : (s.call call).config = s.config := by
  have hconfig := answeredCall_config s (call, s.answer call)
  rw [← call_answered s s.bucket call] at hconfig
  exact hconfig

theorem evicts_of_refused {payload : Bytes} {now : Time}
    (h : (s.enqueueSend payload now).1 = false) : s.evicts (.enqueueSend payload now) = [] := by
  have hqueue := ((enqueueSend_enqueued s payload now).refused h).1
  simp [evicts, accepts, h, hqueue]

theorem evicts_of_accepted {payload : Bytes} {now : Time} {gone kept : List Bytes}
    (h : (s.enqueueSend payload now).1 = true) (hqueue : s.sendQueue = gone ++ kept)
    (hqueue' : (s.enqueueSend payload now).2.sendQueue = kept ++ [payload]) :
    s.evicts (.enqueueSend payload now) = gone := by
  have hlost :
      s.sendQueue.length + [payload].length - (kept ++ [payload]).length = gone.length := by
    rw [hqueue, List.length_append, List.length_append]
    omega
  simp only [evicts, accepts, h, if_true, hqueue', hlost]
  rw [hqueue, List.take_left]

/-- A call takes the oldest payloads out of the queue and puts what it accepts behind the rest. -/
theorem call_queue (s : Session) (call : SessionCall) :
    s.sendQueue ++ s.accepts call =
      (s.dequeues call ++ s.evicts call) ++ (s.call call).sendQueue := by
  cases call with
  | enqueueSend payload now =>
    have h := enqueueSend_enqueued s payload now
    show s.sendQueue ++ (if (s.enqueueSend payload now).1 then [payload] else []) =
      ([] ++ s.evicts (.enqueueSend payload now)) ++ (s.enqueueSend payload now).2.sendQueue
    rcases hok : (s.enqueueSend payload now).1 with _ | _
    · rw [evicts_of_refused hok, (h.refused hok).1]
      simp
    · obtain ⟨-, -, -, hqueue, -⟩ := h.accepted hok
      obtain ⟨gone, hgone⟩ := dropOldest_suffix s.config.sendQueueLimitBytes s.sendQueue
        (s.sendQueueBytes + payload.length) s.sendQueueBytes
      rw [evicts_of_accepted hok hgone.symm hqueue, hqueue, if_pos rfl, ← List.append_assoc,
        List.nil_append, hgone]
  | dequeueSend =>
    show s.sendQueue ++ [] = (s.dequeueSend.1.toList ++ []) ++ s.dequeueSend.2.sendQueue
    unfold dequeueSend
    split <;> simp [*]
  | tick now =>
    show s.sendQueue ++ [] = [] ++ (s.tick now).2.sendQueue
    unfold tick disconnect
    split_ifs <;> simp
  | onReceive | markHeartbeatSent | markTlsEstablished =>
    simp [accepts, dequeues, evicts, Session.call, onReceive, markHeartbeatSent, markTlsEstablished]

/-- Nothing is evicted where the new payload fits, which it must under the other policies. -/
theorem evicts_of_policy (h : s.config.overflowPolicy ≠ .dropOldest) (call : SessionCall) :
    s.evicts call = [] := by
  cases call with
  | enqueueSend payload now =>
    rcases hok : (s.enqueueSend payload now).1 with _ | _
    · exact evicts_of_refused hok
    · obtain ⟨-, -, hroom, hqueue, -⟩ := (enqueueSend_enqueued s payload now).accepted hok
      rw [dropOldest_of_le (hroom.resolve_left h)] at hqueue
      exact evicts_of_accepted hok (List.nil_append _).symm hqueue
  | dequeueSend | tick | onReceive | markHeartbeatSent | markTlsEstablished => rfl

theorem answeredCall_counted (hs : Counted s) (x : SessionCall × Bool) :
    Counted (s.answeredCall x) := by
  obtain ⟨call, passed⟩ := x
  cases call with
  | enqueueSend payload now =>
    have hsent := enqueueAnswered_answered s passed payload now
    rw [answeredCall_enqueueSend]
    unfold Counted at hs ⊢
    split_ifs
    · rcases hok : (s.enqueueAnswered passed payload now).1 with _ | _
      · rw [(hsent.refused hok).1, (hsent.refused hok).2, hs]
      · obtain ⟨-, -, hqueue, hbytes⟩ := hsent.accepted hok
        have hcounts := dropOldest_counts s.config.sendQueueLimitBytes payload.length
          s.sendQueue
        rw [hqueue, hbytes, hs, hcounts.2.1]
        simp
    · exact hs
  | dequeueSend =>
    unfold Counted at hs ⊢
    show s.dequeueSend.2.sendQueueBytes = sizes s.dequeueSend.2.sendQueue
    unfold dequeueSend
    split
    · exact hs
    · rename_i payload queue hqueue
      rw [hqueue, sizes_cons] at hs
      simp only [hs]
      omega
  | tick now =>
    show Counted (s.tick now).2
    unfold tick disconnect
    split_ifs <;> exact hs
  | onReceive | markHeartbeatSent | markTlsEstablished => exact hs

theorem call_counted (hs : Counted s) (call : SessionCall) : Counted (s.call call) := by
  have hcounted := answeredCall_counted hs (call, s.answer call)
  rw [← call_answered s s.bucket call] at hcounted
  exact hcounted

theorem exact_of_counted (hs : Counted s) (call : SessionCall) : s.Exact call := by
  unfold Counted at hs
  cases call with
  | enqueueSend payload now =>
    have hcounts := dropOldest_counts s.config.sendQueueLimitBytes payload.length
      s.sendQueue
    unfold Exact
    rw [hs]
    exact hcounts.1
  | dequeueSend =>
    intro payload hhead
    obtain ⟨queue, hqueue⟩ := List.head?_eq_some_iff.mp hhead
    rw [hs, hqueue, sizes_cons]
    omega
  | tick | onReceive | markHeartbeatSent | markTlsEstablished => trivial

variable (config : SessionConfig) (start : Time) (calls : List SessionCall)

theorem counted_after : Counted (after call (new config start) calls) :=
  stable (I := Counted) (fun _ call h => call_counted h call) calls rfl

theorem counted_along : ∀ x ∈ trail call (new config start) calls, Counted x.1 :=
  stable_along (I := Counted) (fun _ call h => call_counted h call) calls rfl

theorem config_along : ∀ x ∈ trail call (new config start) calls, x.1.config = config :=
  stable_along (I := fun s => s.config = config) (fun s call h => (call_config s call).trans h)
    calls rfl

/-- The byte counter is what is queued, and no payload that was accepted is lost, but for the
oldest ones that `DropOldest` evicts. -/
theorem queue_accounted (config : SessionConfig) (start : Time) (calls : List SessionCall) :
    let steps := trail call (new config start) calls
    let s := after call (new config start) calls
    s.sendQueueBytes = sizes s.sendQueue ∧
      (∀ x ∈ steps, x.1.Exact x.2) ∧
      (steps.flatMap fun x => x.1.accepts x.2) =
        (steps.flatMap fun x => x.1.dequeues x.2 ++ x.1.evicts x.2) ++ s.sendQueue ∧
      (∀ x ∈ steps, x.1.sendQueue ++ x.1.accepts x.2 =
        (x.1.dequeues x.2 ++ x.1.evicts x.2) ++ (x.1.call x.2).sendQueue) ∧
      (∀ x ∈ steps, x.1.evicts x.2 ≠ [] → config.overflowPolicy = .dropOldest) ∧
      (config.overflowPolicy ≠ .dropOldest →
        (steps.flatMap fun x => x.1.accepts x.2) =
          (steps.flatMap fun x => x.1.dequeues x.2) ++ s.sendQueue) := by
  intro steps s
  have hflow : [] ++ (steps.flatMap fun x => x.1.accepts x.2) =
      (steps.flatMap fun x => x.1.dequeues x.2 ++ x.1.evicts x.2) ++ s.sendQueue :=
    Flow.queue call_queue calls (new config start)
  have hevicts : ∀ x ∈ steps, config.overflowPolicy ≠ .dropOldest → x.1.evicts x.2 = [] := by
    intro x hx hpolicy
    rw [← config_along config start calls x hx] at hpolicy
    exact evicts_of_policy hpolicy x.2
  refine ⟨counted_after config start calls,
    fun x hx => exact_of_counted (counted_along config start calls x hx) x.2, hflow,
    fun x _ => call_queue x.1 x.2, fun x hx hne => ?_, fun hpolicy => ?_⟩
  · by_contra hpolicy
    exact hne (hevicts x hx hpolicy)
  · rw [List.nil_append] at hflow
    rw [hflow]
    refine congrArg (· ++ s.sendQueue) (List.flatMap_congr fun x hx => ?_)
    rw [hevicts x hx hpolicy, List.append_nil]

end Queue

section Bound

variable {s : Session}

/-- A payload comes that is longer than the queue may be, and `DropOldest` lets it in. -/
def Swamps (s : Session) : SessionCall × Bool → Prop
  | (.enqueueSend payload _, passed) =>
    s.connected = true ∧ s.config.overflowPolicy = .dropOldest ∧ passed = true ∧
      s.config.sendQueueLimitBytes < payload.length
  | _ => False

/-- The queue within its limit. -/
def Bounded (s : Session) : Prop := s.sendQueueBytes ≤ s.config.sendQueueLimitBytes

theorem answeredCall_bounded {x : SessionCall × Bool} (hcounted : Counted s) (hs : Bounded s)
    (h : ¬s.Swamps x) : Bounded (s.answeredCall x) := by
  unfold Bounded at hs ⊢
  rw [answeredCall_config]
  obtain ⟨call, passed⟩ := x
  cases call with
  | enqueueSend payload now =>
    have hsent := enqueueAnswered_answered s passed payload now
    rw [answeredCall_enqueueSend]
    split_ifs with hconnected
    swap
    · exact hs
    rcases hok : (s.enqueueAnswered passed payload now).1 with _ | _
    · rw [(hsent.refused hok).2]
      exact hs
    · obtain ⟨hpassed, hroom, -, hbytes⟩ := hsent.accepted hok
      have hcounts := dropOldest_counts s.config.sendQueueLimitBytes payload.length
        s.sendQueue
      rw [hbytes]
      rcases hroom with hpolicy | hroom
      · have hfits : payload.length ≤ s.config.sendQueueLimitBytes :=
          not_lt.mp fun hover => h ⟨hconnected, hpolicy, hpassed, hover⟩
        rw [hcounted]
        obtain ⟨-, hnext, -, hempty | hend⟩ := hcounts
        · rw [hnext, hempty, sizes_nil, zero_add]
          exact hfits
        · exact hend
      · rw [dropOldest_of_le hroom]
        exact hroom
  | dequeueSend =>
    show s.dequeueSend.2.sendQueueBytes ≤ _
    unfold dequeueSend
    split
    · exact hs
    · exact (Nat.sub_le _ _).trans hs
  | tick now =>
    show (s.tick now).2.sendQueueBytes ≤ _
    unfold tick disconnect
    split_ifs <;> exact hs
  | onReceive | markHeartbeatSent | markTlsEstablished => exact hs

/-- Such a payload alone is over the limit. -/
theorem not_bounded_of_swamps {x : SessionCall × Bool} (hs : Counted s) (h : s.Swamps x) :
    ¬Bounded (s.answeredCall x) := by
  obtain ⟨call, passed⟩ := x
  cases call with
  | enqueueSend payload now =>
    obtain ⟨hconnected, hpolicy, hpassed, hover⟩ := h
    have hsent := enqueueAnswered_answered s passed payload now
    obtain ⟨-, -, -, hbytes⟩ := hsent.accepted (hsent.taken hpassed hpolicy)
    have hcounts := dropOldest_counts s.config.sendQueueLimitBytes payload.length
      s.sendQueue
    unfold Bounded
    rw [answeredCall_config]
    rw [answeredCall_enqueueSend, if_pos hconnected, hbytes, hs, hcounts.2.1]
    omega
  | dequeueSend | tick | onReceive | markHeartbeatSent | markTlsEstablished => exact h.elim

/-- The queue stays within its limit as long as `DropOldest` is given no payload longer than that,
and not a step longer. The rate limiter works in floating point: this holds whatever it answers. -/
theorem queue_bounded (config : SessionConfig) (start : Time)
    (calls : List (SessionCall × Bool)) :
    (∀ calls', calls' <+: calls →
      (after answeredCall (new config start) calls').sendQueueBytes ≤
        config.sendQueueLimitBytes) ↔
    ∀ x ∈ trail answeredCall (new config start) calls, ¬x.1.Swamps x.2 := by
  refine throughout_iff (I := fun s => s.sendQueueBytes ≤ config.sendQueueLimitBytes)
    (J := fun s => Counted s ∧ s.config = config) (P := fun s x => ¬s.Swamps x)
    (s := new config start)
    (fun s x hs => ⟨answeredCall_counted hs.1 x, (answeredCall_config s x).trans hs.2⟩) ?_ calls
    ⟨rfl, rfl⟩ (Nat.zero_le _)
  rintro s x ⟨hcounted, rfl⟩ hbounded
  constructor
  · intro hnext hswamps
    refine not_bounded_of_swamps hcounted hswamps ?_
    unfold Bounded
    rwa [answeredCall_config]
  · intro hfits
    have hnext := answeredCall_bounded hcounted hbounded hfits
    unfold Bounded at hnext
    rwa [answeredCall_config] at hnext

/-- A payload of eight bytes in a queue that may hold four. -/
theorem queue_bounded_swamped :
    ¬∀ (config : SessionConfig) (start : Time) (calls : List SessionCall),
      (after call (new config start) calls).sendQueueBytes ≤ config.sendQueueLimitBytes := by
  intro h
  have hbound := h { sendQueueLimitBytes := 4, overflowPolicy := .dropOldest } 0
    [.enqueueSend [1, 2, 3, 4, 5, 6, 7, 8] 0]
  revert hbound
  decide +kernel

end Bound

section Rate

theorem consume_eq (b : TokenBucket) (amount : ℚ) (now : Time) :
    let r := b.consume amount now
    r.2.capacity = b.capacity ∧ r.2.refillRate = b.refillRate ∧ r.2.lastRefill = now ∧
      (if r.1 then amount else 0) + r.2.tokens =
        min b.capacity (b.tokens + (now - b.lastRefill : ℤ) / 1000000000 * b.refillRate) ∧
      (r.1 = true → 0 ≤ r.2.tokens) := by
  unfold TokenBucket.consume
  by_cases h : min b.capacity
      (b.tokens + (now - b.lastRefill : ℤ) / 1000000000 * b.refillRate) ≥ amount
  · simp only [if_pos h]
    exact ⟨trivial, trivial, trivial, by simp, fun _ => sub_nonneg.mpr h⟩
  · simp only [if_neg h]
    exact ⟨trivial, trivial, trivial, by simp, by simp⟩

/-- What a session may still send, less what has been refilled by the time of its bucket. -/
def credit (s : Session) : ℚ :=
  s.bucket.tokens - s.bucket.refillRate * (s.bucket.lastRefill / 1000000000)

/-- How many bytes a call puts into the queue. -/
def spends (s : Session) (call : SessionCall) : ℚ := (sizes (s.accepts call) : ℕ)

variable {s : Session} {payload : Bytes} {now : Time}

theorem spends_enqueueSend (s : Session) (payload : Bytes) (now : Time) :
    s.spends (.enqueueSend payload now) =
      if (s.enqueueSend payload now).1 then (payload.length : ℚ) else 0 := by
  unfold spends accepts
  dsimp only
  split_ifs <;> simp

/-- What is accepted has gone through the rate limiter. -/
theorem spends_le (s : Session) (payload : Bytes) (now : Time) :
    s.spends (.enqueueSend payload now) ≤
      if (s.bucket.consume payload.length now).1 then (payload.length : ℚ) else 0 := by
  rw [spends_enqueueSend]
  split_ifs with hok hpassed hpassed
  · exact le_refl _
  · exact absurd ((enqueueSend_enqueued s payload now).accepted hok).2.1 hpassed
  · exact Nat.cast_nonneg _
  · exact le_refl _

/-- Every call pays for what it puts into the queue. -/
theorem spends_add_credit_le (s : Session) (call : SessionCall) :
    s.spends call + (s.call call).credit ≤ s.credit := by
  cases call with
  | enqueueSend payload now =>
    have hbucket := (enqueueSend_enqueued s payload now).bucket
    have hspends := spends_le s payload now
    have hrefused := spends_enqueueSend s payload now
    obtain ⟨-, hrate, hlast, htokens, -⟩ := consume_eq s.bucket payload.length now
    show _ + (s.enqueueSend payload now).2.credit ≤ s.credit
    unfold credit
    rw [hbucket]
    split_ifs with hc
    · rw [hrate, hlast]
      have hmin := min_le_right s.bucket.capacity
        (s.bucket.tokens + (now - s.bucket.lastRefill : ℤ) / 1000000000 * s.bucket.refillRate)
      push_cast at hmin htokens
      linarith
    · have hok : (s.enqueueSend payload now).1 = false := by
        unfold enqueueSend
        simp [hc]
      rw [hrefused, hok]
      simp
  | dequeueSend =>
    show (sizes [] : ℚ) + s.dequeueSend.2.credit ≤ s.credit
    unfold dequeueSend credit
    split <;> simp
  | tick now =>
    show (sizes [] : ℚ) + (s.tick now).2.credit ≤ s.credit
    unfold tick disconnect credit
    split_ifs <;> simp
  | onReceive | markHeartbeatSent | markTlsEstablished =>
    simp [spends, accepts, Session.call, onReceive, markHeartbeatSent, markTlsEstablished, credit]

theorem call_bucket (s : Session) (call : SessionCall) :
    (s.call call).bucket.capacity = s.bucket.capacity ∧
      (s.call call).bucket.refillRate = s.bucket.refillRate := by
  cases call with
  | enqueueSend payload now =>
    obtain ⟨hcapacity, hrate, -⟩ := consume_eq s.bucket payload.length now
    show (s.enqueueSend payload now).2.bucket.capacity = _ ∧
      (s.enqueueSend payload now).2.bucket.refillRate = _
    rw [(enqueueSend_enqueued s payload now).bucket]
    split_ifs
    · exact ⟨hcapacity, hrate⟩
    · exact ⟨rfl, rfl⟩
  | dequeueSend =>
    show s.dequeueSend.2.bucket.capacity = _ ∧ s.dequeueSend.2.bucket.refillRate = _
    unfold dequeueSend
    split <;> exact ⟨rfl, rfl⟩
  | tick now =>
    show (s.tick now).2.bucket.capacity = _ ∧ (s.tick now).2.bucket.refillRate = _
    unfold tick disconnect
    split_ifs <;> exact ⟨rfl, rfl⟩
  | onReceive | markHeartbeatSent | markTlsEstablished => exact ⟨rfl, rfl⟩

/-- A call that is accepted leaves what the bucket may still hold at its time. -/
theorem bucket_of_accepted (h : (s.enqueueSend payload now).1 = true) :
    let b := (s.enqueueSend payload now).2.bucket
    b.lastRefill = now ∧ payload.length + b.tokens ≤ s.bucket.capacity ∧ 0 ≤ b.tokens := by
  intro b
  have hsent := enqueueSend_enqueued s payload now
  obtain ⟨hconnected, hpassed, -⟩ := hsent.accepted h
  obtain ⟨-, -, hlast, htokens, hnonneg⟩ := consume_eq s.bucket payload.length now
  have hb : b = (s.bucket.consume payload.length now).2 :=
    hsent.bucket.trans (if_pos hconnected)
  rw [hb]
  refine ⟨hlast, ?_, hnonneg hpassed⟩
  rw [if_pos hpassed] at htokens
  exact htokens.trans_le (min_le_left _ _)

theorem bucket_along (config : SessionConfig) (start : Time) (calls : List SessionCall) :
    ∀ x ∈ trail call (new config start) calls,
      x.1.bucket.capacity = config.rateLimitCapacity ∧
        x.1.bucket.refillRate = config.rateLimitRefillPerSec :=
  stable_along (I := fun s => s.bucket.capacity = config.rateLimitCapacity ∧
      s.bucket.refillRate = config.rateLimitRefillPerSec)
    (fun s call h => ⟨(call_bucket s call).1.trans h.1, (call_bucket s call).2.trans h.2⟩) calls
    ⟨rfl, rfl⟩

theorem sizes_flatMap (steps : List (Session × SessionCall)) :
    (sizes (steps.flatMap fun x => x.1.accepts x.2) : ℚ) =
      (steps.map fun x => x.1.spends x.2).sum := by
  induction steps with
  | nil => simp
  | cons x steps ih =>
    rw [List.flatMap_cons, sizes_append, List.map_cons, List.sum_cons, ← ih]
    push_cast
    rfl

/-- What is accepted between two accepted calls, theirs included, is what the bucket can hold and
what has been refilled between them. -/
theorem rate_limited (config : SessionConfig) (start : Time) (calls : List SessionCall)
    {window : List (Session × SessionCall)} {first last : Session} {payload payload' : Bytes}
    {now now' : Time} (hwindow : window <:+: trail call (new config start) calls)
    (hfirst : window.head? = some (first, .enqueueSend payload now))
    (haccepted : (first.enqueueSend payload now).1 = true)
    (hlast : window.getLast? = some (last, .enqueueSend payload' now'))
    (haccepted' : (last.enqueueSend payload' now').1 = true) :
    (sizes (window.flatMap fun x => x.1.accepts x.2) : ℚ) ≤
      config.rateLimitCapacity +
        config.rateLimitRefillPerSec * ((now' - now : ℤ) / 1000000000) := by
  have hbuckets := bucket_along config start calls
  obtain ⟨front, back, hparts⟩ := hwindow
  rw [List.append_assoc] at hparts
  obtain ⟨before, es, -, -, hes⟩ := trail_eq_append hparts.symm
  obtain ⟨es₁, _, -, hes₁, -⟩ := trail_eq_append hes.symm
  have hmem : ∀ x ∈ window, x ∈ trail call (new config start) calls := by
    intro x hx
    rw [← hparts]
    exact List.mem_append_right _ (List.mem_append_left _ hx)
  obtain ⟨hcapacity, hrate⟩ := hbuckets _ (hmem _ (List.mem_of_mem_head? hfirst))
  obtain ⟨-, hrate'⟩ := hbuckets _ (hmem _ (List.mem_of_getLast? hlast))
  -- the window is the first accepted call and the run from the state it leaves
  rw [hes₁] at hfirst hlast ⊢
  rcases es₁ with _ | ⟨e, es₁⟩
  · simp [trail] at hfirst
  have hend := after_of_getLast? hlast
  rw [trail_cons, List.head?_cons, Option.some.injEq, Prod.mk.injEq] at hfirst
  obtain ⟨hstate, rfl⟩ := hfirst
  rw [hstate] at hend ⊢
  have hspent := Flow.spent_le spends_add_credit_le es₁ (first.call (.enqueueSend payload now))
  rw [after_cons] at hend
  rw [hend] at hspent
  obtain ⟨hnow, htokens, -⟩ := bucket_of_accepted haccepted
  obtain ⟨hnow', -, htokens'⟩ := bucket_of_accepted haccepted'
  have hcredit : (first.call (.enqueueSend payload now)).credit =
      (first.enqueueSend payload now).2.bucket.tokens -
        config.rateLimitRefillPerSec * (now / 1000000000) := by
    unfold credit
    rw [(call_bucket _ _).2, hrate]
    show _ - _ * (((first.enqueueSend payload now).2.bucket.lastRefill : ℚ) / _) = _
    rw [hnow]
    rfl
  have hcredit' : (last.call (.enqueueSend payload' now')).credit =
      (last.enqueueSend payload' now').2.bucket.tokens -
        config.rateLimitRefillPerSec * (now' / 1000000000) := by
    unfold credit
    rw [(call_bucket _ _).2, hrate']
    show _ - _ * (((last.enqueueSend payload' now').2.bucket.lastRefill : ℚ) / _) = _
    rw [hnow']
    rfl
  rw [sizes_flatMap, trail_cons, List.map_cons, List.sum_cons, spends_enqueueSend, if_pos haccepted]
  rw [hcredit, hcredit'] at hspent
  rw [hcapacity] at htokens
  push_cast
  linarith

/-- Three bytes and one a second later, with two that are refused in between. -/
theorem rate_limited_second :
    let config : SessionConfig := { rateLimitCapacity := 4, rateLimitRefillPerSec := 1 }
    let calls : List SessionCall := [.enqueueSend [1, 2, 3] 0, .enqueueSend [4, 5] 0, .dequeueSend,
      .enqueueSend [6] (seconds 1)]
    (sizes ((trail call (new config 0) calls).flatMap fun x => x.1.accepts x.2) : ℚ) ≤
      4 + 1 * ((seconds 1 - 0 : ℤ) / 1000000000) := by
  intro config calls
  have hfirst : ((new config 0).enqueueSend [1, 2, 3] 0).1 = true := by decide +kernel
  have hlast : ((after call (new config 0)
      [.enqueueSend [1, 2, 3] 0, .enqueueSend [4, 5] 0, .dequeueSend]).enqueueSend [6]
      (seconds 1)).1 = true := by decide +kernel
  exact rate_limited config 0 calls (List.infix_refl _) rfl hfirst rfl hlast

end Rate

end Session

end DungeonHub
