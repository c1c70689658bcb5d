import DungeonHub.Lib.Bucket
import DungeonHub.Proofs.Sending

/-!
# What a session lets through

The rate limiter's bucket follows from the payloads it has been charged for, whatever became of them
then. So a payload is accepted exactly if no window of charges that ends with it is too much, and
the queue has room for it or makes some.
-/

namespace DungeonHub

open Run Wire

/-- When a call asks the rate limiter. -/
def SessionCall.sendTime : SessionCall → Option Time
  | .enqueueSend _ now => some now
  | _ => none

namespace Session

section Charges

/-- What the rate limiter charges a call, and when, in seconds. -/
def charges (s : Session) : SessionCall → List (ℚ × ℚ)
  | .enqueueSend payload now =>
    if s.connected = true ∧ (s.bucket.consume payload.length now).1 = true then
      [((now : ℚ) / 1000000000, (payload.length : ℚ))]
    else []
  | _ => []

variable {s : Session} {payload : Bytes} {now : Time}

/-- The bucket after these payments: as full as they leave it from its last refill on. -/
structure Paid (config : SessionConfig) (payments : List (ℚ × ℚ)) (b : TokenBucket) : Prop where
  capacity : b.capacity = config.rateLimitCapacity
  rate : b.refillRate = config.rateLimitRefillPerSec
  level : ∀ now, b.lastRefill ≤ now →
    min b.capacity (b.tokens + (now - b.lastRefill : ℤ) / 1000000000 * b.refillRate) =
      Bucket.level config.rateLimitCapacity config.rateLimitRefillPerSec payments.reverse
        ((now : ℚ) / 1000000000)

/-- The bucket pays what it can, and remembers that. -/
theorem Paid.consume {config : SessionConfig} {payments : List (ℚ × ℚ)} {b : TokenBucket}
    (h : Paid config payments b) (hrate : 0 ≤ config.rateLimitRefillPerSec)
    (hnow : b.lastRefill ≤ now) (amount : ℚ) :
    Paid config (payments ++ if (b.consume amount now).1 then [((now : ℚ) / 1000000000, amount)]
      else []) (b.consume amount now).2 := by
  obtain ⟨hcapacity, hrefill, hlast, htokens, -⟩ := consume_eq b amount now
  refine ⟨hcapacity.trans h.capacity, hrefill.trans h.rate, fun later hlater => ?_⟩
  rw [hlast] at hlater ⊢
  rw [hcapacity, hrefill]
  rw [h.level now hnow] at htokens
  have helapsed : ((later - now : ℤ) : ℚ) / 1000000000 * b.refillRate =
      config.rateLimitRefillPerSec * ((later : ℚ) / 1000000000 - (now : ℚ) / 1000000000) := by
    rw [h.rate]
    push_cast
    ring
  rw [helapsed, h.capacity]
  split_ifs at htokens ⊢ with hok
  · rw [List.reverse_append, List.reverse_singleton, List.singleton_append, Bucket.level,
      ← htokens, add_sub_cancel_left]
  · rw [zero_add] at htokens
    have htimes : (now : ℚ) / 1000000000 ≤ (later : ℚ) / 1000000000 := by
      have hcast : (now : ℚ) ≤ later := by exact_mod_cast hlater
      linarith
    rw [List.append_nil, htokens, Bucket.min_level hrate htimes]

theorem bucket_of_sendTime {call : SessionCall} (h : call.sendTime = none) :
    (s.call call).bucket = s.bucket ∧ s.charges call = [] := by
  cases call with
  | enqueueSend payload now => simp [SessionCall.sendTime] at h
  | dequeueSend =>
    refine ⟨?_, rfl⟩
    show s.dequeueSend.2.bucket = s.bucket
    unfold dequeueSend
    split <;> rfl
  | tick now =>
    refine ⟨?_, rfl⟩
    show (s.tick now).2.bucket = s.bucket
    unfold tick disconnect
    split_ifs <;> rfl
  | onReceive | markHeartbeatSent | markTlsEstablished => exact ⟨rfl, rfl⟩

theorem Paid.call {config : SessionConfig} {payments : List (ℚ × ℚ)}
    (h : Paid config payments s.bucket) (hrate : 0 ≤ config.rateLimitRefillPerSec)
    {call : SessionCall} (hnow : ∀ now, call.sendTime = some now → s.bucket.lastRefill ≤ now) :
    Paid config (payments ++ s.charges call) (s.call call).bucket := by
  rcases hsend : call.sendTime with _ | time
  · obtain ⟨hbucket, hcharges⟩ := bucket_of_sendTime (s := s) hsend
    rw [hbucket, hcharges, List.append_nil]
    exact h
  · cases call with
    | enqueueSend payload now =>
      have hpaid := h.consume hrate (hnow now rfl) payload.length
      show Paid config _ (s.enqueueSend payload now).2.bucket
      rw [(enqueueSend_enqueued s payload now).bucket]
      unfold charges
      rcases s.connected with _ | _
      · simpa using h
      · simpa using hpaid
    | dequeueSend | tick | onReceive | markHeartbeatSent | markTlsEstablished =>
      simp [SessionCall.sendTime] at hsend

/-- With a clock that does not go back, the bucket is asked after its last refill. -/
theorem clock_along {now : Time} :
    ∀ (calls : List SessionCall) (s : Session),
      (s.bucket.lastRefill :: (calls.filterMap SessionCall.sendTime ++ [now])).Pairwise (· ≤ ·) →
        (∀ x ∈ trail call s calls, ∀ time, x.2.sendTime = some time →
          x.1.bucket.lastRefill ≤ time) ∧ (after call s calls).bucket.lastRefill ≤ now
  | [], s, h => by
    refine ⟨by simp [trail], ?_⟩
    simpa using h
  | c :: calls, s, h => by
    rcases hsend : c.sendTime with _ | time
    · rw [List.filterMap_cons_none hsend, ← (bucket_of_sendTime (s := s) hsend).1] at h
      obtain ⟨hrest, hend⟩ := clock_along calls (s.call c) h
      refine ⟨fun x hx time htime => ?_, hend⟩
      rcases List.mem_cons.mp hx with rfl | hx
      · simp [hsend] at htime
      · exact hrest x hx time htime
    · rw [List.filterMap_cons_some hsend, List.cons_append] at h
      have hfirst : s.bucket.lastRefill ≤ time := List.rel_of_pairwise_cons h List.mem_cons_self
      have hlast : (s.call c).bucket.lastRefill = s.bucket.lastRefill ∨
          (s.call c).bucket.lastRefill = time := by
        cases c with
        | enqueueSend payload now =>
          obtain rfl : now = time := by simpa [SessionCall.sendTime] using hsend
          have hbucket : (s.call (.enqueueSend payload now)).bucket = _ :=
            (enqueueSend_enqueued s payload now).bucket
          rw [hbucket]
          split_ifs
          · exact .inr (consume_eq s.bucket payload.length now).2.2.1
          · exact .inl rfl
        | dequeueSend | tick | onReceive | markHeartbeatSent | markTlsEstablished =>
          simp [SessionCall.sendTime] at hsend
      have hnext : ((s.call c).bucket.lastRefill ::
          (calls.filterMap SessionCall.sendTime ++ [now])).Pairwise (· ≤ ·) := by
        rcases hlast with hlast | hlast
        · rw [hlast]
          exact h.sublist (List.Sublist.cons_cons _ (List.sublist_cons_self _ _))
        · rw [hlast]
          exact h.tail
      obtain ⟨hrest, hend⟩ := clock_along calls (s.call c) hnext
      refine ⟨fun x hx other hother => ?_, hend⟩
      rcases List.mem_cons.mp hx with rfl | hx
      · rw [hsend, Option.some.injEq] at hother
        exact hother ▸ hfirst
      · exact hrest x hx other hother

theorem paid_after (config : SessionConfig) (start : Time) {calls : List SessionCall}
    (hrate : 0 ≤ config.rateLimitRefillPerSec)
    (hclock : ∀ x ∈ trail call (new config start) calls, ∀ time, x.2.sendTime = some time →
      x.1.bucket.lastRefill ≤ time) :
    Paid config ((trail call (new config start) calls).flatMap fun x => x.1.charges x.2)
      (after call (new config start) calls).bucket := by
  have hnew : Paid config [] (new config start).bucket := by
    refine ⟨rfl, rfl, fun now hnow => min_eq_left (le_add_of_nonneg_right ?_)⟩
    have helapsed : (0 : ℚ) ≤ ((now - start : ℤ) : ℚ) := by exact_mod_cast Int.sub_nonneg.mpr hnow
    exact mul_nonneg (div_nonneg helapsed (by norm_num)) hrate
  have hstep : ∀ (s : Session) (l : List (Session × SessionCall)) (c : SessionCall),
      Paid config (l.flatMap fun x => x.1.charges x.2) s.bucket →
      (∀ time, c.sendTime = some time → s.bucket.lastRefill ≤ time) →
      Paid config ((l ++ [(s, c)]).flatMap fun x => x.1.charges x.2) (s.call c).bucket := by
    intro s l c h hc
    rw [List.flatMap_append, List.flatMap_singleton]
    exact h.call hrate hc
  have hrun := recorded hstep calls (new config start) [] hnew hclock
  simpa using hrun

end Charges

section Accepted

variable {s : Session} {payload : Bytes} {now : Time}

/-- A payload is accepted if the rate limiter lets it pass and there is room for it, or can be
made. -/
theorem enqueueSend_ok_iff : (s.enqueueSend payload now).1 = true ↔
    s.connected = true ∧ (s.bucket.consume payload.length now).1 = true ∧
      (s.config.overflowPolicy = .dropOldest ∨
        s.sendQueueBytes + payload.length ≤ s.config.sendQueueLimitBytes) := by
  constructor
  · intro h
    obtain ⟨hconnected, hpassed, hroom, -⟩ := (enqueueSend_enqueued s payload now).accepted h
    exact ⟨hconnected, hpassed, hroom⟩
  · rintro ⟨hconnected, hpassed, hpolicy | hroom⟩
    · exact (enqueueSend_enqueued s payload now).taken hconnected hpassed hpolicy
    · unfold enqueueSend enqueueAnswered
      simp [hconnected, hpassed, Nat.not_lt.mpr hroom]

theorem consume_ok_iff (b : TokenBucket) (amount : ℚ) (now : Time) :
    (b.consume amount now).1 = true ↔
      amount ≤ min b.capacity (b.tokens + (now - b.lastRefill : ℤ) / 1000000000 * b.refillRate) := by
  unfold TokenBucket.consume
  dsimp only
  split_ifs with h
  · exact ⟨fun _ => h, fun _ => rfl⟩
  · exact ⟨fun hno => absurd hno (by simp), fun hle => absurd hle h⟩

/-- After any calls, a session accepts a payload exactly if it is connected; the payload is no
longer than the bucket can hold, nor too long for it with any of the charges since some earlier one;
and the queue has room for it, or makes room. -/
theorem send_accepted_iff (config : SessionConfig) (start : Time) (calls : List SessionCall)
    (payload : Bytes) (now : Time) (hrate : 0 ≤ config.rateLimitRefillPerSec)
    (hclock : (start :: (calls.filterMap SessionCall.sendTime ++ [now])).Pairwise (· ≤ ·)) :
    let s := after call (new config start) calls
    let paid := (trail call (new config start) calls).flatMap fun x => x.1.charges x.2
    (s.enqueueSend payload now).1 = true ↔
      s.connected = true ∧
      ((payload.length : ℚ) ≤ config.rateLimitCapacity ∧
        ∀ old payment recent, paid = old ++ payment :: recent →
          payment.2 + (recent.map Prod.snd).sum + payload.length ≤
            config.rateLimitCapacity +
              config.rateLimitRefillPerSec * ((now : ℚ) / 1000000000 - payment.1)) ∧
      (config.overflowPolicy = .dropOldest ∨
        sizes s.sendQueue + payload.length ≤ config.sendQueueLimitBytes) := by
  intro s paid
  obtain ⟨halong, hnow⟩ := clock_along calls (new config start) hclock
  have hpaid : Paid config paid s.bucket := paid_after config start hrate halong
  have hcounted : s.sendQueueBytes = sizes s.sendQueue := counted_after config start calls
  have hconfig : s.config = config :=
    stable (I := fun s => s.config = config) (fun s c h => (call_config s c).trans h) calls rfl
  rw [enqueueSend_ok_iff, consume_ok_iff, hpaid.level now hnow, Bucket.le_level_reverse_iff,
    hcounted, hconfig]

/-- Three bytes are charged though the queue has no room for them, and then two more are too much. -/
theorem send_accepted_iff_later :
    let config : SessionConfig :=
      { rateLimitCapacity := 4, rateLimitRefillPerSec := 1, sendQueueLimitBytes := 2 }
    let s := after call (new config 0) [.enqueueSend [1, 2, 3] 0]
    ¬(s.enqueueSend [4, 5] 0).1 = true ∧ (s.enqueueSend [4, 5] (seconds 1)).1 = true := by
  intro config s
  have hclock : ∀ now, 0 ≤ now →
      (0 :: (([.enqueueSend [1, 2, 3] 0] : List SessionCall).filterMap SessionCall.sendTime ++
        [now])).Pairwise (· ≤ ·) := by
    intro now hnow
    simpa [SessionCall.sendTime] using hnow
  have hpaid : ((trail call (new config 0) [.enqueueSend [1, 2, 3] 0]).flatMap
      fun x => x.1.charges x.2) = [] ++ ((0 : ℚ), (3 : ℚ)) :: [] := by
    decide +kernel
  constructor
  · intro hok
    obtain ⟨-, ⟨-, hwindow⟩, -⟩ := (send_accepted_iff config 0 [.enqueueSend [1, 2, 3] 0] [4, 5] 0
      (by norm_num [config]) (hclock 0 le_rfl)).mp hok
    have hover := hwindow [] _ [] hpaid
    norm_num [config] at hover
  · refine (send_accepted_iff config 0 [.enqueueSend [1, 2, 3] 0] [4, 5] (seconds 1)
      (by norm_num [config]) (hclock _ (by decide))).mpr ?_
    refine ⟨by decide +kernel, ⟨by norm_num [config], fun old payment recent hsplit => ?_⟩,
      .inr (by decide +kernel)⟩
    rw [hpaid] at hsplit
    rcases old with _ | ⟨_, old⟩
    · obtain ⟨rfl, rfl⟩ := List.cons.inj hsplit
      norm_num [config, seconds]
    · simp at hsplit

end Accepted

end Session

end DungeonHub
