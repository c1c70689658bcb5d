import DungeonHub.Admin
import DungeonHub.Proofs.Accounting
import DungeonHub.Proofs.Rematch
import DungeonHub.Proofs.Revival

/-!
# What an administrator sees and does

The figures of a status add up everything that the server has gone through, whatever else has been
asked for in between; and a session that has been terminated does not come back.
-/

namespace DungeonHub

open Run Wire

namespace Server

variable {σ : Type} [InventoryStorage σ]

/-- The size of the packet that a session hands over. -/
def packetSize (s : Server σ) : ServerEvent → Option ℕ
  | .packet id _ payload _ => if id ∈ s.heap then some payload.length else none
  | _ => none

/-- A packet is refused by a handler that counts it, or a session there is not is to be
disconnected. -/
def Errs (s : Server σ) : ServerEvent → Prop
  | .packet id header payload now => id ∈ s.heap ∧
    succeeded (s.answerPacket id header payload now).1 = false ∧
    ¬ UncountedAt s id header payload now
  | .forceDisconnect id => s.findSession id = none
  | _ => False

omit [InventoryStorage σ] in
theorem removeSession_metrics (s : Server σ) (id : ℕ) :
    (s.removeSession id).metrics = s.metrics := by
  obtain ⟨heap, clock, h, -⟩ := s.removeSession_delivers id
  rw [h]
  rfl

omit [InventoryStorage σ] in
theorem tick_metrics (s : Server σ) (now : Time) : (s.tick now).metrics = s.metrics := by
  have hticked : (s.tickSessions now).2.metrics = s.metrics := by
    unfold tickSessions
    refine List.foldlRecOn (motive := fun p : List ℕ × Server σ => p.2.metrics = s.metrics) _ _
      rfl ?_
    rintro ⟨toRemove, t⟩ ht id -
    simp only []
    split
    · exact ht
    · exact ht
  exact List.foldlRecOn (motive := fun t : Server σ => t.metrics = s.metrics) _ _ hticked
    fun t ht id _ => (t.removeSession_metrics id).trans ht

open scoped Classical in
/-- What a packet adds. -/
theorem answerPacket_metrics [TableBacked σ] (s : Server σ) (id : ℕ) (header : FrameHeader)
    (payload : Bytes) (now : Time) :
    (s.answerPacket id header payload now).2.metrics =
      ⟨s.metrics.packetsTotal + (s.packetSize (.packet id header payload now)).toList.length,
        s.metrics.bytesTotal + (s.packetSize (.packet id header payload now)).toList.sum,
        s.metrics.errorTotal + if s.Errs (.packet id header payload now) then 1 else 0⟩ := by
  rcases hs : s.heap[id]? with - | session
  · have hnot : id ∉ s.heap := (Dict.not_mem_iff _ _).mpr hs
    unfold answerPacket packetSize Errs
    rw [hs]
    simp [hnot]
  · have hmem : id ∈ s.heap := (Dict.mem_iff _ _).mpr ⟨session, hs⟩
    have hsize : s.packetSize (.packet id header payload now) = some payload.length := if_pos hmem
    have hat : UncountedAt s id header payload now ↔ ∃ body,
        (s.gatePacket session header payload now).1 = .passed body ∧ Uncounted s id header body :=
      exists_passed_iff hs rfl
    have herrs : s.Errs (.packet id header payload now) ↔
        succeeded (s.answerPacket id header payload now).1 = false ∧ ¬ ∃ body,
          (s.gatePacket session header payload now).1 = .passed body ∧
            Uncounted s id header body := by
      rw [← hat]
      exact and_iff_right hmem
    have huser := s.gatePacket_userContext session header payload now
    rw [hsize, answerPacket_of_some hs]
    simp only [herrs, Option.toList_some, List.length_singleton, List.sum_singleton]
    rw [answerPacket_of_some hs]
    rcases hg : s.gatePacket session header payload now with ⟨_ | reject | body, session'⟩
    · rw [if_pos ⟨rfl, by simp⟩]
      rfl
    · rw [if_pos ⟨rfl, by simp⟩]
      rfl
    · rw [hg] at huser
      simp only [Gated.passed.injEq, exists_eq_left',
        ← uncounted_receive payload header body hs huser]
      rcases (s.receive id session' payload).dispatch_accounting id header body now with
        ⟨hun, hf, hm⟩ | ⟨hun, hm⟩
      · rw [hm, if_neg fun h => h.2 hun]
        rfl
      · rw [hm]
        cases succeeded ((s.receive id session' payload).dispatch id header body now).1 with
        | true =>
          rw [if_pos rfl, if_neg fun h => Bool.noConfusion h.1]
          rfl
        | false =>
          rw [if_neg Bool.false_ne_true, if_pos ⟨rfl, hun⟩]
          rfl

open scoped Classical in
/-- What an event adds. -/
theorem step_metrics [TableBacked σ] (s : Server σ) (e : ServerEvent) :
    (serverStep s e).metrics =
      ⟨s.metrics.packetsTotal + (s.packetSize e).toList.length,
        s.metrics.bytesTotal + (s.packetSize e).toList.sum,
        s.metrics.errorTotal + if s.Errs e then 1 else 0⟩ := by
  cases e with
  | packet id header payload now => exact s.answerPacket_metrics id header payload now
  | tick now =>
    rw [show (serverStep s (.tick now)).metrics = s.metrics from s.tick_metrics now]
    simp [packetSize, Errs]
  | removeSession id =>
    rw [show (serverStep s (.removeSession id)).metrics = s.metrics from
      s.removeSession_metrics id]
    simp [packetSize, Errs]
  | forceDisconnect id =>
    show (s.forceDisconnect id).2.metrics = _
    unfold forceDisconnect
    rcases hs : s.findSession id with - | session
    · simp [packetSize, Errs, hs, countError]
    · simp [packetSize, Errs, hs, s.removeSession_metrics id]
  | _ => simp [packetSize, Errs, serverStep, createSession, modifySession]

open scoped Classical in
/-- The metrics are sums over what has happened. -/
theorem metrics_run [TableBacked σ] : ∀ (es : List ServerEvent) (s : Server σ),
    (after serverStep s es).metrics =
      ⟨s.metrics.packetsTotal +
          ((trail serverStep s es).filterMap fun x => x.1.packetSize x.2).length,
        s.metrics.bytesTotal + ((trail serverStep s es).filterMap fun x => x.1.packetSize x.2).sum,
        s.metrics.errorTotal + (trail serverStep s es).countP fun x => x.1.Errs x.2⟩
  | [], s => rfl
  | e :: es, s => by
    rw [after_cons, metrics_run es, step_metrics, filterMap_trail_cons, trail_cons,
      List.countP_cons, List.length_append, List.sum_append]
    simp only [Nat.add_assoc, Metrics.mk.injEq, true_and, decide_eq_true_eq]
    omega

/-- Who is disconnected is not listed any more. -/
theorem forceDisconnect_listed {s : Server σ} {id : ℕ} (h : (s.findSession id).isSome = true) :
    id ∉ (serverStep s (.forceDisconnect id)).sessions := by
  show id ∉ (s.forceDisconnect id).2.sessions
  obtain ⟨session, hs⟩ := Option.isSome_iff_exists.mp h
  unfold forceDisconnect
  simp only [hs]
  obtain ⟨heap, clock, hremoved, -⟩ := s.removeSession_delivers id
  rw [hremoved]
  exact fun hmem => ((Dict.mem_erase _ _ _).mp hmem).1 rfl

end Server

namespace AdminService

variable {σ : Type} [InventoryStorage σ]

/-- What an event is to the server. -/
def passedOn (a : AdminService σ) : AdminEvent → Option ServerEvent
  | .server e => some e
  | .getStatus _ => none
  | .forceTerminateSession sessionId _ =>
    if (a.server.findSession sessionId.toNat).isSome then
      some (.forceDisconnect sessionId.toNat)
    else none

def serverEvents (a : AdminService σ) (es : List AdminEvent) : List ServerEvent :=
  (trail adminStep a es).filterMap fun x => x.1.passedOn x.2

theorem step_server (a : AdminService σ) :
    ∀ e, (adminStep a e).server = after serverStep a.server (a.passedOn e).toList
  | .server e => rfl
  | .getStatus now => rfl
  | .forceTerminateSession sessionId reason => by
    unfold adminStep forceTerminateSession passedOn
    rcases hs : a.server.findSession sessionId.toNat with - | session
    · simp [hs, log]
    · simp [hs, log, serverStep]

/-- The server goes through what is passed on to it. -/
theorem run_server : ∀ (es : List AdminEvent) (a : AdminService σ),
    (after adminStep a es).server = after serverStep a.server (a.serverEvents es)
  | [], _ => rfl
  | e :: es, a => by
    have hevents : a.serverEvents (e :: es) =
        (a.passedOn e).toList ++ (adminStep a e).serverEvents es := filterMap_trail_cons ..
    rw [hevents, after_cons, run_server es, step_server, after_append]

/-- The administrator asks for something. -/
def asks : AdminEvent → Bool
  | .server _ => false
  | _ => true

/-- Each request is logged once, under a trace id of its own. -/
theorem step_logged (a : AdminService σ) (e : AdminEvent) :
    (adminStep a e).logged.map (fun call => call.fields.requestTraceId) =
      a.logged.map (fun call => call.fields.requestTraceId) ++
        (if asks e then [some (a.requestTraceIds 0)] else []) ∧
    (∀ i, (adminStep a e).requestTraceIds i = a.requestTraceIds ((if asks e then 1 else 0) + i)) ∧
    (adminStep a e).startTime = a.startTime := by
  cases e with
  | server e => simp [adminStep, asks]
  | getStatus now => simp [adminStep, asks, getStatus, log, Draws.next, Nat.add_comm]
  | forceTerminateSession sessionId reason =>
    unfold adminStep forceTerminateSession
    rcases hs : a.server.findSession sessionId.toNat with - | session <;>
      simp [hs, asks, log, Draws.next, Nat.add_comm]

theorem run_logged : ∀ (es : List AdminEvent) (a : AdminService σ),
    (after adminStep a es).logged.map (fun call => call.fields.requestTraceId) =
      a.logged.map (fun call => call.fields.requestTraceId) ++
        (List.range (es.countP asks)).map fun i => some (a.requestTraceIds i)
  | [], a => by simp
  | e :: es, a => by
    obtain ⟨hlogged, hdraws, -⟩ := a.step_logged e
    rw [after_cons, run_logged es, hlogged, List.append_assoc]
    simp only [hdraws]
    congr 1
    cases he : asks e with
    | true => simp [he, List.range_succ_eq_map, Nat.add_comm]
    | false => simp [he]

omit [InventoryStorage σ] in
/-- Only a session there is can be terminated. -/
theorem forceTerminateSession_fst (a : AdminService σ) (sessionId : UInt64) (reason : Str) :
    (a.forceTerminateSession sessionId reason).1 =
      (a.server.findSession sessionId.toNat).isSome := by
  unfold forceTerminateSession
  rcases hs : a.server.findSession sessionId.toNat with - | session <;>
    simp [hs, log, Server.forceDisconnect]

open scoped Classical in
/-- Whatever an administrator asks for in between, the server goes through what is passed on to it,
and a status adds that up. A session is terminated if it is there, and then does not come back; else
nothing happens to the server. Every request is logged once, with a trace id of its own. -/
theorem administered [TableBacked σ] (inventoryStorage : σ) (securityPolicy : SecurityPolicy)
    (tokenBytes : Draws UInt8) (seeds : Draws { n : UInt32 // n ≠ 0 }) (ticketBytes : Draws UInt8)
    (clock : Draws Time) (startTime : Time) (traceId : ℕ → Str) (requestTraceIds : Draws Str)
    (es : List AdminEvent) :
    let s := Server.new inventoryStorage securityPolicy tokenBytes seeds ticketBytes clock
    let a : AdminService σ := ⟨s, startTime, traceId, requestTraceIds, []⟩
    let b := after adminStep a es
    let packets := (trail serverStep s (a.serverEvents es)).filterMap fun x => x.1.packetSize x.2
    b.server = after serverStep s (a.serverEvents es) ∧
    (∀ now, (b.getStatus now).1 = ⟨b.server.sessions.size, packets.length, packets.sum,
      (trail serverStep s (a.serverEvents es)).countP fun x => x.1.Errs x.2,
      (now - startTime).tdiv 1000000000⟩) ∧
    (∀ sessionId reason,
      if sessionId.toNat ∈ b.server.sessions then
        (b.forceTerminateSession sessionId reason).1 = true ∧ ∀ later, sessionId.toNat ∉
          (after adminStep (b.forceTerminateSession sessionId reason).2 later).server.sessions
      else (b.forceTerminateSession sessionId reason).1 = false ∧
        (b.forceTerminateSession sessionId reason).2.server = b.server) ∧
    b.logged.map (fun call => call.fields.requestTraceId) =
      (List.range (es.countP asks)).map fun i => some (requestTraceIds i) := by
  intro s a b packets
  have hserver : b.server = after serverStep s (a.serverEvents es) := a.run_server es
  refine ⟨hserver, fun now => ?_, fun sessionId reason => ?_, a.run_logged es⟩
  · have hmetrics := Server.metrics_run (a.serverEvents es) s
    have hstart : b.startTime = startTime :=
      stable (I := fun c : AdminService σ => c.startTime = startTime)
        (fun c e hc => (c.step_logged e).2.2.trans hc) es rfl
    rw [← hserver] at hmetrics
    unfold getStatus
    simp only [hmetrics, hstart]
    simp [s, packets, Server.new]
  · have horderly : Server.Orderly b.server := by
      rw [hserver]
      exact stable (fun _ e hs => hs.step e) _ (Server.orderly_new ..)
    have hfound : sessionId.toNat ∈ b.server.sessions ↔
        (b.server.findSession sessionId.toNat).isSome = true := by
      rw [Server.findSession_isSome]
      exact ⟨fun h => ⟨h, horderly.known _ h⟩, And.left⟩
    have hstep : (b.forceTerminateSession sessionId reason).2.server =
        after serverStep b.server (b.passedOn (.forceTerminateSession sessionId reason)).toList :=
      b.step_server (.forceTerminateSession sessionId reason)
    split_ifs with hlisted
    · have hsome := hfound.mp hlisted
      refine ⟨(b.forceTerminateSession_fst sessionId reason).trans hsome, fun later => ?_⟩
      have hgone : sessionId.toNat ∉
          (after serverStep b.server [.forceDisconnect sessionId.toNat]).sessions :=
        Server.forceDisconnect_listed hsome
      have hpassed : b.passedOn (.forceTerminateSession sessionId reason) =
          some (.forceDisconnect sessionId.toNat) := if_pos hsome
      rw [hpassed, Option.toList_some] at hstep
      rw [run_server, hstep]
      exact horderly.never_listed hlisted hgone _
    · have hnone := mt hfound.mpr hlisted
      refine ⟨(b.forceTerminateSession_fst sessionId reason).trans (Bool.not_eq_true _ ▸ hnone), ?_⟩
      have hpassed : b.passedOn (.forceTerminateSession sessionId reason) = none := if_neg hnone
      rwa [hpassed, Option.toList_none, after_nil] at hstep

end AdminService

end DungeonHub
