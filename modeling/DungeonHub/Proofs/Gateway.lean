import DungeonHub.IoLayer
import DungeonHub.Proofs.Codec
import DungeonHub.Proofs.Serving

/-!
# From the bytes of a connection to the handler

However the bytes of a connection are cut into reads, and the reads into drains, the jobs that reach
the dispatcher are the packets of its streams. The handler runs on each of them once at most, and if
the queue drops nothing, on each of them.
-/

namespace DungeonHub

open Run Progress Wire

section Pipeline

/-- The call on the pipeline that an event leads to. -/
def IoEvent.call (x : IoEvent × Time) : Option PacketPipeline.Call :=
  match x.1.type with
  | .accept => some (.registerConnection x.1.connectionId)
  | .read => some (.onRead x.1.connectionId x.1.payload x.2)
  | .write => none
  | .disconnect => some (.removeConnection x.1.connectionId)

namespace PacketPipeline

/-- The pipeline after a call. -/
def next (pl : PacketPipeline) (c : Call) : PacketPipeline := (pl.call c).2

/-- All that a run dispatches. -/
def packets (pl : PacketPipeline) (calls : List Call) : List Dispatch :=
  (pl.trace calls).flatMap Prod.snd

theorem packets_cons (pl : PacketPipeline) (c : Call) (calls : List Call) :
    pl.packets (c :: calls) = (pl.call c).1 ++ (pl.next c).packets calls := rfl

theorem packets_append :
    ∀ (calls calls' : List Call) (pl : PacketPipeline),
      pl.packets (calls ++ calls') = pl.packets calls ++ (after next pl calls).packets calls'
  | [], _, _ => rfl
  | c :: calls, calls', pl => by
    rw [List.cons_append, packets_cons, packets_cons, packets_append calls calls', after_cons,
      List.append_assoc]

end PacketPipeline

namespace Period

open PacketPipeline

/-- The bytes of the periods are the streams that the events carry. -/
theorem map_bytes_split (c : UInt64) :
    ∀ (events : List (IoEvent × Time)) (pl : PacketPipeline) (o : Option Period),
      (split c o (pl.trace (events.filterMap IoEvent.call))).map bytes =
        Gateway.streams c (o.map bytes) (events.map Prod.fst)
  | [], pl, o => by cases o <;> rfl
  | (⟨.accept, c', payload, n⟩, now) :: events, pl, o => by
    have hrest := map_bytes_split c events (pl.next (.registerConnection c'))
      (if c' = c then some (o.getD {}) else o)
    have hopen : (if c' = c then some (o.getD {}) else o).map bytes =
        if c' = c then some ((o.map bytes).getD []) else o.map bytes := by
      split_ifs
      · cases o <;> rfl
      · rfl
    rw [hopen] at hrest
    exact hrest
  | (⟨.read, c', payload, n⟩, now) :: events, pl, o => by
    have hrest := map_bytes_split c events (pl.next (.onRead c' payload now))
      (o.map fun p => p.extend c c' payload (pl.onRead c' payload now).1)
    rw [Option.map_map] at hrest
    simp only [List.map_cons, Gateway.streams, Option.map_map]
    exact hrest
  | (⟨.write, c', payload, n⟩, now) :: events, pl, o => map_bytes_split c events pl o
  | (⟨.disconnect, c', payload, n⟩, now) :: events, pl, o => by
    simp only [IoEvent.call, List.filterMap_cons, PacketPipeline.trace, split, List.map_cons,
      Gateway.streams]
    by_cases hc : c' = c
    · simp only [if_pos hc, List.map_append, map_bytes_split c events _ none, Option.map_none]
      cases o <;> rfl
    · simp only [if_neg hc]
      exact map_bytes_split c events _ o

/-- What the pipeline dispatches for a connection, it dispatches in the periods of it. -/
theorem flatMap_frames_split (c : UInt64) :
    ∀ (calls : List Call) (pl : PacketPipeline) (o : Option Period), pl.dispatch = true →
      pl.Follows c o → (split c o (pl.trace calls)).flatMap frames =
        o.toList.flatMap frames ++ (pl.packets calls).filter fun f => f.connectionId = c
  | [], pl, o, _, _ => (List.append_nil _).symm
  | call :: calls, pl, o, hd, h => by
    have hd' : (pl.next call).dispatch = true := (call_dispatch pl call).trans hd
    have ih := fun o' h' => flatMap_frames_split c calls (pl.next call) o' hd' h'
    rw [packets_cons, List.filter_append]
    rcases call with c' | c' | ⟨c', payload, now⟩
    · have hframes : (if c' = c then some (o.getD {}) else o).toList.flatMap frames =
          o.toList.flatMap frames := by
        split_ifs
        · cases o <;> rfl
        · rfl
      exact (ih _ (follows_register c' h)).trans (congrArg (· ++ _) hframes)
    · have hr := follows_remove c' h
      by_cases hc : c' = c
      · rw [if_pos hc] at hr
        unfold PacketPipeline.trace split
        rw [if_pos hc, List.flatMap_append]
        exact congrArg (_ ++ ·) (ih none hr)
      · rw [if_neg hc] at hr
        unfold PacketPipeline.trace split
        rw [if_neg hc]
        exact ih o hr
    · refine (ih _ (follows_onRead c' payload now hd h)).trans ?_
      rw [← List.append_assoc]
      refine congrArg (· ++ _) ?_
      rcases o with _ | p
      · have hnone : (pl.onRead c' payload now).1.filter (fun f => f.connectionId = c) = [] := by
          refine List.filter_eq_nil_iff.mpr fun f hf => ?_
          unfold PacketPipeline.onRead at hf
          by_cases hc : c' = c
          · have hget : pl.decoders[c']? = none := hc ▸ h
            simp [hget] at hf
          · rw [onRead_connectionId hf]
            simpa using hc
        exact hnone.symm
      · simp [Period.extend, PacketPipeline.call]

end Period

end Pipeline

namespace Gateway

open PacketDispatcher

variable {g g' : Gateway}

/-- The stream is these packets, each with the length it announces, and then an incomplete one. -/
def Framed (stream : Bytes) (packets : List (FrameHeader × Bytes)) : Prop :=
  ∃ r, stream = packets.flatMap frameBytes ++ r ∧
    (∀ f ∈ packets, f.1.length.toNat = f.2.length) ∧ Incomplete r

/-- The packets of a stream are those that a decoder finds in the whole of it. -/
theorem Framed.drain_eq :
    ∀ {packets : List (FrameHeader × Bytes)} {stream : Bytes}, Framed stream packets →
      (FrameDecoder.drain ⟨stream⟩).1 = packets
  | [], stream, ⟨r, hr, _, hrest⟩ => by
    obtain rfl : stream = r := by simpa using hr
    have hnone : FrameDecoder.nextFrame ⟨stream⟩ = none := by
      unfold FrameDecoder.nextFrame
      rcases hrest with hshort | hshort
      · rw [if_pos hshort]
      · exact ite_eq_left_iff.mpr fun _ => if_pos hshort
    rw [FrameDecoder.drain]
    split
    · rfl
    · rename_i f d hsome
      rw [hnone] at hsome
      cases hsome
  | f :: packets, stream, ⟨r, hr, hlength, hrest⟩ => by
    have hf := hlength f List.mem_cons_self
    have hfits : f.2.length < 2 ^ 32 := hf ▸ f.1.length.toNat_lt
    have hnext := nextFrame_encodeFrame f.1.type f.1.version hfits (packets.flatMap frameBytes ++ r)
    have hframe : (⟨UInt32.ofNat f.2.length, f.1.type, f.1.version⟩, f.2) = f := by
      rw [← hf, UInt32.ofNat_toNat]
    rw [hframe] at hnext
    have hstream : stream = frameBytes f ++ (packets.flatMap frameBytes ++ r) := by
      rw [hr, List.flatMap_cons, List.append_assoc]
    have hframed : Framed (packets.flatMap frameBytes ++ r) packets :=
      ⟨r, rfl, fun g hg => hlength g (.tail f hg), hrest⟩
    rw [FrameDecoder.drain]
    split
    · rename_i hnone
      rw [hstream] at hnone
      exact absurd (hnext.symm.trans hnone) (by simp)
    · rename_i g d hsome
      rw [hstream] at hsome
      obtain ⟨rfl, rfl⟩ := Prod.mk.inj (Option.some.inj (hnext.symm.trans hsome))
      exact congrArg (f :: ·) hframed.drain_eq

/-- The packets of a connection that the handler has run on, in that order. -/
def handled (g : Gateway) (c : UInt64) : List (FrameHeader × Bytes) :=
  (ofConnection c (jobsOf g.dispatcher.record [.handled])).map fun job =>
    (job.job.header, job.job.payload)

/-- What a step does. -/
theorem next_cases {e : GatewayEvent} (h : g.next e = some g') :
    (∃ event, e = .enqueueEvent event ∧ g' = { g with loop := g.loop.enqueueEvent event }) ∨
    (∃ now, e = .drain now ∧ g' = { g with
      loop := (g.loop.drain now g.intake).2
      intake := (g.loop.drain now g.intake).1
      drained := g.drained ++ g.loop.pending.map fun event => (event, now) }) ∨
    (∃ job rest d, e = .enqueue ∧ g.intake.outbox = job :: rest ∧
      g.dispatcher.next (.call 0 job) = some d ∧
      g' = { g with intake := { g.intake with outbox := rest }, dispatcher := d }) ∨
    ∃ e' d, e = .thread e' ∧ e'.isCall = false ∧ g.dispatcher.next e' = some d ∧
      g' = { g with dispatcher := d } := by
  unfold next at h
  dsimp only at h
  split at h
  · rename_i event
    split_ifs at h
    cases h
    exact .inl ⟨event, rfl, rfl⟩
  · rename_i now
    split_ifs at h
    cases h
    exact .inr (.inl ⟨now, rfl, rfl⟩)
  · split at h
    · cases h
    · rename_i job rest hout
      obtain ⟨d, hd, rfl⟩ := Option.map_eq_some_iff.mp h
      exact .inr (.inr (.inl ⟨job, rest, d, rfl, hout, hd, rfl⟩))
  · rename_i e'
    split_ifs at h with hcall
    obtain ⟨d, hd, rfl⟩ := Option.map_eq_some_iff.mp h
    exact .inr (.inr (.inr ⟨e', d, rfl, Bool.eq_false_iff.mpr hcall, hd, rfl⟩))

section Intake

/-- The calls that the pipeline has had. -/
def calls (g : Gateway) : List PacketPipeline.Call := g.drained.filterMap IoEvent.call

theorem foldl_handle {l : IoEventLoop Intake} (hl : ∃ pending, l = { handlers with pending })
    (now : Time) : ∀ (events : List IoEvent) (s : Intake), events.foldl (l.handle now) s =
      ((events.map fun event => (event, now)).filterMap IoEvent.call).foldl Intake.call s
  | [], _ => rfl
  | event :: events, s => by
    have hrest := foldl_handle hl now events (l.handle now s event)
    obtain ⟨pending, rfl⟩ := hl
    rw [List.foldl_cons, hrest]
    rcases event with ⟨_ | _ | _ | _, c, payload, n⟩ <;> rfl

theorem foldl_call : ∀ (calls : List PacketPipeline.Call) (s : Intake),
    calls.foldl Intake.call s =
      ⟨after PacketPipeline.next s.pipeline calls,
        s.outbox ++ (s.pipeline.packets calls).map Dispatch.job⟩
  | [], s => by simp [PacketPipeline.packets, PacketPipeline.trace]
  | c :: calls, s => by
    rw [List.foldl_cons, foldl_call calls, after_cons, PacketPipeline.packets_cons,
      List.map_append, ← List.append_assoc]
    rfl

/-- What was read and dispatched is what the dispatcher's one producer has been given, in order, and
what it will be given. -/
structure Fed (g : Gateway) : Prop where
  handlers : ∃ pending, g.loop = { Gateway.handlers with pending }
  pipeline : g.intake.pipeline = after PacketPipeline.next { dispatch := true } g.calls
  packets : g.dispatcher.brought.map PushedJob.job ++ g.intake.outbox =
    (PacketPipeline.packets { dispatch := true } g.calls).map Dispatch.job
  single : g.dispatcher.producers.length = 1

theorem fed_start (config : PacketQueue.Config) (workers : ℕ) : Fed (start config workers) :=
  ⟨⟨[], rfl⟩, rfl, rfl, rfl⟩

theorem Fed.drain (h : Fed g) (now : Time) :
    Fed { g with
      loop := (g.loop.drain now g.intake).2
      intake := (g.loop.drain now g.intake).1
      drained := g.drained ++ g.loop.pending.map fun event => (event, now) } := by
  have hintake := foldl_handle h.handlers now g.loop.pending g.intake
  rw [foldl_call, h.pipeline] at hintake
  have hcalls : (g.drained ++ g.loop.pending.map fun event => (event, now)).filterMap
      IoEvent.call =
      g.calls ++ (g.loop.pending.map fun event => (event, now)).filterMap IoEvent.call :=
    List.filterMap_append
  obtain ⟨pending, hl⟩ := h.handlers
  refine ⟨⟨[], ?_⟩, ?_, ?_, h.single⟩
  · rw [hl]
    rfl
  · unfold calls IoEventLoop.drain
    rw [hcalls, after_append, hintake]
  · unfold calls IoEventLoop.drain
    rw [hcalls, PacketPipeline.packets_append, List.map_append, ← h.packets, hintake,
      List.append_assoc]

theorem Fed.step (h : Fed g) (e : GatewayEvent) : Fed (g.step e) := by
  unfold Gateway.step
  rcases hg : g.next e with _ | g'
  · exact h
  rcases next_cases hg with ⟨event, -, rfl⟩ | ⟨now, -, rfl⟩ | ⟨job, rest, d, -, hout, hd, rfl⟩ |
    ⟨e', d, -, hcall, hd, rfl⟩
  · obtain ⟨pending, hl⟩ := h.handlers
    exact ⟨⟨pending ++ [event], by simp [hl, IoEventLoop.enqueueEvent]⟩, h.pipeline, h.packets,
      h.single⟩
  · exact h.drain now
  · refine ⟨h.handlers, h.pipeline, ?_, next_single h.single hd⟩
    have hpackets := h.packets
    rw [hout] at hpackets
    show d.brought.map PushedJob.job ++ rest =
      (PacketPipeline.packets { dispatch := true } g.calls).map Dispatch.job
    rw [← hpackets, brought_call h.single hd]
    simp
  · refine ⟨h.handlers, h.pipeline, ?_, next_single h.single hd⟩
    have hpackets := h.packets
    rw [← brought_next h.single hcall hd] at hpackets
    exact hpackets

theorem fed_after (config : PacketQueue.Config) (workers : ℕ) (es : List GatewayEvent) :
    Fed (after step (start config workers) es) :=
  stable (fun _ e h => h.step e) es (fed_start config workers)

/-- What the pipeline has dispatched for a connection are the packets of its streams. -/
theorem exists_packets (c : UInt64) (events : List (IoEvent × Time)) :
    ∃ packets, List.Forall₂ Framed (streams c none (events.map Prod.fst)) packets ∧
      packets.flatten = ((PacketPipeline.packets { dispatch := true }
        (events.filterMap IoEvent.call)).filter fun f => f.connectionId = c).map fun f =>
          (f.header, f.payload) := by
  have hstart : PacketPipeline.Follows { dispatch := true } c none := Dict.get?_empty c
  have hbytes := Period.map_bytes_split c events { dispatch := true } none
  have hframes := Period.flatMap_frames_split c (events.filterMap IoEvent.call)
    { dispatch := true } none rfl hstart
  have hreads := split_reassembles c (events.filterMap IoEvent.call) { dispatch := true } none rfl
    hstart
  generalize Period.split c none (PacketPipeline.trace { dispatch := true }
    (events.filterMap IoEvent.call)) = periods at hbytes hframes hreads
  refine ⟨periods.map fun p => p.frames.map fun f => (f.header, f.payload), ?_, ?_⟩
  · rw [Option.map_none] at hbytes
    rw [← hbytes, List.forall₂_map_left_iff, List.forall₂_map_right_iff, List.forall₂_same]
    intro p hp
    obtain ⟨r, hr, hlength, hrest⟩ := hreads p hp
    refine ⟨r, ?_, ?_, hrest⟩
    · rw [hr, List.flatMap_map]
      rfl
    · intro f hf
      obtain ⟨d, hd, rfl⟩ := List.mem_map.mp hf
      exact hlength d hd
  · rw [← List.flatMap_def, ← List.map_flatMap, hframes]
    rfl

end Intake

section Handled

/-- The dispatcher takes its steps and is called by the loop. -/
theorem exists_thread_run (config : PacketQueue.Config) (workers : ℕ) (es : List GatewayEvent) :
    ∃ ds, (after step (start config workers) es).dispatcher =
      after PacketDispatcher.step (.start config true 1 workers) ds ∧
      ∀ e ∈ ds, .thread e ∈ es ∨ e.isCall = true := by
  induction es using List.reverseRecOn with
  | nil => exact ⟨[], rfl, by simp⟩
  | append_singleton es e ih =>
    obtain ⟨ds, hds, hfrom⟩ := ih
    rw [after_append, after_cons, after_nil]
    generalize after step (start config workers) es = g at hds
    have hkeep : ∃ ds', g.dispatcher = after PacketDispatcher.step (.start config true 1 workers)
        ds' ∧ ∀ d ∈ ds', .thread d ∈ es ++ [e] ∨ d.isCall = true :=
      ⟨ds, hds, fun d hd => (hfrom d hd).imp_left (List.mem_append_left _)⟩
    have hmove : ∀ d dispatcher, g.dispatcher.next d = some dispatcher →
        (.thread d ∈ es ++ [e] ∨ d.isCall = true) →
        ∃ ds', dispatcher = after PacketDispatcher.step (.start config true 1 workers) ds' ∧
          ∀ d ∈ ds', .thread d ∈ es ++ [e] ∨ d.isCall = true := by
      intro d dispatcher hd hfrom'
      refine ⟨ds ++ [d], ?_, fun d' hd' => ?_⟩
      · rw [after_append, ← hds, after_cons, after_nil, PacketDispatcher.step, hd]
        rfl
      · rcases List.mem_append.mp hd' with hd' | hd'
        · exact (hfrom d' hd').imp_left (List.mem_append_left _)
        · rw [List.mem_singleton.mp hd']
          exact hfrom'
    unfold Gateway.step
    rcases hg : g.next e with _ | g'
    · exact hkeep
    rcases next_cases hg with ⟨event, -, rfl⟩ | ⟨now, -, rfl⟩ | ⟨job, rest, d, -, -, hd, rfl⟩ |
      ⟨e', d, rfl, -, hd, rfl⟩
    · exact hkeep
    · exact hkeep
    · exact hmove _ d hd (.inr rfl)
    · exact hmove e' d hd (.inl (by simp))

/-- The jobs of a connection, as the packets they hold. -/
theorem map_ofConnection {jobs : List PushedJob} {packets : List Dispatch} {rest : List PacketJob}
    (h : jobs.map PushedJob.job ++ rest = packets.map Dispatch.job) (c : UInt64) :
    ((ofConnection c jobs).map fun job => (job.job.header, job.job.payload)) ++
        ((rest.filter fun job => job.connectionId = c).map fun job => (job.header, job.payload)) =
      (packets.filter fun f => f.connectionId = c).map fun f => (f.header, f.payload) := by
  have hjobs : ((ofConnection c jobs).map fun job => (job.job.header, job.job.payload)) =
      ((jobs.map PushedJob.job).filter fun job => job.connectionId = c).map fun job =>
        (job.header, job.payload) := by
    unfold ofConnection
    rw [List.filter_map, List.map_map]
    rfl
  rw [hjobs, ← List.map_append, ← List.filter_append, h, List.filter_map, List.map_map]
  rfl

/-- However the bytes of a connection come in, and whatever the threads do: its streams consist of
packets, of which the handler, which always returns, has run on each once at most, and in their
order if there is one worker. -/
theorem packets_handled (config : PacketQueue.Config) (workers : ℕ) (es : List GatewayEvent)
    (c : UInt64) :
    let g := after step (start config workers) es
    ∃ packets, List.Forall₂ Framed (streams c none (g.drained.map Prod.fst)) packets ∧
      (g.handled c).Subperm packets.flatten ∧
      (workers ≤ 1 → (g.handled c).Sublist packets.flatten) := by
  intro g
  obtain ⟨packets, hframed, hflat⟩ := exists_packets c g.drained
  obtain ⟨ds, hds, -⟩ := exists_thread_run config workers es
  have hbrought := map_ofConnection (fed_after config workers es).packets c
  have hflow : Flow g.dispatcher := hds ▸ flow_after config true 1 workers ds
  have hprefix : ((ofConnection c g.dispatcher.brought).map fun job =>
      (job.job.header, job.job.payload)).Sublist packets.flatten := by
    rw [hflat]
    exact hbrought ▸ List.sublist_append_left _ _
  refine ⟨packets, hframed, ?_, fun hworkers => ?_⟩
  · have hhandled : (ofConnection c (jobsOf g.dispatcher.record [.handled])).Subperm
        (ofConnection c g.dispatcher.brought) := hflow.handled_subperm.filter _
    obtain ⟨jobs, hperm, hsublist⟩ := hhandled
    exact ⟨_, hperm.map _, (hsublist.map _).trans hprefix⟩
  · have hturn : InTurn c g.dispatcher := hds ▸ inTurn_of_one config true 1 hworkers ds c
    have hhandled := (hturn.handled_sublist hflow).trans
      (ofConnection_sublist g.dispatcher.accepted_sublist_brought)
    exact (hhandled.map _).trans hprefix

end Handled

section Delivered

/-- A step that the threads take on their own, before any `stop`. -/
def own : GatewayEvent → Bool
  | .enqueueEvent _ => false
  | .drain _ => false
  | .enqueue => true
  | .thread e => e.own && e ≠ .stop

/-- How many steps the threads can take on their own: those of each packet that is still to be
enqueued, and the dispatcher's. -/
def effort (g : Gateway) : ℕ := 12 * g.intake.outbox.length + g.dispatcher.effort

theorem call_effort {s s' : PacketDispatcher} {i : ℕ} {packet : PacketJob}
    (h : s.next (.call i packet) = some s') : s'.effort = s.effort + 11 := by
  obtain ⟨hi, rfl⟩ := next_call h
  have hready := producers_effort hi (.ready ⟨s.calls, packet⟩)
  simp only [PacketDispatcher.effort, ProducerPhase.effort, List.length_set] at hready ⊢
  omega

theorem step_effort (g : Gateway) (e : GatewayEvent) (g' : Gateway) (he : own e = true)
    (hg : g.next e = some g') : g'.effort < g.effort := by
  rcases next_cases hg with ⟨event, rfl, -⟩ | ⟨now, rfl, -⟩ | ⟨job, rest, d, rfl, hout, hd, rfl⟩ |
    ⟨e', d, rfl, -, hd, rfl⟩
  · cases he
  · cases he
  · have hcalled := call_effort hd
    simp only [effort, hout, List.length_cons]
    omega
  · have hown : e'.own = true := by
      simp only [own, Bool.and_eq_true] at he
      exact he.1
    have hless := next_effort g.dispatcher e' d hown hd
    simp only [effort]
    omega

/-- The threads read nothing on their own. -/
theorem drained_of_own : ∀ {es : List GatewayEvent}, (∀ e ∈ es, own e = true) →
    ∀ g : Gateway, (after step g es).drained = g.drained
  | [], _, _ => rfl
  | e :: es, hown, g => by
    rw [after_cons, drained_of_own (fun f hf => hown f (List.mem_cons_of_mem e hf))]
    have he := hown e List.mem_cons_self
    unfold Gateway.step
    rcases hg : g.next e with _ | g'
    · rfl
    rcases next_cases hg with ⟨event, rfl, -⟩ | ⟨now, rfl, -⟩ | ⟨_, _, _, rfl, -, -, rfl⟩ |
      ⟨_, _, rfl, -, -, rfl⟩
    · cases he
    · cases he
    · rfl
    · rfl

/-- Once the threads have come to rest, every packet has been enqueued, and handled. -/
theorem Fed.settled (h : Fed g) {workers : ℕ} {ds : List DispatchEvent}
    {config : PacketQueue.Config} (hworkers : 0 < workers) (hconfig : Lossless config)
    (hds : g.dispatcher = after PacketDispatcher.step (.start config true 1 workers) ds)
    (hstop : .stop ∉ ds) (hrest : Rests next (fun e => own e = true) g) (c : UInt64) :
    ∃ packets, List.Forall₂ Framed (streams c none (g.drained.map Prod.fst)) packets ∧
      (g.handled c).Perm packets.flatten ∧ (workers ≤ 1 → g.handled c = packets.flatten) := by
  have hflow : Flow g.dispatcher := hds ▸ flow_after config true 1 workers ds
  have hsetup : Setup config true workers g.dispatcher :=
    hds ▸ stable (fun _ e h => h.step e) ds (setup_start 1)
  have hserving : Serving g.dispatcher := by
    rw [hds]
    exact invariant (P := fun _ e => e ≠ .stop) (fun _ _ h he => h.step he) ds _
      (serving_start hconfig true 1 workers) fun x hx heq => hstop (heq ▸ mem_of_mem_trail hx)
  have hthreads : Rests PacketDispatcher.next
      (fun e : DispatchEvent => e.own = true ∧ e ≠ .stop) g.dispatcher := by
    intro e he
    have hnone : g.next (.thread e) = none := hrest (.thread e) (by simp [own, he])
    unfold next at hnone
    dsimp only at hnone
    rw [if_neg (by cases e <;> simp_all [DispatchEvent.own, DispatchEvent.isCall])] at hnone
    exact Option.map_eq_none_iff.mp hnone
  have hawake := attended hconfig true workers hstop
  rw [← hds] at hawake
  obtain ⟨hidle, hrunning, hbrought⟩ := hserving.settled hflow hsetup.handler
    (hsetup.workers.symm ▸ hworkers) hawake hthreads
  have hout : g.intake.outbox = [] := by
    rcases hout : g.intake.outbox with _ | ⟨job, rest⟩
    · rfl
    · have hnone : g.next .enqueue = none := hrest .enqueue rfl
      obtain ⟨p, hp⟩ := List.length_eq_one_iff.mp h.single
      have hphase : g.dispatcher.producers[0]? = some .idle := by
        rw [hp, ← hidle p (by simp [hp])]
        rfl
      unfold next at hnone
      dsimp only at hnone
      rw [hout] at hnone
      simp [PacketDispatcher.next, hphase] at hnone
  obtain ⟨packets, hframed, hflat⟩ := exists_packets c g.drained
  have hall := map_ofConnection h.packets c
  rw [hout, List.filter_nil, List.map_nil, List.append_nil, hbrought] at hall
  rw [show PacketPipeline.packets _ g.calls = _ from rfl, Gateway.calls, ← hflat] at hall
  have htaken := hflow.taken
  rw [hrunning, List.append_nil] at htaken
  refine ⟨packets, hframed, ?_, fun hone => ?_⟩
  · rw [← hall]
    exact ((ofConnection_perm htaken).map _).symm
  · have hturn : InTurn c g.dispatcher := hds ▸ inTurn_of_one config true 1 hone ds c
    unfold InTurn at hturn
    rw [hrunning, show ofConnection c [] = [] from rfl, List.append_nil] at hturn
    rw [← hall, hturn]
    rfl

/-- If the queue drops nothing, the handler always returns, `stop` is not called and there is a
worker, the threads soon have nothing left to do, and the handler has run on all packets of the
streams then, each once. -/
theorem packets_delivered (config : PacketQueue.Config) (hconfig : Lossless config) (workers : ℕ)
    (hworkers : 0 < workers) (es : List GatewayEvent) (hstop : .thread .stop ∉ es) :
    let g := after step (start config workers) es
    (∀ es' t, (∀ e ∈ es', own e = true) → run next g es' = some t →
      es'.length ≤ g.effort ∧
      (Rests next (fun e => own e = true) t → t.drained = g.drained ∧ ∀ c, ∃ packets,
        List.Forall₂ Framed (streams c none (g.drained.map Prod.fst)) packets ∧
        (t.handled c).Perm packets.flatten ∧
        (workers ≤ 1 → t.handled c = packets.flatten))) ∧
    ∃ es' t, (∀ e ∈ es', own e = true) ∧ run next g es' = some t ∧
      Rests next (fun e => own e = true) t := by
  intro g
  refine ⟨fun es' t hown hrun => ⟨?_, fun hrest => ?_⟩, exists_rest step_effort g⟩
  · have hle := length_add_le step_effort hown hrun
    omega
  · obtain rfl : after step (start config workers) (es ++ es') = t := by
      rw [after_append]
      exact after_of_run hrun
    have hdrained : (after step (start config workers) (es ++ es')).drained = g.drained := by
      rw [after_append]
      exact drained_of_own hown g
    have hfed := fed_after config workers (es ++ es')
    obtain ⟨ds, hds, hfrom⟩ := exists_thread_run config workers (es ++ es')
    have hnever : .stop ∉ ds := by
      intro hmem
      rcases hfrom .stop hmem with hthread | hcall
      · rcases List.mem_append.mp hthread with h | h
        · exact hstop h
        · have hstopped := hown _ h
          simp [own] at hstopped
      · cases hcall
    exact ⟨hdrained, fun c =>
      hdrained ▸ hfed.settled hworkers hconfig hds hnever hrest c⟩

/-- A packet that is read in two pieces is handled. -/
theorem packets_delivered_pieces :
    let es : List GatewayEvent := [.enqueueEvent ⟨.accept, 7, [], 0⟩,
      .enqueueEvent ⟨.read, 7, [0, 0, 0, 1, 0], 5⟩, .drain 0,
      .enqueueEvent ⟨.read, 7, [2, 0, 1, 9], 4⟩, .drain 1]
    ∃ es' t, run next (after step (start {} 1) es) es' = some t ∧
      t.handled 7 = [(⟨1, 2, 1⟩, [9])] := by
  intro es
  obtain ⟨hruns, es', t, hown, hrun, hrest⟩ := packets_delivered {} (.inl rfl) 1 (by decide) es
    (by simp [es])
  refine ⟨es', t, hrun, ?_⟩
  obtain ⟨packets, hframed, -, hhandled⟩ := ((hruns es' t hown hrun).2 hrest).2 7
  rw [hhandled (by decide)]
  have hstreams : streams 7 none ((after step (start {} 1) es).drained.map Prod.fst) =
      [encodeFrame 2 1 [9]] := by
    decide +kernel
  rw [hstreams] at hframed
  obtain ⟨only, _, honly, hnil, rfl⟩ := List.forall₂_cons_left_iff.mp hframed
  obtain rfl := List.forall₂_nil_left_iff.mp hnil
  have hdrain : (({} : FrameDecoder).append (encodeFrame 2 1 [9])).drain =
      ([(⟨1, 2, 1⟩, [9])], {}) := drain_encodeFrame (by decide)
  rw [← honly.drain_eq, List.flatten_singleton]
  exact congrArg Prod.fst hdrain

end Delivered

end Gateway

end DungeonHub
