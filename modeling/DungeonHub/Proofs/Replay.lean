import DungeonHub.Proofs.Registry

/-!
# Sequence numbers

With replay protection, a session's sequence number rises with each packet that passes the gate, and
nothing but a reconnect changes it afterwards. A reconnect may set it back below the number of its
own packet; in runs where none does, the numbers admitted on a session strictly increase.
-/

namespace DungeonHub

open Run Wire

namespace Server

variable {σ : Type}

section Steady

/-- No session is new, and none has another sequence number. -/
structure Steady (s s' : Server σ) : Prop where
  nextId : s'.nextId = s.nextId
  policy : s'.securityPolicy = s.securityPolicy
  heap : Keeps Session.lastSeq s.heap s'.heap

variable {s s' s'' : Server σ}

theorem Steady.refl (s : Server σ) : Steady s s := ⟨rfl, rfl, .refl _ _⟩

theorem Steady.trans (h : Steady s s') (h' : Steady s' s'') : Steady s s'' :=
  ⟨h'.nextId.trans h.nextId, h'.policy.trans h.policy, h.heap.trans h'.heap⟩

theorem Calm.steady (h : Calm Session.stamp s s') : Steady s s' :=
  ⟨h.nextId, h.policy, h.heap.seqs⟩

theorem attach_steady (s : Server σ) (id : ℕ) (context : UserContext) :
    Steady s (s.attach id context) := ⟨rfl, rfl, keeps_modify _ _ fun _ => rfl⟩

theorem reclaim_steady (s : Server σ) (userId : Str) (id : ℕ) :
    Steady s (s.reclaim userId id) := by
  unfold reclaim
  split
  · exact .refl s
  · unfold takeOver
    split
    · exact ⟨rfl, rfl, .refl _ _⟩
    · exact ⟨rfl, rfl, keeps_modify _ _ fun _ => rfl⟩

theorem without_steady (s : Server σ) (id : ℕ) : Steady s (s.without id) := by
  refine ⟨rfl, rfl, ?_⟩
  unfold without
  simp only []
  split_ifs
  · exact keeps_modify _ _ fun _ => rfl
  · exact .refl _ _

/-- No packet changes a sequence number behind the gate, but a reconnect that of its session. -/
theorem effect_steady {id : ℕ} {header : FrameHeader} {payload : Bytes} {now : Time}
    (h : Effect s id header payload now s') :
    Steady s s' ∨
    ∃ request userId t, PacketType.ofCode header.type = some .sessionReconnectReq ∧
      Reconnects s payload now request userId ∧
      ((s.reclaim userId id).registry.registerSession id ⟨userId, request.token⟩).1 = true ∧
      Steady s t ∧
      s' = t.modifySession id (·.setLastSeq (s.restoredLastSeq id request userId)) := by
  cases h with
  | calm tokenService h => exact .inl ⟨h.nextId, h.policy, h.heap.seqs⟩
  | login tokenService context h => exact .inl ⟨rfl, rfl, keeps_modify _ _ fun _ => rfl⟩
  | logout => exact .inl ⟨rfl, rfl, keeps_modify _ _ fun _ => rfl⟩
  | reconnect request userId ht h hr =>
    exact .inr ⟨request, userId, _, ht, h, hr,
      (s.reclaim_steady userId id).trans (attach_steady ..), rfl⟩
  | clash request userId h hr =>
    refine .inl ((s.reclaim_steady userId id).trans ?_)
    exact ⟨rfl, rfl, keeps_modify _ _ fun _ => rfl⟩
  | enter charId instanceId h => exact .inl ⟨h.nextId, h.policy, h.heap.seqs⟩
  | grant instanceId grantId h => exact .inl ⟨h.nextId, h.policy, h.heap.seqs⟩
  | guild call hc h => exact .inl ⟨h.nextId, h.policy, h.heap.seqs⟩

end Steady

section Reached

/-- The session's sequence number has reached `q`. -/
def Reached (q : UInt64) (id : ℕ) (heap : Dict ℕ Session) : Prop :=
  ∃ n, heap[id]?.map Session.lastSeq = some n ∧ q ≤ n

theorem Reached.keeps {q : UInt64} {id : ℕ} {heap heap' : Dict ℕ Session} (h : Reached q id heap)
    (hk : Keeps Session.lastSeq heap heap') : Reached q id heap' := by
  unfold Reached
  rw [hk id]
  exact h

theorem Reached.modify {q n : UInt64} {id : ℕ} {heap : Dict ℕ Session} (h : Reached q id heap)
    {k : ℕ} (hn : k = id → q ≤ n) : Reached q id (heap.modify k (·.setLastSeq n)) := by
  unfold Reached at h ⊢
  rw [Dict.get?_modify]
  split_ifs with hk
  · obtain ⟨m, hm, -⟩ := h
    rw [Option.map_eq_some_iff] at hm
    obtain ⟨session, hs, -⟩ := hm
    rw [hs]
    exact ⟨n, rfl, hn hk⟩
  · exact h

theorem Reached.insert {q : UInt64} {id : ℕ} {heap : Dict ℕ Session} (h : Reached q id heap)
    {k : ℕ} {session session' : Session} (hs : heap[k]? = some session)
    (hle : session.lastSeq ≤ session'.lastSeq) : Reached q id (heap.insert k session') := by
  obtain ⟨n, hn, hq⟩ := h
  unfold Reached
  rw [Dict.get?_insert]
  split_ifs with hk
  · subst hk
    rw [hs, Option.map_some, Option.some.injEq] at hn
    exact ⟨session'.lastSeq, rfl, UInt64.le_trans (hn ▸ hq) hle⟩
  · exact ⟨n, hn, hq⟩

end Reached

section Gate

variable {s : Server σ} {id : ℕ} {session : Session} {header : FrameHeader} {payload : Bytes}
  {now : Time}

/-- The gate never lowers a sequence number, and leaves it at the number of a packet it admits,
which is higher than the one before. -/
theorem gatePacket_seq (s : Server σ) (session : Session) (header : FrameHeader)
    (payload : Bytes) (now : Time) :
    session.lastSeq ≤ (s.gatePacket session header payload now).2.lastSeq ∧
    (s.securityPolicy.enableReplayProtection = true → ∀ inner,
      (s.gatePacket session header payload now).1 = .passed inner →
      ∃ sec, unwrapSecurePayload payload = .ok (sec, inner) ∧
        session.lastSeq < sec.seq.toUInt64 ∧
        (s.gatePacket session header payload now).2.lastSeq = sec.seq.toUInt64) := by
  have hlast : ((session.onReceive now).setProtocolVersion header.version).lastSeq =
      session.lastSeq := rfl
  unfold gatePacket
  rcases gate_cases s.securityPolicy header payload
    ((session.onReceive now).setProtocolVersion header.version) with
    ⟨hsame, hno⟩ | ⟨sec, inner, hun, hlt, heq⟩
  · rw [hsame]
    exact ⟨UInt64.le_refl _, fun hre inner hp => absurd hp (hno hre inner)⟩
  · rw [heq]
    rw [hlast] at hlt
    refine ⟨UInt64.le_of_lt hlt, fun _ inner' hp => ?_⟩
    rw [Gated.passed.injEq] at hp
    subst hp
    exact ⟨sec, hun, hlt, rfl⟩

/-- The sequence number of a packet on the session, if it passes the gate. -/
def admittedSeq (id : ℕ) (s : Server σ) : ServerEvent → Option UInt32
  | .packet k header payload now =>
    if k = id then
      match s.heap[k]?, unwrapSecurePayload payload with
      | some session, .ok (sec, _) =>
        match (s.gatePacket session header payload now).1 with
        | .passed _ => some sec.seq
        | _ => none
      | _, _ => none
    else none
  | _ => none

theorem admittedSeq_eq_some {e : ServerEvent} {seq : UInt32}
    (hre : s.securityPolicy.enableReplayProtection = true) (h : admittedSeq id s e = some seq) :
    ∃ header payload now session inner, e = .packet id header payload now ∧
      s.heap[id]? = some session ∧ session.lastSeq < seq.toUInt64 ∧
      (s.gatePacket session header payload now).1 = .passed inner ∧
      (s.gatePacket session header payload now).2.lastSeq = seq.toUInt64 := by
  unfold admittedSeq at h
  split at h
  · rename_i k header payload now
    split_ifs at h with hk
    subst hk
    split at h
    · rename_i session sec inner hs hun
      split at h
      · rename_i hp
        rw [Option.some.injEq] at h
        subst h
        obtain ⟨sec', hun', hlt, hseq⟩ := (s.gatePacket_seq session header payload now).2 hre _ hp
        rw [hun] at hun'
        cases hun'
        exact ⟨header, payload, now, session, _, rfl, hs, hlt, hp, hseq⟩
      · cases h
    · cases h
  · cases h

/-- A packet that is a reconnect, is admitted and accepted leaves its session with a sequence number
no lower than its own. -/
def KeepsPace (s : Server σ) : ServerEvent → Prop
  | .packet id header payload now => ∀ session sec inner request userId,
    PacketType.ofCode header.type = some .sessionReconnectReq →
    s.heap[id]? = some session → unwrapSecurePayload payload = .ok (sec, inner) →
    (s.gatePacket session header payload now).1 = .passed inner →
    Reconnects s inner now request userId →
    ((s.reclaim userId id).registry.registerSession id ⟨userId, request.token⟩).1 = true →
    sec.seq.toUInt64 ≤ s.restoredLastSeq id request userId
  | _ => True

end Gate

section Runs

/-- Replay protection is on, and the ids of new sessions are new. -/
structure Guarded (s : Server σ) : Prop where
  on : s.securityPolicy.enableReplayProtection = true
  below : ∀ id ∈ s.heap, id < s.nextId

theorem Guarded.steady {s s' : Server σ} (hs : Guarded s) (h : Steady s s') : Guarded s' where
  on := h.policy ▸ hs.on
  below id hid := by
    rw [h.nextId]
    exact hs.below id ((h.heap.mem id).mp hid)

theorem lt_of_reached {s : Server σ} (hs : Guarded s) {e : ServerEvent} {id : ℕ}
    {seq seq' : UInt32} (hr : Reached seq.toUInt64 id s.heap)
    (h : admittedSeq id s e = some seq') : seq < seq' := by
  obtain ⟨_, _, _, session, _, -, hsession, hlt, -, -⟩ := admittedSeq_eq_some hs.on h
  obtain ⟨n, hn, hle⟩ := hr
  rw [hsession, Option.map_some, Option.some.injEq] at hn
  subst hn
  rw [UInt64.le_iff_toNat_le] at hle
  rw [UInt64.lt_iff_toNat_lt] at hlt
  rw [UInt32.lt_iff_toNat_lt]
  rw [UInt32.toNat_toUInt64] at hle hlt
  omega

theorem lastSeq_le_restored (s : Server σ) (id : ℕ) (request : SessionReconnectRequest)
    (userId : Str) : request.lastSeq.toUInt64 ≤ s.restoredLastSeq id request userId := by
  unfold restoredLastSeq
  show _ ≤ ite _ _ _
  split_ifs with h
  · exact h
  · exact UInt64.le_refl _

theorem restoredLastSeq_receive (s : Server σ) (id : ℕ) (session' : Session) (payload : Bytes)
    (request : SessionReconnectRequest) (userId : Str) :
    (s.receive id session' payload).restoredLastSeq id request userId =
      s.restoredLastSeq id request userId := by
  unfold restoredLastSeq
  show max _ ((s.receive id session' payload).previousLastSeq
    (s.registry.heldByOther userId id)) = _
  congr 1
  rcases hheld : s.registry.heldByOther userId id with _ | existing
  · rfl
  · have hne := (SessionRegistry.heldByOther_eq_some.mp hheld).2
    unfold previousLastSeq findSession receive
    simp only [Option.bind_some, Dict.get?_insert_of_ne _ _ hne.symm]

theorem reclaim_registry (s : Server σ) (userId : Str) (id : ℕ) :
    (s.reclaim userId id).registry =
      match s.registry.heldByOther userId id with
      | none => s.registry
      | some existing => s.registry.removeSession existing := by
  unfold reclaim
  rcases s.registry.heldByOther userId id with _ | existing
  · rfl
  · simp only []
    unfold takeOver
    split <;> rfl

variable [InventoryStorage σ]

/-- A packet on a session keeps what sequence numbers have reached, and so it is with the number the
gate leaves the session with. -/
theorem handlePacket_reached {s : Server σ} (hs : Guarded s) {id : ℕ} {header : FrameHeader}
    {payload : Bytes} {now : Time} (hpace : KeepsPace s (.packet id header payload now))
    {session session' : Session} {gated : Gated} (hsession : s.heap[id]? = some session)
    (hg : s.gatePacket session header payload now = (gated, session')) {q : UInt64} {k : ℕ}
    (hq : Reached q k (s.heap.insert id session')) :
    Reached q k (s.handlePacket id header payload now).2.heap := by
  rcases s.handlePacket_effect id header payload now with
    ⟨hnone, -⟩ | ⟨session₁, gated₁, session₁', hsession₁, hg₁, hway⟩
  · rw [hnone] at hsession
    cases hsession
  rw [hsession, Option.some.injEq] at hsession₁
  subst hsession₁
  rw [hg, Prod.mk.injEq] at hg₁
  obtain ⟨rfl, rfl⟩ := hg₁
  rcases hway with ⟨-, h⟩ | ⟨inner, rfl, h⟩
  · exact hq.keeps h.heap.seqs
  rcases effect_steady h with hsteady | ⟨request, userId, t, ht, hre, hreg, hsteady, heq⟩
  · exact hq.keeps hsteady.heap
  rw [heq]
  refine (hq.keeps hsteady.heap).modify ?_
  rintro rfl
  obtain ⟨sec, hun, -, hseq⟩ :=
    (s.gatePacket_seq session header payload now).2 hs.on inner (congrArg Prod.fst hg)
  have hpaced := hpace session sec inner request userId ht hsession hun (congrArg Prod.fst hg)
    ⟨hre.decoded, hre.valid⟩ (by rw [reclaim_registry] at hreg ⊢; exact hreg)
  obtain ⟨n, hn, hle⟩ := hq
  rw [Dict.get?_insert_self, Option.map_some, Option.some.injEq] at hn
  rw [hg] at hseq
  rw [restoredLastSeq_receive]
  exact UInt64.le_trans (UInt64.le_trans hle (UInt64.le_of_eq (hn.symm.trans hseq))) hpaced

theorem Guarded.packet {s : Server σ} (hs : Guarded s) (id : ℕ) (header : FrameHeader)
    (payload : Bytes) (now : Time) : Guarded (s.handlePacket id header payload now).2 := by
  rcases s.handlePacket_effect id header payload now with
    ⟨-, h⟩ | ⟨session, gated, session', hsession, -, hway⟩
  · rwa [h]
  have hreceived : Guarded (s.receive id session' payload) := by
    refine ⟨hs.on, fun k hk => ?_⟩
    rcases (Dict.mem_insert _ _ _ _).mp hk with rfl | hk
    · exact hs.below id ((Dict.mem_iff _ _).mpr ⟨session, hsession⟩)
    · exact hs.below k hk
  rcases hway with ⟨-, h⟩ | ⟨inner, -, h⟩
  · exact hreceived.steady h.steady
  rcases effect_steady h with hsteady | ⟨_, _, t, -, -, -, hsteady, heq⟩
  · exact hreceived.steady hsteady
  · rw [heq]
    have ht := hreceived.steady hsteady
    exact ⟨ht.on, fun k hk => ht.below k ((mem_modifySession ..).mp hk)⟩

theorem Guarded.step {s : Server σ} (hs : Guarded s) (e : ServerEvent) :
    Guarded (serverStep s e) := by
  refine step_preserves (I := Guarded) (fun s s' h hs => hs.steady h.steady)
    (fun s id hs => hs.steady (s.without_steady id)) hs ?_ (fun call _ => ⟨hs.on, hs.below⟩) ?_
  · intro config now
    refine ⟨hs.on, fun k hk => ?_⟩
    show k < s.nextId + 1
    rcases (Dict.mem_insert _ _ _ _).mp hk with heq | hk
    · omega
    · have := hs.below k hk
      omega
  · rintro id header payload now rfl
    exact hs.packet id header payload now

/-- A step that keeps pace keeps what sequence numbers have reached. -/
theorem Reached.step {s : Server σ} (hs : Guarded s) {e : ServerEvent} (hpace : KeepsPace s e)
    {q : UInt64} {k : ℕ} (h : Reached q k s.heap) : Reached q k (serverStep s e).heap := by
  refine step_preserves (I := fun s => Reached q k s.heap) (fun s s' hcalm h => ?_)
    (fun s id h => ?_) h ?_ (fun call _ => h) ?_
  · exact h.keeps hcalm.steady.heap
  · exact h.keeps (s.without_steady id).heap
  · intro config now
    obtain ⟨n, hn, hq⟩ := h
    have hk : k ∈ s.heap := by
      rw [Std.ExtTreeMap.mem_iff_isSome_getElem?, ← Option.isSome_map, hn]
      rfl
    have hlt := hs.below k hk
    refine ⟨n, ?_, hq⟩
    show (s.heap.insert s.nextId (Session.new config now))[k]?.map Session.lastSeq = some n
    rw [Dict.get?_insert_of_ne _ _ (by omega), hn]
  · rintro id header payload now rfl
    rcases hsession : s.heap[id]? with _ | session
    · rcases s.handlePacket_cases id header payload now with ⟨-, heq⟩ | ⟨_, _, hsome, -⟩
      · rwa [heq]
      · rw [hsession] at hsome
        cases hsome
    · exact handlePacket_reached hs hpace hsession rfl
        (h.insert hsession (s.gatePacket_seq session header payload now).1)

/-- A session's sequence number has reached that of a packet it has just admitted. -/
theorem reached_of_admitted {s : Server σ} (hs : Guarded s) {e : ServerEvent}
    (hpace : KeepsPace s e) {id : ℕ} {seq : UInt32} (h : admittedSeq id s e = some seq) :
    Reached seq.toUInt64 id (serverStep s e).heap := by
  obtain ⟨header, payload, now, session, inner, rfl, hsession, -, -, hseq⟩ :=
    admittedSeq_eq_some hs.on h
  rcases hg : s.gatePacket session header payload now with ⟨gated, session'⟩
  rw [hg] at hseq
  refine handlePacket_reached hs hpace hsession hg ⟨seq.toUInt64, ?_, UInt64.le_refl _⟩
  rw [Dict.get?_insert_self, Option.map_some, hseq]

/-- In every run with replay protection whose reconnects keep pace, the sequence numbers admitted on
a session strictly increase. -/
theorem admitted_seqs_increase (inventoryStorage : σ) (securityPolicy : SecurityPolicy)
    (tokenBytes : Draws UInt8) (seeds : Draws { n : UInt32 // n ≠ 0 }) (ticketBytes : Draws UInt8)
    (clock : Draws Time) (hre : securityPolicy.enableReplayProtection = true)
    (es : List ServerEvent)
    (hes : ∀ x ∈ trail serverStep
      (Server.new inventoryStorage securityPolicy tokenBytes seeds ticketBytes clock) es,
      KeepsPace x.1 x.2) (id : ℕ) :
    ((trail serverStep
      (Server.new inventoryStorage securityPolicy tokenBytes seeds ticketBytes clock) es).filterMap
      fun x => admittedSeq id x.1 x.2).Pairwise (· < ·) := by
  have hnew : Guarded
      (Server.new inventoryStorage securityPolicy tokenBytes seeds ticketBytes clock) :=
    ⟨hre, fun k hk => absurd hk ((Dict.not_mem_iff _ _).mpr (Dict.get?_empty k))⟩
  have hrun := pairwise (I := Guarded) (P := KeepsPace)
    (Q := fun s e t => Guarded t ∧ ∀ seq, admittedSeq id s e = some seq →
      Reached seq.toUInt64 id t.heap)
    (fun s e hs _ => hs.step e)
    (fun s e hs he => ⟨hs.step e, fun seq h => reached_of_admitted hs he h⟩)
    (fun s e t f ht hf h => ⟨ht.step f, fun seq hseq => (h.2 seq hseq).step ht hf⟩) es _ hnew hes
  rw [List.pairwise_filterMap]
  refine hrun.imp ?_
  intro x y h seq hseq seq' hseq'
  exact lt_of_reached h.1 (h.2 seq hseq) hseq'

/-- A signed packet on session 1. -/
def signedPacket (type : PacketType) (seq : UInt32) (nonce : UInt64) (payload : Bytes) :
    ServerEvent :=
  packetOf 1 type (wrapSecurePayload seq nonce (str "dev-secret") payload)

/-- A login, a reconnect of the session to itself that tells the number it has last seen, and a
logout. -/
def reconnectedAt (lastSeq seq : UInt32) : List ServerEvent :=
  [.createSession {} 0,
    signedPacket .loginReq 5 1 (encodeLoginRequest ⟨str "u", str "letmein"⟩),
    signedPacket .sessionReconnectReq 6 2
      (encodeSessionReconnectRequest ⟨List.replicate 32 48, lastSeq⟩),
    signedPacket .logoutReq seq 3 (encodeLogoutRequest {})]

theorem admitted_seqs_increase_reconnected :
    ((trail serverStep (still { enableReplayProtection := true }) (reconnectedAt 6 7)).filterMap
      fun x => admittedSeq 1 x.1 x.2).Pairwise (· < ·) := by
  refine admitted_seqs_increase _ _ _ _ _ _ rfl (reconnectedAt 6 7) ?_ 1
  simp only [reconnectedAt, signedPacket, packetOf, trail, List.forall_mem_cons]
  refine ⟨trivial, ?_, ?_, ?_, by simp⟩
  · intro _ _ _ _ _ ht
    exact absurd ht (by decide)
  · intro _ sec inner request userId _ _ hun _ hre _
    have hseq : (unwrapSecurePayload (wrapSecurePayload 6 2 (str "dev-secret")
        (encodeSessionReconnectRequest ⟨List.replicate 32 48, 6⟩))).toOption.map
        (fun p => (p.1.seq, (decodeSessionReconnectRequest p.2).toOption.map (·.lastSeq))) =
        some (6, some 6) := by
      decide +kernel
    rw [hun] at hseq
    simp only [Except.toOption, Option.map_some, hre.decoded, Option.some.injEq,
      Prod.mk.injEq] at hseq
    rw [hseq.1, ← hseq.2]
    exact lastSeq_le_restored ..
  · intro _ _ _ _ _ ht
    exact absurd ht (by decide)

/-- A session whose reconnect at 6 says it has last seen 0 admits 1 next. -/
theorem reconnect_readmits :
    ¬ ∀ (securityPolicy : SecurityPolicy) (es : List ServerEvent) (id : ℕ),
      securityPolicy.enableReplayProtection = true →
      ((trail serverStep (still securityPolicy) es).filterMap
        fun x => admittedSeq id x.1 x.2).Pairwise (· < ·) := by
  intro h
  have hrun := h { requireHmac := true, enableReplayProtection := true } (reconnectedAt 0 1) 1 rfl
  exact absurd hrun (by decide +kernel)

end Runs

end Server

end DungeonHub
