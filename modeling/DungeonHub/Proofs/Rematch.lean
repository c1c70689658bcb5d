import DungeonHub.Proofs.Chat
import DungeonHub.Proofs.Result

/-!
# Matches while an instance is unfinished

A match request asks nothing of the instances that the members of its party are bound to, and binds
every member the server knows to a new one.
-/

namespace DungeonHub

open Run Wire InstanceManager

/-- Waiting, ready or playing. -/
def InstanceState.Unfinished (a : InstanceState) : Prop :=
  a = .waiting ∨ a = .ready ∨ a = .playing

instance (a : InstanceState) : Decidable a.Unfinished := by
  unfold InstanceState.Unfinished
  infer_instance

theorem InstanceManager.Edge.unfinished {a b : InstanceState} (h : Edge a b)
    (hb : b.Unfinished) : a.Unfinished := by
  revert h hb
  cases a <;> cases b <;> decide

namespace Server

variable {σ : Type}

section Binding

/-- The session is a member's, and the server knows it. -/
def Reaches (s : Server σ) (members : List PartyMember) (k : ℕ) : Prop :=
  (∃ member ∈ members, member.sessionId = k) ∧ (s.findSession k).isSome

/-- What binding members to an instance changes: the bindings of the sessions the server knows, and
what those are sent that did not ask. -/
structure Binds (instanceId : ℕ) (asked : ℕ → Bool) (members : List PartyMember)
    (s s' : Server σ) : Prop where
  found : ∀ k, (s'.findSession k).isSome = (s.findSession k).isSome
  bound : ∀ k, Reaches s members k → s'.sessionInstances[k]? = some instanceId
  unbound : ∀ k, ¬ Reaches s members k → s'.sessionInstances[k]? = s.sessionInstances[k]?
  silent : ∀ k, ¬ Reaches s members k ∨ asked k = true → s'.heap[k]? = s.heap[k]?

variable {instanceId : ℕ} {asked : ℕ → Bool} {s s' s'' : Server σ}

theorem reaches_append {members members' : List PartyMember} {k : ℕ} :
    Reaches s (members ++ members') k ↔ Reaches s members k ∨ Reaches s members' k := by
  unfold Reaches
  rw [← or_and_right]
  simp only [List.mem_append, or_and_right, exists_or]

theorem Binds.trans {members members' : List PartyMember}
    (h : Binds instanceId asked members s s') (h' : Binds instanceId asked members' s' s'') :
    Binds instanceId asked (members ++ members') s s'' := by
  have hreaches : ∀ k, Reaches s' members' k ↔ Reaches s members' k := by
    intro k
    unfold Reaches
    rw [h.found]
  refine ⟨fun k => (h'.found k).trans (h.found k), fun k hk => ?_, fun k hk => ?_,
    fun k hk => ?_⟩
  · by_cases hlast : Reaches s members' k
    · exact h'.bound k ((hreaches k).mpr hlast)
    · rw [h'.unbound k fun hno => hlast ((hreaches k).mp hno)]
      exact h.bound k ((reaches_append.mp hk).resolve_right hlast)
  · rw [reaches_append, not_or] at hk
    rw [h'.unbound k fun hno => hk.2 ((hreaches k).mp hno), h.unbound k hk.1]
  · rw [reaches_append, not_or, ← hreaches] at hk
    exact (h'.silent k (hk.imp_left And.right)).trans (h.silent k (hk.imp_left And.left))

theorem findSession_isSome (s : Server σ) (k : ℕ) :
    (s.findSession k).isSome = true ↔ k ∈ s.sessions ∧ k ∈ s.heap := by
  rw [Option.isSome_iff_exists, Dict.mem_iff s.heap, ← exists_and_left]
  exact exists_congr fun _ => findSession_eq_some

theorem Delivers.findSession_isSome (h : Delivers s s') (k : ℕ) :
    (s'.findSession k).isSome = (s.findSession k).isSome := by
  obtain ⟨heap, clock, rfl, hkeeps⟩ := h
  rw [Bool.eq_iff_iff, Server.findSession_isSome, Server.findSession_isSome]
  exact and_congr_right fun _ => hkeeps.mem k

theorem bindMember_binds (s : Server σ) (frame : Bytes) (member : PartyMember) :
    Binds instanceId asked [member] s (s.bindMember instanceId frame asked member) := by
  have hreaches : ∀ k, Reaches s [member] k ↔
      member.sessionId = k ∧ (s.findSession member.sessionId).isSome := by
    intro k
    unfold Reaches
    simp only [List.mem_singleton, exists_eq_left]
    exact and_congr_right fun h => by rw [h]
  unfold bindMember
  rcases hf : s.findSession member.sessionId with _ | session
  · have hno : ∀ k, ¬ Reaches s [member] k := by
      intro k hk
      rw [hreaches, hf] at hk
      cases hk.2
    exact ⟨fun _ => rfl, fun k hk => absurd hk (hno k), fun _ _ => rfl, fun _ _ => rfl⟩
  simp only [hf, Option.isSome_some, and_true] at hreaches
  have hbound : ∀ k, Reaches s [member] k →
      (s.sessionInstances.insert member.sessionId instanceId)[k]? = some instanceId := by
    intro k hk
    rw [(hreaches k).mp hk, Dict.get?_insert_self]
  have hunbound : ∀ k, ¬ Reaches s [member] k →
      (s.sessionInstances.insert member.sessionId instanceId)[k]? = s.sessionInstances[k]? :=
    fun k hk => Dict.get?_insert_of_ne _ _ fun h => hk ((hreaches k).mpr h)
  simp only []
  split_ifs with hasked
  · exact ⟨fun _ => rfl, hbound, hunbound, fun _ _ => rfl⟩
  · have hdelivers := deliver_delivers { s with
      sessionInstances := s.sessionInstances.insert member.sessionId instanceId } member.sessionId
      fun _ => frame
    obtain ⟨heap, clock, h, -⟩ := id hdelivers
    refine ⟨hdelivers.findSession_isSome, fun k hk => ?_, fun k hk => ?_, fun k hk => ?_⟩
    · rw [h]
      exact hbound k hk
    · rw [h]
      exact hunbound k hk
    · refine deliver_other (fun _ => frame) _ _ k ?_
      rintro rfl
      rcases hk with hk | hk
      · exact hk ((hreaches _).mpr rfl)
      · exact hasked hk

theorem foldl_bindMember_binds (instanceId : ℕ) (asked : ℕ → Bool) (frame : Bytes) :
    ∀ (members : List PartyMember) (s : Server σ), Binds instanceId asked members s
      (members.foldl (fun s member => s.bindMember instanceId frame asked member) s)
  | [], s => by
    have hno : ∀ k, ¬ Reaches s [] k := fun k hk => by
      obtain ⟨⟨_, hmem, -⟩, -⟩ := hk
      cases hmem
    exact ⟨fun _ => rfl, fun k hk => absurd hk (hno k), fun _ _ => rfl, fun _ _ => rfl⟩
  | member :: members, s =>
    (s.bindMember_binds frame member).trans
      (foldl_bindMember_binds instanceId asked frame members _)

end Binding

section Requests

variable [InventoryStorage σ] {s s' : Server σ} {id : ℕ} {header : FrameHeader}
  {payload : Bytes} {now : Time}

omit [InventoryStorage σ] in
/-- A match request that passes all checks and is let through for the party. -/
structure Granted (s : Server σ) (id : ℕ) (header : FrameHeader) (payload : Bytes) (now : Time)
    (partyId : ℕ) (info : PartyInfo) : Prop where
  type : PacketType.ofCode header.type = some .matchReq
  reached : ∃ session session' body, s.heap[id]? = some session ∧
    s.gatePacket session header payload now = (.passed body, session') ∧
    s.checkMatch id body = .ok (partyId, info)
  size : info.members.length ≤ s.matchQueue.rule.maxPartySize

omit [InventoryStorage σ] in
theorem Granted.info {partyId : ℕ} {info : PartyInfo}
    (h : Granted s id header payload now partyId info) :
    s.partyService.getPartyInfo partyId = some info := by
  obtain ⟨_, _, _, -, -, hc⟩ := h.reached
  obtain ⟨_, -, -, -, hinfo, -⟩ := checkMatch_eq_ok.mp hc
  exact hinfo

omit [InventoryStorage σ] in
/-- No match is made, and nothing is sent. -/
structure Stays (s s' : Server σ) : Prop where
  bound : s'.sessionInstances = s.sessionInstances
  instances : s'.instanceManager = s.instanceManager
  silent : Keeps Session.sendQueue s.heap s'.heap

omit [InventoryStorage σ] in
/-- A new instance is made for the party, and its members bound to it and told of it. -/
structure Makes (id partyId : ℕ) (info : PartyInfo) (s s' : Server σ) : Prop where
  instances : s'.instanceManager = (s.instanceManager.createInstance partyId s.partyService).2
  bound : ∀ k, Reaches s info.members k →
    s'.sessionInstances[k]? = some s.instanceManager.nextInstanceId
  unbound : ∀ k, ¬ Reaches s info.members k → s'.sessionInstances[k]? = s.sessionInstances[k]?
  silent : ∀ k : ℕ, ¬ Reaches s info.members k ∨ k = id →
    s'.heap[k]?.map Session.sendQueue = s.heap[k]?.map Session.sendQueue

omit [InventoryStorage σ] in
theorem matched_binds (s : Server σ) (id : ℕ) {partyId : ℕ} {info : PartyInfo} (version : UInt16)
    (hinfo : s.partyService.getPartyInfo partyId = some info) :
    (s.matched id partyId version).1.success = true ∧
    ∃ base : Server σ, base.heap = s.heap ∧ base.sessions = s.sessions ∧
      base.sessionInstances = s.sessionInstances ∧
      Binds s.instanceManager.nextInstanceId (fun member => decide (member = id)) info.members base
        (s.matched id partyId version).2 := by
  unfold matched openInstance
  simp only [hinfo]
  refine ⟨trivial, _, ?_, ?_, ?_, foldl_bindMember_binds _ _ _ info.members _⟩
  · rfl
  · rfl
  · rfl

omit [InventoryStorage σ] in
theorem Binds.makes {base : Server σ} {partyId : ℕ} {info : PartyInfo}
    (h : Binds s.instanceManager.nextInstanceId (fun member => decide (member = id)) info.members
      base s')
    (hheap : Keeps Session.sendQueue s.heap base.heap) (hsessions : base.sessions = s.sessions)
    (hbound : base.sessionInstances = s.sessionInstances)
    (hinstances : s'.instanceManager =
      (s.instanceManager.createInstance partyId s.partyService).2) :
    Makes id partyId info s s' := by
  have hreaches : ∀ k, Reaches base info.members k ↔ Reaches s info.members k := by
    intro k
    unfold Reaches
    rw [findSession_isSome, findSession_isSome, hsessions, hheap.mem]
  refine ⟨hinstances, fun k hk => h.bound k ((hreaches k).mpr hk), fun k hk => ?_, fun k hk => ?_⟩
  · rw [h.unbound k fun hno => hk ((hreaches k).mp hno), hbound]
  · rw [h.silent k (hk.imp (fun hno hb => hno ((hreaches k).mp hb)) decide_eq_true)]
    exact hheap k

omit [InventoryStorage σ] in
theorem receive_stays {session session' : Session} {gated : Gated}
    (hs : s.heap[id]? = some session)
    (hg : s.gatePacket session header payload now = (gated, session')) :
    Stays s (s.receive id session' payload) :=
  ⟨rfl, rfl, fun k => by rw [arrived_eq hs hg, arrived_sendQueue]⟩

omit [InventoryStorage σ] in
theorem checkMatch_receive {session session' : Session} (hs : s.heap[id]? = some session)
    (hu : session'.userContext = session.userContext) (payload body : Bytes) :
    (s.receive id session' payload).checkMatch id body = s.checkMatch id body := by
  unfold checkMatch
  rw [(s.receive_calm payload hs hu).userContext]
  rfl

/-- A match request makes a match if it is granted, and nothing of the kind otherwise. -/
theorem Idle.match_packet (hs : Idle s) (ht : PacketType.ofCode header.type = some .matchReq) :
    (∃ partyId info, Granted s id header payload now partyId info ∧
      (∃ response, (s.answerPacket id header payload now).1 =
        some ⟨.matchFoundNotify, response⟩ ∧ response.success = true) ∧
      Makes id partyId info s (s.answerPacket id header payload now).2) ∨
    ((∀ partyId info, ¬ Granted s id header payload now partyId info) ∧
      (∀ response, (s.answerPacket id header payload now).1 =
        some ⟨.matchFoundNotify, response⟩ → response.success = false) ∧
      Stays s (s.answerPacket id header payload now).2) := by
  rcases hsession : s.heap[id]? with _ | session
  · refine .inr ⟨fun partyId info h => ?_, ?_⟩
    · obtain ⟨_, _, _, hno, -⟩ := h.reached
      rw [hsession] at hno
      cases hno
    · unfold answerPacket
      rw [hsession]
      exact ⟨nofun, rfl, rfl, fun _ => rfl⟩
  have hreached : ∀ {gated session' partyId info},
      s.gatePacket session header payload now = (gated, session') →
      Granted s id header payload now partyId info →
      ∃ body, gated = .passed body ∧ s.checkMatch id body = .ok (partyId, info) := by
    intro gated session' partyId info hg h
    exact (exists_passed_iff hsession hg).mp h.reached
  have hu := s.gatePacket_userContext session header payload now
  rw [answerPacket_of_some hsession]
  rcases hg : s.gatePacket session header payload now with ⟨_ | reject | body, session'⟩
  · have hstays := receive_stays hsession hg
    refine .inr ⟨fun partyId info h => ?_, nofun, hstays.bound, hstays.instances, hstays.silent⟩
    obtain ⟨_, hno, -⟩ := hreached hg h
    cases hno
  · have hstays := receive_stays hsession hg
    refine .inr ⟨fun partyId info h => ?_, nofun, hstays.bound, hstays.instances, hstays.silent⟩
    obtain ⟨_, hno, -⟩ := hreached hg h
    cases hno
  rw [hg] at hu
  have hstays := receive_stays hsession hg
  have hcheck := checkMatch_receive hsession hu payload body
  simp only [dispatch_match ht]
  rcases ((s.receive_apart id session' payload).serves.idle hs).handleMatch_cases id
    header.version body now with ⟨response, h, hno, -, hlarge⟩ | ⟨partyId, info, hc, hsize, h⟩
  · rw [h]
    refine .inr ⟨fun partyId info hgranted => ?_, ?_, hstays.bound, hstays.instances,
      hstays.silent⟩
    · obtain ⟨_, heq, hc⟩ := hreached hg hgranted
      cases heq
      exact absurd hgranted.size (Nat.not_le.mpr (hlarge partyId info (hcheck.trans hc)))
    · rintro _ ⟨⟩
      exact hno
  · rw [hcheck] at hc
    have hgranted : Granted s id header payload now partyId info :=
      ⟨ht, ⟨session, session', body, hsession, hg, hc⟩, hsize⟩
    obtain ⟨hsuccess, base, hheap, hsessions, hbound, hbinds⟩ :=
      (s.receive id session' payload).matched_binds id header.version hgranted.info
    rw [h]
    refine .inl ⟨partyId, info, hgranted, ⟨_, rfl, hsuccess⟩, ?_⟩
    refine hbinds.makes (s := s) (hheap ▸ hstays.silent) hsessions hbound ?_
    obtain ⟨_, _, _, _, _, _, _, hm⟩ :=
      (s.receive id session' payload).matched_spec id partyId header.version
    rw [hm]
    rfl

omit [InventoryStorage σ] in
theorem Granted.unique {partyId partyId' : ℕ} {info info' : PartyInfo}
    (h : Granted s id header payload now partyId info)
    (h' : Granted s id header payload now partyId' info') : partyId = partyId' ∧ info = info' := by
  obtain ⟨session, session', body, hs, hg, hc⟩ := h.reached
  obtain ⟨_, hbody, hc'⟩ := (exists_passed_iff hs hg).mp h'.reached
  cases hbody
  rw [hc, Except.ok.injEq, Prod.mk.injEq] at hc'
  exact hc'

theorem match_calm (s : Server σ) (id : ℕ) (payload : Bytes) (now : Time)
    (ht : PacketType.ofCode header.type = some .matchReq) :
    Calm Session.userContext s (s.answerPacket id header payload now).2 := by
  rcases hsession : s.heap[id]? with _ | session
  · unfold answerPacket
    rw [hsession]
    exact .refl _ s
  have hu := s.gatePacket_userContext session header payload now
  rw [answerPacket_of_some hsession]
  rcases hg : s.gatePacket session header payload now with ⟨_ | reject | body, session'⟩
  · rw [hg] at hu
    exact (s.receive_calm payload hsession hu).trans (countError_calm _).users
  · rw [hg] at hu
    exact (s.receive_calm payload hsession hu).trans (countError_calm _).users
  · rw [hg] at hu
    simp only [dispatch_match ht]
    exact (s.receive_calm payload hsession hu).trans (handleMatch_calm ..).users

end Requests

section Exclusive

variable [InventoryStorage σ] {s : Server σ} {id : ℕ} {header : FrameHeader} {payload : Bytes}
  {now : Time}

/-- The session is bound to the instance, which is unfinished. -/
def Engaged (s : Server σ) (k i : ℕ) : Prop :=
  s.sessionInstances[k]? = some i ∧
    ∃ record, s.instanceManager.instances[i]? = some record ∧ record.state.Unfinished

/-- The packet leaves the session bound to the instance, tells it of no match, and takes away no
result that it can report of the instance. -/
structure Leaves (s : Server σ) (id : ℕ) (header : FrameHeader) (payload : Bytes) (now : Time)
    (k i : ℕ) : Prop where
  bound : (s.handlePacket id header payload now).2.sessionInstances[k]? = some i
  silent : (s.handlePacket id header payload now).2.heap[k]?.map Session.sendQueue =
    s.heap[k]?.map Session.sendQueue
  answer : k = id → ∀ response, (s.answerPacket id header payload now).1 =
    some ⟨.matchFoundNotify, response⟩ → response.success = false
  result : ∀ body request record, Ends s k body request i record →
    Ends (s.handlePacket id header payload now).2 k body request i record

/-- The packet leaves every session alone that is bound to an unfinished instance. -/
def Exclusive (s : Server σ) (id : ℕ) (header : FrameHeader) (payload : Bytes) (now : Time) :
    Prop :=
  ∀ k i, Engaged s k i → Leaves s id header payload now k i

omit [InventoryStorage σ] in
/-- A request that is granted though the session that asks, or a member that the server knows, is
bound to an unfinished instance. -/
def Rematches (s : Server σ) (id : ℕ) (header : FrameHeader) (payload : Bytes) (now : Time) :
    Prop :=
  ∃ partyId info k i, Granted s id header payload now partyId info ∧
    (Reaches s info.members k ∨ k = id) ∧ Engaged s k i

theorem leaves_of_kept {k i : ℕ} (hi : s.sessionInstances[k]? = some i)
    (hcalm : Calm Session.userContext s (s.handlePacket id header payload now).2)
    (hbound : (s.handlePacket id header payload now).2.sessionInstances[k]? =
      s.sessionInstances[k]?)
    (hsilent : (s.handlePacket id header payload now).2.heap[k]?.map Session.sendQueue =
      s.heap[k]?.map Session.sendQueue)
    (hinst : ∀ record, s.instanceManager.instances[i]? = some record →
      (s.handlePacket id header payload now).2.instanceManager.instances[i]? = some record)
    (hanswer : k = id → ∀ response, (s.answerPacket id header payload now).1 =
      some ⟨.matchFoundNotify, response⟩ → response.success = false) :
    Leaves s id header payload now k i := by
  refine ⟨hbound.trans hi, hsilent, hanswer, fun body request record hends => ?_⟩
  refine ⟨hends.decoded, ?_, hbound.trans hi, hinst record hends.inst, hends.playing, ?_⟩
  · rw [hcalm.userContext]
    exact hends.user
  · rw [hcalm.grants]
    exact hends.fresh

/-- A match request leaves those alone that are bound to an unfinished instance, unless it makes
one of them a new match. -/
theorem Idle.exclusive_iff (hs : Idle s) (ht : PacketType.ofCode header.type = some .matchReq) :
    Exclusive s id header payload now ↔ ¬ Rematches s id header payload now := by
  have hcalm := s.match_calm id payload now ht
  rcases hs.match_packet ht with
    ⟨partyId, info, hgranted, ⟨response, hanswer, hsuccess⟩, hmakes⟩ | ⟨hno, hanswer, hstays⟩
  · constructor
    · rintro hexclusive ⟨_, _, k, i, hgranted', hk, hengaged⟩
      obtain ⟨rfl, rfl⟩ := hgranted.unique hgranted'
      have hleaves := hexclusive k i hengaged
      rcases hk with hk | rfl
      · have hbound := (hmakes.bound k hk).symm.trans hleaves.bound
        rw [Option.some.injEq] at hbound
        obtain ⟨-, record, hrecord, -⟩ := hengaged
        exact absurd (hs.below i ((Dict.mem_iff _ _).mpr ⟨record, hrecord⟩))
          (hbound ▸ Nat.lt_irrefl _)
      · rw [hleaves.answer rfl response hanswer] at hsuccess
        cases hsuccess
    · intro hno k i hengaged
      have hk : ¬ Reaches s info.members k ∧ k ≠ id :=
        not_or.mp fun hk => hno ⟨partyId, info, k, i, hgranted, hk, hengaged⟩
      refine leaves_of_kept hengaged.1 hcalm (hmakes.unbound k hk.1)
        (hmakes.silent k (.inl hk.1)) (fun record hrecord => ?_) fun heq => absurd heq hk.2
      have hin : i ∈ s.instanceManager.instances := (Dict.mem_iff _ _).mpr ⟨record, hrecord⟩
      show (s.answerPacket id header payload now).2.instanceManager.instances[i]? = _
      rw [hmakes.instances]
      unfold createInstance
      rw [hgranted.info]
      show (s.instanceManager.instances.insertIfNew s.instanceManager.nextInstanceId _)[i]? = _
      rw [Dict.insertIfNew_of_not_mem _ _ fun hmem => Nat.lt_irrefl _ (hs.below _ hmem),
        Dict.get?_insert_of_ne _ _ (hs.below i hin).ne', hrecord]
  · refine iff_of_true (fun k i hengaged => ?_) ?_
    · refine leaves_of_kept hengaged.1 hcalm (congrArg (·[k]?) hstays.bound) (hstays.silent k)
        (fun record hrecord => ?_) fun _ => hanswer
      show (s.answerPacket id header payload now).2.instanceManager.instances[i]? = _
      rw [hstays.instances, hrecord]
    · rintro ⟨partyId, info, -, -, hgranted, -⟩
      exact hno partyId info hgranted

end Exclusive

section Solo

/-- No party has two unfinished instances. -/
def Solo (m : InstanceManager) : Prop :=
  ∀ (i j : ℕ) (a b : InstanceRecord), m.instances[i]? = some a → m.instances[j]? = some b →
    a.partyId = b.partyId → a.state.Unfinished → b.state.Unfinished → i = j

/-- No instance is new, and none is unfinished that was finished. -/
def Wanes (m m' : InstanceManager) : Prop :=
  ∀ (i : ℕ) (record' : InstanceRecord), m'.instances[i]? = some record' →
    ∃ record : InstanceRecord, m.instances[i]? = some record ∧ record.partyId = record'.partyId ∧
      (record'.state.Unfinished → record.state.Unfinished)

variable {m m' : InstanceManager} {s : Server σ}

theorem Wanes.refl (m : InstanceManager) : Wanes m m := fun _ record h => ⟨record, h, rfl, id⟩

theorem Wanes.of_eq (h : m' = m) : Wanes m m' := h ▸ .refl m

theorem Wanes.solo (h : Wanes m m') (hm : Solo m) : Solo m' := by
  intro i j a' b' hi hj hparty ha hb
  obtain ⟨a, hi, hpa, hua⟩ := h i a' hi
  obtain ⟨b, hj, hpb, hub⟩ := h j b' hj
  exact hm i j a b hi hj (hpa.trans (hparty.trans hpb.symm)) (hua ha) (hub hb)

theorem wanes_insert {i : ℕ} {record : InstanceRecord} {next : InstanceState}
    (hr : m.instances[i]? = some record) (h : next.Unfinished → record.state.Unfinished) :
    Wanes m { m with instances := m.instances.insert i { record with state := next } } := by
  intro j record' hj
  change (m.instances.insert i { record with state := next })[j]? = some record' at hj
  rw [Dict.get?_insert] at hj
  split_ifs at hj with hij
  · cases hj
    exact ⟨record, hij ▸ hr, rfl, h⟩
  · exact ⟨record', hj, rfl, id⟩

theorem requestTransition_wanes (m : InstanceManager) (i : ℕ) (next : InstanceState)
    (partyService : PartyService) : Wanes m (m.requestTransition i next partyService).2 := by
  rcases m.requestTransition_cases partyService i next with ⟨record, hr, hedge, -, h⟩ | ⟨-, h⟩
  · rw [h]
    exact wanes_insert hr hedge.unfinished
  · rw [h]
    exact .refl m

theorem terminateInstance_wanes (m : InstanceManager) (i : ℕ) :
    Wanes m (m.terminateInstance i).2 := by
  unfold terminateInstance
  split
  · exact .refl m
  · rename_i record hr
    exact wanes_insert hr fun h => absurd h (by decide)

theorem handleReconnect_instances (s : Server σ) (id : ℕ) (payload : Bytes) (now : Time) :
    (s.handleReconnect id payload now).2.instanceManager = s.instanceManager := by
  have hreclaim : ∀ userId, (s.reclaim userId id).instanceManager = s.instanceManager := by
    intro userId
    unfold reclaim
    split
    · rfl
    · unfold takeOver
      split
      · rfl
      · rfl
  rcases s.handleReconnect_refused id payload now with ⟨-, _, -, h⟩ | ⟨request, userId, h⟩
  · rw [h]
    rfl
  · rw [handleReconnect_of_valid h]
    split_ifs
    · exact hreclaim userId
    · exact hreclaim userId

theorem handleEnter_wanes (s : Server σ) (id : ℕ) (payload : Bytes) :
    Wanes s.instanceManager (s.handleEnter id payload).2.instanceManager := by
  unfold handleEnter
  split
  · exact .refl _
  · rename_i request _
    have hwanes := requestTransition_wanes s.instanceManager request.instanceId.toNat .ready
      s.partyService
    simp only []
    split
    · exact .refl _
    · rename_i instanceManager hr
      rw [hr] at hwanes
      exact hwanes

theorem tick_instances (s : Server σ) (now : Time) :
    (s.tick now).instanceManager = s.instanceManager :=
  List.foldlRecOn (motive := fun t : Server σ => t.instanceManager = s.instanceManager) _ _
    (s.tickSessions_apart now).instances
    fun t ht id _ => (t.removeSession_delivers id).apart.instances.trans ht

variable [InventoryStorage σ]

theorem handleResult_wanes (s : Server σ) (id : ℕ) (payload : Bytes) :
    Wanes s.instanceManager (s.handleResult id payload).2.instanceManager := by
  rcases s.handleResult_cases id payload with
    ⟨request, instanceId, record, next, hends, hnext, h⟩ | ⟨-, -, h⟩
  · rw [h, grantResult_instances]
    refine wanes_insert hends.inst fun hno => ?_
    rcases hnext with rfl | rfl
    · exact absurd hno (by decide)
    · exact absurd hno (by decide)
  · rw [h]
    exact .refl _

theorem dispatch_wanes (s : Server σ) (id : ℕ) {header : FrameHeader} (body : Bytes) (now : Time)
    (ht : PacketType.ofCode header.type ≠ some .matchReq) :
    Wanes s.instanceManager (s.dispatch id header body now).2.instanceManager := by
  unfold dispatch
  split
  · exact .of_eq (s.handleLogin_spares id body now).apart.instances
  · exact .of_eq (s.handleLogout_spares id body).apart.instances
  · exact .of_eq (s.handleReconnect_instances id body now)
  · rename_i hmatch
    exact absurd hmatch ht
  · exact s.handleEnter_wanes id body
  · exact s.handleResult_wanes id body
  · exact .of_eq (s.handleInventoryUpdate_apart id body).instances
  · exact .of_eq (s.handleGuildCreate_apart id body).instances
  · exact .of_eq (s.handleGuildJoin_apart id body).instances
  · exact .of_eq (s.handleGuildLeave_apart id body).instances
  · exact .of_eq (s.handleChat_apart id body).instances
  · exact .refl _

/-- The event makes a new instance for the party. -/
def Opens (s : Server σ) (e : ServerEvent) (partyId : ℕ) : Prop :=
  (∃ id header payload now info, e = .packet id header payload now ∧
    Granted s id header payload now partyId info) ∨
  (e = .inst (.createInstance partyId) ∧ (s.partyService.getPartyInfo partyId).isSome)

/-- The event makes a new instance for a party that has an unfinished one. -/
def Doubles (s : Server σ) (e : ServerEvent) : Prop :=
  ∃ (partyId i : ℕ) (record : InstanceRecord), Opens s e partyId ∧
    s.instanceManager.instances[i]? = some record ∧ record.partyId = partyId ∧ record.state.Unfinished

omit [InventoryStorage σ] in
theorem Opens.unique {e : ServerEvent} {partyId partyId' : ℕ} (h : Opens s e partyId)
    (h' : Opens s e partyId') : partyId = partyId' := by
  rcases h with ⟨id, header, payload, now, info, rfl, h⟩ | ⟨rfl, -⟩
  · rcases h' with ⟨_, _, _, _, info', heq, h'⟩ | ⟨heq, -⟩
    · cases heq
      exact (h.unique h').1
    · cases heq
  · rcases h' with ⟨_, _, _, _, _, heq, -⟩ | ⟨heq, -⟩
    · cases heq
    · cases heq
      rfl

omit [InventoryStorage σ] in
theorem Idle.createInstance_eq (hs : Idle s) {partyId : ℕ}
    (h : (s.partyService.getPartyInfo partyId).isSome) :
    (s.instanceManager.createInstance partyId s.partyService).2.instances =
      s.instanceManager.instances.insert s.instanceManager.nextInstanceId
        ⟨s.instanceManager.nextInstanceId, partyId, .waiting⟩ := by
  obtain ⟨info, hinfo⟩ := Option.isSome_iff_exists.mp h
  unfold createInstance
  rw [hinfo]
  exact Dict.insertIfNew_of_not_mem _ _ fun hmem => Nat.lt_irrefl _ (hs.below _ hmem)

theorem Idle.packet_instances (hs : Idle s) (id : ℕ) (header : FrameHeader) (payload : Bytes)
    (now : Time) :
    (∃ partyId info, Granted s id header payload now partyId info ∧
      (s.answerPacket id header payload now).2.instanceManager =
        (s.instanceManager.createInstance partyId s.partyService).2) ∨
    ((∀ partyId info, ¬ Granted s id header payload now partyId info) ∧
      Wanes s.instanceManager (s.answerPacket id header payload now).2.instanceManager) := by
  by_cases ht : PacketType.ofCode header.type = some .matchReq
  · rcases hs.match_packet ht with ⟨partyId, info, hgranted, -, hmakes⟩ | ⟨hno, -, hstays⟩
    · exact .inl ⟨partyId, info, hgranted, hmakes.instances⟩
    · exact .inr ⟨hno, .of_eq hstays.instances⟩
  · refine .inr ⟨fun _ _ h => ht h.type, ?_⟩
    unfold answerPacket
    split
    · exact .refl _
    · split
      · exact .refl _
      · exact .refl _
      · exact dispatch_wanes _ id _ now ht

/-- A step makes one instance, waiting, or at most finishes some. -/
theorem Idle.step_instances (hs : Idle s) (e : ServerEvent) :
    (∃ partyId, Opens s e partyId ∧ (serverStep s e).instanceManager.instances =
      s.instanceManager.instances.insert s.instanceManager.nextInstanceId
        ⟨s.instanceManager.nextInstanceId, partyId, .waiting⟩) ∨
    ((∀ partyId, ¬ Opens s e partyId) ∧
      Wanes s.instanceManager (serverStep s e).instanceManager) := by
  have hopens : ∀ {P : Prop}, (∀ id header payload now, e ≠ .packet id header payload now) →
      (∀ partyId, e ≠ .inst (.createInstance partyId)) → P →
      (∀ partyId, ¬ Opens s e partyId) ∧ P := by
    intro P hpacket hcreate hP
    refine ⟨?_, hP⟩
    rintro partyId (⟨id, header, payload, now, _, heq, -⟩ | ⟨heq, -⟩)
    · exact hpacket id header payload now heq
    · exact hcreate partyId heq
  cases e with
  | packet id header payload now =>
    rcases hs.packet_instances id header payload now with ⟨partyId, info, h, heq⟩ | ⟨hno, h⟩
    · refine .inl ⟨partyId, .inl ⟨id, header, payload, now, info, rfl, h⟩, ?_⟩
      rw [← hs.createInstance_eq (Option.isSome_iff_exists.mpr ⟨info, h.info⟩), ← heq]
      rfl
    · refine .inr ⟨?_, h⟩
      rintro partyId (⟨_, _, _, _, info, heq, h'⟩ | ⟨heq, -⟩)
      · cases heq
        exact hno partyId info h'
      · cases heq
  | inst call =>
    cases call with
    | createInstance partyId =>
      by_cases hparty : (s.partyService.getPartyInfo partyId).isSome
      · exact .inl ⟨partyId, .inr ⟨rfl, hparty⟩, hs.createInstance_eq hparty⟩
      · refine .inr ⟨?_, .of_eq ?_⟩
        · rintro _ (⟨_, _, _, _, _, heq, -⟩ | ⟨heq, h⟩)
          · cases heq
          · cases heq
            exact hparty h
        · show (s.instanceManager.createInstance partyId s.partyService).2 = _
          unfold createInstance
          rw [Option.not_isSome_iff_eq_none.mp hparty]
    | terminateInstance i => exact .inr (hopens nofun nofun (terminateInstance_wanes _ i))
    | requestTransition i next =>
      exact .inr (hopens nofun nofun (requestTransition_wanes _ i next s.partyService))
  | createSession config now => exact .inr (hopens nofun nofun (.refl _))
  | tick now => exact .inr (hopens nofun nofun (.of_eq (s.tick_instances now)))
  | removeSession id =>
    exact .inr (hopens nofun nofun (.of_eq (s.removeSession_delivers id).apart.instances))
  | forceDisconnect id =>
    refine .inr (hopens nofun nofun (.of_eq ?_))
    show (s.forceDisconnect id).2.instanceManager = _
    unfold forceDisconnect
    split
    · rfl
    · exact (s.removeSession_delivers id).apart.instances
  | party call => exact .inr (hopens nofun nofun (.refl _))
  | session id call => exact .inr (hopens nofun nofun (.refl _))

theorem Idle.solo_step (hs : Idle s) {e : ServerEvent} (h : Solo s.instanceManager)
    (hno : ¬ Doubles s e) : Solo (serverStep s e).instanceManager := by
  rcases hs.step_instances e with ⟨partyId, hopens, hinst⟩ | ⟨-, hwanes⟩
  · have hnew : ∀ (i : ℕ) (a : InstanceRecord),
        (serverStep s e).instanceManager.instances[i]? = some a → a.state.Unfinished →
        (i = s.instanceManager.nextInstanceId ∧ a.partyId = partyId) ∨
          (s.instanceManager.instances[i]? = some a ∧ a.partyId ≠ partyId) := by
      intro i a hi ha
      rw [hinst, Dict.get?_insert] at hi
      split_ifs at hi with heq
      · cases hi
        exact .inl ⟨heq.symm, rfl⟩
      · exact .inr ⟨hi, fun hparty => hno ⟨partyId, i, a, hopens, hi, hparty, ha⟩⟩
    intro i j a b hi hj hparty ha hb
    rcases hnew i a hi ha with ⟨rfl, hpa⟩ | ⟨hi, hpa⟩
    · rcases hnew j b hj hb with ⟨rfl, -⟩ | ⟨-, hpb⟩
      · rfl
      · exact absurd (hparty ▸ hpa) hpb
    · rcases hnew j b hj hb with ⟨-, hpb⟩ | ⟨hj, -⟩
      · exact absurd (hparty.trans hpb) hpa
      · exact h i j a b hi hj hparty ha hb
  · exact hwanes.solo h

theorem Idle.not_solo_step (hs : Idle s) {e : ServerEvent} (h : Doubles s e) :
    ¬ Solo (serverStep s e).instanceManager := by
  obtain ⟨partyId, i, record, hopens, hi, hparty, hunfinished⟩ := h
  have hne : i ≠ s.instanceManager.nextInstanceId :=
    (hs.below i ((Dict.mem_iff _ _).mpr ⟨record, hi⟩)).ne
  rcases hs.step_instances e with ⟨partyId', hopens', hinst⟩ | ⟨hno, -⟩
  · obtain rfl := hopens.unique hopens'
    intro hsolo
    refine hne (hsolo i s.instanceManager.nextInstanceId record
      ⟨s.instanceManager.nextInstanceId, partyId, .waiting⟩ ?_ ?_ hparty hunfinished (.inl rfl))
    · rw [hinst, Dict.get?_insert_of_ne _ _ hne.symm, hi]
    · rw [hinst, Dict.get?_insert_self]
  · exact absurd hopens (hno partyId)

end Solo

section Runs

variable [InventoryStorage σ]

/-- In every state of a server, a match request leaves those alone that are bound to an unfinished
instance, unless it makes one of them a new match; and in every run no party ever has two unfinished
instances just if none gets an instance while it has an unfinished one. -/
theorem matches_exclusive (inventoryStorage : σ) (securityPolicy : SecurityPolicy)
    (tokenBytes : Draws UInt8) (seeds : Draws { n : UInt32 // n ≠ 0 }) (ticketBytes : Draws UInt8)
    (clock : Draws Time) (es : List ServerEvent) (s₀ : Server σ)
    (hs₀ : s₀ = Server.new inventoryStorage securityPolicy tokenBytes seeds ticketBytes clock) :
    (∀ id header payload now, PacketType.ofCode header.type = some .matchReq →
      (Exclusive (after serverStep s₀ es) id header payload now ↔
        ¬ Rematches (after serverStep s₀ es) id header payload now)) ∧
    ((∀ es', es' <+: es → Solo (after serverStep s₀ es').instanceManager) ↔
      ∀ x ∈ trail serverStep s₀ es, ¬ Doubles x.1 x.2) := by
  have hidle : ∀ es', Idle (after serverStep s₀ es') := by
    intro es'
    rw [hs₀]
    exact idle_after ..
  have hempty : Solo s₀.instanceManager := by
    intro i j a b hi
    rw [hs₀] at hi
    change (∅ : Dict ℕ InstanceRecord)[i]? = some a at hi
    rw [Dict.get?_empty] at hi
    cases hi
  refine ⟨fun id header payload now ht => (hidle es).exclusive_iff ht, ?_⟩
  refine throughout_iff (I := fun s : Server σ => Solo s.instanceManager)
    (P := fun s e => ¬ Doubles s e) (s := s₀) (fun s e hs => (hs.step_serves e).idle hs)
    (fun s e hs hsolo => ⟨?_, ?_⟩) es (hidle []) hempty
  · exact fun hnext hdoubles => hs.not_solo_step hdoubles hnext
  · exact fun hsingle => hs.solo_step hsolo hsingle

/-- Nobody is bound yet when a pair asks for its first match. -/
theorem matches_exclusive_paired :
    Exclusive (after serverStep (still {}) paired) 1 (headerOf .matchReq asking) asking 0 := by
  have hempty : (after serverStep (still {}) paired).sessionInstances.isEmpty := by
    decide +kernel
  refine ((matches_exclusive _ _ _ _ _ _ paired (still {}) rfl).1 1 (headerOf .matchReq asking)
    asking 0 (by decide)).mpr ?_
  rintro ⟨_, _, k, i, -, -, hbound, -⟩
  rw [Std.ExtTreeMap.isEmpty_iff.mp hempty, Dict.get?_empty] at hbound
  cases hbound

/-- A pair has been matched by one of the two. -/
def matchedOnce : List ServerEvent := paired ++ [packetOf 1 .matchReq asking]

/-- The request of the other takes the first from its instance, which waits for it. -/
theorem matched_pair_taken :
    ¬ ∀ (es : List ServerEvent) (id : ℕ) (header : FrameHeader) (payload : Bytes) (now : Time),
      PacketType.ofCode header.type = some .matchReq →
      Exclusive (after serverStep (still {}) es) id header payload now := by
  intro h
  have hengaged : Engaged (after serverStep (still {}) matchedOnce) 1 1 :=
    ⟨by decide +kernel, ⟨1, 1, .waiting⟩, by decide +kernel, .inl rfl⟩
  have hleaves := h matchedOnce 2 (headerOf .matchReq asking) asking 0 (by decide) 1 1 hengaged
  exact absurd hleaves.bound (by decide +kernel)

end Runs

end Server

end DungeonHub
