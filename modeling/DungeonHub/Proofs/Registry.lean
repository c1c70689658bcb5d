import DungeonHub.Proofs.Packet

/-!
# One login for each user

The registry's two maps are inverse to each other, it knows only sessions the server knows, and
such a session has the user that the registry says, as long as packets come on known sessions.
-/

namespace DungeonHub

open Run Wire

namespace SessionRegistry

/-- The two maps are inverse to each other. -/
def Inverse (r : SessionRegistry) : Prop :=
  ∀ (userId : Str) (id : ℕ),
    r.activeUsers[userId]? = some id ↔ r.records[id]?.map UserContext.userId = some userId

variable {r : SessionRegistry}

theorem heldByOther_eq_none {userId : Str} {id : ℕ} :
    r.heldByOther userId id = none ↔
      ∀ existing, r.activeUsers[userId]? = some existing → existing = id := by
  unfold heldByOther hasUser
  rw [Option.filter_eq_none_iff]
  simp

theorem heldByOther_eq_some {userId : Str} {id existing : ℕ} :
    r.heldByOther userId id = some existing ↔
      r.activeUsers[userId]? = some existing ∧ existing ≠ id := by
  unfold heldByOther hasUser
  rw [Option.filter_eq_some_iff]
  simp

theorem removeSession_records (r : SessionRegistry) (id : ℕ) :
    (r.removeSession id).records = r.records.erase id := by
  unfold removeSession
  split
  · rename_i h
    exact (Dict.erase_of_not_mem _ ((Dict.not_mem_iff _ _).mpr h)).symm
  · rfl

/-- The users but the one of the session are as they were. -/
theorem Inverse.removeSession_activeUsers (hr : r.Inverse) (id : ℕ) (userId : Str) :
    (r.removeSession id).activeUsers[userId]? =
      if r.activeUsers[userId]? = some id then none else r.activeUsers[userId]? := by
  unfold removeSession
  split
  · rename_i h
    rw [if_neg]
    rw [hr, h]
    simp
  · rename_i record h
    rw [Dict.get?_erase]
    have hiff : r.activeUsers[userId]? = some id ↔ record.userId = userId := by
      rw [hr, h, Option.map_some, Option.some.injEq]
    simp only [hiff]

theorem Inverse.removeSession (hr : r.Inverse) (id : ℕ) : (r.removeSession id).Inverse := by
  intro userId k
  rw [hr.removeSession_activeUsers, removeSession_records, Dict.get?_erase]
  by_cases hk : id = k
  · subst hk
    rw [if_pos rfl]
    split_ifs with h
    · simp
    · simp [h]
  · rw [if_neg hk, ← hr]
    split_ifs with h
    · simp [h, hk]
    · rfl

/-- A session that is registered under a user no other session holds. -/
theorem Inverse.registerSession (hr : r.Inverse) {id : ℕ} {context : UserContext}
    (hfree : r.heldByOther context.userId id = none) :
    (r.registerSession id context).2.Inverse := by
  have hinsert : (r.registerSession id context).2 =
      ⟨r.records.insert id context, (r.removeSession id).activeUsers.insert context.userId id⟩ := by
    unfold SessionRegistry.registerSession SessionRegistry.removeSession
    rw [hfree]
    rcases r.records[id]? <;> rfl
  rw [heldByOther_eq_none] at hfree
  rw [hinsert]
  intro userId k
  simp only [Dict.get?_insert]
  rw [hr.removeSession_activeUsers]
  by_cases hu : context.userId = userId
  · subst hu
    rw [if_pos rfl]
    by_cases hk : id = k
    · simp [hk]
    · rw [if_neg hk, ← hr]
      constructor
      · intro h
        exact absurd (Option.some.inj h) hk
      · intro h
        exact absurd (hfree k h).symm hk
  · rw [if_neg hu]
    by_cases hk : id = k
    · subst hk
      rw [if_pos rfl, Option.map_some, Option.some.injEq]
      split_ifs with h
      · simp [hu]
      · simp [hu, h]
    · rw [if_neg hk, ← hr]
      split_ifs with h
      · simp [h, hk]
      · rfl

theorem registerSession_records {id : ℕ} {context : UserContext}
    (hfree : r.heldByOther context.userId id = none) :
    (r.registerSession id context).2.records = r.records.insert id context := by
  unfold registerSession
  rw [hfree]

/-- Once the session that holds a user is gone, the user is free. -/
theorem Inverse.heldByOther_removeSession (hr : r.Inverse) {userId : Str} {id existing : ℕ}
    (h : r.heldByOther userId id = some existing) :
    (r.removeSession existing).heldByOther userId id = none := by
  rw [heldByOther_eq_some] at h
  rw [heldByOther_eq_none]
  intro k hk
  rw [hr.removeSession_activeUsers, if_pos h.1] at hk
  cases hk

end SessionRegistry

namespace Server

variable {σ : Type}

/-- The registry agrees with the sessions the server knows. -/
structure Consistent (s : Server σ) : Prop where
  inverse : s.registry.Inverse
  registered : ∀ id ∈ s.registry.records, id ∈ s.sessions
  contexts : ∀ id ∈ s.sessions, s.userContext id = s.registry.records[id]?
  known : ∀ id ∈ s.sessions, id ∈ s.heap
  fresh : ∀ id ∈ s.sessions, id < s.nextId

section Preserved

variable {s s' : Server σ}

theorem Consistent.calm (hs : Consistent s) (h : Calm Session.userContext s s') :
    Consistent s' where
  inverse := h.registry ▸ hs.inverse
  registered id hid := by
    rw [h.registry] at hid
    rw [h.sessions]
    exact hs.registered id hid
  contexts id hid := by
    rw [h.sessions] at hid
    rw [h.userContext, h.registry]
    exact hs.contexts id hid
  known id hid := by
    rw [h.sessions] at hid
    exact (h.heap.mem id).mpr (hs.known id hid)
  fresh id hid := by
    rw [h.sessions] at hid
    rw [h.nextId]
    exact hs.fresh id hid

theorem Consistent.congr (hs : Consistent s) (hregistry : s'.registry = s.registry)
    (hsessions : s'.sessions = s.sessions) (hheap : s'.heap = s.heap)
    (hnext : s'.nextId = s.nextId) : Consistent s' where
  inverse := hregistry ▸ hs.inverse
  registered := by rw [hregistry, hsessions]; exact hs.registered
  contexts := by unfold userContext; rw [hregistry, hsessions, hheap]; exact hs.contexts
  known := by rw [hsessions, hheap]; exact hs.known
  fresh := by rw [hsessions, hnext]; exact hs.fresh

theorem userContext_modifySession (s : Server σ) (id k : ℕ) (f : Session → Session) :
    (s.modifySession id f).userContext k =
      if id = k then s.heap[k]?.bind fun session => (f session).userContext
      else s.userContext k := by
  unfold userContext modifySession
  simp only [Dict.get?_modify]
  split_ifs
  · rw [Option.bind_map]
    rfl
  · rfl

theorem mem_modifySession (s : Server σ) (id k : ℕ) (f : Session → Session) :
    k ∈ (s.modifySession id f).heap ↔ k ∈ s.heap :=
  Std.ExtTreeMap.mem_modify

theorem modifySession_calm {τ : Type} {g : Session → τ} (s : Server σ) (id : ℕ)
    {f : Session → Session} (hf : ∀ session, g (f session) = g session) :
    Calm g s (s.modifySession id f) :=
  ⟨rfl, rfl, rfl, rfl, rfl, rfl, rfl, rfl, rfl, keeps_modify _ _ hf, fun _ h => .inl h⟩

/-- The session that a user is attached to is registered with just this context. -/
theorem userContext_attach {id : ℕ} (hid : id ∈ s.heap) {context : UserContext}
    (hfree : s.registry.heldByOther context.userId id = none) {k : ℕ}
    (hk : s.userContext k = s.registry.records[k]?) :
    (s.attach id context).userContext k = (s.attach id context).registry.records[k]? := by
  show (s.modifySession id (·.attachUserContext context)).userContext k =
    (s.registry.registerSession id context).2.records[k]?
  rw [userContext_modifySession, SessionRegistry.registerSession_records hfree, Dict.get?_insert]
  split_ifs with h
  · subst h
    obtain ⟨session, hsession⟩ := (Dict.mem_iff _ _).mp hid
    rw [hsession]
    rfl
  · exact hk

/-- A new session has no user, and none is registered for it. -/
theorem userContext_createSession (config : SessionConfig) (now : Time)
    (hno : s.nextId ∉ s.registry.records) {k : ℕ}
    (hk : s.nextId ≠ k → s.userContext k = s.registry.records[k]?) :
    (s.createSession config now).userContext k = s.registry.records[k]? := by
  unfold userContext Server.createSession
  simp only [Dict.get?_insert]
  by_cases hne : s.nextId = k
  · subst hne
    rw [if_pos rfl, (Dict.not_mem_iff _ _).mp hno]
    rfl
  · rw [if_neg hne]
    exact hk hne

/-- A known session gets a user that no other session holds. -/
theorem Consistent.attach (hs : Consistent s) {id : ℕ} (hid : id ∈ s.sessions)
    {context : UserContext} (hfree : s.registry.heldByOther context.userId id = none) :
    Consistent (s.attach id context) where
  inverse := hs.inverse.registerSession hfree
  registered k hk := by
    show k ∈ s.sessions
    unfold Server.attach at hk
    simp only [SessionRegistry.registerSession_records hfree] at hk
    rcases (Dict.mem_insert _ _ _ _).mp hk with rfl | hk
    · exact hid
    · exact hs.registered k hk
  contexts k hk := userContext_attach (hs.known id hid) hfree (hs.contexts k hk)
  known k hk := (mem_modifySession ..).mpr (hs.known k hk)
  fresh := hs.fresh

theorem Consistent.detach (hs : Consistent s) (id : ℕ) : Consistent (s.detach id) where
  inverse := hs.inverse.removeSession id
  registered k hk := by
    unfold Server.detach at hk
    simp only [SessionRegistry.removeSession_records] at hk
    exact hs.registered k (Std.ExtTreeMap.mem_of_mem_erase hk)
  contexts k hk := by
    show (s.modifySession id Session.clearUserContext).userContext k =
      (s.registry.removeSession id).records[k]?
    rw [userContext_modifySession, SessionRegistry.removeSession_records, Dict.get?_erase]
    split_ifs with h
    · rcases s.heap[k]? <;> rfl
    · exact hs.contexts k hk
  known k hk := (mem_modifySession ..).mpr (hs.known k hk)
  fresh := hs.fresh

/-- A session leaves the registry and the sessions, and the others keep their users. -/
theorem Consistent.drop (hs : Consistent s) (id : ℕ)
    (hregistry : s'.registry = s.registry.removeSession id)
    (hsessions : s'.sessions = s.sessions.erase id) (hnext : s'.nextId = s.nextId)
    (hheap : ∀ k, id ≠ k → s'.heap[k]? = s.heap[k]?) : Consistent s' := by
  have hmem : ∀ k, k ∈ s'.sessions ↔ id ≠ k ∧ k ∈ s.sessions := by
    intro k
    rw [hsessions, Dict.mem_erase]
  refine ⟨hregistry ▸ hs.inverse.removeSession id, ?_, ?_, ?_, ?_⟩
  · intro k hk
    rw [hregistry, SessionRegistry.removeSession_records, Dict.mem_erase] at hk
    exact (hmem k).mpr ⟨hk.1, hs.registered k hk.2⟩
  · intro k hk
    obtain ⟨hne, hk⟩ := (hmem k).mp hk
    rw [hregistry, SessionRegistry.removeSession_records, Dict.get?_erase_of_ne _ hne,
      ← hs.contexts k hk]
    unfold userContext
    rw [hheap k hne]
  · intro k hk
    obtain ⟨hne, hk⟩ := (hmem k).mp hk
    rw [Std.ExtTreeMap.mem_iff_isSome_getElem?, hheap k hne,
      ← Std.ExtTreeMap.mem_iff_isSome_getElem?]
    exact hs.known k hk
  · intro k hk
    rw [hnext]
    exact hs.fresh k ((hmem k).mp hk).2

theorem heap_modify_of_ne {heap : Dict ℕ Session} {id k : ℕ} {f : Session → Session}
    (h : id ≠ k) : (heap.modify id f)[k]? = heap[k]? := by
  rw [Dict.get?_modify, if_neg h]

theorem Consistent.takeOver (hs : Consistent s) {existing : ℕ} (he : existing ∈ s.sessions)
    (id : ℕ) : Consistent (s.takeOver existing id) := by
  obtain ⟨session, hsession⟩ := (Dict.mem_iff _ _).mp (hs.known existing he)
  have hfind : s.findSession existing = some session := findSession_eq_some.mpr ⟨he, hsession⟩
  rw [takeOver_of_known hfind]
  exact hs.drop existing rfl rfl rfl fun k hk => heap_modify_of_ne hk

theorem Consistent.holder_known (hs : Consistent s) {userId : Str} {id existing : ℕ}
    (h : s.registry.heldByOther userId id = some existing) : existing ∈ s.sessions := by
  have hmap := (hs.inverse userId existing).mp (SessionRegistry.heldByOther_eq_some.mp h).1
  refine hs.registered existing ?_
  rw [Std.ExtTreeMap.mem_iff_isSome_getElem?, ← Option.isSome_map, hmap]
  rfl

theorem Consistent.reclaim (hs : Consistent s) (userId : Str) (id : ℕ) :
    Consistent (s.reclaim userId id) ∧
      (s.reclaim userId id).registry.heldByOther userId id = none ∧
      (id ∈ s.sessions → id ∈ (s.reclaim userId id).sessions) := by
  unfold Server.reclaim
  rcases hheld : s.registry.heldByOther userId id with _ | existing
  · exact ⟨hs, hheld, fun h => h⟩
  · have hne := (SessionRegistry.heldByOther_eq_some.mp hheld).2
    have hknown := hs.holder_known hheld
    obtain ⟨session, hsession⟩ := (Dict.mem_iff _ _).mp (hs.known existing hknown)
    refine ⟨hs.takeOver hknown id, ?_⟩
    simp only []
    rw [takeOver_of_known (findSession_eq_some.mpr ⟨hknown, hsession⟩)]
    exact ⟨hs.inverse.heldByOther_removeSession hheld, fun hid =>
      (Dict.mem_erase _ _ _).mpr ⟨hne, hid⟩⟩

theorem Consistent.without (hs : Consistent s) (id : ℕ) : Consistent (s.without id) := by
  refine hs.drop id rfl rfl rfl ?_
  intro k hk
  unfold Server.without
  simp only []
  split_ifs
  · exact heap_modify_of_ne hk
  · rfl

theorem Consistent.createSession (hs : Consistent s) (config : SessionConfig) (now : Time) :
    Consistent (s.createSession config now) := by
  have hmem : ∀ k, k ∈ (s.createSession config now).sessions ↔ s.nextId = k ∨ k ∈ s.sessions :=
    fun k => Dict.mem_insertIfNew _ _ _ _
  refine ⟨hs.inverse, fun k hk => (hmem k).mpr (.inr (hs.registered k hk)), ?_, ?_, ?_⟩
  · intro k hk
    refine userContext_createSession config now (fun h => ?_) fun hne => ?_
    · exact Nat.lt_irrefl _ (hs.fresh _ (hs.registered _ h))
    · exact hs.contexts k (((hmem k).mp hk).resolve_left hne)
  · intro k hk
    refine (Dict.mem_insert _ _ _ _).mpr ?_
    rcases (hmem k).mp hk with h | h
    · exact .inl h
    · exact .inr (hs.known k h)
  · intro k hk
    show k < s.nextId + 1
    rcases (hmem k).mp hk with h | h
    · omega
    · have := hs.fresh k h
      omega

end Preserved

section Runs

/-- Packets come on sessions the server knows. -/
def OnKnown (s : Server σ) : ServerEvent → Prop
  | .packet id _ _ _ => id ∈ s.sessions
  | _ => True

instance (s : Server σ) (e : ServerEvent) : Decidable (OnKnown s e) := by
  unfold OnKnown
  split <;> infer_instance

/-- What a packet does keeps the registry consistent, if its session is known or gets no user. -/
theorem Consistent.outcome {s s' : Server σ} (hs : Consistent s) {id : ℕ} {header : FrameHeader}
    {payload : Bytes} {now : Time} (hid : s.Attaches id header payload now → id ∈ s.sessions)
    (h : Outcome s id header payload now s') : Consistent s' := by
  cases h with
  | calm h => exact hs.calm h.users
  | badToken tokenService h =>
    refine Consistent.calm ?_ (countError_calm _).users
    exact hs.congr rfl rfl rfl rfl
  | login request ht h =>
    have htokens : Consistent
        { s with tokenService := (s.tokenService.issueToken request.userId now).2 } :=
      hs.congr rfl rfl rfl rfl
    exact htokens.attach (hid (.inl ⟨ht, request, h⟩)) h.free
  | logout ht h => exact hs.detach id
  | reconnect request userId ht h hr =>
    obtain ⟨hre, hfree, hmem⟩ := hs.reclaim userId id
    have hattach : Consistent ((s.reclaim userId id).attach id ⟨userId, request.token⟩) :=
      hre.attach (hmem (hid (.inr ⟨ht, request, userId, h⟩))) hfree
    exact hattach.calm (modifySession_calm _ id fun _ => rfl)
  | clash request userId ht h hr =>
    obtain ⟨-, hfree, -⟩ := hs.reclaim userId id
    rw [(SessionRegistry.registerSession_iff _ _ _).mpr hfree] at hr
    cases hr
  | enter charId instanceId hu h =>
    refine Consistent.calm ?_ h.users
    exact hs.congr rfl rfl rfl rfl
  | grant instanceId grantId h =>
    refine Consistent.calm ?_ h.users
    exact hs.congr rfl rfl rfl rfl
  | guild call user hu hc h =>
    refine Consistent.calm ?_ h.users
    exact hs.congr rfl rfl rfl rfl

theorem consistent_new (inventoryStorage : σ) (securityPolicy : SecurityPolicy)
    (tokenBytes : Draws UInt8) (seeds : Draws { n : UInt32 // n ≠ 0 }) (ticketBytes : Draws UInt8)
    (clock : Draws Time) :
    Consistent (Server.new inventoryStorage securityPolicy tokenBytes seeds ticketBytes clock) := by
  have hmem : ∀ {V : Type} (id : ℕ), id ∉ (∅ : Dict ℕ V) := fun id =>
    (Dict.not_mem_iff _ _).mpr (Dict.get?_empty id)
  refine ⟨?_, ?_, ?_, ?_, ?_⟩
  · intro userId id
    show (∅ : Dict Str ℕ)[userId]? = some id ↔
      (∅ : Dict ℕ UserContext)[id]?.map UserContext.userId = some userId
    simp
  · exact fun id h => absurd h (hmem id)
  · exact fun id h => absurd h (hmem id)
  · exact fun id h => absurd h (hmem id)
  · exact fun id h => absurd h (hmem id)

theorem Consistent.one_session {s : Server σ} (hs : Consistent s) {a b : ℕ}
    (ha : a ∈ s.sessions) (hb : b ∈ s.sessions) {ca cb : UserContext}
    (hca : s.userContext a = some ca) (hcb : s.userContext b = some cb)
    (heq : ca.userId = cb.userId) : a = b := by
  rw [hs.contexts a ha] at hca
  rw [hs.contexts b hb] at hcb
  have hactive := (hs.inverse ca.userId a).mpr (by rw [hca]; rfl)
  have hactive' := (hs.inverse cb.userId b).mpr (by rw [hcb]; rfl)
  rw [heq, hactive', Option.some.injEq] at hactive
  exact hactive.symm

variable [InventoryStorage σ]

theorem Consistent.packet {s : Server σ} (hs : Consistent s) {id : ℕ} {header : FrameHeader}
    {payload : Bytes} {now : Time} (hid : ∀ session session' inner, s.heap[id]? = some session →
      s.gatePacket session header payload now = (.passed inner, session') →
      s.Attaches id header inner now → id ∈ s.sessions) :
    Consistent (s.handlePacket id header payload now).2 := by
  rcases s.handlePacket_outcome id header payload now with
    ⟨-, h⟩ | ⟨session, gated, session', hsession, hg, hway⟩
  · rwa [h]
  · have hu := s.gatePacket_userContext session header payload now
    rw [hg] at hu
    have hreceived := hs.calm (s.receive_calm payload hsession hu)
    rcases hway with ⟨-, h⟩ | ⟨inner, rfl, h⟩
    · exact hreceived.calm h.users
    · refine hreceived.outcome ?_ h
      exact fun ha => hid session session' inner hsession hg (ha.congr rfl rfl)

theorem Consistent.step {s : Server σ} (hs : Consistent s) {e : ServerEvent}
    (he : ∀ id header payload now session session' inner, e = .packet id header payload now →
      s.heap[id]? = some session →
      s.gatePacket session header payload now = (.passed inner, session') →
      s.Attaches id header inner now → id ∈ s.sessions) : Consistent (serverStep s e) := by
  refine step_preserves (I := Consistent) (fun s s' h hs => hs.calm h.users)
    (fun s id hs => hs.without id) hs hs.createSession ?_ ?_
  · exact fun call _ => hs.congr rfl rfl rfl rfl
  · rintro id header payload now rfl
    exact hs.packet fun session session' inner =>
      he id header payload now session session' inner rfl

theorem Consistent.step_known {s : Server σ} (hs : Consistent s) {e : ServerEvent}
    (he : OnKnown s e) : Consistent (serverStep s e) := by
  refine hs.step ?_
  rintro id header payload now session session' inner rfl - - -
  exact he

/-- In every run whose packets come on known sessions, the registry's maps are inverse to each
other and agree with the sessions, no two known sessions have the same user, and registering does
not fail in a login that got that far or in a reconnect. -/
theorem single_login (inventoryStorage : σ) (securityPolicy : SecurityPolicy)
    (tokenBytes : Draws UInt8) (seeds : Draws { n : UInt32 // n ≠ 0 }) (ticketBytes : Draws UInt8)
    (clock : Draws Time) (es : List ServerEvent)
    (hes : ∀ x ∈ trail serverStep
      (Server.new inventoryStorage securityPolicy tokenBytes seeds ticketBytes clock) es,
      OnKnown x.1 x.2) :
    let s := after serverStep
      (Server.new inventoryStorage securityPolicy tokenBytes seeds ticketBytes clock) es
    (∀ (userId : Str) (id : ℕ), s.registry.activeUsers[userId]? = some id ↔
      ∃ context, s.registry.records[id]? = some context ∧ context.userId = userId) ∧
    (∀ id ∈ s.registry.records, id ∈ s.sessions) ∧
    (∀ id ∈ s.sessions, ∀ context,
      s.userContext id = some context ↔ s.registry.records[id]? = some context) ∧
    (∀ a ∈ s.sessions, ∀ b ∈ s.sessions, ∀ ca cb, s.userContext a = some ca →
      s.userContext b = some cb → ca.userId = cb.userId → a = b) ∧
    ∀ id userId token,
      (s.registry.heldByOther userId id = none →
        (s.registry.registerSession id ⟨userId, token⟩).1 = true) ∧
      ((s.reclaim userId id).registry.registerSession id ⟨userId, token⟩).1 = true := by
  intro s
  have hs : Consistent s :=
    invariant (fun _ _ hs he => hs.step_known he) es _ (consistent_new ..) hes
  refine ⟨?_, hs.registered, ?_, ?_, ?_⟩
  · intro userId id
    rw [hs.inverse, Option.map_eq_some_iff]
  · intro id hid context
    rw [hs.contexts id hid]
  · intro a ha b hb ca cb hca hcb heq
    exact hs.one_session ha hb hca hcb heq
  · intro id userId token
    refine ⟨fun h => (SessionRegistry.registerSession_iff _ _ _).mpr h, ?_⟩
    exact (SessionRegistry.registerSession_iff _ _ _).mpr (hs.reclaim userId id).2.1

/-- A user logs in on session 1, and session 2 takes over. -/
def takenOver : List ServerEvent :=
  [.createSession {} 0, .createSession {} 0,
    packetOf 1 .loginReq (encodeLoginRequest ⟨str "u", str "letmein"⟩),
    packetOf 2 .sessionReconnectReq (encodeSessionReconnectRequest ⟨List.replicate 32 48, 0⟩)]

theorem single_login_taken_over :
    (∀ x ∈ trail serverStep (still {}) takenOver, OnKnown x.1 x.2) ∧
    (after serverStep (still {}) takenOver).registry.activeUsers[str "u"]? = some 2 ∧
    ∃ context, (after serverStep (still {}) takenOver).registry.records[2]? = some context ∧
      context.userId = str "u" := by
  have hes : ∀ x ∈ trail serverStep (still {}) takenOver, OnKnown x.1 x.2 := by
    decide +kernel
  have hactive : (after serverStep (still {}) takenOver).registry.activeUsers[str "u"]? =
      some 2 := by
    decide +kernel
  exact ⟨hes, hactive, ((single_login _ _ _ _ _ _ takenOver hes).1 (str "u") 2).mp hactive⟩

end Runs

end Server

end DungeonHub
