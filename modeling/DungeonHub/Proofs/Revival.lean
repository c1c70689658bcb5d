import DungeonHub.Proofs.Renaming
import DungeonHub.Proofs.Services

/-!
# Sessions after their removal

A session that has left the server is never listed again. But whoever still holds it can log in on
it, or reconnect, since neither asks whether the server knows the session; only without such packets
do removed sessions stay dead.
-/

namespace DungeonHub

open Run Wire

namespace Server

variable {σ : Type}

section Steps

/-- The packet gives a removed session a user: it passes the gate, and is a login with the right
password of a user whom no other session holds, or a reconnect with a good token. -/
def Revives (s : Server σ) : ServerEvent → Prop
  | .packet id header payload now => id ∉ s.sessions ∧
    ∃ session body, s.heap[id]? = some session ∧
      Passes s.securityPolicy session header payload ∧
      bodyOf s.securityPolicy payload = some body ∧ s.Attaches id header body now
  | _ => False

/-- Only new sessions are listed, and ids are counted up. -/
structure Fewer (s s' : Server σ) : Prop where
  nextId : s.nextId ≤ s'.nextId
  listed : ∀ id ∈ s'.sessions, id ∈ s.sessions ∨ s.nextId ≤ id

variable {s s' s'' : Server σ}

theorem Fewer.refl (s : Server σ) : Fewer s s := ⟨le_rfl, fun _ h => .inl h⟩

theorem Fewer.trans (h : Fewer s s') (h' : Fewer s' s'') : Fewer s s'' := by
  refine ⟨h.nextId.trans h'.nextId, fun id hid => ?_⟩
  rcases h'.listed id hid with hid | hnew
  · exact h.listed id hid
  · exact .inr (h.nextId.trans hnew)

/-- Sessions were dropped at most. -/
theorem Fewer.drop (h : Fewer s s') (hnext : s''.nextId = s'.nextId)
    (hlisted : ∀ id ∈ s''.sessions, id ∈ s'.sessions) : Fewer s s'' :=
  ⟨hnext ▸ h.nextId, fun id hid => h.listed id (hlisted id hid)⟩

theorem takeOver_fewer (s : Server σ) (existing id : ℕ) :
    (s.takeOver existing id).nextId = s.nextId ∧
      ∀ k ∈ (s.takeOver existing id).sessions, k ∈ s.sessions := by
  unfold takeOver
  split
  · exact ⟨rfl, fun _ h => h⟩
  · exact ⟨rfl, fun k hk => ((Dict.mem_erase _ _ _).mp hk).2⟩

theorem reclaim_fewer (s : Server σ) (userId : Str) (id : ℕ) :
    (s.reclaim userId id).nextId = s.nextId ∧
      ∀ k ∈ (s.reclaim userId id).sessions, k ∈ s.sessions := by
  unfold reclaim
  split
  · exact ⟨rfl, fun _ h => h⟩
  · exact s.takeOver_fewer _ _

theorem Fewer.effect {id : ℕ} {header : FrameHeader} {payload : Bytes} {now : Time}
    (hs : Fewer s s') (h : Effect s' id header payload now s'') : Fewer s s'' := by
  cases h with
  | calm tokenService h => exact hs.drop h.nextId fun k hk => h.sessions ▸ hk
  | login tokenService context h => exact hs.drop rfl fun _ h => h
  | logout => exact hs.drop rfl fun _ h => h
  | reconnect request userId ht h hr =>
    exact hs.drop (s'.reclaim_fewer userId id).1 (s'.reclaim_fewer userId id).2
  | clash request userId h hr =>
    exact hs.drop (s'.reclaim_fewer userId id).1 (s'.reclaim_fewer userId id).2
  | enter charId instanceId h => exact hs.drop h.nextId fun k hk => h.sessions ▸ hk
  | grant instanceId grantId h => exact hs.drop h.nextId fun k hk => h.sessions ▸ hk
  | guild call hc h => exact hs.drop h.nextId fun k hk => h.sessions ▸ hk

variable [InventoryStorage σ]

theorem step_fewer (s : Server σ) (e : ServerEvent) : Fewer s (serverStep s e) := by
  refine step_preserves (I := Fewer s)
    (fun t t' h ht => ht.drop h.nextId fun k hk => h.sessions ▸ hk)
    (fun t id ht => ht.drop rfl fun k hk => ((Dict.mem_erase _ _ _).mp hk).2) (.refl s) ?_ ?_ ?_
  · intro config now
    refine ⟨Nat.le_succ _, fun id hid => ?_⟩
    rcases (Dict.mem_insertIfNew _ _ _ _).mp hid with rfl | hid
    · exact .inr le_rfl
    · exact .inl hid
  · exact fun call _ => (Fewer.refl s).drop rfl fun _ h => h
  · rintro id header payload now -
    rcases s.handlePacket_effect id header payload now with
      ⟨-, h⟩ | ⟨session, gated, session', -, -, hway⟩
    · rw [h]
      exact .refl s
    · have hreceived : Fewer s (s.receive id session' payload) :=
        (Fewer.refl s).drop rfl fun _ h => h
      rcases hway with ⟨-, h⟩ | ⟨inner, -, h⟩
      · exact hreceived.drop h.nextId fun k hk => h.sessions ▸ hk
      · exact hreceived.effect h

end Steps

section Answers

variable [InventoryStorage σ] {s : Server σ} {e : ServerEvent} {id : ℕ}

/-- The event is a packet on the session that is answered with an accepted login or reconnect. -/
def Accepts (s : Server σ) (e : ServerEvent) (id : ℕ) : Prop :=
  ∃ header payload now, e = .packet id header payload now ∧
    ((∃ response, (s.answerPacket id header payload now).1 = some ⟨.loginRes, response⟩ ∧
      response.accepted = true) ∨
    ∃ response, (s.answerPacket id header payload now).1 = some ⟨.sessionReconnectRes, response⟩ ∧
      response.success = true)

variable {header : FrameHeader} {payload : Bytes} {now : Time}

/-- What passes the gate and is accepted there attaches a user. -/
theorem attaches_of_accepted
    (h : (∃ response, (s.dispatch id header payload now).1 = some ⟨.loginRes, response⟩ ∧
        response.accepted = true) ∨
      ∃ response, (s.dispatch id header payload now).1 = some ⟨.sessionReconnectRes, response⟩ ∧
        response.success = true) : s.Attaches id header payload now := by
  rcases h with ⟨response, hanswer, haccepted⟩ | ⟨response, hanswer, hsuccess⟩
  · have ht := dispatch_request hanswer
    rw [dispatch_login ht] at hanswer
    cases hanswer
    rcases s.handleLogin_cases id payload now with ⟨request, hlogs⟩ | ⟨hno, -⟩
    · exact .inl ⟨ht, request, hlogs⟩
    · rw [hno] at haccepted
      cases haccepted
  · have ht := dispatch_request hanswer
    rw [dispatch_reconnect ht] at hanswer
    cases hanswer
    rcases s.handleReconnect_refused id payload now with ⟨hno, -⟩ | ⟨request, userId, hre⟩
    · rw [hno] at hsuccess
      cases hsuccess
    · exact .inr ⟨ht, request, userId, hre⟩

theorem Accepts.revives (h : Accepts s e id) (hid : id ∉ s.sessions) : Revives s e := by
  obtain ⟨header, payload, now, rfl, hanswer⟩ := h
  have hpassed : ∃ session session' body, s.heap[id]? = some session ∧
      s.gatePacket session header payload now = (.passed body, session') := by
    rcases hanswer with ⟨response, hanswer, -⟩ | ⟨response, hanswer, -⟩
    · exact passed_of_answer hanswer (by simp)
    · exact passed_of_answer hanswer (by simp)
  obtain ⟨session, session', body, hsession, hg⟩ := hpassed
  rw [answerPacket_of_passed hsession hg] at hanswer
  have hgate := gate_passed (congrArg Prod.fst hg)
  exact ⟨hid, session, body, hsession, (passes_received now).mp hgate.1, hgate.2,
    (attaches_of_accepted hanswer).congr rfl rfl⟩

/-- In a state that a run leads to, the packets that revive a session are those that are accepted on
it. -/
theorem Orderly.revives_iff (hs : Orderly s) (hid : id ∉ s.sessions) :
    Revives s (.packet id header payload now) ↔ Accepts s (.packet id header payload now) id := by
  refine ⟨?_, fun h => h.revives hid⟩
  rintro ⟨-, session, body, hsession, hpasses, hbody, hattaches⟩
  obtain ⟨session', hg⟩ := gatePacket_of_passes hpasses hbody now
  have hu := s.gatePacket_userContext session header payload now
  rw [hg] at hu
  have hreceived := hs.calm (s.receive_calm payload hsession hu)
  have hattaches' : (s.receive id session' payload).Attaches id header body now :=
    hattaches.congr rfl rfl
  refine ⟨header, payload, now, rfl, ?_⟩
  rw [answerPacket_of_passed hsession hg]
  rcases hattaches' with ⟨ht, request, hlogs⟩ | ⟨ht, request, userId, hre⟩
  · rw [dispatch_login ht, handleLogin_of_logs hlogs]
    exact .inl ⟨_, rfl, rfl⟩
  · rw [dispatch_reconnect ht]
    exact .inr ⟨_, rfl, hreceived.reconnect_success hre id⟩

end Answers

section Runs

variable [InventoryStorage σ]

/-- Users are attached to sessions the server knows, as long as no packet revives a session. -/
theorem Consistent.step_quiet {s : Server σ} (hs : Consistent s) {e : ServerEvent}
    (he : ¬ Revives s e) : Consistent (serverStep s e) := by
  refine hs.step ?_
  rintro id header payload now session session' inner rfl hsession hg hattaches
  have hgate := gate_passed (congrArg Prod.fst hg)
  by_contra hid
  exact he ⟨hid, session, inner, hsession, (passes_received now).mp hgate.1, hgate.2, hattaches⟩

/-- A session that was listed once and is not any more is never listed again. -/
theorem Orderly.never_listed {s : Server σ} (hs : Orderly s) {id : ℕ} (hwas : id ∈ s.sessions)
    {between : List ServerEvent} (hleft : id ∉ (after serverStep s between).sessions)
    (more : List ServerEvent) :
    id ∉ (after serverStep (after serverStep s between) more).sessions := by
  have hfewer : ∀ (s : Server σ) es, Fewer s (after serverStep s es) := fun s es =>
    stable (I := Fewer s) (fun t e ht => ht.trans (t.step_fewer e)) es (.refl s)
  have hold : id < (after serverStep s between).nextId :=
    (hs.below id (hs.known id hwas)).trans_le (hfewer s between).nextId
  intro hlisted
  rcases (hfewer _ more).listed id hlisted with h | h
  · exact hleft h
  · exact Nat.lt_irrefl _ (hold.trans_le h)

/-- In every run without packets that revive a session, one that has left the server stays dead. -/
theorem removed_stay_dead (inventoryStorage : σ) (securityPolicy : SecurityPolicy)
    (tokenBytes : Draws UInt8) (seeds : Draws { n : UInt32 // n ≠ 0 }) (ticketBytes : Draws UInt8)
    (clock : Draws Time) (s : Server σ)
    (hnew : s = Server.new inventoryStorage securityPolicy tokenBytes seeds ticketBytes clock)
    (before between more : List ServerEvent)
    (hquiet : ∀ x ∈ trail serverStep s (before ++ between ++ more), ¬ Revives x.1 x.2) (id : ℕ)
    (hwas : id ∈ (after serverStep s before).sessions)
    (hleft : id ∉ (after serverStep s (before ++ between)).sessions) :
    (∀ x ∈ trail serverStep (after serverStep s (before ++ between)) more,
      ¬ Accepts x.1 x.2 id) ∧
    id ∉ (after serverStep s (before ++ between ++ more)).registry.records := by
  have horderly : Orderly (after serverStep s before) := by
    rw [hnew]
    exact stable (I := Orderly) (fun _ e hs => hs.step e) before (orderly_new ..)
  have hconsistent : Consistent (after serverStep s (before ++ between ++ more)) := by
    refine invariant (fun s e hs he => hs.step_quiet he) _ s ?_ hquiet
    rw [hnew]
    exact consistent_new ..
  rw [after_append] at hleft
  have hgone := horderly.never_listed hwas hleft
  rw [← after_append] at hgone
  constructor
  · intro x hx haccepts
    obtain ⟨es, hes⟩ := exists_after_of_mem_trail hx
    refine hquiet x ?_ (haccepts.revives (hes ▸ hgone es))
    rw [trail_append]
    exact List.mem_append_right _ hx
  · intro hrecord
    have hlisted := hconsistent.registered id hrecord
    rw [after_append] at hlisted
    exact hgone more hlisted

/-- A login with a wrong password. -/
def guessing : Bytes := encodeLoginRequest ⟨str "u", str "guess"⟩

/-- A session is removed, and then a password is guessed on it. -/
theorem removed_stay_dead_guessing :
    (∀ x ∈ trail serverStep (after serverStep (still {}) ([.createSession {} 0] ++
        [.removeSession 1])) [packetOf 1 .loginReq guessing], ¬ Accepts x.1 x.2 1) ∧
    1 ∉ (after serverStep (still {}) ([.createSession {} 0] ++ [.removeSession 1] ++
      [packetOf 1 .loginReq guessing])).registry.records := by
  refine removed_stay_dead _ _ _ _ _ _ (still {}) rfl _ _ _ (fun x hx => ?_) 1
    (by decide +kernel) (by decide +kernel)
  simp only [List.cons_append, List.nil_append, trail, List.mem_cons, List.not_mem_nil,
    or_false] at hx
  rcases hx with rfl | rfl | rfl
  · exact id
  · exact id
  · rintro ⟨-, session, body, -, -, hbody, hattaches⟩
    have hopen : bodyOf (serverStep (serverStep (still {}) (.createSession {} 0))
      (.removeSession 1)).securityPolicy guessing = some guessing := by decide +kernel
    obtain rfl := Option.some.inj (hopen.symm.trans hbody)
    have hguess : decodeLoginRequest guessing = .ok ⟨str "u", str "guess"⟩ := by decide
    rcases hattaches with ⟨-, request, hlogs⟩ | ⟨ht, -⟩
    · obtain rfl := Except.ok.inj (hguess.symm.trans hlogs.decoded)
      exact absurd hlogs.password (by decide)
    · exact absurd ht (by decide)

/-- A session is removed, and then a user logs in on it. -/
theorem removed_session_logs_in :
    1 ∉ (after serverStep (still {}) [.createSession {} 0, .removeSession 1]).sessions ∧
    Accepts (after serverStep (still {}) [.createSession {} 0, .removeSession 1])
      (packetOf 1 .loginReq (encodeLoginRequest ⟨str "u", str "letmein"⟩)) 1 ∧
    1 ∈ (after serverStep (still {}) [.createSession {} 0, .removeSession 1,
      packetOf 1 .loginReq (encodeLoginRequest ⟨str "u", str "letmein"⟩)]).registry.records := by
  refine ⟨by decide +kernel, ⟨_, _, _, rfl, .inl ⟨⟨true, List.replicate 32 48,
    str "Login accepted"⟩, by decide +kernel, rfl⟩⟩, by decide +kernel⟩

end Runs

end Server

end DungeonHub
