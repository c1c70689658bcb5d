import DungeonHub.Proofs.Mediation
import DungeonHub.Proofs.Registry

/-!
# Where users come from

A session has a user only after a login of that user was accepted, and a reconnect is accepted only
for the user to whom its token was issued last, while the token is good.
-/

namespace DungeonHub

open Run Wire

theorem TokenService.validateToken_record {t t' : TokenService} {token user : Str} {now : Time}
    (h : t.validateToken token now = (some user, t')) :
    ∃ record, t.tokens[token]? = some record ∧ record.userId = user ∧ now < record.expiresAt := by
  unfold validateToken at h
  split at h
  · cases h
  · rename_i record hrecord
    split_ifs at h with hlate
    · cases h
    · cases h
      exact ⟨record, hrecord, rfl, lt_of_not_ge hlate⟩

namespace Server

variable {σ : Type}

section Users

variable {s s' : Server σ} {id k : ℕ} {context ctx : UserContext}

/-- No session has a user it did not have. -/
def Sheds (s s' : Server σ) : Prop :=
  ∀ k context, s'.userContext k = some context → s.userContext k = some context

theorem Sheds.refl (s : Server σ) : Sheds s s := fun _ _ h => h

theorem Calm.sheds (h : Calm Session.userContext s s') : Sheds s s' := by
  intro k context hk
  rwa [h.userContext] at hk

theorem attach_users (h : (s.attach id context).userContext k = some ctx) :
    s.userContext k = some ctx ∨ ctx = context := by
  change (s.modifySession id (·.attachUserContext context)).userContext k = some ctx at h
  rw [userContext_modifySession] at h
  split_ifs at h
  · obtain ⟨session, -, hc⟩ := Option.bind_eq_some_iff.mp h
    exact .inr (Option.some.inj hc).symm
  · exact .inl h

theorem attach_user_self (h : (s.attach id context).userContext id = some ctx) : ctx = context := by
  change (s.modifySession id (·.attachUserContext context)).userContext id = some ctx at h
  rw [userContext_modifySession, if_pos rfl] at h
  obtain ⟨session, -, hc⟩ := Option.bind_eq_some_iff.mp h
  exact (Option.some.inj hc).symm

theorem clear_sheds (s : Server σ) (id : ℕ) :
    Sheds s (s.modifySession id Session.clearUserContext) := by
  intro k context h
  rw [userContext_modifySession] at h
  split_ifs at h
  · obtain ⟨session, -, hc⟩ := Option.bind_eq_some_iff.mp h
    cases hc
  · exact h

theorem reclaim_sheds (s : Server σ) (userId : Str) (id : ℕ) : Sheds s (s.reclaim userId id) := by
  unfold reclaim
  split
  · exact .refl s
  · rename_i existing _
    unfold takeOver
    split
    · exact .refl s
    · exact s.clear_sheds existing

theorem without_sheds (s : Server σ) (id : ℕ) : Sheds s (s.without id) := by
  intro k context h
  unfold without at h
  by_cases hid : id ∈ s.sessions
  · simp only [if_pos hid] at h
    exact s.clear_sheds id k context h
  · simp only [if_neg hid] at h
    exact h

/-- No token was issued, and users were given only to sessions that show their tokens. -/
def Grounded (s s' : Server σ) : Prop :=
  s.tokenService.Prunes s'.tokenService ∧
  ∀ k context, s'.userContext k = some context → s.userContext k = some context ∨
    ∃ record, s.tokenService.tokens[context.token]? = some record ∧
      record.userId = context.userId

theorem Grounded.refl (s : Server σ) : Grounded s s := ⟨.refl _, fun _ _ h => .inl h⟩

theorem Grounded.sheds {s'' : Server σ} (h : Grounded s s')
    (htokens : s''.tokenService = s'.tokenService) (hsheds : Sheds s' s'') : Grounded s s'' := by
  refine ⟨?_, fun k context hk => h.2 k context (hsheds k context hk)⟩
  rw [htokens]
  exact h.1

theorem Reconnects.record {payload : Bytes} {now : Time} {request : SessionReconnectRequest}
    {userId : Str} (h : Reconnects s payload now request userId) :
    ∃ record, s.tokenService.tokens[request.token]? = some record ∧ record.userId = userId ∧
      now < record.expiresAt :=
  TokenService.validateToken_record h.valid

theorem reclaim_tokens (s : Server σ) (userId : Str) (id : ℕ) :
    (s.reclaim userId id).tokenService = s.tokenService := by
  unfold reclaim
  split
  · rfl
  · unfold takeOver
    split
    · rfl
    · rfl

/-- A packet that is no accepted login gives its session at most the user of a token it shows. -/
theorem Outcome.grounded {header : FrameHeader} {payload : Bytes} {now : Time}
    (h : Outcome s id header payload now s') :
    (PacketType.ofCode header.type = some .loginReq ∧ ∃ request, Logs s id payload request) ∨
      Grounded s s' := by
  have hattach : ∀ request userId, Reconnects s payload now request userId →
      Grounded s ((s.reclaim userId id).attach id ⟨userId, request.token⟩) := by
    intro request userId hre
    obtain ⟨record, hrecord, huser, -⟩ := hre.record
    refine ⟨?_, fun k context hk => ?_⟩
    · show s.tokenService.Prunes (s.reclaim userId id).tokenService
      rw [reclaim_tokens]
      exact .refl _
    · rcases attach_users hk with hk | rfl
      · exact .inl (s.reclaim_sheds userId id k context hk)
      · exact .inr ⟨record, hrecord, huser⟩
  cases h with
  | calm h => exact .inr ((Grounded.refl s).sheds h.tokens h.users.sheds)
  | badToken tokenService h => exact .inr ⟨h, fun _ _ hk => .inl hk⟩
  | login request ht h => exact .inl ⟨ht, request, h⟩
  | logout ht h => exact .inr ((Grounded.refl s).sheds rfl (s.clear_sheds id))
  | reconnect request userId ht h hr =>
    refine .inr ((hattach request userId h).sheds rfl (Calm.sheds ?_))
    exact modifySession_calm _ id fun _ => rfl
  | clash request userId ht h hr => exact .inr ((hattach request userId h).sheds rfl (.refl _))
  | enter charId instanceId hu h =>
    exact .inr ((Grounded.refl s).sheds h.tokens h.users.sheds)
  | grant instanceId grantId h => exact .inr ((Grounded.refl s).sheds h.tokens h.users.sheds)
  | guild call user hu hc h => exact .inr ((Grounded.refl s).sheds h.tokens h.users.sheds)

end Users

section Logins

variable [InventoryStorage σ]

/-- The packet is a login of the user with the right password, and is answered with the token. -/
structure LogsIn (s : Server σ) (id : ℕ) (header : FrameHeader) (payload : Bytes) (now : Time)
    (userId token : Str) : Prop where
  type : PacketType.ofCode header.type = some .loginReq
  asked : ∃ body request, bodyOf s.securityPolicy payload = some body ∧
    decodeLoginRequest body = .ok request ∧ request.userId = userId ∧
    request.password = str "letmein"
  accepted : ∃ response, (s.answerPacket id header payload now).1 = some ⟨.loginRes, response⟩ ∧
    response.accepted = true ∧ response.token = token

/-- The event is such a login, at the time. -/
def Issues (s : Server σ) (e : ServerEvent) (token userId : Str) (time : Time) : Prop :=
  ∃ id header payload, e = .packet id header payload time ∧
    LogsIn s id header payload time userId token

variable {s : Server σ} {id : ℕ} {header : FrameHeader} {payload inner : Bytes} {now : Time}
  {session session' : Session} {userId token : Str}

/-- An accepted login gets to its handler and is accepted there. -/
theorem LogsIn.logs (h : LogsIn s id header payload now userId token) :
    ∃ session session' inner request, s.heap[id]? = some session ∧
      s.gatePacket session header payload now = (.passed inner, session') ∧
      Logs (s.receive id session' payload) id inner request ∧ request.userId = userId ∧
      (s.tokenService.issueToken userId now).1 = token := by
  obtain ⟨response, hanswer, haccepted, htoken⟩ := h.accepted
  obtain ⟨session, session', inner, hs, hg⟩ := passed_of_answer hanswer (by simp)
  refine ⟨session, session', inner, ?_⟩
  rw [answerPacket_of_passed hs hg, dispatch_login h.type, Option.some.injEq] at hanswer
  obtain ⟨body, request, hbody, hdecoded, huser, -⟩ := h.asked
  have hinner : body = inner := by
    have hpassed : (s.gatePacket session header payload now).1 = .passed inner := by rw [hg]
    rw [(gate_passed hpassed).2, Option.some.injEq] at hbody
    exact hbody.symm
  subst hinner
  rcases (s.receive id session' payload).handleLogin_cases id body now with
    ⟨request', hlogs⟩ | ⟨hrefused, -⟩
  · have hrequest : request' = request := by
      have hd := hlogs.decoded
      rw [hdecoded, Except.ok.injEq] at hd
      exact hd.symm
    subst hrequest
    refine ⟨request', hs, hg, hlogs, huser, ?_⟩
    rw [handleLogin_of_logs hlogs] at hanswer
    cases hanswer
    rw [← huser]
    exact htoken
  · cases hanswer
    rw [hrefused] at haccepted
    cases haccepted

/-- A login that its handler accepts is answered so. -/
theorem Logs.logsIn {request : LoginRequest} (hs : s.heap[id]? = some session)
    (hg : s.gatePacket session header payload now = (.passed inner, session'))
    (ht : PacketType.ofCode header.type = some .loginReq)
    (h : Logs (s.receive id session' payload) id inner request) :
    LogsIn s id header payload now request.userId
      (s.tokenService.issueToken request.userId now).1 := by
  have hpassed : (s.gatePacket session header payload now).1 = .passed inner := by rw [hg]
  refine ⟨ht, ⟨inner, request, (gate_passed hpassed).2, h.decoded, rfl, h.password⟩, ?_⟩
  rw [answerPacket_of_passed hs hg, dispatch_login ht, handleLogin_of_logs h]
  exact ⟨_, rfl, rfl, rfl⟩

end Logins

section Steps

variable [InventoryStorage σ]

/-- An accepted login puts its token on record, and gives its user to a session. -/
theorem step_issues {s : Server σ} {e : ServerEvent} {token userId : Str} {time : Time}
    (h : Issues s e token userId time) :
    (serverStep s e).tokenService.ttl = s.tokenService.ttl ∧
    (serverStep s e).tokenService.tokens =
      s.tokenService.tokens.insert token ⟨userId, time + s.tokenService.ttl⟩ ∧
    ∀ k context, (serverStep s e).userContext k = some context →
      s.userContext k = some context ∨ context.userId = userId := by
  obtain ⟨id, header, payload, rfl, hlogin⟩ := h
  obtain ⟨session, session', inner, request, hs, hg, hlogs, rfl, rfl⟩ := hlogin.logs
  have hstep : serverStep s (.packet id header payload time) =
      { s.receive id session' payload with
        tokenService := (s.tokenService.issueToken request.userId time).2 }.attach id
          ((s.receive id session' payload).loginContext request time) := by
    show (s.answerPacket id header payload time).2 = _
    rw [answerPacket_of_passed hs hg, dispatch_login hlogin.type, handleLogin_of_logs hlogs]
    rfl
  have hu := s.gatePacket_userContext session header payload time
  rw [hg] at hu
  rw [hstep]
  refine ⟨rfl, rfl, fun k context hk => ?_⟩
  rcases attach_users hk with hk | rfl
  · exact .inl ((s.receive_calm payload hs hu).sheds k context hk)
  · exact .inr rfl

/-- An event that is no accepted login issues no token, and gives users only to sessions that show
their tokens. -/
theorem step_grounded {s : Server σ} {e : ServerEvent}
    (h : ∀ token userId time, ¬ Issues s e token userId time) : Grounded s (serverStep s e) := by
  refine step_preserves (I := Grounded s) (fun t t' hcalm ht => ?_) (fun t id ht => ?_) (.refl s)
    ?_ ?_ ?_
  · exact ht.sheds hcalm.tokens hcalm.users.sheds
  · exact ht.sheds rfl (t.without_sheds id)
  · intro config now
    refine (Grounded.refl s).sheds rfl fun k context hk => ?_
    unfold createSession userContext at hk
    simp only [Dict.get?_insert] at hk
    split_ifs at hk
    · cases hk
    · exact hk
  · exact fun call _ => (Grounded.refl s).sheds rfl (.refl s)
  · rintro id header payload now rfl
    rcases s.handlePacket_outcome id header payload now with
      ⟨-, heq⟩ | ⟨session, gated, session', hs, hg, hway⟩
    · rw [heq]
      exact .refl s
    have hu := s.gatePacket_userContext session header payload now
    rw [hg] at hu
    have hreceived : Grounded s (s.receive id session' payload) :=
      (Grounded.refl s).sheds rfl (s.receive_calm payload hs hu).sheds
    rcases hway with ⟨-, hcalm⟩ | ⟨inner, rfl, hout⟩
    · exact hreceived.sheds hcalm.tokens hcalm.users.sheds
    · rcases hout.grounded with ⟨ht, request, hlogs⟩ | hground
      · exact absurd ⟨id, header, payload, rfl, hlogs.logsIn hs hg ht⟩ (h _ _ now)
      · refine ⟨hground.1, fun k context hk => ?_⟩
        rcases hground.2 k context hk with hk | hrecord
        · exact hreceived.2 k context hk
        · exact .inr hrecord

end Steps

section Runs

variable [InventoryStorage σ]

theorem Issues.token_unique {s : Server σ} {e : ServerEvent} {token token' userId userId' : Str}
    {time time' : Time} (h : Issues s e token userId time)
    (h' : Issues s e token' userId' time') : token = token' := by
  obtain ⟨id, header, payload, rfl, hlogin⟩ := h
  obtain ⟨_, _, _, heq, hlogin'⟩ := h'
  cases heq
  obtain ⟨response, hanswer, -, rfl⟩ := hlogin.accepted
  obtain ⟨response', hanswer', -, rfl⟩ := hlogin'.accepted
  rw [hanswer] at hanswer'
  simp only [Option.some.injEq, Answer.mk.injEq, heq_eq_eq, true_and] at hanswer'
  rw [hanswer']

/-- The token was issued to the user at the time, and not again since. -/
def LastIssue (l : List (Server σ × ServerEvent)) (token userId : Str) (time : Time) : Prop :=
  ∃ l₁ x l₂, l = l₁ ++ x :: l₂ ∧ Issues x.1 x.2 token userId time ∧
    ∀ y ∈ l₂, ∀ user t, ¬ Issues y.1 y.2 token user t

/-- What the steps of a run say of the tokens and users they led to. -/
structure Traced (lifetime : Time) (s : Server σ) (l : List (Server σ × ServerEvent)) : Prop where
  ttl : s.tokenService.ttl = lifetime
  tokens : ∀ (token : Str) (record : TokenRecord), s.tokenService.tokens[token]? = some record →
    ∃ time, LastIssue l token record.userId time ∧ record.expiresAt = time + lifetime
  users : ∀ k context, s.userContext k = some context →
    ∃ x ∈ l, ∃ token time, Issues x.1 x.2 token context.userId time

theorem LastIssue.append {l : List (Server σ × ServerEvent)} {token userId : Str} {time : Time}
    (h : LastIssue l token userId time) {x : Server σ × ServerEvent}
    (hx : ∀ user t, ¬ Issues x.1 x.2 token user t) : LastIssue (l ++ [x]) token userId time := by
  obtain ⟨l₁, y, l₂, rfl, hissue, hlast⟩ := h
  refine ⟨l₁, y, l₂ ++ [x], by simp, hissue, fun z hz => ?_⟩
  rcases List.mem_append.mp hz with hz | hz
  · exact hlast z hz
  · rw [List.mem_singleton.mp hz]
    exact hx

/-- The login behind a token is a step of the run. -/
theorem LastIssue.mem {l : List (Server σ × ServerEvent)} {token userId : Str} {time : Time}
    (h : LastIssue l token userId time) :
    ∃ x ∈ l, ∃ token time, Issues x.1 x.2 token userId time := by
  obtain ⟨l₁, x, l₂, rfl, hissue, -⟩ := h
  exact ⟨x, by simp, token, time, hissue⟩

theorem Traced.step {lifetime : Time} {s : Server σ} {l : List (Server σ × ServerEvent)}
    (h : Traced lifetime s l) (e : ServerEvent) :
    Traced lifetime (serverStep s e) (l ++ [(s, e)]) := by
  have hmem : ∀ {user : Str}, (∃ x ∈ l, ∃ token time, Issues x.1 x.2 token user time) →
      ∃ x ∈ l ++ [(s, e)], ∃ token time, Issues x.1 x.2 token user time := by
    rintro user ⟨x, hx, hissue⟩
    exact ⟨x, List.mem_append_left _ hx, hissue⟩
  by_cases hissue : ∃ token userId time, Issues s e token userId time
  · obtain ⟨token, userId, time, hissue⟩ := hissue
    obtain ⟨httl, htokens, husers⟩ := step_issues hissue
    refine ⟨httl.trans h.ttl, fun token' record hrecord => ?_, fun k context hk => ?_⟩
    · rw [htokens, Dict.get?_insert] at hrecord
      split_ifs at hrecord with heq
      · subst heq
        cases hrecord
        exact ⟨time, ⟨l, (s, e), [], rfl, hissue, by simp⟩, by rw [h.ttl]⟩
      · obtain ⟨time', hlast, hexp⟩ := h.tokens token' record hrecord
        exact ⟨time', hlast.append fun user t hno => heq (hissue.token_unique hno), hexp⟩
    · rcases husers k context hk with hk | rfl
      · exact hmem (h.users k context hk)
      · exact ⟨(s, e), by simp, token, time, hissue⟩
  · have hno : ∀ token userId time, ¬ Issues s e token userId time :=
      fun token userId time hi => hissue ⟨token, userId, time, hi⟩
    obtain ⟨⟨tokens, htokens, hsub⟩, husers⟩ := step_grounded hno
    refine ⟨?_, fun token record hrecord => ?_, fun k context hk => ?_⟩
    · rw [htokens]
      exact h.ttl
    · rw [htokens] at hrecord
      obtain ⟨time, hlast, hexp⟩ := h.tokens token record (hsub token record hrecord)
      exact ⟨time, hlast.append fun user t => hno token user t, hexp⟩
    · rcases husers k context hk with hk | ⟨record, hrecord, huser⟩
      · exact hmem (h.users k context hk)
      · obtain ⟨time, hlast, -⟩ := h.tokens _ record hrecord
        rw [← huser]
        exact hmem hlast.mem

/-- The tokens and users of every state of a server, traced back. -/
theorem traced_after (inventoryStorage : σ) (securityPolicy : SecurityPolicy)
    (tokenBytes : Draws UInt8) (seeds : Draws { n : UInt32 // n ≠ 0 }) (ticketBytes : Draws UInt8)
    (clock : Draws Time) (es : List ServerEvent) :
    Traced (seconds 300)
      (after serverStep
        (Server.new inventoryStorage securityPolicy tokenBytes seeds ticketBytes clock) es)
      (trail serverStep
        (Server.new inventoryStorage securityPolicy tokenBytes seeds ticketBytes clock) es) := by
  refine history (fun s l e h => h.step e) es _ []
    ⟨rfl, fun token record h => ?_, fun k context h => ?_⟩
  · change (∅ : Dict Str TokenRecord)[token]? = some record at h
    rw [Dict.get?_empty] at h
    cases h
  · change (∅ : Dict ℕ Session)[k]?.bind _ = some context at h
    rw [Dict.get?_empty] at h
    cases h

/-- A packet that is answered with an accepted reconnect shows a good token, and its session gets
the token's user. -/
theorem reconnects_of_answer {s : Server σ} {id : ℕ} {header : FrameHeader} {payload body : Bytes}
    {t : Time} {request : SessionReconnectRequest} {response : SessionReconnectResponse}
    (ht : PacketType.ofCode header.type = some .sessionReconnectReq)
    (hbody : bodyOf s.securityPolicy payload = some body)
    (hdecoded : decodeSessionReconnectRequest body = .ok request)
    (hanswer : (s.answerPacket id header payload t).1 = some ⟨.sessionReconnectRes, response⟩)
    (hsuccess : response.success = true) :
    ∃ session session' userId, s.heap[id]? = some session ∧
      s.gatePacket session header payload t = (.passed body, session') ∧
      Reconnects (s.receive id session' payload) body t request userId ∧
      (s.handlePacket id header payload t).2 =
        (s.receive id session' payload).resume id request userId := by
  obtain ⟨session, session', inner, hs, hg⟩ := passed_of_answer hanswer (by simp)
  have hinner : body = inner := by
    have hpassed : (s.gatePacket session header payload t).1 = .passed inner := by rw [hg]
    rw [(gate_passed hpassed).2, Option.some.injEq] at hbody
    exact hbody.symm
  subst hinner
  have hway := answerPacket_of_passed hs hg
  rw [dispatch_reconnect ht] at hway
  rw [hway] at hanswer
  cases hanswer
  rcases (s.receive id session' payload).handleReconnect_refused id body t with
    ⟨hrefused, -⟩ | ⟨request', userId, hre⟩
  · rw [hrefused] at hsuccess
    cases hsuccess
  · have hrequest : request' = request := by
      have hd := hre.decoded
      rw [hdecoded, Except.ok.injEq] at hd
      exact hd.symm
    subst hrequest
    refine ⟨session, session', userId, hs, hg, hre, ?_⟩
    show (s.answerPacket id header payload t).2 = _
    rw [handleReconnect_success hre] at hsuccess
    rw [hway]
    show ((s.receive id session' payload).handleReconnect id body t).2 = _
    rw [handleReconnect_of_valid hre, if_pos hsuccess]

/-- A session has a user only after a login of the user was accepted; and a reconnect is accepted
only for the user to whom its token was issued last, before the token has expired. -/
theorem users_from_logins (inventoryStorage : σ) (securityPolicy : SecurityPolicy)
    (tokenBytes : Draws UInt8) (seeds : Draws { n : UInt32 // n ≠ 0 }) (ticketBytes : Draws UInt8)
    (clock : Draws Time) (es : List ServerEvent) :
    let l := trail serverStep
      (Server.new inventoryStorage securityPolicy tokenBytes seeds ticketBytes clock) es
    let s := after serverStep
      (Server.new inventoryStorage securityPolicy tokenBytes seeds ticketBytes clock) es
    (∀ id context, s.userContext id = some context →
      ∃ x ∈ l, ∃ token time, Issues x.1 x.2 token context.userId time) ∧
    ∀ id header payload t body request response context,
      PacketType.ofCode header.type = some .sessionReconnectReq →
      bodyOf s.securityPolicy payload = some body →
      decodeSessionReconnectRequest body = .ok request →
      (s.answerPacket id header payload t).1 = some ⟨.sessionReconnectRes, response⟩ →
      response.success = true →
      (s.handlePacket id header payload t).2.userContext id = some context →
      ∃ t₀, LastIssue l request.token context.userId t₀ ∧ t < t₀ + seconds 300 := by
  intro l s
  have hs : Traced (seconds 300) s l := traced_after ..
  refine ⟨hs.users, ?_⟩
  intro id header payload t body request response context ht hbody hdecoded hanswer hsuccess huser
  obtain ⟨session, session', userId, -, -, hre, hstate⟩ :=
    reconnects_of_answer ht hbody hdecoded hanswer hsuccess
  obtain ⟨record, hrecord, rfl, hfresh⟩ := hre.record
  have hcontext : context = ⟨record.userId, request.token⟩ := by
    rw [hstate] at huser
    have hcalm : Calm Session.userContext _ ((s.receive id session' payload).resume id request
      record.userId) := modifySession_calm _ id fun _ => rfl
    rw [hcalm.userContext] at huser
    exact attach_user_self huser
  obtain ⟨t₀, hlast, hexp⟩ := hs.tokens request.token record hrecord
  rw [hcontext]
  exact ⟨t₀, hlast, hexp ▸ hfresh⟩

end Runs

end Server

end DungeonHub
