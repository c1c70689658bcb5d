import DungeonHub.Proofs.Renaming

/-!
# What a logout leaves of a token

A logout takes the user from its session and from the registry. Tokens are forgotten only when they
are shown after they have expired, so the one the session was given stays as good as it was.
-/

namespace DungeonHub

open Run Wire

theorem TokenService.validateToken_tokens (t : TokenService) (token a : Str) (now : Time) :
    (t.validateToken token now).2.tokens[a]? =
      if token = a then t.tokens[a]?.filter fun record => now < record.expiresAt
      else t.tokens[a]? := by
  unfold validateToken
  rcases h : t.tokens[token]? with _ | record
  · split_ifs with ha
    · rw [← ha, h]
      rfl
    · rfl
  · by_cases hlate : record.expiresAt ≤ now
    · simp only [ge_iff_le, if_pos hlate]
      split_ifs with ha
      · rw [← ha, h, Dict.get?_erase_self, Option.filter_some, decide_eq_false (not_lt.mpr hlate)]
        rfl
      · exact Dict.get?_erase_of_ne _ ha
    · simp only [ge_iff_le, if_neg hlate]
      split_ifs with ha
      · rw [← ha, h, Option.filter_some, decide_eq_true (not_le.mp hlate)]
        rfl
      · rfl

namespace Server

variable {σ : Type}

section Tokens

theorem handleReconnect_tokens {s : Server σ} {id : ℕ} {payload : Bytes} {now : Time}
    {request : SessionReconnectRequest} (hd : decodeSessionReconnectRequest payload = .ok request) :
    (s.handleReconnect id payload now).2.tokenService =
      (s.tokenService.validateToken request.token now).2 := by
  rcases hv : s.tokenService.validateToken request.token now with ⟨_ | user, tokenService⟩
  · unfold handleReconnect
    rw [hd]
    simp only [hv]
    rfl
  · obtain rfl := TokenService.validateToken_some hv
    rw [handleReconnect_of_valid ⟨hd, hv⟩]
    split_ifs
    · exact s.reclaim_tokens user id
    · exact s.reclaim_tokens user id

variable [InventoryStorage σ]

/-- A packet that is no reconnect and no accepted login leaves the tokens alone. -/
theorem dispatch_tokens (s : Server σ) (id : ℕ) {header : FrameHeader} (payload : Bytes)
    (now : Time) (ht : PacketType.ofCode header.type ≠ some .sessionReconnectReq) :
    (s.dispatch id header payload now).2.tokenService = s.tokenService ∨
      (PacketType.ofCode header.type = some .loginReq ∧ ∃ request, Logs s id payload request) := by
  have hguild : ∀ {s' : Server σ}, GuildEffect s s' id → s'.tokenService = s.tokenService := by
    rintro s' (h | ⟨call, user, -, -, h⟩)
    · exact h.tokens
    · exact h.tokens
  unfold dispatch
  split
  · rename_i hlogin
    rcases s.handleLogin_cases id payload now with ⟨request, h⟩ | ⟨-, h⟩
    · exact .inr ⟨hlogin, request, h⟩
    · refine .inl ?_
      show (s.handleLogin id payload now).2.tokenService = _
      rw [h]
      rfl
  · refine .inl ?_
    show (s.handleLogout id payload).2.tokenService = _
    unfold handleLogout
    split <;> rfl
  · rename_i hreconnect
    exact absurd hreconnect ht
  · exact .inl (s.handleMatch_calm id header.version payload now).tokens
  · rcases s.handleEnter_effect id payload with ⟨-, h⟩ | ⟨-, -, _, _, h⟩
    · exact .inl h.tokens
    · exact .inl h.tokens
  · rcases s.handleResult_effect id payload with ⟨-, h⟩ | ⟨-, _, _, -, -, h⟩
    · exact .inl h.tokens
    · exact .inl h.tokens
  · exact .inl (s.handleInventoryUpdate_calm id payload).tokens
  · exact .inl (hguild (s.handleGuildCreate_effect id payload))
  · exact .inl (hguild (s.handleGuildJoin_effect id payload))
  · exact .inl (hguild (s.handleGuildLeave_effect id payload))
  · exact .inl (s.handleChat_calm id payload).tokens
  · exact .inl rfl

end Tokens

section Steps

variable [InventoryStorage σ] {s : Server σ} {id : ℕ} {header : FrameHeader} {payload : Bytes}
  {now : Time} {token : Str}

omit [InventoryStorage σ] in
/-- The packet gets to the handler of reconnects and shows the token there. -/
structure Presents (s : Server σ) (id : ℕ) (header : FrameHeader) (payload : Bytes) (now : Time)
    (token : Str) : Prop where
  type : PacketType.ofCode header.type = some .sessionReconnectReq
  reached : ∃ session session' body request, s.heap[id]? = some session ∧
    s.gatePacket session header payload now = (.passed body, session') ∧
    decodeSessionReconnectRequest body = .ok request ∧ request.token = token

/-- The event is such a packet, at the time. -/
def Shows (s : Server σ) (e : ServerEvent) (token : Str) (time : Time) : Prop :=
  ∃ id header payload, e = .packet id header payload time ∧
    Presents s id header payload time token

/-- A packet that shows the token has it forgotten if it has expired; no other packet but a login
changes what is on record of it. -/
theorem packet_tokens
    (hissue : ∀ user time, ¬ Issues s (.packet id header payload now) token user time) :
    (Presents s id header payload now token ∧
      (s.handlePacket id header payload now).2.tokenService.tokens[token]? =
        s.tokenService.tokens[token]?.filter fun record => now < record.expiresAt) ∨
    (¬ Presents s id header payload now token ∧
      (s.handlePacket id header payload now).2.tokenService.tokens[token]? =
        s.tokenService.tokens[token]?) := by
  rcases hs : s.heap[id]? with _ | session
  · refine .inr ⟨?_, ?_⟩
    · rintro ⟨-, _, _, _, _, hs', -⟩
      rw [hs] at hs'
      cases hs'
    · show (s.answerPacket id header payload now).2.tokenService.tokens[token]? = _
      unfold answerPacket
      rw [hs]
  have hreached : ∀ {gated session'}, s.gatePacket session header payload now = (gated, session') →
      Presents s id header payload now token → ∃ body request, gated = .passed body ∧
        decodeSessionReconnectRequest body = .ok request ∧ request.token = token := by
    rintro gated session' hg ⟨-, found, passed, body, request, hs', hg', hd⟩
    obtain ⟨_, rfl, hd⟩ := (exists_passed_iff (C := fun body =>
      decodeSessionReconnectRequest body = .ok request ∧ request.token = token) hs hg).mp
      ⟨found, passed, body, hs', hg', hd⟩
    exact ⟨_, request, rfl, hd⟩
  show (_ ∧ (s.answerPacket id header payload now).2.tokenService.tokens[token]? = _) ∨
    (_ ∧ (s.answerPacket id header payload now).2.tokenService.tokens[token]? = _)
  rw [answerPacket_of_some hs]
  rcases hg : s.gatePacket session header payload now with ⟨_ | reject | body, session'⟩
  · refine .inr ⟨fun h => ?_, rfl⟩
    obtain ⟨_, _, hno, -⟩ := hreached hg h
    cases hno
  · refine .inr ⟨fun h => ?_, rfl⟩
    obtain ⟨_, _, hno, -⟩ := hreached hg h
    cases hno
  by_cases ht : PacketType.ofCode header.type = some .sessionReconnectReq
  · simp only [dispatch_reconnect ht]
    rcases hd : decodeSessionReconnectRequest body with e | request
    · refine .inr ⟨fun h => ?_, ?_⟩
      · obtain ⟨_, request, heq, hd', -⟩ := hreached hg h
        cases heq
        rw [hd] at hd'
        cases hd'
      · unfold handleReconnect
        rw [hd]
        rfl
    · rw [handleReconnect_tokens hd, TokenService.validateToken_tokens]
      split_ifs with htoken
      · exact .inl ⟨⟨ht, session, session', body, request, hs, hg, hd, htoken⟩, rfl⟩
      · refine .inr ⟨fun h => ?_, rfl⟩
        obtain ⟨_, request', heq, hd', htoken'⟩ := hreached hg h
        cases heq
        rw [hd, Except.ok.injEq] at hd'
        exact htoken (hd' ▸ htoken')
  · refine .inr ⟨fun h => ht h.type, ?_⟩
    rcases (s.receive id session' payload).dispatch_tokens id body now ht with
      hsame | ⟨hlogin, request, hlogs⟩
    · simp only [hsame]
      rfl
    · have hi := hlogs.logsIn hs hg hlogin
      obtain ⟨-, htokens, -⟩ := step_issues ⟨id, header, payload, rfl, hi⟩
      have hstep : (serverStep s (.packet id header payload now)).tokenService.tokens[token]? =
          s.tokenService.tokens[token]? := by
        rw [htokens, Dict.get?_insert_of_ne]
        rintro rfl
        exact hissue _ _ ⟨id, header, payload, rfl, hi⟩
      rw [← hstep]
      show _ = (s.answerPacket id header payload now).2.tokenService.tokens[token]?
      rw [answerPacket_of_passed hs hg]

/-- What is on record of a token changes, if no login issues it again, only when it is shown. -/
theorem step_tokens {e : ServerEvent} (hissue : ∀ user time, ¬ Issues s e token user time) :
    (∃ time, Shows s e token time ∧ (serverStep s e).tokenService.tokens[token]? =
      s.tokenService.tokens[token]?.filter fun record => time < record.expiresAt) ∨
    ((∀ time, ¬ Shows s e token time) ∧
      (serverStep s e).tokenService.tokens[token]? = s.tokenService.tokens[token]?) := by
  by_cases hpacket : ∃ id header payload now, e = .packet id header payload now
  · obtain ⟨id, header, payload, now, rfl⟩ := hpacket
    rcases packet_tokens hissue with ⟨hp, heq⟩ | ⟨hp, heq⟩
    · exact .inl ⟨now, ⟨id, header, payload, rfl, hp⟩, heq⟩
    · refine .inr ⟨fun time hshow => ?_, heq⟩
      obtain ⟨id', header', payload', h, hp'⟩ := hshow
      cases h
      exact hp hp'
  · refine .inr ⟨fun time hshow => ?_, ?_⟩
    · obtain ⟨id, header, payload, h, -⟩ := hshow
      exact hpacket ⟨id, header, payload, time, h⟩
    · have hsame : (serverStep s e).tokenService = s.tokenService := by
        refine step_preserves (I := fun t => t.tokenService = s.tokenService)
          (fun t t' hcalm ht => hcalm.tokens.trans ht) (fun t id ht => ht) rfl
          (fun config now => rfl) (fun call _ => rfl) fun id header payload now h => ?_
        exact absurd ⟨id, header, payload, now, h⟩ hpacket
      rw [hsame]

omit [InventoryStorage σ] in
theorem Shows.time_unique {e : ServerEvent} {time time' : Time} (h : Shows s e token time)
    (h' : Shows s e token time') : time = time' := by
  obtain ⟨_, _, _, rfl, -⟩ := h
  obtain ⟨_, _, _, heq, -⟩ := h'
  cases heq
  rfl

theorem step_record {e : ServerEvent} (hissue : ∀ user time, ¬ Issues s e token user time)
    {record : TokenRecord} :
    (serverStep s e).tokenService.tokens[token]? = some record ↔
      s.tokenService.tokens[token]? = some record ∧
        ∀ time, Shows s e token time → time < record.expiresAt := by
  rcases step_tokens hissue with ⟨time, hshow, heq⟩ | ⟨hno, heq⟩
  · rw [heq, Option.filter_eq_some_iff, decide_eq_true_iff]
    refine and_congr_right fun _ => ⟨fun hlive time' hshow' => ?_, fun h => h time hshow⟩
    exact hshow.time_unique hshow' ▸ hlive
  · rw [heq]
    exact ⟨fun h => ⟨h, fun time hshow => absurd hshow (hno time)⟩, And.left⟩

/-- Over a run in which no login issues a token again, what is on record of it stays just if it had
not expired any time it was shown. -/
theorem after_record {record : TokenRecord} :
    ∀ (es : List ServerEvent) (s : Server σ),
      (∀ x ∈ trail serverStep s es, ∀ user time, ¬ Issues x.1 x.2 token user time) →
      ((after serverStep s es).tokenService.tokens[token]? = some record ↔
        s.tokenService.tokens[token]? = some record ∧
          ∀ x ∈ trail serverStep s es, ∀ time, Shows x.1 x.2 token time → time < record.expiresAt)
  | [], s, _ => by
    rw [after_nil]
    exact ⟨fun h => ⟨h, fun x hx => absurd hx List.not_mem_nil⟩, And.left⟩
  | e :: es, s, hissue => by
    rw [trail_cons] at hissue
    rw [after_cons, trail_cons, List.forall_mem_cons,
      after_record es _ fun x hx => hissue x (List.mem_cons_of_mem _ hx),
      step_record (hissue (s, e) List.mem_cons_self), and_assoc]

/-- A token that is shown is accepted just if it is on record and has not expired. -/
theorem Orderly.presents_success (hs : Orderly s) (h : Presents s id header payload now token) :
    (∃ response, (s.answerPacket id header payload now).1 =
      some ⟨.sessionReconnectRes, response⟩ ∧ response.success = true) ↔
    ∃ record, s.tokenService.tokens[token]? = some record ∧ now < record.expiresAt := by
  obtain ⟨session, session', body, request, hsession, hg, hd, rfl⟩ := h.reached
  have hanswer : (s.answerPacket id header payload now).1 = some ⟨.sessionReconnectRes,
      ((s.receive id session' payload).handleReconnect id body now).1⟩ := by
    rw [answerPacket_of_passed hsession hg, dispatch_reconnect h.type]
  rw [hanswer]
  constructor
  · rintro ⟨response, heq, hsuccess⟩
    cases heq
    rcases (s.receive id session' payload).handleReconnect_refused id body now with
      ⟨hrefused, -⟩ | ⟨request', userId, hre⟩
    · rw [hrefused] at hsuccess
      cases hsuccess
    · obtain ⟨record, hrecord, -, hlive⟩ := hre.record
      have hd' := hre.decoded
      rw [hd, Except.ok.injEq] at hd'
      subst hd'
      exact ⟨record, hrecord, hlive⟩
  · rintro ⟨record, hrecord, hlive⟩
    have hvalid : s.tokenService.validateToken request.token now =
        (some record.userId, s.tokenService) := by
      unfold TokenService.validateToken
      rw [hrecord]
      exact if_neg (not_le.mpr hlive)
    exact ⟨_, rfl, (hs.receive hsession hg).reconnect_success ⟨hd, hvalid⟩ id⟩

end Steps

section Runs

variable [InventoryStorage σ]

theorem logout_effect {s : Server σ} {id : ℕ} {header : FrameHeader} {payload : Bytes} {now : Time}
    {response : LogoutResponse}
    (ht : PacketType.ofCode header.type = some .logoutReq)
    (hanswer : (s.answerPacket id header payload now).1 = some ⟨.logoutRes, response⟩)
    (hsuccess : response.success = true) :
    (s.handlePacket id header payload now).2.tokenService = s.tokenService ∧
      (s.handlePacket id header payload now).2.userContext id = none ∧
      (s.handlePacket id header payload now).2.sessionUser id = none := by
  obtain ⟨session, session', inner, hs, hg⟩ := passed_of_answer hanswer (by simp)
  have hway := answerPacket_of_passed hs hg
  rw [dispatch_logout ht] at hway
  rw [hway] at hanswer
  cases hanswer
  show (s.answerPacket id header payload now).2.tokenService = _ ∧
    (s.answerPacket id header payload now).2.userContext id = none ∧
    (s.answerPacket id header payload now).2.sessionUser id = none
  rw [hway]
  unfold handleLogout at hsuccess ⊢
  split at hsuccess
  · cases hsuccess
  · refine ⟨rfl, ?_, ?_⟩
    · exact (userContext_clear _ id id).trans (if_pos rfl)
    · unfold sessionUser SessionRegistry.find SessionRegistry.removeSession
      split
      · assumption
      · exact Dict.get?_erase_self _ _

/-- An accepted logout ends the login and leaves every token as it was: a reconnect that shows one
later, not issued again since, is accepted just if the token was on record at the logout and had not
expired this time or any other time it was shown in between. -/
theorem logout_keeps_token (inventoryStorage : σ) (securityPolicy : SecurityPolicy)
    (tokenBytes : Draws UInt8) (seeds : Draws { n : UInt32 // n ≠ 0 }) (ticketBytes : Draws UInt8)
    (clock : Draws Time) (es : List ServerEvent) (s : Server σ)
    (hes : s = after serverStep
      (Server.new inventoryStorage securityPolicy tokenBytes seeds ticketBytes clock) es)
    (id : ℕ) (header : FrameHeader) (payload : Bytes) (now : Time) (response : LogoutResponse)
    (ht : PacketType.ofCode header.type = some .logoutReq)
    (hanswer : (s.answerPacket id header payload now).1 = some ⟨.logoutRes, response⟩)
    (hsuccess : response.success = true) (es' : List ServerEvent) (token : Str) :
    let l := trail serverStep (s.handlePacket id header payload now).2 es'
    let s' := after serverStep (s.handlePacket id header payload now).2 es'
    (s.handlePacket id header payload now).2.userContext id = none ∧
    (s.handlePacket id header payload now).2.sessionUser id = none ∧
    ((∀ x ∈ l, ∀ user time, ¬ Issues x.1 x.2 token user time) →
      ∀ id' header' payload' now', Presents s' id' header' payload' now' token →
        ((∃ response', (s'.answerPacket id' header' payload' now').1 =
            some ⟨.sessionReconnectRes, response'⟩ ∧ response'.success = true) ↔
          ∃ record, s.tokenService.tokens[token]? = some record ∧
            now' < record.expiresAt ∧
            ∀ x ∈ l, ∀ time, Shows x.1 x.2 token time → time < record.expiresAt)) := by
  intro l s'
  obtain ⟨htokens, hnone, hout⟩ := logout_effect ht hanswer hsuccess
  refine ⟨hnone, hout, fun hissue id' header' payload' now' hshown => ?_⟩
  have hs : Orderly s' := by
    have hreached : s' = after serverStep
        (Server.new inventoryStorage securityPolicy tokenBytes seeds ticketBytes clock)
        (es ++ .packet id header payload now :: es') := by
      rw [after_append, ← hes]
      rfl
    rw [hreached]
    exact stable (I := Orderly) (fun _ e hs => hs.step e) _ (orderly_new ..)
  rw [hs.presents_success hshown]
  refine exists_congr fun record => ?_
  rw [after_record es' _ hissue, htokens, and_assoc]
  exact and_congr_right fun _ => and_comm

/-- A user logs in on session 1; session 2 stands by. -/
def stoodBy : List ServerEvent :=
  [.createSession {} 0, .createSession {} 0,
    packetOf 1 .loginReq (encodeLoginRequest ⟨str "u", str "letmein"⟩)]

def loggingOut : Bytes := encodeLogoutRequest ⟨⟩

theorem stoodBy_presents :
    Presents (serverStep (after serverStep (still {}) stoodBy) (packetOf 1 .logoutReq loggingOut))
      2 (headerOf .sessionReconnectReq reconnecting) reconnecting 0 (List.replicate 32 48) := by
  have hsome : (serverStep (after serverStep (still {}) stoodBy)
      (packetOf 1 .logoutReq loggingOut)).heap[2]?.isSome := by
    decide +kernel
  obtain ⟨session, hs⟩ := Option.isSome_iff_exists.mp hsome
  exact ⟨by decide, session, _, reconnecting, ⟨List.replicate 32 48, 0⟩, hs,
    gatePacket_open (by decide +kernel) (by decide +kernel) (by decide +kernel) (by decide) ..,
    by decide, rfl⟩

/-- The token of the login is accepted on the other session after the logout. -/
theorem logout_keeps_token_again :
    (serverStep (after serverStep (still {}) stoodBy)
      (packetOf 1 .logoutReq loggingOut)).userContext 1 = none ∧
    ∃ response : SessionReconnectResponse, ((serverStep (after serverStep (still {}) stoodBy)
        (packetOf 1 .logoutReq loggingOut)).answerPacket 2
          (headerOf .sessionReconnectReq reconnecting) reconnecting 0).1 =
        some ⟨.sessionReconnectRes, response⟩ ∧ response.success = true := by
  obtain ⟨hnone, -, h⟩ := logout_keeps_token _ _ _ _ _ _ stoodBy
    (after serverStep (still {}) stoodBy) rfl 1 (headerOf .logoutReq loggingOut) loggingOut 0
    ⟨true, str "Logout successful"⟩ (by decide) (by decide +kernel) rfl [] (List.replicate 32 48)
  refine ⟨hnone, (h (fun x hx => absurd hx List.not_mem_nil) 2 _ _ 0 stoodBy_presents).mpr ?_⟩
  exact ⟨⟨str "u", seconds 300⟩, by decide +kernel, by decide,
    fun x hx => absurd hx List.not_mem_nil⟩

/-- A token outlives the logout of the session that was given it. -/
theorem logged_out_token_accepted :
    ¬ ∀ (es : List ServerEvent) (id : ℕ) (context : UserContext),
      (after serverStep (still {}) es).userContext id = some context →
      ∀ (header : FrameHeader) (payload : Bytes) (now : Time) (response : LogoutResponse),
      PacketType.ofCode header.type = some .logoutReq →
      ((after serverStep (still {}) es).answerPacket id header payload now).1 =
        some ⟨.logoutRes, response⟩ →
      response.success = true →
      ∀ es' : List ServerEvent,
      (∀ x ∈ trail serverStep ((after serverStep (still {}) es).handlePacket id header payload now).2
        es', ∀ user time, ¬ Issues x.1 x.2 context.token user time) →
      ∀ id' header' payload' now',
      Presents (after serverStep
        ((after serverStep (still {}) es).handlePacket id header payload now).2 es')
        id' header' payload' now' context.token →
      ∀ response' : SessionReconnectResponse,
      ((after serverStep ((after serverStep (still {}) es).handlePacket id header payload now).2
        es').answerPacket id' header' payload' now').1 = some ⟨.sessionReconnectRes, response'⟩ →
      response'.success = false := by
  intro h
  refine absurd (h stoodBy 1 ⟨str "u", List.replicate 32 48⟩ (by decide +kernel)
    (headerOf .logoutReq loggingOut) loggingOut 0 ⟨true, str "Logout successful"⟩ (by decide)
    (by decide +kernel) rfl [] (fun x hx => absurd hx List.not_mem_nil) 2
    (headerOf .sessionReconnectReq reconnecting) reconnecting 0 stoodBy_presents
    ⟨true, str "Reconnect accepted", 2, 1⟩ (by decide +kernel)) (by decide)

end Runs

end Server

end DungeonHub
