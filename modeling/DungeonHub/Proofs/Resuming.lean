import DungeonHub.Proofs.Logout
import DungeonHub.Proofs.Replay

/-!
# Where a session resumes

An accepted reconnect tells the client the sequence number to go on from. It is the one after the
session's, which the replay check lets through, up to the top of the range of 32 bits: there it
starts again from zero.
-/

namespace DungeonHub

open Run Wire

/-- The sequence number follows the session's own, and with it, a new nonce and a signature a packet
passes the replay check, and the gate if nothing else holds it back. -/
structure Resumable (policy : SecurityPolicy) (session : Session) (seq : UInt32) : Prop where
  follows : seq.toNat = session.lastSeq.toNat + 1
  admitted : policy.enableReplayProtection = true →
    ∀ (payload inner : Bytes) (sec : SecurityHeader),
      unwrapSecurePayload payload = .ok (sec, inner) → sec.seq = seq →
      sec.nonce ∉ session.nonceCache → verifySignature policy.hmacKey sec inner = true →
      (replayCheck sec session).1 = true ∧
      ∀ (header : FrameHeader) (now : Time),
        (policy.requireTls = true → session.tlsEstablished = true) →
        kMinProtocolVersion ≤ header.version ∧ header.version ≤ kMaxProtocolVersion →
        (gate policy header payload
          ((session.onReceive now).setProtocolVersion header.version)).1 = .passed inner

theorem toNat_resume_iff (n : UInt64) :
    (n + 1).toUInt32.toNat = n.toNat + 1 ↔ n.toNat + 1 < 2 ^ 32 := by
  rw [UInt64.toNat_toUInt32, UInt64.toNat_add, UInt64.toNat_one]
  omega

theorem toNat_max (m n : UInt64) : (max m n).toNat = max m.toNat n.toNat := by
  show (ite _ _ _ : UInt64).toNat = _
  split_ifs with h
  · rw [max_eq_right (UInt64.le_iff_toNat_le.mp h)]
  · rw [max_eq_left]
    exact Nat.le_of_lt (UInt64.lt_iff_toNat_lt.mp (UInt64.not_le.mp h))

/-- The number after the session's is as good as it can be. -/
theorem resumable_iff (policy : SecurityPolicy) (session : Session) (seq : UInt32) :
    Resumable policy session seq ↔ seq.toNat = session.lastSeq.toNat + 1 := by
  refine ⟨fun h => h.follows, fun hseq => ⟨hseq, ?_⟩⟩
  intro hre payload inner sec hun hsec hnonce hverify
  have hlt : session.lastSeq < sec.seq.toUInt64 := by
    rw [UInt64.lt_iff_toNat_lt, UInt32.toNat_toUInt64, hsec, hseq]
    exact Nat.lt_succ_self _
  refine ⟨(replayCheck_iff sec session).mpr ⟨hlt, hnonce⟩, fun header now htls hversion => ?_⟩
  have hpasses : Passes policy ((session.onReceive now).setProtocolVersion header.version) header
      payload :=
    ⟨htls, hversion, fun _ => ⟨sec, inner, hun, hverify⟩, fun _ => ⟨sec, inner, hun, hlt, hnonce⟩⟩
  obtain ⟨body, hbody⟩ := gate_passed_iff.mpr hpasses
  have hcarried := (gate_passed hbody).2
  unfold bodyOf at hcarried
  rw [if_pos (by simp [hre]), hun] at hcarried
  rw [hbody]
  exact congrArg Gated.passed (Option.some.inj hcarried).symm

namespace Server

variable {σ : Type} {s : Server σ}

/-- The session of an accepted reconnect is there, with the restored sequence number. -/
theorem resume_session {id : ℕ} (hid : id ∈ s.heap) (request : SessionReconnectRequest)
    (userId : Str) : ∃ session, (s.resume id request userId).heap[id]? = some session ∧
      session.lastSeq = s.restoredLastSeq id request userId := by
  have hsteady := (s.reclaim_steady userId id).trans
    (attach_steady (s.reclaim userId id) id ⟨userId, request.token⟩)
  obtain ⟨session, hsession⟩ := (Dict.mem_iff _ _).mp ((hsteady.heap.mem id).mpr hid)
  refine ⟨session.setLastSeq (s.restoredLastSeq id request userId), ?_, rfl⟩
  show (Std.ExtTreeMap.modify _ id _)[id]? = _
  rw [Dict.get?_modify, if_pos rfl, hsession]
  rfl

variable [InventoryStorage σ]

/-- The answer to a reconnect can be gone on from if and only if neither the client nor the session
it takes over is at the end of the sequence numbers. -/
theorem resume_usable {id : ℕ} {header : FrameHeader} {payload : Bytes} {now : Time}
    {response : SessionReconnectResponse}
    (hanswer : (s.answerPacket id header payload now).1 = some ⟨.sessionReconnectRes, response⟩)
    (hsuccess : response.success = true) :
    ∃ session body request userId,
      (s.handlePacket id header payload now).2.heap[id]? = some session ∧
      bodyOf s.securityPolicy payload = some body ∧
      decodeSessionReconnectRequest body = .ok request ∧
      (s.tokenService.validateToken request.token now).1 = some userId ∧
      (Resumable s.securityPolicy session response.resumeFromSeq ↔
        request.lastSeq.toNat + 1 < 2 ^ 32 ∧
        (s.previousLastSeq (s.registry.heldByOther userId id)).toNat + 1 < 2 ^ 32) := by
  obtain ⟨session₀, session₁, body, hs, hg⟩ := passed_of_answer hanswer (by simp)
  have hbody := (gate_passed (congrArg Prod.fst hg)).2
  have hway := answerPacket_of_passed hs hg
  have ht : PacketType.ofCode header.type = some .sessionReconnectReq := by
    rw [hway] at hanswer
    exact dispatch_request hanswer
  have hstate : (s.handlePacket id header payload now).2 =
      ((s.receive id session₁ payload).handleReconnect id body now).2 := by
    show (s.answerPacket id header payload now).2 = _
    rw [hway, dispatch_reconnect ht]
  rw [hway, dispatch_reconnect ht] at hanswer
  cases hanswer
  rcases (s.receive id session₁ payload).handleReconnect_refused id body now with
    ⟨hrefused, -⟩ | ⟨request, userId, hre⟩
  · rw [hrefused] at hsuccess
    cases hsuccess
  rw [handleReconnect_success hre] at hsuccess
  have heq := handleReconnect_eq hre id
  rw [if_pos hsuccess] at heq
  have hid : id ∈ (s.receive id session₁ payload).heap := (Dict.mem_insert _ _ _ _).mpr (.inl rfl)
  obtain ⟨session, hsession, hseq⟩ := resume_session hid request userId
  refine ⟨session, body, request, userId, ?_, hbody, hre.decoded, congrArg Prod.fst hre.valid, ?_⟩
  · rw [hstate, heq]
    exact hsession
  · rw [resumable_iff, heq, hseq]
    simp only []
    rw [toNat_resume_iff, restoredLastSeq_receive]
    unfold restoredLastSeq
    rw [toNat_max, UInt32.toNat_toUInt64]
    omega

/-- Session 2 takes over from session 1, whose client has seen nothing. -/
theorem resume_usable_stood :
    let s := after serverStep (still {}) stoodBy
    ∃ session body request userId,
      (s.handlePacket 2 (headerOf .sessionReconnectReq reconnecting) reconnecting 0).2.heap[2]? =
        some session ∧
      bodyOf s.securityPolicy reconnecting = some body ∧
      decodeSessionReconnectRequest body = .ok request ∧
      (s.tokenService.validateToken request.token 0).1 = some userId ∧
      (Resumable s.securityPolicy session 1 ↔ request.lastSeq.toNat + 1 < 2 ^ 32 ∧
        (s.previousLastSeq (s.registry.heldByOther userId 2)).toNat + 1 < 2 ^ 32) := by
  intro s
  have hanswer : (s.answerPacket 2 (headerOf .sessionReconnectReq reconnecting) reconnecting 0).1 =
      some ⟨.sessionReconnectRes,
        (⟨true, str "Reconnect accepted", 2, 1⟩ : SessionReconnectResponse)⟩ := by
    decide +kernel
  exact resume_usable hanswer rfl

/-- The same, by a client that has seen the last sequence number there is. -/
theorem resume_usable_wrapped :
    ¬∀ (es : List ServerEvent) (id : ℕ) (header : FrameHeader) (payload : Bytes) (now : Time)
        (response : SessionReconnectResponse) (session : Session),
      ((after serverStep (still {}) es).answerPacket id header payload now).1 =
        some ⟨.sessionReconnectRes, response⟩ → response.success = true →
      ((after serverStep (still {}) es).handlePacket id header payload now).2.heap[id]? =
        some session →
      Resumable (after serverStep (still {}) es).securityPolicy session response.resumeFromSeq := by
  intro h
  let payload := encodeSessionReconnectRequest ⟨List.replicate 32 48, 4294967295⟩
  have hlast : ((after serverStep (still {}) stoodBy).handlePacket 2
      (headerOf .sessionReconnectReq payload) payload 0).2.heap[2]?.map Session.lastSeq =
        some 4294967295 := by
    decide +kernel
  obtain ⟨session, hsession, hseq⟩ := Option.map_eq_some_iff.mp hlast
  have hfollows := (h stoodBy 2 (headerOf .sessionReconnectReq payload) payload 0
    ⟨true, str "Reconnect accepted", 2, 0⟩ session (by decide +kernel) rfl hsession).follows
  rw [hseq] at hfollows
  revert hfollows
  decide

end Server

end DungeonHub
