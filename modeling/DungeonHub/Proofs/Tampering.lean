import DungeonHub.Proofs.Forgery

/-!
# Tampered payloads

What is wrapped is unwrapped again and its signature is right. With any one byte changed it is still
unwrapped, but its signature is wrong: a step of the hash never takes two hashes, or two bytes, to
the same hash.
-/

namespace DungeonHub

open Wire Undo

section Wrapping

theorem length_computeSignature (key : Str) (seq : UInt32) (nonce : UInt64) (payload : Bytes) :
    (computeSignature key seq nonce payload).length = 16 := rfl

theorem readSecurityHeader_yields (seq : UInt32) (nonce : UInt64) {signature : Bytes}
    (h : signature.length = 16) :
    Yields readSecurityHeader (writeU32 seq ++ (writeU64 nonce ++ signature))
      ⟨seq, nonce, signature⟩ :=
  (readU32_yields seq).bind <| (readU64_yields nonce).bind <|
    (takeBytes_fixed 16 fun signature => (⟨seq, nonce, signature⟩ : SecurityHeader)).yields h

/-- Whatever stands where the signature does is unwrapped as one. -/
theorem unwrapSecurePayload_of_parts (seq : UInt32) (nonce : UInt64) {signature : Bytes}
    (h : signature.length = 16) (payload : Bytes) :
    unwrapSecurePayload (writeU32 seq ++ (writeU64 nonce ++ (signature ++ payload))) =
      .ok (⟨seq, nonce, signature⟩, payload) := by
  have hread := readSecurityHeader_yields seq nonce h [] payload
  rw [List.nil_append, List.length_nil, Nat.zero_add] at hread
  have hassoc : writeU32 seq ++ (writeU64 nonce ++ (signature ++ payload)) =
      writeU32 seq ++ (writeU64 nonce ++ signature) ++ payload := by
    simp only [List.append_assoc]
  unfold unwrapSecurePayload
  rw [hassoc, hread]
  simp only [List.drop_left]

theorem wrapSecurePayload_eq (seq : UInt32) (nonce : UInt64) (key : Str) (payload : Bytes) :
    wrapSecurePayload seq nonce key payload =
      writeU32 seq ++ (writeU64 nonce ++ (computeSignature key seq nonce payload ++ payload)) := by
  simp only [wrapSecurePayload, List.append_assoc]

/-- What is wrapped is unwrapped, with its signature. -/
theorem unwrap_wrapSecurePayload (seq : UInt32) (nonce : UInt64) (key : Str) (payload : Bytes) :
    unwrapSecurePayload (wrapSecurePayload seq nonce key payload) =
      .ok (⟨seq, nonce, computeSignature key seq nonce payload⟩, payload) := by
  rw [wrapSecurePayload_eq]
  exact unwrapSecurePayload_of_parts seq nonce (length_computeSignature ..) payload

theorem verify_wrapSecurePayload (seq : UInt32) (nonce : UInt64) (key : Str) (payload : Bytes) :
    verifySignature key ⟨seq, nonce, computeSignature key seq nonce payload⟩ payload = true :=
  beq_self_eq_true _

end Wrapping

section Tampering

theorem exists_writeU32 {bs : Bytes} (h : bs.length = 4) : ∃ v, bs = writeU32 v :=
  ⟨_, readU32_fixed.written readU32_exact h⟩

theorem exists_writeU64 {bs : Bytes} (h : bs.length = 8) : ∃ v, bs = writeU64 v :=
  ⟨_, readU64_fixed.written readU64_exact h⟩

/-- A step of the hash tells its byte. -/
theorem fnv1aStep_injective (hash : UInt64) {byte byte' : UInt8}
    (h : (hash ^^^ byte.toUInt64) * fnvPrime = (hash ^^^ byte'.toUInt64) * fnvPrime) :
    byte = byte' := by
  have hinv : fnvPrime * fnvInverse = 1 := by decide
  have hxor : hash ^^^ byte.toUInt64 = hash ^^^ byte'.toUInt64 := by
    have hmul := congrArg (· * fnvInverse) h
    simpa only [UInt64.mul_assoc, hinv, UInt64.mul_one] using hmul
  have hbyte : byte.toUInt64 = byte'.toUInt64 := by
    have hcancel := congrArg (hash ^^^ ·) hxor
    simpa only [← UInt64.xor_assoc, UInt64.xor_self, UInt64.zero_xor] using hcancel
  have hnat := congrArg UInt64.toNat hbyte
  rw [UInt8.toNat_toUInt64, UInt8.toNat_toUInt64] at hnat
  exact UInt8.toNat_inj.mp hnat

theorem fnv1aUpdate_ne {data data' : Bytes} (h : DifferOnce data data') (hash : UInt64) :
    fnv1aUpdate hash data ≠ fnv1aUpdate hash data' :=
  h.foldl_ne fnv1aUndo_step (fun hash _ _ => fnv1aStep_injective hash) hash

/-- A signature is wrong for what differs from the signed in one byte. -/
theorem verifySignature_of_differ (key : Str) {seq seq' : UInt32} {nonce nonce' : UInt64}
    {payload payload' : Bytes}
    (h : DifferOnce (signed1 seq nonce payload) (signed1 seq' nonce' payload')) :
    verifySignature key ⟨seq', nonce', computeSignature key seq nonce payload⟩ payload' =
      false := by
  unfold verifySignature
  rw [beq_eq_false_iff_ne, computeSignature_eq, computeSignature_eq]
  intro heq
  have hhashes := congrArg readHashes.whole heq
  rw [readHashes_whole, readHashes_whole, Except.ok.injEq, Prod.mk.injEq] at hhashes
  exact fnv1aUpdate_ne h _ hhashes.1.symm

/-- A wrapped payload with one byte changed. -/
theorem tampered_differ (key : Str) (seq : UInt32) (nonce : UInt64) (payload : Bytes) {w' : Bytes}
    (h : DifferOnce (wrapSecurePayload seq nonce key payload) w') :
    ∃ header inner, unwrapSecurePayload w' = .ok (header, inner) ∧
      verifySignature key header inner = false := by
  have hlength := length_computeSignature key seq nonce payload
  rw [wrapSecurePayload_eq] at h
  rcases h.parts with ⟨seqBytes, rfl, hseq⟩ | ⟨rest, rfl, hrest⟩
  · obtain ⟨seq', rfl⟩ := exists_writeU32 hseq.length_eq
    exact ⟨_, _, unwrapSecurePayload_of_parts seq' nonce hlength payload,
      verifySignature_of_differ key (hseq.append_right _)⟩
  rcases hrest.parts with ⟨nonceBytes, rfl, hnonce⟩ | ⟨rest, rfl, hrest'⟩
  · obtain ⟨nonce', rfl⟩ := exists_writeU64 hnonce.length_eq
    exact ⟨_, _, unwrapSecurePayload_of_parts seq nonce' hlength payload,
      verifySignature_of_differ key ((hnonce.append_right _).append_left _)⟩
  rcases hrest'.parts with ⟨signature, rfl, hsignature⟩ | ⟨payload', rfl, hpayload⟩
  · refine ⟨_, _, unwrapSecurePayload_of_parts seq nonce (hsignature.length_eq.trans hlength)
      payload, ?_⟩
    exact beq_eq_false_iff_ne.mpr hsignature.ne
  · exact ⟨_, _, unwrapSecurePayload_of_parts seq nonce hlength payload',
      verifySignature_of_differ key ((hpayload.append_left _).append_left _)⟩

/-- What is wrapped comes back and is verified; with any one byte changed it comes back and is
not. -/
theorem tampering_detected (key : Str) (seq : UInt32) (nonce : UInt64) (payload : Bytes) :
    let w := wrapSecurePayload seq nonce key payload
    (∃ signature, unwrapSecurePayload w = .ok (⟨seq, nonce, signature⟩, payload) ∧
      verifySignature key ⟨seq, nonce, signature⟩ payload = true) ∧
    ∀ (i : ℕ) (hi : i < w.length) (byte : UInt8), byte ≠ w[i] →
      ∃ header inner, unwrapSecurePayload (w.set i byte) = .ok (header, inner) ∧
        verifySignature key header inner = false := by
  intro w
  refine ⟨⟨_, unwrap_wrapSecurePayload seq nonce key payload,
    verify_wrapSecurePayload seq nonce key payload⟩, fun i hi byte hbyte => ?_⟩
  exact tampered_differ key seq nonce payload (differOnce_set hi hbyte)

end Tampering

end DungeonHub
