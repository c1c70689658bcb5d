import DungeonHub.Lib.Undo
import DungeonHub.Proofs.Bytes
import DungeonHub.Security

/-!
# Forged signatures

The key goes into a signature first, and each step of the hash can be undone. So one signature tells
what the key has made of the two hashes, and with that the signature of anything else.
-/

namespace DungeonHub

open Wire Undo

section Hash

/-- The inverse of `fnvPrime`. -/
def fnvInverse : UInt64 := 14886173955864302971

/-- A hash before a byte went into it. -/
def fnv1aUndo (hash : UInt64) (byte : UInt8) : UInt64 := (hash * fnvInverse) ^^^ byte.toUInt64

/-- A hash before the bytes went into it. -/
def fnv1aRewind (hash : UInt64) (data : Bytes) : UInt64 := unwind fnv1aUndo hash data

theorem fnv1aUndo_step (hash : UInt64) (byte : UInt8) :
    fnv1aUndo ((hash ^^^ byte.toUInt64) * fnvPrime) byte = hash := by
  have hinv : fnvPrime * fnvInverse = 1 := by decide
  unfold fnv1aUndo
  rw [UInt64.mul_assoc, hinv, UInt64.mul_one, UInt64.xor_assoc, UInt64.xor_self, UInt64.xor_zero]

theorem fnv1aUpdate_append (hash : UInt64) (data data' : Bytes) :
    fnv1aUpdate hash (data ++ data') = fnv1aUpdate (fnv1aUpdate hash data) data' :=
  List.foldl_append ..

/-- The hash of any data, from the hash of other data from the same start. -/
theorem fnv1aUpdate_rewind (hash : UInt64) (data data' : Bytes) :
    fnv1aUpdate (fnv1aRewind (fnv1aUpdate hash data) data) data' = fnv1aUpdate hash data' :=
  foldl_of_end fnv1aUndo_step hash data data'

end Hash

section Forge

/-- What the first hash takes in after the key. -/
def signed1 (seq : UInt32) (nonce : UInt64) (payload : Bytes) : Bytes :=
  writeU32 seq ++ (writeU64 nonce ++ payload)

/-- What the second hash takes in after the key. -/
def signed2 (seq : UInt32) (nonce : UInt64) (payload : Bytes) : Bytes :=
  writeU64 nonce ++ (writeU32 seq ++ payload)

/-- The two hashes of a signature. -/
def readHashes : Reader (UInt64 × UInt64) := do
  let hash1 ← readU64
  let hash2 ← readU64
  return (hash1, hash2)

/-- A signature of `payload'`, made from one of `payload`. -/
def forge (signature : Bytes) (seq : UInt32) (nonce : UInt64) (payload : Bytes)
    (seq' : UInt32) (nonce' : UInt64) (payload' : Bytes) : Bytes :=
  match readHashes.whole signature with
  | .error _ => []
  | .ok (hash1, hash2) =>
    let key1 := fnv1aRewind hash1 (signed1 seq nonce payload)
    let key2 := fnv1aRewind hash2 (signed2 seq nonce payload)
    writeU64 (fnv1aUpdate key1 (signed1 seq' nonce' payload')) ++
      writeU64 (fnv1aUpdate key2 (signed2 seq' nonce' payload'))

theorem computeSignature_eq (key : Str) (seq : UInt32) (nonce : UInt64) (payload : Bytes) :
    computeSignature key seq nonce payload =
      writeU64 (fnv1aUpdate (fnv1aUpdate fnvOffset key) (signed1 seq nonce payload)) ++
      writeU64 (fnv1aUpdate (fnv1aUpdate (fnvOffset ^^^ 0x9e3779b97f4a7c15) key)
        (signed2 seq nonce payload)) := by
  simp only [computeSignature, signed1, signed2, fnv1aUpdate_append]

theorem readHashes_whole (hash1 hash2 : UInt64) :
    readHashes.whole (writeU64 hash1 ++ writeU64 hash2) = .ok (hash1, hash2) := by
  have h : Yields readHashes (writeU64 hash1 ++ writeU64 hash2) (hash1, hash2) :=
    (readU64_yields hash1).bind (readU64_yields hash2).bind_pure
  have hwhole := h.whole []
  rwa [List.append_nil, if_pos rfl] at hwhole

theorem forge_eq (key : Str) (seq seq' : UInt32) (nonce nonce' : UInt64)
    (payload payload' : Bytes) :
    computeSignature key seq' nonce' payload' =
      forge (computeSignature key seq nonce payload) seq nonce payload seq' nonce' payload' := by
  unfold forge
  rw [computeSignature_eq key seq nonce, readHashes_whole]
  simp only []
  rw [fnv1aUpdate_rewind, fnv1aUpdate_rewind, computeSignature_eq]

/-- One signature gives all of its key: keys that agree once always agree, and whoever has seen a
signed packet can sign any other. -/
theorem signature_forged :
    (∀ (key : Str) (seq : UInt32) (nonce : UInt64) (payload : Bytes) (seq' : UInt32)
      (nonce' : UInt64) (payload' : Bytes), computeSignature key seq' nonce' payload' =
        forge (computeSignature key seq nonce payload) seq nonce payload seq' nonce' payload') ∧
    (∀ (key key' : Str) (seq : UInt32) (nonce : UInt64) (payload : Bytes),
      computeSignature key seq nonce payload = computeSignature key' seq nonce payload →
      ∀ (seq' : UInt32) (nonce' : UInt64) (payload' : Bytes),
        computeSignature key seq' nonce' payload' = computeSignature key' seq' nonce' payload') ∧
    ∀ (key : Str) (header : SecurityHeader) (payload : Bytes),
      verifySignature key header payload = true →
      ∀ (seq : UInt32) (nonce : UInt64) (payload' : Bytes),
        verifySignature key ⟨seq, nonce, forge header.signature header.seq header.nonce payload seq
          nonce payload'⟩ payload' = true := by
  refine ⟨fun key seq nonce payload seq' nonce' payload' => forge_eq .., ?_, ?_⟩
  · intro key key' seq nonce payload h seq' nonce' payload'
    rw [forge_eq key seq seq' nonce nonce' payload payload', h, ← forge_eq]
  · intro key header payload h seq nonce payload'
    unfold verifySignature at h ⊢
    rw [beq_iff_eq] at h ⊢
    rw [← h]
    exact forge_eq ..

end Forge

end DungeonHub
