import DungeonHub.Session

/-!
# Signed payloads and tokens

`security.cpp`: the signature is FNV-1a over key, sequence number, nonce and payload, twice over in
two orders. `auth.cpp`: tokens are 16 random bytes in hexadecimal, good for some time.
-/

namespace DungeonHub

open Wire

section Signature

structure SecurityHeader where
  seq : UInt32
  nonce : UInt64
  signature : Bytes
  deriving DecidableEq

def fnvOffset : UInt64 := 14695981039346656037
def fnvPrime : UInt64 := 1099511628211

def fnv1aUpdate (hash : UInt64) (data : Bytes) : UInt64 :=
  data.foldl (fun hash byte => (hash ^^^ byte.toUInt64) * fnvPrime) hash

/-- `toBytes` gives the same bytes as `writeU32` and `writeU64` do. -/
def computeSignature (key : Str) (seq : UInt32) (nonce : UInt64) (payload : Bytes) : Bytes :=
  let seqBytes := writeU32 seq
  let nonceBytes := writeU64 nonce
  let hash1 := fnv1aUpdate fnvOffset key
  let hash1 := fnv1aUpdate hash1 seqBytes
  let hash1 := fnv1aUpdate hash1 nonceBytes
  let hash1 := fnv1aUpdate hash1 payload
  let hash2 := fnv1aUpdate (fnvOffset ^^^ 0x9e3779b97f4a7c15) key
  let hash2 := fnv1aUpdate hash2 nonceBytes
  let hash2 := fnv1aUpdate hash2 seqBytes
  let hash2 := fnv1aUpdate hash2 payload
  writeU64 hash1 ++ writeU64 hash2

def verifySignature (key : Str) (header : SecurityHeader) (payload : Bytes) : Bool :=
  computeSignature key header.seq header.nonce payload == header.signature

def wrapSecurePayload (seq : UInt32) (nonce : UInt64) (key : Str) (payload : Bytes) : Bytes :=
  writeU32 seq ++ writeU64 nonce ++ computeSignature key seq nonce payload ++ payload

/-- The header of a secured payload. -/
def readSecurityHeader : Reader SecurityHeader := do
  let seq ← readU32
  let nonce ← readU64
  Reader.need 16
  let signature ← Reader.slice 16
  Reader.skip 16
  return ⟨seq, nonce, signature⟩

def unwrapSecurePayload (payload : Bytes) : Except Fault (SecurityHeader × Bytes) :=
  match readSecurityHeader payload 0 with
  | .ok (header, offset) => .ok (header, payload.drop offset)
  | .error e => .error e

end Signature

section Tokens

/-- The digit of a four-bit value, in upper or lower case. -/
def hexDigit (upper : Bool) (n : UInt8) : UInt8 :=
  if n < 10 then 48 + n else if upper then 55 + n else 87 + n

/-- Bytes in hexadecimal. -/
def toHex (upper : Bool) (bytes : Bytes) : Str :=
  bytes.flatMap fun byte : UInt8 => [hexDigit upper (byte >>> 4), hexDigit upper (byte &&& 0xF)]

/-- A source of random values: what it will yield, in order. -/
def Draws (α : Type) : Type := ℕ → α

namespace Draws

/-- The next value, and the source after it. -/
def next {α : Type} (d : Draws α) : α × Draws α := (d 0, fun i => d (i + 1))

/-- The next `n` values, and the source after them. -/
def take {α : Type} (d : Draws α) (n : ℕ) : List α × Draws α :=
  ((List.range n).map d, fun i => d (n + i))

end Draws

structure TokenRecord where
  userId : Str
  expiresAt : Time
  deriving DecidableEq

structure TokenService where
  rng : Draws UInt8
  tokens : Dict Str TokenRecord := ∅
  ttl : Time := seconds 300

namespace TokenService

def generateToken (t : TokenService) : Str × TokenService :=
  let (bytes, rng) := t.rng.take 16
  (toHex true bytes, { t with rng })

def issueToken (t : TokenService) (userId : Str) (now : Time) : Str × TokenService :=
  let (token, t) := t.generateToken
  (token, { t with tokens := t.tokens.insert token ⟨userId, now + t.ttl⟩ })

/-- The token's user, if the token is known and has not expired. -/
def validateToken (t : TokenService) (token : Str) (now : Time) : Option Str × TokenService :=
  match t.tokens[token]? with
  | none => (none, t)
  | some record =>
    if now ≥ record.expiresAt then (none, { t with tokens := t.tokens.erase token })
    else (some record.userId, t)

end TokenService

end Tokens

end DungeonHub
