import DungeonHub.Lib.Wire

/-!
# Strings and integers on the wire

`protocol.cpp`, `codec.cpp` and `security.cpp` each carry their own copies of these helpers, with
the same bodies. Integers are big-endian; strings and lists are prefixed by a 16-bit count, so a
writer cuts them at 65535.
-/

namespace DungeonHub

open Wire

/-- A `std::string`: any bytes. -/
abbrev Str := Bytes

/-- A string literal of the source; all of them are ASCII. -/
def str (s : String) : Str := s.toList.map fun c => c.toNat.toUInt8

/-- `std::numeric_limits<std::uint16_t>::max()`. -/
def maxU16 : ℕ := 65535

/-- A string as it comes back from the wire. -/
def cutString (s : Str) : Str := s.take maxU16

def readU16 : Reader UInt16 := do
  Reader.need 2
  let hi ← Reader.peek 0
  let lo ← Reader.peek 1
  Reader.skip 2
  return (hi.toUInt16 <<< 8) ||| lo.toUInt16

def writeU16 (value : UInt16) : Bytes :=
  [((value >>> 8) &&& 0xFF).toUInt8, (value &&& 0xFF).toUInt8]

def readU32 : Reader UInt32 := do
  Reader.need 4
  let b0 ← Reader.peek 0
  let b1 ← Reader.peek 1
  let b2 ← Reader.peek 2
  let b3 ← Reader.peek 3
  Reader.skip 4
  return (b0.toUInt32 <<< 24) ||| (b1.toUInt32 <<< 16) ||| (b2.toUInt32 <<< 8) ||| b3.toUInt32

def writeU32 (value : UInt32) : Bytes :=
  [((value >>> 24) &&& 0xFF).toUInt8, ((value >>> 16) &&& 0xFF).toUInt8,
    ((value >>> 8) &&& 0xFF).toUInt8, (value &&& 0xFF).toUInt8]

def readU64 : Reader UInt64 := do
  Reader.need 8
  -- for (int i = 0; i < 8; ++i) out = (out << 8) | payload[offset + i]
  let out ← (List.range 8).foldlM
    (fun (out : UInt64) i => do
      let byte ← Reader.peek i
      return (out <<< 8) ||| byte.toUInt64) 0
  Reader.skip 8
  return out

def writeU64 (value : UInt64) : Bytes :=
  ([56, 48, 40, 32, 24, 16, 8, 0] : List UInt64).map
    fun shift => ((value >>> shift) &&& 0xFF).toUInt8

def readString : Reader Str := do
  let size ← readU16
  Reader.need size.toNat
  let out ← Reader.slice size.toNat
  Reader.skip size.toNat
  return out

def writeString (value : Str) : Bytes :=
  let length := UInt16.ofNat (min value.length maxU16)
  writeU16 length ++ value.take length.toNat

/-- A counted list, each element read by `r`. -/
def readList {α : Type} (r : Reader α) : Reader (List α) := do
  let count ← readU16
  r.many count.toNat

/-- A counted list, each element written by `w`. -/
def writeList {α : Type} (w : α → Bytes) (values : List α) : Bytes :=
  let length := UInt16.ofNat (min values.length maxU16)
  writeU16 length ++ (values.take length.toNat).flatMap w

def readStringList : Reader (List Str) := readList readString

def writeStringList (values : List Str) : Bytes := writeList writeString values

/-- `out.push_back(flag ? 1 : 0)`. -/
def writeFlag (flag : Bool) : Bytes := [if flag then 1 else 0]

/-- A decoder whose message starts with a boolean: it refuses the empty payload, takes the first
byte for the flag and goes on from offset 1. -/
def decodeFlagged {α : Type} (fields : Bool → Reader α) (payload : Bytes) : Except Fault α :=
  if payload.isEmpty then .error .refused
  else Reader.whole (do
    let byte ← Reader.peek 0
    Reader.skip 1
    fields (byte != 0)) payload

end DungeonHub
