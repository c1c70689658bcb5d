import DungeonHub.Bytes

/-!
# The structured logger

`logging.cpp`. A `std::ostringstream` carries its base, width and fill from one insertion to the
next; an insertion pads to the width and sets it back to zero.
-/

namespace DungeonHub

structure OStream where
  text : Str := []
  base : ℕ := 10
  width : ℕ := 0
  fill : UInt8 := 0x20

namespace OStream

def put (out : OStream) (s : Str) : OStream :=
  { out with
    text := out.text ++ List.replicate (out.width - s.length) out.fill ++ s
    width := 0 }

def putNumber (out : OStream) (n : ℕ) : OStream :=
  out.put ((Nat.toDigits out.base n).map fun c => c.toNat.toUInt8)

def hex (out : OStream) : OStream := { out with base := 16 }

def dec (out : OStream) : OStream := { out with base := 10 }

def setw (out : OStream) (width : ℕ) : OStream := { out with width }

def setfill (out : OStream) (fill : UInt8) : OStream := { out with fill }

end OStream

/-- The loop body of `jsonEscape`. -/
def escapeChar (escaped : OStream) (ch : UInt8) : OStream :=
  if ch = 0x22 then escaped.put (str "\\\"")
  else if ch = 0x5C then escaped.put (str "\\\\")
  else if ch = 0x08 then escaped.put (str "\\b")
  else if ch = 0x0C then escaped.put (str "\\f")
  else if ch = 0x0A then escaped.put (str "\\n")
  else if ch = 0x0D then escaped.put (str "\\r")
  else if ch = 0x09 then escaped.put (str "\\t")
  else if ch < 0x20 then
    ((((escaped.put (str "\\u")).hex.setw 4).setfill 0x30).putNumber ch.toNat).dec
  else escaped.put [ch]

def jsonEscape (value : Str) : Str := (value.foldl escapeChar {}).text

/-- A `std::tm` in UTC: years from 1900, months from 0. -/
structure Tm where
  tmYear : ℤ
  tmMon : ℕ
  tmMday : ℕ
  tmHour : ℕ
  tmMin : ℕ
  tmSec : ℕ

/-- A conversion of `std::put_time` that pads to two digits. -/
def twoDigits (n : ℕ) : Str := ((({} : OStream).setw 2).setfill 0x30 |>.putNumber n).text

/-- The conversion `%Y`. -/
def yearDigits (year : ℤ) : Str :=
  (if year < 0 then str "-" else []) ++ (({} : OStream).putNumber year.natAbs).text

/-- `utcTm` is what the clock reads; the format is `%Y-%m-%dT%H:%M:%SZ`. -/
def isoTimestamp (utcTm : Tm) : Str :=
  yearDigits (1900 + utcTm.tmYear) ++ str "-" ++ twoDigits (utcTm.tmMon + 1) ++ str "-" ++
    twoDigits utcTm.tmMday ++ str "T" ++ twoDigits utcTm.tmHour ++ str ":" ++
    twoDigits utcTm.tmMin ++ str ":" ++ twoDigits utcTm.tmSec ++ str "Z"

structure LogFields where
  traceId : Option Str := none
  sessionTraceId : Option Str := none
  requestTraceId : Option Str := none
  sessionId : Option UInt64 := none
  packetType : Option UInt16 := none
  protocolVersion : Option UInt16 := none
  bytes : Option UInt64 := none
  userId : Option Str := none
  reason : Option Str := none

/-- The entry so far, and whether the next member is its first. -/
abbrev LogEntry := OStream × Bool

def appendNumber (key : String) (value : Option ℕ) : LogEntry → LogEntry
  | (out, first) =>
    match value with
    | none => (out, first)
    | some value =>
      let out := if first then out else out.put (str ",")
      ((((out.put (str "\"")).put (str key)).put (str "\":")).putNumber value, false)

def appendString (key : String) (value : Option Str) : LogEntry → LogEntry
  | (out, first) =>
    match value with
    | none => (out, first)
    | some value =>
      if value = [] then (out, first)
      else
        let out := if first then out else out.put (str ",")
        (((((out.put (str "\"")).put (str key)).put (str "\":\"")).put (jsonEscape value)).put
          (str "\""), false)

/-- What is written to `std::cout`; `utcTm` is what the clock reads. -/
def StructuredLogger.log (utcTm : Tm) (level event message : Str) (fields : LogFields) : Str :=
  let entry : LogEntry := (({} : OStream).put [0x7B], true)
  let entry := appendString "timestamp" (some (isoTimestamp utcTm)) entry
  let entry := appendString "level" (some level) entry
  let entry := appendString "event" (some event) entry
  let entry := appendString "message" (some message) entry
  let entry := appendString "trace_id" fields.traceId entry
  let entry := appendString "session_trace_id" fields.sessionTraceId entry
  let entry := appendString "request_trace_id" fields.requestTraceId entry
  let entry := appendNumber "session_id" (fields.sessionId.map UInt64.toNat) entry
  let entry := appendNumber "packet_type" (fields.packetType.map UInt16.toNat) entry
  let entry := appendNumber "protocol_version" (fields.protocolVersion.map UInt16.toNat) entry
  let entry := appendNumber "bytes" (fields.bytes.map UInt64.toNat) entry
  let entry := appendString "user_id" fields.userId entry
  let entry := appendString "reason" fields.reason entry
  let out := entry.1.put [0x7D]
  ((({} : OStream).put out.text).put [0x0A]).text

end DungeonHub
