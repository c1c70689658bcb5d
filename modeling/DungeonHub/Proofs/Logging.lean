import DungeonHub.Lib.Json
import DungeonHub.Logging

/-!
# Log lines

What is escaped reads back byte for byte, so that an entry is the object of the members it was
given, whatever their values.
-/

namespace DungeonHub

open Json

variable {out : OStream} {entry : LogEntry} {key : String}

/-! ## Escaping -/

/-- Between two characters the stream writes decimals, without padding. -/
structure OStream.Plain (out : OStream) : Prop where
  base : out.base = 10
  width : out.width = 0

theorem OStream.plain_empty : ({} : OStream).Plain where
  base := rfl
  width := rfl

theorem OStream.Plain.text_put (h : out.Plain) (s : Str) : (out.put s).text = out.text ++ s := by
  unfold put
  simp only [h.width, Nat.zero_sub, List.replicate_zero, List.append_nil]

theorem OStream.Plain.put (h : out.Plain) (s : Str) : (out.put s).Plain where
  base := h.base
  width := rfl

theorem OStream.Plain.text_putNumber (h : out.Plain) (n : ℕ) :
    (out.putNumber n).text = out.text ++ decimalText n := by
  unfold putNumber
  rw [h.text_put, h.base]
  rfl

/-- What is written for one byte. -/
def escapeOf (ch : UInt8) : Str := (escapeChar {} ch).text

/-- One character; the fill may have changed, which is not used without a width. -/
theorem escapeChar_eq (h : out.Plain) (ch : UInt8) :
    (escapeChar out ch).text = out.text ++ escapeOf ch ∧ (escapeChar out ch).Plain := by
  have hput : ∀ s, (out.put s).text = out.text ++ (({} : OStream).put s).text ∧
      (out.put s).Plain := fun s => by
    rw [h.text_put, OStream.plain_empty.text_put]
    exact ⟨rfl, h.put s⟩
  unfold escapeOf escapeChar
  split_ifs
  iterate 7 exact hput _
  · refine ⟨?_, rfl, rfl⟩
    simp only [OStream.dec, OStream.putNumber, OStream.hex, OStream.setw, OStream.setfill,
      OStream.put, h.width, Nat.zero_sub, List.replicate_zero, List.append_nil, List.nil_append,
      List.append_assoc]
  · exact hput _

theorem foldl_escapeChar : ∀ (value : Str) (out : OStream), out.Plain →
    (value.foldl escapeChar out).text = out.text ++ value.flatMap escapeOf
  | [], out, _ => (List.append_nil out.text).symm
  | ch :: value, out, h => by
    obtain ⟨htext, hplain⟩ := escapeChar_eq h ch
    rw [List.foldl_cons, foldl_escapeChar value _ hplain, htext, List.append_assoc]
    rfl

theorem jsonEscape_eq (value : Str) : jsonEscape value = value.flatMap escapeOf :=
  foldl_escapeChar value {} OStream.plain_empty

/-- A byte in hexadecimal, padded to four digits. -/
theorem hexText_eq {n : ℕ} (hn : n < 0x100) :
    let digits := (Nat.toDigits 16 n).map fun c => c.toNat.toUInt8
    List.replicate (4 - digits.length) 0x30 ++ digits =
      [0x30, 0x30, digitByte (n / 16), digitByte (n % 16)] := by
  intro digits
  have hdigits : digits = (Nat.toDigits 16 n).map fun c => c.toNat.toUInt8 := rfl
  rw [Nat.toDigits_eq_if (by decide)] at hdigits
  split_ifs at hdigits with hlt
  · rw [hdigits, Nat.div_eq_of_lt hlt, Nat.mod_eq_of_lt hlt]
    rfl
  · rw [Nat.toDigits_of_lt_base (by omega)] at hdigits
    rw [hdigits]
    rfl

/-- The characters with an escape of their own. -/
def named : List UInt8 := [0x22, 0x5C, 0x08, 0x0C, 0x0A, 0x0D, 0x09]

/-- The first seven cases: a backslash and a character. -/
theorem escapeOf_of_named {ch : UInt8} (h : ch ∈ named) :
    ∃ e, escapeOf ch = [0x5C, e] ∧ escaped e = some ch ∧ e ≠ 0x75 ∧ 0x20 ≤ e := by
  simp only [named, List.mem_cons, List.not_mem_nil, or_false] at h
  rcases h with rfl | rfl | rfl | rfl | rfl | rfl | rfl
  · exact ⟨0x22, rfl, rfl, by decide, by decide⟩
  · exact ⟨0x5C, rfl, rfl, by decide, by decide⟩
  · exact ⟨0x62, rfl, rfl, by decide, by decide⟩
  · exact ⟨0x66, rfl, rfl, by decide, by decide⟩
  · exact ⟨0x6E, rfl, rfl, by decide, by decide⟩
  · exact ⟨0x72, rfl, rfl, by decide, by decide⟩
  · exact ⟨0x74, rfl, rfl, by decide, by decide⟩

/-- The last two cases. -/
theorem escapeOf_of_not_named {ch : UInt8} (h : ch ∉ named) :
    escapeOf ch =
      if ch < 0x20 then
        [0x5C, 0x75, 0x30, 0x30, digitByte (ch.toNat / 16), digitByte (ch.toNat % 16)]
      else [ch] := by
  simp only [named, List.mem_cons, List.not_mem_nil, or_false, not_or] at h
  obtain ⟨hquote, hslash, hb, hf, hn, hr, ht⟩ := h
  unfold escapeOf escapeChar
  rw [if_neg hquote, if_neg hslash, if_neg hb, if_neg hf, if_neg hn, if_neg hr, if_neg ht,
    ← hexText_eq ch.toNat_lt]
  split_ifs <;> rfl

/-- Every byte is read back from what is written for it. -/
theorem character_escapeOf (ch : UInt8) (rest : Str) :
    character (escapeOf ch ++ rest) = some ([ch], rest) := by
  by_cases hnamed : ch ∈ named
  · obtain ⟨e, heq, hescaped, hunit, -⟩ := escapeOf_of_named hnamed
    rw [heq]
    show (if e = 0x75 then _ else (escaped e).map fun c => ([c], rest)) = _
    rw [if_neg hunit, hescaped]
    rfl
  · rw [escapeOf_of_not_named hnamed]
    split_ifs with hlt
    · have hnat : ch.toNat < 0x20 := hlt
      have hread := character_unit (by omega : ch.toNat < 0x80) rest
      rwa [Nat.toUInt8_eq, UInt8.ofNat_toNat] at hread
    · simp only [named, List.mem_cons, not_or] at hnamed
      show (if ch < 0x20 ∨ ch = 0x22 then none else _) = _
      rw [if_neg (not_or.mpr ⟨hlt, hnamed.1⟩), if_pos hnamed.2.1]
      rfl

/-- No byte below 0x20 is written. -/
theorem le_of_mem_escapeOf (ch : UInt8) : ∀ b ∈ escapeOf ch, 0x20 ≤ b := by
  by_cases hnamed : ch ∈ named
  · obtain ⟨e, heq, -, -, hle⟩ := escapeOf_of_named hnamed
    intro b hb
    rw [heq, List.mem_cons, List.mem_singleton] at hb
    rcases hb with rfl | rfl
    · decide
    · exact hle
  · rw [escapeOf_of_not_named hnamed]
    split_ifs with hlt
    · have hnat : ch.toNat < 0x20 := hlt
      intro b hb
      simp only [List.mem_cons, List.not_mem_nil, or_false] at hb
      rcases hb with rfl | rfl | rfl | rfl | rfl | rfl
      iterate 4 decide
      · exact le_digitByte (by omega)
      · exact le_digitByte (by omega)
    · intro b hb
      rw [List.mem_singleton.mp hb]
      exact UInt8.not_lt.mp hlt

/-! ## Members -/

/-- A member, and a text that is read as it. -/
structure Written (text : Str) (m : Str × Value) : Prop where
  reads : Reads (fun n => member (value n) n) text m
  printable : ∀ b ∈ text, 0x20 ≤ b

theorem printable_flatMap (s : Str) : ∀ b ∈ s.flatMap escapeOf, 0x20 ≤ b := by
  intro b hb
  obtain ⟨ch, -, hb⟩ := List.mem_flatMap.mp hb
  exact le_of_mem_escapeOf ch b hb

theorem printable_quoted (s : Str) : ∀ b ∈ 0x22 :: (s.flatMap escapeOf ++ [0x22]), 0x20 ≤ b := by
  intro b hb
  rw [List.mem_cons, List.mem_append, List.mem_singleton] at hb
  rcases hb with rfl | hb | rfl
  · decide
  · exact printable_flatMap s b hb
  · decide

theorem printable_decimalText (n : ℕ) : ∀ b ∈ decimalText n, 0x20 ≤ b := by
  intro b hb
  have hdigit := isDigit_decimalText n b hb
  rw [isDigit, decide_eq_true_eq] at hdigit
  show 0x20 ≤ b.toNat
  omega

/-- The keys of an entry, in order. -/
def logKeys : List Str :=
  ["timestamp", "level", "event", "message", "trace_id", "session_trace_id", "request_trace_id",
    "session_id", "packet_type", "protocol_version", "bytes", "user_id", "reason"].map str

/-- The keys are written without escaping, and need none. -/
theorem escapeOf_logKeys : ∀ key ∈ logKeys, key.flatMap escapeOf = key := by
  decide +kernel

theorem written_member (hkey : str key ∈ logKeys) {text : Str} {x : Value}
    (hx : Reads value text x) (htext : ∀ b ∈ text, 0x20 ≤ b) :
    Written (str "\"" ++ str key ++ str "\":" ++ text) (str key, x) where
  reads := by
    have hread := reads_member character_escapeOf (str key) hx
    rw [escapeOf_logKeys _ hkey] at hread
    rw [List.append_assoc, List.append_assoc]
    exact hread
  printable := by
    have hbytes := printable_flatMap (str key)
    rw [escapeOf_logKeys _ hkey] at hbytes
    intro b hb
    simp only [List.mem_append] at hb
    rcases hb with ((hb | hb) | hb) | hb
    · revert b
      decide +kernel
    · exact hbytes b hb
    · revert b
      decide +kernel
    · exact htext b hb

/-- The entry is an open object with the members `ms`. -/
structure Holds (entry : LogEntry) (ms : List (Str × Value)) : Prop where
  plain : entry.1.Plain
  first : entry.2 = true ↔ ms = []
  written : ∃ xs : List (Str × (Str × Value)), xs.map Prod.snd = ms ∧
    (∀ x ∈ xs, Written x.1 x.2) ∧ entry.1.text = 0x7B :: [0x2C].intercalate (xs.map Prod.fst)

theorem holds_start : Holds (({} : OStream).put [0x7B], true) [] where
  plain := OStream.plain_empty.put _
  first := by simp
  written := ⟨[], rfl, by simp, rfl⟩

/-- The comma before every member but the first. -/
def separate (entry : LogEntry) : OStream :=
  if entry.2 then entry.1 else entry.1.put (str ",")

theorem Holds.separate_plain {ms : List (Str × Value)} (h : Holds entry ms) :
    (separate entry).Plain := by
  unfold separate
  split_ifs
  · exact h.plain
  · exact h.plain.put _

/-- One more member. -/
theorem Holds.append {ms : List (Str × Value)} {m : Str × Value} {text : Str}
    (h : Holds entry ms) (hm : Written text m) (hout : out.Plain)
    (htext : out.text = (separate entry).text ++ text) : Holds (out, false) (ms ++ [m]) where
  plain := hout
  first := by simp
  written := by
    obtain ⟨xs, rfl, hxs, hentry⟩ := h.written
    refine ⟨xs ++ [(text, m)], by rw [List.map_append]; rfl, fun x hx => ?_, ?_⟩
    · rcases List.mem_append.mp hx with hx | hx
      · exact hxs x hx
      · rw [List.mem_singleton.mp hx]
        exact hm
    · show out.text = _
      rw [htext, List.map_append, List.map_singleton]
      unfold separate
      by_cases hnil : xs = []
      · subst hnil
        rw [if_pos (h.first.mpr rfl), hentry]
        simp
      · have hne : xs.map Prod.fst ≠ [] := mt List.map_eq_nil_iff.mp hnil
        have hfirst : ¬entry.2 = true := fun hentry =>
          hnil (List.map_eq_nil_iff.mp (h.first.mp hentry))
        rw [if_neg hfirst, h.plain.text_put, hentry, intercalate_concat text _ hne]
        simp only [List.cons_append, List.append_assoc]
        rfl

/-! ## Fields -/

/-- A string is given if it is there and not empty. -/
def stringValue (value : Option Str) : Option Value := (value.filter (· ≠ [])).map .string

def numberValue (value : Option ℕ) : Option Value := value.map fun n : ℕ => .number (n : ℚ)

/-- The members of the fields that are given. -/
def given (fields : List (String × Option Value)) : List (Str × Value) :=
  fields.filterMap fun field => field.2.map fun x => (str field.1, x)

theorem given_concat (fields : List (String × Option Value)) (x : Option Value) :
    given (fields ++ [(key, x)]) = given fields ++ (x.map fun x => (str key, x)).toList := by
  unfold given
  rw [List.filterMap_append]
  cases x <;> rfl

theorem given_keys : ∀ fields : List (String × Option Value),
    ((given fields).map Prod.fst).Sublist (fields.map fun field => str field.1)
  | [] => List.Sublist.slnil
  | (key, none) :: fields => (given_keys fields).cons (str key)
  | (key, some _) :: fields => (given_keys fields).cons_cons (str key)

section Append

variable {fields : List (String × Option Value)}

theorem Holds.appendString (h : Holds entry (given fields)) (key : String)
    (hkey : str key ∈ logKeys) (value : Option Str) :
    Holds (appendString key value entry) (given (fields ++ [(key, stringValue value)])) := by
  have hskip : given (fields ++ [(key, none)]) = given fields := by
    rw [given_concat]
    exact List.append_nil _
  unfold DungeonHub.appendString
  rcases value with _ | value
  · exact hskip.symm ▸ h
  by_cases hempty : value = []
  · subst hempty
    exact hskip.symm ▸ h
  · have hvalue : stringValue (some value) = some (.string value) := by
      simp [stringValue, hempty]
    have hm := written_member hkey (reads_string character_escapeOf value) (printable_quoted value)
    have hout := h.separate_plain
    have hname := ((hout.put (str "\"")).put (str key)).put (str "\":\"")
    have htext : ((((((separate entry).put (str "\"")).put (str key)).put (str "\":\"")).put
        (jsonEscape value)).put (str "\"")).text = (separate entry).text ++
          (str "\"" ++ str key ++ str "\":" ++ 0x22 :: (value.flatMap escapeOf ++ [0x22])) := by
      rw [(hname.put _).text_put, hname.text_put, ((hout.put _).put _).text_put,
        (hout.put _).text_put, hout.text_put, jsonEscape_eq]
      simp only [List.append_assoc]
      rfl
    rw [given_concat, hvalue]
    simp only [if_neg hempty]
    exact h.append hm ((hname.put _).put _) htext

theorem Holds.appendNumber (h : Holds entry (given fields)) (key : String)
    (hkey : str key ∈ logKeys) (value : Option ℕ) :
    Holds (appendNumber key value entry) (given (fields ++ [(key, numberValue value)])) := by
  unfold DungeonHub.appendNumber
  rw [given_concat]
  rcases value with _ | n
  · exact (List.append_nil (given fields)).symm ▸ h
  · have hm := written_member hkey (reads_decimalText n) (printable_decimalText n)
    have hout := h.separate_plain
    have hname := ((hout.put (str "\"")).put (str key)).put (str "\":")
    have htext : (((((separate entry).put (str "\"")).put (str key)).put (str "\":")).putNumber
        n).text = (separate entry).text ++ (str "\"" ++ str key ++ str "\":" ++ decimalText n) := by
      rw [hname.text_putNumber, ((hout.put _).put _).text_put, (hout.put _).text_put,
        hout.text_put]
      simp only [List.append_assoc]
    exact h.append hm (hname.put _) htext

end Append

/-! ## Lines -/

/-- What was passed in: the timestamp, the non-empty strings and the numbers that are there. -/
def logMembers (utcTm : Tm) (level event message : Str) (fields : LogFields) :
    List (Str × Value) :=
  given
    [("timestamp", some (.string (isoTimestamp utcTm))), ("level", stringValue (some level)),
      ("event", stringValue (some event)), ("message", stringValue (some message)),
      ("trace_id", stringValue fields.traceId),
      ("session_trace_id", stringValue fields.sessionTraceId),
      ("request_trace_id", stringValue fields.requestTraceId),
      ("session_id", numberValue (fields.sessionId.map UInt64.toNat)),
      ("packet_type", numberValue (fields.packetType.map UInt16.toNat)),
      ("protocol_version", numberValue (fields.protocolVersion.map UInt16.toNat)),
      ("bytes", numberValue (fields.bytes.map UInt64.toNat)),
      ("user_id", stringValue fields.userId), ("reason", stringValue fields.reason)]

theorem isoTimestamp_ne_nil (utcTm : Tm) : isoTimestamp utcTm ≠ [] := by
  unfold isoTimestamp
  exact List.append_ne_nil_of_right_ne_nil _ (by decide)

/-- An entry, closed. -/
theorem Holds.close {ms : List (Str × Value)} (h : Holds entry ms) :
    (∀ b ∈ (entry.1.put [0x7D]).text, 0x20 ≤ b) ∧
      Json.parse (entry.1.put [0x7D]).text = some (.object ms) := by
  obtain ⟨xs, rfl, hxs, htext⟩ := h.written
  rw [h.plain.text_put, htext, List.cons_append]
  refine ⟨fun b hb => ?_, parse_object xs fun x hx => (hxs x hx).reads⟩
  rw [List.mem_cons, List.mem_append, List.mem_singleton] at hb
  rcases hb with rfl | hb | rfl
  · decide
  · rcases mem_intercalate hb with rfl | ⟨text, htext, hb⟩
    · decide
    · obtain ⟨x, hx, rfl⟩ := List.mem_map.mp htext
      exact (hxs x hx).printable b hb
  · decide

/-- The entry of a line. -/
theorem log_eq (utcTm : Tm) (level event message : Str) (fields : LogFields) :
    ∃ entry : LogEntry, Holds entry (logMembers utcTm level event message fields) ∧
      StructuredLogger.log utcTm level event message fields =
        (entry.1.put [0x7D]).text ++ [0x0A] := by
  have hlog : ∀ out : OStream, ((({} : OStream).put out.text).put [0x0A]).text =
      out.text ++ [0x0A] := fun out => by
    rw [(OStream.plain_empty.put _).text_put, OStream.plain_empty.text_put]
    rfl
  have h : Holds _ (given []) := holds_start
  have h := h.appendString "timestamp" (by decide) (some (isoTimestamp utcTm))
  have h := h.appendString "level" (by decide) (some level)
  have h := h.appendString "event" (by decide) (some event)
  have h := h.appendString "message" (by decide) (some message)
  have h := h.appendString "trace_id" (by decide) fields.traceId
  have h := h.appendString "session_trace_id" (by decide) fields.sessionTraceId
  have h := h.appendString "request_trace_id" (by decide) fields.requestTraceId
  have h := h.appendNumber "session_id" (by decide) (fields.sessionId.map UInt64.toNat)
  have h := h.appendNumber "packet_type" (by decide) (fields.packetType.map UInt16.toNat)
  have h := h.appendNumber "protocol_version" (by decide) (fields.protocolVersion.map UInt16.toNat)
  have h := h.appendNumber "bytes" (by decide) (fields.bytes.map UInt64.toNat)
  have h := h.appendString "user_id" (by decide) fields.userId
  have h := h.appendString "reason" (by decide) fields.reason
  have hstamp : stringValue (some (isoTimestamp utcTm)) = some (.string (isoTimestamp utcTm)) := by
    simp [stringValue, isoTimestamp_ne_nil]
  rw [hstamp] at h
  exact ⟨_, h, hlog _⟩

/-- A line is one JSON object, of the members that were passed in. -/
theorem log_line (utcTm : Tm) (level event message : Str) (fields : LogFields) :
    let members := logMembers utcTm level event message fields
    ∃ text, StructuredLogger.log utcTm level event message fields = text ++ [0x0A] ∧
      (∀ b ∈ text, 0x20 ≤ b) ∧ Json.parse text = some (.object members) ∧
      (members.map Prod.fst).Sublist logKeys ∧ (members.map Prod.fst).Nodup := by
  intro members
  obtain ⟨entry, hholds, hlog⟩ := log_eq utcTm level event message fields
  obtain ⟨hprintable, hparse⟩ := hholds.close
  have hkeys : (members.map Prod.fst).Sublist logKeys := given_keys _
  have hnodup : logKeys.Nodup := by decide
  exact ⟨_, hlog, hprintable, hparse, hkeys, hnodup.sublist hkeys⟩

end DungeonHub
