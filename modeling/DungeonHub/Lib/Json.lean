import Mathlib

/-!
# Reading JSON

A reader of JSON texts over bytes: strings with their escapes, where bytes from 0x80 up are taken as
they are, numbers, and nested values, members in the order of the text. The readers take the number
of steps they may make; the length of the text is enough. `Reads` says that a reader finds a value
in a text whatever comes after it, and is what the laws for strings, numbers and members compose.
-/

namespace Json

/-- A reader: the value at the start of the bytes, and what comes after it. -/
abbrev Reader (α : Type) : Type := List UInt8 → Option (α × List UInt8)

inductive Value where
  | null
  | bool (b : Bool)
  | number (x : ℚ)
  | string (s : List UInt8)
  | array (elements : List Value)
  | object (members : List (List UInt8 × Value))

def isSpace (b : UInt8) : Bool := b = 0x20 ∨ b = 0x09 ∨ b = 0x0A ∨ b = 0x0D

def skipSpace (bs : List UInt8) : List UInt8 := bs.dropWhile isSpace

/-! ## Strings -/

def hexDigit (b : UInt8) : Option ℕ :=
  let n := b.toNat
  if 48 ≤ n ∧ n ≤ 57 then some (n - 48)
  else if 65 ≤ n ∧ n ≤ 70 then some (n - 55)
  else if 97 ≤ n ∧ n ≤ 102 then some (n - 87)
  else none

/-- The four digits of an escaped code unit. -/
def codeUnit : Reader ℕ
  | a :: b :: c :: d :: rest => do
    let a ← hexDigit a
    let b ← hexDigit b
    let c ← hexDigit c
    let d ← hexDigit d
    some (((a * 16 + b) * 16 + c) * 16 + d, rest)
  | _ => none

/-- The bytes of a code point. -/
def utf8 (n : ℕ) : List UInt8 :=
  if n < 0x80 then [n.toUInt8]
  else if n < 0x800 then [(0xC0 + n / 0x40).toUInt8, (0x80 + n % 0x40).toUInt8]
  else if n < 0x10000 then
    [(0xE0 + n / 0x1000).toUInt8, (0x80 + n / 0x40 % 0x40).toUInt8, (0x80 + n % 0x40).toUInt8]
  else
    [(0xF0 + n / 0x40000).toUInt8, (0x80 + n / 0x1000 % 0x40).toUInt8,
      (0x80 + n / 0x40 % 0x40).toUInt8, (0x80 + n % 0x40).toUInt8]

/-- An escaped code point: one unit, or the two of a surrogate pair. -/
def codePoint : Reader (List UInt8) := fun bs => do
  let (high, rest) ← codeUnit bs
  if high < 0xD800 ∨ 0xE000 ≤ high then some (utf8 high, rest)
  else if 0xDC00 ≤ high then none
  else
    match rest with
    | 0x5C :: 0x75 :: rest =>
      let (low, rest) ← codeUnit rest
      if 0xDC00 ≤ low ∧ low < 0xE000 then
        some (utf8 (0x10000 + (high - 0xD800) * 0x400 + (low - 0xDC00)), rest)
      else none
    | _ => none

/-- The character that a backslash and this byte stand for. -/
def escaped (b : UInt8) : Option UInt8 :=
  if b = 0x22 ∨ b = 0x5C ∨ b = 0x2F then some b
  else if b = 0x62 then some 0x08
  else if b = 0x66 then some 0x0C
  else if b = 0x6E then some 0x0A
  else if b = 0x72 then some 0x0D
  else if b = 0x74 then some 0x09
  else none

/-- One character of a string, as the bytes it stands for. -/
def character : Reader (List UInt8)
  | [] => none
  | b :: rest =>
    if b < 0x20 ∨ b = 0x22 then none
    else if b ≠ 0x5C then some ([b], rest)
    else
      match rest with
      | [] => none
      | e :: rest =>
        if e = 0x75 then codePoint rest else (escaped e).map fun c => ([c], rest)

/-- The characters up to the closing quote. -/
def characters : ℕ → Reader (List UInt8)
  | 0, _ => none
  | n + 1, bs =>
    if bs.head? = some 0x22 then some ([], bs.tail)
    else do
      let (c, rest) ← character bs
      let (s, rest) ← characters n rest
      some (c ++ s, rest)

/-! ## Numbers -/

def isDigit (b : UInt8) : Bool := 48 ≤ b.toNat ∧ b.toNat ≤ 57

/-- The value of decimal digits. -/
def natOf (digits : List UInt8) : ℕ := digits.foldl (fun n d => 10 * n + (d.toNat - 48)) 0

/-- Digits after a point, if there is one. -/
def fraction : Reader (List UInt8)
  | 0x2E :: bs =>
    let digits := bs.takeWhile isDigit
    if digits = [] then none else some (digits, bs.dropWhile isDigit)
  | bs => some ([], bs)

/-- The digits of an exponent, after its sign. -/
def exponentDigits (negative : Bool) : Reader ℤ := fun bs =>
  let digits := bs.takeWhile isDigit
  if digits = [] then none
  else some (if negative then -natOf digits else natOf digits, bs.dropWhile isDigit)

/-- A power of ten, if one is given. -/
def exponent : Reader ℤ
  | b :: bs =>
    if b = 0x65 ∨ b = 0x45 then
      match bs with
      | 0x2D :: bs => exponentDigits true bs
      | 0x2B :: bs => exponentDigits false bs
      | bs => exponentDigits false bs
    else some (0, b :: bs)
  | [] => some (0, [])

/-- A number without its sign; the whole part has no leading zeros. -/
def unsigned : Reader ℚ := fun bs => do
  let whole := bs.takeWhile isDigit
  if whole = [] ∨ (whole.head? = some 0x30 ∧ whole ≠ [0x30]) then none
  else
    let (part, rest) ← fraction (bs.dropWhile isDigit)
    let (power, rest) ← exponent rest
    some (natOf (whole ++ part) * (10 : ℚ) ^ (power - part.length), rest)

def number : Reader ℚ
  | 0x2D :: bs => (unsigned bs).map fun r => (-r.1, r.2)
  | bs => unsigned bs

/-! ## Values -/

section Nested

variable {α : Type}

/-- Items with commas between them, up to the closing byte. -/
def items (item : Reader α) (close : UInt8) : ℕ → Reader (List α)
  | 0, _ => none
  | n + 1, bs => do
    let (x, rest) ← item bs
    match skipSpace rest with
    | [] => none
    | b :: rest =>
      if b = close then some ([x], rest)
      else if b = 0x2C then
        let (xs, rest) ← items item close n rest
        some (x :: xs, rest)
      else none

/-- No items, or some. -/
def listOf (item : Reader α) (close : UInt8) (n : ℕ) : Reader (List α) := fun bs =>
  if (skipSpace bs).head? = some close then some ([], (skipSpace bs).tail)
  else items item close n bs

/-- A name, a colon and a value. -/
def member (value : Reader α) (n : ℕ) : Reader (List UInt8 × α) := fun bs =>
  match skipSpace bs with
  | 0x22 :: rest => do
    let (name, rest) ← characters n rest
    match skipSpace rest with
    | 0x3A :: rest =>
      let (x, rest) ← value rest
      some ((name, x), rest)
    | _ => none
  | _ => none

/-- The word, for the value it stands for. -/
def word (text : List UInt8) (x : Value) : Reader Value := fun bs =>
  if text <+: bs then some (x, bs.drop text.length) else none

end Nested

def value : ℕ → Reader Value
  | 0, _ => none
  | n + 1, bs =>
    match skipSpace bs with
    | [] => none
    | b :: rest =>
      if b = 0x22 then (characters n rest).map (Prod.map .string id)
      else if b = 0x5B then (listOf (value n) 0x5D n rest).map (Prod.map .array id)
      else if b = 0x7B then (listOf (member (value n) n) 0x7D n rest).map (Prod.map .object id)
      else if b = 0x6E then word [0x6E, 0x75, 0x6C, 0x6C] .null (b :: rest)
      else if b = 0x74 then word [0x74, 0x72, 0x75, 0x65] (.bool true) (b :: rest)
      else if b = 0x66 then word [0x66, 0x61, 0x6C, 0x73, 0x65] (.bool false) (b :: rest)
      else (number (b :: rest)).map (Prod.map .number id)

/-- The value of a JSON text. -/
def parse (text : List UInt8) : Option Value :=
  match value (text.length + 1) text with
  | some (x, rest) => if skipSpace rest = [] then some x else none
  | none => none

/-! ## What is read from written text -/

section Laws

variable {α : Type} {bs rest text name s digits : List UInt8} {b : UInt8}
  {write : UInt8 → List UInt8}

theorem skipSpace_cons (h : isSpace b = false) (bs : List UInt8) :
    skipSpace (b :: bs) = b :: bs := by
  unfold skipSpace
  rw [List.dropWhile_cons, h]
  rfl

theorem character_quote (h : bs.head? = some 0x22) : character bs = none := by
  cases bs with
  | nil => cases h
  | cons b bs =>
    rw [List.head?_cons, Option.some.injEq] at h
    subst h
    rfl

/-- A digit in lower case, as the library writes it. -/
def digitByte (d : ℕ) : UInt8 := (Nat.digitChar d).toNat.toUInt8

theorem hexDigit_digitByte {d : ℕ} (hd : d < 16) : hexDigit (digitByte d) = some d := by
  interval_cases d <;> rfl

theorem le_digitByte {d : ℕ} (hd : d < 16) : 0x20 ≤ digitByte d := by
  interval_cases d <;> decide

/-- The code unit of a byte below 0x80 is read as the byte. -/
theorem character_unit {n : ℕ} (hn : n < 0x80) (rest : List UInt8) :
    character (0x5C :: 0x75 :: 0x30 :: 0x30 :: digitByte (n / 16) :: digitByte (n % 16) :: rest) =
      some ([n.toUInt8], rest) := by
  have hunit : codeUnit (0x30 :: 0x30 :: digitByte (n / 16) :: digitByte (n % 16) :: rest) =
      some (n, rest) := by
    have hzero : hexDigit 0x30 = some 0 := rfl
    unfold codeUnit
    simp only [hzero, hexDigit_digitByte (by omega : n / 16 < 16),
      hexDigit_digitByte (by omega : n % 16 < 16), Option.bind_eq_bind, Option.bind_some]
    congr 2
    omega
  show codePoint _ = _
  unfold codePoint
  rw [hunit]
  simp only [Option.bind_eq_bind, Option.bind_some]
  rw [if_pos (.inl (by omega))]
  unfold utf8
  rw [if_pos hn]

/-- A string is read back if each of its bytes is. -/
theorem characters_flatMap (h : ∀ c rest, character (write c ++ rest) = some ([c], rest)) :
    ∀ (s : List UInt8) (n : ℕ) (rest : List UInt8), (s.flatMap write).length < n →
      characters n (s.flatMap write ++ 0x22 :: rest) = some (s, rest)
  | _, 0, _, hn => absurd hn (Nat.not_lt_zero _)
  | [], n + 1, rest, _ => rfl
  | c :: s, n + 1, rest, hn => by
    have hread := h c (s.flatMap write ++ 0x22 :: rest)
    have hne : write c ≠ [] := fun hnil => by
      have hempty := h c []
      rw [hnil] at hempty
      cases hempty
    have hlen := List.length_pos_of_ne_nil hne
    rw [List.flatMap_cons, List.length_append] at hn
    have ih := characters_flatMap h s n rest (by omega)
    rw [List.flatMap_cons, List.append_assoc]
    have hquote : (write c ++ (s.flatMap write ++ 0x22 :: rest)).head? ≠ some 0x22 := by
      intro hquote
      rw [character_quote hquote] at hread
      cases hread
    unfold characters
    rw [if_neg hquote, hread]
    simp only [Option.bind_eq_bind, Option.bind_some, ih]
    rfl

/-- What may come after a number without being taken for a part of it. -/
def Ends (rest : List UInt8) : Prop :=
  ∀ b ∈ rest.head?, isDigit b = false ∧ b ≠ 0x2E ∧ b ≠ 0x65 ∧ b ≠ 0x45

theorem Ends.takeWhile (h : Ends rest) : rest.takeWhile isDigit = [] := by
  cases rest with
  | nil => rfl
  | cons b rest => rw [List.takeWhile_cons, (h b rfl).1]; rfl

theorem Ends.dropWhile (h : Ends rest) : rest.dropWhile isDigit = rest := by
  cases rest with
  | nil => rfl
  | cons b rest => rw [List.dropWhile_cons, (h b rfl).1]; rfl

theorem Ends.fraction (h : Ends rest) : fraction rest = some ([], rest) := by
  unfold Json.fraction
  split
  · exact absurd rfl (h _ rfl).2.1
  · rfl

theorem Ends.exponent (h : Ends rest) : exponent rest = some (0, rest) := by
  cases rest with
  | nil => rfl
  | cons b rest =>
    obtain ⟨-, -, hlower, hupper⟩ := h b rfl
    unfold Json.exponent
    exact if_neg (not_or.mpr ⟨hlower, hupper⟩)

/-- Decimal digits without leading zeros are read as the number they stand for. -/
theorem number_digits (hdigits : ∀ d ∈ digits, isDigit d = true) (hne : digits ≠ [])
    (hzero : digits.head? = some 0x30 → digits = [0x30]) (h : Ends rest) :
    number (digits ++ rest) = some ((natOf digits : ℚ), rest) := by
  have htake : (digits ++ rest).takeWhile isDigit = digits := by
    rw [List.takeWhile_append_of_pos hdigits, h.takeWhile, List.append_nil]
  have hdrop : (digits ++ rest).dropWhile isDigit = rest := by
    rw [List.dropWhile_append_of_pos hdigits, h.dropWhile]
  have hunsigned : unsigned (digits ++ rest) = some ((natOf digits : ℚ), rest) := by
    unfold unsigned
    simp only [htake, hdrop]
    rw [if_neg (not_or.mpr ⟨hne, fun hlead => hlead.2 (hzero hlead.1)⟩), h.fraction]
    simp only [Option.bind_eq_bind, Option.bind_some, h.exponent]
    simp
  unfold number
  split
  · rename_i heq
    cases digits with
    | nil => exact absurd rfl hne
    | cons d digits =>
      rw [List.cons_append, List.cons.injEq] at heq
      have hd := hdigits d List.mem_cons_self
      rw [heq.1] at hd
      cases hd
  · exact hunsigned

/-- The text is read as `x` by enough steps, whatever comes after it. -/
def Reads (r : ℕ → Reader α) (text : List UInt8) (x : α) : Prop :=
  ∀ (n : ℕ) (rest : List UInt8), text.length < n → Ends rest → r n (text ++ rest) = some (x, rest)

theorem reads_string (h : ∀ c rest, character (write c ++ rest) = some ([c], rest))
    (s : List UInt8) : Reads value (0x22 :: (s.flatMap write ++ [0x22])) (.string s) := by
  rintro (_ | n) rest hn -
  · exact absurd hn (Nat.not_lt_zero _)
  · simp only [List.length_cons, List.length_append, List.length_nil] at hn
    have hread := characters_flatMap h s n rest (by omega)
    unfold value
    rw [List.cons_append, skipSpace_cons rfl, List.append_assoc]
    simp only [List.cons_append, List.nil_append, hread]
    rfl

/-- A digit starts a number and nothing else. -/
theorem isDigit_starts (h : isDigit b = true) :
    isSpace b = false ∧ b ≠ 0x22 ∧ b ≠ 0x5B ∧ b ≠ 0x7B ∧ b ≠ 0x6E ∧ b ≠ 0x74 ∧ b ≠ 0x66 := by
  have hne : ∀ c : UInt8, isDigit c = false → b ≠ c := by
    rintro c hc rfl
    rw [h] at hc
    cases hc
  refine ⟨?_, hne _ rfl, hne _ rfl, hne _ rfl, hne _ rfl, hne _ rfl, hne _ rfl⟩
  simp [isSpace, hne 0x20 rfl, hne 0x09 rfl, hne 0x0A rfl, hne 0x0D rfl]

theorem reads_number (hdigits : ∀ d ∈ digits, isDigit d = true) (hne : digits ≠ [])
    (hzero : digits.head? = some 0x30 → digits = [0x30]) :
    Reads value digits (.number (natOf digits)) := by
  rintro (_ | n) rest hn hrest
  · exact absurd hn (Nat.not_lt_zero _)
  · have hnumber := number_digits hdigits hne hzero hrest
    cases digits with
    | nil => exact absurd rfl hne
    | cons d digits =>
      obtain ⟨hspace, hquote, harray, hobject, hnull, htrue, hfalse⟩ :=
        isDigit_starts (hdigits d List.mem_cons_self)
      unfold value
      rw [List.cons_append] at hnumber ⊢
      rw [skipSpace_cons hspace]
      simp only [if_neg hquote, if_neg harray, if_neg hobject, if_neg hnull, if_neg htrue,
        if_neg hfalse, hnumber]
      rfl

theorem toNat_digitByte {d : ℕ} (hd : d < 10) : (digitByte d).toNat = 48 + d := by
  interval_cases d <;> rfl

/-- A number in decimal, as the library writes it. -/
def decimalText (n : ℕ) : List UInt8 := (Nat.toDigits 10 n).map fun c => c.toNat.toUInt8

theorem decimalText_eq (n : ℕ) :
    decimalText n = (if n < 10 then [] else decimalText (n / 10)) ++
      [digitByte (n % 10)] := by
  unfold decimalText
  rw [Nat.toDigits_eq_if (by decide)]
  split_ifs with h
  · rw [Nat.mod_eq_of_lt h]
    rfl
  · rw [List.map_append]
    rfl

theorem isDigit_decimalText (n : ℕ) : ∀ d ∈ decimalText n, isDigit d = true := by
  induction n using Nat.strongRecOn with
  | ind n ih =>
    rw [decimalText_eq]
    intro d hd
    rw [List.mem_append, List.mem_singleton] at hd
    rcases hd with hd | rfl
    · split_ifs at hd with hlt
      · cases hd
      · exact ih (n / 10) (by omega) d hd
    · have hd := toNat_digitByte (Nat.mod_lt n (by decide : 0 < 10))
      simp only [isDigit, decide_eq_true_eq]
      omega

theorem natOf_decimalText (n : ℕ) : natOf (decimalText n) = n := by
  induction n using Nat.strongRecOn with
  | ind n ih =>
    have hd := toNat_digitByte (Nat.mod_lt n (by decide : 0 < 10))
    rw [decimalText_eq]
    unfold natOf at ih ⊢
    rw [List.foldl_append, List.foldl_cons, List.foldl_nil, hd]
    split_ifs with hlt
    · rw [List.foldl_nil]
      omega
    · rw [ih (n / 10) (by omega)]
      omega

theorem decimalText_ne_nil (n : ℕ) : decimalText n ≠ [] := by
  rw [decimalText_eq]
  exact List.append_ne_nil_of_right_ne_nil _ (List.cons_ne_nil _ _)

/-- Only zero starts with a zero. -/
theorem head?_decimalText (n : ℕ) (hn : 0 < n) : (decimalText n).head? ≠ some 0x30 := by
  induction n using Nat.strongRecOn with
  | ind n ih =>
    rw [decimalText_eq]
    split_ifs with hlt
    · intro h
      have hd := toNat_digitByte (Nat.mod_lt n (by decide : 0 < 10))
      rw [List.nil_append, List.head?_cons, Option.some.injEq] at h
      rw [h] at hd
      have h30 : (0x30 : UInt8).toNat = 48 := rfl
      omega
    · rw [List.head?_append_of_ne_nil _ (decimalText_ne_nil _)]
      exact ih (n / 10) (by omega) (by omega)

theorem reads_decimalText (n : ℕ) : Reads value (decimalText n) (.number n) := by
  have hread := reads_number (isDigit_decimalText n) (decimalText_ne_nil n) fun h => by
    rcases Nat.eq_zero_or_pos n with rfl | hn
    · rfl
    · exact absurd h (head?_decimalText n hn)
  rwa [natOf_decimalText] at hread

theorem reads_member (h : ∀ c rest, character (write c ++ rest) = some ([c], rest))
    (name : List UInt8) {x : Value} (hx : Reads value text x) :
    Reads (fun n => member (value n) n) (0x22 :: (name.flatMap write ++ 0x22 :: 0x3A :: text))
      (name, x) := by
  intro n rest hn hrest
  simp only [List.length_cons, List.length_append] at hn
  have hname := characters_flatMap h name n (0x3A :: (text ++ rest)) (by omega)
  have hvalue := hx n rest (by omega) hrest
  show member (value n) n _ = _
  unfold member
  rw [List.cons_append, skipSpace_cons rfl, List.append_assoc]
  simp only [List.cons_append, hname, Option.bind_eq_bind, Option.bind_some]
  rw [skipSpace_cons rfl]
  simp only [hvalue, Option.bind_some]

/-- What comes first of an item is not the end of the list. -/
theorem member_close {r : Reader α} {n : ℕ} (h : (skipSpace bs).head? = some 0x7D) :
    member r n bs = none := by
  unfold member
  rcases hbs : skipSpace bs with _ | ⟨b, rest⟩
  · rfl
  · rw [hbs, List.head?_cons, Option.some.injEq] at h
    subst h
    rfl

theorem ends_cons (h : isDigit b = false ∧ b ≠ 0x2E ∧ b ≠ 0x65 ∧ b ≠ 0x45) (rest : List UInt8) :
    Ends (b :: rest) := by
  intro c hc
  rw [List.head?_cons, Option.mem_some_iff] at hc
  exact hc ▸ h

theorem ends_close (rest : List UInt8) : Ends (0x7D :: rest) := ends_cons (by decide) rest

theorem ends_comma (rest : List UInt8) : Ends (0x2C :: rest) := ends_cons (by decide) rest

theorem items_intercalate {item : Reader α} (rest : List UInt8) :
    ∀ (xs : List (List UInt8 × α)) (n : ℕ), xs ≠ [] → xs.length ≤ n →
      (∀ x ∈ xs, ∀ rest, Ends rest → item (x.1 ++ rest) = some (x.2, rest)) →
      items item 0x7D n ([0x2C].intercalate (xs.map Prod.fst) ++ 0x7D :: rest) =
        some (xs.map Prod.snd, rest)
  | [], _, hne, _, _ => absurd rfl hne
  | _ :: _, 0, _, hn, _ => absurd hn (Nat.not_succ_le_zero _)
  | [x], n + 1, _, _, hitem => by
    have hx := hitem x List.mem_cons_self (0x7D :: rest) (ends_close rest)
    unfold items
    rw [List.map_singleton, List.intercalate_singleton, hx]
    simp only [Option.bind_eq_bind, Option.bind_some]
    rw [skipSpace_cons rfl]
    rfl
  | x :: y :: xs, n + 1, _, hn, hitem => by
    have ih := items_intercalate rest (y :: xs) n (List.cons_ne_nil _ _) (Nat.le_of_succ_le_succ hn)
      fun z hz => hitem z (List.mem_cons_of_mem _ hz)
    have hx := hitem x List.mem_cons_self _ (ends_comma
      ([0x2C].intercalate ((y :: xs).map Prod.fst) ++ 0x7D :: rest))
    rw [List.map_cons, List.intercalate_cons_of_ne_nil (by simp)]
    simp only [List.append_assoc, List.cons_append, List.nil_append]
    unfold items
    rw [hx]
    simp only [Option.bind_eq_bind, Option.bind_some]
    rw [skipSpace_cons rfl]
    simp only [ih, Option.bind_some]
    rfl

theorem length_le_intercalate : ∀ (texts : List (List UInt8)), ∀ text ∈ texts,
    text.length ≤ ([0x2C].intercalate texts).length
  | [t], text, h => by
    rw [List.mem_singleton.mp h, List.intercalate_singleton]
  | t :: t' :: texts, text, h => by
    rw [List.intercalate_cons_of_ne_nil (List.cons_ne_nil _ _), List.length_append,
      List.length_append]
    rcases List.mem_cons.mp h with rfl | h
    · omega
    · have ih := length_le_intercalate (t' :: texts) text h
      omega

/-- There is a comma between any two items. -/
theorem length_le_intercalate_succ :
    ∀ texts : List (List UInt8), texts.length ≤ ([0x2C].intercalate texts).length + 1
  | [] => Nat.zero_le _
  | [t] => by simp
  | t :: t' :: texts => by
    have ih := length_le_intercalate_succ (t' :: texts)
    rw [List.intercalate_cons_of_ne_nil (List.cons_ne_nil _ _), List.length_append,
      List.length_append]
    simp only [List.length_cons] at ih ⊢
    omega

/-- The first item is followed by a comma or by the closing brace. -/
theorem intercalate_starts (text : List UInt8) : ∀ texts : List (List UInt8),
    ∃ rest, Ends rest ∧ [0x2C].intercalate (text :: texts) ++ [0x7D] = text ++ rest
  | [] => ⟨[0x7D], ends_close [], by rw [List.intercalate_singleton]⟩
  | t :: texts => ⟨0x2C :: ([0x2C].intercalate (t :: texts) ++ [0x7D]), ends_comma _, by
    rw [List.intercalate_cons_of_ne_nil (List.cons_ne_nil _ _), List.append_assoc,
      List.append_assoc]
    rfl⟩

theorem intercalate_concat (text : List UInt8) : ∀ texts : List (List UInt8), texts ≠ [] →
    [0x2C].intercalate (texts ++ [text]) = [0x2C].intercalate texts ++ 0x2C :: text
  | [], h => absurd rfl h
  | [t], _ => by
    rw [List.cons_append, List.nil_append, List.intercalate_cons_of_ne_nil (List.cons_ne_nil _ _),
      List.intercalate_singleton, List.intercalate_singleton, List.append_assoc]
    rfl
  | t :: t' :: texts, _ => by
    rw [List.cons_append, List.intercalate_cons_of_ne_nil (by simp),
      List.intercalate_cons_of_ne_nil (List.cons_ne_nil _ _),
      intercalate_concat text (t' :: texts) (List.cons_ne_nil _ _)]
    simp only [List.append_assoc]

theorem mem_intercalate : ∀ {texts : List (List UInt8)}, b ∈ [0x2C].intercalate texts →
    b = 0x2C ∨ ∃ text ∈ texts, b ∈ text
  | [t], h => .inr ⟨t, List.mem_singleton_self t, by rwa [List.intercalate_singleton] at h⟩
  | t :: t' :: texts, h => by
    rw [List.intercalate_cons_of_ne_nil (List.cons_ne_nil _ _), List.mem_append, List.mem_append,
      List.mem_singleton] at h
    rcases h with (h | h) | h
    · exact .inr ⟨t, List.mem_cons_self, h⟩
    · exact .inl h
    · rcases mem_intercalate h with h | ⟨text, htext, h⟩
      · exact .inl h
      · exact .inr ⟨text, List.mem_cons_of_mem _ htext, h⟩

/-- Members between braces, with commas between them, are read as an object. -/
theorem parse_object (xs : List (List UInt8 × (List UInt8 × Value)))
    (h : ∀ x ∈ xs, Reads (fun n => member (value n) n) x.1 x.2) :
    parse (0x7B :: ([0x2C].intercalate (xs.map Prod.fst) ++ [0x7D])) =
      some (.object (xs.map Prod.snd)) := by
  set text := [0x2C].intercalate (xs.map Prod.fst) with htext
  have hlen : (0x7B :: (text ++ [0x7D])).length = text.length + 2 := by simp
  have hlist : listOf (member (value (text.length + 2)) (text.length + 2)) 0x7D (text.length + 2)
      (text ++ [0x7D]) = some (xs.map Prod.snd, []) := by
    unfold listOf
    by_cases hxs : xs = []
    · subst hxs
      rfl
    have hmem : ∀ x ∈ xs, x.1.length ≤ text.length := fun x hx =>
      length_le_intercalate _ _ (List.mem_map_of_mem hx)
    have hcount := length_le_intercalate_succ (xs.map Prod.fst)
    rw [List.length_map, ← htext] at hcount
    have hitems := items_intercalate [] xs (text.length + 2) hxs (by omega) fun x hx rest =>
      h x hx (text.length + 2) rest (by have hle := hmem x hx; omega)
    rw [← htext] at hitems
    rw [if_neg, hitems]
    intro hclose
    obtain ⟨x, xs', rfl⟩ := List.exists_cons_of_ne_nil hxs
    obtain ⟨rest, hrest, heq⟩ := intercalate_starts x.1 (xs'.map Prod.fst)
    have hx := h x List.mem_cons_self (text.length + 2) rest
      (by have hle := hmem x List.mem_cons_self; omega) hrest
    rw [← heq, ← List.map_cons, ← htext] at hx
    exact Option.some_ne_none _ (hx.symm.trans (member_close hclose))
  unfold parse value
  rw [hlen, skipSpace_cons rfl]
  simp only [hlist]
  rfl

end Laws

end Json
