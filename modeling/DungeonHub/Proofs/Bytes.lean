import DungeonHub.Bytes

/-!
# The wire primitives

An integer's writer is its big-endian digits and its reader the number they spell, so each is the
other's inverse. A string or a list comes back cut at 65535, and what its reader accepts is what
its writer would have written.
-/

namespace DungeonHub

open Wire

/-! ## Integers -/

section Digits

theorem shift_or_eq {n b : ℕ} (hb : b < 256) : n * 256 ||| b = n * 256 + b := by
  rw [Nat.mul_comm, show 256 = 2 ^ 8 from rfl, Nat.two_pow_add_eq_or_of_lt (by simpa using hb)]

/-- The digit a writer takes out of an integer. -/
theorem digit_eq (n k : ℕ) : (n >>> (8 * k) &&& 255) % 2 ^ 8 = n / 256 ^ k % 2 ^ 8 := by
  rw [Nat.shiftRight_eq_div_pow, pow_mul, show 255 = 2 ^ 8 - 1 from rfl,
    Nat.and_two_pow_sub_one_eq_mod, Nat.mod_mod]
  rfl

theorem writeU16_eq (v : UInt16) : writeU16 v = beBytes 2 v.toNat := by
  have h := digit_eq v.toNat
  simp only [writeU16, beBytes, List.cons.injEq, and_true]
  refine ⟨?_, ?_⟩ <;> apply UInt8.toNat_inj.mp <;>
    simp only [UInt16.toNat_toUInt8, UInt16.toNat_and, UInt16.toNat_shiftRight,
      UInt8.toNat_ofNat', UInt16.reduceToNat, Nat.reduceMod]
  · exact h 1
  · exact h 0

theorem writeU32_eq (v : UInt32) : writeU32 v = beBytes 4 v.toNat := by
  have h := digit_eq v.toNat
  simp only [writeU32, beBytes, List.cons.injEq, and_true]
  refine ⟨?_, ?_, ?_, ?_⟩ <;> apply UInt8.toNat_inj.mp <;>
    simp only [UInt32.toNat_toUInt8, UInt32.toNat_and, UInt32.toNat_shiftRight,
      UInt8.toNat_ofNat', UInt32.reduceToNat, Nat.reduceMod]
  · exact h 3
  · exact h 2
  · exact h 1
  · exact h 0

theorem writeU64_eq (v : UInt64) : writeU64 v = beBytes 8 v.toNat := by
  have h := digit_eq v.toNat
  simp only [writeU64, beBytes, List.map, List.cons.injEq, and_true]
  refine ⟨?_, ?_, ?_, ?_, ?_, ?_, ?_, ?_⟩ <;> apply UInt8.toNat_inj.mp <;>
    simp only [UInt64.toNat_toUInt8, UInt64.toNat_and, UInt64.toNat_shiftRight,
      UInt8.toNat_ofNat', UInt64.reduceToNat, Nat.reduceMod]
  · exact h 7
  · exact h 6
  · exact h 5
  · exact h 4
  · exact h 3
  · exact h 2
  · exact h 1
  · exact h 0

end Digits

section Integers

/-- The bytes a reader that asked for `w` of them has in front of it. -/
theorem exists_bytes {p : Bytes} {o w : ℕ} (h : o + w ≤ p.length) :
    ∃ bs rest, bs.length = w ∧ p.drop o = bs ++ rest ∧ (p.drop o).take w = bs ∧
      ∀ i < w, p[o + i]? = bs[i]? := by
  have hlen : ((p.drop o).take w).length = w := by
    rw [List.length_take, List.length_drop]
    omega
  refine ⟨(p.drop o).take w, (p.drop o).drop w, hlen, (List.take_append_drop _ _).symm, rfl, ?_⟩
  intro i hi
  rw [List.getElem?_take_of_lt hi, List.getElem?_drop]

theorem readU16_fixed : Fixed readU16 2 fun bs => UInt16.ofNat (beNat bs) := by
  intro p o
  simp only [readU16, Reader.bind_apply, Reader.need]
  by_cases h : o + 2 ≤ p.length
  · obtain ⟨bs, rest, hlen, -, htake, hget⟩ := exists_bytes h
    obtain ⟨b0, b1, rfl⟩ := List.length_eq_two.mp hlen
    have h0 := hget 0 (by omega)
    have h1 := hget 1 (by omega)
    simp only [List.getElem?_cons_zero, List.getElem?_cons_succ] at h0 h1
    rw [if_neg (by omega), if_pos h, htake]
    simp only [Reader.peek, h0, h1, Reader.skip, Reader.pure_apply]
    congr 2
    apply UInt16.toNat_inj.mp
    have hb0 := b0.toNat_lt
    have hb1 := b1.toNat_lt
    simp only [UInt16.toNat_or, UInt16.toNat_shiftLeft, UInt8.toNat_toUInt16,
      UInt16.reduceToNat, Nat.reduceMod, Nat.shiftLeft_eq, Nat.reducePow, UInt16.toNat_ofNat']
    rw [Nat.mod_eq_of_lt (by omega), shift_or_eq hb1]
    simp only [beNat, List.foldl_cons, List.foldl_nil]
    omega
  · rw [if_pos (by omega), if_neg h]

theorem readU32_fixed : Fixed readU32 4 fun bs => UInt32.ofNat (beNat bs) := by
  intro p o
  simp only [readU32, Reader.bind_apply, Reader.need]
  by_cases h : o + 4 ≤ p.length
  · obtain ⟨bs, rest, hlen, -, htake, hget⟩ := exists_bytes h
    obtain ⟨b0, b1, b2, b3, rfl⟩ : ∃ b0 b1 b2 b3, bs = [b0, b1, b2, b3] := by
      rcases bs with _ | ⟨b0, _ | ⟨b1, _ | ⟨b2, _ | ⟨b3, _ | _⟩⟩⟩⟩ <;> simp at hlen
      exact ⟨b0, b1, b2, b3, rfl⟩
    have h0 := hget 0 (by omega)
    have h1 := hget 1 (by omega)
    have h2 := hget 2 (by omega)
    have h3 := hget 3 (by omega)
    simp only [List.getElem?_cons_zero, List.getElem?_cons_succ] at h0 h1 h2 h3
    rw [if_neg (by omega), if_pos h, htake]
    simp only [Reader.peek, h0, h1, h2, h3, Reader.skip, Reader.pure_apply]
    congr 2
    apply UInt32.toNat_inj.mp
    have hb0 := b0.toNat_lt
    have hb1 := b1.toNat_lt
    have hb2 := b2.toNat_lt
    have hb3 := b3.toNat_lt
    simp only [UInt32.toNat_or, UInt32.toNat_shiftLeft, UInt8.toNat_toUInt32,
      UInt32.reduceToNat, Nat.reduceMod, UInt32.toNat_ofNat']
    -- the four shifted bytes are the digits, folded from the left
    have hfold : b0.toNat <<< 24 ||| b1.toNat <<< 16 ||| b2.toNat <<< 8 ||| b3.toNat
        = ((b0.toNat * 256 + b1.toNat) * 256 + b2.toNat) * 256 + b3.toNat := by
      rw [← shift_or_eq hb3, ← shift_or_eq hb2, ← shift_or_eq hb1]
      simp only [show ∀ n : ℕ, n * 256 = n <<< 8 from fun n => by rw [Nat.shiftLeft_eq],
        Nat.shiftLeft_or_distrib, ← Nat.shiftLeft_add]
    rw [Nat.mod_eq_of_lt (a := b0.toNat <<< 24), Nat.mod_eq_of_lt (a := b1.toNat <<< 16),
      Nat.mod_eq_of_lt (a := b2.toNat <<< 8), hfold]
    · simp only [beNat, List.foldl_cons, List.foldl_nil]
      omega
    all_goals rw [Nat.shiftLeft_eq]; omega
  · rw [if_pos (by omega), if_neg h]

/-- One turn of the reader's loop, while there is room for another byte. -/
theorem toNat_shift_or {x : UInt64} (b : UInt8) {n k : ℕ} (hx : x.toNat = n) (hn : n < 256 ^ k)
    (hk : k ≤ 7) : ((x <<< 8) ||| b.toUInt64).toNat = n * 256 + b.toNat := by
  have hn' : n < 256 ^ 7 := lt_of_lt_of_le hn (Nat.pow_le_pow_right (by norm_num) hk)
  rw [UInt64.toNat_or, UInt64.toNat_shiftLeft, UInt8.toNat_toUInt64, hx]
  simp only [UInt64.reduceToNat, Nat.reduceMod, Nat.shiftLeft_eq, Nat.reducePow]
  rw [Nat.mod_eq_of_lt (by omega), shift_or_eq b.toNat_lt]

theorem toNat_foldl_shift_or : ∀ (bs : Bytes) (x : UInt64) (k : ℕ), x.toNat < 256 ^ k →
    k + bs.length ≤ 8 →
    (bs.foldl (fun (out : UInt64) byte => (out <<< 8) ||| byte.toUInt64) x).toNat
      = bs.foldl (fun n b => n * 256 + b.toNat) x.toNat
  | [], _, _, _, _ => rfl
  | b :: bs, x, k, hx, hk => by
    simp only [List.length_cons] at hk
    have h := toNat_shift_or b (x := x) rfl hx (by omega)
    have hb := b.toNat_lt
    rw [List.foldl_cons, List.foldl_cons, toNat_foldl_shift_or bs _ (k + 1) ?_ (by omega), h]
    rw [h, pow_succ]
    omega

theorem readU64_fixed : Fixed readU64 8 fun bs => UInt64.ofNat (beNat bs) := by
  intro p o
  simp only [readU64, Reader.bind_apply, Reader.need]
  by_cases h : o + 8 ≤ p.length
  · obtain ⟨bs, rest, hlen, -, htake, hget⟩ := exists_bytes h
    have hloop := foldlM_peek (fun (out : UInt64) byte => (out <<< 8) ||| byte.toUInt64) p o bs 0 0
      fun i hi => by rw [Nat.zero_add]; exact hget i (by omega)
    rw [hlen, ← List.range_eq_range'] at hloop
    rw [if_neg (by omega), if_pos h, htake]
    simp only [hloop, Reader.skip, Reader.pure_apply]
    congr 2
    apply UInt64.toNat_inj.mp
    rw [toNat_foldl_shift_or bs 0 0 (by simp) (by omega), UInt64.toNat_ofNat',
      Nat.mod_eq_of_lt]
    · rfl
    · have := beNat_lt bs
      rw [hlen] at this
      exact this
  · rw [if_pos (by omega), if_neg h]

theorem readU16_yields (v : UInt16) : Yields readU16 (writeU16 v) v := by
  have h : Yields readU16 (writeU16 v) _ := readU16_fixed.yields rfl
  rwa [writeU16_eq, beNat_beBytes, Nat.mod_eq_of_lt (by simpa using v.toNat_lt),
    UInt16.ofNat_toNat, ← writeU16_eq] at h

theorem readU32_yields (v : UInt32) : Yields readU32 (writeU32 v) v := by
  have h : Yields readU32 (writeU32 v) _ := readU32_fixed.yields rfl
  rwa [writeU32_eq, beNat_beBytes, Nat.mod_eq_of_lt (by simpa using v.toNat_lt),
    UInt32.ofNat_toNat, ← writeU32_eq] at h

theorem readU64_yields (v : UInt64) : Yields readU64 (writeU64 v) v := by
  have h : Yields readU64 (writeU64 v) _ := readU64_fixed.yields rfl
  rwa [writeU64_eq, beNat_beBytes, Nat.mod_eq_of_lt (by simpa using v.toNat_lt),
    UInt64.ofNat_toNat, ← writeU64_eq] at h

theorem readU16_exact : Exact readU16 fun v bs => bs = writeU16 v := by
  refine readU16_fixed.exact.mono ?_
  rintro v bs ⟨hlen, rfl⟩
  have h := beNat_lt bs
  rw [hlen] at h
  rw [writeU16_eq, UInt16.toNat_ofNat', Nat.mod_eq_of_lt (by simpa using h), ← hlen,
    beBytes_beNat]

theorem readU32_exact : Exact readU32 fun v bs => bs = writeU32 v := by
  refine readU32_fixed.exact.mono ?_
  rintro v bs ⟨hlen, rfl⟩
  have h := beNat_lt bs
  rw [hlen] at h
  rw [writeU32_eq, UInt32.toNat_ofNat', Nat.mod_eq_of_lt (by simpa using h), ← hlen,
    beBytes_beNat]

theorem readU64_exact : Exact readU64 fun v bs => bs = writeU64 v := by
  refine readU64_fixed.exact.mono ?_
  rintro v bs ⟨hlen, rfl⟩
  have h := beNat_lt bs
  rw [hlen] at h
  rw [writeU64_eq, UInt64.toNat_ofNat', Nat.mod_eq_of_lt (by simpa using h), ← hlen,
    beBytes_beNat]

end Integers

/-! ## Strings and lists -/

section Counted

theorem toNat_count (n : ℕ) : (UInt16.ofNat (min n maxU16)).toNat = min n maxU16 := by
  rw [UInt16.toNat_ofNat', Nat.mod_eq_of_lt]
  unfold maxU16
  omega

theorem take_count {α : Type} (l : List α) :
    l.take (UInt16.ofNat (min l.length maxU16)).toNat = l.take maxU16 := by
  rw [toNat_count]
  by_cases h : l.length ≤ maxU16
  · rw [Nat.min_eq_left h, List.take_length, List.take_of_length_le h]
  · rw [Nat.min_eq_right (by omega)]

theorem length_take_count {α : Type} (l : List α) :
    (l.take maxU16).length = (UInt16.ofNat (min l.length maxU16)).toNat := by
  rw [toNat_count, List.length_take, Nat.min_comm]

/-- A count that fits 16 bits is written as it is. -/
theorem count_of_length {α : Type} {l : List α} {n : UInt16} (h : l.length = n.toNat) :
    UInt16.ofNat (min l.length maxU16) = n := by
  have hn : n.toNat < 65536 := n.toNat_lt
  rw [h, Nat.min_eq_left (by unfold maxU16; omega), UInt16.ofNat_toNat]

theorem takeBytes_fixed {α : Type} (n : ℕ) (f : Bytes → α) :
    Fixed (do
      Reader.need n
      let out ← Reader.slice n
      Reader.skip n
      return f out) n f := by
  intro p o
  simp only [Reader.bind_apply, Reader.need, Reader.slice, Reader.skip, Reader.pure_apply]
  by_cases h : o + n ≤ p.length
  · rw [if_neg (by omega), if_pos h]
    simp only [h, if_true]
  · rw [if_pos (by omega), if_neg h]

theorem readBytes_fixed (n : ℕ) :
    Fixed (do
      Reader.need n
      let out ← Reader.slice n
      Reader.skip n
      return out) n id :=
  takeBytes_fixed n id

theorem readString_yields (s : Str) : Yields readString (writeString s) (cutString s) := by
  refine (readU16_yields _).bind ?_
  rw [take_count]
  exact (readBytes_fixed _).yields (length_take_count s)

theorem readString_exact : Exact readString fun s bs => bs = writeString s := by
  refine (readU16_exact.bind fun size => (readBytes_fixed size.toNat).exact).mono ?_
  rintro s bs ⟨size, xs, ys, rfl, rfl, hlen, rfl⟩
  simp only [writeString, count_of_length hlen, ← hlen, List.take_length]

theorem readList_yields {α β : Type} {r : Reader α} {w : β → Bytes} {g : β → α}
    (h : ∀ b, Yields r (w b) (g b)) (l : List β) :
    Yields (readList r) (writeList w l) ((l.take maxU16).map g) := by
  refine (readU16_yields _).bind ?_
  rw [take_count, ← length_take_count]
  exact Yields.many h _

theorem flatten_eq_flatMap {α : Type} {w : α → Bytes} :
    ∀ {as : List α} {bss : List Bytes}, List.Forall₂ (fun a bs => bs = w a) as bss →
      bss.flatten = as.flatMap w
  | [], [], .nil => rfl
  | _ :: _, _ :: _, .cons h hs => by
    rw [List.flatten_cons, List.flatMap_cons, h, flatten_eq_flatMap hs]

theorem readList_exact {α : Type} {r : Reader α} {w : α → Bytes}
    (h : Exact r fun a bs => bs = w a) :
    Exact (readList r) fun as bs => bs = writeList w as := by
  refine (readU16_exact.bind fun count => Exact.many h count.toNat).mono ?_
  rintro as bs ⟨count, xs, ys, rfl, rfl, hlen, bss, rfl, hall⟩
  simp only [writeList, count_of_length hlen, ← hlen, List.take_length]
  rw [flatten_eq_flatMap hall]

theorem readStringList_yields (l : List Str) :
    Yields readStringList (writeStringList l) ((l.take maxU16).map cutString) :=
  readList_yields readString_yields l

theorem readStringList_exact : Exact readStringList fun l bs => bs = writeStringList l :=
  readList_exact readString_exact

end Counted

/-! ## Messages that start with a boolean -/

section Flagged

variable {α : Type} {fields : Bool → Reader α}

theorem decodeFlagged_cons (b : UInt8) (p : Bytes) :
    decodeFlagged fields (b :: p) = Reader.whole (do
      let byte ← Reader.peek 0
      Reader.skip 1
      fields (byte != 0)) (b :: p) := by
  simp [decodeFlagged]

theorem decodeFlagged_writeFlag {flag : Bool} {bs : Bytes} {a : α}
    (h : Yields (fields flag) bs a) (rest : Bytes) :
    decodeFlagged fields (writeFlag flag ++ bs ++ rest)
      = if rest = [] then .ok a else .error .refused := by
  have hflag : Yields (do
      let byte ← Reader.peek 0
      Reader.skip 1
      fields (byte != 0)) (writeFlag flag ++ bs) a := by
    intro front rest
    have h' := h (front ++ writeFlag flag) rest
    have hget : (front ++ (writeFlag flag ++ (bs ++ rest)))[front.length + 0]?
        = some (if flag then 1 else 0) := by
      rw [Nat.add_zero, List.getElem?_append_right le_rfl, Nat.sub_self]
      rfl
    have hne : ((if flag then 1 else 0 : UInt8) != 0) = flag := by cases flag <;> rfl
    simp only [List.append_assoc, List.length_append] at h' ⊢
    simp only [Reader.bind_apply, Reader.peek, hget, Reader.skip, hne]
    rw [show front.length + 1 = front.length + (writeFlag flag).length from rfl, h']
    congr 2
    omega
  rw [← hflag.whole rest]
  simp only [writeFlag, List.cons_append, List.nil_append, decodeFlagged_cons]

theorem decodeFlagged_exact {R : Bool → α → Bytes → Prop}
    (h : ∀ flag, Exact (fields flag) (R flag)) (p : Bytes) :
    decodeFlagged fields p ≠ .error .outOfBounds ∧
      ∀ a, decodeFlagged fields p = .ok a → ∃ b bs, p = b :: bs ∧ R (b != 0) a bs := by
  rcases p with _ | ⟨b, p⟩
  · simp [decodeFlagged]
  · -- the flag is read unchecked, but the payload was seen not to be empty
    obtain ⟨h1, h2⟩ := h (b != 0) (b :: p) 1 (by simp)
    rw [decodeFlagged_cons]
    simp only [Reader.whole, Reader.bind_apply, Reader.peek, Reader.skip, Nat.add_zero,
      Nat.zero_add, List.getElem?_cons_zero]
    rcases hr : fields (b != 0) (b :: p) 1 with e | ⟨a, o⟩
    · refine ⟨fun he => h1 (by rw [hr]; simpa using he), fun a ha => by simp at ha⟩
    · obtain ⟨bs, hb, ho, hle, hR⟩ := h2 a o hr
      refine ⟨by simp only []; split_ifs <;> simp, fun a' ha => ⟨b, p, rfl, ?_⟩⟩
      simp only [] at ha
      split_ifs at ha with hlen
      cases ha
      rw [hlen, List.drop_length, List.append_nil, List.drop_one, List.tail_cons] at hb
      rwa [hb]

end Flagged

end DungeonHub
