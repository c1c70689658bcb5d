import Mathlib

/-!
# Readers of byte strings

A reader walks a byte string by offset, and either returns a value and the next offset, refuses,
or looks past the end. `Yields` says what a reader makes of the bytes a writer put there, whatever
stands before and after them; `Exact` says that whatever it returns was written there, and that it
never looks past the end. Both are closed under sequencing, so a record's reader is checked field
by field.
-/

namespace Wire

/-- A byte string. -/
abbrev Bytes := List UInt8

/-- Why a reader returns no value: it refuses the bytes, or it looks past their end. -/
inductive Fault where
  | refused
  | outOfBounds
  deriving DecidableEq, Repr

/-- A reader of the byte string `p` at offset `o`. -/
def Reader (α : Type) : Type := (p : Bytes) → (o : ℕ) → Except Fault (α × ℕ)

namespace Reader

variable {α β : Type}

instance : Monad Reader where
  pure a := fun _ o => .ok (a, o)
  bind r f := fun p o => match r p o with
    | .ok (a, o') => f a p o'
    | .error e => .error e

/-- Refuse unless `n` bytes are left. -/
def need (n : ℕ) : Reader Unit := fun p o =>
  if o + n > p.length then .error .refused else .ok ((), o)

/-- The byte `i` places on, unchecked. -/
def peek (i : ℕ) : Reader UInt8 := fun p o =>
  match p[o + i]? with
  | some b => .ok (b, o)
  | none => .error .outOfBounds

/-- The next `n` bytes, unchecked. -/
def slice (n : ℕ) : Reader Bytes := fun p o =>
  if o + n ≤ p.length then .ok ((p.drop o).take n, o) else .error .outOfBounds

/-- Move `n` bytes on. -/
def skip (n : ℕ) : Reader Unit := fun _ o => .ok ((), o + n)

/-- The reader `n` times over. -/
def many (r : Reader α) : ℕ → Reader (List α)
  | 0 => pure []
  | n + 1 => do
    let a ← r
    let as ← many r n
    return a :: as

/-- The reader from the start, refusing what it leaves over. -/
def whole (r : Reader α) (p : Bytes) : Except Fault α :=
  match r p 0 with
  | .ok (a, o) => if o = p.length then .ok a else .error .refused
  | .error e => .error e

theorem pure_apply (a : α) (p : Bytes) (o : ℕ) : (pure a : Reader α) p o = .ok (a, o) := rfl

theorem bind_apply (r : Reader α) (f : α → Reader β) (p : Bytes) (o : ℕ) :
    (r >>= f) p o = match r p o with
      | .ok (a, o') => f a p o'
      | .error e => .error e := rfl

end Reader

variable {α β : Type}

/-! ## What a reader makes of written bytes -/

/-- Wherever `bs` stands, the reader takes it, and only it, for `a`. -/
def Yields (r : Reader α) (bs : Bytes) (a : α) : Prop :=
  ∀ front rest : Bytes,
    r (front ++ bs ++ rest) front.length = .ok (a, front.length + bs.length)

theorem Yields.pure (a : α) : Yields (pure a) [] a := by
  intro front rest
  simp [Reader.pure_apply]

theorem Yields.bind {r : Reader α} {f : α → Reader β} {bs cs : Bytes} {a : α} {b : β}
    (h : Yields r bs a) (hf : Yields (f a) cs b) : Yields (r >>= f) (bs ++ cs) b := by
  intro front rest
  have h1 := h front (cs ++ rest)
  have h2 := hf (front ++ bs) rest
  simp only [List.append_assoc, List.length_append] at h1 h2 ⊢
  simp only [Reader.bind_apply, h1, h2]
  congr 2
  omega

theorem Yields.bind_pure {r : Reader α} {f : α → β} {bs : Bytes} {a : α} (h : Yields r bs a) :
    Yields (r >>= fun x => Pure.pure (f x)) bs (f a) := by
  simpa using h.bind (f := fun x => (Pure.pure (f x) : Reader β)) (.pure (f a))

theorem Yields.many {r : Reader α} {w : β → Bytes} {g : β → α}
    (h : ∀ b, Yields r (w b) (g b)) :
    ∀ l : List β, Yields (r.many l.length) (l.flatMap w) (l.map g)
  | [] => .pure []
  | b :: l => (h b).bind (Yields.many h l).bind_pure

/-- A reader of the whole string takes `bs` for `a` and refuses anything longer. -/
theorem Yields.whole {r : Reader α} {bs : Bytes} {a : α} (h : Yields r bs a) (rest : Bytes) :
    r.whole (bs ++ rest) = if rest = [] then .ok a else .error .refused := by
  have h0 := h [] rest
  simp only [List.nil_append, List.length_nil, Nat.zero_add] at h0
  simp only [Reader.whole, h0, List.length_append]
  rcases rest with _ | ⟨x, xs⟩
  · simp
  · simp

/-! ## What a reader accepts -/

/-- From an offset inside the string the reader never looks past the end, and what it returns and
the bytes it moves over are related by `R`. -/
def Exact (r : Reader α) (R : α → Bytes → Prop) : Prop :=
  ∀ p o, o ≤ p.length → r p o ≠ .error .outOfBounds ∧
    ∀ a o', r p o = .ok (a, o') →
      ∃ bs, p.drop o = bs ++ p.drop o' ∧ o' = o + bs.length ∧ o' ≤ p.length ∧ R a bs

theorem Exact.pure (a : α) : Exact (pure a) fun b bs => b = a ∧ bs = [] := by
  intro p o ho
  refine ⟨by simp [Reader.pure_apply], fun b o' h => ?_⟩
  simp only [Reader.pure_apply, Except.ok.injEq, Prod.mk.injEq] at h
  obtain ⟨rfl, rfl⟩ := h
  exact ⟨[], by simp, by simp, ho, rfl, rfl⟩

theorem Exact.bind {r : Reader α} {f : α → Reader β} {R : α → Bytes → Prop}
    {S : α → β → Bytes → Prop} (h : Exact r R) (hf : ∀ a, Exact (f a) (S a)) :
    Exact (r >>= f) fun b bs => ∃ a xs ys, bs = xs ++ ys ∧ R a xs ∧ S a b ys := by
  intro p o ho
  obtain ⟨h1, h2⟩ := h p o ho
  rcases hr : r p o with e | ⟨a, o₁⟩
  · refine ⟨?_, fun b o' hb => by simp [Reader.bind_apply, hr] at hb⟩
    simp only [Reader.bind_apply, hr]
    intro he
    exact h1 (by rw [hr]; simpa using he)
  · obtain ⟨xs, hx, ho₁, hle, hR⟩ := h2 a o₁ hr
    obtain ⟨h3, h4⟩ := hf a p o₁ hle
    refine ⟨by simpa only [Reader.bind_apply, hr] using h3, fun b o' hb => ?_⟩
    simp only [Reader.bind_apply, hr] at hb
    obtain ⟨ys, hy, ho', hle', hS⟩ := h4 b o' hb
    refine ⟨xs ++ ys, ?_, ?_, hle', a, xs, ys, rfl, hR, hS⟩
    · rw [hx, hy, List.append_assoc]
    · rw [List.length_append]
      omega

/-- `Exact.bind` after a field that its writer determines. -/
theorem Exact.field {r : Reader α} {w : α → Bytes} {f : α → Reader β} {S : α → β → Bytes → Prop}
    (h : Exact r fun a bs => bs = w a) (hf : ∀ a, Exact (f a) (S a)) :
    Exact (r >>= f) fun b bs => ∃ a ys, bs = w a ++ ys ∧ S a b ys := by
  intro p o ho
  obtain ⟨h1, h2⟩ := h.bind hf p o ho
  refine ⟨h1, fun b o' hb => ?_⟩
  obtain ⟨bs, hbs, ho', hle, a, _, ys, rfl, rfl, hS⟩ := h2 b o' hb
  exact ⟨w a ++ ys, hbs, ho', hle, a, ys, rfl, hS⟩

theorem Exact.mono {r : Reader α} {R S : α → Bytes → Prop} (h : Exact r R)
    (hRS : ∀ a bs, R a bs → S a bs) : Exact r S := by
  intro p o ho
  obtain ⟨h1, h2⟩ := h p o ho
  refine ⟨h1, fun a o' ha => ?_⟩
  obtain ⟨bs, hb, ho', hle, hR⟩ := h2 a o' ha
  exact ⟨bs, hb, ho', hle, hRS a bs hR⟩

theorem Exact.many {r : Reader α} {R : α → Bytes → Prop} (h : Exact r R) :
    ∀ n, Exact (r.many n) fun as bs =>
      as.length = n ∧ ∃ bss : List Bytes, bs = bss.flatten ∧ List.Forall₂ R as bss
  | 0 => (Exact.pure []).mono fun as bs ⟨ha, hb⟩ => by
    subst ha hb
    exact ⟨rfl, [], rfl, .nil⟩
  | n + 1 => by
    refine (h.bind fun a => (Exact.many h n).bind fun as => Exact.pure (a :: as)).mono ?_
    rintro bs bytes ⟨a, xs, ys, rfl, hR, as, zs, us, rfl, ⟨hlen, bss, rfl, hall⟩, rfl, rfl⟩
    exact ⟨by simp [hlen], xs :: bss, by simp, .cons hR hall⟩

/-- What a reader of the whole string accepts is all related to the value it returns. -/
theorem Exact.whole {r : Reader α} {R : α → Bytes → Prop} (h : Exact r R) (p : Bytes) :
    r.whole p ≠ .error .outOfBounds ∧ ∀ a, r.whole p = .ok a → R a p := by
  obtain ⟨h1, h2⟩ := h p 0 (Nat.zero_le _)
  unfold Reader.whole
  rcases hr : r p 0 with e | ⟨a, o⟩
  · refine ⟨fun he => h1 (by rw [hr]; simpa using he), fun a ha => by simp at ha⟩
  · obtain ⟨bs, hb, ho, hle, hR⟩ := h2 a o hr
    refine ⟨by simp only []; split_ifs <;> simp, fun a' ha => ?_⟩
    simp only [] at ha
    split_ifs at ha with hlen
    cases ha
    subst hlen
    simp only [List.drop_zero, List.drop_length, List.append_nil] at hb
    rwa [hb]

/-! ## Fields of fixed width -/

section Fixed

variable {r : Reader α} {w : ℕ} {dec : Bytes → α}

/-- The reader takes the next `w` bytes for `dec` of them, and refuses if they are not there. -/
def Fixed (r : Reader α) (w : ℕ) (dec : Bytes → α) : Prop :=
  ∀ p o, r p o =
    if o + w ≤ p.length then .ok (dec ((p.drop o).take w), o + w) else .error .refused

theorem Fixed.yields (h : Fixed r w dec) {bs : Bytes} (hw : bs.length = w) :
    Yields r bs (dec bs) := by
  intro front rest
  subst hw
  rw [h, if_pos (by simp)]
  simp [List.append_assoc]

theorem Fixed.exact (h : Fixed r w dec) : Exact r fun a bs => bs.length = w ∧ a = dec bs := by
  intro p o ho
  rw [h]
  split_ifs with hlen
  · refine ⟨by simp, fun a o' ha => ?_⟩
    simp only [Except.ok.injEq, Prod.mk.injEq] at ha
    obtain ⟨rfl, rfl⟩ := ha
    have htake : ((p.drop o).take w).length = w := by
      rw [List.length_take, List.length_drop]
      omega
    refine ⟨(p.drop o).take w, ?_, by rw [htake], hlen, htake, rfl⟩
    rw [← List.drop_drop, List.take_append_drop]
  · exact ⟨by simp, fun a o' ha => by simp at ha⟩

/-- As many bytes as the reader takes are what is written for their value. -/
theorem Fixed.written {wr : α → Bytes} (h : Fixed r w dec) (hr : Exact r fun a bs => bs = wr a)
    {bs : Bytes} (hw : bs.length = w) : bs = wr (dec bs) := by
  refine (hr.whole bs).2 (dec bs) ?_
  have hwhole := (h.yields hw).whole []
  rwa [List.append_nil, if_pos rfl] at hwhole

end Fixed

/-- A loop that looks at the next bytes in turn folds over them. -/
theorem foldlM_peek (f : β → UInt8 → β) (p : Bytes) (o : ℕ) :
    ∀ (bs : Bytes) (k : ℕ) (b : β), (∀ i < bs.length, p[o + (k + i)]? = bs[i]?) →
      (List.range' k bs.length).foldlM (m := Reader)
        (fun acc i => do
          let byte ← Reader.peek i
          return f acc byte) b p o
        = .ok (bs.foldl f b, o)
  | [], _, _, _ => rfl
  | x :: bs, k, b, h => by
    have h0 : p[o + k]? = some x := by simpa using h 0 (by simp)
    have ih := foldlM_peek f p o bs (k + 1) (f b x) fun i hi => by
      have := h (i + 1) (by simpa using hi)
      rwa [List.getElem?_cons_succ, show k + (i + 1) = k + 1 + i by omega] at this
    simp only [List.length_cons, List.range'_succ, List.foldlM_cons, List.foldl_cons]
    simp only [Reader.bind_apply, Reader.peek, h0, Reader.pure_apply]
    exact ih

/-! ## Big-endian numbers -/

/-- The number a byte string writes, most significant byte first. -/
def beNat (bs : Bytes) : ℕ := bs.foldl (fun n b => n * 256 + b.toNat) 0

/-- The last `w` base-256 digits of `n`, most significant first. -/
def beBytes : ℕ → ℕ → Bytes
  | 0, _ => []
  | w + 1, n => UInt8.ofNat (n / 256 ^ w) :: beBytes w n

@[simp] theorem length_beBytes : ∀ w n, (beBytes w n).length = w
  | 0, _ => rfl
  | w + 1, n => by simp [beBytes, length_beBytes w n]

theorem foldl_beNat : ∀ (bs : Bytes) (n : ℕ),
    bs.foldl (fun n b => n * 256 + b.toNat) n = n * 256 ^ bs.length + beNat bs
  | [], n => by simp [beNat]
  | b :: bs, n => by
    have h1 := foldl_beNat bs (n * 256 + b.toNat)
    have h2 := foldl_beNat bs (0 * 256 + b.toNat)
    simp only [beNat, List.foldl_cons, List.length_cons] at h1 h2 ⊢
    rw [h1, h2, pow_succ]
    ring

theorem beNat_cons (b : UInt8) (bs : Bytes) :
    beNat (b :: bs) = b.toNat * 256 ^ bs.length + beNat bs := by
  rw [beNat, List.foldl_cons, foldl_beNat, Nat.zero_mul, Nat.zero_add]

theorem beNat_lt : ∀ bs : Bytes, beNat bs < 256 ^ bs.length
  | [] => by simp [beNat]
  | b :: bs => by
    have h1 := beNat_lt bs
    have h2 : b.toNat + 1 ≤ 256 := b.toNat_lt
    calc beNat (b :: bs) = b.toNat * 256 ^ bs.length + beNat bs := beNat_cons b bs
      _ < (b.toNat + 1) * 256 ^ bs.length := by rw [Nat.add_mul, Nat.one_mul]; omega
      _ ≤ 256 * 256 ^ bs.length := Nat.mul_le_mul_right _ h2
      _ = 256 ^ (b :: bs).length := by rw [List.length_cons, pow_succ, Nat.mul_comm]

theorem beNat_beBytes : ∀ w n, beNat (beBytes w n) = n % 256 ^ w
  | 0, n => by simp [beBytes, beNat, Nat.mod_one]
  | w + 1, n => by
    have hw : 256 ^ (w + 1) = 256 ^ w * 2 ^ 8 := pow_succ 256 w
    rw [beBytes, beNat_cons, length_beBytes, beNat_beBytes w n, UInt8.toNat_ofNat', hw,
      Nat.mod_mul, Nat.mul_comm, Nat.add_comm]

theorem beBytes_add (w a b : ℕ) : beBytes w (a * 256 ^ w + b) = beBytes w b := by
  have key : ∀ v, v ≤ w → beBytes v (a * 256 ^ w + b) = beBytes v b := by
    intro v hv
    induction v with
    | zero => rfl
    | succ v ih =>
      obtain ⟨k, rfl⟩ : ∃ k, w = v + (k + 1) := ⟨w - v - 1, by omega⟩
      simp only [beBytes, ih (by omega)]
      congr 1
      apply UInt8.toNat_inj.mp
      rw [UInt8.toNat_ofNat', UInt8.toNat_ofNat']
      have hd : a * 256 ^ (v + (k + 1)) + b = b + 256 ^ v * (256 * (a * 256 ^ k)) := by
        rw [pow_add, pow_succ]
        ring
      rw [hd, Nat.add_mul_div_left _ _ (by positivity), Nat.add_mul_mod_self_left]
  exact key w le_rfl

theorem beBytes_beNat : ∀ bs : Bytes, beBytes bs.length (beNat bs) = bs
  | [] => rfl
  | b :: bs => by
    have hlt := beNat_lt bs
    rw [List.length_cons, beBytes, beNat_cons, beBytes_add, beBytes_beNat bs]
    congr 1
    apply UInt8.toNat_inj.mp
    rw [UInt8.toNat_ofNat', Nat.mul_comm, Nat.mul_add_div (by positivity),
      Nat.div_eq_of_lt hlt, Nat.add_zero]
    exact Nat.mod_eq_of_lt b.toNat_lt

end Wire
