import DungeonHub.Dungeon

/-!
# The rating arithmetic of a match

`compatible` compares the rating gap of two parties with an allowance that grows as they wait. It
computes both as `int`: that is exact as long as the two fit, and nothing bounds either.
-/

namespace DungeonHub

namespace MatchQueue

/-- The seconds that the later of the two has waited. -/
def shorterWait (first second : MatchCandidate) (now : Time) : ℚ :=
  min ((now - first.enqueueTime : ℤ) / 1000000000) ((now - second.enqueueTime : ℤ) / 1000000000)

/-- The rating gap that the rule lets pass. -/
def allowance (q : MatchQueue) (first second : MatchCandidate) (now : Time) : ℤ :=
  q.rule.maxMmrDelta + ⌊q.rule.expansionPerSecond * shorterWait first second now⌋

/-- The rating gap and the allowance are 32-bit numbers. -/
def FitsInt (q : MatchQueue) (first second : MatchCandidate) (now : Time) : Prop :=
  |first.mmr - second.mmr| < 2 ^ 31 ∧ q.allowance first second now < 2 ^ 31

theorem truncate_of_nonneg {x : ℚ} (h : 0 ≤ x) : truncate x = ⌊x⌋ := by
  unfold truncate
  rw [Int.tdiv_eq_ediv_of_nonneg (Rat.num_nonneg.mpr h), Rat.floor_def']

theorem enqueue_size {q : MatchQueue} {candidate : MatchCandidate}
    (h : (q.enqueue candidate).1 = true) :
    q.rule.minPartySize ≤ candidate.partySize ∧ candidate.partySize ≤ q.rule.maxPartySize := by
  unfold enqueue at h
  split_ifs at h with hid hsize
  rw [not_or, not_lt, not_lt] at hsize
  exact hsize

/-- Where the arithmetic is defined, the answer is that of integers. -/
theorem compatible_of_int {q : MatchQueue} {first second : MatchCandidate} {now : Time} {b : Bool}
    (h : q.compatibleInt first second now = some b) : q.compatible first second now = b := by
  unfold compatibleInt at h
  unfold compatible
  split_ifs at h ⊢ with hsize
  · exact Option.some.inj h
  · obtain ⟨-, -, -, -, hb⟩ := by
      simpa only [Option.bind_eq_bind, Checked.int32_bind_eq_some] using h
    exact Option.some.inj hb

section Exact

variable {q : MatchQueue} {first second : MatchCandidate} {now : Time}
  (hdelta : 0 ≤ q.rule.maxMmrDelta) (hexpansion : 0 ≤ q.rule.expansionPerSecond)
  (hfirst : (q.enqueue first).1 = true) (hsecond : (q.enqueue second).1 = true)

include hexpansion in
theorem growth_nonneg (hwait : first.enqueueTime ≤ now ∧ second.enqueueTime ≤ now) :
    (0 : ℚ) ≤ q.rule.expansionPerSecond * shorterWait first second now := by
  unfold shorterWait
  have hwaited : ∀ time : Time, time ≤ now → (0 : ℚ) ≤ (now - time : ℤ) / 1000000000 := by
    intro time htime
    have hle : (0 : ℚ) ≤ (now - time : ℤ) := by exact_mod_cast sub_nonneg.mpr htime
    positivity
  exact mul_nonneg (by exact_mod_cast hexpansion)
    (le_min (hwaited _ hwait.1) (hwaited _ hwait.2))

include hexpansion in
theorem allowance_mono {later : Time} (hle : now ≤ later) :
    q.allowance first second now ≤ q.allowance first second later := by
  unfold allowance shorterWait
  have hcast : (0 : ℚ) ≤ q.rule.expansionPerSecond := by exact_mod_cast hexpansion
  have hwaits : ∀ time : Time,
      ((now - time : ℤ) : ℚ) / 1000000000 ≤ (later - time : ℤ) / 1000000000 := by
    intro time
    have hsub : ((now - time : ℤ) : ℚ) ≤ (later - time : ℤ) := by
      exact_mod_cast sub_le_sub_right hle time
    gcongr
  have hmin := min_le_min (hwaits first.enqueueTime) (hwaits second.enqueueTime)
  exact add_le_add_right (Int.floor_le_floor (mul_le_mul_of_nonneg_left hmin hcast)) _

include hdelta hexpansion hfirst hsecond in
/-- The arithmetic is defined exactly where the rating gap and the allowance fit. -/
theorem compatibleInt_eq_some (hwait : first.enqueueTime ≤ now ∧ second.enqueueTime ≤ now)
    (b : Bool) :
    q.compatibleInt first second now = some b ↔ q.FitsInt first second now ∧
      decide (|first.mmr - second.mmr| ≤ q.allowance first second now) = b := by
  have hgrowth := growth_nonneg hexpansion hwait
  have hfloor : 0 ≤ ⌊q.rule.expansionPerSecond * shorterWait first second now⌋ :=
    Int.floor_nonneg.mpr hgrowth
  have htruncate := truncate_of_nonneg hgrowth
  have hsizes := enqueue_size hfirst
  have hsizes' := enqueue_size hsecond
  unfold compatibleInt
  rw [if_neg (by omega)]
  unfold shorterWait at htruncate hfloor
  simp only [Option.bind_eq_bind, Checked.int32_bind_eq_some, htruncate, Option.some.injEq]
  unfold FitsInt allowance shorterWait
  constructor
  · rintro ⟨-, hsum, -, hgap, hb⟩
    exact ⟨⟨hgap.2, hsum.2⟩, hb⟩
  · rintro ⟨⟨hgap, hsum⟩, hb⟩
    obtain ⟨hlow, hhigh⟩ := abs_lt.mp hgap
    have habs := abs_nonneg (first.mmr - second.mmr)
    exact ⟨⟨by omega, by omega⟩, ⟨by omega, hsum⟩, ⟨hlow.le, hhigh⟩, ⟨by omega, hgap⟩, hb⟩

end Exact

theorem shorterWait_comm (first second : MatchCandidate) (now : Time) :
    shorterWait first second now = shorterWait second first now := min_comm _ _

theorem fitsInt_comm (q : MatchQueue) (first second : MatchCandidate) (now : Time) :
    q.FitsInt first second now ↔ q.FitsInt second first now := by
  unfold FitsInt allowance
  rw [abs_sub_comm, shorterWait_comm]

/-- `compatible` computes what it is meant to, without an overflow, if and only if the rating gap
and the allowance fit in an `int`. Then it is symmetric, and holds on as long as they fit. What it
computes without an overflow is its answer. -/
theorem compatible_exact_iff (q : MatchQueue) (first second : MatchCandidate) (now : Time)
    (hdelta : 0 ≤ q.rule.maxMmrDelta) (hexpansion : 0 ≤ q.rule.expansionPerSecond)
    (hfirst : (q.enqueue first).1 = true) (hsecond : (q.enqueue second).1 = true)
    (hwait : first.enqueueTime ≤ now ∧ second.enqueueTime ≤ now) :
    (q.compatibleInt first second now =
        some (decide (|first.mmr - second.mmr| ≤ q.allowance first second now)) ↔
      q.FitsInt first second now) ∧
    (q.FitsInt first second now →
      q.compatibleInt second first now = q.compatibleInt first second now) ∧
    (∀ later, now ≤ later → q.FitsInt first second later →
      q.compatibleInt first second now = some true →
      q.compatibleInt first second later = some true) ∧
    (∀ b, q.compatibleInt first second now = some b → q.compatible first second now = b) := by
  have hiff := compatibleInt_eq_some hdelta hexpansion hfirst hsecond hwait
  refine ⟨?_, fun hfits => ?_, fun later hle hfits hnow => ?_, fun b => compatible_of_int⟩
  · rw [hiff, and_iff_left rfl]
  · have hswap := compatibleInt_eq_some hdelta hexpansion hsecond hfirst hwait.symm
    rw [(hiff _).mpr ⟨hfits, rfl⟩, (hswap _).mpr ⟨(q.fitsInt_comm first second now).mp hfits, rfl⟩]
    unfold allowance
    rw [abs_sub_comm, shorterWait_comm]
  · have hlater := compatibleInt_eq_some hdelta hexpansion hfirst hsecond
      ⟨hwait.1.trans hle, hwait.2.trans hle⟩
    obtain ⟨-, hgap⟩ := (hiff true).mp hnow
    rw [decide_eq_true_eq] at hgap
    exact (hlater true).mpr ⟨hfits, decide_eq_true (hgap.trans (allowance_mono hexpansion hle))⟩

/-- Ratings 250 apart, after half a minute. -/
theorem compatible_exact_iff_waited :
    let q : MatchQueue := {}
    let first : MatchCandidate := ⟨1, 1000, 1, 0⟩
    let second : MatchCandidate := ⟨2, 1250, 1, 0⟩
    q.FitsInt first second 30000000000 ∧ q.compatibleInt first second 30000000000 = some true := by
  intro q first second
  have hallowance : q.allowance first second 30000000000 = 250 := by decide +kernel
  have hgap : |first.mmr - second.mmr| = 250 := by decide
  have hfits : q.FitsInt first second 30000000000 := by
    unfold FitsInt
    rw [hallowance, hgap]
    decide
  have hexact := (compatible_exact_iff q first second 30000000000 (by decide) (by decide)
    (by decide) (by decide) ⟨by decide, by decide⟩).1.mpr hfits
  rw [hallowance, hgap] at hexact
  exact ⟨hfits, hexact⟩

/-- The highest rating and one below zero: their difference is no `int`. -/
theorem compatible_overflow :
    let q : MatchQueue := {}
    let first : MatchCandidate := ⟨1, 2147483647, 1, 0⟩
    let second : MatchCandidate := ⟨2, -1, 1, 0⟩
    (q.enqueue first).1 = true ∧ (q.enqueue second).1 = true ∧
      q.compatibleInt first second 0 = none := by
  decide +kernel

end MatchQueue

end DungeonHub
