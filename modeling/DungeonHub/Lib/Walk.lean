import DungeonHub.Lib.Run

/-!
# Walks in a graph of states

Something comes into being in a first state and moves along the edges of a graph from then on. The
states it enters in a run are a walk in that graph. If the edges go up in a rank, it enters no state
twice.
-/

namespace Run

section Walk

variable {A : Type*} (start : A) (edge : A → A → Prop)

/-- The states entered so far, in order, and the state at the end of the walk. -/
inductive Walk : List A → Option A → Prop where
  | unborn : Walk [] none
  | born : Walk [start] (some start)
  | move {log : List A} {a b : A} (hw : Walk log (some a)) (hab : edge a b) :
      Walk (log ++ [b]) (some b)

variable {start edge} {log : List A} {a : A}

theorem Walk.eq_nil (h : Walk start edge log none) : log = [] := by
  cases h
  rfl

/-- A state that is not the first one was entered from another. -/
theorem Walk.from_of_ne (h : Walk start edge log (some a)) (hne : a ≠ start) :
    ∃ log' b, log = log' ++ [a] ∧ edge b a ∧ Walk start edge log' (some b) := by
  cases h with
  | born => exact absurd rfl hne
  | move hw hab => exact ⟨_, _, rfl, hab, hw⟩

theorem Walk.eq_of_start (h : Walk start edge log (some start)) (hnone : ∀ b, ¬ edge b start) :
    log = [start] := by
  cases h with
  | born => rfl
  | move hw hab => exact absurd hab (hnone _)

theorem Walk.rank_le {o : Option A} (h : Walk start edge log o) (rank : A → ℕ)
    (hrank : ∀ a b, edge a b → rank a < rank b) (ha : o = some a) :
    ∀ b ∈ log, rank b ≤ rank a := by
  induction h generalizing a with
  | unborn => cases ha
  | born =>
    cases ha
    simp
  | move hw hab ih =>
    cases ha
    intro b hb
    rcases List.mem_append.mp hb with hb | hb
    · exact (ih rfl b hb).trans (hrank _ _ hab).le
    · rw [List.mem_singleton.mp hb]

theorem Walk.nodup {o : Option A} (h : Walk start edge log o) (rank : A → ℕ)
    (hrank : ∀ a b, edge a b → rank a < rank b) : log.Nodup := by
  induction h with
  | unborn => exact List.nodup_nil
  | born => exact List.nodup_singleton start
  | move hw hab ih =>
    rw [List.nodup_append]
    refine ⟨ih, List.nodup_singleton _, ?_⟩
    -- what was entered before ranks below what is entered now
    rintro x hx y hy rfl
    rw [List.mem_singleton.mp hy] at hx
    exact absurd (hw.rank_le rank hrank rfl _ hx) (Nat.not_le.mpr (hrank _ _ hab))

end Walk

section Entered

variable {S E A : Type*} [DecidableEq A] (step : S → E → S) (see : S → Option A)

/-- The state that a step enters. -/
def enters (x : S × E) : Option A :=
  if see (step x.1 x.2) = see x.1 then none else see (step x.1 x.2)

/-- The states that the steps of a run enter, in order. -/
def entered (s : S) (es : List E) : List A := (trail step s es).filterMap (enters step see)

variable {step see} {start : A} {edge : A → A → Prop}

/-- Steps that bring into being, move along an edge or leave alone make a walk. -/
theorem walk_entered
    (hstep : ∀ s e, see (step s e) = see s ∨
      (see s = none ∧ see (step s e) = some start) ∨
      ∃ a b, see s = some a ∧ see (step s e) = some b ∧ edge a b)
    (es : List E) {s : S} (hs : see s = none) :
    Walk start edge (entered step see s es) (see (after step s es)) := by
  have h : Walk start edge (([] ++ trail step s es).filterMap (enters step see))
      (see (after step s es)) := history
    (I := fun s log => Walk start edge (log.filterMap (enters step see)) (see s))
    (fun s log e ih => by
      have henters : enters step see (s, e) =
          if see (step s e) = see s then none else see (step s e) := rfl
      rw [List.filterMap_append, List.filterMap_cons, List.filterMap_nil, henters]
      by_cases hsame : see (step s e) = see s
      · rw [if_pos hsame, hsame, List.append_nil]
        exact ih
      rw [if_neg hsame]
      rcases hstep s e with h | ⟨hnone, hstart⟩ | ⟨a, b, ha, hb, hab⟩
      · exact absurd h hsame
      · rw [hnone] at ih
        rw [ih.eq_nil, hstart]
        exact .born
      · rw [ha] at ih
        rw [hb]
        exact .move ih hab)
    es s [] (by rw [hs]; exact .unborn)
  simpa [entered] using h

end Entered

end Run
