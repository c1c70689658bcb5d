import DungeonHub.Lib.Run

/-!
# What flows through a run

What a run takes in is what it gives out and what it still holds, if that is so of each step: of
queues, where the order counts too, and, as a bound, of amounts.
-/

namespace Flow

open Run

variable {S E : Type*} {step : S → E → S}

section Queue

variable {A : Type*} {held : S → List A} {gain loss : S → E → List A}

/-- What has entered a queue is what has left it, in order, and what is in it. -/
theorem queue (h : ∀ s e, held s ++ gain s e = loss s e ++ held (step s e)) :
    ∀ (es : List E) (s : S),
      held s ++ (trail step s es).flatMap (fun x => gain x.1 x.2) =
        (trail step s es).flatMap (fun x => loss x.1 x.2) ++ held (after step s es)
  | [], s => by simp [trail]
  | e :: es, s => by
    have hrest := queue h es (step s e)
    rw [trail_cons, List.flatMap_cons, List.flatMap_cons, after_cons, ← List.append_assoc, h,
      List.append_assoc, hrest, List.append_assoc]

end Queue

section Amount

variable {M : Type*} [AddCommMonoid M] [PartialOrder M] [IsOrderedAddMonoid M] {held : S → M}
  {gain loss : S → E → M}

/-- A run gives out no more than it had and has taken in. -/
theorem outlay_le (h : ∀ s e, loss s e + held (step s e) ≤ held s + gain s e) :
    ∀ (es : List E) (s : S),
      ((trail step s es).map fun x => loss x.1 x.2).sum + held (after step s es) ≤
        held s + ((trail step s es).map fun x => gain x.1 x.2).sum
  | [], s => by simp [trail]
  | e :: es, s => by
    have hrest := outlay_le h es (step s e)
    rw [trail_cons, List.map_cons, List.map_cons, List.sum_cons, List.sum_cons, after_cons]
    calc loss s e + ((trail step (step s e) es).map fun x => loss x.1 x.2).sum +
          held (after step (step s e) es)
        = loss s e + (((trail step (step s e) es).map fun x => loss x.1 x.2).sum +
          held (after step (step s e) es)) := add_assoc _ _ _
      _ ≤ loss s e + (held (step s e) +
          ((trail step (step s e) es).map fun x => gain x.1 x.2).sum) := add_le_add_right hrest _
      _ = loss s e + held (step s e) +
          ((trail step (step s e) es).map fun x => gain x.1 x.2).sum := (add_assoc _ _ _).symm
      _ ≤ held s + gain s e +
          ((trail step (step s e) es).map fun x => gain x.1 x.2).sum := add_le_add_left (h s e) _
      _ = held s + (gain s e + ((trail step (step s e) es).map fun x => gain x.1 x.2).sum) :=
        add_assoc _ _ _

/-- With nothing taken in, what a run gives out is paid from what it had. -/
theorem spent_le (h : ∀ s e, loss s e + held (step s e) ≤ held s) (es : List E) (s : S) :
    ((trail step s es).map fun x => loss x.1 x.2).sum + held (after step s es) ≤ held s := by
  have hstep : ∀ s e, loss s e + held (step s e) ≤ held s + 0 :=
    fun s e => (h s e).trans_eq (add_zero _).symm
  simpa using outlay_le hstep es s

end Amount

end Flow
