import Mathlib

/-!
# Undoing a fold

If each step of a fold can be undone, then so can the fold: its end and its input tell its start,
and with it what the fold makes of any other input. And if a step also tells its event, inputs that
differ in one place have different ends.
-/

namespace Undo

variable {S E : Type*} {step undo : S → E → S}

/-- The steps of a fold undone, the last one first. -/
def unwind (undo : S → E → S) (s : S) (es : List E) : S := es.foldr (fun e s => undo s e) s

theorem unwind_foldl (h : ∀ s e, undo (step s e) e = s) :
    ∀ (es : List E) (s : S), unwind undo (es.foldl step s) es = s
  | [], _ => rfl
  | e :: es, s => by
    have ih := unwind_foldl h es (step s e)
    unfold unwind at ih ⊢
    rw [List.foldl_cons, List.foldr_cons, ih, h]

/-- The end over one input gives the end over any other. -/
theorem foldl_of_end (h : ∀ s e, undo (step s e) e = s) (s : S) (es es' : List E) :
    es'.foldl step (unwind undo (es.foldl step s) es) = es'.foldl step s := by
  rw [unwind_foldl h]

section Once

/-- The lists differ in one entry. -/
def DifferOnce (es es' : List E) : Prop :=
  ∃ front e e' back, e ≠ e' ∧ es = front ++ e :: back ∧ es' = front ++ e' :: back

variable {es es' : List E}

theorem differOnce_set {i : ℕ} (hi : i < es.length) {e : E} (h : e ≠ es[i]) :
    DifferOnce es (es.set i e) := by
  refine ⟨es.take i, es[i], e, es.drop (i + 1), h.symm, ?_, ?_⟩
  · rw [List.cons_getElem_drop_succ, List.take_append_drop]
  · rw [List.set_eq_take_append_cons_drop, if_pos hi]

theorem DifferOnce.ne (h : DifferOnce es es') : es ≠ es' := by
  obtain ⟨front, e, e', back, hne, rfl, rfl⟩ := h
  intro heq
  exact hne (List.cons.inj (List.append_cancel_left heq)).1

theorem DifferOnce.length_eq (h : DifferOnce es es') : es'.length = es.length := by
  obtain ⟨front, e, e', back, -, rfl, rfl⟩ := h
  simp

theorem DifferOnce.append_right (h : DifferOnce es es') (back : List E) :
    DifferOnce (es ++ back) (es' ++ back) := by
  obtain ⟨front, e, e', back', hne, rfl, rfl⟩ := h
  exact ⟨front, e, e', back' ++ back, hne, by simp, by simp⟩

theorem DifferOnce.append_left (h : DifferOnce es es') (front : List E) :
    DifferOnce (front ++ es) (front ++ es') := by
  obtain ⟨front', e, e', back, hne, rfl, rfl⟩ := h
  exact ⟨front ++ front', e, e', back, hne, by simp, by simp⟩

/-- Of two parts of a list, one has the entry that differs. -/
theorem DifferOnce.parts {es₁ es₂ : List E} (h : DifferOnce (es₁ ++ es₂) es') :
    (∃ es₁', es' = es₁' ++ es₂ ∧ DifferOnce es₁ es₁') ∨
      ∃ es₂', es' = es₁ ++ es₂' ∧ DifferOnce es₂ es₂' := by
  obtain ⟨front, e, e', back, hne, heq, rfl⟩ := h
  rcases List.append_eq_append_iff.mp heq with ⟨mid, rfl, rfl⟩ | ⟨mid, rfl, hmid⟩
  · exact .inr ⟨mid ++ e' :: back, by simp, mid, e, e', back, hne, rfl, rfl⟩
  · rcases mid with _ | ⟨x, mid⟩
    · refine .inr ⟨e' :: back, by simp, [], e, e', back, hne, ?_, rfl⟩
      simpa using hmid.symm
    · rw [List.cons_append, List.cons.injEq] at hmid
      obtain ⟨rfl, rfl⟩ := hmid
      exact .inl ⟨front ++ e' :: mid, by simp, front, e, e', mid, hne, rfl, rfl⟩

/-- The fold tells inputs apart that differ in one entry. -/
theorem DifferOnce.foldl_ne (h : DifferOnce es es') (hundo : ∀ s e, undo (step s e) e = s)
    (hevent : ∀ s e e', step s e = step s e' → e = e') (s : S) :
    es.foldl step s ≠ es'.foldl step s := by
  obtain ⟨front, e, e', back, hne, rfl, rfl⟩ := h
  intro heq
  rw [List.foldl_append, List.foldl_append, List.foldl_cons, List.foldl_cons] at heq
  have hback := congrArg (unwind undo · back) heq
  simp only [unwind_foldl hundo] at hback
  exact hne (hevent _ e e' hback)

end Once

end Undo
