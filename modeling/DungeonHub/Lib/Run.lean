import Mathlib

/-!
# Runs of a step function

The state after a list of events, the trail of a run (each event with the state it finds), and the
rules that take a fact about one step to a fact about the whole run.
-/

namespace Run

variable {S E : Type*} (step : S → E → S)

/-- The state after the events. -/
def after (s : S) (es : List E) : S := es.foldl step s

/-- Each event of a run with the state it finds. -/
def trail : S → List E → List (S × E)
  | _, [] => []
  | s, e :: es => (s, e) :: trail (step s e) es

@[simp] theorem after_nil (s : S) : after step s [] = s := rfl

@[simp] theorem after_cons (s : S) (e : E) (es : List E) :
    after step s (e :: es) = after step (step s e) es := rfl

theorem after_append (s : S) (es es' : List E) :
    after step s (es ++ es') = after step (after step s es) es' := List.foldl_append ..

theorem trail_cons (s : S) (e : E) (es : List E) :
    trail step s (e :: es) = (s, e) :: trail step (step s e) es := rfl

theorem trail_append :
    ∀ (s : S) (es es' : List E),
      trail step s (es ++ es') = trail step s es ++ trail step (after step s es) es'
  | _, [], _ => rfl
  | s, e :: es, es' => congrArg ((s, e) :: ·) (trail_append (step s e) es es')

theorem filterMap_cons_toList {F : Type*} (f : E → Option F) (e : E) (es : List E) :
    (e :: es).filterMap f = (f e).toList ++ es.filterMap f := by
  simp only [List.filterMap_eq_flatMap_toList, List.flatMap_cons]

/-- What is read off the first step, and off the others. -/
theorem filterMap_trail_cons {F : Type*} (f : S × E → Option F) (s : S) (e : E) (es : List E) :
    (trail step s (e :: es)).filterMap f =
      (f (s, e)).toList ++ (trail step (step s e) es).filterMap f :=
  filterMap_cons_toList ..

variable {step}

theorem trail_subset {es es' : List E} (h : es' <+: es) (s : S) :
    trail step s es' ⊆ trail step s es := by
  obtain ⟨rest, rfl⟩ := h
  rw [trail_append]
  exact List.subset_append_left _ _

/-- A part of a trail is the trail of that part of the run. -/
theorem trail_eq_append :
    ∀ {es : List E} {s : S} {l₁ l₂ : List (S × E)}, trail step s es = l₁ ++ l₂ →
      ∃ es₁ es₂, es = es₁ ++ es₂ ∧ l₁ = trail step s es₁ ∧ l₂ = trail step (after step s es₁) es₂
  | es, s, [], l₂, h => ⟨[], es, rfl, rfl, h.symm⟩
  | [], _, x :: l₁, _, h => by simp [trail] at h
  | e :: es, s, x :: l₁, l₂, h => by
    rw [trail_cons, List.cons_append, List.cons.injEq] at h
    obtain ⟨es₁, es₂, rfl, rfl, rfl⟩ := trail_eq_append h.2
    exact ⟨e :: es₁, es₂, rfl, by rw [← h.1, trail_cons], rfl⟩

/-- A run ends with what its last step leads to. -/
theorem after_of_getLast? {x : S × E} {es : List E} {s : S}
    (h : (trail step s es).getLast? = some x) : after step s es = step x.1 x.2 := by
  rcases List.eq_nil_or_concat' es with rfl | ⟨es, e, rfl⟩
  · simp [trail] at h
  · have hlast : (after step s es, e) = x := by
      simpa [trail_append, trail] using h
    rw [after_append, ← hlast]
    rfl

theorem mem_of_mem_trail {x : S × E} :
    ∀ {es : List E} {s : S}, x ∈ trail step s es → x.2 ∈ es
  | [], _, h => by simp [trail] at h
  | e :: es, s, h => by
    rcases List.mem_cons.mp h with rfl | h
    · exact List.mem_cons_self
    · exact List.mem_cons_of_mem e (mem_of_mem_trail h)

/-- A step is taken in the state that the events before it lead to. -/
theorem exists_prefix_of_mem_trail {x : S × E} :
    ∀ {es : List E} {s : S}, x ∈ trail step s es →
      ∃ before, before ++ [x.2] <+: es ∧ x.1 = after step s before
  | [], _, h => by simp [trail] at h
  | e :: es, s, h => by
    rcases List.mem_cons.mp h with rfl | h
    · exact ⟨[], by simp, rfl⟩
    · obtain ⟨before, hprefix, hbefore⟩ := exists_prefix_of_mem_trail h
      exact ⟨e :: before, (List.prefix_cons_inj e).mpr hprefix, hbefore⟩

theorem exists_after_of_mem_trail {x : S × E} {es : List E} {s : S} (h : x ∈ trail step s es) :
    ∃ before, x.1 = after step s before := by
  obtain ⟨before, -, hbefore⟩ := exists_prefix_of_mem_trail h
  exact ⟨before, hbefore⟩

/-- A property that the steps of a run preserve, each under its own condition, holds at its end. -/
theorem invariant {I : S → Prop} {P : S → E → Prop}
    (hstep : ∀ s e, I s → P s e → I (step s e)) :
    ∀ (es : List E) (s : S), I s → (∀ x ∈ trail step s es, P x.1 x.2) → I (after step s es)
  | [], _, hs, _ => hs
  | e :: es, s, hs, h => by
    have he : P s e := h (s, e) (by simp [trail])
    exact invariant hstep es _ (hstep s e hs he) fun x hx => h x (by simp [trail, hx])

/-- Such a property holds whenever a step of the run is taken. -/
theorem along {I : S → Prop} {P : S → E → Prop}
    (hstep : ∀ s e, I s → P s e → I (step s e)) :
    ∀ (es : List E) (s : S), I s → (∀ x ∈ trail step s es, P x.1 x.2) →
      ∀ x ∈ trail step s es, I x.1
  | [], _, _, _ => by simp [trail]
  | e :: es, s, hs, h => by
    have he : P s e := h (s, e) (by simp [trail])
    have hrest := along hstep es _ (hstep s e hs he) fun x hx => h x (by simp [trail, hx])
    intro x hx
    rcases List.mem_cons.mp hx with rfl | hx
    · exact hs
    · exact hrest x hx

/-- A property that every step preserves holds at the end of every run. -/
theorem stable {I : S → Prop} (hstep : ∀ s e, I s → I (step s e)) (es : List E) {s : S}
    (hs : I s) : I (after step s es) :=
  invariant (P := fun _ _ => True) (fun s e h _ => hstep s e h) es s hs fun _ _ => trivial

/-- Such a property holds whenever a step of a run is taken. -/
theorem stable_along {I : S → Prop} (hstep : ∀ s e, I s → I (step s e)) (es : List E) {s : S}
    (hs : I s) : ∀ x ∈ trail step s es, I x.1 := by
  intro x hx
  obtain ⟨before, hbefore⟩ := exists_after_of_mem_trail hx
  rw [hbefore]
  exact stable hstep before hs

/-- What each step leads on to, a run leads on to. -/
theorem related {R : S → S → Prop} (hrefl : ∀ s, R s s) (htrans : ∀ {s t u}, R s t → R t u → R s u)
    (hstep : ∀ s e, R s (step s e)) (es : List E) (s : S) : R s (after step s es) :=
  stable (I := R s) (fun t e h => htrans h (hstep t e)) es (hrefl s)

/-- Events that commute may come in any order. -/
theorem after_perm {I : S → Prop} (hstep : ∀ s e, I s → I (step s e))
    (hcomm : ∀ s e f, I s → step (step s e) f = step (step s f) e) {es es' : List E}
    (h : es.Perm es') {s : S} (hs : I s) : after step s es = after step s es' := by
  induction h generalizing s with
  | nil => rfl
  | cons e _ ih => exact ih (hstep s e hs)
  | swap e f es => exact congrArg (after step · es) (hcomm s f e hs)
  | trans _ _ ih ih' => exact (ih hs).trans (ih' hs)

/-- A property that a step preserves between two states that meet a condition, in a run whose states
all do. -/
theorem throughout {I P : S → Prop} (hstep : ∀ s e, I s → P s → P (step s e) → I (step s e))
    (es : List E) {s : S} (hs : I s) (h : ∀ es', es' <+: es → P (after step s es')) :
    I (after step s es) := by
  induction es using List.reverseRecOn with
  | nil => exact hs
  | append_singleton es e ih =>
    have hbefore : ∀ es', es' <+: es → P (after step s es') :=
      fun es' hes => h es' (hes.trans (List.prefix_append es [e]))
    have hlast := h (es ++ [e]) (List.prefix_refl _)
    rw [after_append] at hlast ⊢
    exact hstep _ e (ih hbefore) (hbefore es (List.prefix_refl es)) hlast

/-- A fact about a state and the steps that led to it, which each step carries on under its own
condition. -/
theorem recorded {I : S → List (S × E) → Prop} {P : S → E → Prop}
    (hstep : ∀ s l e, I s l → P s e → I (step s e) (l ++ [(s, e)])) :
    ∀ (es : List E) (s : S) (l : List (S × E)), I s l → (∀ x ∈ trail step s es, P x.1 x.2) →
      I (after step s es) (l ++ trail step s es)
  | [], _, l, hs, _ => by simpa [trail] using hs
  | e :: es, s, l, hs, h => by
    have he : P s e := h (s, e) (by simp [trail])
    have hrest := recorded hstep es (step s e) (l ++ [(s, e)]) (hstep s l e hs he)
      fun x hx => h x (by simp [trail, hx])
    simpa [trail] using hrest

/-- A fact about a state and the steps that led to it, which each step carries on. -/
theorem history {I : S → List (S × E) → Prop}
    (hstep : ∀ s l e, I s l → I (step s e) (l ++ [(s, e)])) (es : List E) (s : S)
    (l : List (S × E)) (hs : I s l) : I (after step s es) (l ++ trail step s es) :=
  recorded (P := fun _ _ => True) (fun s l e h _ => hstep s l e h) es s l hs fun _ _ => trivial

/-- Such a fact holds at every point of a run if and only if each step meets the condition that is
exactly what it takes to carry the fact on. -/
theorem recorded_iff {J : S → Prop} {I : S → List (S × E) → Prop} {P : S → E → Prop}
    (hkeep : ∀ s e, J s → J (step s e))
    (hstep : ∀ s l e, J s → I s l → (I (step s e) (l ++ [(s, e)]) ↔ P s e)) (es : List E) {s : S}
    (hj : J s) (hs : I s []) :
    (∀ es', es' <+: es → I (after step s es') (trail step s es')) ↔
      ∀ x ∈ trail step s es, P x.1 x.2 := by
  constructor
  · intro h x hx
    obtain ⟨before, hprefix, hbefore⟩ := exists_prefix_of_mem_trail hx
    have hnow := h before ((List.prefix_append _ _).trans hprefix)
    have hnext := h _ hprefix
    rw [after_append, trail_append] at hnext
    rw [hbefore]
    exact (hstep _ _ x.2 (stable hkeep before hj) hnow).mp hnext
  · intro h es' hprefix
    have hend := recorded (I := fun s l => J s ∧ I s l) (P := P)
      (fun s l e hs he => ⟨hkeep s e hs.1, (hstep s l e hs.1 hs.2).mpr he⟩) es' s [] ⟨hj, hs⟩
      fun x hx => h x (trail_subset hprefix s hx)
    exact hend.2

/-- A property holds throughout a run if and only if each step meets the condition that is exactly
what it takes to preserve it. -/
theorem throughout_iff {I J : S → Prop} {P : S → E → Prop} (hkeep : ∀ s e, J s → J (step s e))
    (hstep : ∀ s e, J s → I s → (I (step s e) ↔ P s e)) (es : List E) {s : S} (hj : J s)
    (hs : I s) :
    (∀ es', es' <+: es → I (after step s es')) ↔ ∀ x ∈ trail step s es, P x.1 x.2 :=
  recorded_iff (I := fun s _ => I s) hkeep (fun s _ e => hstep s e) es hj hs

/-- What each step leaves behind and the later steps keep up, each under its own condition, holds
when a later step is taken. -/
theorem pairwise {I : S → Prop} {P : S → E → Prop} {Q : S → E → S → Prop}
    (hstep : ∀ s e, I s → P s e → I (step s e))
    (hleave : ∀ s e, I s → P s e → Q s e (step s e))
    (hkeep : ∀ s e t f, I t → P t f → Q s e t → Q s e (step t f)) :
    ∀ (es : List E) (s : S), I s → (∀ x ∈ trail step s es, P x.1 x.2) →
      (trail step s es).Pairwise fun x y => Q x.1 x.2 y.1
  | [], _, _, _ => List.Pairwise.nil
  | e :: es, s, hs, h => by
    have he : P s e := h (s, e) (by simp [trail])
    have hrest : ∀ x ∈ trail step (step s e) es, P x.1 x.2 := fun x hx => h x (by simp [trail, hx])
    refine List.Pairwise.cons ?_ (pairwise hstep hleave hkeep es _ (hstep s e hs he) hrest)
    have hall : ∀ (es : List E) (t : S), I t ∧ Q s e t → (∀ x ∈ trail step t es, P x.1 x.2) →
        ∀ x ∈ trail step t es, I x.1 ∧ Q s e x.1 :=
      along fun t f ht hf => ⟨hstep t f ht.1 hf, hkeep s e t f ht.1 hf ht.2⟩
    exact fun y hy => (hall es _ ⟨hstep s e hs he, hleave s e hs he⟩ hrest y hy).2

end Run
