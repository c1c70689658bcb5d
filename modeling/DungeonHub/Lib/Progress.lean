import DungeonHub.Lib.Run

/-!
# Systems that come to rest

A system whose events can happen or not, and some of which are its own doing. If each of these costs
it something of what it has, it can go on for so long only, and it is done when none of them can
happen any more.
-/

namespace Progress

open Run

variable {S E : Type*} (next : S → E → Option S)

/-- The state after the events, `none` if one of them cannot happen. -/
def run (s : S) (es : List E) : Option S := es.foldlM next s

/-- None of the system's own events can happen. -/
def Rests (own : E → Prop) (s : S) : Prop := ∀ e, own e → next s e = none

@[simp] theorem run_nil (s : S) : run next s [] = some s := rfl

theorem run_cons (s : S) (e : E) (es : List E) :
    run next s (e :: es) = (next s e).bind fun s' => run next s' es := by
  unfold run
  rw [List.foldlM_cons]
  rfl

variable {next} {own : E → Prop} {μ : S → ℕ}

theorem run_cons_eq_some {s t : S} {e : E} {es : List E} :
    run next s (e :: es) = some t ↔ ∃ s', next s e = some s' ∧ run next s' es = some t := by
  rw [run_cons, Option.bind_eq_some_iff]

/-- Events that can happen lead where they lead if those that cannot are passed over. -/
theorem after_of_run :
    ∀ {es : List E} {s t : S}, run next s es = some t →
      after (fun s e => (next s e).getD s) s es = t
  | [], s, t, h => by simpa using h
  | e :: es, s, t, h => by
    obtain ⟨s', hs', hrest⟩ := run_cons_eq_some.mp h
    rw [after_cons, hs']
    exact after_of_run hrest

/-- The system pays for each event of its own. -/
theorem length_add_le (h : ∀ s e s', own e → next s e = some s' → μ s' < μ s) :
    ∀ {es : List E} {s t : S}, (∀ e ∈ es, own e) → run next s es = some t →
      es.length + μ t ≤ μ s
  | [], s, t, _, hrun => by
    obtain rfl : s = t := by simpa using hrun
    simp
  | e :: es, s, t, hown, hrun => by
    obtain ⟨s', hs', hrest⟩ := run_cons_eq_some.mp hrun
    have hless := h s e s' (hown e List.mem_cons_self) hs'
    have hle := length_add_le h (fun f hf => hown f (List.mem_cons_of_mem e hf)) hrest
    rw [List.length_cons]
    omega

/-- By its own events the system comes to rest. -/
theorem exists_rest (h : ∀ s e s', own e → next s e = some s' → μ s' < μ s) (s : S) :
    ∃ es t, (∀ e ∈ es, own e) ∧ run next s es = some t ∧ Rests next own t := by
  induction hμ : μ s using Nat.strong_induction_on generalizing s with
  | _ n ih =>
    by_cases hrest : Rests next own s
    · exact ⟨[], s, by simp, rfl, hrest⟩
    · unfold Rests at hrest
      push Not at hrest
      obtain ⟨e, he, hnext⟩ := hrest
      obtain ⟨s', hs'⟩ := Option.ne_none_iff_exists'.mp hnext
      obtain ⟨es, t, hes, hrun, ht⟩ := ih (μ s') (hμ ▸ h s e s' he hs') s' rfl
      refine ⟨e :: es, t, fun f hf => ?_, run_cons_eq_some.mpr ⟨s', hs', hrun⟩, ht⟩
      rcases List.mem_cons.mp hf with rfl | hf
      · exact he
      · exact hes f hf

end Progress
