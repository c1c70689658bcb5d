import Mathlib

/-!
# What an operation does not see

A veil hides a part of a state. An operation is blind if, whatever is behind the veil, it answers
the same and leaves the same in sight; so it does the same to two states that look alike.
-/

namespace Veil

variable {S A : Type*} (veil : S → S)

/-- The operation sees nothing of what is behind the veil. -/
def Blind (f : S → A × S) : Prop :=
  ∀ s, (f (veil s)).1 = (f s).1 ∧ veil (f (veil s)).2 = veil (f s).2

variable {veil} {f : S → A × S}

/-- A blind operation cannot tell two states apart that look alike. -/
theorem Blind.agree (h : Blind veil f) {s t : S} (hst : veil s = veil t) :
    (f s).1 = (f t).1 ∧ veil (f s).2 = veil (f t).2 := by
  obtain ⟨hanswer, hstate⟩ := h s
  obtain ⟨hanswer', hstate'⟩ := h t
  rw [hst] at hanswer hstate
  exact ⟨hanswer.symm.trans hanswer', hstate.symm.trans hstate'⟩

/-- So is an operation that the veil commutes with. -/
theorem blind_of_commutes (hveil : ∀ s, veil (veil s) = veil s)
    (h : ∀ s, f (veil s) = ((f s).1, veil (f s).2)) : Blind veil f := by
  intro s
  rw [h, hveil]
  exact ⟨rfl, rfl⟩

end Veil
