import Mathlib

/-!
# A copy that lags behind

Writes reach a state first and its copy later, in whatever order, and either may refuse a write. The
copy becomes the state again if the order of the writes on their way to it makes no difference.
-/

namespace Lag

variable {S W : Type*} (write : W → S → Option S)

/-- The writes one after the other, if none is refused. -/
def writes : S → List W → Option S
  | s, [] => some s
  | s, w :: ws => (write w s).bind fun s => writes s ws

/-- In whatever order the copy gets the writes, it takes them all and becomes the state. -/
def Settles (copy : S) (ws : List W) (state : S) : Prop :=
  ∀ ws' : List W, ws'.Perm ws → writes write copy ws' = some state

/-- The order in which the copy gets the writes makes no difference. -/
def Unordered (copy : S) (ws : List W) : Prop :=
  ∀ ws' : List W, ws'.Perm ws → writes write copy ws' = writes write copy ws

/-- Either write may go first, from every state. -/
def Commutes (v w : W) : Prop :=
  ∀ s, (write v s).bind (write w) = (write w s).bind (write v)

variable {write} {copy state : S} {ws : List W}

theorem writes_append (s : S) (vs ws : List W) :
    writes write s (vs ++ ws) = (writes write s vs).bind fun s => writes write s ws := by
  induction vs generalizing s with
  | nil => rfl
  | cons v vs ih =>
    simp only [List.cons_append, writes, Option.bind_assoc]
    exact congrArg _ (funext ih)

theorem settles_nil : Settles write copy [] state ↔ copy = state := by
  constructor
  · intro h
    exact Option.some.inj (h [] (.refl _))
  · rintro rfl ws' hws'
    rw [List.perm_nil.mp hws']
    rfl

theorem Settles.perm (h : Settles write copy ws state) {ws' : List W} (hws' : ws'.Perm ws) :
    Settles write copy ws' state :=
  fun vs hvs => h vs (hvs.trans hws')

/-- The copy takes any of the writes on their way. -/
theorem Settles.takes {w : W} (h : Settles write copy (w :: ws) state) :
    ∃ copy', write w copy = some copy' ∧ Settles write copy' ws state := by
  rcases hw : write w copy with _ | copy'
  · have hfirst := h (w :: ws) (.refl _)
    rw [writes, hw] at hfirst
    cases hfirst
  · refine ⟨copy', rfl, fun ws' hws' => ?_⟩
    have hfirst := h (w :: ws') (hws'.cons w)
    rw [writes, hw] at hfirst
    exact hfirst

/-- The state takes a write, which is then on its way too. -/
theorem Settles.put (h : Settles write copy ws state) {w : W} {state' : S}
    (hw : write w state = some state') (hfree : Unordered write copy (w :: ws)) :
    Settles write copy (w :: ws) state' := by
  intro ws' hws'
  -- the order in which the state itself took them is one of the orders
  have hlast := hfree (ws ++ [w]) (List.perm_append_singleton w ws)
  rw [writes_append, h ws (.refl _), Option.bind_some, writes, hw, Option.bind_some] at hlast
  rw [hfree ws' hws', ← hlast]
  rfl

/-- Writes of which any two commute may come in any order. -/
theorem unordered_of_commutes (h : ∀ v ∈ ws, ∀ w ∈ ws, Commutes write v w) :
    Unordered write copy ws := by
  intro ws' hws'
  induction hws' generalizing copy with
  | nil => rfl
  | cons w _ ih =>
    simp only [writes]
    refine congrArg _ (funext fun s => ih fun v hv w hw => ?_)
    exact h v (List.mem_cons_of_mem _ hv) w (List.mem_cons_of_mem _ hw)
  | swap v w vs =>
    have hvw := h v (by simp) w (by simp) copy
    simp only [writes, ← Option.bind_assoc]
    rw [hvw]
  | trans _ hp ih₁ ih₂ =>
    refine (ih₁ fun v hv w hw => ?_).trans (ih₂ h)
    exact h v (hp.mem_iff.mp hv) w (hp.mem_iff.mp hw)

end Lag
