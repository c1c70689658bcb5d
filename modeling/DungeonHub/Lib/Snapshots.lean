import DungeonHub.Lib.Run

/-!
# Transactions by whole-state snapshots

Several parties share one state. Beginning a transaction saves the whole state, rolling it back
brings the whole state back, and writes take effect at once. What a run leaves is then read off
from where its rollbacks stand.
-/

namespace Snapshots

/-- What a party does: begin a transaction, write, and end it. -/
inductive Op (U : Type) where
  | begin
  | put (u : U)
  | commit
  | rollback
  deriving DecidableEq

variable {B U S : Type} [DecidableEq B]

/-- The shared state, and what each party's open transaction saved. -/
structure Store (B S : Type) where
  now : S
  saved : B → Option S

/-- A store with no transaction open. -/
def start (s : S) : Store B S := ⟨s, fun _ => none⟩

/-- One call by one party; `f` is what a write does to the state. -/
def step (f : S → U → S) (s : Store B S) : B × Op U → Store B S
  | (b, .begin) => { s with saved := Function.update s.saved b (some s.now) }
  | (_, .put u) => { s with now := f s.now u }
  | (b, .commit) => { s with saved := Function.update s.saved b none }
  | (b, .rollback) =>
    match s.saved b with
    | none => s
    | some old => ⟨old, Function.update s.saved b none⟩

/-- What the call writes, if it is a write. -/
def Op.written : Op U → Option U
  | .put u => some u
  | _ => none

/-- The writes of a run, whoever made them. -/
def puts (ops : List (B × Op U)) : List U := ops.filterMap fun o => o.2.written

/-- The call begins or ends a transaction of the party. -/
def Marks (b : B) (o : B × Op U) : Prop := o.1 = b ∧ ∀ u, o.2 ≠ .put u

omit [DecidableEq B] in
theorem puts_append (ops ops' : List (B × Op U)) : puts (ops ++ ops') = puts ops ++ puts ops' :=
  List.filterMap_append

omit [DecidableEq B] in
theorem mem_puts {ops : List (B × Op U)} {u : U} : u ∈ puts ops ↔ ∃ b, (b, .put u) ∈ ops := by
  unfold puts
  rw [List.mem_filterMap]
  constructor
  · rintro ⟨⟨b, o⟩, ho, h⟩
    cases o with
    | put u' =>
      simp only [Op.written, Option.some.injEq] at h
      exact ⟨b, h ▸ ho⟩
    | begin => cases h
    | commit => cases h
    | rollback => cases h
  · rintro ⟨b, hb⟩
    exact ⟨(b, .put u), hb, rfl⟩

variable {f : S → U → S}

open Run

/-- A run with no rollback only writes. -/
theorem now_of_no_rollback : ∀ (ops : List (B × Op U)) (s : Store B S),
    (∀ b, (b, .rollback) ∉ ops) → (after (step f) s ops).now = (puts ops).foldl f s.now
  | [], _, _ => rfl
  | (b, o) :: ops, s, h => by
    have hops : ∀ b, (b, .rollback) ∉ ops := fun b hb => h b (List.mem_cons_of_mem _ hb)
    rw [after_cons, now_of_no_rollback ops _ hops]
    cases o with
    | begin => rfl
    | put u => rfl
    | commit => rfl
    | rollback => exact absurd List.mem_cons_self (h b)

/-- What a party's transaction saved stays as it is until that party ends it. -/
theorem saved_of_no_marks (b : B) : ∀ (ops : List (B × Op U)) (s : Store B S),
    (∀ o ∈ ops, ¬ Marks b o) → (after (step f) s ops).saved b = s.saved b
  | [], _, _ => rfl
  | (b', o) :: ops, s, h => by
    rw [after_cons, saved_of_no_marks b ops _ fun o ho => h o (List.mem_cons_of_mem _ ho)]
    have hne : ∀ (hp : ∀ u, o ≠ .put u), b ≠ b' := fun hp hb =>
      h (b', o) List.mem_cons_self ⟨hb.symm, hp⟩
    cases o with
    | put u => rfl
    | begin => exact Function.update_of_ne (hne (by simp)) _ _
    | commit => exact Function.update_of_ne (hne (by simp)) _ _
    | rollback =>
      unfold step
      simp only []
      split
      · rfl
      · exact Function.update_of_ne (hne (by simp)) _ _

/-- A rollback takes the state back to where the transaction began. -/
theorem now_of_rollback (b : B) (l₁ l₂ : List (B × Op U)) (s : Store B S)
    (h : ∀ o ∈ l₂, ¬ Marks b o) :
    (after (step f) s (l₁ ++ (b, .begin) :: l₂ ++ [(b, .rollback)])).now =
      (after (step f) s l₁).now := by
  rw [List.append_assoc, List.cons_append, after_append, after_cons, after_append]
  generalize after (step f) s l₁ = s₁
  have hsaved : (after (step f) (step f s₁ (b, .begin)) l₂).saved b = some s₁.now := by
    rw [saved_of_no_marks b l₂ _ h]
    exact Function.update_self ..
  rw [after_cons, after_nil]
  generalize after (step f) (step f s₁ (b, .begin)) l₂ = s₂ at hsaved ⊢
  simp only [step, hsaved]

end Snapshots
