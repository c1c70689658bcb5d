import Mathlib

/-!
# Lists in which one place changes

The threads of a system as a list of what each of them is doing. A step of one thread replaces one
entry, and what is counted or gathered over all of them changes by that entry.
-/

namespace Slots

variable {α β : Type*} {l : List α} {n : ℕ} {a : α}

theorem split (h : l[n]? = some a) (b : α) :
    ∃ front back, l = front ++ a :: back ∧ l.set n b = front ++ b :: back := by
  obtain ⟨hn, rfl⟩ := List.getElem?_eq_some_iff.mp h
  refine ⟨l.take n, l.drop (n + 1), ?_, ?_⟩
  · rw [List.cons_getElem_drop_succ, List.take_append_drop]
  · exact List.set_eq_take_append_cons_drop ▸ if_pos hn

/-- The entry that is replaced is counted no more, and the new one is. -/
theorem countP_set (p : α → Bool) (h : l[n]? = some a) (b : α) :
    (l.set n b).countP p + (p a).toNat = l.countP p + (p b).toNat := by
  obtain ⟨front, back, hl, hset⟩ := split h b
  rw [hset, hl]
  simp only [List.countP_append, List.countP_cons]
  cases p a <;> cases p b <;> simp <;> omega

theorem countP_pos (p : α → Bool) (h : l[n]? = some a) (ha : p a = true) : 0 < l.countP p :=
  List.countP_pos_iff.mpr ⟨a, List.mem_of_getElem? h, ha⟩

/-- What no entry can be twice is counted once for each entry at most. -/
theorem countP_add_le {p q : α → Bool} (h : ∀ a, p a = true → q a = false) (l : List α) :
    l.countP p + l.countP q ≤ l.length := by
  induction l with
  | nil => simp
  | cons a l ih =>
    simp only [List.countP_cons, List.length_cons]
    have ha := h a
    cases hp : p a <;> cases hq : q a <;> simp_all <;> omega

theorem flatMap_set_of_eq (f : α → List β) (h : l[n]? = some a) {b : α} (hf : f b = f a) :
    (l.set n b).flatMap f = l.flatMap f := by
  obtain ⟨front, back, hl, hset⟩ := split h b
  rw [hset, hl, List.flatMap_append, List.flatMap_append, List.flatMap_cons, List.flatMap_cons, hf]

/-- What the entries hold, with the new one's share for the old one's. -/
theorem flatMap_set_perm (f : α → List β) (h : l[n]? = some a) (b : α) :
    (f a ++ (l.set n b).flatMap f).Perm (f b ++ l.flatMap f) := by
  obtain ⟨front, back, hl, hset⟩ := split h b
  rw [hset, hl]
  simp only [List.flatMap_append, List.flatMap_cons]
  rw [← Multiset.coe_eq_coe]
  simp only [← Multiset.coe_add]
  ac_rfl

/-- A sum over the entries has the new one's share for the old one's. -/
theorem sum_set (f : α → ℕ) (h : l[n]? = some a) (b : α) :
    ((l.set n b).map f).sum + f a = (l.map f).sum + f b := by
  obtain ⟨front, back, hl, hset⟩ := split h b
  rw [hset, hl]
  simp only [List.map_append, List.sum_append, List.map_cons, List.sum_cons]
  omega

/-- If each entry is worth one more at most, all are worth as much more as there are. -/
theorem sum_map_le {f : α → ℕ} {g : α → α} (h : ∀ a, f (g a) ≤ f a + 1) (l : List α) :
    ((l.map g).map f).sum ≤ (l.map f).sum + l.length := by
  induction l with
  | nil => simp
  | cons a l ih =>
    simp only [List.map_cons, List.sum_cons, List.length_cons]
    have ha := h a
    omega

end Slots
