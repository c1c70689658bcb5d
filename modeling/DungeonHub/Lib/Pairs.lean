import Mathlib

/-!
# The first related pair of a list

Two places of a list whose entries are related, the earlier one and then the later one as far to the
front as they can be; and the list without the two.
-/

namespace Pairs

variable {α : Type*} {R : α → α → Prop} {l : List α} {i j : ℕ} {a b : α}

/-- No pair of places with related entries comes before `i` and `j`. -/
structure First (R : α → α → Prop) (l : List α) (i j : ℕ) (a b : α) : Prop where
  lt : i < j
  left : l[i]? = some a
  right : l[j]? = some b
  related : R a b
  least : ∀ {i' j' : ℕ} {a' b' : α}, i' < j' → l[i']? = some a' → l[j']? = some b' → R a' b' →
    i < i' ∨ i = i' ∧ j ≤ j'

/-- The head and the first entry that it is related to. -/
theorem First.head (hb : l[j]? = some b) (hR : R a b)
    (hleast : ∀ {j' : ℕ} {b' : α}, l[j']? = some b' → R a b' → j ≤ j') :
    First R (a :: l) 0 (j + 1) a b where
  lt := Nat.succ_pos j
  left := rfl
  right := hb
  related := hR
  least {i' j' a' b'} hlt ha' hb' hR' := by
    rcases i' with _ | i'
    · obtain ⟨k, rfl⟩ := Nat.exists_eq_add_of_lt hlt
      cases ha'
      rw [zero_add, List.getElem?_cons_succ] at hb'
      have hle : j ≤ k := hleast hb' hR'
      exact .inr ⟨rfl, by omega⟩
    · exact .inl (Nat.succ_pos i')

/-- The first pair of the tail, if the head is related to nothing there. -/
theorem First.tail {c : α} (h : First R l i j a b) (hc : ∀ d ∈ l, ¬R c d) :
    First R (c :: l) (i + 1) (j + 1) a b where
  lt := Nat.succ_lt_succ h.lt
  left := h.left
  right := h.right
  related := h.related
  least {i' j' a' b'} hlt ha' hb' hR' := by
    obtain ⟨k, rfl⟩ := Nat.exists_eq_succ_of_ne_zero (Nat.ne_zero_of_lt hlt)
    rw [List.getElem?_cons_succ] at hb'
    rcases i' with _ | i'
    · cases ha'
      exact absurd hR' (hc b' (List.mem_of_getElem? hb'))
    · rw [List.getElem?_cons_succ] at ha'
      have hle := h.least (Nat.lt_of_succ_lt_succ hlt) ha' hb' hR'
      omega

/-- The pair and the rest are the whole list. -/
theorem First.perm (h : First R l i j a b) : (a :: b :: (l.eraseIdx j).eraseIdx i).Perm l := by
  obtain ⟨hj, rfl⟩ := List.getElem?_eq_some_iff.mp h.right
  have hi : i < (l.eraseIdx j).length := by
    rw [List.length_eraseIdx_of_lt hj]
    have := h.lt
    omega
  have hleft : (l.eraseIdx j)[i] = a := by
    rw [List.getElem_eraseIdx_of_lt hi h.lt]
    exact Option.some.inj ((List.getElem?_eq_getElem _).symm.trans h.left)
  have hfirst : (a :: (l.eraseIdx j).eraseIdx i).Perm (l.eraseIdx j) := by
    rw [← hleft]
    exact List.getElem_cons_eraseIdx_perm hi
  refine (List.Perm.swap ..).trans ((hfirst.cons _).trans ?_)
  exact List.getElem_cons_eraseIdx_perm hj

/-- The two places hold different entries where all do. -/
theorem First.ne {β : Type*} {f : α → β} (h : First R l i j a b) (hl : (l.map f).Nodup) :
    f a ≠ f b := by
  intro heq
  have hi : (l.map f)[i]? = some (f a) := by
    rw [List.getElem?_map, h.left]
    rfl
  have hj : (l.map f)[j]? = some (f a) := by
    rw [List.getElem?_map, h.right, heq]
    rfl
  have hlt := (List.getElem?_eq_some_iff.mp hi).1
  exact absurd ((List.getElem?_inj hlt hl).mp (hi.trans hj.symm)) (Nat.ne_of_lt h.lt)

/-- Without the first related pair, there is less before an entry that is related to a later one,
unless the entry was one of the two. -/
theorem First.before {front rest : List α} {c d : α} (h : First R (front ++ c :: rest) i j a b)
    (hd : d ∈ rest) (hR : R c d) (ha : a ≠ c) (hb : b ≠ c) (hbd : b ≠ d) :
    ∃ front' rest', ((front ++ c :: rest).eraseIdx j).eraseIdx i = front' ++ c :: rest' ∧
      d ∈ rest' ∧ front'.length < front.length := by
  have hself : (front ++ c :: rest)[front.length]? = some c := by simp
  obtain ⟨k, hk⟩ := List.getElem?_of_mem hd
  have hlater : (front ++ c :: rest)[front.length + (k + 1)]? = some d := by
    rw [List.getElem?_append_right (Nat.le_add_right _ _), Nat.add_sub_cancel_left,
      List.getElem?_cons_succ, hk]
  have hi : i < front.length := by
    rcases h.least (Nat.lt_add_of_pos_right (Nat.succ_pos k)) hself hlater hR with hlt | ⟨heq, -⟩
    · exact hlt
    · exact absurd (Option.some.inj (h.left.symm.trans (heq ▸ hself))) ha
  have hj : j ≠ front.length := by
    rintro rfl
    exact hb (Option.some.inj (h.right.symm.trans hself))
  rcases Nat.lt_or_gt_of_ne hj with hlt | hgt
  · refine ⟨(front.eraseIdx j).eraseIdx i, rest, ?_, hd, ?_⟩
    · rw [List.eraseIdx_append_of_lt_length hlt, List.eraseIdx_append_of_lt_length]
      rw [List.length_eraseIdx_of_lt hlt]
      have := h.lt
      omega
    · have hle := (List.eraseIdx_sublist (front.eraseIdx j) i).length_le
      rw [List.length_eraseIdx_of_lt hlt] at hle
      omega
  · obtain ⟨m, rfl⟩ : ∃ m, j = front.length + (m + 1) := ⟨j - front.length - 1, by omega⟩
    refine ⟨front.eraseIdx i, rest.eraseIdx m, ?_, ?_, ?_⟩
    · rw [List.eraseIdx_append_of_length_le (Nat.le_add_right _ _), Nat.add_sub_cancel_left,
        List.eraseIdx_cons_succ, List.eraseIdx_append_of_lt_length hi]
    · refine List.mem_eraseIdx_iff_getElem?.mpr ⟨k, ?_, hk⟩
      rintro rfl
      exact hbd (Option.some.inj (h.right.symm.trans hlater))
    · rw [List.length_eraseIdx_of_lt hi]
      omega

end Pairs
