import Mathlib

/-!
# Messages and their recipients

What each recipient was sent last, of messages in the order they were sent; and what a round leaves
that goes to each of several recipients once.
-/

namespace Mail

section Last

variable {K E : Type*} [DecidableEq K]

/-- The last message to `k`. -/
def lastTo (k : K) (mail : List (K × E)) : Option E :=
  (mail.filter fun m => m.1 = k).getLast?.map Prod.snd

variable {k : K} {mail sent : List (K × E)} {e : E}

/-- Messages to others change nothing for `k`. -/
theorem lastTo_append_of_forall_ne (h : ∀ m ∈ sent, m.1 ≠ k) :
    lastTo k (mail ++ sent) = lastTo k mail := by
  have hsent : (sent.filter fun m => m.1 = k) = [] := by
    rw [List.filter_eq_nil_iff]
    intro m hm
    simp [h m hm]
  unfold lastTo
  rw [List.filter_append, hsent, List.append_nil]

/-- One message to several recipients is the last one for each of them. -/
theorem lastTo_append_map {ks : List K} (hk : k ∈ ks) :
    lastTo k (mail ++ ks.map fun k => (k, e)) = some e := by
  have hne : (ks.filter fun j => j = k) ≠ [] :=
    List.ne_nil_of_mem (List.mem_filter.mpr ⟨hk, by simp⟩)
  unfold lastTo
  rw [List.filter_append, List.filter_map, List.getLast?_append_of_ne_nil]
  · rw [List.getLast?_map]
    obtain ⟨j, hj⟩ := Option.isSome_iff_exists.mp (List.getLast?_isSome.mpr hne)
    change ((ks.filter fun j => j = k).getLast?.map fun k => (k, e)).map Prod.snd = some e
    rw [hj]
    rfl
  · rw [Ne, List.map_eq_nil_iff]
    exact hne

end Last

section Round

variable {S K V : Type*} (give : S → K → S) (look : S → K → V)

/-- A round passes the others by. -/
theorem round_of_not_mem (hother : ∀ s k j, k ≠ j → look (give s k) j = look s j) :
    ∀ {ks : List K} {j : K}, j ∉ ks → ∀ s, look (ks.foldl give s) j = look s j
  | [], _, _, _ => rfl
  | k :: ks, j, hj, s => by
    rw [List.mem_cons, not_or] at hj
    rw [List.foldl_cons, round_of_not_mem hother hj.2]
    exact hother s k j (Ne.symm hj.1)

variable {I : S → Prop} {P : K → V → V → Prop}

/-- Each recipient of a round is given something once. -/
theorem round_of_mem (hinv : ∀ s k, I s → I (give s k))
    (hself : ∀ s k, I s → P k (look s k) (look (give s k) k))
    (hother : ∀ s k j, k ≠ j → look (give s k) j = look s j) :
    ∀ {ks : List K} {j : K}, ks.Nodup → j ∈ ks → ∀ s, I s →
      P j (look s j) (look (ks.foldl give s) j)
  | [], _, _, hj, _, _ => absurd hj (by simp)
  | k :: ks, j, hnodup, hj, s, hs => by
    rw [List.nodup_cons] at hnodup
    rw [List.foldl_cons]
    by_cases hk : k = j
    · subst hk
      rw [round_of_not_mem give look hother hnodup.1]
      exact hself s k hs
    · have hrest := round_of_mem hinv hself hother hnodup.2
        ((List.mem_cons.mp hj).resolve_left (Ne.symm hk)) (give s k) (hinv s k hs)
      rwa [hother s k j hk] at hrest

end Round

end Mail
