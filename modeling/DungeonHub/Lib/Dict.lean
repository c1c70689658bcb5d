import Mathlib

/-!
# Dictionaries

A finite map over an ordered key type, as `Std.ExtTreeMap`: two dictionaries with the same lookups
are equal, and going through one visits the keys in ascending order. The lookups after an update
are stated here with equality of keys in place of the comparison's result.
-/

/-- A finite map, iterated in the order of its keys. -/
abbrev Dict (K V : Type) [Ord K] : Type := Std.ExtTreeMap K V compare

namespace Dict

variable {K V : Type} [Ord K] [Std.TransOrd K]

theorem mem_iff (d : Dict K V) (k : K) : k ∈ d ↔ ∃ v, d[k]? = some v := by
  rw [Std.ExtTreeMap.mem_iff_isSome_getElem?, Option.isSome_iff_exists]

theorem not_mem_iff (d : Dict K V) (k : K) : k ∉ d ↔ d[k]? = none := by
  rw [Std.ExtTreeMap.mem_iff_isSome_getElem?, Option.not_isSome_iff_eq_none]

@[simp] theorem get?_empty (k : K) : (∅ : Dict K V)[k]? = none := by simp

/-- Every entry has the property. -/
def All (P : K → V → Prop) (d : Dict K V) : Prop := ∀ (k : K) (v : V), d[k]? = some v → P k v

theorem all_empty {P : K → V → Prop} : All P (∅ : Dict K V) := by
  intro k v h
  rw [get?_empty] at h
  cases h

theorem All.imp {P Q : K → V → Prop} {d : Dict K V} (h : All P d)
    (hPQ : ∀ k v, P k v → Q k v) : All Q d :=
  fun k v hk => hPQ k v (h k v hk)

variable [Std.LawfulEqOrd K]

theorem ext {d d' : Dict K V} (h : ∀ k : K, d[k]? = d'[k]?) : d = d' :=
  Std.ExtTreeMap.ext_getElem? fun {k} => h k

/-- Two dictionaries without zeros are equal if they say the same with 0 for what they lack. -/
theorem ext_getD [Zero V] {d d' : Dict K V} (h : All (fun _ v => v ≠ 0) d)
    (h' : All (fun _ v => v ≠ 0) d') (hget : ∀ k : K, d.getD k 0 = d'.getD k 0) : d = d' := by
  refine ext fun k => ?_
  have hk := hget k
  rw [Std.ExtTreeMap.getD_eq_getD_getElem?, Std.ExtTreeMap.getD_eq_getD_getElem?] at hk
  rcases hd : d[k]? with _ | v <;> rcases hd' : d'[k]? with _ | v' <;> rw [hd, hd'] at hk
  · exact absurd hk.symm (h' k v' hd')
  · exact absurd hk (h k v hd)
  · exact congrArg some hk

theorem ext_mem {d d' : Dict K V} {v : V} (hmem : ∀ k, k ∈ d ↔ k ∈ d')
    (hget : ∀ k : K, d.getD k v = d'.getD k v) : d = d' := by
  refine ext fun k => ?_
  have hk := hget k
  have hin := hmem k
  rw [Std.ExtTreeMap.getD_eq_getD_getElem?, Std.ExtTreeMap.getD_eq_getD_getElem?] at hk
  rw [Std.ExtTreeMap.mem_iff_isSome_getElem?, Std.ExtTreeMap.mem_iff_isSome_getElem?] at hin
  rcases hd : d[k]? with _ | a <;> rcases hd' : d'[k]? with _ | a' <;> rw [hd, hd'] at hk hin
  · exact absurd (hin.mpr rfl) Bool.false_ne_true
  · exact absurd (hin.mp rfl) Bool.false_ne_true
  · exact congrArg some hk

theorem mem_toList (d : Dict K V) (k : K) (v : V) : (k, v) ∈ d.toList ↔ d[k]? = some v :=
  Std.ExtTreeMap.mem_toList_iff_getElem?_eq_some

theorem toList_empty : (∅ : Dict K V).toList = [] := by
  rw [List.eq_nil_iff_forall_not_mem]
  rintro ⟨k, v⟩ h
  rw [mem_toList, get?_empty] at h
  cases h

/-- The values, in the order of their keys. -/
def elems (d : Dict K V) : List V := d.toList.map Prod.snd

theorem mem_elems (d : Dict K V) (v : V) : v ∈ d.elems ↔ ∃ k : K, d[k]? = some v := by
  unfold elems
  rw [List.mem_map]
  constructor
  · rintro ⟨⟨k, w⟩, h, rfl⟩
    exact ⟨k, (mem_toList d k w).mp h⟩
  · rintro ⟨k, h⟩
    exact ⟨(k, v), (mem_toList d k v).mpr h, rfl⟩

theorem nodup_toList (d : Dict K V) : d.toList.Nodup := by
  refine Std.ExtTreeMap.distinct_keys_toList.imp ?_
  rintro a b hab rfl
  exact hab (by simp)

theorem mem_insert (d : Dict K V) (k a : K) (v : V) : a ∈ d.insert k v ↔ k = a ∨ a ∈ d := by
  rw [Std.ExtTreeMap.mem_insert, Std.LawfulEqOrd.compare_eq_iff_eq]

theorem mem_insertIfNew (d : Dict K V) (k a : K) (v : V) :
    a ∈ d.insertIfNew k v ↔ k = a ∨ a ∈ d := by
  rw [Std.ExtTreeMap.mem_insertIfNew, Std.LawfulEqOrd.compare_eq_iff_eq]

theorem mem_erase (d : Dict K V) (k a : K) : a ∈ d.erase k ↔ k ≠ a ∧ a ∈ d := by
  rw [Std.ExtTreeMap.mem_erase, Ne, Ne, Std.LawfulEqOrd.compare_eq_iff_eq]

variable [DecidableEq K]

theorem get?_insert (d : Dict K V) (k a : K) (v : V) :
    (d.insert k v)[a]? = if k = a then some v else d[a]? := by
  rw [Std.ExtTreeMap.getElem?_insert]
  by_cases h : k = a
  · simp [h]
  · simp [h]

@[simp] theorem get?_insert_self (d : Dict K V) (k : K) (v : V) : (d.insert k v)[k]? = some v := by
  rw [get?_insert, if_pos rfl]

theorem get?_insert_of_ne (d : Dict K V) {k a : K} (v : V) (h : k ≠ a) :
    (d.insert k v)[a]? = d[a]? := by
  rw [get?_insert, if_neg h]

theorem get?_erase (d : Dict K V) (k a : K) :
    (d.erase k)[a]? = if k = a then none else d[a]? := by
  rw [Std.ExtTreeMap.getElem?_erase]
  by_cases h : k = a
  · simp [h]
  · simp [h]

@[simp] theorem get?_erase_self (d : Dict K V) (k : K) : (d.erase k)[k]? = none := by
  rw [get?_erase, if_pos rfl]

theorem get?_erase_of_ne (d : Dict K V) {k a : K} (h : k ≠ a) : (d.erase k)[a]? = d[a]? := by
  rw [get?_erase, if_neg h]

/-- An entry that is there already changes nothing. -/
theorem insert_of_get {d : Dict K V} {k : K} {v : V} (h : d[k]? = some v) : d.insert k v = d := by
  refine ext fun a => ?_
  rw [get?_insert]
  split_ifs with ha
  · rw [← ha, h]
  · rfl

theorem insertIfNew_of_not_mem (d : Dict K V) {k : K} (v : V) (h : k ∉ d) :
    d.insertIfNew k v = d.insert k v := by
  refine ext fun a => ?_
  rw [Std.ExtTreeMap.getElem?_insertIfNew, get?_insert]
  by_cases ha : k = a
  · simp [ha, ha ▸ h]
  · simp [ha]

theorem erase_comm (d : Dict K V) (a b : K) : (d.erase a).erase b = (d.erase b).erase a := by
  refine ext fun k => ?_
  rw [get?_erase, get?_erase, get?_erase, get?_erase]
  split_ifs <;> rfl

theorem erase_of_not_mem (d : Dict K V) {k : K} (h : k ∉ d) : d.erase k = d := by
  refine ext fun a => ?_
  rw [get?_erase]
  split_ifs with ha
  · rw [← ha, (not_mem_iff d k).mp h]
  · rfl

theorem erase_insert_empty (k : K) (v : V) : ((∅ : Dict K V).insert k v).erase k = ∅ := by
  refine ext fun a => ?_
  rw [get?_erase, get?_empty]
  split_ifs with ha
  · rfl
  · rw [get?_insert_of_ne _ _ ha, get?_empty]

theorem get?_modify (d : Dict K V) (k a : K) (f : V → V) :
    (d.modify k f)[a]? = if k = a then d[a]?.map f else d[a]? := by
  rw [Std.ExtTreeMap.getElem?_modify]
  by_cases h : k = a
  · simp [h]
  · simp [h]

/-- Two changes that commute may be made in either order. -/
theorem modify_comm (d : Dict K V) (k a : K) {f g : V → V} (h : ∀ v, f (g v) = g (f v)) :
    (d.modify k f).modify a g = (d.modify a g).modify k f := by
  refine ext fun b => ?_
  rw [get?_modify, get?_modify, get?_modify, get?_modify]
  split_ifs
  · rw [Option.map_map, Option.map_map]
    exact congrArg (Option.map · _) (funext fun v => (h v).symm)
  · rfl
  · rfl
  · rfl

theorem modify_insert (d : Dict K V) (k a : K) (v : V) (f : V → V) :
    (d.insert k v).modify a f = (d.modify a f).insert k (if a = k then f v else v) := by
  refine ext fun b => ?_
  rw [get?_modify, get?_insert, get?_insert, get?_modify]
  by_cases hk : k = b
  · subst hk
    split_ifs <;> simp
  · simp [hk]

theorem modify_modify (d : Dict K V) (k : K) (f g : V → V) :
    (d.modify k f).modify k g = d.modify k (g ∘ f) := by
  refine ext fun b => ?_
  rw [get?_modify, get?_modify, get?_modify]
  split_ifs
  · exact Option.map_map ..
  · rfl

variable {P : K → V → Prop} {d : Dict K V}

theorem All.insert (h : All P d) {k : K} {v : V} (hv : P k v) : All P (d.insert k v) := by
  intro a w ha
  rw [get?_insert] at ha
  split_ifs at ha with hk
  · cases ha
    exact hk ▸ hv
  · exact h a w ha

theorem All.insertIfNew (h : All P d) {k : K} {v : V} (hv : P k v) :
    All P (d.insertIfNew k v) := by
  by_cases hk : k ∈ d
  · intro a w ha
    rw [Std.ExtTreeMap.getElem?_insertIfNew, if_neg fun h => h.2 hk] at ha
    exact h a w ha
  · rw [insertIfNew_of_not_mem d v hk]
    exact h.insert hv

theorem All.erase (h : All P d) (k : K) : All P (d.erase k) := by
  intro a w ha
  rw [get?_erase] at ha
  split_ifs at ha
  exact h a w ha

/-- Each key of the list erased in turn. -/
def eraseAll (d : Dict K V) (ks : List K) : Dict K V := ks.foldl (fun d k => d.erase k) d

theorem get?_eraseAll (a : K) :
    ∀ (ks : List K) (d : Dict K V), (d.eraseAll ks)[a]? = if a ∈ ks then none else d[a]?
  | [], d => by simp [eraseAll]
  | k :: ks, d => by
    have ih := get?_eraseAll a ks (d.erase k)
    unfold eraseAll at ih ⊢
    rw [List.foldl_cons, ih, get?_erase]
    by_cases hk : k = a
    · simp [hk]
    · simp [hk, Ne.symm hk]

/-- The entry of `a` is filed under `b`, changed by `f`, and the others are as they were. -/
def Renames (f : V → V) (a b : K) (d d' : Dict K V) : Prop :=
  ∀ k : K, d'[k]? = if k = b then d[a]?.map f else if k = a then none else d[k]?

omit [Std.LawfulEqOrd K] in
theorem renames_of_not_mem {a b : K} (f : V → V) (ha : a ∉ d) (hb : b ∉ d) :
    Renames f a b d d := by
  intro k
  by_cases hkb : k = b
  · rw [if_pos hkb, hkb, (not_mem_iff d a).mp ha, (not_mem_iff d b).mp hb]
    rfl
  · rw [if_neg hkb]
    by_cases hka : k = a
    · rw [if_pos hka, hka, (not_mem_iff d a).mp ha]
    · rw [if_neg hka]

theorem get?_erase_insert (d : Dict K V) (a b k : K) (v : V) :
    ((d.erase a).insert b v)[k]? = if k = b then some v else if k = a then none else d[k]? := by
  rw [get?_insert, get?_erase]
  by_cases hkb : k = b
  · simp [hkb]
  · rw [if_neg (Ne.symm hkb), if_neg hkb]
    by_cases hka : k = a
    · simp [hka]
    · simp [hka, Ne.symm hka]

theorem renames_erase_insert {a b : K} (f : V → V) {v : V} (ha : d[a]? = some v) :
    Renames f a b d ((d.erase a).insert b (f v)) := by
  intro k
  rw [get?_erase_insert, ha]
  rfl

theorem renames_erase_insertIfNew {a b : K} (f : V → V) {v : V} (ha : d[a]? = some v)
    (hb : b ∉ d) : Renames f a b d ((d.erase a).insertIfNew b (f v)) := by
  rw [insertIfNew_of_not_mem _ _ fun h => hb ((mem_erase _ _ _).mp h).2]
  exact renames_erase_insert f ha

/-- Inserting puts the entry in place of whatever was filed under its key. -/
theorem toList_insert_perm (d : Dict K V) (k : K) (v : V) :
    (d.insert k v).toList.Perm ((k, v) :: d.toList.filter fun e => e.1 ≠ k) := by
  rw [List.perm_ext_iff_of_nodup (nodup_toList _)]
  · rintro ⟨a, w⟩
    rw [mem_toList, get?_insert, List.mem_cons, List.mem_filter, mem_toList]
    by_cases ha : k = a
    · subst ha
      simp [eq_comm]
    · simp [ha, Ne.symm ha]
  · rw [List.nodup_cons]
    exact ⟨by simp, (nodup_toList d).filter _⟩

/-- The entry of a key, and the others. -/
theorem toList_perm_of_get {d : Dict K V} {k : K} {v : V} (h : d[k]? = some v) :
    d.toList.Perm ((k, v) :: d.toList.filter fun e => e.1 ≠ k) := by
  have hperm := toList_insert_perm d k v
  rwa [insert_of_get h] at hperm

theorem toList_filter_of_none {d : Dict K V} {k : K} (h : d[k]? = none) :
    (d.toList.filter fun e => e.1 ≠ k) = d.toList := by
  rw [List.filter_eq_self]
  rintro ⟨a, w⟩ ha
  rw [mem_toList] at ha
  simp only [decide_eq_true_eq]
  rintro rfl
  rw [h] at ha
  cases ha

end Dict
