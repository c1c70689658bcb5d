import DungeonHub.Lib.Snapshots
import DungeonHub.Proofs.Inventory

/-!
# When two transaction blocks do not disturb each other

A rollback brings back the whole table as it was at the block's begin, so it also undoes what the
other block wrote in between, and may bring back what the other block has rolled back since. These
are the only two ways in which interleaved blocks go wrong.
-/

namespace DungeonHub

open InventoryStorage Snapshots

/-- An `addItem` call of a block. -/
structure Addition where
  inventoryId : InventoryId
  itemId : ItemId
  quantity : Quantity
  reason : Str
  deriving DecidableEq

/-- A transaction block: begin, additions, and a commit or a rollback. -/
structure Block where
  additions : List Addition
  commits : Bool

/-- The calls of a block, in order. -/
def Block.calls (b : Block) : List (Op Addition) :=
  .begin :: (b.additions.map .put ++ [if b.commits then .commit else .rollback])

/-- Two blocks at work on one table: the table, and the transaction each got from its begin. -/
structure SharedTable where
  table : InventoryTable
  handle : Bool → Transaction := fun _ => ⟨0⟩

/-- One call of one block. -/
def sharedStep (s : SharedTable) : Bool × Op Addition → SharedTable
  | (b, .begin) =>
    let (t, table) := beginTransaction s.table
    { table, handle := Function.update s.handle b t }
  | (_, .put a) => { s with
      table := (addItem s.table a.inventoryId a.itemId a.quantity a.reason).2 }
  | (b, .commit) => { s with table := commitTransaction s.table (s.handle b) }
  | (b, .rollback) => { s with table := rollbackTransaction s.table (s.handle b) }

/-- The calls of both blocks, each block's in its own order. -/
def Interleaves (ops : List (Bool × Op Addition)) (block : Bool → Block) : Prop :=
  ∀ b, (ops.filter fun o => o.1 = b).map Prod.snd = (block b).calls

/-- The calls of the blocks that commit, one block after the other. -/
def committedOnly (block : Bool → Block) : List (Bool × Op Addition) :=
  [false, true].flatMap fun b =>
    if (block b).commits then (block b).calls.map fun o => (b, o) else []

/-- The items of every inventory are the same, and the change logs but for the ids of changes. -/
def SameView (s s' : InventoryTable) : Prop :=
  ∀ id, s.loadInventory id = s'.loadInventory id ∧
    (s.changeLog id).map (fun ch => { ch with changeId := 0 }) =
      (s'.changeLog id).map fun ch => { ch with changeId := 0 }

/-- Block `x` rolls back, and with it a write of the other block: one that the other block commits
and that fell between `x`'s begin and rollback is lost, one that came before `x`'s begin and was
rolled back before `x` was is back. -/
def Disturbs (ops : List (Bool × Op Addition)) (block : Bool → Block) (x : Bool) : Prop :=
  ∃ l₁ l₂ l₃, ops = l₁ ++ (x, .begin) :: l₂ ++ (x, .rollback) :: l₃ ∧
    (((block !x).commits = true ∧ ∃ a, a.quantity ≠ 0 ∧ (!x, .put a) ∈ l₂) ∨
      (∃ a, a.quantity ≠ 0 ∧ (!x, .put a) ∈ l₁) ∧ (!x, .rollback) ∈ l₂)

section View

/-- The additions to one inventory that change it. -/
def effective (id : InventoryId) (l : List Addition) : List Addition :=
  l.filter fun a => a.inventoryId = id ∧ a.quantity ≠ 0

/-- The table content after an addition. -/
def TableContent.apply (c : TableContent) (a : Addition) : TableContent :=
  (c.addItem a.inventoryId a.itemId a.quantity a.reason).2

/-- The change an addition leaves in the log, but for its id. -/
def Addition.change (a : Addition) : InventoryChange :=
  ⟨0, a.inventoryId, a.itemId, a.quantity, .add, a.reason⟩

/-- The log of an inventory, but for the ids of changes. -/
def TableContent.logOf (c : TableContent) (id : InventoryId) : List InventoryChange :=
  (c.changeLog.getD id []).map fun ch => { ch with changeId := 0 }

open TableContent

theorem apply_of_not_effective {c : TableContent} {a : Addition} {id : InventoryId}
    (h : ¬ (a.inventoryId = id ∧ a.quantity ≠ 0)) :
    (c.apply a).inventories[id]? = c.inventories[id]? ∧ (c.apply a).logOf id = c.logOf id := by
  by_cases hq : a.quantity = 0
  · unfold TableContent.apply
    rw [hq, addItem_zero]
    exact ⟨rfl, rfl⟩
  · have hid : a.inventoryId ≠ id := fun he => h ⟨he, hq⟩
    unfold TableContent.apply logOf
    rw [addItem_eq _ _ _ _ hq]
    simp only [recordChange_inventories, putItems_inventories, Dict.get?_insert_of_ne _ _ hid,
      true_and]
    unfold recordChange
    simp only [Std.ExtTreeMap.getD_eq_getD_getElem?, Dict.get?_insert_of_ne _ _ hid]
    rfl

theorem apply_of_effective {c : TableContent} {a : Addition} (h : a.quantity ≠ 0) :
    (c.apply a).inventories[a.inventoryId]? =
        some (addTo (c.itemsOf a.inventoryId) a.itemId a.quantity) ∧
      (c.apply a).logOf a.inventoryId = c.logOf a.inventoryId ++ [a.change] := by
  unfold TableContent.apply logOf
  rw [addItem_eq _ _ _ _ h]
  refine ⟨Dict.get?_insert_self .., ?_⟩
  unfold recordChange
  simp only [Std.ExtTreeMap.getD_eq_getD_getElem?, Dict.get?_insert_self, Option.getD_some,
    List.map_append]
  rfl

/-- The log of an inventory grows by the effective additions to it. -/
theorem logOf_foldl (id : InventoryId) : ∀ (l : List Addition) (c : TableContent),
    (l.foldl TableContent.apply c).logOf id = c.logOf id ++ (effective id l).map Addition.change
  | [], c => by simp [effective]
  | a :: l, c => by
    rw [List.foldl_cons, logOf_foldl id l]
    unfold effective
    by_cases h : a.inventoryId = id ∧ a.quantity ≠ 0
    · rw [List.filter_cons_of_pos (by simpa using h)]
      obtain ⟨rfl, hq⟩ := h
      rw [(apply_of_effective hq).2]
      simp
    · rw [List.filter_cons_of_neg (by simpa using h), (apply_of_not_effective h).2]

/-- The items of an inventory, if it is there, after an effective addition to it. -/
def receive (items : Option Items) (a : Addition) : Option Items :=
  some (addTo (items.getD ∅) a.itemId a.quantity)

theorem inventories_foldl (id : InventoryId) : ∀ (l : List Addition) (c : TableContent),
    (l.foldl TableContent.apply c).inventories[id]? =
      (effective id l).foldl receive c.inventories[id]?
  | [], c => by simp [effective]
  | a :: l, c => by
    rw [List.foldl_cons, inventories_foldl id l]
    unfold effective
    by_cases h : a.inventoryId = id ∧ a.quantity ≠ 0
    · rw [List.filter_cons_of_pos (by simpa using h), List.foldl_cons]
      obtain ⟨rfl, hq⟩ := h
      rw [(apply_of_effective hq).1, itemsOf_eq]
      rfl
    · rw [List.filter_cons_of_neg (by simpa using h), (apply_of_not_effective h).1]

theorem change_injective_on {a a' : Addition} (h : a.change = a'.change) : a = a' := by
  cases a
  cases a'
  simpa [Addition.change] using h

theorem sameView_iff {s s' : InventoryTable} :
    SameView s s' ↔ ∀ id : InventoryId,
      s.content.inventories[id]? = s'.content.inventories[id]? ∧
        s.content.logOf id = s'.content.logOf id := by
  unfold SameView InventoryTable.loadInventory
  refine forall_congr' fun id => and_congr_left fun _ => ?_
  constructor
  · intro h
    exact Option.map_injective (fun x y hxy => (InventoryState.mk.inj hxy).2) h
  · intro h
    rw [h]

/-- Two lists of additions leave the same view exactly if they have the same effective ones for
every inventory: each of them leaves its change in the log. -/
theorem sameView_foldl_iff {s s' : InventoryTable} {c : TableContent} {l l' : List Addition}
    (hs : s.content = l.foldl TableContent.apply c)
    (hs' : s'.content = l'.foldl TableContent.apply c) :
    SameView s s' ↔ ∀ id, effective id l = effective id l' := by
  rw [sameView_iff, hs, hs']
  refine forall_congr' fun id => ?_
  rw [logOf_foldl, logOf_foldl, inventories_foldl, inventories_foldl]
  constructor
  · rintro ⟨-, hlog⟩
    have hmap := List.append_cancel_left hlog
    exact List.map_injective_iff.mpr (fun _ _ => change_injective_on) hmap
  · intro h
    rw [h]
    exact ⟨rfl, rfl⟩

end View

section Simulation

open Run

/-- Transaction ids are handed out in order, from 1. -/
structure Numbered (s : InventoryTable) : Prop where
  one_le : 1 ≤ s.nextTransactionId
  snapshots : ∀ t ∈ s.transactionSnapshots, 1 ≤ t ∧ t < s.nextTransactionId

theorem numbered_begin {s : InventoryTable} (h : Numbered s) : Numbered (beginTransaction s).2 := by
  show Numbered s.beginTransaction.2
  unfold InventoryTable.beginTransaction
  refine ⟨Nat.le_succ_of_le h.one_le, ?_⟩
  intro t ht
  simp only [Std.ExtTreeMap.mem_insertIfNew, Std.LawfulEqOrd.compare_eq_iff_eq] at ht
  rcases ht with rfl | ht
  · exact ⟨h.one_le, Nat.lt_succ_self _⟩
  · exact ⟨(h.snapshots t ht).1, Nat.lt_succ_of_lt (h.snapshots t ht).2⟩

theorem numbered_rollback {s : InventoryTable} (h : Numbered s) (t : Transaction) :
    Numbered (rollbackTransaction s t) := by
  show Numbered (s.rollbackTransaction t)
  unfold InventoryTable.rollbackTransaction
  split
  · exact ⟨h.one_le, h.snapshots⟩
  · exact ⟨h.one_le, fun a ha => h.snapshots a (Std.ExtTreeMap.mem_of_mem_erase ha)⟩

theorem numbered_step {s : InventoryTable} (h : Numbered s) (call : StorageCall) :
    Numbered (storageStep s call) := by
  cases call with
  | beginTransaction => exact numbered_begin h
  | commitTransaction t =>
    exact ⟨h.one_le, fun a ha => h.snapshots a (Std.ExtTreeMap.mem_of_mem_erase ha)⟩
  | rollbackTransaction t => exact numbered_rollback h t
  | loadInventory id => exact h
  | saveInventory state => exact ⟨h.one_le, h.snapshots⟩
  | addItem id item quantity reason => exact ⟨h.one_le, h.snapshots⟩
  | removeItem id item quantity reason => exact ⟨h.one_le, h.snapshots⟩
  | setItem id item quantity reason => exact ⟨h.one_le, h.snapshots⟩

theorem numbered_after (calls : List StorageCall) :
    Numbered (after storageStep ({} : InventoryTable) calls) :=
  stable (I := Numbered) (fun _ call h => numbered_step h call) calls
    ⟨le_rfl, fun _ ht => absurd ht Std.ExtTreeMap.not_mem_empty⟩

/-- The shared table does what a store with whole-state snapshots does. -/
structure Simulates (s : SharedTable) (a : Store Bool TableContent) : Prop where
  numbered : Numbered s.table
  now : s.table.content = a.now
  saved : ∀ b, s.table.transactionSnapshots[(s.handle b).transactionId]? = a.saved b
  handle_lt : ∀ b, (s.handle b).transactionId < s.table.nextTransactionId
  handle_ne : ∀ b, (s.handle b).transactionId = (s.handle !b).transactionId →
    (s.handle b).transactionId = 0

theorem Numbered.snapshot_zero {s : InventoryTable} (h : Numbered s) :
    s.transactionSnapshots[0]? = none := by
  rw [← Dict.not_mem_iff]
  intro hmem
  exact absurd (h.snapshots 0 hmem).1 (by omega)

theorem Numbered.next_not_mem {s : InventoryTable} (h : Numbered s) :
    s.nextTransactionId ∉ s.transactionSnapshots :=
  fun hmem => lt_irrefl _ (h.snapshots _ hmem).2

theorem simulates_start {s : InventoryTable} (h : Numbered s) :
    Simulates { table := s } (start s.content) :=
  ⟨h, rfl, fun _ => h.snapshot_zero, fun _ => h.one_le, fun _ _ => rfl⟩

variable {s : SharedTable} {a : Store Bool TableContent}

theorem simulates_begin (h : Simulates s a) (b : Bool) :
    Simulates (sharedStep s (b, .begin)) (step TableContent.apply a (b, .begin)) := by
  have hn := h.numbered.next_not_mem
  have hsnap : (beginTransaction s.table).2.transactionSnapshots =
      s.table.transactionSnapshots.insert s.table.nextTransactionId s.table.content :=
    Dict.insertIfNew_of_not_mem _ _ hn
  refine ⟨numbered_begin h.numbered, h.now, fun b' => ?_, fun b' => ?_, fun b' hb' => ?_⟩
  · show (beginTransaction s.table).2.transactionSnapshots[
      (Function.update s.handle b ⟨s.table.nextTransactionId⟩ b').transactionId]? =
      Function.update a.saved b (some a.now) b'
    rw [hsnap]
    by_cases hb : b' = b
    · subst hb
      rw [Function.update_self, Function.update_self, Dict.get?_insert_self, h.now]
    · rw [Function.update_of_ne hb, Function.update_of_ne hb,
        Dict.get?_insert_of_ne _ _ (h.handle_lt b').ne', h.saved]
  · show (Function.update s.handle b ⟨s.table.nextTransactionId⟩ b').transactionId <
      s.table.nextTransactionId + 1
    by_cases hb : b' = b
    · subst hb
      rw [Function.update_self]
      exact Nat.lt_succ_self _
    · rw [Function.update_of_ne hb]
      exact Nat.lt_succ_of_lt (h.handle_lt b')
  · -- one of the two handles is the new one, and the other is below it
    exfalso
    have hlt := h.handle_lt (!b)
    have hb'' : (Function.update s.handle b ⟨s.table.nextTransactionId⟩ b').transactionId =
        (Function.update s.handle b ⟨s.table.nextTransactionId⟩ !b').transactionId := hb'
    by_cases hb : b' = b
    · subst hb
      rw [Function.update_self, Function.update_of_ne (by simp)] at hb''
      simp only at hb''
      omega
    · obtain rfl : b' = !b := by
        cases b <;> cases b' <;> simp_all
      rw [Function.update_of_ne (by simp), Bool.not_not, Function.update_self] at hb''
      simp only at hb''
      omega

theorem saved_erase (h : Simulates s a) (b b' : Bool) :
    (s.table.transactionSnapshots.erase (s.handle b).transactionId)[
      (s.handle b').transactionId]? = Function.update a.saved b none b' := by
  by_cases hb : b' = b
  · subst hb
    rw [Dict.get?_erase_self, Function.update_self]
  · rw [Function.update_of_ne hb, Dict.get?_erase, ← h.saved]
    split_ifs with he
    · obtain rfl : b' = !b := by
        cases b <;> cases b' <;> simp_all
      rw [← he, h.handle_ne b he, h.numbered.snapshot_zero]
    · rfl

theorem simulates_step (h : Simulates s a) : ∀ o : Bool × Op Addition,
    Simulates (sharedStep s o) (step TableContent.apply a o)
  | (b, .begin) => simulates_begin h b
  | (_, .put u) => ⟨⟨h.numbered.one_le, h.numbered.snapshots⟩,
      congrArg (TableContent.apply · u) h.now, h.saved, h.handle_lt, h.handle_ne⟩
  | (b, .commit) => ⟨⟨h.numbered.one_le, fun t ht =>
      h.numbered.snapshots t (Std.ExtTreeMap.mem_of_mem_erase ht)⟩, h.now, saved_erase h b,
      h.handle_lt, h.handle_ne⟩
  | (b, .rollback) => by
    have hs := h.saved b
    have hroll : sharedStep s (b, .rollback) =
      { s with table := s.table.rollbackTransaction (s.handle b) } := rfl
    have hnum := numbered_rollback h.numbered (s.handle b)
    rw [show rollbackTransaction s.table (s.handle b) =
      s.table.rollbackTransaction (s.handle b) from rfl] at hnum
    unfold InventoryTable.rollbackTransaction at hroll hnum
    rw [hroll]
    rcases hb : a.saved b with _ | old
    · rw [hb] at hs
      simp only [step, hs, hb] at hnum ⊢
      exact ⟨hnum, h.now, h.saved, h.handle_lt, h.handle_ne⟩
    · rw [hb] at hs
      simp only [step, hs, hb] at hnum ⊢
      exact ⟨hnum, rfl, saved_erase h b, h.handle_lt, h.handle_ne⟩

theorem simulates_after : ∀ (ops : List (Bool × Op Addition)) {s : SharedTable}
    {a : Store Bool TableContent}, Simulates s a →
    Simulates (after sharedStep s ops) (after (step TableContent.apply) a ops)
  | [], _, _, h => h
  | o :: ops, _, _, h => simulates_after ops (simulates_step h o)

/-- What the table holds after the calls, from any table that transactions are numbered in. -/
theorem content_after {s : InventoryTable} (h : Numbered s) (ops : List (Bool × Op Addition)) :
    (after sharedStep { table := s } ops).table.content =
      (after (step TableContent.apply) (start s.content) ops).now :=
  (simulates_after ops (simulates_start h)).now

end Simulation

section Splits

/-- A run of both blocks around the begin and the end of block `x`: outside of them `x` does
nothing, between them it adds. -/
structure Around (ops : List (Bool × Op Addition)) (block : Bool → Block) (x : Bool)
    (l₁ l₂ l₃ : List (Bool × Op Addition)) : Prop where
  eq : ops = l₁ ++ (x, .begin) :: l₂ ++
    (x, if (block x).commits then .commit else .rollback) :: l₃
  before : ∀ o ∈ l₁, o.1 = !x
  between : (l₂.filter fun o => o.1 = x).map Prod.snd = (block x).additions.map .put
  after : ∀ o ∈ l₃, o.1 = !x

variable {ops : List (Bool × Op Addition)} {block : Bool → Block}

theorem all_other_of_filter {l : List (Bool × Op Addition)} {x : Bool}
    (h : (l.filter fun o => o.1 = x) = []) : ∀ o ∈ l, o.1 = !x := by
  intro o ho
  have hne := List.filter_eq_nil_iff.mp h o ho
  rcases o with ⟨b, o⟩
  cases b <;> cases x <;> simp_all

theorem filter_eq_cons_split {l : List (Bool × Op Addition)} {x : Bool} {o : Op Addition}
    {rest : List (Op Addition)} (h : (l.filter fun o => o.1 = x).map Prod.snd = o :: rest) :
    ∃ l₁ l₂, l = l₁ ++ (x, o) :: l₂ ∧ (l₁.filter fun o => o.1 = x) = [] ∧
      (l₂.filter fun o => o.1 = x).map Prod.snd = rest := by
  obtain ⟨⟨b, o'⟩, tl, hl, ho, htl⟩ := List.map_eq_cons_iff.mp h
  obtain ⟨l₁, l₂, rfl, hl₁, hb, hl₂⟩ := List.filter_eq_cons_iff.mp hl
  simp only [decide_eq_true_eq] at hb
  subst hb
  simp only at ho
  subst ho
  refine ⟨l₁, l₂, rfl, List.filter_eq_nil_iff.mpr hl₁, ?_⟩
  rw [hl₂]
  exact htl

theorem Interleaves.around (h : Interleaves ops block) (x : Bool) :
    ∃ l₁ l₂ l₃, Around ops block x l₁ l₂ l₃ := by
  obtain ⟨l₁, l, rfl, hl₁, hl⟩ := filter_eq_cons_split (h x)
  obtain ⟨as, es, has, hmap, hes⟩ := List.map_eq_append_iff.mp hl
  obtain ⟨l₂, l', rfl, hl₂, hl'⟩ := List.filter_eq_append_iff.mp has
  subst hl₂ hl'
  obtain ⟨m, l₃, rfl, hm, hl₃⟩ := filter_eq_cons_split hes
  refine ⟨l₁, l₂ ++ m, l₃, by simp, all_other_of_filter hl₁, ?_, all_other_of_filter ?_⟩
  · rw [List.filter_append, hm, List.append_nil]
    exact hmap
  · exact List.map_eq_nil_iff.mp hl₃

section Around

variable {x : Bool} {l₁ l₂ l₃ : List (Bool × Op Addition)}

theorem Around.between_put (h : Around ops block x l₁ l₂ l₃) {o : Op Addition}
    (ho : (x, o) ∈ l₂) : ∃ a ∈ (block x).additions, o = .put a := by
  have hmem : o ∈ (l₂.filter fun o => o.1 = x).map Prod.snd :=
    List.mem_map.mpr ⟨(x, o), List.mem_filter.mpr ⟨ho, by simp⟩, rfl⟩
  rw [h.between] at hmem
  obtain ⟨a, ha, rfl⟩ := List.mem_map.mp hmem
  exact ⟨a, ha, rfl⟩

/-- Block `x` begins and ends nowhere else. -/
theorem Around.no_marks (h : Around ops block x l₁ l₂ l₃) :
    (∀ o ∈ l₁, ¬ Marks x o) ∧ (∀ o ∈ l₂, ¬ Marks x o) ∧ ∀ o ∈ l₃, ¬ Marks x o := by
  refine ⟨fun o ho hm => ?_, fun o ho hm => ?_, fun o ho hm => ?_⟩
  · have := h.before o ho
    rw [hm.1] at this
    cases x <;> cases this
  · obtain ⟨b, o⟩ := o
    obtain ⟨hb, hput⟩ := hm
    simp only at hb hput
    subst hb
    obtain ⟨a, -, rfl⟩ := h.between_put ho
    exact hput a rfl
  · have := h.after o ho
    rw [hm.1] at this
    cases x <;> cases this

theorem marks_begin : Marks x ((x, .begin) : Bool × Op Addition) := ⟨rfl, by simp⟩

theorem marks_rollback : Marks x ((x, .rollback) : Bool × Op Addition) := ⟨rfl, by simp⟩

theorem Around.eq_rollback (h : Around ops block x l₁ l₂ l₃) (hx : (block x).commits = false) :
    ops = l₁ ++ (x, .begin) :: l₂ ++ (x, .rollback) :: l₃ := by
  have heq := h.eq
  simpa [hx] using heq

theorem Around.no_rollback (h : Around ops block x l₁ l₂ l₃) (hx : (block x).commits = true) :
    (x, .rollback) ∉ ops := by
  obtain ⟨h₁, h₂, h₃⟩ := h.no_marks
  rw [h.eq, hx]
  intro hmem
  simp only [List.mem_append, List.mem_cons, if_true, Prod.mk.injEq, reduceCtorEq, and_false,
    false_or] at hmem
  rcases hmem with (hmem | hmem) | hmem
  · exact h₁ _ hmem marks_rollback
  · exact h₂ _ hmem marks_rollback
  · exact h₃ _ hmem marks_rollback

theorem Around.count_rollback (h : Around ops block x l₁ l₂ l₃) (hx : (block x).commits = false) :
    ops.count (x, .rollback) = 1 := by
  obtain ⟨h₁, h₂, h₃⟩ := h.no_marks
  have hz : ∀ {l : List (Bool × Op Addition)}, (∀ o ∈ l, ¬ Marks x o) →
      l.count (x, .rollback) = 0 := fun hl =>
    List.count_eq_zero.mpr fun hmem => hl _ hmem marks_rollback
  rw [h.eq_rollback hx]
  simp only [List.count_append, List.count_cons, hz h₁, hz h₂, hz h₃]
  simp

/-- The disturbance in terms of the one place where block `x` stands. -/
theorem Around.disturbs_iff (h : Around ops block x l₁ l₂ l₃) (hx : (block x).commits = false) :
    Disturbs ops block x ↔
      (((block !x).commits = true ∧ ∃ a, a.quantity ≠ 0 ∧ (!x, .put a) ∈ l₂) ∨
        (∃ a, a.quantity ≠ 0 ∧ (!x, .put a) ∈ l₁) ∧ (!x, .rollback) ∈ l₂) := by
  obtain ⟨h₁, h₂, h₃⟩ := h.no_marks
  have heq := h.eq_rollback hx
  constructor
  · rintro ⟨m₁, m₂, m₃, hm, hd⟩
    rw [heq, List.append_assoc, List.append_assoc, List.cons_append, List.cons_append,
      List.append_cons_inj_of_notMem (fun hmem => h₁ _ hmem marks_begin)] at hm
    · obtain ⟨rfl, -, hm⟩ := hm
      rw [List.append_cons_inj_of_notMem (fun hmem => h₂ _ hmem marks_rollback)
        (fun hmem => h₃ _ hmem marks_rollback)] at hm
      obtain ⟨rfl, -, rfl⟩ := hm
      exact hd
    · intro hmem
      simp only [List.mem_append, List.mem_cons, Prod.mk.injEq, reduceCtorEq, and_false,
        false_or] at hmem
      rcases hmem with hmem | hmem
      · exact h₂ _ hmem marks_begin
      · exact h₃ _ hmem marks_begin
  · intro hd
    exact ⟨l₁, l₂, l₃, heq, hd⟩

theorem Around.not_disturbs_of_commits (h : Around ops block x l₁ l₂ l₃)
    (hx : (block x).commits = true) : ¬ Disturbs ops block x := by
  rintro ⟨m₁, m₂, m₃, hm, -⟩
  apply h.no_rollback hx
  rw [hm]
  simp

end Around

theorem written_calls (b : Block) : b.calls.filterMap Op.written = b.additions := by
  have hmap : (b.additions.map Op.put).filterMap Op.written = b.additions := by
    rw [List.filterMap_map]
    exact List.filterMap_some
  unfold Block.calls
  rw [List.filterMap_cons_none rfl, List.filterMap_append, hmap]
  cases b.commits <;> simp [Op.written]

/-- The additions of a block are the writes it makes in the run. -/
theorem Interleaves.puts_filter (h : Interleaves ops block) (b : Bool) :
    puts (ops.filter fun o => o.1 = b) = (block b).additions := by
  have hp : ∀ l : List (Bool × Op Addition), puts l = (l.map Prod.snd).filterMap Op.written :=
    fun l => by rw [List.filterMap_map]; rfl
  rw [hp, h b]
  exact written_calls (block b)

end Splits

section Isolation

open Run

variable {ops : List (Bool × Op Addition)} {block : Bool → Block}

theorem effective_append (id : InventoryId) (l l' : List Addition) :
    effective id (l ++ l') = effective id l ++ effective id l' := List.filter_append ..

theorem effective_eq_nil_iff {l : List Addition} :
    (∀ id, effective id l = []) ↔ ¬ ∃ a, a.quantity ≠ 0 ∧ a ∈ l := by
  simp only [effective, List.filter_eq_nil_iff]
  constructor
  · rintro h ⟨a, hq, ha⟩
    exact h a.inventoryId a ha (by simpa using hq)
  · intro h id a ha heff
    simp only [decide_eq_true_eq] at heff
    exact h ⟨a, heff.2, ha⟩

/-- Where one block leaves an inventory alone, the effective additions to it are the other's. -/
theorem effective_puts_filter {id : InventoryId} {b : Bool} :
    ∀ {l : List (Bool × Op Addition)}, (∀ a, (!b, .put a) ∈ l → a.inventoryId ≠ id) →
      effective id (puts l) = effective id (puts (l.filter fun o => o.1 = b))
  | [], _ => rfl
  | (b', o) :: l, h => by
    have ih := effective_puts_filter (l := l) fun a ha => h a (List.mem_cons_of_mem _ ha)
    by_cases hb : b' = b
    · subst hb
      rw [List.filter_cons_of_pos (by simp), ← List.singleton_append (l := l), puts_append,
        effective_append, ih, ← effective_append, ← puts_append]
      rfl
    · obtain rfl : b' = !b := by
        cases b <;> cases b' <;> simp_all
      rw [List.filter_cons_of_neg (by simp), ← ih, ← List.singleton_append (l := l), puts_append,
        effective_append]
      suffices hnil : effective id (puts [(!b, o)]) = [] by
        rw [hnil, List.nil_append]
      unfold effective
      rw [List.filter_eq_nil_iff]
      intro a ha heff
      simp only [decide_eq_true_eq] at heff
      obtain ⟨b', hb'⟩ := mem_puts.mp ha
      obtain ⟨rfl, rfl⟩ := Prod.mk.inj (List.mem_singleton.mp hb')
      exact h a List.mem_cons_self heff.1

theorem no_rollback_committedOnly (b : Bool) : (b, .rollback) ∉ committedOnly block := by
  intro h
  unfold committedOnly at h
  obtain ⟨b', -, h⟩ := List.mem_flatMap.mp h
  split_ifs at h with hc
  · obtain ⟨o, ho, he⟩ := List.mem_map.mp h
    obtain ⟨-, rfl⟩ := Prod.mk.inj he
    unfold Block.calls at ho
    simp [hc] at ho
  · cases h

/-- What the committing blocks write, one after the other. -/
theorem puts_committedOnly :
    puts (committedOnly block) =
      (if (block false).commits then (block false).additions else []) ++
        (if (block true).commits then (block true).additions else []) := by
  have hb : ∀ b, puts (if (block b).commits then (block b).calls.map fun o => (b, o) else []) =
      if (block b).commits then (block b).additions else [] := by
    intro b
    split_ifs
    · unfold puts
      rw [List.filterMap_map]
      exact written_calls (block b)
    · rfl
  unfold committedOnly
  simp only [List.flatMap_cons, List.flatMap_nil, List.append_nil]
  rw [puts_append, hb, hb]

variable {s : InventoryTable}

/-- The table's content when both blocks have finished, if only those that commit are run. -/
theorem content_committedOnly (hn : Numbered s) :
    (after sharedStep { table := s } (committedOnly block)).table.content =
      (puts (committedOnly block)).foldl TableContent.apply s.content := by
  rw [content_after hn, now_of_no_rollback _ _ no_rollback_committedOnly]
  rfl

/-- Both blocks commit: every write stands, and the blocks' writes fall on different
inventories. -/
theorem isolated_of_commits (hn : Numbered s) (h : Interleaves ops block)
    (hc : ∀ b, (block b).commits = true)
    (hdisj : ∀ a ∈ (block false).additions, ∀ a' ∈ (block true).additions,
      a.inventoryId ≠ a'.inventoryId) :
    SameView (after sharedStep { table := s } ops).table
      (after sharedStep { table := s } (committedOnly block)).table := by
  have hno : ∀ b, (b, .rollback) ∉ ops := by
    intro b
    obtain ⟨l₁, l₂, l₃, ha⟩ := h.around b
    exact ha.no_rollback (hc b)
  have hops := content_after hn ops
  rw [now_of_no_rollback _ _ hno] at hops
  rw [sameView_foldl_iff hops (content_committedOnly hn), puts_committedOnly, hc, hc]
  intro id
  rw [if_pos rfl, if_pos rfl, effective_append]
  have hnil : ∀ {b : Bool}, (∀ a ∈ (block !b).additions, a.inventoryId ≠ id) →
      effective id (block !b).additions = [] ∧
        effective id (puts ops) = effective id (block b).additions := by
    intro b hb
    constructor
    · unfold effective
      rw [List.filter_eq_nil_iff]
      intro a ha heff
      simp only [decide_eq_true_eq] at heff
      exact hb a ha heff.1
    · rw [← h.puts_filter b]
      refine effective_puts_filter fun a ha => hb a ?_
      rw [← h.puts_filter, mem_puts]
      exact ⟨!b, List.mem_filter.mpr ⟨ha, by simp⟩⟩
  by_cases hid : ∃ a ∈ (block false).additions, a.inventoryId = id
  · obtain ⟨a, ha, rfl⟩ := hid
    obtain ⟨h0, h1⟩ := hnil (b := false) fun a' ha' he => hdisj a ha a' ha' he.symm
    rw [Bool.not_false] at h0
    rw [h1, h0, List.append_nil]
  · obtain ⟨h0, h1⟩ := hnil (b := true) fun a' ha' he => hid ⟨a', ha', he⟩
    rw [Bool.not_true] at h0
    rw [h1, h0, List.nil_append]

theorem filter_of_all_other {l : List (Bool × Op Addition)} {x : Bool} (h : ∀ o ∈ l, o.1 = !x) :
    (l.filter fun o => o.1 = !x) = l := by
  rw [List.filter_eq_self]
  intro o ho
  simpa using h o ho

/-- Neither block rolls back where the one has no mark and the other does not. -/
theorem no_rollback_of_no_marks {x : Bool} {l : List (Bool × Op Addition)}
    (hl : ∀ o ∈ l, ¬ Marks x o) (hother : (!x, .rollback) ∉ l) : ∀ b, (b, .rollback) ∉ l := by
  have hown : (x, .rollback) ∉ l := fun hmem => hl _ hmem marks_rollback
  exact (Bool.forall_bool' x).mpr ⟨hown, hother⟩

/-- Only block `x` rolls back: what the other wrote in the meantime is lost. -/
theorem isolated_iff_of_one_rollback (hn : Numbered s) (h : Interleaves ops block) {x : Bool}
    (hx : (block x).commits = false) (hy : (block !x).commits = true) :
    SameView (after sharedStep { table := s } ops).table
        (after sharedStep { table := s } (committedOnly block)).table ↔
      ¬ Disturbs ops block x := by
  obtain ⟨l₁, l₂, l₃, ha⟩ := h.around x
  obtain ⟨m₁, m₂, m₃, hb⟩ := h.around !x
  have heq := ha.eq_rollback hx
  obtain ⟨hm₁, hm₂, hm₃⟩ := ha.no_marks
  have h₁ := no_rollback_of_no_marks hm₁ fun hmem =>
    hb.no_rollback hy (by rw [heq]; simp [hmem])
  have h₃ := no_rollback_of_no_marks hm₃ fun hmem =>
    hb.no_rollback hy (by rw [heq]; simp [hmem])
  -- what is left is written before the begin or after the rollback
  have hops : (after sharedStep { table := s } ops).table.content =
      (puts l₁ ++ puts l₃).foldl TableContent.apply s.content := by
    rw [content_after hn, heq, show l₁ ++ (x, Op.begin) :: l₂ ++ (x, .rollback) :: l₃ =
      (l₁ ++ (x, .begin) :: l₂ ++ [(x, .rollback)]) ++ l₃ by simp, after_append,
      now_of_no_rollback _ _ h₃, now_of_rollback x l₁ l₂ _ hm₂, now_of_no_rollback _ _ h₁,
      List.foldl_append]
    rfl
  have hy_adds : puts (committedOnly block) =
      puts l₁ ++ (puts (l₂.filter fun o => o.1 = !x) ++ puts l₃) := by
    have hputs := h.puts_filter !x
    rw [heq] at hputs
    simp only [List.filter_append, List.filter_cons, puts_append,
      filter_of_all_other ha.before, filter_of_all_other ha.after] at hputs
    rw [puts_committedOnly]
    cases x
    · rw [Bool.not_false] at hy
      simpa [hx, hy] using hputs.symm
    · rw [Bool.not_true] at hy
      simpa [hx, hy] using hputs.symm
  rw [sameView_foldl_iff hops (content_committedOnly hn), hy_adds, ha.disturbs_iff hx]
  have hlost : (∀ id, effective id (puts l₁ ++ puts l₃) =
      effective id (puts l₁ ++ (puts (l₂.filter fun o => o.1 = !x) ++ puts l₃))) ↔
      ∀ id, effective id (puts (l₂.filter fun o => o.1 = !x)) = [] := by
    refine forall_congr' fun id => ?_
    simp only [effective_append]
    rw [List.append_cancel_left_eq, eq_comm, List.append_left_eq_self]
  rw [hlost, effective_eq_nil_iff, not_iff_not]
  constructor
  · rintro ⟨a, hq, hmem⟩
    obtain ⟨b, hmem⟩ := mem_puts.mp hmem
    obtain ⟨hmem, hb⟩ := List.mem_filter.mp hmem
    simp only [decide_eq_true_eq] at hb
    subst hb
    exact .inl ⟨hy, a, hq, hmem⟩
  · rintro (⟨-, a, hq, hmem⟩ | ⟨-, hroll⟩)
    · exact ⟨a, hq, mem_puts.mpr ⟨!x, List.mem_filter.mpr ⟨hmem, by simp⟩⟩⟩
    · exact absurd (by rw [heq]; simp [hroll]) (hb.no_rollback hy)

/-- The last call of a run ends one of the blocks. -/
theorem exists_last (h : Interleaves ops block) :
    ∃ x l₁ l₂, Around ops block x l₁ l₂ [] := by
  rcases List.eq_nil_or_concat ops with rfl | ⟨front, ⟨x, o⟩, rfl⟩
  · have := h false
    simp [Block.calls] at this
  · obtain ⟨l₁, l₂, l₃, ha⟩ := h.around x
    rcases List.eq_nil_or_concat l₃ with rfl | ⟨l, o', rfl⟩
    · exact ⟨x, l₁, l₂, ha⟩
    · -- the last call would be the other block's
      have heq := ha.eq
      rw [List.concat_eq_append, List.concat_eq_append, ← List.cons_append,
        ← List.append_assoc] at heq
      have hlast := (List.append_inj' heq rfl).2
      have hafter := ha.after o' (by simp)
      rw [List.singleton_inj] at hlast
      rw [← hlast] at hafter
      cases x <;> cases hafter

theorem eq_nil_of_tags {l : List (Bool × Op Addition)} {x : Bool} (h : ∀ o ∈ l, o.1 = !x)
    (h' : ∀ o ∈ l, o.1 = !!x) : l = [] := by
  rcases l with _ | ⟨o, l⟩
  · rfl
  · have h₁ := h o List.mem_cons_self
    have h₂ := h' o List.mem_cons_self
    rw [h₁] at h₂
    cases x <;> cases h₂

/-- The other block has come and gone before `x` begins: the table is back where it was. -/
theorem now_of_gone {x : Bool} {l₁ l₂ m₁ m₂ m₃ : List (Bool × Op Addition)} (c : TableContent)
    (ha : Around ops block x l₁ l₂ []) (hb : Around ops block (!x) m₁ m₂ m₃)
    (hc : ∀ b, (block b).commits = false) (hroll : (!x, .rollback) ∈ l₁) :
    (after (step TableContent.apply) (start c) l₁).now = c := by
  obtain ⟨hn₁, hn₂, hn₃⟩ := hb.no_marks
  obtain ⟨p, q, rfl⟩ := List.append_of_mem hroll
  have hp : m₁ ++ (!x, .begin) :: m₂ = p ∧
      m₃ = q ++ (x, .begin) :: l₂ ++ [(x, .rollback)] := by
    have heq := (hb.eq_rollback (hc !x)).symm.trans (ha.eq_rollback (hc x))
    rw [List.append_assoc (p ++ _), List.append_assoc p, List.cons_append,
      List.append_cons_inj_of_notMem _ fun hmem => hn₃ _ hmem marks_rollback] at heq
    · exact ⟨heq.1, by simpa using heq.2.2⟩
    · intro hmem
      simp only [List.mem_append, List.mem_cons, Prod.mk.injEq, reduceCtorEq, and_false,
        false_or] at hmem
      rcases hmem with hmem | hmem
      · exact hn₁ _ hmem marks_rollback
      · exact hn₂ _ hmem marks_rollback
  obtain ⟨rfl, rfl⟩ := hp
  have hm₁ : m₁ = [] := eq_nil_of_tags (x := x) (fun o ho => ha.before o (by simp [ho])) hb.before
  have hq : q = [] := eq_nil_of_tags (x := x) (fun o ho => ha.before o (by simp [ho]))
    fun o ho => hb.after o (by simp [ho])
  subst hm₁ hq
  rw [now_of_rollback (!x) [] m₂ _ hn₂]
  rfl

/-- Both blocks roll back, `x` last: what the other wrote before `x` began comes back if it was
rolled back since. -/
theorem isolated_iff_of_both_rollback (hn : Numbered s) (h : Interleaves ops block)
    (hc : ∀ b, (block b).commits = false) {x : Bool} {l₁ l₂ : List (Bool × Op Addition)}
    (ha : Around ops block x l₁ l₂ []) :
    SameView (after sharedStep { table := s } ops).table
        (after sharedStep { table := s } (committedOnly block)).table ↔
      ¬ Disturbs ops block x := by
  have heq := ha.eq_rollback (hc x)
  obtain ⟨m₁, m₂, m₃, hb⟩ := h.around !x
  obtain ⟨hm₁, hm₂, -⟩ := ha.no_marks
  have hcount := hb.count_rollback (hc !x)
  have hops : (after sharedStep { table := s } ops).table.content =
      (after (step TableContent.apply) (start s.content) l₁).now := by
    rw [content_after hn, heq, now_of_rollback x l₁ l₂ _ hm₂]
  have hnone : puts (committedOnly block) = [] := by
    rw [puts_committedOnly, hc, hc]
    rfl
  have hdist : Disturbs ops block x ↔
      (∃ a, a.quantity ≠ 0 ∧ (!x, .put a) ∈ l₁) ∧ (!x, .rollback) ∈ l₂ := by
    rw [ha.disturbs_iff (hc x), hc]
    simp
  by_cases hroll : (!x, .rollback) ∈ l₁
  · have hroll₂ : (!x, .rollback) ∉ l₂ := by
      intro hmem
      have h₁ := List.count_pos_iff.mpr hroll
      have h₂ := List.count_pos_iff.mpr hmem
      rw [heq] at hcount
      simp only [List.count_append, List.count_cons] at hcount
      omega
    rw [now_of_gone s.content ha hb hc hroll] at hops
    have hsame : SameView (after sharedStep { table := s } ops).table
        (after sharedStep { table := s } (committedOnly block)).table := by
      refine (sameView_foldl_iff (l := []) hops (content_committedOnly hn)).mpr fun id => ?_
      rw [hnone]
    rw [hdist]
    exact ⟨fun _ hd => hroll₂ hd.2, fun _ => hsame⟩
  · have hroll₂ : (!x, .rollback) ∈ l₂ := by
      have hmem : (!x, .rollback) ∈ ops := List.count_pos_iff.mp (by omega)
      rw [heq] at hmem
      simpa [hroll] using hmem
    rw [now_of_no_rollback _ _ (no_rollback_of_no_marks hm₁ hroll)] at hops
    rw [sameView_foldl_iff hops (content_committedOnly hn), hnone, hdist]
    show (∀ id, effective id (puts l₁) = []) ↔ _
    rw [effective_eq_nil_iff, not_iff_not]
    constructor
    · rintro ⟨a, hq, hmem⟩
      obtain ⟨b, hmem⟩ := mem_puts.mp hmem
      obtain rfl : b = !x := ha.before _ hmem
      exact ⟨⟨a, hq, hmem⟩, hroll₂⟩
    · rintro ⟨⟨a, hq, hmem⟩, -⟩
      exact ⟨a, hq, mem_puts.mpr ⟨_, hmem⟩⟩

/-- The block that rolls back first disturbs nothing that the last rollback leaves. -/
theorem not_disturbs_first (h : Interleaves ops block) (hc : ∀ b, (block b).commits = false)
    {x : Bool} {l₁ l₂ : List (Bool × Op Addition)} (ha : Around ops block x l₁ l₂ []) :
    ¬ Disturbs ops block !x := by
  obtain ⟨m₁, m₂, m₃, hb⟩ := h.around !x
  rw [hb.disturbs_iff (hc !x), Bool.not_not, hc]
  rintro (⟨hcom, -⟩ | ⟨-, hmem⟩)
  · cases hcom
  · obtain ⟨hm₁, hm₂, -⟩ := ha.no_marks
    have heq := (ha.eq_rollback (hc x)).symm.trans (hb.eq_rollback (hc !x))
    have hdrop := congrArg List.dropLast heq
    rw [List.dropLast_concat, List.dropLast_append_of_ne_nil (by simp)] at hdrop
    have hin : (x, .rollback) ∈ l₁ ++ (x, Op.begin) :: l₂ := by
      rw [hdrop]
      simp [hmem]
    simp only [List.mem_append, List.mem_cons, Prod.mk.injEq, reduceCtorEq, and_false,
      false_or] at hin
    rcases hin with hin | hin
    · exact hm₁ _ hin marks_rollback
    · exact hm₂ _ hin marks_rollback

/-- Two blocks that touch different inventories, interleaved in any way on a table reached by any
calls, leave what the committing ones alone leave, exactly if neither block's rollback falls on
writes of the other. -/
theorem isolation_iff (calls : List StorageCall) (block : Bool → Block)
    (ops : List (Bool × Op Addition)) (h : Interleaves ops block)
    (hdisj : ∀ a ∈ (block false).additions, ∀ a' ∈ (block true).additions,
      a.inventoryId ≠ a'.inventoryId) :
    SameView
        (after sharedStep { table := after storageStep ({} : InventoryTable) calls } ops).table
        (after sharedStep { table := after storageStep ({} : InventoryTable) calls }
          (committedOnly block)).table ↔
      ∀ x, ¬ Disturbs ops block x := by
  have hn := numbered_after calls
  generalize after storageStep ({} : InventoryTable) calls = s at hn ⊢
  have hcommits : ∀ x, (block x).commits = true → ¬ Disturbs ops block x := by
    intro x hx
    obtain ⟨l₁, l₂, l₃, ha⟩ := h.around x
    exact ha.not_disturbs_of_commits hx
  -- only the blocks that roll back can disturb
  have hone : ∀ x, (block x).commits = false → (block !x).commits = true →
      (SameView (after sharedStep { table := s } ops).table
        (after sharedStep { table := s } (committedOnly block)).table ↔
          ∀ x, ¬ Disturbs ops block x) := by
    intro x hx hy
    rw [isolated_iff_of_one_rollback hn h hx hy]
    exact ⟨fun hd => (Bool.forall_bool' x).mpr ⟨hd, hcommits _ hy⟩, fun hd => hd x⟩
  rcases hf : (block false).commits with _ | _
  · rcases ht : (block true).commits with _ | _
    · have hc : ∀ b, (block b).commits = false := Bool.forall_bool.mpr ⟨hf, ht⟩
      obtain ⟨x, l₁, l₂, ha⟩ := exists_last h
      rw [isolated_iff_of_both_rollback hn h hc ha]
      have hfirst := not_disturbs_first h hc ha
      exact ⟨fun hd => (Bool.forall_bool' x).mpr ⟨hd, hfirst⟩, fun hd => hd x⟩
    · exact hone false hf ht
  · rcases ht : (block true).commits with _ | _
    · exact hone true ht hf
    · have hc : ∀ b, (block b).commits = true := Bool.forall_bool.mpr ⟨hf, ht⟩
      exact ⟨fun _ b => hcommits b (hc b), fun _ => isolated_of_commits hn h hc hdisj⟩

/-- One block adds to inventory 1 and rolls back, the other adds to inventory 2 and commits. -/
def lossyBlocks : Bool → Block
  | false => ⟨[⟨1, 1, 5, []⟩], false⟩
  | true => ⟨[⟨2, 1, 3, []⟩], true⟩

/-- The second block runs within the first. -/
def lossyOps : List (Bool × Op Addition) :=
  [(false, .begin), (true, .begin), (true, .put ⟨2, 1, 3, []⟩), (true, .commit),
    (false, .put ⟨1, 1, 5, []⟩), (false, .rollback)]

theorem isolation_iff_nested :
    Interleaves lossyOps lossyBlocks ∧
      (SameView (after sharedStep { table := {} } lossyOps).table
          (after sharedStep { table := {} } (committedOnly lossyBlocks)).table ↔
        ∀ x, ¬ Disturbs lossyOps lossyBlocks x) :=
  have h : Interleaves lossyOps lossyBlocks := fun b => by cases b <;> rfl
  ⟨h, isolation_iff [] lossyBlocks lossyOps h (by decide)⟩

/-- The rollback of the first block loses what the second has committed. -/
theorem rollback_loses_committed :
    ¬ ∀ (calls : List StorageCall) (block : Bool → Block) (ops : List (Bool × Op Addition)),
      Interleaves ops block →
      (∀ a ∈ (block false).additions, ∀ a' ∈ (block true).additions,
        a.inventoryId ≠ a'.inventoryId) →
      SameView
        (after sharedStep { table := after storageStep ({} : InventoryTable) calls } ops).table
        (after sharedStep { table := after storageStep ({} : InventoryTable) calls }
          (committedOnly block)).table := by
  intro hall
  have h := hall [] lossyBlocks lossyOps (fun b => by cases b <;> rfl) (by decide)
  have hload := congrArg Option.isSome (h 2).1
  exact absurd hload (by decide +kernel)

end Isolation

end DungeonHub
