import Mathlib

/-!
# Transactions within transactions

A machine whose calls may be enclosed in transactions, each of them begun and ended within the one
around it. A transaction that is rolled back takes everything back that has happened since it began,
so what is left are the calls that no such transaction encloses.
-/

namespace Nested

/-- Calls, and transactions around some of them that end in a commit or in a rollback. -/
inductive Script (U : Type*) where
  | done
  | call (u : U) (rest : Script U)
  | block (commits : Bool) (body rest : Script U)

variable {M T S U : Type*}

/-- The calls that are not rolled back, in order. -/
def Script.kept : Script U → List U
  | .done => []
  | .call u rest => u :: rest.kept
  | .block commits body rest => (if commits then body.kept else []) ++ rest.kept

/-- What can be asked of the machine. `begin` hands out what the end of the transaction takes. -/
structure Machine (M T U : Type*) where
  begin : M → T × M
  commit : M → T → M
  rollback : M → T → M
  call : M → U → M

/-- The machine after a script. -/
def Machine.run (m : Machine M T U) (s : M) : Script U → M
  | .done => s
  | .call u rest => m.run (m.call s u) rest
  | .block commits body rest =>
    let r := m.begin s
    let s := m.run r.2 body
    m.run (if commits then m.commit s r.1 else m.rollback s r.1) rest

variable [DecidableEq T]

/-- A state holds a content, and for each open transaction the content that it began with. The calls
see nothing but the content. -/
structure Machine.Lawful (m : Machine M T U) (good : M → Prop) (content : M → S)
    (saved : M → T → Option S) (f : S → U → S) : Prop where
  begins : ∀ {s}, good s → good (m.begin s).2 ∧ content (m.begin s).2 = content s ∧
    saved s (m.begin s).1 = none ∧
    saved (m.begin s).2 = Function.update (saved s) (m.begin s).1 (some (content s))
  commits : ∀ {s t old}, good s → saved s t = some old → good (m.commit s t) ∧
    content (m.commit s t) = content s ∧ saved (m.commit s t) = Function.update (saved s) t none
  rolls : ∀ {s t old}, good s → saved s t = some old → good (m.rollback s t) ∧
    content (m.rollback s t) = old ∧ saved (m.rollback s t) = Function.update (saved s) t none
  calls : ∀ {s} (u), good s → good (m.call s u) ∧ content (m.call s u) = f (content s) u ∧
    saved (m.call s u) = saved s

variable {m : Machine M T U} {good : M → Prop} {content : M → S} {saved : M → T → Option S}
  {f : S → U → S}

/-- The content after calls without a transaction. -/
theorem Machine.Lawful.content_foldl (h : m.Lawful good content saved f) :
    ∀ (us : List U) {s : M}, good s → content (us.foldl m.call s) = us.foldl f (content s)
  | [], _, _ => rfl
  | u :: us, s, hs => by
    obtain ⟨hgood, hcontent, -⟩ := h.calls u hs
    rw [List.foldl_cons, h.content_foldl us hgood, hcontent, List.foldl_cons]

/-- A script comes to the calls that it keeps, and leaves no transaction of its own open, nor does
it touch those of others. -/
theorem Machine.Lawful.run (h : m.Lawful good content saved f) :
    ∀ (script : Script U) {s : M}, good s → good (m.run s script) ∧
      content (m.run s script) = script.kept.foldl f (content s) ∧
      saved (m.run s script) = saved s
  | .done, _, hs => ⟨hs, rfl, rfl⟩
  | .call u rest, s, hs => by
    obtain ⟨hgood, hcontent, hsaved⟩ := h.calls u hs
    obtain ⟨hend, hrest, hkeeps⟩ := h.run rest hgood
    exact ⟨hend, by rw [Machine.run, hrest, hcontent]; rfl, hkeeps.trans hsaved⟩
  | .block commits body rest, s, hs => by
    obtain ⟨hgood, hcontent, hnew, hopened⟩ := h.begins hs
    obtain ⟨hdone, hbody, hkeeps⟩ := h.run body hgood
    have hmine : saved (m.run (m.begin s).2 body) (m.begin s).1 = some (content s) := by
      rw [hkeeps, hopened, Function.update_self]
    have hclosed : Function.update (saved (m.run (m.begin s).2 body)) (m.begin s).1 none =
        saved s := by
      rw [hkeeps, hopened, Function.update_idem, ← hnew, Function.update_eq_self]
    cases commits with
    | true =>
      obtain ⟨hover, hlast, hgone⟩ := h.commits hdone hmine
      obtain ⟨hend, hrest, hsame⟩ := h.run rest hover
      refine ⟨hend, ?_, hsame.trans (hgone.trans hclosed)⟩
      rw [Machine.run, Script.kept]
      simp only [if_true, List.foldl_append]
      rw [hrest, hlast, hbody, hcontent]
    | false =>
      obtain ⟨hover, hlast, hgone⟩ := h.rolls hdone hmine
      obtain ⟨hend, hrest, hsame⟩ := h.run rest hover
      refine ⟨hend, ?_, hsame.trans (hgone.trans hclosed)⟩
      rw [Machine.run, Script.kept]
      simp only [Bool.false_eq_true, if_false, List.nil_append]
      rw [hrest, hlast]

end Nested
