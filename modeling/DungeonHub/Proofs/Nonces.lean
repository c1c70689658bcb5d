import DungeonHub.Lib.Recent
import DungeonHub.Lib.Run
import DungeonHub.Session

/-!
# The nonces a session remembers

`nonce_order_` is the window of the last nonces recorded, and `nonce_cache_` its elements: a nonce
is refused exactly if it is among the last ones accepted.
-/

namespace DungeonHub

open Run Recent

namespace Session

/-- With the cache holding what is in the queue, the loop leaves both with the newest of it. -/
theorem forgetNonces_eq (limit : ℕ) :
    ∀ (order : List UInt64) (cache : Dict UInt64 Unit), order.Nodup →
      (∀ n, n ∈ cache ↔ n ∈ order) →
      (forgetNonces limit order cache).1 = order.rtake limit ∧
        ∀ n, n ∈ (forgetNonces limit order cache).2 ↔ n ∈ order.rtake limit
  | [], cache, _, hcache => by
    unfold forgetNonces
    rw [List.rtake_nil]
    exact ⟨rfl, hcache⟩
  | oldest :: order, cache, hnodup, hcache => by
    unfold forgetNonces
    rw [List.nodup_cons] at hnodup
    split_ifs with hlen
    · rw [rtake_cons_of_lt hlen]
      refine forgetNonces_eq limit order (cache.erase oldest) hnodup.2 fun n => ?_
      rw [Dict.mem_erase, hcache, List.mem_cons]
      constructor
      · rintro ⟨hne, rfl | hmem⟩
        · exact absurd rfl hne
        · exact hmem
      · intro hmem
        exact ⟨fun h => hnodup.1 (h ▸ hmem), .inr hmem⟩
    · rw [rtake_of_length_le (not_lt.mp hlen)]
      exact ⟨rfl, hcache⟩

/-- The session remembers the last of the nonces it has accepted. -/
structure Remembers (s : Session) (accepted : List UInt64) : Prop where
  order : s.nonceOrder = accepted.rtake s.config.nonceCacheLimit
  nodup : s.nonceOrder.Nodup
  cache : ∀ n, n ∈ s.nonceCache ↔ n ∈ s.nonceOrder

theorem remembers_new (config : SessionConfig) (now : Time) :
    Remembers (new config now) [] where
  order := (List.rtake_nil _).symm
  nodup := List.nodup_nil
  cache n := by simp [new]

/-- One call. -/
theorem Remembers.record {s : Session} {accepted : List UInt64} (h : Remembers s accepted)
    (nonce : UInt64) :
    ((s.recordNonce nonce).1 = false ↔ nonce ∈ accepted.rtake s.config.nonceCacheLimit) ∧
      (s.recordNonce nonce).2.config = s.config ∧
      Remembers (s.recordNonce nonce).2 (offer s.config.nonceCacheLimit accepted nonce) := by
  have hmem : nonce ∈ s.nonceCache ↔ nonce ∈ accepted.rtake s.config.nonceCacheLimit := by
    rw [h.cache, h.order]
  unfold recordNonce offer
  by_cases hseen : nonce ∈ s.nonceCache
  · rw [if_pos hseen, if_pos (hmem.mp hseen)]
    exact ⟨by simp [hmem.mp hseen], rfl, h⟩
  · have hnot : nonce ∉ accepted.rtake s.config.nonceCacheLimit := fun hin => hseen (hmem.mpr hin)
    have hnodup : (s.nonceOrder ++ [nonce]).Nodup := by
      rw [← List.concat_eq_append]
      exact h.nodup.concat (h.order ▸ hnot)
    have hcache : ∀ n, n ∈ s.nonceCache.insert nonce () ↔ n ∈ s.nonceOrder ++ [nonce] := by
      intro n
      rw [Dict.mem_insert, h.cache, List.mem_append, List.mem_singleton, or_comm, eq_comm]
    have hforget := forgetNonces_eq s.config.nonceCacheLimit _ _ hnodup hcache
    rw [if_neg hseen, if_neg hnot]
    rcases hr : forgetNonces s.config.nonceCacheLimit (s.nonceOrder ++ [nonce]) _ with
      ⟨order, cache⟩
    rw [hr] at hforget
    obtain ⟨rfl, hcache'⟩ := hforget
    have hwindow : (s.nonceOrder ++ [nonce]).rtake s.config.nonceCacheLimit =
        (accepted ++ [nonce]).rtake s.config.nonceCacheLimit := by
      rw [rtake_concat accepted, h.order]
    exact ⟨by simp [hnot], rfl, hwindow, hnodup.sublist (List.drop_sublist _ _), hcache'⟩

/-- The session after one call. -/
def nonceStep (s : Session) (nonce : UInt64) : Session := (s.recordNonce nonce).2

/-- The nonces of a run for which the call returned true. -/
def acceptedNonces (l : List (Session × UInt64)) : List UInt64 :=
  (l.filter fun x => (x.1.recordNonce x.2).1).map Prod.snd

theorem acceptedNonces_concat (l : List (Session × UInt64)) (s : Session) (nonce : UInt64) :
    acceptedNonces (l ++ [(s, nonce)]) =
      acceptedNonces l ++ if (s.recordNonce nonce).1 then [nonce] else [] := by
  unfold acceptedNonces
  rw [List.filter_append, List.map_append]
  rcases hok : (s.recordNonce nonce).1 with _ | _ <;> simp [hok]

/-- Through any calls, a nonce is refused exactly if it is among the last ones accepted, and queue
and cache both hold these and no others. -/
theorem nonce_window (config : SessionConfig) (now : Time) (nonces : List UInt64) (nonce : UInt64) :
    let s := after nonceStep (new config now) nonces
    let accepted := acceptedNonces (trail nonceStep (new config now) nonces)
    ((s.recordNonce nonce).1 = false ↔ nonce ∈ accepted.rtake config.nonceCacheLimit) ∧
      (∀ n, n ∈ s.nonceCache ↔ n ∈ s.nonceOrder) ∧ s.nonceOrder.Nodup ∧
      s.nonceOrder.length ≤ config.nonceCacheLimit := by
  intro s accepted
  have hrun : s.config = config ∧ Remembers s accepted := by
    refine history (I := fun s l => s.config = config ∧ Remembers s (acceptedNonces l))
      (fun s l nonce h => ?_) nonces (new config now) [] ⟨rfl, remembers_new config now⟩
    obtain ⟨hiff, hconfig, hnext⟩ := h.2.record nonce
    have hoffer : acceptedNonces (l ++ [(s, nonce)]) =
        offer s.config.nonceCacheLimit (acceptedNonces l) nonce := by
      rw [acceptedNonces_concat]
      unfold offer
      split_ifs with hok hmem hmem
      · rw [hiff.mpr hmem] at hok
        cases hok
      · rfl
      · exact List.append_nil _
      · exact absurd (Bool.eq_false_iff.mpr hok) (mt hiff.mp hmem)
    exact ⟨hconfig.trans h.1, hoffer ▸ hnext⟩
  obtain ⟨hconfig, hremembers⟩ := hrun
  have hiff := (hremembers.record nonce).1
  rw [hconfig] at hiff
  refine ⟨hiff, hremembers.cache, hremembers.nodup, ?_⟩
  rw [hremembers.order, hconfig]
  exact length_rtake_le _ _

end Session

end DungeonHub
