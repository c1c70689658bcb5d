import DungeonHub.Proofs.Packet

/-!
# One reward for each instance

The grants on record are only ever added to, and a result is accepted only for an instance without
one, so no instance pays twice, whoever asks and however often.
-/

namespace DungeonHub

open Run Wire

namespace Server

variable {σ : Type}

section Grants

theorem takeOver_grants (s : Server σ) (existing id : ℕ) :
    (s.takeOver existing id).instanceRewardGrants = s.instanceRewardGrants := by
  unfold takeOver
  split <;> rfl

theorem reclaim_grants (s : Server σ) (userId : Str) (id : ℕ) :
    (s.reclaim userId id).instanceRewardGrants = s.instanceRewardGrants := by
  unfold reclaim
  split
  · rfl
  · exact s.takeOver_grants _ id

/-- A packet takes no grant back. -/
theorem effect_grants {s s' : Server σ} {id : ℕ} {header : FrameHeader} {payload : Bytes}
    {now : Time} (h : Effect s id header payload now s') {instanceId : ℕ}
    (hi : instanceId ∈ s.instanceRewardGrants) : instanceId ∈ s'.instanceRewardGrants := by
  cases h with
  | calm tokenService h => rwa [h.grants]
  | login tokenService context h => exact hi
  | logout => exact hi
  | reconnect request userId ht h hr =>
    show instanceId ∈ (s.reclaim userId id).instanceRewardGrants
    rwa [reclaim_grants]
  | clash request userId h hr =>
    show instanceId ∈ (s.reclaim userId id).instanceRewardGrants
    rwa [reclaim_grants]
  | enter charId instanceId h => rwa [h.grants]
  | grant instanceId grantId h =>
    rw [h.grants]
    exact Std.ExtTreeMap.mem_insert.mpr (.inr hi)
  | guild call hc h => rwa [h.grants]

variable [InventoryStorage σ]

theorem handlePacket_grants (s : Server σ) (id : ℕ) (header : FrameHeader) (payload : Bytes)
    (now : Time) {instanceId : ℕ} (hi : instanceId ∈ s.instanceRewardGrants) :
    instanceId ∈ (s.handlePacket id header payload now).2.instanceRewardGrants := by
  rcases s.handlePacket_effect id header payload now with
    ⟨-, h⟩ | ⟨session, gated, session', -, -, ⟨-, h⟩ | ⟨inner, -, h⟩⟩
  · rwa [h]
  · rw [h.grants]
    exact hi
  · exact effect_grants h hi

/-- No event takes a grant back. -/
theorem step_grants (s : Server σ) (e : ServerEvent) {instanceId : ℕ}
    (hi : instanceId ∈ s.instanceRewardGrants) :
    instanceId ∈ (serverStep s e).instanceRewardGrants := by
  refine step_preserves (I := fun s => instanceId ∈ s.instanceRewardGrants) ?_
    (fun s id hi => hi) hi (fun config now => hi) (fun call _ => hi) ?_
  · intro s s' h hi
    rwa [h.grants]
  · rintro id header payload now rfl
    exact s.handlePacket_grants id header payload now hi

end Grants

section Once

variable [InventoryStorage σ]

/-- The event is a dungeon result on a session that is bound to the instance. -/
def ResultFor (s : Server σ) (e : ServerEvent) (instanceId : ℕ) : Prop :=
  ∃ id header payload now, e = .packet id header payload now ∧
    PacketType.ofCode header.type = some .dungeonResultNotify ∧
    s.sessionInstances[id]? = some instanceId

/-- The event is a dungeon result for the instance, and is answered with success. -/
def Pays (s : Server σ) (e : ServerEvent) (instanceId : ℕ) : Prop :=
  ∃ id header payload now response, e = .packet id header payload now ∧
    PacketType.ofCode header.type = some .dungeonResultNotify ∧
    s.sessionInstances[id]? = some instanceId ∧
    (s.handlePacket id header payload now).1 =
      some (Answer.frame ⟨.dungeonResultRes, response⟩ header.version) ∧
    response.success = true

theorem encodeFrame_type {type type' version version' : UInt16} {p p' : Bytes}
    (h : encodeFrame type version p = encodeFrame type' version' p') :
    writeU16 type = writeU16 type' := by
  have h4 := congrArg (fun bs => (bs.drop 4).take 2) h
  simpa [encodeFrame, writeU32, writeU16] using h4

/-- A result that is answered with success is the first for its instance, which has a grant
then. -/
theorem pays_once {s : Server σ} {e : ServerEvent} {instanceId : ℕ} (h : Pays s e instanceId) :
    instanceId ∉ s.instanceRewardGrants ∧
      instanceId ∈ (serverStep s e).instanceRewardGrants := by
  obtain ⟨id, header, payload, now, response, rfl, ht, hbound, hanswer, hsuccess⟩ := h
  show _ ∧ instanceId ∈ (s.handlePacket id header payload now).2.instanceRewardGrants
  rcases s.handlePacket_cases id header payload now with
    ⟨-, heq⟩ | ⟨session, session', -, ⟨-, heq⟩ | ⟨reject, -, heq⟩ | ⟨inner, -, heq⟩⟩
  · rw [heq] at hanswer
    cases hanswer
  · rw [heq] at hanswer
    cases hanswer
  · rw [heq, Option.some.injEq] at hanswer
    have hne : writeU16 PacketType.versionReject.code ≠
        writeU16 PacketType.dungeonResultRes.code := by
      decide
    exact absurd (encodeFrame_type hanswer) hne
  · rw [heq, dispatch_result ht, Option.map_some, Option.some.injEq] at hanswer
    rw [heq, dispatch_result ht]
    rcases (s.receive id session' payload).handleResult_effect id inner with
      ⟨hf, -⟩ | ⟨-, instanceId', grantId, hbound', hfresh, hcalm⟩
    · rw [resultFrame_success hanswer, hsuccess] at hf
      cases hf
    · have hid : instanceId' = instanceId := by
        rw [← Option.some.injEq, ← hbound', ← hbound]
        rfl
      subst hid
      refine ⟨(Dict.not_mem_iff _ _).mpr hfresh, ?_⟩
      rw [hcalm.grants]
      exact Std.ExtTreeMap.mem_insert_self

variable [LawfulInventoryStorage σ]

theorem handleResult_keeps_storage {s : Server σ} {id : ℕ} {payload : Bytes}
    (h : (s.handleResult id payload).1.success = false) :
    (s.handleResult id payload).2.inventoryStorage = s.inventoryStorage := by
  rcases s.handleResult_cases id payload with ⟨_, _, _, _, -, -, heq⟩ | ⟨-, -, heq⟩
  · rw [heq] at h ⊢
    exact (grantResult_lawful ..).2 h
  · rw [heq]
    rfl

/-- A result that is not answered with success leaves the inventories alone. -/
theorem refused_keeps_storage {s : Server σ} {e : ServerEvent} {instanceId : ℕ}
    (hfor : ResultFor s e instanceId) (hno : ¬ Pays s e instanceId) :
    (serverStep s e).inventoryStorage = s.inventoryStorage := by
  obtain ⟨id, header, payload, now, rfl, ht, hbound⟩ := hfor
  show (s.handlePacket id header payload now).2.inventoryStorage = s.inventoryStorage
  rcases s.handlePacket_cases id header payload now with
    ⟨-, heq⟩ | ⟨session, session', -, ⟨-, heq⟩ | ⟨reject, -, heq⟩ | ⟨inner, -, heq⟩⟩
  · rw [heq]
  · rw [heq]
    rfl
  · rw [heq]
    rfl
  · rw [dispatch_result ht] at heq
    have hf : ((s.receive id session' payload).handleResult id inner).1.success = false := by
      by_contra hne
      refine hno ⟨id, header, payload, now, _, rfl, ht, hbound, ?_,
        Bool.eq_true_of_not_eq_false hne⟩
      rw [heq]
      rfl
    rw [heq]
    exact handleResult_keeps_storage hf

/-- In every run of a server, of the results for one instance at most one is answered with success,
and no other one changes an inventory. -/
theorem one_reward_per_instance (s : Server σ) (es : List ServerEvent) (instanceId : ℕ) :
    ((trail serverStep s es).Pairwise fun x y =>
      ¬ (Pays x.1 x.2 instanceId ∧ Pays y.1 y.2 instanceId)) ∧
    ∀ x ∈ trail serverStep s es, ResultFor x.1 x.2 instanceId → ¬ Pays x.1 x.2 instanceId →
      (serverStep x.1 x.2).inventoryStorage = x.1.inventoryStorage := by
  refine ⟨?_, fun x _ => refused_keeps_storage⟩
  have hrun := pairwise (I := fun _ : Server σ => True) (P := fun _ _ => True)
    (Q := fun s e t => Pays s e instanceId → instanceId ∈ t.instanceRewardGrants)
    (fun _ _ _ _ => trivial) (fun _ _ _ _ h => (pays_once h).2)
    (fun _ _ t f _ _ h hpays => t.step_grants f (h hpays)) es s trivial fun _ _ => trivial
  refine hrun.imp ?_
  rintro x y h ⟨hx, hy⟩
  exact (pays_once hy).1 (h hx)

/-- The first of two equal results pays. -/
theorem one_reward_asked_twice :
    Pays (after serverStep (still {}) playedAlone)
      (packetOf 1 .dungeonResultNotify (resultOf [⟨1, 2⟩])) 1 ∧
    (trail serverStep (after serverStep (still {}) playedAlone)
      [packetOf 1 .dungeonResultNotify (resultOf [⟨1, 2⟩]),
        packetOf 1 .dungeonResultNotify (resultOf [⟨1, 2⟩])]).Pairwise
      fun x y => ¬ (Pays x.1 x.2 1 ∧ Pays y.1 y.2 1) := by
  refine ⟨⟨1, headerOf .dungeonResultNotify (resultOf [⟨1, 2⟩]), resultOf [⟨1, 2⟩], 0,
    ⟨true, str "OK", str "Dungeon result recorded", str "result recorded"⟩, rfl, by decide,
    by decide +kernel, by decide +kernel, rfl⟩, ?_⟩
  exact (one_reward_per_instance (after serverStep (still {}) playedAlone) _ 1).1

end Once

end Server

end DungeonHub
