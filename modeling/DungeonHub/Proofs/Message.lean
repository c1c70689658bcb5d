import DungeonHub.Message
import DungeonHub.Proofs.Bytes

/-!
# Encoders and decoders of the messages

For each message the decoder reads back what the encoder wrote, whatever follows it in the payload
being refused, and what the decoder accepts is what the encoder would have written, but for the
first byte of a message that starts with a boolean.
-/

namespace DungeonHub

open Wire

/-- What ties a message's encoder and decoder together. -/
class LawfulMessage (α : Type) [Message α] : Prop where
  decode_append : ∀ (m : α) (rest : Bytes), Message.decode (Message.encode m ++ rest)
    = if rest = [] then .ok (Message.cut m) else .error .refused
  decode_inBounds : ∀ p, Message.decode (α := α) p ≠ .error .outOfBounds
  encode_of_decode : ∀ p (m : α), Message.decode p = .ok m →
    Message.encode m = normalise (Message.flagged α) p
  cut_eq : ∀ m : α, (∀ n ∈ Message.sizes m, n ≤ maxU16) → Message.cut m = m

section Lawful

variable {α : Type} [Message α]

theorem LawfulMessage.ofWhole (r : Reader α) (hd : Message.decode (α := α) = r.whole)
    (hf : Message.flagged α = false) (hy : ∀ m : α, Yields r (Message.encode m) (Message.cut m))
    (he : Exact r fun (m : α) bs => bs = Message.encode m)
    (hc : ∀ m : α, (∀ n ∈ Message.sizes m, n ≤ maxU16) → Message.cut m = m) :
    LawfulMessage α where
  decode_append m rest := by
    rw [hd]
    exact (hy m).whole rest
  decode_inBounds p := by
    rw [hd]
    exact (he.whole p).1
  encode_of_decode p m h := by
    rw [hd] at h
    rw [hf, ← (he.whole p).2 m h]
    cases p <;> simp [normalise]
  cut_eq := hc

theorem LawfulMessage.ofFlagged {fields : Bool → Reader α} {body : α → Bytes} (flag : α → Bool)
    (hd : Message.decode (α := α) = decodeFlagged fields) (hf : Message.flagged α = true)
    (hb : ∀ m : α, Message.encode m = writeFlag (flag m) ++ body m)
    (hy : ∀ m : α, Yields (fields (flag m)) (body m) (Message.cut m))
    (he : ∀ f, Exact (fields f) fun (m : α) bs => flag m = f ∧ bs = body m)
    (hc : ∀ m : α, (∀ n ∈ Message.sizes m, n ≤ maxU16) → Message.cut m = m) :
    LawfulMessage α where
  decode_append m rest := by
    rw [hd, hb]
    exact decodeFlagged_writeFlag (hy m) rest
  decode_inBounds p := by
    rw [hd]
    exact (decodeFlagged_exact he p).1
  encode_of_decode p m h := by
    rw [hd] at h
    obtain ⟨b, bs, rfl, hfm, rfl⟩ := (decodeFlagged_exact he p).2 m h
    rw [hb, hf, hfm]
    by_cases hb : b = 0 <;> simp [normalise, writeFlag, hb]
  cut_eq := hc

/-- Nothing is cut off what a decoder returns. -/
theorem LawfulMessage.cut_of_decode [LawfulMessage α] (hf : Message.flagged α = false) {p : Bytes}
    {m : α} (h : Message.decode p = .ok m) : Message.cut m = m := by
  have hp := LawfulMessage.encode_of_decode p m h
  have hcut := LawfulMessage.decode_append m []
  have hnormal : normalise false p = p := by cases p <;> simp [normalise]
  rw [hp, hf, hnormal, List.append_nil, if_pos rfl, h, Except.ok.injEq] at hcut
  exact hcut.symm

end Lawful

theorem length_of_cutString {s : Str} (h : cutString s = s) : s.length ≤ maxU16 := by
  rw [← h]
  exact List.length_take_le _ _

theorem cutString_eq {s : Str} (h : s.length ≤ maxU16) : cutString s = s :=
  List.take_of_length_le h

theorem cutStrings_eq {l : List Str} (h : l.length ≤ maxU16) (hs : ∀ s ∈ l, s.length ≤ maxU16) :
    cutStrings l = l := by
  rw [cutStrings, List.take_of_length_le h]
  exact (List.map_congr_left fun s hm => cutString_eq (hs s hm)).trans (List.map_id' l)

theorem cutItems_eq {l : List RewardItem} (h : l.length ≤ maxU16) : cutItems l = l :=
  List.take_of_length_le h

theorem readRewardItems_yields (l : List RewardItem) :
    Yields readRewardItems (writeRewardItems l) (cutItems l) := by
  have h : ∀ b : RewardItem, Yields (do
      let itemId ← readU32
      let count ← readU32
      return ({ itemId, count } : RewardItem)) (writeU32 b.itemId ++ writeU32 b.count) (id b) :=
    fun _ => (readU32_yields _).bind (readU32_yields _).bind_pure
  have hl := readList_yields h l
  rwa [List.map_id] at hl

theorem readRewardItems_exact : Exact readRewardItems fun l bs => bs = writeRewardItems l := by
  refine readList_exact
    ((readU32_exact.field fun _ => readU32_exact.field fun _ => .pure _).mono ?_)
  rintro _ _ ⟨itemId, _, rfl, count, _, rfl, rfl, rfl⟩
  simp

/-- A message that is a flag and a text. -/
theorem LawfulMessage.ofVerdict {α : Type} [Message α] {build : Bool → Str → α} (flag : α → Bool)
    (text : α → Str)
    (hd : Message.decode (α := α) = decodeFlagged fun f => do
      let message ← readString
      return build f message)
    (hf : Message.flagged α = true)
    (hb : ∀ m : α, Message.encode m = writeFlag (flag m) ++ writeString (text m))
    (hbuild : ∀ f message, flag (build f message) = f ∧ text (build f message) = message)
    (hm : ∀ m : α, build (flag m) (text m) = m)
    (hs : ∀ m : α, Message.sizes m = [(text m).length])
    (hc : ∀ m : α, Message.cut m = build (flag m) (cutString (text m))) : LawfulMessage α := by
  refine .ofFlagged flag hd hf hb (fun m => ?_) (fun f => ?_) fun m h => ?_
  · rw [hc]
    exact (readString_yields _).bind_pure
  · refine (readString_exact.field fun _ => .pure _).mono ?_
    rintro _ _ ⟨message, _, rfl, rfl, rfl⟩
    rw [(hbuild f message).1, (hbuild f message).2, List.append_nil]
    exact ⟨rfl, rfl⟩
  · rw [hs] at h
    rw [hc, cutString_eq (h _ (List.mem_singleton_self _)), hm]

/-! ## The 34 messages -/

instance : LawfulMessage LogoutRequest where
  decode_append _ rest := by
    rcases rest with _ | ⟨b, rest⟩ <;> rfl
  decode_inBounds p := by
    rcases p with _ | ⟨b, p⟩ <;> simp [Message.decode, decodeLogoutRequest]
  encode_of_decode p m h := by
    rcases p with _ | ⟨b, p⟩
    · rfl
    · simp [Message.decode, decodeLogoutRequest] at h
  cut_eq _ _ := rfl

instance : LawfulMessage LoginRequest :=
  .ofWhole _ rfl rfl
    (fun _ => (readString_yields _).bind <| (readString_yields _).bind_pure)
    ((readString_exact.field fun _ => readString_exact.field fun _ => .pure _).mono <| by
      rintro _ _ ⟨userId, _, rfl, password, _, rfl, rfl, rfl⟩
      simp [Message.encode, encodeLoginRequest])
    fun m h => by simp_all [Message.cut, Message.sizes, cutString_eq]

instance : LawfulMessage LoginResponse :=
  .ofFlagged (·.accepted) rfl rfl
    (fun m => by simp only [Message.encode, encodeLoginResponse, List.append_assoc])
    (fun _ => (readString_yields _).bind <| (readString_yields _).bind_pure)
    (fun _ => (readString_exact.field fun _ => readString_exact.field fun _ => .pure _).mono <| by
      rintro _ _ ⟨token, _, rfl, message, _, rfl, rfl, rfl⟩
      simp)
    fun m h => by simp_all [Message.cut, Message.sizes, cutString_eq]

instance : LawfulMessage VersionReject :=
  .ofWhole _ rfl rfl
    (fun m => by
      simp only [Message.encode, encodeVersionReject, List.append_assoc]
      exact (readU16_yields _).bind <| (readU16_yields _).bind <| (readU16_yields _).bind <|
        (readString_yields _).bind_pure)
    ((readU16_exact.field fun _ => readU16_exact.field fun _ => readU16_exact.field fun _ =>
      readString_exact.field fun _ => .pure _).mono <| by
      rintro _ _ ⟨minVersion, _, rfl, maxVersion, _, rfl, clientVersion, _, rfl, message, _, rfl,
        rfl, rfl⟩
      simp [Message.encode, encodeVersionReject])
    fun m h => by simp_all [Message.cut, Message.sizes, cutString_eq]

instance : LawfulMessage LogoutResponse :=
  .ofVerdict (·.success) (·.message) rfl rfl (fun _ => rfl) (fun _ _ => ⟨rfl, rfl⟩) (fun _ => rfl)
    (fun _ => rfl) fun _ => rfl

instance : LawfulMessage SessionReconnectRequest :=
  .ofWhole _ rfl rfl
    (fun _ => (readString_yields _).bind <| (readU32_yields _).bind_pure)
    ((readString_exact.field fun _ => readU32_exact.field fun _ => .pure _).mono <| by
      rintro _ _ ⟨token, _, rfl, lastSeq, _, rfl, rfl, rfl⟩
      simp [Message.encode, encodeSessionReconnectRequest])
    fun m h => by simp_all [Message.cut, Message.sizes, cutString_eq]

instance : LawfulMessage SessionReconnectResponse :=
  .ofFlagged (·.success) rfl rfl
    (fun m => by simp only [Message.encode, encodeSessionReconnectResponse, List.append_assoc])
    (fun _ => (readString_yields _).bind <| (readU64_yields _).bind <|
      (readU32_yields _).bind_pure)
    (fun _ => (readString_exact.field fun _ => readU64_exact.field fun _ =>
      readU32_exact.field fun _ => .pure _).mono <| by
      rintro _ _ ⟨message, _, rfl, sessionId, _, rfl, resumeFromSeq, _, rfl, rfl, rfl⟩
      simp)
    fun m h => by simp_all [Message.cut, Message.sizes, cutString_eq]

instance : LawfulMessage GuildCreateRequest :=
  .ofWhole _ rfl rfl
    (fun _ => (readString_yields _).bind_pure)
    ((readString_exact.field fun _ => .pure _).mono <| by
      rintro _ _ ⟨guildName, _, rfl, rfl, rfl⟩
      simp [Message.encode, encodeGuildCreateRequest])
    fun m h => by simp_all [Message.cut, Message.sizes, cutString_eq]

instance : LawfulMessage GuildCreateResponse :=
  .ofFlagged (·.success) rfl rfl
    (fun m => by simp only [Message.encode, encodeGuildCreateResponse, List.append_assoc])
    (fun _ => (readU64_yields _).bind <| (readString_yields _).bind_pure)
    (fun _ => (readU64_exact.field fun _ => readString_exact.field fun _ => .pure _).mono <| by
      rintro _ _ ⟨guildId, _, rfl, message, _, rfl, rfl, rfl⟩
      simp)
    fun m h => by simp_all [Message.cut, Message.sizes, cutString_eq]

instance : LawfulMessage GuildJoinRequest :=
  .ofWhole _ rfl rfl
    (fun _ => (readU64_yields _).bind_pure)
    ((readU64_exact.field fun _ => .pure _).mono <| by
      rintro _ _ ⟨guildId, _, rfl, rfl, rfl⟩
      simp [Message.encode, encodeGuildJoinRequest])
    fun _ _ => rfl

instance : LawfulMessage GuildJoinResponse :=
  .ofVerdict (·.success) (·.message) rfl rfl (fun _ => rfl) (fun _ _ => ⟨rfl, rfl⟩) (fun _ => rfl)
    (fun _ => rfl) fun _ => rfl

instance : LawfulMessage GuildLeaveRequest :=
  .ofWhole _ rfl rfl
    (fun _ => (readU64_yields _).bind_pure)
    ((readU64_exact.field fun _ => .pure _).mono <| by
      rintro _ _ ⟨guildId, _, rfl, rfl, rfl⟩
      simp [Message.encode, encodeGuildLeaveRequest])
    fun _ _ => rfl

instance : LawfulMessage GuildLeaveResponse :=
  .ofVerdict (·.success) (·.message) rfl rfl (fun _ => rfl) (fun _ _ => ⟨rfl, rfl⟩) (fun _ => rfl)
    (fun _ => rfl) fun _ => rfl

instance : LawfulMessage GuildEvent :=
  .ofWhole _ rfl rfl
    (fun m => by
      simp only [Message.encode, encodeGuildEvent, List.append_assoc]
      exact (readU16_yields _).bind <| (readU64_yields _).bind <| (readString_yields _).bind <|
        (readStringList_yields _).bind <| (readString_yields _).bind_pure)
    ((readU16_exact.field fun _ => readU64_exact.field fun _ => readString_exact.field fun _ =>
      readStringList_exact.field fun _ => readString_exact.field fun _ => .pure _).mono <| by
      rintro _ _ ⟨type, _, rfl, guildId, _, rfl, actorUserId, _, rfl, memberUserIds, _, rfl,
        message, _, rfl, rfl, rfl⟩
      simp [Message.encode, encodeGuildEvent])
    fun m h => by simp_all [Message.cut, Message.sizes, cutString_eq, cutStrings_eq]

instance : LawfulMessage PartyCreateRequest :=
  .ofWhole _ rfl rfl
    (fun _ => (readString_yields _).bind_pure)
    ((readString_exact.field fun _ => .pure _).mono <| by
      rintro _ _ ⟨leaderUserId, _, rfl, rfl, rfl⟩
      simp [Message.encode, encodePartyCreateRequest])
    fun m h => by simp_all [Message.cut, Message.sizes, cutString_eq]

instance : LawfulMessage PartyCreateResponse :=
  .ofFlagged (·.success) rfl rfl
    (fun m => by simp only [Message.encode, encodePartyCreateResponse, List.append_assoc])
    (fun _ => (readU64_yields _).bind <| (readString_yields _).bind_pure)
    (fun _ => (readU64_exact.field fun _ => readString_exact.field fun _ => .pure _).mono <| by
      rintro _ _ ⟨partyId, _, rfl, message, _, rfl, rfl, rfl⟩
      simp)
    fun m h => by simp_all [Message.cut, Message.sizes, cutString_eq]

instance : LawfulMessage PartyInviteRequest :=
  .ofWhole _ rfl rfl
    (fun m => by
      simp only [Message.encode, encodePartyInviteRequest, List.append_assoc]
      exact (readU64_yields _).bind <| (readString_yields _).bind <|
        (readString_yields _).bind_pure)
    ((readU64_exact.field fun _ => readString_exact.field fun _ => readString_exact.field fun _ =>
      .pure _).mono <| by
      rintro _ _ ⟨partyId, _, rfl, inviterUserId, _, rfl, inviteeUserId, _, rfl, rfl, rfl⟩
      simp [Message.encode, encodePartyInviteRequest])
    fun m h => by simp_all [Message.cut, Message.sizes, cutString_eq]

instance : LawfulMessage PartyInviteResponse :=
  .ofVerdict (·.success) (·.message) rfl rfl (fun _ => rfl) (fun _ _ => ⟨rfl, rfl⟩) (fun _ => rfl)
    (fun _ => rfl) fun _ => rfl

instance : LawfulMessage PartyAcceptRequest :=
  .ofWhole _ rfl rfl
    (fun _ => (readU64_yields _).bind <| (readString_yields _).bind_pure)
    ((readU64_exact.field fun _ => readString_exact.field fun _ => .pure _).mono <| by
      rintro _ _ ⟨partyId, _, rfl, inviteeUserId, _, rfl, rfl, rfl⟩
      simp [Message.encode, encodePartyAcceptRequest])
    fun m h => by simp_all [Message.cut, Message.sizes, cutString_eq]

instance : LawfulMessage PartyAcceptResponse :=
  .ofVerdict (·.success) (·.message) rfl rfl (fun _ => rfl) (fun _ _ => ⟨rfl, rfl⟩) (fun _ => rfl)
    (fun _ => rfl) fun _ => rfl

instance : LawfulMessage PartyDisbandRequest :=
  .ofWhole _ rfl rfl
    (fun _ => (readU64_yields _).bind <| (readString_yields _).bind_pure)
    ((readU64_exact.field fun _ => readString_exact.field fun _ => .pure _).mono <| by
      rintro _ _ ⟨partyId, _, rfl, requesterUserId, _, rfl, rfl, rfl⟩
      simp [Message.encode, encodePartyDisbandRequest])
    fun m h => by simp_all [Message.cut, Message.sizes, cutString_eq]

instance : LawfulMessage PartyDisbandResponse :=
  .ofVerdict (·.success) (·.message) rfl rfl (fun _ => rfl) (fun _ _ => ⟨rfl, rfl⟩) (fun _ => rfl)
    (fun _ => rfl) fun _ => rfl

instance : LawfulMessage PartyEvent :=
  .ofWhole _ rfl rfl
    (fun m => by
      simp only [Message.encode, encodePartyEvent, List.append_assoc]
      exact (readU16_yields _).bind <| (readU64_yields _).bind <| (readString_yields _).bind <|
        (readString_yields _).bind <| (readStringList_yields _).bind <|
        (readString_yields _).bind_pure)
    ((readU16_exact.field fun _ => readU64_exact.field fun _ => readString_exact.field fun _ =>
      readString_exact.field fun _ => readStringList_exact.field fun _ =>
      readString_exact.field fun _ => .pure _).mono <| by
      rintro _ _ ⟨type, _, rfl, partyId, _, rfl, actorUserId, _, rfl, targetUserId, _, rfl,
        memberUserIds, _, rfl, message, _, rfl, rfl, rfl⟩
      simp [Message.encode, encodePartyEvent])
    fun m h => by simp_all [Message.cut, Message.sizes, cutString_eq, cutStrings_eq]

instance : LawfulMessage MatchRequest :=
  .ofWhole _ rfl rfl
    (fun m => by
      simp only [Message.encode, encodeMatchRequest, List.append_assoc]
      exact (readU64_yields _).bind <| (readU32_yields _).bind <| (readString_yields _).bind_pure)
    ((readU64_exact.field fun _ => readU32_exact.field fun _ => readString_exact.field fun _ =>
      .pure _).mono <| by
      rintro _ _ ⟨partyId, _, rfl, dungeonId, _, rfl, difficulty, _, rfl, rfl, rfl⟩
      simp [Message.encode, encodeMatchRequest])
    fun m h => by simp_all [Message.cut, Message.sizes, cutString_eq]

instance : LawfulMessage MatchFoundNotify :=
  .ofFlagged (·.success) rfl rfl
    (fun m => by simp only [Message.encode, encodeMatchFoundNotify, List.append_assoc])
    (fun _ => (readString_yields _).bind <| (readString_yields _).bind <|
      (readU64_yields _).bind <| (readU64_yields _).bind <| (readString_yields _).bind <|
      (readString_yields _).bind_pure)
    (fun _ => (readString_exact.field fun _ => readString_exact.field fun _ =>
      readU64_exact.field fun _ => readU64_exact.field fun _ => readString_exact.field fun _ =>
      readString_exact.field fun _ => .pure _).mono <| by
      rintro _ _ ⟨code, _, rfl, message, _, rfl, partyId, _, rfl, instanceId, _, rfl,
        endpoint, _, rfl, ticket, _, rfl, rfl, rfl⟩
      simp)
    fun m h => by simp_all [Message.cut, Message.sizes, cutString_eq]

instance : LawfulMessage DungeonEnterRequest :=
  .ofWhole _ rfl rfl
    (fun m => by
      simp only [Message.encode, encodeDungeonEnterRequest, List.append_assoc]
      exact (readU64_yields _).bind <| (readString_yields _).bind <| (readU64_yields _).bind_pure)
    ((readU64_exact.field fun _ => readString_exact.field fun _ => readU64_exact.field fun _ =>
      .pure _).mono <| by
      rintro _ _ ⟨instanceId, _, rfl, ticket, _, rfl, charId, _, rfl, rfl, rfl⟩
      simp [Message.encode, encodeDungeonEnterRequest])
    fun m h => by simp_all [Message.cut, Message.sizes, cutString_eq]

instance : LawfulMessage DungeonEnterResponse := by
  refine @LawfulMessage.ofFlagged DungeonEnterResponse _ _
    (fun m => writeString m.code ++ (writeString m.message ++
      (writeU16 m.state.code ++ writeU32 m.seed))) (·.success)
    (show decodeDungeonEnterResponse = decodeFlagged _ from rfl) rfl
    (fun m => ?_) (fun m => ?_) (fun f => ?_) fun m h => ?_
  · simp only [Message.encode, encodeDungeonEnterResponse, List.append_assoc]
  · exact (readString_yields _).bind <| (readString_yields _).bind <| (readU16_yields _).bind <|
      (readU32_yields _).bind_pure
  · refine (readString_exact.field fun _ => readString_exact.field fun _ =>
      readU16_exact.field fun _ => readU32_exact.field fun _ => .pure _).mono ?_
    rintro _ _ ⟨code, _, rfl, message, _, rfl, state, _, rfl, seed, _, rfl, rfl, rfl⟩
    simp
  · simp_all [Message.cut, Message.sizes, cutString_eq]

instance : LawfulMessage DungeonResultNotify :=
  .ofWhole _ rfl rfl
    (fun m => by
      simp only [Message.encode, encodeDungeonResultNotify, List.append_assoc]
      exact (readU16_yields _).bind <| (readU32_yields _).bind <| (readU16_yields _).bind <|
        (readRewardItems_yields _).bind_pure)
    ((readU16_exact.field fun _ => readU32_exact.field fun _ => readU16_exact.field fun _ =>
      readRewardItems_exact.field fun _ => .pure _).mono <| by
      rintro _ _ ⟨result, _, rfl, timeSec, _, rfl, deaths, _, rfl, rewards, _, rfl, rfl, rfl⟩
      simp [Message.encode, encodeDungeonResultNotify])
    fun m h => by simp_all [Message.cut, Message.sizes, cutItems_eq]

instance : LawfulMessage DungeonResultResponse :=
  .ofFlagged (·.success) rfl rfl
    (fun m => by simp only [Message.encode, encodeDungeonResultResponse, List.append_assoc])
    (fun _ => (readString_yields _).bind <| (readString_yields _).bind <|
      (readString_yields _).bind_pure)
    (fun _ => (readString_exact.field fun _ => readString_exact.field fun _ =>
      readString_exact.field fun _ => .pure _).mono <| by
      rintro _ _ ⟨code, _, rfl, message, _, rfl, summary, _, rfl, rfl, rfl⟩
      simp)
    fun m h => by simp_all [Message.cut, Message.sizes, cutString_eq]

instance : LawfulMessage ChatSendRequest :=
  .ofWhole _ rfl rfl
    (fun m => by
      simp only [Message.encode, encodeChatSendRequest, List.append_assoc]
      exact (readU16_yields _).bind <| (readU64_yields _).bind <| (readString_yields _).bind_pure)
    ((readU16_exact.field fun _ => readU64_exact.field fun _ => readString_exact.field fun _ =>
      .pure _).mono <| by
      rintro _ _ ⟨channel, _, rfl, partyId, _, rfl, message, _, rfl, rfl, rfl⟩
      simp [Message.encode, encodeChatSendRequest])
    fun m h => by simp_all [Message.cut, Message.sizes, cutString_eq]

instance : LawfulMessage ChatSendResponse :=
  .ofVerdict (·.success) (·.message) rfl rfl (fun _ => rfl) (fun _ _ => ⟨rfl, rfl⟩) (fun _ => rfl)
    (fun _ => rfl) fun _ => rfl

instance : LawfulMessage ChatEvent :=
  .ofWhole _ rfl rfl
    (fun m => by
      simp only [Message.encode, encodeChatEvent, List.append_assoc]
      exact (readU16_yields _).bind <| (readU64_yields _).bind <| (readString_yields _).bind <|
        (readString_yields _).bind_pure)
    ((readU16_exact.field fun _ => readU64_exact.field fun _ => readString_exact.field fun _ =>
      readString_exact.field fun _ => .pure _).mono <| by
      rintro _ _ ⟨channel, _, rfl, partyId, _, rfl, senderUserId, _, rfl, message, _, rfl,
        rfl, rfl⟩
      simp [Message.encode, encodeChatEvent])
    fun m h => by simp_all [Message.cut, Message.sizes, cutString_eq]

instance : LawfulMessage InventoryUpdateNotify :=
  .ofWhole _ rfl rfl
    (fun _ => (readU64_yields _).bind <| (readRewardItems_yields _).bind_pure)
    ((readU64_exact.field fun _ => readRewardItems_exact.field fun _ => .pure _).mono <| by
      rintro _ _ ⟨charId, _, rfl, items, _, rfl, rfl, rfl⟩
      simp [Message.encode, encodeInventoryUpdateNotify])
    fun m h => by simp_all [Message.cut, Message.sizes, cutItems_eq]

instance : LawfulMessage InventoryUpdateResponse :=
  .ofFlagged (·.success) rfl rfl
    (fun m => by simp only [Message.encode, encodeInventoryUpdateResponse, List.append_assoc])
    (fun _ => (readString_yields _).bind <| (readString_yields _).bind <|
      (readU64_yields _).bind_pure)
    (fun _ => (readString_exact.field fun _ => readString_exact.field fun _ =>
      readU64_exact.field fun _ => .pure _).mono <| by
      rintro _ _ ⟨code, _, rfl, message, _, rfl, inventoryVersion, _, rfl, rfl, rfl⟩
      simp)
    fun m h => by simp_all [Message.cut, Message.sizes, cutString_eq]

instance : (t : PacketType) → LawfulMessage t.Payload
  | .loginReq => inferInstanceAs (LawfulMessage LoginRequest)
  | .loginRes => inferInstanceAs (LawfulMessage LoginResponse)
  | .versionReject => inferInstanceAs (LawfulMessage VersionReject)
  | .logoutReq => inferInstanceAs (LawfulMessage LogoutRequest)
  | .logoutRes => inferInstanceAs (LawfulMessage LogoutResponse)
  | .sessionReconnectReq => inferInstanceAs (LawfulMessage SessionReconnectRequest)
  | .sessionReconnectRes => inferInstanceAs (LawfulMessage SessionReconnectResponse)
  | .guildCreateReq => inferInstanceAs (LawfulMessage GuildCreateRequest)
  | .guildCreateRes => inferInstanceAs (LawfulMessage GuildCreateResponse)
  | .guildJoinReq => inferInstanceAs (LawfulMessage GuildJoinRequest)
  | .guildJoinRes => inferInstanceAs (LawfulMessage GuildJoinResponse)
  | .guildLeaveReq => inferInstanceAs (LawfulMessage GuildLeaveRequest)
  | .guildLeaveRes => inferInstanceAs (LawfulMessage GuildLeaveResponse)
  | .guildEvent => inferInstanceAs (LawfulMessage GuildEvent)
  | .partyCreateReq => inferInstanceAs (LawfulMessage PartyCreateRequest)
  | .partyCreateRes => inferInstanceAs (LawfulMessage PartyCreateResponse)
  | .partyInviteReq => inferInstanceAs (LawfulMessage PartyInviteRequest)
  | .partyInviteRes => inferInstanceAs (LawfulMessage PartyInviteResponse)
  | .partyAcceptReq => inferInstanceAs (LawfulMessage PartyAcceptRequest)
  | .partyAcceptRes => inferInstanceAs (LawfulMessage PartyAcceptResponse)
  | .partyDisbandReq => inferInstanceAs (LawfulMessage PartyDisbandRequest)
  | .partyDisbandRes => inferInstanceAs (LawfulMessage PartyDisbandResponse)
  | .partyEvent => inferInstanceAs (LawfulMessage PartyEvent)
  | .matchReq => inferInstanceAs (LawfulMessage MatchRequest)
  | .matchFoundNotify => inferInstanceAs (LawfulMessage MatchFoundNotify)
  | .dungeonEnterReq => inferInstanceAs (LawfulMessage DungeonEnterRequest)
  | .dungeonEnterRes => inferInstanceAs (LawfulMessage DungeonEnterResponse)
  | .dungeonResultNotify => inferInstanceAs (LawfulMessage DungeonResultNotify)
  | .dungeonResultRes => inferInstanceAs (LawfulMessage DungeonResultResponse)
  | .chatSendReq => inferInstanceAs (LawfulMessage ChatSendRequest)
  | .chatSendRes => inferInstanceAs (LawfulMessage ChatSendResponse)
  | .chatEvent => inferInstanceAs (LawfulMessage ChatEvent)
  | .inventoryUpdateNotify => inferInstanceAs (LawfulMessage InventoryUpdateNotify)
  | .inventoryUpdateRes => inferInstanceAs (LawfulMessage InventoryUpdateResponse)

/-! ## The protocol -/

theorem PacketType.ofCode_code (t : PacketType) : PacketType.ofCode t.code = some t := by
  cases t <;> rfl

theorem decode_encode {α : Type} [Message α] [LawfulMessage α] (m : α) :
    Message.decode (Message.encode m) = .ok (Message.cut m) := by
  have happend := LawfulMessage.decode_append m []
  rwa [List.append_nil, if_pos rfl] at happend

theorem decode_encode_of_sizes {α : Type} [Message α] [LawfulMessage α] {m : α}
    (h : ∀ n ∈ Message.sizes m, n ≤ maxU16) : Message.decode (Message.encode m) = .ok m := by
  rw [decode_encode, LawfulMessage.cut_eq m h]

theorem normalise_append (flagged : Bool) (b : UInt8) (p rest : Bytes) :
    normalise flagged (b :: (p ++ rest)) = normalise flagged (b :: p) ++ rest := by
  simp only [normalise]
  split_ifs <;> rfl

/-- A message comes back from the wire with its strings and lists cut to their first 65535
elements, so unchanged if none is longer. -/
theorem message_round_trip (t : PacketType) (m : t.Payload) :
    Message.decode (Message.encode m) = .ok (Message.cut m) ∧
      ((∀ n ∈ Message.sizes m, n ≤ 65535) → Message.decode (Message.encode m) = .ok m) := by
  have h := LawfulMessage.decode_append m []
  rw [List.append_nil, if_pos rfl] at h
  refine ⟨h, fun hs => ?_⟩
  rw [h, LawfulMessage.cut_eq m hs]

/-- A decoder accepts exactly what its encoder writes, up to the value of a leading boolean byte,
and never looks outside the payload; so no accepted payload continues another. -/
theorem message_exact_acceptance (t : PacketType) :
    (∀ p (m : t.Payload), Message.decode p = .ok m →
        Message.encode m = normalise (Message.flagged t.Payload) p) ∧
      (∀ p, (¬ ∃ m : t.Payload, Message.encode m = normalise (Message.flagged t.Payload) p) →
        Message.decode (α := t.Payload) p = .error .refused) ∧
      (∀ p q (m m' : t.Payload), Message.decode p = .ok m → Message.decode q = .ok m' →
        p <+: q → p = q) ∧
      ∀ p, Message.decode (α := t.Payload) p ≠ .error .outOfBounds := by
  refine ⟨LawfulMessage.encode_of_decode, fun p hp => ?_, ?_, LawfulMessage.decode_inBounds⟩
  · rcases hd : Message.decode (α := t.Payload) p with e | m
    · cases e
      · rfl
      · exact absurd hd (LawfulMessage.decode_inBounds p)
    · exact absurd ⟨m, LawfulMessage.encode_of_decode p m hd⟩ hp
  · rintro p _ m m' hm hm' ⟨rest, rfl⟩
    have h1 := LawfulMessage.encode_of_decode p m hm
    have h2 := LawfulMessage.encode_of_decode _ m' hm'
    have happ := LawfulMessage.decode_append m rest
    rcases p with _ | ⟨b, p⟩
    · -- the empty payload is its own encoding, and nothing continues that
      rw [h1, show normalise (Message.flagged t.Payload) [] = [] from rfl, hm'] at happ
      split_ifs at happ with hr
      rw [hr, List.append_nil]
    · have hself := LawfulMessage.decode_append m' []
      rw [List.append_nil, h2, List.cons_append, normalise_append, ← h1, happ, if_pos rfl] at hself
      split_ifs at hself with hr
      rw [hr, List.append_nil]

end DungeonHub
