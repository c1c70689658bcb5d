import DungeonHub.Codec
import DungeonHub.Proofs.Bytes

/-!
# Nothing of a stream is lost, repeated or reordered

Over the calls of a registration period, the bytes read are the frames dispatched, encoded in
order, and the decoder's buffer after them; and the buffer holds no complete frame.
-/

namespace DungeonHub

open Wire

section Header

theorem readU32_eq_u32At {p : Bytes} {o : ℕ} (h : o + 4 ≤ p.length) :
    readU32 p o = .ok (u32At p o, o + 4) := by
  have hb : ∀ i < 4, p[o + i]? = some (byteAt p (o + i)) := by
    intro i hi
    unfold byteAt
    rw [List.getElem?_eq_getElem (by omega), List.getD_eq_getElem _ _ (by omega)]
  have hb0 : p[o]? = some (byteAt p o) := hb 0 (by omega)
  simp only [readU32, u32At, Reader.bind_apply, Reader.need, Reader.peek, Reader.skip,
    Reader.pure_apply]
  rw [if_neg (by omega)]
  simp only [Nat.add_zero, hb0, hb 1 (by omega), hb 2 (by omega), hb 3 (by omega)]

theorem readU16_eq_u16At {p : Bytes} {o : ℕ} (h : o + 2 ≤ p.length) :
    readU16 p o = .ok (u16At p o, o + 2) := by
  have hb : ∀ i < 2, p[o + i]? = some (byteAt p (o + i)) := by
    intro i hi
    unfold byteAt
    rw [List.getElem?_eq_getElem (by omega), List.getD_eq_getElem _ _ (by omega)]
  have hb0 : p[o]? = some (byteAt p o) := hb 0 (by omega)
  simp only [readU16, u16At, Reader.bind_apply, Reader.need, Reader.peek, Reader.skip,
    Reader.pure_apply]
  rw [if_neg (by omega)]
  simp only [Nat.add_zero, hb0, hb 1 (by omega)]

/-- A buffer with a whole header starts with the bytes that encode it. -/
theorem header_bytes {b : Bytes} (h : headerSize ≤ b.length) :
    b = writeU32 (FrameDecoder.header b).length ++ writeU16 (FrameDecoder.header b).type ++
      writeU16 (FrameDecoder.header b).version ++ b.drop headerSize := by
  unfold headerSize at h
  obtain ⟨bs, hb, -, -, rfl⟩ := (readU32_exact b 0 (by omega)).2 _ _ (readU32_eq_u32At (by omega))
  obtain ⟨cs, hc, -, -, rfl⟩ := (readU16_exact b 4 (by omega)).2 _ _ (readU16_eq_u16At (by omega))
  obtain ⟨ds, hd, -, -, rfl⟩ := (readU16_exact b 6 (by omega)).2 _ _ (readU16_eq_u16At (by omega))
  simp only [Nat.zero_add, Nat.reduceAdd, List.drop_zero] at hb hc hd
  unfold FrameDecoder.header headerSize
  simp only [List.append_assoc]
  rw [← hd, ← hc, ← hb]

/-- A frame's header, as the decoder reads it. -/
theorem header_encodeFrame (type version : UInt16) (payload rest : Bytes) :
    FrameDecoder.header (encodeFrame type version payload ++ rest) =
      ⟨UInt32.ofNat payload.length, type, version⟩ := by
  have hlen : 8 ≤ (encodeFrame type version payload ++ rest).length := by
    simp [encodeFrame, writeU32, writeU16]
  have hu := readU32_yields (UInt32.ofNat payload.length) [] (writeU16 type ++ (writeU16 version ++
    (payload ++ rest)))
  have ht := readU16_yields type (writeU32 (UInt32.ofNat payload.length)) (writeU16 version ++
    (payload ++ rest))
  have hv := readU16_yields version (writeU32 (UInt32.ofNat payload.length) ++ writeU16 type)
    (payload ++ rest)
  simp only [List.nil_append, List.append_assoc] at hu ht hv
  unfold encodeFrame at hlen ⊢
  simp only [List.append_assoc] at hlen ⊢
  change readU32 _ 0 = _ at hu
  change readU16 _ 4 = _ at ht
  change readU16 _ 6 = _ at hv
  rw [readU32_eq_u32At (by omega)] at hu
  rw [readU16_eq_u16At (by omega)] at ht hv
  simp only [Except.ok.injEq, Prod.mk.injEq] at hu ht hv
  unfold FrameDecoder.header
  rw [hu.1, ht.1, hv.1]

end Header

section FrameDecoder

/-- No complete frame: the header, or the payload it announces, is not all there. -/
def Incomplete (r : Bytes) : Prop :=
  r.length < headerSize ∨ r.length < headerSize + (u32At r 0).toNat

/-- The bytes that a dispatched frame came from. -/
def frameBytes (f : FrameHeader × Bytes) : Bytes := encodeFrame f.1.type f.1.version f.2

theorem nextFrame_none {d : FrameDecoder} (h : d.nextFrame = none) : Incomplete d.buffer := by
  unfold FrameDecoder.nextFrame at h
  simp only [] at h
  split_ifs at h with h1 h2
  · exact .inl h1
  · exact .inr h2

theorem nextFrame_some {d d' : FrameDecoder} {f : FrameHeader × Bytes}
    (h : d.nextFrame = some (f, d')) :
    f.1.length.toNat = f.2.length ∧ d.buffer = frameBytes f ++ d'.buffer := by
  unfold FrameDecoder.nextFrame at h
  simp only [] at h
  split_ifs at h with h1 h2
  simp only [Option.some.injEq, Prod.mk.injEq] at h
  obtain ⟨rfl, rfl⟩ := h
  have hlen : ((d.buffer.drop headerSize).take
      (FrameDecoder.header d.buffer).length.toNat).length =
      (FrameDecoder.header d.buffer).length.toNat := by
    rw [List.length_take, List.length_drop]
    omega
  refine ⟨hlen.symm, ?_⟩
  have hh := header_bytes (b := d.buffer) (by omega)
  unfold frameBytes encodeFrame
  simp only [hlen, UInt32.ofNat_toNat]
  rw [← List.drop_drop, List.append_assoc, List.take_append_drop]
  exact hh

/-- A decoder that holds a frame gives it out first. -/
theorem nextFrame_encodeFrame (type version : UInt16) {payload : Bytes}
    (h : payload.length < 2 ^ 32) (rest : Bytes) :
    FrameDecoder.nextFrame ⟨encodeFrame type version payload ++ rest⟩ =
      some ((⟨UInt32.ofNat payload.length, type, version⟩, payload), ⟨rest⟩) := by
  have hlen : (UInt32.ofNat payload.length).toNat = payload.length := by
    rw [UInt32.toNat_ofNat']
    exact Nat.mod_eq_of_lt h
  have hsplit : encodeFrame type version payload ++ rest =
      (writeU32 (UInt32.ofNat payload.length) ++ writeU16 type ++ writeU16 version) ++
        (payload ++ rest) := by
    simp [encodeFrame]
  have hdrop : (encodeFrame type version payload ++ rest).drop headerSize = payload ++ rest := by
    rw [hsplit]
    exact List.drop_left' rfl
  have htotal : (encodeFrame type version payload ++ rest).length =
      headerSize + payload.length + rest.length := by
    rw [hsplit, List.length_append, @List.length_append _ payload, Nat.add_assoc]
    rfl
  unfold FrameDecoder.nextFrame
  simp only [header_encodeFrame, hlen, hdrop, htotal]
  rw [if_neg (by omega), if_neg (by omega), ← List.drop_drop, hdrop, List.take_left,
    List.drop_left]

/-- A decoder takes a frame for itself. -/
theorem drain_encodeFrame {type version : UInt16} {payload : Bytes}
    (h : payload.length < 2 ^ 32) :
    (({} : FrameDecoder).append (encodeFrame type version payload)).drain =
      ([(⟨UInt32.ofNat payload.length, type, version⟩, payload)], {}) := by
  have hnext := nextFrame_encodeFrame type version h []
  rw [List.append_nil] at hnext
  have hempty : (⟨[]⟩ : FrameDecoder).drain = ([], ⟨[]⟩) := by
    rw [FrameDecoder.drain]
    rfl
  unfold FrameDecoder.append
  rw [List.nil_append, FrameDecoder.drain]
  split
  · rename_i hnone
    rw [hnext] at hnone
    cases hnone
  · rename_i f d' hsome
    rw [hnext] at hsome
    cases hsome
    simp only [hempty]

theorem drain_spec (d : FrameDecoder) :
    d.buffer = d.drain.1.flatMap frameBytes ++ d.drain.2.buffer ∧
      (∀ f ∈ d.drain.1, f.1.length.toNat = f.2.length) ∧ d.drain.2.nextFrame = none := by
  rw [FrameDecoder.drain]
  split
  · rename_i h
    simp [h]
  · rename_i f d' h
    have := FrameDecoder.nextFrame_length h
    obtain ⟨hb, hl, hn⟩ := drain_spec d'
    obtain ⟨hf, hd⟩ := nextFrame_some h
    refine ⟨?_, ?_, hn⟩
    · rw [List.flatMap_cons, List.append_assoc, ← hb]
      exact hd
    · intro g hg
      rcases List.mem_cons.mp hg with rfl | hg
      · exact hf
      · exact hl g hg
  termination_by d.buffer.length

/-- The decode loop ends, after at most one round for every eight bytes of the buffer. -/
theorem drain_ends (d : FrameDecoder) :
    ∃ n d', 8 * n ≤ d.buffer.length ∧ d.afterFrames n = some d' ∧ d'.nextFrame = none := by
  rcases h : d.nextFrame with _ | ⟨f, d'⟩
  · exact ⟨0, d, by omega, rfl, h⟩
  · have := FrameDecoder.nextFrame_length h
    obtain ⟨n, d'', hn, hd, hnone⟩ := drain_ends d'
    have hlen : 8 + d'.buffer.length ≤ d.buffer.length := by
      rw [(nextFrame_some h).2, List.length_append]
      have : (frameBytes f).length = 8 + f.2.length := by
        simp [frameBytes, encodeFrame, writeU32, writeU16]
        omega
      omega
    refine ⟨n + 1, d'', by omega, ?_, hnone⟩
    unfold FrameDecoder.afterFrames
    rw [h]
    exact hd
  termination_by d.buffer.length

end FrameDecoder

section PacketPipeline

/-- The bytes that dispatches came from. -/
def Dispatch.bytes (f : Dispatch) : Bytes := encodeFrame f.header.type f.header.version f.payload

/-- A period's bytes are its frames and then `r`, each frame with the length it announces. -/
def Period.LeavesOver (p : Period) (r : Bytes) : Prop :=
  p.bytes = p.frames.flatMap Dispatch.bytes ++ r ∧
    ∀ f ∈ p.frames, f.header.length.toNat = f.payload.length

/-- What a pipeline knows of connection `c` in the course of a period: its decoder holds what the
period leaves over, with no complete frame in it. Outside of any there is no decoder. -/
def PacketPipeline.Follows (pl : PacketPipeline) (c : UInt64) : Option Period → Prop
  | none => pl.decoders[c]? = none
  | some p => ∃ d, pl.decoders[c]? = some d ∧ p.LeavesOver d.buffer ∧ d.nextFrame = none

theorem follows_register {pl : PacketPipeline} {c : UInt64} {p : Option Period} (c' : UInt64)
    (h : pl.Follows c p) :
    (pl.registerConnection c').Follows c (if c' = c then some (p.getD {}) else p) := by
  unfold PacketPipeline.registerConnection
  by_cases hc : c' = c
  · subst hc
    rw [if_pos rfl]
    rcases p with _ | p
    · have hmem : c' ∉ pl.decoders := (Dict.not_mem_iff _ _).mpr h
      rw [if_neg hmem]
      exact ⟨{}, Dict.get?_insert_self .., ⟨rfl, by simp⟩, rfl⟩
    · obtain ⟨d, hd, hp⟩ := h
      rw [if_pos ((Dict.mem_iff _ _).mpr ⟨d, hd⟩)]
      exact ⟨d, hd, hp⟩
  · rw [if_neg hc]
    split_ifs
    · exact h
    · rcases p with _ | p
      · exact (Dict.get?_insert_of_ne _ _ hc).trans h
      · obtain ⟨d, hd, hp⟩ := h
        exact ⟨d, (Dict.get?_insert_of_ne _ _ hc).trans hd, hp⟩

theorem follows_remove {pl : PacketPipeline} {c : UInt64} {p : Option Period} (c' : UInt64)
    (h : pl.Follows c p) :
    (pl.removeConnection c').Follows c (if c' = c then none else p) := by
  unfold PacketPipeline.removeConnection
  by_cases hc : c' = c
  · subst hc
    rw [if_pos rfl]
    exact Dict.get?_erase_self ..
  · rw [if_neg hc]
    rcases p with _ | p
    · exact (Dict.get?_erase_of_ne _ hc).trans h
    · obtain ⟨d, hd, hp⟩ := h
      exact ⟨d, (Dict.get?_erase_of_ne _ hc).trans hd, hp⟩

theorem onRead_connectionId {pl : PacketPipeline} {c : UInt64} {payload : Bytes} {now : Time}
    {f : Dispatch} (h : f ∈ (pl.onRead c payload now).1) : f.connectionId = c := by
  unfold PacketPipeline.onRead at h
  split at h
  · simp at h
  · split_ifs at h
    · obtain ⟨g, -, rfl⟩ := List.mem_map.mp h
      rfl
    · simp at h

/-- A read on another connection adds nothing to the period. -/
theorem extend_of_ne {pl : PacketPipeline} {c c' : UInt64} (p : Period) (payload : Bytes)
    (now : Time) (hc : c' ≠ c) :
    p.extend c c' payload (pl.onRead c' payload now).1 = p := by
  have hf : ((pl.onRead c' payload now).1.filter fun f => f.connectionId = c) = [] := by
    rw [List.filter_eq_nil_iff]
    intro f hf
    rw [onRead_connectionId hf]
    simpa using hc
  simp [Period.extend, hc, hf]

theorem leavesOver_extend {p : Period} {d : FrameDecoder} {c : UInt64} {payload : Bytes}
    {now : Time} (h : p.LeavesOver d.buffer) :
    (p.extend c c payload ((d.append payload).drain.1.map fun f => ⟨c, f.1, f.2, now⟩)).LeavesOver
      (d.append payload).drain.2.buffer := by
  obtain ⟨hb, hl⟩ := h
  obtain ⟨hd, hdl, -⟩ := drain_spec (d.append payload)
  have hfil : ((d.append payload).drain.1.map fun f => (⟨c, f.1, f.2, now⟩ : Dispatch)).filter
      (fun f => f.connectionId = c) =
      (d.append payload).drain.1.map fun f => ⟨c, f.1, f.2, now⟩ := by
    rw [List.filter_eq_self]
    intro f hf
    obtain ⟨g, -, rfl⟩ := List.mem_map.mp hf
    simp
  constructor
  · unfold Period.extend
    simp only [if_true, hfil]
    rw [hb, List.flatMap_append, List.append_assoc, List.append_assoc, List.flatMap_map]
    congr 1
  · intro f hf
    unfold Period.extend at hf
    rw [hfil] at hf
    rcases List.mem_append.mp hf with hf | hf
    · exact hl f hf
    · obtain ⟨g, hg, rfl⟩ := List.mem_map.mp hf
      exact hdl g hg

theorem follows_onRead {pl : PacketPipeline} {c : UInt64} {p : Option Period} (c' : UInt64)
    (payload : Bytes) (now : Time) (hd : pl.dispatch = true) (h : pl.Follows c p) :
    (pl.onRead c' payload now).2.Follows c
      (p.map fun p => p.extend c c' payload (pl.onRead c' payload now).1) := by
  by_cases hc : c' = c
  · subst hc
    rcases p with _ | p
    · have hn : pl.decoders[c']? = none := h
      unfold PacketPipeline.onRead
      simp only [hn, Option.map_none]
      exact hn
    · obtain ⟨d, hget, hp, -⟩ := h
      have hout : pl.onRead c' payload now =
          ((d.append payload).drain.1.map fun f => ⟨c', f.1, f.2, now⟩,
            { pl with decoders := pl.decoders.insert c' (d.append payload).drain.2 }) := by
        unfold PacketPipeline.onRead
        simp only [hget, hd, if_true]
      rw [hout]
      exact ⟨_, Dict.get?_insert_self .., leavesOver_extend hp,
        (drain_spec (d.append payload)).2.2⟩
  · have hkeep : (pl.onRead c' payload now).2.decoders[c]? = pl.decoders[c]? := by
      unfold PacketPipeline.onRead
      split
      · rfl
      · exact Dict.get?_insert_of_ne _ _ hc
    rcases p with _ | p
    · exact hkeep.trans h
    · obtain ⟨d, hget, hp⟩ := h
      simp only [Option.map_some, extend_of_ne p payload now hc]
      exact ⟨d, hkeep.trans hget, hp⟩

theorem call_dispatch (pl : PacketPipeline) (call : PacketPipeline.Call) :
    (pl.call call).2.dispatch = pl.dispatch := by
  rcases call with c | c | ⟨c, payload, now⟩
  · show (pl.registerConnection c).dispatch = _
    unfold PacketPipeline.registerConnection
    split_ifs <;> rfl
  · rfl
  · show (pl.onRead c payload now).2.dispatch = _
    unfold PacketPipeline.onRead
    split <;> rfl

/-- The law of a period. -/
def Period.Reassembles (p : Period) : Prop :=
  ∃ r, p.bytes = p.frames.flatMap Dispatch.bytes ++ r ∧
    (∀ f ∈ p.frames, f.header.length.toNat = f.payload.length) ∧ Incomplete r

theorem Follows.reassembles {pl : PacketPipeline} {c : UInt64} {o : Option Period}
    (h : pl.Follows c o) {p : Period} (hp : p ∈ o.toList) : p.Reassembles := by
  rcases o with _ | q
  · simp at hp
  · simp only [Option.toList_some, List.mem_singleton] at hp
    subst hp
    obtain ⟨d, -, hl, hn⟩ := h
    exact ⟨d.buffer, hl.1, hl.2, nextFrame_none hn⟩

theorem split_reassembles (c : UInt64) : ∀ (calls : List PacketPipeline.Call)
    (pl : PacketPipeline) (o : Option Period), pl.dispatch = true → pl.Follows c o →
    ∀ p ∈ Period.split c o (pl.trace calls), p.Reassembles
  | [], pl, o, _, h => fun p hp => Follows.reassembles h hp
  | call :: calls, pl, o, hd, h => by
    intro p hp
    have hd' : (pl.call call).2.dispatch = true := (call_dispatch pl call).trans hd
    have ih := fun o' h' => split_reassembles c calls (pl.call call).2 o' hd' h'
    rcases call with c' | c' | ⟨c', payload, now⟩
    · exact ih _ (follows_register c' h) p hp
    · have hr := follows_remove c' h
      unfold PacketPipeline.trace Period.split at hp
      split_ifs at hp hr with hc
      · rcases List.mem_append.mp hp with hp | hp
        · exact Follows.reassembles h hp
        · exact ih _ hr p hp
      · exact ih _ hr p hp
    · exact ih _ (follows_onRead c' payload now hd h) p hp

/-- A pipeline with a dispatch callback, under any calls: in every registration period of every
connection the bytes read are the frames dispatched for it, encoded in order, and an incomplete
rest. The decode loop ends on every buffer. -/
theorem stream_reassembly (calls : List PacketPipeline.Call) (c : UInt64) :
    (∀ p ∈ Period.split c none (PacketPipeline.trace { dispatch := true } calls),
      ∃ r, p.bytes = p.frames.flatMap
          (fun f => encodeFrame f.header.type f.header.version f.payload) ++ r ∧
        (∀ f ∈ p.frames, f.header.length.toNat = f.payload.length) ∧
        (r.length < 8 ∨ r.length < 8 + (u32At r 0).toNat)) ∧
      ∀ d : FrameDecoder,
        ∃ n d', 8 * n ≤ d.buffer.length ∧ d.afterFrames n = some d' ∧ d'.nextFrame = none :=
  ⟨split_reassembles c calls _ none rfl (Dict.get?_empty c), drain_ends⟩

end PacketPipeline

end DungeonHub
