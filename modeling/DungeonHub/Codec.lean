import DungeonHub.Lib.Dict
import DungeonHub.Bytes

/-!
# Frames and their reassembly

`codec.cpp` and the packet pipeline of `io_layer.cpp`. The decoder reads its buffer by pointer,
after it has checked that a whole header is there.
-/

namespace DungeonHub

open Wire

/-- A `std::chrono` time point, in nanoseconds. -/
abbrev Time := ℤ

/-- `std::chrono::milliseconds`, in nanoseconds. -/
def milliseconds (n : ℤ) : Time := n * 1000000

/-- `std::chrono::seconds`, in nanoseconds. -/
def seconds (n : ℤ) : Time := n * 1000000000

structure FrameHeader where
  length : UInt32
  type : UInt16
  version : UInt16
  deriving DecidableEq, Repr

section Codec

/-- `Codec::kHeaderSize`. -/
def headerSize : ℕ := 8

/-- `data[i]` of a raw pointer. -/
def byteAt (data : Bytes) (i : ℕ) : UInt8 := data.getD i 0

/-- `read_u32` of `codec.cpp`, at offset `o`. -/
def u32At (data : Bytes) (o : ℕ) : UInt32 :=
  ((byteAt data o).toUInt32 <<< 24) ||| ((byteAt data (o + 1)).toUInt32 <<< 16) |||
    ((byteAt data (o + 2)).toUInt32 <<< 8) ||| (byteAt data (o + 3)).toUInt32

/-- `read_u16` of `codec.cpp`, at offset `o`. -/
def u16At (data : Bytes) (o : ℕ) : UInt16 :=
  ((byteAt data o).toUInt16 <<< 8) ||| (byteAt data (o + 1)).toUInt16

/-- `Codec::encode`. -/
def encodeFrame (type version : UInt16) (payload : Bytes) : Bytes :=
  writeU32 (UInt32.ofNat payload.length) ++ writeU16 type ++ writeU16 version ++ payload

end Codec

section FrameDecoder

structure FrameDecoder where
  buffer : Bytes := []
  deriving DecidableEq

namespace FrameDecoder

def append (d : FrameDecoder) (data : Bytes) : FrameDecoder := ⟨d.buffer ++ data⟩

/-- The header at the front of a buffer that holds one. -/
def header (buffer : Bytes) : FrameHeader where
  length := u32At buffer 0
  type := u16At buffer 4
  version := u16At buffer 6

def nextFrame (d : FrameDecoder) : Option ((FrameHeader × Bytes) × FrameDecoder) :=
  if d.buffer.length < headerSize then none
  else
    let h := header d.buffer
    if d.buffer.length < headerSize + h.length.toNat then none
    else some ((h, (d.buffer.drop headerSize).take h.length.toNat),
      ⟨d.buffer.drop (headerSize + h.length.toNat)⟩)

theorem nextFrame_length {d d' : FrameDecoder} {f : FrameHeader × Bytes}
    (h : d.nextFrame = some (f, d')) : d'.buffer.length < d.buffer.length := by
  unfold nextFrame at h
  simp only [] at h
  split_ifs at h with h1 h2
  simp only [Option.some.injEq, Prod.mk.injEq] at h
  obtain ⟨-, rfl⟩ := h
  simp only [List.length_drop, headerSize] at h1 h2 ⊢
  omega

/-- The frames of `while (nextFrame(..))`, and the decoder it leaves. Every frame takes its header
off the buffer, so the loop ends. -/
def drain (d : FrameDecoder) : List (FrameHeader × Bytes) × FrameDecoder :=
  match h : d.nextFrame with
  | none => ([], d)
  | some (f, d') =>
    have := nextFrame_length h
    let r := drain d'
    (f :: r.1, r.2)
  termination_by d.buffer.length

/-- The decoder after `n` calls of `nextFrame` that each returned a frame. -/
def afterFrames : ℕ → FrameDecoder → Option FrameDecoder
  | 0, d => some d
  | n + 1, d => d.nextFrame.bind fun r => afterFrames n r.2

end FrameDecoder

end FrameDecoder

section PacketPipeline

/-- A call of the pipeline's `DispatchFn`. -/
structure Dispatch where
  connectionId : UInt64
  header : FrameHeader
  payload : Bytes
  now : Time

/-- `dispatch` says whether a `DispatchFn` was given; what it is called with is the output of
`onRead`. -/
structure PacketPipeline where
  dispatch : Bool
  decoders : Dict UInt64 FrameDecoder := ∅

namespace PacketPipeline

def registerConnection (pl : PacketPipeline) (connectionId : UInt64) : PacketPipeline :=
  -- emplace leaves a decoder that is there alone
  if connectionId ∈ pl.decoders then pl
  else { pl with decoders := pl.decoders.insert connectionId {} }

def removeConnection (pl : PacketPipeline) (connectionId : UInt64) : PacketPipeline :=
  { pl with decoders := pl.decoders.erase connectionId }

def onRead (pl : PacketPipeline) (connectionId : UInt64) (payload : Bytes) (now : Time) :
    List Dispatch × PacketPipeline :=
  match pl.decoders[connectionId]? with
  | none => ([], pl)
  | some d =>
    let r := (d.append payload).drain
    (if pl.dispatch then r.1.map fun f => ⟨connectionId, f.1, f.2, now⟩ else [],
      { pl with decoders := pl.decoders.insert connectionId r.2 })

/-- A call on the pipeline. -/
inductive Call where
  | registerConnection (connectionId : UInt64)
  | removeConnection (connectionId : UInt64)
  | onRead (connectionId : UInt64) (payload : Bytes) (now : Time)

/-- What a call dispatches, and the pipeline it leaves. -/
def call (pl : PacketPipeline) : Call → List Dispatch × PacketPipeline
  | .registerConnection c => ([], pl.registerConnection c)
  | .removeConnection c => ([], pl.removeConnection c)
  | .onRead c payload now => pl.onRead c payload now

/-- The calls of a run, each with what it dispatched. -/
def trace (pl : PacketPipeline) : List Call → List (Call × List Dispatch)
  | [] => []
  | c :: calls => (c, (pl.call c).1) :: trace (pl.call c).2 calls

end PacketPipeline

/-- A registration period of a connection: the bytes read on it, and the frames dispatched. -/
structure Period where
  bytes : Bytes := []
  frames : List Dispatch := []

namespace Period

/-- A period of connection `c` after a read on connection `c'`: the bytes count if the two are one,
the dispatches if they are for `c`. -/
def extend (p : Period) (c c' : UInt64) (payload : Bytes) (out : List Dispatch) : Period where
  bytes := if c' = c then p.bytes ++ payload else p.bytes
  frames := p.frames ++ out.filter fun f => f.connectionId = c

/-- The registration periods of connection `c` over calls and what each dispatched, `p` being the
one that is open at their start. Registering a connection that is registered opens no new one. -/
def split (c : UInt64) (p : Option Period) :
    List (PacketPipeline.Call × List Dispatch) → List Period
  | [] => p.toList
  | (.registerConnection c', _) :: rest => split c (if c' = c then some (p.getD {}) else p) rest
  | (.removeConnection c', _) :: rest =>
    if c' = c then p.toList ++ split c none rest else split c p rest
  | (.onRead c' payload _, out) :: rest =>
    split c (p.map fun p => p.extend c c' payload out) rest

end Period

end PacketPipeline

end DungeonHub
