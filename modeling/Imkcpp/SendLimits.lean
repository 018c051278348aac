import Imkcpp.Execution
import Imkcpp.Messages

/-! The limits of `send`. It compares a number of segments with two bounds, and the
estimate that callers are given multiplies the bounds by the size of a segment; both
describe the same buffers as long as products and lengths fit into their types. -/
namespace Imkcpp

open Fragmentation

variable {mtu : Mtu}

namespace Sender

/-- The sum in `estimate_segments_count` may wrap as a `size_t`, but only if one segment
is enough for the buffer, and then the quotient does not matter. -/
theorem estimateSegmentsCount_eq_wrapped (hMtu : mtu.bytes < 2 ^ 64) {size : Nat}
    (hSize : size < 2 ^ 63) :
    estimateSegmentsCount mtu size =
      max 1 ((size + mtu.maxSegmentSize - 1) % 2 ^ 64 / mtu.maxSegmentSize) := by
  have hMss := mtu.maxSegmentSize_pos
  have hBytes := mtu.maxSegmentSize_add
  unfold estimateSegmentsCount
  rcases Nat.lt_or_ge (size + mtu.maxSegmentSize - 1) (2 ^ 64) with hFits | hWraps
  · rw [Nat.mod_eq_of_lt hFits]
  · have hOne : (size + mtu.maxSegmentSize - 1) / mtu.maxSegmentSize ≤ 1 := by
      refine Nat.le_of_lt_succ ((Nat.div_lt_iff_lt_mul hMss).mpr ?_)
      omega
    have hZero : (size + mtu.maxSegmentSize - 1) % 2 ^ 64 / mtu.maxSegmentSize = 0 := by
      refine Nat.div_eq_of_lt ?_
      omega
    rw [max_eq_left hOne, hZero]
    rfl

/-- A bound on the number of segments is a bound on the number of bytes. -/
theorem estimateSegmentsCount_le_iff {size bound : Nat} (hSize : 0 < size) :
    estimateSegmentsCount mtu size ≤ bound ↔ size ≤ mtu.maxSegmentSize * bound := by
  have hMss := mtu.maxSegmentSize_pos
  rw [estimateSegmentsCount, max_le_iff, Nat.div_le_iff_le_mul_add_pred hMss]
  rcases Nat.eq_zero_or_pos bound with rfl | hBound
  · rw [Nat.mul_zero]
    omega
  · omega

/-- The count is the quotient, rounded up. -/
theorem estimateSegmentsCount_eq_div {size : Nat} (hSize : 0 < size) :
    estimateSegmentsCount mtu size = (size + mtu.maxSegmentSize - 1) / mtu.maxSegmentSize := by
  have hMss := mtu.maxSegmentSize_pos
  refine max_eq_right ?_
  rw [Nat.le_div_iff_mul_le hMss]
  omega

end Sender

/-- A buffer cut into segments as `send` should do it. -/
structure Fragmented (mtu : Mtu) (buffer : List UInt8) (segs : List Segment) : Prop where
  count_eq : segs.length = (buffer.length + mtu.maxSegmentSize - 1) / mtu.maxSegmentSize
  joined : segs.flatMap Segment.data = buffer
  full : ∀ seg ∈ segs.dropLast, seg.data.length = mtu.maxSegmentSize
  sizes : ∀ seg ∈ segs, 1 ≤ seg.data.length ∧ seg.data.length ≤ mtu.maxSegmentSize
  frg_eq : segs.map (fun seg => seg.header.frg.toNat) = (List.range segs.length).reverse
  len_eq : ∀ seg ∈ segs, seg.header.len.toNat = seg.data.length

theorem fragmented_fragments {buffer : List UInt8} (hBuffer : buffer ≠ [])
    (hCount : Sender.estimateSegmentsCount mtu buffer.length ≤ 255)
    (hSmall : ∀ piece ∈ fragments mtu buffer, piece.payload.length < 2 ^ 32) :
    Fragmented mtu buffer ((fragments mtu buffer).map Sender.segmentOf) := by
  have hSize := List.length_pos_iff.mpr hBuffer
  obtain ⟨hFits, hNeeded⟩ := Sender.estimateSegmentsCount_spec mtu hSize
  have hSendable := Sender.segmentOf_sendable hBuffer hSmall
  have hFragments := Sender.map_fragment_segmentOf hCount
  have hLength : ((fragments mtu buffer).map Sender.segmentOf).length =
      Sender.estimateSegmentsCount mtu buffer.length := by
    rw [List.length_map, fragments, split_length]
  constructor
  · rw [hLength, Sender.estimateSegmentsCount_eq_div hSize]
  · rw [List.flatMap_map]
    exact flatMap_payload_split _ _ _ hFits
  · rw [← List.map_dropLast]
    intro seg hSeg
    obtain ⟨piece, hPiece, rfl⟩ := List.mem_map.mp hSeg
    exact payload_length_of_mem_dropLast _ _ _ hNeeded piece hPiece
  · intro seg hSeg
    have hSeg := hSendable seg hSeg
    exact ⟨List.length_pos_iff.mpr hSeg.data_ne_nil, hSeg.data_length_le⟩
  · have hFrg := congrArg (List.map Fragment.remaining) hFragments
    rw [List.map_map, fragments, map_remaining_split] at hFrg
    rw [hLength]
    exact hFrg
  · exact fun seg hSeg => (hSendable seg hSeg).len_eq

namespace ImKcpp

/-- What callers may expect of `send`: the estimate tells which buffers it takes, these
it queues in pieces, and the others it refuses without a trace. -/
def SendsAsEstimated (s : ImKcpp mtu) (buffer : List UInt8) : Prop :=
  ∃ next result, s.send buffer = .ok (next, result) ∧
    ((∃ size, result = .ok size) ↔ 1 ≤ buffer.length ∧ buffer.length ≤ s.estimateMaxPayloadSize) ∧
    (∀ size, result = .ok size → size = buffer.length ∧ ∃ segs, Fragmented mtu buffer segs ∧
      segs.length = s.estimateSegmentsCount buffer.length ∧
      next = { s with sender := { s.sender with sndQueue := s.sender.sndQueue ++ segs } }) ∧
    (∀ error, result = .error error → next = s)

/-- The bytes that fit into as many segments as the limits allow. -/
def payloadLimit (s : ImKcpp mtu) : Nat :=
  mtu.maxSegmentSize * min s.congestionController.rcvWnd.toNat 255

section Cases

variable {s : ImKcpp mtu} {buffer : List UInt8}

/-- A refused buffer is refused as it should be when the estimate excludes it. -/
theorem sendsAsEstimated_of_refused
    (hRefused : buffer = [] ∨ 255 < Sender.estimateSegmentsCount mtu buffer.length ∨
      s.congestionController.rcvWnd.toNat < Sender.estimateSegmentsCount mtu buffer.length)
    (hBeyond : buffer.length = 0 ∨ s.estimateMaxPayloadSize < buffer.length) :
    s.SendsAsEstimated buffer := by
  obtain ⟨error, hSend⟩ :=
    @Sender.send_refused mtu s.sender s.congestionController.rcvWnd buffer hRefused
  refine ⟨s, .error error, ?_, ?_, ?_, fun _ _ => rfl⟩
  · rw [send, hSend]
    rfl
  · refine iff_of_false ?_ (by omega)
    rintro ⟨size, hSize⟩
    cases hSize
  · rintro size hSize
    cases hSize

/-- A queued buffer is queued as it should be, but the estimate may exclude it. -/
theorem sendsAsEstimated_queued_iff (hBuffer : buffer ≠ [])
    (hCount : Sender.estimateSegmentsCount mtu buffer.length ≤ 255)
    (hSmall : ∀ piece ∈ fragments mtu buffer, piece.payload.length < 2 ^ 32)
    (hSend : Sender.send mtu s.sender s.congestionController.rcvWnd buffer =
      .ok ({ s.sender with
        sndQueue := s.sender.sndQueue ++ (fragments mtu buffer).map Sender.segmentOf },
        .ok buffer.length)) :
    s.SendsAsEstimated buffer ↔ buffer.length ≤ s.estimateMaxPayloadSize := by
  have hSize := List.length_pos_iff.mpr hBuffer
  have hSend : s.send buffer = .ok ({ s with sender := { s.sender with
      sndQueue := s.sender.sndQueue ++ (fragments mtu buffer).map Sender.segmentOf } },
      .ok buffer.length) := by
    rw [send, hSend]
    rfl
  constructor
  · rintro ⟨next, result, hNext, hIff, -, -⟩
    cases hSend.symm.trans hNext
    exact (hIff.mp ⟨_, rfl⟩).2
  · intro hLe
    refine ⟨_, _, hSend, ⟨fun _ => ⟨hSize, hLe⟩, fun _ => ⟨_, rfl⟩⟩, ?_, ?_⟩
    · rintro size hOk
      cases hOk
      refine ⟨rfl, _, fragmented_fragments hBuffer hCount hSmall, ?_, rfl⟩
      rw [List.length_map, fragments, split_length]
      rfl
    · rintro error hError
      cases hError

theorem not_sendsAsEstimated_of_fault {fault : Fault}
    (hSend : Sender.send mtu s.sender s.congestionController.rcvWnd buffer = .error fault) :
    ¬s.SendsAsEstimated buffer := by
  have hSend : s.send buffer = .error fault := by
    rw [send, hSend]
    rfl
  rintro ⟨next, result, hNext, -⟩
  cases hSend.symm.trans hNext

end Cases

/-- `send` does what the estimate says for buffers that are empty or beyond all limits,
and for those whose segments have a length that fits into `len` and which are within the
estimate even if this has wrapped. -/
theorem sends_as_estimated_iff (s : ImKcpp mtu) (buffer : List UInt8) :
    s.SendsAsEstimated buffer ↔ buffer.length = 0 ∨ s.payloadLimit < buffer.length ∨
      (min buffer.length mtu.maxSegmentSize < 2 ^ 32 ∧
        buffer.length ≤ s.payloadLimit % 2 ^ 64) := by
  have hEstimate : s.estimateMaxPayloadSize = s.payloadLimit % 2 ^ 64 := rfl
  have hWrapped := Nat.mod_le s.payloadLimit (2 ^ 64)
  have hCount (hBuffer : buffer ≠ []) : Sender.estimateSegmentsCount mtu buffer.length ≤
      min s.congestionController.rcvWnd.toNat 255 ↔ buffer.length ≤ s.payloadLimit :=
    Sender.estimateSegmentsCount_le_iff (List.length_pos_iff.mpr hBuffer)
  by_cases hRefused : buffer = [] ∨ 255 < Sender.estimateSegmentsCount mtu buffer.length ∨
      s.congestionController.rcvWnd.toNat < Sender.estimateSegmentsCount mtu buffer.length
  · have hBeyond : buffer.length = 0 ∨ s.payloadLimit < buffer.length := by
      rw [List.length_eq_zero_iff]
      refine or_iff_not_imp_left.mpr fun hBuffer => ?_
      rw [← Nat.not_le, ← hCount hBuffer]
      have hMany := hRefused.resolve_left hBuffer
      omega
    exact iff_of_true (sendsAsEstimated_of_refused hRefused (by omega)) (by omega)
  · have hSize := List.length_pos_iff.mpr (mt .inl hRefused)
    have hWithin : buffer.length ≤ s.payloadLimit := by
      rw [← hCount (mt .inl hRefused)]
      omega
    rcases Sender.send_cases mtu s.sender s.congestionController.rcvWnd buffer with
      ⟨h, -⟩ | ⟨hBuffer, hMany, hWindow, hSmall, hSend⟩ | ⟨hLarge, hSend⟩
    · exact absurd h hRefused
    · have hMin := Sender.min_lt_of_small hSmall
      rw [sendsAsEstimated_queued_iff hBuffer hMany hSmall hSend, hEstimate]
      omega
    · exact iff_of_false (not_sendsAsEstimated_of_fault hSend) (by omega)

end ImKcpp

/-- One segment of 2^32 bytes is within the estimate, but its length is none that the
header can hold. -/
theorem sends_as_estimated_large :
    ¬∀ (host : Host) (mtu : Mtu) (conv : UInt32) (party : Party mtu),
      (endpointSystem host mtu conv).Reachable party →
        ∀ buffer : List UInt8, buffer.length < 2 ^ 63 →
        party.endpoint.SendsAsEstimated buffer := by
  intro hAll
  obtain ⟨buffer, hLength⟩ : ∃ buffer : List UInt8, buffer.length = 2 ^ 32 :=
    ⟨List.replicate (2 ^ 32) 0, List.length_replicate⟩
  obtain ⟨mtu, hMtu⟩ : ∃ mtu : Mtu, mtu.maxSegmentSize = 2 ^ 32 := ⟨⟨2 ^ 32 + 24, by decide⟩, rfl⟩
  have hSends := hAll Host.x8664 mtu 0 (.fresh mtu 0) (.of_init rfl) buffer (by omega)
  have hLimit : (Party.fresh mtu 0).endpoint.payloadLimit = 2 ^ 32 * 128 := by
    rw [ImKcpp.payloadLimit, hMtu]
    rfl
  rw [ImKcpp.sends_as_estimated_iff, hLimit, hLength, hMtu] at hSends
  omega

end Imkcpp
