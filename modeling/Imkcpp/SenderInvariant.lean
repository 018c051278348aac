import Imkcpp.Sender

/-! The invariant of the sending half, and what each operation on it preserves.
The operations that touch `snd_una`, `snd_nxt` and the sender buffer separately
all leave the buffer ordered, numbered below `snd_nxt`, and headed by `snd_una`. -/
namespace Imkcpp

open OrderedList

variable {mtu : Mtu}

/-- A segment that fits into a datagram and carries the payload it announces. -/
structure Segment.Sendable (mtu : Mtu) (seg : Segment) : Prop where
  len_eq : seg.header.len.toNat = seg.data.length
  data_ne_nil : seg.data ≠ []
  data_length_le : seg.data.length ≤ mtu.maxSegmentSize

/-- What retransmission never changes: all but the metadata and the three header
fields that every transmission refreshes. -/
def Segment.core (seg : Segment) : SegmentHeader × List UInt8 :=
  ({ seg.header with ts := 0, wnd := 0, una := 0 }, seg.data)

theorem Segment.core_eq_iff {a b : Segment} :
    a.core = b.core ↔ a.header.conv = b.header.conv ∧ a.header.cmd = b.header.cmd ∧
      a.header.frg = b.header.frg ∧ a.header.sn = b.header.sn ∧ a.header.len = b.header.len ∧
      a.data = b.data := by
  simp [Segment.core, and_assoc]

/-- A segment of the sender buffer. -/
structure Segment.InFlight (mtu : Mtu) (conv : UInt32) (seg : Segment) : Prop where
  sendable : seg.Sendable mtu
  cmd_eq : seg.header.cmd = Commands.push
  conv_eq : seg.header.conv = conv

structure SenderInvariant (mtu : Mtu) (conv : UInt32) (sndQueue : List Segment)
    (buffer : SenderBuffer) (tracker : SegmentTracker) : Prop where
  queued : ∀ seg ∈ sndQueue, seg.Sendable mtu
  inFlight : ∀ seg ∈ buffer.sndBuf, seg.InFlight mtu conv
  increasing : Increasing Segment.key buffer.sndBuf
  numbered : ∀ seg ∈ buffer.sndBuf, seg.header.sn < tracker.sndNxt
  una_eq : tracker.sndUna = buffer.getFirstSequenceNumberInFlight.getD tracker.sndNxt

/-- `update_remote_una` re-establishes the last clause of the invariant. -/
theorem AckController.updateRemoteUna_eq (buffer : SenderBuffer) (tracker : SegmentTracker) :
    AckController.updateRemoteUna buffer tracker =
      { tracker with sndUna := buffer.getFirstSequenceNumberInFlight.getD tracker.sndNxt } := by
  unfold updateRemoteUna SegmentTracker.resetSndUna
  cases buffer.getFirstSequenceNumberInFlight <;> rfl

theorem AckController.shouldAcknowledge_iff {tracker : SegmentTracker} {sn : UInt32} :
    shouldAcknowledge tracker sn = true ↔ tracker.sndUna ≤ sn ∧ sn < tracker.sndNxt := by
  unfold shouldAcknowledge
  split_ifs with hOutside
  · simp only [false_iff, not_and, UInt32.not_lt]
    intro hLow
    exact hOutside.resolve_left (UInt32.not_lt.mpr hLow)
  · obtain ⟨hLow, hHigh⟩ := not_or.mp hOutside
    exact iff_of_true rfl ⟨UInt32.not_lt.mp hLow, UInt32.not_le.mp hHigh⟩

/-- An induction principle for the admission loop: a property of queue, buffer
and tracker that one admission preserves holds at the end of the loop. -/
theorem Sender.moveSendQueueToBuffer_induct {conv rto cwnd current : UInt32} {wnd : Int32}
    {rcvNxt : UInt32} {P : List Segment → SenderBuffer → SegmentTracker → Prop}
    (hStep : ∀ newseg rest buffer tracker, tracker.sndNxt < tracker.sndUna + cwnd →
      P (newseg :: rest) buffer tracker →
      P rest (buffer.pushSegment (stampSegment conv rto current wnd tracker.sndNxt rcvNxt newseg))
        { tracker with sndNxt := tracker.sndNxt + 1 })
    {sndQueue : List Segment} {buffer : SenderBuffer} {tracker : SegmentTracker}
    (hStart : P sndQueue buffer tracker) :
    let moved := moveSendQueueToBuffer conv rto cwnd current wnd rcvNxt sndQueue buffer tracker
    P moved.1 moved.2.1 moved.2.2 := by
  induction sndQueue generalizing buffer tracker with
  | nil => exact hStart
  | cons newseg rest ih =>
      unfold moveSendQueueToBuffer
      split_ifs with hWindow
      · exact ih (hStep newseg rest buffer tracker hWindow hStart)
      · exact hStart

/-- The plain comparison of the admission loop keeps `snd_nxt` from wrapping. -/
theorem SegmentTracker.sndNxt_succ {tracker : SegmentTracker} {bound : UInt32}
    (hWindow : tracker.sndNxt < bound) : (tracker.sndNxt + 1).toNat = tracker.sndNxt.toNat + 1 := by
  have hLt := UInt32.lt_iff_toNat_lt.mp hWindow
  have hBound := bound.toNat_lt
  rw [UInt32.toNat_add, UInt32.toNat_one, Nat.mod_eq_of_lt (by omega)]

namespace SenderInvariant

variable {conv : UInt32} {sndQueue : List Segment} {buffer : SenderBuffer}
    {tracker : SegmentTracker}

theorem init (mtu : Mtu) (conv : UInt32) : SenderInvariant mtu conv [] {} {} where
  queued := by simp
  inFlight := by simp
  increasing := increasing_nil
  numbered := by simp
  una_eq := rfl

/-- `snd_una` is a lower bound of the buffered numbers. -/
theorem una_le (h : SenderInvariant mtu conv sndQueue buffer tracker) :
    ∀ seg ∈ buffer.sndBuf, tracker.sndUna ≤ seg.header.sn := by
  intro seg hSeg
  have hUna := h.una_eq
  rw [SenderBuffer.getFirstSequenceNumberInFlight] at hUna
  have hIncreasing := h.increasing
  cases hBuffer : buffer.sndBuf with
  | nil => simp [hBuffer] at hSeg
  | cons first rest =>
      rw [hBuffer] at hUna hIncreasing hSeg
      rw [hUna]
      exact UInt32.le_iff_toNat_le.mpr (hIncreasing.head_le seg hSeg)

theorem una_le_nxt (h : SenderInvariant mtu conv sndQueue buffer tracker) :
    tracker.sndUna ≤ tracker.sndNxt := by
  have hUna := h.una_eq
  rw [SenderBuffer.getFirstSequenceNumberInFlight] at hUna
  cases hBuffer : buffer.sndBuf with
  | nil => simp [hUna, hBuffer]
  | cons first rest =>
      rw [hUna, hBuffer]
      exact UInt32.le_of_lt (h.numbered first (by simp [hBuffer]))

/-- Queueing more segments that can be sent. -/
theorem enqueue (h : SenderInvariant mtu conv sndQueue buffer tracker) {segs : List Segment}
    (hSegs : ∀ seg ∈ segs, seg.Sendable mtu) :
    SenderInvariant mtu conv (sndQueue ++ segs) buffer tracker := by
  refine { h with queued := ?_ }
  intro seg hSeg
  rcases List.mem_append.mp hSeg with hSeg | hSeg
  · exact h.queued seg hSeg
  · exact hSegs seg hSeg

/-- Admitting the first queued segment to the buffer. -/
theorem admission {newseg : Segment} {rest : List Segment}
    (h : SenderInvariant mtu conv (newseg :: rest) buffer tracker)
    {rto cwnd current : UInt32} {wnd : Int32} {rcvNxt : UInt32}
    (hWindow : tracker.sndNxt < tracker.sndUna + cwnd) :
    SenderInvariant mtu conv rest
      (buffer.pushSegment (Sender.stampSegment conv rto current wnd tracker.sndNxt rcvNxt newseg))
      { tracker with sndNxt := tracker.sndNxt + 1 } := by
  have hSucc := SegmentTracker.sndNxt_succ hWindow
  have hNew := h.queued newseg (by simp)
  refine ⟨fun seg hSeg => h.queued seg (by simp [hSeg]), ?_, ?_, ?_, ?_⟩
  · intro seg hSeg
    rcases List.mem_append.mp hSeg with hSeg | hSeg
    · exact h.inFlight seg hSeg
    · rw [List.mem_singleton.mp hSeg]
      exact ⟨⟨hNew.len_eq, hNew.data_ne_nil, hNew.data_length_le⟩, rfl, rfl⟩
  · exact h.increasing.concat fun seg hSeg => UInt32.lt_iff_toNat_lt.mp (h.numbered seg hSeg)
  · intro seg hSeg
    rw [UInt32.lt_iff_toNat_lt, hSucc]
    rcases List.mem_append.mp hSeg with hSeg | hSeg
    · exact Nat.lt_succ_of_lt (UInt32.lt_iff_toNat_lt.mp (h.numbered seg hSeg))
    · rw [List.mem_singleton.mp hSeg]
      exact Nat.lt_succ_self _
  · have hUna := h.una_eq
    simp only [SenderBuffer.getFirstSequenceNumberInFlight, SenderBuffer.pushSegment] at hUna ⊢
    cases hBuffer : buffer.sndBuf with
    | nil => simpa [hBuffer, Sender.stampSegment] using hUna
    | cons first others => simpa [hBuffer] using hUna

/-- The admission loop as a whole. -/
theorem move (h : SenderInvariant mtu conv sndQueue buffer tracker)
    (rto cwnd current : UInt32) (wnd : Int32) (rcvNxt : UInt32) :
    let moved := Sender.moveSendQueueToBuffer conv rto cwnd current wnd rcvNxt
      sndQueue buffer tracker
    SenderInvariant mtu conv moved.1 moved.2.1 moved.2.2 :=
  Sender.moveSendQueueToBuffer_induct (P := SenderInvariant mtu conv)
    (fun _ _ _ _ hWindow hPrior => hPrior.admission hWindow) h

/-- Removing segments from the buffer, then `update_remote_una`. -/
theorem discard (h : SenderInvariant mtu conv sndQueue buffer tracker) {left : SenderBuffer}
    (hSub : left.sndBuf.Sublist buffer.sndBuf) :
    SenderInvariant mtu conv sndQueue left (AckController.updateRemoteUna left tracker) := by
  rw [AckController.updateRemoteUna_eq]
  refine ⟨h.queued, ?_, h.increasing.sublist hSub, ?_, rfl⟩
  · exact fun seg hSeg => h.inFlight seg (hSub.subset hSeg)
  · exact fun seg hSeg => h.numbered seg (hSub.subset hSeg)

/-- Removing segments from the buffer never lowers `snd_una`. -/
theorem una_le_discard (h : SenderInvariant mtu conv sndQueue buffer tracker) {left : SenderBuffer}
    (hSub : left.sndBuf.Sublist buffer.sndBuf) :
    tracker.sndUna ≤ (AckController.updateRemoteUna left tracker).sndUna := by
  rw [AckController.updateRemoteUna_eq, SenderBuffer.getFirstSequenceNumberInFlight]
  cases hLeft : left.sndBuf with
  | nil => exact h.una_le_nxt
  | cons first rest =>
      refine h.una_le first (hSub.subset ?_)
      rw [hLeft]
      exact List.mem_cons_self

/-- Changes that keep the core of every buffered segment. -/
theorem refresh (h : SenderInvariant mtu conv sndQueue buffer tracker) {sndBuf : List Segment}
    (hCore : sndBuf.map Segment.core = buffer.sndBuf.map Segment.core) :
    SenderInvariant mtu conv sndQueue ⟨sndBuf⟩ tracker := by
  have hOld : ∀ seg ∈ sndBuf, ∃ old ∈ buffer.sndBuf, seg.core = old.core := by
    intro seg hSeg
    have hMem : seg.core ∈ buffer.sndBuf.map Segment.core :=
      hCore ▸ List.mem_map_of_mem (f := Segment.core) hSeg
    obtain ⟨old, hOld, hEq⟩ := List.mem_map.mp hMem
    exact ⟨old, hOld, hEq.symm⟩
  refine ⟨h.queued, ?_, ?_, ?_, ?_⟩
  · intro seg hSeg
    obtain ⟨old, hOld, hEq⟩ := hOld seg hSeg
    obtain ⟨hConv, hCmd, -, -, hLen, hData⟩ := Segment.core_eq_iff.mp hEq
    obtain ⟨⟨hLenEq, hNonempty, hLe⟩, hPush, hConvEq⟩ := h.inFlight old hOld
    refine ⟨⟨?_, ?_, ?_⟩, hCmd.trans hPush, hConv.trans hConvEq⟩
    · rw [hLen, hData, hLenEq]
    · rwa [hData]
    · rwa [hData]
  · refine h.increasing.of_map_eq ?_
    have hKeys := congrArg (List.map fun core => core.1.sn.toNat) hCore
    rw [List.map_map, List.map_map] at hKeys
    exact hKeys
  · intro seg hSeg
    obtain ⟨old, hOld, hEq⟩ := hOld seg hSeg
    rw [(Segment.core_eq_iff.mp hEq).2.2.2.1]
    exact h.numbered old hOld
  · have hHead := congrArg (fun cores => (cores.head?.map fun core => core.1.sn)) hCore
    simp only [List.head?_map, Option.map_map] at hHead
    rw [h.una_eq]
    exact congrArg (Option.getD · tracker.sndNxt) hHead.symm

/-- `una_received` keeps exactly the segments that the field does not cover. -/
theorem unaReceived_sndBuf (h : SenderInvariant mtu conv sndQueue buffer tracker) (una : UInt32) :
    (AckController.unaReceived una buffer tracker).1.sndBuf =
      buffer.sndBuf.filter fun seg => decide (una ≤ seg.header.sn) :=
  SenderBuffer.eraseBeforeLoop_eq_filter h.increasing una

theorem unaReceived_sublist (h : SenderInvariant mtu conv sndQueue buffer tracker) (una : UInt32) :
    (AckController.unaReceived una buffer tracker).1.sndBuf.Sublist buffer.sndBuf := by
  rw [h.unaReceived_sndBuf]
  exact List.filter_sublist

theorem unaReceived (h : SenderInvariant mtu conv sndQueue buffer tracker) (una : UInt32) :
    let received := AckController.unaReceived una buffer tracker
    SenderInvariant mtu conv sndQueue received.1 received.2 :=
  h.discard (h.unaReceived_sublist una)

/-- `ack_received` keeps exactly the other segments, whether or not the number
passes `should_acknowledge`: a number that does not is in no buffered segment. -/
theorem ackReceived_sndBuf (h : SenderInvariant mtu conv sndQueue buffer tracker) (sn : UInt32) :
    (AckController.ackReceived sn buffer tracker).1.sndBuf =
      buffer.sndBuf.filter fun seg => decide (seg.header.sn ≠ sn) := by
  unfold AckController.ackReceived
  split_ifs with hInside
  · exact SenderBuffer.eraseLoop_eq_filter h.increasing sn
  · rw [eq_comm, List.filter_eq_self]
    intro seg hSeg
    rw [decide_eq_true_eq]
    rintro rfl
    exact hInside (AckController.shouldAcknowledge_iff.mpr ⟨h.una_le seg hSeg, h.numbered seg hSeg⟩)

theorem ackReceived_sublist (h : SenderInvariant mtu conv sndQueue buffer tracker) (sn : UInt32) :
    (AckController.ackReceived sn buffer tracker).1.sndBuf.Sublist buffer.sndBuf := by
  rw [h.ackReceived_sndBuf]
  exact List.filter_sublist

/-- After `ack_received` the tracker is as `update_remote_una` leaves it. -/
theorem ackReceived_tracker (h : SenderInvariant mtu conv sndQueue buffer tracker) (sn : UInt32) :
    (AckController.ackReceived sn buffer tracker).2 =
      AckController.updateRemoteUna (AckController.ackReceived sn buffer tracker).1 tracker := by
  unfold AckController.ackReceived
  split_ifs
  · rfl
  · rw [AckController.updateRemoteUna_eq, ← h.una_eq]

theorem ackReceived (h : SenderInvariant mtu conv sndQueue buffer tracker) (sn : UInt32) :
    let received := AckController.ackReceived sn buffer tracker
    SenderInvariant mtu conv sndQueue received.1 received.2 := by
  intro received
  rw [show received.2 = _ from h.ackReceived_tracker sn]
  exact h.discard (h.ackReceived_sublist sn)

end SenderInvariant

@[simp] theorem AckController.updateRemoteUna_sndNxt (buffer : SenderBuffer)
    (tracker : SegmentTracker) :
    (AckController.updateRemoteUna buffer tracker).sndNxt = tracker.sndNxt := by
  rw [AckController.updateRemoteUna_eq]

@[simp] theorem AckController.ackReceived_sndNxt (sn : UInt32) (buffer : SenderBuffer)
    (tracker : SegmentTracker) :
    (AckController.ackReceived sn buffer tracker).2.sndNxt = tracker.sndNxt := by
  unfold AckController.ackReceived
  split_ifs
  · exact AckController.updateRemoteUna_sndNxt _ _
  · rfl

end Imkcpp
