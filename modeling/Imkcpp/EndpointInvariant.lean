import Imkcpp.Execution
import Imkcpp.Messages
import Imkcpp.Transmission

/-! The invariant of an endpoint under arbitrary calls and arbitrary input. Each
call is shown to keep it, and to succeed, from the invariants of the components. -/
namespace Imkcpp

open Transition

variable {mtu : Mtu}

namespace ImKcpp

structure Invariant (s : ImKcpp mtu) : Prop extends s.Sending where
  receiver : ReceiverInvariant s.receiver

theorem invariant_create (mtu : Mtu) (conv : UInt32) : (create mtu conv).Invariant where
  flusher_empty := rfl
  sender := SenderInvariant.init mtu conv
  receiver := ReceiverInvariant.init _

/-- The buffered numbers lie between `snd_una` and `snd_nxt`. -/
theorem Invariant.sndBuf_length_le {s : ImKcpp mtu} (h : s.Invariant) :
    s.senderBuffer.sndBuf.length ≤
      s.segmentTracker.sndNxt.toNat - s.segmentTracker.sndUna.toNat := by
  refine h.sender.increasing.length_le fun seg hSeg => ⟨?_, ?_⟩
  · exact UInt32.le_iff_toNat_le.mp (h.sender.una_le seg hSeg)
  · exact UInt32.lt_iff_toNat_lt.mp (h.sender.numbered seg hSeg)

section Input

@[simp] theorem applyPush_senderBuffer (s : ImKcpp mtu) (frame : Frame) :
    (s.applyPush frame).senderBuffer = s.senderBuffer := by
  unfold applyPush
  dsimp only
  split_ifs <;> rfl

@[simp] theorem applyPush_segmentTracker (s : ImKcpp mtu) (frame : Frame) :
    (s.applyPush frame).segmentTracker = s.segmentTracker := by
  unfold applyPush
  dsimp only
  split_ifs <;> rfl

@[simp] theorem applyFrame_sender (s : ImKcpp mtu) (frame : Frame) :
    (s.applyFrame frame).sender = s.sender := by
  unfold ImKcpp.applyFrame ImKcpp.applyPush
  dsimp only
  split_ifs <;> rfl

/-- Input does not give out numbers. -/
@[simp] theorem applyFrame_sndNxt (s : ImKcpp mtu) (frame : Frame) :
    (s.applyFrame frame).segmentTracker.sndNxt = s.segmentTracker.sndNxt := by
  have hHeader : (s.acceptHeader frame.header).segmentTracker.sndNxt = s.segmentTracker.sndNxt :=
    AckController.updateRemoteUna_sndNxt _ _
  unfold ImKcpp.applyFrame
  dsimp only
  split_ifs
  · rw [applyPush_segmentTracker, hHeader]
  · exact (AckController.ackReceived_sndNxt _ _ _).trans hHeader
  · exact hHeader
  · exact hHeader

theorem Invariant.acceptHeader {s : ImKcpp mtu} (h : s.Invariant) (header : SegmentHeader) :
    (s.acceptHeader header).Invariant :=
  { h with sender := h.sender.unaReceived header.una }

end Input
end ImKcpp

/-- The sending half does not mind what the peer sends. -/
theorem SenderInvariant.applyFrame {s : ImKcpp mtu}
    (h : SenderInvariant mtu s.sharedCtx.conv s.sender.sndQueue s.senderBuffer s.segmentTracker)
    (frame : Frame) :
    let t := s.applyFrame frame
    SenderInvariant mtu t.sharedCtx.conv t.sender.sndQueue t.senderBuffer t.segmentTracker := by
  have hHeader := h.unaReceived frame.header.una
  dsimp only
  rw [ImKcpp.applyFrame_sharedCtx, ImKcpp.applyFrame_sender]
  unfold ImKcpp.applyFrame
  dsimp only
  split_ifs
  · rw [ImKcpp.applyPush_senderBuffer, ImKcpp.applyPush_segmentTracker]
    exact hHeader
  · exact hHeader.ackReceived frame.header.sn
  · exact hHeader
  · exact hHeader

theorem SenderInvariant.foldl_applyFrame {s : ImKcpp mtu}
    (h : SenderInvariant mtu s.sharedCtx.conv s.sender.sndQueue s.senderBuffer s.segmentTracker)
    (frames : List Frame) :
    let t := frames.foldl ImKcpp.applyFrame s
    SenderInvariant mtu t.sharedCtx.conv t.sender.sndQueue t.senderBuffer t.segmentTracker := by
  induction frames generalizing s with
  | nil => exact h
  | cons frame rest ih => exact ih (h.applyFrame frame)

namespace ImKcpp

section Input

/-- A number that passes the window check cannot be the greatest one. -/
theorem succ_lt_of_fits {s : ImKcpp mtu} {rcvNxt sn : UInt32}
    (h : s.congestionController.fitsReceiveWindow rcvNxt sn = true) : sn.toNat + 1 < 2 ^ 32 := by
  have hLt : sn < rcvNxt + s.congestionController.rcvWnd := of_decide_eq_true h
  have hBound := (rcvNxt + s.congestionController.rcvWnd).toNat_lt
  rw [UInt32.lt_iff_toNat_lt] at hLt
  omega

theorem Invariant.applyPush {s : ImKcpp mtu} (h : s.Invariant) {frame : Frame}
    (hFrame : frame.WellFormed) : (s.applyPush frame).Invariant := by
  unfold ImKcpp.applyPush
  dsimp only
  split_ifs with hOutside hReceive
  · exact h
  · have hFits : s.congestionController.fitsReceiveWindow s.receiver.rcvNxt frame.header.sn =
        true := by
      simpa using hOutside
    exact { h with
      receiver := h.receiver.emplace hFrame (of_decide_eq_true hReceive) (succ_lt_of_fits hFits) }
  · exact { h with }

theorem Invariant.applyFrame {s : ImKcpp mtu} (h : s.Invariant) {frame : Frame}
    (hFrame : frame.Accepted s.sharedCtx.conv) : (s.applyFrame frame).Invariant := by
  have hHeader := h.acceptHeader frame.header
  unfold ImKcpp.applyFrame
  dsimp only
  split_ifs with hPush
  · exact hHeader.applyPush (hFrame.push_payload hPush)
  · exact { hHeader with sender := hHeader.sender.ackReceived frame.header.sn }
  · exact { hHeader with }
  · exact hHeader

/-- The state after a list of segments does not depend on the locals of `input`. -/
theorem foldl_inputFrame_fst (frames : List Frame) (s : ImKcpp mtu) (ctx : InputContext) :
    (frames.foldl inputFrame (s, ctx)).1 = frames.foldl ImKcpp.applyFrame s := by
  induction frames generalizing s ctx with
  | nil => rfl
  | cons frame rest ih => exact ih (s.applyFrame frame) (s.noteFrame frame ctx)

/-- Every segment takes its own bytes off the datagram. -/
theorem foldl_inputFrame_offset (host : Host) (frames : List Frame) (s : ImKcpp mtu)
    (ctx : InputContext) :
    (frames.foldl inputFrame (s, ctx)).2.offset = ctx.offset + (wire host frames).length := by
  induction frames generalizing s ctx with
  | nil => rfl
  | cons frame rest ih =>
      rw [List.foldl_cons, inputFrame, ih, noteFrame_offset, wire_cons, List.length_append,
        Frame.bytes_length]
      dsimp only
      omega

/-- What no single segment changes, a datagram does not change. -/
theorem foldl_applyFrame_eq {α : Type*} (read : ImKcpp mtu → α)
    (hStep : ∀ s frame, read (s.applyFrame frame) = read s) (frames : List Frame) (s : ImKcpp mtu) :
    read (frames.foldl ImKcpp.applyFrame s) = read s := by
  induction frames generalizing s with
  | nil => rfl
  | cons frame rest ih => rw [List.foldl_cons, ih, hStep]

@[simp] theorem foldl_applyFrame_sharedCtx (frames : List Frame) (s : ImKcpp mtu) :
    (frames.foldl ImKcpp.applyFrame s).sharedCtx = s.sharedCtx :=
  foldl_applyFrame_eq ImKcpp.sharedCtx applyFrame_sharedCtx frames s

@[simp] theorem foldl_applyFrame_sender (frames : List Frame) (s : ImKcpp mtu) :
    (frames.foldl ImKcpp.applyFrame s).sender = s.sender :=
  foldl_applyFrame_eq ImKcpp.sender applyFrame_sender frames s

@[simp] theorem foldl_applyFrame_sndNxt (frames : List Frame) (s : ImKcpp mtu) :
    (frames.foldl ImKcpp.applyFrame s).segmentTracker.sndNxt = s.segmentTracker.sndNxt :=
  foldl_applyFrame_eq (fun s => s.segmentTracker.sndNxt) applyFrame_sndNxt frames s

/-- The congestion controller only takes over the windows of the headers. -/
theorem foldl_applyFrame_congestionController (frames : List Frame) (s : ImKcpp mtu) :
    (frames.foldl ImKcpp.applyFrame s).congestionController = { s.congestionController with
      rmtWnd := (frames.getLast?.map fun frame => frame.header.wnd.toUInt32).getD
        s.congestionController.rmtWnd } := by
  induction frames generalizing s with
  | nil => rfl
  | cons frame rest ih =>
      have hFrame : (s.applyFrame frame).congestionController =
          { s.congestionController with rmtWnd := frame.header.wnd.toUInt32 } := by
        unfold ImKcpp.applyFrame ImKcpp.applyPush
        dsimp only
        split_ifs <;> rfl
      rw [List.foldl_cons, ih, hFrame, List.getLast?_cons]
      cases rest.getLast? <;> rfl

/-- What every acceptable segment preserves, a datagram preserves. -/
theorem Invariant.foldl_induct {P : ImKcpp mtu → Prop}
    (hStep : ∀ t frame, t.Invariant → frame.Accepted t.sharedCtx.conv → P t →
      P (t.applyFrame frame))
    {s : ImKcpp mtu} (h : s.Invariant) {frames : List Frame}
    (hFrames : ∀ frame ∈ frames, frame.Accepted s.sharedCtx.conv) (hStart : P s) :
    P (frames.foldl ImKcpp.applyFrame s) := by
  induction frames generalizing s with
  | nil => exact hStart
  | cons frame rest ih =>
      have hFrame := hFrames frame (by simp)
      refine ih (h.applyFrame hFrame) ?_ (hStep s frame h hFrame hStart)
      intro other hOther
      rw [applyFrame_sharedCtx]
      exact hFrames other (by simp [hOther])

theorem Invariant.foldl_applyFrame {s : ImKcpp mtu} (h : s.Invariant) {frames : List Frame}
    (hFrames : ∀ frame ∈ frames, frame.Accepted s.sharedCtx.conv) :
    (frames.foldl ImKcpp.applyFrame s).Invariant :=
  h.foldl_induct (fun _ _ hPrior hFrame _ => hPrior.applyFrame hFrame) hFrames h

/-- `input` folds over the segments it sees, and finishes unless there is an error. -/
theorem input_folded {host : Host} {s t : ImKcpp mtu} {data : List UInt8}
    {result : Except Error InputResult} (h : s.input host data = .ok (t, result)) :
    let folded := (scan host s.sharedCtx.conv data).1.foldl ImKcpp.applyFrame s
    t = folded ∨ ∃ ctx, t = folded.finishInput s.segmentTracker.sndUna ctx := by
  intro folded
  by_cases hShort : data.length < 24
  · have hScan : scan host s.sharedCtx.conv data = ([], .ok data.length) := by
      rw [scan, dif_pos hShort]
    have hSame : s.input host data = .ok (s, .error .lessThanHeaderSize) := if_pos hShort
    obtain ⟨rfl, -⟩ := Prod.mk.inj (Except.ok.inj (hSame.symm.trans h))
    left
    simp only [folded, hScan, List.foldl_nil]
  · have hEq := input_eq host s data (Nat.le_of_not_lt hShort)
    dsimp only at hEq
    rw [h, foldl_inputFrame_fst] at hEq
    cases hEnd : (scan host s.sharedCtx.conv data).2 with
    | error error =>
        rw [hEnd] at hEq
        exact .inl (Prod.mk.inj (Except.ok.inj hEq)).1
    | ok left =>
        rw [hEnd] at hEq
        exact .inr ⟨_, (Prod.mk.inj (Except.ok.inj hEq)).1⟩

/-- Fast-ack counting touches only metadata. -/
theorem acknowledgeFastack_core (ctx : FastAckCtx) (buffer : SenderBuffer)
    (tracker : SegmentTracker) :
    (AckController.acknowledgeFastack ctx buffer tracker).sndBuf.map Segment.core =
      buffer.sndBuf.map Segment.core := by
  unfold AckController.acknowledgeFastack
  split_ifs
  · rfl
  · rfl
  · exact SenderBuffer.incrementFastackLoop_map (fun _ _ => rfl) ctx.maxack buffer.sndBuf

/-- Whatever the bytes, `input` stays inside them and returns; the state it
leaves differs from the fold over the segments in counters of no consequence
for the invariant. -/
theorem input_spec (host : Host) (s : ImKcpp mtu) (data : List UInt8) :
    ∃ sndBuf controller result,
      let folded := (scan host s.sharedCtx.conv data).1.foldl ImKcpp.applyFrame s
      s.input host data =
        .ok ({ folded with senderBuffer := ⟨sndBuf⟩, congestionController := controller }, result) ∧
      sndBuf.map Segment.core = folded.senderBuffer.sndBuf.map Segment.core ∧
      controller.rcvWnd = folded.congestionController.rcvWnd ∧
      ∀ counts, result = .ok counts → counts.totalBytesReceived ≤ data.length := by
  by_cases hShort : data.length < 24
  · have hScan : scan host s.sharedCtx.conv data = ([], .ok data.length) := by
      rw [scan, dif_pos hShort]
    refine ⟨s.senderBuffer.sndBuf, s.congestionController, .error .lessThanHeaderSize, ?_,
      ?_, ?_, ?_⟩
    · rw [hScan]
      exact if_pos hShort
    · rw [hScan]
      rfl
    · rw [hScan]
      rfl
    · simp
  · rw [input_eq host s data (Nat.le_of_not_lt hShort), ← foldl_inputFrame_fst _ _ {}]
    dsimp only
    cases hEnd : (scan host s.sharedCtx.conv data).2 with
    | error error => exact ⟨_, _, _, rfl, rfl, rfl, by simp⟩
    | ok left =>
        refine ⟨_, _, _, rfl, acknowledgeFastack_core _ _ _, ?_, ?_⟩
        · split_ifs
          · exact CongestionController.adjustParameters_rcvWnd mtu _
          · rfl
        · rintro counts ⟨⟩
          have hLength := scan_length host s.sharedCtx.conv data left hEnd
          dsimp only
          rw [foldl_inputFrame_offset host]
          simp only [Nat.zero_add]
          omega

end Input
end ImKcpp
end Imkcpp
