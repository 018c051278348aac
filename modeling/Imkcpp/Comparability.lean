import Imkcpp.ClockGranularity
import Imkcpp.ReceiveWindow

/-! The states in which the reference implementation does the same. Both take numbers and
times apart in different ways; in the lower half of the words this does not show, and what
is received there leads only to such states. -/
namespace Imkcpp

open OrderedList RoundTripTime

variable {mtu : Mtu} {host : Host}

/-- A receiver of numbers in the lower quarter, all of whose segments carry data. -/
structure Receiver.Modest (receiver : Receiver) : Prop where
  queued : ∀ seg ∈ receiver.rcvQueue, seg.data ≠ []
  buffered : ∀ seg ∈ receiver.rcvBuf, seg.data ≠ [] ∧ seg.key < 2 ^ 30
  rcvNxt_le : receiver.rcvNxt.toNat ≤ 2 ^ 30

namespace Receiver.Modest

variable {receiver : Receiver}

theorem move (h : receiver.Modest) : receiver.moveReceiveBufferToQueue.Modest := by
  refine Receiver.move_induct (P := Receiver.Modest) ?_ h
  intro receiver seg rest hBuf hNext _ hPrior
  obtain ⟨hData, hKey⟩ := hPrior.buffered seg (by simp [hBuf])
  refine ⟨fun other hOther => ?_,
    fun other hOther => hPrior.buffered other (by simp [hBuf, hOther]), ?_⟩
  · rcases List.mem_append.mp hOther with hOther | hOther
    · exact hPrior.queued other hOther
    · rw [List.mem_singleton.mp hOther]
      exact hData
  · have hSucc : (receiver.rcvNxt + 1).toNat ≤ receiver.rcvNxt.toNat + 1 := by
      rw [UInt32.toNat_add]
      exact Nat.mod_le _ _
    have hKey : receiver.rcvNxt.toNat < 2 ^ 30 := hNext ▸ hKey
    exact hSucc.trans hKey

theorem emplace (h : receiver.Modest) (hInvariant : ReceiverInvariant receiver)
    {header : SegmentHeader} {data : List UInt8} (hData : data ≠ [])
    (hSn : header.sn.toNat < 2 ^ 30) :
    (receiver.emplaceSegment header data).Modest := by
  rcases Receiver.emplaceSegment_cases hInvariant.increasing header data with
    ⟨-, hSame⟩ | ⟨-, hInsert⟩
  · rwa [hSame]
  · rw [hInsert]
    refine Receiver.Modest.move ⟨h.queued, fun seg hSeg => ?_, h.rcvNxt_le⟩
    rcases mem_insertByKey.mp hSeg with rfl | hSeg
    · exact ⟨hData, hSn⟩
    · exact h.buffered seg hSeg

theorem dequeue (h : receiver.Modest) {rest : List Segment} (hSuffix : rest <:+ receiver.rcvQueue) :
    { receiver with rcvQueue := rest }.Modest :=
  ⟨fun seg hSeg => h.queued seg (hSuffix.subset hSeg), h.buffered, h.rcvNxt_le⟩

end Receiver.Modest

/-- The estimates that both compute alike: none yet, or one of at least a millisecond, so
that the lower bound of the reference implementation does not matter. -/
def RtoCalculator.Steady (rc : RtoCalculator) : Prop :=
  rc.srtt = 0 ∨ rc.estimate.Between 1 (2 ^ 28 - 1)

/-- A segment that both read alike: behind a `PUSH` there is data and behind no other
command, and an acknowledged time is ignored or gives a sample of at least a millisecond
and less than three days. -/
structure Frame.Common (current : UInt32) (frame : Frame) : Prop where
  sn_lt : frame.header.sn.toNat < 2 ^ 30
  una_le : frame.header.una.toNat ≤ 2 ^ 30
  filled : frame.header.cmd = Commands.push → frame.header.len ≠ 0
  empty : frame.header.cmd ≠ Commands.push → frame.header.len = 0
  sample : frame.header.cmd = Commands.ack → timeDelta current frame.header.ts < 0 ∨
    1 ≤ RtoCalculator.sample current frame.header.ts ∧
      RtoCalculator.sample current frame.header.ts < 2 ^ 28

instance (current : UInt32) (frame : Frame) : Decidable (frame.Common current) :=
  decidable_of_iff (frame.header.sn.toNat < 2 ^ 30 ∧ frame.header.una.toNat ≤ 2 ^ 30 ∧
      (frame.header.cmd = Commands.push → frame.header.len ≠ 0) ∧
      (frame.header.cmd ≠ Commands.push → frame.header.len = 0) ∧
      (frame.header.cmd = Commands.ack → timeDelta current frame.header.ts < 0 ∨
        1 ≤ RtoCalculator.sample current frame.header.ts ∧
          RtoCalculator.sample current frame.header.ts < 2 ^ 28))
    ⟨fun ⟨hSn, hUna, hFilled, hEmpty, hSample⟩ => ⟨hSn, hUna, hFilled, hEmpty, hSample⟩,
      fun h => ⟨h.sn_lt, h.una_le, h.filled, h.empty, h.sample⟩⟩

namespace ImKcpp

/-- What both do alike needs an endpoint without a congestion window, and one that leaves
out the values at which they count differently. -/
structure Comparable (w : UInt32) (s : ImKcpp mtu) : Prop where
  invariant : s.Invariant
  windowed : s.Windowed w
  large : 128 ≤ w.toNat
  small : w.toNat < 2 ^ 16
  modest : s.receiver.Modest
  numbered : s.segmentTracker.sndNxt.toNat + s.sender.sndQueue.length ≤ 2 ^ 30
  ranged : s.rtoCalculator.Ranged
  steady : s.rtoCalculator.Steady
  interval_eq : s.rtoCalculator.interval = s.sharedCtx.interval
  rmtWnd_lt : s.congestionController.rmtWnd.toNat < 2 ^ 16
  unrestrained : s.congestionController.congestionWindow = false
  fastresend_lt : s.sender.fastresend.toNat < 2 ^ 31 - 1
  fastlimit_lt : s.sender.fastlimit.toNat < 2 ^ 31
  fastlimit_ne : s.sender.fastlimit ≠ 1

namespace Comparable

variable {w : UInt32} {s : ImKcpp mtu}

theorem queueLimit_eq (h : s.Comparable w) :
    s.receiver.queueLimit = s.congestionController.rcvWnd := by
  have hDefault : Constants.ikcpWndRcv.toNat = 128 := rfl
  rw [h.windowed.queueLimit_eq, h.windowed.rcvWnd_eq, ← UInt32.toNat_inj, toNat_max, hDefault]
  exact (Nat.max_eq_left h.large).symm

theorem toNat_rcvWnd (h : s.Comparable w) : s.congestionController.rcvWnd.toNat = w.toNat := by
  rw [← h.queueLimit_eq, h.windowed.queueLimit_eq]

theorem sndNxt_le (h : s.Comparable w) : s.segmentTracker.sndNxt.toNat ≤ 2 ^ 30 :=
  (Nat.le_add_right _ _).trans h.numbered

theorem sndBuf_lt (h : s.Comparable w) : ∀ seg ∈ s.senderBuffer.sndBuf, seg.key < 2 ^ 31 := by
  intro seg hSeg
  have hNumbered := UInt32.lt_iff_toNat_lt.mp (h.invariant.sender.numbered seg hSeg)
  have hNxt := h.sndNxt_le
  unfold Segment.key
  omega

theorem sndUna_le (h : s.Comparable w) : s.segmentTracker.sndUna.toNat ≤ 2 ^ 30 :=
  (UInt32.le_iff_toNat_le.mp h.invariant.sender.una_le_nxt).trans h.sndNxt_le

/-- The end of the receive window is in the lower half. -/
theorem toNat_window (h : s.Comparable w) :
    (s.receiver.rcvNxt + s.congestionController.rcvWnd).toNat < 2 ^ 31 := by
  have hNxt := h.modest.rcvNxt_le
  have hWindow := h.toNat_rcvWnd
  have hSmall := h.small
  rw [UInt32.toNat_add]
  omega

theorem acceptHeader (h : s.Comparable w) (header : SegmentHeader) :
    (s.acceptHeader header).Comparable w := by
  refine { h with
    invariant := h.invariant.acceptHeader header
    numbered := ?_
    rmtWnd_lt := UInt16.toNat_lt _ }
  have hNxt : (s.acceptHeader header).segmentTracker.sndNxt = s.segmentTracker.sndNxt :=
    AckController.updateRemoteUna_sndNxt _ _
  rw [hNxt]
  exact h.numbered

/-- A sample of at least a millisecond is taken over without a wrap. -/
theorem updateRto_steady (h : s.Comparable w) {current ts : UInt32}
    (hSample : timeDelta current ts < 0 ∨
    1 ≤ RtoCalculator.sample current ts ∧ RtoCalculator.sample current ts < 2 ^ 28) :
    (s.rtoCalculator.updateRto current ts).Steady := by
  rcases hSample with hNegative | ⟨hLow, hHigh⟩
  · rw [RtoCalculator.updateRto_of_negative hNegative]
    exact h.steady
  · exact .inr (RtoCalculator.updateRto_between (le_refl 1) (by omega) h.ranged.limited
      h.steady hLow (Nat.le_sub_one_of_lt hHigh)).2

theorem updateRto (h : s.Comparable w) {current ts : UInt32} (hSample : timeDelta current ts < 0 ∨
    1 ≤ RtoCalculator.sample current ts ∧ RtoCalculator.sample current ts < 2 ^ 28) :
    ({ s with
      rtoCalculator := s.rtoCalculator.updateRto current ts } : ImKcpp mtu).Comparable w := by
  refine { h with
    invariant := { h.invariant with }
    ranged := h.ranged.updateRto _ _
    steady := h.updateRto_steady hSample
    interval_eq := ?_ }
  rcases Int32.lt_or_le (timeDelta current ts) 0 with hNegative | hCounts
  · rw [RtoCalculator.updateRto_of_negative hNegative]
    exact h.interval_eq
  · obtain ⟨-, hInterval, -⟩ := RtoCalculator.updateRto_spec h.ranged.limited hCounts
    exact hInterval.trans h.interval_eq

theorem applyFrame_modest (h : s.Comparable w) {frame : Frame}
    (hAccepted : frame.Accepted s.sharedCtx.conv) (hCommon : frame.Common s.current) :
    (s.applyFrame frame).receiver.Modest := by
  by_cases hPush : frame.header.cmd = Commands.push
  · rw [applyFrame_push s hPush]
    split_ifs
    · have hLength : frame.header.len.toNat = frame.payload.length := hAccepted.push_payload hPush
      have hData : frame.payload ≠ [] := by
        intro hNone
        rw [hNone, List.length_nil] at hLength
        exact hCommon.filled hPush (UInt32.toNat_inj.mp hLength)
      exact h.modest.emplace h.invariant.receiver hData hCommon.sn_lt
    · exact h.modest
  · have hSame : (s.applyFrame frame).receiver = s.receiver := by
      unfold ImKcpp.applyFrame
      dsimp only
      rw [if_neg hPush]
      split_ifs <;> rfl
    rw [hSame]
    exact h.modest

/-- Input changes none of the parameters. -/
theorem applyFrame (h : s.Comparable w) {frame : Frame}
    (hAccepted : frame.Accepted s.sharedCtx.conv) (hCommon : frame.Common s.current) :
    (s.applyFrame frame).Comparable w := by
  have hController : (s.applyFrame frame).congestionController =
      { s.congestionController with rmtWnd := frame.header.wnd.toUInt32 } :=
    foldl_applyFrame_congestionController [frame] s
  have hFrames : ∀ other ∈ [frame], other.Accepted s.sharedCtx.conv := by simpa using hAccepted
  have hWindowed : (s.applyFrame frame).Windowed w :=
    h.invariant.foldl_receiver (P := Imkcpp.Windowed w)
      (fun _ _ header data hReceiver hWindowed =>
        hWindowed.emplace hReceiver header data) hFrames h.windowed
  refine { h with
    invariant := h.invariant.applyFrame hAccepted
    windowed := hWindowed
    modest := h.applyFrame_modest hAccepted hCommon
    numbered := ?_
    ranged := ?_
    steady := ?_
    interval_eq := ?_
    rmtWnd_lt := ?_
    unrestrained := ?_
    fastresend_lt := ?_
    fastlimit_lt := ?_
    fastlimit_ne := ?_ }
  · rw [applyFrame_sndNxt, applyFrame_sender]
    exact h.numbered
  · rw [applyFrame_rtoCalculator, frameOperation]
    split_ifs
    · exact h.ranged.updateRto _ _
    · exact h.ranged
  · rw [applyFrame_rtoCalculator, frameOperation]
    split_ifs with hAck
    · exact h.updateRto_steady (hCommon.sample hAck)
    · exact h.steady
  · rw [applyFrame_rto_interval, applyFrame_sharedCtx]
    exact h.interval_eq
  · rw [hController]
    exact UInt16.toNat_lt _
  · rw [hController]
    exact h.unrestrained
  · rw [applyFrame_sender]
    exact h.fastresend_lt
  · rw [applyFrame_sender]
    exact h.fastlimit_lt
  · rw [applyFrame_sender]
    exact h.fastlimit_ne

/-- What `input` does behind its loop touches counters only. -/
theorem finishInput_eq (s : ImKcpp mtu) (prevUna : UInt32) (ctx : FastAckCtx) :
    ∃ cwnd incr, s.finishInput prevUna ctx = { s with
      senderBuffer := AckController.acknowledgeFastack ctx s.senderBuffer s.segmentTracker
      congestionController := { s.congestionController with cwnd, incr } } := by
  unfold ImKcpp.finishInput
  split_ifs
  · obtain ⟨cwnd, incr, hController⟩ :=
      CongestionController.adjustParameters_eq mtu s.congestionController
    exact ⟨cwnd, incr, by rw [hController]⟩
  · exact ⟨_, _, rfl⟩

theorem finishInput (h : s.Comparable w) (prevUna : UInt32) (ctx : FastAckCtx) :
    (s.finishInput prevUna ctx).Comparable w := by
  have hCore := acknowledgeFastack_core ctx s.senderBuffer s.segmentTracker
  obtain ⟨cwnd, incr, hFinish⟩ := finishInput_eq s prevUna ctx
  rw [hFinish]
  exact { h with invariant := { h.invariant with sender := h.invariant.sender.refresh hCore } }

end Comparable
end ImKcpp
end Imkcpp
