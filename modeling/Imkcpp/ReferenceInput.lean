import Imkcpp.Comparability
import Imkcpp.ReferenceDecoding
import Imkcpp.ReferenceReceiver

/-! Input in both implementations. What they do with a segment differs in how numbers and
samples are compared and computed with; within the lower half of the words this does not
show. -/
namespace Imkcpp

open OrderedList RoundTripTime WrappingClock

variable {mtu : Mtu}

section Estimate

variable {rc : RtoCalculator} {current ts : UInt32}

/-- The variation of an estimate that is not the first one, as it is computed with signs. -/
theorem RtoCalculator.rttval_toInt32 (hLimited : rc.Limited)
    (hBetween : rc.estimate.Between 1 (2 ^ 28 - 1)) (hSample : 0 ≤ timeDelta current ts)
    (hHigh : RtoCalculator.sample current ts < 2 ^ 28) :
    Int32.ofInt (((3 * rc.rttvar.toInt32).toInt +
        ((timeDelta current ts - rc.srtt.toInt32).toInt.natAbs : ℤ)).tdiv 4) =
      ((3 * rc.rttvar + (Int32.abs (timeDelta current ts - rc.srtt.toInt32)).toUInt32) /
        4).toInt32 := by
  have hDelta := RtoCalculator.toNat_delta hLimited hSample
  have hSrtt : rc.srtt.toNat ≤ 2 ^ 28 - 1 := hBetween.srtt_le
  have hRttvar : rc.rttvar.toNat ≤ max ((2 ^ 28 - 1) / 2) (2 ^ 28 - 1 - 1) := hBetween.rttvar_le
  have hDeviation : rc.estimate.deviation (RtoCalculator.sample current ts) < 2 ^ 28 := by
    unfold Estimate.deviation
    change ((RtoCalculator.sample current ts : ℤ) - (rc.srtt.toNat : ℤ)).natAbs < 2 ^ 28
    omega
  have hDistance : (timeDelta current ts - rc.srtt.toInt32).toInt.natAbs =
      rc.estimate.deviation (RtoCalculator.sample current ts) := by
    have hSigned : rc.srtt.toInt32.toInt = rc.srtt.toNat := toInt_of_half (by omega)
    have hRtt : ((RtoCalculator.sample current ts : ℕ) : ℤ) = (timeDelta current ts).toInt := by
      rw [Int32.le_iff_toInt_le, Int32.toInt_zero] at hSample
      exact Int.toNat_of_nonneg hSample
    rw [Int32.toInt_sub, hSigned, ← hRtt, Int.bmod_eq_of_le (by omega) (by omega)]
    rfl
  have hTriple : (3 * rc.rttvar).toNat = 3 * rc.rttvar.toNat := by
    have hThree : (3 : UInt32).toNat = 3 := rfl
    rw [UInt32.toNat_mul, hThree]
    exact Nat.mod_eq_of_lt (by omega)
  have hTripled : (3 * rc.rttvar.toInt32).toInt = 3 * rc.rttvar.toNat := by
    have hSigned : 3 * rc.rttvar.toInt32 = (3 * rc.rttvar).toInt32 := rfl
    rw [hSigned, toInt_of_half (by omega), hTriple]
    rfl
  have hFour : (4 : UInt32).toNat = 4 := rfl
  have hWord : ((3 * rc.rttvar + (Int32.abs (timeDelta current ts - rc.srtt.toInt32)).toUInt32) /
      4).toNat =
      (3 * rc.rttvar.toNat + rc.estimate.deviation (RtoCalculator.sample current ts)) / 4 := by
    rw [UInt32.toNat_div, UInt32.toNat_add, hTriple, hDelta, hFour, Nat.mod_eq_of_lt (by omega)]
  rw [← Int32.toInt_inj, toInt_of_half (by omega), hWord, hTripled, hDistance,
    Int.tdiv_eq_ediv_of_nonneg (by omega), Int32.toInt_ofInt_of_le (by omega) (by omega)]
  omega

/-- The smoothed time of an estimate that is not the first one. -/
theorem RtoCalculator.srtt_toInt32 (hBetween : rc.estimate.Between 1 (2 ^ 28 - 1))
    (hSample : 0 ≤ timeDelta current ts) (hLow : 1 ≤ RtoCalculator.sample current ts)
    (hHigh : RtoCalculator.sample current ts < 2 ^ 28) :
    (if (7 * rc.srtt.toInt32 + timeDelta current ts) / 8 < 1 then 1
      else (7 * rc.srtt.toInt32 + timeDelta current ts) / 8) =
      ((7 * rc.srtt + (timeDelta current ts).toUInt32) / 8).toInt32 := by
  obtain ⟨hRtt, -, -⟩ := RtoCalculator.toNat_sample hSample
  have hSrttLow : 1 ≤ rc.srtt.toNat := hBetween.le_srtt
  have hSrttHigh : rc.srtt.toNat ≤ 2 ^ 28 - 1 := hBetween.srtt_le
  have hSeven : (7 : UInt32).toNat = 7 := rfl
  have hEight : (8 : UInt32).toNat = 8 := rfl
  have hSum : (7 * rc.srtt + (timeDelta current ts).toUInt32).toNat =
      7 * rc.srtt.toNat + RtoCalculator.sample current ts := by
    rw [UInt32.toNat_add, UInt32.toNat_mul, hRtt, hSeven]
    omega
  have hWord : (7 * rc.srtt.toInt32 + timeDelta current ts) / 8 =
      ((7 * rc.srtt + (timeDelta current ts).toUInt32) / 8).toInt32 := by
    rw [toInt32_div (by omega) (by rw [hEight]; decide)]
    rfl
  have hPositive : ¬((7 * rc.srtt + (timeDelta current ts).toUInt32) / 8).toInt32 < 1 := by
    rw [Int32.lt_iff_toInt_lt, toInt_of_half, UInt32.toNat_div, hSum, hEight]
    · change ¬(((7 * rc.srtt.toNat + RtoCalculator.sample current ts) / 8 : ℕ) : ℤ) < 1
      omega
    · rw [UInt32.toNat_div, hSum, hEight]
      omega
  rw [hWord, if_neg hPositive]

variable {s : ImKcpp mtu}

/-- A sample of at least a millisecond and less than three days is taken alike. -/
theorem ImKcpp.updateAck_toIkcpcb (hLimited : s.rtoCalculator.Limited)
    (hInterval : s.rtoCalculator.interval = s.sharedCtx.interval) (hSteady : s.rtoCalculator.Steady)
    (hLow : 1 ≤ RtoCalculator.sample s.current ts)
    (hHigh : RtoCalculator.sample s.current ts < 2 ^ 28) (aside : Aside) :
    (s.toIkcpcb aside).updateAck (timeDelta s.current ts) =
      ({ s with
        rtoCalculator := s.rtoCalculator.updateRto s.current ts } :
          ImKcpp mtu).toIkcpcb aside := by
  have hSample := RtoCalculator.nonneg_of_le_sample (le_refl 1) hLow
  obtain ⟨hRtt, -, -⟩ := RtoCalculator.toNat_sample hSample
  obtain ⟨srtt, rttvar, hAfter, hSrtt, hRttvar⟩ :=
    RtoCalculator.updateRto_eq s.rtoCalculator hSample
  have hRange : s.rtoCalculator.minrto ≤ s.rtoCalculator.maxrto := by
    rw [UInt32.le_iff_toNat_le, hLimited.maxrto_eq]
    exact hLimited.minrto_le
  have hTimeout (rto : UInt32) : min (max s.rtoCalculator.minrto rto) 60000 =
      clamp rto s.rtoCalculator.minrto s.rtoCalculator.maxrto := by
    have hMost : s.rtoCalculator.maxrto.toNat = 60000 := congrArg UInt32.toNat hLimited.maxrto_eq
    have hLeast := hLimited.minrto_le
    have hSixty : (60000 : UInt32).toNat = 60000 := rfl
    rw [← UInt32.toNat_inj, toNat_clamp hRange, toNat_min, toNat_max]
    omega
  have hNone : s.rtoCalculator.srtt.toInt32 = 0 ↔ s.rtoCalculator.srtt = 0 :=
    ⟨fun hZero => congrArg Int32.toUInt32 hZero, fun hZero => congrArg UInt32.toInt32 hZero⟩
  have hEstimate : (s.toIkcpcb aside).updateAck (timeDelta s.current ts) =
      { s.toIkcpcb aside with rxSrtt := srtt.toInt32, rxRttval := rttvar.toInt32 }.setRto := by
    by_cases hFirst : s.rtoCalculator.srtt = 0
    · rw [if_pos hFirst] at hSrtt hRttvar
      rw [hSrtt, hRttvar]
      exact congrArg Ikcpcb.setRto (if_pos (hNone.mpr hFirst))
    · rw [if_neg hFirst] at hSrtt hRttvar
      rw [hSrtt, hRttvar]
      have hBetween := hSteady.resolve_left hFirst
      refine congrArg Ikcpcb.setRto ((if_neg (mt hNone.mp hFirst)).trans ?_)
      refine congrArg₂
        (fun srtt rttval => { s.toIkcpcb aside with rxSrtt := srtt, rxRttval := rttval })
        (RtoCalculator.srtt_toInt32 hBetween hSample hLow hHigh) (Eq.trans ?_
          (RtoCalculator.rttval_toInt32 hLimited hBetween hSample hHigh))
      have hDelta (delta : ℤ) : (if delta < 0 then -delta else delta) = (delta.natAbs : ℤ) := by
        omega
      rw [← hDelta]
      rfl
  rw [hEstimate, hAfter, ← hTimeout, hInterval]
  rfl

end Estimate

section Acknowledge

variable {segs : List Segment} {sn : UInt32}

theorem parseUnaLoop_toIkcp (hKeys : ∀ seg ∈ segs, seg.key < 2 ^ 31) (hSn : sn.toNat < 2 ^ 31) :
    Ikcpcb.parseUnaLoop sn (segs.map Segment.toIkcp) =
      (SenderBuffer.eraseBeforeLoop sn segs).map Segment.toIkcp := by
  induction segs with
  | nil => rfl
  | cons seg rest ih =>
      have hRest := ih fun other hOther => hKeys other (by simp [hOther])
      have hTest : itimediff sn seg.toIkcp.sn > 0 ↔ sn > seg.header.sn :=
        difference_pos_iff hSn (hKeys seg (by simp))
      rw [List.map_cons, Ikcpcb.parseUnaLoop, SenderBuffer.eraseBeforeLoop]
      by_cases hPassed : sn > seg.header.sn
      · rw [if_pos (hTest.mpr hPassed), if_pos hPassed, hRest]
      · rw [if_neg (mt hTest.mp hPassed), if_neg hPassed, List.map_cons]

theorem parseAckLoop_toIkcp (hKeys : ∀ seg ∈ segs, seg.key < 2 ^ 31) (hSn : sn.toNat < 2 ^ 31) :
    Ikcpcb.parseAckLoop sn (segs.map Segment.toIkcp) =
      (SenderBuffer.eraseLoop sn segs).map Segment.toIkcp := by
  induction segs with
  | nil => rfl
  | cons seg rest ih =>
      have hRest := ih fun other hOther => hKeys other (by simp [hOther])
      have hTest : itimediff sn seg.toIkcp.sn < 0 ↔ sn < seg.header.sn :=
        difference_neg_iff hSn (hKeys seg (by simp))
      rw [List.map_cons, Ikcpcb.parseAckLoop, SenderBuffer.eraseLoop]
      by_cases hSame : sn = seg.header.sn
      · rw [if_pos (show sn = seg.toIkcp.sn from hSame), if_pos hSame]
      · rw [if_neg (show ¬sn = seg.toIkcp.sn from hSame), if_neg hSame]
        by_cases hBehind : sn < seg.header.sn
        · rw [if_pos (hTest.mpr hBehind), if_pos hBehind, List.map_cons]
        · rw [if_neg (mt hTest.mp hBehind), if_neg hBehind, List.map_cons, hRest]

/-- Behind the acknowledged number the reference implementation looks at one more segment. -/
theorem parseFastackLoop_toIkcp (hIncreasing : Increasing Segment.key segs)
    (hKeys : ∀ seg ∈ segs, seg.key < 2 ^ 31) (hSn : sn.toNat < 2 ^ 31) :
    Ikcpcb.parseFastackLoop sn (segs.map Segment.toIkcp) =
      (SenderBuffer.incrementFastackLoop sn segs).map Segment.toIkcp := by
  induction segs with
  | nil => rfl
  | cons seg rest ih =>
      obtain ⟨hAbove, hTail⟩ := increasing_cons.mp hIncreasing
      have hRest := ih hTail fun other hOther => hKeys other (by simp [hOther])
      have hTest : itimediff sn seg.toIkcp.sn < 0 ↔ sn < seg.header.sn :=
        difference_neg_iff hSn (hKeys seg (by simp))
      rw [List.map_cons, Ikcpcb.parseFastackLoop, SenderBuffer.incrementFastackLoop]
      by_cases hBelow : seg.header.sn < sn
      · have hOther : sn ≠ seg.toIkcp.sn := (UInt32.ne_of_lt hBelow).symm
        rw [if_neg (mt hTest.mp (UInt32.not_lt.mpr (UInt32.le_of_lt hBelow))), if_pos hOther,
          if_pos hBelow, List.map_cons, hRest]
        rfl
      · rw [if_neg hBelow, List.map_cons]
        by_cases hBehind : sn < seg.header.sn
        · rw [if_pos (hTest.mpr hBehind)]
        · have hSame : sn = seg.header.sn :=
            UInt32.le_antisymm (UInt32.not_lt.mp hBelow) (UInt32.not_lt.mp hBehind)
          have hStays : SenderBuffer.incrementFastackLoop sn rest = rest := by
            cases rest with
            | nil => rfl
            | cons next others =>
                have hNext : seg.header.sn.toNat < next.header.sn.toNat := hAbove next (by simp)
                refine if_neg ?_
                rw [UInt32.lt_iff_toNat_lt, hSame]
                omega
          rw [if_neg (mt hTest.mp hBehind),
            if_neg (not_not.mpr (show sn = seg.toIkcp.sn from hSame)), hRest, hStays]

end Acknowledge

theorem Ikcpcb.shrinkBuf_eq (kcp : Ikcpcb) :
    kcp.shrinkBuf =
      { kcp with sndUna := (kcp.sndBuf.head?.map fun seg => seg.sn).getD kcp.sndNxt } := by
  unfold shrinkBuf
  cases kcp.sndBuf <;> rfl

namespace ImKcpp

variable {s : ImKcpp mtu}

theorem shrinkBuf_toIkcpcb (aside : Aside) :
    (s.toIkcpcb aside).shrinkBuf =
      ({ s with segmentTracker := AckController.updateRemoteUna s.senderBuffer s.segmentTracker } :
        ImKcpp mtu).toIkcpcb aside := by
  have hFirst : (s.toIkcpcb aside).sndBuf.head?.map (fun seg => seg.sn) =
      s.senderBuffer.getFirstSequenceNumberInFlight := by
    change (s.senderBuffer.sndBuf.map Segment.toIkcp).head?.map (fun seg => seg.sn) = _
    rw [List.head?_map, Option.map_map]
    rfl
  rw [Ikcpcb.shrinkBuf_eq, hFirst, AckController.updateRemoteUna_eq]
  rfl

/-- The part of a segment that every command has. -/
theorem acceptHeader_toIkcpcb (hKeys : ∀ seg ∈ s.senderBuffer.sndBuf, seg.key < 2 ^ 31)
    {header : SegmentHeader} (hUna : header.una.toNat < 2 ^ 31) (aside : Aside) :
    ({ s.toIkcpcb aside with rmtWnd := header.wnd.toUInt32 }.parseUna header.una).shrinkBuf =
      (s.acceptHeader header).toIkcpcb { aside with rmtWnd := header.wnd.toUInt32 } := by
  have hLoop := parseUnaLoop_toIkcp hKeys hUna
  have hParse : { s.toIkcpcb aside with rmtWnd := header.wnd.toUInt32 }.parseUna header.una =
      ({ s with senderBuffer := s.senderBuffer.eraseBefore header.una } : ImKcpp mtu).toIkcpcb
        { aside with rmtWnd := header.wnd.toUInt32 } :=
    congrArg (fun sndBuf => { s.toIkcpcb aside with rmtWnd := header.wnd.toUInt32, sndBuf }) hLoop
  rw [hParse, shrinkBuf_toIkcpcb]
  rfl

variable {w : UInt32}

theorem inFlight_toIkcpcb (h : s.Comparable w) {sn : UInt32} (hSn : sn.toNat < 2 ^ 30)
    (aside : Aside) :
    (s.toIkcpcb aside).inFlight sn = AckController.shouldAcknowledge s.segmentTracker sn := by
  have hUna := h.sndUna_le
  have hNxt := h.sndNxt_le
  have hBelow : itimediff sn s.segmentTracker.sndUna < 0 ↔ sn < s.segmentTracker.sndUna :=
    difference_neg_iff (by omega) (by omega)
  have hAbove : itimediff sn s.segmentTracker.sndNxt ≥ 0 ↔ sn ≥ s.segmentTracker.sndNxt :=
    difference_nonneg_iff (by omega) (by omega)
  rw [Bool.eq_iff_iff]
  change (!(decide (itimediff sn s.segmentTracker.sndUna < 0) ||
    decide (itimediff sn s.segmentTracker.sndNxt ≥ 0))) = true ↔ _
  simp [AckController.shouldAcknowledge_iff, hBelow, hAbove]

/-- An acknowledgement that does not count leaves `snd_una` as it is in both. -/
theorem parseAck_toIkcpcb (h : s.Comparable w) {sn : UInt32} (hSn : sn.toNat < 2 ^ 30)
    (aside : Aside) :
    ((s.toIkcpcb aside).parseAck sn).shrinkBuf = ({ s with
      senderBuffer := (AckController.ackReceived sn s.senderBuffer s.segmentTracker).1
      segmentTracker := (AckController.ackReceived sn s.senderBuffer s.segmentTracker).2 } :
        ImKcpp mtu).toIkcpcb aside := by
  unfold Ikcpcb.parseAck AckController.ackReceived
  rw [inFlight_toIkcpcb h hSn]
  split_ifs
  · have hLoop := parseAckLoop_toIkcp h.sndBuf_lt (show sn.toNat < 2 ^ 31 by omega)
    have hErase : { s.toIkcpcb aside with
        sndBuf := Ikcpcb.parseAckLoop sn (s.toIkcpcb aside).sndBuf } =
        ({ s with senderBuffer := s.senderBuffer.erase sn } : ImKcpp mtu).toIkcpcb aside :=
      congrArg (fun sndBuf => { s.toIkcpcb aside with sndBuf }) hLoop
    rw [hErase, shrinkBuf_toIkcpcb]
  · have hSame : AckController.updateRemoteUna s.senderBuffer s.segmentTracker =
        s.segmentTracker := by
      rw [AckController.updateRemoteUna_eq, ← h.invariant.sender.una_eq]
    rw [shrinkBuf_toIkcpcb, hSame]

theorem inputAck_toIkcpcb (h : s.Comparable w) {header : SegmentHeader}
    (hSn : header.sn.toNat < 2 ^ 30) (hSample : timeDelta s.current header.ts < 0 ∨
      1 ≤ RtoCalculator.sample s.current header.ts ∧
        RtoCalculator.sample s.current header.ts < 2 ^ 28)
    (aside : Aside) :
    (s.toIkcpcb aside).inputAck header.toIkcpSeg = (inputAck header s {}).1.toIkcpcb aside := by
  have hKcp : (if itimediff (s.toIkcpcb aside).current header.toIkcpSeg.ts ≥ 0 then
      (s.toIkcpcb aside).updateAck (itimediff (s.toIkcpcb aside).current header.toIkcpSeg.ts)
      else s.toIkcpcb aside) =
      ({ s with
        rtoCalculator := s.rtoCalculator.updateRto s.current header.ts } :
          ImKcpp mtu).toIkcpcb aside := by
    rcases hSample with hNegative | ⟨hLow, hHigh⟩
    · rw [RtoCalculator.updateRto_of_negative hNegative]
      exact if_neg (Int32.not_le.mpr hNegative)
    · refine (if_pos (RtoCalculator.nonneg_of_le_sample (le_refl 1) hLow)).trans ?_
      exact updateAck_toIkcpcb h.ranged.limited h.interval_eq h.steady hLow hHigh aside
  unfold Ikcpcb.inputAck
  rw [hKcp]
  exact parseAck_toIkcpcb (h.updateRto hSample) hSn aside

/-- Both do the same with a segment. -/
theorem inputSegment_toIkcpcb (h : s.Comparable w) {frame : Frame}
    (hCommon : frame.Common s.current) {data : List UInt8}
    (hPayload : data.take frame.header.len.toNat = frame.payload) (aside : Aside) :
    (s.toIkcpcb aside).inputSegment frame.header.toIkcpSeg data =
      (s.applyFrame frame).toIkcpcb { aside with rmtWnd := frame.header.wnd.toUInt32 } := by
  have hCmd (cmd : UInt8) : frame.header.toIkcpSeg.cmd = cmd.toUInt32 ↔ frame.header.cmd = cmd := by
    rw [← UInt32.toNat_inj, ← UInt8.toNat_inj]
    rfl
  have hUna := hCommon.una_le
  have hSn := hCommon.sn_lt
  have hBehind : frame.header.una.toNat < 2 ^ 31 := by omega
  have hHeader := acceptHeader_toIkcpcb h.sndBuf_lt hBehind aside
  obtain ⟨accepted, hAccepted⟩ : ∃ accepted, accepted = s.acceptHeader frame.header := ⟨_, rfl⟩
  have hAfter : accepted.Comparable w := hAccepted ▸ h.acceptHeader frame.header
  rw [← hAccepted] at hHeader
  have hSegment : (s.toIkcpcb aside).inputSegment frame.header.toIkcpSeg data =
      let kcp := accepted.toIkcpcb { aside with rmtWnd := frame.header.wnd.toUInt32 }
      if frame.header.toIkcpSeg.cmd = 82 then kcp.inputAck frame.header.toIkcpSeg
      else if frame.header.toIkcpSeg.cmd = 81 then kcp.inputPush frame.header.toIkcpSeg data
      else if frame.header.toIkcpSeg.cmd = 83 then { kcp with probe := kcp.probe ||| 2 }
      else kcp := by
    rw [← hHeader]
    rfl
  have hApply : s.applyFrame frame =
      if frame.header.cmd = Commands.push then accepted.applyPush frame
      else if frame.header.cmd = Commands.ack then (inputAck frame.header accepted {}).1
      else if frame.header.cmd = Commands.wask then accepted.applyWask
      else accepted := by
    rw [hAccepted]
    rfl
  have hPushIff : frame.header.toIkcpSeg.cmd = 81 ↔ frame.header.cmd = Commands.push :=
    hCmd Commands.push
  have hAckIff : frame.header.toIkcpSeg.cmd = 82 ↔ frame.header.cmd = Commands.ack :=
    hCmd Commands.ack
  have hWaskIff : frame.header.toIkcpSeg.cmd = 83 ↔ frame.header.cmd = Commands.wask :=
    hCmd Commands.wask
  rw [hSegment, hApply]
  dsimp only
  by_cases hPush : frame.header.cmd = Commands.push
  · have hAck : ¬frame.header.toIkcpSeg.cmd = 82 := by
      rw [hPushIff.mpr hPush]
      decide
    rw [if_neg hAck, if_pos (hPushIff.mpr hPush), if_pos hPush]
    have hNxt := hAfter.modest.rcvNxt_le
    refine inputPush_toIkcpcb hAfter.invariant.receiver hAfter.queueLimit_eq
      hAfter.windowed.queued_le hAfter.windowed.settled (fun seg hSeg => ?_) (by omega)
      hAfter.toNat_window (by omega) hPayload _
    have hKey := (hAfter.modest.buffered seg hSeg).2
    omega
  · rw [if_neg hPush]
    by_cases hAck : frame.header.cmd = Commands.ack
    · rw [if_pos (hAckIff.mpr hAck), if_pos hAck]
      refine inputAck_toIkcpcb hAfter hSn ?_ _
      rw [hAccepted]
      exact hCommon.sample hAck
    · rw [if_neg (mt hAckIff.mp hAck), if_neg (mt hPushIff.mp hPush), if_neg hAck]
      by_cases hWask : frame.header.cmd = Commands.wask
      · rw [if_pos (hWaskIff.mpr hWask), if_pos hWask]
        rfl
      · rw [if_neg (mt hWaskIff.mp hWask), if_neg hWask]

end ImKcpp

section Loop

/-- The greatest acknowledged number as the reference implementation keeps it. -/
def FastAckCtx.noted (ctx : FastAckCtx) : Ikcpcb.MaxAck :=
  if ctx.isValid then some ctx.maxack else none

/-- No number, or one of the lower quarter. -/
def FastAckCtx.Low (ctx : FastAckCtx) : Prop := ∀ sn ∈ ctx.noted, sn.toNat < 2 ^ 30

theorem FastAckCtx.noted_of_low {sn : UInt32} (hSn : sn.toNat < 2 ^ 30) (ts : UInt32) :
    (⟨sn, ts⟩ : FastAckCtx).noted = some sn := by
  have hValid : (⟨sn, ts⟩ : FastAckCtx).isValid = true := by
    refine bne_iff_ne.mpr fun hNone => ?_
    obtain rfl : sn = 0xffffffff := hNone
    exact absurd hSn (by decide)
  exact if_pos hValid

/-- The number that stands for none in one of them is not in the lower quarter. -/
theorem FastAckCtx.Low.update {ctx : FastAckCtx} (hLow : ctx.Low) {sn : UInt32}
    (hSn : sn.toNat < 2 ^ 30) (ts : UInt32) :
    (ctx.update sn ts).noted =
        some (ctx.noted.elim sn fun greatest => if sn > greatest then sn else greatest) ∧
      (ctx.update sn ts).Low := by
  have hNew := noted_of_low hSn ts
  have hNewLow : (⟨sn, ts⟩ : FastAckCtx).Low := by
    intro other hOther
    obtain rfl := Option.some.inj (hNew.symm.trans hOther)
    exact hSn
  unfold FastAckCtx.update
  by_cases hValid : ctx.isValid = true
  · have hNoted : ctx.noted = some ctx.maxack := if_pos hValid
    rw [if_pos hValid, hNoted, Option.elim_some]
    by_cases hNewer : sn > ctx.maxack
    · rw [if_pos hNewer, if_pos hNewer, hNew]
      exact ⟨rfl, hNewLow⟩
    · rw [if_neg hNewer, if_neg hNewer, hNoted]
      exact ⟨rfl, hLow⟩
  · have hNoted : ctx.noted = none := if_neg hValid
    rw [if_neg hValid, hNoted, hNew]
    exact ⟨rfl, hNewLow⟩

theorem noteAck_eq {maxack : Ikcpcb.MaxAck} (hLow : ∀ sn ∈ maxack, sn.toNat < 2 ^ 30)
    {header : SegmentHeader} (hSn : header.sn.toNat < 2 ^ 30) (hAck : header.cmd = Commands.ack) :
    Ikcpcb.noteAck maxack header.toIkcpSeg =
      some (maxack.elim header.sn fun greatest =>
        if header.sn > greatest then header.sn else greatest) := by
  have hCmd : header.toIkcpSeg.cmd = 82 := congrArg UInt8.toUInt32 hAck
  unfold Ikcpcb.noteAck
  rw [if_pos hCmd]
  cases maxack with
  | none => rfl
  | some greatest =>
      have hGreatest := hLow greatest rfl
      have hTest : itimediff header.toIkcpSeg.sn greatest > 0 ↔ header.sn > greatest :=
        difference_pos_iff (a := header.sn) (by omega) (by omega)
      dsimp only
      rw [Option.elim_some]
      by_cases hNewer : header.sn > greatest
      · rw [if_pos (hTest.mpr hNewer), if_pos hNewer]
        rfl
      · rw [if_neg (mt hTest.mp hNewer), if_neg hNewer]

namespace ImKcpp

variable {s : ImKcpp mtu} {w : UInt32}

theorem noteFrame_fastackCtx (s : ImKcpp mtu) (frame : Frame) (ctx : InputContext) :
    (s.noteFrame frame ctx).fastackCtx =
      if frame.header.cmd = Commands.ack then ctx.fastackCtx.update frame.header.sn frame.header.ts
      else ctx.fastackCtx := by
  have hOther : Commands.push ≠ Commands.ack := by decide
  unfold noteFrame
  dsimp only
  split_ifs with hPush <;> simp_all

theorem noteAck_noteFrame (s : ImKcpp mtu) {frame : Frame} {ctx : InputContext}
    (hSn : frame.header.sn.toNat < 2 ^ 30) (hLow : ctx.fastackCtx.Low) :
    Ikcpcb.noteAck ctx.fastackCtx.noted frame.header.toIkcpSeg =
      (s.noteFrame frame ctx).fastackCtx.noted ∧
      (s.noteFrame frame ctx).fastackCtx.Low := by
  rw [noteFrame_fastackCtx]
  by_cases hAck : frame.header.cmd = Commands.ack
  · obtain ⟨hNoted, hAfter⟩ := hLow.update hSn frame.header.ts
    rw [if_pos hAck, noteAck_eq hLow hSn hAck, hNoted]
    exact ⟨rfl, hAfter⟩
  · have hCmd : ¬frame.header.toIkcpSeg.cmd = 82 := by
      intro hCmd
      exact hAck (UInt8.toNat_inj.mp (congrArg UInt32.toNat hCmd))
    rw [if_neg hAck]
    exact ⟨if_neg hCmd, hLow⟩

/-- One turn of the loop of the reference implementation. -/
theorem inputLoop_cons {host : Host} {kcp : Ikcpcb} {maxack : Ikcpcb.MaxAck}
    (header : SegmentHeader) (rest : List UInt8) :
    kcp.inputLoop host maxack (header.referenceBytes host ++ rest) =
      if header.conv ≠ kcp.conv then (kcp, .error (-1))
      else if rest.length < header.len.toNat ∨ header.len.toInt32 < 0 then (kcp, .error (-2))
      else if ¬Commands.isValid header.cmd then (kcp, .error (-3))
      else (kcp.inputSegment header.toIkcpSeg rest).inputLoop host
        (Ikcpcb.noteAck maxack header.toIkcpSeg)
        (rest.drop header.len.toNat) := by
  have hCmd (cmd : UInt8) : header.toIkcpSeg.cmd ≠ cmd.toUInt32 ↔ header.cmd ≠ cmd := by
    rw [ne_eq, ne_eq, ← UInt32.toNat_inj, ← UInt8.toNat_inj]
    rfl
  have hValid : (header.toIkcpSeg.cmd ≠ 81 ∧ header.toIkcpSeg.cmd ≠ 82 ∧ header.toIkcpSeg.cmd ≠ 83 ∧
      header.toIkcpSeg.cmd ≠ 84) ↔ ¬Commands.isValid header.cmd := by
    rw [Commands.isValid_iff, show (81 : UInt32) = Commands.push.toUInt32 from rfl,
      show (82 : UInt32) = Commands.ack.toUInt32 from rfl,
      show (83 : UInt32) = Commands.wask.toUInt32 from rfl,
      show (84 : UInt32) = Commands.wins.toUInt32 from rfl, hCmd, hCmd, hCmd, hCmd]
    simp only [not_or]
  have hLong : ¬(header.referenceBytes host ++ rest).length < 24 := by
    rw [List.length_append, SegmentHeader.referenceBytes_length]
    omega
  rw [Ikcpcb.inputLoop, dif_neg hLong]
  simp only [ikcpDecodeSeg_bytes, hValid]
  rfl

/-- A header of its conversation that is followed by enough bytes comes to the command. -/
theorem inputLoop_recode {host : Host} {data : List UInt8} (hLength : data.length < 2 ^ 31)
    (hLong : ¬data.length < 24) {kcp : Ikcpcb} (maxack : Ikcpcb.MaxAck) {header : SegmentHeader}
    (hHeader : header = SegmentHeader.ofBytes host (data.take 24)) (hConv : header.conv = kcp.conv)
    (hLen : ¬header.len.toNat > (data.drop 24).length) :
    ∃ rest, rest.take header.len.toNat = (data.drop 24).take header.len.toNat ∧
      kcp.inputLoop host maxack (recode host data) =
        if ¬Commands.isValid header.cmd then (kcp, .error (-3))
        else (kcp.inputSegment header.toIkcpSeg rest).inputLoop host
          (Ikcpcb.noteAck maxack header.toIkcpSeg)
          (recode host ((data.drop 24).drop header.len.toNat)) := by
  have hFits : ((data.drop 24).take header.len.toNat).length = header.len.toNat := by
    rw [List.length_take]
    omega
  have hShort : header.len.toNat < 2 ^ 31 := by
    rw [List.length_drop] at hLen
    omega
  refine ⟨(data.drop 24).take header.len.toNat ++
    recode host ((data.drop 24).drop header.len.toNat), List.take_left' hFits, ?_⟩
  have hEnough : ¬(((data.drop 24).take header.len.toNat ++
      recode host ((data.drop 24).drop header.len.toNat)).length < header.len.toNat ∨
        header.len.toInt32 < 0) := by
    rw [List.length_append, hFits, Int32.lt_iff_toInt_lt, toInt_of_half hShort, Int32.toInt_zero]
    omega
  rw [recode_of_le (Nat.not_lt.mp hLong), ← hHeader, inputLoop_cons, if_neg (not_not.mpr hConv),
    if_neg hEnough, List.drop_left' hFits]

/-- The loops see the same segments and end for the same reason. -/
theorem inputLoop_toIkcpcb {host : Host} {conv : UInt32} {data : List UInt8}
    (hLength : data.length < 2 ^ 31) (h : s.Comparable w) (hConv : s.sharedCtx.conv = conv)
    (hCommon : ∀ frame ∈ (scan host conv data).1, frame.Common s.current) {aside : Aside}
    (hAside : s.WindowsAgree aside) {ctx : InputContext} (hLow : ctx.fastackCtx.Low) :
    let seen := scan host conv data
    let final := seen.1.foldl inputFrame (s, ctx)
    final.1.Comparable w ∧ final.2.fastackCtx.Low ∧ ∃ rest, final.1.WindowsAgree rest ∧
      (s.toIkcpcb aside).inputLoop host ctx.fastackCtx.noted (recode host data) =
        (final.1.toIkcpcb rest, (seen.2.map fun _ =>
          final.2.fastackCtx.noted).mapError Error.code) := by
  fun_induction scan host conv data generalizing s aside ctx with
  | case1 data hShort =>
      refine ⟨h, hLow, aside, hAside, ?_⟩
      rw [recode_of_lt hShort, Ikcpcb.inputLoop, dif_pos hShort]
      rfl
  | case2 data hLong header =>
      rename_i hOther
      have hConvOther : header.conv ≠ (s.toIkcpcb aside).conv := by
        rw [← hConv] at hOther
        exact hOther
      refine ⟨h, hLow, aside, hAside, ?_⟩
      rw [recode_of_le (Nat.not_lt.mp hLong), inputLoop_cons, if_pos hConvOther]
      rfl
  | case3 data hLong header body hSame =>
      rename_i hLen
      have hConvSame : ¬header.conv ≠ (s.toIkcpcb aside).conv := by
        rw [← hConv] at hSame
        exact hSame
      refine ⟨h, hLow, aside, hAside, ?_⟩
      rw [recode_of_le (Nat.not_lt.mp hLong), inputLoop_cons, if_neg hConvSame, if_pos]
      · rfl
      · refine .inl ?_
        rw [List.length_append, recode_length, ← List.length_append, List.take_append_drop]
        exact hLen
  | case4 data hLong header body hSame hLen =>
      rename_i hInvalid
      have hConvSame : header.conv = (s.toIkcpcb aside).conv := (not_not.mp hSame).trans hConv.symm
      obtain ⟨rest, -, hLoop⟩ :=
        inputLoop_recode hLength hLong ctx.fastackCtx.noted rfl hConvSame hLen
      refine ⟨h, hLow, aside, hAside, ?_⟩
      rw [hLoop, if_pos (by simpa using hInvalid)]
      rfl
  | case5 data hLong header body hSame hLen hValid payload tail =>
      rename_i ih
      have hConvSame : header.conv = (s.toIkcpcb aside).conv := (not_not.mp hSame).trans hConv.symm
      obtain ⟨rest, hRest, hLoop⟩ :=
        inputLoop_recode hLength hLong ctx.fastackCtx.noted rfl hConvSame hLen
      have hFrame : (⟨header, payload⟩ : Frame).Common s.current := hCommon _ (by simp)
      have hPayload : body.take header.len.toNat = payload := by
        by_cases hPush : header.cmd = Commands.push
        · exact (if_pos hPush).symm
        · have hNone : header.len.toNat = 0 := congrArg UInt32.toNat (hFrame.empty hPush)
          have hEmpty : payload = [] := if_neg hPush
          rw [hNone, hEmpty, List.take_zero]
      have hSize : payload.length = header.len.toNat := by
        rw [← hPayload, List.length_take]
        exact Nat.min_eq_left (Nat.not_lt.mp hLen)
      have hAccepted : (⟨header, payload⟩ : Frame).Accepted s.sharedCtx.conv :=
        ⟨(not_not.mp hSame).trans hConv.symm, by simpa using hValid, fun _ => hSize.symm,
          fun hPush => if_neg hPush⟩
      have hRmtWnd : (s.applyFrame ⟨header, payload⟩).congestionController.rmtWnd =
          header.wnd.toUInt32 :=
        congrArg CongestionController.rmtWnd
          (foldl_applyFrame_congestionController [⟨header, payload⟩] s)
      obtain ⟨hNoted, hLowAfter⟩ := noteAck_noteFrame s hFrame.sn_lt hLow
      have hShorter : (body.drop payload.length).length < 2 ^ 31 := by
        simp only [body, List.length_drop]
        omega
      have hAgree : (s.applyFrame ⟨header, payload⟩).WindowsAgree
          { aside with rmtWnd := header.wnd.toUInt32 } :=
        .inl hRmtWnd.symm
      have hOthers : ∀ frame ∈ (scan host conv (body.drop payload.length)).1,
          frame.Common (s.applyFrame ⟨header, payload⟩).current := by
        rw [applyFrame_current]
        exact fun frame hMem => hCommon frame (List.mem_cons_of_mem _ hMem)
      have hTail := ih hShorter (h.applyFrame hAccepted hFrame)
        (applyFrame_sharedCtx s _ ▸ hConv) hOthers hAgree hLowAfter
      rw [hLoop, if_neg (by simpa using hValid),
        inputSegment_toIkcpcb h hFrame (hRest.trans hPayload) aside, hNoted, ← hSize]
      exact hTail

/-- The congestion window grows aside. -/
theorem growCwnd_toIkcpcb (aside : Aside) :
    ∃ cwnd incr, (s.toIkcpcb aside).growCwnd = s.toIkcpcb { aside with cwnd, incr } := by
  unfold Ikcpcb.growCwnd
  dsimp only
  split_ifs <;> exact ⟨_, _, rfl⟩

theorem finishInput_toIkcpcb (h : s.Comparable w) {ctx : FastAckCtx} (hLow : ctx.Low)
    (prevUna : UInt32) {aside : Aside} (hAside : s.WindowsAgree aside) :
    ∃ rest, (s.finishInput prevUna ctx).WindowsAgree rest ∧
      (s.toIkcpcb aside).finishInput prevUna ctx.noted =
        (s.finishInput prevUna ctx).toIkcpcb rest := by
  have hFastack : ctx.noted.elim (s.toIkcpcb aside) (s.toIkcpcb aside).parseFastack = ({ s with
      senderBuffer := AckController.acknowledgeFastack ctx s.senderBuffer s.segmentTracker } :
        ImKcpp mtu).toIkcpcb aside := by
    unfold AckController.acknowledgeFastack
    cases hValid : ctx.isValid with
    | false =>
        have hNoted : ctx.noted = none := if_neg (by simp [hValid])
        rw [hNoted]
        rfl
    | true =>
        have hNoted : ctx.noted = some ctx.maxack := if_pos hValid
        have hSn : ctx.maxack.toNat < 2 ^ 30 := hLow _ hNoted
        rw [hNoted, Option.elim_some]
        unfold Ikcpcb.parseFastack
        rw [inFlight_toIkcpcb h hSn]
        cases hFlight : AckController.shouldAcknowledge s.segmentTracker ctx.maxack with
        | false => rfl
        | true =>
            have hLoop := parseFastackLoop_toIkcp h.invariant.sender.increasing h.sndBuf_lt
              (show ctx.maxack.toNat < 2 ^ 31 by omega)
            exact congrArg (fun sndBuf => { s.toIkcpcb aside with sndBuf }) hLoop
  obtain ⟨cwnd, incr, hFinish⟩ := Comparable.finishInput_eq s prevUna ctx
  obtain ⟨grown, grownIncr, hGrown⟩ := growCwnd_toIkcpcb (s := { s with
    senderBuffer := AckController.acknowledgeFastack ctx s.senderBuffer s.segmentTracker }) aside
  unfold Ikcpcb.finishInput
  rw [hFastack, hFinish]
  dsimp only
  by_cases hMoved : itimediff s.segmentTracker.sndUna prevUna > 0
  · exact ⟨{ aside with cwnd := grown, incr := grownIncr }, hAside, (if_pos hMoved).trans hGrown⟩
  · exact ⟨aside, hAside, if_neg hMoved⟩

/-- `input` in both. -/
theorem input_toIkcpcb {host : Host} {data : List UInt8} (hLength : data.length < 2 ^ 31)
    (h : s.Comparable w)
    (hCommon : ∀ frame ∈ (scan host s.sharedCtx.conv data).1, frame.Common s.current)
    {aside : Aside} (hAside : s.WindowsAgree aside) :
    ∃ next result rest, s.input host data = .ok (next, result) ∧ next.Comparable w ∧
      next.WindowsAgree rest ∧
      (s.toIkcpcb aside).input host (recode host data) = (next.toIkcpcb rest,
        match result with
        | .ok _ => 0
        | .error error => error.code) := by
  by_cases hShort : data.length < 24
  · refine ⟨s, .error .lessThanHeaderSize, aside, if_pos hShort, h, hAside, ?_⟩
    rw [recode_of_lt hShort]
    exact if_pos hShort
  · have hLow : (({} : InputContext).fastackCtx).Low := nofun
    have hNone : (({} : InputContext).fastackCtx).noted = none := rfl
    have hLong : ¬(recode host data).length < 24 := by rwa [recode_length]
    obtain ⟨hComparable, hNoted, rest, hAgree, hLoop⟩ :=
      inputLoop_toIkcpcb hLength h rfl hCommon hAside hLow
    have hInput := input_eq host s data (Nat.not_lt.mp hShort)
    obtain ⟨final, hFinal⟩ : ∃ final, final =
      (scan host s.sharedCtx.conv data).1.foldl inputFrame (s, {}) :=
      ⟨_, rfl⟩
    dsimp only at hComparable hNoted hAgree hLoop hInput
    rw [← hFinal] at hComparable hNoted hAgree hLoop hInput
    rw [hNone] at hLoop
    unfold Ikcpcb.input
    rw [if_neg hLong, hLoop]
    cases hEnd : (scan host s.sharedCtx.conv data).2 with
    | error error =>
        rw [hEnd] at hInput
        exact ⟨_, _, rest, hInput, hComparable, hAgree, rfl⟩
    | ok left =>
        rw [hEnd] at hInput
        obtain ⟨after, hAfter, hFinish⟩ :=
          finishInput_toIkcpcb hComparable hNoted s.segmentTracker.sndUna hAgree
        refine ⟨_, _, after, hInput, hComparable.finishInput _ _, hAfter, ?_⟩
        rw [← hFinish]
        rfl

end ImKcpp

end Loop

end Imkcpp
