import Imkcpp.CongestionGrowth
import Imkcpp.FastAck

/-! A datagram that is well formed up to some point. Its segments are applied one
by one, and what follows them is either left over or rejected; but fast-ack
counting and the congestion window come after the loop, and a rejection skips
both. -/
namespace Imkcpp

open Transition OrderedList

variable {mtu : Mtu} {host : Host} {conv : UInt32}

/-- The error with which `input` rejects the header at the start of the unread
bytes, if there is one and it is rejected. -/
def rejection (host : Host) (conv : UInt32) (rest : List UInt8) : Option Error :=
  if rest.length < 24 then none
  else
    let header := SegmentHeader.ofBytes host (rest.take 24)
    if header.conv ≠ conv then some .convMismatch
    else if header.len.toNat > rest.length - 24 then some .headerAndPayloadLengthMismatch
    else if !Commands.isValid header.cmd then some .unknownCommand
    else none

/-- A rejected header ends the loop. -/
theorem scan_of_rejection {rest : List UInt8} {error : Error}
    (h : rejection host conv rest = some error) :
    scan host conv rest = ([], .error error) := by
  unfold rejection at h
  unfold scan
  dsimp only at h ⊢
  rw [List.length_drop]
  split_ifs at h ⊢
  · rw [Option.some.inj h]
  · rw [Option.some.inj h]
  · rw [Option.some.inj h]

/-- A whole number of segments is seen as such, whatever follows. -/
theorem scan_append {first second : List UInt8} (h : (scan host conv first).2 = .ok 0) :
    scan host conv (first ++ second) =
      ((scan host conv first).1 ++ (scan host conv second).1, (scan host conv second).2) := by
  fun_induction scan host conv first with
  | case1 first hShort =>
      obtain rfl : first = [] := List.length_eq_zero_iff.mp (Except.ok.inj h)
      rfl
  | case2 => cases h
  | case3 => cases h
  | case4 => cases h
  | case5 first hLong header body hConv hLen hValid payload tail ih =>
      obtain ⟨hFirst, hPush, hOther, hFits⟩ :=
        @scan_pieces first payload header.len (header.cmd = Commands.push) _ rfl hLen
      have hHead : (first.take 24).length = 24 := by
        rw [List.length_take]
        omega
      have hValid : Commands.isValid header.cmd = true := by simpa using hValid
      have hBoth : first ++ second =
          first.take 24 ++ (payload ++ (body.drop payload.length ++ second)) := by
        rw [← List.append_assoc payload, ← List.append_assoc, ← hFirst]
      have hRoom : header.len.toNat ≤ (payload ++ (body.drop payload.length ++ second)).length := by
        rw [← List.append_assoc, List.length_append]
        exact Nat.le_add_right_of_le hFits
      rw [hBoth, scan_cons hHead (not_not.mp hConv) hValid hPush hOther hRoom, ih h]
      rfl

namespace CongestionController

/-- Congestion avoidance adds nothing: both parts of the increment of the counter round
down to zero, and the counter is short of the next segment. Segments of a gigabyte make
words wrap, and there it is said by the step itself. -/
def Stalled (mtu : Mtu) (cc : CongestionController) : Prop :=
  if mtu.maxSegmentSize < 2 ^ 30 then
    mtu.maxSegmentSize < 16 ∧ mtu.maxSegmentSize * mtu.maxSegmentSize < cc.incr.toNat ∧
      cc.incr.toNat < (cc.cwnd.toNat + 1) * mtu.maxSegmentSize
  else cc.avoidCongestion mtu = cc

/-- The counter stays as it is if and only if its increment rounds down to zero. -/
theorem avoidCongestion_incr_eq_iff {cc : CongestionController}
    (hSize : mtu.maxSegmentSize < 2 ^ 30) :
    (cc.avoidCongestion mtu).incr = cc.incr ↔
      mtu.maxSegmentSize < 16 ∧ mtu.maxSegmentSize * mtu.maxSegmentSize < cc.incr.toNat := by
  have hPositive := mtu.maxSegmentSize_pos
  have hMss : (maxSegmentSize mtu).toNat = mtu.maxSegmentSize := toNat_maxSegmentSize (by omega)
  have hSixteen : (16 : UInt64).toNat = 16 := rfl
  have hSquare : mtu.maxSegmentSize * mtu.maxSegmentSize < 2 ^ 64 :=
    (Nat.mul_lt_mul'' hSize hSize).trans (by decide)
  have hSelf : mtu.maxSegmentSize ≤ mtu.maxSegmentSize * mtu.maxSegmentSize :=
    Nat.le_mul_of_pos_left _ hPositive
  have hBound := cc.incr.toNat_lt
  have hTest : cc.incr.toUInt64 < maxSegmentSize mtu ↔ cc.incr.toNat < mtu.maxSegmentSize := by
    rw [UInt64.lt_iff_toNat_lt, hMss, UInt32.toNat_toUInt64]
  rw [avoidCongestion_incr, ← UInt32.toNat_inj, UInt64.toNat_toUInt32, UInt64.toNat_add,
    UInt64.toNat_add, UInt64.toNat_div, UInt64.toNat_div, UInt64.toNat_mul, UInt32.toNat_toUInt64,
    hMss, hSixteen, Nat.mod_eq_of_lt hSquare]
  unfold divisor
  split_ifs with hBelow
  · -- From one segment the counter more than doubles, and it was less.
    rw [hTest] at hBelow
    have hSum : mtu.maxSegmentSize + (mtu.maxSegmentSize + mtu.maxSegmentSize / 16) < 2 ^ 32 := by
      omega
    rw [toNat_oneSegment (by omega), Nat.mul_div_cancel _ hPositive]
    rw [Nat.mod_eq_of_lt (by omega : mtu.maxSegmentSize + mtu.maxSegmentSize / 16 < 2 ^ 64),
      Nat.mod_eq_of_lt (hSum.trans (by decide)), Nat.mod_eq_of_lt hSum]
    omega
  · rw [hTest] at hBelow
    have hIncr : 0 < cc.incr.toNat := by omega
    have hQuotient : mtu.maxSegmentSize * mtu.maxSegmentSize / cc.incr.toNat ≤ mtu.maxSegmentSize :=
      Nat.div_le_of_le_mul (Nat.mul_le_mul_right _ (Nat.not_lt.mp hBelow))
    rw [← Nat.div_eq_zero_iff_lt hIncr]
    generalize mtu.maxSegmentSize * mtu.maxSegmentSize / cc.incr.toNat = quotient at hQuotient ⊢
    omega

theorem avoidCongestion_eq_self_iff {cc : CongestionController}
    (hCwnd : cc.cwnd.toNat + 1 < 2 ^ 32) :
    cc.avoidCongestion mtu = cc ↔ cc.Stalled mtu := by
  unfold Stalled
  split_ifs with hSize
  · have hPositive := mtu.maxSegmentSize_pos
    have hMss : (maxSegmentSize mtu).toNat = mtu.maxSegmentSize := toNat_maxSegmentSize (by omega)
    have hSum : (cc.cwnd + 1).toNat = cc.cwnd.toNat + 1 := by
      rw [UInt32.toNat_add, UInt32.toNat_one, Nat.mod_eq_of_lt hCwnd]
    have hProduct : (cc.cwnd.toNat + 1) * mtu.maxSegmentSize < 2 ^ 64 :=
      (Nat.mul_lt_mul'' hCwnd (hSize.trans (by decide : 2 ^ 30 < 2 ^ 32))).trans_eq (by decide)
    have hTest (incr : UInt32) : (cc.cwnd + 1).toUInt64 * maxSegmentSize mtu ≤ incr.toUInt64 ↔
        (cc.cwnd.toNat + 1) * mtu.maxSegmentSize ≤ incr.toNat := by
      rw [UInt64.le_iff_toNat_le, UInt64.toNat_mul, UInt32.toNat_toUInt64, UInt32.toNat_toUInt64,
        hMss, hSum, Nat.mod_eq_of_lt hProduct]
    have hWindow : (cc.avoidCongestion mtu).cwnd =
        if (cc.cwnd + 1).toUInt64 * maxSegmentSize mtu ≤ (cc.avoidCongestion mtu).incr.toUInt64 then
          (((cc.avoidCongestion mtu).incr.toUInt64 + maxSegmentSize mtu - 1) /
            maxSegmentSize mtu).toUInt32
        else cc.cwnd := rfl
    rw [← and_assoc, ← avoidCongestion_incr_eq_iff hSize]
    constructor
    · intro hSame
      have hIncr : (cc.avoidCongestion mtu).incr = cc.incr := congrArg incr hSame
      refine ⟨hIncr, Nat.not_le.mp fun hReached => ?_⟩
      -- A counter that has reached the next segment takes the window with it.
      rw [hIncr, if_pos ((hTest _).mpr hReached)] at hWindow
      have hRounded := congrArg UInt32.toNat (hWindow.symm.trans (congrArg cwnd hSame))
      rw [toNat_roundedUp (by omega)] at hRounded
      have hLow : cc.cwnd.toNat + 1 ≤ (cc.incr.toNat + mtu.maxSegmentSize - 1) /
          mtu.maxSegmentSize :=
        (Nat.le_div_iff_mul_le hPositive).mpr (by omega)
      omega
    · rintro ⟨hIncr, hShort⟩
      rw [hIncr, if_neg fun hReached => Nat.not_le.mpr hShort ((hTest _).mp hReached)] at hWindow
      exact congrArg₂ (fun cwnd incr => { cc with cwnd, incr }) hWindow hIncr
  · exact Iff.rfl

/-- The congestion window stays as it is when it has reached the remote window, or
when congestion avoidance adds nothing to it. -/
theorem adjustParameters_eq_self_iff (cc : CongestionController) (rmtWnd : UInt32) :
    ({ cc with rmtWnd }).adjustParameters mtu = { cc with rmtWnd } ↔
      rmtWnd ≤ cc.cwnd ∨ cc.ssthresh ≤ cc.cwnd ∧ cc.Stalled mtu := by
  unfold adjustParameters
  dsimp only
  by_cases hBelow : cc.cwnd < rmtWnd
  · have hCwnd : cc.cwnd.toNat + 1 < 2 ^ 32 :=
      (Nat.succ_le_of_lt (UInt32.lt_iff_toNat_lt.mp hBelow)).trans_lt rmtWnd.toNat_lt
    rw [if_pos hBelow, or_iff_right (UInt32.not_le.mpr hBelow), ← avoidCongestion_eq_self_iff hCwnd]
    -- a clamped window is the remote window, which the old one is below
    have hClamped : ∀ incr, ({ cc with rmtWnd, cwnd := rmtWnd, incr } : CongestionController) ≠
        { cc with rmtWnd } := by
      intro incr hSame
      exact UInt32.ne_of_lt hBelow (congrArg CongestionController.cwnd hSame).symm
    by_cases hSlow : cc.cwnd < cc.ssthresh
    · rw [if_pos hSlow]
      refine iff_of_false ?_ fun hAvoid => UInt32.not_le.mpr hSlow hAvoid.1
      split_ifs
      · exact hClamped _
      · intro hSame
        have hCwnd : cc.cwnd + 1 = cc.cwnd := congrArg CongestionController.cwnd hSame
        exact absurd (UInt32.add_eq_left.mp hCwnd) (by decide)
    · rw [if_neg hSlow, and_iff_right (UInt32.not_lt.mp hSlow)]
      have hAvoid : ({ cc with rmtWnd }).avoidCongestion mtu =
          { cc.avoidCongestion mtu with rmtWnd } := rfl
      rw [hAvoid]
      split_ifs with hAbove
      · refine iff_of_false (hClamped _) fun hSame => ?_
        rw [hSame] at hAbove
        exact UInt32.lt_asymm hBelow hAbove
      · constructor
        · intro hSame
          obtain ⟨-, -, -, -, -, hCwnd, hIncr⟩ := CongestionController.mk.inj hSame
          exact congrArg₂ (fun cwnd incr => { cc with cwnd, incr }) hCwnd hIncr
        · exact fun hSame => congrArg (fun cc => { cc with rmtWnd }) hSame
  · rw [if_neg hBelow]
    exact iff_of_true rfl (.inl (UInt32.not_lt.mp hBelow))

end CongestionController

namespace ImKcpp

/-- The segments before the tail leave no fast-ack counting to be done: every
buffered segment below a counted number is acknowledged, or the greatest counted
number has not been sent. -/
def NoneSkipped (s : ImKcpp mtu) (frames : List Frame) : Prop :=
  (∀ sn ∈ countedAcks frames, sn < s.segmentTracker.sndNxt) →
    ∀ sn ∈ countedAcks frames, ∀ seg ∈ s.senderBuffer.sndBuf, seg.header.sn < sn →
      ∃ frame ∈ frames, Acknowledges frame seg.header.sn

/-- The segments before the tail leave the congestion window alone: they do not
acknowledge the first buffered segment, or the window cannot grow. -/
def WindowKept (s : ImKcpp mtu) (frames : List Frame) : Prop :=
  (∃ seg, s.senderBuffer.sndBuf.head? = some seg ∧
    ∃ frame ∈ frames, Acknowledges frame seg.header.sn) →
    ∀ frame, frames.getLast? = some frame →
      frame.header.wnd.toUInt32 ≤ s.congestionController.cwnd ∨
        s.congestionController.ssthresh ≤ s.congestionController.cwnd ∧
          s.congestionController.Stalled mtu

theorem finishInput_eq_self_iff (s : ImKcpp mtu) (prevUna : UInt32) (ctx : FastAckCtx) :
    s.finishInput prevUna ctx = s ↔
      AckController.acknowledgeFastack ctx s.senderBuffer s.segmentTracker = s.senderBuffer ∧
        (s.segmentTracker.sndUna > prevUna →
          s.congestionController.adjustParameters mtu = s.congestionController) := by
  unfold finishInput
  constructor
  · intro hSame
    refine ⟨congrArg ImKcpp.senderBuffer hSame, fun hGt => ?_⟩
    have hController := congrArg ImKcpp.congestionController hSame
    dsimp only at hController
    rwa [if_pos hGt] at hController
  · rintro ⟨hBuffer, hController⟩
    rw [hBuffer]
    split_ifs with hGt
    · rw [hController hGt]
    · rfl

/-- Fast-ack counting, behind the segments of a datagram. -/
theorem Invariant.acknowledgeFastack_eq_self_iff {s : ImKcpp mtu} (h : s.Invariant)
    {frames : List Frame} {ctx : FastAckCtx} (hCtx : ctx.Greatest (countedAcks frames)) :
    let folded := frames.foldl ImKcpp.applyFrame s
    AckController.acknowledgeFastack ctx folded.senderBuffer folded.segmentTracker =
      folded.senderBuffer ↔
      s.NoneSkipped frames := by
  intro folded
  classical
  obtain ⟨hCounted, hUncounted⟩ := hCtx.acknowledgeFastack_sndBuf (h.sender.foldl_applyFrame frames)
    fun seg => (Iff.rfl : (∃ sn ∈ countedAcks frames, seg.header.sn < sn) ↔ _)
  rw [foldl_applyFrame_sndNxt] at hCounted hUncounted
  have hBuffer : AckController.acknowledgeFastack ctx folded.senderBuffer folded.segmentTracker =
        folded.senderBuffer ↔
      (AckController.acknowledgeFastack ctx folded.senderBuffer folded.segmentTracker).sndBuf =
        folded.senderBuffer.sndBuf :=
    ⟨congrArg SenderBuffer.sndBuf, congrArg SenderBuffer.mk⟩
  rw [hBuffer, NoneSkipped]
  by_cases hLow : ∀ sn ∈ countedAcks frames, sn < s.segmentTracker.sndNxt
  · rw [hCounted hLow, SenderBuffer.map_counted_eq_self_iff, imp_iff_right hLow]
    constructor
    · intro hNone sn hSn seg hSeg hLt
      by_contra hKept
      push Not at hKept
      exact hNone seg ((h.mem_foldl_sndBuf frames seg).mpr ⟨hSeg, hKept⟩) ⟨sn, hSn, hLt⟩
    · rintro hAll seg hSeg ⟨sn, hSn, hLt⟩
      obtain ⟨hOld, hKept⟩ := (h.mem_foldl_sndBuf frames seg).mp hSeg
      obtain ⟨frame, hFrame, hAck⟩ := hAll sn hSn seg hOld hLt
      exact hKept frame hFrame hAck
  · exact iff_of_true (hUncounted hLow) fun hAll => absurd hAll hLow

/-- `snd_una` moves exactly when the first buffered segment is acknowledged. -/
theorem Invariant.lt_foldl_sndUna_iff {s : ImKcpp mtu} (h : s.Invariant) {frames : List Frame}
    (hFrames : ∀ frame ∈ frames, frame.Accepted s.sharedCtx.conv) :
    (frames.foldl ImKcpp.applyFrame s).segmentTracker.sndUna > s.segmentTracker.sndUna ↔
      ∃ seg, s.senderBuffer.sndBuf.head? = some seg ∧
        ∃ frame ∈ frames, Acknowledges frame seg.header.sn := by
  have hAfter := (h.foldl_applyFrame hFrames).sender
  have hMem := h.mem_foldl_sndBuf frames
  have hNxt := foldl_applyFrame_sndNxt frames s
  set folded := frames.foldl ImKcpp.applyFrame s
  have hUna := h.sender.una_eq
  have hIncreasing := h.sender.increasing
  have hNumbered := h.sender.numbered
  rw [SenderBuffer.getFirstSequenceNumberInFlight] at hUna
  cases hBuffer : s.senderBuffer.sndBuf with
  | nil =>
      have hEmpty : folded.senderBuffer.sndBuf = [] := by
        refine List.eq_nil_iff_forall_not_mem.mpr fun seg hSeg => ?_
        exact List.not_mem_nil (hBuffer ▸ ((hMem seg).mp hSeg).1)
      have hSame : folded.segmentTracker.sndUna = s.segmentTracker.sndUna := by
        rw [hAfter.una_eq, hUna, SenderBuffer.getFirstSequenceNumberInFlight, hEmpty, hBuffer]
        exact hNxt
      simp [hSame]
  | cons first rest =>
      rw [hBuffer] at hUna hIncreasing hNumbered hMem
      have hFirst : s.segmentTracker.sndUna = first.header.sn := hUna
      simp only [List.head?_cons, Option.some.injEq, exists_eq_left']
      rw [hFirst]
      constructor
      · intro hGt
        by_contra hKept
        push Not at hKept
        have hLe := hAfter.una_le first ((hMem first).mpr ⟨by simp, hKept⟩)
        exact absurd hGt (UInt32.not_lt.mpr hLe)
      · rintro ⟨frame, hFrame, hAck⟩
        rw [hAfter.una_eq, SenderBuffer.getFirstSequenceNumberInFlight]
        cases hLeft : folded.senderBuffer.sndBuf with
        | nil => exact hNxt.symm ▸ hNumbered first (by simp)
        | cons other others =>
            obtain ⟨hOld, hOther⟩ := (hMem other).mp (by simp [hLeft])
            rcases List.mem_cons.mp hOld with rfl | hOld
            · exact absurd hAck (hOther frame hFrame)
            · exact UInt32.lt_iff_toNat_lt.mpr ((increasing_cons.mp hIncreasing).1 other hOld)

/-- What a datagram does to the state behind its loop is nothing under these two
conditions. -/
theorem Invariant.finishInput_eq_self_iff {s : ImKcpp mtu} (h : s.Invariant) {frames : List Frame}
    (hFrames : ∀ frame ∈ frames, frame.Accepted s.sharedCtx.conv) {ctx : FastAckCtx}
    (hCtx : ctx.Greatest (countedAcks frames)) :
    let folded := frames.foldl ImKcpp.applyFrame s
    folded.finishInput s.segmentTracker.sndUna ctx = folded ↔ s.NoneSkipped frames ∧
      s.WindowKept frames := by
  intro folded
  have hFastack := h.acknowledgeFastack_eq_self_iff hCtx
  dsimp only at hFastack
  rw [ImKcpp.finishInput_eq_self_iff, hFastack, h.lt_foldl_sndUna_iff hFrames]
  refine and_congr_right fun _ => imp_congr_right ?_
  rintro ⟨seg, -, frame, hFrame, -⟩
  obtain ⟨init, last, rfl⟩ :=
    List.eq_nil_or_concat' frames |>.resolve_left (List.ne_nil_of_mem hFrame)
  rw [foldl_applyFrame_congestionController, CongestionController.adjustParameters_eq_self_iff]
  simp

end ImKcpp

/-- What `input` leaves of a datagram that it reads to its end; no bytes at all
leave the state as it is. -/
theorem ImKcpp.input_whole {s t : ImKcpp mtu} {data : List UInt8}
    (h : data = [] ∧ t = s ∨ ∃ counts, s.input host data = .ok (t, .ok counts) ∧
      counts.totalBytesReceived = data.length) :
    let seen := scan host s.sharedCtx.conv data
    let final := seen.1.foldl inputFrame (s, {})
    seen.2 = .ok 0 ∧ t = final.1.finishInput s.segmentTracker.sndUna final.2.fastackCtx := by
  intro seen final
  rcases h with ⟨rfl, rfl⟩ | ⟨counts, hInput, hTotal⟩
  · have hSeen : seen = ([], .ok 0) := scan_wire host t.sharedCtx.conv [] (by simp)
    have hFinal : final = (t, {}) := by simp only [final, hSeen, List.foldl_nil]
    rw [hSeen, hFinal]
    refine ⟨rfl, Eq.symm ((finishInput_eq_self_iff t t.segmentTracker.sndUna {}).mpr ⟨rfl, ?_⟩)⟩
    exact fun hGt => absurd hGt (UInt32.lt_irrefl _)
  · obtain ⟨-, ⟨left, hEnd⟩, hState, rfl⟩ := input_success hInput
    have hLength := scan_length host s.sharedCtx.conv data left hEnd
    have hOffset := foldl_inputFrame_offset host seen.1 s {}
    change final.2.offset = 0 + (wire host seen.1).length at hOffset
    change final.2.offset = data.length at hTotal
    have hLeft : left = 0 := by
      change (wire host seen.1).length + left = data.length at hLength
      omega
    exact ⟨hEnd.trans (congrArg Except.ok hLeft), hState⟩

/-- Behind a whole number of segments a rejected header leaves the state that the
segments alone would have left if and only if there is no fast-ack counting to
be done for them and they leave the congestion window alone. -/
theorem ImKcpp.Invariant.input_append_iff {s next : ImKcpp mtu} (h : s.Invariant)
    {first second : List UInt8} {error : Error}
    (hFirst : first = [] ∧ next = s ∨ ∃ counts, s.input host first = .ok (next, .ok counts) ∧
      counts.totalBytesReceived = first.length)
    (hSecond : rejection host s.sharedCtx.conv second = some error) :
    s.input host (first ++ second) = .ok (next, .error error) ↔
      s.NoneSkipped (scan host s.sharedCtx.conv first).1 ∧
        s.WindowKept (scan host s.sharedCtx.conv first).1 := by
  obtain ⟨hWhole, hNext⟩ := ImKcpp.input_whole hFirst
  have hAccepted := scan_accepted host s.sharedCtx.conv first
  have hInput : s.input host (first ++ second) =
      .ok ((scan host s.sharedCtx.conv first).1.foldl ImKcpp.applyFrame s, .error error) := by
    have hLong : 24 ≤ (first ++ second).length := by
      have hShort : ¬second.length < 24 := by
        intro hShort
        rw [rejection, if_pos hShort] at hSecond
        cases hSecond
      rw [List.length_append]
      omega
    rw [ImKcpp.input_eq host _ _ hLong, scan_append hWhole, scan_of_rejection hSecond]
    dsimp only
    rw [List.append_nil, ImKcpp.foldl_inputFrame_fst]
  have hGreatest := s.foldl_inputFrame_greatest (scan host s.sharedCtx.conv first).1
  have hKeeps := h.finishInput_eq_self_iff hAccepted hGreatest
  dsimp only at hKeeps
  rw [hInput, ← hKeeps, hNext, ImKcpp.foldl_inputFrame_fst]
  simp only [Except.ok.injEq, Prod.mk.injEq, and_true]
  exact eq_comm

/-- The same in every state that calls can lead to. -/
theorem malformed_tail_iff {party : Party mtu}
    (hReach : (endpointSystem host mtu conv).Reachable party) {first second : List UInt8}
    {next : ImKcpp mtu} {error : Error} (hFirst : first = [] ∧ next = party.endpoint ∨
      ∃ counts, party.endpoint.input host first = .ok (next, .ok counts) ∧
        counts.totalBytesReceived = first.length)
    (hSecond : rejection host conv second = some error) :
    party.endpoint.input host (first ++ second) = .ok (next, .error error) ↔
      party.endpoint.NoneSkipped (scan host conv first).1 ∧
        party.endpoint.WindowKept (scan host conv first).1 := by
  have hConv := conv_of_reachable hReach
  have hRejected : rejection host party.endpoint.sharedCtx.conv second = some error :=
    hConv.symm ▸ hSecond
  rw [(invariant_of_reachable hReach).input_append_iff hFirst hRejected, hConv]

/-- Data, and the acknowledgement of the first of two segments in flight from a peer with
room for one. -/
def pushThenAck : List Frame :=
  [⟨{ cmd := Commands.push, wnd := 1, len := 1 }, [7]⟩, ⟨{ cmd := Commands.ack, wnd := 1 }, []⟩]

/-- These two before a header of another conversation. -/
theorem malformed_tail_push_ack :
    ∃ (party : Party .least) (next : ImKcpp .least),
      (Party.fresh .least 0).run Host.x8664
        [.configure (.congestionWindowEnabled false), .send [1], .send [2], .update 0] = .ok party ∧
      party.endpoint.numbers = [0, 1] ∧ next.numbers = [1] ∧
      party.endpoint.input Host.x8664 (wire Host.x8664 pushThenAck) =
        .ok (next, .ok { cmdAckCount := 1, totalBytesReceived := 49 }) ∧
      party.endpoint.input Host.x8664 (wire Host.x8664 pushThenAck ++ List.replicate 24 0xff) =
        .ok (next, .error .convMismatch) := by
  have hRuns : ((Party.fresh .least 0).run Host.x8664
      [.configure (.congestionWindowEnabled false), .send [1], .send [2], .update 0]) >>=
        (fun party => (party.endpoint.input Host.x8664 (wire Host.x8664 pushThenAck)).map
          fun next =>
          (party.endpoint.numbers, party.endpoint.congestionController.cwnd,
            next.1.numbers, next.2)) =
      .ok ([0, 1], 1, [1], .ok { cmdAckCount := 1, totalBytesReceived := 49 }) := by
    decide +kernel
  obtain ⟨party, hRun, hFirst⟩ := bind_eq_ok.mp hRuns
  obtain ⟨⟨next, result⟩, hInput, hFacts⟩ := map_eq_ok.mp hFirst
  simp only [Prod.mk.injEq] at hFacts
  obtain ⟨hNumbers, hCwnd, hLeft, rfl⟩ := hFacts
  refine ⟨party, next, hRun, hNumbers, hLeft, hInput, ?_⟩
  have hScan : scan Host.x8664 0 (wire Host.x8664 pushThenAck) = (pushThenAck, .ok 0) :=
    scan_wire Host.x8664 0 _ fun frame hFrame => by
      rcases List.mem_pair.mp hFrame with rfl | rfl
      · exact ⟨⟨rfl, rfl, fun _ => rfl, fun hOther => absurd rfl hOther⟩, rfl⟩
      · exact ⟨⟨rfl, rfl, fun _ => rfl, fun _ => rfl⟩, rfl⟩
  have hReach := Party.reachable_run (.of_init rfl) hRun
  refine (malformed_tail_iff hReach (.inr ⟨_, hInput, by decide +kernel⟩)
    (show rejection Host.x8664 0 (List.replicate 24 0xff) = some .convMismatch by
      decide +kernel)).mpr ?_
  have hCounted : countedAcks pushThenAck = [0] := by decide
  rw [hScan]
  constructor
  · -- Nothing lies below the only number that is counted.
    intro _ sn hSn seg _ hBelow
    rw [hCounted] at hSn
    rw [List.mem_singleton.mp hSn] at hBelow
    exact absurd hBelow UInt32.not_lt_zero
  · -- The window that the last segment announces is reached.
    rintro - frame hLast
    left
    obtain rfl : ⟨{ cmd := Commands.ack, wnd := 1 }, []⟩ = frame := Option.some.inj hLast
    rw [hCwnd]
    decide

/-- An acknowledgement that lets the congestion window grow, before the same header. -/
theorem malformed_tail_ack :
    ¬∀ (mtu : Mtu) (host : Host) (conv : UInt32) (party : Party mtu),
      (endpointSystem host mtu conv).Reachable party →
      ∀ (first second : List UInt8) (next : ImKcpp mtu) (error : Error),
        (first = [] ∧ next = party.endpoint ∨
          ∃ counts, party.endpoint.input host first = .ok (next, .ok counts) ∧
            counts.totalBytesReceived = first.length) →
        rejection host conv second = some error →
          party.endpoint.input host (first ++ second) = .ok (next, .error error) := by
  intro hAll
  have hRuns : ((Party.fresh .least 0).run Host.x8664 [.update 0, .send [1], .flush]).map
      (fun party =>
        ((party.endpoint.input Host.x8664
            (wire Host.x8664 [⟨{ cmd := Commands.ack, wnd := 32 }, []⟩])).map fun next =>
              (next.1.congestionController.cwnd, next.2),
          (party.endpoint.input Host.x8664
            (wire Host.x8664 [⟨{ cmd := Commands.ack, wnd := 32 }, []⟩] ++
              List.replicate 24 0xff)).map
              fun next => next.1.congestionController.cwnd)) =
      .ok (.ok (2, .ok { cmdAckCount := 1, totalBytesReceived := 24 }), .ok 1) := by
    decide +kernel
  obtain ⟨party, hRun, hFacts⟩ := map_eq_ok.mp hRuns
  obtain ⟨hFirst, hBoth⟩ := Prod.mk.inj hFacts
  obtain ⟨⟨next, result⟩, hInput, hNext⟩ := map_eq_ok.mp hFirst
  obtain ⟨hTwo, rfl⟩ := Prod.mk.inj hNext
  have hTail := hAll .least Host.x8664 0 party (Party.reachable_run (.of_init rfl) hRun) _
    (List.replicate 24 0xff) next .convMismatch (.inr ⟨_, hInput, rfl⟩) (by decide +kernel)
  rw [hTail] at hBoth
  have hOne : next.congestionController.cwnd = 1 := Except.ok.inj hBoth
  exact absurd (hTwo.symm.trans hOne) (by decide)

end Imkcpp
