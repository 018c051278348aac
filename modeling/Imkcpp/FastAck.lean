import Imkcpp.SenderSafety

/-! Fast-ack counting. `input` keeps the greatest number that a datagram acknowledges in
a context, where one number stands for none, and counts behind its loop, in a sender
buffer from which the same datagram has removed segments. -/
namespace Imkcpp

open OrderedList

variable {mtu : Mtu} {host : Host}

/-- The numbers that the `ACK`s of a datagram name, in order. -/
def ackNumbers (frames : List Frame) : List UInt32 :=
  (frames.filter fun frame => decide (frame.header.cmd = Commands.ack)).map fun frame =>
    frame.header.sn

/-- The numbers that fast-ack counting looks at. The greatest `u32` stands for no
number in `FastAckCtx`, so an `ACK` of it forgets the earlier ones. -/
def countedAcks (frames : List Frame) : List UInt32 :=
  (ackNumbers frames).rtakeWhile fun sn => decide (sn ≠ 0xffffffff)

theorem countedAcks_ack {frames : List Frame} {frame : Frame}
    (h : frame.header.cmd = Commands.ack) :
    countedAcks (frames ++ [frame]) =
      if frame.header.sn = 0xffffffff then [] else countedAcks frames ++ [frame.header.sn] := by
  have hNumbers : ackNumbers (frames ++ [frame]) = ackNumbers frames ++ [frame.header.sn] := by
    simp [ackNumbers, h]
  rw [countedAcks, hNumbers, List.rtakeWhile_concat]
  simp [countedAcks]

theorem countedAcks_other {frames : List Frame} {frame : Frame}
    (h : frame.header.cmd ≠ Commands.ack) :
    countedAcks (frames ++ [frame]) = countedAcks frames := by
  have hNumbers : ackNumbers (frames ++ [frame]) = ackNumbers frames := by
    simp [ackNumbers, h]
  rw [countedAcks, hNumbers, countedAcks]

/-- What the context of fast-ack counting knows of the counted numbers. -/
inductive FastAckCtx.Greatest (ctx : FastAckCtx) : List UInt32 → Prop where
  | none (hNone : ctx.maxack = 0xffffffff) : Greatest ctx []
  | some {numbers : List UInt32} (hSome : ctx.maxack ≠ 0xffffffff) (hMem : ctx.maxack ∈ numbers)
      (hMax : ∀ sn ∈ numbers, sn ≤ ctx.maxack) : Greatest ctx numbers

/-- `FastAckCtx::update`, on the counted numbers. -/
theorem FastAckCtx.Greatest.update {ctx : FastAckCtx} {numbers : List UInt32}
    (h : ctx.Greatest numbers) (sn ts : UInt32) :
    (ctx.update sn ts).Greatest (if sn = 0xffffffff then [] else numbers ++ [sn]) := by
  have hLast : ∀ other : UInt32, other ≤ 0xffffffff := by
    intro other
    rw [UInt32.le_iff_toNat_le]
    exact Nat.le_of_lt_succ other.toNat_lt
  cases h with
  | none hNone =>
      have hUpdate : ctx.update sn ts = ⟨sn, ts⟩ := by simp [FastAckCtx.update, isValid, hNone]
      rw [hUpdate]
      split_ifs with hSn
      · exact .none hSn
      · exact .some hSn (by simp) (by simp)
  | some hSome hMem hMax =>
      have hUpdate : ctx.update sn ts = if sn > ctx.maxack then ⟨sn, ts⟩ else ctx := by
        simp [FastAckCtx.update, isValid, hSome]
      rw [hUpdate]
      by_cases hGt : sn > ctx.maxack
      · rw [if_pos hGt]
        split_ifs with hSn
        · exact .none hSn
        · refine .some hSn (by simp) ?_
          intro other hOther
          rcases List.mem_append.mp hOther with hOther | hOther
          · exact UInt32.le_of_lt (UInt32.lt_of_le_of_lt (hMax other hOther) hGt)
          · exact UInt32.le_of_eq (List.mem_singleton.mp hOther)
      · have hSn : sn ≠ 0xffffffff := by
          rintro rfl
          exact hSome (UInt32.le_antisymm (hLast ctx.maxack) (UInt32.not_lt.mp hGt))
        rw [if_neg hGt, if_neg hSn]
        refine .some hSome (by simp [hMem]) ?_
        intro other hOther
        rcases List.mem_append.mp hOther with hOther | hOther
        · exact hMax other hOther
        · exact List.mem_singleton.mp hOther ▸ UInt32.not_lt.mp hGt

/-- Behind the loop the context holds the greatest counted number. -/
theorem ImKcpp.foldl_inputFrame_greatest (s : ImKcpp mtu) (frames : List Frame) :
    (frames.foldl inputFrame (s, {})).2.fastackCtx.Greatest (countedAcks frames) := by
  induction frames using List.reverseRecOn with
  | nil => exact .none rfl
  | append_singleton frames frame ih =>
      rw [List.foldl_concat]
      dsimp only [inputFrame, noteFrame]
      by_cases hAck : frame.header.cmd = Commands.ack
      · have hPush : frame.header.cmd ≠ Commands.push := by
          rw [hAck]
          decide
        rw [if_neg hPush, if_pos hAck, countedAcks_ack hAck]
        exact ih.update frame.header.sn frame.header.ts
      · rw [if_neg hAck, countedAcks_other hAck]
        split_ifs <;> exact ih

theorem Segment.counted_ne (seg : Segment) : seg.counted ≠ seg := by
  intro hSame
  have hCount : seg.metadata.fastack + 1 = seg.metadata.fastack :=
    congrArg (fun seg => seg.metadata.fastack) hSame
  exact absurd (UInt32.add_eq_left.mp hCount) (by decide)

namespace SenderBuffer

/-- Counting leaves the buffer as it is only where there is nothing to be counted. -/
theorem map_counted_eq_self_iff {l : List Segment} {skipped : Segment → Prop}
    [DecidablePred skipped] :
    (l.map fun seg => if skipped seg then seg.counted else seg) = l ↔ ∀ seg ∈ l, ¬skipped seg := by
  conv_lhs => rhs; rw [← List.map_id l]
  rw [List.map_inj_left]
  refine forall₂_congr fun seg _ => ⟨fun hSame hSkipped => ?_, fun hKept => if_neg hKept⟩
  rw [if_pos hSkipped] at hSame
  exact seg.counted_ne hSame

end SenderBuffer

/-- `acknowledge_fastack` counts every number below one of those noted, unless one of
these has not been sent; `snd_una` makes no difference. -/
theorem FastAckCtx.Greatest.acknowledgeFastack_sndBuf {ctx : FastAckCtx} {numbers : List UInt32}
    (h : ctx.Greatest numbers) {conv : UInt32} {sndQueue : List Segment} {buffer : SenderBuffer}
    {tracker : SegmentTracker} (hSender : SenderInvariant mtu conv sndQueue buffer tracker)
    {skipped : Segment → Prop} [DecidablePred skipped]
    (hSkipped : ∀ seg, skipped seg ↔ ∃ sn ∈ numbers, seg.header.sn < sn) :
    let counted := (AckController.acknowledgeFastack ctx buffer tracker).sndBuf
    ((∀ sn ∈ numbers, sn < tracker.sndNxt) →
        counted = buffer.sndBuf.map fun seg => if skipped seg then seg.counted else seg) ∧
      ((¬∀ sn ∈ numbers, sn < tracker.sndNxt) → counted = buffer.sndBuf) := by
  unfold AckController.acknowledgeFastack FastAckCtx.isValid
  cases h with
  | none hNone =>
      have hUncounted : ∀ seg ∈ buffer.sndBuf, ¬skipped seg := by simp [hSkipped]
      simp [hNone, SenderBuffer.map_counted_eq_self_iff.mpr hUncounted]
  | some hSome hMem hMax =>
      have hLow : (∀ sn ∈ numbers, sn < tracker.sndNxt) ↔ ctx.maxack < tracker.sndNxt :=
        ⟨fun hAll => hAll _ hMem, fun hLt sn hSn => UInt32.lt_of_le_of_lt (hMax sn hSn) hLt⟩
      have hSkipped (seg : Segment) : skipped seg ↔ seg.header.sn < ctx.maxack :=
        (hSkipped seg).trans
          ⟨fun ⟨sn, hSn, hLt⟩ => UInt32.lt_of_lt_of_le hLt (hMax sn hSn), fun hLt => ⟨_, hMem, hLt⟩⟩
      rw [if_neg (by simp [hSome]), hLow]
      by_cases hInside : AckController.shouldAcknowledge tracker ctx.maxack = true
      · obtain ⟨-, hLt⟩ := AckController.shouldAcknowledge_iff.mp hInside
        rw [if_neg (by simp [hInside])]
        refine ⟨fun _ => ?_, fun hHigh => absurd hLt hHigh⟩
        simp only [hSkipped]
        exact SenderBuffer.incrementFastackLoop_eq_map hSender.increasing ctx.maxack
      · rw [if_pos (by simpa using hInside)]
        refine ⟨fun hLt => ?_, fun _ => rfl⟩
        refine (SenderBuffer.map_counted_eq_self_iff.mpr fun seg hSeg hSegSkipped =>
          hInside ?_).symm
        refine AckController.shouldAcknowledge_iff.mpr ⟨?_, hLt⟩
        exact UInt32.le_of_lt
          (UInt32.lt_of_le_of_lt (hSender.una_le seg hSeg) ((hSkipped seg).mp hSegSkipped))

theorem mem_ackNumbers {frames : List Frame} {sn : UInt32} :
    sn ∈ ackNumbers frames ↔ ∃ frame ∈ frames, frame.header.cmd = Commands.ack ∧
      frame.header.sn = sn := by
  simp [ackNumbers, and_assoc]

/-- No number that has been sent is the one that stands for none. -/
theorem countedAcks_eq_ackNumbers {frames : List Frame} {sndNxt : UInt32}
    (h : ∀ frame ∈ frames, frame.header.cmd = Commands.ack → frame.header.sn < sndNxt) :
    countedAcks frames = ackNumbers frames := by
  refine List.rtakeWhile_eq_self_iff.mpr fun sn hSn => ?_
  obtain ⟨frame, hFrame, hAck, rfl⟩ := mem_ackNumbers.mp hSn
  have hLow := UInt32.lt_iff_toNat_lt.mp (h frame hFrame hAck)
  have hBound := sndNxt.toNat_lt
  rw [decide_eq_true_eq]
  intro hLast
  rw [hLast] at hLow
  change 2 ^ 32 - 1 < sndNxt.toNat at hLow
  omega

/-- An `ACK` of the segments names a number beyond this one. -/
def Skips (frames : List Frame) (sn : UInt32) : Prop :=
  ∃ frame ∈ frames, frame.header.cmd = Commands.ack ∧ sn < frame.header.sn

instance (frames : List Frame) : DecidablePred (Skips frames) :=
  fun sn => inferInstanceAs (Decidable (∃ frame ∈ frames, frame.header.cmd = Commands.ack ∧
    sn < frame.header.sn))

theorem skips_iff {frames : List Frame} {sn : UInt32} :
    Skips frames sn ↔ ∃ other ∈ ackNumbers frames, sn < other := by
  constructor
  · rintro ⟨frame, hFrame, hAck, hLt⟩
    exact ⟨frame.header.sn, mem_ackNumbers.mpr ⟨frame, hFrame, hAck, rfl⟩, hLt⟩
  · rintro ⟨other, hOther, hLt⟩
    obtain ⟨frame, hFrame, hAck, rfl⟩ := mem_ackNumbers.mp hOther
    exact ⟨frame, hFrame, hAck, hLt⟩

namespace ImKcpp

/-- What a datagram should leave in the sender buffer: the segments that it does not
acknowledge, counted where it skips them. -/
def afterAcks (s : ImKcpp mtu) (frames : List Frame) : List Segment :=
  (s.senderBuffer.sndBuf.filter fun seg => ∀ frame ∈ frames, ¬Acknowledges frame seg.header.sn).map
    fun seg => if Skips frames seg.header.sn then seg.counted else seg

/-- Neither the order of the segments nor their number matters. -/
theorem afterAcks_congr {s : ImKcpp mtu} {frames other : List Frame}
    (h : ∀ frame, frame ∈ frames ↔ frame ∈ other) : s.afterAcks frames = s.afterAcks other := by
  have hKept (seg : Segment) : (∀ frame ∈ frames, ¬Acknowledges frame seg.header.sn) ↔
      ∀ frame ∈ other, ¬Acknowledges frame seg.header.sn := by
    simp only [h]
  have hSkips (sn : UInt32) : Skips frames sn ↔ Skips other sn := by
    simp only [Skips, h]
  rw [afterAcks, afterAcks, List.filter_congr fun seg _ => decide_eq_decide.mpr (hKept seg)]
  exact List.map_congr_left fun seg _ => if_congr (hSkips seg.header.sn) rfl rfl

/-- `input` on the sender buffer, for the segments that it sees in whichever bytes. -/
theorem input_sndBuf {s t : ImKcpp mtu}
    (h : SenderInvariant mtu s.sharedCtx.conv s.sender.sndQueue s.senderBuffer s.segmentTracker)
    {data : List UInt8} {counts : InputResult} (hInput : s.input host data = .ok (t, .ok counts))
    (hNumbers : ∀ frame ∈ (scan host s.sharedCtx.conv data).1, frame.header.cmd = Commands.ack →
      frame.header.sn < s.segmentTracker.sndNxt) :
    t.senderBuffer.sndBuf = s.afterAcks (scan host s.sharedCtx.conv data).1 := by
  obtain ⟨-, -, rfl, -⟩ := input_success hInput
  generalize (scan host s.sharedCtx.conv data).1 = frames at hNumbers ⊢
  have hGreatest := s.foldl_inputFrame_greatest frames
  rw [countedAcks_eq_ackNumbers hNumbers] at hGreatest
  have hSent : ∀ sn ∈ ackNumbers frames, sn < s.segmentTracker.sndNxt := by
    intro sn hSn
    obtain ⟨frame, hFrame, hAck, rfl⟩ := mem_ackNumbers.mp hSn
    exact hNumbers frame hFrame hAck
  have hCounted :=
    (hGreatest.acknowledgeFastack_sndBuf (h.foldl_applyFrame frames) fun _ => skips_iff).1
  rw [foldl_applyFrame_sndNxt, h.foldl_sndBuf] at hCounted
  rw [foldl_inputFrame_fst]
  exact hCounted hSent

/-- Two datagrams with the same segments leave the same sender buffer. -/
theorem input_senderBuffer_congr {s t u : ImKcpp mtu}
    (h : SenderInvariant mtu s.sharedCtx.conv s.sender.sndQueue s.senderBuffer s.segmentTracker)
    {data other : List UInt8} {counts counts' : InputResult}
    (hInput : s.input host data = .ok (t, .ok counts))
    (hOther : s.input host other = .ok (u, .ok counts'))
    (hSame : ∀ frame, frame ∈ (scan host s.sharedCtx.conv data).1 ↔
      frame ∈ (scan host s.sharedCtx.conv other).1)
    (hNumbers : ∀ frame ∈ (scan host s.sharedCtx.conv data).1, frame.header.cmd = Commands.ack →
      frame.header.sn < s.segmentTracker.sndNxt) :
    t.senderBuffer = u.senderBuffer := by
  have hFirst := input_sndBuf h hInput hNumbers
  have hSecond := input_sndBuf h hOther fun frame hFrame =>
    hNumbers frame ((hSame frame).mpr hFrame)
  exact congrArg SenderBuffer.mk (hFirst.trans ((afterAcks_congr hSame).trans hSecond.symm))

end ImKcpp

/-- Fast-ack counting is exact: what a datagram leaves in the sender buffer is counted
once if any of its `ACK`s names a greater number. -/
theorem fastack_exact {s next : ImKcpp mtu}
    (hSender : SenderInvariant mtu s.sharedCtx.conv s.sender.sndQueue s.senderBuffer
      s.segmentTracker)
    {frames : List Frame}
    (hFrames : ∀ frame ∈ frames, frame.WellFormed ∧
      (frame.header.cmd ≠ Commands.push → frame.payload = []))
    (hNumbers : ∀ frame ∈ frames, frame.header.cmd = Commands.ack →
      frame.header.sn < s.segmentTracker.sndNxt)
    {counts : InputResult} (hInput : s.input host (wire host frames) = .ok (next, .ok counts)) :
    next.senderBuffer.sndBuf = s.afterAcks frames := by
  obtain ⟨-, ⟨left, hEnd⟩, -⟩ := ImKcpp.input_success hInput
  have hAccepted := accepted_of_scan hFrames hEnd
  have hScan := scan_wire host s.sharedCtx.conv frames fun frame hFrame =>
    ⟨hAccepted frame hFrame, (hFrames frame hFrame).1⟩
  have hBuffer := ImKcpp.input_sndBuf hSender hInput
  rw [hScan] at hBuffer
  exact hBuffer hNumbers

/-- Three segments in flight. -/
def ImKcpp.threeInFlight : ImKcpp .least :=
  { create .least 0 with
    senderBuffer := ⟨[3, 5, 6].map fun sn =>
      { header := { cmd := Commands.push, sn, len := 1 }, data := [0] }⟩
    segmentTracker := { sndUna := 3, sndNxt := 7 } }

theorem fastack_exact_three :
    ∃ next counts, ImKcpp.threeInFlight.input Host.x8664 (wire Host.x8664
        [⟨{ cmd := Commands.ack, sn := 6 }, []⟩, ⟨{ cmd := Commands.wask }, []⟩,
          ⟨{ cmd := Commands.ack, sn := 4, una := 4 }, []⟩,
          ⟨{ cmd := Commands.ack, sn := 6 }, []⟩]) =
        .ok (next, .ok counts) ∧
      next.senderBuffer.sndBuf.map (fun seg => (seg.header.sn, seg.metadata.fastack)) =
        [(5, 1)] := by
  have hCounts : (ImKcpp.threeInFlight.input Host.x8664 (wire Host.x8664
      [⟨{ cmd := Commands.ack, sn := 6 }, []⟩, ⟨{ cmd := Commands.wask }, []⟩,
        ⟨{ cmd := Commands.ack, sn := 4, una := 4 }, []⟩,
        ⟨{ cmd := Commands.ack, sn := 6 }, []⟩])).map Prod.snd =
      .ok (.ok { cmdAckCount := 3, cmdWaskCount := 1, totalBytesReceived := 96 }) := by
    decide +kernel
  obtain ⟨⟨next, result⟩, hInput, rfl⟩ := map_eq_ok.mp hCounts
  refine ⟨next, _, hInput, ?_⟩
  have hSender : SenderInvariant .least ImKcpp.threeInFlight.sharedCtx.conv []
      ImKcpp.threeInFlight.senderBuffer ImKcpp.threeInFlight.segmentTracker := by
    refine ⟨by simp, ?_, ?_, by decide, rfl⟩
    · intro seg hSeg
      obtain ⟨sn, -, rfl⟩ := List.mem_map.mp hSeg
      exact ⟨⟨rfl, by simp, Mtu.maxSegmentSize_pos .least⟩, rfl, rfl⟩
    · unfold Increasing
      decide
  rw [fastack_exact hSender (by simp [Frame.WellFormed]) (by decide) hInput]
  decide

end Imkcpp
