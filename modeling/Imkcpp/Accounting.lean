import Imkcpp.Decoding

/-! What `input` counts of the payloads that it is sent. The result has a counter for the
segments that carry one and another one for those that are dropped; the loop never
increments the first, and the second only where it skips a payload itself. -/
namespace Imkcpp

open OrderedList

variable {mtu : Mtu} {host : Host}

namespace ImKcpp

/-- How many payloads meet a state, when their turn comes, in which the test holds. -/
def pushCount (test : ImKcpp mtu → SegmentHeader → Bool) (s : ImKcpp mtu) : List Frame → ℕ
  | [] => 0
  | frame :: rest =>
    (if frame.header.cmd = Commands.push ∧ test s frame.header = true then 1 else 0) +
      (s.applyFrame frame).pushCount test rest

/-- The number of the header is buffered already. -/
def buffers (s : ImKcpp mtu) (header : SegmentHeader) : Bool :=
  s.receiver.rcvBuf.any fun seg => seg.header.sn == header.sn

/-- The receiver does not store the payload: it is out of the window, older than
`rcv_nxt`, or already buffered. -/
def discards (s : ImKcpp mtu) (header : SegmentHeader) : Bool :=
  !s.congestionController.fitsReceiveWindow s.receiver.rcvNxt header.sn ||
    decide (header.sn < s.receiver.rcvNxt) || s.buffers header

/-- A payload is not stored if and only if the receiver stays as it is. -/
theorem Invariant.discards_iff {s : ImKcpp mtu} (h : s.Invariant) {frame : Frame}
    (hPush : frame.header.cmd = Commands.push) :
    s.discards frame.header = true ↔ (s.applyFrame frame).receiver = s.receiver := by
  have hStores : s.storesPush frame.header = false ↔
      s.congestionController.fitsReceiveWindow s.receiver.rcvNxt frame.header.sn = false ∨
        frame.header.sn < s.receiver.rcvNxt := by
    rw [storesPush, Bool.and_eq_false_iff, Receiver.shouldReceive, decide_eq_false_iff_not,
      ge_iff_le, UInt32.not_le]
  have hBuffers : s.buffers frame.header = true ↔
      ∃ seg ∈ s.receiver.rcvBuf, seg.header.sn = frame.header.sn := by
    simp [buffers]
  have hDiscards : s.discards frame.header = true ↔
      s.storesPush frame.header = false ∨ s.buffers frame.header = true := by
    simp [hStores, discards]
  rw [hDiscards, hBuffers, applyFrame_push s hPush]
  cases hStore : s.storesPush frame.header with
  | false => exact iff_of_true (.inl rfl) rfl
  | true =>
      rw [if_pos rfl]
      rcases Receiver.emplaceSegment_cases h.receiver.increasing frame.header frame.payload with
        ⟨hBuffered, hSame⟩ | ⟨hNew, hStored⟩
      · exact iff_of_true (.inr hBuffered) hSame
      · refine iff_of_false ?_ fun hSame => ?_
        · rintro (hSkipped | ⟨seg, hSeg, hSn⟩)
          · cases hSkipped
          · exact hNew seg hSeg hSn
        · -- queue and buffer together have one segment more
          have hMoved := Receiver.move_append { s.receiver with
            rcvBuf := insertByKey Segment.key { header := frame.header, data := frame.payload }
              s.receiver.rcvBuf }
          rw [← hStored, hSame] at hMoved
          have hLength := congrArg List.length hMoved
          simp only [List.length_append, length_insertByKey] at hLength
          omega

/-- The loop skips the payload. -/
def skips (s : ImKcpp mtu) (header : SegmentHeader) : Bool := !s.storesPush header

/-- A payload that is buffered already is not skipped. -/
def repeats (s : ImKcpp mtu) (header : SegmentHeader) : Bool :=
  s.storesPush header && s.buffers header

/-- A payload that is not stored has been skipped, or it is buffered already. -/
theorem pushCount_discards (s : ImKcpp mtu) (frames : List Frame) :
    s.pushCount discards frames = s.pushCount skips frames + s.pushCount repeats frames := by
  induction frames generalizing s with
  | nil => rfl
  | cons frame rest ih =>
      have hOlder : decide (frame.header.sn < s.receiver.rcvNxt) =
          !s.receiver.shouldReceive frame.header.sn := by
        rw [Receiver.shouldReceive, ← decide_not, decide_eq_decide, ge_iff_le, UInt32.not_le]
      have hOne : (if frame.header.cmd = Commands.push ∧
          s.discards frame.header = true then 1 else 0) =
          (if frame.header.cmd = Commands.push ∧ s.skips frame.header = true then 1 else 0) +
            if frame.header.cmd = Commands.push ∧ s.repeats frame.header = true then 1 else 0 := by
        rw [discards, skips, repeats, storesPush, hOlder]
        cases s.congestionController.fitsReceiveWindow s.receiver.rcvNxt frame.header.sn <;>
          cases s.receiver.shouldReceive frame.header.sn <;> cases s.buffers frame.header <;> simp
      rw [pushCount, pushCount, pushCount, ih, hOne]
      omega

theorem pushCount_le (test : ImKcpp mtu → SegmentHeader → Bool) (s : ImKcpp mtu)
    (frames : List Frame) :
    s.pushCount test frames ≤ frames.length := by
  induction frames generalizing s with
  | nil => exact Nat.le_refl 0
  | cons frame rest ih =>
      have hRest := ih (s.applyFrame frame)
      rw [pushCount, List.length_cons]
      split_ifs <;> omega

theorem pushCount_eq_zero {frames : List Frame} (hNone : commandCount Commands.push frames = 0)
    (test : ImKcpp mtu → SegmentHeader → Bool) (s : ImKcpp mtu) : s.pushCount test frames = 0 := by
  induction frames generalizing s with
  | nil => rfl
  | cons frame rest ih =>
      have hNoPush := List.countP_eq_zero.mp hNone
      have hFirst : frame.header.cmd ≠ Commands.push := by
        simpa using hNoPush frame List.mem_cons_self
      have hRest : commandCount Commands.push rest = 0 :=
        List.countP_eq_zero.mpr fun other hOther => hNoPush other (List.mem_cons_of_mem _ hOther)
      rw [pushCount, ih hRest, if_neg fun hPush => hFirst hPush.1]

/-- The counters of `PUSH` behind one segment. -/
theorem noteFrame_push (s : ImKcpp mtu) (frame : Frame) (ctx : InputContext) :
    (s.noteFrame frame ctx).result.cmdPushCount = ctx.result.cmdPushCount ∧
      (s.noteFrame frame ctx).result.droppedPushCount = ctx.result.droppedPushCount +
        if frame.header.cmd = Commands.push ∧ s.skips frame.header = true then 1 else 0 := by
  unfold noteFrame skips
  dsimp only
  cases hStores : s.storesPush frame.header <;> split_ifs <;> simp_all

/-- The counters of `PUSH` behind the loop. -/
theorem foldl_inputFrame_push (frames : List Frame) (s : ImKcpp mtu) (ctx : InputContext) :
    (frames.foldl inputFrame (s, ctx)).2.result.cmdPushCount = ctx.result.cmdPushCount ∧
      (frames.foldl inputFrame (s, ctx)).2.result.droppedPushCount =
        ctx.result.droppedPushCount + UInt32.ofNat (s.pushCount skips frames) := by
  induction frames generalizing s ctx with
  | nil => exact ⟨rfl, (UInt32.add_zero _).symm⟩
  | cons frame rest ih =>
      obtain ⟨hPush, hDropped⟩ := s.noteFrame_push frame ctx
      obtain ⟨hPushRest, hDroppedRest⟩ := ih (s.applyFrame frame) (s.noteFrame frame ctx)
      rw [List.foldl_cons]
      refine ⟨hPushRest.trans hPush, hDroppedRest.trans ?_⟩
      rw [hDropped, pushCount, UInt32.ofNat_add, UInt32.add_assoc]
      congr 2
      split_ifs <;> rfl

/-- The counters of an accepted datagram are the numbers of its segments. -/
structure Accounts (s : ImKcpp mtu) (frames : List Frame) (counts : InputResult) : Prop where
  ack : counts.cmdAckCount.toNat = commandCount Commands.ack frames
  wask : counts.cmdWaskCount.toNat = commandCount Commands.wask frames
  wins : counts.cmdWinsCount.toNat = commandCount Commands.wins frames
  push : counts.cmdPushCount.toNat = commandCount Commands.push frames
  dropped : counts.droppedPushCount.toNat = s.pushCount discards frames

end ImKcpp

/-- What `input` counts in a datagram of whole segments. -/
theorem input_counts {s next : ImKcpp mtu} {frames : List Frame} {counts : InputResult}
    (hWhole : ∀ frame ∈ frames, frame.WellFormed ∧
      (frame.header.cmd ≠ Commands.push → frame.payload = []))
    (hInput : s.input host (wire host frames) = .ok (next, .ok counts)) :
    ImKcpp.Counted {} counts frames ∧ counts.cmdPushCount = 0 ∧
      counts.droppedPushCount = UInt32.ofNat (s.pushCount ImKcpp.skips frames) := by
  obtain ⟨-, ⟨left, hEnd⟩, -, hCounts⟩ := ImKcpp.input_success hInput
  have hAccepted := accepted_of_scan hWhole hEnd
  have hScan := scan_wire host s.sharedCtx.conv frames fun frame hFrame =>
    ⟨hAccepted frame hFrame, (hWhole frame hFrame).1⟩
  rw [hScan] at hCounts
  obtain ⟨hAck, hWask, hWins⟩ :=
    ImKcpp.foldl_inputFrame_counted (fun frame hFrame => (hAccepted frame hFrame).cmd_valid) s {}
  obtain ⟨hPush, hDropped⟩ := ImKcpp.foldl_inputFrame_push frames s {}
  rw [hCounts]
  exact ⟨⟨hAck, hWask, hWins⟩, hPush, hDropped.trans (UInt32.zero_add _)⟩

/-- The counter of dropped payloads is right exactly if none of them is buffered already. -/
theorem input_dropped_iff {s next : ImKcpp mtu} {frames : List Frame} {counts : InputResult}
    (hWhole : ∀ frame ∈ frames, frame.WellFormed ∧
      (frame.header.cmd ≠ Commands.push → frame.payload = []))
    (hInput : s.input host (wire host frames) = .ok (next, .ok counts))
    (hShort : frames.length < 2 ^ 32) :
    counts.droppedPushCount.toNat = s.pushCount ImKcpp.discards frames ↔
      s.pushCount ImKcpp.repeats frames = 0 := by
  obtain ⟨-, -, hDropped⟩ := input_counts hWhole hInput
  have hBound := (ImKcpp.pushCount_le ImKcpp.skips s frames).trans_lt hShort
  rw [hDropped, UInt32.toNat_ofNat_of_lt' hBound, ImKcpp.pushCount_discards]
  omega

/-- The counters are right exactly for datagrams without a payload. -/
theorem input_accounts_iff {s next : ImKcpp mtu} {frames : List Frame} {counts : InputResult}
    (hWhole : ∀ frame ∈ frames, frame.WellFormed ∧
      (frame.header.cmd ≠ Commands.push → frame.payload = []))
    (hInput : s.input host (wire host frames) = .ok (next, .ok counts)) :
    s.Accounts frames counts ↔ commandCount Commands.push frames = 0 ∧
      commandCount Commands.ack frames < 2 ^ 32 ∧ commandCount Commands.wask frames < 2 ^ 32 ∧
      commandCount Commands.wins frames < 2 ^ 32 := by
  obtain ⟨⟨hAck, hWask, hWins⟩, hPush, hDropped⟩ := input_counts hWhole hInput
  rw [UInt32.zero_add] at hAck hWask hWins
  constructor
  · intro hExact
    refine ⟨?_, ?_, ?_, ?_⟩
    · rw [← hExact.push, hPush]
      rfl
    · exact hExact.ack ▸ counts.cmdAckCount.toNat_lt
    · exact hExact.wask ▸ counts.cmdWaskCount.toNat_lt
    · exact hExact.wins ▸ counts.cmdWinsCount.toNat_lt
  · rintro ⟨hNone, hAckLt, hWaskLt, hWinsLt⟩
    refine ⟨?_, ?_, ?_, ?_, ?_⟩
    · rw [hAck, UInt32.toNat_ofNat_of_lt' hAckLt]
    · rw [hWask, UInt32.toNat_ofNat_of_lt' hWaskLt]
    · rw [hWins, UInt32.toNat_ofNat_of_lt' hWinsLt]
    · rw [hPush, hNone]
      rfl
    · rw [hDropped, ImKcpp.pushCount_eq_zero hNone, ImKcpp.pushCount_eq_zero hNone]
      rfl

/-- An acknowledgement and both kinds of probes. -/
def serviceFrames : List Frame :=
  [⟨{ cmd := Commands.ack }, []⟩, ⟨{ cmd := Commands.wask }, []⟩, ⟨{ cmd := Commands.wins }, []⟩]

/-- All three are counted. -/
theorem input_accounts_three :
    ∃ next counts, (ImKcpp.create .least 0).input Host.x8664 (wire Host.x8664 serviceFrames) =
        .ok (next, .ok counts) ∧ (ImKcpp.create .least 0).Accounts serviceFrames counts := by
  have hReplies :
      ((ImKcpp.create .least 0).input Host.x8664 (wire Host.x8664 serviceFrames)).map Prod.snd =
      .ok (.ok { cmdAckCount := 1, cmdWaskCount := 1, cmdWinsCount := 1,
                 totalBytesReceived := 72 }) := by
    decide +kernel
  obtain ⟨⟨next, _⟩, hInput, rfl⟩ := map_eq_ok.mp hReplies
  have hWhole : ∀ frame ∈ serviceFrames, frame.WellFormed ∧
      (frame.header.cmd ≠ Commands.push → frame.payload = []) := by
    simp [serviceFrames, Frame.WellFormed]
  exact ⟨next, _, hInput, (input_accounts_iff hWhole hInput).mpr (by decide)⟩

/-- A segment with one byte of payload. -/
def payloadFrame : Frame := ⟨{ cmd := Commands.push, wnd := 128, len := 1 }, [7]⟩

/-- It is stored, and the counter of payloads stays at zero. -/
theorem input_push_uncounted :
    ¬∀ (mtu : Mtu) (host : Host) (s next : ImKcpp mtu) (frames : List Frame) (counts : InputResult),
      (∀ frame ∈ frames, frame.WellFormed ∧
        (frame.header.cmd ≠ Commands.push → frame.payload = [])) →
      s.input host (wire host frames) = .ok (next, .ok counts) → s.Accounts frames counts := by
  intro hAll
  have hReplies :
      ((ImKcpp.create .least 0).input Host.x8664 (wire Host.x8664 [payloadFrame])).map Prod.snd =
      .ok (.ok { totalBytesReceived := 25 }) := by decide +kernel
  obtain ⟨⟨next, _⟩, hInput, rfl⟩ := map_eq_ok.mp hReplies
  have hPush := (hAll .least Host.x8664 (.create .least 0) next [payloadFrame] _
    (by simp [payloadFrame, Frame.WellFormed]) hInput).push
  exact absurd hPush (by decide)

end Imkcpp
