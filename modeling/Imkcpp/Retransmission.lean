import Imkcpp.Batching
import Imkcpp.Standstill

/-! A number that stays unacknowledged is sent and acknowledged again and again, until
the acknowledgement arrives. So along a run without end all numbers are acknowledged. -/
namespace Imkcpp

open Transition Fragmentation OrderedList Filter Recurrence

variable {mtu : Mtu} {host : Host} {conv : UInt32}

/-- Data under a number. -/
def DataOf (sn : UInt32) (cmd : UInt8) (number : UInt32) : Prop := cmd = Commands.push ∧ number = sn

/-- The acknowledgement of a number. -/
def AckOf (sn : UInt32) (cmd : UInt8) (number : UInt32) : Prop := cmd = Commands.ack ∧ number = sn

namespace ImKcpp

section Flush

variable {s : ImKcpp mtu} {call : Call} {outcome : Outcome mtu}

/-- Every buffered segment that is due is emitted. -/
theorem Flushed.emits_due {start next : ImKcpp mtu} {packets : List (List Frame)}
    {result : FlushResult} {askSend askTell : Bool}
    (h : Flushed host start next packets result askSend askTell) (hSending : start.Sending)
    {seg : Segment} (hSeg : seg ∈ start.moved.2.1.sndBuf)
    (hDue : Sender.isDue start.settings seg = true) :
    ∃ frame ∈ (packets.map (wire host)).flatMap (framesOf host),
      DataOf seg.header.sn frame.header.cmd frame.header.sn := by
  have hCore : (Sender.flushed start.settings seg).core = seg.core := Sender.flushed_core seg
  obtain ⟨-, hCmd, -, hSn, -⟩ := Segment.core_eq_iff.mp hCore
  refine ⟨⟨(Sender.flushed start.settings seg).header, (Sender.flushed start.settings seg).data⟩,
    ?_, hCmd.trans (hSending.moved.inFlight seg hSeg).cmd_eq, hSn⟩
  rw [h.framesOf_eq hSending, h.frames_eq]
  refine mem_flushFrames.mpr (.inr (.inr (.inr ?_)))
  exact List.mem_map_of_mem (f := fun seg => (⟨(Sender.flushed start.settings seg).header,
    (Sender.flushed start.settings seg).data⟩ : Frame)) (List.mem_filter.mpr ⟨hSeg, hDue⟩)

/-- A segment that a call has not emitted was there before, with the same deadline. -/
theorem Invariant.perform_unsent (h : s.Invariant) (hOutcome : s.perform host call = .ok outcome)
    {seg : Segment} (hSeg : seg ∈ outcome.state.senderBuffer.sndBuf)
    (hOld : seg.header.sn < s.segmentTracker.sndNxt)
    (hUnsent : ¬outcome.Emits host (DataOf seg.header.sn)) :
    ∃ old ∈ s.senderBuffer.sndBuf, old.uncounted = seg.uncounted := by
  cases hFlushes : s.flushes call with
  | false =>
      rcases ((h.effect hOutcome).without_flush hFlushes).2.2 with ⟨data, rfl⟩ | ⟨hSame, -⟩
      · obtain ⟨result, hInput⟩ := perform_input hOutcome
        exact h.mem_input_sndBuf hInput seg hSeg
      · rw [hSame] at hSeg
        exact ⟨seg, hSeg, rfl⟩
  | true =>
      obtain ⟨start, packets, result, askSend, askTell, hStart, -, -, hShape, hFlushed⟩ :=
        h.perform_flushes hOutcome hFlushes
      have hSending := (hStart.invariant h).toSending
      rw [hFlushed.sndBuf_eq] at hSeg
      obtain ⟨old, hOldSeg, rfl⟩ := List.mem_map.mp hSeg
      have hSn : (Sender.flushed start.settings old).header.sn = old.header.sn :=
        (Segment.core_eq_iff.mp (Sender.flushed_core old)).2.2.2.1
      have hWaits : Sender.isDue start.settings old = false := by
        refine Bool.not_eq_true _ ▸ fun hDue => hUnsent ?_
        rw [hSn, hShape]
        exact hFlushed.emits_due hSending hOldSeg hDue
      rw [hSn] at hOld
      rw [Sender.flushed_of_not_due hWaits]
      have hBefore : start.senderBuffer = s.senderBuffer ∧
          start.segmentTracker = s.segmentTracker := by cases hStart <;> exact ⟨rfl, rfl⟩
      rcases start.moved_progress.2.2.2 old hOldSeg with hBuffered | hNew
      · exact ⟨old, hBefore.1 ▸ hBuffered, rfl⟩
      · exact absurd hOld (UInt32.not_lt.mpr (hBefore.2 ▸ hNew))

/-- A flush behind the deadline of a buffered segment emits it. -/
theorem Invariant.perform_timed_out (h : s.Invariant) (hOutcome : s.perform host call = .ok outcome)
    (hFlushes : s.flushes call = true) {seg : Segment} (hSeg : seg ∈ s.senderBuffer.sndBuf)
    (hDue : 0 ≤ (timeDelta outcome.state.current seg.metadata.resendts).toInt) :
    outcome.Emits host (DataOf seg.header.sn) := by
  obtain ⟨start, packets, result, askSend, askTell, hStart, hUpdated, hFlush, hShape, hFlushed⟩ :=
    h.perform_flushes hOutcome hFlushes
  obtain ⟨_, _, _, _, hNext, -⟩ := flush_shape hUpdated hFlush
  have hTimedOut : Sender.isDue start.settings seg = true := by
    have hCurrent : start.settings.current = outcome.state.current := by
      rw [hNext]
      rfl
    have hTimed : Sender.hasTimedOut start.settings seg = true := by
      rw [Sender.hasTimedOut, decide_eq_true_eq, ge_iff_le, Int32.le_iff_toInt_le, hCurrent]
      exact hDue
    rw [Sender.isDue, hTimed, Bool.or_true, Bool.true_or]
  have hBuffer : start.senderBuffer = s.senderBuffer := by cases hStart <;> rfl
  rw [hShape]
  exact hFlushed.emits_due (hStart.invariant h).toSending
    (start.moved_progress.2.2.1.subset (hBuffer ▸ hSeg)) hTimedOut

/-- A flush emits the acknowledgements that are scheduled. -/
theorem Invariant.perform_acknowledges (h : s.Invariant)
    (hOutcome : s.perform host call = .ok outcome) (hFlushes : s.flushes call = true) {ack : Ack}
    (hAck : ack ∈ s.ackController.acklist) :
    outcome.Emits host (AckOf ack.sn) := by
  obtain ⟨start, packets, result, askSend, askTell, hStart, -, -, hShape, hFlushed⟩ :=
    h.perform_flushes hOutcome hFlushes
  refine ⟨ackFrame start.serviceHeader ack, ?_, rfl, rfl⟩
  rw [hShape]
  dsimp only
  rw [hFlushed.framesOf_eq (hStart.invariant h).toSending, hFlushed.frames_eq]
  exact mem_flushFrames.mpr (.inl ⟨ack, hStart.ackController_eq ▸ hAck, rfl⟩)

end Flush

section Input

variable {s : ImKcpp mtu} {frames : List Frame} {frame : Frame}

/-- Data that has been queued already is acknowledged once more. -/
theorem Invariant.mem_dueAcks (h : s.Invariant)
    (hFrames : ∀ frame ∈ frames, frame.Accepted s.sharedCtx.conv) (hFrame : frame ∈ frames)
    (hPush : frame.header.cmd = Commands.push) (hOld : frame.header.sn ≤ s.receiver.rcvNxt)
    (hWindow : 0 < s.congestionController.rcvWnd.toNat)
    (hRoom : (frames.foldl ImKcpp.applyFrame s).receiver.rcvNxt.toNat +
      s.congestionController.rcvWnd.toNat < 2 ^ 32) :
    ⟨frame.header.sn, frame.header.ts⟩ ∈ s.dueAcks frames := by
  induction frames generalizing s with
  | nil => cases hFrame
  | cons first rest ih =>
      have hFirst := hFrames first (by simp)
      have hOnward := h.applyFrame_onward hFirst
      have hRest : ∀ other ∈ rest, other.Accepted (s.applyFrame first).sharedCtx.conv := by
        rw [applyFrame_sharedCtx]
        exact fun other hOther => hFrames other (by simp [hOther])
      rw [dueAcks, List.mem_append]
      rcases List.mem_cons.mp hFrame with rfl | hLater
      · left
        have hNext := (h.applyFrame hFirst).foldl_induct (P := fun t =>
          s.receiver.Onward t.receiver)
          (fun t other hPrior hOther hSoFar =>
            hSoFar.trans (hPrior.applyFrame_onward hOther)) hRest hOnward
        have hNextLe := UInt32.le_iff_toNat_le.mp hNext.next_le
        rw [List.foldl_cons] at hRoom
        have hInside : frame.header.sn < s.receiver.rcvNxt + s.congestionController.rcvWnd := by
          rw [UInt32.le_iff_toNat_le] at hOld
          rw [UInt32.lt_iff_toNat_lt, UInt32.toNat_add]
          omega
        rw [if_pos ⟨hPush, hInside⟩]
        exact List.mem_singleton_self _
      · right
        refine ih (h.applyFrame hFirst) hRest hLater (UInt32.le_trans hOld hOnward.next_le) ?_ ?_
        · rwa [applyFrame_rcvWnd]
        · rwa [applyFrame_rcvWnd]

theorem Invariant.perform_schedules (h : s.Invariant) {data : List UInt8} {outcome : Outcome mtu}
    (hOutcome : s.perform host (.input data) = .ok outcome)
    (hFrame : frame ∈ (scan host s.sharedCtx.conv data).1)
    (hPush : frame.header.cmd = Commands.push) (hOld : frame.header.sn ≤ s.receiver.rcvNxt)
    (hWindow : 0 < s.congestionController.rcvWnd.toNat)
    (hRoom : outcome.state.receiver.rcvNxt.toNat + s.congestionController.rcvWnd.toNat < 2 ^ 32) :
    ⟨frame.header.sn, frame.header.ts⟩ ∈ outcome.state.ackController.acklist := by
  have hIdle : ¬s.flushes (.input data) = true := Bool.false_ne_true
  have hAccepted := scan_accepted host s.sharedCtx.conv data
  obtain ⟨result, hInput⟩ := perform_input hOutcome
  rw [input_receiver hInput] at hRoom
  rw [(h.effect hOutcome).acklist_eq, if_neg hIdle]
  exact List.mem_append_right _ (h.mem_dueAcks hAccepted hFrame hPush hOld hWindow hRoom)

/-- What a datagram acknowledges is not buffered any more. -/
theorem Invariant.perform_released (h : s.Invariant) {data : List UInt8} {outcome : Outcome mtu}
    (hOutcome : s.perform host (.input data) = .ok outcome)
    (hFrame : frame ∈ (scan host s.sharedCtx.conv data).1)
    (hAck : frame.header.cmd = Commands.ack) :
    frame.header.sn ∉ outcome.state.numbers := by
  obtain ⟨result, hInput⟩ := perform_input hOutcome
  have hBuffer : outcome.state.senderBuffer.sndBuf.map Segment.uncounted =
      ((scan host s.sharedCtx.conv data).1.foldl ImKcpp.applyFrame s).senderBuffer.sndBuf.map
        Segment.uncounted :=
    congrArg (fun t : ImKcpp mtu => t.senderBuffer.sndBuf) (input_uncounted hInput)
  intro hSn
  obtain ⟨seg, hSeg, hSame⟩ := List.mem_map.mp hSn
  have hMem := List.mem_map_of_mem (f := Segment.uncounted) hSeg
  rw [hBuffer] at hMem
  obtain ⟨old, hOld, hUncounted⟩ := List.mem_map.mp hMem
  have hNumber := congrArg (fun seg : Segment => seg.header.sn) hUncounted
  refine ((h.mem_foldl_sndBuf _ old).mp hOld).2 frame hFrame (.inl ⟨hAck, ?_⟩)
  rw [← hSame]
  exact hNumber.symm

end Input

end ImKcpp

namespace FairRun

variable {run : FairRun host mtu conv} {window una nxt next : Side → UInt32} {side : Side} {i : ℕ}

/-- A datagram that arrives is one that the peer has sent, so all of its segments are processed. -/
theorem scan_eq (hMoving : run.moving i = side) {data : List UInt8}
    (hCall : run.call i = .input data) :
    (scan host (run.net i side).endpoint.sharedCtx.conv data).1 = framesOf host data := by
  subst hMoving
  have hEmitted := run.genuine i data hCall
  obtain ⟨frames, rfl, hFrames⟩ := wire_of_emitted (run.party i (run.moving i).peer) data hEmitted
  rw [conv_of_reachable (run.party i (run.moving i)), scan_wire host conv frames hFrames,
    framesOf_wire host frames fun frame hFrame => (hFrames frame hFrame).2]

/-- A datagram that brings a segment is put in. -/
theorem exists_frame_of_brings {kind : UInt8 → UInt32 → Prop} (hMoving : run.moving i = side)
    (hBrings : (run.call i).Brings host kind) :
    ∃ data, run.call i = .input data ∧
      ∃ frame ∈ (scan host (run.net i side).endpoint.sharedCtx.conv data).1,
        kind frame.header.cmd frame.header.sn := by
  obtain ⟨data, hCall, frame, hFrame, hKind⟩ := hBrings
  rw [← scan_eq hMoving hCall] at hFrame
  exact ⟨data, hCall, frame, hFrame, hKind⟩

/-- With numbers in flight, the first of them is buffered. -/
theorem Rests.una_mem (h : run.Rests una nxt next i) (hInFlight : una side ≠ nxt side) :
    una side ∈ (run.net i side).endpoint.numbers := by
  have hHead := (run.invariant i side).sender.una_eq
  rw [h.una_eq, h.nxt_eq, SenderBuffer.getFirstSequenceNumberInFlight] at hHead
  rw [ImKcpp.numbers]
  cases hBuffer : (run.net i side).endpoint.senderBuffer.sndBuf with
  | nil =>
      rw [hBuffer] at hHead
      exact absurd hHead hInFlight
  | cons first rest =>
      rw [hBuffer] at hHead
      rw [hHead]
      exact List.mem_cons_self

/-- The receiver of the run at rest. -/
theorem Rests.network_drained (h : run.Rests una nxt next i)
    (hFits : run.Fits window) (side : Side) :
    (run.net i).Drained side (window side.peer) where
  windowed := hFits.windowed_at i side.peer
  count_le := hFits.count_le i side
  waiting := h.drained side.peer

/-- The first number in flight is sent again and again. -/
theorem data_frequently (hRests : ∀ᶠ i in atTop, run.Rests una nxt next i)
    (hInFlight : una side ≠ nxt side) :
    ∃ᶠ i in atTop, run.moving i = side ∧ (run.outcome i).Emits host (DataOf (una side)) := by
  intro hNever
  have hStill := eventually_rests_succ hRests
  obtain ⟨start, hStart⟩ := eventually_atTop.mp (hNever.and hStill)
  -- the deadline that the segment has from now on
  obtain ⟨first, hFirst, hFirstSn⟩ := List.mem_map.mp ((hStart start le_rfl).2.1.una_mem hInFlight)
  have hDeadline : ∀ i, start ≤ i → ∀ seg ∈ (run.net i side).endpoint.senderBuffer.sndBuf,
      seg.header.sn = una side → seg.metadata.resendts = first.metadata.resendts := by
    intro i hi
    induction i, hi using Nat.le_induction with
    | base =>
        intro seg hSeg hSn
        have hNodup : (run.net start side).endpoint.numbers.Nodup :=
          List.pairwise_map.mpr ((run.invariant start side).sender.increasing.imp
            fun hLt hSame => hLt.ne (congrArg UInt32.toNat hSame))
        rw [List.inj_on_of_nodup_map hNodup hSeg hFirst (hSn.trans hFirstSn.symm)]
    | succ i hi ih =>
        intro seg hSeg hSn
        obtain ⟨hUnsent, hRest, -⟩ := hStart i hi
        by_cases hMoving : run.moving i = side
        · rw [endpoint_succ hMoving] at hSeg
          have hOld : seg.header.sn < (run.net i side).endpoint.segmentTracker.sndNxt := by
            obtain ⟨old, hOld, hOldSn⟩ := List.mem_map.mp (hRest.una_mem hInFlight)
            rw [hSn, ← hOldSn]
            exact (run.invariant i side).sender.numbered old hOld
          obtain ⟨old, hOldSeg, hSame⟩ :=
            (run.invariant i side).perform_unsent (perform hMoving) hSeg hOld
            (by rw [hSn]; exact fun hEmits => hUnsent ⟨hMoving, hEmits⟩)
          have hOldSn := congrArg (fun seg : Segment => seg.header.sn) hSame
          have hOldTs := congrArg (fun seg : Segment => seg.metadata.resendts) hSame
          exact hOldTs.symm.trans (ih old hOldSeg (hOldSn.trans hSn))
        · rw [net_succ_other hMoving] at hSeg
          exact ih seg hSeg hSn
  obtain ⟨i, hi, ⟨hMoving, hFlushes⟩, hDue⟩ :=
    frequently_atTop.mp (run.due_frequently side first.metadata.resendts) start
  obtain ⟨hUnsent, hRest, -⟩ := hStart i hi
  obtain ⟨seg, hSeg, hSn⟩ := List.mem_map.mp (hRest.una_mem hInFlight)
  rw [endpoint_succ hMoving, ← hDeadline i hi seg hSeg hSn] at hDue
  refine hUnsent ⟨hMoving, ?_⟩
  rw [← hSn]
  exact (run.invariant i side).perform_timed_out (perform hMoving) hFlushes hSeg hDue

/-- An acknowledgement of this number is scheduled. -/
def AckWaits (run : FairRun host mtu conv) (side : Side) (sn : UInt32) (i : ℕ) : Prop :=
  ∃ ack ∈ (run.net i side).endpoint.ackController.acklist, ack.sn = sn

/-- Between two flushes no acknowledgement is taken back. -/
theorem ackWaits_succ {sn : UInt32} (h : run.AckWaits side sn i) (hIdle : ¬run.Flushes side i) :
    run.AckWaits side sn (i + 1) := by
  obtain ⟨ack, hAck, hSn⟩ := h
  by_cases hMoving : run.moving i = side
  · have hWaits : ¬(run.net i side).endpoint.flushes (run.call i) = true :=
      fun hFlushes => hIdle ⟨hMoving, hFlushes⟩
    refine ⟨ack, ?_, hSn⟩
    rw [endpoint_succ hMoving, (effect hMoving).acklist_eq, if_neg hWaits]
    exact List.mem_append_left _ hAck
  · refine ⟨ack, ?_, hSn⟩
    rwa [net_succ_other hMoving]

/-- Data that arrives for a number up to the next one is acknowledged. -/
theorem ackWaits_of_data (hFits : run.Fits window) (hRests : run.Rests una nxt next (i + 1))
    (hSame : run.Rests una nxt next i) (hMoving : run.moving i = side.peer)
    (hBrings : (run.call i).Brings host (DataOf (una side))) :
    run.AckWaits side.peer (una side) (i + 1) := by
  obtain ⟨data, hCall, frame, hFrame, hPush, hSn⟩ := exists_frame_of_brings hMoving hBrings
  have hReach := run.reachable i
  have hInvariant := run.invariant i side.peer
  have hDrained := hSame.network_drained hFits side
  have hUna := hDrained.una_le hReach
  rw [hSame.una_eq] at hUna
  have hOutcome := perform hMoving
  rw [hCall] at hOutcome
  have hTotal := hFits.total_le i side
  have hGiven := sndNxt_le_fragments hReach side
  have hNextLe := UInt32.le_iff_toNat_le.mp (rcvNxt_le_sndNxt hReach side)
  have hRcvWnd : (run.net i side.peer).endpoint.congestionController.rcvWnd.toNat =
      max (window side.peer).toNat 128 := by
    rw [hDrained.windowed.rcvWnd_eq]
    exact toNat_max _ _
  have hWindow := hFits.window_le side.peer
  refine ⟨⟨frame.header.sn, frame.header.ts⟩, ?_, hSn⟩
  rw [endpoint_succ hMoving]
  refine hInvariant.perform_schedules hOutcome hFrame hPush (hSn ▸ hUna) ?_ ?_
  · rw [hRcvWnd]
    exact Nat.lt_of_lt_of_le (by decide) (Nat.le_max_right _ _)
  · rw [← endpoint_succ hMoving, hRests.next_eq, ← hSame.next_eq, hRcvWnd]
    omega

/-- Every run acknowledges all the numbers that it gives out. -/
theorem Fits.una_eq_nxt (hFits : run.Fits window) (hRests : ∀ᶠ i in atTop, run.Rests una nxt next i)
    (side : Side) :
    una side = nxt side := by
  by_contra hInFlight
  have hStill := eventually_rests_succ hRests
  have hArrives := (run.fair side _ (data_frequently hRests hInFlight)).and_eventually hStill
  have hScheduled : ∃ᶠ i in atTop, run.AckWaits side.peer (una side) i := by
    refine frequently_atTop.mpr fun bound => ?_
    obtain ⟨i, hi, ⟨hMoving, hBrings⟩, hRest, hRestNext⟩ := frequently_atTop.mp hArrives bound
    exact ⟨i + 1, Nat.le_succ_of_le hi, ackWaits_of_data hFits hRestNext hRest hMoving hBrings⟩
  have hServed := frequently_served hScheduled
    (.of_forall fun i hWaits hIdle => ackWaits_succ hWaits hIdle) (run.flushes_frequently side.peer)
  have hAnswered : ∃ᶠ i in atTop, run.moving i = side.peer ∧
      (run.outcome i).Emits host (AckOf (una side)) := by
    refine hServed.mono fun i ⟨⟨hMoving, hFlushes⟩, ack, hAck, hSn⟩ => ⟨hMoving, ?_⟩
    rw [← hSn]
    exact (run.invariant i side.peer).perform_acknowledges (perform hMoving) hFlushes hAck
  obtain ⟨i, -, ⟨hMoving, hBrings⟩, -, hRestNext⟩ :=
    frequently_atTop.mp ((run.fair side.peer _ hAnswered).and_eventually hStill) 0
  have hBack : run.moving i = side := hMoving.trans side.peer_peer
  obtain ⟨data, hCall, frame, hFrame, hAck, hSn⟩ := exists_frame_of_brings hBack hBrings
  have hOutcome := perform hBack
  rw [hCall] at hOutcome
  have hGone := (run.invariant i side).perform_released hOutcome hFrame hAck
  rw [hSn, ← endpoint_succ hBack] at hGone
  exact hGone (hRestNext.una_mem hInFlight)

end FairRun

end Imkcpp
