import Imkcpp.FastRetransmission

/-! What the flush results of a run add up to. Every data segment emitted is the first
transmission of a number, a timeout or a fast retransmission; which of the three, the
counters of transmissions in the buffered segments decide, until they wrap. -/
namespace Imkcpp

open Transition OrderedList

variable {mtu : Mtu} {host : Host} {conv : UInt32}

namespace Sender

variable {settings : FlushSettings}

/-- Whether `process_segment` takes its second branch. -/
def sendsLate (settings : FlushSettings) (segment : Segment) : Bool :=
  !hasNeverBeenSent segment && hasTimedOut settings segment

/-- A part of the loop's context that sending leaves alone is folded over the segments. -/
theorem forEachSegment_fold {β : Type*} {f : FlushContext mtu → β} {g : β → Segment → β}
    (hSend : ∀ (ctx : FlushContext mtu) flusher output pushes total state, f { ctx with
      flusher, output, state
      result := { ctx.result with cmdPushCount := pushes, totalBytesSent := total } } = f ctx)
    (hProcess : ∀ segment ctx, f (processSegment settings segment ctx).2.2 = g (f ctx) segment)
    {segs kept : List Segment} {ctx final : FlushContext mtu}
    (h : forEachSegment host settings segs ctx = .ok (kept, final)) :
    f final = segs.foldl g (f ctx) := by
  induction segs generalizing ctx kept final with
  | nil =>
      obtain ⟨-, rfl⟩ := Prod.mk.inj (Except.ok.inj h)
      rfl
  | cons segment rest ih =>
      obtain ⟨due, prepared, processed, hSegment⟩ :
          ∃ due prepared processed, processSegment settings segment ctx =
            (due, prepared, processed) :=
        ⟨_, _, _, rfl⟩
      have hHead := hProcess segment ctx
      rw [List.foldl_cons, ← hHead, hSegment]
      unfold forEachSegment at h
      rw [hSegment] at h
      dsimp only at h
      cases due with
      | true =>
          rw [if_pos rfl] at h
          obtain ⟨⟨_, sent⟩, hSent, h⟩ := bind_eq_ok.mp h
          obtain ⟨_, -, hSent⟩ := bind_eq_ok.mp hSent
          obtain ⟨_, -, hSent⟩ := bind_eq_ok.mp hSent
          obtain ⟨-, rfl⟩ := Prod.mk.inj (Except.ok.inj hSent)
          obtain ⟨_, hCounted, h⟩ := bind_eq_ok.mp h
          obtain rfl := Except.ok.inj hCounted
          obtain ⟨⟨others, last⟩, hRest, h⟩ := bind_eq_ok.mp h
          obtain ⟨-, rfl⟩ := Prod.mk.inj (Except.ok.inj h)
          rw [ih hRest]
          exact congrArg (fun value => rest.foldl g value) (hSend processed _ _ _ _ _)
      | false =>
          rw [if_neg Bool.false_ne_true] at h
          obtain ⟨_, hKept, h⟩ := bind_eq_ok.mp h
          obtain rfl := Except.ok.inj hKept
          obtain ⟨⟨others, last⟩, hRest, h⟩ := bind_eq_ok.mp h
          obtain ⟨-, rfl⟩ := Prod.mk.inj (Except.ok.inj h)
          rw [ih hRest]

theorem count_cons (p : Segment → Bool) (segment : Segment) (rest : List Segment) (count : UInt32) :
    count + (if p segment then 1 else 0) + UInt32.ofNat (rest.countP p) =
      count + UInt32.ofNat ((segment :: rest).countP p) := by
  rw [List.countP_cons, UInt32.ofNat_add, UInt32.add_assoc, UInt32.add_comm (UInt32.ofNat _)]
  cases p segment <;> rfl

/-- Counting what a predicate picks out. -/
theorem foldl_count (p : Segment → Bool) (segs : List Segment) (first second : UInt32) :
    segs.foldl (fun counts segment =>
        (counts.1 + (if p segment then 1 else 0), counts.2 + (if p segment then 1 else 0)))
          (first, second) =
      (first + UInt32.ofNat (segs.countP p), second + UInt32.ofNat (segs.countP p)) := by
  induction segs generalizing first second with
  | nil => simp
  | cons segment rest ih =>
      rw [List.foldl_cons, ih, count_cons, count_cons]

/-- The loop counts the segments of the second branch twice. -/
theorem forEachSegment_lateCount {segs kept : List Segment} {ctx final : FlushContext mtu}
    (h : forEachSegment host settings segs ctx = .ok (kept, final)) :
    (final.result.timeoutRetransmittedCount, final.xmit) =
      (ctx.result.timeoutRetransmittedCount + UInt32.ofNat (segs.countP (sendsLate settings)),
        ctx.xmit + UInt32.ofNat (segs.countP (sendsLate settings))) := by
  rw [← foldl_count]
  refine forEachSegment_fold (f := fun ctx => (ctx.result.timeoutRetransmittedCount, ctx.xmit))
    (fun _ _ _ _ _ _ => rfl) (fun segment ctx => ?_) h
  unfold processSegment sendsLate
  cases hasNeverBeenSent segment with
  | true => simp
  | false => cases hasTimedOut settings segment <;> cases canFastResend settings segment <;> simp

/-- A segment that is due takes one of three branches. -/
theorem countP_isDue (settings : FlushSettings) (segs : List Segment) :
    segs.countP (isDue settings) = segs.countP hasNeverBeenSent + segs.countP (sendsLate settings) +
      segs.countP (sendsFast settings) := by
  induction segs with
  | nil => rfl
  | cons segment rest ih =>
      simp only [List.countP_cons, ih, isDue, sendsLate, sendsFast]
      by_cases hNever : hasNeverBeenSent segment = true
      · simp only [hNever, Bool.true_or, Bool.not_true, Bool.false_and, if_true, Bool.false_eq_true,
          if_false]
        omega
      · by_cases hTimedOut : hasTimedOut settings segment = true
        · simp only [hNever, hTimedOut, Bool.not_false, Bool.not_true, Bool.true_and,
            Bool.false_and, Bool.or_true, Bool.true_or, if_true, Bool.false_eq_true, if_false]
          omega
        · by_cases hFast : canFastResend settings segment = true <;>
            simp only [hNever, hTimedOut, hFast, Bool.not_false, Bool.true_and, Bool.false_or,
              Bool.or_false, if_true, Bool.false_eq_true, if_false, Bool.and_false] <;> omega

end Sender

/-- What the flush of a call reports. -/
def Event.flushResult (event : Event mtu) : FlushResult :=
  match event.outcome.response with
  | .flush result => result
  | _ => {}

/-- A counter of the flush results, added up over the whole run. -/
def Party.total (party : Party mtu) (counter : FlushResult → ℕ) : ℕ :=
  (party.history.map fun event => counter event.flushResult).sum

@[simp] theorem Party.total_record (party : Party mtu) (call : Call) (outcome : Outcome mtu)
    (counter : FlushResult → ℕ) : (party.record call outcome).total counter =
      party.total counter + counter (⟨party.endpoint, call, outcome⟩ : Event mtu).flushResult := by
  simp [total, record]

/-- What a call reports is what it does: data segments that are neither timeouts nor fast
retransmissions are those of the numbers that it has given out. -/
structure Event.Reports (host : Host) (event : Event mtu) : Prop where
  pushes_eq : event.flushResult.cmdPushCount.toNat = (event.pushNumbers host).length
  kinds_eq : event.before.segmentTracker.sndNxt.toNat + (event.pushNumbers host).length =
    event.outcome.state.segmentTracker.sndNxt.toNat +
      event.flushResult.timeoutRetransmittedCount.toNat +
      event.flushResult.fastRetransmittedCount.toNat
  xmit_eq : event.outcome.state.sender.xmit =
    event.before.sender.xmit + event.flushResult.timeoutRetransmittedCount
  bytes_eq : event.flushResult.totalBytesSent = (event.outcome.datagrams.map List.length).sum
  numbers : ∀ sn, event.before.segmentTracker.sndNxt ≤ sn →
    sn < event.outcome.state.segmentTracker.sndNxt →
    sn ∈ event.pushNumbers host

namespace ImKcpp

/-- Admission gives consecutive numbers to segments that have never been sent. -/
theorem moved_numbers (s : ImKcpp mtu) :
    ∃ admitted, s.moved.2.1.sndBuf = s.senderBuffer.sndBuf ++ admitted ∧
      (∀ seg ∈ admitted, Sender.hasNeverBeenSent seg = true) ∧
      s.moved.2.2.sndNxt.toNat = s.segmentTracker.sndNxt.toNat + admitted.length ∧
      ∀ sn, s.segmentTracker.sndNxt ≤ sn → sn < s.moved.2.2.sndNxt →
        ∃ seg ∈ admitted, seg.header.sn = sn := by
  refine Sender.moveSendQueueToBuffer_induct (P := fun _ buffer tracker => ∃ admitted,
    buffer.sndBuf = s.senderBuffer.sndBuf ++ admitted ∧
      (∀ seg ∈ admitted, Sender.hasNeverBeenSent seg = true) ∧
      tracker.sndNxt.toNat = s.segmentTracker.sndNxt.toNat + admitted.length ∧
      ∀ sn, s.segmentTracker.sndNxt ≤ sn → sn < tracker.sndNxt →
        ∃ seg ∈ admitted, seg.header.sn = sn) ?_ ?_
  · rintro newseg rest buffer tracker hWindow ⟨admitted, hBuffer, hNew, hCount, hNumbers⟩
    have hSucc := SegmentTracker.sndNxt_succ hWindow
    refine ⟨_, (congrArg (· ++ _) hBuffer).trans (List.append_assoc _ _ _), ?_, ?_, ?_⟩
    · intro seg hSeg
      rcases List.mem_append.mp hSeg with hSeg | hSeg
      · exact hNew seg hSeg
      · rw [List.mem_singleton.mp hSeg]
        rfl
    · rw [hSucc, hCount, List.length_append, List.length_singleton, Nat.add_assoc]
    · intro sn hLow hHigh
      by_cases hLast : sn = tracker.sndNxt
      · exact ⟨_, List.mem_append_right _ (List.mem_singleton_self _), hLast.symm⟩
      · have hBelow : sn < tracker.sndNxt := by
          rw [← UInt32.toNat_inj] at hLast
          rw [UInt32.lt_iff_toNat_lt, hSucc] at hHigh
          rw [UInt32.lt_iff_toNat_lt]
          omega
        obtain ⟨seg, hSeg, hSn⟩ := hNumbers sn hLow hBelow
        exact ⟨seg, List.mem_append_left _ hSeg, hSn⟩
  · refine ⟨[], (List.append_nil _).symm, by simp, rfl, fun sn hLow hHigh => ?_⟩
    exact absurd hHigh (UInt32.not_lt.mpr hLow)

/-- A flush counts the segments that it sends again, by branch. -/
theorem flush_counts {s next : ImKcpp mtu} {datagrams : List (List UInt8)} {result : FlushResult}
    (hUpdated : s.updated = true) (h : s.flush host = .ok (next, datagrams, result)) :
    result.timeoutRetransmittedCount =
      UInt32.ofNat (s.moved.2.1.sndBuf.countP (Sender.sendsLate s.settings)) ∧
      result.fastRetransmittedCount =
        UInt32.ofNat (s.moved.2.1.sndBuf.countP (Sender.sendsFast s.settings)) ∧
      next.sender.xmit = s.sender.xmit + result.timeoutRetransmittedCount := by
  obtain ⟨_, _, _, _, _, _, _, _, _, _, _, hLoop, rfl, rfl, ⟨hLate, hFast⟩, -⟩ :=
    flush_loop hUpdated h
  have hLates := Sender.forEachSegment_lateCount hLoop
  have hFasts := Sender.forEachSegment_fastCount hLoop
  obtain ⟨hTimeouts, hXmit⟩ := Prod.mk.inj hLates
  rw [hLate, UInt32.zero_add] at hTimeouts
  rw [hFast, UInt32.zero_add] at hFasts
  exact ⟨hTimeouts, hFasts, hTimeouts ▸ hXmit⟩

/-- As long as no counter has wrapped, what is buffered has been sent, and its counter knows. -/
theorem Tallied.countP_never {s : ImKcpp mtu} {sent : List UInt32} (h : s.Tallied sent)
    (hSent : ∀ sn ∈ s.numbers, sn ∈ sent) (hCounts : ∀ sn, sent.count sn < 2 ^ 32) :
    s.senderBuffer.sndBuf.countP Sender.hasNeverBeenSent = 0 := by
  refine List.countP_eq_zero.mpr fun seg hSeg hNever => ?_
  have hOnce := List.count_pos_iff.mpr (hSent _ (List.mem_map_of_mem hSeg))
  have hCount : UInt32.ofNat (sent.count seg.header.sn) = 0 :=
    (h.counted seg hSeg).symm.trans (eq_of_beq hNever)
  have hZero := congrArg UInt32.toNat hCount
  rw [UInt32.toNat_ofNat_of_lt' (hCounts _)] at hZero
  exact hOnce.ne' hZero

theorem Invariant.reports_of_flush {s : ImKcpp mtu} (h : s.Invariant) {call : Call}
    {outcome : Outcome mtu} (hOutcome : s.perform host call = .ok outcome)
    (hFlushes : s.flushes call = true)
    (hNever : s.senderBuffer.sndBuf.countP Sender.hasNeverBeenSent = 0) :
    (⟨s, call, outcome⟩ : Event mtu).Reports host := by
  obtain ⟨start, packets, result, askSend, askTell, hStart, hUpdated, hFlush, hShape, hFlushed⟩ :=
    h.perform_flushes hOutcome hFlushes
  obtain ⟨hBuffer, hTracker, hSender⟩ : start.senderBuffer = s.senderBuffer ∧
    start.segmentTracker = s.segmentTracker ∧ start.sender = s.sender := by
      cases hStart <;> exact ⟨rfl, rfl, rfl⟩
  have hSending := (hStart.invariant h).toSending
  obtain ⟨admitted, hMoved, hNew, hNext, hNumbers⟩ := start.moved_numbers
  obtain ⟨hLate, hFast, hXmit⟩ := flush_counts hUpdated hFlush
  rw [hTracker, ← hFlushed.tracker_eq] at hNext hNumbers
  have hPushed : (⟨s, call, outcome⟩ : Event mtu).pushNumbers host =
      (start.moved.2.1.sndBuf.filter (Sender.isDue start.settings)).map fun seg =>
        seg.header.sn := by
    rw [hShape]
    exact hFlushed.pushNumbers_eq hSending _
  have hResult : (⟨s, call, outcome⟩ : Event mtu).flushResult = result := by rw [hShape]; rfl
  have hLength : start.moved.2.1.sndBuf.length < 2 ^ 32 := by
    have hNextLength := (h.effect hOutcome).invariant h |>.sndBuf_length_le
    rw [hFlushed.sndBuf_eq, List.length_map] at hNextLength
    have hBound := outcome.state.segmentTracker.sndNxt.toNat_lt
    omega
  have hExact (p : Segment → Bool) : (UInt32.ofNat (start.moved.2.1.sndBuf.countP p)).toNat =
      start.moved.2.1.sndBuf.countP p :=
    UInt32.toNat_ofNat_of_lt' (Nat.lt_of_le_of_lt List.countP_le_length hLength)
  have hAdmitted : start.moved.2.1.sndBuf.countP Sender.hasNeverBeenSent = admitted.length := by
    rw [hMoved, List.countP_append, hBuffer, hNever, Nat.zero_add]
    exact List.countP_eq_length.mpr hNew
  have hKinds := Sender.countP_isDue start.settings start.moved.2.1.sndBuf
  rw [hAdmitted] at hKinds
  refine ⟨?_, ?_, ?_, ?_, ?_⟩
  · rw [hResult, hPushed, hFlushed.pushCount, Sender.pushFrames, List.length_map, List.length_map,
      ← List.countP_eq_length_filter]
    exact hExact _
  · rw [hResult, hPushed, List.length_map, ← List.countP_eq_length_filter, hLate, hFast, hExact,
      hExact, hKinds]
    dsimp only
    omega
  · rw [hResult, ← hSender]
    exact hXmit
  · rw [hResult, hFlushed.total_eq, hShape]
  · intro sn hLow hHigh
    obtain ⟨seg, hSeg, rfl⟩ := hNumbers sn hLow hHigh
    rw [hPushed]
    refine List.mem_map_of_mem (List.mem_filter.mpr ⟨?_, isDue_of_new _ (hNew seg hSeg)⟩)
    rw [hMoved]
    exact List.mem_append_right _ hSeg

/-- A call that executes no flush sends nothing and gives out no numbers. -/
theorem Effect.reports_of_idle {s : ImKcpp mtu} {call : Call} {outcome : Outcome mtu}
    (h : Effect host s call outcome) (hIdle : s.flushes call = false) :
    (⟨s, call, outcome⟩ : Event mtu).Reports host := by
  have hSame (hNxt : outcome.state.segmentTracker.sndNxt = s.segmentTracker.sndNxt)
      (hXmit : outcome.state.sender.xmit = s.sender.xmit) (hNone : outcome.datagrams = [])
      (hResult : (⟨s, call, outcome⟩ : Event mtu).flushResult = {}) :
      (⟨s, call, outcome⟩ : Event mtu).Reports host := by
    have hPushes : (⟨s, call, outcome⟩ : Event mtu).pushNumbers host = [] := by
      rw [Event.pushNumbers, hNone]
      rfl
    refine ⟨?_, ?_, ?_, ?_, fun sn hLow hHigh => ?_⟩
    · rw [hResult, hPushes]
      rfl
    · rw [hResult, hPushes, hNxt]
      rfl
    · rw [hResult, hXmit]
      exact (UInt32.add_zero _).symm
    · rw [hResult, hNone]
      rfl
    · rw [hNxt] at hHigh
      exact absurd hHigh (UInt32.not_lt.mpr hLow)
  cases h with
  | input data folded sndBuf controller result hFolded =>
      refine hSame ?_ ?_ rfl rfl
      · rw [hFolded]
        exact foldl_applyFrame_sndNxt _ s
      · rw [hFolded]
        exact congrArg Sender.xmit (foldl_applyFrame_eq ImKcpp.sender applyFrame_sender _ s)
  | idle call start hStart => cases hStart <;> exact hSame rfl rfl rfl rfl
  | flush call start next packets result askSend askTell hStart hFlushes =>
      rw [hFlushes] at hIdle
      cases hIdle
  | _ => exact hSame rfl rfl rfl rfl

end ImKcpp

/-- The numbers of a whole run, reconciled. -/
structure Party.Reconciled (host : Host) (party : Party mtu) : Prop where
  pushes_eq : party.total (fun result => result.cmdPushCount.toNat) =
    (transmitted host party.history).length
  kinds_eq : party.total (fun result => result.cmdPushCount.toNat) =
    party.endpoint.segmentTracker.sndNxt.toNat +
      party.total (fun result => result.timeoutRetransmittedCount.toNat) +
      party.total (fun result => result.fastRetransmittedCount.toNat)
  xmit_eq : party.endpoint.sender.xmit =
    UInt32.ofNat (party.total fun result => result.timeoutRetransmittedCount.toNat)
  bytes_eq : party.total FlushResult.totalBytesSent = (party.emitted.map List.length).sum
  transmitted_iff : ∀ sn, sn ∈ transmitted host party.history ↔
    sn < party.endpoint.segmentTracker.sndNxt

namespace Party

variable {party : Party mtu} {call : Call} {outcome : Outcome mtu}

theorem Reconciled.record (h : party.Reconciled host)
    (hReports : (⟨party.endpoint, call, outcome⟩ : Event mtu).Reports host)
    (hBelow : ∀ sn ∈ transmitted host (party.record call outcome).history,
      sn < outcome.state.segmentTracker.sndNxt) : (party.record call outcome).Reconciled host := by
  have hHistory : transmitted host (party.record call outcome).history =
      transmitted host party.history ++
        (⟨party.endpoint, call, outcome⟩ : Event mtu).pushNumbers host :=
    transmitted_concat host _ _
  have hKinds := hReports.kinds_eq
  have hPushes := hReports.pushes_eq
  dsimp only at hKinds
  refine ⟨?_, ?_, ?_, ?_, fun sn => ⟨hBelow sn, fun hSn => ?_⟩⟩
  · rw [total_record, h.pushes_eq, hPushes, hHistory, List.length_append]
  · rw [total_record, total_record, total_record, h.kinds_eq, hPushes, record_endpoint]
    omega
  · rw [total_record, UInt32.ofNat_add, ← h.xmit_eq, UInt32.ofNat_toNat]
    exact hReports.xmit_eq
  · rw [total_record, h.bytes_eq, hReports.bytes_eq, record_emitted, List.map_append,
      List.sum_append]
  · rw [hHistory, List.mem_append]
    by_cases hOld : sn < party.endpoint.segmentTracker.sndNxt
    · exact .inl ((h.transmitted_iff sn).mpr hOld)
    · exact .inr (hReports.numbers sn (UInt32.not_lt.mp hOld) hSn)

end Party

/-- In every run that sends no number 2^32 times, the data segments reported are those emitted,
they are as many as numbers given out, timeouts and fast retransmissions together, and the
numbers given out are exactly those emitted. -/
theorem transmissions_reconciled {party : Party mtu}
    (hReach : (endpointSystem host mtu conv).Reachable party)
    (hCounts : ∀ sn, (transmitted host party.history).count sn < 2 ^ 32) :
    party.Reconciled host := by
  refine hReach.invariant (P := fun party =>
    (∀ sn, (transmitted host party.history).count sn < 2 ^ 32) →
      party.Reconciled host) ?_ ?_ hCounts
  · rintro party rfl -
    exact ⟨rfl, rfl, rfl, rfl, fun sn => iff_of_false List.not_mem_nil (UInt32.not_lt_zero)⟩
  · rintro party next hPrior hReconciled ⟨call, outcome, hOutcome, rfl⟩ hCounts
    have hInvariant := invariant_of_reachable hPrior
    have hTallied := tallied_of_reachable hPrior
    have hEarlier : ∀ sn, (transmitted host party.history).count sn < 2 ^ 32 := by
      intro sn
      have hCount := hCounts sn
      rw [Party.record, transmitted_concat, List.count_append] at hCount
      exact Nat.lt_of_le_of_lt (Nat.le_add_right _ _) hCount
    have hReports : (⟨party.endpoint, call, outcome⟩ : Event mtu).Reports host := by
      cases hFlushes : party.endpoint.flushes call with
      | true =>
          exact hInvariant.reports_of_flush hOutcome hFlushes
            (hTallied.countP_never (rmtWnd_of_reachable hPrior).2 hEarlier)
      | false => exact (hInvariant.effect hOutcome).reports_of_idle hFlushes
    exact (hReconciled hEarlier).record hReports
      (tallied_of_reachable (hPrior.step ⟨call, outcome, hOutcome, rfl⟩)).below

/-- Two segments that are sent, and sent again when they have timed out. -/
theorem transmissions_reconciled_again :
    ∃ party : Party .least,
      (Party.fresh .least 0).run Host.x8664 [.configure (.congestionWindowEnabled false),
        .send [1, 2], .update 0, .update 1000] = .ok party ∧
      party.total (fun result => result.cmdPushCount.toNat) = 4 ∧
      party.endpoint.segmentTracker.sndNxt.toNat = 2 ∧ party.Reconciled Host.x8664 := by
  have hFacts : ((Party.fresh .least 0).run Host.x8664 [.configure (.congestionWindowEnabled false),
      .send [1, 2], .update 0, .update 1000]).map (fun party =>
        (party.total (fun result => result.cmdPushCount.toNat),
          party.endpoint.segmentTracker.sndNxt.toNat, transmitted Host.x8664 party.history)) =
          .ok (4, 2, [0, 1, 0, 1]) := by decide +kernel
  obtain ⟨party, hRun, hFacts⟩ := map_eq_ok.mp hFacts
  obtain ⟨hPushes, hFacts⟩ := Prod.mk.inj hFacts
  obtain ⟨hNxt, hSent⟩ := Prod.mk.inj hFacts
  refine ⟨party, hRun, hPushes, hNxt,
    transmissions_reconciled (Party.reachable_run (.of_init rfl) hRun) ?_⟩
  intro sn
  rw [hSent]
  exact Nat.lt_of_le_of_lt List.count_le_length (by decide)

end Imkcpp
