import Imkcpp.DeadLink

/-! Fast retransmission. A flush sends a segment again before it times out once enough
later segments have been acknowledged. The two thresholds are documented as a number of
acknowledgements and a number of fast retransmissions; the code compares counters that
start elsewhere. -/
namespace Imkcpp

open Transition OrderedList

variable {mtu : Mtu} {host : Host} {conv : UInt32}

namespace Sender

variable {settings : FlushSettings}

/-- The last branch resets the counter of acknowledgements. -/
theorem flushed_of_sendsFast {segment : Segment} (h : sendsFast settings segment = true) :
    flushed settings segment = refresh settings (prepareSegmentForFastResend settings segment) := by
  simp only [sendsFast, Bool.and_eq_true, Bool.not_eq_true'] at h
  obtain ⟨⟨hSent, hWaiting⟩, hFast⟩ := h
  simp [flushed, isDue, prepared, hSent, hWaiting, hFast]

theorem processSegment_fastCount (segment : Segment) (ctx : FlushContext mtu) :
    (processSegment settings segment ctx).2.2.result.fastRetransmittedCount =
      ctx.result.fastRetransmittedCount + if sendsFast settings segment then 1 else 0 := by
  unfold processSegment sendsFast
  cases hasNeverBeenSent segment with
  | true => exact (UInt32.add_zero _).symm
  | false =>
      cases hasTimedOut settings segment with
      | true => exact (UInt32.add_zero _).symm
      | false =>
          cases canFastResend settings segment with
          | true => rfl
          | false => exact (UInt32.add_zero _).symm

/-- The loop counts the segments of the last branch. -/
theorem forEachSegment_fastCount {segs kept : List Segment} {ctx final : FlushContext mtu}
    (h : forEachSegment host settings segs ctx = .ok (kept, final)) :
    final.result.fastRetransmittedCount =
      ctx.result.fastRetransmittedCount + UInt32.ofNat (segs.countP (sendsFast settings)) := by
  induction segs generalizing ctx kept final with
  | nil =>
      obtain ⟨-, rfl⟩ := Prod.mk.inj (Except.ok.inj h)
      exact (UInt32.add_zero _).symm
  | cons segment rest ih =>
      obtain ⟨next, others, hRest, -, -, hCount, -⟩ := forEachSegment_cons h
      rw [ih hRest, hCount, processSegment_fastCount, List.countP_cons, UInt32.ofNat_add,
        UInt32.add_assoc, UInt32.add_comm (UInt32.ofNat _)]
      congr 2
      split_ifs <;> rfl

end Sender

namespace ImKcpp

/-- A flush counts the buffered segments that it sends again early. -/
theorem flush_fastCount {s next : ImKcpp mtu} {datagrams : List (List UInt8)} {result : FlushResult}
    (hUpdated : s.updated = true) (h : s.flush host = .ok (next, datagrams, result)) :
    result.fastRetransmittedCount =
      UInt32.ofNat (s.senderBuffer.sndBuf.countP (Sender.sendsFast s.settings)) := by
  obtain ⟨admitted, hMoved, hNew⟩ := s.moved_append
  have hAdmitted : admitted.countP (Sender.sendsFast s.settings) = 0 := by
    refine List.countP_eq_zero.mpr fun seg hSeg => ?_
    rw [Sender.sendsFast, hNew seg hSeg]
    simp
  obtain ⟨_, _, _, earlier, kept, ctx, _, _, _, _, _, hLoop, -, rfl, ⟨-, hNone⟩, -⟩ :=
    flush_loop hUpdated h
  have hCount := Sender.forEachSegment_fastCount hLoop
  dsimp only at hCount
  rw [hNone, hMoved, List.countP_append, hAdmitted, Nat.add_zero, UInt32.zero_add] at hCount
  exact hCount

end ImKcpp

/-- The buffered segments that a call has sent again although they have not timed out. -/
def Event.fastSent (host : Host) (event : Event mtu) : List Segment :=
  event.before.senderBuffer.sndBuf.filter fun seg =>
    seg.metadata.xmit != 0 &&
      decide (timeDelta event.outcome.state.current seg.metadata.resendts < 0) &&
      (event.pushNumbers host).contains seg.header.sn

/-- How often a number has been fast-retransmitted. -/
def fastCount (host : Host) (history : List (Event mtu)) (sn : UInt32) : ℕ :=
  history.countP fun event => ((event.fastSent host).map fun seg => seg.header.sn).contains sn

/-- A segment that is to be fast-retransmitted, as the two settings are documented. -/
structure Party.FastDue (host : Host) (party : Party mtu) (now : UInt32)
    (seg : Segment) : Prop where
  buffered : seg ∈ party.endpoint.senderBuffer.sndBuf
  sent : seg.header.sn ∈ transmitted host party.history
  waiting : timeDelta now seg.metadata.resendts < 0
  skipped : party.endpoint.sender.fastresend ≤ seg.metadata.fastack
  within : party.endpoint.sender.fastlimit = 0 ∨
    fastCount host party.history seg.header.sn < party.endpoint.sender.fastlimit.toNat

/-- A flush sends the segment again, counts it and resets its counter. -/
structure Event.FastRetransmits (host : Host) (event : Event mtu) (result : FlushResult)
    (seg : Segment) : Prop where
  sent : seg ∈ event.fastSent host
  counted : result.fastRetransmittedCount.toNat = (event.fastSent host).length
  reset : ∃ kept ∈ event.outcome.state.senderBuffer.sndBuf,
    kept.header.sn = seg.header.sn ∧ kept.metadata.fastack = 0

namespace ImKcpp

/-- Among the segments that were buffered before, a flush sends those again early that take
the last branch. -/
theorem Flushed.fastSent_eq {s start next : ImKcpp mtu} {packets : List (List Frame)}
    {result : FlushResult} {askSend askTell : Bool}
    (h : Flushed host start next packets result askSend askTell) (hSending : start.Sending)
    (hBuffer : start.senderBuffer = s.senderBuffer) (hCurrent : start.current = next.current)
    (call : Call) :
    (⟨s, call, ⟨next, .flush result, packets.map (wire host)⟩⟩ : Event mtu).fastSent host =
      s.senderBuffer.sndBuf.filter (Sender.sendsFast start.settings) := by
  obtain ⟨admitted, hMoved, -⟩ := start.moved_append
  rw [hBuffer] at hMoved
  refine List.filter_congr fun seg hSeg => ?_
  have hSent : ((⟨s, call, ⟨next, .flush result, packets.map (wire host)⟩⟩ : Event mtu).pushNumbers
      host).contains seg.header.sn = Sender.isDue start.settings seg := by
    rw [h.pushNumbers_eq hSending, Bool.eq_iff_iff, List.contains_iff_mem]
    refine Sender.mem_due_iff hSending.moved.increasing ?_
    rw [hMoved]
    exact List.mem_append_left _ hSeg
  have hWaiting : decide (timeDelta next.current seg.metadata.resendts < 0) =
      !Sender.hasTimedOut start.settings seg := by
    rw [Sender.hasTimedOut, ← hCurrent, ← decide_not, decide_eq_decide, ge_iff_le, Int32.not_le]
    rfl
  have hNever : (seg.metadata.xmit != 0) = !Sender.hasNeverBeenSent seg := rfl
  dsimp only
  rw [hSent, hWaiting, hNever, Sender.sendsFast, Sender.isDue]
  cases Sender.hasNeverBeenSent seg <;> cases Sender.hasTimedOut start.settings seg <;> rfl

/-- A call that flushes sends again early what takes the last branch, and counts it. -/
theorem Invariant.perform_fast {s : ImKcpp mtu} (h : s.Invariant) {call : Call}
    {outcome : Outcome mtu} (hOutcome : s.perform host call = .ok outcome)
    (hFlushes : s.flushes call = true) {result : FlushResult}
    (hResult : outcome.response = .flush result) :
    ∃ settings : Sender.FlushSettings, settings.current = outcome.state.current ∧
      settings.resent = (if s.sender.fastresend > 0 then s.sender.fastresend else 0xffffffff) ∧
      settings.fastlimit = s.sender.fastlimit ∧
      (⟨s, call, outcome⟩ : Event mtu).fastSent host =
        s.senderBuffer.sndBuf.filter (Sender.sendsFast settings) ∧
      result.fastRetransmittedCount.toNat =
        (s.senderBuffer.sndBuf.filter (Sender.sendsFast settings)).length ∧
      ∀ seg ∈ s.senderBuffer.sndBuf,
        Sender.flushed settings seg ∈ outcome.state.senderBuffer.sndBuf := by
  obtain ⟨start, packets, counts, askSend, askTell, hStart, hUpdated, hFlush, hShape, hFlushed⟩ :=
    h.perform_flushes hOutcome hFlushes
  obtain ⟨hSender, hBuffer⟩ : start.sender = s.sender ∧ start.senderBuffer = s.senderBuffer := by
    cases hStart <;> exact ⟨rfl, rfl⟩
  obtain ⟨admitted, hMoved, -⟩ := start.moved_append
  rw [hBuffer] at hMoved
  have hCurrent : start.current = outcome.state.current := by
    obtain ⟨_, _, _, _, hNext, -⟩ := flush_shape hUpdated hFlush
    rw [hNext]
  have hCount := flush_fastCount hUpdated hFlush
  have hLength : (s.senderBuffer.sndBuf.filter (Sender.sendsFast start.settings)).length <
      2 ^ 32 := by
    have hBound := h.sndBuf_length_le
    have hNext := s.segmentTracker.sndNxt.toNat_lt
    have hFilter := List.length_filter_le (Sender.sendsFast start.settings) s.senderBuffer.sndBuf
    omega
  have hFast := hFlushed.fastSent_eq (hStart.invariant h).toSending hBuffer hCurrent call
  rw [hShape] at hResult
  obtain rfl := Response.flush.inj hResult
  rw [← hShape] at hFast
  refine ⟨start.settings, hCurrent, ?_, ?_, hFast, ?_, ?_⟩
  · rw [← hSender]
    rfl
  · rw [← hSender]
    rfl
  · rw [hCount, hBuffer, List.countP_eq_length_filter, UInt32.toNat_ofNat_of_lt' hLength]
  · intro seg hSeg
    rw [hFlushed.sndBuf_eq, hMoved]
    exact List.mem_map_of_mem (List.mem_append_left _ hSeg)

end ImKcpp

/-- Fast retransmission happens exactly when more acknowledgements than documented have
skipped the segment and all its transmissions, not the fast ones, are below the limit. -/
theorem fast_retransmission_iff {party : Party mtu}
    (hReach : (endpointSystem host mtu conv).Reachable party) {call : Call} {outcome : Outcome mtu}
    (hOutcome : party.endpoint.perform host call = .ok outcome)
    (hFlushes : party.endpoint.flushes call = true) {result : FlushResult}
    (hResult : outcome.response = .flush result) (hOn : 0 < party.endpoint.sender.fastresend)
    {seg : Segment} (hDue : party.FastDue host outcome.state.current seg) :
    (⟨party.endpoint, call, outcome⟩ : Event mtu).FastRetransmits host result seg ↔
      seg.metadata.xmit ≠ 0 ∧ party.endpoint.sender.fastresend < seg.metadata.fastack ∧
        (party.endpoint.sender.fastlimit = 0 ∨
          seg.metadata.xmit < party.endpoint.sender.fastlimit) := by
  obtain ⟨settings, hCurrent, hResent, hLimit, hSent, hCount, hKept⟩ :=
    (invariant_of_reachable hReach).perform_fast hOutcome hFlushes hResult
  rw [if_pos hOn] at hResent
  have hWaiting : Sender.hasTimedOut settings seg = false := by
    rw [Sender.hasTimedOut, hCurrent, decide_eq_false_iff_not, ge_iff_le, Int32.not_le]
    exact hDue.waiting
  have hFast : Sender.sendsFast settings seg = true ↔
      seg.metadata.xmit ≠ 0 ∧ party.endpoint.sender.fastresend < seg.metadata.fastack ∧
        (party.endpoint.sender.fastlimit = 0 ∨
          seg.metadata.xmit < party.endpoint.sender.fastlimit) := by
    rw [Sender.sendsFast, hWaiting, Sender.canFastResend, Sender.hasNeverBeenSent, hResent, hLimit]
    simp [or_comm]
  rw [← hFast]
  constructor
  · rintro ⟨hEvent, -, -⟩
    rw [hSent] at hEvent
    exact (List.mem_filter.mp hEvent).2
  · intro hSends
    refine ⟨?_, ?_, Sender.flushed settings seg, hKept seg hDue.buffered, ?_, ?_⟩
    · rw [hSent]
      exact List.mem_filter.mpr ⟨hDue.buffered, hSends⟩
    · rw [hSent, hCount]
    · rw [Sender.flushed_of_sendsFast hSends]
      rfl
    · rw [Sender.flushed_of_sendsFast hSends]
      rfl

section Skipped

/-- An acknowledgement of the given number alone. -/
def ackOf (sn : UInt32) : Call :=
  .input (wire Host.x8664 [⟨{ cmd := Commands.ack, wnd := 128, sn }, []⟩])

/-- The calls behind a first segment that the given later ones have skipped. -/
def skippingCalls (skipping : List UInt32) : List Call :=
  [.configure (.congestionWindowEnabled false), .configure (.fastresend 1), .update 0,
    .send [1], .send [2], .send [3], .flush] ++ skipping.map ackOf

/-- The party behind these calls, with what its next flush makes of the first segment. -/
theorem exists_fastDue (skipping : List UInt32) (fastack : UInt32) (again : List UInt32)
    (hParty : ((Party.fresh .least 0).run Host.x8664 (skippingCalls skipping)).map (fun party =>
        (party.endpoint.updated, party.endpoint.sender.fastresend, party.endpoint.sender.fastlimit,
          transmitted Host.x8664 party.history, fastCount Host.x8664 party.history 0)) =
      .ok (true, 1, 5, [0, 1, 2], 0))
    (hFlush : ((Party.fresh .least 0).run Host.x8664 (skippingCalls skipping) >>= fun party =>
      (party.endpoint.perform Host.x8664 .flush).map fun outcome =>
        (outcome.state.current,
          party.endpoint.senderBuffer.sndBuf.head?.map (fun seg => (seg.header.sn, seg.metadata)),
          ((⟨party.endpoint, .flush, outcome⟩ : Event .least).fastSent Host.x8664).map
            fun seg => seg.header.sn)) = .ok (0, some (0, ⟨225, 200, fastack, 1⟩), again))
    (hSkipped : 1 ≤ fastack) :
    ∃ party outcome result seg,
      (Party.fresh .least 0).run Host.x8664 (skippingCalls skipping) = .ok party ∧
      party.endpoint.perform Host.x8664 .flush = .ok outcome ∧
      party.endpoint.flushes .flush = true ∧ outcome.response = .flush result ∧
      party.endpoint.sender.fastresend = 1 ∧ party.endpoint.sender.fastlimit = 5 ∧
      party.FastDue Host.x8664 outcome.state.current seg ∧
      seg.metadata = ⟨225, 200, fastack, 1⟩ ∧
      ((⟨party.endpoint, .flush, outcome⟩ : Event .least).fastSent Host.x8664).map
        (fun seg => seg.header.sn) = again := by
  obtain ⟨party, hRun, hParty⟩ := map_eq_ok.mp hParty
  rw [hRun, ok_bind] at hFlush
  obtain ⟨outcome, hOutcome, hFlush⟩ := map_eq_ok.mp hFlush
  simp only [Prod.mk.injEq] at hParty hFlush
  obtain ⟨hUpdated, hResend, hLimit, hSent, hCount⟩ := hParty
  obtain ⟨hNow, hFirst, hAgain⟩ := hFlush
  obtain ⟨seg, hHead, hSeg⟩ := Option.map_eq_some_iff.mp hFirst
  obtain ⟨hSn, hMetadata⟩ := Prod.mk.inj hSeg
  obtain ⟨_, _, result, _, _, _, _, _, hShape, _⟩ :=
    (invariant_of_reachable (Party.reachable_run (.of_init rfl) hRun)).perform_flushes
      hOutcome hUpdated
  refine ⟨party, outcome, result, seg, hRun, hOutcome, hUpdated, congrArg Outcome.response hShape,
    hResend, hLimit, ⟨List.mem_of_mem_head? hHead, ?_, ?_, ?_, .inr ?_⟩, hMetadata, hAgain⟩
  · rw [hSn, hSent]
    decide
  · have hAhead : timeDelta 0 225 < 0 := by decide
    rw [hNow, hMetadata]
    exact hAhead
  · rw [hResend, hMetadata]
    exact hSkipped
  · rw [hSn, hCount, hLimit]
    decide

/-- Two acknowledgements for a threshold of one. -/
theorem fast_retransmission_two :
    ∃ party outcome result seg,
      (Party.fresh .least 0).run Host.x8664 (skippingCalls [1, 2]) = .ok party ∧
      party.endpoint.perform Host.x8664 .flush = .ok outcome ∧ outcome.response = .flush result ∧
      (⟨party.endpoint, .flush, outcome⟩ : Event .least).FastRetransmits Host.x8664 result seg := by
  obtain ⟨party, outcome, result, seg, hRun, hOutcome, hFlushes, hResult, hResend, hLimit,
    hDue, hMetadata, -⟩ :=
    exists_fastDue [1, 2] 2 [0] (by decide +kernel) (by decide +kernel) (by decide)
  refine ⟨party, outcome, result, seg, hRun, hOutcome, hResult, ?_⟩
  refine (fast_retransmission_iff (Party.reachable_run (.of_init rfl) hRun) hOutcome
    hFlushes hResult (hResend ▸ by decide) hDue).mpr ⟨?_, ?_, .inr ?_⟩
  · rw [hMetadata]
    decide
  · rw [hResend, hMetadata]
    decide
  · rw [hLimit, hMetadata]
    decide

/-- The one acknowledgement that the threshold asks for is not enough. -/
theorem fast_retransmission_late :
    ¬∀ (mtu : Mtu) (host : Host) (conv : UInt32) (party : Party mtu),
      (endpointSystem host mtu conv).Reachable party → ∀ (call : Call) (outcome : Outcome mtu),
        party.endpoint.perform host call = .ok outcome → party.endpoint.flushes call = true →
        ∀ result : FlushResult, outcome.response = .flush result →
          0 < party.endpoint.sender.fastresend →
          ∀ seg, party.FastDue host outcome.state.current seg →
            (⟨party.endpoint, call, outcome⟩ : Event mtu).FastRetransmits host result seg := by
  intro hAll
  obtain ⟨party, outcome, result, seg, hRun, hOutcome, hFlushes, hResult, hResend, hLimit, hDue, -,
    hAgain⟩ := exists_fastDue [1] 1 [] (by decide +kernel) (by decide +kernel)
      (by decide)
  have hSent := (hAll .least Host.x8664 0 party
    (Party.reachable_run (.of_init rfl) hRun) .flush outcome hOutcome hFlushes result hResult
    (hResend ▸ by decide) seg hDue).sent
  rw [List.map_eq_nil_iff.mp hAgain] at hSent
  cases hSent

end Skipped

end Imkcpp
