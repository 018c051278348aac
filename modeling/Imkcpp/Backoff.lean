import Imkcpp.FastRetransmission
import Imkcpp.RtoBounds

/-! Retransmission timeouts over whole runs. Every timeout raises the timeout of its
segment without the bound that the calculator's own timeout has, and the deadline is the
sum of two words. It is in the future as long as the timeout is less than half a turn of
the clock. -/
namespace Imkcpp

open Transition

variable {mtu : Mtu} {host : Host} {conv : UInt32}

/-- A difference is positive up to half a turn. -/
theorem timeDelta_pos_iff (later earlier : UInt32) :
    timeDelta later earlier > 0 ↔ 0 < (later - earlier).toNat ∧
      (later - earlier).toNat < 2 ^ 31 := by
  have hBound := (later - earlier).toNat_lt
  rw [gt_iff_lt, Int32.lt_iff_toInt_lt, Int32.toInt_zero, timeDelta, WrappingClock.toInt_toInt32]
  split_ifs <;> omega

/-- What is not behind is ahead, but for the point half a turn away. -/
theorem lt_half_iff_ne {deadline current : UInt32} (h : ¬(current - deadline).toNat < 2 ^ 31) :
    0 < (deadline - current).toNat ∧ (deadline - current).toNat < 2 ^ 31 ↔
      deadline ≠ current + 2147483648 := by
  have hTurn : (2147483648 : UInt32).toNat = 2 ^ 31 := by decide
  have hDeadline := deadline.toNat_lt
  have hCurrent := current.toNat_lt
  rw [ne_eq, ← UInt32.toNat_inj, UInt32.toNat_add, hTurn]
  rw [UInt32.toNat_sub] at h ⊢
  omega

/-- A deadline is as far ahead as its timeout. -/
theorem timeDelta_add_pos_iff (current timeout : UInt32) :
    timeDelta (current + timeout) current > 0 ↔ 0 < timeout.toNat ∧ timeout.toNat < 2 ^ 31 := by
  rw [timeDelta_pos_iff, UInt32.add_comm, UInt32.add_sub_cancel]

/-- A timeout of less than half a turn of the clock. -/
def Segment.Timed (segment : Segment) : Prop :=
  0 < segment.metadata.rto.toNat ∧ segment.metadata.rto.toNat < 2 ^ 31

namespace Sender

/-- The timeout that the next retransmission gives a segment, without the limits of a word. -/
def backoff (settings : FlushSettings) (segment : Segment) : ℕ :=
  if settings.nodelay = 0 then
    segment.metadata.rto.toNat + max segment.metadata.rto.toNat settings.rto.toNat
  else if settings.nodelay < 2 then segment.metadata.rto.toNat + segment.metadata.rto.toNat / 2
  else segment.metadata.rto.toNat + settings.rto.toNat / 2

/-- A segment that has timed out gets less than half a turn of the clock, and the deadline
of a segment that waits is not just half a turn away. -/
def Bounded (settings : FlushSettings) (segment : Segment) : Prop :=
  hasNeverBeenSent segment = false →
    if hasTimedOut settings segment then backoff settings segment < 2 ^ 31
    else canFastResend settings segment = true ∨
      segment.metadata.resendts ≠ settings.current + 2147483648

instance (settings : FlushSettings) (segment : Segment) : Decidable (Bounded settings segment) :=
  inferInstanceAs (Decidable (hasNeverBeenSent segment = false →
    if hasTimedOut settings segment then backoff settings segment < 2 ^ 31
    else canFastResend settings segment = true ∨
      segment.metadata.resendts ≠ settings.current + 2147483648))

/-- What the calculator's timeout keeps to. -/
structure FlushSettings.Timed (settings : FlushSettings) : Prop where
  rto_pos : 0 < settings.rto.toNat
  rto_le : settings.rto.toNat ≤ 60000
  rtomin_le : settings.rtomin.toNat ≤ 60000

section Backoff

variable {settings : FlushSettings} {segment : Segment}

/-- From less than half a turn, the sum does not wrap yet. -/
theorem toNat_resend_rto (hTimed : settings.Timed) (hSegment : segment.Timed) :
    (prepareSegmentForResend settings segment).metadata.rto.toNat = backoff settings segment := by
  obtain ⟨-, hLt⟩ := hSegment
  have hLe := hTimed.rto_le
  have hMax : (max segment.metadata.rto settings.rto).toNat =
      max segment.metadata.rto.toNat settings.rto.toNat := toNat_max _ _
  have hTwo : (2 : UInt32).toNat = 2 := rfl
  unfold prepareSegmentForResend backoff
  dsimp only
  simp only [beq_iff_eq]
  split_ifs
  · rw [UInt32.toNat_add, hMax, Nat.mod_eq_of_lt (by omega)]
  · rw [UInt32.toNat_add, UInt32.toNat_div, hTwo, Nat.mod_eq_of_lt (by omega)]
  · rw [UInt32.toNat_add, UInt32.toNat_div, hTwo, Nat.mod_eq_of_lt (by omega)]

theorem backoff_pos (hSegment : segment.Timed) : 0 < backoff settings segment := by
  have hPos := hSegment.1
  unfold backoff
  split_ifs <;> omega

/-- The deadline that a flush leaves is ahead exactly if the segment has been bounded. -/
theorem flushed_ahead_iff (hTimed : settings.Timed)
    (hSegment : hasNeverBeenSent segment = false → segment.Timed) :
    timeDelta (flushed settings segment).metadata.resendts settings.current > 0 ↔
      Bounded settings segment := by
  unfold Bounded
  cases hNever : hasNeverBeenSent segment with
  | true =>
      refine iff_of_true ?_ nofun
      have hPos := hTimed.rto_pos
      have hLe := hTimed.rto_le
      have hMin := hTimed.rtomin_le
      rw [flushed_of_never hNever]
      dsimp only [refresh, prepareForFirstSend]
      rw [UInt32.add_assoc, timeDelta_add_pos_iff, UInt32.toNat_add, Nat.mod_eq_of_lt (by omega)]
      omega
  | false =>
      cases hTimedOut : hasTimedOut settings segment with
      | true =>
          rw [flushed_of_timedOut hNever hTimedOut]
          refine (timeDelta_add_pos_iff _
            (prepareSegmentForResend settings segment).metadata.rto).trans ?_
          rw [toNat_resend_rto hTimed (hSegment hNever)]
          simp [backoff_pos (hSegment hNever)]
      | false =>
          cases hFast : canFastResend settings segment with
          | true =>
              refine iff_of_true ?_ (by simp)
              have hSends : sendsFast settings segment = true := by
                simp [sendsFast, hNever, hTimedOut, hFast]
              rw [flushed_of_sendsFast hSends]
              exact (timeDelta_add_pos_iff _ segment.metadata.rto).mpr (hSegment hNever)
          | false =>
              have hDue : isDue settings segment = false := by
                simp [isDue, hNever, hTimedOut, hFast]
              rw [flushed_of_not_due hDue, timeDelta_pos_iff]
              simp only [Bool.false_eq_true, if_false, false_or, forall_const]
              exact lt_half_iff_ne (mt hasTimedOut_iff.mpr (by simp [hTimedOut]))

/-- A bounded segment keeps less than half a turn. -/
theorem flushed_timed (hTimed : settings.Timed)
    (hSegment : hasNeverBeenSent segment = false → segment.Timed)
    (hBounded : Bounded settings segment) :
    (flushed settings segment).Timed := by
  unfold Bounded at hBounded
  cases hNever : hasNeverBeenSent segment with
  | true =>
      have hPos := hTimed.rto_pos
      have hLe := hTimed.rto_le
      rw [flushed_of_never hNever]
      exact ⟨hPos, show settings.rto.toNat < 2 ^ 31 by omega⟩
  | false =>
      have hBounded := hBounded hNever
      cases hTimedOut : hasTimedOut settings segment with
      | true =>
          rw [hTimedOut, if_pos rfl] at hBounded
          rw [flushed_of_timedOut hNever hTimedOut]
          have hRto := toNat_resend_rto hTimed (hSegment hNever)
          exact ⟨hRto ▸ backoff_pos (hSegment hNever), hRto ▸ hBounded⟩
      | false =>
          have hRto : (flushed settings segment).metadata.rto = segment.metadata.rto := by
            unfold flushed prepared
            simp only [hNever, hTimedOut, Bool.false_eq_true, if_false]
            split_ifs <;> rfl
          rw [Segment.Timed, hRto]
          exact hSegment hNever

end Backoff

end Sender

namespace Event

/-- The time of a flush. -/
def flushTime (event : Event mtu) : UInt32 :=
  match event.call with
  | .update current => current
  | _ => event.before.current

/-- What a flush captures, on the state before the call. -/
def flushSettings (event : Event mtu) : Sender.FlushSettings :=
  { event.before.settings with current := event.flushTime }

/-- If the call flushes, it leaves all deadlines in the future. -/
def DeadlinesAhead (event : Event mtu) : Prop :=
  event.before.flushes event.call = true → ∀ seg ∈ event.outcome.state.senderBuffer.sndBuf,
    timeDelta seg.metadata.resendts event.outcome.state.current > 0

/-- If the call flushes, no buffered segment has been backed off too far. -/
def BackoffBounded (event : Event mtu) : Prop :=
  event.before.flushes event.call = true → ∀ seg ∈ event.before.senderBuffer.sndBuf,
    Sender.Bounded event.flushSettings seg

instance (event : Event mtu) : Decidable event.DeadlinesAhead :=
  inferInstanceAs (Decidable (event.before.flushes event.call = true →
    ∀ seg ∈ event.outcome.state.senderBuffer.sndBuf,
      timeDelta seg.metadata.resendts event.outcome.state.current > 0))

instance (event : Event mtu) : Decidable event.BackoffBounded :=
  inferInstanceAs (Decidable (event.before.flushes event.call = true →
    ∀ seg ∈ event.before.senderBuffer.sndBuf, Sender.Bounded event.flushSettings seg))

end Event

namespace ImKcpp

/-- All buffered segments have timeouts of less than half a turn. -/
def Timed (s : ImKcpp mtu) : Prop := ∀ seg ∈ s.senderBuffer.sndBuf, seg.Timed

/-- A call that flushes leaves the deadlines in the future if and only if the segments have
been bounded. -/
theorem Invariant.perform_ahead {s : ImKcpp mtu} (h : s.Invariant) {call : Call}
    {outcome : Outcome mtu} (hOutcome : s.perform host call = .ok outcome)
    (hFlushes : s.flushes call = true)
    (hTimed : (⟨s, call, outcome⟩ : Event mtu).flushSettings.Timed) (hSegments : s.Timed) :
    ((⟨s, call, outcome⟩ : Event mtu).DeadlinesAhead ↔
      (⟨s, call, outcome⟩ : Event mtu).BackoffBounded) ∧
      ((⟨s, call, outcome⟩ : Event mtu).BackoffBounded → outcome.state.Timed) := by
  obtain ⟨start, packets, counts, askSend, askTell, hStart, hUpdated, hFlush, -, hFlushed⟩ :=
    h.perform_flushes hOutcome hFlushes
  obtain ⟨hSettings, hBuffer⟩ : start.settings = (⟨s, call, outcome⟩ : Event mtu).flushSettings ∧
      start.senderBuffer = s.senderBuffer := by
    cases hStart <;> exact ⟨rfl, rfl⟩
  have hCurrent : outcome.state.current = start.settings.current := by
    obtain ⟨_, _, _, _, hNext, -⟩ := flush_shape hUpdated hFlush
    rw [hNext]
    rfl
  obtain ⟨admitted, hMoved, hNew⟩ := start.moved_append
  rw [hBuffer] at hMoved
  have hSent : ∀ seg ∈ start.moved.2.1.sndBuf, Sender.hasNeverBeenSent seg = false → seg.Timed := by
    intro seg hSeg hSent
    rw [hMoved] at hSeg
    rcases List.mem_append.mp hSeg with hOld | hAdmitted
    · exact hSegments seg hOld
    · rw [hNew seg hAdmitted] at hSent
      cases hSent
  have hBounded : (⟨s, call, outcome⟩ : Event mtu).BackoffBounded ↔
      ∀ seg ∈ start.moved.2.1.sndBuf, Sender.Bounded start.settings seg := by
    rw [hMoved, hSettings]
    constructor
    · intro hBounded seg hSeg
      rcases List.mem_append.mp hSeg with hOld | hAdmitted
      · exact hBounded hFlushes seg hOld
      · intro hSent
        rw [hNew seg hAdmitted] at hSent
        cases hSent
    · exact fun hBounded _ seg hSeg => hBounded seg (List.mem_append_left _ hSeg)
  rw [← hSettings] at hTimed
  rw [hBounded]
  refine ⟨⟨fun hAhead seg hSeg => ?_, fun hBounds _ seg hSeg => ?_⟩, fun hBounds seg hSeg => ?_⟩
  · rw [← Sender.flushed_ahead_iff hTimed (hSent seg hSeg), ← hCurrent]
    refine hAhead hFlushes _ ?_
    dsimp only
    rw [hFlushed.sndBuf_eq]
    exact List.mem_map_of_mem hSeg
  · dsimp only at hSeg ⊢
    rw [hFlushed.sndBuf_eq] at hSeg
    obtain ⟨old, hOld, rfl⟩ := List.mem_map.mp hSeg
    rw [hCurrent]
    exact (Sender.flushed_ahead_iff hTimed (hSent old hOld)).mpr (hBounds old hOld)
  · rw [hFlushed.sndBuf_eq] at hSeg
    obtain ⟨old, hOld, rfl⟩ := List.mem_map.mp hSeg
    exact Sender.flushed_timed hTimed (hSent old hOld) (hBounds old hOld)

/-- Other calls leave the timeouts of the segments alone. -/
theorem Invariant.perform_timed {s : ImKcpp mtu} (h : s.Invariant) {call : Call}
    {outcome : Outcome mtu} (hOutcome : s.perform host call = .ok outcome)
    (hIdle : s.flushes call = false) (hSegments : s.Timed) :
    outcome.state.Timed := by
  obtain ⟨-, -, hSender⟩ := (h.effect hOutcome).without_flush hIdle
  rcases hSender with ⟨data, rfl⟩ | ⟨hBuffer, -⟩
  · obtain ⟨result, hInput⟩ := perform_input hOutcome
    intro seg hSeg
    obtain ⟨old, hOld, hSame⟩ := h.mem_input_sndBuf hInput seg hSeg
    have hRto : old.metadata.rto = seg.metadata.rto := congrArg (fun seg => seg.metadata.rto) hSame
    rw [Segment.Timed, ← hRto]
    exact hSegments old hOld
  · intro seg hSeg
    rw [hBuffer] at hSeg
    exact hSegments seg hSeg

end ImKcpp

/-- The timeout that the flush of a reachable endpoint starts from. -/
theorem flushSettings_timed {party : Party mtu}
    (hReach : (endpointSystem host mtu conv).Reachable party) (call : Call)
    (outcome : Outcome mtu) :
    (⟨party.endpoint, call, outcome⟩ : Event mtu).flushSettings.Timed := by
  obtain ⟨hLow, hHigh⟩ := (ranged_of_reachable hReach).rto_range
  refine ⟨hLow.trans_lt' (by decide), hHigh, ?_⟩
  change (if party.endpoint.sender.nodelay == 0 then
    party.endpoint.rtoCalculator.rto >>> 3 else 0).toNat ≤ _
  split_ifs
  · rw [UInt32.toNat_shiftRight]
    exact (Nat.shiftRight_le _ _).trans hHigh
  · decide

/-- The flushes of a run leave all deadlines in the future if and only if none of them has
met a segment that has been backed off too far. -/
theorem deadlines_ahead_iff {party : Party mtu}
    (hReach : (endpointSystem host mtu conv).Reachable party) :
    (∀ event ∈ party.history, event.DeadlinesAhead) ↔
      ∀ event ∈ party.history, event.BackoffBounded := by
  suffices hBoth : ((∀ event ∈ party.history, event.DeadlinesAhead) ↔
      ∀ event ∈ party.history, event.BackoffBounded) ∧
      ((∀ event ∈ party.history, event.BackoffBounded) → party.endpoint.Timed) from hBoth.1
  refine hReach.invariant (P := fun party => ((∀ event ∈ party.history, event.DeadlinesAhead) ↔
    ∀ event ∈ party.history, event.BackoffBounded) ∧
    ((∀ event ∈ party.history, event.BackoffBounded) → party.endpoint.Timed)) ?_ ?_
  · rintro party rfl
    exact ⟨by simp [Party.fresh], fun _ => by simp [Party.fresh, ImKcpp.create, ImKcpp.Timed]⟩
  · rintro party next hReach ⟨hIff, hTimed⟩ ⟨call, outcome, hOutcome, rfl⟩
    have hStep : party.endpoint.Timed →
        ((⟨party.endpoint, call, outcome⟩ : Event mtu).DeadlinesAhead ↔
          (⟨party.endpoint, call, outcome⟩ : Event mtu).BackoffBounded) ∧
        ((⟨party.endpoint, call, outcome⟩ : Event mtu).BackoffBounded → outcome.state.Timed) := by
      intro hSegments
      cases hFlushes : party.endpoint.flushes call with
      | true =>
          exact (invariant_of_reachable hReach).perform_ahead hOutcome hFlushes
            (flushSettings_timed hReach call outcome) hSegments
      | false =>
          have hNone : ∀ {P : Prop}, party.endpoint.flushes call = true → P :=
            fun hTrue => absurd (hFlushes.symm.trans hTrue) Bool.false_ne_true
          exact ⟨iff_of_true hNone hNone,
            fun _ => (invariant_of_reachable hReach).perform_timed hOutcome hFlushes hSegments⟩
    simp only [Party.record, List.forall_mem_append, List.forall_mem_singleton]
    refine ⟨⟨?_, ?_⟩, ?_⟩
    · rintro ⟨hAhead, hLast⟩
      have hBounded := hIff.mp hAhead
      exact ⟨hBounded, (hStep (hTimed hBounded)).1.mp hLast⟩
    · rintro ⟨hBounded, hLast⟩
      exact ⟨hIff.mpr hBounded, (hStep (hTimed hBounded)).1.mpr hLast⟩
    · rintro ⟨hBounded, hLast⟩
      exact (hStep (hTimed hBounded)).2 hLast

/-- The calls behind a segment that is never acknowledged, with an `update` at each of its
first deadlines. -/
def unansweredCalls (timeouts : Nat) : List Call :=
  [.update 0, .send [1], .flush] ++
    (List.range timeouts).map fun k => .update (UInt32.ofNat (400 * 2 ^ k - 175))

/-- Two timeouts in a row. -/
theorem deadlines_ahead_two :
    ∃ party : Party .least, (Party.fresh .least 0).run Host.x8664 (unansweredCalls 2) = .ok party ∧
      ∀ event ∈ party.history, event.DeadlinesAhead := by
  have hRuns : ((Party.fresh .least 0).run Host.x8664 (unansweredCalls 2)).map (fun party =>
      party.history.all fun event => decide event.BackoffBounded) = .ok true := by decide +kernel
  obtain ⟨party, hRun, hBounded⟩ := map_eq_ok.mp hRuns
  refine ⟨party, hRun, (deadlines_ahead_iff (Party.reachable_run (.of_init rfl) hRun)).mpr ?_⟩
  intro event hEvent
  exact of_decide_eq_true (List.all_eq_true.mp hBounded event hEvent)

/-- After 24 timeouts in a row the deadline is behind the flush that has set it. -/
theorem deadline_behind :
    ¬∀ (mtu : Mtu) (host : Host) (conv : UInt32) (party : Party mtu),
      (endpointSystem host mtu conv).Reachable party →
        ∀ event ∈ party.history, event.DeadlinesAhead := by
  intro hAll
  have hRuns : ((Party.fresh .least 0).run Host.x8664 (unansweredCalls 24)).map (fun party =>
      party.history.all fun event => decide event.DeadlinesAhead) = .ok false := by decide +kernel
  obtain ⟨party, hRun, hBehind⟩ := map_eq_ok.mp hRuns
  have hAhead := hAll .least Host.x8664 0 party (Party.reachable_run (.of_init rfl) hRun)
  have hEvery : (party.history.all fun event => decide event.DeadlinesAhead) = true :=
    List.all_eq_true.mpr fun event hEvent => decide_eq_true (hAhead event hEvent)
  rw [hBehind] at hEvery
  cases hEvery

end Imkcpp
