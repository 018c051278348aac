import Imkcpp.RtoBounds
import Imkcpp.Network

/-! The round trip times that a side measures over a network. An acknowledgement echoes the
number and the time of one transmission. So the sample that it gives is the time since that
very transmission, however often the segment has been sent and whatever the network does. -/
namespace Imkcpp

open Transition RoundTripTime

variable {mtu : Mtu} {host : Host} {conv : UInt32}

/-- The time that a call gives to the endpoint. -/
def Call.reading : Call → Option UInt32
  | .update now => some now
  | _ => none

/-- All times that an endpoint has been given. -/
def Party.readings (party : Party mtu) : List UInt32 := party.calls.filterMap Call.reading

@[simp] theorem Party.readings_record (party : Party mtu) (call : Call) (outcome : Outcome mtu) :
    (party.record call outcome).readings = party.readings ++ call.reading.toList := by
  cases hReading : call.reading <;> simp [readings, hReading]

namespace ImKcpp

/-- Only `update` works the clock. -/
theorem Invariant.perform_current {s : ImKcpp mtu} (h : s.Invariant) {call : Call}
    {outcome : Outcome mtu} (hOutcome : s.perform host call = .ok outcome) :
    outcome.state.current = call.reading.getD s.current ∧
      outcome.state.updated = (s.updated || call.reading.isSome) := by
  cases h.effect hOutcome with
  | configure => exact ⟨rfl, (Bool.or_false _).symm⟩
  | input data folded sndBuf controller result hFolded =>
      have hClock := foldl_applyFrame_eq (fun s : ImKcpp mtu => (s.current, s.updated))
        (fun s frame => by
          unfold ImKcpp.applyFrame ImKcpp.applyPush
          dsimp only
          split_ifs <;> rfl) (scan host s.sharedCtx.conv data).1 s
      obtain ⟨hCurrent, hUpdated⟩ := Prod.mk.inj hClock
      dsimp only
      rw [hFolded]
      exact ⟨hCurrent, hUpdated.trans (Bool.or_false _).symm⟩
  | recvRefused => exact ⟨rfl, (Bool.or_false _).symm⟩
  | recv => exact ⟨rfl, (Bool.or_false _).symm⟩
  | sendRefused => exact ⟨rfl, (Bool.or_false _).symm⟩
  | send => exact ⟨rfl, (Bool.or_false _).symm⟩
  | check => exact ⟨rfl, (Bool.or_false _).symm⟩
  | idle call start hStart =>
      cases hStart with
      | flush => exact ⟨rfl, (Bool.or_false _).symm⟩
      | update => exact ⟨rfl, (Bool.or_true _).symm⟩
  | flush call start next packets result askSend askTell hStart hFlushes =>
      obtain ⟨start, _, _, _, _, hStart, hUpdated, hFlush, -⟩ := h.perform_flushes hOutcome hFlushes
      obtain ⟨_, _, _, _, hNext, -⟩ := flush_shape hUpdated hFlush
      dsimp only at hNext ⊢
      rw [hNext]
      cases hStart with
      | flush => exact ⟨rfl, (Bool.or_false _).symm⟩
      | update => exact ⟨rfl, (Bool.or_true _).symm⟩

end ImKcpp

section Clock

variable {party : Party mtu}

/-- The clock of an endpoint shows the last time that it has been given. -/
theorem current_of_reachable (hReach : (endpointSystem host mtu conv).Reachable party) :
    party.endpoint.current = party.readings.getLast?.getD 0 ∧
      (party.endpoint.updated = true → party.readings ≠ []) := by
  refine hReach.invariant (P := fun party => party.endpoint.current =
    party.readings.getLast?.getD 0 ∧
    (party.endpoint.updated = true → party.readings ≠ [])) ?_ ?_
  · rintro party rfl
    exact ⟨rfl, fun hUpdated => absurd hUpdated Bool.false_ne_true⟩
  · rintro party next hPrior ⟨hCurrent, hUpdated⟩ ⟨call, outcome, hOutcome, rfl⟩
    obtain ⟨hNext, hNextUpdated⟩ := (invariant_of_reachable hPrior).perform_current hOutcome
    rw [Party.record_endpoint, Party.readings_record, hNext, hNextUpdated]
    cases call.reading with
    | none => simpa using ⟨hCurrent, hUpdated⟩
    | some now => simp

/-- Data is stamped with the time at which it is emitted, one of the times given. -/
theorem exists_transmission (hReach : (endpointSystem host mtu conv).Reachable party)
    {frame : Frame} (hFrame : frame ∈ party.emittedFrames host)
    (hPush : frame.header.cmd = Commands.push) :
    ∃ event ∈ party.history, frame.header.sn ∈ event.pushNumbers host ∧
      event.outcome.state.current = frame.header.ts ∧ frame.header.ts ∈ party.readings := by
  obtain ⟨datagram, hDatagram, hFrame⟩ := List.mem_flatMap.mp hFrame
  obtain ⟨event, hEvent, hDatagram⟩ := List.mem_flatMap.mp hDatagram
  obtain ⟨before, after, hHistory⟩ := List.append_of_mem hEvent
  obtain ⟨prior, hPrior, hBefore, hEndpoint, hOutcome⟩ := Party.exists_prior hReach hHistory
  have hInvariant := invariant_of_reachable hPrior
  have hEmitted : frame ∈ event.outcome.datagrams.flatMap (framesOf host) :=
    List.mem_flatMap.mpr ⟨datagram, hDatagram, hFrame⟩
  have hSent : frame.header.sn ∈ event.pushNumbers host :=
    List.mem_map_of_mem (List.mem_filter.mpr ⟨hEmitted, decide_eq_true hPush⟩)
  have hFlushes : prior.endpoint.flushes event.call = true := by
    by_contra hIdle
    obtain ⟨hSilent, -⟩ := (hInvariant.effect hOutcome).without_flush (Bool.eq_false_iff.mpr hIdle)
    rw [hSilent] at hDatagram
    cases hDatagram
  obtain ⟨start, packets, result, askSend, askTell, hStart, hUpdated, hFlush, hShape, hFlushed⟩ :=
    hInvariant.perform_flushes hOutcome hFlushes
  have hSending := (hStart.invariant hInvariant).toSending
  have hTime : event.outcome.state.current = frame.header.ts := by
    obtain ⟨_, _, _, _, hNext, -⟩ := ImKcpp.flush_shape hUpdated hFlush
    rw [hShape] at hEmitted
    rw [hFlushed.framesOf_eq hSending, hFlushed.frames_eq] at hEmitted
    obtain ⟨_, -, -, hHeader⟩ :=
      Sender.mem_pushFrames (ImKcpp.push_of_mem_flushFrames hEmitted hPush)
    rw [hNext, hHeader]
    rfl
  refine ⟨event, hEvent, hSent, hTime, ?_⟩
  have hReadings : party.readings =
      prior.readings ++ ((event :: after).map Event.call).filterMap Call.reading := by
    rw [Party.readings, Party.calls, hHistory, ← hBefore, List.map_append, List.filterMap_append]
    rfl
  obtain ⟨hCurrent, -⟩ := hInvariant.perform_current hOutcome
  rw [← hTime, hCurrent, hReadings, List.mem_append]
  cases hReading : event.call.reading with
  | some now =>
      exact .inr (List.mem_filterMap.mpr ⟨event.call, List.mem_map_of_mem List.mem_cons_self,
        hReading⟩)
  | none =>
      -- a flush without a new time, at the last one given
      obtain ⟨hLast, hSome⟩ := current_of_reachable hPrior
      have hRuns : prior.endpoint.updated = true := by
        cases hCall : event.call with
        | flush => rwa [hCall] at hFlushes
        | update now =>
            rw [hCall] at hReading
            cases hReading
        | _ =>
            rw [hCall] at hFlushes
            cases hFlushes
      obtain ⟨last, hGiven⟩ := Option.isSome_iff_exists.mp (List.getLast?_isSome.mpr (hSome hRuns))
      rw [hLast, hGiven]
      exact .inl (List.mem_of_getLast? hGiven)

end Clock

section Echo

/-- An acknowledgement is called for by a segment with its number and its time. -/
theorem ImKcpp.exists_of_dueAck {frames : List Frame} {s : ImKcpp mtu} {ack : Ack}
    (h : ack ∈ s.dueAcks frames) :
    ∃ frame ∈ frames, frame.header.cmd = Commands.push ∧ frame.header.sn = ack.sn ∧
      frame.header.ts = ack.ts := by
  induction frames generalizing s with
  | nil => cases h
  | cons first rest ih =>
      rw [dueAcks, List.mem_append] at h
      rcases h with hFirst | hRest
      · split_ifs at hFirst with hDue
        · rw [List.mem_singleton.mp hFirst]
          exact ⟨first, List.mem_cons_self, hDue.1, rfl, rfl⟩
        · cases hFirst
      · obtain ⟨frame, hFrame, hEcho⟩ := ih hRest
        exact ⟨frame, List.mem_cons_of_mem _ hFrame, hEcho⟩

/-- The acknowledgements of a flush are the entries of the list. -/
theorem ImKcpp.Effect.echo_of_mem {s : ImKcpp mtu} {call : Call} {outcome : Outcome mtu}
    (h : Effect host s call outcome) (hInvariant : s.Invariant) :
    ∀ frame ∈ outcome.datagrams.flatMap (framesOf host), frame.header.cmd = Commands.ack →
      ⟨frame.header.sn, frame.header.ts⟩ ∈ s.ackController.acklist := by
  cases h with
  | flush call start next packets result askSend askTell hStart hFlushes hFlushed =>
      have hSending := (hStart.invariant hInvariant).toSending
      intro frame hFrame hCmd
      rw [hFlushed.framesOf_eq hSending, hFlushed.frames_eq] at hFrame
      obtain ⟨hWask, hWins, hPush⟩ : Commands.wask ≠ Commands.ack ∧ Commands.wins ≠ Commands.ack ∧
        Commands.push ≠ Commands.ack := by decide
      rcases mem_flushFrames.mp hFrame with ⟨ack, hAck, rfl⟩ | ⟨-, rfl⟩ | ⟨-, rfl⟩ | hData
      · rw [hStart.ackController_eq] at hAck
        exact hAck
      · exact absurd hCmd hWask
      · exact absurd hCmd hWins
      · exact absurd ((hSending.pushFrames_cmd frame hData).symm.trans hCmd) hPush
  | _ => simp

/-- Acknowledgements on their way have been called for, with their time. -/
theorem echo_of_emitted {party : Party mtu} (h : (endpointSystem host mtu conv).Reachable party) :
    ∀ frame ∈ party.emittedFrames host, frame.header.cmd = Commands.ack →
      ⟨frame.header.sn, frame.header.ts⟩ ∈ party.dueAcks host := by
  refine h.invariant (P := fun party => ∀ frame ∈ party.emittedFrames host,
    frame.header.cmd = Commands.ack → ⟨frame.header.sn, frame.header.ts⟩ ∈ party.dueAcks host) ?_ ?_
  · rintro party rfl
    simp [Party.emittedFrames, Party.emitted, Party.fresh]
  · rintro party next hReach hEmitted ⟨call, hStep⟩ frame hFrame hCmd
    have hInvariant := invariant_of_reachable hReach
    obtain ⟨outcome, hEffect, rfl⟩ := hStep.effect hInvariant
    rw [Party.record_emittedFrames, List.mem_append] at hFrame
    rw [Party.record_dueAcks, List.mem_append]
    rcases hFrame with hFrame | hFrame
    · exact .inl (hEmitted frame hFrame hCmd)
    · exact .inl ((ack_of_emitted hReach).1 _ (hEffect.echo_of_mem hInvariant frame hFrame hCmd))

/-- In every state of the network, an acknowledgement called for on one side belongs to
data that the other side has emitted. -/
theorem exists_push_of_dueAck {net : Network mtu} (h : (networkSystem host mtu conv).Reachable net)
    (side : Side) :
    ∀ ack ∈ (net side.peer).dueAcks host, ∃ frame ∈ (net side).emittedFrames host,
      frame.header.cmd = Commands.push ∧ frame.header.sn = ack.sn ∧ frame.header.ts = ack.ts := by
  refine h.invariant (P := fun net => ∀ ack ∈ (net side.peer).dueAcks host,
    ∃ frame ∈ (net side).emittedFrames host,
      frame.header.cmd = Commands.push ∧ frame.header.sn = ack.sn ∧ frame.header.ts = ack.ts) ?_ ?_
  · rintro net rfl
    simp [Party.dueAcks, Party.fresh]
  · rintro net next hReach hPrior ⟨moving, call, party, ⟨outcome, hOutcome, rfl⟩,
      hInput, rfl⟩ ack hAck
    rcases side.eq_or_eq_peer moving with rfl | rfl
    · rw [Function.update_of_ne moving.peer_ne] at hAck
      obtain ⟨frame, hFrame, hEcho⟩ := hPrior ack hAck
      rw [Function.update_self, Party.record_emittedFrames]
      exact ⟨frame, List.mem_append_left _ hFrame, hEcho⟩
    · rw [Function.update_self, Party.record_dueAcks, List.mem_append] at hAck
      rw [Function.update_of_ne side.ne_peer]
      rcases hAck with hAck | hAck
      · exact hPrior ack hAck
      · cases call with
        | input data =>
            obtain ⟨frame, hFrame, hEcho⟩ := ImKcpp.exists_of_dueAck hAck
            have hGenuine := hInput data rfl
            rw [Side.peer_peer] at hGenuine
            dsimp only at hFrame
            rw [conv_of_reachable (party_of_network hReach side.peer)] at hFrame
            exact ⟨frame, scan_of_emitted (party_of_network hReach side) hGenuine frame hFrame,
              hEcho⟩
        | _ => cases hAck

/-- An acknowledgement that may arrive echoes a transmission: its number was emitted at the
time that it names. -/
theorem exists_echoed {net : Network mtu} (h : (networkSystem host mtu conv).Reachable net)
    {side : Side} {data : List UInt8} (hData : data ∈ (net side.peer).emitted) {frame : Frame}
    (hFrame : frame ∈ (scan host conv data).1) (hAck : frame.header.cmd = Commands.ack) :
    ∃ event ∈ (net side).history, frame.header.sn ∈ event.pushNumbers host ∧
      event.outcome.state.current = frame.header.ts ∧ frame.header.ts ∈ (net side).readings := by
  have hPeer := party_of_network h side.peer
  have hDue := echo_of_emitted hPeer frame (scan_of_emitted hPeer hData frame hFrame) hAck
  obtain ⟨push, hPush, hCmd, hSn, hTs⟩ := exists_push_of_dueAck h side _ hDue
  dsimp only at hSn hTs
  rw [← hSn, ← hTs]
  exact exists_transmission (party_of_network h side) hPush hCmd

end Echo

section Samples

/-- The times given, as numbers of a clock that does not wrap and goes on for six days. -/
structure Party.Clocked (ticks : List ℕ) (party : Party mtu) : Prop where
  readings_eq : party.readings = ticks.map UInt32.ofNat
  sorted : ticks.Pairwise (· ≤ ·)
  span_lt : ∀ first ∈ ticks, ∀ last ∈ ticks, last < first + 2 ^ 29

/-- The time from the first to the last of them. -/
def span (ticks : List ℕ) : ℕ := ticks.getLastD 0 - ticks.headD 0

theorem Party.Clocked.of_append {party : Party mtu} {ticks more : List ℕ}
    (h : party.Clocked (ticks ++ more)) {prior : Party mtu}
    (hReadings : prior.readings = ticks.map UInt32.ofNat) : prior.Clocked ticks where
  readings_eq := hReadings
  sorted := (List.pairwise_append.mp h.sorted).1
  span_lt first hFirst last hLast :=
    h.span_lt first (List.mem_append_left _ hFirst) last (List.mem_append_left _ hLast)

variable {ticks : List ℕ}

/-- Between the first and the last time. -/
theorem span_of_sorted (hSorted : ticks.Pairwise (· ≤ ·)) {tick : ℕ} (hTick : tick ∈ ticks) :
    ∃ now, ticks.getLast? = some now ∧ now ∈ ticks ∧ tick ≤ now ∧ now - tick ≤ span ticks := by
  obtain ⟨init, now, rfl⟩ := (List.eq_nil_or_concat' ticks).resolve_left (List.ne_nil_of_mem hTick)
  have hLast : ∀ other ∈ init ++ [now], other ≤ now := by
    intro other hOther
    rcases List.mem_append.mp hOther with hInit | hNow
    · exact (List.pairwise_append.mp hSorted).2.2 other hInit now (List.mem_singleton_self now)
    · exact (List.mem_singleton.mp hNow).le
  have hFirst : (init ++ [now]).headD 0 ≤ tick := by
    cases hHead : init ++ [now] with
    | nil => simp at hHead
    | cons first rest =>
        rw [hHead] at hSorted hTick
        rcases List.mem_cons.mp hTick with rfl | hRest
        · exact le_rfl
        · exact (List.pairwise_cons.mp hSorted).1 tick hRest
  refine ⟨now, List.getLast?_concat, by simp, hLast tick hTick, ?_⟩
  rw [span, List.getLastD_concat]
  omega

/-- The sample of an acknowledgement that may arrive is the time since a transmission of its
number. -/
theorem sample_of_emitted {net : Network mtu} (h : (networkSystem host mtu conv).Reachable net)
    {side : Side} (hClock : (net side).Clocked ticks) {data : List UInt8}
    (hData : data ∈ (net side.peer).emitted) {frame : Frame}
    (hFrame : frame ∈ (scan host conv data).1) (hAck : frame.header.cmd = Commands.ack) :
    ∃ event ∈ (net side).history, ∃ sent ∈ ticks, ∃ now, ticks.getLast? = some now ∧ sent ≤ now ∧
      now - sent ≤ span ticks ∧ frame.header.sn ∈ event.pushNumbers host ∧
      event.outcome.state.current = UInt32.ofNat sent ∧
      (timeDelta (net side).endpoint.current frame.header.ts).toInt = now - sent := by
  obtain ⟨event, hEvent, hSent, hTime, hGiven⟩ := exists_echoed h hData hFrame hAck
  rw [hClock.readings_eq] at hGiven
  obtain ⟨sent, hTick, hStamp⟩ := List.mem_map.mp hGiven
  obtain ⟨now, hNow, hNowTick, hLe, hSpan⟩ := span_of_sorted hClock.sorted hTick
  refine ⟨event, hEvent, sent, hTick, now, hNow, hLe, hSpan, hSent, hTime.trans hStamp.symm, ?_⟩
  have hBound := hClock.span_lt sent hTick now hNowTick
  have hCurrent := (current_of_reachable (party_of_network h side)).1
  rw [hClock.readings_eq, List.getLast?_map, hNow, Option.map_some, Option.getD_some] at hCurrent
  have hLate : sent ≤ now ∧ now < sent + 2 ^ 32 := ⟨hLe, by omega⟩
  have hSub := WrappingClock.toNat_sub_ofNat hLate
  have hAhead : (UInt32.ofNat now - UInt32.ofNat sent).toNat < 2 ^ 31 := by omega
  have hDelta := WrappingClock.toInt_difference_of_ahead hAhead
  rw [hCurrent, ← hStamp, timeDelta_eq_difference, hDelta]
  omega

/-- Samples within a bound keep the estimate within it. -/
theorem RtoCalculator.within_foldl {bound : ℕ} (hBound : bound < 2 ^ 29)
    {operations : List Operation}
    (hSamples : ∀ operation ∈ operations, ∃ current ts, operation = .updateRto current ts ∧
      0 ≤ (timeDelta current ts).toInt ∧ (timeDelta current ts).toInt ≤ bound)
    {rc : RtoCalculator} (hRanged : rc.Ranged) (hWithin : rc.estimate.Within bound) :
    (operations.foldl apply rc).estimate.Within bound := by
  induction operations generalizing rc with
  | nil => exact hWithin
  | cons operation rest ih =>
      obtain ⟨current, ts, rfl, hNonneg, hLe⟩ := hSamples operation List.mem_cons_self
      have hSample : 0 ≤ timeDelta current ts := by
        rw [Int32.le_iff_toInt_le]
        exact hNonneg
      have hRtt : sample current ts ≤ bound := by
        unfold sample
        omega
      refine ih (fun other hOther => hSamples other (List.mem_cons_of_mem _ hOther))
        (hRanged.updateRto current ts) ?_
      have hExact := (exact_iff_fits hRanged.limited hSample).mpr (.of_within hBound hWithin hRtt)
      rw [apply, hExact.estimate_eq]
      exact measured_within hWithin hRtt

theorem span_cons (first : ℕ) (rest : List ℕ) :
    span (first :: rest) = rest.getLastD first - first := by
  rw [span, List.getLastD_cons, List.headD_cons]

/-- With one more time given, the span does not shrink. -/
theorem span_le_concat {now : ℕ} (hSorted : (ticks ++ [now]).Pairwise (· ≤ ·)) :
    span ticks ≤ span (ticks ++ [now]) := by
  cases ticks with
  | nil => exact Nat.zero_le _
  | cons first rest =>
      have hLast : rest.getLastD first ≤ now :=
        (List.pairwise_append.mp hSorted).2.2 _ List.getLastD_mem_cons now
          (List.mem_singleton_self now)
      rw [List.cons_append, span_cons, span_cons, List.getLastD_concat]
      exact Nat.sub_le_sub_right hLast first

theorem Party.Clocked.span_bound {party : Party mtu} (h : party.Clocked ticks) :
    span ticks < 2 ^ 29 := by
  cases ticks with
  | nil => exact Nat.two_pow_pos 29
  | cons first rest =>
      have hLt := h.span_lt first List.mem_cons_self _ List.getLastD_mem_cons
      rw [span_cons]
      omega

/-- The estimate of a side is never above the time for which it has been running. -/
theorem estimate_within {net : Network mtu} (h : (networkSystem host mtu conv).Reachable net)
    {side : Side} (hClock : (net side).Clocked ticks) :
    (net side).endpoint.rtoCalculator.estimate.Within (span ticks) := by
  refine h.invariant (P := fun net => ∀ ticks, (net side).Clocked ticks →
    (net side).endpoint.rtoCalculator.estimate.Within (span ticks)) ?_ ?_ ticks hClock
  · rintro net rfl ticks -
    exact ⟨Nat.zero_le _, Nat.zero_le _⟩
  · rintro net next hReach hPrior ⟨moving, call, party, ⟨outcome, hOutcome, rfl⟩, hInput,
      rfl⟩ ticks hClock
    by_cases hMoving : side = moving
    · subst hMoving
      have hParty := party_of_network hReach side
      rw [Function.update_self] at hClock ⊢
      have hReadings := hClock.readings_eq
      rw [Party.readings_record] at hReadings
      rw [Party.record_endpoint, (invariant_of_reachable hParty).perform_rtoCalculator hOutcome]
      cases call with
      | update now =>
          obtain ⟨earlier, last, rfl, hEarlier, hLast⟩ := List.map_eq_append_iff.mp hReadings.symm
          obtain ⟨tick, rfl, -⟩ := List.map_eq_singleton_iff.mp hLast
          have hWithin := hPrior earlier (hClock.of_append hEarlier.symm)
          have hSpan := span_le_concat hClock.sorted
          exact ⟨hWithin.srtt_le.trans hSpan, hWithin.rttvar_le.trans hSpan⟩
      | input data =>
          have hSame : (net side).Clocked ticks :=
            { hClock with readings_eq := (List.append_nil _).symm.trans hReadings }
          refine RtoCalculator.within_foldl hSame.span_bound ?_ (ranged_of_reachable hParty)
            (hPrior ticks hSame)
          intro operation hOperation
          obtain ⟨frame, hFrame, hFrameOperation⟩ := List.mem_filterMap.mp hOperation
          unfold ImKcpp.frameOperation at hFrameOperation
          split_ifs at hFrameOperation with hAck
          rw [conv_of_reachable hParty] at hFrame
          obtain ⟨-, -, sent, -, now, -, hLe, hSpan, -, -, hSample⟩ :=
            sample_of_emitted hReach hSame (hInput data rfl) hFrame hAck
          exact ⟨_, _, (Option.some.inj hFrameOperation).symm, by omega, by omega⟩
      | configure setting =>
          have hSame : (net side).Clocked ticks :=
            { hClock with readings_eq := (List.append_nil _).symm.trans hReadings }
          cases setting <;> exact hPrior ticks hSame
      | _ =>
          exact hPrior ticks
            { hClock with readings_eq := (List.append_nil _).symm.trans hReadings }
    · rw [Function.update_of_ne hMoving] at hClock ⊢
      exact hPrior ticks hClock

/-- In every run over a network, with times given that do not go back for six days: every
acknowledgement that may arrive gives the time since a transmission of its number as
the sample, and the estimate stays below the time for which the side has been running. -/
theorem round_trips_measured {net : Network mtu} (h : (networkSystem host mtu conv).Reachable net)
    {side : Side} (hClock : (net side).Clocked ticks) :
    (∀ data ∈ (net side.peer).emitted, ∀ frame ∈ (scan host conv data).1,
      frame.header.cmd = Commands.ack →
      ∃ event ∈ (net side).history, ∃ sent ∈ ticks, ∃ now, ticks.getLast? = some now ∧
        frame.header.sn ∈ event.pushNumbers host ∧ event.outcome.state.current = UInt32.ofNat sent ∧
        (timeDelta (net side).endpoint.current frame.header.ts).toInt = (now : ℤ) - sent) ∧
      (net side).endpoint.rtoCalculator.srtt.toNat ≤ span ticks ∧
      (net side).endpoint.rtoCalculator.rttvar.toNat ≤ span ticks := by
  refine ⟨fun data hData frame hFrame hAck => ?_, ?_⟩
  · obtain ⟨event, hEvent, sent, hTick, now, hNow, -, -, hSent, hTime, hSample⟩ :=
      sample_of_emitted h hClock hData hFrame hAck
    exact ⟨event, hEvent, sent, hTick, now, hNow, hSent, hTime, hSample⟩
  · have hWithin := estimate_within h hClock
    exact ⟨hWithin.srtt_le, hWithin.rttvar_le⟩

/-- The acknowledgement of a segment that has been sent twice measures the second time. -/
theorem round_trips_measured_again :
    ∃ net : Network .least, (networkSystem Host.x8664 .least 0).Reachable net ∧
      transmitted Host.x8664 (net .left).history = [0, 0] ∧
      (net .right).emitted =
        [wire Host.x8664 [⟨{ cmd := Commands.ack, wnd := 127, ts := 400, una := 1 }, []⟩]] ∧
      ∃ event ∈ (net .left).history, 0 ∈ event.pushNumbers Host.x8664 ∧
        event.outcome.state.current = 400 := by
  obtain ⟨again, hAgain⟩ : ∃ again, again = wire Host.x8664
    [⟨{ cmd := Commands.push, wnd := 128, ts := 400, len := 1 }, [7]⟩] := ⟨_, rfl⟩
  obtain ⟨ack, hAck⟩ : ∃ ack, ack = wire Host.x8664
    [⟨{ cmd := Commands.ack, wnd := 127, ts := 400, una := 1 }, []⟩] := ⟨_, rfl⟩
  have hSends : ((Party.fresh .least 0).run Host.x8664 [.update 0, .send [7], .update 100,
      .update 400]).map
      (fun party => (party.emitted.getLast?, party.readings,
        transmitted Host.x8664 party.history)) =
        .ok (some again, [0, 100, 400], [0, 0]) := by
    rw [hAgain]
    decide +kernel
  have hAnswers :
      ((Party.fresh .least 0).run Host.x8664 [.input again, .update 0]).map Party.emitted =
      .ok [ack] := by
    rw [hAgain, hAck]
    decide +kernel
  obtain ⟨left, hLeft, hFacts⟩ := map_eq_ok.mp hSends
  obtain ⟨hLast, hFacts⟩ := Prod.mk.inj hFacts
  obtain ⟨hReadings, hTwice⟩ := Prod.mk.inj hFacts
  obtain ⟨right, hRight, hEmitted⟩ := map_eq_ok.mp hAnswers
  have hGenuine : ∀ data, Call.input data ∈ [Call.input again, .update 0] →
      data ∈ left.emitted := by
    intro data hData
    simp only [List.mem_cons, Call.input.injEq, reduceCtorEq, List.not_mem_nil, or_false] at hData
    rw [hData]
    exact List.mem_of_getLast? hLast
  have hReach := reachable_exchange hLeft hRight (by simp) hGenuine
  obtain ⟨net, hNet⟩ : ∃ net, net = Function.update (Function.update
    (fun _ => Party.fresh .least 0) Side.left left) Side.right right := ⟨_, rfl⟩
  have hNetLeft : net .left = left := by simp [hNet]
  have hNetRight : net .right = right := by simp [hNet]
  rw [← hNet] at hReach
  have hClock : (net .left).Clocked [0, 100, 400] := by
    refine ⟨?_, by decide, by decide⟩
    rw [hNetLeft, hReadings]
    decide
  have hFrames : ∃ frame ∈ (scan Host.x8664 0 ack).1, frame.header =
      { cmd := Commands.ack, wnd := 127, ts := 400, una := 1 } := by
    rw [hAck]
    decide +kernel
  obtain ⟨frame, hFrame, hHeader⟩ := hFrames
  obtain ⟨event, hEvent, sent, -, now, hNow, hSent, hTime, hSample⟩ :=
    (round_trips_measured hReach hClock).1 ack (by simp [Side.peer, hNetRight, hEmitted])
      frame hFrame (by rw [hHeader])
  refine ⟨net, hReach, hNetLeft ▸ hTwice, by rw [hNetRight, hEmitted, hAck], event, hEvent, ?_, ?_⟩
  · rw [hHeader] at hSent
    exact hSent
  · have hCurrent : (net .left).endpoint.current = 400 := by
      rw [(current_of_reachable (party_of_network hReach .left)).1, hNetLeft, hReadings]
      rfl
    have hZero : (timeDelta 400 400).toInt = 0 := by decide
    obtain rfl : 400 = now := Option.some.inj hNow
    rw [hCurrent, hHeader, hZero] at hSample
    obtain rfl : sent = 400 := by omega
    exact hTime

end Samples
end Imkcpp
