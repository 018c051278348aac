import Imkcpp.Polling
import Imkcpp.FlowControl
import Imkcpp.DeadLink
import Imkcpp.RtoEstimator

/-! The calculator inside an endpoint. Two setters and the acknowledgements of a datagram
reach it, and nothing else; its bounds and its clock granularity are those that were in
force when the last sample was taken. -/
namespace Imkcpp

open Transition RoundTripTime

variable {mtu : Mtu} {host : Host} {conv : UInt32}

/-- The lower bound that `set_nodelay` chooses. -/
def leastRto (nodelay : UInt32) : UInt32 :=
  if nodelay > 0 then Constants.ikcpRtoNdl else Constants.ikcpRtoMin

namespace ImKcpp

/-- The call that a segment leads to. -/
def frameOperation (current : UInt32) (frame : Frame) : Option RtoCalculator.Operation :=
  if frame.header.cmd = Commands.ack then some (.updateRto current frame.header.ts) else none

/-- The calls that a call of the endpoint makes on its calculator. -/
def operations (host : Host) (s : ImKcpp mtu) : Call → List RtoCalculator.Operation
  | .configure (.interval value) => [.setInterval (clamp value 10 5000)]
  | .configure (.nodelay value) => [.setMinRto (leastRto value)]
  | .input data => (scan host s.sharedCtx.conv data).1.filterMap (frameOperation s.current)
  | _ => []

/-- Only values that the calculator expects are passed to it. -/
theorem operations_passed (s : ImKcpp mtu) (call : Call) :
    ∀ operation ∈ s.operations host call, operation.Passed := by
  intro operation hOperation
  unfold operations at hOperation
  split at hOperation
  · rw [List.mem_singleton.mp hOperation]
    exact (clamp_interval _).imp UInt32.le_iff_toNat_le.mpr UInt32.le_iff_toNat_le.mpr
  · rw [List.mem_singleton.mp hOperation]
    unfold leastRto
    split_ifs
    · exact .inl rfl
    · exact .inr rfl
  · obtain ⟨frame, -, hFrame⟩ := List.mem_filterMap.mp hOperation
    unfold frameOperation at hFrame
    split_ifs at hFrame
    rw [← Option.some.inj hFrame]
    trivial
  · cases hOperation

@[simp] theorem applyFrame_current (s : ImKcpp mtu) (frame : Frame) :
    (s.applyFrame frame).current = s.current := by
  unfold ImKcpp.applyFrame ImKcpp.applyPush
  dsimp only
  split_ifs <;> rfl

/-- Of all segments only an acknowledgement reaches the calculator. -/
theorem applyFrame_rtoCalculator (s : ImKcpp mtu) (frame : Frame) :
    (s.applyFrame frame).rtoCalculator =
      (frameOperation s.current frame).elim s.rtoCalculator s.rtoCalculator.apply := by
  have hOther : Commands.push ≠ Commands.ack := by decide
  unfold ImKcpp.applyFrame ImKcpp.applyPush frameOperation
  dsimp only
  by_cases hAck : frame.header.cmd = Commands.ack
  · have hPush : ¬frame.header.cmd = Commands.push := fun hPush => hOther (hPush.symm.trans hAck)
    rw [if_neg hPush, if_pos hAck, if_pos hAck]
    rfl
  · rw [if_neg hAck, if_neg hAck]
    split_ifs <;> rfl

theorem foldl_applyFrame_rtoCalculator (frames : List Frame) (s : ImKcpp mtu) :
    (frames.foldl ImKcpp.applyFrame s).rtoCalculator =
      (frames.filterMap (frameOperation s.current)).foldl RtoCalculator.apply s.rtoCalculator := by
  induction frames generalizing s with
  | nil => rfl
  | cons frame rest ih =>
      rw [List.foldl_cons, ih, applyFrame_current, applyFrame_rtoCalculator]
      cases hFrame : frameOperation s.current frame with
      | none => rw [List.filterMap_cons_none hFrame, Option.elim_none]
      | some operation => rw [List.filterMap_cons_some hFrame, List.foldl_cons, Option.elim_some]

/-- What a call does to the calculator. -/
theorem Invariant.perform_rtoCalculator {s : ImKcpp mtu} (h : s.Invariant) {call : Call}
    {outcome : Outcome mtu} (hOutcome : s.perform host call = .ok outcome) :
    outcome.state.rtoCalculator =
      (s.operations host call).foldl RtoCalculator.apply s.rtoCalculator := by
  obtain ⟨-, hTuned, -⟩ := h.perform_tuned hOutcome
  rw [hTuned]
  cases call with
  | configure setting => cases setting <;> rfl
  | input data => exact foldl_applyFrame_rtoCalculator _ s
  | _ => rfl

end ImKcpp

/-- The calls made so far on the calculator of an endpoint. -/
def Party.operations (host : Host) (party : Party mtu) : List RtoCalculator.Operation :=
  party.history.flatMap fun event => event.before.operations host event.call

theorem Party.operations_record (party : Party mtu) (call : Call) (outcome : Outcome mtu) :
    (party.record call outcome).operations host =
      party.operations host ++ party.endpoint.operations host call := by
  rw [operations, record, List.flatMap_append, List.flatMap_singleton]
  rfl

/-- The calculator of an endpoint is the one that these calls lead to. -/
theorem calculator_of_reachable {party : Party mtu}
    (hReach : (endpointSystem host mtu conv).Reachable party) :
    party.endpoint.rtoCalculator = .run (party.operations host) ∧
      ∀ operation ∈ party.operations host, operation.Passed := by
  refine ⟨?_, fun operation hOperation => ?_⟩
  · refine hReach.invariant (P := fun party =>
      party.endpoint.rtoCalculator = .run (party.operations host)) ?_ ?_
    · rintro party rfl
      rfl
    · rintro party next hReach hRun ⟨call, outcome, hOutcome, rfl⟩
      rw [Party.record_endpoint, (invariant_of_reachable hReach).perform_rtoCalculator hOutcome,
        hRun, Party.operations_record]
      exact List.foldl_append.symm
  · obtain ⟨event, -, hOperation⟩ := List.mem_flatMap.mp hOperation
    exact event.before.operations_passed event.call operation hOperation

theorem ranged_of_reachable {party : Party mtu}
    (hReach : (endpointSystem host mtu conv).Reachable party) :
    party.endpoint.rtoCalculator.Ranged := by
  obtain ⟨hRun, hPassed⟩ := calculator_of_reachable hReach
  rw [hRun]
  exact RtoCalculator.ranged_run hPassed

section Bounds

/-- The value that a call gives to `set_nodelay`. -/
def Call.nodelay : Call → Option UInt32
  | .configure (.nodelay value) => some value
  | _ => none

/-- An acknowledgement whose round trip time is not negative. -/
def Frame.Counts (current : UInt32) (frame : Frame) : Prop :=
  frame.header.cmd = Commands.ack ∧ 0 ≤ timeDelta current frame.header.ts

/-- An `input` that takes a sample. -/
def Event.Samples (host : Host) (event : Event mtu) : Prop :=
  ∃ data, event.call = .input data ∧
    ∃ frame ∈ (scan host event.before.sharedCtx.conv data).1, frame.Counts event.before.current

/-- A sample brings the timeout between the bounds and leaves these alone. -/
theorem RtoCalculator.Ranged.rto_bounds {rc : RtoCalculator} (h : rc.Ranged) {current ts : UInt32}
    (hSample : 0 ≤ timeDelta current ts) :
    (rc.updateRto current ts).minrto = rc.minrto ∧ rc.minrto ≤ (rc.updateRto current ts).rto ∧
      (rc.updateRto current ts).rto ≤ Constants.ikcpRtoMax := by
  obtain ⟨-, -, hMinrto, -, hRto⟩ := updateRto_spec h.limited hSample
  have hRange : rc.minrto.toNat ≤ Constants.ikcpRtoMax.toNat := h.minrto_range.2.trans (by decide)
  refine ⟨hMinrto, ?_⟩
  rw [UInt32.le_iff_toNat_le, UInt32.le_iff_toNat_le, hRto, h.maxrto_eq]
  exact ⟨le_max_left _ _, max_le hRange (min_le_left _ _)⟩

namespace ImKcpp

variable {s : ImKcpp mtu} {frame : Frame}

theorem applyFrame_of_counts (h : frame.Counts s.current) :
    (s.applyFrame frame).rtoCalculator = s.rtoCalculator.updateRto s.current frame.header.ts := by
  rw [applyFrame_rtoCalculator, frameOperation, if_pos h.1]
  rfl

theorem applyFrame_of_not_counts (h : ¬frame.Counts s.current) :
    (s.applyFrame frame).rtoCalculator = s.rtoCalculator := by
  rw [applyFrame_rtoCalculator, frameOperation]
  split_ifs with hAck
  · exact RtoCalculator.updateRto_of_negative (Int32.not_le.mp fun hSample => h ⟨hAck, hSample⟩)
  · rfl

/-- Behind a datagram that takes no sample the calculator is the same, and behind one that
does its timeout is between the bounds. -/
theorem foldl_applyFrame_rto (h : s.rtoCalculator.Ranged) (frames : List Frame) :
    let after := (frames.foldl ImKcpp.applyFrame s).rtoCalculator
    after.Ranged ∧ after.minrto = s.rtoCalculator.minrto ∧
      ((∀ frame ∈ frames, ¬frame.Counts s.current) → after = s.rtoCalculator) ∧
      ((∃ frame ∈ frames, frame.Counts s.current) →
        s.rtoCalculator.minrto ≤ after.rto ∧ after.rto ≤ Constants.ikcpRtoMax) := by
  induction frames using List.reverseRecOn with
  | nil => exact ⟨h, rfl, fun _ => rfl, by simp⟩
  | append_singleton prior last ih =>
      obtain ⟨hRanged, hMinrto, hNone, hSome⟩ := ih
      have hCurrent : (prior.foldl ImKcpp.applyFrame s).current = s.current :=
        foldl_applyFrame_eq ImKcpp.current applyFrame_current prior s
      simp only [List.foldl_append, List.foldl_cons, List.foldl_nil]
      by_cases hCounts : last.Counts s.current
      · rw [applyFrame_of_counts (hCurrent.symm ▸ hCounts)]
        obtain ⟨hKept, hLow, hHigh⟩ := hRanged.rto_bounds (hCurrent.symm ▸ hCounts.2)
        rw [hMinrto] at hKept hLow
        refine ⟨hRanged.updateRto _ _, hKept, fun hAll => ?_, fun _ => ⟨hLow, hHigh⟩⟩
        exact absurd hCounts (hAll last (by simp))
      · rw [applyFrame_of_not_counts (hCurrent.symm ▸ hCounts)]
        refine ⟨hRanged, hMinrto, fun hAll => ?_, ?_⟩
        · exact hNone fun frame hFrame => hAll frame (List.mem_append_left _ hFrame)
        · rintro ⟨frame, hFrame, hFrameCounts⟩
          rcases List.mem_append.mp hFrame with hFrame | hFrame
          · exact hSome ⟨frame, hFrame, hFrameCounts⟩
          · rw [List.mem_singleton.mp hFrame] at hFrameCounts
            exact absurd hFrameCounts hCounts

/-- What a call does to the timeout and to its lower bound. -/
theorem Invariant.perform_rto {s : ImKcpp mtu} (h : s.Invariant) (hRanged : s.rtoCalculator.Ranged)
    {call : Call} {outcome : Outcome mtu} (hOutcome : s.perform host call = .ok outcome) :
    outcome.state.rtoCalculator.minrto = (call.nodelay.map leastRto).getD s.rtoCalculator.minrto ∧
      (¬(⟨s, call, outcome⟩ : Event mtu).Samples host →
        outcome.state.rtoCalculator.rto = s.rtoCalculator.rto) ∧
      ((⟨s, call, outcome⟩ : Event mtu).Samples host →
        s.rtoCalculator.minrto ≤ outcome.state.rtoCalculator.rto ∧
          outcome.state.rtoCalculator.rto ≤ Constants.ikcpRtoMax) := by
  have hCalculator := h.perform_rtoCalculator hOutcome
  cases call with
  | input data =>
      obtain ⟨-, hMinrto, hNone, hSome⟩ :=
        foldl_applyFrame_rto hRanged (scan host s.sharedCtx.conv data).1
      rw [operations, ← foldl_applyFrame_rtoCalculator] at hCalculator
      rw [hCalculator]
      refine ⟨hMinrto, fun hQuiet => ?_, ?_⟩
      · rw [hNone fun frame hFrame hCounts => hQuiet ⟨data, rfl, frame, hFrame, hCounts⟩]
      · rintro ⟨other, hSame, hFrame⟩
        cases hSame
        exact hSome hFrame
  | configure setting =>
      rw [hCalculator]
      cases setting <;> exact ⟨rfl, fun _ => rfl, nofun⟩
  | _ =>
      rw [hCalculator]
      exact ⟨rfl, fun _ => rfl, nofun⟩

end ImKcpp

/-- Between the lower bound that was in force when the last sample was taken and the
greatest timeout; the initial timeout, if no sample has been taken. -/
structure Party.RtoWithin (host : Host) (party : Party mtu) (rto : UInt32) : Prop where
  le_max : rto ≤ Constants.ikcpRtoMax
  ge_least : ∀ before event after, party.history = before ++ event :: after → event.Samples host →
    (∀ later ∈ after, ¬later.Samples host) → leastRto (lastSet Call.nodelay 0 before) ≤ rto
  eq_initial : (∀ event ∈ party.history, ¬event.Samples host) → rto = Constants.ikcpRtoDef

/-- The lower bound is the one of the last mode. -/
theorem minrto_of_reachable {party : Party mtu}
    (hReach : (endpointSystem host mtu conv).Reachable party) :
    party.endpoint.rtoCalculator.minrto = leastRto (lastSet Call.nodelay 0 party.history) := by
  refine hReach.invariant (P := fun party =>
    party.endpoint.rtoCalculator.minrto = leastRto (lastSet Call.nodelay 0 party.history)) ?_ ?_
  · rintro party rfl
    rfl
  · rintro party next hReach hMinrto ⟨call, outcome, hOutcome, rfl⟩
    obtain ⟨hNext, -⟩ :=
      (invariant_of_reachable hReach).perform_rto (ranged_of_reachable hReach) hOutcome
    rw [Party.record_endpoint, hNext, hMinrto, Party.record, lastSet_concat]
    cases call.nodelay <;> rfl

theorem rto_of_reachable {party : Party mtu}
    (hReach : (endpointSystem host mtu conv).Reachable party) :
    party.RtoWithin host party.endpoint.rtoCalculator.rto := by
  refine hReach.invariant (P := fun party =>
    party.RtoWithin host party.endpoint.rtoCalculator.rto) ?_ ?_
  · rintro party rfl
    have hInitial : Constants.ikcpRtoDef ≤ Constants.ikcpRtoMax := by decide
    refine ⟨hInitial, ?_, fun _ => rfl⟩
    intro before event after hHistory
    simp [Party.fresh] at hHistory
  · rintro party next hReach hWithin ⟨call, outcome, hOutcome, rfl⟩
    obtain ⟨-, hSame, hBounds⟩ :=
      (invariant_of_reachable hReach).perform_rto (ranged_of_reachable hReach) hOutcome
    rw [minrto_of_reachable hReach] at hBounds
    rw [Party.record_endpoint]
    by_cases hSamples : (⟨party.endpoint, call, outcome⟩ : Event mtu).Samples host
    · obtain ⟨hLow, hHigh⟩ := hBounds hSamples
      refine ⟨hHigh, ?_, fun hNone => absurd hSamples (hNone _ (by simp [Party.record]))⟩
      intro before event after hHistory hEvent hAfter
      rcases after.eq_nil_or_concat' with rfl | ⟨init, last, rfl⟩
      · obtain ⟨rfl, -⟩ := List.append_inj' hHistory rfl
        exact hLow
      · rw [← List.cons_append, ← List.append_assoc] at hHistory
        obtain ⟨-, hLast⟩ := List.append_inj' hHistory rfl
        obtain rfl := (List.cons.inj hLast).1
        exact absurd hSamples (hAfter _ (by simp))
    · rw [hSame hSamples]
      refine ⟨hWithin.le_max, ?_, fun hNone => hWithin.eq_initial fun event hEvent => ?_⟩
      · intro before event after hHistory hEvent hAfter
        rcases after.eq_nil_or_concat' with rfl | ⟨init, last, rfl⟩
        · obtain ⟨-, hLast⟩ := List.append_inj' hHistory rfl
          obtain rfl := (List.cons.inj hLast).1
          exact absurd hEvent hSamples
        · rw [← List.cons_append, ← List.append_assoc] at hHistory
          obtain ⟨hBefore, -⟩ := List.append_inj' hHistory rfl
          exact hWithin.ge_least before event init hBefore hEvent fun later hLater =>
            hAfter later (List.mem_append_left _ hLater)
      · exact hNone event (List.mem_append_left _ hEvent)

/-- A number that has not been emitted before is emitted with the timeout of the calculator. -/
theorem first_transmission {party : Party mtu}
    (hReach : (endpointSystem host mtu conv).Reachable party) {call : Call} {outcome : Outcome mtu}
    (hOutcome : party.endpoint.perform host call = .ok outcome)
    (hFlushes : party.endpoint.flushes call = true) {seg : Segment}
    (hSeg : seg ∈ outcome.state.senderBuffer.sndBuf)
    (hFirst : seg.header.sn ∉ transmitted host party.history) :
    seg.metadata.rto = party.endpoint.rtoCalculator.rto ∧
      seg.metadata.resendts = outcome.state.current + seg.metadata.rto +
        if party.endpoint.sender.nodelay = 0 then seg.metadata.rto >>> 3 else 0 := by
  obtain ⟨start, packets, result, askSend, askTell, hStart, hUpdated, hFlush, -, hFlushed⟩ :=
    (invariant_of_reachable hReach).perform_flushes hOutcome hFlushes
  obtain ⟨hTallied, hRto, hSender⟩ : start.Tallied (transmitted host party.history) ∧
      start.rtoCalculator = party.endpoint.rtoCalculator ∧
        start.sender = party.endpoint.sender := by
    have hTallied := tallied_of_reachable hReach
    cases hStart <;> exact ⟨⟨hTallied.counted, hTallied.below⟩, rfl, rfl⟩
  have hCurrent : outcome.state.current = start.current := by
    obtain ⟨_, _, _, _, hNext, -⟩ := ImKcpp.flush_shape hUpdated hFlush
    rw [hNext]
  rw [hFlushed.sndBuf_eq] at hSeg
  obtain ⟨old, hOld, rfl⟩ := List.mem_map.mp hSeg
  rw [(Segment.core_eq_iff.mp (Sender.flushed_core old)).2.2.2.1] at hFirst
  have hNever : Sender.hasNeverBeenSent old = true := by
    have hCount := hTallied.moved old hOld
    rw [List.count_eq_zero_of_not_mem hFirst] at hCount
    exact beq_iff_eq.mpr hCount
  rw [Sender.flushed_of_never hNever, hCurrent, ← hRto, ← hSender]
  refine ⟨rfl, ?_⟩
  simp only [Sender.refresh, Sender.prepareForFirstSend, ImKcpp.settings, ImKcpp.flushSettings,
    beq_iff_eq]

/-- In every run, the timeout keeps to the bounds that were in force when the last sample
was taken, and so does every timeout that a segment is first emitted with. -/
theorem rto_bounded {party : Party mtu} (hReach : (endpointSystem host mtu conv).Reachable party) :
    party.RtoWithin host party.endpoint.rtoCalculator.rto ∧
      ∀ call outcome, party.endpoint.perform host call = .ok outcome →
        party.endpoint.flushes call = true →
        ∀ seg ∈ outcome.state.senderBuffer.sndBuf, seg.header.sn ∉ transmitted host party.history →
          party.RtoWithin host seg.metadata.rto ∧
          seg.metadata.resendts = outcome.state.current + seg.metadata.rto +
            if party.endpoint.sender.nodelay = 0 then seg.metadata.rto >>> 3 else 0 := by
  have hWithin := rto_of_reachable hReach
  refine ⟨hWithin, fun call outcome hOutcome hFlushes seg hSeg hFirst => ?_⟩
  obtain ⟨hRto, hDeadline⟩ := first_transmission hReach hOutcome hFlushes hSeg hFirst
  exact ⟨hRto.symm ▸ hWithin, hDeadline⟩

/-- An acknowledgement that comes back at once, in the quick mode, and the normal mode
behind it. -/
def modeCalls : List Call :=
  [.configure (.nodelay 1), .update 0, .input (wire Host.x8664 [⟨{ cmd := Commands.ack }, []⟩]),
    .configure (.nodelay 0)]

/-- The sample has been taken in the quick mode, so that its bound counts. -/
theorem rto_bounded_quick :
    ∃ party : Party .least, (Party.fresh .least 0).run Host.x8664 modeCalls = .ok party ∧
      party.RtoWithin Host.x8664 30 := by
  have hRuns : ((Party.fresh .least 0).run Host.x8664 modeCalls).map
      (fun party => party.endpoint.rtoCalculator.rto) = .ok 30 := by decide +kernel
  obtain ⟨party, hRun, hRto⟩ := map_eq_ok.mp hRuns
  have hWithin := (rto_bounded (Party.reachable_run (.of_init rfl) hRun)).1
  rw [hRto] at hWithin
  exact ⟨party, hRun, hWithin⟩

/-- The timeout of the quick mode is kept in the normal mode, below its lower bound. -/
theorem rto_below_least :
    ¬∀ (mtu : Mtu) (host : Host) (conv : UInt32) (party : Party mtu),
      (endpointSystem host mtu conv).Reachable party →
        leastRto (lastSet Call.nodelay 0 party.history) ≤ party.endpoint.rtoCalculator.rto ∧
          party.endpoint.rtoCalculator.rto ≤ Constants.ikcpRtoMax := by
  intro hAll
  have hRuns : ((Party.fresh .least 0).run Host.x8664 modeCalls).map (fun party =>
      (lastSet Call.nodelay 0 party.history, party.endpoint.rtoCalculator.rto)) = .ok (0, 30) := by
    decide +kernel
  obtain ⟨party, hRun, hFacts⟩ := map_eq_ok.mp hRuns
  obtain ⟨hMode, hRto⟩ := Prod.mk.inj hFacts
  have hBound := (hAll .least Host.x8664 0 party (Party.reachable_run (.of_init rfl) hRun)).1
  rw [hMode, hRto] at hBound
  exact absurd hBound (by decide)

end Bounds

end Imkcpp
