import Imkcpp.RtoBounds

/-! The granularity of the clock. The interval of the flushes is stored twice, and the
copy of the calculator has no initial value of its own; as long as `set_interval` has not
been called, the timeouts take the clock for an exact one. -/
namespace Imkcpp

open Transition RoundTripTime

variable {mtu : Mtu} {host : Host} {conv : UInt32}

/-- `set_interval` has been called. -/
def Party.IntervalSet (party : Party mtu) : Prop := ∃ call ∈ party.calls, call.interval ≠ none

namespace ImKcpp

@[simp] theorem applyFrame_rto_interval (s : ImKcpp mtu) (frame : Frame) :
    (s.applyFrame frame).rtoCalculator.interval = s.rtoCalculator.interval := by
  rw [applyFrame_rtoCalculator, frameOperation]
  split_ifs
  · rcases Int32.lt_or_le (timeDelta s.current frame.header.ts) 0 with hNegative | hSample
    · exact congrArg RtoCalculator.interval (RtoCalculator.updateRto_of_negative hNegative)
    · obtain ⟨srtt, rttvar, hAfter, -⟩ := RtoCalculator.updateRto_eq s.rtoCalculator hSample
      change (s.rtoCalculator.updateRto s.current frame.header.ts).interval = _
      rw [hAfter]
  · rfl

/-- What a call does to the copy of the calculator. -/
theorem Invariant.perform_rto_interval {s : ImKcpp mtu} (h : s.Invariant) {call : Call}
    {outcome : Outcome mtu} (hOutcome : s.perform host call = .ok outcome) :
    outcome.state.rtoCalculator.interval =
      (call.interval.map fun value => clamp value 10 5000).getD s.rtoCalculator.interval := by
  rw [h.perform_rtoCalculator hOutcome]
  cases call with
  | configure setting => cases setting <;> rfl
  | input data =>
      rw [operations, ← foldl_applyFrame_rtoCalculator]
      exact foldl_applyFrame_eq (fun s => s.rtoCalculator.interval) applyFrame_rto_interval _ s
  | _ => rfl

end ImKcpp

/-- The two copies agree from the first `set_interval` on. -/
theorem intervals_of_reachable {party : Party mtu}
    (hReach : (endpointSystem host mtu conv).Reachable party) :
    (party.IntervalSet → party.endpoint.rtoCalculator.interval =
      party.endpoint.sharedCtx.interval) ∧
      (¬party.IntervalSet → party.endpoint.rtoCalculator.interval = 0 ∧
        party.endpoint.sharedCtx.interval = Constants.ikcpInterval) := by
  refine hReach.invariant (P := fun party =>
    (party.IntervalSet → party.endpoint.rtoCalculator.interval =
      party.endpoint.sharedCtx.interval) ∧
      (¬party.IntervalSet → party.endpoint.rtoCalculator.interval = 0 ∧
        party.endpoint.sharedCtx.interval = Constants.ikcpInterval)) ?_ ?_
  · rintro party rfl
    refine ⟨?_, fun _ => ⟨rfl, rfl⟩⟩
    rintro ⟨call, hCall, -⟩
    simp [Party.calls, Party.fresh] at hCall
  · rintro party next hReach ⟨hSet, hUnset⟩ ⟨call, outcome, hOutcome, rfl⟩
    have hInvariant := invariant_of_reachable hReach
    rw [Party.record_endpoint, hInvariant.perform_sharedCtx_interval hOutcome,
      hInvariant.perform_rto_interval hOutcome]
    have hCalls : (party.record call outcome).IntervalSet ↔
        party.IntervalSet ∨ call.interval ≠ none := by
      simp [Party.IntervalSet, or_and_right, exists_or]
    rw [hCalls]
    cases hCall : call.interval with
    | none => simpa using ⟨hSet, hUnset⟩
    | some value => simp

/-- Whether the timeout comes out as for the interval that schedules the flushes. Either
that interval is the calculator's too, or the variation outweighs it, or both sums are
cut off at the same bound; and the sum must not wrap below the greatest timeout. -/
def Party.Accounts (party : Party mtu) (rc : RtoCalculator) (rtt : ℕ) : Prop :=
  (party.IntervalSet ∨ 100 ≤ 4 * (rc.wrapped rtt).rttvar ∨
    (rc.wrapped rtt).srtt + 100 ≤ rc.minrto.toNat ∨
    60000 ≤ (rc.wrapped rtt).srtt + 4 * (rc.wrapped rtt).rttvar) ∧
  ((rc.wrapped rtt).srtt + 4 * (rc.wrapped rtt).rttvar < 2 ^ 32 ∨
    2 ^ 32 + 60000 ≤ (rc.wrapped rtt).srtt + 4 * (rc.wrapped rtt).rttvar)

/-- The two sums, the one of the code with its wrap, cut off at the bounds. -/
theorem timeout_eq_iff {granularity interval low srtt variation : ℕ} {called : Prop}
    (hSrtt : srtt < 2 ^ 31) (hVariation : variation < 2 ^ 32) (hLow : low < 60000)
    (hInterval : interval ≤ 5000)
    (hSet : called → granularity = interval) (hUnset : ¬called → granularity = 0 ∧ interval = 100) :
    max low (min 60000 ((srtt + max granularity variation) % 2 ^ 32)) =
        max low (min 60000 (srtt + max interval variation)) ↔
      (called ∨ 100 ≤ variation ∨ srtt + 100 ≤ low ∨ 60000 ≤ srtt + variation) ∧
        (srtt + variation < 2 ^ 32 ∨ 2 ^ 32 + 60000 ≤ srtt + variation) := by
  by_cases hCalled : called
  · have hSame := hSet hCalled
    simp only [hCalled, true_or, true_and]
    omega
  · obtain ⟨hZero, hHundred⟩ := hUnset hCalled
    simp only [hCalled, false_or]
    omega

/-- In every run, the timeout behind an accepted acknowledgement is the one for the
endpoint's own interval if and only if the interval has been set, or does not matter,
and the sum does not wrap. -/
theorem granularity_iff {party : Party mtu}
    (hReach : (endpointSystem host mtu conv).Reachable party) (data : List UInt8) :
    ∀ done frame rest, (scan host party.endpoint.sharedCtx.conv data).1 = done ++ frame :: rest →
      frame.header.cmd = Commands.ack → 0 ≤ timeDelta party.endpoint.current frame.header.ts →
      RtoCalculator.sample party.endpoint.current frame.header.ts < 2 ^ 28 →
      let before := done.foldl ImKcpp.applyFrame party.endpoint
      let after := before.applyFrame frame
      (after.rtoCalculator.rto.toNat =
          after.rtoCalculator.estimate.timeout after.sharedCtx.interval.toNat
          after.rtoCalculator.minrto.toNat 60000 ↔
        party.Accounts before.rtoCalculator
          (RtoCalculator.sample party.endpoint.current frame.header.ts)) := by
  intro done frame rest _ hAck hSample _ before after
  obtain ⟨hRanged, -⟩ := ImKcpp.foldl_applyFrame_rto (ranged_of_reachable hReach) done
  obtain ⟨hSet, hUnset⟩ := intervals_of_reachable hReach
  have hCurrent : before.current = party.endpoint.current :=
    ImKcpp.foldl_applyFrame_eq ImKcpp.current ImKcpp.applyFrame_current done _
  have hGranularity : before.rtoCalculator.interval = party.endpoint.rtoCalculator.interval :=
    ImKcpp.foldl_applyFrame_eq
      (fun s => s.rtoCalculator.interval) ImKcpp.applyFrame_rto_interval done _
  have hShared : after.sharedCtx = party.endpoint.sharedCtx :=
    (ImKcpp.applyFrame_sharedCtx _ _).trans (ImKcpp.foldl_applyFrame_sharedCtx done _)
  have hAfter : after.rtoCalculator =
      before.rtoCalculator.updateRto party.endpoint.current frame.header.ts := by
    rw [← hCurrent]
    exact ImKcpp.applyFrame_of_counts ⟨hAck, hCurrent.symm ▸ hSample⟩
  obtain ⟨hEstimate, -, hMinrto, -, hRto⟩ := RtoCalculator.updateRto_spec hRanged.limited hSample
  obtain ⟨hSrtt, hRttvar⟩ :=
    RtoCalculator.wrapped_lt before.rtoCalculator (RtoCalculator.toNat_sample hSample).2.2
  have hVariation : 4 * (before.rtoCalculator.wrapped
      (RtoCalculator.sample party.endpoint.current frame.header.ts)).rttvar < 2 ^ 32 := by omega
  rw [hAfter, hRto, hRanged.toNat_maxrto, hEstimate, hMinrto, hShared, hGranularity]
  refine timeout_eq_iff hSrtt hVariation ?_ (interval_of_reachable hReach).2 ?_ ?_
  · exact hRanged.minrto_range.2.trans_lt (show 100 < 60000 by decide)
  · exact fun hCalled => congrArg UInt32.toNat (hSet hCalled)
  · intro hNever
    obtain ⟨hZero, hHundred⟩ := hUnset hNever
    exact ⟨congrArg UInt32.toNat hZero, congrArg UInt32.toNat hHundred⟩

/-- An acknowledgement of something sent at time zero. -/
def lateAck : Frame := ⟨{ cmd := Commands.ack }, []⟩

theorem scan_lateAck : (scan Host.x8664 0 (wire Host.x8664 [lateAck])).1 = [] ++ lateAck :: [] := by
  rw [scan_wire]
  · rfl
  · intro frame hFrame
    obtain rfl := List.mem_singleton.mp hFrame
    exact ⟨⟨rfl, rfl, nofun, fun _ => rfl⟩, rfl⟩

/-- Behind `set_interval` the timeout is the one for ten milliseconds. -/
theorem granularity_ten :
    ∃ party : Party .least,
      (Party.fresh .least 0).run Host.x8664 [.configure (.interval 10), .update 10] = .ok party ∧
      let after := party.endpoint.applyFrame lateAck
      after.rtoCalculator.rto.toNat =
        after.rtoCalculator.estimate.timeout after.sharedCtx.interval.toNat
        after.rtoCalculator.minrto.toNat 60000 := by
  have hRuns : ((Party.fresh .least 0).run Host.x8664 [.configure (.interval 10), .update 10]).map
      (fun party => (party.endpoint.current, party.endpoint.sharedCtx.conv,
        party.endpoint.rtoCalculator.wrapped 10)) = .ok (10, 0, ⟨10, 5⟩) := by decide +kernel
  obtain ⟨party, hRun, hFacts⟩ := map_eq_ok.mp hRuns
  simp only [Prod.mk.injEq] at hFacts
  obtain ⟨hCurrent, hConv, hWrapped⟩ := hFacts
  refine ⟨party, hRun, ?_⟩
  have hIff := granularity_iff (Party.reachable_run (.of_init rfl) hRun) (wire Host.x8664 [lateAck])
    [] lateAck [] (hConv.symm ▸ scan_lateAck) rfl (hCurrent.symm ▸ by decide)
      (hCurrent.symm ▸ by decide)
  refine hIff.mpr ⟨.inl ⟨.configure (.interval 10), ?_, nofun⟩, ?_⟩
  · rw [Party.calls_run hRun]
    exact List.mem_cons_self
  · have hSample : RtoCalculator.sample party.endpoint.current lateAck.header.ts = 10 := by
      rw [hCurrent]
      rfl
    rw [hSample, List.foldl_nil, hWrapped]
    exact .inl (by decide)

/-- A round trip of ten milliseconds on a fresh endpoint gives a timeout of a hundred, and
not of a hundred and ten. -/
theorem granularity_unset :
    ¬∀ (mtu : Mtu) (host : Host) (conv : UInt32) (party : Party mtu),
      (endpointSystem host mtu conv).Reachable party →
        ∀ (data : List UInt8) (done : List Frame) (frame : Frame) (rest : List Frame),
        (scan host party.endpoint.sharedCtx.conv data).1 = done ++ frame :: rest →
        frame.header.cmd = Commands.ack → 0 ≤ timeDelta party.endpoint.current frame.header.ts →
        RtoCalculator.sample party.endpoint.current frame.header.ts < 2 ^ 28 →
        let after := (done.foldl ImKcpp.applyFrame party.endpoint).applyFrame frame
        after.rtoCalculator.rto.toNat =
          after.rtoCalculator.estimate.timeout after.sharedCtx.interval.toNat
          after.rtoCalculator.minrto.toNat 60000 := by
  intro hAll
  have hRuns : ((Party.fresh .least 0).run Host.x8664 [.update 10]).map (fun party =>
      let after := party.endpoint.applyFrame lateAck
      (party.endpoint.current, party.endpoint.sharedCtx.conv, after.rtoCalculator.rto.toNat,
        after.rtoCalculator.estimate.timeout after.sharedCtx.interval.toNat
          after.rtoCalculator.minrto.toNat 60000)) = .ok (10, 0, 100, 110) := by decide +kernel
  obtain ⟨party, hRun, hFacts⟩ := map_eq_ok.mp hRuns
  simp only [Prod.mk.injEq] at hFacts
  obtain ⟨hCurrent, hConv, hRto, hTimeout⟩ := hFacts
  have hSame := hAll .least Host.x8664 0 party (Party.reachable_run (.of_init rfl) hRun)
    (wire Host.x8664 [lateAck]) [] lateAck [] (hConv.symm ▸ scan_lateAck) rfl
    (hCurrent.symm ▸ by decide) (hCurrent.symm ▸ by decide)
  dsimp only [List.foldl_nil] at hSame
  rw [hRto, hTimeout] at hSame
  exact absurd hSame (by decide)

end Imkcpp
