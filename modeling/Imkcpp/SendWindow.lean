import Imkcpp.Configuration
import Imkcpp.FlowControl
import Imkcpp.FlushPackets

/-! The send window. New segments are admitted below `snd_una` plus a window that is at
most the one set, by a comparison of numbers that may have wrapped; so no more numbers
than that are in flight, and no flush sends more segments. -/
namespace Imkcpp

open Transition OrderedList

variable {mtu : Mtu} {host : Host} {conv window : UInt32}

namespace ImKcpp

/-- The window of `calculate_congestion_window` is at most the one set. -/
theorem cwnd_le_sndWnd (controller : CongestionController) :
    controller.calculateCongestionWindow.toNat ≤ controller.sndWnd.toNat := by
  unfold CongestionController.calculateCongestionWindow
  dsimp only
  split_ifs
  · rw [toNat_min, toNat_min]
    omega
  · rw [toNat_min]
    omega

/-- An endpoint with at most `window` numbers in flight. -/
structure InWindow (window : UInt32) (s : ImKcpp mtu) : Prop where
  sndWnd_eq : s.congestionController.sndWnd = window
  inFlight_le : s.segmentTracker.sndNxt.toNat ≤ s.segmentTracker.sndUna.toNat + window.toNat

/-- An endpoint that has nothing to send. -/
structure Unused (window : UInt32) (s : ImKcpp mtu) : Prop where
  sndWnd_eq : s.congestionController.sndWnd = window
  sndQueue_eq : s.sender.sndQueue = []
  sndBuf_eq : s.senderBuffer.sndBuf = []

theorem Unused.inWindow {s : ImKcpp mtu} (h : s.Unused window) (hInvariant : s.Invariant) :
    s.InWindow window := by
  have hUna := hInvariant.sender.una_eq
  rw [SenderBuffer.getFirstSequenceNumberInFlight, h.sndBuf_eq] at hUna
  refine ⟨h.sndWnd_eq, ?_⟩
  rw [show s.segmentTracker.sndUna = s.segmentTracker.sndNxt from hUna]
  exact Nat.le_add_right _ _

/-- Admission stops at the window; where the sum has wrapped it stops at once. -/
theorem InWindow.moved {s : ImKcpp mtu} (h : s.InWindow window) (hInvariant : s.Invariant) :
    s.moved.2.2.sndNxt.toNat ≤ s.moved.2.2.sndUna.toNat + window.toNat := by
  have hCwnd := cwnd_le_sndWnd s.congestionController
  rw [h.sndWnd_eq] at hCwnd
  have hUna := UInt32.le_iff_toNat_le.mp hInvariant.sender.una_le_nxt
  refine (Sender.moveSendQueueToBuffer_induct (P := fun _ _ tracker =>
    tracker.sndUna.toNat ≤ tracker.sndNxt.toNat ∧
      tracker.sndNxt.toNat ≤ tracker.sndUna.toNat + window.toNat) ?_ ⟨hUna, h.inFlight_le⟩).2
  rintro newseg rest buffer tracker hWindow ⟨hLow, hHigh⟩
  have hSucc := SegmentTracker.sndNxt_succ hWindow
  rw [UInt32.lt_iff_toNat_lt, UInt32.toNat_add] at hWindow
  dsimp only
  omega

/-- Input and the passing of time change no window but the remote one. -/
theorem Invariant.perform_sndWnd {s : ImKcpp mtu} (h : s.Invariant) {call : Call}
    {outcome : Outcome mtu} (hOutcome : s.perform host call = .ok outcome) :
    outcome.state.congestionController.sndWnd =
      call.sendWindow.getD s.congestionController.sndWnd := by
  cases call with
  | configure setting =>
      cases setting with
      | sendWindow value =>
          rw [perform_configure hOutcome]
          rfl
      | _ => exact (h.perform_keeps_windows hOutcome nofun nofun).1
  | input data =>
      obtain ⟨result, hInput⟩ := perform_input hOutcome
      obtain ⟨cwnd, incr, hController⟩ := input_congestionController hInput
      have hKept := congrArg CongestionController.sndWnd hController
      exact hKept
  | _ => exact (h.perform_keeps_windows hOutcome nofun nofun).1

/-- The numbers in flight after a call that does not change the window. -/
theorem InWindow.effect {s : ImKcpp mtu} (h : s.InWindow window)
    (hInvariant : s.Invariant) {call : Call} {outcome : Outcome mtu}
    (hEffect : s.Effect host call outcome) :
    outcome.state.segmentTracker.sndNxt.toNat ≤
      outcome.state.segmentTracker.sndUna.toNat + window.toNat := by
  have hUna := UInt32.le_iff_toNat_le.mp (hEffect.progress hInvariant).una_le
  have hBefore := h.inFlight_le
  cases hEffect with
  | input data folded sndBuf controller result hFolded =>
      have hNxt := foldl_applyFrame_sndNxt (scan host s.sharedCtx.conv data).1 s
      dsimp only at hUna ⊢
      rw [hFolded] at hUna ⊢
      rw [hNxt]
      omega
  | idle call start hStart => cases hStart <;> exact hBefore
  | flush call start next packets result askSend askTell hStart hFlushes hFlushed =>
      dsimp only
      rw [hFlushed.tracker_eq]
      cases hStart with
      | flush => exact h.moved hInvariant
      | update current tsFlush =>
          exact InWindow.moved ⟨h.sndWnd_eq, h.inFlight_le⟩
            ((FlushStart.update current tsFlush).invariant hInvariant)
  | _ => exact hBefore

/-- Nothing appears in queue and buffer unless a message is accepted. -/
theorem Unused.effect {s : ImKcpp mtu} (h : s.Unused window)
    (hInvariant : s.Invariant) {call : Call} {outcome : Outcome mtu}
    (hEffect : s.Effect host call outcome)
    (hQuiet : (⟨s, call, outcome⟩ : Event mtu).accepted = []) :
    outcome.state.sender.sndQueue = [] ∧ outcome.state.senderBuffer.sndBuf = [] := by
  have hSame : s.sender.sndQueue = [] ∧ s.senderBuffer.sndBuf = [] := ⟨h.sndQueue_eq, h.sndBuf_eq⟩
  cases hEffect with
  | input data folded sndBuf controller result hFolded hCore =>
      have hAccepted := scan_accepted host s.sharedCtx.conv data
      have hSender : folded.sender = s.sender := by
        rw [hFolded]
        exact foldl_applyFrame_eq ImKcpp.sender applyFrame_sender _ s
      have hEmpty : folded.senderBuffer.sndBuf = [] := by
        refine List.eq_nil_iff_forall_not_mem.mpr fun seg hSeg => ?_
        rw [hFolded] at hSeg
        have hOld := ((hInvariant.mem_foldl_sndBuf _ seg).mp hSeg).1
        rw [h.sndBuf_eq] at hOld
        exact List.not_mem_nil hOld
      rw [hEmpty] at hCore
      exact ⟨(congrArg Sender.sndQueue hSender).trans h.sndQueue_eq, List.map_eq_nil_iff.mp hCore⟩
  | send buffer finish =>
      exact absurd hQuiet (List.cons_ne_nil _ _)
  | idle call start hStart => cases hStart <;> exact hSame
  | flush call start next packets result askSend askTell hStart hFlushes hFlushed =>
      have hNone : start.sender.sndQueue = [] ∧ start.senderBuffer.sndBuf = [] := by
        cases hStart <;> exact hSame
      have hMoved : start.moved = ([], start.senderBuffer, start.segmentTracker) := by
        rw [ImKcpp.moved, ImKcpp.moveSendQueueToBuffer, hNone.1, Sender.moveSendQueueToBuffer]
      refine ⟨hFlushed.sender_eq.trans (congrArg Prod.fst hMoved), ?_⟩
      have hBuffer := hFlushed.sndBuf_eq
      rw [hMoved] at hBuffer
      dsimp only at hBuffer ⊢
      rw [hBuffer, hNone.2, List.map_nil]
  | _ => exact hSame

/-- A call emits as many data segments as it leaves buffered, at most. -/
theorem Effect.pushCount_le {s : ImKcpp mtu} {call : Call} {outcome : Outcome mtu}
    (h : s.Effect host call outcome) (hInvariant : s.Invariant) :
    commandCount Commands.push (outcome.datagrams.flatMap (framesOf host)) ≤
      outcome.state.senderBuffer.sndBuf.length := by
  cases h with
  | flush call start next packets result askSend askTell hStart hFlushes hFlushed =>
      have hSending := (hStart.invariant hInvariant).toSending
      have hCount := hSending.commandCount_flushFrames askSend askTell Commands.push
      rw [← hFlushed.frames_eq, ← hFlushed.framesOf_eq hSending] at hCount
      dsimp only
      rw [hCount, hFlushed.sndBuf_eq, Sender.pushFrames, List.length_map, List.length_map]
      simpa [Commands.push, Commands.ack, Commands.wask,
        Commands.wins] using List.length_filter_le _ _
  | _ => exact Nat.zero_le _

end ImKcpp

/-- The send window was set to `window` before any message had been accepted, and has
not been set since. -/
def Party.SendWindowSet (window : UInt32) (party : Party mtu) : Prop :=
  Fixed Call.sendWindow Constants.ikcpWndSnd (fun event => event.accepted = []) window party.history

theorem inWindow_of_reachable {party : Party mtu}
    (hReach : (endpointSystem host mtu conv).Reachable party) (hSet : party.SendWindowSet window) :
    party.endpoint.InWindow window := by
  refine hSet.induct (Q := fun window party => party.endpoint.Unused window)
    (P := fun window party => party.endpoint.InWindow window) ?_ ?_ ?_ ?_ hReach
  · exact ⟨rfl, rfl, rfl⟩
  · intro party value call outcome hReach hUnused hOutcome hQuiet
    have hInvariant := invariant_of_reachable hReach
    obtain ⟨hQueue, hBuffer⟩ := hUnused.effect hInvariant (hInvariant.effect hOutcome) hQuiet
    refine ⟨?_, hQueue, hBuffer⟩
    rw [Party.record_endpoint, hInvariant.perform_sndWnd hOutcome, hUnused.sndWnd_eq]
  · exact fun party value hReach hUnused => hUnused.inWindow (invariant_of_reachable hReach)
  · intro party value call outcome hReach hPrior hOutcome hOther
    have hInvariant := invariant_of_reachable hReach
    refine ⟨?_, hPrior.effect hInvariant (hInvariant.effect hOutcome)⟩
    rw [Party.record_endpoint, hInvariant.perform_sndWnd hOutcome, hOther]
    exact hPrior.sndWnd_eq

/-- With the send window fixed, no more numbers than it allows are in flight, the
buffer is no longer, and no call emits more data segments. -/
theorem send_window_bound {party : Party mtu}
    (hReach : (endpointSystem host mtu conv).Reachable party) (hSet : party.SendWindowSet window) :
    party.endpoint.segmentTracker.sndUna ≤ party.endpoint.segmentTracker.sndNxt ∧
    party.endpoint.segmentTracker.sndNxt - party.endpoint.segmentTracker.sndUna ≤ window ∧
    party.endpoint.senderBuffer.sndBuf.length ≤ window.toNat ∧
    ∀ call outcome, party.endpoint.perform host call = .ok outcome →
      commandCount Commands.push (outcome.datagrams.flatMap (framesOf host)) ≤ window.toNat := by
  have hInvariant := invariant_of_reachable hReach
  have hWindow := inWindow_of_reachable hReach hSet
  have hUna := hInvariant.sender.una_le_nxt
  have hInFlight := hWindow.inFlight_le
  have hLength := hInvariant.sndBuf_length_le
  refine ⟨hUna, ?_, by omega, ?_⟩
  · rw [UInt32.le_iff_toNat_le, UInt32.toNat_sub_of_le _ _ hUna]
    omega
  · intro call outcome hOutcome
    have hEffect := hInvariant.effect hOutcome
    have hCount := hEffect.pushCount_le hInvariant
    have hNext := hWindow.effect hInvariant hEffect
    have hNextLength := (hEffect.invariant hInvariant).sndBuf_length_le
    omega

/-- With a window of two, two of three segments are sent. -/
theorem send_window_bound_two :
    ∃ party : Party .least,
      (Party.fresh .least 0).run Host.x8664 [.configure (.sendWindow 2),
        .configure (.congestionWindowEnabled false), .send [1, 2, 3], .update 0] = .ok party ∧
      party.endpoint.segmentTracker.sndNxt = 2 ∧
      party.endpoint.segmentTracker.sndNxt - party.endpoint.segmentTracker.sndUna ≤ 2 := by
  have hNumbers : ((Party.fresh .least 0).run Host.x8664 [.configure (.sendWindow 2),
      .configure (.congestionWindowEnabled false), .send [1, 2, 3], .update 0]).map
        (fun party => party.endpoint.segmentTracker.sndNxt) = .ok 2 := by decide +kernel
  obtain ⟨party, hRun, hNxt⟩ := map_eq_ok.mp hNumbers
  have hSet : party.SendWindowSet 2 := by
    refine .of_calls [.configure (.sendWindow 2)] (Party.calls_run hRun) ?_ rfl
      (by simp [Call.sendWindow])
    intro event _ hCall
    rw [Event.accepted, List.mem_singleton.mp hCall]
  exact ⟨party, hRun, hNxt, (send_window_bound (Party.reachable_run (.of_init rfl) hRun) hSet).2.1⟩

end Imkcpp
