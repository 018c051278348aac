import Imkcpp.FlowControl
import Imkcpp.Standstill

/-! Flow control between two sides. What one side may send depends on the last header that
has arrived, which may be an old one; what the other side takes depends on how far it has
got. As long as the reader leaves room in its queue, nothing that arrives is outside its
window. -/
namespace Imkcpp

open Transition Fragmentation

variable {mtu : Mtu} {host : Host} {conv w : UInt32} {bound : ℕ}

namespace ImKcpp

/-- Admission stops at the remote window. -/
theorem Invariant.moved_inFlight_le {s : ImKcpp mtu} (h : s.Invariant)
    (hWindow : s.congestionController.rmtWnd.toNat ≤ bound)
    (hBefore : s.segmentTracker.sndNxt.toNat ≤ s.segmentTracker.sndUna.toNat + bound) :
    s.moved.2.2.sndNxt.toNat ≤ s.moved.2.2.sndUna.toNat + bound := by
  have hCwnd := cwnd_le_rmtWnd s.congestionController
  have hUna := UInt32.le_iff_toNat_le.mp h.sender.una_le_nxt
  refine (Sender.moveSendQueueToBuffer_induct (P := fun _ _ tracker =>
    tracker.sndUna.toNat ≤ tracker.sndNxt.toNat ∧
      tracker.sndNxt.toNat ≤ tracker.sndUna.toNat + bound) ?_ ⟨hUna, hBefore⟩).2
  rintro newseg rest buffer tracker hAdmits ⟨hLow, hHigh⟩
  have hSucc := SegmentTracker.sndNxt_succ hAdmits
  rw [UInt32.lt_iff_toNat_lt, UInt32.toNat_add] at hAdmits
  dsimp only
  omega

/-- The numbers in flight are within every bound on the remote window that has held so far. -/
theorem Effect.inFlight_le {s : ImKcpp mtu} {call : Call} {outcome : Outcome mtu}
    (h : Effect host s call outcome) (hInvariant : s.Invariant)
    (hWindow : s.congestionController.rmtWnd.toNat ≤ bound)
    (hBefore : s.segmentTracker.sndNxt.toNat ≤ s.segmentTracker.sndUna.toNat + bound) :
    outcome.state.segmentTracker.sndNxt.toNat ≤
      outcome.state.segmentTracker.sndUna.toNat + bound := by
  have hUna := UInt32.le_iff_toNat_le.mp (h.progress hInvariant).una_le
  cases h with
  | input data folded sndBuf controller result hFolded =>
      have hNxt := foldl_applyFrame_sndNxt (scan host s.sharedCtx.conv data).1 s
      dsimp only at hUna ⊢
      rw [hFolded] at hUna ⊢
      rw [hNxt]
      omega
  | idle call start hStart => cases hStart <;> exact hBefore
  | flush call start next packets result askSend askTell hStart hFlushes hFlushed =>
      dsimp only
      rw [hFlushed.tracker_eq]
      refine (hStart.invariant hInvariant).moved_inFlight_le ?_ ?_
      · rwa [hStart.congestionController_eq]
      · cases hStart <;> exact hBefore
  | _ => exact hBefore

end ImKcpp

/-- Headers advertise no more than the window that has been set, or the default. -/
theorem wnd_le_of_emitted {party : Party mtu}
    (hReach : (endpointSystem host mtu conv).Reachable party) (hSet : party.WindowSet w) :
    ∀ frame ∈ party.emittedFrames host, frame.header.wnd.toNat ≤ max w.toNat 128 := by
  refine hSet.induct (P := fun party => ∀ frame ∈ party.emittedFrames host,
    frame.header.wnd.toNat ≤ max w.toNat 128) ?_ ?_ hReach
  · intro outcome hOutcome
    obtain ⟨state, -, hReturn⟩ := bind_eq_ok.mp hOutcome
    rw [← Except.ok.inj hReturn]
    simp [Party.emittedFrames, Party.emitted, Party.fresh, Party.record]
  · intro party call outcome hReach hSet hPrior hEffect hOther frame hFrame
    rw [Party.record_emittedFrames, List.mem_append] at hFrame
    rcases hFrame with hFrame | hFrame
    · exact hPrior frame hFrame
    · obtain ⟨-, hLimit, hRcvWnd, hQueue, -⟩ := windowed_of_reachable hReach hSet
      have hWindow : party.endpoint.congestionController.rcvWnd.toNat = max w.toNat 128 := by
        rw [hRcvWnd]
        exact toNat_max w 128
      rw [hLimit] at hQueue
      rw [hEffect.wnd_eq (invariant_of_reachable hReach) frame hFrame, UInt32.toNat_toUInt16,
        ImKcpp.unusedReceiveWindow_toNat (by omega), hWindow]
      split_ifs <;> omega

section Network

variable {net : Network mtu} {side : Side}

/-- Neither the remote window nor the numbers in flight exceed what the peer has ever
advertised, as long as no larger send window is set. -/
theorem inFlight_of_network (hReach : (networkSystem host mtu conv).Reachable net)
    (hSet : (net side.peer).WindowSet w)
    (hSends : ∀ value, .configure (.sendWindow value) ∈ (net side).calls →
      value.toNat ≤ max w.toNat 128) :
    (net side).endpoint.congestionController.rmtWnd.toNat ≤ max w.toNat 128 ∧
      (net side).endpoint.segmentTracker.sndNxt.toNat ≤
        (net side).endpoint.segmentTracker.sndUna.toNat + max w.toNat 128 := by
  refine hReach.invariant (P := fun net => (net side.peer).calls = [] ∨
    (net side.peer).WindowSet w →
    (∀ value, .configure (.sendWindow value) ∈ (net side).calls → value.toNat ≤ max w.toNat 128) →
    (net side).endpoint.congestionController.rmtWnd.toNat ≤ max w.toNat 128 ∧
      (net side).endpoint.segmentTracker.sndNxt.toNat ≤
        (net side).endpoint.segmentTracker.sndUna.toNat + max w.toNat 128) ?_ ?_ (.inr hSet) hSends
  · rintro net rfl - -
    have hDefault : Constants.ikcpWndSnd.toNat ≤ max w.toNat 128 :=
      (by decide : 32 ≤ 128).trans (le_max_right _ _)
    exact ⟨hDefault, Nat.zero_le _⟩
  · rintro net next hReach hPrior ⟨moving, call, party, ⟨outcome, hOutcome, rfl⟩, hInput,
      rfl⟩ hSet hSends
    rcases side.eq_or_eq_peer moving with rfl | rfl
    · rw [Function.update_of_ne moving.peer_ne] at hSet
      rw [Function.update_self] at hSends ⊢
      rw [Party.record_calls] at hSends
      obtain ⟨hWindow, hInFlight⟩ :=
        hPrior hSet fun value hValue => hSends value (List.mem_append_left _ hValue)
      have hInvariant := invariant_of_reachable (party_of_network hReach moving)
      refine ⟨?_, (hInvariant.effect hOutcome).inFlight_le hInvariant hWindow hInFlight⟩
      rw [Party.record_endpoint]
      cases call with
      | configure setting =>
          cases setting with
          | sendWindow value =>
              rw [ImKcpp.perform_configure hOutcome]
              exact hSends value (by simp)
          | _ => rwa [(hInvariant.perform_keeps_windows hOutcome nofun nofun).2]
      | input data =>
          obtain ⟨result, hInputs⟩ := ImKcpp.perform_input hOutcome
          obtain ⟨cwnd, incr, hController⟩ := ImKcpp.input_congestionController hInputs
          rw [hController]
          dsimp only
          have hGenuine := hInput data rfl
          have hPeer := party_of_network hReach moving.peer
          have hOpen : (net moving.peer).WindowSet w := by
            refine hSet.resolve_left fun hNone => ?_
            rw [calls_eq_nil_of_reachable hPeer hNone] at hGenuine
            cases hGenuine
          cases hLast : (scan host (net moving).endpoint.sharedCtx.conv data).1.getLast? with
          | none => exact hWindow
          | some frame =>
              have hFrame := List.mem_of_getLast? hLast
              rw [conv_of_reachable (party_of_network hReach moving)] at hFrame
              have hWnd := wnd_le_of_emitted hPeer hOpen frame
                  (scan_of_emitted hPeer hGenuine frame hFrame)
              rw [Option.map_some, Option.getD_some, UInt16.toNat_toUInt32]
              exact hWnd
      | _ => rwa [(hInvariant.perform_keeps_windows hOutcome nofun nofun).2]
    · rw [Function.update_self, Party.record_calls] at hSet
      rw [Function.update_of_ne side.ne_peer] at hSends ⊢
      refine hPrior ?_ hSends
      by_cases hStarted : (net side.peer).calls = []
      · exact .inl hStarted
      · have hRecord := hSet.resolve_left (by simp)
        exact .inr (Party.WindowSet.of_record hRecord hStarted).1

/-- The acknowledgements that a datagram calls for when nothing of it is outside the window. -/
def acksOf (frames : List Frame) : List Ack :=
  (frames.filter fun frame => decide (frame.header.cmd = Commands.push)).map
    fun frame => ⟨frame.header.sn, frame.header.ts⟩

/-- Inside the window all data is acknowledged, in the order of its arrival. -/
theorem ImKcpp.Invariant.dueAcks_eq {s : ImKcpp mtu} (h : s.Invariant) {frames : List Frame}
    (hFrames : ∀ frame ∈ frames, frame.Accepted s.sharedCtx.conv)
    (hInside : ∀ frame ∈ frames, frame.header.cmd = Commands.push →
      frame.header.sn.toNat < s.receiver.rcvNxt.toNat + s.congestionController.rcvWnd.toNat)
    (hRoom : (frames.foldl ImKcpp.applyFrame s).receiver.rcvNxt.toNat +
      s.congestionController.rcvWnd.toNat < 2 ^ 32) : s.dueAcks frames = acksOf frames := by
  induction frames generalizing s with
  | nil => rfl
  | cons first rest ih =>
      have hFirst := hFrames first List.mem_cons_self
      have hOnward := h.applyFrame_onward hFirst
      have hNextLe := UInt32.le_iff_toNat_le.mp hOnward.next_le
      have hRest : ∀ other ∈ rest, other.Accepted (s.applyFrame first).sharedCtx.conv := by
        rw [applyFrame_sharedCtx]
        exact fun other hOther => hFrames other (List.mem_cons_of_mem _ hOther)
      have hLater := (h.applyFrame hFirst).foldl_induct
        (P := fun t => (s.applyFrame first).receiver.Onward t.receiver)
        (fun t other hPrior hOther hSoFar =>
          hSoFar.trans (hPrior.applyFrame_onward hOther)) hRest (.refl _)
      have hLaterLe := UInt32.le_iff_toNat_le.mp hLater.next_le
      rw [List.foldl_cons] at hRoom
      rw [dueAcks, ih (h.applyFrame hFirst) hRest]
      · rw [acksOf, acksOf]
        by_cases hPush : first.header.cmd = Commands.push
        · have hEnd : (s.receiver.rcvNxt + s.congestionController.rcvWnd).toNat =
              s.receiver.rcvNxt.toNat + s.congestionController.rcvWnd.toNat := by
            rw [UInt32.toNat_add]
            omega
          have hOpen : first.header.sn < s.receiver.rcvNxt + s.congestionController.rcvWnd := by
            rw [UInt32.lt_iff_toNat_lt, hEnd]
            exact hInside first List.mem_cons_self hPush
          simp [hPush, hOpen]
        · simp [hPush]
      · intro other hOther hPush
        have hBound := hInside other (List.mem_cons_of_mem _ hOther) hPush
        rw [applyFrame_rcvWnd]
        omega
      · rwa [applyFrame_rcvWnd]

/-- What has been emitted has a number that has been given out, and the fragment of its place. -/
theorem Link.genuine {a b : Party mtu} {s : SelectiveRepeat.State (Fragment UInt8)}
    (h : Link host a b s) (hProtocol : SelectiveRepeat.Invariant s) {frame : Frame}
    (hFrame : frame ∈ a.emittedFrames host) (hPush : frame.header.cmd = Commands.push) :
    frame.header.sn < a.endpoint.segmentTracker.sndNxt ∧
      s.produced[frame.header.sn.toNat]? = some ⟨frame.header.frg.toNat, frame.payload⟩ := by
  obtain ⟨hAssigned, hItem⟩ := hProtocol.packets _ (h.packets frame hFrame hPush)
  rw [h.assigned_eq] at hAssigned
  exact ⟨UInt32.lt_iff_toNat_lt.mpr hAssigned, hItem⟩

/-- As long as the reader leaves room in its queue and no larger send window is set, no
data that arrives is lost: whatever its order and however often it comes, all of it is
acknowledged, and its payload is in its place. -/
theorem arrivals_kept (hReach : (networkSystem host mtu conv).Reachable net)
    (hSet : (net side.peer).WindowSet w)
    (hSends : ∀ value, .configure (.sendWindow value) ∈ (net side).calls →
      value.toNat ≤ max w.toNat 128)
    (hRoom : (net side.peer).endpoint.receiver.rcvQueue.length < w.toNat)
    (hNumbers : (net side).endpoint.segmentTracker.sndNxt.toNat + max w.toNat 128 < 2 ^ 32)
    {data : List UInt8} (hData : data ∈ (net side).emitted) {outcome : Outcome mtu}
    (hOutcome : (net side.peer).endpoint.perform host (.input data) = .ok outcome) :
    outcome.state.ackController.acklist =
        (net side.peer).endpoint.ackController.acklist ++ acksOf (framesOf host data) ∧
      ∀ frame ∈ framesOf host data, frame.header.cmd = Commands.push →
        ((net side.peer).record (.input data) outcome).received[frame.header.sn.toNat]? =
            some ⟨frame.header.frg.toNat, frame.payload⟩ ∨
          ∃ held ∈ outcome.state.receiver.rcvBuf, held.header.sn = frame.header.sn ∧
            held.fragment = ⟨frame.header.frg.toNat, frame.payload⟩ := by
  have hPeer := party_of_network hReach side.peer
  have hInvariant := invariant_of_reachable hPeer
  have hWindowed := windowed_of_reachable hPeer hSet
  have hRcvWnd : (net side.peer).endpoint.congestionController.rcvWnd.toNat = max w.toNat 128 := by
    rw [hWindowed.rcvWnd_eq]
    exact toNat_max w 128
  have hUna := UInt32.le_iff_toNat_le.mp (una_le_of_room hReach hWindowed hRoom)
  have hInFlight := (inFlight_of_network hReach hSet hSends).2
  obtain ⟨s, hProtocol, hLink⟩ := link_of_reachable hReach side
  -- the network after the arrival
  have hNext : (networkSystem host mtu conv).Reachable
      (Function.update net side.peer ((net side.peer).record (.input data) outcome)) :=
    hReach.step ⟨side.peer, .input data, _, ⟨outcome, hOutcome, rfl⟩, fun other hSame => by
      obtain rfl := Call.input.inj hSame
      rwa [Side.peer_peer], rfl⟩
  have hNextLe := UInt32.le_iff_toNat_le.mp (rcvNxt_le_sndNxt hNext side)
  obtain ⟨later, hLater, hLinkLater⟩ := link_of_reachable hNext side
  rw [Function.update_self, Function.update_of_ne side.ne_peer] at hNextLe hLinkLater
  rw [Party.record_endpoint] at hNextLe
  -- the datagram is a datagram of the peer
  obtain ⟨frames, rfl, hFrames⟩ := wire_of_emitted (party_of_network hReach side) data hData
  have hScan := scan_wire host (net side.peer).endpoint.sharedCtx.conv frames
  rw [conv_of_reachable hPeer] at hScan
  have hFramesOf := framesOf_wire host frames fun frame hFrame => (hFrames frame hFrame).2
  obtain ⟨result, hInput⟩ := ImKcpp.perform_input hOutcome
  have hReceiver := ImKcpp.input_receiver hInput
  have hEmitted : ∀ frame ∈ frames, frame ∈ (net side).emittedFrames host := fun frame hFrame =>
    scan_of_emitted (party_of_network hReach side) hData frame (by rwa [hScan hFrames])
  have hDue : (net side.peer).endpoint.dueAcks frames = acksOf frames := by
    refine hInvariant.dueAcks_eq ?_ ?_ ?_
    · rw [conv_of_reachable hPeer]
      exact fun frame hFrame => (hFrames frame hFrame).1
    · intro frame hFrame hPush
      have hGiven :=
        UInt32.lt_iff_toNat_lt.mp (hLink.genuine hProtocol (hEmitted frame hFrame) hPush).1
      omega
    · rw [hReceiver, conv_of_reachable hPeer, hScan hFrames] at hNextLe
      have hLe : (frames.foldl ImKcpp.applyFrame (net side.peer).endpoint).receiver.rcvNxt.toNat ≤
          (net side).endpoint.segmentTracker.sndNxt.toNat := hNextLe
      omega
  have hIdle : ¬(net side.peer).endpoint.flushes (.input (wire host frames)) = true :=
    Bool.false_ne_true
  have hList := (hInvariant.effect hOutcome).acklist_eq
  rw [if_neg hIdle, Event.dueAcks] at hList
  dsimp only at hList
  rw [conv_of_reachable hPeer, hScan hFrames, hDue] at hList
  rw [hFramesOf]
  refine ⟨hList, fun frame hFrame hPush => ?_⟩
  have hItem := (hLinkLater.genuine hLater (hEmitted frame hFrame) hPush).2
  have hAck : (⟨frame.header.sn, frame.header.ts⟩ : Ack) ∈
      ((net side.peer).record (.input (wire host frames)) outcome).dueAcks host := by
    rw [Party.record_dueAcks, Event.dueAcks]
    dsimp only
    rw [conv_of_reachable hPeer, hScan hFrames, hDue, List.mem_append, acksOf]
    exact .inr (List.mem_map_of_mem (List.mem_filter.mpr ⟨hFrame, decide_eq_true hPush⟩))
  have hStored := hLater.acks _ (hLinkLater.acks _ hAck)
  rcases hLater.eq_of_stored hItem hStored with hDelivered | hHeld
  · rw [hLinkLater.delivered_eq] at hDelivered
    exact .inl hDelivered
  · rw [hLinkLater.held_eq, mem_items] at hHeld
    obtain ⟨held, hHeld, hSame⟩ := hHeld
    obtain ⟨hSn, hFragment⟩ := Prod.mk.inj hSame
    exact .inr ⟨held, hHeld, UInt32.toNat_inj.mp hSn, hFragment⟩

/-- The second of two segments comes first, and is held and acknowledged. -/
theorem arrivals_kept_second :
    ∃ (net : Network .least) (outcome : Outcome .least),
      (networkSystem Host.x8664 .least 0).Reachable net ∧
      (net .right).endpoint.perform Host.x8664 (.input (fragmentDatagram 1 0 2)) = .ok outcome ∧
      outcome.state.receiver.rcvBuf.map Segment.data = [[2]] ∧
      outcome.state.ackController.acklist = (net .right).endpoint.ackController.acklist ++
        acksOf (framesOf Host.x8664 (fragmentDatagram 1 0 2)) := by
  have hSend : ((Party.fresh .least 0).run Host.x8664 (sendTwo 2)).map
      (fun party => (party.emitted, party.endpoint.segmentTracker.sndNxt)) =
      .ok ([fragmentDatagram 0 1 1, fragmentDatagram 1 0 2], 2) := by decide +kernel
  have hOpen : ((Party.fresh .least 0).run Host.x8664 [.configure (.receiveWindow 2)]).bind
      (fun party =>
      (party.endpoint.perform Host.x8664 (.input (fragmentDatagram 1 0 2))).map fun outcome =>
        (party.endpoint.receiver.rcvQueue.length, outcome.state.receiver.rcvBuf.map Segment.data)) =
      .ok (0, [[2]]) := by decide +kernel
  obtain ⟨left, hLeft, hSent⟩ := map_eq_ok.mp hSend
  obtain ⟨hEmitted, hNxt⟩ := Prod.mk.inj hSent
  obtain ⟨right, hRight, hArrival⟩ := bind_eq_ok.mp hOpen
  obtain ⟨outcome, hOutcome, hBoth⟩ := map_eq_ok.mp hArrival
  obtain ⟨hQueue, hHeld⟩ := Prod.mk.inj hBoth
  have hReach := reachable_exchange hLeft hRight (by simp [sendTwo]) (by simp)
  refine ⟨_, outcome, hReach, hOutcome, hHeld, ?_⟩
  have hSet : right.WindowSet 2 := ⟨_, Party.calls_run hRight, by simp⟩
  refine (@arrivals_kept .least Host.x8664 0 2 _ .left hReach hSet ?_ ?_ ?_ _ ?_ _ hOutcome).1
  · intro value hValue
    have hCalls : .configure (.sendWindow value) ∈ left.calls := hValue
    rw [Party.calls_run hLeft] at hCalls
    simp [sendTwo, Party.calls, Party.fresh] at hCalls
  · have hEmpty : right.endpoint.receiver.rcvQueue.length < 2 := by rw [hQueue]; decide
    exact hEmpty
  · have hTwo : left.endpoint.segmentTracker.sndNxt.toNat + 128 < 2 ^ 32 := by rw [hNxt]; decide
    exact hTwo
  · have hMem : fragmentDatagram 1 0 2 ∈ left.emitted := by rw [hEmitted]; simp
    exact hMem

end Network

end Imkcpp
