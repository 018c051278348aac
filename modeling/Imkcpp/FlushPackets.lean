import Imkcpp.Emission

/-! Packetisation and accounting of a flush. The acknowledgements it sends are
those that the history calls for, and its counters are those of its segments. -/
namespace Imkcpp

open Transition OrderedList

variable {mtu : Mtu} {host : Host}

namespace ImKcpp

section Pending

theorem applyPush_acklist (s : ImKcpp mtu) (frame : Frame) :
    (s.applyPush frame).ackController.acklist = s.ackController.acklist ++
      if frame.header.sn < s.receiver.rcvNxt + s.congestionController.rcvWnd then
        [⟨frame.header.sn, frame.header.ts⟩] else [] := by
  unfold ImKcpp.applyPush CongestionController.fitsReceiveWindow
  by_cases hInside : frame.header.sn < s.receiver.rcvNxt + s.congestionController.rcvWnd
  · rw [if_pos hInside, decide_eq_true hInside, Bool.not_true, if_neg Bool.false_ne_true]
    dsimp only
    split_ifs <;> rfl
  · rw [if_neg hInside, decide_eq_false hInside, Bool.not_false, if_pos rfl, List.append_nil]

/-- A segment calls for at most one acknowledgement. -/
theorem applyFrame_acklist (s : ImKcpp mtu) (frame : Frame) :
    (s.applyFrame frame).ackController.acklist = s.ackController.acklist ++
      if frame.header.cmd = Commands.push ∧
          frame.header.sn < s.receiver.rcvNxt + s.congestionController.rcvWnd then
        [⟨frame.header.sn, frame.header.ts⟩] else [] := by
  unfold ImKcpp.applyFrame
  dsimp only
  by_cases hPush : frame.header.cmd = Commands.push
  · rw [if_pos hPush, applyPush_acklist]
    simp only [hPush, true_and]
    rfl
  · simp only [hPush, if_false, false_and, List.append_nil]
    split_ifs <;> rfl

theorem foldl_applyFrame_acklist (frames : List Frame) (s : ImKcpp mtu) :
    (frames.foldl ImKcpp.applyFrame s).ackController.acklist =
      s.ackController.acklist ++ s.dueAcks frames := by
  induction frames generalizing s with
  | nil => exact (List.append_nil _).symm
  | cons frame rest ih =>
      rw [List.foldl_cons, ih, applyFrame_acklist, dueAcks, List.append_assoc]

/-- An executed flush clears the list, and only `input` adds to it. -/
theorem Effect.acklist_eq {s : ImKcpp mtu} {call : Call} {outcome : Outcome mtu}
    (h : Effect host s call outcome) :
    outcome.state.ackController.acklist =
      if s.flushes call then []
      else s.ackController.acklist ++ (⟨s, call, outcome⟩ : Event mtu).dueAcks host := by
  cases h with
  | configure => exact (List.append_nil _).symm
  | input data folded sndBuf controller result hFolded =>
      rw [hFolded]
      exact foldl_applyFrame_acklist _ s
  | recvRefused => exact (List.append_nil _).symm
  | recv => exact (List.append_nil _).symm
  | sendRefused => exact (List.append_nil _).symm
  | send => exact (List.append_nil _).symm
  | check => exact (List.append_nil _).symm
  | idle call start hIdleStart hIdle =>
      rw [hIdle, if_neg Bool.false_ne_true]
      cases hIdleStart <;> exact (List.append_nil _).symm
  | flush call start next packets result askSend askTell hFlushStart hFlushes hFlushed =>
      rw [hFlushes, if_pos rfl, hFlushed.acks_cleared]
      rfl

@[simp] theorem applyFrame_updated (s : ImKcpp mtu) (frame : Frame) :
    (s.applyFrame frame).updated = s.updated := by
  unfold ImKcpp.applyFrame ImKcpp.applyPush
  dsimp only
  split_ifs <;> rfl

@[simp] theorem foldl_applyFrame_updated (frames : List Frame) (s : ImKcpp mtu) :
    (frames.foldl ImKcpp.applyFrame s).updated = s.updated :=
  foldl_applyFrame_eq ImKcpp.updated applyFrame_updated frames s

/-- An endpoint that has been updated stays so, and `update` makes it so. -/
theorem Effect.updated {s : ImKcpp mtu} {call : Call} {outcome : Outcome mtu}
    (h : Effect host s call outcome)
    (hUpdated : s.updated = true ∨ ∃ current, call = .update current) :
    outcome.state.updated = true := by
  have hStart {call : Call} {start : ImKcpp mtu} (hStart : s.FlushStart call start)
      (hUpdated : s.updated = true ∨ ∃ current, call = .update current) : start.updated = true := by
    cases hStart with
    | flush => simpa using hUpdated
    | update current tsFlush => rfl
  cases h with
  | input data folded sndBuf controller result hFolded =>
      dsimp only
      rw [hFolded, foldl_applyFrame_updated]
      simpa using hUpdated
  | idle call start hIdleStart hIdle => exact hStart hIdleStart hUpdated
  | flush call start next packets result askSend askTell hFlushStart hFlushes hFlushed =>
      exact hFlushed.updated_eq.trans (hStart hFlushStart hUpdated)
  | _ => simpa using hUpdated

end Pending

end ImKcpp

section History

variable {conv : UInt32} {party : Party mtu}

/-- The list of acknowledgements is what the history calls for. -/
theorem acklist_of_reachable (h : (endpointSystem host mtu conv).Reachable party) :
    party.endpoint.ackController.acklist = party.pendingAcks host := by
  refine h.invariant (P := fun party =>
    party.endpoint.ackController.acklist = party.pendingAcks host) ?_ ?_
  · rintro party rfl
    rfl
  · rintro party next hReach hPending ⟨call, hStep⟩
    obtain ⟨outcome, hEffect, rfl⟩ := hStep.effect (invariant_of_reachable hReach)
    rw [Party.record_endpoint, Party.record_pendingAcks, hEffect.acklist_eq, hPending]

theorem updated_of_reachable (h : (endpointSystem host mtu conv).Reachable party) {current : UInt32}
    (hCalled : .update current ∈ party.calls) : party.endpoint.updated = true := by
  have hAll : ∀ current, .update current ∈ party.calls → party.endpoint.updated = true := by
    refine h.invariant (P := fun party =>
      ∀ current, .update current ∈ party.calls → party.endpoint.updated = true) ?_ ?_
    · rintro party rfl current hCalled
      exact absurd hCalled (by simp [Party.calls, Party.fresh])
    · rintro party next hReach hPrior ⟨call, hStep⟩ current hCalled
      obtain ⟨outcome, hEffect, rfl⟩ := hStep.effect (invariant_of_reachable hReach)
      rw [Party.record_calls, List.mem_append, List.mem_singleton] at hCalled
      rcases hCalled with hCalled | hCalled
      · exact hEffect.updated (.inl (hPrior current hCalled))
      · exact hEffect.updated (.inr ⟨current, hCalled.symm⟩)
  exact hAll current hCalled

end History

/-- What one flush hands to the callback: whole segments in datagrams that fit,
the pending acknowledgements first, then at most one probe of each kind, then
data in order; and what it reports of it. -/
structure Packetised (host : Host) (conv : UInt32) (pending : List Ack) (outcome : Outcome mtu)
    (packets : List (List Frame)) (acks wasks wins pushes : List Frame) (result : FlushResult) :
    Prop where
  response_eq : outcome.response = .flush result
  datagrams_eq : outcome.datagrams = packets.map (wire host)
  whole : ∀ packet ∈ packets, ∀ frame ∈ packet, frame.Accepted conv ∧ frame.WellFormed
  sizes : ∀ datagram ∈ outcome.datagrams, 24 ≤ datagram.length ∧ datagram.length ≤ mtu.bytes
  frames_eq : packets.flatten = acks ++ wasks ++ wins ++ pushes
  acks_eq : acks.map (fun frame => (frame.header.cmd, frame.header.sn, frame.header.ts)) =
    pending.map fun ack => (Commands.ack, ack.sn, ack.ts)
  wasks_spec : wasks.length ≤ 1 ∧ ∀ frame ∈ wasks, frame.header.cmd = Commands.wask
  wins_spec : wins.length ≤ 1 ∧ ∀ frame ∈ wins, frame.header.cmd = Commands.wins
  pushes_cmd : ∀ frame ∈ pushes, frame.header.cmd = Commands.push
  pushes_increasing : (pushes.map fun frame => frame.header.sn).Pairwise (· < ·)
  ackCount : result.cmdAckCount = UInt32.ofNat (commandCount Commands.ack packets.flatten)
  waskCount : result.cmdWaskCount = UInt32.ofNat (commandCount Commands.wask packets.flatten)
  winsCount : result.cmdWinsCount = UInt32.ofNat (commandCount Commands.wins packets.flatten)
  pushCount : result.cmdPushCount = UInt32.ofNat (commandCount Commands.push packets.flatten)
  total_eq : result.totalBytesSent = (outcome.datagrams.map List.length).sum
  flusher_empty : outcome.state.flusher.offset = 0

/-- The numbers of the data of a flush, in the order of the buffer. -/
theorem Sender.map_sn_pushFrames (settings : FlushSettings) (sndBuf : List Segment) :
    (pushFrames settings sndBuf).map (fun frame => frame.header.sn) =
      (sndBuf.filter (isDue settings)).map fun seg => seg.header.sn := by
  rw [pushFrames, List.map_map]
  refine List.map_congr_left fun seg hSeg => ?_
  have hCore : (flushed settings seg).core = seg.core := flushed_core seg
  exact (Segment.core_eq_iff.mp hCore).2.2.2.1

theorem Sender.pushFrames_increasing {settings : FlushSettings} {sndBuf : List Segment}
    (h : Increasing Segment.key sndBuf) :
    ((pushFrames settings sndBuf).map fun frame => frame.header.sn).Pairwise (· < ·) := by
  rw [map_sn_pushFrames]
  refine List.pairwise_map.mpr ((h.sublist List.filter_sublist).imp ?_)
  exact fun hLt => UInt32.lt_iff_toNat_lt.mpr hLt

namespace ImKcpp

/-- The frames of a probe, if it is asked for. -/
theorem probeFrames_spec (s : ImKcpp mtu) (asked : Bool) (cmd : UInt8) :
    (if asked then [s.probeFrame cmd] else []).length ≤ 1 ∧
      ∀ frame ∈ (if asked then [s.probeFrame cmd] else []), frame.header.cmd = cmd := by
  cases asked <;> simp [probeFrame]

theorem ackFrames_cmd (s : ImKcpp mtu) :
    ∀ frame ∈ s.ackController.acklist.map (ackFrame s.serviceHeader),
      frame.header.cmd = Commands.ack := by
  intro frame hFrame
  obtain ⟨ack, -, rfl⟩ := List.mem_map.mp hFrame
  rfl

theorem Sending.pushFrames_cmd {s : ImKcpp mtu} (h : s.Sending) :
    ∀ frame ∈ Sender.pushFrames s.settings s.moved.2.1.sndBuf,
      frame.header.cmd = Commands.push := by
  intro frame hFrame
  obtain ⟨seg, hSeg, -, hHeader⟩ := Sender.mem_pushFrames hFrame
  rw [hHeader]
  exact (h.moved.inFlight seg hSeg).cmd_eq

/-- The frames of a flush that carry `PUSH` are the data of the buffer. -/
theorem Sending.filter_flushFrames {s : ImKcpp mtu} (h : s.Sending) (askSend askTell : Bool) :
    (s.flushFrames askSend askTell).filter
      (fun frame => decide (frame.header.cmd = Commands.push)) =
      Sender.pushFrames s.settings s.moved.2.1.sndBuf := by
  have hNone : ∀ cmd, cmd ≠ Commands.push → ∀ frames : List Frame,
      (∀ frame ∈ frames, frame.header.cmd = cmd) →
        frames.filter (fun frame => decide (frame.header.cmd = Commands.push)) = [] := by
    intro cmd hOther frames hCmd
    refine List.filter_eq_nil_iff.mpr fun frame hFrame => ?_
    rw [hCmd frame hFrame, decide_eq_true_eq]
    exact hOther
  have hData : ∀ frame ∈ Sender.pushFrames s.settings s.moved.2.1.sndBuf,
      decide (frame.header.cmd = Commands.push) = true :=
    fun frame hFrame => decide_eq_true (h.pushFrames_cmd frame hFrame)
  rw [flushFrames, List.filter_append, List.filter_append, List.filter_append,
    hNone Commands.ack (by decide) _ s.ackFrames_cmd,
    hNone Commands.wask (by decide) _ (s.probeFrames_spec askSend Commands.wask).2,
    hNone Commands.wins (by decide) _ (s.probeFrames_spec askTell Commands.wins).2,
    List.filter_eq_self.mpr hData, List.nil_append, List.nil_append, List.nil_append]

/-- How often each command occurs among the frames of a flush. -/
theorem Sending.commandCount_flushFrames {s : ImKcpp mtu} (h : s.Sending) (askSend askTell : Bool)
    (cmd : UInt8) : commandCount cmd (s.flushFrames askSend askTell) =
      (if cmd = Commands.ack then s.ackController.acklist.length else 0) +
      (if cmd = Commands.wask then if askSend then 1 else 0 else 0) +
      (if cmd = Commands.wins then if askTell then 1 else 0 else 0) +
      (if cmd = Commands.push then
        (Sender.pushFrames s.settings s.moved.2.1.sndBuf).length else 0) := by
  rw [flushFrames]
  simp only [commandCount_append, commandCount_of_forall s.ackFrames_cmd,
    commandCount_of_forall (s.probeFrames_spec askSend Commands.wask).2,
    commandCount_of_forall (s.probeFrames_spec askTell Commands.wins).2,
    commandCount_of_forall h.pushFrames_cmd, List.length_map]
  cases askSend <;> cases askTell <;> rfl

theorem Flushed.packetised {s next : ImKcpp mtu} {packets : List (List Frame)}
    {result : FlushResult} {askSend askTell : Bool}
    (h : Flushed host s next packets result askSend askTell) (hSending : s.Sending) :
    Packetised host s.sharedCtx.conv s.ackController.acklist
      { state := next, response := .flush result, datagrams := packets.map (wire host) } packets
      (s.ackController.acklist.map (ackFrame s.serviceHeader))
      (if askSend then [s.probeFrame Commands.wask] else [])
      (if askTell then [s.probeFrame Commands.wins] else [])
      (Sender.pushFrames s.settings s.moved.2.1.sndBuf) result := by
  have hCount := hSending.commandCount_flushFrames askSend askTell
  rw [← h.frames_eq] at hCount
  refine {
    response_eq := rfl
    datagrams_eq := rfl
    whole := ?_
    sizes := ?_
    frames_eq := h.frames_eq
    acks_eq := ?_
    wasks_spec := s.probeFrames_spec askSend Commands.wask
    wins_spec := s.probeFrames_spec askTell Commands.wins
    pushes_cmd := hSending.pushFrames_cmd
    pushes_increasing := Sender.pushFrames_increasing hSending.moved.increasing
    ackCount := ?_
    waskCount := ?_
    winsCount := ?_
    pushCount := ?_
    total_eq := h.total_eq
    flusher_empty := h.flusher_empty }
  · intro packet hPacket frame hFrame
    have hIssued := h.issued hSending frame (List.mem_flatten.mpr ⟨packet, hPacket, hFrame⟩)
    exact ⟨hIssued.accepted, hIssued.wellFormed⟩
  · intro datagram hDatagram
    obtain ⟨packet, hPacket, rfl⟩ := List.mem_map.mp hDatagram
    obtain ⟨hNonempty, hFits⟩ := h.packets_fit packet hPacket
    exact ⟨le_wire_length host hNonempty, hFits⟩
  · rw [List.map_map]
    rfl
  · rw [h.ackCount, hCount]
    rfl
  · rw [h.waskCount, hCount]
    cases askSend <;> rfl
  · rw [h.winsCount, hCount]
    cases askTell <;> rfl
  · rw [h.pushCount, hCount]
    simp [Commands.push, Commands.ack, Commands.wask, Commands.wins]

end ImKcpp

/-- Once `update` has been called, `flush` flushes; and whichever call flushes in
a reachable state, it sends and reports what the history calls for. -/
theorem flush_packetised {conv : UInt32} {party : Party mtu}
    (hReach : (endpointSystem host mtu conv).Reachable party) :
    ((∃ current, .update current ∈ party.calls) → party.endpoint.flushes .flush = true) ∧
    ∀ call, party.endpoint.flushes call = true →
      ∃ outcome packets acks wasks wins pushes result,
        party.endpoint.perform host call = .ok outcome ∧
        Packetised host conv (party.pendingAcks host) outcome packets acks wasks wins
          pushes result := by
  have hInvariant := invariant_of_reachable hReach
  refine ⟨fun ⟨current, hCalled⟩ => updated_of_reachable hReach hCalled, ?_⟩
  intro call hFlushes
  rw [← acklist_of_reachable hReach, ← conv_of_reachable hReach]
  rcases hInvariant.perform host call with
    ⟨outcome, hOutcome, hEffect⟩ | ⟨hZero, -⟩ | ⟨buffer, rfl, -⟩
  · cases hEffect with
    | idle call start hStart hIdle => exact absurd hFlushes (hIdle ▸ Bool.false_ne_true)
    | flush call start next packets result askSend askTell hStart hFlush hFlushed =>
        have hPacketised := hFlushed.packetised (hStart.invariant hInvariant).toSending
        rw [hStart.conv_eq, hStart.ackController_eq] at hPacketised
        exact ⟨_, packets, _, _, _, _, result, hOutcome, hPacketised⟩
    | _ => cases hFlushes
  · rcases hZero with rfl | rfl <;> cases hFlushes
  · cases hFlushes

/-- Calls that leave data unacknowledged, the window of the peer closed, and two segments
and a probe from the peer unanswered. -/
def busyCalls : List Call :=
  [.configure (.congestionWindowEnabled false), .send [1], .update 0,
    .input (wire Host.x8664 [⟨{ cmd := Commands.wins }, []⟩]), .update 100,
    .input (wire Host.x8664 [⟨{ cmd := Commands.push, len := 1 }, [7]⟩,
      ⟨{ cmd := Commands.wask }, []⟩, ⟨{ cmd := Commands.push, sn := 1, len := 1 }, [8]⟩])]

/-- Seven seconds later there is something of every kind to be sent: the four headers fill
a datagram, and the data goes to a second one. -/
theorem flush_packetised_busy :
    ∃ party : Party ⟨100, by decide⟩,
      (Party.fresh ⟨100, by decide⟩ 0).run Host.x8664 busyCalls = .ok party ∧
      ∃ outcome packets acks wasks wins pushes,
        party.endpoint.perform Host.x8664 (.update 7200) = .ok outcome ∧
        outcome.datagrams.map List.length = [96, 25] ∧
        Packetised Host.x8664 0 (party.pendingAcks Host.x8664) outcome packets acks
          wasks wins pushes {
          cmdAckCount := 2
          cmdWaskCount := 1
          cmdWinsCount := 1
          cmdPushCount := 1
          timeoutRetransmittedCount := 1
          totalBytesSent := 121 } := by
  have hRuns : (Party.fresh ⟨100, by decide⟩ 0).run Host.x8664 busyCalls >>= (fun party =>
      (party.endpoint.update Host.x8664 7200).map fun flushed =>
        (party.endpoint.flushes (.update 7200), flushed.2.1.map List.length, flushed.2.2)) =
      .ok (true, [96, 25], {
        cmdAckCount := 2
        cmdWaskCount := 1
        cmdWinsCount := 1
        cmdPushCount := 1
        timeoutRetransmittedCount := 1
        totalBytesSent := 121 }) := by decide +kernel
  obtain ⟨party, hRun, hUpdates⟩ := bind_eq_ok.mp hRuns
  obtain ⟨⟨state, datagrams, counts⟩, hUpdate, hFacts⟩ := map_eq_ok.mp hUpdates
  simp only [Prod.mk.injEq] at hFacts
  obtain ⟨hFlushes, hLengths, rfl⟩ := hFacts
  obtain ⟨outcome, packets, acks, wasks, wins, pushes, result, hOutcome, hPacketised⟩ :=
    (flush_packetised (Party.reachable_run (.of_init rfl) hRun)).2 (.update 7200) hFlushes
  have hPerform := hOutcome
  rw [ImKcpp.perform, hUpdate, ok_bind] at hPerform
  obtain rfl := Except.ok.inj hPerform
  obtain rfl := Response.flush.inj hPacketised.response_eq
  exact ⟨party, hRun, _, packets, acks, wasks, wins, pushes, hOutcome, hLengths, hPacketised⟩

end Imkcpp
