import Imkcpp.Effect

/-! An endpoint with nothing to send. A flush of it hands nothing over and leaves
it in the same position, so it stays silent for as long as only `update` is called. -/
namespace Imkcpp

variable {mtu : Mtu} {host : Host}

namespace ImKcpp

/-- No new data and no probes wait to be sent, and the remote window is open. -/
structure Calm (s : ImKcpp mtu) : Prop extends s.Invariant where
  unsent : s.sender.sndQueue = []
  unasked : s.windowProber.probe = 0
  window : s.congestionController.rmtWnd ≠ 0

/-- Nor do acknowledgements. -/
structure Answered (s : ImKcpp mtu) : Prop extends s.Calm where
  answered : s.ackController.acklist = []

/-- Nor does anything that has been sent wait to be acknowledged. -/
structure Quiet (s : ImKcpp mtu) : Prop extends s.Answered where
  acknowledged : s.senderBuffer.sndBuf = []

/-- What a flush with nothing to send leaves as it is. -/
structure Standing where
  conv : UInt32
  segmentTracker : SegmentTracker
  receiver : Receiver
  congestionWindow : Bool
  rcvWnd : UInt32
  sndWnd : UInt32
  rmtWnd : UInt32

def standing (s : ImKcpp mtu) : Standing where
  conv := s.sharedCtx.conv
  segmentTracker := s.segmentTracker
  receiver := s.receiver
  congestionWindow := s.congestionController.congestionWindow
  rcvWnd := s.congestionController.rcvWnd
  sndWnd := s.congestionController.sndWnd
  rmtWnd := s.congestionController.rmtWnd

/-- A flush behind an open remote window sends the probes that are asked for. If
the window takes all new data, then nothing is left to be sent for the first time. -/
theorem Invariant.flush_answered {s : ImKcpp mtu} (h : s.Invariant) (hUpdated : s.updated = true)
    (hWindow : s.congestionController.rmtWnd ≠ 0) (hQueue : s.moved.1 = []) (host : Host) :
    ∃ (next : ImKcpp mtu) (packets : List (List Frame)) (result : FlushResult),
      s.flush host = .ok (next, packets.map (wire host), result) ∧
      packets.flatten = s.flushFrames ((s.windowProber.probe &&& ProbeFlag.askSend.value) != 0)
        ((s.windowProber.probe &&& ProbeFlag.askTell.value) != 0) ∧
      (∀ packet ∈ packets, packet ≠ []) ∧ next.Answered ∧ next.updated = true ∧
      next.senderBuffer.sndBuf.map Segment.core = s.moved.2.1.sndBuf.map Segment.core ∧
      next.standing = { s.standing with segmentTracker := s.moved.2.2 } := by
  obtain ⟨next, packets, result, askSend, askTell, hFlush, hFlushed⟩ :=
    flush_spec host h.toSending hUpdated
  obtain ⟨prober, hProber, hSend, hTell⟩ := hFlushed.asks
  have hOpen : s.windowProber.update s.current s.congestionController.rmtWnd =
      .ok { s.windowProber with tsProbe := 0, probeWait := 0 } := by
    rw [WindowProber.update, if_pos (by simpa using hWindow)]
  obtain rfl := Except.ok.inj (hOpen.symm.trans hProber)
  have hFrames := hFlushed.frames_eq
  rw [hSend, hTell] at hFrames
  have hInvariant := hFlushed.invariant h
  have hRcvWnd := hFlushed.rcvWnd_eq
  have hFit := hFlushed.packets_fit
  obtain ⟨_, _, _, _, rfl, hProbe, hCongestion, hSndWnd, hRmtWnd⟩ := flush_shape hUpdated hFlush
  refine ⟨_, packets, result, hFlush, hFrames, fun packet hPacket => (hFit packet hPacket).1, ?_,
    hUpdated, Sender.map_flushed_core _, ?_⟩
  · exact { hInvariant with
      unsent := hQueue
      answered := rfl
      unasked := hProbe
      window := hRmtWnd ▸ hWindow }
  · dsimp only at hRcvWnd
    simp only [standing, hRcvWnd, hCongestion, hSndWnd, hRmtWnd]

/-- A flush with nothing to send. -/
theorem Quiet.flush {s : ImKcpp mtu} (h : s.Quiet) (hUpdated : s.updated = true) (host : Host) :
    ∃ next result, s.flush host = .ok (next, [], result) ∧ next.Quiet ∧ next.updated = true ∧
      next.standing = s.standing := by
  have hMoved : s.moved = ([], s.senderBuffer, s.segmentTracker) := by
    rw [moved, moveSendQueueToBuffer, h.unsent]
    rfl
  obtain ⟨next, packets, result, hFlush, hFrames, hWhole, hAnswered, hNext, hKept, hStanding⟩ :=
    h.toInvariant.flush_answered hUpdated h.window (congrArg Prod.fst hMoved) host
  have hNone : packets.flatten = [] := by
    rw [hFrames, h.unasked]
    simp [flushFrames, h.answered, hMoved, h.acknowledged, Sender.pushFrames]
  obtain rfl : packets = [] := by
    rw [List.eq_nil_iff_forall_not_mem]
    exact fun packet hPacket =>
      hWhole packet hPacket (List.flatten_eq_nil_iff.mp hNone packet hPacket)
  rw [hMoved, h.acknowledged, List.map_nil, List.map_eq_nil_iff] at hKept
  refine ⟨next, result, hFlush, { hAnswered with acknowledged := hKept }, hNext, ?_⟩
  rw [hStanding, hMoved]
  rfl

/-- Whether or not it flushes, an `update` with nothing to send is silent. -/
theorem Quiet.update {s : ImKcpp mtu} (h : s.Quiet) (host : Host) (current : UInt32) :
    ∃ next result, s.perform host (.update current) =
      .ok { state := next, response := .flush result } ∧
      next.Quiet ∧ next.updated = true ∧ next.standing = s.standing := by
  have hClock := s.updateClock_start current
  have hUpdated := hClock.updated
  dsimp only [ImKcpp.perform, ImKcpp.update]
  generalize (s.updateClock current).1 = start at hClock hUpdated
  have hStart : start.Quiet ∧ start.standing = s.standing := by
    cases hClock with
    | update current tsFlush =>
        exact ⟨{ h with
          toInvariant := (FlushStart.update current tsFlush).invariant h.toInvariant }, rfl⟩
  by_cases hDue : (s.updateClock current).2 = true
  · obtain ⟨next, result, hFlush, hNext, hNextUpdated, hStanding⟩ := hStart.1.flush hUpdated host
    rw [if_pos hDue, hFlush, ok_bind]
    exact ⟨next, result, rfl, hNext, hNextUpdated, hStanding.trans hStart.2⟩
  · rw [if_neg hDue, ok_bind]
    exact ⟨start, {}, rfl, hStart.1, hUpdated, hStart.2⟩

section Input

theorem applyFrame_rmtWnd (s : ImKcpp mtu) (frame : Frame) :
    (s.applyFrame frame).congestionController.rmtWnd = frame.header.wnd.toUInt32 :=
  congrArg CongestionController.rmtWnd (foldl_applyFrame_congestionController [frame] s)

/-- A segment other than a `WASK` that leaves the window open. -/
theorem Calm.applyFrame {s : ImKcpp mtu} (h : s.Calm) {frame : Frame}
    (hFrame : frame.Accepted s.sharedCtx.conv) (hCmd : frame.header.cmd ≠ Commands.wask)
    (hWindow : frame.header.wnd ≠ 0) : (s.applyFrame frame).Calm where
  toInvariant := h.toInvariant.applyFrame hFrame
  unsent := by rw [applyFrame_sender, h.unsent]
  unasked := by rw [s.applyFrame_windowProber hCmd, h.unasked]
  window := by
    rw [applyFrame_rmtWnd, ← UInt32.toNat_inj.ne, UInt16.toNat_toUInt32]
    exact fun hZero => hWindow (UInt16.toNat_inj.mp hZero)

/-- Metadata and the congestion window do not matter. -/
theorem Calm.refresh {s : ImKcpp mtu} (h : s.Calm) {sndBuf : List Segment}
    {controller : CongestionController}
    (hCore : sndBuf.map Segment.core = s.senderBuffer.sndBuf.map Segment.core)
    (hRmtWnd : controller.rmtWnd = s.congestionController.rmtWnd) :
    ({ s with senderBuffer := ⟨sndBuf⟩, congestionController := controller } : ImKcpp mtu).Calm :=
  { h with
    sender := h.sender.refresh hCore
    window := hRmtWnd ▸ h.window }

end Input

end ImKcpp

/-- No number of updates makes a quiet endpoint send anything. -/
theorem Party.run_updates_of_quiet {party : Party mtu} (h : party.endpoint.Quiet) (host : Host)
    (times : List UInt32) :
    ∃ last, party.run host (times.map .update) = .ok last ∧ last.endpoint.Quiet ∧
      last.emitted = party.emitted := by
  refine Party.run_induct (P := fun last => last.endpoint.Quiet ∧
    last.emitted = party.emitted) ?_ ⟨h, rfl⟩
  intro last call hCall hLast
  obtain ⟨hQuiet, hEmitted⟩ := hLast
  obtain ⟨current, -, rfl⟩ := List.mem_map.mp hCall
  obtain ⟨next, result, hOutcome, hNext, -⟩ := hQuiet.update host current
  refine ⟨_, hOutcome, hNext, ?_⟩
  rw [Party.record_emitted, List.append_nil, hEmitted]

section Opening

/-- The calls with which both endpoints start: both windows, and one update. -/
def opening (S R now : UInt32) : List Call :=
  [.configure (.sendWindow S), .configure (.receiveWindow R), .update now]

/-- An endpoint behind these calls. -/
structure ImKcpp.Opened (s : ImKcpp mtu) (conv S R : UInt32) (congestionWindow : Bool) : Prop
    extends s.Quiet where
  updated_eq : s.updated = true
  standing_eq : s.standing = {
    conv
    segmentTracker := {}
    receiver := { queueLimit := R }
    congestionWindow
    rcvWnd := max R Constants.ikcpWndRcv
    sndWnd := S
    rmtWnd := S }

theorem ImKcpp.Opened.receiver_eq {s : ImKcpp mtu} {conv S R : UInt32} {congestionWindow : Bool}
    (h : s.Opened conv S R congestionWindow) : s.receiver = { queueLimit := R } :=
  congrArg Standing.receiver h.standing_eq

theorem ImKcpp.Opened.rcvWnd_toNat {s : ImKcpp mtu} {conv S R : UInt32} {congestionWindow : Bool}
    (h : s.Opened conv S R congestionWindow) :
    s.congestionController.rcvWnd.toNat = max R.toNat 128 := by
  have hMax : s.congestionController.rcvWnd = max R Constants.ikcpWndRcv :=
    congrArg Standing.rcvWnd h.standing_eq
  rw [hMax]
  exact toNat_max R 128

/-- They succeed on a fresh endpoint, and nothing is sent. -/
theorem Party.run_opening {conv S R : UInt32} (hS : 0 < S) (hR : 0 < R) (host : Host) (now : UInt32)
    {party : Party mtu} {congestionWindow : Bool}
    (hParty : party.endpoint =
      (ImKcpp.create mtu conv).setCongestionWindowEnabled congestionWindow) :
    ∃ next, party.run host (opening S R now) = .ok next ∧
      next.endpoint.Opened conv S R congestionWindow ∧
      next.emitted = party.emitted ∧ next.returned = party.returned := by
  obtain ⟨ready, hReady⟩ : ∃ ready : ImKcpp mtu, ready = { ImKcpp.create mtu conv with
      congestionController := {
        congestionWindow
        rcvWnd := max R Constants.ikcpWndRcv
        sndWnd := S
        rmtWnd := S }
      receiver := { queueLimit := R } } := ⟨_, rfl⟩
  have hQuiet : ready.Quiet := by
    subst hReady
    exact {
      flusher_empty := rfl
      sender := SenderInvariant.init mtu conv
      receiver := ReceiverInvariant.init R
      unsent := rfl
      answered := rfl
      unasked := rfl
      window := UInt32.pos_iff_ne_zero.mp hS
      acknowledged := rfl }
  obtain ⟨next, result, hUpdate, hNext, hUpdated, hStanding⟩ := hQuiet.update host now
  obtain ⟨endpoint, history⟩ := party
  obtain rfl := hParty
  have hFirst : ((ImKcpp.create mtu conv).setCongestionWindowEnabled congestionWindow).perform host
      (.configure (.sendWindow S)) = .ok { state := { ImKcpp.create mtu conv with
        congestionController := { ready.congestionController with
          rcvWnd := Constants.ikcpWndRcv } } } := by
    rw [hReady, ImKcpp.perform, ImKcpp.configure, ImKcpp.setSendWindow, assert_of_true hS]
    rfl
  have hSecond : ({ ImKcpp.create mtu conv with
      congestionController := { ready.congestionController with
        rcvWnd := Constants.ikcpWndRcv } } : ImKcpp mtu).perform host
          (.configure (.receiveWindow R)) = .ok { state := ready } := by
    rw [hReady, ImKcpp.perform, ImKcpp.configure, ImKcpp.setReceiveWindow, assert_of_true hR]
    rfl
  have hStart : ready.standing = {
      conv
      segmentTracker := {}
      receiver := { queueLimit := R }
      congestionWindow
      rcvWnd := max R Constants.ikcpWndRcv
      sndWnd := S
      rmtWnd := S } := by
    rw [hReady]
    rfl
  refine ⟨_, (run_cons hFirst).trans ((run_cons hSecond).trans ((run_cons hUpdate).trans rfl)), ?_⟩
  refine ⟨⟨hNext, hUpdated, hStanding.trans hStart⟩, ?_, ?_⟩
  · simp
  · simp [Event.returned]

end Opening

end Imkcpp
