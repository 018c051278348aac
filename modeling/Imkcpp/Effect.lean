import Imkcpp.EndpointInvariant

/-! What a call on an endpoint can do, said once. `Effect` lists the outcomes of
every call; every later result about runs is a case analysis on it. -/
namespace Imkcpp

open Transition Fragmentation

variable {mtu : Mtu} {host : Host}

namespace ImKcpp

/-- The state in which a call that flushes starts its flush. -/
inductive FlushStart (s : ImKcpp mtu) : Call → ImKcpp mtu → Prop where
  | flush : FlushStart s .flush s
  | update (current tsFlush : UInt32) :
      FlushStart s (.update current) { s with current, updated := true, tsFlush }

inductive Effect (host : Host) (s : ImKcpp mtu) : Call → Outcome mtu → Prop where
  | configure (setting : Setting) (interval : UInt32) (rtoCalculator : RtoCalculator)
      (controller : CongestionController)
        (queueLimit fastresend fastlimit nodelay deadLink : UInt32)
      (hSetting : s.configure setting = .ok { s with
        sharedCtx := { s.sharedCtx with interval }
        rtoCalculator
        congestionController := controller
        receiver := { s.receiver with queueLimit }
        sender := { s.sender with fastresend, fastlimit, nodelay, deadLink } }) :
      Effect host s (.configure setting) { state := { s with
        sharedCtx := { s.sharedCtx with interval }
        rtoCalculator
        congestionController := controller
        receiver := { s.receiver with queueLimit }
        sender := { s.sender with fastresend, fastlimit, nodelay, deadLink } } }
  | input (data : List UInt8) (folded : ImKcpp mtu) (sndBuf : List Segment)
      (controller : CongestionController) (result : Except Error InputResult)
      (hFolded : folded = (scan host s.sharedCtx.conv data).1.foldl ImKcpp.applyFrame s)
      (hCore : sndBuf.map Segment.core = folded.senderBuffer.sndBuf.map Segment.core)
      (hRcvWnd : controller.rcvWnd = folded.congestionController.rcvWnd)
      (hTotal : ∀ counts, result = .ok counts → counts.totalBytesReceived ≤ data.length) :
      Effect host s (.input data) {
        state := { folded with senderBuffer := ⟨sndBuf⟩, congestionController := controller }
        response := .input result }
  | recvRefused {n : Nat} (buffer : Vector UInt8 n) (error : Error)
      (hRefused : s.receiver.Ready →
        n < (joinFirst (s.receiver.rcvQueue.map Segment.fragment)).1.length) :
      Effect host s (.recv buffer) { state := s, response := .recv (.error error) }
  | recv {n : Nat} (buffer : Vector UInt8 n) (rest : List Segment) (windowProber : WindowProber)
      (hReady : s.receiver.Ready) (hSuffix : rest <:+ s.receiver.rcvQueue)
      (hRest : (∀ seg ∈ s.receiver.rcvQueue, seg.data ≠ []) →
        rest.map Segment.fragment = (joinFirst (s.receiver.rcvQueue.map Segment.fragment)).2) :
      Effect host s (.recv buffer) {
        state := { s with
          receiver := { s.receiver with rcvQueue := rest }.moveReceiveBufferToQueue
          windowProber }
        response := .recv (.ok (joinFirst (s.receiver.rcvQueue.map Segment.fragment)).1) }
  | sendRefused (buffer : List UInt8) (error : Error) :
      Effect host s (.send buffer) { state := s, response := .send (.error error) }
  | send (buffer : List UInt8) (finish : Nat) (hBuffer : buffer ≠ [])
      (hCount : Sender.estimateSegmentsCount mtu buffer.length ≤ 255)
      (hWindow : Sender.estimateSegmentsCount mtu buffer.length ≤
        s.congestionController.rcvWnd.toNat)
      (hSmall : ∀ piece ∈ fragments mtu buffer, piece.payload.length < 2 ^ 32) :
      Effect host s (.send buffer) {
        state := { s with sender := { s.sender with
          sndQueue := s.sender.sndQueue ++ (fragments mtu buffer).map Sender.segmentOf } }
        response := .send (.ok finish) }
  | check (current tsFlush next : UInt32) :
      Effect host s (.check current) { state := { s with tsFlush }, response := .check next }
  | idle (call : Call) (start : ImKcpp mtu) (hStart : s.FlushStart call start)
      (hIdle : s.flushes call = false) :
      Effect host s call { state := start, response := .flush {} }
  | flush (call : Call) (start next : ImKcpp mtu) (packets : List (List Frame))
      (result : FlushResult)
      (askSend askTell : Bool) (hStart : s.FlushStart call start) (hFlushes : s.flushes call = true)
      (hFlushed : Flushed host start next packets result askSend askTell) :
      Effect host s call {
        state := next
        response := .flush result
        datagrams := packets.map (wire host) }

theorem FlushStart.invariant {s start : ImKcpp mtu} {call : Call} (h : s.FlushStart call start)
    (hInvariant : s.Invariant) : start.Invariant := by
  cases h with
  | flush => exact hInvariant
  | update current tsFlush => exact { hInvariant with }

theorem FlushStart.updated {s start : ImKcpp mtu} {current : UInt32}
    (h : s.FlushStart (.update current) start) : start.updated = true := by
  cases h
  rfl

theorem FlushStart.conv_eq {s start : ImKcpp mtu} {call : Call} (h : s.FlushStart call start) :
    start.sharedCtx.conv = s.sharedCtx.conv := by
  cases h <;> rfl

theorem FlushStart.ackController_eq {s start : ImKcpp mtu} {call : Call}
    (h : s.FlushStart call start) :
    start.ackController = s.ackController := by
  cases h <;> rfl

theorem FlushStart.congestionController_eq {s start : ImKcpp mtu} {call : Call}
    (h : s.FlushStart call start) : start.congestionController = s.congestionController := by
  cases h <;> rfl

/-- An executed flush keeps the invariant. -/
theorem Flushed.invariant {s next : ImKcpp mtu} {packets : List (List Frame)} {result : FlushResult}
    {askSend askTell : Bool} (h : Flushed host s next packets result askSend askTell)
    (hInvariant : s.Invariant) : next.Invariant := by
  refine ⟨⟨h.flusher_empty, ?_⟩, ?_⟩
  · rw [h.conv_eq, h.sender_eq, h.tracker_eq]
    exact hInvariant.moved.refresh (h.sndBuf_eq ▸ Sender.map_flushed_core _)
  · rw [h.receiver_eq]
    exact hInvariant.receiver

/-- Every effect keeps the invariant. -/
theorem Effect.invariant {s : ImKcpp mtu} {call : Call} {outcome : Outcome mtu}
    (h : Effect host s call outcome) (hInvariant : s.Invariant) : outcome.state.Invariant := by
  cases h with
  | configure =>
      exact {
        flusher_empty := hInvariant.flusher_empty
        sender := hInvariant.sender
        receiver := { hInvariant.receiver with } }
  | input data folded sndBuf controller result hFolded hCore hRcvWnd hTotal =>
      have hFold := hInvariant.foldl_applyFrame (scan_accepted host s.sharedCtx.conv data)
      rw [← hFolded] at hFold
      exact { hFold with sender := hFold.sender.refresh hCore }
  | recvRefused => exact hInvariant
  | recv buffer rest prober hReady hSuffix hRest =>
      exact { hInvariant with receiver := (hInvariant.receiver.dequeue hSuffix).move }
  | sendRefused => exact hInvariant
  | send buffer finish hBuffer hCount hWindow hSmall =>
      exact { hInvariant with
        sender := hInvariant.sender.enqueue (Sender.segmentOf_sendable hBuffer hSmall) }
  | check => exact { hInvariant with }
  | idle call start hStart hIdle => exact hStart.invariant hInvariant
  | flush call start next packets result askSend askTell hStart hFlushes hFlushed =>
      exact hFlushed.invariant (hStart.invariant hInvariant)

/-- A call that executes no flush emits nothing and leaves the state of the link; only
`input` touches the sender buffer. -/
theorem Effect.without_flush {s : ImKcpp mtu} {call : Call} {outcome : Outcome mtu}
    (h : Effect host s call outcome) (hIdle : s.flushes call = false) :
    outcome.datagrams = [] ∧ outcome.state.getState = s.getState ∧
      ((∃ data, call = .input data) ∨
        outcome.state.senderBuffer = s.senderBuffer ∧
          outcome.state.segmentTracker = s.segmentTracker) := by
  cases h with
  | input data folded sndBuf controller result hFolded =>
      refine ⟨rfl, ?_, .inl ⟨data, rfl⟩⟩
      rw [getState, hFolded]
      exact congrArg SharedCtx.state (foldl_applyFrame_sharedCtx _ s)
  | idle call start hStart => cases hStart <;> exact ⟨rfl, rfl, .inr ⟨rfl, rfl⟩⟩
  | flush call start next packets result askSend askTell hStart hFlushes =>
      rw [hFlushes] at hIdle
      cases hIdle
  | _ => exact ⟨rfl, rfl, .inr ⟨rfl, rfl⟩⟩

/-- The clock work of `update` touches no other component. -/
theorem updateClock_start (s : ImKcpp mtu) (current : UInt32) :
    s.FlushStart (.update current) (s.updateClock current).1 := by
  have hClock : ∃ tsFlush,
      (s.updateClock current).1 = { s with current, updated := true, tsFlush } := by
    unfold updateClock
    dsimp only
    cases hUpdated : s.updated with
    | false =>
        simp only [Bool.not_false, if_true]
        split_ifs <;> exact ⟨_, rfl⟩
    | true =>
        simp only [Bool.not_true, Bool.false_eq_true, if_false]
        split_ifs <;> exact ⟨_, rfl⟩
  obtain ⟨tsFlush, hClock⟩ := hClock
  rw [hClock]
  exact .update current tsFlush

/-- The first `update` starts the timer. -/
theorem updateClock_first {s : ImKcpp mtu} (hUpdated : s.updated = false) (now : UInt32) :
    s.updateClock now =
      ({ s with updated := true, tsFlush := now } : ImKcpp mtu).updateClock now := by
  unfold ImKcpp.updateClock
  simp only [hUpdated, Bool.not_false, Bool.not_true, Bool.false_eq_true, if_true, if_false]

/-- A later `update`, with the two deadlines that it can set. -/
theorem updateClock_running {s : ImKcpp mtu} (hUpdated : s.updated = true) (now : UInt32) :
    s.updateClock now =
      if timeDelta now s.tsFlush ≥ 10000 ∨ timeDelta now s.tsFlush < -10000 then
        ({ s with current := now, tsFlush := now + s.sharedCtx.interval }, true)
      else if timeDelta now s.tsFlush ≥ 0 then
        ({ s with
          current := now
          tsFlush := if timeDelta now (s.tsFlush + s.sharedCtx.interval) ≥ 0 then
            now + s.sharedCtx.interval else s.tsFlush + s.sharedCtx.interval }, true)
      else ({ s with current := now }, false) := by
  have hZero : (0 : Int32) ≥ 0 := by decide
  unfold updateClock
  simp only [hUpdated, Bool.not_true, Bool.false_eq_true, if_false]
  by_cases hJumped : timeDelta now s.tsFlush ≥ 10000 ∨ timeDelta now s.tsFlush < -10000
  · simp only [if_pos hJumped, if_pos hZero, ite_self]
  · simp only [if_neg hJumped]

/-- `check` can only move the flush deadline. -/
theorem check_eq (s : ImKcpp mtu) (current : UInt32) :
    ∃ tsFlush next, s.check current = ({ s with tsFlush }, next) := by
  unfold ImKcpp.check
  dsimp only
  split_ifs <;> exact ⟨_, _, rfl⟩

/-- A configuration function changes parameters, or fails on an empty window. -/
theorem configure_cases (s : ImKcpp mtu) (setting : Setting) :
    (∃ interval rtoCalculator controller queueLimit fastresend fastlimit nodelay deadLink,
      s.configure setting = .ok { s with
        sharedCtx := { s.sharedCtx with interval }
        rtoCalculator
        congestionController := controller
        receiver := { s.receiver with queueLimit }
        sender := { s.sender with fastresend, fastlimit, nodelay, deadLink } }) ∨
    ((setting = .sendWindow 0 ∨ setting = .receiveWindow 0) ∧
      s.configure setting = .error (.assertion .imkcpp)) := by
  cases setting with
  | interval value => exact .inl ⟨_, _, _, _, _, _, _, _, rfl⟩
  | nodelay value => exact .inl ⟨_, _, _, _, _, _, _, _, rfl⟩
  | fastresend value => exact .inl ⟨_, _, _, _, _, _, _, _, rfl⟩
  | fastlimit value => exact .inl ⟨_, _, _, _, _, _, _, _, rfl⟩
  | congestionWindowEnabled value => exact .inl ⟨_, _, _, _, _, _, _, _, rfl⟩
  | deadlink value => exact .inl ⟨_, _, _, _, _, _, _, _, rfl⟩
  | sendWindow value =>
      by_cases hPositive : value > 0
      · have hSet : s.configure (.sendWindow value) = .ok { s with congestionController :=
            { s.congestionController with sndWnd := value, rmtWnd := value } } := by
          rw [ImKcpp.configure, setSendWindow, assert_of_true hPositive]
          rfl
        exact .inl ⟨_, _, _, _, _, _, _, _, hSet⟩
      · obtain rfl : value = 0 := UInt32.le_zero_iff.mp (UInt32.not_lt.mp hPositive)
        exact .inr ⟨.inl rfl, rfl⟩
  | receiveWindow value =>
      by_cases hPositive : value > 0
      · have hSet : s.configure (.receiveWindow value) = .ok { s with
            congestionController := s.congestionController.setReceiveWindow value
            receiver := s.receiver.setQueueLimit value } := by
          rw [ImKcpp.configure, setReceiveWindow, assert_of_true hPositive]
          rfl
        exact .inl ⟨_, _, _, _, _, _, _, _, hSet⟩
      · obtain rfl : value = 0 := UInt32.le_zero_iff.mp (UInt32.not_lt.mp hPositive)
        exact .inr ⟨.inr rfl, rfl⟩

/-- The flush of a call that executes one, from the state in which it starts. -/
theorem Invariant.flushEffect {s start : ImKcpp mtu} (h : s.Invariant) (host : Host) {call : Call}
    (hStart : s.FlushStart call start) (hFlushes : s.flushes call = true)
    (hUpdated : start.updated = true) :
    ∃ next datagrams result, start.flush host = .ok (next, datagrams, result) ∧
      Effect host s call { state := next, response := .flush result, datagrams } := by
  obtain ⟨next, packets, result, askSend, askTell, hFlush, hFlushed⟩ :=
    flush_spec host (hStart.invariant h).toSending hUpdated
  exact ⟨next, _, result, hFlush,
    .flush call start next packets result askSend askTell hStart hFlushes hFlushed⟩

/-- `recv` can only ask for a probe. -/
theorem recv_windowProber {s next : ImKcpp mtu} {n : Nat} {buffer written : Vector UInt8 n}
    {result : Except Error Nat} (h : s.recv buffer = .ok (next, written, result)) :
    next.windowProber = s.windowProber ∨ next.windowProber =
      { s.windowProber with probe := s.windowProber.probe ||| ProbeFlag.askTell.value } := by
  obtain ⟨⟨receiver, received, outcome⟩, -, h⟩ := bind_eq_ok.mp h
  cases outcome with
  | error error =>
      obtain ⟨rfl, -⟩ := Prod.mk.inj (Except.ok.inj h)
      exact .inl rfl
  | ok outcome =>
      dsimp only at h
      split_ifs at h
      · rw [WindowProber.setFlag_eq, ok_bind] at h
        obtain ⟨rfl, -⟩ := Prod.mk.inj (Except.ok.inj h)
        exact .inr rfl
      · obtain ⟨rfl, -⟩ := Prod.mk.inj (Except.ok.inj h)
        exact .inl rfl

/-- `recv` always has an effect. -/
theorem Invariant.recvEffect {s : ImKcpp mtu} (h : s.Invariant) (host : Host) {n : Nat}
    (buffer : Vector UInt8 n) :
    ∃ outcome, s.perform host (.recv buffer) = .ok outcome ∧
      Effect host s (.recv buffer) outcome := by
  dsimp only [ImKcpp.perform, ImKcpp.recv]
  rcases Receiver.recv_cases buffer s.congestionController.rcvWnd h.receiver.queued with
    ⟨error, hRecv, hRefused⟩ | ⟨hReady, rest, final, recovered, hRecv, hSuffix, hFinal, hRest⟩
  · rw [hRecv, ok_bind]
    exact ⟨_, rfl, .recvRefused buffer error hRefused⟩
  · obtain ⟨message, hMessage⟩ :
        ∃ message, message = (joinFirst (s.receiver.rcvQueue.map Segment.fragment)).1 := ⟨_, rfl⟩
    rw [← hMessage] at hRecv hFinal
    have hEffect (prober : WindowProber) : Effect host s (.recv buffer) {
        state := { s with
          receiver := { s.receiver with rcvQueue := rest }.moveReceiveBufferToQueue
          windowProber := prober }
        response := .recv (.ok message) } := by
      rw [hMessage]
      exact .recv buffer rest prober hReady hSuffix hRest
    have hWritten : (Except.ok message.length : Except Error Nat).map
        (fun size => final.toList.take size) = .ok message := by
      rw [hFinal]
      exact congrArg Except.ok List.take_left
    rw [hRecv, ok_bind]
    dsimp only
    cases recovered with
    | false =>
        rw [if_neg Bool.false_ne_true, pure_eq_ok, ok_bind, hWritten]
        exact ⟨_, rfl, hEffect _⟩
    | true =>
        rw [if_pos rfl, WindowProber.setFlag_eq, ok_bind, pure_eq_ok, ok_bind, hWritten]
        exact ⟨_, rfl, hEffect _⟩

/-- `update` always has an effect: a flush when one is due, otherwise clock work. -/
theorem Invariant.updateEffect {s : ImKcpp mtu} (h : s.Invariant) (host : Host) (current : UInt32) :
    ∃ outcome, s.perform host (.update current) = .ok outcome ∧
      Effect host s (.update current) outcome := by
  have hStart := s.updateClock_start current
  dsimp only [ImKcpp.perform, ImKcpp.update]
  cases hDue : (s.updateClock current).2 with
  | false => exact ⟨_, rfl, .idle _ _ hStart hDue⟩
  | true =>
      obtain ⟨next, datagrams, result, hFlush, hEffect⟩ :=
        h.flushEffect host hStart hDue hStart.updated
      rw [if_pos rfl, hFlush, ok_bind]
      exact ⟨_, rfl, hEffect⟩

/-- `flush` always has an effect, though none before the first `update`. -/
theorem Invariant.flushCallEffect {s : ImKcpp mtu} (h : s.Invariant) (host : Host) :
    ∃ outcome, s.perform host .flush = .ok outcome ∧ Effect host s .flush outcome := by
  dsimp only [ImKcpp.perform]
  cases hUpdated : s.updated with
  | false =>
      rw [flush_idle host hUpdated, ok_bind]
      exact ⟨_, rfl, .idle _ _ .flush hUpdated⟩
  | true =>
      obtain ⟨next, datagrams, result, hFlush, hEffect⟩ :=
        h.flushEffect host .flush hUpdated hUpdated
      rw [hFlush, ok_bind]
      exact ⟨_, rfl, hEffect⟩

/-- A call either has an effect, or it is one of those that the program does not
define: an empty window, and a `send` of fragments too long for the length field. -/
theorem Invariant.perform {s : ImKcpp mtu} (h : s.Invariant) (host : Host) (call : Call) :
    (∃ outcome, s.perform host call = .ok outcome ∧ Effect host s call outcome) ∨
    ((call = .configure (.sendWindow 0) ∨ call = .configure (.receiveWindow 0)) ∧
      s.perform host call = .error (.assertion .imkcpp)) ∨
    (∃ buffer, call = .send buffer ∧ 2 ^ 32 ≤ mtu.maxSegmentSize ∧
      s.perform host call = .error (.assertion .sender)) := by
  cases call with
  | configure setting =>
      dsimp only [ImKcpp.perform]
      rcases s.configure_cases setting with ⟨_, _, _, _, _, _, _, _, hSetting⟩ | ⟨hZero, hFault⟩
      · rw [hSetting, ok_bind]
        exact .inl ⟨_, rfl, .configure _ _ _ _ _ _ _ _ _ hSetting⟩
      · rw [hFault, error_bind]
        exact .inr (.inl ⟨hZero.imp (congrArg Call.configure) (congrArg Call.configure), rfl⟩)
  | input data =>
      obtain ⟨sndBuf, controller, result, hInput, hCore, hRcvWnd, hTotal⟩ := input_spec host s data
      dsimp only [ImKcpp.perform]
      rw [hInput, ok_bind]
      exact .inl ⟨_, rfl, .input data _ sndBuf controller result rfl hCore hRcvWnd hTotal⟩
  | recv buffer => exact .inl (h.recvEffect host buffer)
  | send buffer =>
      dsimp only [ImKcpp.perform, ImKcpp.send]
      rcases Sender.send_cases mtu s.sender s.congestionController.rcvWnd buffer with
        ⟨-, error, hSend⟩ | ⟨hBuffer, hCount, hWindow, hSmall, hSend⟩ | ⟨hLarge, hSend⟩
      · rw [hSend, ok_bind]
        exact .inl ⟨_, rfl, .sendRefused buffer error⟩
      · rw [hSend, ok_bind]
        exact .inl ⟨_, rfl, .send buffer _ hBuffer hCount hWindow hSmall⟩
      · rw [hSend, error_bind]
        exact .inr (.inr ⟨buffer, rfl, hLarge.trans (min_le_right _ _), rfl⟩)
  | check current =>
      obtain ⟨tsFlush, next, hCheck⟩ := s.check_eq current
      dsimp only [ImKcpp.perform]
      rw [hCheck]
      exact .inl ⟨_, rfl, .check current tsFlush next⟩
  | update current => exact .inl (h.updateEffect host current)
  | flush => exact .inl (h.flushCallEffect host)

/-- A call that executes a flush does nothing else behind its clock work. -/
theorem Invariant.perform_flushes {s : ImKcpp mtu} (h : s.Invariant) {call : Call}
    {outcome : Outcome mtu} (hOutcome : s.perform host call = .ok outcome)
    (hFlushes : s.flushes call = true) :
    ∃ start packets result askSend askTell, s.FlushStart call start ∧ start.updated = true ∧
      start.flush host = .ok (outcome.state, packets.map (wire host), result) ∧
      outcome = ⟨outcome.state, .flush result, packets.map (wire host)⟩ ∧
      Flushed host start outcome.state packets result askSend askTell := by
  obtain ⟨start, datagrams, result, hStart, hUpdated, hFlush, hShape⟩ :
      ∃ start datagrams result, s.FlushStart call start ∧ start.updated = true ∧
        start.flush host = .ok (outcome.state, datagrams, result) ∧
        outcome = ⟨outcome.state, .flush result, datagrams⟩ := by
    cases call with
    | update current =>
        have hStart := s.updateClock_start current
        obtain ⟨⟨next, datagrams, result⟩, hUpdate, hReturn⟩ := bind_eq_ok.mp hOutcome
        obtain rfl := Except.ok.inj hReturn
        unfold ImKcpp.update at hUpdate
        dsimp only at hUpdate
        rw [if_pos (show (s.updateClock current).2 = true from hFlushes)] at hUpdate
        exact ⟨_, _, _, hStart, hStart.updated, hUpdate, rfl⟩
    | flush =>
        obtain ⟨⟨next, datagrams, result⟩, hFlush, hReturn⟩ := bind_eq_ok.mp hOutcome
        obtain rfl := Except.ok.inj hReturn
        exact ⟨_, _, _, .flush, hFlushes, hFlush, rfl⟩
    | _ => cases hFlushes
  obtain ⟨next, packets, counts, askSend, askTell, hSpec, hFlushed⟩ :=
    flush_spec host (hStart.invariant h).toSending hUpdated
  obtain ⟨rfl, hSent⟩ := Prod.mk.inj (Except.ok.inj (hSpec.symm.trans hFlush))
  obtain ⟨rfl, rfl⟩ := Prod.mk.inj hSent
  exact ⟨start, packets, counts, askSend, askTell, hStart, hUpdated, hFlush, hShape, hFlushed⟩

/-- A call that returns has an effect. -/
theorem Invariant.effect {s : ImKcpp mtu} (h : s.Invariant) {call : Call} {outcome : Outcome mtu}
    (hOutcome : s.perform host call = .ok outcome) : Effect host s call outcome := by
  rcases h.perform host call with ⟨other, hOther, hEffect⟩ | ⟨-, hFault⟩ | ⟨-, -, -, hFault⟩
  · obtain rfl := Except.ok.inj (hOutcome.symm.trans hOther)
    exact hEffect
  · cases hOutcome.symm.trans hFault
  · cases hOutcome.symm.trans hFault

theorem applyFrame_wask (s : ImKcpp mtu) {frame : Frame} (h : frame.header.cmd = Commands.wask) :
    s.applyFrame frame = (s.acceptHeader frame.header).applyWask := by
  simp [applyFrame, h, Commands.wask, Commands.push, Commands.ack]

/-- Only a `WASK` asks for a probe. -/
theorem applyFrame_windowProber (s : ImKcpp mtu) {frame : Frame}
    (h : frame.header.cmd ≠ Commands.wask) :
    (s.applyFrame frame).windowProber = s.windowProber := by
  unfold ImKcpp.applyFrame ImKcpp.applyPush
  dsimp only
  rw [if_neg h]
  split_ifs <;> rfl

theorem foldl_applyFrame_tells (frames : List Frame) (s : ImKcpp mtu) :
    (frames.foldl applyFrame s).windowProber = s.windowProber ∨
      (frames.foldl applyFrame s).windowProber =
      { s.windowProber with probe := s.windowProber.probe ||| ProbeFlag.askTell.value } := by
  induction frames generalizing s with
  | nil => exact .inl rfl
  | cons frame rest ih =>
      have hFrame : (s.applyFrame frame).windowProber = s.windowProber ∨
          (s.applyFrame frame).windowProber =
          { s.windowProber with probe := s.windowProber.probe ||| ProbeFlag.askTell.value } := by
        by_cases hWask : frame.header.cmd = Commands.wask
        · rw [applyFrame_wask s hWask]
          exact .inr rfl
        · exact .inl (applyFrame_windowProber s hWask)
      rw [List.foldl_cons]
      rcases hFrame with hSame | hTold
      · rw [← hSame]
        exact ih _
      · refine .inr ?_
        rcases ih (s.applyFrame frame) with hRest | hRest
        · rw [hRest, hTold]
        · rw [hRest, hTold, UInt32.or_assoc, UInt32.or_self]

/-- Without a flush the prober only takes requests for an announcement. -/
theorem Invariant.perform_tells {s : ImKcpp mtu} (h : s.Invariant) {call : Call}
    {outcome : Outcome mtu} (hOutcome : s.perform host call = .ok outcome)
    (hIdle : s.flushes call = false) :
    outcome.state.windowProber = s.windowProber ∨ outcome.state.windowProber =
      { s.windowProber with probe := s.windowProber.probe ||| ProbeFlag.askTell.value } := by
  cases h.effect hOutcome with
  | input data folded sndBuf controller result hFolded =>
      rw [hFolded]
      exact foldl_applyFrame_tells _ s
  | recv buffer =>
      obtain ⟨written, result, hRecv⟩ := perform_recv hOutcome
      exact recv_windowProber hRecv
  | idle call start hStart => cases hStart <;> exact .inl rfl
  | flush call start next packets result askSend askTell hStart hFlushes =>
      rw [hFlushes] at hIdle
      cases hIdle
  | _ => exact .inl rfl

/-- What is left of a call without the queues, the clock and the flush: the setting that it
makes, or the segments that it brings. -/
def tuned (host : Host) (s : ImKcpp mtu) : Call → ImKcpp mtu
  | .configure setting => s.configured setting
  | .input data => (scan host s.sharedCtx.conv data).1.foldl applyFrame s
  | _ => s

/-- The rest of a call touches neither a setting of the sender, nor the interval, nor the
calculator. -/
theorem Invariant.perform_tuned {s : ImKcpp mtu} (h : s.Invariant) {call : Call}
    {outcome : Outcome mtu} (hOutcome : s.perform host call = .ok outcome) :
    outcome.state.sharedCtx.interval = (s.tuned host call).sharedCtx.interval ∧
      outcome.state.rtoCalculator = (s.tuned host call).rtoCalculator ∧
      outcome.state.sender.deadLink = (s.tuned host call).sender.deadLink := by
  cases h.effect hOutcome with
  | configure setting interval rtoCalculator controller queueLimit fastresend fastlimit
      nodelay deadLink
      hSetting =>
      rw [eq_configured hSetting]
      exact ⟨rfl, rfl, rfl⟩
  | input data folded sndBuf controller result hFolded =>
      dsimp only [tuned]
      rw [hFolded]
      exact ⟨rfl, rfl, rfl⟩
  | idle call start hStart => cases hStart <;> exact ⟨rfl, rfl, rfl⟩
  | flush call start next packets result askSend askTell hStart hFlushes =>
      obtain ⟨start, _, _, _, _, hStart, hUpdated, hFlush, -⟩ := h.perform_flushes hOutcome hFlushes
      obtain ⟨_, _, _, _, hNext, -⟩ := flush_shape hUpdated hFlush
      rw [hNext]
      cases hStart <;> exact ⟨rfl, rfl, rfl⟩
  | _ => exact ⟨rfl, rfl, rfl⟩

end ImKcpp

/-- Every step of a party is an effect, recorded in its history. -/
theorem Party.Step.effect {party next : Party mtu} {call : Call} (hStep : party.Step host next call)
    (h : party.endpoint.Invariant) :
    ∃ outcome, party.endpoint.Effect host call outcome ∧ next = party.record call outcome := by
  obtain ⟨outcome, hOutcome, rfl⟩ := hStep
  exact ⟨outcome, h.effect hOutcome, rfl⟩

theorem Party.Step.invariant {party next : Party mtu} {call : Call}
    (hStep : party.Step host next call) (h : party.endpoint.Invariant) :
    next.endpoint.Invariant := by
  obtain ⟨outcome, hEffect, rfl⟩ := hStep.effect h
  exact hEffect.invariant h

/-- The invariant holds in every state that calls can lead a fresh endpoint to. -/
theorem invariant_of_reachable {conv : UInt32} {party : Party mtu}
    (h : (endpointSystem host mtu conv).Reachable party) : party.endpoint.Invariant := by
  refine h.invariant (P := fun party => party.endpoint.Invariant) ?_ ?_
  · rintro party rfl
    exact ImKcpp.invariant_create mtu conv
  · rintro party next _ hInvariant ⟨call, hStep⟩
    exact hStep.invariant hInvariant

/-- No call changes the conversation. -/
theorem ImKcpp.Effect.conv_eq {s : ImKcpp mtu} {call : Call} {outcome : Outcome mtu}
    (h : s.Effect host call outcome) : outcome.state.sharedCtx.conv = s.sharedCtx.conv := by
  cases h with
  | configure => rfl
  | input data folded sndBuf controller result hFolded =>
      dsimp only
      rw [hFolded, foldl_applyFrame_sharedCtx]
  | recvRefused => rfl
  | recv => rfl
  | sendRefused => rfl
  | send => rfl
  | check => rfl
  | idle call start hStart => exact hStart.conv_eq
  | flush call start next packets result askSend askTell hStart hFlushes hFlushed =>
      exact hFlushed.conv_eq.trans hStart.conv_eq

theorem conv_of_reachable {conv : UInt32} {party : Party mtu}
    (h : (endpointSystem host mtu conv).Reachable party) :
    party.endpoint.sharedCtx.conv = conv := by
  refine h.invariant (P := fun party => party.endpoint.sharedCtx.conv = conv) ?_ ?_
  · rintro party rfl
    rfl
  · rintro party next hReach hConv ⟨call, hStep⟩
    obtain ⟨outcome, hEffect, rfl⟩ := hStep.effect (invariant_of_reachable hReach)
    exact hEffect.conv_eq.trans hConv

end Imkcpp
