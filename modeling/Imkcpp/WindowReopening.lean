import Imkcpp.Retransmission
import Imkcpp.Transfer

/-! A window that reopens. A sender that believes the window of its peer to be closed
asks for it again and again, and the peer, whose queue is drained, answers with a window
that is open. Behind that nothing keeps new segments from being sent. -/
namespace Imkcpp

open Transition Fragmentation Filter Recurrence

variable {mtu : Mtu} {host : Host} {conv : UInt32}

/-- A segment with this command, whatever its number. -/
def Commanded (cmd other : UInt8) (_ : UInt32) : Prop := other = cmd

/-- The window of the peer is going to be asked for when a deadline has passed. -/
structure WindowProber.Awaits (prober : WindowProber) (deadline : UInt32) : Prop where
  waiting : prober.probeWait ≠ 0
  deadline_eq : prober.tsProbe = deadline

/-- Without a request, a closed window is waited for up to a deadline that has not passed: the
one that was set before, if there was one. -/
theorem WindowProber.update_closed {prober next : WindowProber} {current : UInt32}
    (hUpdate : prober.update current 0 = .ok next) (hSilent : ¬next.Asked .askSend) :
    (∃ deadline, next.Awaits deadline) ∧ ∀ deadline, prober.Awaits deadline →
      next.Awaits deadline ∧ (timeDelta current deadline).toInt < 0 := by
  rw [update, if_neg (by simp)] at hUpdate
  by_cases hFirst : (prober.probeWait == 0) = true
  · rw [if_pos hFirst] at hUpdate
    have hWait : next.probeWait = probeInit :=
      (congrArg WindowProber.probeWait (Except.ok.inj hUpdate)).symm
    refine ⟨⟨next.tsProbe, ⟨?_, rfl⟩⟩,
      fun deadline hWaits => absurd (eq_of_beq hFirst) hWaits.waiting⟩
    rw [hWait]
    decide
  rw [if_neg hFirst] at hUpdate
  have hWait : prober.probeWait ≠ 0 := fun hNone => hFirst (beq_iff_eq.mpr hNone)
  by_cases hDue : timeDelta current prober.tsProbe ≥ 0
  · rw [if_pos hDue, setFlag_eq] at hUpdate
    exact absurd (asked_of_set (congrArg WindowProber.probe (Except.ok.inj hUpdate)).symm) hSilent
  · rw [if_neg hDue] at hUpdate
    obtain rfl := Except.ok.inj hUpdate
    refine ⟨⟨_, ⟨hWait, rfl⟩⟩, fun deadline hWaits => ⟨hWaits, ?_⟩⟩
    have hZero : (0 : Int32).toInt = 0 := rfl
    rw [ImKcpp.timeDelta_ge_iff, hZero, ← timeDelta_eq_difference, hWaits.deadline_eq] at hDue
    exact Int.not_le.mp hDue

theorem WindowProber.Awaits.reset {prober : WindowProber} {deadline : UInt32}
    (h : prober.Awaits deadline) :
    prober.resetFlags.Awaits deadline := ⟨h.waiting, h.deadline_eq⟩

namespace ImKcpp

section Probe

variable {s : ImKcpp mtu} {call : Call} {outcome : Outcome mtu} {deadline : UInt32}

/-- A flush that finds the window closed and sends no `WASK` waits in the same way. -/
theorem Invariant.perform_probes (h : s.Invariant) (hOutcome : s.perform host call = .ok outcome)
    (hFlushes : s.flushes call = true) (hClosed : s.congestionController.rmtWnd = 0)
    (hUnasked : ¬outcome.Emits host (Commanded Commands.wask)) :
    (∃ deadline, outcome.state.windowProber.Awaits deadline) ∧
      ∀ deadline, s.windowProber.Awaits deadline → outcome.state.windowProber.Awaits deadline ∧
        (timeDelta outcome.state.current deadline).toInt < 0 := by
  obtain ⟨start, packets, result, askSend, askTell, hStart, hUpdated, hFlush, hShape, hFlushed⟩ :=
    h.perform_flushes hOutcome hFlushes
  obtain ⟨prober, hUpdate, hAsk, -⟩ := hFlushed.asks
  obtain ⟨same, hSame, hReset⟩ := flush_windowProber hUpdated hFlush
  obtain rfl : prober = same := Except.ok.inj (hUpdate.symm.trans hSame)
  obtain ⟨_, _, _, _, hNext, -⟩ := flush_shape hUpdated hFlush
  have hCurrent : outcome.state.current = start.current := by rw [hNext]
  obtain ⟨hProber, hRmtWnd⟩ : start.windowProber = s.windowProber ∧
      start.congestionController.rmtWnd = 0 := by cases hStart <;> exact ⟨rfl, hClosed⟩
  have hSilent : ¬prober.Asked .askSend := by
    intro hAsked
    have hFlag : askSend = true := hAsk.trans (bne_iff_ne.mpr hAsked)
    refine hUnasked ⟨start.probeFrame Commands.wask, ?_, rfl⟩
    rw [hShape]
    dsimp only
    rw [hFlushed.framesOf_eq (hStart.invariant h).toSending, hFlushed.frames_eq, hFlag]
    exact mem_flushFrames.mpr (.inr (.inl ⟨rfl, rfl⟩))
  rw [hProber, hRmtWnd] at hUpdate
  obtain ⟨⟨deadline, hSome⟩, hKept⟩ := WindowProber.update_closed hUpdate hSilent
  rw [hReset, hCurrent]
  exact ⟨⟨deadline, hSome.reset⟩, fun other hWaits => (hKept other hWaits).imp_left .reset⟩

/-- No other call moves that deadline. -/
theorem Invariant.perform_awaits (h : s.Invariant) (hOutcome : s.perform host call = .ok outcome)
    (hIdle : s.flushes call = false) (hWaits : s.windowProber.Awaits deadline) :
    outcome.state.windowProber.Awaits deadline := by
  rcases h.perform_tells hOutcome hIdle with hSame | hTold
  · rwa [hSame]
  · rw [hTold]
    exact ⟨hWaits.waiting, hWaits.deadline_eq⟩

/-- The window of the peer is what the last segment of a datagram says, and otherwise stays. -/
theorem Invariant.perform_rmtWnd (h : s.Invariant) (hOutcome : s.perform host call = .ok outcome)
    (hSteady : call.Steady) :
    (∃ data frame, call = .input data ∧ frame ∈ (scan host s.sharedCtx.conv data).1 ∧
      outcome.state.congestionController.rmtWnd = frame.header.wnd.toUInt32) ∨
    (∀ data, call = .input data → (scan host s.sharedCtx.conv data).1 = []) ∧
      outcome.state.congestionController.rmtWnd = s.congestionController.rmtWnd := by
  by_cases hInput : ∃ data, call = .input data
  · obtain ⟨data, rfl⟩ := hInput
    obtain ⟨result, hReturns⟩ := perform_input hOutcome
    obtain ⟨cwnd, incr, hController⟩ := input_congestionController hReturns
    rw [hController]
    cases hLast : (scan host s.sharedCtx.conv data).1.getLast? with
    | none => exact .inr ⟨fun _ hSame => Call.input.inj hSame ▸ List.getLast?_eq_none_iff.mp hLast,
        rfl⟩
    | some frame => exact .inl ⟨data, frame, rfl, List.mem_of_getLast? hLast, rfl⟩
  · refine .inr ⟨fun data hSame => absurd ⟨data, hSame⟩ hInput, ?_⟩
    refine (h.perform_keeps_windows hOutcome (fun data hSame => hInput ⟨data, hSame⟩) ?_).2
    rintro value rfl
    exact hSteady

end Probe

end ImKcpp

namespace FairRun

variable {run : FairRun host mtu conv} {window una nxt next : Side → UInt32} {side : Side} {i : ℕ}

/-- A drained receiver announces an open window. -/
theorem Rests.wnd_ne_zero (h : run.Rests una nxt next i) (hFits : run.Fits window)
    (hMoving : run.moving i = side) :
    ∀ frame ∈ (run.outcome i).datagrams.flatMap (framesOf host), frame.header.wnd ≠ 0 := by
  have hDrained := h.network_drained hFits side.peer
  have hQueue := hDrained.queue_lt (run.reachable i)
  have hWindowed := hFits.windowed_at i side
  have hRcvWnd : (run.net i side).endpoint.congestionController.rcvWnd.toNat =
      max (window side).toNat 128 := by
    rw [hWindowed.rcvWnd_eq]
    exact toNat_max _ _
  have hLe := hFits.window_le side
  rw [side.peer_peer] at hQueue
  intro frame hFrame
  rw [(effect hMoving).wnd_eq (run.invariant i side) frame hFrame]
  exact ImKcpp.wnd_ne_zero (by omega) (by omega)

/-- In the long run no segment arrives that announces a closed window. -/
theorem eventually_open (hFits : run.Fits window) (hRests : ∀ᶠ i in atTop, run.Rests una nxt next i)
    (side : Side) :
    ∀ᶠ i in atTop, run.moving i = side → ∀ data, run.call i = .input data →
      ∀ frame ∈ (scan host (run.net i side).endpoint.sharedCtx.conv data).1,
        frame.header.wnd ≠ 0 := by
  by_contra hClosed
  have hArrives : ∃ᶠ i in atTop, run.moving i = side.peer.peer ∧
      ∃ data ∈ {data | ∃ frame ∈ framesOf host data, frame.header.wnd = 0}, run.call i =
        .input data := by
    refine (not_eventually.mp hClosed).mono fun i hSome => ?_
    push Not at hSome
    obtain ⟨hMoving, data, hCall, frame, hFrame, hZero⟩ := hSome
    rw [scan_eq hMoving hCall] at hFrame
    exact ⟨hMoving.trans side.peer_peer.symm, data, ⟨frame, hFrame, hZero⟩, hCall⟩
  obtain ⟨i, -, ⟨hMoving, data, ⟨frame, hFrame, hZero⟩, hData⟩, hRest⟩ :=
    frequently_atTop.mp ((run.finite side.peer _ hArrives).and_eventually hRests) 0
  exact hRest.wnd_ne_zero hFits hMoving frame (List.mem_flatMap.mpr ⟨data, hData, hFrame⟩) hZero

/-- With the window closed for good, it is asked for again and again. -/
theorem wask_frequently
    (hClosed : ∀ᶠ i in atTop, (run.net i side).endpoint.congestionController.rmtWnd = 0) :
    ∃ᶠ i in atTop, run.moving i = side ∧ (run.outcome i).Emits host (Commanded Commands.wask) := by
  intro hNever
  obtain ⟨start, hStart⟩ := eventually_atTop.mp (hNever.and hClosed)
  -- the deadline that the first flush leaves
  obtain ⟨first, hFirst, hMoving, hFlushes⟩ :=
    frequently_atTop.mp (run.flushes_frequently side) start
  obtain ⟨hUnasked, hZero⟩ := hStart first hFirst
  obtain ⟨⟨deadline, hDeadline⟩, -⟩ :=
    (run.invariant first side).perform_probes (perform hMoving) hFlushes hZero
    fun hEmits => hUnasked ⟨hMoving, hEmits⟩
  rw [← endpoint_succ hMoving] at hDeadline
  have hAwaits : ∀ i, first + 1 ≤ i → (run.net i side).endpoint.windowProber.Awaits deadline := by
    intro i hi
    induction i, hi using Nat.le_induction with
    | base => exact hDeadline
    | succ i hi ih =>
        obtain ⟨hUnasked, hZero⟩ := hStart i (hFirst.trans (Nat.le_of_succ_le hi))
        by_cases hMoving : run.moving i = side
        · rw [endpoint_succ hMoving]
          cases hFlushes : (run.net i side).endpoint.flushes (run.call i) with
          | false => exact (run.invariant i side).perform_awaits (perform hMoving) hFlushes ih
          | true =>
              exact (((run.invariant i side).perform_probes (perform hMoving) hFlushes hZero
                fun hEmits => hUnasked ⟨hMoving, hEmits⟩).2 deadline ih).1
        · rwa [net_succ_other hMoving]
  obtain ⟨i, hi, ⟨hMoving, hFlushes⟩, hDue⟩ :=
    frequently_atTop.mp (run.due_frequently side deadline) (first + 1)
  obtain ⟨hUnasked, hZero⟩ := hStart i (hFirst.trans (Nat.le_of_succ_le hi))
  have hAhead := (((run.invariant i side).perform_probes (perform hMoving) hFlushes hZero
    fun hEmits => hUnasked ⟨hMoving, hEmits⟩).2 deadline (hAwaits i hi)).2
  rw [← endpoint_succ hMoving] at hAhead
  exact Int.not_le.mpr hAhead hDue

/-- The peer answers. -/
theorem wins_frequently (hAsks : ∃ᶠ i in atTop, run.moving i = side ∧
      (run.outcome i).Emits host (Commanded Commands.wask)) :
    ∃ᶠ i in atTop, run.moving i = side.peer ∧
      (run.outcome i).Emits host (Commanded Commands.wins) := by
  have hAsked : ∃ᶠ i in atTop, (run.net i side.peer).endpoint.windowProber.Asked .askTell := by
    refine frequently_atTop.mpr fun bound => ?_
    obtain ⟨i, hi, hMoving, hBrings⟩ := frequently_atTop.mp (run.fair side _ hAsks) bound
    refine ⟨i + 1, Nat.le_succ_of_le hi, ?_⟩
    obtain ⟨data, hCall, frame, hFrame, hWask⟩ := exists_frame_of_brings hMoving hBrings
    rw [endpoint_succ hMoving]
    refine (run.invariant i side.peer).asked_of_wask (perform hMoving) ⟨frame.header, ?_, hWask⟩
    rw [hCall]
    exact List.mem_map_of_mem (f := Frame.header) hFrame
  have hKept : ∀ i, (run.net i side.peer).endpoint.windowProber.Asked .askTell →
      ¬run.Flushes side.peer i →
      (run.net (i + 1) side.peer).endpoint.windowProber.Asked .askTell := by
    intro i hAsked hIdle
    by_cases hMoving : run.moving i = side.peer
    · rw [endpoint_succ hMoving]
      exact (run.invariant i side.peer).perform_asked (perform hMoving)
        (Bool.not_eq_true _ ▸ fun hFlushes => hIdle ⟨hMoving, hFlushes⟩) hAsked
    · rwa [net_succ_other hMoving]
  have hServed := frequently_served hAsked (.of_forall hKept) (run.flushes_frequently side.peer)
  exact hServed.mono fun i ⟨⟨hMoving, hFlushes⟩, hAsked⟩ =>
    ⟨hMoving, (run.invariant i side.peer).announces (perform hMoving) hFlushes hAsked⟩

/-- In the long run the window of the peer is open. -/
theorem eventually_rmtWnd (hFits : run.Fits window)
    (hRests : ∀ᶠ i in atTop, run.Rests una nxt next i) (side : Side) :
    ∀ᶠ i in atTop, (run.net i side).endpoint.congestionController.rmtWnd ≠ 0 := by
  have hOpen := eventually_open hFits hRests side
  have hWide : ∀ wnd : UInt16, wnd ≠ 0 → wnd.toUInt32 ≠ 0 := by
    intro wnd hNonzero hZero
    refine hNonzero (UInt16.toNat_inj.mp ?_)
    have hNat := congrArg UInt32.toNat hZero
    rwa [UInt16.toNat_toUInt32] at hNat
  refine eventually_of_kept (hOpen.mono fun i hOpen hNonzero => ?_) fun hNever => ?_
  · by_cases hMoving : run.moving i = side
    · rw [endpoint_succ hMoving]
      rcases (run.invariant i side).perform_rmtWnd (perform hMoving) (run.steady i) with
        ⟨data, frame, hCall, hFrame, hRmtWnd⟩ | ⟨-, hSame⟩
      · rw [hRmtWnd]
        exact hWide _ (hOpen hMoving data hCall frame hFrame)
      · rwa [hSame]
    · rwa [net_succ_other hMoving]
  · have hClosed : ∀ᶠ i in atTop, (run.net i side).endpoint.congestionController.rmtWnd = 0 :=
      hNever.mono fun i hNot => not_not.mp hNot
    have hAnswers := run.fair side.peer _ (wins_frequently (wask_frequently hClosed))
    obtain ⟨start, hStart⟩ := eventually_atTop.mp (hOpen.and hClosed)
    obtain ⟨i, hi, hPeer, hBrings⟩ := frequently_atTop.mp hAnswers start
    have hMoving : run.moving i = side := hPeer.trans side.peer_peer
    obtain ⟨data, hCall, frame, hFrame, -⟩ := exists_frame_of_brings hMoving hBrings
    have hZero := (hStart (i + 1) (Nat.le_succ_of_le hi)).2
    rw [endpoint_succ hMoving] at hZero
    rcases (run.invariant i side).perform_rmtWnd (perform hMoving) (run.steady i) with
      ⟨other, last, hSame, hLast, hRmtWnd⟩ | ⟨hNone, -⟩
    · exact hWide _ ((hStart i hi).1 hMoving other hSame last hLast) (hRmtWnd.symm.trans hZero)
    · rw [hNone data hCall] at hFrame
      exact List.not_mem_nil hFrame

end FairRun

end Imkcpp
