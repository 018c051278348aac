import Imkcpp.WindowReopening
import Imkcpp.Wraparound

/-! Everything that is accepted is returned in the end. Once all numbers that have been
given out are acknowledged and the window of the peer is open, a flush admits what is
left in the send queue; so the queues run empty and the peer has read everything. -/
namespace Imkcpp

open Transition Fragmentation Filter Recurrence

variable {mtu : Mtu} {host : Host} {conv : UInt32}

namespace ImKcpp

/-- A flush leaves room for at least one segment. -/
theorem flush_cwnd {s next : ImKcpp mtu} {datagrams : List (List UInt8)} {result : FlushResult}
    (hUpdated : s.updated = true) (h : s.flush host = .ok (next, datagrams, result)) :
    next.congestionController.cwnd ≠ 0 := by
  unfold flush at h
  rw [if_neg (by simp [hUpdated])] at h
  obtain ⟨_, -, h⟩ := bind_eq_ok.mp h
  obtain ⟨_, -, h⟩ := bind_eq_ok.mp h
  obtain ⟨_, -, h⟩ := bind_eq_ok.mp h
  obtain ⟨_, -, h⟩ := bind_eq_ok.mp h
  obtain ⟨_, -, h⟩ := bind_eq_ok.mp h
  obtain ⟨_, -, h⟩ := bind_eq_ok.mp h
  obtain ⟨_, -, h⟩ := bind_eq_ok.mp h
  obtain ⟨_, -, h⟩ := bind_eq_ok.mp h
  obtain ⟨rfl, -⟩ := Prod.mk.inj (Except.ok.inj h)
  dsimp only [CongestionController.ensureAtLeastOnePacketInFlight]
  split_ifs with hSmall
  · exact (by decide : (1 : UInt32) ≠ 0)
  · rintro hZero
    rw [hZero] at hSmall
    exact hSmall (by decide)

/-- It only closes when something is acknowledged. -/
theorem Invariant.perform_cwnd {s : ImKcpp mtu} (h : s.Invariant) {call : Call}
    {outcome : Outcome mtu} (hOutcome : s.perform host call = .ok outcome) (hSteady : call.Steady)
    (hUna : outcome.state.segmentTracker.sndUna = s.segmentTracker.sndUna)
    (hOpen : s.congestionController.cwnd ≠ 0 ∨ s.flushes call = true) :
    outcome.state.congestionController.cwnd ≠ 0 := by
  cases hFlushes : s.flushes call with
  | true =>
      obtain ⟨start, packets, result, askSend, askTell, -, hUpdated, hFlush, -⟩ :=
        h.perform_flushes hOutcome hFlushes
      exact flush_cwnd hUpdated hFlush
  | false =>
      have hCwnd := hOpen.resolve_right (by rw [hFlushes]; exact Bool.false_ne_true)
      by_cases hInput : ∃ data, call = .input data
      · obtain ⟨data, rfl⟩ := hInput
        obtain ⟨result, hReturns⟩ := perform_input hOutcome
        have hFold := foldl_applyFrame_congestionController (scan host s.sharedCtx.conv data).1 s
        rcases input_folded hReturns with hState | ⟨ctx, hState⟩
        · rw [hState, hFold]
          exact hCwnd
        · have hSame :
              ((scan host s.sharedCtx.conv data).1.foldl
                ImKcpp.applyFrame s).segmentTracker.sndUna = s.segmentTracker.sndUna := by
            rwa [hState] at hUna
          have hNotAhead : ¬((scan host s.sharedCtx.conv data).1.foldl
              ImKcpp.applyFrame s).segmentTracker.sndUna > s.segmentTracker.sndUna := by
            rw [hSame]
            exact UInt32.lt_irrefl _
          rw [hState, finishInput]
          dsimp only
          rw [if_neg hNotAhead, hFold]
          exact hCwnd
      · cases h.effect hOutcome with
        | configure => cases hSteady
        | input data => exact absurd ⟨data, rfl⟩ hInput
        | idle call start hStart => cases hStart <;> exact hCwnd
        | flush call start next packets result askSend askTell hStart hDue =>
            rw [hDue] at hFlushes
            cases hFlushes
        | _ => exact hCwnd

/-- Only a flush takes segments off the send queue. -/
theorem Effect.sndQueue_ne_nil {s : ImKcpp mtu} {call : Call} {outcome : Outcome mtu}
    (h : Effect host s call outcome) (hIdle : ¬s.flushes call = true)
    (hQueue : s.sender.sndQueue ≠ []) :
    outcome.state.sender.sndQueue ≠ [] := by
  cases h with
  | input data folded sndBuf controller result hFolded =>
      rw [hFolded]
      dsimp only
      rwa [foldl_applyFrame_sender]
  | send => exact List.append_ne_nil_of_left_ne_nil hQueue _
  | idle call start hStart => cases hStart <;> exact hQueue
  | flush call start next packets result askSend askTell hStart hFlushes =>
      exact absurd hFlushes hIdle
  | _ => exact hQueue

/-- With nothing in flight and all windows open, a flush admits a segment. -/
theorem Invariant.perform_admits {s : ImKcpp mtu} (h : s.Invariant) {call : Call}
    {outcome : Outcome mtu} (hOutcome : s.perform host call = .ok outcome)
    (hFlushes : s.flushes call = true) (hIdle : s.segmentTracker.sndUna = s.segmentTracker.sndNxt)
    (hQueue : s.sender.sndQueue ≠ [])
    (hWindows : s.congestionController.sndWnd ≠ 0 ∧ s.congestionController.rmtWnd ≠ 0 ∧
      s.congestionController.cwnd ≠ 0)
    (hRoom : s.segmentTracker.sndNxt.toNat + s.congestionController.sndWnd.toNat < 2 ^ 32) :
    outcome.state.segmentTracker.sndNxt ≠ s.segmentTracker.sndNxt := by
  obtain ⟨start, packets, result, askSend, askTell, hStart, -, -, -, hFlushed⟩ :=
    h.perform_flushes hOutcome hFlushes
  obtain ⟨hTracker, hController, hSender⟩ : start.segmentTracker = s.segmentTracker ∧
      start.congestionController = s.congestionController ∧ start.sender = s.sender := by
    cases hStart <;> exact ⟨rfl, rfl, rfl⟩
  have hWindow : 0 < s.congestionController.calculateCongestionWindow.toNat := by
    obtain ⟨hSndWnd, hRmtWnd, hCwnd⟩ := hWindows
    have hPositive {word : UInt32} (hWord : word ≠ 0) : 0 < word.toNat :=
      Nat.pos_of_ne_zero fun hZero => hWord (UInt32.toNat_inj.mp hZero)
    have hSnd := hPositive hSndWnd
    have hRmt := hPositive hRmtWnd
    have hCongestion := hPositive hCwnd
    unfold CongestionController.calculateCongestionWindow
    dsimp only
    split_ifs
    · rw [toNat_min, toNat_min]
      omega
    · rw [toNat_min]
      omega
  have hLe := cwnd_le_sndWnd s.congestionController
  have hLength := List.length_pos_of_ne_nil hQueue
  rw [hFlushed.tracker_eq, moved, moveSendQueueToBuffer, Sender.moveSendQueueToBuffer_eq]
  dsimp only
  rw [hTracker, hController, hSender, hIdle]
  intro hSame
  have hNat := congrArg UInt32.toNat hSame
  have hNxt := s.segmentTracker.sndNxt.toNat_lt
  rw [UInt32.toNat_add, UInt32.toNat_ofNat', UInt32.toNat_add] at hNat
  omega

end ImKcpp

/-- The send window is never empty. -/
theorem sndWnd_of_reachable {party : Party mtu}
    (hReach : (endpointSystem host mtu conv).Reachable party) :
    party.endpoint.congestionController.sndWnd ≠ 0 := by
  refine hReach.invariant (P := fun party => party.endpoint.congestionController.sndWnd ≠ 0) ?_ ?_
  · rintro party rfl
    exact (by decide : Constants.ikcpWndSnd ≠ 0)
  · rintro party next hReach hPrior ⟨call, outcome, hOutcome, rfl⟩
    rw [Party.record_endpoint, (invariant_of_reachable hReach).perform_sndWnd hOutcome]
    cases hSet : call.sendWindow with
    | none => exact hPrior
    | some value =>
        obtain rfl : call = .configure (.sendWindow value) := by
          unfold Call.sendWindow at hSet
          split at hSet
          · rw [Option.some.inj hSet]
          · cases hSet
        obtain ⟨state, hState, -⟩ := bind_eq_ok.mp hOutcome
        obtain ⟨_, hAssert, -⟩ := bind_eq_ok.mp hState
        rintro rfl
        cases hAssert

namespace FairRun

variable {run : FairRun host mtu conv} {window una nxt next : Side → UInt32} {side : Side} {i : ℕ}

/-- In the long run the congestion window is open. -/
theorem eventually_cwnd (hRests : ∀ᶠ i in atTop, run.Rests una nxt next i) (side : Side) :
    ∀ᶠ i in atTop, (run.net i side).endpoint.congestionController.cwnd ≠ 0 := by
  have hSucc {i : ℕ} (hStill : run.Rests una nxt next i ∧ run.Rests una nxt next (i + 1))
      (hOpen : (run.net i side).endpoint.congestionController.cwnd ≠ 0 ∨ run.Flushes side i) :
      (run.net (i + 1) side).endpoint.congestionController.cwnd ≠ 0 := by
    by_cases hMoving : run.moving i = side
    · have hUna := (hStill.2.una_eq side).trans (hStill.1.una_eq side).symm
      rw [endpoint_succ hMoving] at hUna ⊢
      exact (run.invariant i side).perform_cwnd (perform hMoving) (run.steady i) hUna
        (hOpen.imp_right And.right)
    · rw [net_succ_other hMoving]
      exact hOpen.resolve_right fun hFlushes => hMoving hFlushes.1
  have hStill := eventually_rests_succ hRests
  refine eventually_of_kept (hStill.mono fun i hStill hOpen => hSucc hStill (.inl hOpen))
    (frequently_atTop.mpr fun bound => ?_)
  obtain ⟨i, hi, hFlushes, hStill⟩ :=
    frequently_atTop.mp ((run.flushes_frequently side).and_eventually hStill) bound
  exact ⟨i + 1, Nat.le_succ_of_le hi, hSucc hStill (.inr hFlushes)⟩

/-- With all numbers acknowledged, nothing is buffered. -/
theorem Rests.sndBuf_eq (h : run.Rests una nxt next i) (hUna : una side = nxt side) :
    (run.net i side).endpoint.senderBuffer.sndBuf = [] := by
  have hSender := (run.invariant i side).sender
  refine List.eq_nil_iff_forall_not_mem.mpr fun seg hSeg => ?_
  have hLow := hSender.una_le seg hSeg
  have hHigh := hSender.numbered seg hSeg
  rw [h.una_eq, hUna] at hLow
  rw [h.nxt_eq] at hHigh
  exact UInt32.not_le.mpr hHigh hLow

/-- In the long run nothing is left to send. -/
theorem eventually_sent (hFits : run.Fits window) (hRests : ∀ᶠ i in atTop, run.Rests una nxt next i)
    (side : Side) :
    ∀ᶠ i in atTop, (run.net i side).endpoint.sender.sndQueue = [] := by
  by_contra hQueued
  have hStill := eventually_rests_succ hRests
  have hWaits : ∀ i, (run.net i side).endpoint.sender.sndQueue ≠ [] → ¬run.Flushes side i →
      (run.net (i + 1) side).endpoint.sender.sndQueue ≠ [] := by
    intro i hQueue hIdle
    by_cases hMoving : run.moving i = side
    · rw [endpoint_succ hMoving]
      exact (effect hMoving).sndQueue_ne_nil (fun hFlushes => hIdle ⟨hMoving, hFlushes⟩) hQueue
    · rwa [net_succ_other hMoving]
  have hServed :=
    frequently_served (not_eventually.mp hQueued) (.of_forall hWaits) (run.flushes_frequently side)
  obtain ⟨i, -, ⟨⟨hMoving, hFlushes⟩, hQueue⟩, ⟨hRest, hRestNext⟩, hRmtWnd, hCwnd⟩ :=
    frequently_atTop.mp
    (hServed.and_eventually
      (hStill.and ((eventually_rmtWnd hFits hRests side).and (eventually_cwnd hRests side)))) 0
  have hUna := hFits.una_eq_nxt hRests side
  refine (run.invariant i side).perform_admits (perform hMoving) hFlushes ?_ hQueue
    ⟨sndWnd_of_reachable (run.party i side), hRmtWnd, hCwnd⟩ ?_ ?_
  · rw [hRest.una_eq, hRest.nxt_eq, hUna]
  · have hGiven := sndNxt_le_fragments (run.reachable i) side
    have hTotal := hFits.total_le i side
    have hSndWnd := hFits.sndWnd_le side
    rw [run.sndWnd_eq]
    omega
  · rw [← endpoint_succ hMoving, hRestNext.nxt_eq, hRest.nxt_eq]

end FairRun

section Idle

/-- What an `update` in the next millisecond returns. -/
def ImKcpp.ticked (host : Host) (s : ImKcpp mtu) : Outcome mtu :=
  (s.perform host (.update (s.current + 1))).toOption.getD { state := s }

theorem ImKcpp.Quiet.ticked {s : ImKcpp mtu} (h : s.Quiet) (host : Host) :
    s.perform host (.update (s.current + 1)) = .ok (s.ticked host) ∧ (s.ticked host).state.Quiet ∧
      (s.ticked host).datagrams = [] ∧ (s.ticked host).state.receiver = s.receiver := by
  obtain ⟨next, result, hUpdate, hQuiet, -, hStanding⟩ := h.update host (s.current + 1)
  have hTicked : s.ticked host = { state := next, response := .flush result } := by
    rw [ImKcpp.ticked, hUpdate]
    rfl
  rw [hTicked]
  exact ⟨hUpdate, hQuiet, rfl, congrArg Standing.receiver hStanding⟩

/-- The sides in turn. -/
def Side.turn (i : ℕ) : Side := if i % 2 = 0 then .left else .right

theorem Side.turn_frequently (side : Side) : ∃ᶠ i in atTop, Side.turn i = side := by
  refine frequently_atTop.mpr fun bound => ?_
  cases side with
  | left => exact ⟨2 * bound, by omega, by simp [Side.turn]⟩
  | right => exact ⟨2 * bound + 1, by omega, by simp [Side.turn, Nat.add_mod]⟩

/-- Both sides call `update` in turn and nothing else. -/
def Network.idle (host : Host) (net : Network mtu) : ℕ → Network mtu
  | 0 => net
  | i + 1 =>
    let before := net.idle host i
    Function.update before (Side.turn i) ((before (Side.turn i)).record
      (.update ((before (Side.turn i)).endpoint.current + 1))
        ((before (Side.turn i)).endpoint.ticked host))

variable {net : Network mtu}

theorem Network.idle_quiet (hQuiet : ∀ side, (net side).endpoint.Quiet) (host : Host)
    (i : ℕ) (side : Side) :
    (net.idle host i side).endpoint.Quiet ∧
      (net.idle host i side).endpoint.receiver = (net side).endpoint.receiver ∧
      (net.idle host i side).accepted = (net side).accepted := by
  induction i with
  | zero => exact ⟨hQuiet side, rfl, rfl⟩
  | succ i ih =>
      obtain ⟨hPrior, hReceiver, hAccepted⟩ := ih
      dsimp only [Network.idle]
      by_cases hTurn : side = Side.turn i
      · rw [← hTurn, Function.update_self, Party.record_endpoint, Party.record_accepted]
        obtain ⟨-, hNext, -, hSame⟩ := hPrior.ticked host
        exact ⟨hNext, hSame.trans hReceiver, (List.append_nil _).trans hAccepted⟩
      · rw [Function.update_of_ne hTurn]
        exact ⟨hPrior, hReceiver, hAccepted⟩

/-- With nothing to send and nothing to read, that goes on forever. -/
def FairRun.idle (hReach : (networkSystem host mtu conv).Reachable net)
    (hQuiet : ∀ side, (net side).endpoint.Quiet)
    (hRead : ∀ side, ∃ error, (net side).endpoint.receiver.peekSize = .error error) :
    FairRun host mtu conv where
  net := net.idle host
  moving := Side.turn
  call i := .update ((net.idle host i (Side.turn i)).endpoint.current + 1)
  outcome i := (net.idle host i (Side.turn i)).endpoint.ticked host
  reachable_zero := hReach
  perform_eq i := ((Network.idle_quiet hQuiet host i (Side.turn i)).1.ticked host).1
  net_succ _ := rfl
  genuine i data hCall := nomatch hCall
  steady _ := trivial
  clock i now hCall _ := by
    rw [← Call.update.inj hCall, UInt32.add_comm, UInt32.add_sub_cancel]
    decide
  updates side := (Side.turn_frequently side).mono fun i hTurn => ⟨hTurn, _, rfl⟩
  reads side := .of_forall fun i => by
    rw [ImKcpp.peekSize, (Network.idle_quiet hQuiet host i side).2.1]
    exact hRead side
  fair side kind hEmits := by
    obtain ⟨i, -, hTurn, frame, hFrame, -⟩ := frequently_atTop.mp hEmits 0
    rw [((Network.idle_quiet hQuiet host i (Side.turn i)).1.ticked host).2.2.1] at hFrame
    cases hFrame
  finite side datagrams hArrives := by
    obtain ⟨i, -, -, data, -, hCall⟩ := frequently_atTop.mp hArrives 0
    cases hCall

/-- A run with one more call in front. -/
def FairRun.cons (run : FairRun host mtu conv) {side : Side} {call : Call} {outcome : Outcome mtu}
    (hReach : (networkSystem host mtu conv).Reachable net)
    (hOutcome : (net side).endpoint.perform host call = .ok outcome)
    (hNext : run.net 0 = Function.update net side ((net side).record call outcome))
    (hGenuine : ∀ data, call = .input data → data ∈ (net side.peer).emitted)
    (hSteady : call.Steady) (hClock : ∀ now, call ≠ .update now) : FairRun host mtu conv where
  net := fun | 0 => net | i + 1 => run.net i
  moving := fun | 0 => side | i + 1 => run.moving i
  call := fun | 0 => call | i + 1 => run.call i
  outcome := fun | 0 => outcome | i + 1 => run.outcome i
  reachable_zero := hReach
  perform_eq := fun | 0 => hOutcome | i + 1 => run.perform_eq i
  net_succ := fun | 0 => hNext | i + 1 => run.net_succ i
  genuine := fun | 0 => hGenuine | i + 1 => run.genuine i
  steady := fun | 0 => hSteady | i + 1 => run.steady i
  clock := fun | 0 => fun now hCall => absurd hCall (hClock now) | i + 1 => run.clock i
  updates side := frequently_succ.mp (run.updates side)
  reads side := frequently_succ.mp (run.reads side)
  fair side kind hEmits := frequently_succ.mp (run.fair side kind (frequently_succ.mpr hEmits))
  finite side datagrams hArrives :=
    frequently_succ.mp (run.finite side datagrams (frequently_succ.mpr hArrives))

/-- An endpoint that has come to rest. -/
theorem quiet_of_reachable {party : Party mtu}
    (hReach : (endpointSystem host mtu conv).Reachable party) {rmtWnd : ℕ} (hOpen : 0 < rmtWnd)
    (h : [party.endpoint.sender.sndQueue.length, party.endpoint.windowProber.probe.toNat,
      party.endpoint.congestionController.rmtWnd.toNat, party.endpoint.ackController.acklist.length,
      party.endpoint.senderBuffer.sndBuf.length] =
        [0, 0, rmtWnd, 0, 0]) : party.endpoint.Quiet := by
  simp only [List.cons.injEq, List.length_eq_zero_iff] at h
  obtain ⟨hQueue, hProbe, hWindow, hAcks, hBuffer, -⟩ := h
  have hWide : party.endpoint.congestionController.rmtWnd ≠ 0 := by
    intro hZero
    rw [hZero] at hWindow
    exact hOpen.ne hWindow
  exact {
    toInvariant := invariant_of_reachable hReach
    unsent := hQueue
    unasked := UInt32.toNat_inj.mp hProbe
    window := hWide
    answered := hAcks
    acknowledged := hBuffer }

/-- Default windows with nothing out of order. -/
theorem windowed_of_default {s : ImKcpp mtu} {queued : ℕ} (hQueued : queued ≤ 128)
    (h : [s.receiver.queueLimit.toNat, s.congestionController.rcvWnd.toNat,
      s.congestionController.sndWnd.toNat, s.receiver.rcvQueue.length, s.receiver.rcvBuf.length] =
        [128, 128, 32, queued, 0]) :
    s.Windowed 128 ∧ s.congestionController.sndWnd.toNat = 32 := by
  simp only [List.cons.injEq, List.length_eq_zero_iff] at h
  obtain ⟨hLimit, hRcvWnd, hSndWnd, hQueue, hBuffer, -⟩ := h
  refine ⟨⟨by decide, UInt32.toNat_inj.mp hLimit, UInt32.toNat_inj.mp hRcvWnd, ?_, ?_⟩, hSndWnd⟩
  · rw [hLimit, hQueue]
    exact hQueued
  · intro seg hSeg
    rw [hBuffer] at hSeg
    cases hSeg

end Idle

end Imkcpp
