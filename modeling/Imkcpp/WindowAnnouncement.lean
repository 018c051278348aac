import Imkcpp.Configuration
import Imkcpp.FlowControl
import Imkcpp.Quiescence
import Imkcpp.ReceiveWindow

/-! Announcing the receive window. A flush that advertises a closed window leaves the
queue full; from then on either the queue stays full or the flag is raised that makes
the next flush announce the window. -/
namespace Imkcpp

open Transition

variable {mtu : Mtu} {host : Host} {conv window : UInt32}

/-- A probe of this kind is asked for. -/
def WindowProber.Asked (prober : WindowProber) (flag : ProbeFlag) : Prop :=
  prober.probe &&& flag.value ≠ 0

namespace WindowProber

variable {prober next : WindowProber} {flag : ProbeFlag}

/-- Raising other flags drops no request. -/
theorem Asked.or (h : prober.Asked flag) {bits : UInt32}
    (hNext : next.probe = prober.probe ||| bits) :
    next.Asked flag := by
  rw [Asked, hNext]
  intro hZero
  refine h (UInt32.toBitVec_inj.mp ?_)
  have hBits := congrArg UInt32.toBitVec hZero
  ext i hi
  have hBit := congrArg (fun word : BitVec 32 => word[i]) hBits
  simp at hBit ⊢
  grind

theorem asked_of_set (hNext : next.probe = prober.probe ||| flag.value) : next.Asked flag := by
  have hAbsorbed : (prober.probe ||| flag.value) &&& flag.value = flag.value := by
    refine UInt32.toBitVec_inj.mp ?_
    ext i hi
    simp only [UInt32.toBitVec_and, UInt32.toBitVec_or, BitVec.getElem_and, BitVec.getElem_or]
    cases flag.value.toBitVec[i] <;> simp
  rw [Asked, hNext, hAbsorbed]
  cases flag <;> decide

theorem update_probe {current rmtWnd : UInt32} (hUpdate : prober.update current rmtWnd = .ok next) :
    next.probe = prober.probe ∨ next.probe = prober.probe ||| ProbeFlag.askSend.value := by
  unfold WindowProber.update at hUpdate
  by_cases hOpen : (rmtWnd != 0) = true
  · rw [if_pos hOpen] at hUpdate
    exact .inl (congrArg WindowProber.probe (Except.ok.inj hUpdate)).symm
  rw [if_neg hOpen] at hUpdate
  by_cases hFirst : (prober.probeWait == 0) = true
  · rw [if_pos hFirst] at hUpdate
    exact .inl (congrArg WindowProber.probe (Except.ok.inj hUpdate)).symm
  rw [if_neg hFirst] at hUpdate
  by_cases hDue : timeDelta current prober.tsProbe ≥ 0
  · rw [if_pos hDue, setFlag_eq] at hUpdate
    exact .inr (congrArg WindowProber.probe (Except.ok.inj hUpdate)).symm
  · rw [if_neg hDue] at hUpdate
    exact .inl (congrArg WindowProber.probe (Except.ok.inj hUpdate)).symm

/-- Neither does probing the window of the peer. -/
theorem Asked.update (h : prober.Asked flag) {current rmtWnd : UInt32}
    (hUpdate : prober.update current rmtWnd = .ok next) : next.Asked flag := by
  rcases update_probe hUpdate with hSame | hSet
  · rwa [Asked, hSame]
  · exact h.or hSet

end WindowProber

/-- `recv` reports the moment at which a full queue stops being full. -/
theorem Receiver.recv_recovered {receiver next : Receiver} {n : Nat}
    {buffer written : Vector UInt8 n} {rcvWnd : UInt32} {result : Except Error ReceiveResult}
    (h : receiver.recv buffer rcvWnd = .ok (next, written, result)) :
    (next = receiver ∧ ∃ error, result = .error error) ∨
      ∃ outcome, result = .ok outcome ∧ (outcome.recovered = true ↔
        next.rcvQueue.length < rcvWnd.toNat ∧ rcvWnd.toNat ≤ receiver.rcvQueue.length) := by
  unfold Receiver.recv at h
  cases hPeek : receiver.peekSize with
  | error error =>
      rw [hPeek] at h
      obtain ⟨rfl, hResult⟩ := Prod.mk.inj (Except.ok.inj h)
      exact .inl ⟨rfl, error, (Prod.mk.inj hResult).2.symm⟩
  | ok size =>
      rw [hPeek] at h
      dsimp only at h
      split_ifs at h
      · obtain ⟨rfl, hResult⟩ := Prod.mk.inj (Except.ok.inj h)
        exact .inl ⟨rfl, _, (Prod.mk.inj hResult).2.symm⟩
      · obtain ⟨⟨rcvQueue, copied, offset⟩, -, h⟩ := bind_eq_ok.mp h
        obtain ⟨-, -, h⟩ := bind_eq_ok.mp h
        obtain ⟨rfl, hResult⟩ := Prod.mk.inj (Except.ok.inj h)
        exact .inr ⟨_, (Prod.mk.inj hResult).2.symm, by simp⟩

namespace Receiver

/-- A segment that arrives only makes the queue longer. -/
theorem le_emplaceSegment_length {receiver : Receiver} (h : ReceiverInvariant receiver)
    (header : SegmentHeader) (data : List UInt8) :
    receiver.rcvQueue.length ≤ (receiver.emplaceSegment header data).rcvQueue.length := by
  rcases emplaceSegment_cases h.increasing header data with ⟨-, hSame⟩ | ⟨-, hInsert⟩
  · rw [hSame]
  · rw [hInsert]
    have hMoved := rcvQueue_prefix_move { receiver with
      rcvBuf := OrderedList.insertByKey Segment.key { header, data } receiver.rcvBuf }
    exact hMoved.length_le

end Receiver

namespace ImKcpp

section Asked

/-- A `WASK` asks for the announcement, and no other segment takes the request back. -/
theorem applyFrame_asked {s : ImKcpp mtu} {frame : Frame}
    (h : s.windowProber.Asked .askTell ∨ frame.header.cmd = Commands.wask) :
    (s.applyFrame frame).windowProber.Asked .askTell := by
  by_cases hWask : frame.header.cmd = Commands.wask
  · rw [applyFrame_wask s hWask]
    exact WindowProber.asked_of_set rfl
  · rw [applyFrame_windowProber s hWask]
    exact h.resolve_right hWask

theorem foldl_applyFrame_asked {frames : List Frame} {s : ImKcpp mtu}
    (h : s.windowProber.Asked .askTell ∨ ∃ frame ∈ frames, frame.header.cmd = Commands.wask) :
    (frames.foldl ImKcpp.applyFrame s).windowProber.Asked .askTell := by
  induction frames generalizing s with
  | nil => exact h.resolve_right (by simp)
  | cons frame rest ih =>
      rw [List.exists_mem_cons_iff, ← or_assoc] at h
      exact ih (h.imp_left applyFrame_asked)

/-- Only a flush answers the request. -/
theorem Invariant.perform_asked {s : ImKcpp mtu} (h : s.Invariant) {call : Call}
    {outcome : Outcome mtu} (hOutcome : s.perform host call = .ok outcome)
    (hIdle : s.flushes call = false) (hAsked : s.windowProber.Asked .askTell) :
    outcome.state.windowProber.Asked .askTell := by
  rcases h.perform_tells hOutcome hIdle with hSame | hTold
  · rwa [hSame]
  · exact hAsked.or (congrArg WindowProber.probe hTold)

/-- A `WASK` among the accepted headers asks for the announcement. -/
theorem Invariant.asked_of_wask {s : ImKcpp mtu} (h : s.Invariant) {call : Call}
    {outcome : Outcome mtu} (hOutcome : s.perform host call = .ok outcome)
    (hWask : ∃ header ∈ (⟨s, call, outcome⟩ : Event mtu).headers host, header.cmd = Commands.wask) :
    outcome.state.windowProber.Asked .askTell := by
  obtain ⟨header, hHeader, hCmd⟩ := hWask
  cases h.effect hOutcome with
  | input data folded sndBuf controller result hFolded =>
      obtain ⟨frame, hFrame, rfl⟩ := List.mem_map.mp hHeader
      rw [hFolded]
      exact foldl_applyFrame_asked (.inr ⟨frame, hFrame, hCmd⟩)
  | idle call start hStart => cases hStart <;> cases hHeader
  | flush call start next packets result askSend askTell hStart => cases hStart <;> cases hHeader
  | _ => cases hHeader

/-- A flush sends the announcement that has been asked for. -/
theorem Invariant.announces {s : ImKcpp mtu} (h : s.Invariant) {call : Call} {outcome : Outcome mtu}
    (hOutcome : s.perform host call = .ok outcome) (hFlushes : s.flushes call = true)
    (hAsked : s.windowProber.Asked .askTell) :
    ∃ frame ∈ outcome.datagrams.flatMap (framesOf host), frame.header.cmd = Commands.wins := by
  obtain ⟨start, packets, result, askSend, askTell, hStart, -, -, hShape, hFlushed⟩ :=
    h.perform_flushes hOutcome hFlushes
  have hProber : start.windowProber = s.windowProber := by cases hStart <;> rfl
  obtain ⟨prober, hUpdate, -, rfl⟩ := hFlushed.asks
  have hTell : ((prober.probe &&& ProbeFlag.askTell.value) != 0) = true := by
    rw [hProber] at hUpdate
    exact bne_iff_ne.mpr (hAsked.update hUpdate)
  refine ⟨start.probeFrame Commands.wins, ?_, rfl⟩
  rw [hShape]
  dsimp only
  rw [hFlushed.framesOf_eq (hStart.invariant h).toSending, hFlushed.frames_eq, hTell]
  exact ImKcpp.mem_flushFrames.mpr (.inr (.inr (.inl ⟨rfl, rfl⟩)))

end Asked

/-- The receive queue leaves no room in the window. -/
def Closed (s : ImKcpp mtu) : Prop :=
  s.congestionController.rcvWnd.toNat ≤ s.receiver.rcvQueue.length

/-- The moment at which the queue stops being full is noticed. -/
theorem Closed.recv {s next : ImKcpp mtu} (h : s.Closed) {n : Nat} {buffer written : Vector UInt8 n}
    {result : Except Error Nat} (hRecv : s.recv buffer = .ok (next, written, result)) :
    next.Closed ∨ next.windowProber.Asked .askTell := by
  obtain ⟨⟨receiver, received, outcome⟩, hReceiver, hReturn⟩ := bind_eq_ok.mp hRecv
  rcases Receiver.recv_recovered hReceiver with ⟨rfl, error, rfl⟩ | ⟨outcome, rfl, hRecovered⟩
  · obtain ⟨rfl, -⟩ := Prod.mk.inj (Except.ok.inj hReturn)
    exact .inl h
  · dsimp only at hReturn
    cases hCrossed : outcome.recovered with
    | true =>
        rw [hCrossed, if_pos rfl, WindowProber.setFlag_eq, ok_bind] at hReturn
        obtain ⟨rfl, -⟩ := Prod.mk.inj (Except.ok.inj hReturn)
        exact .inr (WindowProber.asked_of_set rfl)
    | false =>
        rw [hCrossed, if_neg Bool.false_ne_true] at hReturn
        obtain ⟨rfl, -⟩ := Prod.mk.inj (Except.ok.inj hReturn)
        refine .inl ?_
        by_contra hOpen
        rw [hRecovered.mpr ⟨Nat.lt_of_not_le hOpen, h⟩] at hCrossed
        cases hCrossed

/-- A closed window stays closed, or the announcement is asked for. -/
theorem Closed.perform {s : ImKcpp mtu} (h : s.Closed) (hInvariant : s.Invariant) {call : Call}
    {outcome : Outcome mtu} (hOutcome : s.perform host call = .ok outcome)
    (hKept : call.receiveWindow = none) :
    outcome.state.Closed ∨ outcome.state.windowProber.Asked .askTell := by
  cases hInvariant.effect hOutcome with
  | configure setting interval rtoCalculator controller queueLimit fastresend fastlimit
      nodelay deadLink
      hSetting =>
      obtain ⟨-, hRcvWnd⟩ := configure_receiveWindow hSetting fun value hValue => by
        rw [hValue] at hKept
        cases hKept
      unfold Closed at h ⊢
      dsimp only at hRcvWnd ⊢
      rw [hRcvWnd]
      exact .inl h
  | input data folded sndBuf controller result hFolded hCore hRcvWnd =>
      have hFold := hInvariant.foldl_receiver
        (fun receiver rcvWnd header data hReceiver
            (hClosed : rcvWnd.toNat ≤ receiver.rcvQueue.length) =>
          hClosed.trans (Receiver.le_emplaceSegment_length hReceiver header data))
        (scan_accepted host s.sharedCtx.conv data) h
      rw [← hFolded] at hFold
      unfold Closed
      rw [hRcvWnd]
      exact .inl hFold
  | recv buffer =>
      obtain ⟨written, result, hRecv⟩ := perform_recv hOutcome
      exact h.recv hRecv
  | idle call start hStart => cases hStart <;> exact .inl h
  | flush call start next packets result askSend askTell hStart hFlushes hFlushed =>
      unfold Closed
      rw [hFlushed.receiver_eq, hFlushed.rcvWnd_eq]
      cases hStart <;> exact .inl h
  | _ => exact .inl h

/-- A closed window is what a header shows as zero. -/
theorem Windowed.closed_iff {s : ImKcpp mtu} (h : s.Windowed window) (hDefault : 128 ≤ window.toNat)
    (hSmall : window.toNat ≤ 65535) : s.serviceHeader.wnd = 0 ↔ s.Closed := by
  have hWindow : s.congestionController.rcvWnd.toNat = window.toNat := by
    rw [h.rcvWnd_eq, toNat_max]
    exact Nat.max_eq_left hDefault
  have hQueue := h.queued_le
  rw [h.queueLimit_eq, ← hWindow] at hQueue
  have hWnd : s.serviceHeader.wnd.toNat = s.unusedReceiveWindow.toUInt32.toNat % 2 ^ 16 :=
    UInt32.toNat_toUInt16 _
  rw [unusedReceiveWindow_toNat hQueue, if_pos (by omega)] at hWnd
  rw [← UInt16.toNat_inj, hWnd, Closed, UInt16.toNat_zero]
  omega

/-- A call that does not set the window keeps its properties. -/
theorem Windowed.perform {s : ImKcpp mtu} (h : s.Windowed window)
    (hInvariant : s.Invariant) {call : Call} {outcome : Outcome mtu}
    (hOutcome : s.perform host call = .ok outcome) (hKept : call.receiveWindow = none) :
    outcome.state.Windowed window := by
  refine (hInvariant.effect hOutcome).windowed hInvariant h ?_
  rintro value rfl
  cases hKept

end ImKcpp

/-- The window of an endpoint through which no data has come. -/
structure Party.Unopened (window : UInt32) (party : Party mtu) : Prop where
  windowed : party.endpoint.Windowed window
  rcvBuf_eq : party.endpoint.receiver.rcvBuf = []
  rcvQueue_eq : party.endpoint.receiver.rcvQueue = []

namespace Party

variable {party : Party mtu} {call : Call} {outcome : Outcome mtu}

theorem Unopened.fresh : (Party.fresh mtu conv).Unopened Constants.ikcpWndRcv where
  windowed := ⟨by decide, rfl, rfl, Nat.zero_le _,
    by simp [Receiver.Settled, Party.fresh, ImKcpp.create]⟩
  rcvBuf_eq := rfl
  rcvQueue_eq := rfl

/-- Without input nothing arrives, and the window can still be set. -/
theorem Unopened.record (h : party.Unopened window) (hInvariant : party.endpoint.Invariant)
    (hOutcome : party.endpoint.perform host call = .ok outcome)
    (hInput : ∀ data, call ≠ .input data) :
    (party.record call outcome).Unopened (call.receiveWindow.getD window) := by
  have hEffect := hInvariant.effect hOutcome
  have hEmpty : outcome.state.receiver.rcvBuf = [] ∧ outcome.state.receiver.rcvQueue = [] := by
    have hSame := And.intro h.rcvBuf_eq h.rcvQueue_eq
    cases hEffect with
    | input data => exact absurd rfl (hInput data)
    | recv buffer rest prober hReady hSuffix =>
        rw [h.rcvQueue_eq, List.suffix_nil] at hSuffix
        have hMoved : { party.endpoint.receiver with rcvQueue := rest }.moveReceiveBufferToQueue =
            { party.endpoint.receiver with rcvBuf := [], rcvQueue := [] } := by
          rw [Receiver.moveReceiveBufferToQueue, h.rcvBuf_eq, hSuffix]
          rfl
        dsimp only
        rw [hMoved]
        exact ⟨rfl, rfl⟩
    | idle call start hStart => cases hStart <;> exact hSame
    | flush call start next packets result askSend askTell hStart hFlushes hFlushed =>
        dsimp only
        rw [hFlushed.receiver_eq]
        cases hStart <;> exact hSame
    | _ => exact hSame
  refine ⟨?_, hEmpty.1, hEmpty.2⟩
  cases hSet : call.receiveWindow with
  | none => exact h.windowed.perform hInvariant hOutcome hSet
  | some value =>
      obtain rfl : call = .configure (.receiveWindow value) := Call.receiveWindow_eq_some.mp hSet
      exact ImKcpp.windowed_of_set h.rcvBuf_eq h.rcvQueue_eq hOutcome

end Party

theorem windowed_of_fixed {party : Party mtu}
    (hReach : (endpointSystem host mtu conv).Reachable party)
    (hFixed : Fixed Call.receiveWindow Constants.ikcpWndRcv
      (fun event => ∀ data, event.call ≠ .input data) window party.history) :
    party.endpoint.Windowed window := by
  refine hFixed.induct (Q := fun window party => party.Unopened window)
    (P := fun window party => party.endpoint.Windowed window) Party.Unopened.fresh ?_ ?_ ?_ hReach
  · exact fun party value call outcome hReach hPrior hOutcome hQuiet =>
      hPrior.record (invariant_of_reachable hReach) hOutcome hQuiet
  · exact fun party value hReach hPrior => hPrior.windowed
  · exact fun party value call outcome hReach hPrior hOutcome hOther =>
      hPrior.perform (invariant_of_reachable hReach) hOutcome hOther

/-- Between two flushes of which the first finds the receive window closed and the
second finds it open, and behind a `WASK`, the announcement is owed; and the second
flush sends it. -/
theorem window_announced {party : Party mtu}
    (hReach : (endpointSystem host mtu conv).Reachable party)
    {before between after : List (Event mtu)} {first second : Event mtu}
    (hHistory : party.history = before ++ first :: (between ++ second :: after))
    (hBetween : ∀ event ∈ between, event.before.flushes event.call = false)
    (hSecond : second.before.flushes second.call = true)
    (hOwed : (∃ header ∈ first.headers host, header.cmd = Commands.wask) ∨
      ∃ window : UInt32, 128 ≤ window.toNat ∧ window.toNat ≤ 65535 ∧
        Fixed Call.receiveWindow Constants.ikcpWndRcv
          (fun event => ∀ data, event.call ≠ .input data) window before ∧
        (∀ event ∈ first :: between, event.call.receiveWindow = none) ∧
        first.before.serviceHeader.wnd = 0 ∧ second.before.serviceHeader.wnd ≠ 0) :
    ∃ frame ∈ second.outcome.datagrams.flatMap (framesOf host),
      frame.header.cmd = Commands.wins := by
  rw [← List.cons_append, ← List.append_assoc] at hHistory
  obtain ⟨prior, hPrior, hPriorHistory, hState, hOutcome⟩ := Party.exists_prior hReach hHistory
  rw [← hState] at hSecond hOwed
  refine (invariant_of_reachable hPrior).announces hOutcome hSecond ?_
  rcases hOwed with hWask | ⟨window, hDefault, hSmall, hFixed, hKept, hFirst, hOpen⟩
  · refine Party.since_induct (P := fun party => party.endpoint.windowProber.Asked .askTell)
      ?_ ?_ hPrior hPriorHistory
    · intro party hReach _ hSame hOutcome
      refine (invariant_of_reachable hReach).asked_of_wask hOutcome ?_
      rw [hSame]
      exact hWask
    · intro party hReach hAsked event hEvent hSame hOutcome
      have hIdle := hBetween event hEvent
      rw [← hSame] at hIdle
      exact (invariant_of_reachable hReach).perform_asked hOutcome hIdle hAsked
  · have hOwes : prior.endpoint.Windowed window ∧
        (prior.endpoint.Closed ∨ prior.endpoint.windowProber.Asked .askTell) := by
      refine Party.since_induct (P := fun party => party.endpoint.Windowed window ∧
        (party.endpoint.Closed ∨
          party.endpoint.windowProber.Asked .askTell)) ?_ ?_ hPrior hPriorHistory
      · intro party hReach hHistory hSame hOutcome
        rw [← hHistory] at hFixed
        have hWindowed := windowed_of_fixed hReach hFixed
        have hClosed := (hWindowed.closed_iff hDefault hSmall).mp (hSame ▸ hFirst)
        have hUnset := hKept first (List.mem_cons_self ..)
        exact ⟨hWindowed.perform (invariant_of_reachable hReach) hOutcome hUnset,
          hClosed.perform (invariant_of_reachable hReach) hOutcome hUnset⟩
      · rintro party hReach ⟨hWindowed, hOwed⟩ event hEvent hSame hOutcome
        have hInvariant := invariant_of_reachable hReach
        have hUnset := hKept event (List.mem_cons_of_mem _ hEvent)
        have hIdle := hBetween event hEvent
        rw [← hSame] at hIdle
        refine ⟨hWindowed.perform hInvariant hOutcome hUnset, ?_⟩
        rcases hOwed with hClosed | hAsked
        · exact hClosed.perform hInvariant hOutcome hUnset
        · exact .inr (hInvariant.perform_asked hOutcome hIdle hAsked)
    have hNotClosed : ¬prior.endpoint.Closed := fun hClosed =>
      hOpen ((hOwes.1.closed_iff hDefault hSmall).mpr hClosed)
    exact hOwes.2.resolve_left hNotClosed

/-- One-byte messages that arrive one after the other. -/
def arriving (host : Host) (count : Nat) : List Call :=
  (List.range count).map fun sn =>
    .input (wire host [⟨{ cmd := Commands.push, sn := UInt32.ofNat sn, len := 1 }, [7]⟩])

/-- A queue is filled to the default window, shown to be full, and read from. -/
theorem window_announced_default :
    ∃ (party : Party .least) (before : List (Event .least)) (first reading second : Event .least),
      (Party.fresh .least 0).run Host.x8664 (arriving Host.x8664 128 ++
        [.update 0, .recv #v[(0 : UInt8)], .flush]) = .ok party ∧
      party.history = before ++ first :: ([reading] ++ second :: []) ∧
      ∃ frame ∈ second.outcome.datagrams.flatMap (framesOf Host.x8664),
        frame.header.cmd = Commands.wins := by
  have hRuns : ((Party.fresh .least 0).run Host.x8664 (arriving Host.x8664 128 ++
      [.update 0, .recv #v[(0 : UInt8)], .flush])).map (fun party =>
        (party.history.drop 128).map fun event =>
          (event.before.flushes event.call, event.before.serviceHeader.wnd)) =
      .ok [(true, 0), (false, 0), (true, 1)] := by decide +kernel
  obtain ⟨party, hRun, hFacts⟩ := map_eq_ok.mp hRuns
  have hReach := Party.reachable_run (.of_init rfl) hRun
  have hSplit := hRun
  rw [Party.run_append] at hSplit
  obtain ⟨filled, hFilled, hSplit⟩ := bind_eq_ok.mp hSplit
  obtain ⟨shown, -, hSplit⟩ := bind_eq_ok.mp hSplit
  obtain ⟨read, -, hSplit⟩ := bind_eq_ok.mp hSplit
  obtain ⟨told, -, hSplit⟩ := bind_eq_ok.mp hSplit
  obtain rfl := Except.ok.inj hSplit
  have hCalls : filled.history.map Event.call = arriving Host.x8664 128 := Party.calls_run hFilled
  have hLength : filled.history.length = 128 := by
    simpa [arriving] using congrArg List.length hCalls
  have hUnset : ∀ event ∈ filled.history, event.call.receiveWindow = none := by
    intro event hEvent
    have hCall := List.mem_map_of_mem (f := Event.call) hEvent
    rw [hCalls] at hCall
    obtain ⟨sn, -, hInput⟩ := List.mem_map.mp hCall
    rw [← hInput]
    rfl
  have hHistory : (((filled.record (.update 0) shown).record (.recv #v[(0 : UInt8)]) read).record
      .flush told).history = filled.history ++
        (⟨filled.endpoint, .update 0, shown⟩ ::
          ([⟨shown.state, .recv #v[(0 : UInt8)], read⟩] ++ ⟨read.state, .flush, told⟩ :: [])) := by
    simp [Party.record]
  rw [hHistory, List.drop_left' hLength] at hFacts
  simp only [List.cons_append, List.nil_append, List.map_cons, List.map_nil, List.cons.injEq,
    Prod.mk.injEq, and_true] at hFacts
  obtain ⟨⟨-, hClosed⟩, ⟨hIdle, -⟩, hFlushes, hOpen⟩ := hFacts
  refine ⟨_, filled.history, _, _, _, hRun, hHistory, ?_⟩
  refine window_announced hReach hHistory (by simpa using hIdle) hFlushes
    (.inr ⟨128, by decide, by decide, ⟨[], filled.history, rfl, by simp, rfl, hUnset⟩, ?_,
      hClosed, ?_⟩)
  · simp [Call.receiveWindow]
  · rw [hOpen]
    decide

end Imkcpp
