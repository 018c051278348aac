import Imkcpp.Emission

/-! The receive window. `set_receive_window` sets two limits by different rules:
the one that queueing observes is the value itself, the one that is advertised
never goes below the default. -/
namespace Imkcpp

open Transition

variable {mtu : Mtu} {host : Host}

/-- How many more segments the receive queue can take. -/
def Receiver.room (receiver : Receiver) : Nat :=
  receiver.queueLimit.toNat - receiver.rcvQueue.length

/-- The first call was `set_receive_window(w)`, and the window has not been set since. -/
def Party.WindowSet (w : UInt32) (party : Party mtu) : Prop :=
  ∃ later, party.calls = .configure (.receiveWindow w) :: later ∧
    ∀ value, .configure (.receiveWindow value) ∉ later

/-- The receiver after `set_receive_window(w)` and any traffic, with the window
of the congestion controller: whatever can be in the queue is there, and the
queue is never longer than `w`. -/
structure Windowed (w : UInt32) (receiver : Receiver) (rcvWnd : UInt32) : Prop where
  positive : 0 < w
  queueLimit_eq : receiver.queueLimit = w
  rcvWnd_eq : rcvWnd = max w Constants.ikcpWndRcv
  queued_le : receiver.rcvQueue.length ≤ receiver.queueLimit.toNat
  settled : receiver.Settled

namespace Windowed

variable {w rcvWnd : UInt32} {receiver : Receiver}

/-- Moving segments to the queue settles the receiver. -/
theorem move (h : Windowed w receiver rcvWnd) {other : Receiver}
    (hLimit : other.queueLimit = receiver.queueLimit)
    (hQueue : other.rcvQueue.length ≤ receiver.rcvQueue.length) :
    Windowed w other.moveReceiveBufferToQueue rcvWnd where
  positive := h.positive
  queueLimit_eq := hLimit.trans h.queueLimit_eq
  rcvWnd_eq := h.rcvWnd_eq
  queued_le := Receiver.move_rcvQueue_length_le (hLimit ▸ hQueue.trans h.queued_le)
  settled := Receiver.move_settled other

theorem emplace (h : Windowed w receiver rcvWnd) (hInvariant : ReceiverInvariant receiver)
    (header : SegmentHeader) (data : List UInt8) :
    Windowed w (receiver.emplaceSegment header data) rcvWnd := by
  rcases Receiver.emplaceSegment_cases hInvariant.increasing header data with
    ⟨-, hSame⟩ | ⟨-, hInsert⟩
  · rwa [hSame]
  · rw [hInsert]
    exact h.move rfl (Nat.le_refl _)

end Windowed

namespace ImKcpp

variable {w : UInt32}

abbrev Windowed (w : UInt32) (s : ImKcpp mtu) : Prop :=
  Imkcpp.Windowed w s.receiver s.congestionController.rcvWnd

/-- What storing a segment keeps of the receiver and its window, a datagram keeps. -/
theorem Invariant.foldl_receiver {P : Receiver → UInt32 → Prop} {s : ImKcpp mtu} (h : s.Invariant)
    (hStore : ∀ receiver rcvWnd header data, ReceiverInvariant receiver → P receiver rcvWnd →
      P (receiver.emplaceSegment header data) rcvWnd)
    {frames : List Frame} (hFrames : ∀ frame ∈ frames, frame.Accepted s.sharedCtx.conv)
    (hStart : P s.receiver s.congestionController.rcvWnd) :
    let t := frames.foldl ImKcpp.applyFrame s
    P t.receiver t.congestionController.rcvWnd := by
  refine h.foldl_induct (P := fun t => P t.receiver t.congestionController.rcvWnd) ?_ hFrames hStart
  intro t frame hInvariant _ hPrior
  unfold ImKcpp.applyFrame ImKcpp.applyPush
  dsimp only
  split_ifs
  · exact hPrior
  · exact hStore _ _ frame.header frame.payload hInvariant.receiver hPrior
  · exact hPrior
  · exact hPrior
  · exact hPrior
  · exact hPrior

/-- Only `set_receive_window` itself touches the two limits. -/
theorem configure_receiveWindow {s next : ImKcpp mtu} {setting : Setting}
    (hSetting : s.configure setting = .ok next) (hOther : ∀ value, setting ≠ .receiveWindow value) :
    next.receiver = s.receiver ∧
      next.congestionController.rcvWnd = s.congestionController.rcvWnd := by
  rw [eq_configured hSetting]
  cases setting with
  | receiveWindow value => exact absurd rfl (hOther value)
  | _ => exact ⟨rfl, rfl⟩

/-- What storing a segment and reading from the queue keep, every call keeps that does
not set the window. -/
theorem Effect.receiver_kept {P : Receiver → UInt32 → Prop} {s : ImKcpp mtu} {call : Call}
    {outcome : Outcome mtu} (hEffect : Effect host s call outcome) (hInvariant : s.Invariant)
    (hStore : ∀ receiver rcvWnd header data, ReceiverInvariant receiver → P receiver rcvWnd →
      P (receiver.emplaceSegment header data) rcvWnd)
    (hRead : ∀ receiver rcvWnd rest, receiver.Ready → rest <:+ receiver.rcvQueue →
      P receiver rcvWnd →
      P { receiver with rcvQueue := rest }.moveReceiveBufferToQueue rcvWnd)
    (hOther : ∀ value, call ≠ .configure (.receiveWindow value))
    (h : P s.receiver s.congestionController.rcvWnd) :
    P outcome.state.receiver outcome.state.congestionController.rcvWnd := by
  cases hEffect with
  | configure setting interval rtoCalculator controller queueLimit fastresend fastlimit
      nodelay deadLink
      hSetting =>
      obtain ⟨hReceiver, hRcvWnd⟩ := configure_receiveWindow hSetting fun value hValue =>
        hOther value (congrArg Call.configure hValue)
      dsimp only at hReceiver hRcvWnd ⊢
      rwa [hReceiver, hRcvWnd]
  | input data folded sndBuf controller result hFolded hCore hRcvWnd hTotal =>
      have hFold := hInvariant.foldl_receiver hStore (scan_accepted host s.sharedCtx.conv data) h
      rw [← hFolded] at hFold
      dsimp only at hFold ⊢
      rwa [hRcvWnd]
  | recvRefused => exact h
  | recv buffer rest prober hReady hSuffix hRest => exact hRead _ _ rest hReady hSuffix h
  | sendRefused => exact h
  | send => exact h
  | check => exact h
  | idle call start hStart hIdle => cases hStart <;> exact h
  | flush call start next packets result askSend askTell hStart hFlushes hFlushed =>
      rw [hFlushed.receiver_eq, hFlushed.rcvWnd_eq]
      cases hStart <;> exact h

/-- The window keeps its properties until it is set again. -/
theorem Effect.windowed {s : ImKcpp mtu} {call : Call} {outcome : Outcome mtu}
    (hEffect : Effect host s call outcome) (hInvariant : s.Invariant) (h : s.Windowed w)
    (hOther : ∀ value, call ≠ .configure (.receiveWindow value)) : outcome.state.Windowed w :=
  hEffect.receiver_kept (P := Imkcpp.Windowed w) hInvariant
    (fun _ _ header data hReceiver hWindowed => hWindowed.emplace hReceiver header data)
    (fun _ _ _ _ hSuffix hWindowed => hWindowed.move rfl hSuffix.length_le) hOther h

end ImKcpp

/-- Taking back the last call of a history in which the window has been set. -/
theorem Party.WindowSet.of_record {w : UInt32} {party : Party mtu} {call : Call}
    {outcome : Outcome mtu} (h : (party.record call outcome).WindowSet w)
    (hStarted : party.calls ≠ []) :
    party.WindowSet w ∧ ∀ value, call ≠ .configure (.receiveWindow value) := by
  obtain ⟨later, hCalls, hOnce⟩ := h
  rw [Party.record_calls] at hCalls
  obtain ⟨first, rest, hHistory⟩ := List.exists_cons_of_ne_nil hStarted
  rw [hHistory, List.cons_append] at hCalls
  obtain ⟨rfl, rfl⟩ := List.cons.inj hCalls
  refine ⟨⟨rest, hHistory, fun value hValue => hOnce value (List.mem_append_left _ hValue)⟩, ?_⟩
  rintro value rfl
  exact hOnce value (by simp)

theorem calls_eq_nil_of_reachable {conv : UInt32} {party : Party mtu}
    (h : (endpointSystem host mtu conv).Reachable party) (hCalls : party.calls = []) :
    party = .fresh mtu conv := by
  refine h.invariant (P := fun party => party.calls = [] → party = .fresh mtu conv) ?_ ?_ hCalls
  · exact fun party hInit _ => hInit
  · rintro party next - - ⟨call, outcome, -, rfl⟩ hCalls
    simp at hCalls

/-- To prove something of all runs that set the window once: it holds after the
first call, and no other call with an effect breaks it. -/
theorem Party.WindowSet.induct {conv w : UInt32} {P : Party mtu → Prop}
    (hFirst : ∀ outcome, (ImKcpp.create mtu conv).perform host (.configure (.receiveWindow w)) =
      .ok outcome →
      P ((Party.fresh mtu conv).record (.configure (.receiveWindow w)) outcome))
    (hStep : ∀ (party : Party mtu) call outcome, (endpointSystem host mtu conv).Reachable party →
      party.WindowSet w → P party → party.endpoint.Effect host call outcome →
      (∀ value, call ≠ .configure (.receiveWindow value)) → P (party.record call outcome))
    {party : Party mtu} (hReach : (endpointSystem host mtu conv).Reachable party)
    (hSet : party.WindowSet w) : P party := by
  refine hReach.invariant (P := fun party => party.WindowSet w → P party) ?_ ?_ hSet
  · rintro party rfl ⟨later, hCalls, -⟩
    simp [Party.calls, Party.fresh] at hCalls
  · rintro party next hReach hPrior ⟨call, outcome, hOutcome, rfl⟩ hSet
    by_cases hStarted : party.calls = []
    · obtain rfl := calls_eq_nil_of_reachable hReach hStarted
      obtain ⟨later, hCalls, -⟩ := hSet
      rw [Party.record_calls, hStarted] at hCalls
      obtain ⟨rfl, -⟩ := List.cons.inj hCalls
      exact hFirst outcome hOutcome
    · obtain ⟨hBefore, hOther⟩ := hSet.of_record hStarted
      exact hStep party call outcome hReach hBefore (hPrior hBefore)
        ((invariant_of_reachable hReach).effect hOutcome) hOther

/-- Setting the window of an endpoint that has received nothing. -/
theorem ImKcpp.windowed_of_set {s : ImKcpp mtu} {w : UInt32} {outcome : Outcome mtu}
    (hBuf : s.receiver.rcvBuf = []) (hQueue : s.receiver.rcvQueue = [])
    (hOutcome : s.perform host (.configure (.receiveWindow w)) = .ok outcome) :
    outcome.state.Windowed w := by
  obtain ⟨state, hState, hReturn⟩ := bind_eq_ok.mp hOutcome
  obtain ⟨_, hAssert, hState⟩ := bind_eq_ok.mp hState
  obtain rfl := Except.ok.inj hState
  obtain rfl := Except.ok.inj hReturn
  have hPositive : w > 0 := by
    by_contra hZero
    rw [assert_of_false hZero] at hAssert
    cases hAssert
  refine ⟨hPositive, rfl, rfl, ?_, ?_⟩
  · simp [Receiver.setQueueLimit, hQueue]
  · simp [Receiver.Settled, Receiver.setQueueLimit, hBuf]

theorem windowed_of_reachable {conv w : UInt32} {party : Party mtu}
    (hReach : (endpointSystem host mtu conv).Reachable party) (hSet : party.WindowSet w) :
    party.endpoint.Windowed w := by
  refine hSet.induct (P := fun party => party.endpoint.Windowed w) ?_ ?_ hReach
  · exact fun outcome hOutcome => ImKcpp.windowed_of_set rfl rfl hOutcome
  · intro party call outcome hReach _ hPrior hEffect hOther
    exact hEffect.windowed (invariant_of_reachable hReach) hPrior hOther

section Advertised

/-- Every header that a call emits advertises the window of the state before. -/
theorem ImKcpp.Effect.wnd_eq {s : ImKcpp mtu} {call : Call} {outcome : Outcome mtu}
    (h : s.Effect host call outcome) (hInvariant : s.Invariant) :
    ∀ frame ∈ outcome.datagrams.flatMap (framesOf host),
      frame.header.wnd = s.unusedReceiveWindow.toUInt32.toUInt16 := by
  cases h with
  | flush call start next packets result askSend askTell hStart hFlushes hFlushed =>
      have hSending := (hStart.invariant hInvariant).toSending
      have hWindow : start.unusedReceiveWindow = s.unusedReceiveWindow := by
        cases hStart <;> rfl
      intro frame hFrame
      rw [hFlushed.framesOf_eq hSending] at hFrame
      rw [(hFlushed.issued hSending frame hFrame).wnd_eq, hWindow]
  | _ => simp

/-- The signed subtraction of `flush`, for a queue that respects the window. -/
theorem ImKcpp.unusedReceiveWindow_toNat {s : ImKcpp mtu}
    (hQueue : s.receiver.rcvQueue.length ≤ s.congestionController.rcvWnd.toNat) :
    s.unusedReceiveWindow.toUInt32.toNat =
      if s.congestionController.rcvWnd.toNat - s.receiver.rcvQueue.length < 2 ^ 31 then
        s.congestionController.rcvWnd.toNat - s.receiver.rcvQueue.length
      else 0 := by
  have hWindow := s.congestionController.rcvWnd.toNat_lt
  have hSize : (UInt32.ofNat s.receiver.rcvQueue.length).toNat = s.receiver.rcvQueue.length :=
    UInt32.toNat_ofNat_of_lt' (hQueue.trans_lt hWindow)
  have hRoom : (s.congestionController.rcvWnd - UInt32.ofNat s.receiver.rcvQueue.length).toNat =
      s.congestionController.rcvWnd.toNat - s.receiver.rcvQueue.length := by
    rw [UInt32.toNat_sub_of_le _ _ (UInt32.le_iff_toNat_le.mpr (hSize.le.trans hQueue)), hSize]
  rw [unusedReceiveWindow, ← UInt32.toInt32_sub, ← hRoom]
  exact WrappingClock.toNat_max_zero _

/-- The window in the header is the room in the queue exactly when the window is
not below the default and the room survives the conversions to `i32` and `u16`. -/
theorem advertised_iff {conv w : UInt32} {party : Party mtu}
    (hReach : (endpointSystem host mtu conv).Reachable party)
    (hSet : party.WindowSet w) {call : Call} {outcome : Outcome mtu}
    (hOutcome : party.endpoint.perform host call = .ok outcome) :
    ∀ frame ∈ outcome.datagrams.flatMap (framesOf host),
      frame.header.wnd.toNat = min 65535 party.endpoint.receiver.room ↔
        128 ≤ w.toNat ∧ (party.endpoint.receiver.room ≤ 65535 ∨
          (party.endpoint.receiver.room < 2 ^ 31 ∧
            party.endpoint.receiver.room % 65536 = 65535)) := by
  have hInvariant := invariant_of_reachable hReach
  obtain ⟨-, hLimit, hRcvWnd, hQueue, -⟩ := windowed_of_reachable hReach hSet
  have hWindow : party.endpoint.congestionController.rcvWnd.toNat = max w.toNat 128 := by
    rw [hRcvWnd]
    exact toNat_max w 128
  have hRoom : party.endpoint.receiver.room =
      w.toNat - party.endpoint.receiver.rcvQueue.length := by
    rw [Receiver.room, hLimit]
  rw [hLimit] at hQueue
  intro frame hFrame
  have hWnd := (hInvariant.effect hOutcome).wnd_eq hInvariant frame hFrame
  rw [hWnd, UInt32.toNat_toUInt16, ImKcpp.unusedReceiveWindow_toNat (by omega), hWindow, hRoom]
  have hBound := w.toNat_lt
  by_cases hDefault : 128 ≤ w.toNat
  · rw [Nat.max_eq_left hDefault]
    generalize w.toNat - party.endpoint.receiver.rcvQueue.length = room
    split_ifs <;> omega
  · rw [Nat.max_eq_right (by omega), if_pos (by omega)]
    omega

theorem advertised_two_hundred :
    ∃ (party : Party .least) (outcome : Outcome .least),
      (Party.fresh .least 0).run Host.x8664 [.configure (.receiveWindow 200),
        .input (wire Host.x8664 [⟨{ cmd := Commands.push, len := 1 }, [7]⟩])] = .ok party ∧
      party.endpoint.perform Host.x8664 (.update 0) = .ok outcome ∧
      party.endpoint.receiver.room = 199 ∧
      ∀ frame ∈ outcome.datagrams.flatMap (framesOf Host.x8664),
        frame.header.wnd.toNat = min 65535 party.endpoint.receiver.room := by
  have hRuns : ((Party.fresh .least 0).run Host.x8664 [.configure (.receiveWindow 200),
      .input (wire Host.x8664 [⟨{ cmd := Commands.push, len := 1 }, [7]⟩])] >>= fun party =>
        (party.endpoint.perform Host.x8664 (.update 0)).map fun _ => party.endpoint.receiver.room) =
      .ok 199 := by
    decide +kernel
  obtain ⟨party, hRun, hFlush⟩ := bind_eq_ok.mp hRuns
  obtain ⟨outcome, hOutcome, hRoom⟩ := map_eq_ok.mp hFlush
  refine ⟨party, outcome, hRun, hOutcome, hRoom, fun frame hFrame => ?_⟩
  refine (advertised_iff (Party.reachable_run (.of_init rfl) hRun)
    ⟨_, Party.calls_run hRun, by simp⟩ hOutcome frame hFrame).mpr ⟨by decide, .inl ?_⟩
  rw [hRoom]
  decide

/-- With `w = 1` and one segment in the queue, 127 more are advertised. -/
theorem advertised_one :
    ¬∀ (mtu : Mtu) (host : Host) (conv w : UInt32) (party : Party mtu),
      (endpointSystem host mtu conv).Reachable party → party.WindowSet w →
      ∀ call outcome, party.endpoint.perform host call = .ok outcome →
        ∀ frame ∈ outcome.datagrams.flatMap (framesOf host),
          frame.header.wnd.toNat = min 65535 party.endpoint.receiver.room := by
  intro hAll
  have hRuns : ((Party.fresh .least 0).run Host.x8664 [.configure (.receiveWindow 1),
      .input (wire Host.x8664 [⟨{ cmd := Commands.push, len := 1 }, [7]⟩])] >>= fun party =>
        (party.endpoint.perform Host.x8664 (.update 0)).map fun outcome =>
          (party.endpoint.receiver.room, outcome.datagrams)) =
      .ok (0, [wire Host.x8664 [⟨{ cmd := Commands.ack, wnd := 127, una := 1 }, []⟩]]) := by
    decide +kernel
  obtain ⟨party, hRun, hFlush⟩ := bind_eq_ok.mp hRuns
  obtain ⟨outcome, hOutcome, hBoth⟩ := map_eq_ok.mp hFlush
  obtain ⟨hRoom, hDatagrams⟩ := Prod.mk.inj hBoth
  have hFrame : (⟨{ cmd := Commands.ack, wnd := 127, una := 1 }, []⟩ : Frame) ∈
      outcome.datagrams.flatMap (framesOf Host.x8664) := by
    rw [hDatagrams, List.flatMap_singleton, framesOf_wire _ _ (by decide)]
    exact List.mem_singleton_self _
  have hWnd := hAll .least Host.x8664 0 1 party (Party.reachable_run (.of_init rfl) hRun)
    ⟨_, Party.calls_run hRun, by simp⟩ _ outcome hOutcome _ hFrame
  rw [hRoom] at hWnd
  exact absurd hWnd (by decide)

end Advertised

end Imkcpp
