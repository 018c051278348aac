import Imkcpp.FlushPackets
import Imkcpp.SenderSafety

/-! The peer's flow control. New segments are admitted below `snd_una` plus the
remote window, which every accepted header sets. `set_send_window` writes the
same field, so between two headers the window need not be the peer's. -/
namespace Imkcpp

open Transition

variable {mtu : Mtu} {host : Host} {conv : UInt32}

namespace Event

/-- The headers that an `input` has accepted. -/
def headers (host : Host) (event : Event mtu) : List SegmentHeader :=
  match event.call with
  | .input data => (scan host event.before.sharedCtx.conv data).1.map Frame.header
  | _ => []

/-- The numbers of the `PUSH` segments that a call has emitted. -/
def pushNumbers (host : Host) (event : Event mtu) : List UInt32 :=
  ((event.outcome.datagrams.flatMap (framesOf host)).filter
    fun frame => decide (frame.header.cmd = Commands.push)).map fun frame => frame.header.sn

/-- The send window set since the last accepted header, behind one more call. -/
def noteSendWindow (host : Host) (set : Option UInt32) (event : Event mtu) : Option UInt32 :=
  match event.call with
  | .configure (.sendWindow value) => some value
  | _ => if event.headers host = [] then set else none

end Event

/-- The last header that `input` has accepted. -/
def lastAccepted (host : Host) (history : List (Event mtu)) : Option SegmentHeader :=
  (history.flatMap (Event.headers host)).getLast?

/-- The value of the last `set_send_window` behind the last accepted header. -/
def sendWindowSince (host : Host) (history : List (Event mtu)) : Option UInt32 :=
  history.foldl (Event.noteSendWindow host) none

/-- The numbers of all `PUSH` segments emitted. -/
def transmitted (host : Host) (history : List (Event mtu)) : List UInt32 :=
  history.flatMap (Event.pushNumbers host)

namespace ImKcpp

/-- The window of `calculate_congestion_window` is at most the remote one. -/
theorem cwnd_le_rmtWnd (controller : CongestionController) :
    controller.calculateCongestionWindow.toNat ≤ controller.rmtWnd.toNat := by
  unfold CongestionController.calculateCongestionWindow
  dsimp only
  split_ifs
  · rw [toNat_min, toNat_min]
    omega
  · rw [toNat_min]
    omega

/-- Admission stays below the window, and what it admits has not been sent. -/
theorem mem_moved {s : ImKcpp mtu} :
    ∀ seg ∈ s.moved.2.1.sndBuf, seg ∈ s.senderBuffer.sndBuf ∨
      (seg.header.sn < s.segmentTracker.sndUna + s.congestionController.calculateCongestionWindow ∧
        Sender.hasNeverBeenSent seg = true) := by
  refine (Sender.moveSendQueueToBuffer_induct (P := fun _ buffer tracker =>
    tracker.sndUna = s.segmentTracker.sndUna ∧ ∀ seg ∈ buffer.sndBuf, seg ∈ s.senderBuffer.sndBuf ∨
      (seg.header.sn < s.segmentTracker.sndUna + s.congestionController.calculateCongestionWindow ∧
        Sender.hasNeverBeenSent seg = true)) ?_ ⟨rfl, fun _ hSeg => .inl hSeg⟩).2
  intro newseg rest buffer tracker hWindow ⟨hUna, hBuffer⟩
  refine ⟨hUna, ?_⟩
  intro seg hSeg
  rcases List.mem_append.mp hSeg with hSeg | hSeg
  · exact hBuffer seg hSeg
  · rw [List.mem_singleton.mp hSeg, ← hUna]
    exact .inr ⟨hWindow, rfl⟩

/-- A segment that has never been sent is sent by the next flush. -/
theorem isDue_of_new (settings : Sender.FlushSettings) {seg : Segment}
    (hNew : Sender.hasNeverBeenSent seg = true) : Sender.isDue settings seg = true := by
  rw [Sender.isDue, hNew, Bool.true_or, Bool.true_or]

/-- The numbers that a flush sends are those of the segments that are due. -/
theorem Flushed.pushNumbers_eq {s start next : ImKcpp mtu} {call : Call}
    {packets : List (List Frame)} {result : FlushResult} {askSend askTell : Bool}
    (h : Flushed host start next packets result askSend askTell) (hSending : start.Sending)
    (response : Response) :
    (⟨s, call, ⟨next, response, packets.map (wire host)⟩⟩ : Event mtu).pushNumbers host =
      (start.moved.2.1.sndBuf.filter (Sender.isDue start.settings)).map fun seg =>
        seg.header.sn := by
  unfold Event.pushNumbers
  dsimp only
  rw [h.framesOf_eq hSending, h.frames_eq, hSending.filter_flushFrames, Sender.map_sn_pushFrames]

/-- Whatever is in the buffer behind a call was there before or has been sent. -/
theorem Effect.buffered {s : ImKcpp mtu} {call : Call} {outcome : Outcome mtu}
    (h : Effect host s call outcome) (hInvariant : s.Invariant) :
    ∀ sn ∈ outcome.state.numbers,
      sn ∈ s.numbers ∨ sn ∈ (⟨s, call, outcome⟩ : Event mtu).pushNumbers host := by
  intro sn hSn
  cases h with
  | input data folded sndBuf controller result hFolded hCore hRcvWnd hTotal =>
      have hNumbers : folded.numbers = sndBuf.map fun seg => seg.header.sn :=
        (map_sn_of_core hCore).symm
      rw [numbers, ← hNumbers, hFolded] at hSn
      obtain ⟨seg, hSeg, rfl⟩ := List.mem_map.mp hSn
      exact .inl (List.mem_map_of_mem ((hInvariant.mem_foldl_sndBuf _ seg).mp hSeg).1)
  | idle call start hStart => exact .inl (hStart.progress.2 ▸ hSn)
  | flush call start next packets result askSend askTell hStart hFlushes hFlushed =>
      have hSending := (hStart.invariant hInvariant).toSending
      have hNumbers : next.numbers = start.moved.2.1.sndBuf.map fun seg => seg.header.sn :=
        map_sn_of_core (hFlushed.sndBuf_eq ▸ Sender.map_flushed_core _)
      change sn ∈ next.numbers at hSn
      rw [hNumbers] at hSn
      obtain ⟨seg, hSeg, rfl⟩ := List.mem_map.mp hSn
      rcases mem_moved seg hSeg with hOld | ⟨-, hNew⟩
      · left
        rw [← hStart.progress.2]
        exact List.mem_map_of_mem hOld
      · right
        rw [hFlushed.pushNumbers_eq hSending]
        exact List.mem_map_of_mem (List.mem_filter.mpr ⟨hSeg, isDue_of_new _ hNew⟩)
  | _ => exact .inl hSn

/-- Whatever a call sends was buffered before, or is inside the window. -/
theorem Effect.sent {s : ImKcpp mtu} {call : Call} {outcome : Outcome mtu}
    (h : Effect host s call outcome) (hInvariant : s.Invariant) :
    ∀ sn ∈ (⟨s, call, outcome⟩ : Event mtu).pushNumbers host,
      sn ∈ s.numbers ∨
        sn < s.segmentTracker.sndUna + s.congestionController.calculateCongestionWindow := by
  intro sn hSn
  cases h with
  | flush call start next packets result askSend askTell hStart hFlushes hFlushed =>
      have hSending := (hStart.invariant hInvariant).toSending
      rw [hFlushed.pushNumbers_eq hSending] at hSn
      obtain ⟨seg, hDue, rfl⟩ := List.mem_map.mp hSn
      rcases mem_moved seg (List.mem_filter.mp hDue).1 with hOld | ⟨hWindow, -⟩
      · left
        rw [← hStart.progress.2]
        exact List.mem_map_of_mem hOld
      · right
        cases hStart <;> exact hWindow
  | _ => simp [Event.pushNumbers] at hSn

section RemoteWindow

/-- The last header of a datagram sets the remote window, and acknowledgements make
the congestion window grow. -/
theorem input_congestionController {s next : ImKcpp mtu} {data : List UInt8}
    {result : Except Error InputResult} (h : s.input host data = .ok (next, result)) :
    ∃ cwnd incr, next.congestionController = { s.congestionController with
      rmtWnd := ((scan host s.sharedCtx.conv data).1.getLast?.map fun frame =>
        frame.header.wnd.toUInt32).getD s.congestionController.rmtWnd
      cwnd
      incr } := by
  have hFold := foldl_applyFrame_congestionController (scan host s.sharedCtx.conv data).1 s
  rcases input_folded h with rfl | ⟨ctx, rfl⟩
  · exact ⟨_, _, hFold⟩
  · unfold finishInput
    dsimp only
    rw [hFold]
    split_ifs
    · exact CongestionController.adjustParameters_eq mtu _
    · exact ⟨_, _, rfl⟩

theorem configure_windows {s next : ImKcpp mtu} {setting : Setting}
    (hSetting : s.configure setting = .ok next) (hSet : ∀ value, setting ≠ .sendWindow value) :
    next.congestionController.sndWnd = s.congestionController.sndWnd ∧
      next.congestionController.rmtWnd = s.congestionController.rmtWnd := by
  rw [eq_configured hSetting]
  cases setting with
  | sendWindow value => exact absurd rfl (hSet value)
  | _ => exact ⟨rfl, rfl⟩

/-- The calls other than `input` and `set_send_window` leave both send windows. -/
theorem Invariant.perform_keeps_windows {s : ImKcpp mtu} (h : s.Invariant) {call : Call}
    {outcome : Outcome mtu} (hOutcome : s.perform host call = .ok outcome)
    (hInput : ∀ data, call ≠ .input data) (hSet : ∀ value, call ≠ .configure (.sendWindow value)) :
    outcome.state.congestionController.sndWnd = s.congestionController.sndWnd ∧
      outcome.state.congestionController.rmtWnd = s.congestionController.rmtWnd := by
  cases h.effect hOutcome with
  | configure setting interval rtoCalculator controller queueLimit fastresend fastlimit
      nodelay deadLink
      hSetting =>
      exact configure_windows hSetting fun value hSame => hSet value (congrArg Call.configure hSame)
  | input data => exact absurd rfl (hInput data)
  | recvRefused => exact ⟨rfl, rfl⟩
  | recv => exact ⟨rfl, rfl⟩
  | sendRefused => exact ⟨rfl, rfl⟩
  | send => exact ⟨rfl, rfl⟩
  | check => exact ⟨rfl, rfl⟩
  | idle call start hStart =>
      rw [hStart.congestionController_eq]
      exact ⟨rfl, rfl⟩
  | flush call start next packets result askSend askTell hStart hFlushes =>
      obtain ⟨start, _, _, _, _, hStart, hUpdated, hFlush, -⟩ := h.perform_flushes hOutcome hFlushes
      obtain ⟨-, -, -, hWindows⟩ := flush_returns hUpdated hFlush
      rw [hStart.congestionController_eq] at hWindows
      exact hWindows

/-- Headers and `set_send_window` set the remote window, and nothing else does. -/
theorem perform_rmtWnd {s : ImKcpp mtu} (hInvariant : s.Invariant) {call : Call}
    {outcome : Outcome mtu} (hOutcome : s.perform host call = .ok outcome)
    (header : Option SegmentHeader) (set : Option UInt32) (hWindow : s.congestionController.rmtWnd =
      set.getD ((header.map fun h => h.wnd.toUInt32).getD Constants.ikcpWndSnd)) :
    outcome.state.congestionController.rmtWnd =
      (Event.noteSendWindow host set ⟨s, call, outcome⟩).getD
        (((((⟨s, call, outcome⟩ : Event mtu).headers host).getLast?.or header).map
          fun h => h.wnd.toUInt32).getD Constants.ikcpWndSnd) := by
  -- A call that accepts no header and does not set the window leaves it.
  have hSame (hHeaders : (⟨s, call, outcome⟩ : Event mtu).headers host = [])
      (hSet : Event.noteSendWindow host set ⟨s, call, outcome⟩ = set)
      (hKept : outcome.state.congestionController.rmtWnd = s.congestionController.rmtWnd) :
      outcome.state.congestionController.rmtWnd =
        (Event.noteSendWindow host set ⟨s, call, outcome⟩).getD
          (((((⟨s, call, outcome⟩ : Event mtu).headers host).getLast?.or header).map
            fun h => h.wnd.toUInt32).getD Constants.ikcpWndSnd) := by
    rw [hHeaders, hSet, hKept, hWindow]
    rfl
  cases call with
  | configure setting =>
      cases setting with
      | sendWindow value =>
          rw [perform_configure hOutcome]
          rfl
      | _ => exact hSame rfl rfl (hInvariant.perform_keeps_windows hOutcome nofun nofun).2
  | input data =>
      obtain ⟨result, hInput⟩ := perform_input hOutcome
      obtain ⟨cwnd, incr, hController⟩ := input_congestionController hInput
      have hLast := congrArg CongestionController.rmtWnd hController
      cases hFrames : (scan host s.sharedCtx.conv data).1.getLast? with
      | none =>
          rw [List.getLast?_eq_none_iff] at hFrames
          rw [hFrames] at hLast
          apply hSame _ _ hLast
          · simp [Event.headers, hFrames]
          · simp [Event.noteSendWindow, Event.headers, hFrames]
      | some frame =>
          have hSome : (scan host s.sharedCtx.conv data).1 ≠ [] := by
            intro hNil
            simp [hNil] at hFrames
          rw [hFrames] at hLast
          simp [Event.noteSendWindow, Event.headers, hFrames, hSome, hLast]
  | _ => exact hSame rfl rfl (hInvariant.perform_keeps_windows hOutcome nofun nofun).2

end RemoteWindow

end ImKcpp

/-- In every run, the remote window is the one of the last header, or what
`set_send_window` has made of it since, and whatever is buffered has been sent. -/
theorem rmtWnd_of_reachable {party : Party mtu}
    (h : (endpointSystem host mtu conv).Reachable party) :
    party.endpoint.congestionController.rmtWnd =
        (sendWindowSince host party.history).getD
          (((lastAccepted host party.history).map fun header => header.wnd.toUInt32).getD
            Constants.ikcpWndSnd) ∧
      ∀ sn ∈ party.endpoint.numbers, sn ∈ transmitted host party.history := by
  refine h.invariant (P := fun party => party.endpoint.congestionController.rmtWnd =
        (sendWindowSince host party.history).getD
          (((lastAccepted host party.history).map fun header => header.wnd.toUInt32).getD
            Constants.ikcpWndSnd) ∧
      ∀ sn ∈ party.endpoint.numbers, sn ∈ transmitted host party.history) ?_ ?_
  · rintro party rfl
    exact ⟨rfl, by simp [Party.fresh, ImKcpp.create, ImKcpp.numbers]⟩
  · rintro party next hReach ⟨hWindow, hBuffered⟩ ⟨call, outcome, hOutcome, rfl⟩
    have hInvariant := invariant_of_reachable hReach
    constructor
    · have hNext := ImKcpp.perform_rmtWnd hInvariant hOutcome _ _ hWindow
      unfold sendWindowSince lastAccepted at hNext ⊢
      rw [Party.record_endpoint, hNext]
      dsimp only [Party.record]
      rw [List.foldl_append, List.flatMap_append, List.getLast?_append, List.flatMap_singleton]
      rfl
    · intro sn hSn
      rw [transmitted, Party.record, List.flatMap_append, List.mem_append, List.flatMap_singleton]
      exact ((hInvariant.effect hOutcome).buffered hInvariant sn hSn).imp_left (hBuffered sn)

/-- Every flush of a run obeys the window that the peer has advertised last,
provided that the send window set since then, if any, is not larger. -/
theorem peer_window_obeyed {party : Party mtu}
    (hReach : (endpointSystem host mtu conv).Reachable party) {before after : List (Event mtu)}
    {event : Event mtu} (hHistory : party.history = before ++ event :: after)
    {header : SegmentHeader} (hHeader : lastAccepted host before = some header)
    (hSet : ∀ value, sendWindowSince host before = some value → value.toNat ≤ header.wnd.toNat) :
    ∀ sn ∈ event.pushNumbers host, sn ∉ transmitted host before →
      sn.toNat < event.before.segmentTracker.sndUna.toNat + header.wnd.toNat := by
  obtain ⟨prior, hPrior, rfl, hBefore, hOutcome⟩ := Party.exists_prior hReach hHistory
  obtain ⟨hWindow, hBuffered⟩ := rmtWnd_of_reachable hPrior
  have hInvariant := invariant_of_reachable hPrior
  rw [hBefore] at hWindow hBuffered hInvariant hOutcome
  have hRemote : event.before.congestionController.rmtWnd.toNat ≤ header.wnd.toNat := by
    rw [hWindow, hHeader]
    cases hSince : sendWindowSince host prior.history with
    | none => exact Nat.le_of_eq (UInt16.toNat_toUInt32 _)
    | some value => exact hSet value hSince
  intro sn hSn hFirst
  rcases (hInvariant.effect hOutcome).sent hInvariant sn hSn with hOld | hNew
  · exact absurd (hBuffered sn hOld) hFirst
  · have hCwnd := ImKcpp.cwnd_le_rmtWnd event.before.congestionController
    have hSum := Nat.mod_le (event.before.segmentTracker.sndUna.toNat +
      event.before.congestionController.calculateCongestionWindow.toNat) (2 ^ 32)
    rw [UInt32.lt_iff_toNat_lt, UInt32.toNat_add] at hNew
    omega

/-- An `input` of one segment without payload accepts its header. -/
theorem headers_of_input {event : Event mtu} {header : SegmentHeader}
    (hCall : event.call = .input (wire host [⟨header, []⟩]))
    (hValid : Commands.isValid header.cmd = true) (hOther : header.cmd ≠ Commands.push)
    (hConv : header.conv = event.before.sharedCtx.conv) (hLen : header.len = 0) :
    event.headers host = [header] := by
  have hFrame : ∀ frame ∈ [(⟨header, []⟩ : Frame)],
      frame.Accepted event.before.sharedCtx.conv ∧ frame.WellFormed := by
    intro frame hFrame
    rw [List.mem_singleton.mp hFrame]
    refine ⟨⟨hConv, hValid, fun hPush => absurd hPush hOther, fun _ => rfl⟩, ?_⟩
    rw [Frame.WellFormed, hLen]
    rfl
  rw [Event.headers, hCall]
  dsimp only
  rw [scan_wire host _ _ hFrame]
  rfl

theorem pushNumbers_of_datagram {event : Event mtu} {frame : Frame}
    (hDatagrams : event.outcome.datagrams = [wire host [frame]]) (hFrame : frame.WellFormed)
    (hCmd : frame.header.cmd = Commands.push) : event.pushNumbers host = [frame.header.sn] := by
  rw [Event.pushNumbers, hDatagrams, List.flatMap_singleton,
    framesOf_wire _ _ (by simpa using hFrame)]
  simp [hCmd]

/-- A window of one segment is advertised, so only the first of two is sent. -/
theorem peer_window_obeyed_one :
    ∃ (party : Party .least) (before : List (Event .least)) (event : Event .least),
      (Party.fresh .least 0).run Host.x8664 [
        .input (wire Host.x8664 [⟨{ cmd := Commands.wins, wnd := 1 }, []⟩]),
        .configure (.congestionWindowEnabled false), .send [1, 2], .update 0] = .ok party ∧
      party.history = before ++ event :: [] ∧ event.pushNumbers Host.x8664 = [0] ∧
      ∀ sn ∈ event.pushNumbers Host.x8664, sn ∉ transmitted Host.x8664 before →
        sn.toNat < event.before.segmentTracker.sndUna.toNat + 1 := by
  have hRuns : ((Party.fresh .least 0).run Host.x8664 [
      .input (wire Host.x8664 [⟨{ cmd := Commands.wins, wnd := 1 }, []⟩]),
      .configure (.congestionWindowEnabled false), .send [1, 2],
      .update 0]).map (fun party => party.history.map fun event =>
        (event.before.sharedCtx.conv, event.outcome.datagrams)) =
      .ok [(0, []), (0, []), (0, []), (0, [wire Host.x8664
        [⟨{ cmd := Commands.push, frg := 1, wnd := 128, len := 1 }, [1]⟩]])] := by
    decide +kernel
  obtain ⟨party, hRun, hFacts⟩ := map_eq_ok.mp hRuns
  obtain ⟨before, last, hHistory⟩ : ∃ before last, party.history = before ++ [last] := by
    refine party.history.eq_nil_or_concat'.resolve_left fun hNil => ?_
    rw [hNil] at hFacts
    cases hFacts
  have hCalls := Party.calls_run hRun
  rw [Party.calls, hHistory] at hCalls
  rw [hHistory] at hFacts
  obtain ⟨first, second, third, rfl⟩ : ∃ first second third, before = [first, second, third] :=
    List.length_eq_three.mp (by simpa using congrArg List.length hFacts)
  simp only [List.cons_append, List.nil_append, List.map_cons, List.map_nil, List.cons.injEq,
    Prod.mk.injEq, and_true] at hFacts
  obtain ⟨⟨hConv, -⟩, -, -, -, hLastSent⟩ := hFacts
  obtain ⟨hFirst, hCalls⟩ := List.cons.inj hCalls
  obtain ⟨hSecond, hCalls⟩ := List.cons.inj hCalls
  obtain ⟨hThird, -⟩ := List.cons.inj hCalls
  have hNumbers := pushNumbers_of_datagram hLastSent (by decide) rfl
  have hHeaders := headers_of_input hFirst (by decide) (by decide) hConv.symm rfl
  have hQuiet : second.headers Host.x8664 = [] ∧ third.headers Host.x8664 = [] := by
    simp only [Event.headers, hSecond, hThird, and_self]
  have hLastHeader : lastAccepted Host.x8664 [first, second, third] =
      some { cmd := Commands.wins, wnd := 1 } := by
    simp [lastAccepted, hHeaders, hQuiet]
  refine ⟨party, [first, second, third], last, hRun, hHistory, hNumbers,
    peer_window_obeyed (Party.reachable_run (.of_init rfl) hRun) hHistory hLastHeader ?_⟩
  simp [sendWindowSince, Event.noteSendWindow, hFirst, hSecond, hThird, hQuiet]

/-- Behind a closed window, `set_send_window` lets a segment through. -/
theorem peer_window_overrun :
    ¬∀ (mtu : Mtu) (host : Host) (conv : UInt32) (party : Party mtu),
      (endpointSystem host mtu conv).Reachable party →
      ∀ (before after : List (Event mtu)) (event : Event mtu),
        party.history = before ++ event :: after →
          ∀ header, lastAccepted host before = some header →
          ∀ sn ∈ event.pushNumbers host, sn ∉ transmitted host before →
            sn.toNat < event.before.segmentTracker.sndUna.toNat + header.wnd.toNat := by
  intro hAll
  have hRuns : ((Party.fresh .least 0).run Host.x8664 [.update 0,
      .input (wire Host.x8664 [⟨{ cmd := Commands.wins, wnd := 0 }, []⟩]),
      .configure (.sendWindow 32), .send [1], .flush]).map
        (fun party => party.history.map fun event =>
        (event.before.sharedCtx.conv, event.before.segmentTracker.sndUna,
          event.outcome.datagrams)) =
      .ok [(0, 0, []), (0, 0, []), (0, 0, []), (0, 0, []), (0, 0, [wire Host.x8664
        [⟨{ cmd := Commands.push, wnd := 128, len := 1 }, [1]⟩]])] := by
    decide +kernel
  obtain ⟨party, hRun, hFacts⟩ := map_eq_ok.mp hRuns
  obtain ⟨before, last, hHistory⟩ : ∃ before last, party.history = before ++ [last] := by
    refine party.history.eq_nil_or_concat'.resolve_left fun hNil => ?_
    rw [hNil] at hFacts
    cases hFacts
  have hCalls := Party.calls_run hRun
  rw [Party.calls, hHistory] at hCalls
  rw [hHistory] at hFacts
  obtain ⟨start, others, rfl⟩ : ∃ start others, before = start :: others := by
    refine List.exists_cons_of_ne_nil fun hNil => ?_
    simp [hNil] at hFacts
  obtain ⟨first, second, third, rfl⟩ : ∃ first second third, others = [first, second, third] :=
    List.length_eq_three.mp (by simpa using congrArg List.length hFacts)
  simp only [List.cons_append, List.nil_append, List.map_cons, List.map_nil, List.cons.injEq,
    Prod.mk.injEq, and_true] at hFacts
  obtain ⟨⟨-, -, hStartSent⟩, ⟨hConv, -, hFirstSent⟩, ⟨-, -, hSecondSent⟩, ⟨-, -, hThirdSent⟩,
    -, hUna, hLastSent⟩ := hFacts
  obtain ⟨hStart, hCalls⟩ := List.cons.inj hCalls
  obtain ⟨hFirst, hCalls⟩ := List.cons.inj hCalls
  obtain ⟨hSecond, hCalls⟩ := List.cons.inj hCalls
  obtain ⟨hThird, -⟩ := List.cons.inj hCalls
  have hNumbers := pushNumbers_of_datagram hLastSent (by decide) rfl
  have hHeaders := headers_of_input hFirst (by decide) (by decide) hConv.symm rfl
  have hQuiet : start.headers Host.x8664 = [] ∧ second.headers Host.x8664 = [] ∧
      third.headers Host.x8664 = [] := by
    simp only [Event.headers, hStart, hSecond, hThird, and_self]
  have hLastHeader : lastAccepted Host.x8664 [start, first, second, third] =
      some { cmd := Commands.wins, wnd := 0 } := by
    simp [lastAccepted, hHeaders, hQuiet]
  have hNothing : transmitted Host.x8664 [start, first, second, third] = [] := by
    simp [transmitted, Event.pushNumbers, hStartSent, hFirstSent, hSecondSent, hThirdSent]
  have hObeyed := hAll .least Host.x8664 0 party (Party.reachable_run (.of_init rfl) hRun)
    [start, first, second, third] [] last hHistory _ hLastHeader 0 (by simp [hNumbers])
    (by simp [hNothing])
  rw [hUna] at hObeyed
  exact absurd hObeyed (by decide)

end Imkcpp
