import Mathlib.Data.List.Perm.Subperm
import Imkcpp.ReceiveWindow

/-! What the receiver has made of the history of a party. Whatever bytes arrive,
the queue is filled along the sequence numbers, without a gap and without a
repetition, and the first `PUSH` of a number that the window admits decides what
is stored under it. -/
namespace Imkcpp

open Transition OrderedList

variable {mtu : Mtu} {host : Host} {conv : UInt32}

/-- The queue that `recv` leaves before it moves segments from the buffer. -/
def Receiver.unread (receiver : Receiver) {n : Nat} (buffer : Vector UInt8 n) : List Segment :=
  match receiver.peekSize with
  | .error _ => receiver.rcvQueue
  | .ok peeksize =>
    if peeksize > n then receiver.rcvQueue
    else
      match Receiver.copyLoop peeksize receiver.rcvQueue buffer 0 with
      | .error _ => receiver.rcvQueue
      | .ok (rest, _) => rest

/-- The copying loop only takes segments off the front. -/
theorem Receiver.copyLoop_suffix {peeksize n : Nat} {segs rest : List Segment}
    {buffer final : Vector UInt8 n} {offset finish : Nat}
    (h : copyLoop peeksize segs buffer offset = .ok (rest, final, finish)) : rest <:+ segs := by
  induction segs generalizing buffer offset with
  | nil =>
      obtain ⟨rfl, -⟩ := Prod.mk.inj (Except.ok.inj h)
      exact List.suffix_rfl
  | cons segment tail ih =>
      obtain ⟨room, -, h⟩ := bind_eq_ok.mp h
      obtain ⟨⟨written, next⟩, -, h⟩ := bind_eq_ok.mp h
      dsimp only at h
      split_ifs at h
      · obtain ⟨rfl, -⟩ := Prod.mk.inj (Except.ok.inj h)
        exact List.suffix_cons _ _
      · obtain ⟨rfl, -⟩ := Prod.mk.inj (Except.ok.inj h)
        exact List.suffix_cons _ _
      · exact (ih h).trans (List.suffix_cons _ _)

theorem Receiver.unread_suffix (receiver : Receiver) {n : Nat} (buffer : Vector UInt8 n) :
    receiver.unread buffer <:+ receiver.rcvQueue := by
  unfold unread
  cases receiver.peekSize with
  | error error => exact List.suffix_rfl
  | ok peeksize =>
      dsimp only
      split_ifs
      · exact List.suffix_rfl
      · cases hLoop : copyLoop peeksize receiver.rcvQueue buffer 0 with
        | error fault => exact List.suffix_rfl
        | ok result => exact copyLoop_suffix hLoop

namespace ImKcpp

/-- The `PUSH` segments for which `fits_receive_window` holds when `s` processes
the given segments one after the other. -/
def inWindow (s : ImKcpp mtu) : List Frame → List Frame
  | [] => []
  | frame :: rest =>
    (if frame.header.cmd = Commands.push ∧
        s.congestionController.fitsReceiveWindow s.receiver.rcvNxt frame.header.sn = true then
      [frame] else []) ++ (s.applyFrame frame).inWindow rest

/-- What a call leaves of the receive queue before it moves segments there. -/
def unread (s : ImKcpp mtu) : Call → List Segment
  | .recv buffer => s.receiver.unread buffer
  | _ => s.receiver.rcvQueue

end ImKcpp

namespace Event

/-- The segments that a call has moved to the receive queue. -/
def queued (event : Event mtu) : List Segment :=
  event.outcome.state.receiver.rcvQueue.drop (event.before.unread event.call).length

/-- The `PUSH` segments of an `input` that were inside the window. -/
def inWindow (host : Host) (event : Event mtu) : List Frame :=
  match event.call with
  | .input data => event.before.inWindow (scan host event.before.sharedCtx.conv data).1
  | _ => []

end Event

/-- The larger of a window and the one that a call sets, if it sets one. -/
def Call.widen (window : UInt32) : Call → UInt32
  | .configure (.receiveWindow value) => max window value
  | _ => window

namespace Party

/-- All segments ever moved to the receive queue, in order. -/
def queued (party : Party mtu) : List Segment := party.history.flatMap Event.queued

/-- All `PUSH` segments ever seen inside the window, in order. -/
def inWindow (host : Host) (party : Party mtu) : List Frame :=
  party.history.flatMap (Event.inWindow host)

/-- The largest receive window so far; the constructor sets the default. -/
def largestWindow (party : Party mtu) : UInt32 :=
  party.calls.foldl Call.widen Constants.ikcpWndRcv

section Record

variable (host : Host) (party : Party mtu) (call : Call) (outcome : Outcome mtu)

@[simp] theorem record_queued :
    (party.record call outcome).queued =
      party.queued ++ (⟨party.endpoint, call, outcome⟩ : Event mtu).queued := by
  simp [queued, record]

@[simp] theorem record_inWindow :
    (party.record call outcome).inWindow host =
      party.inWindow host ++ (⟨party.endpoint, call, outcome⟩ : Event mtu).inWindow host := by
  simp [inWindow, record]

@[simp] theorem record_largestWindow :
    (party.record call outcome).largestWindow = call.widen party.largestWindow := by
  simp [largestWindow]

end Record

end Party

/-- The segment has the fragment number and the payload of the first of the given
`PUSH` segments with its number. -/
def Segment.CarriesFirst (pushes : List Frame) (seg : Segment) : Prop :=
  ∃ frame, pushes.find? (fun frame => decide (frame.header.sn = seg.header.sn)) = some frame ∧
    frame.header.frg = seg.header.frg ∧ frame.payload = seg.data

/-- Later segments are not the first. -/
theorem Segment.CarriesFirst.append {pushes : List Frame} {seg : Segment}
    (h : seg.CarriesFirst pushes) (more : List Frame) : seg.CarriesFirst (pushes ++ more) := by
  obtain ⟨frame, hFirst, hSame⟩ := h
  refine ⟨frame, ?_, hSame⟩
  rw [List.find?_append, hFirst]
  rfl

/-- A number that has not been seen is carried by the segment that brings it. -/
theorem Segment.carriesFirst_new {pushes : List Frame} {frame : Frame}
    (hNew : ∀ other ∈ pushes, other.header.sn ≠ frame.header.sn) :
    (⟨frame.header, frame.payload, {}⟩ : Segment).CarriesFirst (pushes ++ [frame]) := by
  refine ⟨frame, ?_, rfl, rfl⟩
  have hNone : pushes.find? (fun other => decide (other.header.sn = frame.header.sn)) = none := by
    rw [List.find?_eq_none]
    intro other hOther
    simpa using hNew other hOther
  dsimp only
  rw [List.find?_append, hNone]
  simp

/-- The receiver, as a record of the `PUSH` segments that were inside the window
and of the segments moved to the queue, when no window was above `window`. -/
structure Receiver.Recorded (window : Nat) (pushes : List Frame) (queued : List Segment)
    (receiver : Receiver) : Prop where
  numbers : queued.map Segment.key = List.range receiver.rcvNxt.toNat
  carried : ∀ seg ∈ queued ++ receiver.rcvBuf, seg.CarriesFirst pushes
  covered : ∀ frame ∈ pushes,
    frame.header.sn < receiver.rcvNxt ∨ ∃ seg ∈ receiver.rcvBuf, seg.header.sn = frame.header.sn
  below : ∀ seg ∈ receiver.rcvBuf, seg.key < receiver.rcvNxt.toNat + window

namespace Receiver.Recorded

variable {window : Nat} {pushes : List Frame} {queued : List Segment} {receiver : Receiver}

/-- A number that has been queued or buffered is not stored again, whatever comes with it. -/
theorem seen (h : receiver.Recorded window pushes queued) {frame : Frame}
    (hSeen : frame.header.sn < receiver.rcvNxt ∨
      ∃ seg ∈ receiver.rcvBuf, seg.header.sn = frame.header.sn) :
    receiver.Recorded window (pushes ++ [frame]) queued where
  numbers := h.numbers
  carried := fun seg hSeg => (h.carried seg hSeg).append [frame]
  covered := by
    intro other hOther
    rcases List.mem_append.mp hOther with hOther | hOther
    · exact h.covered other hOther
    · rwa [List.mem_singleton.mp hOther]
  below := h.below

/-- A new number is stored with the first segment that brings it. -/
theorem store (h : receiver.Recorded window pushes queued) {frame : Frame}
    (hNew : receiver.rcvNxt ≤ frame.header.sn)
    (hBelow : frame.header.sn.toNat < receiver.rcvNxt.toNat + window)
    (hMissing : ∀ seg ∈ receiver.rcvBuf, seg.header.sn ≠ frame.header.sn) :
    Recorded window (pushes ++ [frame]) queued { receiver with
      rcvBuf := insertByKey Segment.key { header := frame.header, data := frame.payload }
        receiver.rcvBuf } := by
  -- An earlier segment of this number would have been queued or buffered.
  have hFirst : ∀ other ∈ pushes, other.header.sn ≠ frame.header.sn := by
    intro other hOther hSame
    rcases h.covered other hOther with hOld | ⟨seg, hSeg, hSn⟩
    · exact absurd (UInt32.lt_of_lt_of_le hOld hNew) (hSame ▸ UInt32.lt_irrefl _)
    · exact hMissing seg hSeg (hSn.trans hSame)
  refine ⟨h.numbers, ?_, ?_, ?_⟩
  · intro seg hSeg
    rcases List.mem_append.mp hSeg with hSeg | hSeg
    · exact (h.carried seg (List.mem_append_left _ hSeg)).append [frame]
    · rcases mem_insertByKey.mp hSeg with rfl | hSeg
      · exact Segment.carriesFirst_new hFirst
      · exact (h.carried seg (List.mem_append_right _ hSeg)).append [frame]
  · intro other hOther
    rcases List.mem_append.mp hOther with hOther | hOther
    · rcases h.covered other hOther with hOld | ⟨seg, hSeg, hSn⟩
      · exact .inl hOld
      · exact .inr ⟨seg, mem_insertByKey.mpr (.inr hSeg), hSn⟩
    · rw [List.mem_singleton.mp hOther]
      exact .inr ⟨_, mem_insertByKey.mpr (.inl rfl), rfl⟩
  · intro seg hSeg
    rcases mem_insertByKey.mp hSeg with rfl | hSeg
    · exact hBelow
    · exact h.below seg hSeg

/-- Moving the segment whose turn it is adds its number to those queued. -/
theorem advance (h : receiver.Recorded window pushes queued)
    (hInvariant : ReceiverInvariant receiver) {seg : Segment} {rest : List Segment}
    (hBuffer : receiver.rcvBuf = seg :: rest) (hNext : seg.header.sn = receiver.rcvNxt) :
    Recorded window pushes (queued ++ [seg]) { receiver with
      rcvBuf := rest
      rcvQueue := receiver.rcvQueue ++ [seg]
      rcvNxt := receiver.rcvNxt + 1 } := by
  have hKey : seg.key = receiver.rcvNxt.toNat := congrArg UInt32.toNat hNext
  have hSucc : (receiver.rcvNxt + 1).toNat = receiver.rcvNxt.toNat + 1 := by
    have hBound := hInvariant.bounded seg (by simp [hBuffer])
    rw [UInt32.toNat_add, UInt32.toNat_one]
    exact Nat.mod_eq_of_lt (by omega)
  obtain ⟨hNumbers, hCarried, hCovered, hBelow⟩ := h
  rw [hBuffer] at hCarried hCovered hBelow
  refine ⟨?_, ?_, ?_, ?_⟩
  · show (queued ++ [seg]).map Segment.key = List.range (receiver.rcvNxt + 1).toNat
    rw [hSucc, List.range_succ, List.map_append, hNumbers, ← hKey]
    rfl
  · intro other hOther
    apply hCarried
    simpa using hOther
  · intro frame hFrame
    show frame.header.sn < receiver.rcvNxt + 1 ∨ _
    rw [UInt32.lt_iff_toNat_lt, hSucc]
    rcases hCovered frame hFrame with hOld | ⟨other, hOther, hSn⟩
    · exact .inl (Nat.lt_succ_of_lt (UInt32.lt_iff_toNat_lt.mp hOld))
    · rcases List.mem_cons.mp hOther with rfl | hOther
      · have hSame : frame.header.sn.toNat = receiver.rcvNxt.toNat := by rw [← hSn, hNext]
        exact .inl (by omega)
      · exact .inr ⟨other, hOther, hSn⟩
  · intro other hOther
    show other.key < (receiver.rcvNxt + 1).toNat + window
    have hOld := hBelow other (List.mem_cons_of_mem _ hOther)
    omega

/-- What the loop moves is appended to the queue. -/
theorem move (h : receiver.Recorded window pushes queued)
    (hInvariant : ReceiverInvariant receiver) :
    ∃ more, receiver.moveReceiveBufferToQueue.rcvQueue = receiver.rcvQueue ++ more ∧
      receiver.moveReceiveBufferToQueue.Recorded window pushes (queued ++ more) := by
  suffices hLoop : ReceiverInvariant receiver.moveReceiveBufferToQueue ∧
      ∃ more, receiver.moveReceiveBufferToQueue.rcvQueue = receiver.rcvQueue ++ more ∧
        receiver.moveReceiveBufferToQueue.Recorded window pushes (queued ++ more) from hLoop.2
  refine move_induct (P := fun r => ReceiverInvariant r ∧
    ∃ more, r.rcvQueue = receiver.rcvQueue ++ more ∧ r.Recorded window pushes (queued ++ more)) ?_
    ⟨hInvariant, [], by simp, by simpa using h⟩
  rintro r seg rest hBuffer hNext - ⟨hPrior, more, hQueue, hRecorded⟩
  refine ⟨hPrior.advance hBuffer hNext, more ++ [seg], ?_, ?_⟩
  · rw [hQueue, List.append_assoc]
  · rw [← List.append_assoc]
    exact hRecorded.advance hPrior hBuffer hNext

/-- A `PUSH` inside the window, stored or not. -/
theorem emplace (h : receiver.Recorded window pushes queued)
    (hInvariant : ReceiverInvariant receiver) {frame : Frame} (hFrame : frame.WellFormed)
    (hNew : receiver.rcvNxt ≤ frame.header.sn) (hBound : frame.header.sn.toNat + 1 < 2 ^ 32)
    (hBelow : frame.header.sn.toNat < receiver.rcvNxt.toNat + window) :
    ∃ more, (receiver.emplaceSegment frame.header frame.payload).rcvQueue =
      receiver.rcvQueue ++ more ∧
      (receiver.emplaceSegment frame.header frame.payload).Recorded window (pushes ++ [frame])
        (queued ++ more) := by
  rcases emplaceSegment_cases hInvariant.increasing frame.header frame.payload with
    ⟨hStored, hSame⟩ | ⟨hMissing, hInsert⟩
  · rw [hSame]
    exact ⟨[], by simp, by simpa using h.seen (.inr hStored)⟩
  · have hSeg : (⟨frame.header, frame.payload, {}⟩ : Segment).Complete := hFrame
    rw [hInsert]
    exact (h.store hNew hBelow hMissing).move (hInvariant.store hSeg hNew hBound hMissing)

/-- A wider bound is a bound. -/
theorem mono (h : receiver.Recorded window pushes queued) {wider : Nat} (hLe : window ≤ wider) :
    receiver.Recorded wider pushes queued :=
  { h with below := fun seg hSeg => (h.below seg hSeg).trans_le (Nat.add_le_add_left hLe _) }

/-- Numbers between `rcv_nxt` and the window are as many as the window. -/
theorem length_le (h : receiver.Recorded window pushes queued)
    (hInvariant : ReceiverInvariant receiver) :
    receiver.rcvBuf.length ≤ window := by
  have hNodup : (receiver.rcvBuf.map Segment.key).Nodup :=
    (increasing_iff_map.mp hInvariant.increasing).imp fun hLt => hLt.ne
  have hSub : receiver.rcvBuf.map Segment.key ⊆ List.range' receiver.rcvNxt.toNat window := by
    intro number hNumber
    obtain ⟨seg, hSeg, rfl⟩ := List.mem_map.mp hNumber
    rw [List.mem_range'_1]
    exact ⟨UInt32.le_iff_toNat_le.mp (hInvariant.ahead seg hSeg), h.below seg hSeg⟩
  have hLength := (hNodup.subperm hSub).length_le
  rwa [List.length_map, List.length_range'] at hLength

end Receiver.Recorded

namespace ImKcpp

variable {window : Nat} {pushes : List Frame} {queued : List Segment}

@[simp] theorem applyFrame_rcvWnd (s : ImKcpp mtu) (frame : Frame) :
    (s.applyFrame frame).congestionController.rcvWnd = s.congestionController.rcvWnd := by
  unfold ImKcpp.applyFrame ImKcpp.applyPush
  dsimp only
  split_ifs <;> rfl

/-- The receiver after a `PUSH` whose header has been accepted. -/
theorem applyPush_recorded {s : ImKcpp mtu} (h : s.receiver.Recorded window pushes queued)
    (hInvariant : s.Invariant) (hWindow : s.congestionController.rcvWnd.toNat ≤ window)
    {frame : Frame} (hFrame : frame.WellFormed) :
    ∃ more, (s.applyPush frame).receiver.rcvQueue = s.receiver.rcvQueue ++ more ∧
      (s.applyPush frame).receiver.Recorded window
        (pushes ++ if s.congestionController.fitsReceiveWindow s.receiver.rcvNxt frame.header.sn =
          true then [frame] else []) (queued ++ more) := by
  unfold ImKcpp.applyPush
  dsimp only
  by_cases hFits : s.congestionController.fitsReceiveWindow s.receiver.rcvNxt frame.header.sn = true
  · rw [if_pos hFits, if_neg (by simp [hFits])]
    split_ifs with hReceive
    · have hLt : frame.header.sn < s.receiver.rcvNxt + s.congestionController.rcvWnd :=
        of_decide_eq_true hFits
      have hSum : (s.receiver.rcvNxt + s.congestionController.rcvWnd).toNat ≤
          s.receiver.rcvNxt.toNat + s.congestionController.rcvWnd.toNat := by
        rw [UInt32.toNat_add]
        exact Nat.mod_le _ _
      rw [UInt32.lt_iff_toNat_lt] at hLt
      apply h.emplace hInvariant.receiver hFrame (of_decide_eq_true hReceive)
        (succ_lt_of_fits hFits)
      omega
    · have hOld : frame.header.sn < s.receiver.rcvNxt := by
        simpa [Receiver.shouldReceive] using hReceive
      exact ⟨[], by simp, by simpa using h.seen (.inl hOld)⟩
  · rw [if_neg hFits, if_pos (by simpa using hFits)]
    exact ⟨[], by simp, by simpa using h⟩

/-- The receiver after any acceptable segment. -/
theorem applyFrame_recorded {s : ImKcpp mtu} (h : s.receiver.Recorded window pushes queued)
    (hInvariant : s.Invariant) (hWindow : s.congestionController.rcvWnd.toNat ≤ window)
    {frame : Frame} (hFrame : frame.Accepted s.sharedCtx.conv) :
    ∃ more, (s.applyFrame frame).receiver.rcvQueue = s.receiver.rcvQueue ++ more ∧
      (s.applyFrame frame).receiver.Recorded window (pushes ++ s.inWindow [frame])
        (queued ++ more) := by
  unfold ImKcpp.inWindow ImKcpp.inWindow ImKcpp.applyFrame
  dsimp only
  rw [List.append_nil]
  by_cases hPush : frame.header.cmd = Commands.push
  · simp only [hPush, if_true, true_and]
    exact applyPush_recorded (s := s.acceptHeader frame.header) h
      (hInvariant.acceptHeader frame.header) hWindow (hFrame.push_payload hPush)
  · refine ⟨[], ?_, ?_⟩
    · rw [if_neg hPush]
      split_ifs <;> simp [acceptHeader, inputAck, applyWask]
    · simp only [hPush, if_false, false_and, List.append_nil]
      split_ifs <;> exact h

/-- The receiver after the segments of a datagram. -/
theorem foldl_recorded {s : ImKcpp mtu} (h : s.receiver.Recorded window pushes queued)
    (hInvariant : s.Invariant) (hWindow : s.congestionController.rcvWnd.toNat ≤ window)
    {frames : List Frame} (hFrames : ∀ frame ∈ frames, frame.Accepted s.sharedCtx.conv) :
    ∃ more, (frames.foldl ImKcpp.applyFrame s).receiver.rcvQueue = s.receiver.rcvQueue ++ more ∧
      (frames.foldl ImKcpp.applyFrame s).receiver.Recorded window (pushes ++ s.inWindow frames)
        (queued ++ more) := by
  induction frames generalizing s pushes queued with
  | nil => exact ⟨[], by simp, by simpa [ImKcpp.inWindow] using h⟩
  | cons frame rest ih =>
      have hFrame := hFrames frame (by simp)
      obtain ⟨first, hQueue, hRecorded⟩ := applyFrame_recorded h hInvariant hWindow hFrame
      have hRest : ∀ other ∈ rest, other.Accepted (s.applyFrame frame).sharedCtx.conv := by
        intro other hOther
        rw [applyFrame_sharedCtx]
        exact hFrames other (by simp [hOther])
      obtain ⟨others, hOthers, hFinal⟩ :=
        ih hRecorded (hInvariant.applyFrame hFrame) (by rwa [applyFrame_rcvWnd]) hRest
      refine ⟨first ++ others, ?_, ?_⟩
      · rw [List.foldl_cons, hOthers, hQueue, List.append_assoc]
      · rw [List.append_assoc, List.append_assoc] at hFinal
        simpa [ImKcpp.inWindow] using hFinal

/-- What `recv` makes of the receiver: it takes segments off the queue, if it
succeeds, and then moves others from the buffer. -/
theorem recv_receiver {s : ImKcpp mtu} {n : Nat} {buffer : Vector UInt8 n} {outcome : Outcome mtu}
    (hOutcome : s.perform host (.recv buffer) = .ok outcome) :
    outcome.state.congestionController = s.congestionController ∧
      (outcome.state.receiver = { s.receiver with rcvQueue := s.receiver.unread buffer } ∨
        outcome.state.receiver =
          { s.receiver with rcvQueue := s.receiver.unread buffer }.moveReceiveBufferToQueue) := by
  obtain ⟨⟨state, final, result⟩, hRecv, hReturn⟩ := bind_eq_ok.mp hOutcome
  obtain rfl := Except.ok.inj hReturn
  obtain ⟨⟨receiver, final, result⟩, hReceiver, hRecv⟩ := bind_eq_ok.mp hRecv
  have hState : state.receiver = receiver ∧
      state.congestionController = s.congestionController := by
    cases result with
    | error error =>
        obtain ⟨rfl, -⟩ := Prod.mk.inj (Except.ok.inj hRecv)
        exact ⟨rfl, rfl⟩
    | ok result =>
        dsimp only at hRecv
        split_ifs at hRecv
        · rw [WindowProber.setFlag_eq] at hRecv
          obtain ⟨rfl, -⟩ := Prod.mk.inj (Except.ok.inj hRecv)
          exact ⟨rfl, rfl⟩
        · obtain ⟨rfl, -⟩ := Prod.mk.inj (Except.ok.inj hRecv)
          exact ⟨rfl, rfl⟩
  refine ⟨hState.2, ?_⟩
  rw [show (Outcome.mk state _ []).state.receiver = receiver from hState.1]
  unfold Receiver.recv at hReceiver
  unfold Receiver.unread
  cases hPeek : s.receiver.peekSize with
  | error error =>
      rw [hPeek] at hReceiver
      obtain ⟨rfl, -⟩ := Prod.mk.inj (Except.ok.inj hReceiver)
      exact .inl rfl
  | ok peeksize =>
      rw [hPeek] at hReceiver
      dsimp only at hReceiver ⊢
      split_ifs at hReceiver ⊢ with hSmall
      · obtain ⟨rfl, -⟩ := Prod.mk.inj (Except.ok.inj hReceiver)
        exact .inl rfl
      · obtain ⟨⟨rest, copied, offset⟩, hLoop, hReceiver⟩ := bind_eq_ok.mp hReceiver
        obtain ⟨-, -, hReceiver⟩ := bind_eq_ok.mp hReceiver
        obtain ⟨rfl, -⟩ := Prod.mk.inj (Except.ok.inj hReceiver)
        rw [hLoop]
        exact .inr rfl

/-- `recv` moves segments behind those that it leaves in the queue. -/
theorem recv_recorded {s : ImKcpp mtu} {window : UInt32}
    (h : s.receiver.Recorded window.toNat pushes queued) (hInvariant : s.Invariant)
    (hWindow : s.congestionController.rcvWnd ≤ window) {n : Nat} {buffer : Vector UInt8 n}
    {outcome : Outcome mtu} (hOutcome : s.perform host (.recv buffer) = .ok outcome) :
    outcome.state.congestionController.rcvWnd ≤ window ∧
      ∃ more, outcome.state.receiver.rcvQueue = s.receiver.unread buffer ++ more ∧
        outcome.state.receiver.Recorded window.toNat (pushes ++ []) (queued ++ more) := by
  obtain ⟨hController, hReceiver⟩ := recv_receiver hOutcome
  have hTaken : Receiver.Recorded window.toNat pushes queued
      { s.receiver with rcvQueue := s.receiver.unread buffer } := { h with }
  rw [hController, List.append_nil]
  refine ⟨hWindow, ?_⟩
  rcases hReceiver with hKept | hMoved
  · rw [hKept]
    exact ⟨[], (List.append_nil _).symm, by rwa [List.append_nil]⟩
  · rw [hMoved]
    exact hTaken.move (hInvariant.receiver.dequeue (s.receiver.unread_suffix buffer))

/-- Setting the receive window widens the bound, any other setting leaves it. -/
theorem configure_rcvWnd_le {s next : ImKcpp mtu} {setting : Setting} {window : UInt32}
    (hSetting : s.configure setting = .ok next) (hDefault : Constants.ikcpWndRcv ≤ window)
    (hWindow : s.congestionController.rcvWnd ≤ window) :
    next.congestionController.rcvWnd ≤ (Call.configure setting).widen window := by
  by_cases hOther : ∀ value, setting ≠ .receiveWindow value
  · rw [(configure_receiveWindow hSetting hOther).2]
    cases setting with
    | receiveWindow value => exact absurd rfl (hOther value)
    | _ => exact hWindow
  · obtain ⟨value, hValue⟩ := not_forall.mp hOther
    obtain rfl := not_not.mp hValue
    rw [eq_configured hSetting]
    rw [UInt32.le_iff_toNat_le] at hDefault ⊢
    show (max value Constants.ikcpWndRcv).toNat ≤ (max window value).toNat
    rw [toNat_max, toNat_max]
    omega

/-- Every call keeps the record, with the segments that it has moved itself. -/
theorem perform_recorded {s : ImKcpp mtu} {window : UInt32}
    (h : s.receiver.Recorded window.toNat pushes queued) (hInvariant : s.Invariant)
    (hDefault : Constants.ikcpWndRcv ≤ window) (hWindow : s.congestionController.rcvWnd ≤ window)
    {call : Call} {outcome : Outcome mtu} (hOutcome : s.perform host call = .ok outcome) :
    outcome.state.congestionController.rcvWnd ≤ call.widen window ∧
      ∃ more, outcome.state.receiver.rcvQueue = s.unread call ++ more ∧
        outcome.state.receiver.Recorded (call.widen window).toNat
          (pushes ++ (⟨s, call, outcome⟩ : Event mtu).inWindow host) (queued ++ more) := by
  have hSame (rcvWnd_eq : outcome.state.congestionController.rcvWnd = s.congestionController.rcvWnd)
      (receiver_eq : outcome.state.receiver = s.receiver) :
      outcome.state.congestionController.rcvWnd ≤ window ∧
        ∃ more, outcome.state.receiver.rcvQueue = s.receiver.rcvQueue ++ more ∧
          outcome.state.receiver.Recorded window.toNat (pushes ++ []) (queued ++ more) := by
    rw [rcvWnd_eq, receiver_eq]
    exact ⟨hWindow, [], by simp, by simpa using h⟩
  cases hInvariant.effect hOutcome with
  | configure setting interval rtoCalculator controller queueLimit fastresend fastlimit
      nodelay deadLink
      hSetting =>
      refine ⟨configure_rcvWnd_le hSetting hDefault hWindow, [], (List.append_nil _).symm, ?_⟩
      have hWider : window.toNat ≤ ((Call.configure setting).widen window).toNat := by
        cases setting with
        | receiveWindow value =>
            show window.toNat ≤ (max window value).toNat
            rw [toNat_max]
            exact le_max_left _ _
        | _ => exact Nat.le_refl _
      have hRecorded := h.mono hWider
      show Receiver.Recorded _ (pushes ++ []) (queued ++ []) _
      rw [List.append_nil, List.append_nil]
      exact { hRecorded with }
  | input data folded sndBuf controller result hFolded hCore hRcvWnd hTotal =>
      rw [UInt32.le_iff_toNat_le] at hWindow
      have hFold := foldl_recorded h hInvariant hWindow (scan_accepted host s.sharedCtx.conv data)
      have hKept := foldl_applyFrame_eq (fun t => t.congestionController.rcvWnd) applyFrame_rcvWnd
        (scan host s.sharedCtx.conv data).1 s
      rw [← hFolded] at hFold hKept
      refine ⟨?_, hFold⟩
      show controller.rcvWnd ≤ window
      rw [hRcvWnd, hKept, UInt32.le_iff_toNat_le]
      exact hWindow
  | recvRefused => exact recv_recorded h hInvariant hWindow hOutcome
  | recv => exact recv_recorded h hInvariant hWindow hOutcome
  | sendRefused => exact hSame rfl rfl
  | send => exact hSame rfl rfl
  | check => exact hSame rfl rfl
  | idle call start hStart => cases hStart <;> exact hSame rfl rfl
  | flush call start next packets result askSend askTell hStart hFlushes hFlushed =>
      cases hStart <;> exact hSame hFlushed.rcvWnd_eq hFlushed.receiver_eq

end ImKcpp

/-- The record of a whole run. -/
theorem recorded_of_reachable {party : Party mtu}
    (h : (endpointSystem host mtu conv).Reachable party) :
    Constants.ikcpWndRcv ≤ party.largestWindow ∧
      party.endpoint.congestionController.rcvWnd ≤ party.largestWindow ∧
      party.endpoint.receiver.Recorded party.largestWindow.toNat
        (party.inWindow host) party.queued := by
  refine h.invariant (P := fun party => Constants.ikcpWndRcv ≤ party.largestWindow ∧
    party.endpoint.congestionController.rcvWnd ≤ party.largestWindow ∧
    party.endpoint.receiver.Recorded party.largestWindow.toNat
      (party.inWindow host) party.queued) ?_ ?_
  · rintro party rfl
    refine ⟨UInt32.le_refl _, UInt32.le_refl _, rfl, ?_, ?_, ?_⟩
    · simp [Party.queued, Party.fresh, ImKcpp.create]
    · simp [Party.inWindow, Party.fresh]
    · simp [Party.fresh, ImKcpp.create]
  · rintro party next hReach ⟨hDefault, hWindow, hRecorded⟩ ⟨call, outcome, hOutcome, rfl⟩
    obtain ⟨hNext, more, hQueue, hMore⟩ :=
      ImKcpp.perform_recorded hRecorded (invariant_of_reachable hReach) hDefault hWindow hOutcome
    have hQueued : (⟨party.endpoint, call, outcome⟩ : Event mtu).queued = more := by
      rw [Event.queued, hQueue, List.drop_left]
    rw [Party.record_largestWindow, Party.record_inWindow, Party.record_queued, hQueued]
    refine ⟨?_, hNext, hMore⟩
    cases call with
    | configure setting =>
        cases setting with
        | receiveWindow value =>
            rw [UInt32.le_iff_toNat_le] at hDefault ⊢
            show _ ≤ (max party.largestWindow value).toNat
            rw [toNat_max]
            exact hDefault.trans (le_max_left _ _)
        | _ => exact hDefault
    | _ => exact hDefault

/-- Under any input, the buffer stays ordered inside the largest window so far,
and the queue has been given the numbers from zero on, each with the first
segment that came inside the window. -/
theorem receiver_history {party : Party mtu}
    (hReach : (endpointSystem host mtu conv).Reachable party) :
    party.endpoint.receiver.rcvBuf.Pairwise (fun a b => a.header.sn < b.header.sn) ∧
    (∀ seg ∈ party.endpoint.receiver.rcvBuf, party.endpoint.receiver.rcvNxt ≤ seg.header.sn ∧
      seg.header.sn.toNat < party.endpoint.receiver.rcvNxt.toNat + party.largestWindow.toNat) ∧
    party.endpoint.receiver.rcvBuf.length ≤ party.largestWindow.toNat ∧
    (party.queued.map fun seg => seg.header.sn.toNat) =
      List.range party.endpoint.receiver.rcvNxt.toNat ∧
    ∀ seg ∈ party.queued, ∃ frame,
      (party.inWindow host).find? (fun frame => decide (frame.header.sn = seg.header.sn)) =
        some frame ∧
      frame.header.frg = seg.header.frg ∧ frame.payload = seg.data := by
  have hInvariant := (invariant_of_reachable hReach).receiver
  obtain ⟨-, -, hRecorded⟩ := recorded_of_reachable hReach
  refine ⟨?_, ?_, hRecorded.length_le hInvariant, hRecorded.numbers, ?_⟩
  · exact hInvariant.increasing.imp fun hLt => UInt32.lt_iff_toNat_lt.mpr hLt
  · exact fun seg hSeg => ⟨hInvariant.ahead seg hSeg, hRecorded.below seg hSeg⟩
  · exact fun seg hSeg => hRecorded.carried seg (List.mem_append_left _ hSeg)

theorem receiver_history_reordered :
    ∃ party : Party .least,
      (Party.fresh .least 0).run Host.x8664 [
        .input (wire Host.x8664 [⟨{ cmd := Commands.push, sn := 1, len := 1 }, [2]⟩]),
        .input (wire Host.x8664 [⟨{ cmd := Commands.push, sn := 1, len := 1 }, [3]⟩]),
        .input (wire Host.x8664 [⟨{ cmd := Commands.push, frg := 1, len := 1 }, [1]⟩])] =
          .ok party ∧
      party.queued.map Segment.data = [[1], [2]] ∧
      ∀ seg ∈ party.queued, ∃ frame,
        (party.inWindow Host.x8664).find? (fun frame => decide (frame.header.sn = seg.header.sn)) =
          some frame ∧
        frame.header.frg = seg.header.frg ∧ frame.payload = seg.data := by
  have hRuns : ((Party.fresh .least 0).run Host.x8664 [
      .input (wire Host.x8664 [⟨{ cmd := Commands.push, sn := 1, len := 1 }, [2]⟩]),
      .input (wire Host.x8664 [⟨{ cmd := Commands.push, sn := 1, len := 1 }, [3]⟩]),
      .input (wire Host.x8664 [⟨{ cmd := Commands.push, frg := 1, len := 1 }, [1]⟩])]).map
        (fun party => party.queued.map Segment.data) = .ok [[1], [2]] := by
    decide +kernel
  obtain ⟨party, hRun, hQueued⟩ := map_eq_ok.mp hRuns
  exact ⟨party, hRun, hQueued, (receiver_history (Party.reachable_run (.of_init rfl) hRun)).2.2.2.2⟩

end Imkcpp
