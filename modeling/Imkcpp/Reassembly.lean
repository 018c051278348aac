import Imkcpp.Delivery
import Imkcpp.ReceiveWindow

/-! Reassembly needs room for a whole message. `send` counts fragments against
the window that is advertised, but the receive queue ends at the window that was
set; a message between the two is acknowledged in full and never put together. -/
namespace Imkcpp

open Transition Fragmentation OrderedList

variable {mtu : Mtu} {host : Host} {conv w : UInt32}

/-- The queue is full and still waits for the end of its first message. -/
structure Receiver.Blocked (receiver : Receiver) : Prop where
  waiting : receiver.peekSize = .error .waitingForFragment
  full : receiver.room = 0

namespace Receiver

variable {receiver : Receiver}

/-- A full queue takes nothing from the buffer. -/
theorem move_of_full (h : receiver.room = 0) : receiver.moveReceiveBufferToQueue = receiver := by
  refine move_induct (P := fun r => r = receiver) ?_ rfl
  rintro other seg rest - - hRoom rfl
  exact absurd hRoom (Nat.not_lt.mpr (Nat.sub_eq_zero_iff_le.mp h))

/-- The next number stays in the buffer only behind a full queue. -/
theorem Settled.full (h : receiver.Settled) (hInvariant : ReceiverInvariant receiver)
    {seg : Segment} (hSeg : seg ∈ receiver.rcvBuf) (hNext : seg.header.sn = receiver.rcvNxt) :
    receiver.room = 0 := by
  cases hBuffer : receiver.rcvBuf with
  | nil => simp [hBuffer] at hSeg
  | cons head rest =>
      have hIncreasing := hInvariant.increasing
      rw [hBuffer] at hIncreasing hSeg
      have hLe : head.header.sn ≤ receiver.rcvNxt := by
        rw [← hNext]
        exact UInt32.le_iff_toNat_le.mpr (hIncreasing.head_le seg hSeg)
      have hGe : receiver.rcvNxt ≤ head.header.sn := hInvariant.ahead head (by simp [hBuffer])
      exact Nat.sub_eq_zero_of_le (h head (by simp [hBuffer]) (UInt32.le_antisymm hLe hGe))

namespace Blocked

theorem not_ready (h : receiver.Blocked) : ¬receiver.Ready := by
  rcases receiver.peekSize_cases with ⟨-, size, hSize⟩ | ⟨hReady, -⟩ | ⟨hReady, -⟩
  · cases h.waiting.symm.trans hSize
  · exact hReady
  · exact hReady

theorem rcvQueue_ne_nil (h : receiver.Blocked) : receiver.rcvQueue ≠ [] := by
  intro hNil
  have hPeek := h.waiting
  simp [peekSize, hNil] at hPeek

theorem emplace (h : receiver.Blocked) (hInvariant : ReceiverInvariant receiver)
    (header : SegmentHeader) (data : List UInt8) :
    (receiver.emplaceSegment header data).Blocked := by
  rcases emplaceSegment_cases hInvariant.increasing header data with ⟨-, hSame⟩ | ⟨-, hInsert⟩
  · rwa [hSame]
  · have hFull : room { receiver with
        rcvBuf := insertByKey Segment.key { header, data } receiver.rcvBuf } = 0 := h.full
    rw [hInsert, move_of_full hFull]
    exact ⟨h.waiting, h.full⟩

end Blocked

end Receiver

section Permanent

namespace ImKcpp

/-- No call but another `set_receive_window` frees a blocked receiver. -/
theorem Effect.blocked {s : ImKcpp mtu} {call : Call} {outcome : Outcome mtu}
    (hEffect : Effect host s call outcome) (hInvariant : s.Invariant) (h : s.receiver.Blocked)
    (hOther : ∀ value, call ≠ .configure (.receiveWindow value)) : outcome.state.receiver.Blocked :=
  hEffect.receiver_kept (P := fun receiver _ => receiver.Blocked) hInvariant
    (fun _ _ header data hReceiver hBlocked => hBlocked.emplace hReceiver header data)
    (fun _ _ _ hReady _ hBlocked => absurd hReady hBlocked.not_ready) hOther h

end ImKcpp

/-- Whatever happens in the network, a blocked receiver stays blocked, as long
as its window is not set again. -/
theorem blocked_of_leads {net later : Network mtu}
    (hReach : (networkSystem host mtu conv).Reachable net)
    (run : (networkSystem host mtu conv).Leads net later) {side : Side}
    (hSet : (net side).WindowSet w) (h : (net side).endpoint.receiver.Blocked)
    (hLater : (later side).WindowSet w) : (later side).endpoint.receiver.Blocked := by
  have hStarted : (net side).calls ≠ [] := by
    obtain ⟨rest, hCalls, -⟩ := hSet
    rw [hCalls]
    exact List.cons_ne_nil _ _
  suffices hRun : (later side).calls ≠ [] ∧
      ((later side).WindowSet w → (later side).endpoint.receiver.Blocked) from hRun.2 hLater
  refine run.invariant (P := fun later => (later side).calls ≠ [] ∧
    ((later side).WindowSet w → (later side).endpoint.receiver.Blocked)) ?_ hReach ⟨hStarted,
      fun _ => h⟩
  rintro net next hReach ⟨hCalls, hPrior⟩ ⟨moving, call, party, hStep, -, rfl⟩
  by_cases hMoving : side = moving
  · subst hMoving
    have hInvariant := invariant_of_reachable (party_of_network hReach side)
    obtain ⟨outcome, hEffect, rfl⟩ := hStep.effect hInvariant
    rw [Function.update_self]
    refine ⟨by simp, fun hSet => ?_⟩
    obtain ⟨hBefore, hOther⟩ := hSet.of_record hCalls
    exact hEffect.blocked hInvariant (hPrior hBefore) hOther
  · rw [Function.update_of_ne hMoving]
    exact ⟨hCalls, hPrior⟩

end Permanent

/-- In every later state of the network, as long as the window is not set again,
the receiver of this side waits for a fragment with a full queue. -/
def Network.Stuck (host : Host) (conv w : UInt32) (net : Network mtu) (side : Side) : Prop :=
  ∀ later, (networkSystem host mtu conv).Leads net later → (later side).WindowSet w →
    (later side).endpoint.receiver.Blocked

/-- `recv` returns the message into any buffer that has room for it. -/
def Party.Delivers (host : Host) (party : Party mtu) (message : List UInt8) : Prop :=
  ∀ (size : Nat) (buffer : Vector UInt8 size), message.length ≤ size →
    ∃ outcome, party.endpoint.perform host (.recv buffer) = .ok outcome ∧
      outcome.response = .recv (.ok message)

/-- Every segment of the message behind those already returned has been
acknowledged; the segments are numbered along the stream of messages. -/
def Party.Acknowledged (host : Host) (party : Party mtu) (message : List UInt8) : Prop :=
  ∀ i < Sender.estimateSegmentsCount mtu message.length,
    ∃ ack ∈ party.dueAcks host, ack.sn.toNat = (party.returned.flatMap (fragments mtu)).length + i

section Pending

variable {a b : Party mtu} {s : SelectiveRepeat.State (Fragment UInt8)} {message : List UInt8}
  {more : List (List UInt8)}

/-- The first segment in the queue announces the rest of the pending message. -/
theorem Link.frg_of_pending (h : Link host a b s) (hProtocol : SelectiveRepeat.Invariant s)
    (hPending : a.accepted = b.returned ++ message :: more) {first : Segment}
    (hFirst : b.endpoint.receiver.rcvQueue.head? = some first) :
    first.header.frg.toNat + 1 = Sender.estimateSegmentsCount mtu message.length := by
  obtain ⟨messages, hMessages, hPrefix⟩ := h.queue_prefix hProtocol
  rw [hPending] at hMessages
  obtain rfl := List.append_cancel_left hMessages
  have hHead : (b.endpoint.receiver.rcvQueue.map Segment.fragment).head? = some first.fragment := by
    rw [List.head?_map, hFirst]
    rfl
  exact remaining_of_prefix (Sender.estimateSegmentsCount_pos mtu _) hPrefix hHead

/-- A queue that lacks an acknowledged segment is full. -/
theorem Link.full_of_acknowledged (h : Link host a b s) (hProtocol : SelectiveRepeat.Invariant s)
    (hInvariant : b.endpoint.Invariant) (hSettled : b.endpoint.receiver.Settled)
    (hAcknowledged : b.Acknowledged host message)
    (hShort : b.endpoint.receiver.rcvQueue.length <
      Sender.estimateSegmentsCount mtu message.length) :
    b.endpoint.receiver.room = 0 := by
  obtain ⟨ack, hAck, hSn⟩ := hAcknowledged _ hShort
  have hLength : s.delivered.length =
      (b.returned.flatMap (fragments mtu)).length + b.endpoint.receiver.rcvQueue.length := by
    rw [h.delivered_eq, Party.received, List.length_append, List.length_map]
  rcases hProtocol.acks _ (h.acks ack hAck) with hDelivered | ⟨item, hHeld⟩
  · omega
  · rw [h.held_eq, mem_items] at hHeld
    obtain ⟨seg, hSeg, hSame⟩ := hHeld
    have hNumber : seg.header.sn.toNat = ack.sn.toNat := congrArg Prod.fst hSame
    refine hSettled.full hInvariant.receiver hSeg (UInt32.toNat_inj.mp ?_)
    rw [hNumber, hSn, ← hLength, h.length_eq]

/-- A pending message whose fragments are all in the queue is delivered. -/
theorem Link.delivers (h : Link host a b s) (hProtocol : SelectiveRepeat.Invariant s)
    (hInvariant : b.endpoint.Invariant) (hPending : a.accepted = b.returned ++ message :: more)
    (hReady : b.endpoint.receiver.Ready) : b.Delivers host message := by
  obtain ⟨messages, hMessages, hPrefix⟩ := h.queue_prefix hProtocol
  rw [hPending] at hMessages
  obtain rfl := List.append_cancel_left hMessages
  have hNonempty : ∀ other ∈ message :: more, other ≠ [] := fun other hOther =>
    h.accepted other (by rw [hPending]; exact List.mem_append_right _ hOther)
  obtain ⟨first, others, hFirst, hJoin, -⟩ := Receiver.joinFirst_of_ready hNonempty hPrefix hReady
  obtain ⟨rfl, rfl⟩ := List.cons.inj hFirst
  intro size buffer hSize
  obtain ⟨outcome, hOutcome, hEffect⟩ := hInvariant.recvEffect host buffer
  refine ⟨outcome, hOutcome, ?_⟩
  cases hEffect with
  | recvRefused buffer error hRefused =>
      have hSmall := hRefused hReady
      rw [hJoin] at hSmall
      omega
  | recv => rw [hJoin]
  | idle call start hStart => cases hStart
  | flush call start next packets result askSend askTell hStart => cases hStart

/-- A receiver is blocked only by a message of more fragments than its window. -/
theorem Link.count_of_blocked (h : Link host a b s) (hProtocol : SelectiveRepeat.Invariant s)
    (hWindowed : b.endpoint.Windowed w) (hBlocked : b.endpoint.receiver.Blocked) :
    ∃ message more, a.accepted = b.returned ++ message :: more ∧
      w.toNat < Sender.estimateSegmentsCount mtu message.length := by
  obtain ⟨messages, hMessages, hPrefix⟩ := h.queue_prefix hProtocol
  obtain ⟨first, rest, hQueue⟩ := List.exists_cons_of_ne_nil hBlocked.rcvQueue_ne_nil
  cases messages with
  | nil => simp [hQueue] at hPrefix
  | cons message more =>
      refine ⟨message, more, hMessages, ?_⟩
      have hFirst : b.endpoint.receiver.rcvQueue.head? = some first := by
        rw [hQueue, List.head?_cons]
      have hCount := h.frg_of_pending hProtocol hMessages hFirst
      have hShort : b.endpoint.receiver.rcvQueue.length ≤ first.header.frg.toNat :=
        Nat.not_lt.mp fun hLong => hBlocked.not_ready ⟨first, hFirst, hLong⟩
      have hFull := Nat.sub_eq_zero_iff_le.mp hBlocked.full
      rw [hWindowed.queueLimit_eq] at hFull
      omega

/-- A message of at most `w` fragments is ready once all of them are acknowledged. -/
theorem Link.ready_of_acknowledged (h : Link host a b s) (hProtocol : SelectiveRepeat.Invariant s)
    (hInvariant : b.endpoint.Invariant) (hWindowed : b.endpoint.Windowed w)
    (hPending : a.accepted = b.returned ++ message :: more)
    (hAcknowledged : b.Acknowledged host message)
    (hCount : Sender.estimateSegmentsCount mtu message.length ≤ w.toNat) :
    b.endpoint.receiver.Ready := by
  have hLong : Sender.estimateSegmentsCount mtu message.length ≤
      b.endpoint.receiver.rcvQueue.length := by
    by_contra hShort
    have hFull := Nat.sub_eq_zero_iff_le.mp
      (h.full_of_acknowledged hProtocol hInvariant hWindowed.settled hAcknowledged
        (Nat.not_le.mp hShort))
    rw [hWindowed.queueLimit_eq] at hFull
    omega
  have hPositive := Sender.estimateSegmentsCount_pos mtu message.length
  obtain ⟨first, rest, hQueue⟩ := List.exists_cons_of_length_pos (hPositive.trans_le hLong)
  have hFirst : b.endpoint.receiver.rcvQueue.head? = some first := by rw [hQueue, List.head?_cons]
  refine ⟨first, hFirst, ?_⟩
  have hFrg := h.frg_of_pending hProtocol hPending hFirst
  omega

/-- A message of more than `w` fragments blocks the receiver once all of them are acknowledged. -/
theorem Link.blocked_of_acknowledged (h : Link host a b s) (hProtocol : SelectiveRepeat.Invariant s)
    (hInvariant : b.endpoint.Invariant) (hWindowed : b.endpoint.Windowed w)
    (hPending : a.accepted = b.returned ++ message :: more)
    (hAcknowledged : b.Acknowledged host message)
    (hCount : w.toNat < Sender.estimateSegmentsCount mtu message.length) :
    b.endpoint.receiver.Blocked := by
  have hQueued := hWindowed.queued_le
  rw [hWindowed.queueLimit_eq] at hQueued
  have hFull := h.full_of_acknowledged hProtocol hInvariant hWindowed.settled hAcknowledged
    (hQueued.trans_lt hCount)
  have hLimit := Nat.sub_eq_zero_iff_le.mp hFull
  rw [hWindowed.queueLimit_eq] at hLimit
  have hPositive : 0 < w.toNat := UInt32.lt_iff_toNat_lt.mp hWindowed.positive
  obtain ⟨first, rest, hQueue⟩ := List.exists_cons_of_length_pos (hPositive.trans_le hLimit)
  have hFirst : b.endpoint.receiver.rcvQueue.head? = some first := by rw [hQueue, List.head?_cons]
  have hFrg := h.frg_of_pending hProtocol hPending hFirst
  refine ⟨?_, hFull⟩
  rcases b.endpoint.receiver.peekSize_cases with
    ⟨⟨front, hFront, hLong⟩, -⟩ | ⟨-, hNil, -⟩ | ⟨-, -, hPeek⟩
  · obtain rfl := Option.some.inj (hFirst.symm.trans hFront)
    omega
  · cases hQueue.symm.trans hNil
  · exact hPeek

end Pending

section Exchange

/-- Sending two bytes from a fresh endpoint, in segments of one byte. -/
def sendTwo (w : UInt32) : List Call :=
  [.configure (.receiveWindow w), .configure (.congestionWindowEnabled false),
    .send [1, 2], .update 0]

/-- The arrival of both segments at a fresh endpoint. -/
def receiveTwo (w : UInt32) : List Call :=
  [.configure (.receiveWindow w), .input (fragmentDatagram 0 1 1), .input (fragmentDatagram 1 0 2)]

/-- The two bytes are pending at the receiver, with all segments acknowledged. -/
theorem pending_two {w : UInt32} {left right : Party .least}
    (hLeft : (Party.fresh .least 0).run Host.x8664 (sendTwo w) = .ok left)
    (hRight : (Party.fresh .least 0).run Host.x8664 (receiveTwo w) = .ok right)
    (hSent : (left.accepted, left.emitted) =
      ([[1, 2]], [fragmentDatagram 0 1 1, fragmentDatagram 1 0 2]))
    (hReceived : (right.returned, right.endpoint.ackController.acklist) = ([], [⟨0, 0⟩, ⟨1, 0⟩])) :
    ∃ net : Network .least, net .left = left ∧ net .right = right ∧
      (networkSystem Host.x8664 .least 0).Reachable net ∧ left.WindowSet w ∧ right.WindowSet w ∧
      left.accepted = right.returned ++ [1, 2] :: [] ∧ right.Acknowledged Host.x8664 [1, 2] := by
  obtain ⟨hAccepted, hEmitted⟩ := Prod.mk.inj hSent
  obtain ⟨hReturned, hList⟩ := Prod.mk.inj hReceived
  have hReach :=
    reachable_exchange hLeft hRight (by simp [sendTwo]) (by simp [receiveTwo, hEmitted])
  refine ⟨_, rfl, rfl, hReach, ⟨_, Party.calls_run hLeft, by simp⟩,
    ⟨_, Party.calls_run hRight, by simp⟩, by rw [hAccepted, hReturned, List.nil_append], ?_⟩
  have hDue := (ack_of_emitted (party_of_network hReach .right)).1
  intro i hi
  have hTwo : i < 2 := hi
  rw [hReturned]
  interval_cases i
  · exact ⟨⟨0, 0⟩, hDue _ (by simp [hList]), rfl⟩
  · exact ⟨⟨1, 0⟩, hDue _ (by simp [hList]), rfl⟩

end Exchange

/-- Once all its segments are acknowledged, the pending message is returned, and
the receiver is not stuck, exactly when it has no more fragments than the window
that was set. Only longer messages ever block a receiver. -/
theorem deliverable_iff {net : Network mtu} (hReach : (networkSystem host mtu conv).Reachable net)
    {side : Side} (hSet : (net side.peer).WindowSet w) :
    ((net side.peer).endpoint.receiver.Blocked → ∃ message more,
      (net side).accepted = (net side.peer).returned ++ message :: more ∧
        w.toNat < Sender.estimateSegmentsCount mtu message.length) ∧
    ∀ message more, (net side).accepted = (net side.peer).returned ++ message :: more →
      (net side.peer).Acknowledged host message →
        ((net side.peer).Delivers host message ∧ ¬net.Stuck host conv w side.peer ↔
          Sender.estimateSegmentsCount mtu message.length ≤ w.toNat) := by
  obtain ⟨s, hProtocol, hLink⟩ := link_of_reachable hReach side
  have hPeer := party_of_network hReach side.peer
  have hInvariant := invariant_of_reachable hPeer
  have hWindowed := windowed_of_reachable hPeer hSet
  refine ⟨hLink.count_of_blocked hProtocol hWindowed, fun message more hPending hAcknowledged => ?_⟩
  constructor
  · rintro ⟨-, hFree⟩
    by_contra hCount
    have hBlocked :=
      hLink.blocked_of_acknowledged hProtocol hInvariant hWindowed hPending hAcknowledged
      (Nat.not_le.mp hCount)
    exact hFree fun later run hLater => blocked_of_leads hReach run hSet hBlocked hLater
  · intro hCount
    have hReady :=
      hLink.ready_of_acknowledged hProtocol hInvariant hWindowed hPending hAcknowledged hCount
    refine ⟨hLink.delivers hProtocol hInvariant hPending hReady, fun hStuck => ?_⟩
    exact (hStuck net (.refl net) hSet).not_ready hReady

theorem deliverable_two :
    ∃ net : Network .least, (networkSystem Host.x8664 .least 0).Reachable net ∧
      (net .right).WindowSet 2 ∧ (net .right).Acknowledged Host.x8664 [1, 2] ∧
      (net .right).Delivers Host.x8664 [1, 2] ∧ ¬net.Stuck Host.x8664 0 2 .right := by
  have hSend : ((Party.fresh .least 0).run Host.x8664 (sendTwo 2)).map
      (fun party => (party.accepted, party.emitted)) =
      .ok ([[1, 2]], [fragmentDatagram 0 1 1, fragmentDatagram 1 0 2]) := by decide +kernel
  have hReceive : ((Party.fresh .least 0).run Host.x8664 (receiveTwo 2)).map
      (fun party => (party.returned, party.endpoint.ackController.acklist)) =
      .ok ([], [⟨0, 0⟩, ⟨1, 0⟩]) := by decide +kernel
  obtain ⟨left, hLeft, hSent⟩ := map_eq_ok.mp hSend
  obtain ⟨right, hRight, hReceived⟩ := map_eq_ok.mp hReceive
  obtain ⟨net, rfl, rfl, hReach, -, hSet, hPending, hAcknowledged⟩ :=
    pending_two hLeft hRight hSent hReceived
  have hPeer : (net Side.left.peer).WindowSet 2 := hSet
  exact ⟨net, hReach, hSet, hAcknowledged,
    ((deliverable_iff hReach hPeer).2 [1, 2] [] hPending hAcknowledged).mpr (by decide)⟩

/-- With `w = 1` the two segments are acknowledged, and the receiver is stuck. -/
theorem deliverable_one :
    ¬∀ (mtu : Mtu) (host : Host) (conv w : UInt32) (net : Network mtu) (side : Side),
      (networkSystem host mtu conv).Reachable net →
      (net side).WindowSet w → (net side.peer).WindowSet w → ∀ message more,
        (net side).accepted = (net side.peer).returned ++ message :: more →
        (net side.peer).Acknowledged host message →
          (net side.peer).Delivers host message ∧ ¬net.Stuck host conv w side.peer := by
  intro hAll
  have hSend : ((Party.fresh .least 0).run Host.x8664 (sendTwo 1)).map
      (fun party => (party.accepted, party.emitted)) =
      .ok ([[1, 2]], [fragmentDatagram 0 1 1, fragmentDatagram 1 0 2]) := by decide +kernel
  have hReceive : ((Party.fresh .least 0).run Host.x8664 (receiveTwo 1)).map
      (fun party => ((party.returned, party.endpoint.ackController.acklist),
        (party.endpoint.peekSize, party.endpoint.receiver.room))) =
      .ok (([], [⟨0, 0⟩, ⟨1, 0⟩]), (.error .waitingForFragment, 0)) := by decide +kernel
  obtain ⟨left, hLeft, hSent⟩ := map_eq_ok.mp hSend
  obtain ⟨right, hRight, hBoth⟩ := map_eq_ok.mp hReceive
  obtain ⟨hReceived, hFinal⟩ := Prod.mk.inj hBoth
  obtain ⟨hPeek, hRoom⟩ := Prod.mk.inj hFinal
  obtain ⟨net, rfl, rfl, hReach, hLeftSet, hSet, hPending, hAcknowledged⟩ :=
    pending_two hLeft hRight hSent hReceived
  obtain ⟨-, hFree⟩ := hAll .least Host.x8664 0 1 net .left hReach hLeftSet hSet [1, 2] []
    hPending hAcknowledged
  exact hFree fun later run hLater => blocked_of_leads hReach run hSet ⟨hPeek, hRoom⟩ hLater

/-- `send` refuses what the advertised window does not admit. -/
theorem ImKcpp.Effect.count_le {s : ImKcpp mtu} {call : Call} {outcome : Outcome mtu}
    (h : s.Effect host call outcome) :
    ∀ message ∈ (⟨s, call, outcome⟩ : Event mtu).accepted,
      Sender.estimateSegmentsCount mtu message.length ≤ s.congestionController.rcvWnd.toNat := by
  cases h with
  | send buffer finish hBuffer hCount hWindow hSmall =>
      intro message hMessage
      rw [List.mem_singleton.mp hMessage]
      exact hWindow
  | idle call start hStart => cases hStart <;> exact fun _ h => absurd h List.not_mem_nil
  | flush call start next packets result askSend askTell hStart =>
      cases hStart <;> exact fun _ h => absurd h List.not_mem_nil
  | _ => exact fun _ h => absurd h List.not_mem_nil

/-- No accepted message has more fragments than the window, raised to the default. -/
theorem count_le_of_accepted {party : Party mtu}
    (hReach : (endpointSystem host mtu conv).Reachable party) (hSet : party.WindowSet w) :
    ∀ message ∈ party.accepted,
      Sender.estimateSegmentsCount mtu message.length ≤ max w.toNat 128 := by
  refine hSet.induct (P := fun party => ∀ message ∈ party.accepted,
    Sender.estimateSegmentsCount mtu message.length ≤ max w.toNat 128) ?_ ?_ hReach
  · intro outcome _ message hMessage
    simp [Party.accepted, Party.fresh, Party.record, Event.accepted] at hMessage
  · intro party call outcome hReach hSet hPrior hEffect _ message hMessage
    rw [Party.record_accepted, List.mem_append] at hMessage
    rcases hMessage with hMessage | hMessage
    · exact hPrior message hMessage
    · have hWindow : party.endpoint.congestionController.rcvWnd.toNat = max w.toNat 128 := by
        rw [(windowed_of_reachable hReach hSet).rcvWnd_eq]
        exact toNat_max w 128
      exact (hEffect.count_le message hMessage).trans_eq hWindow

/-- Windows of at least the default never block. -/
theorem not_blocked_of_default_le {net : Network mtu}
    (hReach : (networkSystem host mtu conv).Reachable net) {side : Side}
    (hSender : (net side).WindowSet w) (hSet : (net side.peer).WindowSet w)
    (hDefault : 128 ≤ w.toNat) :
    ¬(net side.peer).endpoint.receiver.Blocked := by
  intro hBlocked
  obtain ⟨s, hProtocol, hLink⟩ := link_of_reachable hReach side
  obtain ⟨message, more, hPending, hLong⟩ := hLink.count_of_blocked hProtocol
    (windowed_of_reachable (party_of_network hReach side.peer) hSet) hBlocked
  have hCount := count_le_of_accepted (party_of_network hReach side) hSender message
    (by rw [hPending]; simp)
  omega

end Imkcpp
