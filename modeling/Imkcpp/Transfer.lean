import Imkcpp.ArrivalOrder
import Imkcpp.FlowControl
import Imkcpp.FlushPackets
import Imkcpp.Quiescence
import Imkcpp.ReceiveWindow

/-! A message on its way: what the flush behind a `send` hands over, what the peer
makes of it in whatever order it arrives, and what the answer does to the sender. -/
namespace Imkcpp

open OrderedList Fragmentation

variable {mtu : Mtu} {host : Host}
  {conv S R : UInt32} {congestionWindow : Bool} {message : List UInt8} {frames arrived : List Frame}

section Deliveries

/-- What `input` makes of a datagram of whole segments: the fold over them, apart
from metadata and from the congestion window. -/
theorem ImKcpp.input_wire_folded (host : Host) (s : ImKcpp mtu)
    (hFrames : ∀ frame ∈ frames, frame.Accepted s.sharedCtx.conv ∧ frame.WellFormed) :
    ∃ sndBuf controller result,
      s.input host (wire host frames) = .ok ({ frames.foldl ImKcpp.applyFrame s with
        senderBuffer := ⟨sndBuf⟩, congestionController := controller }, result) ∧
      sndBuf.map Segment.core =
        (frames.foldl ImKcpp.applyFrame s).senderBuffer.sndBuf.map Segment.core ∧
      controller.rcvWnd = (frames.foldl ImKcpp.applyFrame s).congestionController.rcvWnd ∧
      controller.rmtWnd = (frames.foldl ImKcpp.applyFrame s).congestionController.rmtWnd := by
  obtain ⟨sndBuf, controller, result, hInput, hCore, hRcvWnd, -⟩ :=
    ImKcpp.input_spec host s (wire host frames)
  obtain ⟨cwnd, incr, hController⟩ := ImKcpp.input_congestionController hInput
  have hFold := ImKcpp.foldl_applyFrame_congestionController frames s
  rw [scan_wire host _ frames hFrames] at hInput hCore hRcvWnd hController
  refine ⟨sndBuf, controller, result, hInput, hCore, hRcvWnd, ?_⟩
  rw [show controller = _ from hController, hFold]

/-- What the segments of a list preserve one by one, with a record of those that
have arrived, they preserve together. -/
theorem ImKcpp.foldl_arrived {P : List Frame → ImKcpp mtu → Prop}
    (hFrame : ∀ arrived s, ∀ frame ∈ frames, P arrived s →
      P (arrived ++ [frame]) (s.applyFrame frame))
    {packet : List Frame} (hPacket : packet ⊆ frames) {s : ImKcpp mtu}
    (hStart : P arrived s) : P (arrived ++ packet) (packet.foldl ImKcpp.applyFrame s) := by
  induction packet generalizing s arrived with
  | nil =>
      rw [List.append_nil]
      exact hStart
  | cons frame rest ih =>
      obtain ⟨hMem, hRest⟩ := List.cons_subset.mp hPacket
      have hNext := ih hRest (hFrame arrived s frame hMem hStart)
      rwa [List.append_assoc] at hNext

/-- Datagrams of whole segments, input one after the other. What every segment
preserves, they preserve; and what is left of `input` touches metadata and the
congestion window only. -/
theorem Party.run_inputs {P : List Frame → ImKcpp mtu → Prop}
    (hFrames : ∀ frame ∈ frames, frame.Accepted conv ∧ frame.WellFormed)
    (hConv : ∀ arrived s, P arrived s → s.sharedCtx.conv = conv)
    (hFrame : ∀ arrived s, ∀ frame ∈ frames, P arrived s →
      P (arrived ++ [frame]) (s.applyFrame frame))
    (hFinish : ∀ arrived s sndBuf controller,
      sndBuf.map Segment.core = s.senderBuffer.sndBuf.map Segment.core →
      controller.rcvWnd = s.congestionController.rcvWnd →
      controller.rmtWnd = s.congestionController.rmtWnd → P arrived s →
      P arrived { s with senderBuffer := ⟨sndBuf⟩, congestionController := controller })
    {deliveries : List (List UInt8)}
    (hDeliveries : ∀ datagram ∈ deliveries, ∃ packet, packet ⊆ frames ∧ datagram = wire host packet)
    {party : Party mtu} (hStart : P arrived party.endpoint) :
    ∃ next, party.run host (deliveries.map .input) = .ok next ∧
      P (arrived ++ deliveries.flatMap (framesOf host)) next.endpoint ∧
      next.emitted = party.emitted ∧ next.returned = party.returned := by
  induction deliveries generalizing party arrived with
  | nil =>
      refine ⟨party, rfl, ?_, rfl, rfl⟩
      rwa [List.flatMap_nil, List.append_nil]
  | cons datagram rest ih =>
      obtain ⟨⟨packet, hPacket, rfl⟩, hRest⟩ := List.forall_mem_cons.mp hDeliveries
      have hWhole : ∀ frame ∈ packet, frame.Accepted party.endpoint.sharedCtx.conv ∧
          frame.WellFormed := by
        rw [hConv arrived party.endpoint hStart]
        exact fun frame hMem => hFrames frame (hPacket hMem)
      obtain ⟨sndBuf, controller, result, hInput, hCore, hRcvWnd, hRmtWnd⟩ :=
        party.endpoint.input_wire_folded host hWhole
      have hFold := ImKcpp.foldl_arrived hFrame hPacket hStart
      have hNext : P (arrived ++ packet)
          (party.record (.input (wire host packet)) ⟨_, .input result, []⟩).endpoint :=
        hFinish _ _ sndBuf controller hCore hRcvWnd hRmtWnd hFold
      obtain ⟨next, hRun, hLast, hEmitted, hReturned⟩ := ih hRest hNext
      refine ⟨next, ?_, ?_, ?_, ?_⟩
      · rw [List.map_cons, run, ImKcpp.perform, hInput, ok_bind]
        exact hRun
      · rw [List.flatMap_cons, framesOf_wire host packet fun frame hMem => (hWhole frame hMem).2,
          ← List.append_assoc]
        exact hLast
      · simpa using hEmitted
      · simpa [Event.returned] using hReturned

/-- What is delivered of the datagrams of a flush, if each of them is at least once. -/
theorem mem_delivered_iff {packets : List (List Frame)} {deliveries : List (List UInt8)}
    (hWhole : ∀ frame ∈ packets.flatten, frame.WellFormed)
    (hSame : ∀ datagram, datagram ∈ deliveries ↔ datagram ∈ packets.map (wire host))
    (frame : Frame) :
    frame ∈ deliveries.flatMap (framesOf host) ↔ frame ∈ packets.flatten := by
  rw [← framesOf_packets hWhole, List.mem_flatMap, List.mem_flatMap]
  exact exists_congr fun datagram => and_congr_left' (hSame datagram)

theorem packet_of_delivered {packets : List (List Frame)} {deliveries : List (List UInt8)}
    (hSame : ∀ datagram, datagram ∈ deliveries ↔ datagram ∈ packets.map (wire host)) :
    ∀ datagram ∈ deliveries, ∃ packet, packet ⊆ packets.flatten ∧ datagram = wire host packet := by
  intro datagram hDatagram
  obtain ⟨packet, hPacket, rfl⟩ := List.mem_map.mp ((hSame datagram).mp hDatagram)
  exact ⟨packet, fun frame hFrame => List.mem_flatten.mpr ⟨packet, hPacket, hFrame⟩, rfl⟩

end Deliveries

section Sending

/-- The pieces of a message under the numbers from zero, as a receiver keeps them. -/
def numbered (pieces : List (Fragment UInt8)) : List (UInt32 × UInt8 × List UInt8) :=
  pieces.mapIdx fun i piece => (UInt32.ofNat i, UInt8.ofNat piece.remaining, piece.payload)

/-- Segments that carry a message to an endpoint of the conversation. -/
structure Carries (mtu : Mtu) (conv : UInt32) (message : List UInt8)
    (frames : List Frame) : Prop where
  whole : ∀ frame ∈ frames, frame.Accepted conv ∧ frame.WellFormed
  push : ∀ frame ∈ frames, frame.header.cmd = Commands.push
  window : ∀ frame ∈ frames, frame.header.wnd ≠ 0
  contents_eq : frames.map Frame.contents = numbered (fragments mtu message)

section Numbers

variable {pieces : List (Fragment UInt8)}

/-- The numbers of a message that has few enough pieces. -/
theorem numbered_keys (hCount : pieces.length ≤ 255) :
    (numbered pieces).map (fun contents => contents.1.toNat) = List.range pieces.length := by
  refine List.ext_getElem (by simp [numbered]) fun i hLeft hRight => ?_
  rw [List.length_range] at hRight
  simp only [numbered, List.getElem_map, List.getElem_mapIdx, List.getElem_range]
  exact UInt32.toNat_ofNat_of_lt' (show i < 2 ^ 32 by omega)

/-- The receiver finds the pieces again in what it keeps. -/
theorem map_fragment_of_numbered (hCount : ∀ piece ∈ pieces, piece.remaining ≤ 255)
    {segs : List Segment} (h : segs.map Segment.contents = numbered pieces) :
    segs.map Segment.fragment = pieces := by
  have hFragment : Segment.fragment = (fun contents : UInt32 × UInt8 × List UInt8 =>
      (⟨contents.2.1.toNat, contents.2.2⟩ : Fragment UInt8)) ∘ Segment.contents := rfl
  rw [hFragment, ← List.map_map, h]
  refine List.ext_getElem (by simp [numbered]) fun i hLeft hRight => ?_
  have hRemaining : (UInt8.ofNat pieces[i].remaining).toNat = pieces[i].remaining :=
    UInt8.toNat_ofNat_of_lt' (Nat.lt_succ_of_le (hCount _ (List.getElem_mem hRight)))
  simp [numbered, hRemaining]

end Numbers

/-- A window that does not wrap in the header field, and is not used up. -/
theorem ImKcpp.wnd_ne_zero {s : ImKcpp mtu} (hWindow : s.congestionController.rcvWnd.toNat ≤ 65535)
    (hQueue : s.receiver.rcvQueue.length < s.congestionController.rcvWnd.toNat) :
    s.unusedReceiveWindow.toUInt32.toUInt16 ≠ 0 := by
  rw [← UInt16.toNat_inj.ne, UInt32.toNat_toUInt16, ImKcpp.unusedReceiveWindow_toNat hQueue.le,
    if_pos (by omega), UInt16.toNat_zero]
  omega

/-- New segments are all sent, with the contents that they have in the buffer. -/
theorem Sender.pushFrames_contents {settings : FlushSettings} {sndBuf : List Segment}
    (hNew : ∀ seg ∈ sndBuf, hasNeverBeenSent seg = true) :
    (pushFrames settings sndBuf).map Frame.contents = sndBuf.map Segment.contents := by
  have hAll : sndBuf.filter (isDue settings) = sndBuf := by
    refine List.filter_eq_self.mpr fun seg hSeg => ?_
    rw [isDue, hNew seg hSeg, Bool.true_or, Bool.true_or]
  rw [pushFrames, hAll, List.map_map]
  refine List.map_congr_left fun seg _ => ?_
  have hCore : (flushed settings seg).core = seg.core := flushed_core seg
  obtain ⟨-, -, hFrg, hSn, -, hData⟩ := Segment.core_eq_iff.mp hCore
  simp only [Function.comp_apply, Frame.contents, Segment.contents, hFrg, hSn, hData]

/-- The segments of a message, once they are numbered from zero. -/
theorem Sender.stampFrom_contents (conv rto current : UInt32) (wnd : Int32) (rcvNxt : UInt32)
    (pieces : List (Fragment UInt8)) :
    (stampFrom conv rto current wnd 0 rcvNxt (pieces.map segmentOf)).map Segment.contents =
      numbered pieces := by
  refine List.ext_getElem (by simp [stampFrom, numbered]) fun i hLeft hRight => ?_
  simp [stampFrom, numbered, Segment.contents, stampSegment, segmentOf]

theorem Sender.stampFrom_new {conv rto current : UInt32} {wnd : Int32} {sndNxt rcvNxt : UInt32}
    {segs : List Segment} :
    ∀ seg ∈ stampFrom conv rto current wnd sndNxt rcvNxt segs, hasNeverBeenSent seg = true := by
  intro seg hSeg
  obtain ⟨i, hLt, rfl⟩ := List.mem_mapIdx.mp hSeg
  rfl

/-- With a window for all of them, the segments of a message are all admitted. -/
theorem ImKcpp.Opened.moved_eq {s : ImKcpp mtu} (h : s.Opened conv S R false)
    {segs : List Segment} (hS : segs.length ≤ S.toNat) :
    ({ s with sender := { s.sender with sndQueue := segs } } : ImKcpp mtu).moved = ([],
      ⟨Sender.stampFrom conv s.rtoCalculator.rto s.current s.unusedReceiveWindow 0
        s.receiver.rcvNxt segs⟩,
      ⟨0, UInt32.ofNat segs.length⟩) := by
  have hConv : s.sharedCtx.conv = conv := congrArg Standing.conv h.standing_eq
  have hTracker : s.segmentTracker = {} := congrArg Standing.segmentTracker h.standing_eq
  have hWindow : s.congestionController.calculateCongestionWindow = S := by
    have hCongestion : s.congestionController.congestionWindow = false :=
      congrArg Standing.congestionWindow h.standing_eq
    have hSndWnd : s.congestionController.sndWnd = S := congrArg Standing.sndWnd h.standing_eq
    have hRmtWnd : s.congestionController.rmtWnd = S := congrArg Standing.rmtWnd h.standing_eq
    rw [CongestionController.calculateCongestionWindow, hCongestion, hSndWnd, hRmtWnd]
    exact ite_self S
  have hMin : min segs.length ((0 + S).toNat - (0 : UInt32).toNat) = segs.length := by
    rw [UInt32.zero_add, UInt32.toNat_zero, Nat.sub_zero, Nat.min_eq_left hS]
  have hUnused : ({ s with sender := { s.sender with sndQueue := segs } } :
      ImKcpp mtu).unusedReceiveWindow = s.unusedReceiveWindow := rfl
  rw [moved, moveSendQueueToBuffer, Sender.moveSendQueueToBuffer_eq, hUnused]
  dsimp only
  rw [hConv, hTracker, hWindow, hMin, h.acknowledged, List.drop_length, List.take_length,
    List.nil_append, UInt32.zero_add]

/-- The flush behind a `send` hands the whole message over. -/
theorem ImKcpp.Opened.sends {s : ImKcpp mtu} (h : s.Opened conv S R false)
    (hSendable : ∀ seg ∈ (fragments mtu message).map Sender.segmentOf, seg.Sendable mtu)
    (hS : Sender.estimateSegmentsCount mtu message.length ≤ S.toNat)
    (hR : R.toNat ≤ 65535) (host : Host) :
    ∃ (next : ImKcpp mtu) (packets : List (List Frame)) (result : FlushResult),
      ({ s with sender := { s.sender with
          sndQueue := (fragments mtu message).map Sender.segmentOf } } : ImKcpp mtu).flush host =
        .ok (next, packets.map (wire host), result) ∧
      Carries mtu conv message packets.flatten ∧ next.Answered ∧ next.standing = { s.standing with
        segmentTracker :=
          ⟨0, UInt32.ofNat (Sender.estimateSegmentsCount mtu message.length)⟩ } := by
  have hLength : ((fragments mtu message).map Sender.segmentOf).length =
      Sender.estimateSegmentsCount mtu message.length := by
    rw [List.length_map, fragments, split_length]
  have hConv : s.sharedCtx.conv = conv := congrArg Standing.conv h.standing_eq
  have hMoved := h.moved_eq (hLength.trans_le hS)
  have hSender := h.sender.enqueue hSendable
  rw [h.unsent, List.nil_append] at hSender
  obtain ⟨queued, hQueued⟩ : ∃ queued : ImKcpp mtu, queued =
    { s with sender := { s.sender with
      sndQueue := (fragments mtu message).map Sender.segmentOf } } := ⟨_, rfl⟩
  have hInvariant : queued.Invariant := by
    subst hQueued
    exact { h.toInvariant with sender := hSender }
  rw [← hQueued] at hMoved ⊢
  obtain ⟨next, packets, result, hFlush, hFrames, -, hAnswered, -, -, hStanding⟩ :=
    hInvariant.flush_answered (hQueued ▸ h.updated_eq) (hQueued ▸ h.window)
      (congrArg Prod.fst hMoved) host
  have hPushes : packets.flatten = Sender.pushFrames queued.settings queued.moved.2.1.sndBuf := by
    rw [hFrames, hQueued, h.unasked]
    simp [flushFrames, h.answered]
  have hIssued : ∀ frame ∈ packets.flatten, queued.Issued frame := by
    rw [hFrames]
    exact fun frame hFrame => issued_of_mem hInvariant.toSending hFrame
  refine ⟨next, packets, result, hFlush, ⟨?_, ?_, ?_, ?_⟩, hAnswered, ?_⟩
  · intro frame hFrame
    have hAccepted := (hIssued frame hFrame).accepted
    rw [hQueued, hConv] at hAccepted
    exact ⟨hAccepted, (hIssued frame hFrame).wellFormed⟩
  · rw [hPushes]
    exact hInvariant.toSending.pushFrames_cmd
  · intro frame hFrame
    have hMax : queued.congestionController.rcvWnd.toNat = max R.toNat 128 := by
      rw [hQueued]
      exact h.rcvWnd_toNat
    rw [(hIssued frame hFrame).wnd_eq]
    apply wnd_ne_zero
    · omega
    · rw [hMax, hQueued, h.receiver_eq]
      exact Nat.lt_of_lt_of_le (Nat.zero_lt_succ 127) (Nat.le_max_right _ _)
  · rw [hPushes, hMoved, Sender.pushFrames_contents Sender.stampFrom_new, Sender.stampFrom_contents]
  · rw [hStanding, hMoved, hLength, hQueued]
    rfl

end Sending

section Receiving

/-- The receiving endpoint after some segments: like at the start, but for the
receiver and for the acknowledgements that it owes. -/
structure ImKcpp.Receiving (start : ImKcpp mtu) (arrived : List Frame) (s : ImKcpp mtu) : Prop
    extends s.Calm where
  acknowledged : s.senderBuffer.sndBuf = []
  updated_eq : s.updated = true
  conv_eq : s.sharedCtx.conv = start.sharedCtx.conv
  rcvWnd_eq : s.congestionController.rcvWnd = start.congestionController.rcvWnd
  receiver_eq : s.receiver = start.receive arrived
  owes : arrived ≠ [] → s.ackController.acklist ≠ []

/-- A segment inside the first window. -/
theorem ImKcpp.Receiving.applyFrame {start s : ImKcpp mtu}
    (h : start.Receiving arrived s) {frame : Frame} (hFrame : frame.Accepted start.sharedCtx.conv)
    (hPush : frame.header.cmd = Commands.push) (hWindow : frame.header.wnd ≠ 0)
    (hInside : frame.header.sn < start.receiver.rcvNxt + start.congestionController.rcvWnd) :
    start.Receiving (arrived ++ [frame]) (s.applyFrame frame) := by
  have hCalm := h.toCalm.applyFrame (h.conv_eq ▸ hFrame) (by rw [hPush]; decide) hWindow
  refine { hCalm with
    acknowledged := ?_
    updated_eq := (s.applyFrame_updated frame).trans h.updated_eq
    conv_eq := (congrArg SharedCtx.conv (s.applyFrame_sharedCtx frame)).trans h.conv_eq
    rcvWnd_eq := (s.applyFrame_rcvWnd frame).trans h.rcvWnd_eq
    receiver_eq := ?_
    owes := fun _ => ?_ }
  · rw [List.eq_nil_iff_forall_not_mem]
    intro seg hSeg
    have hOld := ((h.mem_applyFrame_sndBuf frame seg).mp hSeg).1
    simp [h.acknowledged] at hOld
  · rw [receive, List.foldl_append, List.foldl_cons, List.foldl_nil, applyFrame_push _ hPush,
      applyFrame_push _ hPush]
    have hSame : (arrived.foldl ImKcpp.applyFrame start).receiver = s.receiver := h.receiver_eq.symm
    have hSameWnd : (arrived.foldl ImKcpp.applyFrame start).congestionController.rcvWnd =
        s.congestionController.rcvWnd :=
      (foldl_applyFrame_eq
        (fun s => s.congestionController.rcvWnd) applyFrame_rcvWnd arrived start).trans
        h.rcvWnd_eq.symm
    rw [storesPush, storesPush, CongestionController.fitsReceiveWindow,
      CongestionController.fitsReceiveWindow, hSame, hSameWnd]
  · rw [applyFrame_acklist]
    by_cases hFirst : arrived = []
    · have hStart : s.receiver = start.receiver := by
        rw [h.receiver_eq, hFirst]
        rfl
      rw [if_pos ⟨hPush, by rwa [hStart, h.rcvWnd_eq]⟩]
      simp
    · exact List.append_ne_nil_of_left_ne_nil (h.owes hFirst) _

theorem ImKcpp.Receiving.refresh {start s : ImKcpp mtu}
    (h : start.Receiving arrived s) {sndBuf : List Segment} {controller : CongestionController}
    (hCore : sndBuf.map Segment.core = s.senderBuffer.sndBuf.map Segment.core)
    (hRcvWnd : controller.rcvWnd = s.congestionController.rcvWnd)
    (hRmtWnd : controller.rmtWnd = s.congestionController.rmtWnd) :
    start.Receiving arrived { s with
      senderBuffer := ⟨sndBuf⟩
      congestionController := controller } := by
  rw [h.acknowledged, List.map_nil] at hCore
  exact { h with
    toCalm := h.toCalm.refresh (by rw [hCore, h.acknowledged, List.map_nil]) hRmtWnd
    acknowledged := List.map_eq_nil_iff.mp hCore
    rcvWnd_eq := hRcvWnd.trans h.rcvWnd_eq }

theorem ImKcpp.Opened.receiving {s : ImKcpp mtu}
    (h : s.Opened conv S R congestionWindow) : s.Receiving [] s :=
  { h.toCalm with
    acknowledged := h.acknowledged
    updated_eq := h.updated_eq
    conv_eq := rfl
    rcvWnd_eq := rfl
    receiver_eq := rfl
    owes := fun hNone => absurd rfl hNone }

/-- The keys of a message that the receiver can number are those of its segments. -/
theorem Carries.keys (h : Carries mtu conv message frames)
    (hCount : Sender.estimateSegmentsCount mtu message.length ≤ 255) :
    frames.map (fun frame => frame.header.sn.toNat) =
      List.range (Sender.estimateSegmentsCount mtu message.length) := by
  have hLength : (fragments mtu message).length = Sender.estimateSegmentsCount mtu message.length :=
    split_length _ _ _
  have hKeys := numbered_keys (hLength.trans_le hCount)
  rw [← h.contents_eq, List.map_map, hLength] at hKeys
  exact hKeys

theorem Carries.ne_nil (h : Carries mtu conv message frames)
    (hCount : Sender.estimateSegmentsCount mtu message.length ≤ 255) :
    frames ≠ [] := by
  have hSome := Sender.estimateSegmentsCount_pos mtu message.length
  have hKeys := h.keys hCount
  rintro rfl
  have hLength := congrArg List.length hKeys
  rw [List.map_nil, List.length_nil, List.length_range] at hLength
  omega

/-- When the segments from zero on have all been gathered and there is room for
them, they are in the queue. -/
theorem Receiver.Gathered.complete {limit : UInt32} {gathered : List Segment}
    {receiver : Receiver}
    (h : ({ queueLimit := limit } : Receiver).Gathered frames gathered receiver)
    {count : Nat} (hKeys : gathered.map Segment.key = List.range count) (hCount : 0 < count)
    (hLimit : count ≤ limit.toNat) :
    receiver.rcvQueue = gathered ∧ receiver.rcvBuf = [] ∧ receiver.rcvNxt.toNat = count := by
  have hAppend : receiver.rcvQueue ++ receiver.rcvBuf = gathered := h.append
  have hLength : gathered.length = count := by
    rw [← List.length_map Segment.key, hKeys, List.length_range]
  have hQueued : receiver.rcvQueue.length + 0 = 0 + receiver.rcvNxt.toNat := h.advanced.2.count
  have hReached : count ≤ receiver.rcvNxt.toNat := by
    rcases h.current with ⟨rfl, -⟩ | ⟨-, hMoved⟩
    · rw [List.length_nil] at hLength
      omega
    · have hMove := (h.invariant.le_move_iff hCount).mpr ⟨hLimit, ?_⟩
      · rwa [← hMoved] at hMove
      · intro sn _ hSn
        have hMem : sn.toNat ∈ gathered.map Segment.key := by
          rw [hKeys]
          exact List.mem_range.mpr hSn
        obtain ⟨seg, hSeg, hKey⟩ := List.mem_map.mp hMem
        exact ⟨seg, hSeg, UInt32.toNat_inj.mp hKey⟩
  have hTotal := congrArg List.length hAppend
  rw [List.length_append] at hTotal
  have hEmpty : receiver.rcvBuf = [] := List.length_eq_zero_iff.mp (by omega)
  rw [hEmpty, List.append_nil] at hAppend
  exact ⟨hAppend, hEmpty, by omega⟩

/-- What arrives of a message lies in the window of the endpoint. -/
theorem ImKcpp.Opened.arrives {s : ImKcpp mtu} (h : s.Opened conv S R congestionWindow)
    (hCarries : Carries mtu conv message frames)
    (hCount : Sender.estimateSegmentsCount mtu message.length ≤ 255)
    (hRoom : Sender.estimateSegmentsCount mtu message.length ≤ R.toNat) (hSub : arrived ⊆ frames) :
    s.Arrives arrived := by
  have hRcvWnd := h.rcvWnd_toNat
  have hKeys := hCarries.keys hCount
  have hAll : s.Arrives frames := by
    refine ⟨hCarries.push, fun frame hFrame => (hCarries.whole frame hFrame).2, ?_, ?_, ?_⟩
    · intro frame hFrame
      have hMem : frame.header.sn.toNat ∈
          List.range (Sender.estimateSegmentsCount mtu message.length) := by
        rw [← hKeys]
        exact List.mem_map_of_mem (f := fun frame : Frame => frame.header.sn.toNat) hFrame
      rw [List.mem_range] at hMem
      omega
    · intro frame hFrame other hOther hSn
      have hNodup : (frames.map fun frame => frame.header.sn.toNat).Nodup := by
        rw [hKeys]
        exact List.nodup_range
      exact congrArg Frame.contents
        (List.inj_on_of_nodup_map hNodup hFrame hOther (congrArg UInt32.toNat hSn))
    · rw [h.receiver_eq]
      simp
  exact hAll.mono hSub

/-- In whatever order and however often the segments of a message arrive, the
message is then in the queue, and nothing else is. -/
theorem ImKcpp.Opened.gathers {s : ImKcpp mtu} (h : s.Opened conv S R congestionWindow)
    (hCarries : Carries mtu conv message frames)
    (hCount : Sender.estimateSegmentsCount mtu message.length ≤ 255)
    (hRoom : Sender.estimateSegmentsCount mtu message.length ≤ R.toNat) (hR : R.toNat ≤ 65535)
    (hSame : ∀ frame, frame ∈ arrived ↔ frame ∈ frames) :
    (s.receive arrived).rcvBuf = [] ∧
      (s.receive arrived).rcvNxt.toNat = Sender.estimateSegmentsCount mtu message.length ∧
      (s.receive arrived).rcvQueue.map Segment.fragment = fragments mtu message := by
  have hRcvWnd := h.rcvWnd_toNat
  have hArrives := h.arrives hCarries hCount hRoom fun frame hFrame => (hSame frame).mp hFrame
  obtain ⟨gathered, hGathered, hAll⟩ := hArrives.run h.toInvariant.receiver
  have hInside : (s.receive arrived).rcvNxt.toNat + s.congestionController.rcvWnd.toNat <
      2 ^ 32 := by
    have hAdvanced := hGathered.advanced.2
    have hQueued := hAdvanced.count
    have hLimit := hAdvanced.queued_le
    rw [h.receiver_eq] at hQueued hLimit
    dsimp only at hQueued hLimit
    rw [List.length_nil, UInt32.toNat_zero] at hQueued
    rcases hLimit with hStart | hLimit
    · rw [hStart, UInt32.toNat_zero]
      omega
    · omega
  have hContents : gathered.map Segment.contents = numbered (fragments mtu message) := by
    obtain ⟨rank, hRank⟩ : ∃ rank : UInt32 × UInt8 × List UInt8 → ℕ,
        ∀ seg : Segment, rank seg.contents = seg.key :=
          ⟨fun contents => contents.1.toNat, fun _ => rfl⟩
    have hFrames : (frames.map Frame.segment).map Segment.contents = frames.map Frame.contents :=
      List.map_map
    have hIncreasing : Increasing Segment.key (frames.map Frame.segment) := by
      have hKeys : (frames.map Frame.segment).map Segment.key =
          List.range (Sender.estimateSegmentsCount mtu message.length) := by
        rw [List.map_map]
        exact hCarries.keys hCount
      rw [increasing_iff_map, hKeys]
      exact List.pairwise_lt_range
    rw [← hCarries.contents_eq, ← hFrames]
    refine hGathered.invariant.increasing.map_eq_of_mem_iff hRank hIncreasing fun contents => ?_
    rw [hArrives.mem_contents_iff hGathered (hAll hInside), hFrames, List.mem_map, h.receiver_eq]
    simp [hSame]
  have hLength : (fragments mtu message).length = Sender.estimateSegmentsCount mtu message.length :=
    split_length _ _ _
  have hKeys : gathered.map Segment.key =
      List.range (Sender.estimateSegmentsCount mtu message.length) := by
    rw [← hLength, ← numbered_keys (hLength.trans_le hCount), ← hContents, List.map_map]
    rfl
  rw [h.receiver_eq] at hGathered
  obtain ⟨hQueue, hEmpty, hNext⟩ :=
    hGathered.complete hKeys (Sender.estimateSegmentsCount_pos mtu _) hRoom
  refine ⟨hEmpty, hNext, ?_⟩
  rw [hQueue]
  refine map_fragment_of_numbered (fun piece hPiece => ?_) hContents
  exact (remaining_lt _ _ _ piece hPiece).le.trans hCount

end Receiving

section Answering

/-- The answer to a message: it acknowledges everything below `una`. -/
structure Answers (conv una : UInt32) (frames : List Frame) : Prop where
  ne_nil : frames ≠ []
  whole : ∀ frame ∈ frames, frame.Accepted conv ∧ frame.WellFormed
  kind : ∀ frame ∈ frames, frame.header.cmd = Commands.ack ∨ frame.header.cmd = Commands.wins
  window : ∀ frame ∈ frames, frame.header.wnd ≠ 0
  una_eq : ∀ frame ∈ frames, frame.header.una = una

/-- A queue that holds one message. -/
theorem Receiver.ready_of_message {receiver : Receiver} (hMessage : message ≠ [])
    (hQueue : receiver.rcvQueue.map Segment.fragment = fragments mtu message) :
    receiver.Ready ∧ joinFirst (receiver.rcvQueue.map Segment.fragment) = (message, []) := by
  obtain ⟨hFits, -⟩ := Sender.estimateSegmentsCount_spec mtu (List.length_pos_iff.mpr hMessage)
  obtain ⟨remaining, hCount⟩ :=
    Nat.exists_eq_succ_of_ne_zero (Sender.estimateSegmentsCount_pos mtu message.length).ne'
  have hLength : receiver.rcvQueue.length = remaining + 1 := by
    rw [← List.length_map Segment.fragment, hQueue, fragments, split_length, hCount]
  constructor
  · cases hFirst : receiver.rcvQueue with
    | nil => simp [hFirst] at hLength
    | cons first rest =>
        refine ⟨first, by rw [hFirst]; rfl, ?_⟩
        have hMem : first.fragment ∈ fragments mtu message := by
          rw [← hQueue, hFirst]
          exact List.mem_cons_self
        have hRemaining : first.header.frg.toNat < _ := remaining_lt _ _ _ _ hMem
        rw [hCount] at hRemaining
        omega
  · rw [hQueue, ← List.append_nil (fragments mtu message), fragments, hCount]
    rw [hCount] at hFits
    exact joinFirst_split_append _ _ message [] hFits

/-- The `recv` of a message that is alone in the queue. -/
theorem ImKcpp.Receiving.recv {start s : ImKcpp mtu} (h : start.Receiving arrived s)
    (hMessage : message ≠ []) (hEmpty : s.receiver.rcvBuf = [])
    (hQueue : s.receiver.rcvQueue.map Segment.fragment = fragments mtu message) {room : Nat}
    (span : Vector UInt8 room) (hRoom : message.length ≤ room) (host : Host) :
    ∃ (next : ImKcpp mtu) (windowProber : WindowProber),
      s.perform host (.recv span) = .ok { state := next, response := .recv (.ok message) } ∧
      next = { s with receiver := { s.receiver with rcvQueue := [] }, windowProber } ∧
        next.Invariant ∧
      (windowProber.probe = 0 ∨ windowProber.probe = ProbeFlag.askTell.value) := by
  obtain ⟨hReady, hJoin⟩ := Receiver.ready_of_message hMessage hQueue
  obtain ⟨outcome, hOutcome, hEffect⟩ := h.toInvariant.recvEffect host span
  have hInvariant := hEffect.invariant h.toInvariant
  cases hEffect with
  | recvRefused buffer error hRefused =>
      have hShort := hRefused hReady
      rw [hJoin] at hShort
      exact absurd hRoom (Nat.not_le.mpr hShort)
  | recv buffer rest windowProber hReady hSuffix hRest =>
      have hPrefix : s.receiver.rcvQueue.map Segment.fragment <+:
          [message].flatMap (fragments mtu) := by
        simp [hQueue]
      have hNone : rest = [] := by
        have hRest := hRest (Receiver.data_ne_nil_of_prefix (by simpa using hMessage) hPrefix)
        rwa [hJoin, List.map_eq_nil_iff] at hRest
      have hMove : ({ s.receiver with rcvQueue := rest } : Receiver).moveReceiveBufferToQueue =
          { s.receiver with rcvQueue := [] } := by
        simp [Receiver.moveReceiveBufferToQueue, hEmpty, hNone, Receiver.moveLoop]
      obtain ⟨written, result, hRecv⟩ := ImKcpp.perform_recv hOutcome
      have hProber := ImKcpp.recv_windowProber hRecv
      rw [h.unasked] at hProber
      rw [hMove] at hOutcome hInvariant
      rw [hJoin] at hOutcome
      refine ⟨_, windowProber, hOutcome, rfl, hInvariant, ?_⟩
      rcases hProber with hSame | hAsked
      · exact .inl ((congrArg WindowProber.probe hSame).trans h.unasked)
      · exact .inr ((congrArg WindowProber.probe hAsked).trans UInt32.zero_or)
  | idle call start hStart => cases hStart
  | flush call start next packets result askSend askTell hStart => cases hStart

/-- The flush behind this `recv` acknowledges the message. -/
theorem ImKcpp.Receiving.answers {start s next : ImKcpp mtu}
    (h : start.Receiving arrived s) (hArrived : arrived ≠ []) {windowProber : WindowProber}
    (hNext : next = { s with receiver := { s.receiver with rcvQueue := [] }, windowProber })
    (hInvariant : next.Invariant)
    (hProbe : windowProber.probe = 0 ∨ windowProber.probe = ProbeFlag.askTell.value)
    (hOpen : 0 < start.congestionController.rcvWnd.toNat)
    (hWindow : start.congestionController.rcvWnd.toNat ≤ 65535) (host : Host) :
    ∃ (final : ImKcpp mtu) (packets : List (List Frame)) (result : FlushResult),
      next.flush host = .ok (final, packets.map (wire host), result) ∧
      Answers start.sharedCtx.conv s.receiver.rcvNxt packets.flatten := by
  have hMoved : next.moved = ([], s.senderBuffer, s.segmentTracker) := by
    rw [moved, moveSendQueueToBuffer, hNext]
    dsimp only
    rw [h.unsent]
    rfl
  obtain ⟨final, packets, result, hFlush, hFrames, -⟩ :=
    hInvariant.flush_answered (hNext ▸ h.updated_eq) (hNext ▸ h.window)
      (congrArg Prod.fst hMoved) host
  have hIssued : ∀ frame ∈ packets.flatten, next.Issued frame := by
    rw [hFrames]
    exact fun frame hFrame => issued_of_mem hInvariant.toSending hFrame
  refine ⟨final, packets, result, hFlush, ?_, ?_, ?_, ?_, ?_⟩
  · have hOwed : next.ackController.acklist ≠ [] := by
      rw [hNext]
      exact h.owes hArrived
    rw [hFrames, flushFrames, List.append_assoc, List.append_assoc]
    exact List.append_ne_nil_of_left_ne_nil (mt List.map_eq_nil_iff.mp hOwed) _
  · intro frame hFrame
    have hAccepted := (hIssued frame hFrame).accepted
    rw [← h.conv_eq]
    rw [hNext] at hAccepted
    exact ⟨hAccepted, (hIssued frame hFrame).wellFormed⟩
  · intro frame hFrame
    rw [hFrames] at hFrame
    rcases mem_flushFrames.mp hFrame with ⟨ack, -, rfl⟩ | ⟨hAsked, -⟩ | ⟨-, rfl⟩ | hPush
    · exact .inl rfl
    · have hUnasked : (next.windowProber.probe &&& ProbeFlag.askSend.value) = 0 := by
        rw [hNext]
        rcases hProbe with hProbe | hProbe
        · rw [hProbe]
          rfl
        · rw [hProbe]
          rfl
      simp [hUnasked] at hAsked
    · exact .inr rfl
    · rw [hMoved, h.acknowledged] at hPush
      simp [Sender.pushFrames] at hPush
  · intro frame hFrame
    rw [(hIssued frame hFrame).wnd_eq]
    apply wnd_ne_zero
    · rw [hNext]
      exact h.rcvWnd_eq ▸ hWindow
    · rw [hNext]
      exact h.rcvWnd_eq ▸ hOpen
  · intro frame hFrame
    rw [(hIssued frame hFrame).una_eq, hNext]

end Answering

section Acknowledging

/-- The sending endpoint after some segments of the answer to everything that it
has sent: the first of them empties its buffer. -/
structure ImKcpp.Acknowledging (start : ImKcpp mtu) (arrived : List Frame) (s : ImKcpp mtu) : Prop
    extends s.Answered where
  conv_eq : s.sharedCtx.conv = start.sharedCtx.conv
  sndNxt_eq : s.segmentTracker.sndNxt = start.segmentTracker.sndNxt
  acknowledged : arrived ≠ [] → s.senderBuffer.sndBuf = []

theorem ImKcpp.Acknowledging.applyFrame {start s : ImKcpp mtu}
    (h : start.Acknowledging arrived s) {frame : Frame}
    (hFrame : frame.Accepted start.sharedCtx.conv)
    (hKind : frame.header.cmd = Commands.ack ∨ frame.header.cmd = Commands.wins)
    (hWindow : frame.header.wnd ≠ 0) (hUna : frame.header.una = start.segmentTracker.sndNxt) :
    start.Acknowledging (arrived ++ [frame]) (s.applyFrame frame) := by
  have hOther : frame.header.cmd ≠ Commands.push ∧ frame.header.cmd ≠ Commands.wask := by
    rcases hKind with hKind | hKind
    · rw [hKind]
      decide
    · rw [hKind]
      decide
  have hCalm := h.toCalm.applyFrame (h.conv_eq ▸ hFrame) hOther.2 hWindow
  refine { hCalm with
    answered := ?_
    conv_eq := (congrArg SharedCtx.conv (s.applyFrame_sharedCtx frame)).trans h.conv_eq
    sndNxt_eq := (s.applyFrame_sndNxt frame).trans h.sndNxt_eq
    acknowledged := fun _ => ?_ }
  · rw [applyFrame_acklist, h.answered, if_neg fun hPush => hOther.1 hPush.1, List.nil_append]
  · rw [List.eq_nil_iff_forall_not_mem]
    intro seg hSeg
    obtain ⟨hMem, hKept⟩ := (h.mem_applyFrame_sndBuf frame seg).mp hSeg
    refine hKept (.inr ?_)
    rw [hUna, ← h.sndNxt_eq]
    exact h.sender.numbered seg hMem

theorem ImKcpp.Acknowledging.refresh {start s : ImKcpp mtu}
    (h : start.Acknowledging arrived s) {sndBuf : List Segment} {controller : CongestionController}
    (hCore : sndBuf.map Segment.core = s.senderBuffer.sndBuf.map Segment.core)
    (hRmtWnd : controller.rmtWnd = s.congestionController.rmtWnd) :
    start.Acknowledging arrived { s with
      senderBuffer := ⟨sndBuf⟩
      congestionController := controller } :=
  { h with
    toCalm := h.toCalm.refresh hCore hRmtWnd
    acknowledged := fun hSome => by
      rw [h.acknowledged hSome] at hCore
      exact List.map_eq_nil_iff.mp hCore }

end Acknowledging

end Imkcpp
