import Imkcpp.Network
import Imkcpp.SenderSafety
import Imkcpp.Library.SelectiveRepeat

/-! How a state of the selective-repeat protocol stands for a party that sends and
one that receives, and that every call of the sending side keeps the relation.
The items are the fragments of the messages, the numbers the sequence numbers;
the plain `u32` comparisons never let these wrap, so they are places in the stream. -/
namespace Imkcpp

open Transition Fragmentation OrderedList

variable {mtu : Mtu} {host : Host} {conv : UInt32}

/-- A segment as a numbered item. -/
def Segment.numbered (seg : Segment) : ℕ × Fragment UInt8 := (seg.header.sn.toNat, seg.fragment)

def Frame.numbered (frame : Frame) : ℕ × Fragment UInt8 :=
  (frame.header.sn.toNat, ⟨frame.header.frg.toNat, frame.payload⟩)

/-- The numbered items of a list of segments. -/
def items (segs : List Segment) : Set (ℕ × Fragment UInt8) := {p | p ∈ segs.map Segment.numbered}

@[simp] theorem mem_items {segs : List Segment} {p : ℕ × Fragment UInt8} :
    p ∈ items segs ↔ ∃ seg ∈ segs, seg.numbered = p := List.mem_map

theorem items_concat (segs : List Segment) (seg : Segment) :
    items (segs ++ [seg]) = insert seg.numbered (items segs) := by
  ext p
  simp [Set.mem_insert_iff, eq_comm, or_comm]

theorem items_insertByKey (segs : List Segment) (seg : Segment) :
    items (insertByKey Segment.key seg segs) = insert seg.numbered (items segs) := by
  ext p
  simp [Set.mem_insert_iff, mem_insertByKey, eq_comm]

/-- The first of an ordered list is the only item of its number. -/
theorem items_tail {seg : Segment} {rest : List Segment}
    (h : Increasing Segment.key (seg :: rest)) :
    items rest = {p ∈ items (seg :: rest) | p.1 ≠ seg.key} := by
  ext p
  simp only [mem_items, Set.mem_ofPred_eq, List.mem_cons]
  constructor
  · rintro ⟨other, hOther, rfl⟩
    have hLt : seg.key < other.key := (List.pairwise_cons.mp h).1 other hOther
    exact ⟨⟨other, .inr hOther, rfl⟩, hLt.ne'⟩
  · rintro ⟨⟨other, rfl | hOther, rfl⟩, hNe⟩
    · exact absurd rfl hNe
    · exact ⟨other, hOther, rfl⟩

/-- Retransmission does not change the items of the buffer. -/
theorem items_of_core {segs others : List Segment}
    (h : segs.map Segment.core = others.map Segment.core) : items segs = items others := by
  have hMap := congrArg (List.map fun core : SegmentHeader × List UInt8 =>
    ((core.1.sn.toNat, ⟨core.1.frg.toNat, core.2⟩) : ℕ × Fragment UInt8)) h
  rw [List.map_map, List.map_map] at hMap
  exact congrArg (fun list => {p | p ∈ list}) hMap

/-- Everything that a party has received in order. -/
def Party.received (party : Party mtu) : List (Fragment UInt8) :=
  party.returned.flatMap (fragments mtu) ++ party.endpoint.receiver.rcvQueue.map Segment.fragment

/-- The state of the protocol in which `a` sends to `b`. -/
structure Link (host : Host) (a b : Party mtu) (s : SelectiveRepeat.State (Fragment UInt8)) :
    Prop where
  produced_eq : s.produced = a.accepted.flatMap (fragments mtu)
  queued_eq : s.queued = a.endpoint.sender.sndQueue.map Segment.fragment
  assigned_eq : s.assigned = a.endpoint.segmentTracker.sndNxt.toNat
  buffered_eq : s.buffered = items a.endpoint.senderBuffer.sndBuf
  packets : ∀ frame ∈ a.emittedFrames host, frame.header.cmd = Commands.push →
    frame.numbered ∈ s.packets
  held_eq : s.held = items b.endpoint.receiver.rcvBuf
  delivered_eq : s.delivered = b.received
  length_eq : s.delivered.length = b.endpoint.receiver.rcvNxt.toNat
  acks : ∀ ack ∈ b.dueAcks host, ack.sn.toNat ∈ s.acks
  cums : ∀ frame ∈ b.emittedFrames host, frame.header.una.toNat ∈ s.cums
  accepted : ∀ message ∈ a.accepted, message ≠ []
  returned : b.returned <+: a.accepted

/-- Two fresh parties are linked by the initial state. -/
theorem Link.init (host : Host) (mtu : Mtu) (conv : UInt32) :
    Link host (.fresh mtu conv) (.fresh mtu conv) {} where
  produced_eq := rfl
  queued_eq := rfl
  assigned_eq := rfl
  buffered_eq := by simp [items, Party.fresh, ImKcpp.create]
  packets := by simp [Party.emittedFrames, Party.emitted, Party.fresh]
  held_eq := by simp [items, Party.fresh, ImKcpp.create]
  delivered_eq := rfl
  length_eq := rfl
  acks := by simp [Party.dueAcks, Party.fresh]
  cums := by simp [Party.emittedFrames, Party.emitted, Party.fresh]
  accepted := by simp [Party.accepted, Party.fresh]
  returned := by simp [Party.returned, Party.fresh]

/-- The protocol between the two parties. -/
abbrev protocol : System (SelectiveRepeat.State (Fragment UInt8)) := SelectiveRepeat.system _

section Sender

variable {a b : Party mtu} {s : SelectiveRepeat.State (Fragment UInt8)} {call : Call}
  {outcome : Outcome mtu}

/-- A call of the sending side that accepts no message. -/
theorem Link.sends (h : Link host a b s) {queued : List (Fragment UInt8)} {assigned : ℕ}
    {buffered packets : Set (ℕ × Fragment UInt8)}
    (hAccepted : (⟨a.endpoint, call, outcome⟩ : Event mtu).accepted = [])
    (hQueued : queued = outcome.state.sender.sndQueue.map Segment.fragment)
    (hAssigned : assigned = outcome.state.segmentTracker.sndNxt.toNat)
    (hBuffered : buffered = items outcome.state.senderBuffer.sndBuf) (hKept : s.packets ⊆ packets)
    (hSent : ∀ frame ∈ outcome.datagrams.flatMap (framesOf host), frame.header.cmd = Commands.push →
      frame.numbered ∈ packets) :
    Link host (a.record call outcome) b { s with queued, assigned, buffered, packets } := by
  have hSame : (a.record call outcome).accepted = a.accepted := by
    rw [Party.record_accepted, hAccepted, List.append_nil]
  refine { h with produced_eq := ?_, queued_eq := hQueued, assigned_eq := hAssigned,
                  buffered_eq := hBuffered, packets := ?_, accepted := ?_, returned := ?_ }
  · rw [hSame, h.produced_eq]
  · intro frame hFrame hCmd
    rw [Party.record_emittedFrames, List.mem_append] at hFrame
    rcases hFrame with hFrame | hFrame
    · exact hKept (h.packets frame hFrame hCmd)
    · exact hSent frame hFrame hCmd
  · rw [hSame]
    exact h.accepted
  · rw [hSame]
    exact h.returned

/-- Calls that do not concern the sender. -/
theorem Link.sender_quiet (h : Link host a b s)
    (hAccepted : (⟨a.endpoint, call, outcome⟩ : Event mtu).accepted = [])
    (hDatagrams : outcome.datagrams = [])
    (hQueue : outcome.state.sender.sndQueue = a.endpoint.sender.sndQueue)
    (hBuffer : outcome.state.senderBuffer = a.endpoint.senderBuffer)
    (hTracker : outcome.state.segmentTracker = a.endpoint.segmentTracker) :
    Link host (a.record call outcome) b s := by
  refine h.sends hAccepted ?_ ?_ ?_ subset_rfl ?_
  · rw [hQueue, h.queued_eq]
  · rw [hTracker, h.assigned_eq]
  · rw [hBuffer, h.buffered_eq]
  · simp [hDatagrams]

/-- A successful `send` produces the fragments of its message. -/
theorem Link.send (h : Link host a b s) {buffer : List UInt8}
    {sndQueue : List Segment} {finish : Nat} (hBuffer : buffer ≠ [])
    (hQueue : sndQueue = a.endpoint.sender.sndQueue ++
      (fragments mtu buffer).map Sender.segmentOf)
    (hCount : Sender.estimateSegmentsCount mtu buffer.length ≤ 255) :
    Link host (a.record (.send buffer) {
        state := { a.endpoint with sender := { a.endpoint.sender with sndQueue } }
        response := .send (.ok finish) }) b
      { s with
        produced := s.produced ++ fragments mtu buffer
        queued := s.queued ++ fragments mtu buffer } := by
  have hAccepted : ∀ outcome : Outcome mtu, outcome.response = .send (.ok finish) →
      (⟨a.endpoint, .send buffer, outcome⟩ : Event mtu).accepted = [buffer] := by
    rintro ⟨state, response, datagrams⟩ rfl
    rfl
  refine { h with
    produced_eq := ?_, queued_eq := ?_, packets := ?_, accepted := ?_, returned := ?_ }
  · rw [Party.record_accepted, hAccepted _ rfl, List.flatMap_append, ← h.produced_eq,
      List.flatMap_singleton]
  · rw [Party.record_endpoint, hQueue, List.map_append, Sender.map_fragment_segmentOf hCount,
      ← h.queued_eq]
  · rw [Party.record_emittedFrames, List.flatMap_nil, List.append_nil]
    exact h.packets
  · intro message hMessage
    rw [Party.record_accepted, hAccepted _ rfl, List.mem_append, List.mem_singleton] at hMessage
    rcases hMessage with hMessage | rfl
    · exact h.accepted message hMessage
    · exact hBuffer
  · rw [Party.record_accepted]
    exact h.returned.trans (List.prefix_append _ _)

/-- The numbers that a list of segments of the peer acknowledges. -/
def acknowledged (frames : List Frame) : Set ℕ :=
  {n | ∃ frame ∈ frames, ∃ sn : UInt32, sn.toNat = n ∧ ImKcpp.Acknowledges frame sn}

/-- Acknowledgements of the peer permit to release what they name. -/
theorem Link.releasable (h : Link host a b s)
    (hAcks : ∀ frame ∈ b.emittedFrames host, frame.header.cmd = Commands.ack →
      ∃ ack ∈ b.dueAcks host, frame.header.sn = ack.sn)
    {frames : List Frame} (hFrames : ∀ frame ∈ frames, frame ∈ b.emittedFrames host) :
    ∀ n ∈ acknowledged frames, s.Releasable n := by
  rintro n ⟨frame, hFrame, sn, rfl, ⟨hCmd, hSn⟩ | hUna⟩
  · obtain ⟨ack, hAck, hSame⟩ := hAcks frame (hFrames frame hFrame) hCmd
    rw [← hSn, hSame]
    exact .inl (h.acks ack hAck)
  · exact .inr ⟨_, h.cums frame (hFrames frame hFrame), UInt32.lt_iff_toNat_lt.mp hUna⟩

/-- What `input` leaves in the sender buffer. -/
theorem items_foldl_applyFrame {r : ImKcpp mtu} (hInvariant : r.Invariant) (frames : List Frame) :
    items (frames.foldl ImKcpp.applyFrame r).senderBuffer.sndBuf =
      {p ∈ items r.senderBuffer.sndBuf | p.1 ∉ acknowledged frames} := by
  have hKept (seg : Segment) : (∀ frame ∈ frames, ¬ImKcpp.Acknowledges frame seg.header.sn) ↔
      seg.header.sn.toNat ∉ acknowledged frames := by
    constructor
    · rintro hNone ⟨frame, hFrame, sn, hSn, hAcknowledges⟩
      rw [UInt32.toNat_inj.mp hSn] at hAcknowledges
      exact hNone frame hFrame hAcknowledges
    · exact fun hNone frame hFrame hAcknowledges =>
        hNone ⟨frame, hFrame, seg.header.sn, rfl, hAcknowledges⟩
  ext p
  simp only [mem_items, Set.mem_ofPred_eq, hInvariant.mem_foldl_sndBuf frames, hKept]
  constructor
  · rintro ⟨seg, ⟨hSeg, hNone⟩, rfl⟩
    exact ⟨⟨seg, hSeg, rfl⟩, hNone⟩
  · rintro ⟨⟨seg, hSeg, rfl⟩, hNone⟩
    exact ⟨seg, ⟨hSeg, hNone⟩, rfl⟩

/-- Segments of the peer release what they acknowledge. -/
theorem Link.release (h : Link host a b s) (hInvariant : a.endpoint.Invariant) {data : List UInt8}
    {folded : ImKcpp mtu} {sndBuf : List Segment} {controller : CongestionController}
    {result : Except Error InputResult} {frames : List Frame}
    (hFolded : folded = frames.foldl ImKcpp.applyFrame a.endpoint)
    (hCore : sndBuf.map Segment.core = folded.senderBuffer.sndBuf.map Segment.core) :
    Link host (a.record (.input data) {
        state := { folded with senderBuffer := ⟨sndBuf⟩, congestionController := controller }
        response := .input result }) b
      { s with buffered := {p ∈ s.buffered | p.1 ∉ acknowledged frames} } := by
  refine h.sends rfl ?_ ?_ ?_ subset_rfl (by simp)
  · rw [h.queued_eq, hFolded]
    dsimp only
    rw [ImKcpp.foldl_applyFrame_sender]
  · rw [h.assigned_eq, hFolded]
    dsimp only
    rw [ImKcpp.foldl_applyFrame_sndNxt]
  · rw [h.buffered_eq, ← items_foldl_applyFrame hInvariant, ← hFolded]
    exact (items_of_core hCore).symm

/-- Admission to the sender buffer numbers items one by one. -/
theorem Link.assign (h : Link host a b s) {start : ImKcpp mtu}
    (hStart : a.endpoint.FlushStart call start) :
    protocol.Leads s { s with
      queued := start.moved.1.map Segment.fragment
      assigned := start.moved.2.2.sndNxt.toNat
      buffered := items start.moved.2.1.sndBuf } := by
  refine Sender.moveSendQueueToBuffer_induct (P := fun sndQueue buffer tracker =>
    protocol.Leads s { s with
      queued := sndQueue.map Segment.fragment
      assigned := tracker.sndNxt.toNat
      buffered := items buffer.sndBuf }) ?_ ?_
  · intro newseg rest buffer tracker hWindow hPrior
    refine hPrior.trans (.single ?_)
    have hAssign := SelectiveRepeat.Step.assign { s with
      queued := (newseg :: rest).map Segment.fragment
      assigned := tracker.sndNxt.toNat
      buffered := items buffer.sndBuf } newseg.fragment (rest.map Segment.fragment) rfl
    rw [SegmentTracker.sndNxt_succ hWindow, SenderBuffer.pushSegment, items_concat]
    exact hAssign
  · have hSender : start.sender = a.endpoint.sender ∧ start.senderBuffer = a.endpoint.senderBuffer ∧
        start.segmentTracker = a.endpoint.segmentTracker := by
      cases hStart <;> exact ⟨rfl, rfl, rfl⟩
    rw [hSender.1, hSender.2.1, hSender.2.2, ← h.queued_eq, ← h.assigned_eq, ← h.buffered_eq]
    exact .refl s

/-- A flush numbers segments and transmits some of the buffer. -/
theorem Link.transmit (h : Link host a b s) (hInvariant : a.endpoint.Invariant)
    {start next : ImKcpp mtu} {packets : List (List Frame)} {result : FlushResult}
    {askSend askTell : Bool} (hStart : a.endpoint.FlushStart call start)
    (hFlushed : ImKcpp.Flushed host start next packets result askSend askTell) :
    Link host (a.record call {
        state := next
        response := .flush result
        datagrams := packets.map (wire host) }) b
      { s with
        queued := start.moved.1.map Segment.fragment
        assigned := start.moved.2.2.sndNxt.toNat
        buffered := items start.moved.2.1.sndBuf
        packets := s.packets ∪ items start.moved.2.1.sndBuf } := by
  have hSending := (hStart.invariant hInvariant).toSending
  refine h.sends ?_ ?_ ?_ ?_ Set.subset_union_left ?_
  · cases hStart <;> rfl
  · rw [hFlushed.sender_eq]
  · rw [hFlushed.tracker_eq]
  · rw [hFlushed.sndBuf_eq, items_of_core (Sender.map_flushed_core _)]
  · intro frame hFrame hCmd
    rw [hFlushed.framesOf_eq hSending, hFlushed.frames_eq] at hFrame
    obtain ⟨seg, hSeg, hPayload, hHeader⟩ :=
      Sender.mem_pushFrames (ImKcpp.push_of_mem_flushFrames hFrame hCmd)
    refine .inr (mem_items.mpr ⟨seg, hSeg, ?_⟩)
    rw [Frame.numbered, hHeader, hPayload]
    rfl

/-- Every call of the sending side is matched by a run of the protocol. -/
theorem Link.sender_step (h : Link host a b s) (hInvariant : a.endpoint.Invariant)
    (hEffect : a.endpoint.Effect host call outcome)
    (hAcks : ∀ frame ∈ b.emittedFrames host, frame.header.cmd = Commands.ack →
      ∃ ack ∈ b.dueAcks host, frame.header.sn = ack.sn)
    (hInput : ∀ data, call = .input data →
      ∀ frame ∈ (scan host a.endpoint.sharedCtx.conv data).1, frame ∈ b.emittedFrames host) :
    ∃ t, protocol.Leads s t ∧ Link host (a.record call outcome) b t := by
  cases hEffect with
  | configure => exact ⟨s, .refl s, h.sender_quiet rfl rfl rfl rfl rfl⟩
  | input data folded sndBuf controller result hFolded hCore hRcvWnd hTotal =>
      exact ⟨_, .single (.release s _ (h.releasable hAcks (hInput data rfl))),
        h.release hInvariant hFolded hCore⟩
  | recvRefused => exact ⟨s, .refl s, h.sender_quiet rfl rfl rfl rfl rfl⟩
  | recv => exact ⟨s, .refl s, h.sender_quiet rfl rfl rfl rfl rfl⟩
  | sendRefused => exact ⟨s, .refl s, h.sender_quiet rfl rfl rfl rfl rfl⟩
  | send buffer finish hBuffer hCount hWindow hSmall =>
      exact ⟨_, .single (.produce s (fragments mtu buffer)), h.send hBuffer rfl hCount⟩
  | check => exact ⟨s, .refl s, h.sender_quiet rfl rfl rfl rfl rfl⟩
  | idle call start hStart hIdle =>
      cases hStart <;> exact ⟨s, .refl s, h.sender_quiet rfl rfl rfl rfl rfl⟩
  | flush call start next packets result askSend askTell hStart hFlushes hFlushed =>
      refine ⟨_, (h.assign hStart).trans (.single ?_), h.transmit hInvariant hStart hFlushed⟩
      exact .transmit _ _ subset_rfl

end Sender

end Imkcpp
