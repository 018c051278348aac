import Imkcpp.EndpointInvariant

/-! Sequence numbers around 2^32. They are meant modulo 2^32, but the sender adds
its window to `snd_una`, and the receiver its own to `rcv_nxt`, and both compare
the sums as plain `u32`. Here is when this agrees with modular arithmetic. -/
namespace Imkcpp

open OrderedList

variable {mtu : Mtu}

section Words

/-- A difference of words, by whether it wraps. -/
theorem toNat_sub_cases (a b : UInt32) :
    (b.toNat ≤ a.toNat ∧ (a - b).toNat + b.toNat = a.toNat) ∨
      (a.toNat < b.toNat ∧ (a - b).toNat + b.toNat = a.toNat + 2 ^ 32) := by
  have hA := a.toNat_lt
  have hB := b.toNat_lt
  rw [UInt32.toNat_sub]
  omega

/-- A sum of words, by whether it wraps. -/
theorem toNat_add_cases (a b : UInt32) :
    (a.toNat + b.toNat < 2 ^ 32 ∧ (a + b).toNat = a.toNat + b.toNat) ∨
      (2 ^ 32 ≤ a.toNat + b.toNat ∧ (a + b).toNat + 2 ^ 32 = a.toNat + b.toNat) := by
  have hA := a.toNat_lt
  have hB := b.toNat_lt
  rw [UInt32.toNat_add]
  omega

end Words

section Admission

/-- The segments of the send queue with the numbers that they get. -/
def Sender.stampFrom (conv rto current : UInt32) (wnd : Int32) (sndNxt rcvNxt : UInt32)
    (segs : List Segment) : List Segment :=
  segs.mapIdx fun i seg => stampSegment conv rto current wnd (sndNxt + UInt32.ofNat i) rcvNxt seg

theorem Sender.stampFrom_cons (conv rto current : UInt32) (wnd : Int32) (sndNxt rcvNxt : UInt32)
    (seg : Segment) (rest : List Segment) :
    stampFrom conv rto current wnd sndNxt rcvNxt (seg :: rest) =
      stampSegment conv rto current wnd sndNxt rcvNxt seg ::
        stampFrom conv rto current wnd (sndNxt + 1) rcvNxt rest := by
  unfold stampFrom
  rw [List.mapIdx_cons]
  congr 1
  · simp
  · congr 1
    funext i other
    rw [UInt32.ofNat_add, UInt32.add_assoc, UInt32.add_comm (UInt32.ofNat i)]
    rfl

/-- The admission loop takes segments until the plain sum of `snd_una` and the
window is reached. -/
theorem Sender.moveSendQueueToBuffer_eq (conv rto cwnd current : UInt32) (wnd : Int32)
    (rcvNxt : UInt32) (sndQueue : List Segment) (buffer : SenderBuffer) (tracker : SegmentTracker) :
    let count := min sndQueue.length ((tracker.sndUna + cwnd).toNat - tracker.sndNxt.toNat)
    moveSendQueueToBuffer conv rto cwnd current wnd rcvNxt sndQueue buffer tracker =
      (sndQueue.drop count,
        ⟨buffer.sndBuf ++
          stampFrom conv rto current wnd tracker.sndNxt rcvNxt (sndQueue.take count)⟩,
        { tracker with sndNxt := tracker.sndNxt + UInt32.ofNat count }) := by
  induction sndQueue generalizing buffer tracker with
  | nil => simp [moveSendQueueToBuffer, stampFrom]
  | cons newseg rest ih =>
      intro count
      unfold moveSendQueueToBuffer
      split_ifs with hWindow
      · have hSucc := SegmentTracker.sndNxt_succ hWindow
        rw [UInt32.lt_iff_toNat_lt] at hWindow
        have hCount : count = min rest.length
            ((tracker.sndUna + cwnd).toNat - (tracker.sndNxt + 1).toNat) + 1 := by
          simp only [count, List.length_cons, hSucc]
          omega
        rw [ih, hCount, List.drop_succ_cons, List.take_succ_cons, stampFrom_cons]
        simp only [SenderBuffer.pushSegment, List.append_assoc, List.singleton_append]
        rw [UInt32.ofNat_add, UInt32.add_comm (UInt32.ofNat _), ← UInt32.add_assoc]
        rfl
      · rw [UInt32.lt_iff_toNat_lt] at hWindow
        have hCount : count = 0 := by
          simp only [count]
          omega
        simp [hCount, stampFrom]

namespace ImKcpp

/-- How many sequence numbers are in flight, modulo 2^32. -/
def inFlight (s : ImKcpp mtu) : Nat := (s.segmentTracker.sndNxt - s.segmentTracker.sndUna).toNat

/-- How many queued segments the window has room for, modulo 2^32. -/
def admissible (s : ImKcpp mtu) : Nat :=
  min s.sender.sndQueue.length (s.congestionController.calculateCongestionWindow.toNat - s.inFlight)

/-- The sender's invariant with sequence numbers modulo 2^32. -/
structure ModularSender (s : ImKcpp mtu) : Prop where
  queued : ∀ seg ∈ s.sender.sndQueue, seg.Sendable mtu
  sending : ∀ seg ∈ s.senderBuffer.sndBuf, seg.InFlight mtu s.sharedCtx.conv
  increasing : Increasing (fun seg : Segment => (seg.header.sn - s.segmentTracker.sndUna).toNat)
    s.senderBuffer.sndBuf
  numbered : ∀ seg ∈ s.senderBuffer.sndBuf,
    (seg.header.sn - s.segmentTracker.sndUna).toNat < s.inFlight
  una_eq : s.segmentTracker.sndUna =
    s.senderBuffer.getFirstSequenceNumberInFlight.getD s.segmentTracker.sndNxt

/-- Exactly the admissible segments have gone from the queue of `s` to the given
buffer, under the numbers that follow `snd_nxt` modulo 2^32. -/
structure Admits (s : ImKcpp mtu) (sndQueue sndBuf : List Segment) (tracker : SegmentTracker) :
    Prop where
  sndQueue_eq : sndQueue = s.sender.sndQueue.drop s.admissible
  sndBuf_eq : sndBuf.map Segment.core = (s.senderBuffer.sndBuf ++
    Sender.stampFrom s.sharedCtx.conv s.rtoCalculator.rto s.current s.unusedReceiveWindow
      s.segmentTracker.sndNxt s.receiver.rcvNxt
        (s.sender.sndQueue.take s.admissible)).map Segment.core
  tracker_eq : tracker = { s.segmentTracker with
    sndNxt := s.segmentTracker.sndNxt + UInt32.ofNat s.admissible }

/-- The plain comparison leaves room for as many segments as the modular one
exactly when the sum with the window and the numbers in flight wrap together. -/
theorem room_eq_iff (sndUna sndNxt cwnd : UInt32) {queued : Nat} (hQueued : 0 < queued) :
    min queued ((sndUna + cwnd).toNat - sndNxt.toNat) =
        min queued (cwnd.toNat - (sndNxt - sndUna).toNat) ↔
      (sndUna.toNat + cwnd.toNat < 2 ^ 32 ↔ sndUna ≤ sndNxt) := by
  have hCwnd := cwnd.toNat_lt
  have hNxt := sndNxt.toNat_lt
  rw [UInt32.le_iff_toNat_le]
  have hSum := toNat_add_cases sndUna cwnd
  have hDifference := toNat_sub_cases sndNxt sndUna
  generalize (sndUna + cwnd).toNat = bound at hSum ⊢
  generalize (sndNxt - sndUna).toNat = inFlight at hDifference ⊢
  rcases hSum with ⟨hWrap, hSum⟩ | ⟨hWrap, hSum⟩
  · rcases hDifference with ⟨hOrder, hDifference⟩ | ⟨hOrder, hDifference⟩
    · omega
    · omega
  · rcases hDifference with ⟨hOrder, hDifference⟩ | ⟨hOrder, hDifference⟩
    · omega
    · omega

/-- The admission loop of a flush, in closed form. -/
theorem moved_eq (s : ImKcpp mtu) :
    let count := min s.sender.sndQueue.length
      ((s.segmentTracker.sndUna + s.congestionController.calculateCongestionWindow).toNat -
        s.segmentTracker.sndNxt.toNat)
    s.moved = (s.sender.sndQueue.drop count,
      ⟨s.senderBuffer.sndBuf ++ Sender.stampFrom s.sharedCtx.conv s.rtoCalculator.rto s.current
        s.unusedReceiveWindow s.segmentTracker.sndNxt s.receiver.rcvNxt
        (s.sender.sndQueue.take count)⟩,
      { s.segmentTracker with sndNxt := s.segmentTracker.sndNxt + UInt32.ofNat count }) :=
  Sender.moveSendQueueToBuffer_eq _ _ _ _ _ _ _ _ _

/-- Nothing is queued, or the sum of `snd_una` and the window wraps exactly when the
numbers in flight do. -/
def WrapsTogether (s : ImKcpp mtu) : Prop :=
  s.sender.sndQueue = [] ∨
    (s.segmentTracker.sndUna.toNat + s.congestionController.calculateCongestionWindow.toNat <
      2 ^ 32 ↔ s.segmentTracker.sndUna ≤ s.segmentTracker.sndNxt)

/-- If a buffered segment is to be sent again early, the numbers in flight are in plain
order once the admissible segments have got theirs. -/
def ResendsInOrder (s : ImKcpp mtu) : Prop :=
  s.senderBuffer.sndBuf.any (Sender.sendsFast s.settings) = true →
    s.segmentTracker.sndUna ≤ s.segmentTracker.sndNxt + UInt32.ofNat s.admissible

/-- The admission loop takes exactly what the window has room for, whatever the sequence
numbers, if and only if both wrap together. -/
theorem moved_admits_iff (s : ImKcpp mtu) :
    s.Admits s.moved.1 s.moved.2.1.sndBuf s.moved.2.2 ↔ s.WrapsTogether := by
  have hMoved := s.moved_eq
  dsimp only at hMoved
  constructor
  · intro hAdmits
    rcases s.sender.sndQueue.eq_nil_or_concat with hNil | hSome
    · exact .inl hNil
    · right
      have hPositive : 0 < s.sender.sndQueue.length := by
        obtain ⟨_, _, hSome⟩ := hSome
        simp [hSome]
      rw [← room_eq_iff _ _ _ hPositive]
      have hLeft := congrArg List.length hAdmits.sndQueue_eq
      rw [hMoved, List.length_drop, List.length_drop, admissible, inFlight] at hLeft
      omega
  · intro hCondition
    have hCount : min s.sender.sndQueue.length
        ((s.segmentTracker.sndUna + s.congestionController.calculateCongestionWindow).toNat -
          s.segmentTracker.sndNxt.toNat) = s.admissible := by
      unfold admissible inFlight
      rcases Nat.eq_zero_or_pos s.sender.sndQueue.length with hEmpty | hPositive
      · rw [hEmpty, Nat.zero_min, Nat.zero_min]
      · rw [room_eq_iff _ _ _ hPositive]
        apply hCondition.resolve_left
        intro hNil
        simp [hNil] at hPositive
    rw [hMoved, hCount]
    exact ⟨rfl, rfl, rfl⟩

/-- What an admission gets is never sent early, for it has never been sent. -/
theorem moved_any_sendsFast (s : ImKcpp mtu) :
    s.moved.2.1.sndBuf.any (Sender.sendsFast s.settings) =
      s.senderBuffer.sndBuf.any (Sender.sendsFast s.settings) := by
  obtain ⟨admitted, hMoved, hNew⟩ := s.moved_append
  have hNone : admitted.any (Sender.sendsFast s.settings) = false := by
    rw [List.any_eq_false]
    intro seg hSeg
    simp [Sender.sendsFast, hNew seg hSeg]
  rw [hMoved, List.any_append, hNone, Bool.or_false]

/-- Admission leaves segments that fit. -/
theorem ModularSender.moved_sendable {s : ImKcpp mtu} (h : s.ModularSender) :
    ∀ seg ∈ s.moved.2.1.sndBuf, seg.Sendable mtu := by
  have hStart : (∀ seg ∈ s.sender.sndQueue, seg.Sendable mtu) ∧
      ∀ seg ∈ s.senderBuffer.sndBuf, seg.Sendable mtu :=
    ⟨h.queued, fun seg hSeg => (h.sending seg hSeg).sendable⟩
  refine (Sender.moveSendQueueToBuffer_induct (P := fun sndQueue buffer _ =>
    (∀ seg ∈ sndQueue, seg.Sendable mtu) ∧ ∀ seg ∈ buffer.sndBuf, seg.Sendable mtu)
    ?_ hStart).2
  rintro newseg rest buffer tracker - ⟨hQueued, hBuffered⟩
  have hNew := hQueued newseg (by simp)
  refine ⟨fun seg hSeg => hQueued seg (by simp [hSeg]), fun seg hSeg => ?_⟩
  rcases List.mem_append.mp hSeg with hSeg | hSeg
  · exact hBuffered seg hSeg
  · rw [List.mem_singleton.mp hSeg]
    exact ⟨hNew.len_eq, hNew.data_ne_nil, hNew.data_length_le⟩

/-- Under the invariant modulo 2^32, an executed flush returns and has admitted exactly
what the window has room for if and only if the sum with the window and the numbers in
flight wrap together, and no segment is sent again early while they are out of order. -/
theorem admits_iff (host : Host) {s : ImKcpp mtu} (hSender : s.ModularSender)
    (hEmpty : s.flusher.offset = 0) (hUpdated : s.updated = true) :
    (∃ next datagrams result, s.flush host = .ok (next, datagrams, result) ∧
      s.Admits next.sender.sndQueue next.senderBuffer.sndBuf next.segmentTracker) ↔
      s.WrapsTogether ∧ s.ResendsInOrder := by
  constructor
  · rintro ⟨next, datagrams, result, hFlush, hAdmits⟩
    obtain ⟨hQueue, hCores, hTracker, -⟩ := flush_returns hUpdated hFlush
    have hMoved : s.Admits s.moved.1 s.moved.2.1.sndBuf s.moved.2.2 :=
      ⟨hQueue.symm.trans hAdmits.sndQueue_eq, hCores.symm.trans hAdmits.sndBuf_eq,
        hTracker.symm.trans hAdmits.tracker_eq⟩
    refine ⟨s.moved_admits_iff.mp hMoved, fun hFast => ?_⟩
    have hOrdered := flush_ordered hUpdated hFlush (s.moved_any_sendsFast.trans hFast)
    rwa [hMoved.tracker_eq] at hOrdered
  · rintro ⟨hTogether, hInOrder⟩
    have hMoved := s.moved_admits_iff.mpr hTogether
    have hFlushable : s.Flushable := {
      flusher_empty := hEmpty
      sendable := hSender.moved_sendable
      ordered := by
        rw [moved_any_sendsFast, hMoved.tracker_eq]
        exact hInOrder }
    obtain ⟨next, packets, result, _, _, hFlush, hFlushed⟩ := hFlushable.flush host hUpdated
    refine ⟨next, packets.map (wire host), result, hFlush, ?_⟩
    rw [hFlushed.sender_eq, hFlushed.sndBuf_eq, hFlushed.tracker_eq]
    exact ⟨hMoved.sndQueue_eq, (Sender.map_flushed_core _).trans hMoved.sndBuf_eq,
      hMoved.tracker_eq⟩

/-- A sender whose numbers in flight go round: the last number and number zero, the first
of them skipped twice. -/
def aroundZero : ImKcpp .least :=
  { create .least 0 with
    updated := true
    segmentTracker := { sndUna := 0xffffffff, sndNxt := 1 }
    senderBuffer := ⟨[
      { header := { cmd := Commands.push, sn := 0xffffffff, len := 1 }, data := [5]
        metadata := { resendts := 225, rto := 200, fastack := 2, xmit := 1 } },
      { header := { cmd := Commands.push, sn := 0, len := 1 }, data := [6]
        metadata := { resendts := 225, rto := 200, xmit := 1 } }]⟩
    sender := { sndQueue := [{ header := { len := 1 }, data := [7] }] }
    congestionController := { congestionWindow := false } }

theorem modularSender_aroundZero : aroundZero.ModularSender where
  queued := by
    intro seg hSeg
    rw [List.mem_singleton.mp hSeg]
    exact ⟨rfl, by simp, by decide⟩
  sending := by
    intro seg hSeg
    rcases List.mem_pair.mp hSeg with rfl | rfl
    · exact ⟨⟨rfl, by simp, by decide⟩, rfl, rfl⟩
    · exact ⟨⟨rfl, by simp, by decide⟩, rfl, rfl⟩
  increasing := by
    unfold Increasing
    decide
  numbered := by decide
  una_eq := rfl

/-- With no fast retransmission, the flush gives the queued segment number one. -/
theorem admits_around_zero :
    ∃ next datagrams result, aroundZero.flush Host.x8664 = .ok (next, datagrams, result) ∧
      aroundZero.Admits next.sender.sndQueue next.senderBuffer.sndBuf next.segmentTracker := by
  refine (admits_iff Host.x8664 modularSender_aroundZero rfl rfl).mpr ⟨.inr (by decide), ?_⟩
  have hNone : aroundZero.senderBuffer.sndBuf.any (Sender.sendsFast aroundZero.settings) =
      false := by
    decide
  intro hSome
  rw [hNone] at hSome
  cases hSome

-- With a threshold of one, the segment skipped twice is sent again, and the tracker is asked.
example :
    { aroundZero with sender := { aroundZero.sender with fastresend := 1 } }.flush Host.x8664 =
      .error (.assertion .segmentTracker) := rfl

/-- A sender with one queued segment that has just reached the last number. -/
def atLastNumber : ImKcpp .least :=
  { create .least 0 with
    updated := true
    segmentTracker := { sndUna := 0xffffffff, sndNxt := 0xffffffff }
    sender := { sndQueue := [{ header := { len := 1 }, data := [7] }] }
    congestionController := { congestionWindow := false } }

/-- With nothing in flight and a window of 32, the segment stays in the queue. -/
theorem admits_last_number :
    ¬∀ (mtu : Mtu) (host : Host) (s : ImKcpp mtu), s.ModularSender → s.flusher.offset = 0 →
      s.updated = true → s.congestionController.calculateCongestionWindow.toNat < 2 ^ 31 →
      ∃ next datagrams result, s.flush host = .ok (next, datagrams, result) ∧
        s.Admits next.sender.sndQueue next.senderBuffer.sndBuf next.segmentTracker := by
  intro hAll
  have hInvariant : atLastNumber.ModularSender := {
    queued := by
      intro seg hSeg
      rw [List.mem_singleton.mp hSeg]
      exact ⟨rfl, by simp, by decide⟩
    sending := by simp [atLastNumber, create]
    increasing := increasing_nil
    numbered := by simp [atLastNumber, create]
    una_eq := rfl }
  obtain ⟨next, datagrams, result, hFlush, hAdmits⟩ :=
    hAll .least Host.x8664 atLastNumber hInvariant rfl rfl (by decide)
  have hQueue := (flush_returns rfl hFlush).1.symm.trans hAdmits.sndQueue_eq
  exact absurd (congrArg List.length hQueue) (by decide)

end ImKcpp

end Admission

section Arrival

namespace Receiver

/-- How far a number is ahead of `rcv_nxt`, modulo 2^32. -/
def distance (receiver : Receiver) (sn : UInt32) : Nat := (sn - receiver.rcvNxt).toNat

/-- The receiver with a segment in its place by distance, and with what can then
be moved to the queue moved there. -/
def insertByDistance (receiver : Receiver) (seg : Segment) : Receiver :=
  { receiver with
    rcvBuf := insertByKey (fun other => receiver.distance other.header.sn) seg receiver.rcvBuf
    }.moveReceiveBufferToQueue

/-- Some buffered segment has the number. -/
def Holds (receiver : Receiver) (sn : UInt32) : Prop :=
  ∃ seg ∈ receiver.rcvBuf, seg.header.sn = sn

/-- The numbers of the buffered segments are in order of their distance. -/
def Ordered (receiver : Receiver) : Prop :=
  Increasing (fun seg : Segment => receiver.distance seg.header.sn) receiver.rcvBuf

variable {receiver : Receiver} {header : SegmentHeader} {data : List UInt8}

/-- The distance, by whether the number is below `rcv_nxt`. -/
theorem distance_cases (receiver : Receiver) (sn : UInt32) :
    (receiver.rcvNxt.toNat ≤ sn.toNat ∧
        receiver.distance sn + receiver.rcvNxt.toNat = sn.toNat) ∨
      (sn.toNat < receiver.rcvNxt.toNat ∧
        receiver.distance sn + receiver.rcvNxt.toNat = sn.toNat + 2 ^ 32) :=
  toNat_sub_cases sn receiver.rcvNxt

theorem distance_lt_iff {a b : UInt32} (hA : receiver.rcvNxt ≤ a) (hB : receiver.rcvNxt ≤ b) :
    receiver.distance a < receiver.distance b ↔ a.toNat < b.toNat := by
  rw [UInt32.le_iff_toNat_le] at hA hB
  have hFirst := receiver.distance_cases a
  have hSecond := receiver.distance_cases b
  omega

/-- While no buffered number has wrapped, distance and number order alike, and a
segment is put in its place. -/
theorem emplace_of_ahead (hOrdered : receiver.Ordered) (hNew : receiver.rcvNxt ≤ header.sn)
    (hAhead : ∀ seg ∈ receiver.rcvBuf, receiver.rcvNxt ≤ seg.header.sn) :
    (receiver.Holds header.sn → receiver.emplaceSegment header data = receiver) ∧
      (¬receiver.Holds header.sn →
        receiver.emplaceSegment header data = receiver.insertByDistance { header, data }) := by
  have hIncreasing : Increasing Segment.key receiver.rcvBuf := by
    apply List.Pairwise.imp_of_mem ?_ hOrdered
    intro a b hA hB hLt
    exact (distance_lt_iff (hAhead a hA) (hAhead b hB)).mp hLt
  rcases emplaceSegment_cases hIncreasing header data with ⟨hStored, hSame⟩ | ⟨hMissing, hInsert⟩
  · exact ⟨fun _ => hSame, fun hNot => absurd hStored hNot⟩
  · refine ⟨fun ⟨seg, hSeg, hSn⟩ => absurd hSn (hMissing seg hSeg), fun _ => ?_⟩
    rw [hInsert, insertByDistance]
    congr 2
    unfold insertByKey
    congr 1
    · apply List.filter_congr
      intro seg hSeg
      exact decide_eq_decide.mpr (distance_lt_iff (hAhead seg hSeg) hNew).symm
    · congr 1
      apply List.filter_congr
      intro seg hSeg
      have hIff := distance_lt_iff (hAhead seg hSeg) hNew
      rw [decide_eq_decide, ← not_lt, ← not_lt, hIff]
      rfl

/-- Behind a buffered number that has wrapped, every other one is put last. -/
theorem emplace_of_wrapped (hOrdered : receiver.Ordered) (hNew : receiver.rcvNxt ≤ header.sn)
    {wrapped : Segment} (hWrapped : wrapped ∈ receiver.rcvBuf)
    (hBehind : wrapped.header.sn < receiver.rcvNxt) :
    receiver.emplaceSegment header data = { receiver with
      rcvBuf := receiver.rcvBuf ++ [({ header, data } : Segment)] }.moveReceiveBufferToQueue := by
  rcases receiver.rcvBuf.eq_nil_or_concat' with hNil | ⟨front, last, hBuffer⟩
  · simp [hNil] at hWrapped
  · have hLast : last.header.sn < header.sn := by
      -- The last segment is the farthest, so it has wrapped as well.
      have hFar : receiver.distance wrapped.header.sn ≤ receiver.distance last.header.sn := by
        unfold Ordered at hOrdered
        rw [hBuffer] at hOrdered hWrapped
        rcases List.mem_append.mp hWrapped with hFront | hSame
        · exact ((increasing_append.mp hOrdered).2.2 wrapped hFront last (by simp)).le
        · rw [List.mem_singleton.mp hSame]
      have hBound := last.header.sn.toNat_lt
      have hFirst := receiver.distance_cases wrapped.header.sn
      have hSecond := receiver.distance_cases last.header.sn
      rw [UInt32.lt_iff_toNat_lt] at hBehind ⊢
      rw [UInt32.le_iff_toNat_le] at hNew
      omega
    unfold emplaceSegment
    rw [hBuffer, List.rdropWhile_concat_neg _ _ _ (by simp [hLast]),
      List.rtakeWhile_concat_neg _ _ _ (by simp [hLast])]
    rfl

/-- A segment put last by mistake shows in the queue and the buffer together. -/
theorem ne_of_wrapped (hOrdered : receiver.Ordered) (hNew : receiver.rcvNxt ≤ header.sn)
    {wrapped : Segment} (hWrapped : wrapped ∈ receiver.rcvBuf)
    (hBehind : wrapped.header.sn < receiver.rcvNxt) :
    receiver.emplaceSegment header data ≠ receiver ∧
      (¬receiver.Holds header.sn →
        receiver.emplaceSegment header data ≠ receiver.insertByDistance { header, data }) := by
  have hAppend :=
    move_append { receiver with rcvBuf := receiver.rcvBuf ++ [({ header, data } : Segment)] }
  rw [← emplace_of_wrapped hOrdered hNew hWrapped hBehind] at hAppend
  constructor
  · intro hSame
    rw [hSame] at hAppend
    simpa using congrArg List.length hAppend
  · intro hMissing hSame
    rw [hSame, insertByDistance, move_append] at hAppend
    have hBoth := List.append_cancel_left hAppend
    have hSplit := hOrdered.filter_append_filter (receiver.distance header.sn)
    obtain ⟨closer, hCloser⟩ : ∃ l, l = receiver.rcvBuf.filter
      (fun seg => decide (receiver.distance seg.header.sn < receiver.distance header.sn)) :=
        ⟨_, rfl⟩
    obtain ⟨farther, hFarther⟩ : ∃ l, l = receiver.rcvBuf.filter
      (fun seg => decide (receiver.distance header.sn ≤ receiver.distance seg.header.sn)) :=
        ⟨_, rfl⟩
    rw [← hCloser, ← hFarther] at hSplit
    unfold insertByKey at hBoth
    dsimp only at hBoth
    rw [← hCloser, ← hFarther, ← hSplit, List.append_assoc, List.append_cancel_left_eq] at hBoth
    -- The wrapped segment is farther than the new one, so that one cannot be last.
    have hFar : wrapped ∈ farther := by
      rw [hFarther, List.mem_filter, decide_eq_true_eq]
      have hFirst := receiver.distance_cases wrapped.header.sn
      have hSecond := receiver.distance_cases header.sn
      have hBound := header.sn.toNat_lt
      rw [UInt32.lt_iff_toNat_lt] at hBehind
      rw [UInt32.le_iff_toNat_le] at hNew
      exact ⟨hWrapped, by omega⟩
    obtain ⟨first, others, hCons⟩ := List.exists_cons_of_ne_nil (List.ne_nil_of_mem hFar)
    rw [hCons, List.cons_append] at hBoth
    obtain ⟨hHead, -⟩ := List.cons.inj hBoth
    have hFirst : first ∈ receiver.rcvBuf := by
      have hMem : first ∈ farther := by simp [hCons]
      rw [hFarther] at hMem
      exact List.mem_of_mem_filter hMem
    exact hMissing ⟨first, hFirst, congrArg (fun seg => seg.header.sn) hHead.symm⟩

end Receiver

namespace ImKcpp

/-- What the `PUSH` case of `input` should make of `s`, by the distance of the
number: inside the window, behind `rcv_nxt`, or beyond the window. -/
structure HandlesPush (s next : ImKcpp mtu) (frame : Frame) : Prop where
  inside : s.receiver.distance frame.header.sn < s.congestionController.rcvWnd.toNat →
    next.ackController = s.ackController.scheduleAck frame.header.sn frame.header.ts ∧
    (s.receiver.Holds frame.header.sn → next.receiver = s.receiver) ∧
    (¬s.receiver.Holds frame.header.sn → next.receiver =
      s.receiver.insertByDistance { header := frame.header, data := frame.payload })
  behind : 2 ^ 31 ≤ s.receiver.distance frame.header.sn →
    next.ackController = s.ackController.scheduleAck frame.header.sn frame.header.ts ∧
    next.receiver = s.receiver
  beyond : s.congestionController.rcvWnd.toNat ≤ s.receiver.distance frame.header.sn →
    s.receiver.distance frame.header.sn < 2 ^ 31 →
    next.ackController = s.ackController ∧ next.receiver = s.receiver

/-- When the plain comparisons make of a number what its distance says. If the
window ends below 2^32, the distance must not wrap for a number ahead, nor may a
buffered number have wrapped; a number below `rcv_nxt` must be an old one. If the
window wraps, nothing more can be stored. -/
def AgreesModulo (s : ImKcpp mtu) (sn : UInt32) : Prop :=
  (s.receiver.rcvNxt.toNat + s.congestionController.rcvWnd.toNat < 2 ^ 32 ∧
    ((s.receiver.rcvNxt ≤ sn ∧ s.receiver.distance sn < 2 ^ 31 ∧
        (s.receiver.distance sn < s.congestionController.rcvWnd.toNat →
          ∀ seg ∈ s.receiver.rcvBuf, s.receiver.rcvNxt ≤ seg.header.sn)) ∨
      (sn < s.receiver.rcvNxt ∧ 2 ^ 31 ≤ s.receiver.distance sn))) ∨
  (2 ^ 32 ≤ s.receiver.rcvNxt.toNat + s.congestionController.rcvWnd.toNat ∧
    sn < s.receiver.rcvNxt ∧
    if s.receiver.distance sn < s.congestionController.rcvWnd.toNat then s.receiver.Holds sn
    else s.receiver.distance sn < 2 ^ 31)

/-- The window check, by whether the end of the window wraps. -/
theorem fits_iff (s : ImKcpp mtu) (sn : UInt32) :
    s.congestionController.fitsReceiveWindow s.receiver.rcvNxt sn = true ↔
      if s.receiver.rcvNxt.toNat + s.congestionController.rcvWnd.toNat < 2 ^ 32 then
        sn.toNat < s.receiver.rcvNxt.toNat + s.congestionController.rcvWnd.toNat
      else sn.toNat + 2 ^ 32 < s.receiver.rcvNxt.toNat + s.congestionController.rcvWnd.toNat := by
  rw [CongestionController.fitsReceiveWindow, decide_eq_true_eq, UInt32.lt_iff_toNat_lt]
  have hSum := toNat_add_cases s.receiver.rcvNxt s.congestionController.rcvWnd
  split_ifs <;> omega

/-- A segment that is dropped is handled right exactly if it is beyond the window. -/
theorem handlesPush_dropped (s : ImKcpp mtu) (frame : Frame) :
    s.HandlesPush s frame ↔
      s.congestionController.rcvWnd.toNat ≤ s.receiver.distance frame.header.sn ∧
        s.receiver.distance frame.header.sn < 2 ^ 31 := by
  have hChanged : s.ackController ≠
      s.ackController.scheduleAck frame.header.sn frame.header.ts := by
    intro hSame
    simpa [AckController.scheduleAck] using congrArg (fun c => c.acklist.length) hSame
  constructor
  · intro h
    refine ⟨Nat.not_lt.mp fun hInside => hChanged (h.inside hInside).1,
      Nat.not_le.mp fun hBehind => hChanged (h.behind hBehind).1⟩
  · rintro ⟨hBeyond, hAhead⟩
    exact ⟨fun hInside => absurd hInside (by omega), fun hBehind => absurd hBehind (by omega),
      fun _ _ => ⟨rfl, rfl⟩⟩

/-- A segment that is only acknowledged is handled right exactly if it is an old
one, or buffered and inside the window. -/
theorem handlesPush_acked (s : ImKcpp mtu) (hWindow : s.congestionController.rcvWnd.toNat < 2 ^ 31)
    (frame : Frame) :
    s.HandlesPush { s with
        ackController := s.ackController.scheduleAck frame.header.sn frame.header.ts } frame ↔
      2 ^ 31 ≤ s.receiver.distance frame.header.sn ∨
        (s.receiver.distance frame.header.sn < s.congestionController.rcvWnd.toNat ∧
          s.receiver.Holds frame.header.sn) := by
  constructor
  · intro h
    by_cases hInside : s.receiver.distance frame.header.sn < s.congestionController.rcvWnd.toNat
    · refine .inr ⟨hInside, ?_⟩
      by_contra hMissing
      have hStored : s.receiver = _ := (h.inside hInside).2.2 hMissing
      have hAppend := congrArg (fun r : Receiver => (r.rcvQueue ++ r.rcvBuf).length) hStored
      rw [Receiver.insertByDistance, Receiver.move_append, List.length_append, List.length_append,
        length_insertByKey] at hAppend
      dsimp only at hAppend
      omega
    · left
      by_contra hAhead
      have hKept := (h.beyond (Nat.not_lt.mp hInside) (Nat.not_le.mp hAhead)).1
      simpa [AckController.scheduleAck] using congrArg (fun c => c.acklist.length) hKept
  · intro hCase
    refine ⟨fun hInside => ⟨rfl, fun _ => rfl, fun hMissing => ?_⟩, fun _ => ⟨rfl, rfl⟩,
      fun hBeyond hAhead => ?_⟩
    · rcases hCase with hBehind | ⟨-, hHolds⟩
      · omega
      · exact absurd hHolds hMissing
    · rcases hCase with hBehind | ⟨hInside, -⟩
      · omega
      · omega

/-- A segment that is stored is handled right exactly if no buffered number has
wrapped. -/
theorem handlesPush_stored (s : ImKcpp mtu) (hOrdered : s.receiver.Ordered)
    (hWindow : s.congestionController.rcvWnd.toNat < 2 ^ 31) {frame : Frame}
    (hNew : s.receiver.rcvNxt ≤ frame.header.sn)
    (hInside : s.receiver.distance frame.header.sn < s.congestionController.rcvWnd.toNat) :
    s.HandlesPush { s with
        ackController := s.ackController.scheduleAck frame.header.sn frame.header.ts
        receiver := s.receiver.emplaceSegment frame.header frame.payload } frame ↔
      ∀ seg ∈ s.receiver.rcvBuf, s.receiver.rcvNxt ≤ seg.header.sn := by
  constructor
  · intro h seg hSeg
    by_contra hBehind
    obtain ⟨hSame, hOther⟩ := Receiver.ne_of_wrapped hOrdered hNew hSeg (UInt32.not_le.mp hBehind)
    obtain ⟨-, hHeld, hMissing⟩ := h.inside hInside
    by_cases hHolds : s.receiver.Holds frame.header.sn
    · exact hSame (hHeld hHolds)
    · exact hOther hHolds (hMissing hHolds)
  · intro hAhead
    refine ⟨fun _ => ⟨rfl, Receiver.emplace_of_ahead hOrdered hNew hAhead⟩, ?_, ?_⟩
    · intro hBehind
      omega
    · intro hBeyond
      omega

/-- Outside the window, the condition says that the number is beyond it. -/
theorem agreesModulo_of_dropped (s : ImKcpp mtu) {sn : UInt32}
    (hOutside : s.congestionController.fitsReceiveWindow s.receiver.rcvNxt sn = false) :
    s.AgreesModulo sn ↔
      s.congestionController.rcvWnd.toNat ≤ s.receiver.distance sn ∧
        s.receiver.distance sn < 2 ^ 31 := by
  have hFits := s.fits_iff sn
  have hDistance := s.receiver.distance_cases sn
  have hBound := sn.toNat_lt
  rw [hOutside, Bool.false_eq_true, false_iff] at hFits
  unfold AgreesModulo
  rw [UInt32.le_iff_toNat_le, UInt32.lt_iff_toNat_lt]
  split_ifs at hFits ⊢ <;> omega

/-- A number ahead of `rcv_nxt` fits only a window that does not wrap. -/
theorem near_of_fits (s : ImKcpp mtu) {sn : UInt32}
    (hInside : s.congestionController.fitsReceiveWindow s.receiver.rcvNxt sn = true)
    (hNew : s.receiver.rcvNxt ≤ sn) :
    s.receiver.rcvNxt.toNat + s.congestionController.rcvWnd.toNat < 2 ^ 32 ∧
      s.receiver.distance sn < s.congestionController.rcvWnd.toNat := by
  have hFits := (s.fits_iff sn).mp hInside
  have hDistance := s.receiver.distance_cases sn
  have hRcvWnd := s.congestionController.rcvWnd.toNat_lt
  have hOrder := UInt32.le_iff_toNat_le.mp hNew
  split_ifs at hFits <;> omega

/-- For a number that is stored, the condition says that no buffered one has wrapped. -/
theorem agreesModulo_of_new (s : ImKcpp mtu)
    (hWindow : s.congestionController.rcvWnd.toNat < 2 ^ 31) {sn : UInt32}
    (hInside : s.congestionController.fitsReceiveWindow s.receiver.rcvNxt sn = true)
    (hNew : s.receiver.rcvNxt ≤ sn) :
    s.AgreesModulo sn ↔ ∀ seg ∈ s.receiver.rcvBuf, s.receiver.rcvNxt ≤ seg.header.sn := by
  obtain ⟨hEnd, hNear⟩ := s.near_of_fits hInside hNew
  constructor
  · rintro (⟨-, ⟨-, -, hAhead⟩ | ⟨hBehind, -⟩⟩ | ⟨hWrap, -⟩)
    · exact hAhead hNear
    · exact absurd hNew (UInt32.not_le.mpr hBehind)
    · omega
  · exact fun hAhead => .inl ⟨hEnd, .inl ⟨hNew, hNear.trans hWindow, fun _ => hAhead⟩⟩

/-- For a number that is only acknowledged, the condition says that it is an old one,
or buffered and inside the window. -/
theorem agreesModulo_of_old (s : ImKcpp mtu)
    (hWindow : s.congestionController.rcvWnd.toNat < 2 ^ 31) {sn : UInt32}
    (hInside : s.congestionController.fitsReceiveWindow s.receiver.rcvNxt sn = true)
    (hOld : sn < s.receiver.rcvNxt) :
    s.AgreesModulo sn ↔ 2 ^ 31 ≤ s.receiver.distance sn ∨
      (s.receiver.distance sn < s.congestionController.rcvWnd.toNat ∧ s.receiver.Holds sn) := by
  have hFits := (s.fits_iff sn).mp hInside
  have hDistance := s.receiver.distance_cases sn
  have hOrder := UInt32.lt_iff_toNat_lt.mp hOld
  constructor
  · rintro (⟨hEnd, ⟨hNew, -⟩ | ⟨-, hBehind⟩⟩ | ⟨hWrap, -, hRest⟩)
    · exact absurd hNew (UInt32.not_le.mpr hOld)
    · exact .inl hBehind
    · rw [if_neg (Nat.not_lt.mpr hWrap)] at hFits
      have hNear : s.receiver.distance sn < s.congestionController.rcvWnd.toNat := by omega
      rw [if_pos hNear] at hRest
      exact .inr ⟨hNear, hRest⟩
  · rintro (hBehind | ⟨hNear, hHolds⟩)
    · left
      have hEnd : s.receiver.rcvNxt.toNat + s.congestionController.rcvWnd.toNat < 2 ^ 32 := by
        by_contra hWrap
        rw [if_neg hWrap] at hFits
        omega
      exact ⟨hEnd, .inr ⟨hOld, hBehind⟩⟩
    · right
      rw [if_pos hNear]
      exact ⟨by omega, hOld, hHolds⟩

/-- The receiver treats the number of a `PUSH` as a number modulo 2^32 exactly
under the stated condition on `rcv_nxt`, the window, the number and the buffer. -/
theorem handlesPush_iff (s : ImKcpp mtu) (hOrdered : s.receiver.Ordered)
    (hWindow : s.congestionController.rcvWnd.toNat < 2 ^ 31) (data : List UInt8)
    (header : SegmentHeader) (ctx : InputContext)
    (hLen : ctx.offset + header.len.toNat ≤ data.length) :
    ∃ next after, inputPush data header s ctx = .ok (next, after) ∧
      (s.HandlesPush next ⟨header, (data.drop ctx.offset).take header.len.toNat⟩ ↔
        s.AgreesModulo header.sn) := by
  refine ⟨_, _, inputPush_eq data header s ctx hLen, ?_⟩
  generalize (data.drop ctx.offset).take header.len.toNat = payload
  unfold ImKcpp.applyPush
  dsimp only
  cases hInside : s.congestionController.fitsReceiveWindow s.receiver.rcvNxt header.sn with
  | false =>
      rw [Bool.not_false, if_pos rfl, s.agreesModulo_of_dropped hInside]
      exact s.handlesPush_dropped ⟨header, payload⟩
  | true =>
      rw [Bool.not_true, if_neg Bool.false_ne_true]
      cases hReceive : s.receiver.shouldReceive header.sn with
      | true =>
          have hNew : s.receiver.rcvNxt ≤ header.sn := of_decide_eq_true hReceive
          rw [if_pos rfl, s.agreesModulo_of_new hWindow hInside hNew]
          exact @handlesPush_stored _ s hOrdered hWindow ⟨header, payload⟩ hNew
            (s.near_of_fits hInside hNew).2
      | false =>
          have hOld : header.sn < s.receiver.rcvNxt := by
            simpa [Receiver.shouldReceive] using hReceive
          rw [if_neg Bool.false_ne_true, s.agreesModulo_of_old hWindow hInside hOld]
          exact s.handlesPush_acked hWindow ⟨header, payload⟩

/-- A receiver short of the last numbers, with one segment ahead of a gap of two. -/
def nearLastNumber : ImKcpp .least :=
  { create .least 0 with
    receiver := {
      queueLimit := 128
      rcvNxt := 0xffffff00
      rcvBuf := [{ header := { cmd := Commands.push, sn := 0xffffff02, len := 1 },
                   data := [5] }] } }

/-- A segment in the gap goes before the buffered one. -/
theorem handlesPush_near_last_number :
    ∃ next after,
      inputPush [7] { cmd := Commands.push, sn := 0xffffff01, len := 1 } nearLastNumber {} =
        .ok (next, after) ∧
      nearLastNumber.HandlesPush next
        ⟨{ cmd := Commands.push, sn := 0xffffff01, len := 1 }, [7]⟩ := by
  obtain ⟨next, after, hPush, hHandles⟩ := handlesPush_iff nearLastNumber
    (List.pairwise_singleton _ _) (by decide) [7]
    { cmd := Commands.push, sn := 0xffffff01, len := 1 } {} (by decide)
  refine ⟨next, after, hPush,
    hHandles.mpr (.inl ⟨by decide, .inl ⟨by decide, by decide, fun _ => ?_⟩⟩)⟩
  intro seg hSeg
  rw [List.mem_singleton.mp hSeg]
  decide

/-- A receiver that waits for the last number. -/
def awaitingLastNumber : ImKcpp .least :=
  { create .least 0 with receiver := { queueLimit := 128, rcvNxt := 0xffffffff } }

/-- The very segment that the receiver waits for is dropped. -/
theorem handlesPush_last_number :
    ¬∀ (mtu : Mtu) (s : ImKcpp mtu), s.receiver.Ordered →
      s.congestionController.rcvWnd.toNat < 2 ^ 31 →
      ∀ (data : List UInt8) (header : SegmentHeader) (ctx : InputContext),
        ctx.offset + header.len.toNat ≤ data.length →
        ∃ next after, inputPush data header s ctx = .ok (next, after) ∧
          s.HandlesPush next ⟨header, (data.drop ctx.offset).take header.len.toNat⟩ := by
  intro hAll
  obtain ⟨next, after, hPush, hHandles⟩ := hAll .least awaitingLastNumber increasing_nil (by decide)
    [7] { cmd := Commands.push, sn := 0xffffffff, len := 1 } {} (by decide)
  have hDropped :
      inputPush [7] { cmd := Commands.push, sn := 0xffffffff, len := 1 } awaitingLastNumber {} =
        .ok (awaitingLastNumber,
          dropPush { cmd := Commands.push, sn := 0xffffffff, len := 1 } {}) :=
    rfl
  obtain ⟨rfl, -⟩ := Prod.mk.inj (Except.ok.inj (hPush.symm.trans hDropped))
  have hInside := hHandles.inside (by decide)
  exact absurd (congrArg AckController.acklist hInside.1) (by decide)

end ImKcpp

end Arrival

end Imkcpp
