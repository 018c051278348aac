import Imkcpp.Receiver

/-! The invariant of the receiving half. `rcv_buf` stays ordered and ahead of
`rcv_nxt`, and every stored segment carries as many bytes as its header says,
which is what keeps `recv` inside its buffer. -/
namespace Imkcpp

open OrderedList

/-- The payload length that the header announces is the real one. -/
def Segment.Complete (seg : Segment) : Prop := seg.header.len.toNat = seg.data.length

structure ReceiverInvariant (receiver : Receiver) : Prop where
  buffered : ∀ seg ∈ receiver.rcvBuf, seg.Complete
  queued : ∀ seg ∈ receiver.rcvQueue, seg.Complete
  increasing : Increasing Segment.key receiver.rcvBuf
  ahead : ∀ seg ∈ receiver.rcvBuf, receiver.rcvNxt ≤ seg.header.sn
  bounded : ∀ seg ∈ receiver.rcvBuf, seg.key + 1 < 2 ^ 32

namespace Receiver

/-- An induction principle for the loop that moves segments to the queue. -/
theorem moveLoop_induct {queueLimit : UInt32} {P : List Segment → List Segment → UInt32 → Prop}
    (hStep : ∀ seg rest rcvQueue rcvNxt, seg.header.sn = rcvNxt →
      rcvQueue.length < queueLimit.toNat → P (seg :: rest) rcvQueue rcvNxt →
      P rest (rcvQueue ++ [seg]) (rcvNxt + 1))
    {rcvBuf rcvQueue : List Segment} {rcvNxt : UInt32} (hStart : P rcvBuf rcvQueue rcvNxt) :
    let moved := moveLoop queueLimit rcvBuf rcvQueue rcvNxt
    P moved.1 moved.2.1 moved.2.2 := by
  induction rcvBuf generalizing rcvQueue rcvNxt with
  | nil => exact hStart
  | cons seg rest ih =>
      unfold moveLoop
      split_ifs with hStop
      · exact hStart
      · obtain ⟨hNext, hRoom⟩ := not_or.mp hStop
        exact ih (hStep seg rest rcvQueue rcvNxt (not_not.mp hNext) (Nat.lt_of_not_le hRoom) hStart)

/-- The same principle for the receiver as a whole. -/
theorem move_induct {P : Receiver → Prop}
    (hStep : ∀ (receiver : Receiver) seg rest, receiver.rcvBuf = seg :: rest →
      seg.header.sn = receiver.rcvNxt → receiver.rcvQueue.length < receiver.queueLimit.toNat →
      P receiver → P { receiver with
        rcvBuf := rest
        rcvQueue := receiver.rcvQueue ++ [seg]
        rcvNxt := receiver.rcvNxt + 1 })
    {receiver : Receiver} (hStart : P receiver) : P receiver.moveReceiveBufferToQueue :=
  moveLoop_induct
    (P := fun rcvBuf rcvQueue rcvNxt => P { receiver with rcvBuf, rcvQueue, rcvNxt })
    (fun seg rest rcvQueue rcvNxt hNext hRoom hPrior =>
      hStep { receiver with rcvBuf := seg :: rest, rcvQueue, rcvNxt }
        seg rest rfl hNext hRoom hPrior)
    hStart

/-- Nothing more can be moved: the next number is missing, or the queue is full. -/
def Settled (receiver : Receiver) : Prop :=
  ∀ seg, receiver.rcvBuf.head? = some seg → seg.header.sn = receiver.rcvNxt →
    receiver.queueLimit.toNat ≤ receiver.rcvQueue.length

theorem moveLoop_settled (queueLimit : UInt32) (rcvBuf rcvQueue : List Segment) (rcvNxt : UInt32) :
    let moved := moveLoop queueLimit rcvBuf rcvQueue rcvNxt
    ∀ seg, moved.1.head? = some seg → seg.header.sn = moved.2.2 →
      queueLimit.toNat ≤ moved.2.1.length := by
  induction rcvBuf generalizing rcvQueue rcvNxt with
  | nil => simp [moveLoop]
  | cons head rest ih =>
      unfold moveLoop
      split_ifs with hStop
      · intro moved seg hHead hNext
        obtain rfl : head = seg := by simpa [moved] using hHead
        exact hStop.resolve_left (not_not.mpr hNext)
      · exact ih (rcvQueue ++ [head]) (rcvNxt + 1)

theorem move_settled (receiver : Receiver) : receiver.moveReceiveBufferToQueue.Settled :=
  moveLoop_settled receiver.queueLimit receiver.rcvBuf receiver.rcvQueue receiver.rcvNxt

/-- Moving segments to the queue keeps queue and buffer together as they are. -/
theorem move_append (receiver : Receiver) :
    receiver.moveReceiveBufferToQueue.rcvQueue ++ receiver.moveReceiveBufferToQueue.rcvBuf =
      receiver.rcvQueue ++ receiver.rcvBuf := by
  refine move_induct (P := fun r => r.rcvQueue ++ r.rcvBuf = receiver.rcvQueue ++
    receiver.rcvBuf) ?_ rfl
  intro r seg rest hBuffer _ _ hPrior
  rw [← hPrior, hBuffer, List.append_assoc, List.singleton_append]

/-- What is in the queue stays at its front. -/
theorem rcvQueue_prefix_move (receiver : Receiver) :
    receiver.rcvQueue <+: receiver.moveReceiveBufferToQueue.rcvQueue := by
  refine move_induct (P := fun r => receiver.rcvQueue <+: r.rcvQueue) ?_ List.prefix_rfl
  intro r seg rest _ _ _ hPrior
  exact hPrior.trans (List.prefix_append _ _)

/-- Moving never fills the queue beyond its limit. -/
theorem move_rcvQueue_length_le {receiver : Receiver}
    (h : receiver.rcvQueue.length ≤ receiver.queueLimit.toNat) :
    receiver.moveReceiveBufferToQueue.rcvQueue.length ≤ receiver.queueLimit.toNat := by
  refine move_induct (P := fun r => r.rcvQueue.length ≤ r.queueLimit.toNat) ?_ h
  intro receiver seg rest _ _ hRoom _
  rw [List.length_append, List.length_singleton]
  exact hRoom

/-- Where a new number belongs in an ordered buffer. -/
theorem emplaceSegment_cases {receiver : Receiver} (h : Increasing Segment.key receiver.rcvBuf)
    (header : SegmentHeader) (data : List UInt8) :
    ((∃ seg ∈ receiver.rcvBuf, seg.header.sn = header.sn) ∧
      receiver.emplaceSegment header data = receiver) ∨
    ((∀ seg ∈ receiver.rcvBuf, seg.header.sn ≠ header.sn) ∧
      receiver.emplaceSegment header data = { receiver with
        rcvBuf :=
          insertByKey Segment.key { header, data } receiver.rcvBuf }.moveReceiveBufferToQueue) := by
  have hPredicate : (fun seg : Segment => !decide (seg.header.sn < header.sn)) =
      fun seg => !decide (seg.key < header.sn.toNat) := by
    funext seg
    exact congrArg _ (decide_eq_decide.mpr UInt32.lt_iff_toNat_lt)
  unfold emplaceSegment
  rw [hPredicate, h.rtakeWhile_eq_filter, h.rdropWhile_eq_filter]
  dsimp only
  split_ifs with hSame
  · left
    obtain ⟨seg, hHead, hSn⟩ := Option.map_eq_some_iff.mp hSame
    exact ⟨⟨seg, List.mem_of_mem_filter (List.mem_of_head? hHead), hSn⟩, rfl⟩
  · right
    refine ⟨?_, rfl⟩
    intro seg hSeg hSn
    -- The first segment that is not smaller would be this one.
    have hMem : seg ∈ receiver.rcvBuf.filter (fun seg => decide (header.sn.toNat ≤ seg.key)) := by
      rw [List.mem_filter, decide_eq_true_eq]
      exact ⟨hSeg, le_of_eq (congrArg UInt32.toNat hSn.symm)⟩
    cases hBack : receiver.rcvBuf.filter (fun seg => decide (header.sn.toNat ≤ seg.key)) with
    | nil => simp [hBack] at hMem
    | cons first others =>
        have hFirst : header.sn.toNat ≤ first.key := by
          have hIn : first ∈ receiver.rcvBuf.filter
              (fun seg => decide (header.sn.toNat ≤ seg.key)) := by
            simp [hBack]
          simpa using (List.mem_filter.mp hIn).2
        have hOrdered := h.sublist (List.filter_sublist
          (p := fun seg : Segment => decide (header.sn.toNat ≤ seg.key)))
        rw [hBack] at hOrdered hMem
        have hLe : first.key ≤ seg.key := hOrdered.head_le seg hMem
        have hKey : seg.key = header.sn.toNat := congrArg UInt32.toNat hSn
        have hEq : first.header.sn = header.sn := UInt32.toNat_inj.mp (by
          show first.key = _
          omega)
        exact hSame (by simp [hBack, hEq])

end Receiver

namespace ReceiverInvariant

variable {receiver : Receiver}

theorem init (queueLimit : UInt32) : ReceiverInvariant { queueLimit } where
  buffered := by simp
  queued := by simp
  increasing := increasing_nil
  ahead := by simp
  bounded := by simp

/-- Moving the segment whose turn it is. -/
theorem advance (h : ReceiverInvariant receiver) {seg : Segment} {rest : List Segment}
    (hBuffer : receiver.rcvBuf = seg :: rest) (hNext : seg.header.sn = receiver.rcvNxt) :
    ReceiverInvariant { receiver with
      rcvBuf := rest
      rcvQueue := receiver.rcvQueue ++ [seg]
      rcvNxt := receiver.rcvNxt + 1 } := by
  obtain ⟨hBuffered, hQueued, hIncreasing, -, hBounded⟩ := h
  rw [hBuffer] at hBuffered hIncreasing hBounded
  obtain ⟨hHead, hTail⟩ := increasing_cons.mp hIncreasing
  have hSucc : (receiver.rcvNxt + 1).toNat = seg.key + 1 := by
    rw [← hNext, UInt32.toNat_add, UInt32.toNat_one]
    exact Nat.mod_eq_of_lt (hBounded seg (by simp))
  refine ⟨fun other hOther => hBuffered other (by simp [hOther]), ?_, hTail, ?_,
    fun other hOther => hBounded other (by simp [hOther])⟩
  · intro other hOther
    rcases List.mem_append.mp hOther with hOther | hOther
    · exact hQueued other hOther
    · rw [List.mem_singleton.mp hOther]
      exact hBuffered seg (by simp)
  · intro other hOther
    rw [UInt32.le_iff_toNat_le, hSucc]
    exact hHead other hOther

theorem move (h : ReceiverInvariant receiver) :
    ReceiverInvariant receiver.moveReceiveBufferToQueue :=
  Receiver.move_induct (fun _ _ _ hBuffer hNext _ hPrior => hPrior.advance hBuffer hNext) h

/-- Inserting a segment that is neither old, nor beyond the window, nor there. -/
theorem store (h : ReceiverInvariant receiver) {seg : Segment} (hComplete : seg.Complete)
    (hNew : receiver.rcvNxt ≤ seg.header.sn) (hBound : seg.key + 1 < 2 ^ 32)
    (hMissing : ∀ other ∈ receiver.rcvBuf, other.header.sn ≠ seg.header.sn) :
    ReceiverInvariant { receiver with rcvBuf := insertByKey Segment.key seg receiver.rcvBuf } := by
  refine ⟨?_, h.queued, ?_, ?_, ?_⟩
  · intro other hOther
    rcases mem_insertByKey.mp hOther with rfl | hOther
    · exact hComplete
    · exact h.buffered other hOther
  · refine h.increasing.insertByKey ?_
    exact fun other hOther hKey => hMissing other hOther (UInt32.toNat_inj.mp hKey)
  · intro other hOther
    rcases mem_insertByKey.mp hOther with rfl | hOther
    · exact hNew
    · exact h.ahead other hOther
  · intro other hOther
    rcases mem_insertByKey.mp hOther with rfl | hOther
    · exact hBound
    · exact h.bounded other hOther

theorem emplace (h : ReceiverInvariant receiver) {header : SegmentHeader} {data : List UInt8}
    (hComplete : header.len.toNat = data.length) (hNew : receiver.rcvNxt ≤ header.sn)
    (hBound : header.sn.toNat + 1 < 2 ^ 32) :
    ReceiverInvariant (receiver.emplaceSegment header data) := by
  rcases Receiver.emplaceSegment_cases h.increasing header data with
    ⟨-, hSame⟩ | ⟨hMissing, hInsert⟩
  · rwa [hSame]
  · rw [hInsert]
    have hSeg : ({ header, data } : Segment).Complete := hComplete
    exact (h.store hSeg hNew hBound hMissing).move

/-- Taking segments off the front of the queue. -/
theorem dequeue (h : ReceiverInvariant receiver) {rcvQueue : List Segment}
    (hSuffix : rcvQueue <:+ receiver.rcvQueue) : ReceiverInvariant { receiver with rcvQueue } :=
  { h with queued := fun seg hSeg => h.queued seg (hSuffix.subset hSeg) }

end ReceiverInvariant
end Imkcpp
