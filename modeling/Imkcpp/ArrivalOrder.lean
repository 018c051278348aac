import Imkcpp.ReceiverHistory
import Imkcpp.Wraparound

/-! The order in which `PUSH` segments arrive. The buffer sorts them, and moving
them to the queue early or late comes to the same, so the receiver depends on the
segments only. But the window stops taking segments when its end wraps, and
then it matters which of them came before. -/
namespace Imkcpp

open OrderedList

variable {mtu : Mtu} {host : Host}

/-- What the receiver keeps of a segment for the application. -/
def Segment.contents (seg : Segment) : UInt32 × UInt8 × List UInt8 :=
  (seg.header.sn, seg.header.frg, seg.data)

def Frame.contents (frame : Frame) : UInt32 × UInt8 × List UInt8 :=
  (frame.header.sn, frame.header.frg, frame.payload)

/-- The segment that the receiver makes of a `PUSH`. -/
def Frame.segment (frame : Frame) : Segment := { header := frame.header, data := frame.payload }

namespace Receiver

def contents (receiver : Receiver) :
    UInt32 × List (UInt32 × UInt8 × List UInt8) × List (UInt32 × UInt8 × List UInt8) :=
  (receiver.rcvNxt, receiver.rcvQueue.map Segment.contents, receiver.rcvBuf.map Segment.contents)

section Move

theorem moveLoop_contents (queueLimit : UInt32) {buf buf' queue queue' : List Segment}
    (rcvNxt : UInt32) (hBuf : buf.map Segment.contents = buf'.map Segment.contents)
    (hQueue : queue.map Segment.contents = queue'.map Segment.contents) :
    let moved := moveLoop queueLimit buf queue rcvNxt
    let moved' := moveLoop queueLimit buf' queue' rcvNxt
    moved.1.map Segment.contents = moved'.1.map Segment.contents ∧
      moved.2.1.map Segment.contents = moved'.2.1.map Segment.contents ∧
        moved.2.2 = moved'.2.2 := by
  induction buf generalizing buf' queue queue' rcvNxt with
  | nil =>
      obtain rfl := List.map_eq_nil_iff.mp hBuf.symm
      exact ⟨rfl, hQueue, rfl⟩
  | cons seg rest ih =>
      obtain ⟨seg', rest', rfl, hSeg, hRest⟩ := List.map_eq_cons_iff.mp hBuf.symm
      have hSn : seg'.header.sn = seg.header.sn := congrArg Prod.fst hSeg
      have hLength : queue'.length = queue.length := by
        simpa using (congrArg List.length hQueue).symm
      unfold moveLoop
      rw [hSn, hLength]
      split_ifs
      · exact ⟨hBuf, hQueue, rfl⟩
      · exact ih (rcvNxt + 1) hRest.symm (by simp [hQueue, hSeg])

/-- Moving segments to the queue does not look at anything else. -/
theorem move_contents {receiver other : Receiver} (hLimit : receiver.queueLimit = other.queueLimit)
    (h : receiver.contents = other.contents) :
    receiver.moveReceiveBufferToQueue.contents = other.moveReceiveBufferToQueue.contents := by
  obtain ⟨hNext, hBoth⟩ := Prod.mk.inj h
  obtain ⟨hQueue, hBuf⟩ := Prod.mk.inj hBoth
  obtain ⟨hLeft, hMoved, hLast⟩ := moveLoop_contents receiver.queueLimit receiver.rcvNxt hBuf hQueue
  simp only [contents, moveReceiveBufferToQueue, hLeft, hMoved, hLast]
  rw [hLimit, hNext]

/-- What moving segments to the queue does to the receiver. -/
structure Advanced (before after : Receiver) : Prop where
  limit_eq : after.queueLimit = before.queueLimit
  next_le : before.rcvNxt ≤ after.rcvNxt
  left : after.rcvBuf ⊆ before.rcvBuf
  moved : ∀ seg ∈ before.rcvBuf, seg ∈ after.rcvBuf ∨ seg.header.sn < after.rcvNxt
  held : ∀ sn, before.rcvNxt ≤ sn → sn < after.rcvNxt → before.Holds sn
  count : after.rcvQueue.length + before.rcvNxt.toNat = before.rcvQueue.length + after.rcvNxt.toNat
  queued_le : after.rcvNxt = before.rcvNxt ∨ after.rcvQueue.length ≤ before.queueLimit.toNat

theorem Advanced.refl (receiver : Receiver) : receiver.Advanced receiver where
  limit_eq := rfl
  next_le := UInt32.le_refl _
  left := List.Subset.refl _
  moved _ hSeg := .inl hSeg
  held _ hLow hHigh := absurd hHigh (UInt32.not_lt.mpr hLow)
  count := rfl
  queued_le := .inl rfl

end Move

end Receiver

namespace ReceiverInvariant

variable {receiver : Receiver}

theorem next_succ (h : ReceiverInvariant receiver) {seg : Segment} {rest : List Segment}
    (hBuffer : receiver.rcvBuf = seg :: rest) (hNext : seg.header.sn = receiver.rcvNxt) :
    (receiver.rcvNxt + 1).toNat = receiver.rcvNxt.toNat + 1 := by
  have hBound := h.bounded seg (by simp [hBuffer])
  rw [Segment.key, hNext] at hBound
  rw [UInt32.toNat_add, UInt32.toNat_one, Nat.mod_eq_of_lt hBound]

theorem advanced (h : ReceiverInvariant receiver) :
    receiver.Advanced receiver.moveReceiveBufferToQueue := by
  refine (Receiver.move_induct (P := fun after => ReceiverInvariant after ∧
    receiver.Advanced after) ?_ ⟨h, .refl receiver⟩).2
  rintro after seg rest hBuffer hNext hRoom ⟨hAfter, hPrior⟩
  refine ⟨hAfter.advance hBuffer hNext, ?_⟩
  have hSucc := hAfter.next_succ hBuffer hNext
  have hLow := UInt32.le_iff_toNat_le.mp hPrior.next_le
  have hMem : seg ∈ after.rcvBuf := by simp [hBuffer]
  refine ⟨hPrior.limit_eq, ?_, ?_, ?_, ?_, ?_, ?_⟩
  · rw [UInt32.le_iff_toNat_le, hSucc]
    omega
  · exact fun other hOther => hPrior.left (by simp [hBuffer, hOther])
  · intro other hOther
    have hOld : ∀ sn : UInt32, sn ≤ after.rcvNxt → sn < after.rcvNxt + 1 := by
      intro sn hLe
      rw [UInt32.lt_iff_toNat_lt, hSucc]
      exact Nat.lt_succ_of_le (UInt32.le_iff_toNat_le.mp hLe)
    rcases hPrior.moved other hOther with hKept | hGone
    · rw [hBuffer] at hKept
      rcases List.mem_cons.mp hKept with rfl | hKept
      · exact .inr (hOld _ (UInt32.le_of_eq hNext))
      · exact .inl hKept
    · exact .inr (hOld _ (UInt32.le_of_lt hGone))
  · intro sn hSn hLt
    by_cases hBefore : sn < after.rcvNxt
    · exact hPrior.held sn hSn hBefore
    · refine ⟨seg, hPrior.left hMem, UInt32.toNat_inj.mp ?_⟩
      rw [UInt32.lt_iff_toNat_lt, hSucc] at hLt
      rw [UInt32.lt_iff_toNat_lt] at hBefore
      rw [hNext]
      omega
  · have hCount := hPrior.count
    simp only [List.length_append, List.length_singleton, hSucc]
    omega
  · right
    rw [List.length_append, List.length_singleton, ← hPrior.limit_eq]
    exact hRoom

/-- How far moving gets: to the first missing number, or as far as there is room. -/
theorem le_move_iff (h : ReceiverInvariant receiver) {last : Nat}
    (hLast : receiver.rcvNxt.toNat < last) :
    last ≤ receiver.moveReceiveBufferToQueue.rcvNxt.toNat ↔
      last - receiver.rcvNxt.toNat ≤ receiver.room ∧
        ∀ sn : UInt32, receiver.rcvNxt ≤ sn → sn.toNat < last → receiver.Holds sn := by
  have hAdvanced := h.advanced
  have hSettled := receiver.move_settled
  have hAhead := h.move.ahead
  have hIncreasing := h.move.increasing
  have hCount := hAdvanced.count
  unfold Receiver.room
  generalize receiver.moveReceiveBufferToQueue = moved at *
  constructor
  · intro hReached
    refine ⟨?_, fun sn hLow hHigh => hAdvanced.held sn hLow ?_⟩
    · rcases hAdvanced.queued_le with hSame | hQueued
      · rw [hSame] at hReached
        omega
      · omega
    · rw [UInt32.lt_iff_toNat_lt]
      omega
  · rintro ⟨hRoom, hHeld⟩
    by_contra hShort
    -- The next number is there, so only a full queue can have stopped the move.
    obtain ⟨seg, hSeg, hSn⟩ := hHeld moved.rcvNxt hAdvanced.next_le (Nat.lt_of_not_le hShort)
    have hLeft : seg ∈ moved.rcvBuf := by
      refine (hAdvanced.moved seg hSeg).resolve_right ?_
      rw [hSn]
      exact UInt32.lt_irrefl _
    cases hBuffer : moved.rcvBuf with
    | nil => simp [hBuffer] at hLeft
    | cons first rest =>
        rw [hBuffer] at hIncreasing hLeft
        have hFirst : first.header.sn = moved.rcvNxt := by
          refine UInt32.le_antisymm ?_ (hAhead first (by simp [hBuffer]))
          rw [← hSn, UInt32.le_iff_toNat_le]
          exact hIncreasing.head_le seg hLeft
        have hFull := hSettled first (by simp [hBuffer]) hFirst
        have hLow := UInt32.le_iff_toNat_le.mp hAdvanced.next_le
        rw [hAdvanced.limit_eq] at hFull
        omega

/-- A segment ahead of everything that has been moved may as well be stored
before the move. -/
theorem move_insertByKey (h : ReceiverInvariant receiver) {seg : Segment}
    (hAhead : receiver.moveReceiveBufferToQueue.rcvNxt ≤ seg.header.sn) :
    { receiver.moveReceiveBufferToQueue with
      rcvBuf := insertByKey Segment.key seg receiver.moveReceiveBufferToQueue.rcvBuf
      }.moveReceiveBufferToQueue =
    { receiver with
      rcvBuf := insertByKey Segment.key seg receiver.rcvBuf }.moveReceiveBufferToQueue := by
  refine (Receiver.move_induct (P := fun after => ReceiverInvariant after ∧
    (after.rcvNxt ≤ seg.header.sn →
      { after with rcvBuf := insertByKey Segment.key seg after.rcvBuf }.moveReceiveBufferToQueue =
        { receiver with
          rcvBuf := insertByKey Segment.key seg receiver.rcvBuf }.moveReceiveBufferToQueue))
    ?_ ⟨h, fun _ => rfl⟩).2 hAhead
  rintro after first rest hBuffer hNext hRoom ⟨hAfter, hPrior⟩
  refine ⟨hAfter.advance hBuffer hNext, fun hLe => ?_⟩
  have hSucc := hAfter.next_succ hBuffer hNext
  rw [UInt32.le_iff_toNat_le, hSucc] at hLe
  have hKey : first.key < seg.key := by
    rw [Segment.key, hNext]
    exact hLe
  have hSame := hPrior (UInt32.le_iff_toNat_le.mpr (Nat.le_of_succ_le hLe))
  rw [hBuffer, insertByKey_cons_of_lt hKey] at hSame
  rw [← hSame]
  simp only [Receiver.moveReceiveBufferToQueue]
  rw [Receiver.moveLoop, if_neg (not_or.mpr ⟨not_not.mpr hNext, Nat.not_le.mpr hRoom⟩)]

end ReceiverInvariant

/-- The receiver after some segments have arrived: `gathered` is its first buffer
with those that it has stored, and if there are any, then it is as if all of them
had been there before the first move. -/
structure Receiver.Gathered (start : Receiver) (frames : List Frame) (gathered : List Segment)
    (receiver : Receiver) : Prop where
  invariant : ReceiverInvariant { start with rcvBuf := gathered }
  kept : start.rcvBuf ⊆ gathered
  source : ∀ seg ∈ gathered, seg ∈ start.rcvBuf ∨
    ¬start.Holds seg.header.sn ∧ ∃ frame ∈ frames, frame.segment = seg
  current : (gathered = start.rcvBuf ∧ receiver = start) ∨
    (∃ seg ∈ gathered, ¬start.Holds seg.header.sn) ∧
      receiver = { start with rcvBuf := gathered }.moveReceiveBufferToQueue

namespace Receiver.Gathered

variable {start receiver : Receiver} {frames : List Frame} {gathered : List Segment}

theorem refl (h : ReceiverInvariant start) : start.Gathered [] start.rcvBuf start where
  invariant := h
  kept := List.Subset.refl _
  source _ hSeg := .inl hSeg
  current := .inl ⟨rfl, rfl⟩

theorem mono (h : start.Gathered frames gathered receiver) {more : List Frame}
    (hSub : frames ⊆ more) :
    start.Gathered more gathered receiver := by
  refine { h with source := fun seg hSeg => (h.source seg hSeg).imp_right ?_ }
  rintro ⟨hNew, frame, hFrame, hSame⟩
  exact ⟨hNew, frame, hSub hFrame, hSame⟩

/-- Only the move separates the receiver from what has been gathered. -/
theorem advanced (h : start.Gathered frames gathered receiver) :
    ReceiverInvariant receiver ∧ { start with rcvBuf := gathered }.Advanced receiver := by
  rcases h.current with ⟨rfl, rfl⟩ | ⟨-, rfl⟩
  · exact ⟨h.invariant, .refl _⟩
  · exact ⟨h.invariant.move, h.invariant.advanced⟩

theorem append (h : start.Gathered frames gathered receiver) :
    receiver.rcvQueue ++ receiver.rcvBuf = start.rcvQueue ++ gathered := by
  rcases h.current with ⟨rfl, rfl⟩ | ⟨-, rfl⟩
  · rfl
  · exact move_append _

/-- A stored segment. -/
theorem store (h : start.Gathered frames gathered receiver) {frame : Frame}
    (hFrame : frame.WellFormed) (hNew : receiver.rcvNxt ≤ frame.header.sn)
    (hBound : frame.header.sn.toNat + 1 < 2 ^ 32)
    (hMissing : ∀ seg ∈ receiver.rcvBuf, seg.header.sn ≠ frame.header.sn) :
    start.Gathered (frames ++ [frame]) (insertByKey Segment.key frame.segment gathered)
      { receiver with
        rcvBuf :=
          insertByKey Segment.key frame.segment receiver.rcvBuf }.moveReceiveBufferToQueue := by
  obtain ⟨-, hAdvanced⟩ := h.advanced
  have hGathered : ∀ seg ∈ gathered, seg.header.sn ≠ frame.header.sn := by
    intro seg hSeg
    rcases hAdvanced.moved seg hSeg with hLeft | hGone
    · exact hMissing seg hLeft
    · exact UInt32.ne_of_lt (UInt32.lt_of_lt_of_le hGone hNew)
  have hStart : ¬start.Holds frame.header.sn :=
    fun ⟨seg, hSeg, hSn⟩ => hGathered seg (h.kept hSeg) hSn
  refine ⟨?_, ?_, ?_, .inr ⟨⟨frame.segment, mem_insertByKey.mpr (.inl rfl), hStart⟩, ?_⟩⟩
  · have hComplete : frame.segment.Complete := hFrame
    exact h.invariant.store hComplete (UInt32.le_trans hAdvanced.next_le hNew) hBound hGathered
  · exact fun seg hSeg => mem_insertByKey.mpr (.inr (h.kept hSeg))
  · intro seg hSeg
    rcases mem_insertByKey.mp hSeg with rfl | hSeg
    · exact .inr ⟨hStart, frame, by simp, rfl⟩
    · exact (h.mono (List.subset_append_left _ _)).source seg hSeg
  · rcases h.current with ⟨rfl, rfl⟩ | ⟨-, rfl⟩
    · rfl
    · exact h.invariant.move_insertByKey hNew

end Receiver.Gathered

namespace ImKcpp

/-- The receiver after the segments have been processed one after the other. -/
def receive (s : ImKcpp mtu) (frames : List Frame) : Receiver :=
  (frames.foldl ImKcpp.applyFrame s).receiver

/-- For the segments of a datagram this is what `input` makes of the receiver. -/
theorem input_receiver {s next : ImKcpp mtu} {data : List UInt8} {result : Except Error InputResult}
    (h : s.input host data = .ok (next, result)) :
    next.receiver = s.receive (scan host s.sharedCtx.conv data).1 := by
  obtain ⟨sndBuf, controller, other, hInput, -⟩ := input_spec host s data
  obtain ⟨rfl, -⟩ := Prod.mk.inj (Except.ok.inj (h.symm.trans hInput))
  rfl

/-- The window is open while its end does not wrap. -/
def Open (s : ImKcpp mtu) : Prop :=
  s.receiver.rcvNxt.toNat + s.congestionController.rcvWnd.toNat < 2 ^ 32

/-- While the window is open, its end counts as it should. -/
theorem storesPush_iff (s : ImKcpp mtu) (header : SegmentHeader) :
    s.storesPush header = true ↔ s.Open ∧ s.receiver.rcvNxt ≤ header.sn ∧
      header.sn.toNat < s.receiver.rcvNxt.toNat + s.congestionController.rcvWnd.toNat := by
  have hFits := s.fits_iff header.sn
  have hWindow := s.congestionController.rcvWnd.toNat_lt
  unfold storesPush Receiver.shouldReceive Open
  rw [Bool.and_eq_true, hFits, decide_eq_true_eq, ge_iff_le, UInt32.le_iff_toNat_le]
  split_ifs <;> omega

/-- A list of `PUSH` segments below the end of the window, in which a number
always stands for the same contents, also for those that are buffered. -/
structure Arrives (s : ImKcpp mtu) (frames : List Frame) : Prop where
  push : ∀ frame ∈ frames, frame.header.cmd = Commands.push
  wellFormed : ∀ frame ∈ frames, frame.WellFormed
  below : ∀ frame ∈ frames,
    frame.header.sn.toNat < s.receiver.rcvNxt.toNat + s.congestionController.rcvWnd.toNat
  same : ∀ frame ∈ frames, ∀ other ∈ frames, frame.header.sn = other.header.sn →
    frame.contents = other.contents
  buffered : ∀ frame ∈ frames, ∀ seg ∈ s.receiver.rcvBuf, seg.header.sn = frame.header.sn →
    seg.contents = frame.contents

theorem Arrives.mono {s : ImKcpp mtu} {frames others : List Frame} (h : s.Arrives frames)
    (hSub : others ⊆ frames) : s.Arrives others where
  push frame hFrame := h.push frame (hSub hFrame)
  wellFormed frame hFrame := h.wellFormed frame (hSub hFrame)
  below frame hFrame := h.below frame (hSub hFrame)
  same frame hFrame other hOther := h.same frame (hSub hFrame) other (hSub hOther)
  buffered frame hFrame := h.buffered frame (hSub hFrame)

/-- A number of the list that the receiver has yet to store. -/
def New (s : ImKcpp mtu) (frames : List Frame) (sn : UInt32) : Prop :=
  s.receiver.rcvNxt ≤ sn ∧ ¬s.receiver.Holds sn ∧ ∃ frame ∈ frames, frame.header.sn = sn

/-- The first number whose turn comes with the window closed. -/
def closing (s : ImKcpp mtu) : Nat := 2 ^ 32 - s.congestionController.rcvWnd.toNat

/-- The window may close before the whole list has been stored: the numbers that
close it are all there, the queue has room for them, and one of two new segments
is not among them. -/
def ClosesEarly (s : ImKcpp mtu) (frames : List Frame) : Prop :=
  s.closing - s.receiver.rcvNxt.toNat ≤ s.receiver.room ∧
  (∀ sn : UInt32, s.receiver.rcvNxt ≤ sn → sn.toNat < s.closing →
    s.receiver.Holds sn ∨ ∃ frame ∈ frames, frame.header.sn = sn) ∧
  ∃ late, s.New frames late ∧ s.closing ≤ late.toNat ∧ ∃ other, s.New frames other ∧ other ≠ late

theorem open_iff (s : ImKcpp mtu) : s.Open ↔ s.receiver.rcvNxt.toNat < s.closing := by
  have hWindow := s.congestionController.rcvWnd.toNat_lt
  unfold Open closing
  omega

/-- Behind a closed window nothing is stored any more. -/
theorem receive_of_closed {s : ImKcpp mtu} (h : ¬s.Open) {frames : List Frame}
    (hPush : ∀ frame ∈ frames, frame.header.cmd = Commands.push) :
    s.receive frames = s.receiver := by
  induction frames generalizing s with
  | nil => rfl
  | cons frame rest ih =>
      have hSame : (s.applyFrame frame).receiver = s.receiver := by
        rw [applyFrame_push s (hPush frame (by simp)), if_neg]
        exact fun hStores => h ((s.storesPush_iff frame.header).mp hStores).1
      have hClosed : ¬(s.applyFrame frame).Open := by
        rwa [Open, hSame, applyFrame_rcvWnd]
      exact (ih hClosed fun other hOther => hPush other (by simp [hOther])).trans hSame

theorem foldl_open_iff (s : ImKcpp mtu) (frames : List Frame) :
    (frames.foldl ImKcpp.applyFrame s).Open ↔
      (s.receive frames).rcvNxt.toNat + s.congestionController.rcvWnd.toNat < 2 ^ 32 := by
  have hWindow :=
    foldl_applyFrame_eq (fun s => s.congestionController.rcvWnd) applyFrame_rcvWnd frames s
  rw [Open, hWindow, receive]

theorem open_of_foldl {s : ImKcpp mtu} {frames : List Frame}
    (hPush : ∀ frame ∈ frames, frame.header.cmd = Commands.push)
    (h : (frames.foldl ImKcpp.applyFrame s).Open) : s.Open := by
  by_contra hClosed
  rw [foldl_open_iff, receive_of_closed hClosed hPush] at h
  exact hClosed h

end ImKcpp

namespace Receiver.Gathered

variable {start : Receiver} {frames : List Frame} {gathered : List Segment}

/-- One segment: unless the window is closed, it has been gathered. -/
theorem step {s : ImKcpp mtu} (h : start.Gathered frames gathered s.receiver) {frame : Frame}
    (hPush : frame.header.cmd = Commands.push) (hFrame : frame.WellFormed)
    (hBelow : frame.header.sn.toNat < start.rcvNxt.toNat + s.congestionController.rcvWnd.toNat) :
    ∃ next, start.Gathered (frames ++ [frame]) next (s.applyFrame frame).receiver ∧
      gathered ⊆ next ∧
      (start.rcvNxt ≤ frame.header.sn → s.Open →
        ∃ seg ∈ next, seg.header.sn = frame.header.sn) := by
  obtain ⟨hInvariant, hAdvanced⟩ := h.advanced
  have hSame := h.mono (List.subset_append_left frames [frame])
  have hLow := UInt32.le_iff_toNat_le.mp hAdvanced.next_le
  rw [ImKcpp.applyFrame_push s hPush]
  split_ifs with hStores
  · obtain ⟨hOpen, hNew, hInside⟩ := (s.storesPush_iff frame.header).mp hStores
    rcases emplaceSegment_cases hInvariant.increasing frame.header frame.payload with
      ⟨⟨seg, hSeg, hSn⟩, hKept⟩ | ⟨hMissing, hInsert⟩
    · rw [hKept]
      exact ⟨gathered, hSame, List.Subset.refl _, fun _ _ => ⟨seg, hAdvanced.left hSeg, hSn⟩⟩
    · rw [hInsert]
      refine ⟨_, h.store hFrame hNew ?_ hMissing, fun seg hSeg => mem_insertByKey.mpr (.inr hSeg),
        fun _ _ => ⟨frame.segment, mem_insertByKey.mpr (.inl rfl), rfl⟩⟩
      unfold ImKcpp.Open at hOpen
      omega
  · refine ⟨gathered, hSame, List.Subset.refl _, fun hStart hOpen => ?_⟩
    -- An open window only refuses numbers that have been moved to the queue.
    have hOld : frame.header.sn < s.receiver.rcvNxt := by
      rw [← UInt32.not_le]
      exact fun hNew => hStores ((s.storesPush_iff frame.header).mpr ⟨hOpen, hNew, by
        rw [UInt32.le_iff_toNat_le] at hNew
        change start.rcvNxt.toNat ≤ _ at hLow
        omega⟩)
    exact hAdvanced.held frame.header.sn hStart hOld

/-- Any number of segments: unless the window is closed in the end, they have all
been gathered. -/
theorem run {s : ImKcpp mtu} (h : start.Gathered frames gathered s.receiver) {more : List Frame}
    (hPush : ∀ frame ∈ more, frame.header.cmd = Commands.push)
    (hMore : ∀ frame ∈ more, frame.WellFormed) (hBelow : ∀ frame ∈ more,
      frame.header.sn.toNat < start.rcvNxt.toNat + s.congestionController.rcvWnd.toNat) :
    ∃ next, start.Gathered (frames ++ more) next (s.receive more) ∧ gathered ⊆ next ∧
      ((more.foldl ImKcpp.applyFrame s).Open → ∀ frame ∈ more, start.rcvNxt ≤ frame.header.sn →
        ∃ seg ∈ next, seg.header.sn = frame.header.sn) := by
  induction more generalizing s frames gathered with
  | nil =>
      refine ⟨gathered, ?_, List.Subset.refl _, by simp⟩
      rwa [List.append_nil]
  | cons frame rest ih =>
      rw [List.forall_mem_cons] at hPush hMore hBelow
      obtain ⟨middle, hMiddle, hFirst, hHeld⟩ := h.step hPush.1 hMore.1 hBelow.1
      obtain ⟨next, hNext, hLast, hAll⟩ := ih hMiddle hPush.2 hMore.2 (by
        rw [ImKcpp.applyFrame_rcvWnd]
        exact hBelow.2)
      rw [List.append_assoc] at hNext
      refine ⟨next, hNext, fun seg hSeg => hLast (hFirst hSeg), fun hOpen => ?_⟩
      have hPushes : ∀ other ∈ frame :: rest, other.header.cmd = Commands.push :=
        List.forall_mem_cons.mpr hPush
      have hAllOpen : s.Open := ImKcpp.open_of_foldl hPushes hOpen
      refine List.forall_mem_cons.mpr ⟨fun hStart => ?_, hAll hOpen⟩
      obtain ⟨seg, hSeg, hSn⟩ := hHeld hStart hAllOpen
      exact ⟨seg, hLast hSeg, hSn⟩

/-- Two receivers that have gathered the same contents have the same contents. -/
theorem contents_eq {frames others : List Frame} {gathered other : List Segment}
    {receiver final : Receiver} (h : start.Gathered frames gathered receiver)
    (hOther : start.Gathered others other final)
    (hMem : ∀ contents, contents ∈ gathered.map Segment.contents ↔
      contents ∈ other.map Segment.contents) :
    receiver.contents = final.contents := by
  obtain ⟨rank, hRank⟩ : ∃ rank : UInt32 × UInt8 × List UInt8 → ℕ,
      ∀ seg : Segment, rank seg.contents = seg.key :=
        ⟨fun contents => contents.1.toNat, fun _ => rfl⟩
  have hBuffers : gathered.map Segment.contents = other.map Segment.contents :=
    h.invariant.increasing.map_eq_of_mem_iff hRank hOther.invariant.increasing hMem
  -- whether a new segment has been gathered shows in the contents
  have hNew : ∀ {first second : List Segment},
      first.map Segment.contents = second.map Segment.contents → second = start.rcvBuf →
      ¬∃ seg ∈ first, ¬start.Holds seg.header.sn := by
    rintro first second hSame rfl ⟨seg, hSeg, hMissing⟩
    have hIn : seg.contents ∈ start.rcvBuf.map Segment.contents := hSame ▸ List.mem_map_of_mem hSeg
    obtain ⟨old, hOld, hEq⟩ := List.mem_map.mp hIn
    exact hMissing ⟨old, hOld, congrArg Prod.fst hEq⟩
  rcases h.current with ⟨hStart, rfl⟩ | ⟨hSome, rfl⟩
  · rcases hOther.current with ⟨-, rfl⟩ | ⟨hSome, -⟩
    · rfl
    · exact absurd hSome (hNew hBuffers.symm hStart)
  · rcases hOther.current with ⟨hStart, -⟩ | ⟨-, rfl⟩
    · exact absurd hSome (hNew hBuffers hStart)
    · refine move_contents rfl ?_
      simp only [Receiver.contents, hBuffers]

/-- Receivers with the same contents have gathered the same. -/
theorem map_contents_eq {frames others : List Frame} {gathered other : List Segment}
    {receiver final : Receiver} (h : start.Gathered frames gathered receiver)
    (hOther : start.Gathered others other final) (hSame : receiver.contents = final.contents) :
    gathered.map Segment.contents = other.map Segment.contents := by
  obtain ⟨-, hLists⟩ := Prod.mk.inj hSame
  obtain ⟨hQueue, hBuf⟩ := Prod.mk.inj hLists
  have hBoth : (start.rcvQueue ++ gathered).map Segment.contents =
      (start.rcvQueue ++ other).map Segment.contents := by
    rw [← h.append, ← hOther.append, List.map_append, List.map_append, hQueue, hBuf]
  rw [List.map_append, List.map_append] at hBoth
  exact List.append_cancel_left hBoth

end Receiver.Gathered

namespace ImKcpp

variable {s : ImKcpp mtu} {frames : List Frame}

theorem Arrives.run (h : s.Arrives frames) (hInvariant : ReceiverInvariant s.receiver) :
    ∃ gathered, s.receiver.Gathered frames gathered (s.receive frames) ∧
      ((s.receive frames).rcvNxt.toNat + s.congestionController.rcvWnd.toNat < 2 ^ 32 →
        ∀ frame ∈ frames, s.receiver.rcvNxt ≤ frame.header.sn →
          ∃ seg ∈ gathered, seg.header.sn = frame.header.sn) := by
  obtain ⟨gathered, hGathered, -, hAll⟩ :=
    (Receiver.Gathered.refl hInvariant).run h.push h.wellFormed h.below
  rw [foldl_open_iff] at hAll
  exact ⟨gathered, hGathered, hAll⟩

/-- When everything has been gathered, the contents are those of the first buffer
and of the new segments. -/
theorem Arrives.mem_contents_iff (h : s.Arrives frames) {gathered : List Segment}
    {receiver : Receiver} (hGathered : s.receiver.Gathered frames gathered receiver)
    (hAll : ∀ frame ∈ frames, s.receiver.rcvNxt ≤ frame.header.sn →
      ∃ seg ∈ gathered, seg.header.sn = frame.header.sn) (contents : UInt32 × UInt8 × List UInt8) :
    contents ∈ gathered.map Segment.contents ↔ contents ∈ s.receiver.rcvBuf.map Segment.contents ∨
      ∃ frame ∈ frames, s.receiver.rcvNxt ≤ frame.header.sn ∧ frame.contents = contents := by
  simp only [List.mem_map]
  constructor
  · rintro ⟨seg, hSeg, rfl⟩
    rcases hGathered.source seg hSeg with hOld | ⟨-, frame, hFrame, rfl⟩
    · exact .inl ⟨seg, hOld, rfl⟩
    · exact .inr ⟨frame, hFrame, hGathered.invariant.ahead _ hSeg, rfl⟩
  · rintro (⟨seg, hSeg, rfl⟩ | ⟨frame, hFrame, hNew, rfl⟩)
    · exact ⟨seg, hGathered.kept hSeg, rfl⟩
    · obtain ⟨seg, hSeg, hSn⟩ := hAll frame hFrame hNew
      refine ⟨seg, hSeg, ?_⟩
      rcases hGathered.source seg hSeg with hOld | ⟨-, other, hOther, rfl⟩
      · exact h.buffered frame hFrame seg hOld hSn
      · exact h.same other hOther frame hFrame hSn

/-- The window closes before a new segment has been stored only under the
condition `ClosesEarly`. -/
theorem gathered_of_not_closesEarly (hOpen : s.Open) (hEarly : ¬s.ClosesEarly frames)
    {gathered : List Segment} {receiver : Receiver}
    (hGathered : s.receiver.Gathered frames gathered receiver)
    (hAll : receiver.rcvNxt.toNat + s.congestionController.rcvWnd.toNat < 2 ^ 32 →
      ∀ frame ∈ frames, s.receiver.rcvNxt ≤ frame.header.sn →
        ∃ seg ∈ gathered, seg.header.sn = frame.header.sn) :
    ∀ frame ∈ frames, s.receiver.rcvNxt ≤ frame.header.sn →
      ∃ seg ∈ gathered, seg.header.sn = frame.header.sn := by
  intro frame hFrame hNew
  by_contra hMissing
  have hClosed : s.closing ≤ receiver.rcvNxt.toNat := by
    by_contra hLow
    refine hMissing (hAll ?_ frame hFrame hNew)
    unfold closing at hLow
    omega
  have hStart := s.open_iff.mp hOpen
  rcases hGathered.current with ⟨-, rfl⟩ | ⟨⟨seg, hSeg, hOther⟩, rfl⟩
  · omega
  · obtain ⟨hRoom, hHeld⟩ := (hGathered.invariant.le_move_iff hStart).mp hClosed
    have hUnheld : ¬s.receiver.Holds frame.header.sn :=
      fun ⟨old, hOld, hSn⟩ => hMissing ⟨old, hGathered.kept hOld, hSn⟩
    refine hEarly ⟨hRoom, ?_, frame.header.sn, ⟨hNew, hUnheld, frame, hFrame, rfl⟩, ?_,
      seg.header.sn, ?_, ?_⟩
    · intro sn hLow hHigh
      obtain ⟨old, hOld, rfl⟩ := hHeld sn hLow hHigh
      rcases hGathered.source old hOld with hOld | ⟨-, other, hMem, rfl⟩
      · exact .inl ⟨old, hOld, rfl⟩
      · exact .inr ⟨other, hMem, rfl⟩
    · by_contra hLow
      exact hMissing (hHeld frame.header.sn hNew (Nat.lt_of_not_le hLow))
    · rcases hGathered.source seg hSeg with hOld | ⟨-, other, hMem, rfl⟩
      · exact absurd ⟨seg, hOld, rfl⟩ hOther
      · exact ⟨hGathered.invariant.ahead _ hSeg, hOther, other, hMem, rfl⟩
    · rintro hSn
      exact hMissing ⟨seg, hSeg, hSn⟩

/-- If the window may close early, then all segments but a late one close it. -/
theorem closed_of_closesEarly (hInvariant : ReceiverInvariant s.receiver) (hOpen : s.Open)
    (hRoom : s.closing - s.receiver.rcvNxt.toNat ≤ s.receiver.room)
    (hHeld : ∀ sn : UInt32, s.receiver.rcvNxt ≤ sn → sn.toNat < s.closing →
      s.receiver.Holds sn ∨ ∃ frame ∈ frames, frame.header.sn = sn)
    {late other : UInt32} (hLate : s.closing ≤ late.toNat) (hOther : s.New frames other)
    (hNe : other ≠ late) {others : List Frame} (hOthers : s.Arrives others)
    (hMem : ∀ frame ∈ frames, frame.header.sn ≠ late → frame ∈ others) :
    ¬(others.foldl ImKcpp.applyFrame s).Open := by
  obtain ⟨gathered, hGathered, hAll⟩ := hOthers.run hInvariant
  rw [foldl_open_iff]
  intro hStill
  have hIn : ∀ frame ∈ frames, s.receiver.rcvNxt ≤ frame.header.sn → frame.header.sn ≠ late →
      ∃ seg ∈ gathered, seg.header.sn = frame.header.sn :=
    fun frame hFrame hLow hSn => hAll hStill frame (hMem frame hFrame hSn) hLow
  obtain ⟨hNew, hMissing, frame, hFrame, rfl⟩ := hOther
  obtain ⟨seg, hSeg, hSn⟩ := hIn frame hFrame hNew hNe
  rcases hGathered.current with ⟨rfl, -⟩ | ⟨-, hMoved⟩
  · exact hMissing ⟨seg, hSeg, hSn⟩
  · have hReached := (hGathered.invariant.le_move_iff (s.open_iff.mp hOpen)).mpr ⟨hRoom, ?_⟩
    · rw [← hMoved] at hReached
      unfold closing at hReached
      omega
    · intro sn hLow hHigh
      rcases hHeld sn hLow hHigh with ⟨old, hOld, hOldSn⟩ | ⟨held, hHeldMem, rfl⟩
      · exact ⟨old, hGathered.kept hOld, hOldSn⟩
      · refine hIn held hHeldMem hLow ?_
        rintro rfl
        omega

/-- The first segment of a list is stored if it is new. -/
theorem Arrives.stores_first {first : Frame} {rest : List Frame} (h : s.Arrives (first :: rest))
    (hInvariant : ReceiverInvariant s.receiver) (hOpen : s.Open)
    (hNew : s.receiver.rcvNxt ≤ first.header.sn) :
    ∃ gathered, s.receiver.Gathered (first :: rest) gathered (s.receive (first :: rest)) ∧
      ∃ seg ∈ gathered, seg.header.sn = first.header.sn := by
  obtain ⟨hPush, hRestPush⟩ := List.forall_mem_cons.mp h.push
  obtain ⟨hFormed, hRestFormed⟩ := List.forall_mem_cons.mp h.wellFormed
  obtain ⟨hBelow, hRestBelow⟩ := List.forall_mem_cons.mp h.below
  obtain ⟨one, hOne, -, hStored⟩ := (Receiver.Gathered.refl hInvariant).step hPush hFormed hBelow
  obtain ⟨gathered, hGathered, hKept, -⟩ := hOne.run hRestPush hRestFormed (by
    rw [applyFrame_rcvWnd]
    exact hRestBelow)
  obtain ⟨seg, hSeg, hSn⟩ := hStored hNew hOpen
  exact ⟨gathered, hGathered, seg, hKept hSeg, hSn⟩

/-- If the window may close early, then a late segment is stored when it comes
first, and is not when it comes last. -/
theorem Arrives.order_matters (h : s.Arrives frames) (hInvariant : ReceiverInvariant s.receiver)
    (hOpen : s.Open) (hEarly : s.ClosesEarly frames) :
    ∃ first last, first.Perm frames ∧ last.Perm frames ∧
      (s.receive first).contents ≠ (s.receive last).contents := by
  obtain ⟨hRoom, hHeld, late, ⟨hNew, hMissing, frame, hFrame, hLate⟩, hBeyond, other,
    hOther, hNe⟩ := hEarly
  obtain ⟨others, hOthers⟩ : ∃ l, l = frames.filter fun frame => !decide (frame.header.sn = late) :=
    ⟨_, rfl⟩
  obtain ⟨lates, hLates⟩ : ∃ l, l = frames.filter fun frame => decide (frame.header.sn = late) :=
    ⟨_, rfl⟩
  have hPerm : (lates ++ others).Perm frames := by
    rw [hLates, hOthers]
    exact List.filter_append_perm _ frames
  have hOthersArrive : s.Arrives others := h.mono (hOthers ▸ List.filter_sublist.subset)
  have hLatesArrive : s.Arrives lates := h.mono (hLates ▸ List.filter_sublist.subset)
  refine ⟨lates ++ others, others ++ lates, hPerm, List.perm_append_comm.trans hPerm,
    fun hSame => ?_⟩
  -- what the others leave holds nothing late, and stays as it is
  obtain ⟨before, hBefore, -⟩ := hOthersArrive.run hInvariant
  have hLast : s.receive (others ++ lates) = s.receive others := by
    have hClosed :=
      closed_of_closesEarly hInvariant hOpen hRoom hHeld hBeyond hOther hNe hOthersArrive
      fun frame hMem hSn => hOthers ▸ List.mem_filter.mpr ⟨hMem, by simpa using hSn⟩
    rw [receive, List.foldl_append]
    exact receive_of_closed hClosed hLatesArrive.push
  -- the late segment is there if it comes first
  obtain ⟨start, rest, hStart⟩ : ∃ start rest, lates = start :: rest := by
    refine List.exists_cons_of_ne_nil (List.ne_nil_of_mem (a := frame) ?_)
    rw [hLates]
    exact List.mem_filter.mpr ⟨hFrame, by simpa using hLate⟩
  have hStartLate : start.header.sn = late := by
    have hMem : start ∈ lates := by simp [hStart]
    rw [hLates] at hMem
    simpa using (List.mem_filter.mp hMem).2
  rw [hLast, hStart, List.cons_append] at hSame
  rw [hStart, List.cons_append] at hPerm
  obtain ⟨after, hAfter, seg, hSeg, hSn⟩ :=
    (h.mono hPerm.subset).stores_first hInvariant hOpen (hStartLate.symm ▸ hNew)
  have hIn : seg.contents ∈ before.map Segment.contents :=
    hAfter.map_contents_eq hBefore hSame ▸ List.mem_map_of_mem hSeg
  obtain ⟨found, hFound, hContents⟩ := List.mem_map.mp hIn
  have hFoundSn : found.header.sn = late :=
    (congrArg Prod.fst hContents).trans (hSn.trans hStartLate)
  rcases hBefore.source found hFound with hOld | ⟨-, other, hMem, rfl⟩
  · exact hMissing ⟨found, hOld, hFoundSn⟩
  · rw [hOthers] at hMem
    have hOtherSn : other.header.sn ≠ late := by simpa using (List.mem_filter.mp hMem).2
    exact hOtherSn hFoundSn

end ImKcpp

/-- Arrival order and duplicates do not matter to the receiver if and only if the
window cannot close before a new segment of the list has been stored. -/
theorem arrival_order_iff {s : ImKcpp mtu} (hInvariant : ReceiverInvariant s.receiver)
    (hOpen : s.receiver.rcvNxt.toNat + s.congestionController.rcvWnd.toNat < 2 ^ 32)
    {frames : List Frame} (h : s.Arrives frames) :
    (∀ others, (∀ frame, frame ∈ others ↔ frame ∈ frames) →
        (s.receive others).contents = (s.receive frames).contents) ↔ ¬s.ClosesEarly frames := by
  constructor
  · intro hAll hEarly
    obtain ⟨first, last, hFirst, hLast, hNe⟩ := h.order_matters hInvariant hOpen hEarly
    apply hNe
    rw [hAll first fun _ => hFirst.mem_iff, hAll last fun _ => hLast.mem_iff]
  · intro hEarly others hSame
    have hOthers : s.Arrives others := h.mono fun frame hFrame => (hSame frame).mp hFrame
    have hOtherEarly : ¬s.ClosesEarly others := by
      have hNames : ∀ sn, (∃ frame ∈ others, frame.header.sn = sn) ↔
          ∃ frame ∈ frames, frame.header.sn = sn :=
        fun sn => exists_congr fun frame => and_congr_left' (hSame frame)
      unfold ImKcpp.ClosesEarly ImKcpp.New at hEarly ⊢
      simpa only [hNames] using hEarly
    obtain ⟨gathered, hGathered, hStored⟩ := h.run hInvariant
    obtain ⟨other, hOther, hOtherStored⟩ := hOthers.run hInvariant
    refine hOther.contents_eq hGathered fun contents => ?_
    rw [h.mem_contents_iff hGathered
      (ImKcpp.gathered_of_not_closesEarly hOpen hEarly hGathered hStored),
      hOthers.mem_contents_iff hOther
        (ImKcpp.gathered_of_not_closesEarly hOpen hOtherEarly hOther hOtherStored)]
    exact or_congr_right (exists_congr fun frame => and_congr_left' (hSame frame))

theorem arrival_order_two :
    ((ImKcpp.create .least 0).receive [⟨{ cmd := Commands.push, sn := 1, len := 1 }, [8]⟩,
          ⟨{ cmd := Commands.push, len := 1 }, [7]⟩]).contents =
      ((ImKcpp.create .least 0).receive [⟨{ cmd := Commands.push, len := 1 }, [7]⟩,
          ⟨{ cmd := Commands.push, sn := 1, len := 1 }, [8]⟩]).contents := by
  have hArrives : (ImKcpp.create .least 0).Arrives [⟨{ cmd := Commands.push, len := 1 }, [7]⟩,
      ⟨{ cmd := Commands.push, sn := 1, len := 1 }, [8]⟩] := {
    push := by simp
    wellFormed := by simp [Frame.WellFormed]
    below := by decide
    same := by simp [Frame.contents]
    buffered := by simp [ImKcpp.create] }
  have hEarly : ¬(ImKcpp.create .least 0).ClosesEarly [⟨{ cmd := Commands.push, len := 1 }, [7]⟩,
      ⟨{ cmd := Commands.push, sn := 1, len := 1 }, [8]⟩] :=
    fun hEarly => absurd hEarly.1 (by decide)
  exact (arrival_order_iff (ReceiverInvariant.init _) (by decide) hArrives).mpr hEarly _
    fun frame => by simp [or_comm]

/-- A receiver whose window closes with the second segment from now. -/
def closingSoon : ImKcpp .least :=
  { ImKcpp.create .least 0 with receiver := { queueLimit := 128, rcvNxt := 0xffffff7e } }

/-- In order, the third segment finds the window closed; the other way round it is
the first to be stored. -/
theorem arrival_order_closing :
    ¬∀ (mtu : Mtu) (s : ImKcpp mtu), ReceiverInvariant s.receiver →
      s.receiver.rcvNxt.toNat + s.congestionController.rcvWnd.toNat < 2 ^ 32 →
      ∀ frames, s.Arrives frames → ∀ others, (∀ frame, frame ∈ others ↔ frame ∈ frames) →
        (s.receive others).contents = (s.receive frames).contents := by
  intro hAll
  have hArrives : closingSoon.Arrives [⟨{ cmd := Commands.push, sn := 0xffffff7e, len := 1 }, [1]⟩,
      ⟨{ cmd := Commands.push, sn := 0xffffff7f, len := 1 }, [2]⟩,
      ⟨{ cmd := Commands.push, sn := 0xffffff80, len := 1 }, [3]⟩] := {
    push := by simp
    wellFormed := by simp [Frame.WellFormed]
    below := by decide
    same := by simp [Frame.contents]
    buffered := by simp [closingSoon] }
  have hInvariant : ReceiverInvariant closingSoon.receiver := {
    buffered := by simp [closingSoon]
    queued := by simp [closingSoon]
    increasing := increasing_nil
    ahead := by simp [closingSoon]
    bounded := by simp [closingSoon] }
  have hSame := hAll .least closingSoon hInvariant (by decide) _ hArrives
    [⟨{ cmd := Commands.push, sn := 0xffffff80, len := 1 }, [3]⟩,
      ⟨{ cmd := Commands.push, sn := 0xffffff7f, len := 1 }, [2]⟩,
      ⟨{ cmd := Commands.push, sn := 0xffffff7e, len := 1 }, [1]⟩]
    fun frame => by
      simp only [List.mem_cons, List.not_mem_nil, or_false]
      tauto
  exact absurd (congrArg Prod.fst hSame) (by decide +kernel)

end Imkcpp
