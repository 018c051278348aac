import Imkcpp.Segment
import Imkcpp.Library.OrderedList

/-! The sender's unacknowledged segments: `SegmentTracker`, `SenderBuffer` and
the `AckController` that removes acknowledged segments from the buffer. -/
namespace Imkcpp

open OrderedList

structure SegmentTracker where
  sndUna : UInt32 := 0
  sndNxt : UInt32 := 0
  deriving DecidableEq

/-- `SegmentTracker::reset_snd_una` -/
def SegmentTracker.resetSndUna (tracker : SegmentTracker) : SegmentTracker :=
  { tracker with sndUna := tracker.sndNxt }

/-- `SegmentTracker::get_packets_in_flight_count` -/
def SegmentTracker.getPacketsInFlightCount (tracker : SegmentTracker) : Except Fault UInt32 := do
  assert .segmentTracker (tracker.sndNxt ≥ tracker.sndUna)
  return tracker.sndNxt - tracker.sndUna

/-- The sequence number of a segment as a plain number, the key of both buffers. -/
def Segment.key (seg : Segment) : ℕ := seg.header.sn.toNat

/-- A segment that has been skipped by an acknowledgement once more. -/
def Segment.counted (seg : Segment) : Segment :=
  { seg with metadata := { seg.metadata with fastack := seg.metadata.fastack + 1 } }

structure SenderBuffer where
  sndBuf : List Segment := []
  deriving DecidableEq

namespace SenderBuffer

/-- `SenderBuffer::push_segment` -/
def pushSegment (buffer : SenderBuffer) (segment : Segment) : SenderBuffer :=
  ⟨buffer.sndBuf ++ [segment]⟩

/-- `SenderBuffer::get_first_sequence_number_in_flight` -/
def getFirstSequenceNumberInFlight (buffer : SenderBuffer) : Option UInt32 :=
  buffer.sndBuf.head?.map (fun seg => seg.header.sn)

/-- The loop of `SenderBuffer::erase`. -/
def eraseLoop (sn : UInt32) : List Segment → List Segment
  | [] => []
  | seg :: rest =>
    if sn = seg.header.sn then rest
    else if sn < seg.header.sn then seg :: rest
    else seg :: eraseLoop sn rest

/-- `SenderBuffer::erase` -/
def erase (buffer : SenderBuffer) (sn : UInt32) : SenderBuffer := ⟨eraseLoop sn buffer.sndBuf⟩

/-- The loop of `SenderBuffer::erase_before`. -/
def eraseBeforeLoop (sn : UInt32) : List Segment → List Segment
  | [] => []
  | seg :: rest => if sn > seg.header.sn then eraseBeforeLoop sn rest else seg :: rest

/-- `SenderBuffer::erase_before` -/
def eraseBefore (buffer : SenderBuffer) (sn : UInt32) : SenderBuffer :=
  ⟨eraseBeforeLoop sn buffer.sndBuf⟩

/-- The loop of `SenderBuffer::increment_fastack_before`. -/
def incrementFastackLoop (sn : UInt32) : List Segment → List Segment
  | [] => []
  | seg :: rest =>
    if seg.header.sn < sn then
      { seg with metadata := { seg.metadata with fastack := seg.metadata.fastack + 1 } } ::
        incrementFastackLoop sn rest
    else seg :: rest

/-- `SenderBuffer::increment_fastack_before` -/
def incrementFastackBefore (buffer : SenderBuffer) (sn : UInt32) : SenderBuffer :=
  ⟨incrementFastackLoop sn buffer.sndBuf⟩

/-- The loop of `SenderBuffer::get_earliest_transmit_delta`, with `tm_packet`. -/
def earliestTransmitLoop (current : UInt32) : List Segment → UInt32 → Option UInt32
  | [], tmPacket => if tmPacket = 0xffffffff then none else some tmPacket
  | seg :: rest, tmPacket =>
    if seg.metadata.resendts ≤ current then some 0
    else earliestTransmitLoop current rest (min tmPacket (seg.metadata.resendts - current))

/-- `SenderBuffer::get_earliest_transmit_delta` -/
def getEarliestTransmitDelta (buffer : SenderBuffer) (current : UInt32) : Option UInt32 :=
  if buffer.sndBuf.isEmpty then none else earliestTransmitLoop current buffer.sndBuf 0xffffffff

/-- On an ordered buffer `erase` removes exactly the named segment. -/
theorem eraseLoop_eq_filter {l : List Segment} (h : Increasing Segment.key l) (sn : UInt32) :
    eraseLoop sn l = l.filter (fun seg => decide (seg.header.sn ≠ sn)) := by
  induction l with
  | nil => rfl
  | cons seg rest ih =>
      obtain ⟨hHead, hTail⟩ := increasing_cons.mp h
      simp only [Segment.key, ← UInt32.lt_iff_toNat_lt] at hHead
      unfold eraseLoop
      split_ifs with hEq hLt
      · have hRest : ∀ other ∈ rest, other.header.sn ≠ sn := by
          intro other hOther
          exact hEq ▸ (UInt32.ne_of_lt (hHead other hOther)).symm
        rw [List.filter_cons_of_neg (by simp [hEq]), List.filter_eq_self.mpr (by simpa using hRest)]
      · have hRest : ∀ other ∈ rest, other.header.sn ≠ sn := by
          intro other hOther
          exact (UInt32.ne_of_lt (UInt32.lt_trans hLt (hHead other hOther))).symm
        rw [List.filter_eq_self.mpr]
        simpa [Ne.symm hEq] using hRest
      · rw [List.filter_cons_of_pos (by simpa using Ne.symm hEq), ih hTail]

/-- On an ordered buffer `erase_before` removes exactly the lower numbers. -/
theorem eraseBeforeLoop_eq_filter {l : List Segment} (h : Increasing Segment.key l) (sn : UInt32) :
    eraseBeforeLoop sn l = l.filter (fun seg => decide (sn ≤ seg.header.sn)) := by
  have hLoop : eraseBeforeLoop sn l = l.dropWhile (fun seg => decide (seg.key < sn.toNat)) := by
    induction l with
    | nil => rfl
    | cons seg rest ih =>
        by_cases hLt : seg.header.sn < sn
        · have hKey : seg.key < sn.toNat := UInt32.lt_iff_toNat_lt.mp hLt
          simp [eraseBeforeLoop, hLt, hKey, ih (increasing_cons.mp h).2]
        · have hKey : ¬seg.key < sn.toNat := fun hKey => hLt (UInt32.lt_iff_toNat_lt.mpr hKey)
          simp [eraseBeforeLoop, hLt, hKey]
  rw [hLoop, h.dropWhile_eq_filter]
  exact List.filter_congr fun seg _ => decide_eq_decide.mpr UInt32.le_iff_toNat_le.symm

/-- On an ordered buffer the loop does not stop before it has counted every lower number. -/
theorem incrementFastackLoop_eq_map {l : List Segment} (h : Increasing Segment.key l)
    (sn : UInt32) :
    incrementFastackLoop sn l =
      l.map fun seg => if seg.header.sn < sn then seg.counted else seg := by
  induction l with
  | nil => rfl
  | cons seg rest ih =>
      unfold incrementFastackLoop
      split_ifs with hLt
      · rw [List.map_cons, if_pos hLt, ih (increasing_cons.mp h).2]
        rfl
      · have hRest : ∀ other ∈ seg :: rest,
            (if other.header.sn < sn then other.counted else other) = other := by
          intro other hOther
          have hLe := UInt32.le_iff_toNat_le.mpr (h.head_le other hOther)
          exact if_neg fun hOtherLt => hLt (UInt32.lt_of_le_of_lt hLe hOtherLt)
        rw [List.map_congr_left hRest, List.map_id']

/-- On an ordered buffer the loops that stop at the first segment they do not match remove,
keep and count the same segments as loops over the whole buffer. -/
theorem scans_eq_plain (buffer : SenderBuffer) (h : Increasing Segment.key buffer.sndBuf)
    (sn : UInt32) :
    (buffer.erase sn).sndBuf = buffer.sndBuf.filter (fun seg => decide (seg.header.sn ≠ sn)) ∧
      (buffer.eraseBefore sn).sndBuf = buffer.sndBuf.filter
        (fun seg => decide (sn ≤ seg.header.sn)) ∧
      (buffer.incrementFastackBefore sn).sndBuf =
        buffer.sndBuf.map fun seg => if seg.header.sn < sn then seg.counted else seg :=
  ⟨eraseLoop_eq_filter h sn, eraseBeforeLoop_eq_filter h sn, incrementFastackLoop_eq_map h sn⟩

/-- Three segments in flight. -/
theorem scans_eq_plain_three :
    ((SenderBuffer.mk ([2, 3, 4].map fun sn => { header := { sn } })).eraseBefore 3).sndBuf =
      [3, 4].map fun sn => { header := { sn } } := by
  have hOrdered : Increasing Segment.key ([2, 3, 4].map fun sn => { header := { sn } }) := by
    unfold Increasing
    decide
  exact (scans_eq_plain ⟨_⟩ hOrdered 3).2.1

/-- What does not look at the counters is not changed by fast-ack counting. -/
theorem incrementFastackLoop_map {α : Type*} {read : Segment → α}
    (h : ∀ seg fastack, read { seg with metadata := { seg.metadata with fastack } } = read seg)
    (sn : UInt32) (l : List Segment) : (incrementFastackLoop sn l).map read = l.map read := by
  induction l with
  | nil => rfl
  | cons seg rest ih =>
      unfold incrementFastackLoop
      split_ifs
      · rw [List.map_cons, List.map_cons, ih, h]
      · rfl

/-- The buffer with every segment changed. -/
def map (f : Segment → Segment) (buffer : SenderBuffer) : SenderBuffer := ⟨buffer.sndBuf.map f⟩

section Map

variable {f : Segment → Segment}

/-- Searching by number does not see what else is in the segments. -/
theorem eraseLoop_map (hSn : ∀ seg, (f seg).header.sn = seg.header.sn) (sn : UInt32)
    (l : List Segment) :
    eraseLoop sn (l.map f) = (eraseLoop sn l).map f := by
  induction l with
  | nil => rfl
  | cons seg rest ih =>
      unfold eraseLoop
      rw [List.map_cons]
      dsimp only
      rw [hSn]
      split_ifs
      · rfl
      · rfl
      · rw [ih]
        rfl

theorem eraseBeforeLoop_map (hSn : ∀ seg, (f seg).header.sn = seg.header.sn) (sn : UInt32)
    (l : List Segment) : eraseBeforeLoop sn (l.map f) = (eraseBeforeLoop sn l).map f := by
  induction l with
  | nil => rfl
  | cons seg rest ih =>
      unfold eraseBeforeLoop
      rw [List.map_cons]
      dsimp only
      rw [hSn]
      split_ifs
      · exact ih
      · rfl

theorem getFirstSequenceNumberInFlight_map (hSn : ∀ seg, (f seg).header.sn = seg.header.sn)
    (buffer : SenderBuffer) :
    (buffer.map f).getFirstSequenceNumberInFlight = buffer.getFirstSequenceNumberInFlight := by
  unfold getFirstSequenceNumberInFlight SenderBuffer.map
  rw [List.head?_map, Option.map_map]
  exact congrArg (Option.map · buffer.sndBuf.head?) (funext hSn)

end Map

end SenderBuffer

/-- `FastAckCtx`: the greatest acknowledged number of a datagram, if any. -/
structure FastAckCtx where
  maxack : UInt32 := 0xffffffff
  latestTs : UInt32 := 0xffffffff
  deriving DecidableEq

namespace FastAckCtx

def isValid (ctx : FastAckCtx) : Bool := ctx.maxack != 0xffffffff

/-- `FastAckCtx::update` -/
def update (ctx : FastAckCtx) (sn ts : UInt32) : FastAckCtx :=
  if ctx.isValid then
    if sn > ctx.maxack then { maxack := sn, latestTs := ts } else ctx
  else { maxack := sn, latestTs := ts }

end FastAckCtx

/-- An acknowledgement waiting to be sent. -/
structure Ack where
  sn : UInt32 := 0
  ts : UInt32 := 0
  deriving DecidableEq, Repr

structure AckController where
  acklist : List Ack := []
  rmtUna : UInt32 := 0
  deriving DecidableEq

namespace AckController

/-- `AckController::should_acknowledge` -/
def shouldAcknowledge (tracker : SegmentTracker) (sn : UInt32) : Bool :=
  if sn < tracker.sndUna ∨ sn ≥ tracker.sndNxt then false else true

/-- `AckController::acknowledge_fastack` -/
def acknowledgeFastack (ctx : FastAckCtx) (buffer : SenderBuffer) (tracker : SegmentTracker) :
    SenderBuffer :=
  if !ctx.isValid then buffer
  else if !shouldAcknowledge tracker ctx.maxack then buffer
  else buffer.incrementFastackBefore ctx.maxack

/-- `AckController::update_remote_una` -/
def updateRemoteUna (buffer : SenderBuffer) (tracker : SegmentTracker) : SegmentTracker :=
  match buffer.getFirstSequenceNumberInFlight with
  | some firstSn => { tracker with sndUna := firstSn }
  | none => tracker.resetSndUna

/-- `AckController::ack_received` -/
def ackReceived (sn : UInt32) (buffer : SenderBuffer) (tracker : SegmentTracker) :
    SenderBuffer × SegmentTracker :=
  if shouldAcknowledge tracker sn then
    let buffer := buffer.erase sn
    (buffer, updateRemoteUna buffer tracker)
  else (buffer, tracker)

/-- `AckController::una_received`, the part that concerns the sender. -/
def unaReceived (una : UInt32) (buffer : SenderBuffer) (tracker : SegmentTracker) :
    SenderBuffer × SegmentTracker :=
  let buffer := buffer.eraseBefore una
  (buffer, updateRemoteUna buffer tracker)

/-- `AckController::una_received`, the part that concerns the controller itself. -/
def noteRemoteUna (controller : AckController) (una : UInt32) : AckController :=
  { controller with rmtUna := max controller.rmtUna una }

/-- `AckController::schedule_ack` -/
def scheduleAck (controller : AckController) (sn ts : UInt32) : AckController :=
  { controller with acklist := controller.acklist ++ [⟨sn, ts⟩] }

/-- `AckController::clear` -/
def clear (controller : AckController) : AckController := { controller with acklist := [] }

section Map

variable {f : Segment → Segment}

theorem updateRemoteUna_map (hSn : ∀ seg, (f seg).header.sn = seg.header.sn) (buffer : SenderBuffer)
    (tracker : SegmentTracker) :
    updateRemoteUna (buffer.map f) tracker = updateRemoteUna buffer tracker := by
  unfold updateRemoteUna
  rw [SenderBuffer.getFirstSequenceNumberInFlight_map hSn]

theorem unaReceived_map (hSn : ∀ seg, (f seg).header.sn = seg.header.sn) (una : UInt32)
    (buffer : SenderBuffer) (tracker : SegmentTracker) :
    unaReceived una (buffer.map f) tracker =
      ((unaReceived una buffer tracker).1.map f, (unaReceived una buffer tracker).2) := by
  have hErase : (buffer.map f).eraseBefore una = (buffer.eraseBefore una).map f :=
    congrArg SenderBuffer.mk (SenderBuffer.eraseBeforeLoop_map hSn una buffer.sndBuf)
  unfold unaReceived
  dsimp only
  rw [hErase, updateRemoteUna_map hSn]

theorem ackReceived_map (hSn : ∀ seg, (f seg).header.sn = seg.header.sn) (sn : UInt32)
    (buffer : SenderBuffer) (tracker : SegmentTracker) :
    ackReceived sn (buffer.map f) tracker =
      ((ackReceived sn buffer tracker).1.map f, (ackReceived sn buffer tracker).2) := by
  have hErase : (buffer.map f).erase sn = (buffer.erase sn).map f :=
    congrArg SenderBuffer.mk (SenderBuffer.eraseLoop_map hSn sn buffer.sndBuf)
  unfold ackReceived
  dsimp only
  split_ifs
  · rw [hErase, updateRemoteUna_map hSn]
  · rfl

end Map

end AckController
end Imkcpp
