import Imkcpp.Segment

/-! Segments on the wire. A frame is a header with the payload that follows it;
a datagram is a concatenation of frames, and it determines them. -/
namespace Imkcpp

structure Frame where
  header : SegmentHeader
  payload : List UInt8 := []
  deriving DecidableEq, Repr

namespace Frame

/-- The serialised form of a segment. -/
def bytes (host : Host) (frame : Frame) : List UInt8 := frame.header.bytes host ++ frame.payload

/-- The length field says how many payload bytes follow. -/
def WellFormed (frame : Frame) : Prop := frame.header.len.toNat = frame.payload.length

instance (frame : Frame) : Decidable frame.WellFormed :=
  inferInstanceAs (Decidable (_ = _))

@[simp] theorem bytes_length (host : Host) (frame : Frame) :
    (frame.bytes host).length = 24 + frame.payload.length := by
  simp [bytes]

end Frame

/-- A datagram made of the given segments. -/
def wire (host : Host) (frames : List Frame) : List UInt8 := frames.flatMap (Frame.bytes host)

@[simp] theorem wire_nil (host : Host) : wire host [] = [] := rfl

@[simp] theorem wire_cons (host : Host) (frame : Frame) (frames : List Frame) :
    wire host (frame :: frames) = frame.bytes host ++ wire host frames := by
  simp [wire]

@[simp] theorem wire_append (host : Host) (first second : List Frame) :
    wire host (first ++ second) = wire host first ++ wire host second := by
  simp [wire]

/-- A datagram of whole segments is at least one header long. -/
theorem le_wire_length (host : Host) {frames : List Frame} (h : frames ≠ []) :
    24 ≤ (wire host frames).length := by
  cases frames with
  | nil => exact absurd rfl h
  | cons frame frames => simp; omega

/-- The segments of a datagram, each with as many payload bytes as its length
field says. Whatever is left over at the end is not a segment. -/
def framesOf (host : Host) (datagram : List UInt8) : List Frame :=
  if _h : datagram.length < 24 then []
  else
    let header := SegmentHeader.ofBytes host (datagram.take 24)
    ⟨header, (datagram.drop 24).take header.len.toNat⟩ ::
      framesOf host ((datagram.drop 24).drop header.len.toNat)
termination_by datagram.length
decreasing_by simp; omega

/-- How many of the segments carry a command. -/
def commandCount (cmd : UInt8) (frames : List Frame) : Nat :=
  frames.countP fun frame => frame.header.cmd = cmd

@[simp] theorem commandCount_append (cmd : UInt8) (first second : List Frame) :
    commandCount cmd (first ++ second) = commandCount cmd first + commandCount cmd second :=
  List.countP_append

/-- Segments that share a command count for this one only. -/
theorem commandCount_of_forall {cmd : UInt8} {frames : List Frame}
    (h : ∀ frame ∈ frames, frame.header.cmd = cmd) (other : UInt8) :
    commandCount other frames = if other = cmd then frames.length else 0 := by
  split_ifs with hSame
  · refine List.countP_eq_length.mpr fun frame hFrame => ?_
    rw [decide_eq_true_eq, hSame]
    exact h frame hFrame
  · refine List.countP_eq_zero.mpr fun frame hFrame => ?_
    rw [decide_eq_true_eq, h frame hFrame]
    exact fun hEq => hSame hEq.symm

/-- The first header behind which other bytes follow. -/
theorem ofBytes_take_append (host : Host) (header : SegmentHeader) (tail : List UInt8) :
    SegmentHeader.ofBytes host ((header.bytes host ++ tail).take 24) = header := by
  rw [← SegmentHeader.bytes_length host header, List.take_left, SegmentHeader.ofBytes_bytes]

theorem drop_header_append (host : Host) (header : SegmentHeader) (tail : List UInt8) :
    (header.bytes host ++ tail).drop 24 = tail := by
  rw [← SegmentHeader.bytes_length host header, List.drop_left]

/-- A concatenation of well-formed segments has exactly these segments. -/
theorem framesOf_wire (host : Host) (frames : List Frame) (h : ∀ frame ∈ frames, frame.WellFormed) :
    framesOf host (wire host frames) = frames := by
  induction frames with
  | nil => simp [framesOf]
  | cons frame frames ih =>
      have hFrame : frame.header.len.toNat = frame.payload.length := h frame (by simp)
      have hTail := ih (fun other hOther => h other (by simp [hOther]))
      rw [wire_cons, Frame.bytes, List.append_assoc, framesOf, dif_neg (by simp)]
      dsimp only
      rw [ofBytes_take_append, drop_header_append, hFrame, List.take_left, List.drop_left, hTail]

end Imkcpp
