import Imkcpp.Ikcp
import Imkcpp.InputFrames

/-! The decoder of the reference implementation, and datagrams on their way between the
two implementations: the headers are written anew in the other byte order. -/
namespace Imkcpp

open WordBytes

section Decode

variable (host : Host) (rest : List UInt8)

theorem sum16 (w : UInt16) : w.toUInt8.toUInt16 + (w >>> 8).toUInt8.toUInt16 <<< 8 = w := by
  have hWord := w.toNat_lt
  rw [← UInt16.toNat_inj]
  simp only [UInt16.toNat_add, UInt16.toNat_shiftLeft, UInt8.toNat_toUInt16, UInt16.toNat_toUInt8,
    UInt16.toNat_shiftRight, Nat.shiftLeft_eq, Nat.shiftRight_eq_div_pow, UInt16.reduceToNat,
    Nat.reduceMod, Nat.reducePow]
  omega

theorem sum32 (l : UInt32) :
    l.toUInt8.toUInt32 + ((l >>> 8).toUInt8.toUInt32 + ((l >>> 16).toUInt8.toUInt32 +
      (l >>> 24).toUInt8.toUInt32 <<< 8) <<< 8) <<< 8 = l := by
  have hWord := l.toNat_lt
  rw [← UInt32.toNat_inj]
  simp only [UInt32.toNat_add, UInt32.toNat_shiftLeft, UInt8.toNat_toUInt32, UInt32.toNat_toUInt8,
    UInt32.toNat_shiftRight, Nat.shiftLeft_eq, Nat.shiftRight_eq_div_pow, UInt32.reduceToNat,
    Nat.reduceMod, Nat.reducePow]
  omega

theorem ikcpDecode8u_cons (c : UInt8) : ikcpDecode8u (c :: rest) = (c, rest) := rfl

theorem ikcpDecode16u_bytes (w : UInt16) :
    ikcpDecode16u host (host.referenceOrder.bytes16 w ++ rest) = (w, rest) := by
  unfold ikcpDecode16u Host.referenceOrder Host.keepsOrder
  split_ifs
  · exact Prod.ext (sum16 w) rfl
  · rw [List.take_left' (by simp), List.drop_left' (by simp), ByteOrder.word16_bytes16]

theorem ikcpDecode32u_bytes (l : UInt32) :
    ikcpDecode32u host (host.referenceOrder.bytes32 l ++ rest) = (l, rest) := by
  unfold ikcpDecode32u Host.referenceOrder Host.keepsOrder
  split_ifs
  · exact Prod.ext (sum32 l) rfl
  · rw [List.take_left' (by simp), List.drop_left' (by simp), ByteOrder.word32_bytes32]

/-- What the reference implementation has written it reads. -/
theorem ikcpDecodeSeg_bytes (header : SegmentHeader) :
    ikcpDecodeSeg host (header.referenceBytes host ++ rest) = (header.toIkcpSeg, rest) := by
  unfold ikcpDecodeSeg SegmentHeader.referenceBytes
  simp only [List.append_assoc, List.cons_append, List.nil_append, ikcpDecode32u_bytes,
    ikcpDecode16u_bytes, ikcpDecode8u_cons]
  rfl

end Decode

/-- A datagram as the other implementation writes it: the headers are read in the one byte
order and written in the other. -/
def recode (host : Host) (data : List UInt8) : List UInt8 :=
  if _h : data.length < 24 then data
  else
    let header := SegmentHeader.ofBytes host (data.take 24)
    let body := data.drop 24
    header.referenceBytes host ++
      (body.take header.len.toNat ++ recode host (body.drop header.len.toNat))
termination_by data.length
decreasing_by simp; omega

theorem recode_of_lt {host : Host} {data : List UInt8} (h : data.length < 24) :
    recode host data = data := by
  rw [recode, dif_pos h]

theorem recode_of_le {host : Host} {data : List UInt8} (h : 24 ≤ data.length) :
    let header := SegmentHeader.ofBytes host (data.take 24)
    recode host data = header.referenceBytes host ++
      ((data.drop 24).take header.len.toNat ++
        recode host ((data.drop 24).drop header.len.toNat)) := by
  rw [recode, dif_neg (Nat.not_lt.mpr h)]

theorem SegmentHeader.referenceBytes_length (host : Host) (header : SegmentHeader) :
    (header.referenceBytes host).length = 24 := by
  simp [referenceBytes]

theorem recode_length (host : Host) (data : List UInt8) :
    (recode host data).length = data.length := by
  fun_induction recode host data with
  | case1 => rfl
  | case2 data hLong header body ih =>
      simp only [List.length_append, List.length_take, SegmentHeader.referenceBytes_length, ih,
        List.length_drop, body]
      omega

/-- A segment in the bytes of the reference implementation. -/
def Frame.referenceBytes (host : Host) (frame : Frame) : List UInt8 :=
  frame.header.referenceBytes host ++ frame.payload

def referenceWire (host : Host) (frames : List Frame) : List UInt8 :=
  frames.flatMap (Frame.referenceBytes host)

@[simp] theorem referenceWire_cons (host : Host) (frame : Frame) (frames : List Frame) :
    referenceWire host (frame :: frames) = frame.referenceBytes host ++ referenceWire host frames :=
  rfl

@[simp] theorem referenceWire_append (host : Host) (frames others : List Frame) :
    referenceWire host (frames ++ others) = referenceWire host frames ++
      referenceWire host others :=
  List.flatMap_append

theorem referenceWire_length (host : Host) (frames : List Frame) :
    (referenceWire host frames).length = (wire host frames).length := by
  induction frames with
  | nil => rfl
  | cons frame rest ih =>
      simp [ih, Frame.referenceBytes, Frame.bytes, SegmentHeader.referenceBytes_length]

/-- Both write the same datagram but for the order of the bytes. -/
theorem recode_wire (host : Host) {frames : List Frame} (h : ∀ frame ∈ frames, frame.WellFormed) :
    recode host (wire host frames) = referenceWire host frames := by
  induction frames with
  | nil =>
      rw [recode, dif_pos (by simp)]
      rfl
  | cons frame rest ih =>
      have hWhole : frame.header.len.toNat = frame.payload.length := h frame (by simp)
      rw [wire_cons, Frame.bytes, List.append_assoc, recode, dif_neg (by simp)]
      dsimp only
      rw [List.take_left' (SegmentHeader.bytes_length host _),
        List.drop_left' (SegmentHeader.bytes_length host _), SegmentHeader.ofBytes_bytes, hWhole,
        List.take_left, List.drop_left, ih fun other hOther => h other (by simp [hOther]),
        referenceWire_cons, Frame.referenceBytes, List.append_assoc]

end Imkcpp
