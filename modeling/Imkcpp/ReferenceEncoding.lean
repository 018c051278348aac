import Imkcpp.WireFormat

/-! The encoder of the reference implementation. It stores words in little-endian order
on all hosts that it knows, by `memcpy` where the host does so by itself; `htonl` swaps
on exactly these hosts. -/
namespace Imkcpp

open WordBytes

/-- The fields of `IKCPSEG` that are encoded. All of them are `IUINT32`. -/
structure IkcpSeg where
  conv : UInt32 := 0
  cmd : UInt32 := 0
  frg : UInt32 := 0
  wnd : UInt32 := 0
  ts : UInt32 := 0
  sn : UInt32 := 0
  una : UInt32 := 0
  len : UInt32 := 0
  deriving DecidableEq, Repr

section Encode

/-! The encoders take what has been written so far and append to it, as the source
advances its pointer. The macros of `ikcp.h` are those of `endian.hpp`. -/

variable (host : Host) (p : List UInt8)

/-- `ikcp_encode8u` -/
def ikcpEncode8u (c : UInt8) : List UInt8 := p ++ [c]

/-- `ikcp_encode16u` -/
def ikcpEncode16u (w : UInt16) : List UInt8 :=
  if host.iwordsBigEndian || host.iwordsMustAlign then p ++ [(w &&& 255).toUInt8, (w >>> 8).toUInt8]
  else p ++ host.byteOrder.bytes16 w

/-- `ikcp_encode32u` -/
def ikcpEncode32u (l : UInt32) : List UInt8 :=
  if host.iwordsBigEndian || host.iwordsMustAlign then
    p ++ [(l >>> 0 &&& 0xff).toUInt8, (l >>> 8 &&& 0xff).toUInt8, (l >>> 16 &&& 0xff).toUInt8,
      (l >>> 24 &&& 0xff).toUInt8]
  else p ++ host.byteOrder.bytes32 l

/-- `ikcp_encode_seg` -/
def ikcpEncodeSeg (seg : IkcpSeg) : List UInt8 :=
  let ptr := ikcpEncode32u host p seg.conv
  let ptr := ikcpEncode8u ptr seg.cmd.toUInt8
  let ptr := ikcpEncode8u ptr seg.frg.toUInt8
  let ptr := ikcpEncode16u host ptr seg.wnd.toUInt16
  let ptr := ikcpEncode32u host ptr seg.ts
  let ptr := ikcpEncode32u host ptr seg.sn
  let ptr := ikcpEncode32u host ptr seg.una
  ikcpEncode32u host ptr seg.len

end Encode

/-- The segment of the reference implementation with the same field values. -/
def SegmentHeader.toIkcpSeg (header : SegmentHeader) : IkcpSeg where
  conv := header.conv
  cmd := header.cmd.toUInt32
  frg := header.frg.toUInt32
  wnd := header.wnd.toUInt32
  ts := header.ts
  sn := header.sn
  una := header.una
  len := header.len

/-- The order in which the reference implementation puts words on the wire. -/
def Host.referenceOrder (host : Host) : ByteOrder :=
  if host.keepsOrder then .little else host.byteOrder

theorem ikcpEncode16u_eq (host : Host) (p : List UInt8) (w : UInt16) :
    ikcpEncode16u host p w = p ++ host.referenceOrder.bytes16 w := by
  unfold ikcpEncode16u Host.referenceOrder Host.keepsOrder
  split
  · have hLow : (w &&& 255).toUInt8 = w.toUInt8 := by
      rw [UInt16.toUInt8_and]
      exact UInt8.and_neg_one
    rw [hLow]
    rfl
  · rfl

theorem ikcpEncode32u_eq (host : Host) (p : List UInt8) (l : UInt32) :
    ikcpEncode32u host p l = p ++ host.referenceOrder.bytes32 l := by
  unfold ikcpEncode32u Host.referenceOrder Host.keepsOrder
  split
  · have hLow (l : UInt32) : (l &&& 0xff).toUInt8 = l.toUInt8 := by
      rw [UInt32.toUInt8_and]
      exact UInt8.and_neg_one
    rw [hLow, hLow, hLow, hLow, UInt32.shiftRight_zero]
    rfl
  · rfl

/-- The bytes of a header, as the reference implementation writes them. -/
def SegmentHeader.referenceBytes (host : Host) (header : SegmentHeader) : List UInt8 :=
  host.referenceOrder.bytes32 header.conv ++ [header.cmd] ++ [header.frg] ++
    host.referenceOrder.bytes16 header.wnd ++ host.referenceOrder.bytes32 header.ts ++
    host.referenceOrder.bytes32 header.sn ++ host.referenceOrder.bytes32 header.una ++
    host.referenceOrder.bytes32 header.len

theorem ikcpEncodeSeg_eq (host : Host) (p : List UInt8) (header : SegmentHeader) :
    ikcpEncodeSeg host p header.toIkcpSeg = p ++ header.referenceBytes host := by
  unfold ikcpEncodeSeg SegmentHeader.toIkcpSeg ikcpEncode8u SegmentHeader.referenceBytes
  simp only [ikcpEncode32u_eq, ikcpEncode16u_eq, List.append_assoc, UInt8.toUInt8_toUInt32,
    UInt16.toUInt16_toUInt32]

theorem append_eq_append_iff_of_length {a b c d : List UInt8} (h : b.length = d.length) :
    a ++ b = c ++ d ↔ a = c ∧ b = d := by
  constructor
  · exact fun hSame => List.append_inj' hSame h
  · rintro ⟨rfl, rfl⟩
    rfl

/-- Both write the same bytes exactly when both put words on the wire in the same order,
or when the words do not depend on the order. -/
theorem SegmentHeader.bytes_eq_referenceBytes_iff (host : Host) (header : SegmentHeader) :
    header.bytes host = header.referenceBytes host ↔
      host.wireOrder = host.referenceOrder ∨ header.Symmetric := by
  unfold bytes referenceBytes Symmetric
  iterate 7 rw [append_eq_append_iff_of_length (by simp)]
  simp only [Host.wire32_eq, Host.wire16_eq, ByteOrder.bytes32_eq_bytes32_iff,
    ByteOrder.bytes16_eq_bytes16_iff]
  by_cases hOrder : host.wireOrder = host.referenceOrder
  · simp [hOrder]
  · simp [hOrder, and_assoc]

/-- On a little-endian machine of the x86 family, `serialize` writes the bytes of the
reference implementation exactly for those headers whose words read the same in both
byte orders. -/
theorem reference_bytes_iff {host : Host} (hOrder : host.byteOrder = .little)
    (hBig : host.iwordsBigEndian = false) (hAlign : host.iwordsMustAlign = false)
    (header : SegmentHeader) {n : Nat} (buf : Vector UInt8 n) {offset : Nat}
    (hFits : offset + (ikcpEncodeSeg host [] header.toIkcpSeg).length ≤ n) :
    header.serialize host buf offset =
        .ok (overwrite buf offset (ikcpEncodeSeg host [] header.toIkcpSeg) hFits, offset + 24) ↔
      header.Symmetric := by
  have hKeeps : host.keepsOrder = false := by rw [Host.keepsOrder, hBig, hAlign, Bool.or_false]
  have hOrders : host.wireOrder ≠ host.referenceOrder := by
    rw [Host.wireOrder, Host.referenceOrder, hKeeps, hOrder]
    decide
  have hBytes : ikcpEncodeSeg host [] header.toIkcpSeg = header.referenceBytes host := by
    rw [ikcpEncodeSeg_eq, List.nil_append]
  have hLength : (header.bytes host).length = (ikcpEncodeSeg host [] header.toIkcpSeg).length := by
    rw [hBytes]
    simp [SegmentHeader.referenceBytes]
  have hWritten : offset + (header.bytes host).length ≤ n := hLength ▸ hFits
  rw [SegmentHeader.serialize_of_le hWritten, Except.ok.injEq, Prod.mk.injEq, and_iff_left rfl,
    overwrite_inj hWritten hFits hLength, hBytes, SegmentHeader.bytes_eq_referenceBytes_iff,
    or_iff_right hOrders]

/-- A header that reads the same in both orders. -/
theorem reference_bytes_palindrome :
    SegmentHeader.serialize Host.x8664
        { conv := 0x11222211, cmd := Commands.push, wnd := 0x8080 } (Vector.replicate 24 0) 0 =
      .ok (overwrite (Vector.replicate 24 0) 0 (ikcpEncodeSeg Host.x8664 []
        { conv := 0x11222211, cmd := 81, wnd := 0x8080 }) (by decide), 24) :=
  (reference_bytes_iff rfl (by decide) (by decide)
    { conv := 0x11222211, cmd := Commands.push, wnd := 0x8080 } (Vector.replicate 24 0)
    (by decide)).mpr (by decide)

/-- A sequence number of one is written from the other end. -/
theorem reference_bytes_one :
    ¬∀ (header : SegmentHeader) (n : Nat) (buf : Vector UInt8 n) (offset : Nat)
      (hFits : offset + (ikcpEncodeSeg Host.x8664 [] header.toIkcpSeg).length ≤ n),
      header.serialize Host.x8664 buf offset =
        .ok (overwrite buf offset (ikcpEncodeSeg Host.x8664 [] header.toIkcpSeg) hFits,
          offset + 24) := by
  intro hAll
  have hSame := hAll { sn := 1 } 24 (Vector.replicate 24 0) 0 (by decide)
  exact absurd hSame (by decide +kernel)

end Imkcpp
