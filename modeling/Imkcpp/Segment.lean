import Imkcpp.Endian
import Imkcpp.Memory

/-! Segments and their wire format. The serializers follow the source: each
field asserts its own bounds and advances the offset that the next field uses.
`SegmentHeader.bytes` and `SegmentHeader.ofBytes` say what they compute. -/
namespace Imkcpp

namespace Serializer

/-- `TraitSerializable<T>::serialize` once the value has become `bytes`. -/
def put {n : Nat} (bytes : List UInt8) (buf : Vector UInt8 n) (offset : Nat) :
    Except Fault (Vector UInt8 n × Nat) := do
  assert .serializer (offset + bytes.length ≤ n)
  let buf ← writeSpan buf offset bytes
  return (buf, offset + bytes.length)

/-- `TraitSerializable<T>::deserialize` up to the conversion of the `size` bytes. -/
def get (size : Nat) (buf : List UInt8) (offset : Nat) : Except Fault (List UInt8 × Nat) := do
  assert .serializer (offset + size ≤ buf.length)
  let bytes ← readSpan buf offset size
  return (bytes, offset + size)

theorem put_of_le {n : Nat} {bytes : List UInt8} {buf : Vector UInt8 n} {offset : Nat}
    (h : offset + bytes.length ≤ n) :
    put bytes buf offset = .ok (overwrite buf offset bytes h, offset + bytes.length) := by
  simp [put, writeSpan_of_le, h]

theorem get_of_le {size : Nat} {buf : List UInt8} {offset : Nat} (h : offset + size ≤ buf.length) :
    get size buf offset = .ok ((buf.drop offset).take size, offset + size) := by
  simp [get, readSpan_of_le, h]

/-- Two values serialized one after the other leave their bytes side by side. -/
theorem put_append {n : Nat} {first second : List UInt8} {buf : Vector UInt8 n} {offset : Nat}
    (h : offset + (first ++ second).length ≤ n) :
    (put first buf offset >>= fun result => put second result.1 result.2) =
      put (first ++ second) buf offset := by
  have hBoth := h
  rw [List.length_append] at h
  rw [put_of_le (by omega), put_of_le hBoth, ok_bind, put_of_le (by dsimp only; omega)]
  rw [overwrite_overwrite buf offset first second (by omega) (by omega) hBoth,
    List.length_append, Nat.add_assoc]

theorem put_bind_put {n : Nat} {first second : List UInt8} {buf : Vector UInt8 n} {offset : Nat}
    {γ : Type} (next : Vector UInt8 n × Nat → Except Fault γ)
    (h : offset + (first ++ second).length ≤ n) :
    (put first buf offset >>= fun result => put second result.1 result.2 >>= next) =
      put (first ++ second) buf offset >>= next := by
  rw [← put_append h, bind_assoc]

end Serializer

/-- The header of a segment. The wrapper classes `Conv`, `Cmd`, `Fragment` and
`PayloadLen` are their underlying integers. -/
structure SegmentHeader where
  conv : UInt32 := 0
  cmd : UInt8 := 0
  frg : UInt8 := 0
  wnd : UInt16 := 0
  ts : UInt32 := 0
  sn : UInt32 := 0
  una : UInt32 := 0
  len : UInt32 := 0
  deriving DecidableEq, Repr

namespace SegmentHeader

open Serializer

/-- `SegmentHeader::fixed_size` -/
def fixedSize : Nat := 4 + 1 + 1 + 2 + 4 + 4 + 4 + 4

/-- `SegmentHeader::serialize` -/
def serialize (host : Host) (header : SegmentHeader) {n : Nat} (buf : Vector UInt8 n)
    (offset : Nat) : Except Fault (Vector UInt8 n × Nat) := do
  assert .segment (fixedSize ≤ n)
  let cursor ← put (host.wire32 header.conv) buf offset
  let cursor ← put [header.cmd] cursor.1 cursor.2
  let cursor ← put [header.frg] cursor.1 cursor.2
  let cursor ← put (host.wire16 header.wnd) cursor.1 cursor.2
  let cursor ← put (host.wire32 header.ts) cursor.1 cursor.2
  let cursor ← put (host.wire32 header.sn) cursor.1 cursor.2
  let cursor ← put (host.wire32 header.una) cursor.1 cursor.2
  put (host.wire32 header.len) cursor.1 cursor.2

/-- `SegmentHeader::deserialize` -/
def deserialize (host : Host) (buf : List UInt8) (offset : Nat) :
    Except Fault (SegmentHeader × Nat) := do
  assert .segment (fixedSize ≤ buf.length)
  let (conv, offset) ← get 4 buf offset
  let (cmd, offset) ← get 1 buf offset
  let (frg, offset) ← get 1 buf offset
  let (wnd, offset) ← get 2 buf offset
  let (ts, offset) ← get 4 buf offset
  let (sn, offset) ← get 4 buf offset
  let (una, offset) ← get 4 buf offset
  let (len, offset) ← get 4 buf offset
  return ({
    conv := host.unwire32 conv
    cmd := cmd.headD 0
    frg := frg.headD 0
    wnd := host.unwire16 wnd
    ts := host.unwire32 ts
    sn := host.unwire32 sn
    una := host.unwire32 una
    len := host.unwire32 len }, offset)

/-- The 24 bytes that represent a header on the wire. -/
def bytes (host : Host) (header : SegmentHeader) : List UInt8 :=
  host.wire32 header.conv ++ [header.cmd] ++ [header.frg] ++ host.wire16 header.wnd ++
    host.wire32 header.ts ++ host.wire32 header.sn ++ host.wire32 header.una ++
    host.wire32 header.len

/-- The header that 24 bytes represent. -/
def ofBytes (host : Host) (bytes : List UInt8) : SegmentHeader where
  conv := host.unwire32 (bytes.take 4)
  cmd := ((bytes.drop 4).take 1).headD 0
  frg := ((bytes.drop 5).take 1).headD 0
  wnd := host.unwire16 ((bytes.drop 6).take 2)
  ts := host.unwire32 ((bytes.drop 8).take 4)
  sn := host.unwire32 ((bytes.drop 12).take 4)
  una := host.unwire32 ((bytes.drop 16).take 4)
  len := host.unwire32 ((bytes.drop 20).take 4)

@[simp] theorem bytes_length (host : Host) (header : SegmentHeader) :
    (header.bytes host).length = 24 := by
  simp [bytes]

/-- Serializing a header copies its 24 bytes, whenever they fit. -/
theorem serialize_of_le {host : Host} {header : SegmentHeader} {n : Nat} {buf : Vector UInt8 n}
    {offset : Nat} (h : offset + (header.bytes host).length ≤ n) :
    header.serialize host buf offset =
      .ok (overwrite buf offset (header.bytes host) h, offset + 24) := by
  have hSize : offset + 24 ≤ n := by simpa using h
  have hFixed : fixedSize ≤ n := by simp only [fixedSize]; omega
  rw [← bytes_length host header, ← put_of_le h]
  unfold serialize bytes
  rw [assert_of_true hFixed, ok_bind]
  iterate 6 rw [put_bind_put _ (by simp; omega)]
  rw [put_append (by simp; omega)]

/-- Deserializing reads the 24 bytes behind the offset, whenever they are there. -/
theorem deserialize_of_le {host : Host} {buf : List UInt8} {offset : Nat}
    (h : offset + 24 ≤ buf.length) :
    deserialize host buf offset = .ok (ofBytes host ((buf.drop offset).take 24), offset + 24) := by
  have hFixed : fixedSize ≤ buf.length := by simp only [fixedSize]; omega
  have hGet (skip size : Nat) (hle : skip + size ≤ 24) :
      get size buf (offset + skip) =
        .ok ((((buf.drop offset).take 24).drop skip).take size, offset + (skip + size)) := by
    rw [get_of_le (by omega), List.drop_take, List.take_take, List.drop_drop,
      Nat.min_eq_left (by omega), Nat.add_assoc]
  unfold deserialize ofBytes
  rw [assert_of_true hFixed, ok_bind]
  rw [show get 4 buf offset = _ from hGet 0 4 (by omega), ok_bind]
  dsimp only
  rw [hGet 4 1 (by omega), ok_bind]
  dsimp only
  rw [hGet 5 1 (by omega), ok_bind]
  dsimp only
  rw [hGet 6 2 (by omega), ok_bind]
  dsimp only
  rw [hGet 8 4 (by omega), ok_bind]
  dsimp only
  rw [hGet 12 4 (by omega), ok_bind]
  dsimp only
  rw [hGet 16 4 (by omega), ok_bind]
  dsimp only
  rw [hGet 20 4 (by omega), ok_bind]
  rfl

private theorem length_eq_four {bytes : List UInt8} (h : bytes.length = 4) :
    ∃ a b c d, bytes = [a, b, c, d] := by
  match bytes, h with
  | [a, b, c, d], _ => exact ⟨a, b, c, d, rfl⟩

private theorem length_eq_two {bytes : List UInt8} (h : bytes.length = 2) :
    ∃ a b, bytes = [a, b] := by
  match bytes, h with
  | [a, b], _ => exact ⟨a, b, rfl⟩

/-- Bytes written on one host and read on another, field by field. -/
theorem ofBytes_bytes_eq (sender receiver : Host) (header : SegmentHeader) :
    ofBytes receiver (header.bytes sender) = {
      conv := receiver.unwire32 (sender.wire32 header.conv)
      cmd := header.cmd
      frg := header.frg
      wnd := receiver.unwire16 (sender.wire16 header.wnd)
      ts := receiver.unwire32 (sender.wire32 header.ts)
      sn := receiver.unwire32 (sender.wire32 header.sn)
      una := receiver.unwire32 (sender.wire32 header.una)
      len := receiver.unwire32 (sender.wire32 header.len) } := by
  obtain ⟨_, _, _, _, hConv⟩ := length_eq_four (sender.wire32_length header.conv)
  obtain ⟨_, _, hWnd⟩ := length_eq_two (sender.wire16_length header.wnd)
  obtain ⟨_, _, _, _, hTs⟩ := length_eq_four (sender.wire32_length header.ts)
  obtain ⟨_, _, _, _, hSn⟩ := length_eq_four (sender.wire32_length header.sn)
  obtain ⟨_, _, _, _, hUna⟩ := length_eq_four (sender.wire32_length header.una)
  obtain ⟨_, _, _, _, hLen⟩ := length_eq_four (sender.wire32_length header.len)
  rw [bytes, hConv, hWnd, hTs, hSn, hUna, hLen]
  simp only [ofBytes, List.cons_append, List.nil_append, List.take_succ_cons, List.take_zero,
    List.drop_succ_cons, List.drop_zero, List.headD_cons]

/-- Every header survives the trip through its bytes. -/
@[simp] theorem ofBytes_bytes (host : Host) (header : SegmentHeader) :
    ofBytes host (header.bytes host) = header := by
  simp [ofBytes_bytes_eq]

/-- Every 24 bytes are the bytes of the header that they represent. -/
theorem bytes_ofBytes (host : Host) {bytes : List UInt8} (h : bytes.length = 24) :
    (ofBytes host bytes).bytes host = bytes := by
  have hLength (skip size : Nat) (hle : skip + size ≤ 24) : ((bytes.drop skip).take size).length =
      size := by
    rw [List.length_take, List.length_drop]
    omega
  have hByte (skip : Nat) (hle : skip + 1 ≤ 24) :
      [((bytes.drop skip).take 1).headD 0] = (bytes.drop skip).take 1 := by
    obtain ⟨byte, hOne⟩ := List.length_eq_one_iff.mp (hLength skip 1 hle)
    rw [hOne]
    rfl
  have hJoin (skip size next : Nat) (hNext : skip + size = next) :
      bytes.take skip ++ (bytes.drop skip).take size = bytes.take next := by
    rw [← List.take_add, hNext]
  have hFirst : (bytes.take 4).length = 4 := hLength 0 4 (by omega)
  unfold SegmentHeader.bytes ofBytes
  dsimp only
  rw [hByte 4 (by omega), hByte 5 (by omega), host.wire32_unwire32 hFirst,
    host.wire16_unwire16 (hLength 6 2 (by omega)), host.wire32_unwire32 (hLength 8 4 (by omega)),
    host.wire32_unwire32 (hLength 12 4 (by omega)), host.wire32_unwire32 (hLength 16 4 (by omega)),
    host.wire32_unwire32 (hLength 20 4 (by omega))]
  rw [hJoin 4 1 5 rfl, hJoin 5 1 6 rfl, hJoin 6 2 8 rfl, hJoin 8 4 12 rfl, hJoin 12 4 16 rfl,
    hJoin 16 4 20 rfl, hJoin 20 4 24 rfl, List.take_of_length_le (Nat.le_of_eq h)]

end SegmentHeader

/-- Retransmission state of a segment in the sender buffer. -/
structure SegmentMetadata where
  resendts : UInt32 := 0
  rto : UInt32 := 0
  fastack : UInt32 := 0
  xmit : UInt32 := 0
  deriving DecidableEq, Repr

namespace SegmentData

/-- `SegmentData::encode_to` copies the first `length` bytes of the payload. -/
def encodeTo (data : List UInt8) {n : Nat} (buf : Vector UInt8 n) (offset length : Nat) :
    Except Fault (Vector UInt8 n × Nat) := do
  assert .segment (data.length ≤ n)
  let bytes ← readSpan data 0 length
  let buf ← writeSpan buf offset bytes
  return (buf, offset + length)

/-- `SegmentData::decode_from` -/
def decodeFrom (buf : List UInt8) (offset length : Nat) : Except Fault (List UInt8 × Nat) := do
  assert .segment (offset + length ≤ buf.length)
  let data ← readSpan buf offset length
  return (data, offset + length)

/-- Encoding a whole payload copies it, whenever it fits. -/
theorem encodeTo_of_le {data : List UInt8} {n : Nat} {buf : Vector UInt8 n} {offset : Nat}
    (h : offset + data.length ≤ n) :
    encodeTo data buf offset data.length =
      .ok (overwrite buf offset data h, offset + data.length) := by
  have hSize : data.length ≤ n := by omega
  simp [encodeTo, readSpan, writeSpan_of_le, hSize, h]

theorem decodeFrom_of_le {buf : List UInt8} {offset length : Nat}
    (h : offset + length ≤ buf.length) :
    decodeFrom buf offset length = .ok ((buf.drop offset).take length, offset + length) := by
  simp [decodeFrom, readSpan_of_le, h]

end SegmentData

/-- A segment as the queues and buffers hold it. -/
structure Segment where
  header : SegmentHeader := {}
  data : List UInt8 := []
  metadata : SegmentMetadata := {}
  deriving DecidableEq, Repr

namespace Segment

/-- `Segment::data_size` reads the header, not the payload. -/
def dataSize (seg : Segment) : Nat := seg.header.len.toNat

/-- `Segment::data_assign` -/
def dataAssign (seg : Segment) (buf : List UInt8) : Segment :=
  { seg with data := buf, header := { seg.header with len := UInt32.ofNat buf.length } }

end Segment
end Imkcpp
