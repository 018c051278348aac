import Imkcpp.Segment

/-! The fixed buffer of one MTU that collects segments into datagrams. The
callback is the list of datagrams it has been given, in order. -/
namespace Imkcpp

structure Flusher (mtu : Mtu) where
  buffer : Vector UInt8 mtu.bytes := Vector.replicate mtu.bytes 0
  offset : Nat := 0

namespace Flusher

variable {mtu : Mtu}

/-- `Flusher::flush`: hand the used part of the buffer to the callback. -/
def flush (flusher : Flusher mtu) (output : List (List UInt8)) :
    Except Fault (Flusher mtu × List (List UInt8) × Nat) := do
  let size := flusher.offset
  assert .flusher (size ≤ mtu.bytes)
  let datagram ← readSpan flusher.buffer.toList 0 size
  return ({ flusher with offset := 0 }, output ++ [datagram], size)

def isEmpty (flusher : Flusher mtu) : Bool := flusher.offset == 0

/-- `Flusher::flush_if_full` -/
def flushIfFull (flusher : Flusher mtu) (output : List (List UInt8)) :
    Except Fault (Flusher mtu × List (List UInt8) × Nat) :=
  if flusher.offset > mtu.maxSegmentSize then flusher.flush output else .ok (flusher, output, 0)

/-- `Flusher::flush_if_does_not_fit` -/
def flushIfDoesNotFit (flusher : Flusher mtu) (output : List (List UInt8)) (size : Nat) :
    Except Fault (Flusher mtu × List (List UInt8) × Nat) :=
  if flusher.offset + size > mtu.maxSegmentSize then flusher.flush output
  else .ok (flusher, output, 0)

/-- `Flusher::flush_if_not_empty` -/
def flushIfNotEmpty (flusher : Flusher mtu) (output : List (List UInt8)) :
    Except Fault (Flusher mtu × List (List UInt8) × Nat) :=
  if !flusher.isEmpty then flusher.flush output else .ok (flusher, output, 0)

/-- `Flusher::emplace(header)` -/
def emplace (host : Host) (flusher : Flusher mtu) (header : SegmentHeader) :
    Except Fault (Flusher mtu) := do
  let (buffer, offset) ← header.serialize host flusher.buffer flusher.offset
  return { buffer, offset }

/-- `Flusher::emplace(header, data)` -/
def emplaceData (host : Host) (flusher : Flusher mtu) (header : SegmentHeader)
    (data : List UInt8) : Except Fault (Flusher mtu) := do
  assert .flusher (flusher.offset + data.length ≤ mtu.bytes)
  let (buffer, offset) ← header.serialize host flusher.buffer flusher.offset
  let (buffer, offset) ← SegmentData.encodeTo data buffer offset header.len.toNat
  return { buffer, offset }

/-- The bytes collected so far. -/
def content (flusher : Flusher mtu) : List UInt8 := flusher.buffer.toList.take flusher.offset

theorem content_length {flusher : Flusher mtu} (h : flusher.offset ≤ mtu.bytes) :
    flusher.content.length = flusher.offset := by
  simp [content, h]

/-- A flush never fails while the offset stays inside the buffer. -/
theorem flush_of_le {flusher : Flusher mtu} (output : List (List UInt8))
    (h : flusher.offset ≤ mtu.bytes) :
    flusher.flush output =
      .ok ({ flusher with offset := 0 }, output ++ [flusher.content], flusher.offset) := by
  simp [flush, readSpan, content, h]

/-- A header that fits is appended to the collected bytes. -/
theorem emplace_of_le (host : Host) {flusher : Flusher mtu} {header : SegmentHeader}
    (h : flusher.offset + 24 ≤ mtu.bytes) :
    ∃ next, flusher.emplace host header = .ok next ∧ next.offset = flusher.offset + 24 ∧
      next.content = flusher.content ++ header.bytes host := by
  have hFits : flusher.offset + (header.bytes host).length ≤ mtu.bytes := by simpa using h
  refine ⟨_, by simp [emplace, SegmentHeader.serialize_of_le hFits]; rfl, rfl, ?_⟩
  have hTake := overwrite_take flusher.buffer flusher.offset (header.bytes host) hFits
  rw [SegmentHeader.bytes_length] at hTake
  exact hTake

/-- A segment that fits is appended to the collected bytes. -/
theorem emplaceData_of_le (host : Host) {flusher : Flusher mtu} {header : SegmentHeader}
    {data : List UInt8} (hLen : header.len.toNat = data.length)
    (h : flusher.offset + 24 + data.length ≤ mtu.bytes) :
    ∃ next, flusher.emplaceData host header data = .ok next ∧
      next.offset = flusher.offset + 24 + data.length ∧
      next.content = flusher.content ++ (header.bytes host ++ data) := by
  have hAssert : flusher.offset + data.length ≤ mtu.bytes := by omega
  have hHeader : flusher.offset + (header.bytes host).length ≤ mtu.bytes := by simp; omega
  refine ⟨⟨overwrite (overwrite flusher.buffer flusher.offset (header.bytes host) hHeader)
    (flusher.offset + 24) data h, flusher.offset + 24 + data.length⟩, ?_, rfl, ?_⟩
  · rw [emplaceData, assert_of_true hAssert, ok_bind, SegmentHeader.serialize_of_le hHeader,
      ok_bind]
    dsimp only
    rw [hLen, SegmentData.encodeTo_of_le h, ok_bind, pure_eq_ok]
  · have hTake := overwrite_take
      (overwrite flusher.buffer flusher.offset (header.bytes host) hHeader)
      (flusher.offset + 24) data h
    have hTakeHeader := overwrite_take flusher.buffer flusher.offset (header.bytes host) hHeader
    rw [SegmentHeader.bytes_length] at hTakeHeader
    simp only [content]
    rw [hTake, hTakeHeader, List.append_assoc]

end Flusher
end Imkcpp
