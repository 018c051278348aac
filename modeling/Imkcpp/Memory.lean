import Imkcpp.Types

/-! Spans of bytes. A constant span is a list; a mutable span keeps its length
in its type, and every access through `memcpy` is checked against that length. -/
namespace Imkcpp

/-- Bytes `offset` to `offset + length` of a constant span. -/
def readSpan (span : List UInt8) (offset length : Nat) : Except Fault (List UInt8) :=
  if offset + length ≤ span.length then .ok ((span.drop offset).take length) else .error .outOfSpan

/-- The span after `bytes` have been copied to `offset`. -/
def overwrite {n : Nat} (span : Vector UInt8 n) (offset : Nat) (bytes : List UInt8)
    (fits : offset + bytes.length ≤ n) : Vector UInt8 n :=
  ⟨(span.toList.take offset ++ bytes ++ span.toList.drop (offset + bytes.length)).toArray, by
    simp
    omega⟩

/-- Copy `bytes` into a mutable span. -/
def writeSpan {n : Nat} (span : Vector UInt8 n) (offset : Nat) (bytes : List UInt8) :
    Except Fault (Vector UInt8 n) :=
  if fits : offset + bytes.length ≤ n then .ok (overwrite span offset bytes fits)
  else .error .outOfSpan

theorem readSpan_of_le {span : List UInt8} {offset length : Nat}
    (h : offset + length ≤ span.length) :
    readSpan span offset length = .ok ((span.drop offset).take length) := if_pos h

theorem writeSpan_of_le {n : Nat} {span : Vector UInt8 n} {offset : Nat} {bytes : List UInt8}
    (h : offset + bytes.length ≤ n) :
    writeSpan span offset bytes = .ok (overwrite span offset bytes h) := dif_pos h

@[simp] theorem overwrite_toList {n : Nat} (span : Vector UInt8 n) (offset : Nat)
    (bytes : List UInt8) (fits : offset + bytes.length ≤ n) :
    (overwrite span offset bytes fits).toList =
      span.toList.take offset ++ bytes ++ span.toList.drop (offset + bytes.length) := rfl

/-- Everything below the end of a copy is the old contents followed by the copy. -/
theorem overwrite_take {n : Nat} (span : Vector UInt8 n) (offset : Nat)
    (bytes : List UInt8) (fits : offset + bytes.length ≤ n) :
    (overwrite span offset bytes fits).toList.take (offset + bytes.length) =
      span.toList.take offset ++ bytes := by
  have hLength : (span.toList.take offset ++ bytes).length = offset + bytes.length := by
    simp
    omega
  rw [overwrite_toList, ← hLength, List.take_left]

/-- Everything before a copy is as before. -/
theorem overwrite_before {n : Nat} (span : Vector UInt8 n) (offset : Nat) (bytes : List UInt8)
    (fits : offset + bytes.length ≤ n) :
    (overwrite span offset bytes fits).toList.take offset = span.toList.take offset := by
  have hLength : (span.toList.take offset).length = offset := by
    simp
    omega
  calc (overwrite span offset bytes fits).toList.take offset
      = ((overwrite span offset bytes fits).toList.take (offset + bytes.length)).take offset := by
        rw [List.take_take, Nat.min_eq_left (Nat.le_add_right _ _)]
    _ = span.toList.take offset := by rw [overwrite_take, List.take_left' hLength]

/-- Everything behind the end of a copy is as before. -/
theorem overwrite_drop {n : Nat} (span : Vector UInt8 n) (offset : Nat) (bytes : List UInt8)
    (fits : offset + bytes.length ≤ n) {start : Nat} (hStart : offset + bytes.length ≤ start) :
    (overwrite span offset bytes fits).toList.drop start = span.toList.drop start := by
  obtain ⟨more, rfl⟩ := Nat.exists_eq_add_of_le hStart
  have hLength : (span.toList.take offset ++ bytes).length = offset + bytes.length := by
    simp
    omega
  rw [overwrite_toList, ← hLength, List.drop_length_add_append, List.drop_drop, hLength]

/-- A copy can be read back. -/
theorem overwrite_read {n : Nat} (span : Vector UInt8 n) (offset : Nat) (bytes : List UInt8)
    (fits : offset + bytes.length ≤ n) :
    ((overwrite span offset bytes fits).toList.drop offset).take bytes.length = bytes := by
  have hLength : (span.toList.take offset).length = offset := by
    simp
    omega
  rw [List.take_drop, overwrite_take, List.drop_left' hLength]

/-- A span does not change when its own bytes are copied to their place. -/
theorem overwrite_self {n : Nat} (span : Vector UInt8 n) (offset length : Nat)
    (fits : offset + ((span.toList.drop offset).take length).length ≤ n) (h : offset + length ≤ n) :
    overwrite span offset ((span.toList.drop offset).take length) fits = span := by
  have hLength : ((span.toList.drop offset).take length).length = length := by
    simp
    omega
  apply Vector.toList_inj.mp
  rw [overwrite_toList, hLength, ← List.take_add, List.take_append_drop]

/-- What has been copied can be told from the span. -/
theorem overwrite_inj {n : Nat} {span : Vector UInt8 n} {offset : Nat} {bytes others : List UInt8}
    (fits : offset + bytes.length ≤ n) (others_fit : offset + others.length ≤ n)
    (h : bytes.length = others.length) :
    overwrite span offset bytes fits = overwrite span offset others others_fit ↔
      bytes = others := by
  constructor
  · intro hSame
    have hLists := congrArg (fun span => span.toList.take (offset + bytes.length)) hSame
    rw [overwrite_take, h, overwrite_take] at hLists
    exact List.append_cancel_left hLists
  · rintro rfl
    rfl

/-- Two adjacent copies are one copy. -/
theorem overwrite_overwrite {n : Nat} (span : Vector UInt8 n) (offset : Nat)
    (first second : List UInt8) (hFirst : offset + first.length ≤ n)
    (hSecond : offset + first.length + second.length ≤ n)
    (hBoth : offset + (first ++ second).length ≤ n) :
    overwrite (overwrite span offset first hFirst) (offset + first.length) second hSecond =
      overwrite span offset (first ++ second) hBoth := by
  apply Vector.toList_inj.mp
  rw [overwrite_toList, overwrite_take,
    overwrite_drop span offset first hFirst (Nat.le_add_right _ _), overwrite_toList]
  simp [Nat.add_assoc]

end Imkcpp
