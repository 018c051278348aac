import Mathlib.Tactic.IntervalCases

/-! Machine words as bytes in memory, for either byte order. Swapping the bytes
of a word and then storing it is storing it in the opposite order, so a value
that is swapped on its way to memory has a definite order there. -/
namespace WordBytes

inductive ByteOrder where
  | little
  | big
  deriving DecidableEq, Repr

namespace ByteOrder

def opposite : ByteOrder → ByteOrder
  | little => big
  | big => little

@[simp] theorem opposite_opposite (order : ByteOrder) : order.opposite.opposite = order := by
  cases order <;> rfl

/-- There are only two orders. -/
theorem eq_opposite_of_ne {order other : ByteOrder} (h : order ≠ other) :
    order = other.opposite := by
  cases order with
  | little =>
      cases other with
      | little => exact absurd rfl h
      | big => rfl
  | big =>
      cases other with
      | little => rfl
      | big => exact absurd rfl h

/-- The memory image of a 16-bit word. -/
def bytes16 (order : ByteOrder) (value : UInt16) : List UInt8 :=
  match order with
  | little => [value.toUInt8, (value >>> 8).toUInt8]
  | big => [(value >>> 8).toUInt8, value.toUInt8]

/-- The memory image of a 32-bit word. -/
def bytes32 (order : ByteOrder) (value : UInt32) : List UInt8 :=
  match order with
  | little => [value.toUInt8, (value >>> 8).toUInt8, (value >>> 16).toUInt8, (value >>> 24).toUInt8]
  | big => [(value >>> 24).toUInt8, (value >>> 16).toUInt8, (value >>> 8).toUInt8, value.toUInt8]

/-- The 16-bit word with a given memory image. -/
def word16 (order : ByteOrder) : List UInt8 → UInt16
  | [a, b] =>
    match order with
    | little => a.toUInt16 ||| b.toUInt16 <<< 8
    | big => b.toUInt16 ||| a.toUInt16 <<< 8
  | _ => 0

/-- The 32-bit word with a given memory image. -/
def word32 (order : ByteOrder) : List UInt8 → UInt32
  | [a, b, c, d] =>
    match order with
    | little => a.toUInt32 ||| b.toUInt32 <<< 8 ||| c.toUInt32 <<< 16 ||| d.toUInt32 <<< 24
    | big => d.toUInt32 ||| c.toUInt32 <<< 8 ||| b.toUInt32 <<< 16 ||| a.toUInt32 <<< 24
  | _ => 0

@[simp] theorem bytes16_length (order : ByteOrder) (value : UInt16) :
    (order.bytes16 value).length = 2 := by cases order <;> rfl

@[simp] theorem bytes32_length (order : ByteOrder) (value : UInt32) :
    (order.bytes32 value).length = 4 := by cases order <;> rfl

end ByteOrder

/-- Exchange the two bytes of a word. -/
def swap16 (value : UInt16) : UInt16 := value >>> 8 ||| value <<< 8

/-- Reverse the four bytes of a word. -/
def swap32 (value : UInt32) : UInt32 :=
  (value >>> 24 &&& (0xFF : UInt32)) ||| (value <<< 8 &&& (0xFF0000 : UInt32)) |||
    (value >>> 8 &&& (0xFF00 : UInt32)) ||| (value <<< 24 &&& (0xFF000000 : UInt32))

section Bits

/-! Facts about single bytes, each checked bit by bit. -/

private theorem join16 (value : UInt16) :
    value.toUInt8.toUInt16 ||| (value >>> 8).toUInt8.toUInt16 <<< 8 = value := by
  apply UInt16.eq_of_toBitVec_eq
  apply BitVec.eq_of_getLsbD_eq
  intro i hi
  simp [-UInt16.toUInt16_toUInt8]
  interval_cases i <;> simp

private theorem join32 (value : UInt32) :
    value.toUInt8.toUInt32 ||| (value >>> 8).toUInt8.toUInt32 <<< 8 |||
      (value >>> 16).toUInt8.toUInt32 <<< 16 ||| (value >>> 24).toUInt8.toUInt32 <<< 24 =
        value := by
  apply UInt32.eq_of_toBitVec_eq
  apply BitVec.eq_of_getLsbD_eq
  intro i hi
  simp [-UInt32.toUInt32_toUInt8]
  interval_cases i <;> simp

private theorem split16 (a b : UInt8) :
    (a.toUInt16 ||| b.toUInt16 <<< 8).toUInt8 = a ∧
      ((a.toUInt16 ||| b.toUInt16 <<< 8) >>> 8).toUInt8 = b := by
  constructor <;> apply UInt8.eq_of_toBitVec_eq <;> apply BitVec.eq_of_getLsbD_eq <;> intro i hi
  all_goals
    simp
    try interval_cases i <;> simp

private theorem split32 (a b c d : UInt8) :
    let word := a.toUInt32 ||| b.toUInt32 <<< 8 ||| c.toUInt32 <<< 16 ||| d.toUInt32 <<< 24
    word.toUInt8 = a ∧ (word >>> 8).toUInt8 = b ∧
      (word >>> 16).toUInt8 = c ∧ (word >>> 24).toUInt8 = d := by
  refine ⟨?_, ?_, ?_, ?_⟩ <;> apply UInt8.eq_of_toBitVec_eq <;> apply BitVec.eq_of_getLsbD_eq <;>
    intro i hi
  all_goals
    simp
    try interval_cases i <;> simp

private theorem swap16_bytes (value : UInt16) :
    (swap16 value).toUInt8 = (value >>> 8).toUInt8 ∧
      (swap16 value >>> 8).toUInt8 = value.toUInt8 := by
  constructor <;> apply UInt8.eq_of_toBitVec_eq <;> apply BitVec.eq_of_getLsbD_eq <;> intro i hi
  all_goals
    simp [swap16]
    try interval_cases i <;> simp

private theorem swap32_bytes (value : UInt32) :
    (swap32 value).toUInt8 = (value >>> 24).toUInt8 ∧
      (swap32 value >>> 8).toUInt8 = (value >>> 16).toUInt8 ∧
      (swap32 value >>> 16).toUInt8 = (value >>> 8).toUInt8 ∧
      (swap32 value >>> 24).toUInt8 = value.toUInt8 := by
  refine ⟨?_, ?_, ?_, ?_⟩ <;> apply UInt8.eq_of_toBitVec_eq <;> apply BitVec.eq_of_getLsbD_eq <;>
    intro i hi
  all_goals
    simp [swap32]
    interval_cases i <;> simp

end Bits

namespace ByteOrder

@[simp] theorem word16_bytes16 (order : ByteOrder) (value : UInt16) :
    order.word16 (order.bytes16 value) = value := by
  cases order <;> exact join16 value

@[simp] theorem word32_bytes32 (order : ByteOrder) (value : UInt32) :
    order.word32 (order.bytes32 value) = value := by
  cases order <;> exact join32 value

theorem bytes16_word16 (order : ByteOrder) (bytes : List UInt8) (h : bytes.length = 2) :
    order.bytes16 (order.word16 bytes) = bytes := by
  match bytes, h with
  | [a, b], _ =>
    cases order
    · obtain ⟨h0, h1⟩ := split16 a b
      simp only [bytes16, word16, h0, h1]
    · obtain ⟨h0, h1⟩ := split16 b a
      simp only [bytes16, word16, h0, h1]

theorem bytes32_word32 (order : ByteOrder) (bytes : List UInt8) (h : bytes.length = 4) :
    order.bytes32 (order.word32 bytes) = bytes := by
  match bytes, h with
  | [a, b, c, d], _ =>
    cases order
    · obtain ⟨h0, h1, h2, h3⟩ := split32 a b c d
      simp only [bytes32, word32, h0, h1, h2, h3]
    · obtain ⟨h0, h1, h2, h3⟩ := split32 d c b a
      simp only [bytes32, word32, h0, h1, h2, h3]

theorem bytes16_swap16 (order : ByteOrder) (value : UInt16) :
    order.bytes16 (swap16 value) = order.opposite.bytes16 value := by
  obtain ⟨h0, h1⟩ := swap16_bytes value
  cases order <;> simp only [bytes16, opposite, h0, h1]

theorem bytes32_swap32 (order : ByteOrder) (value : UInt32) :
    order.bytes32 (swap32 value) = order.opposite.bytes32 value := by
  obtain ⟨h0, h1, h2, h3⟩ := swap32_bytes value
  cases order <;> simp only [bytes32, opposite, h0, h1, h2, h3]

/-- Words with the same memory image are equal. -/
theorem bytes16_injective (order : ByteOrder) : Function.Injective order.bytes16 :=
  Function.LeftInverse.injective order.word16_bytes16

theorem bytes32_injective (order : ByteOrder) : Function.Injective order.bytes32 :=
  Function.LeftInverse.injective order.word32_bytes32

/-- Loading and then swapping is loading in the opposite order. -/
theorem swap16_word16 (order : ByteOrder) (bytes : List UInt8) (h : bytes.length = 2) :
    swap16 (order.word16 bytes) = order.opposite.word16 bytes := by
  apply order.opposite.bytes16_injective
  rw [bytes16_swap16, opposite_opposite, bytes16_word16 _ _ h, bytes16_word16 _ _ h]

theorem swap32_word32 (order : ByteOrder) (bytes : List UInt8) (h : bytes.length = 4) :
    swap32 (order.word32 bytes) = order.opposite.word32 bytes := by
  apply order.opposite.bytes32_injective
  rw [bytes32_swap32, opposite_opposite, bytes32_word32 _ _ h, bytes32_word32 _ _ h]

/-- A word looks the same in two orders if they are one order, or if it reads the same
from both ends. -/
theorem bytes16_eq_bytes16_iff (order other : ByteOrder) (value : UInt16) :
    order.bytes16 value = other.bytes16 value ↔ order = other ∨ swap16 value = value := by
  by_cases hOrder : order = other
  · simp [hOrder]
  · rw [eq_opposite_of_ne hOrder, ← bytes16_swap16, other.bytes16_injective.eq_iff]
    exact (or_iff_right fun hSame => hOrder (eq_opposite_of_ne hOrder |>.trans hSame)).symm

theorem bytes32_eq_bytes32_iff (order other : ByteOrder) (value : UInt32) :
    order.bytes32 value = other.bytes32 value ↔ order = other ∨ swap32 value = value := by
  by_cases hOrder : order = other
  · simp [hOrder]
  · rw [eq_opposite_of_ne hOrder, ← bytes32_swap32, other.bytes32_injective.eq_iff]
    exact (or_iff_right fun hSame => hOrder (eq_opposite_of_ne hOrder |>.trans hSame)).symm

end ByteOrder
end WordBytes
