import Mathlib.Algebra.Order.Ring.Nat
import Mathlib.Tactic.Ring

/-! A window of segments that grows with a counter of bytes. In the first phase both grow
by a whole segment; later the counter grows by a fraction that gets smaller with it, and
the window follows, rounded up, when the counter has reached the next segment. -/
namespace ByteWindow

structure Window where
  segments : ℕ
  bytes : ℕ
  deriving DecidableEq

namespace Window

section Growth

variable (size : ℕ)

/-- The window whose counter is exact. -/
def full (segments : ℕ) : Window := ⟨segments, segments * size⟩

def start (w : Window) : Window := ⟨w.segments + 1, w.bytes + size⟩

/-- What the counter grows by, once it is at least a segment. -/
def advance (bytes : ℕ) : ℕ := bytes + (size * size / bytes + size / 16)

def avoid (w : Window) : Window :=
  let bytes := advance size (max size w.bytes)
  ⟨if (w.segments + 1) * size ≤ bytes then (bytes + size - 1) / size else w.segments, bytes⟩

def cap (limit : ℕ) (w : Window) : Window := if w.segments > limit then full size limit else w

def grow (limit threshold : ℕ) (w : Window) : Window :=
  if w.segments < limit then
    (if w.segments < threshold then w.start size else w.avoid size).cap size limit
  else w

/-- The counter is less than a segment away from the window. -/
def Balanced (w : Window) : Prop :=
  w.segments = 0 ∧ w.bytes = 0 ∨
    0 < w.segments ∧ (w.segments - 1) * size < w.bytes ∧ w.bytes < (w.segments + 1) * size

end Growth

variable {size : ℕ} {w : Window}

theorem full_balanced (hSize : 0 < size) (segments : ℕ) : (full size segments).Balanced size := by
  rcases segments with _ | segments
  · exact .inl ⟨rfl, Nat.zero_mul size⟩
  · refine .inr ⟨Nat.succ_pos _, ?_, ?_⟩
    · exact Nat.mul_lt_mul_of_pos_right (Nat.lt_succ_self _) hSize
    · exact Nat.mul_lt_mul_of_pos_right (Nat.lt_succ_self _) hSize

theorem Balanced.start (h : w.Balanced size) (hSize : 0 < size) : (w.start size).Balanced size := by
  rcases h with ⟨hSegments, hBytes⟩ | ⟨hPositive, hLow, hHigh⟩
  · have hFull : w.start size = full size 1 := by
      rw [Window.start, hSegments, hBytes, full, Nat.zero_add, Nat.zero_add, Nat.one_mul]
    rw [hFull]
    exact full_balanced hSize 1
  · obtain ⟨before, hSegments⟩ : ∃ before, w.segments = before + 1 := ⟨w.segments - 1, by omega⟩
    rw [hSegments, Nat.add_sub_cancel] at hLow
    refine .inr ⟨Nat.succ_pos _, ?_, ?_⟩
    · simp only [Window.start, hSegments, Nat.add_sub_cancel, Nat.add_mul, Nat.one_mul]
      omega
    · simp only [Window.start, hSegments, Nat.add_mul, Nat.one_mul] at hHigh ⊢
      omega

/-- A counter of so many segments grows by so small a part of one. -/
theorem quotient_le (hSize : 0 < size) {count bytes : ℕ} (hBytes : count * size ≤ bytes) :
    count * (size * size / bytes) ≤ size := by
  refine Nat.le_of_mul_le_mul_right ?_ hSize
  calc count * (size * size / bytes) * size
      = size * size / bytes * (count * size) := by ring
    _ ≤ size * size / bytes * bytes := Nat.mul_le_mul_left _ hBytes
    _ ≤ size * size := Nat.div_mul_le_self _ _

/-- The counter of a window of two segments and more does not leave the next two. -/
theorem Balanced.advance_bounds (h : w.Balanced size) (hSize : 0 < size) (hTwo : 2 ≤ w.segments) :
    max size w.bytes = w.bytes ∧ w.bytes ≤ advance size w.bytes ∧
      advance size w.bytes < (w.segments + 2) * size := by
  rcases h with ⟨hZero, -⟩ | ⟨-, hLow, hHigh⟩
  · omega
  obtain ⟨before, hSegments⟩ : ∃ before, w.segments = before + 2 := ⟨w.segments - 2, by omega⟩
  have hOnce : 1 * size ≤ w.bytes → 1 * (size * size / w.bytes) ≤ size := quotient_le hSize
  have hTwice : 2 * size ≤ w.bytes → 2 * (size * size / w.bytes) ≤ size := quotient_le hSize
  simp only [hSegments, Nat.add_mul, Nat.one_mul, Nat.reduceSubDiff] at hLow hHigh ⊢
  refine ⟨by omega, Nat.le_add_right _ _, ?_⟩
  unfold advance
  omega

/-- The window that a counter rounds up to. -/
theorem rounded_up (hSize : 0 < size) (bytes : ℕ) :
    bytes ≤ (bytes + size - 1) / size * size ∧ (bytes + size - 1) / size * size < bytes + size := by
  have hParts := Nat.div_add_mod (bytes + size - 1) size
  have hRest := Nat.mod_lt (bytes + size - 1) hSize
  rw [Nat.mul_comm] at hParts
  omega

/-- In the later phase the window grows by two segments at most, and stays balanced. -/
theorem Balanced.avoid (h : w.Balanced size) (hSize : 0 < size) (hTwo : 2 ≤ w.segments) :
    (w.avoid size).Balanced size ∧ w.segments ≤ (w.avoid size).segments ∧
      (w.avoid size).segments ≤ w.segments + 2 ∧
        (w.avoid size).bytes < (w.segments + 2) * size := by
  obtain ⟨hMax, hGrown, hBelow⟩ := h.advance_bounds hSize hTwo
  obtain ⟨hLow, -⟩ : (w.segments - 1) * size < w.bytes ∧ w.bytes < (w.segments + 1) * size := by
    rcases h with ⟨hZero, -⟩ | ⟨-, hBounds⟩
    · omega
    · exact hBounds
  unfold Window.avoid
  simp only [hMax]
  split_ifs with hReached
  · obtain ⟨hUp, hDown⟩ := rounded_up hSize (advance size w.bytes)
    have hAtLeast : w.segments + 1 ≤ (advance size w.bytes + size - 1) / size :=
      (Nat.le_div_iff_mul_le hSize).mpr (by omega)
    have hAtMost : (advance size w.bytes + size - 1) / size < w.segments + 3 := by
      rw [Nat.div_lt_iff_lt_mul hSize]
      simp only [Nat.add_mul] at hBelow ⊢
      omega
    refine ⟨.inr ⟨Nat.zero_lt_of_lt hAtLeast, ?_, ?_⟩, Nat.le_of_lt hAtLeast,
      Nat.le_of_lt_succ hAtMost, hBelow⟩
    · dsimp only
      rw [Nat.sub_mul, Nat.one_mul]
      omega
    · dsimp only
      rw [Nat.add_mul, Nat.one_mul]
      omega
  · refine ⟨.inr ⟨Nat.zero_lt_of_lt hTwo, ?_, ?_⟩, Nat.le_refl _, Nat.le_add_right _ _, hBelow⟩
    · exact hLow.trans_le hGrown
    · exact Nat.not_le.mp hReached

theorem cap_segments (limit : ℕ) : (w.cap size limit).segments = min w.segments limit := by
  unfold Window.cap
  split_ifs with hAbove
  · exact (Nat.min_eq_right hAbove.le).symm
  · exact (Nat.min_eq_left (Nat.not_lt.mp hAbove)).symm

theorem Balanced.cap (h : w.Balanced size) (hSize : 0 < size) (limit : ℕ) :
    (w.cap size limit).Balanced size := by
  unfold Window.cap
  split_ifs
  · exact full_balanced hSize limit
  · exact h

/-- A balanced window stays balanced when it grows, and grows by one segment in the first
phase and by at most two in the later one, up to the limit. -/
theorem Balanced.grow (h : w.Balanced size) (hSize : 0 < size) (limit : ℕ) {threshold : ℕ}
    (hThreshold : 2 ≤ threshold) :
    (w.grow size limit threshold).Balanced size ∧
      w.segments ≤ (w.grow size limit threshold).segments ∧
      (w.grow size limit threshold).segments ≤ w.segments + 2 ∧
      (w.segments < threshold → (w.grow size limit threshold).segments ≤ w.segments + 1) ∧
      (w.grow size limit threshold).segments ≤ max w.segments limit := by
  unfold Window.grow
  by_cases hLimit : w.segments < limit
  · rw [if_pos hLimit]
    by_cases hStart : w.segments < threshold
    · rw [if_pos hStart, cap_segments]
      refine ⟨(h.start hSize).cap hSize limit, ?_⟩
      simp only [Window.start]
      omega
    · obtain ⟨hBalanced, hGrows, hTwo, -⟩ := h.avoid hSize (hThreshold.trans (Nat.not_lt.mp hStart))
      rw [if_neg hStart, cap_segments]
      refine ⟨hBalanced.cap hSize limit, ?_⟩
      omega
  · rw [if_neg hLimit]
    refine ⟨h, ?_⟩
    omega

end Window
end ByteWindow
