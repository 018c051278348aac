import Mathlib.Algebra.Ring.Int.Defs
import Mathlib.Tactic.Ring

/-! A clock of 32 bits that wraps. Two of its readings are compared by the sign of
their difference, which is right as long as they are less than half a turn apart,
and does not depend on where the clock has started. -/
namespace WrappingClock

/-- How far `later` is behind `earlier` on the clock, as a signed number. -/
def difference (later earlier : UInt32) : Int32 := (later - earlier).toInt32

/-- The sign of a difference is its upper bit. -/
theorem toInt_toInt32 (value : UInt32) :
    value.toInt32.toInt =
      if 2 * value.toNat < 2 ^ 32 then (value.toNat : Int) else value.toNat - 2 ^ 32 :=
  BitVec.toInt_eq_toNat_cond _

/-- A number read as signed and cut off at zero keeps the lower half of the words. -/
theorem toNat_max_zero (value : UInt32) :
    (max value.toInt32 0).toUInt32.toNat = if value.toNat < 2 ^ 31 then value.toNat else 0 := by
  have hInt := toInt_toInt32 value
  have hMax : max value.toInt32 0 = if value.toInt32 ≤ 0 then 0 else value.toInt32 := rfl
  have hBound := value.toNat_lt
  rw [hMax]
  split_ifs with hNegative hSmall hSmall
  · rw [Int32.le_iff_toInt_le, hInt, if_pos (by omega), Int32.toInt_zero] at hNegative
    have hZero : value.toNat = 0 := by omega
    rw [hZero]
    rfl
  · rfl
  · rw [UInt32.toUInt32_toInt32]
  · rw [Int32.le_iff_toInt_le, hInt, if_neg (by omega), Int32.toInt_zero] at hNegative
    omega

theorem toInt_difference_of_ahead {later earlier : UInt32} (h : (later - earlier).toNat < 2 ^ 31) :
    (difference later earlier).toInt = (later - earlier).toNat := by
  rw [difference, toInt_toInt32, if_pos (by omega)]

section Half

variable {a b : UInt32}

/-- Readings of the lower half are compared by their difference as numbers are. -/
theorem toInt_difference_of_half (hA : a.toNat < 2 ^ 31) (hB : b.toNat < 2 ^ 31) :
    (difference a b).toInt = a.toNat - b.toNat := by
  have hSub := UInt32.toNat_sub a b
  rw [difference, toInt_toInt32]
  split_ifs <;> omega

theorem difference_neg_iff (hA : a.toNat < 2 ^ 31) (hB : b.toNat < 2 ^ 31) :
    difference a b < 0 ↔ a < b := by
  rw [Int32.lt_iff_toInt_lt, toInt_difference_of_half hA hB, Int32.toInt_zero,
    UInt32.lt_iff_toNat_lt]
  omega

theorem difference_pos_iff (hA : a.toNat < 2 ^ 31) (hB : b.toNat < 2 ^ 31) :
    difference a b > 0 ↔ b < a := by
  rw [gt_iff_lt, Int32.lt_iff_toInt_lt, toInt_difference_of_half hA hB, Int32.toInt_zero,
    UInt32.lt_iff_toNat_lt]
  omega

theorem difference_nonpos_iff (hA : a.toNat < 2 ^ 31) (hB : b.toNat < 2 ^ 31) :
    difference a b ≤ 0 ↔ a ≤ b := by
  rw [Int32.le_iff_toInt_le, toInt_difference_of_half hA hB, Int32.toInt_zero,
    UInt32.le_iff_toNat_le]
  omega

theorem difference_nonneg_iff (hA : a.toNat < 2 ^ 31) (hB : b.toNat < 2 ^ 31) :
    difference a b ≥ 0 ↔ b ≤ a := by
  rw [ge_iff_le, Int32.le_iff_toInt_le, toInt_difference_of_half hA hB, Int32.toInt_zero,
    UInt32.le_iff_toNat_le]
  omega

end Half

/-- Once around the clock. -/
theorem toNat_sub_add_toNat_sub {a b : UInt32} (h : a ≠ b) :
    (a - b).toNat + (b - a).toNat = 2 ^ 32 := by
  have hA := a.toNat_lt
  have hB := b.toNat_lt
  have hNat : a.toNat ≠ b.toNat := fun hSame => h (UInt32.toNat_inj.mp hSame)
  rw [UInt32.toNat_sub, UInt32.toNat_sub]
  omega

/-- The time to a deadline is the time to a reading in between and the time from there. -/
theorem toNat_sub_eq_add (deadline between earlier : UInt32) :
    (deadline - earlier).toNat =
      ((deadline - between).toNat + (between - earlier).toNat) % 2 ^ 32 := by
  have hDeadline := deadline.toNat_lt
  have hBetween := between.toNat_lt
  have hEarlier := earlier.toNat_lt
  rw [UInt32.toNat_sub, UInt32.toNat_sub, UInt32.toNat_sub]
  omega

theorem toInt_difference_of_behind {later earlier : UInt32}
    (hPositive : 0 < (earlier - later).toNat) (h : (earlier - later).toNat ≤ 2 ^ 31) :
    (difference later earlier).toInt = -((earlier - later).toNat : Int) := by
  have hNe : later ≠ earlier := by
    rintro rfl
    simp at hPositive
  have hTurn := toNat_sub_add_toNat_sub hNe
  rw [difference, toInt_toInt32, if_neg (by omega)]
  omega

/-- A negative difference says how long it still takes. -/
theorem toNat_of_difference_neg {later earlier : UInt32}
    (h : (difference later earlier).toInt < 0) :
    ((earlier - later).toNat : Int) = -(difference later earlier).toInt := by
  have hNe : later ≠ earlier := by
    rintro rfl
    simp [difference] at h
  have hTurn := toNat_sub_add_toNat_sub hNe
  rw [difference, toInt_toInt32] at h ⊢
  split_ifs at h ⊢ <;> omega

/-- A difference that is not negative says how long ago it was. -/
theorem toNat_of_difference_nonneg {later earlier : UInt32}
    (h : 0 ≤ (difference later earlier).toInt) :
    ((later - earlier).toNat : Int) = (difference later earlier).toInt := by
  have hBound := (later - earlier).toNat_lt
  rw [difference, toInt_toInt32] at h ⊢
  split_ifs at h ⊢ <;> omega

theorem toInt_abs {value : Int32} (h : -2 ^ 31 < value.toInt) :
    value.abs.toInt = value.toInt.natAbs := by
  refine BitVec.toInt_abs_eq_natAbs_of_ne_intMin fun hMin => ?_
  have hValue : value.toInt = -2 ^ 31 := congrArg BitVec.toInt hMin
  omega

/-- A signed number that is not negative is the word as it stands. -/
theorem toNat_toUInt32 {value : Int32} (h : 0 ≤ value.toInt) :
    (value.toUInt32.toNat : Int) = value.toInt := by
  have hInt := toInt_toInt32 value.toUInt32
  have hBound := value.toUInt32.toNat_lt
  rw [Int32.toInt32_toUInt32] at hInt
  split_ifs at hInt <;> omega

/-- A word of the lower half is the same number with a sign. -/
theorem toInt_of_half {value : UInt32} (h : value.toNat < 2 ^ 31) :
    value.toInt32.toInt = value.toNat := by
  rw [toInt_toInt32, if_pos (by omega)]

theorem toInt32_div {a b : UInt32} (hA : a.toNat < 2 ^ 31) (hB : b.toNat < 2 ^ 31) :
    (a / b).toInt32 = a.toInt32 / b.toInt32 := by
  have hLe := Nat.div_le_self a.toNat b.toNat
  have hQuotient : (a / b).toNat = a.toNat / b.toNat := UInt32.toNat_div a b
  rw [← Int32.toInt_inj, Int32.toInt_div, toInt_of_half hA, toInt_of_half hB,
    toInt_of_half (by omega), hQuotient, Int.tdiv_eq_ediv_of_nonneg (by omega), ← Int.natCast_ediv,
    Int.bmod_eq_of_le (by omega) (by omega)]

/-- The half of a number that is not negative. -/
theorem toInt_half {value : Int32} (h : 0 ≤ value.toInt) : (value / 2).toInt = value.toInt / 2 := by
  have hTwo : (2 : Int32).toInt = 2 := rfl
  have hBound := Int32.toInt_lt value
  rw [Int32.toInt_div, hTwo, Int.tdiv_eq_ediv_of_nonneg h, Int.bmod_eq_of_le (by omega) (by omega)]

/-- The distance of two numbers that are not negative. -/
theorem toInt_abs_sub {a b : Int32} (hA : 0 ≤ a.toInt) (hB : 0 ≤ b.toInt) :
    (a - b).abs.toInt = (a.toInt - b.toInt).natAbs := by
  have hHighA := Int32.toInt_lt a
  have hHighB := Int32.toInt_lt b
  have hSub : (a - b).toInt = a.toInt - b.toInt := by
    rw [Int32.toInt_sub, Int.bmod_eq_of_le (by omega) (by omega)]
  rw [toInt_abs (by omega), hSub]

/-- A clock that has started elsewhere shows the same differences. -/
theorem difference_add_right (later earlier shift : UInt32) :
    difference (later + shift) (earlier + shift) = difference later earlier := by
  unfold difference
  congr 1
  apply UInt32.toBitVec_inj.mp
  simp only [UInt32.toBitVec_sub, UInt32.toBitVec_add]
  bv_omega

/-- Numbers of a clock that does not wrap, less than half a turn apart, are ordered as its
readings are. -/
theorem difference_ofNat_nonneg_iff {later earlier : ℕ} (hLater : later < earlier + 2 ^ 31)
    (hEarlier : earlier < later + 2 ^ 31) :
    0 ≤ (difference (UInt32.ofNat later) (UInt32.ofNat earlier)).toInt ↔ earlier ≤ later := by
  have hSub := UInt32.toNat_sub (UInt32.ofNat later) (UInt32.ofNat earlier)
  rw [UInt32.toNat_ofNat', UInt32.toNat_ofNat'] at hSub
  rw [difference, toInt_toInt32]
  split_ifs <;> omega

/-- The number that a reading stands for, less than a turn behind another one. -/
def onward (now : ℕ) (reading : UInt32) : ℕ := now + (reading - UInt32.ofNat now).toNat

theorem ofNat_onward (now : ℕ) (reading : UInt32) :
    UInt32.ofNat (onward now reading) = reading := by
  have hReading := reading.toNat_lt
  have hSub := UInt32.toNat_sub reading (UInt32.ofNat now)
  rw [UInt32.toNat_ofNat'] at hSub
  rw [← UInt32.toNat_inj, UInt32.toNat_ofNat', onward]
  omega

/-- The time that has passed along readings, each less than a turn behind the one before. -/
def elapsed : List UInt32 → ℕ
  | first :: second :: rest => (second - first).toNat + elapsed (second :: rest)
  | _ => 0

theorem toNat_sub_ofNat {earlier later : ℕ} (h : earlier ≤ later ∧ later < earlier + 2 ^ 32) :
    earlier + (UInt32.ofNat later - UInt32.ofNat earlier).toNat = later := by
  rw [UInt32.toNat_sub, UInt32.toNat_ofNat', UInt32.toNat_ofNat']
  omega

/-- On a clock that does not wrap it is the difference of the last and the first reading. -/
theorem elapsed_ofNat {first last : ℕ} {between : List ℕ}
    (h : (first :: (between ++ [last])).IsChain fun earlier later =>
      earlier ≤ later ∧ later < earlier + 2 ^ 32) :
    first + elapsed ((first :: (between ++ [last])).map UInt32.ofNat) = last := by
  induction between generalizing first with
  | nil => exact toNat_sub_ofNat (List.isChain_cons_cons.mp h).1
  | cons next rest ih =>
      obtain ⟨hGap, hRest⟩ := List.isChain_cons_cons.mp h
      calc first + elapsed ((first :: next :: (rest ++ [last])).map UInt32.ofNat)
          = first + (UInt32.ofNat next - UInt32.ofNat first).toNat +
              elapsed ((next :: (rest ++ [last])).map UInt32.ofNat) := (Nat.add_assoc _ _ _).symm
        _ = next + elapsed ((next :: (rest ++ [last])).map UInt32.ofNat) := by
          rw [toNat_sub_ofNat hGap]
        _ = last := ih hRest

end WrappingClock
