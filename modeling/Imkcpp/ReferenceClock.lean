import Imkcpp.Deadlines
import Imkcpp.ReferenceState

/-! The clock in both implementations. They flush at the same times. For `check` this is so
as long as neither clock nor deadlines are in the upper half, where only the reference
implementation takes a wrap into account. -/
namespace Imkcpp

open WrappingClock

variable {mtu : Mtu}

/-- A later `ikcp_update`, with the two deadlines that it can set. -/
theorem Ikcpcb.updateClock_running {kcp : Ikcpcb} (hOn : ¬kcp.updated = 0) (current : UInt32) :
    kcp.updateClock current =
      if itimediff current kcp.tsFlush ≥ 10000 ∨ itimediff current kcp.tsFlush < -10000 then
        ({ kcp with current, tsFlush := current + kcp.interval }, true)
      else if itimediff current kcp.tsFlush ≥ 0 then
        ({ kcp with
          current
          tsFlush := if itimediff current (kcp.tsFlush + kcp.interval) ≥ 0 then
            current + kcp.interval else kcp.tsFlush + kcp.interval }, true)
      else ({ kcp with current }, false) := by
  have hZero : (0 : Int32) ≥ 0 := by decide
  unfold Ikcpcb.updateClock
  simp only [if_neg hOn]
  by_cases hJumped : itimediff current kcp.tsFlush ≥ 10000 ∨ itimediff current kcp.tsFlush < -10000
  · simp only [if_pos hJumped, if_pos hZero, ite_self]
  · simp only [if_neg hJumped]

namespace ImKcpp

theorem updateClock_toIkcpcb_running {s : ImKcpp mtu} (hUpdated : s.updated = true) (aside : Aside)
    (current : UInt32) :
    (s.toIkcpcb aside).updateClock current =
      ((s.updateClock current).1.toIkcpcb aside, (s.updateClock current).2) := by
  have hOn : ¬(s.toIkcpcb aside).updated = 0 := by
    rw [updated_toIkcpcb, hUpdated]
    decide
  have hSlap : itimediff current (s.toIkcpcb aside).tsFlush = timeDelta current s.tsFlush := rfl
  rw [updateClock_running hUpdated, Ikcpcb.updateClock_running hOn, hSlap]
  by_cases hJumped : timeDelta current s.tsFlush ≥ 10000 ∨ timeDelta current s.tsFlush < -10000
  · rw [if_pos hJumped, if_pos hJumped]
    rfl
  · rw [if_neg hJumped, if_neg hJumped]
    by_cases hDue : timeDelta current s.tsFlush ≥ 0
    · rw [if_pos hDue, if_pos hDue]
      rfl
    · rw [if_neg hDue, if_neg hDue]
      rfl

/-- Both clocks run alike. -/
theorem updateClock_toIkcpcb (s : ImKcpp mtu) (aside : Aside) (current : UInt32) :
    (s.toIkcpcb aside).updateClock current =
      ((s.updateClock current).1.toIkcpcb aside, (s.updateClock current).2) := by
  cases hUpdated : s.updated with
  | true => exact updateClock_toIkcpcb_running hUpdated aside current
  | false =>
      have hOff : ({ s.toIkcpcb aside with current } : Ikcpcb).updated = 0 :=
        (s.updated_toIkcpcb aside).mpr hUpdated
      have hFirst : (s.toIkcpcb aside).updateClock current =
          (({ s with
            updated := true
            tsFlush := current } : ImKcpp mtu).toIkcpcb aside).updateClock current := by
        unfold Ikcpcb.updateClock
        dsimp only
        rw [if_pos hOff]
        rfl
      rw [hFirst, updateClock_first hUpdated]
      exact updateClock_toIkcpcb_running rfl aside current

end ImKcpp

section Query

variable {current : UInt32} {segments : List Segment}

/-- A segment that is due ends both loops. -/
theorem checkLoop_of_due (hNow : current.toNat < 2 ^ 31)
    (hHalf : ∀ seg ∈ segments, seg.metadata.resendts.toNat < 2 ^ 31)
    (hDue : ∃ seg ∈ segments, seg.metadata.resendts ≤ current) (tmPacket : Int32) :
    Ikcpcb.checkLoop current (segments.map Segment.toIkcp) tmPacket = none := by
  induction segments generalizing tmPacket with
  | nil => simp at hDue
  | cons seg rest ih =>
      have hTest : itimediff seg.toIkcp.resendts current ≤ 0 ↔ seg.metadata.resendts ≤ current :=
        difference_nonpos_iff (hHalf seg (by simp)) hNow
      rw [List.map_cons, Ikcpcb.checkLoop]
      by_cases hFirst : seg.metadata.resendts ≤ current
      · exact if_pos (hTest.mpr hFirst)
      · refine (if_neg (mt hTest.mp hFirst)).trans ?_
        obtain ⟨other, hOther, hLe⟩ := hDue
        rcases List.mem_cons.mp hOther with rfl | hRest
        · exact absurd hLe hFirst
        · exact ih (fun later hLater => hHalf later (List.mem_cons_of_mem seg hLater)) ⟨other,
            hRest, hLe⟩ _

/-- Otherwise both find the least distance, if it is less than the greatest signed number. -/
theorem checkLoop_of_not_due (hNow : current.toNat < 2 ^ 31)
    (hHalf : ∀ seg ∈ segments, seg.metadata.resendts.toNat < 2 ^ 31)
    (hNone : ∀ seg ∈ segments, ¬seg.metadata.resendts ≤ current) {tmPacket : UInt32}
    {tmSigned : Int32} (hSame : tmSigned.toInt = min (tmPacket.toNat : ℤ) (2 ^ 31 - 1)) :
    ∃ least signed, SenderBuffer.earliestTransmitLoop current segments tmPacket =
        (if least = 0xffffffff then none else some least) ∧
      Ikcpcb.checkLoop current (segments.map Segment.toIkcp) tmSigned = some signed ∧
      signed.toInt = min (least.toNat : ℤ) (2 ^ 31 - 1) := by
  induction segments generalizing tmPacket tmSigned with
  | nil => exact ⟨tmPacket, tmSigned, rfl, rfl, hSame⟩
  | cons seg rest ih =>
      have hSeg := hHalf seg (by simp)
      have hAhead := hNone seg (by simp)
      have hLate : ¬itimediff seg.toIkcp.resendts current ≤ 0 :=
        mt (difference_nonpos_iff hSeg hNow).mp hAhead
      have hInt : (itimediff seg.toIkcp.resendts current).toInt =
          seg.metadata.resendts.toNat - current.toNat :=
        toInt_difference_of_half hSeg hNow
      rw [UInt32.not_le, UInt32.lt_iff_toNat_lt] at hAhead
      have hNat := UInt32.toNat_sub_of_le _ _ (UInt32.le_iff_toNat_le.mpr hAhead.le)
      have hNext : (if itimediff seg.toIkcp.resendts current < tmSigned then
            itimediff seg.toIkcp.resendts current else tmSigned).toInt =
          min ((min tmPacket (seg.metadata.resendts - current)).toNat : ℤ) (2 ^ 31 - 1) := by
        rw [toNat_min, hNat, Nat.cast_min]
        split_ifs with hLess
        · rw [Int32.lt_iff_toInt_lt, hInt, hSame] at hLess
          omega
        · rw [Int32.lt_iff_toInt_lt, hInt, hSame] at hLess
          omega
      obtain ⟨least, signed, hLoop, hSigned, hLeast⟩ :=
        ih (fun other hOther => hHalf other (List.mem_cons_of_mem seg hOther))
          (fun other hOther => hNone other (List.mem_cons_of_mem seg hOther)) hNext
      refine ⟨least, signed, ?_, ?_, hLeast⟩
      · rw [SenderBuffer.earliestTransmitLoop, if_neg (hNone seg (by simp)), hLoop]
      · rw [List.map_cons, Ikcpcb.checkLoop]
        exact (if_neg hLate).trans hSigned

/-- Up to a deadline that is near, both wait for the same time. -/
theorem wait_toIkcpcb (hNow : current.toNat < 2 ^ 31)
    (hHalf : ∀ seg ∈ segments, seg.metadata.resendts.toNat < 2 ^ 31)
    (interval : UInt32) {left : UInt32} (hPositive : 0 < left.toNat) (hNear : left.toNat < 10000) :
    (match Ikcpcb.checkLoop current (segments.map Segment.toIkcp) 0x7fffffff with
      | none => current
      | some tmPacket =>
        let minimal := (if tmPacket < left.toInt32 then tmPacket else left.toInt32).toUInt32
        current + if minimal ≥ interval then interval else minimal) =
      current + min interval
        (match (⟨segments⟩ : SenderBuffer).getEarliestTransmitDelta current with
        | some delta => if delta < left then delta else left
        | none => left) := by
  have hLeft : left.toInt32.toInt = left.toNat := toInt_of_half (by omega)
  have hMin : ∀ minimal : UInt32, (if minimal ≥ interval then interval else minimal) =
      min interval minimal :=
    fun _ => rfl
  by_cases hDue : ∃ seg ∈ segments, seg.metadata.resendts ≤ current
  · have hZero : (⟨segments⟩ : SenderBuffer).getEarliestTransmitDelta current = some 0 :=
      SenderBuffer.getEarliestTransmitDelta_eq_zero_iff.mpr hDue
    rw [checkLoop_of_due hNow hHalf hDue, hZero]
    dsimp only
    have hBelow : (0 : UInt32) < left := UInt32.lt_iff_toNat_lt.mpr hPositive
    have hNone : min interval 0 = 0 := by
      rw [← UInt32.toNat_inj, toNat_min, UInt32.toNat_zero, Nat.min_zero]
    rw [if_pos hBelow, hNone, UInt32.add_zero]
  · have hNone : ∀ seg ∈ segments, ¬seg.metadata.resendts ≤ current :=
      fun seg hSeg hLe => hDue ⟨seg, hSeg, hLe⟩
    have hStart : (0x7fffffff : Int32).toInt = min ((0xffffffff : UInt32).toNat : ℤ) (2 ^ 31 - 1) :=
      rfl
    obtain ⟨least, signed, hLoop, hSigned, hLeast⟩ := checkLoop_of_not_due hNow hHalf hNone hStart
    have hEarliest : (⟨segments⟩ : SenderBuffer).getEarliestTransmitDelta current =
        if least = 0xffffffff then none else some least := by
      unfold SenderBuffer.getEarliestTransmitDelta
      cases segments with
      | nil => exact hLoop
      | cons seg rest => exact hLoop
    have hLess : signed < left.toInt32 ↔ least < left := by
      rw [Int32.lt_iff_toInt_lt, hLeast, hLeft, UInt32.lt_iff_toNat_lt]
      omega
    rw [hSigned, hEarliest]
    dsimp only
    rw [hMin]
    by_cases hFirst : least < left
    · have hNat := UInt32.lt_iff_toNat_lt.mp hFirst
      have hSame : signed = least.toInt32 := by
        rw [← Int32.toInt_inj, toInt_of_half (by omega), hLeast]
        omega
      have hSome : least ≠ 0xffffffff := by
        rintro rfl
        exact absurd (hNat.trans hNear) (by decide)
      rw [if_pos (hLess.mpr hFirst), if_neg hSome, hSame, UInt32.toUInt32_toInt32]
      dsimp only
      rw [if_pos hFirst]
    · rw [if_neg (mt hLess.mp hFirst), UInt32.toUInt32_toInt32]
      by_cases hSome : least = 0xffffffff
      · rw [if_pos hSome]
      · rw [if_neg hSome]
        dsimp only
        rw [if_neg hFirst]

end Query

/-- Both ask for the next `update` at the same time. -/
theorem ImKcpp.check_toIkcpcb {s : ImKcpp mtu} {now : UInt32} (hNow : now.toNat < 2 ^ 31)
    (hHalf : ∀ seg ∈ s.senderBuffer.sndBuf, seg.metadata.resendts.toNat < 2 ^ 31)
    (hLow : -10000 < (timeDelta now s.tsFlush).toInt)
    (hHigh : (timeDelta now s.tsFlush).toInt < 10000) (aside : Aside) :
    s.check now = (s, (s.toIkcpcb aside).check now) := by
  have hSlap : itimediff now (s.toIkcpcb aside).tsFlush = timeDelta now s.tsFlush := rfl
  have hZero : (0 : Int32).toInt = 0 := rfl
  have hLimit : (10000 : Int32).toInt = 10000 := rfl
  have hLower : (-10000 : Int32).toInt = -10000 := rfl
  have hNear : ¬Int32.abs (timeDelta now s.tsFlush) ≥ 10000 := by
    rw [ge_iff_le, Int32.le_iff_toInt_le, toInt_abs (by omega), hLimit]
    omega
  have hSteady : ¬(timeDelta now s.tsFlush ≥ 10000 ∨ timeDelta now s.tsFlush < -10000) := by
    rw [ge_iff_le, Int32.le_iff_toInt_le, Int32.lt_iff_toInt_lt, hLimit, hLower]
    omega
  unfold ImKcpp.check Ikcpcb.check
  cases hUpdated : s.updated with
  | false =>
      rw [if_pos ((s.updated_toIkcpcb aside).mpr hUpdated)]
      rfl
  | true =>
      have hOn : ¬(s.toIkcpcb aside).updated = 0 := by
        rw [s.updated_toIkcpcb, hUpdated]
        decide
      simp only [Bool.not_true, Bool.false_eq_true, if_false, if_neg hNear]
      rw [if_neg hOn, hSlap, if_neg hSteady, hSlap]
      by_cases hPassed : timeDelta now s.tsFlush ≥ 0
      · rw [if_pos hPassed, if_pos hPassed]
      · rw [if_neg hPassed, if_neg hPassed]
        rw [ge_iff_le, Int32.le_iff_toInt_le, hZero, Int.not_le] at hPassed
        have hLeft := toNat_of_difference_neg hPassed
        rw [← timeDelta_eq_difference] at hLeft
        have hAhead : 0 ≤ (timeDelta s.tsFlush now).toInt := by
          rw [timeDelta_eq_difference, toInt_difference_of_ahead (by omega)]
          exact Int.natCast_nonneg _
        have hPositive : 0 < (s.tsFlush - now).toNat := by omega
        have hWait := wait_toIkcpcb hNow hHalf s.sharedCtx.interval hPositive (by omega)
        rw [toUInt32_max_zero_timeDelta hAhead]
        exact Prod.ext rfl hWait.symm

end Imkcpp
