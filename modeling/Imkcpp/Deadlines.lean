import Imkcpp.Checking

/-! The deadlines that `check` looks at. It compares them with the clock as plain words,
where a flush takes the sign of the difference; and it answers for the segments too,
which `update` does not ask before it flushes. -/
namespace Imkcpp

open Transition

variable {mtu : Mtu} {host : Host} {conv : UInt32}

namespace SenderBuffer

variable {buffer : SenderBuffer} {current : UInt32}

/-- A segment that is due as a plain word ends the loop. -/
theorem earliestTransmitLoop_of_due {segments : List Segment}
    (hDue : ∃ seg ∈ segments, seg.metadata.resendts ≤ current) (tmPacket : UInt32) :
    earliestTransmitLoop current segments tmPacket = some 0 := by
  induction segments generalizing tmPacket with
  | nil => simp at hDue
  | cons seg rest ih =>
      unfold earliestTransmitLoop
      split_ifs with hFirst
      · rfl
      · obtain ⟨other, hOther, hLe⟩ := hDue
        rcases List.mem_cons.mp hOther with rfl | hRest
        · exact absurd hLe hFirst
        · exact ih ⟨other, hRest, hLe⟩ _

/-- Otherwise the loop finds the least distance, unless it was given a smaller one. -/
theorem earliestTransmitLoop_of_not_due {segments : List Segment}
    (hNone : ∀ seg ∈ segments, ¬seg.metadata.resendts ≤ current) (tmPacket : UInt32) :
    ∃ least, earliestTransmitLoop current segments tmPacket =
        (if least = 0xffffffff then none else some least) ∧ least.toNat ≤ tmPacket.toNat ∧
      (∀ seg ∈ segments, least.toNat ≤ (seg.metadata.resendts - current).toNat) ∧
      (least = tmPacket ∨ ∃ seg ∈ segments, least = seg.metadata.resendts - current) := by
  induction segments generalizing tmPacket with
  | nil => exact ⟨tmPacket, rfl, Nat.le_refl _, by simp, .inl rfl⟩
  | cons seg rest ih =>
      obtain ⟨least, hLoop, hLe, hRest, hFound⟩ :=
        ih (fun other hOther => hNone other (by simp [hOther]))
          (min tmPacket (seg.metadata.resendts - current))
      have hMin : min tmPacket (seg.metadata.resendts - current) = tmPacket ∨
          min tmPacket (seg.metadata.resendts - current) = seg.metadata.resendts - current :=
        ite_eq_or_eq _ _ _
      rw [toNat_min] at hLe
      refine ⟨least, ?_, by omega, ?_, ?_⟩
      · rw [earliestTransmitLoop, if_neg (hNone seg (by simp)), hLoop]
      · intro other hOther
        rcases List.mem_cons.mp hOther with rfl | hOther
        · omega
        · exact hRest other hOther
      · rcases hFound with hFound | ⟨other, hOther, hFound⟩
        · rcases hMin with hKept | hTaken
          · exact .inl (hFound.trans hKept)
          · exact .inr ⟨seg, by simp, hFound.trans hTaken⟩
        · exact .inr ⟨other, by simp [hOther], hFound⟩

/-- Zero is returned if and only if a segment is due as a plain word. -/
theorem getEarliestTransmitDelta_eq_zero_iff :
    buffer.getEarliestTransmitDelta current = some 0 ↔
      ∃ seg ∈ buffer.sndBuf, seg.metadata.resendts ≤ current := by
  unfold getEarliestTransmitDelta
  by_cases hDue : ∃ seg ∈ buffer.sndBuf, seg.metadata.resendts ≤ current
  · have hSome : buffer.sndBuf.isEmpty = false := by
      obtain ⟨seg, hSeg, -⟩ := hDue
      exact List.isEmpty_eq_false_iff_exists_mem.mpr ⟨seg, hSeg⟩
    rw [hSome, if_neg Bool.false_ne_true, earliestTransmitLoop_of_due hDue]
    exact iff_of_true rfl hDue
  · refine iff_of_false ?_ hDue
    have hNone : ∀ seg ∈ buffer.sndBuf, ¬seg.metadata.resendts ≤ current :=
      fun seg hSeg hLe => hDue ⟨seg, hSeg, hLe⟩
    obtain ⟨least, hLoop, -, -, hFound⟩ := earliestTransmitLoop_of_not_due hNone 0xffffffff
    split_ifs
    · exact nofun
    · rw [hLoop]
      split_ifs with hLimit
      · exact nofun
      · rintro hZero
        obtain rfl := Option.some.inj hZero
        rcases hFound with hFound | ⟨seg, hSeg, hFound⟩
        · cases hFound
        · refine hNone seg hSeg (UInt32.le_of_eq ?_)
          rw [← UInt32.sub_add_cancel seg.metadata.resendts current, ← hFound, UInt32.zero_add]

end SenderBuffer

section Timeouts

variable {settings : Sender.FlushSettings} {seg : Segment}

/-- How far a deadline is ahead, if no wrap lies in between. -/
theorem toInt_timeDelta_of_between {deadline current : UInt32}
    (hAhead : current.toNat < deadline.toNat) (hNear : deadline.toNat < current.toNat + 2 ^ 31) :
    (timeDelta deadline current).toInt = ((deadline - current).toNat : ℤ) ∧
      (deadline - current).toNat = deadline.toNat - current.toNat := by
  have hNat := UInt32.toNat_sub_of_le _ _ (UInt32.le_iff_toNat_le.mpr hAhead.le)
  refine ⟨WrappingClock.toInt_difference_of_ahead ?_, hNat⟩
  omega

/-- The two timeout tests agree, and without a timeout the least distance is returned. -/
def SenderBuffer.TimeoutsAgree (buffer : SenderBuffer) (settings : Sender.FlushSettings) : Prop :=
  (buffer.getEarliestTransmitDelta settings.current = some 0 ↔
      ∃ seg ∈ buffer.sndBuf, Sender.hasTimedOut settings seg = true) ∧
    ((∀ seg ∈ buffer.sndBuf, Sender.hasTimedOut settings seg = false) →
      (buffer.getEarliestTransmitDelta settings.current).map (fun delta => (delta.toNat : ℤ)) =
        (buffer.sndBuf.map fun seg =>
          (timeDelta seg.metadata.resendts settings.current).toInt).min?)

/-- Without a wrap in between, the loop returns the least distance. -/
theorem SenderBuffer.earliestTransmit_eq_min {buffer : SenderBuffer} {current : UInt32}
    (hSome : buffer.sndBuf ≠ [])
    (hAhead : ∀ seg ∈ buffer.sndBuf, current.toNat < seg.metadata.resendts.toNat ∧
      seg.metadata.resendts.toNat < current.toNat + 2 ^ 31) :
    (buffer.getEarliestTransmitDelta current).map (fun delta => (delta.toNat : ℤ)) =
      (buffer.sndBuf.map fun seg => (timeDelta seg.metadata.resendts current).toInt).min? := by
  have hNone : ∀ seg ∈ buffer.sndBuf, ¬seg.metadata.resendts ≤ current := by
    intro seg hSeg hLe
    have hLt := (hAhead seg hSeg).1
    rw [UInt32.le_iff_toNat_le] at hLe
    omega
  obtain ⟨least, hLoop, -, hLeast, hFound⟩ := earliestTransmitLoop_of_not_due hNone 0xffffffff
  obtain ⟨first, hFirst⟩ := List.exists_mem_of_ne_nil _ hSome
  have hSmall : least.toNat < 2 ^ 31 := by
    have hFirstNear := toInt_timeDelta_of_between (hAhead first hFirst).1 (hAhead first hFirst).2
    have hFirstBound := hAhead first hFirst
    have hLe := hLeast first hFirst
    omega
  have hBelow : least ≠ 0xffffffff := by
    rintro rfl
    exact absurd hSmall (by decide)
  rw [getEarliestTransmitDelta, if_neg (by simpa using hSome), hLoop, if_neg hBelow,
    Option.map_some]
  symm
  rw [List.min?_eq_some_iff]
  constructor
  · obtain ⟨seg, hSeg, rfl⟩ := hFound.resolve_left hBelow
    have hDistance := (toInt_timeDelta_of_between (hAhead seg hSeg).1 (hAhead seg hSeg).2).1
    exact List.mem_map.mpr ⟨seg, hSeg, hDistance⟩
  · intro distance hDistance
    obtain ⟨seg, hSeg, rfl⟩ := List.mem_map.mp hDistance
    rw [(toInt_timeDelta_of_between (hAhead seg hSeg).1 (hAhead seg hSeg).2).1]
    exact Int.ofNat_le.mpr (hLeast seg hSeg)

end Timeouts

section Agreement

variable {buffer : SenderBuffer} {settings : Sender.FlushSettings}

/-- Less than half a turn away, a segment is timed out if it is due as a word, unless the
clock has wrapped since, or if the clock has wrapped before. -/
theorem Sender.hasTimedOut_iff_of_near {seg : Segment}
    (hNear : (timeDelta seg.metadata.resendts settings.current).toInt.natAbs ≤ 2 ^ 31 - 1) :
    hasTimedOut settings seg = true ↔
      seg.metadata.resendts.toNat ≤ settings.current.toNat ∧
          settings.current.toNat < seg.metadata.resendts.toNat + 2 ^ 31 ∨
        settings.current.toNat + 2 ^ 31 ≤ seg.metadata.resendts.toNat := by
  have hCurrent := settings.current.toNat_lt
  have hDeadline := seg.metadata.resendts.toNat_lt
  rw [timeDelta, WrappingClock.toInt_toInt32, UInt32.toNat_sub] at hNear
  rw [hasTimedOut_iff, UInt32.toNat_sub]
  split_ifs at hNear <;> omega

/-- A timeout that both tests see settles the matter. -/
theorem SenderBuffer.timeoutsAgree_of_due {seg : Segment} (hSeg : seg ∈ buffer.sndBuf)
    (hDue : seg.metadata.resendts ≤ settings.current)
    (hTimedOut : Sender.hasTimedOut settings seg = true) :
    buffer.TimeoutsAgree settings := by
  refine ⟨iff_of_true (getEarliestTransmitDelta_eq_zero_iff.mpr ⟨seg, hSeg, hDue⟩) ⟨seg,
    hSeg, hTimedOut⟩, ?_⟩
  intro hNone
  rw [hNone seg hSeg] at hTimedOut
  exact absurd hTimedOut Bool.false_ne_true

/-- Neither test sees a timeout when all deadlines are ahead and no wrap lies in between. -/
theorem SenderBuffer.timeoutsAgree_of_ahead (hSome : buffer.sndBuf ≠ [])
    (hAhead : ∀ seg ∈ buffer.sndBuf, settings.current.toNat < seg.metadata.resendts.toNat ∧
      seg.metadata.resendts.toNat < settings.current.toNat + 2 ^ 31) :
    buffer.TimeoutsAgree settings := by
  refine ⟨iff_of_false ?_ ?_, fun _ => earliestTransmit_eq_min hSome hAhead⟩
  · rw [getEarliestTransmitDelta_eq_zero_iff]
    rintro ⟨seg, hSeg, hLe⟩
    have hLt := (hAhead seg hSeg).1
    rw [UInt32.le_iff_toNat_le] at hLe
    omega
  · rintro ⟨seg, hSeg, hTimedOut⟩
    have hBetween := hAhead seg hSeg
    rw [Sender.hasTimedOut_iff, UInt32.toNat_sub] at hTimedOut
    have hDeadline := seg.metadata.resendts.toNat_lt
    omega

/-- The two tests agree exactly when some segment has timed out on this side of the wrap,
or when no wrap lies between the clock and any deadline. -/
theorem timeoutsAgree_iff (hSome : buffer.sndBuf ≠ [])
    (hNear : ∀ seg ∈ buffer.sndBuf,
      (timeDelta seg.metadata.resendts settings.current).toInt.natAbs ≤ 2 ^ 31 - 1) :
    buffer.TimeoutsAgree settings ↔
      (∃ seg ∈ buffer.sndBuf, seg.metadata.resendts.toNat ≤ settings.current.toNat ∧
        settings.current.toNat < seg.metadata.resendts.toNat + 2 ^ 31) ∨
      ∀ seg ∈ buffer.sndBuf, seg.metadata.resendts.toNat < settings.current.toNat + 2 ^ 31 ∧
        settings.current.toNat < seg.metadata.resendts.toNat + 2 ^ 31 := by
  have hTimedOut := fun seg hSeg => Sender.hasTimedOut_iff_of_near (hNear seg hSeg)
  constructor
  · rintro ⟨hAgree, -⟩
    rw [SenderBuffer.getEarliestTransmitDelta_eq_zero_iff] at hAgree
    by_cases hHere : ∃ seg ∈ buffer.sndBuf, seg.metadata.resendts.toNat ≤ settings.current.toNat ∧
        settings.current.toNat < seg.metadata.resendts.toNat + 2 ^ 31
    · exact .inl hHere
    · refine .inr fun seg hSeg => ?_
      have hDeadline := seg.metadata.resendts.toNat_lt
      have hCurrent := settings.current.toNat_lt
      have hNotHere : ∀ other ∈ buffer.sndBuf, other.metadata.resendts.toNat ≤
          settings.current.toNat →
          other.metadata.resendts.toNat + 2 ^ 31 ≤ settings.current.toNat := by
        intro other hOther hLe
        by_contra hRecent
        exact hHere ⟨other, hOther, hLe, by omega⟩
      constructor
      · -- a deadline in front of the wrap would be seen by the flush alone
        by_contra hFar
        obtain ⟨other, hOther, hLe⟩ :=
          hAgree.mpr ⟨seg, hSeg, (hTimedOut seg hSeg).mpr (.inr (Nat.le_of_not_lt hFar))⟩
        have hBehind := hNotHere other hOther (UInt32.le_iff_toNat_le.mp hLe)
        omega
      · -- and one behind the wrap by the loop alone
        by_contra hFar
        obtain ⟨other, hOther, hOut⟩ := hAgree.mp ⟨seg, hSeg, UInt32.le_iff_toNat_le.mpr (by omega)⟩
        have hOtherDeadline := other.metadata.resendts.toNat_lt
        rcases (hTimedOut other hOther).mp hOut with ⟨hLe, hRecent⟩ | hAhead
        · have hBehind := hNotHere other hOther hLe
          omega
        · omega
  · rintro (⟨seg, hSeg, hLe, hRecent⟩ | hNoWrap)
    · exact SenderBuffer.timeoutsAgree_of_due hSeg (UInt32.le_iff_toNat_le.mpr hLe)
        ((hTimedOut seg hSeg).mpr (.inl ⟨hLe, hRecent⟩))
    · by_cases hDue : ∃ seg ∈ buffer.sndBuf, seg.metadata.resendts ≤ settings.current
      · obtain ⟨seg, hSeg, hLe⟩ := hDue
        have hHere : Sender.hasTimedOut settings seg = true :=
          (hTimedOut seg hSeg).mpr (.inl ⟨UInt32.le_iff_toNat_le.mp hLe, (hNoWrap seg hSeg).2⟩)
        exact SenderBuffer.timeoutsAgree_of_due hSeg hLe hHere
      · refine SenderBuffer.timeoutsAgree_of_ahead hSome fun seg hSeg => ⟨?_, (hNoWrap seg hSeg).1⟩
        rw [← UInt32.lt_iff_toNat_lt, ← UInt32.not_le]
        exact fun hLe => hDue ⟨seg, hSeg, hLe⟩

end Agreement

/-- A buffer of segments with the given deadlines. -/
def SenderBuffer.ofDeadlines (deadlines : List UInt32) : SenderBuffer :=
  ⟨deadlines.map fun resendts => { ({} : Segment) with metadata := { resendts, xmit := 1 } }⟩

/-- What a flush of a default sender captures at the given time. -/
def Sender.FlushSettings.ofTime (current : UInt32) : Sender.FlushSettings where
  current
  wnd := 128
  rcvNxt := 0
  rto := 200
  resent := 0xffffffff
  rtomin := 25
  nodelay := 0
  fastlimit := Constants.ikcpFastackLimit
  deadLink := Constants.ikcpDeadlink

/-- Two deadlines ahead of the clock. -/
theorem timeoutsAgree_two : (SenderBuffer.ofDeadlines [325, 225]).TimeoutsAgree (.ofTime 100) :=
  (timeoutsAgree_iff (by decide) (by decide)).mpr (.inr (by decide))

/-- A deadline behind the wrap is not reached yet, but the loop takes it for the past. -/
theorem timeouts_differ :
    ¬∀ (buffer : SenderBuffer) (settings : Sender.FlushSettings), buffer.sndBuf ≠ [] →
      (∀ seg ∈ buffer.sndBuf,
        (timeDelta seg.metadata.resendts settings.current).toInt.natAbs ≤ 2 ^ 31 - 1) →
      buffer.TimeoutsAgree settings := by
  intro hAll
  obtain ⟨hZero, -⟩ := hAll (.ofDeadlines [5]) (.ofTime 4294967286) (by decide) (by decide)
  obtain ⟨seg, hSeg, hTimedOut⟩ := hZero.mp (by decide)
  obtain rfl := List.mem_singleton.mp hSeg
  exact absurd hTimedOut (by decide)

namespace ImKcpp

section Query

variable {s : ImKcpp mtu} {now : UInt32}

/-- `update` flushes behind the deadline, or more than ten seconds in front of it. -/
theorem flushes_update_iff (hUpdated : s.updated = true) :
    s.flushes (.update now) = true ↔
      0 ≤ (timeDelta now s.tsFlush).toInt ∨ (timeDelta now s.tsFlush).toInt < -10000 := by
  have hZero : (0 : Int32).toInt = 0 := rfl
  have hHigh : (10000 : Int32).toInt = 10000 := rfl
  have hLow : (-10000 : Int32).toInt = -10000 := rfl
  change (s.updateClock now).2 = true ↔ _
  rw [updateClock_running hUpdated]
  by_cases hJumped : timeDelta now s.tsFlush ≥ 10000 ∨ timeDelta now s.tsFlush < -10000
  · rw [if_pos hJumped]
    rw [timeDelta_ge_iff, timeDelta_lt_iff, hHigh, hLow, ← timeDelta_eq_difference] at hJumped
    exact iff_of_true rfl (by omega)
  · rw [if_neg hJumped]
    rw [timeDelta_ge_iff, timeDelta_lt_iff, hHigh, hLow, ← timeDelta_eq_difference] at hJumped
    by_cases hPassed : timeDelta now s.tsFlush ≥ 0
    · rw [if_pos hPassed]
      rw [timeDelta_ge_iff, hZero, ← timeDelta_eq_difference] at hPassed
      exact iff_of_true rfl (.inl hPassed)
    · rw [if_neg hPassed]
      rw [timeDelta_ge_iff, hZero, ← timeDelta_eq_difference] at hPassed
      exact iff_of_false Bool.false_ne_true (by omega)

/-- Between an interval and the time left, `check` waits for nothing only if a segment is due. -/
theorem wait_eq_zero_iff {interval left : UInt32} (earliest : Option UInt32)
    (hInterval : 0 < interval.toNat) (hLeft : 0 < left.toNat) :
    min interval (match earliest with
      | some delta => if delta < left then delta else left
      | none => left) = 0 ↔ earliest = some 0 := by
  rw [← UInt32.toNat_inj, toNat_min, UInt32.toNat_zero]
  cases earliest with
  | none =>
      refine iff_of_false ?_ nofun
      dsimp only
      omega
  | some delta =>
      rw [Option.some_inj, ← UInt32.toNat_inj, UInt32.toNat_zero]
      dsimp only
      split_ifs with hEarlier
      · omega
      · rw [UInt32.lt_iff_toNat_lt] at hEarlier
        omega

/-- `check` answers with the present behind the deadline, from ten seconds in front of it,
and whenever a segment is due as a plain word. -/
theorem check_eq_now_iff (hUpdated : s.updated = true) (hInterval : 10 ≤ s.sharedCtx.interval.toNat)
    (hDefined : -2 ^ 31 < (timeDelta now s.tsFlush).toInt) :
    (s.check now).2 = now ↔
      0 ≤ (timeDelta now s.tsFlush).toInt ∨ (timeDelta now s.tsFlush).toInt ≤ -10000 ∨
        ∃ seg ∈ s.senderBuffer.sndBuf, seg.metadata.resendts ≤ now := by
  have hZero : (0 : Int32).toInt = 0 := rfl
  have hHigh : (10000 : Int32).toInt = 10000 := rfl
  have hAbs := WrappingClock.toInt_abs hDefined
  have hNow : timeDelta now now ≥ 0 := by
    rw [timeDelta, UInt32.sub_self]
    decide
  unfold ImKcpp.check
  simp only [hUpdated, Bool.not_true, Bool.false_eq_true, if_false]
  by_cases hJumped : Int32.abs (timeDelta now s.tsFlush) ≥ 10000
  · rw [if_pos hJumped, if_pos hNow]
    rw [ge_iff_le, Int32.le_iff_toInt_le, hAbs, hHigh] at hJumped
    exact iff_of_true rfl (by omega)
  · rw [if_neg hJumped]
    rw [ge_iff_le, Int32.le_iff_toInt_le, hAbs, hHigh] at hJumped
    by_cases hPassed : timeDelta now s.tsFlush ≥ 0
    · rw [if_pos hPassed]
      rw [timeDelta_ge_iff, hZero, ← timeDelta_eq_difference] at hPassed
      exact iff_of_true rfl (.inl hPassed)
    · rw [if_neg hPassed]
      rw [timeDelta_ge_iff, hZero, ← timeDelta_eq_difference] at hPassed
      have hLeft : 0 < (s.tsFlush - now).toNat := by
        have hNat := WrappingClock.toNat_of_difference_neg (Int.not_le.mp hPassed)
        rw [← timeDelta_eq_difference] at hNat
        omega
      have hAhead : 0 ≤ (timeDelta s.tsFlush now).toInt := by
        have hNat := WrappingClock.toNat_of_difference_neg (Int.not_le.mp hPassed)
        rw [← timeDelta_eq_difference] at hNat
        rw [timeDelta_eq_difference, WrappingClock.toInt_difference_of_ahead (by omega)]
        exact Int.natCast_nonneg _
      rw [toUInt32_max_zero_timeDelta hAhead]
      dsimp only
      rw [UInt32.add_eq_left]
      refine (wait_eq_zero_iff _ (by omega) hLeft).trans ?_
      rw [SenderBuffer.getEarliestTransmitDelta_eq_zero_iff]
      refine ⟨fun hDue => .inr (.inr hDue), fun hEither => ?_⟩
      rcases hEither with hBehind | hFar | hDue
      · omega
      · omega
      · exact hDue

end Query

end ImKcpp

/-- `check` asks for an `update` at once exactly when this `update` would flush, unless the
deadline is ten seconds ahead, or it is nearer and a segment is due as a plain word. -/
theorem check_agrees_iff {party : Party mtu}
    (hReach : (endpointSystem host mtu conv).Reachable party)
    (hUpdated : party.endpoint.updated = true) {now : UInt32}
    (hDefined : now ≠ party.endpoint.tsFlush + 2147483648) :
    ((party.endpoint.check now).2 = now ↔ party.endpoint.flushes (.update now) = true) ↔
      (timeDelta now party.endpoint.tsFlush).toInt ≠ -10000 ∧
        ¬(-10000 < (timeDelta now party.endpoint.tsFlush).toInt ∧
          (timeDelta now party.endpoint.tsFlush).toInt < 0 ∧
          ∃ seg ∈ party.endpoint.senderBuffer.sndBuf, seg.metadata.resendts ≤ now) := by
  have hLeast : -2 ^ 31 < (timeDelta now party.endpoint.tsFlush).toInt := by
    have hNow := now.toNat_lt
    have hFlush := party.endpoint.tsFlush.toNat_lt
    have hTurn : (2147483648 : UInt32).toNat = 2 ^ 31 := by decide
    have hHalf : now.toNat ≠ (party.endpoint.tsFlush + 2147483648).toNat :=
      fun hSame => hDefined (UInt32.toNat_inj.mp hSame)
    rw [UInt32.toNat_add, hTurn] at hHalf
    rw [timeDelta, WrappingClock.toInt_toInt32, UInt32.toNat_sub]
    split_ifs <;> omega
  rw [ImKcpp.check_eq_now_iff hUpdated (interval_of_reachable hReach).1 hLeast,
    ImKcpp.flushes_update_iff hUpdated]
  by_cases hDue : ∃ seg ∈ party.endpoint.senderBuffer.sndBuf, seg.metadata.resendts ≤ now
  · simp only [hDue, or_true, and_true, true_iff]
    omega
  · simp only [hDue, or_false, and_false, not_false_eq_true, and_true]
    omega

/-- The calls behind a segment that is sent before its timer. -/
def pollingCalls : List Call := [.update 0, .send [1], .flush, .update 100, .update 200]

/-- Ten milliseconds in front of the flush, and further from the timeout of a segment. -/
theorem check_agrees_in_flight :
    ∃ party : Party .least,
      (Party.fresh .least 0).run Host.x8664
        [.configure (.congestionWindowEnabled false), .send [1], .update 0] = .ok party ∧
      party.endpoint.senderBuffer.sndBuf.map (fun seg => seg.metadata.resendts) = [225] ∧
      ((party.endpoint.check 90).2 = 90 ↔ party.endpoint.flushes (.update 90) = true) := by
  have hTimers : ((Party.fresh .least 0).run Host.x8664
      [.configure (.congestionWindowEnabled false), .send [1], .update 0]).map (fun party =>
        (party.endpoint.updated, party.endpoint.tsFlush,
          party.endpoint.senderBuffer.sndBuf.map fun seg => seg.metadata.resendts)) =
      .ok (true, 100, [225]) := by decide +kernel
  obtain ⟨party, hRun, hState⟩ := map_eq_ok.mp hTimers
  simp only [Prod.mk.injEq] at hState
  obtain ⟨hUpdated, hDeadline, hTimes⟩ := hState
  refine ⟨party, hRun, hTimes,
    (check_agrees_iff (Party.reachable_run (.of_init rfl) hRun) hUpdated ?_).mpr ⟨?_, ?_⟩⟩
  · rw [hDeadline]
    decide
  · rw [hDeadline]
    decide
  · -- The only deadline of the buffer is still ahead.
    rintro ⟨-, -, seg, hSeg, hPassed⟩
    have hTime : seg.metadata.resendts ∈ [225] := hTimes ▸ List.mem_map_of_mem hSeg
    rw [List.mem_singleton.mp hTime] at hPassed
    exact absurd hPassed (by decide)

/-- A segment that is due in front of the flush makes `check` ask for an `update` that
does nothing. -/
theorem check_asks_in_vain :
    ¬∀ (mtu : Mtu) (host : Host) (conv : UInt32) (party : Party mtu),
      (endpointSystem host mtu conv).Reachable party → party.endpoint.updated = true →
      ∀ now : UInt32, now ≠ party.endpoint.tsFlush + 2147483648 →
        ((party.endpoint.check now).2 = now ↔ party.endpoint.flushes (.update now) = true) := by
  intro hAll
  have hTimers : ((Party.fresh .least 0).run Host.x8664 pollingCalls).map (fun party =>
      (party.endpoint.updated, party.endpoint.tsFlush, (party.endpoint.check 250).2,
        party.endpoint.flushes (.update 250))) = .ok (true, 300, 250, false) := by decide +kernel
  obtain ⟨party, hRun, hState⟩ := map_eq_ok.mp hTimers
  obtain ⟨hUpdated, hRest⟩ := Prod.mk.inj hState
  obtain ⟨hDeadline, hRest⟩ := Prod.mk.inj hRest
  obtain ⟨hNow, hIdle⟩ := Prod.mk.inj hRest
  have hAgree :=
    hAll .least Host.x8664 0 party (Party.reachable_run (.of_init rfl) hRun) hUpdated 250
    (by rw [hDeadline]; decide)
  rw [hAgree.mp hNow] at hIdle
  exact absurd hIdle (by decide)

end Imkcpp
