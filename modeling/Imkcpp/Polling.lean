import Imkcpp.Configuration
import Imkcpp.Effect

/-! Calling `update` only when `check` says so. Between two flushes an `update` does
nothing but note the time, and `check` never names a time behind the next flush;
so nothing is lost by sleeping until then, as long as both agree on the deadline. -/
namespace Imkcpp

open Transition

variable {mtu : Mtu} {host : Host}

namespace ImKcpp

/-- An `update`, with what it flushes if it does. -/
def tick (host : Host) (s : ImKcpp mtu) (now : UInt32) :
    Except Fault (ImKcpp mtu × Option (List (List UInt8) × FlushResult)) := do
  let (next, datagrams, result) ← s.update host now
  return (next, if s.flushes (.update now) then some (datagrams, result) else none)

/-- What is flushed in each of the next milliseconds when `update` is called in
every one of them. -/
def updateAlways (host : Host) :
    Nat → UInt32 → ImKcpp mtu → Except Fault (List (Option (List (List UInt8) × FlushResult)))
  | 0, _, _ => .ok []
  | horizon + 1, now, s => do
    let (s, flushed) ← s.tick host (now + 1)
    let later ← updateAlways host horizon (now + 1) s
    return flushed :: later

/-- How long to sleep according to `check`, and at least a millisecond. -/
def sleep (s : ImKcpp mtu) (now : UInt32) : ImKcpp mtu × Nat :=
  let (s, next) := s.check now
  (s, max (next - now).toNat 1)

/-- What is flushed in each of the next milliseconds when `update` is called only
after sleeping; `left` is what is left of the sleep. -/
def updateWhenDue (host : Host) :
    Nat → Nat → UInt32 → ImKcpp mtu → Except Fault (List (Option (List (List UInt8) × FlushResult)))
  | 0, _, _, _ => .ok []
  | horizon + 1, left, now, s =>
    if left > 1 then do
      let later ← updateWhenDue host horizon (left - 1) (now + 1) s
      return none :: later
    else do
      let (s, flushed) ← s.tick host (now + 1)
      let (s, left) := s.sleep (now + 1)
      let later ← updateWhenDue host horizon left (now + 1) s
      return flushed :: later

section Deadline

/-- An endpoint that has been updated, with a flush due in so many milliseconds. -/
structure Due (s : ImKcpp mtu) (now : UInt32) (ahead : Nat) : Prop where
  updated : s.updated = true
  interval_ge : 10 ≤ s.sharedCtx.interval.toNat
  interval_le : s.sharedCtx.interval.toNat ≤ 5000
  ahead_eq : (s.tsFlush - now).toNat = ahead
  positive : 0 < ahead
  le : ahead ≤ 10000

variable {s : ImKcpp mtu} {now : UInt32} {ahead : Nat}

theorem Due.toInt_timeDelta (h : s.Due now ahead) :
    (timeDelta now s.tsFlush).toInt = -(ahead : Int) := by
  rw [timeDelta_eq_difference, ← h.ahead_eq]
  apply WrappingClock.toInt_difference_of_behind
  · rw [h.ahead_eq]
    exact h.positive
  · rw [h.ahead_eq]
    exact h.le.trans (by decide)

/-- Before the deadline, `update` notes the time. -/
theorem Due.updateClock (h : s.Due now ahead) :
    s.updateClock now = ({ s with current := now }, false) := by
  have hBehind := h.toInt_timeDelta
  have hPositive := h.positive
  have hLe := h.le
  have hZero : (0 : Int32).toInt = 0 := rfl
  have hHigh : (10000 : Int32).toInt = 10000 := rfl
  have hLow : (-10000 : Int32).toInt = -10000 := rfl
  have hNegative : ¬timeDelta now s.tsFlush ≥ 0 := by
    rw [ge_iff_le, Int32.le_iff_toInt_le, hBehind, hZero]
    omega
  have hJumped : ¬(timeDelta now s.tsFlush ≥ 10000 ∨ timeDelta now s.tsFlush < -10000) := by
    rw [ge_iff_le, Int32.le_iff_toInt_le, Int32.lt_iff_toInt_lt, hBehind, hHigh, hLow]
    omega
  rw [updateClock_running h.updated, if_neg hJumped, if_neg hNegative]

/-- Time goes by. -/
theorem Due.later (h : s.Due now ahead) {left : Nat} (hLeft : ahead = left + 1) (hSome : 0 < left) :
    s.Due (now + 1) left := by
  have hAhead := h.ahead_eq
  have hLe := h.le
  refine ⟨h.updated, h.interval_ge, h.interval_le, ?_, hSome, by omega⟩
  have hDeadline := s.tsFlush.toNat_lt
  have hNow := now.toNat_lt
  rw [UInt32.toNat_sub] at hAhead ⊢
  rw [UInt32.toNat_add, UInt32.toNat_one]
  omega

/-- The ways of `update`, once the timer runs. -/
theorem updateClock_cases (hUpdated : s.updated = true) (now : UInt32) :
    (s.updateClock now = ({ s with current := now }, false) ∧
      ¬timeDelta now s.tsFlush ≥ 0 ∧ ¬timeDelta now s.tsFlush < -10000) ∨
    ∃ tsFlush, s.updateClock now = ({ s with current := now, tsFlush }, true) ∧
      (tsFlush = now + s.sharedCtx.interval ∨ tsFlush = s.tsFlush + s.sharedCtx.interval ∧
        timeDelta now s.tsFlush ≥ 0 ∧ ¬timeDelta now s.tsFlush ≥ 10000 ∧
          ¬timeDelta now tsFlush ≥ 0) := by
  rw [updateClock_running hUpdated]
  by_cases hJumped : timeDelta now s.tsFlush ≥ 10000 ∨ timeDelta now s.tsFlush < -10000
  · rw [if_pos hJumped]
    exact .inr ⟨_, rfl, .inl rfl⟩
  · rw [if_neg hJumped]
    obtain ⟨hHigh, hLow⟩ := not_or.mp hJumped
    by_cases hPassed : timeDelta now s.tsFlush ≥ 0
    · rw [if_pos hPassed]
      refine .inr ⟨_, rfl, ?_⟩
      split_ifs with hNext
      · exact .inl rfl
      · exact .inr ⟨rfl, hPassed, hHigh, hNext⟩
    · rw [if_neg hPassed]
      exact .inl ⟨rfl, hPassed, hLow⟩

theorem timeDelta_ge_iff (later earlier : UInt32) (bound : Int32) :
    timeDelta later earlier ≥ bound ↔
      bound.toInt ≤ (WrappingClock.difference later earlier).toInt :=
  Int32.le_iff_toInt_le

theorem timeDelta_lt_iff (later earlier : UInt32) (bound : Int32) :
    timeDelta later earlier < bound ↔
      (WrappingClock.difference later earlier).toInt < bound.toInt :=
  Int32.lt_iff_toInt_lt

/-- Behind `update` the next deadline is ahead, and near if a flush has been due. -/
theorem updateClock_due (s : ImKcpp mtu) (now : UInt32) (hGe : 10 ≤ s.sharedCtx.interval.toNat)
    (hLe : s.sharedCtx.interval.toNat ≤ 5000) :
    ∃ ahead, (s.updateClock now).1.Due now ahead ∧
      ((s.updateClock now).2 = true → ahead ≤ 5000) := by
  suffices hRunning : ∀ s : ImKcpp mtu, s.updated = true → 10 ≤ s.sharedCtx.interval.toNat →
      s.sharedCtx.interval.toNat ≤ 5000 →
      ∃ ahead, (s.updateClock now).1.Due now ahead ∧
        ((s.updateClock now).2 = true → ahead ≤ 5000) by
    cases hUpdated : s.updated with
    | true => exact hRunning s hUpdated hGe hLe
    | false =>
        rw [updateClock_first hUpdated]
        exact hRunning _ rfl hGe hLe
  intro s hUpdated hGe hLe
  have hZero : (0 : Int32).toInt = 0 := rfl
  have hHigh : (10000 : Int32).toInt = 10000 := rfl
  have hLow : (-10000 : Int32).toInt = -10000 := rfl
  rcases updateClock_cases hUpdated now with ⟨hClock, hAhead, hNear⟩ |
      ⟨tsFlush, hClock, rfl | ⟨rfl, hPassed, hRecent, hNext⟩⟩
  · rw [hClock]
    rw [timeDelta_ge_iff, hZero] at hAhead
    rw [timeDelta_lt_iff, hLow] at hNear
    have hLeft := WrappingClock.toNat_of_difference_neg (Int.not_le.mp hAhead)
    exact ⟨_, ⟨hUpdated, hGe, hLe, rfl, by dsimp only; omega, by dsimp only; omega⟩, by simp⟩
  · rw [hClock]
    refine ⟨s.sharedCtx.interval.toNat, ⟨hUpdated, hGe, hLe, ?_, by omega, by omega⟩, fun _ => hLe⟩
    dsimp only
    rw [UInt32.add_comm, UInt32.add_sub_cancel]
  · rw [hClock]
    rw [timeDelta_ge_iff, hZero] at hPassed hNext
    rw [timeDelta_ge_iff, hHigh] at hRecent
    have hAgo := WrappingClock.toNat_of_difference_nonneg hPassed
    have hLeft := WrappingClock.toNat_of_difference_neg (Int.not_le.mp hNext)
    have hSum : (s.tsFlush + s.sharedCtx.interval - now).toNat + (now - s.tsFlush).toNat =
        s.sharedCtx.interval.toNat := by
      have hHalf := Int32.le_toInt (WrappingClock.difference now (s.tsFlush + s.sharedCtx.interval))
      have hWords : s.tsFlush + s.sharedCtx.interval - now + (now - s.tsFlush) =
          s.sharedCtx.interval := by
        apply UInt32.toBitVec_inj.mp
        simp only [UInt32.toBitVec_sub, UInt32.toBitVec_add]
        bv_omega
      have hNat := congrArg UInt32.toNat hWords
      rw [UInt32.toNat_add, Nat.mod_eq_of_lt (by omega)] at hNat
      exact hNat
    exact ⟨_, ⟨hUpdated, hGe, hLe, rfl, by dsimp only; omega, by dsimp only; omega⟩,
      fun _ => by dsimp only; omega⟩

/-- The time left to a deadline that is ahead. -/
theorem toUInt32_max_zero_timeDelta {deadline now : UInt32}
    (hAhead : 0 ≤ (timeDelta deadline now).toInt) :
    (max 0 (timeDelta deadline now)).toUInt32 = deadline - now := by
  have hZero : (0 : Int32).toInt = 0 := rfl
  have hMax : max 0 (timeDelta deadline now) =
      if 0 ≤ timeDelta deadline now then timeDelta deadline now else 0 := rfl
  rw [hMax, if_pos, timeDelta, UInt32.toUInt32_toInt32]
  rw [Int32.le_iff_toInt_le, hZero]
  exact hAhead

/-- `check` names a time up to the deadline, and leaves an endpoint alone whose
deadline is near. -/
theorem Due.check (h : s.Due now ahead) (hNear : ahead < 10000) :
    ∃ next, s.check now = (s, next) ∧ (next - now).toNat ≤ ahead := by
  have hBehind := h.toInt_timeDelta
  have hPositive := h.positive
  have hZero : (0 : Int32).toInt = 0 := rfl
  have hHigh : (10000 : Int32).toInt = 10000 := rfl
  have hJumped : ¬Int32.abs (timeDelta now s.tsFlush) ≥ 10000 := by
    rw [ge_iff_le, Int32.le_iff_toInt_le, WrappingClock.toInt_abs (by omega), hBehind, hHigh]
    omega
  have hNegative : ¬timeDelta now s.tsFlush ≥ 0 := by
    rw [ge_iff_le, Int32.le_iff_toInt_le, hBehind, hZero]
    omega
  have hForward : (timeDelta s.tsFlush now).toInt = (ahead : Int) := by
    rw [timeDelta_eq_difference, WrappingClock.toInt_difference_of_ahead, h.ahead_eq]
    rw [h.ahead_eq]
    omega
  have hNextFlush := toUInt32_max_zero_timeDelta (hForward ▸ Int.natCast_nonneg ahead)
  unfold ImKcpp.check
  simp only [h.updated, Bool.not_true, Bool.false_eq_true, if_false, hJumped, hNegative, hNextFlush]
  refine ⟨_, rfl, ?_⟩
  rw [UInt32.add_comm, UInt32.add_sub_cancel, toNat_min]
  refine (Nat.min_le_right _ _).trans ?_
  rw [← h.ahead_eq]
  split
  · split_ifs with hEarlier
    · exact Nat.le_of_lt (UInt32.lt_iff_toNat_lt.mp hEarlier)
    · exact Nat.le_refl _
  · exact Nat.le_refl _

/-- A deadline exactly at the limit counts as a jump of the clock. -/
theorem Due.check_limit (h : s.Due now 10000) : s.check now = ({ s with tsFlush := now }, now) := by
  have hBehind := h.toInt_timeDelta
  have hJumped : Int32.abs (timeDelta now s.tsFlush) ≥ 10000 := by
    have hHigh : (10000 : Int32).toInt = 10000 := rfl
    rw [ge_iff_le, Int32.le_iff_toInt_le, WrappingClock.toInt_abs (by omega), hBehind, hHigh]
    omega
  have hNow : timeDelta now now ≥ 0 := by
    rw [timeDelta, UInt32.sub_self]
    decide
  unfold ImKcpp.check
  simp only [h.updated, Bool.not_true, Bool.false_eq_true, if_false, if_pos hJumped, if_pos hNow]

/-- How long an endpoint whose deadline is near may sleep. -/
theorem Due.sleep (h : s.Due now ahead) (hNear : ahead < 10000) :
    ∃ left, s.sleep now = (s, left) ∧ 0 < left ∧ left ≤ ahead := by
  obtain ⟨next, hCheck, hNext⟩ := h.check hNear
  unfold ImKcpp.sleep
  rw [hCheck]
  exact ⟨_, rfl, Nat.zero_lt_one.trans_le (le_max_right _ _), max_le hNext h.positive⟩

end Deadline

section Tick

variable {s : ImKcpp mtu} {now : UInt32} {ahead : Nat}

theorem tick_eq (host : Host) (s : ImKcpp mtu) (now : UInt32) :
    s.tick host now = if (s.updateClock now).2 then do
        let (next, datagrams, result) ← (s.updateClock now).1.flush host
        return (next, some (datagrams, result))
      else .ok ((s.updateClock now).1, none) := by
  unfold ImKcpp.tick ImKcpp.update ImKcpp.flushes
  cases hDue : (s.updateClock now).2 with
  | true => simp only [hDue, if_true]
  | false => simp only [hDue, Bool.false_eq_true, if_false, ok_bind, pure_eq_ok]

theorem Due.tick (h : s.Due now ahead) :
    s.tick host now = .ok ({ s with current := now }, none) := by
  rw [tick_eq, h.updateClock]
  rfl

/-- A flush leaves the deadline where it is. -/
theorem Due.flush (h : s.Due now ahead) {next : ImKcpp mtu} {datagrams : List (List UInt8)}
    {result : FlushResult} (hFlush : s.flush host = .ok (next, datagrams, result)) :
    next.Due now ahead := by
  obtain ⟨hUpdated, hDeadline, hInterval⟩ := flush_clock h.updated hFlush
  refine { h with updated := hUpdated, interval_ge := ?_, interval_le := ?_, ahead_eq := ?_ }
  · rw [hInterval]
    exact h.interval_ge
  · rw [hInterval]
    exact h.interval_le
  · rw [hDeadline]
    exact h.ahead_eq

/-- Right after an `update` a flush is due within ten seconds. -/
theorem due_of_update {next : ImKcpp mtu} {datagrams : List (List UInt8)} {result : FlushResult}
    (hGe : 10 ≤ s.sharedCtx.interval.toNat) (hLe : s.sharedCtx.interval.toNat ≤ 5000)
    (h : s.update host now = .ok (next, datagrams, result)) : ∃ ahead, next.Due now ahead := by
  obtain ⟨ahead, hAhead, -⟩ := s.updateClock_due now hGe hLe
  have hUpdate : s.update host now = if (s.updateClock now).2 then (s.updateClock now).1.flush host
      else .ok ((s.updateClock now).1, [], {}) := rfl
  refine ⟨ahead, ?_⟩
  rw [hUpdate] at h
  split_ifs at h
  · exact hAhead.flush h
  · obtain ⟨rfl, -⟩ := Prod.mk.inj (Except.ok.inj h)
    exact hAhead

/-- A flush that is due is executed, and the next one is near. -/
theorem Invariant.tick (h : s.Invariant) (host : Host) (hGe : 10 ≤ s.sharedCtx.interval.toNat)
    (hLe : s.sharedCtx.interval.toNat ≤ 5000) (hDue : (s.updateClock now).2 = true) :
    ∃ next flushed ahead, s.tick host now = .ok (next, some flushed) ∧ next.Invariant ∧
      next.Due now ahead ∧ ahead < 10000 := by
  have hStart := s.updateClock_start now
  obtain ⟨ahead, hAhead, hNear⟩ := s.updateClock_due now hGe hLe
  have hInvariant := hStart.invariant h
  obtain ⟨next, packets, result, askSend, askTell, hFlush, hFlushed⟩ :=
    flush_spec host hInvariant.toSending hAhead.updated
  refine ⟨next, (packets.map (wire host), result), ahead, ?_, hFlushed.invariant hInvariant,
    hAhead.flush hFlush, ?_⟩
  · rw [tick_eq, if_pos hDue, hFlush]
    rfl
  · have hClose := hNear hDue
    omega

/-- A passed deadline lets `update` flush. -/
theorem updateClock_snd_of_passed (hUpdated : s.updated = true)
    (hPassed : timeDelta now s.tsFlush ≥ 0) :
    (s.updateClock now).2 = true := by
  rcases updateClock_cases hUpdated now with ⟨-, hAhead, -⟩ | ⟨tsFlush, hClock, -⟩
  · exact absurd hPassed hAhead
  · rw [hClock]

theorem Due.updateClock_last (h : s.Due now 1) : (s.updateClock (now + 1)).2 = true := by
  have hDeadline : s.tsFlush = now + 1 := by
    have hOne : s.tsFlush - now = 1 := UInt32.toNat_inj.mp h.ahead_eq
    rw [← hOne, UInt32.add_comm, UInt32.sub_add_cancel]
  refine updateClock_snd_of_passed h.updated ?_
  rw [hDeadline, timeDelta, UInt32.sub_self]
  decide

theorem updateAlways_succ {next : ImKcpp mtu} {flushed : Option (List (List UInt8) × FlushResult)}
    {later : List (Option (List (List UInt8) × FlushResult))} {horizon : Nat}
    (hTick : s.tick host (now + 1) = .ok (next, flushed))
    (hLater : next.updateAlways host horizon (now + 1) = .ok later) :
    s.updateAlways host (horizon + 1) now = .ok (flushed :: later) := by
  rw [updateAlways, hTick, ok_bind]
  dsimp only
  rw [hLater]
  rfl

/-- A millisecond of sleep. -/
theorem updateWhenDue_asleep {later : List (Option (List (List UInt8) × FlushResult))}
    {horizon left : Nat} (hAsleep : left > 1)
    (hLater : s.updateWhenDue host horizon (left - 1) (now + 1) = .ok later) :
    s.updateWhenDue host (horizon + 1) left now = .ok (none :: later) := by
  rw [updateWhenDue, if_pos hAsleep, hLater]
  rfl

/-- The end of a sleep, and the next one. -/
theorem updateWhenDue_awake {next : ImKcpp mtu} {flushed : Option (List (List UInt8) × FlushResult)}
    {later : List (Option (List (List UInt8) × FlushResult))} {horizon left sleep : Nat}
    (hAwake : ¬left > 1) (hTick : s.tick host (now + 1) = .ok (next, flushed))
    (hSleep : next.sleep (now + 1) = (next, sleep))
    (hLater : next.updateWhenDue host horizon sleep (now + 1) = .ok later) :
    s.updateWhenDue host (horizon + 1) left now = .ok (flushed :: later) := by
  rw [updateWhenDue, if_neg hAwake, hTick, ok_bind]
  dsimp only
  rw [hSleep]
  dsimp only
  rw [hLater]
  rfl

/-- Only the deadline counts: whether sleeping or not, the flushes are the same. -/
theorem Due.agree (h : s.Due now ahead) (hInvariant : s.Invariant)
    (hNear : ahead < 10000) {left : Nat} (hSome : 0 < left) (hLeft : left ≤ ahead)
    (current : UInt32) (horizon : Nat) :
    ∃ log, s.updateAlways host horizon now = .ok log ∧
      ({ s with current } : ImKcpp mtu).updateWhenDue host horizon left now = .ok log := by
  induction horizon generalizing s now ahead left current with
  | zero => exact ⟨[], rfl, rfl⟩
  | succ horizon ih =>
      -- what `current` was does not matter to an `update`
      have hTick : ({ s with current } : ImKcpp mtu).tick host (now + 1) = s.tick host (now + 1) :=
        rfl
      by_cases hLast : ahead = 1
      · subst hLast
        obtain ⟨next, flushed, again, hNext, hNextInvariant, hDue, hClose⟩ :=
          hInvariant.tick host h.interval_ge h.interval_le h.updateClock_last
        obtain ⟨sleep, hSleep, hSleepSome, hSleepLe⟩ := hDue.sleep hClose
        obtain ⟨log, hAlways, hWhenDue⟩ :=
          ih hDue hNextInvariant hClose hSleepSome hSleepLe next.current
        exact ⟨some flushed :: log, updateAlways_succ hNext hAlways,
          updateWhenDue_awake (Nat.not_lt.mpr hLeft) (hTick.trans hNext) hSleep hWhenDue⟩
      · obtain ⟨left', rfl⟩ : ∃ left', ahead = left' + 1 :=
          ⟨ahead - 1, by have := h.positive; omega⟩
        have hLater := h.later rfl (by omega)
        have hNoted : ({ s with current := now + 1 } : ImKcpp mtu).Due (now + 1) left' :=
          { hLater with }
        have hKept : ({ s with current := now + 1 } : ImKcpp mtu).Invariant := { hInvariant with }
        by_cases hAsleep : left > 1
        · have hStill : 0 < left - 1 := by omega
          obtain ⟨log, hAlways, hWhenDue⟩ := ih hNoted hKept (by omega) hStill (by omega) current
          exact ⟨none :: log, updateAlways_succ hLater.tick hAlways,
            updateWhenDue_asleep hAsleep hWhenDue⟩
        · obtain ⟨sleep, hSleep, hSleepSome, hSleepLe⟩ := hNoted.sleep (by omega)
          obtain ⟨log, hAlways, hWhenDue⟩ :=
            ih hNoted hKept (by omega) hSleepSome hSleepLe (now + 1)
          exact ⟨none :: log, updateAlways_succ hLater.tick hAlways,
            updateWhenDue_awake hAsleep (hTick.trans hLater.tick) hSleep hWhenDue⟩

/-- A `check` exactly ten seconds ahead moves the deadline here, and the flush that it
brings is one that updating in every millisecond does not make. -/
theorem Due.disagree (h : s.Due now 10000) (hInvariant : s.Invariant) (host : Host) :
    ∃ flushed, s.updateAlways host 1 now = .ok [none] ∧
      (s.sleep now).1.updateWhenDue host 1 (s.sleep now).2 now = .ok [some flushed] := by
  have hLater : s.Due (now + 1) 9999 := h.later rfl (by decide)
  have hSleep : s.sleep now = ({ s with tsFlush := now }, 1) := by
    unfold ImKcpp.sleep
    rw [h.check_limit]
    dsimp only
    rw [UInt32.sub_self]
    rfl
  have hPassed : (({ s with tsFlush := now } : ImKcpp mtu).updateClock (now + 1)).2 = true := by
    refine updateClock_snd_of_passed h.updated ?_
    dsimp only
    rw [timeDelta, UInt32.add_comm, UInt32.add_sub_cancel]
    decide
  have hMoved : ({ s with tsFlush := now } : ImKcpp mtu).Invariant := { hInvariant with }
  obtain ⟨after, flushed, ahead, hTick, -, hDue, hClose⟩ :=
    hMoved.tick host h.interval_ge h.interval_le hPassed
  obtain ⟨sleep, hAgain, -, -⟩ := hDue.sleep hClose
  refine ⟨flushed, updateAlways_succ hLater.tick rfl, ?_⟩
  rw [hSleep]
  exact updateWhenDue_awake (Nat.lt_irrefl 1) hTick hAgain rfl

end Tick

section Interval

/-- `set_interval` keeps to these bounds. -/
theorem clamp_interval (value : UInt32) :
    10 ≤ (clamp value 10 5000).toNat ∧ (clamp value 10 5000).toNat ≤ 5000 := by
  have hLow : (10 : UInt32).toNat = 10 := rfl
  have hHigh : (5000 : UInt32).toNat = 5000 := rfl
  unfold clamp
  split_ifs with hBelow hAbove
  · exact ⟨by decide, by decide⟩
  · exact ⟨by decide, by decide⟩
  · rw [UInt32.lt_iff_toNat_lt, hLow] at hBelow
    rw [UInt32.lt_iff_toNat_lt, hHigh] at hAbove
    omega

/-- What a call does to the interval that schedules the flushes. -/
theorem Invariant.perform_sharedCtx_interval {s : ImKcpp mtu} (h : s.Invariant) {call : Call}
    {outcome : Outcome mtu} (hOutcome : s.perform host call = .ok outcome) :
    outcome.state.sharedCtx.interval =
      (call.interval.map fun value => clamp value 10 5000).getD s.sharedCtx.interval := by
  obtain ⟨hTuned, -⟩ := h.perform_tuned hOutcome
  rw [hTuned]
  cases call with
  | configure setting => cases setting <;> rfl
  | input data => exact congrArg SharedCtx.interval (foldl_applyFrame_sharedCtx _ s)
  | _ => rfl

/-- Every call keeps the flush interval within the bounds. -/
theorem perform_interval {s : ImKcpp mtu} (hInvariant : s.Invariant) {call : Call}
    {outcome : Outcome mtu} (hOutcome : s.perform host call = .ok outcome)
    (h : 10 ≤ s.sharedCtx.interval.toNat ∧ s.sharedCtx.interval.toNat ≤ 5000) :
    10 ≤ outcome.state.sharedCtx.interval.toNat ∧
      outcome.state.sharedCtx.interval.toNat ≤ 5000 := by
  rw [hInvariant.perform_sharedCtx_interval hOutcome]
  cases call.interval with
  | none => exact h
  | some value => exact clamp_interval value

end Interval

end ImKcpp

/-- The flush interval of an endpoint, whatever calls have been made. -/
theorem interval_of_reachable {conv : UInt32} {party : Party mtu}
    (hReach : (endpointSystem host mtu conv).Reachable party) :
    10 ≤ party.endpoint.sharedCtx.interval.toNat ∧
      party.endpoint.sharedCtx.interval.toNat ≤ 5000 := by
  refine hReach.invariant (P := fun party => 10 ≤ party.endpoint.sharedCtx.interval.toNat ∧
    party.endpoint.sharedCtx.interval.toNat ≤ 5000) ?_ ?_
  · rintro party rfl
    show 10 ≤ Constants.ikcpInterval.toNat ∧ Constants.ikcpInterval.toNat ≤ 5000
    decide
  · rintro party next hReach hInterval ⟨call, outcome, hOutcome, rfl⟩
    exact ImKcpp.perform_interval (invariant_of_reachable hReach) hOutcome hInterval

/-- The times of the updates so far. -/
def Party.updateTimes (party : Party mtu) : List UInt32 :=
  party.calls.filterMap fun
    | .update current => some current
    | _ => none

/-- Right after an `update`, sleeping as `check` says loses nothing over any horizon
if and only if the next flush is not exactly ten seconds away. -/
theorem sleeping_loses_nothing_iff {conv : UInt32} {party : Party mtu}
    (hReach : (endpointSystem host mtu conv).Reachable party) {now : UInt32} {outcome : Outcome mtu}
    (hUpdate : party.endpoint.perform host (.update now) = .ok outcome) :
    (∀ horizon, ∃ log, outcome.state.updateAlways host horizon now = .ok log ∧
        (outcome.state.sleep now).1.updateWhenDue host horizon (outcome.state.sleep now).2 now =
          .ok log) ↔
      outcome.state.tsFlush ≠ now + 10000 := by
  have hInvariant :=
    ((invariant_of_reachable hReach).effect hUpdate).invariant (invariant_of_reachable hReach)
  obtain ⟨hGe, hLe⟩ := interval_of_reachable hReach
  obtain ⟨⟨next, datagrams, result⟩, hNext, hState⟩ := bind_eq_ok.mp hUpdate
  obtain rfl := Except.ok.inj hState
  obtain ⟨ahead, hDue⟩ := ImKcpp.due_of_update hGe hLe hNext
  dsimp only at hInvariant ⊢
  constructor
  · intro hAll hLimit
    have hAhead : ahead = 10000 := by
      rw [← hDue.ahead_eq, hLimit, UInt32.add_comm, UInt32.add_sub_cancel]
      rfl
    subst hAhead
    obtain ⟨log, hAlways, hWhenDue⟩ := hAll 1
    obtain ⟨flushed, hQuiet, hFlushed⟩ := hDue.disagree hInvariant host
    obtain rfl := Except.ok.inj (hQuiet.symm.trans hAlways)
    exact absurd (List.cons.inj (Except.ok.inj (hFlushed.symm.trans hWhenDue))).1 (by simp)
  · intro hLimit horizon
    have hNear : ahead < 10000 := by
      refine lt_of_le_of_ne hDue.le fun hAhead => hLimit ?_
      have hWords : next.tsFlush - now = 10000 := UInt32.toNat_inj.mp (hDue.ahead_eq.trans hAhead)
      rw [← hWords, UInt32.add_comm, UInt32.sub_add_cancel]
    obtain ⟨left, hSleep, hSome, hLeft⟩ := hDue.sleep hNear
    rw [hSleep]
    exact hDue.agree hInvariant hNear hSome hLeft next.current horizon

/-- With a segment in flight, which a later flush sends again. -/
theorem sleeping_loses_nothing_in_flight :
    ∃ (party : Party .least) (outcome : Outcome .least),
      (Party.fresh .least 0).run Host.x8664
        [.configure (.congestionWindowEnabled false), .send [1]] = .ok party ∧
      party.endpoint.perform Host.x8664 (.update 0) = .ok outcome ∧
      outcome.state.senderBuffer.getFirstSequenceNumberInFlight = some 0 ∧
      ∀ horizon, ∃ log, outcome.state.updateAlways Host.x8664 horizon 0 = .ok log ∧
        (outcome.state.sleep 0).1.updateWhenDue Host.x8664 horizon (outcome.state.sleep 0).2 0 =
          .ok log := by
  have hRuns : (Party.fresh .least 0).run Host.x8664
      [.configure (.congestionWindowEnabled false), .send [1]] >>= (fun party =>
        (party.endpoint.perform Host.x8664 (.update 0)).map fun outcome =>
          (outcome.state.senderBuffer.getFirstSequenceNumberInFlight, outcome.state.tsFlush)) =
      .ok (some 0, 100) := by
    decide +kernel
  obtain ⟨party, hRun, hUpdate⟩ := bind_eq_ok.mp hRuns
  obtain ⟨outcome, hOutcome, hFacts⟩ := map_eq_ok.mp hUpdate
  obtain ⟨hInFlight, hDeadline⟩ := Prod.mk.inj hFacts
  refine ⟨party, outcome, hRun, hOutcome, hInFlight, ?_⟩
  refine (sleeping_loses_nothing_iff (Party.reachable_run (.of_init rfl) hRun) hOutcome).mpr ?_
  rw [hDeadline]
  decide

/-- A `check` ten seconds ahead has moved the deadline, and the next one moves it back. -/
theorem sleeping_loses_nothing_moved :
    ¬∀ (mtu : Mtu) (host : Host) (conv : UInt32) (party : Party mtu),
      (endpointSystem host mtu conv).Reachable party → ∀ now : UInt32,
      (party.updateTimes ++ [now]).IsChain (fun earlier later => (later - earlier).toNat < 2 ^ 31) →
      ∀ outcome, party.endpoint.perform host (.update now) = .ok outcome →
        ∀ horizon, ∃ log, outcome.state.updateAlways host horizon now = .ok log ∧
          (outcome.state.sleep now).1.updateWhenDue host horizon (outcome.state.sleep now).2 now =
            .ok log := by
  intro hAll
  have hRuns : ((Party.fresh .least 0).run Host.x8664 [.update 0, .check 10100]).map (fun party =>
      (party.endpoint.perform Host.x8664 (.update 100)).map fun outcome =>
        ((outcome.state.updateAlways Host.x8664 1 100).map (List.map Option.isSome),
          ((outcome.state.sleep 100).1.updateWhenDue Host.x8664 1
            (outcome.state.sleep 100).2 100).map
            (List.map Option.isSome))) = .ok (.ok (.ok [false], .ok [true])) := by
    decide +kernel
  obtain ⟨party, hRun, hOutcomes⟩ := map_eq_ok.mp hRuns
  obtain ⟨outcome, hOutcome, hLogs⟩ := map_eq_ok.mp hOutcomes
  have hTimes : party.updateTimes = [0] := by
    rw [Party.updateTimes, Party.calls_run hRun]
    rfl
  obtain ⟨log, hAlways, hWhenDue⟩ :=
    hAll .least Host.x8664 0 party (Party.reachable_run (.of_init rfl) hRun)
    100 (by rw [hTimes]; decide) outcome hOutcome 1
  rw [hAlways, hWhenDue] at hLogs
  obtain ⟨hQuiet, hBusy⟩ := Prod.mk.inj hLogs
  cases hQuiet.symm.trans hBusy

end Imkcpp
