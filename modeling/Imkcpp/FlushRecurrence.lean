import Imkcpp.FairLinks

/-! Flushes along a run without end. As long as the clock goes on, flushes come again
and again, close enough to each other that no deadline is jumped over. -/
namespace Imkcpp

open Transition Filter Recurrence

variable {mtu : Mtu} {host : Host} {conv : UInt32}

namespace ImKcpp

/-- How long it is to the next flush on the clock of the last `update`. -/
def ahead (s : ImKcpp mtu) : ℕ := (s.tsFlush - s.current).toNat

/-- The timer runs, and the next flush is near. -/
structure Near (s : ImKcpp mtu) : Prop where
  updated : s.updated = true
  ahead_pos : 0 < s.ahead
  ahead_le : s.ahead ≤ 10000

/-- An endpoint behind the clock work of a call. -/
def clocked (s : ImKcpp mtu) : Call → ImKcpp mtu
  | .update now => (s.updateClock now).1
  | _ => s

theorem updateClock_current (s : ImKcpp mtu) (now : UInt32) :
    (s.updateClock now).1.current = now := by
  unfold updateClock
  dsimp only
  split_ifs <;> rfl

theorem clocked_eq {s : ImKcpp mtu} {call : Call} (h : ¬∃ now, call = .update now) :
    s.clocked call = s := by
  cases call with
  | update now => exact absurd ⟨now, rfl⟩ h
  | _ => rfl

/-- Only `update` works the clock, as long as `check` is not called. -/
theorem Invariant.perform_clock {s : ImKcpp mtu} (h : s.Invariant) {call : Call}
    {outcome : Outcome mtu} (hOutcome : s.perform host call = .ok outcome) (hSteady : call.Steady) :
    outcome.state.updated = (s.clocked call).updated ∧
      outcome.state.current = (s.clocked call).current ∧
      outcome.state.tsFlush = (s.clocked call).tsFlush := by
  have hFlush {start next : ImKcpp mtu} {datagrams : List (List UInt8)} {result : FlushResult}
      (hFlush : start.flush host = .ok (next, datagrams, result)) :
      next.updated = start.updated ∧ next.current = start.current ∧
        next.tsFlush = start.tsFlush := by
    cases hUpdated : start.updated with
    | false =>
        rw [flush_idle host hUpdated] at hFlush
        obtain ⟨rfl, -⟩ := Prod.mk.inj (Except.ok.inj hFlush)
        exact ⟨hUpdated, rfl, rfl⟩
    | true =>
        obtain ⟨_, _, _, _, rfl, -⟩ := flush_shape hUpdated hFlush
        exact ⟨hUpdated, rfl, rfl⟩
  cases call with
  | configure => cases hSteady
  | check => cases hSteady
  | input data =>
      obtain ⟨result, hInput⟩ := perform_input hOutcome
      have hFold := foldl_applyFrame_eq (fun s : ImKcpp mtu => (s.updated, s.current, s.tsFlush))
        (fun s frame => by
          unfold ImKcpp.applyFrame ImKcpp.applyPush
          dsimp only
          split_ifs <;> rfl) (scan host s.sharedCtx.conv data).1 s
      obtain ⟨hUpdated, hClock⟩ := Prod.mk.inj hFold
      obtain ⟨hCurrent, hDeadline⟩ := Prod.mk.inj hClock
      rcases input_folded hInput with hState | ⟨ctx, hState⟩ <;>
        (rw [hState]; exact ⟨hUpdated, hCurrent, hDeadline⟩)
  | recv buffer =>
      cases h.effect hOutcome with
      | recvRefused => exact ⟨rfl, rfl, rfl⟩
      | recv => exact ⟨rfl, rfl, rfl⟩
      | idle call start hStart => cases hStart
      | flush call start next packets result askSend askTell hStart => cases hStart
  | send buffer =>
      cases h.effect hOutcome with
      | sendRefused => exact ⟨rfl, rfl, rfl⟩
      | send => exact ⟨rfl, rfl, rfl⟩
      | idle call start hStart => cases hStart
      | flush call start next packets result askSend askTell hStart => cases hStart
  | update now =>
      obtain ⟨⟨next, datagrams, result⟩, hUpdate, hReturn⟩ := bind_eq_ok.mp hOutcome
      obtain rfl := Except.ok.inj hReturn
      have hEq : s.update host now = if (s.updateClock now).2 then (s.updateClock now).1.flush host
        else .ok ((s.updateClock now).1, [], {}) := rfl
      rw [hEq] at hUpdate
      split_ifs at hUpdate
      · exact hFlush hUpdate
      · obtain ⟨rfl, -⟩ := Prod.mk.inj (Except.ok.inj hUpdate)
        exact ⟨rfl, rfl, rfl⟩
  | flush =>
      obtain ⟨⟨next, datagrams, result⟩, hReturns, hReturn⟩ := bind_eq_ok.mp hOutcome
      obtain rfl := Except.ok.inj hReturn
      exact hFlush hReturns

/-- Behind an `update` the next flush is near, and other calls leave the timer alone. -/
theorem Invariant.perform_near {s : ImKcpp mtu} (h : s.Invariant) {call : Call}
    {outcome : Outcome mtu} (hOutcome : s.perform host call = .ok outcome) (hSteady : call.Steady)
    (hGe : 10 ≤ s.sharedCtx.interval.toNat) (hLe : s.sharedCtx.interval.toNat ≤ 5000)
    (hSome : s.Near ∨ ∃ now, call = .update now) : outcome.state.Near := by
  obtain ⟨hUpdated, hCurrent, hDeadline⟩ := h.perform_clock hOutcome hSteady
  have hNear : (s.clocked call).Near → outcome.state.Near := fun hNear =>
    ⟨hUpdated.trans hNear.updated, by unfold ahead; rw [hDeadline, hCurrent]; exact hNear.ahead_pos,
      by unfold ahead; rw [hDeadline, hCurrent]; exact hNear.ahead_le⟩
  apply hNear
  by_cases hUpdate : ∃ now, call = .update now
  · obtain ⟨now, rfl⟩ := hUpdate
    obtain ⟨left, hDue, -⟩ := s.updateClock_due now hGe hLe
    have hAhead : (s.updateClock now).1.ahead = left := by
      rw [ahead, updateClock_current]
      exact hDue.ahead_eq
    exact ⟨hDue.updated, by rw [clocked, hAhead]; exact hDue.positive,
      by rw [clocked, hAhead]; exact hDue.le⟩
  · rw [clocked_eq hUpdate]
    exact hSome.resolve_right hUpdate

/-- An `update` before the deadline only lets the time go by. -/
theorem Near.updateClock_idle {s : ImKcpp mtu} (h : s.Near) {now : UInt32}
    (hIdle : s.flushes (.update now) = false) (hSlow : (now - s.current).toNat ≤ 2 ^ 30) :
    s.ahead = (s.updateClock now).1.ahead + (now - s.current).toNat := by
  have hZero : (0 : Int32).toInt = 0 := rfl
  have hLow : (-10000 : Int32).toInt = -10000 := rfl
  rcases updateClock_cases h.updated now with ⟨hClock, hAhead, hNear⟩ | ⟨tsFlush, hClock, -⟩
  · rw [timeDelta_ge_iff, hZero] at hAhead
    rw [timeDelta_lt_iff, hLow] at hNear
    have hLeft := WrappingClock.toNat_of_difference_neg (Int.not_le.mp hAhead)
    have hTurn := WrappingClock.toNat_sub_eq_add s.tsFlush now s.current
    have hLe := h.ahead_le
    rw [hClock]
    unfold ahead at hLe ⊢
    dsimp only
    omega
  · have hDue : s.flushes (.update now) = true := congrArg Prod.snd hClock
    rw [hIdle] at hDue
    cases hDue

end ImKcpp

namespace FairRun

variable {run : FairRun host mtu conv} {side : Side} {i : ℕ}

/-- The time that goes by on the clock of a side. -/
def elapsed (run : FairRun host mtu conv) (side : Side) (i : ℕ) : ℕ :=
  ((run.net (i + 1) side).endpoint.current - (run.net i side).endpoint.current).toNat

/-- The side flushes. -/
def Flushes (run : FairRun host mtu conv) (side : Side) (i : ℕ) : Prop :=
  run.moving i = side ∧ (run.net i side).endpoint.flushes (run.call i) = true

/-- Only an `update` of the side works its clock. -/
theorem clock_succ (run : FairRun host mtu conv) (side : Side) (i : ℕ) :
    (∃ now, run.moving i = side ∧ run.call i = .update now ∧
      (run.net (i + 1) side).endpoint.current = now ∧
      (run.net (i + 1) side).endpoint.ahead = ((run.net i side).endpoint.updateClock now).1.ahead) ∨
    (¬∃ now, run.moving i = side ∧ run.call i = .update now) ∧
      (run.net (i + 1) side).endpoint.current = (run.net i side).endpoint.current ∧
      (run.net (i + 1) side).endpoint.ahead = (run.net i side).endpoint.ahead := by
  by_cases hMoving : run.moving i = side
  · obtain ⟨-, hCurrent, hDeadline⟩ :=
      (run.invariant i side).perform_clock (perform hMoving) (run.steady i)
    unfold ImKcpp.ahead
    rw [endpoint_succ hMoving, hCurrent, hDeadline]
    by_cases hUpdate : ∃ now, run.call i = .update now
    · obtain ⟨now, hCall⟩ := hUpdate
      rw [hCall]
      exact .inl ⟨now, hMoving, rfl, ImKcpp.updateClock_current _ now, rfl⟩
    · rw [ImKcpp.clocked_eq hUpdate]
      exact .inr ⟨fun ⟨now, _, hCall⟩ => hUpdate ⟨now, hCall⟩, rfl, rfl⟩
  · rw [net_succ_other hMoving]
    exact .inr ⟨fun ⟨_, hSame, _⟩ => hMoving hSame, rfl, rfl⟩

theorem near_succ
    (h : (run.net i side).endpoint.Near ∨ ∃ now, run.moving i = side ∧ run.call i = .update now) :
    (run.net (i + 1) side).endpoint.Near := by
  by_cases hMoving : run.moving i = side
  · obtain ⟨hGe, hLe⟩ := interval_of_reachable (run.party i side)
    rw [endpoint_succ hMoving]
    exact (run.invariant i side).perform_near (perform hMoving) (run.steady i) hGe hLe
      (h.imp_right fun ⟨now, _, hCall⟩ => ⟨now, hCall⟩)
  · rw [net_succ_other hMoving]
    exact h.resolve_right fun ⟨_, hSame, _⟩ => hMoving hSame

/-- From the first `update` on the next flush is near. -/
theorem eventually_near (run : FairRun host mtu conv) (side : Side) :
    ∀ᶠ i in atTop, (run.net i side).endpoint.Near := by
  refine eventually_of_kept (.of_forall fun i hNear => near_succ (.inl hNear))
    (frequently_atTop.mpr fun bound => ?_)
  obtain ⟨i, hi, hMoving, now, hCall⟩ := frequently_atTop.mp (run.updates side) bound
  exact ⟨i + 1, hi.trans (Nat.le_succ i), near_succ (.inr ⟨now, hMoving, hCall⟩)⟩

theorem elapsed_le (hNear : (run.net i side).endpoint.Near) : run.elapsed side i ≤ 2 ^ 30 := by
  unfold elapsed
  rcases run.clock_succ side i with ⟨now, rfl, hCall, hCurrent, -⟩ | ⟨-, hCurrent, -⟩
  · rw [hCurrent]
    exact (run.clock i now hCall hNear.updated).2
  · rw [hCurrent, UInt32.sub_self]
    exact Nat.zero_le _

theorem elapsed_pos (hNear : (run.net i side).endpoint.Near)
    (hUpdate : ∃ now, run.moving i = side ∧ run.call i = .update now) : 0 < run.elapsed side i := by
  unfold elapsed
  rcases run.clock_succ side i with ⟨now, rfl, hCall, hCurrent, -⟩ | ⟨hNone, -⟩
  · rw [hCurrent]
    exact (run.clock i now hCall hNear.updated).1
  · exact absurd hUpdate hNone

/-- Without a flush the next one only comes nearer. -/
theorem ahead_succ (hNear : (run.net i side).endpoint.Near) (hIdle : ¬run.Flushes side i) :
    (run.net i side).endpoint.ahead = (run.net (i + 1) side).endpoint.ahead +
      run.elapsed side i := by
  rcases run.clock_succ side i with ⟨now, hMoving, hCall, hCurrent, hAhead⟩ | ⟨-, hCurrent, hAhead⟩
  · have hWaits : (run.net i side).endpoint.flushes (.update now) = false := by
      rw [← hCall]
      exact Bool.not_eq_true _ ▸ fun hFlushes => hIdle ⟨hMoving, hFlushes⟩
    have hSlow := elapsed_le hNear
    unfold elapsed at hSlow ⊢
    rw [hCurrent] at hSlow ⊢
    rw [hAhead]
    exact hNear.updateClock_idle hWaits hSlow
  · rw [elapsed, hCurrent, UInt32.sub_self, hAhead]
    rfl

/-- Flushes come again and again. -/
theorem flushes_frequently (run : FairRun host mtu conv) (side : Side) :
    ∃ᶠ i in atTop, run.Flushes side i := by
  intro hNever
  have hNear := run.eventually_near side
  refine no_descent (f := fun i => (run.net i side).endpoint.ahead) ?_ ?_
  · filter_upwards [hNever, hNear] with i hIdle hNear
    have hAhead := ahead_succ hNear hIdle
    omega
  · refine (run.updates side).mp ?_
    filter_upwards [hNever, hNear] with i hIdle hNear hUpdate
    obtain ⟨hMoving, now, hCall⟩ := hUpdate
    have hAhead := ahead_succ hNear hIdle
    have hPositive := elapsed_pos hNear ⟨now, hMoving, hCall⟩
    omega

/-- How long it is to ten seconds behind a deadline. -/
def remaining (run : FairRun host mtu conv) (side : Side) (deadline : UInt32) (i : ℕ) : ℕ :=
  (deadline + 10000 - (run.net i side).endpoint.current).toNat

/-- The next flush lies in front of that point, and is not the point half a turn away. -/
structure Approaches (run : FairRun host mtu conv) (side : Side) (deadline : UInt32)
    (i : ℕ) : Prop where
  near : (run.net i side).endpoint.Near
  ahead_le : (run.net i side).endpoint.ahead ≤ run.remaining side deadline i
  le : run.remaining side deadline i ≤ 2 ^ 31 + 10000

/-- A flush in front of the deadline. -/
theorem approaches_of_early {deadline : UInt32} (hNear : (run.net i side).endpoint.Near)
    (hEarly : (timeDelta (run.net i side).endpoint.current deadline).toInt < 0) :
    run.Approaches side deadline i := by
  have hLeft := WrappingClock.toNat_of_difference_neg hEarly
  have hHalf := Int32.le_toInt (WrappingClock.difference (run.net i side).endpoint.current deadline)
  have hTurn := WrappingClock.toNat_sub_eq_add (deadline + 10000) deadline
    (run.net i side).endpoint.current
  have hTen : (deadline + 10000 - deadline).toNat = 10000 := by
    rw [UInt32.add_comm, UInt32.add_sub_cancel]
    rfl
  have hNext := hNear.ahead_le
  rw [← timeDelta_eq_difference] at hLeft hHalf
  refine ⟨hNear, ?_, ?_⟩ <;>
    · unfold remaining
      omega

/-- As long as no flush passes the deadline, the time runs up to it. -/
theorem Approaches.succ {deadline : UInt32} (h : run.Approaches side deadline i)
    (hEarly : run.Flushes side i →
      (timeDelta (run.net (i + 1) side).endpoint.current deadline).toInt < 0) :
    run.Approaches side deadline (i + 1) ∧
      run.remaining side deadline i = run.remaining side deadline (i + 1) + run.elapsed side i := by
  have hNear : (run.net (i + 1) side).endpoint.Near := near_succ (.inl h.near)
  have hTurn : run.remaining side deadline i =
      (run.remaining side deadline (i + 1) + run.elapsed side i) % 2 ^ 32 :=
    WrappingClock.toNat_sub_eq_add _ _ _
  have hSlow := elapsed_le h.near
  have hWord : run.remaining side deadline (i + 1) < 2 ^ 32 := UInt32.toNat_lt _
  have hAheadLe := h.ahead_le
  have hLe := h.le
  by_cases hFlushes : run.Flushes side i
  · have hNext := approaches_of_early hNear (hEarly hFlushes)
    have hNextLe := hNext.le
    exact ⟨hNext, by omega⟩
  · have hAhead := ahead_succ h.near hFlushes
    have hPositive := hNear.ahead_pos
    exact ⟨⟨hNear, by omega, by omega⟩, by omega⟩

/-- Whatever the deadline, flushes pass it again and again. -/
theorem due_frequently (run : FairRun host mtu conv) (side : Side) (deadline : UInt32) :
    ∃ᶠ i in atTop, run.Flushes side i ∧
      0 ≤ (timeDelta (run.net (i + 1) side).endpoint.current deadline).toInt := by
  intro hNever
  have hEarly : ∀ᶠ i in atTop, run.Flushes side i →
      (timeDelta (run.net (i + 1) side).endpoint.current deadline).toInt < 0 :=
    hNever.mono fun i hNot hFlushes => Int.not_le.mp fun hDue => hNot ⟨hFlushes, hDue⟩
  have hApproaches : ∀ᶠ i in atTop, run.Approaches side deadline i := by
    refine eventually_of_kept (hEarly.mono fun i hFlush h => (h.succ hFlush).1)
      (frequently_atTop.mpr fun bound => ?_)
    obtain ⟨i, hi, hFlushes, hNear, hBefore⟩ := frequently_atTop.mp
      ((run.flushes_frequently side).and_eventually ((run.eventually_near side).and hEarly)) bound
    exact ⟨i + 1, hi.trans (Nat.le_succ i),
      approaches_of_early (near_succ (.inl hNear)) (hBefore hFlushes)⟩
  refine no_descent (f := run.remaining side deadline) ?_ ?_
  · filter_upwards [hApproaches, hEarly] with i h hFlush
    have hLeft := (h.succ hFlush).2
    omega
  · refine (run.updates side).mp ?_
    filter_upwards [hApproaches, hEarly] with i h hFlush hUpdate
    obtain ⟨hMoving, now, hCall⟩ := hUpdate
    have hLeft := (h.succ hFlush).2
    have hPositive := elapsed_pos h.near ⟨now, hMoving, hCall⟩
    omega

end FairRun

end Imkcpp
