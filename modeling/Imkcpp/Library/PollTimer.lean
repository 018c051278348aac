import Mathlib.Data.List.Chain
import Mathlib.Data.List.Induction

/-! A timer with back-off that is looked at by polls. While it is needed it waits, fires at
the first poll at its deadline or behind it, and then waits anew; a poll that does not need
it resets it. How late it fires depends on the gaps between the polls. -/
namespace PollTimer

/-- How long to wait: at first, at most, and behind a wait of some length. -/
structure Schedule where
  first : ℕ
  limit : ℕ
  grow : ℕ → ℕ
  first_pos : 0 < first
  first_le : first ≤ limit
  grow_range : ∀ wait, first ≤ grow wait ∧ grow wait ≤ limit

/-- A timer that does not run waits for nothing. -/
structure Timer where
  wait : ℕ := 0
  deadline : ℕ := 0

/-- What is seen of a poll. -/
structure Poll where
  time : ℕ
  needed : Bool
  fires : Bool

/-- A poll that may need the timer, that may see it fire, and what it makes of it. -/
inductive Step (schedule : Schedule) (timer : Timer) (time : ℕ) : Bool → Bool → Timer → Prop where
  | reset : Step schedule timer time false false {}
  | begin (hIdle : timer.wait = 0) :
      Step schedule timer time true false ⟨schedule.first, time + schedule.first⟩
  | keep (hRuns : timer.wait ≠ 0) (hEarly : time < timer.deadline) :
      Step schedule timer time true false timer
  | fire (hRuns : timer.wait ≠ 0) (hDue : timer.deadline ≤ time) :
      Step schedule timer time true true ⟨schedule.grow timer.wait, time + schedule.grow timer.wait⟩

/-- The polls of a clock that does not go back and makes no larger gaps than `delta`. -/
inductive Polled (schedule : Schedule) (delta : ℕ) : List Poll → Timer → Prop where
  | start : Polled schedule delta [] {}
  | poll {log : List Poll} {timer next : Timer} (prior : Polled schedule delta log timer)
      (poll : Poll)
      (hClock : ∀ last ∈ log.getLast?, last.time ≤ poll.time ∧ poll.time ≤ last.time + delta)
      (hStep : Step schedule timer poll.time poll.needed poll.fires next) :
      Polled schedule delta (log ++ [poll]) next

/-- A running timer waits for as long as the schedule allows, and its deadline is ahead of
the last poll. -/
structure Running (schedule : Schedule) (log : List Poll) (timer : Timer) : Prop where
  first_le : schedule.first ≤ timer.wait
  le_limit : timer.wait ≤ schedule.limit
  deadline : ∃ last ∈ log.getLast?, last.time < timer.deadline ∧
    timer.deadline ≤ last.time + schedule.limit

variable {schedule : Schedule} {delta : ℕ} {log before between quiet : List Poll}
    {timer next : Timer}
  {start last poll : Poll}

theorem Step.running (hStep : Step schedule timer poll.time poll.needed poll.fires next)
    (hClock : ∀ last ∈ log.getLast?, last.time ≤ poll.time ∧ poll.time ≤ last.time + delta)
    (hTimer : timer.wait = 0 ∨ Running schedule log timer) :
    next.wait = 0 ∨ Running schedule (log ++ [poll]) next := by
  obtain ⟨time, needed, fires⟩ := poll
  have hFirst := schedule.first_pos
  cases hStep with
  | reset => exact .inl rfl
  | begin =>
      refine .inr ⟨Nat.le_refl _, schedule.first_le, _, List.getLast?_concat, ?_, ?_⟩
      · exact Nat.lt_add_of_pos_right hFirst
      · exact Nat.add_le_add_left schedule.first_le time
  | keep hRuns hEarly =>
      obtain ⟨hLow, hHigh, last, hLast, -, hDeadline⟩ := hTimer.resolve_left hRuns
      refine .inr ⟨hLow, hHigh, _, List.getLast?_concat, hEarly, ?_⟩
      exact hDeadline.trans (Nat.add_le_add_right (hClock last hLast).1 _)
  | fire =>
      obtain ⟨hLow, hHigh⟩ := schedule.grow_range timer.wait
      refine .inr ⟨hLow, hHigh, _, List.getLast?_concat, ?_, ?_⟩
      · exact Nat.lt_add_of_pos_right (hFirst.trans_le hLow)
      · exact Nat.add_le_add_left hHigh time

/-- A needed poll that does not see a running timer fire leaves it as it is. -/
theorem Step.keeps (hStep : Step schedule timer poll.time poll.needed poll.fires next)
    (hNeeded : poll.needed = true) (hSilent : poll.fires = false) (hRuns : timer.wait ≠ 0) :
    next = timer := by
  obtain ⟨time, needed, fires⟩ := poll
  obtain rfl : needed = true := hNeeded
  obtain rfl : fires = false := hSilent
  cases hStep with
  | begin hIdle => exact absurd hIdle hRuns
  | keep => rfl

namespace Polled

theorem running (h : Polled schedule delta log timer) : timer.wait = 0 ∨
    Running schedule log timer := by
  induction h with
  | start => exact .inl rfl
  | poll prior poll hClock hStep ih => exact hStep.running hClock ih

theorem chain (h : Polled schedule delta log timer) :
    log.IsChain fun earlier later => earlier.time ≤ later.time ∧
      later.time ≤ earlier.time + delta := by
  induction h with
  | start => exact .nil
  | poll prior poll hClock hStep ih =>
      refine List.isChain_append.mpr ⟨ih, .singleton poll, fun last hLast next hNext => ?_⟩
      obtain rfl : poll = next := Option.some.inj hNext
      exact hClock last hLast

/-- The last poll of a run, and the run before it. -/
theorem concat (h : Polled schedule delta (log ++ [poll]) next) :
    ∃ timer, Polled schedule delta log timer ∧
      (∀ last ∈ log.getLast?, last.time ≤ poll.time ∧ poll.time ≤ last.time + delta) ∧
      Step schedule timer poll.time poll.needed poll.fires next := by
  generalize hLog : log ++ [poll] = whole at h
  cases h with
  | start => simp at hLog
  | poll prior last hClock hStep =>
      obtain ⟨rfl, hLast⟩ := List.append_inj' hLog rfl
      obtain rfl := (List.cons.inj hLast).1
      exact ⟨_, prior, hClock, hStep⟩

theorem of_append {after : List Poll} (h : Polled schedule delta (log ++ after) next) :
    ∃ timer, Polled schedule delta log timer := by
  induction after using List.reverseRecOn generalizing next with
  | nil => exact ⟨next, by rwa [List.append_nil] at h⟩
  | append_singleton init last ih =>
      rw [← List.append_assoc] at h
      obtain ⟨timer, prior, -⟩ := h.concat
      exact ih prior

/-- The timer fires only where it is needed. -/
theorem needed_of_fires (h : Polled schedule delta log timer) : ∀ poll ∈ log, poll.fires = true →
    poll.needed = true := by
  induction h with
  | start => nofun
  | poll prior poll hClock hStep ih =>
      obtain ⟨time, needed, fires⟩ := poll
      simp only [List.forall_mem_append, List.forall_mem_singleton]
      refine ⟨ih, fun hFires => ?_⟩
      subst hFires
      cases hStep
      rfl

/-- A poll that does not need the timer leaves it idle. -/
theorem idle (h : Polled schedule delta log timer)
    (hLast : ∀ last ∈ log.getLast?, last.needed = false) :
    timer.wait = 0 := by
  cases h with
  | start => rfl
  | poll prior poll hClock hStep =>
      obtain ⟨time, needed, fires⟩ := poll
      obtain rfl : needed = false := hLast _ List.getLast?_concat
      cases hStep
      rfl

/-- A needed poll sees a running timer fire when its deadline has come, and it has come at
most by the gap between two polls before. -/
theorem fires_iff (h : Polled schedule delta (log ++ [poll]) next) (hNeeded : poll.needed = true) :
    ∃ timer, Polled schedule delta log timer ∧ (timer.wait ≠ 0 →
      (poll.fires = true ↔ timer.deadline ≤ poll.time) ∧ poll.time ≤ timer.deadline + delta) := by
  obtain ⟨timer, prior, hClock, hStep⟩ := h.concat
  refine ⟨timer, prior, fun hRuns => ?_⟩
  obtain ⟨-, -, last, hLast, hAhead, -⟩ := prior.running.resolve_left hRuns
  have hGap := (hClock last hLast).2
  obtain ⟨time, needed, fires⟩ := poll
  dsimp only at hNeeded hGap ⊢
  subst hNeeded
  cases hStep with
  | begin hIdle => exact absurd hIdle hRuns
  | keep hRuns hEarly => exact ⟨iff_of_false Bool.false_ne_true (Nat.not_le.mpr hEarly), by omega⟩
  | fire hRuns hDue => exact ⟨iff_of_true rfl hDue, by omega⟩

/-- Behind a firing the timer is idle, or its deadline is a first wait away at least. -/
theorem since_fired (h : Polled schedule delta (before ++ start :: between) timer)
    (hFired : start.fires = true) :
    (∀ last ∈ (before ++ start :: between).getLast?, start.time ≤ last.time) ∧
      (timer.wait = 0 ∨ start.time + schedule.first ≤ timer.deadline) := by
  induction between using List.reverseRecOn generalizing timer with
  | nil =>
      obtain ⟨prior, -, -, hStep⟩ := h.concat
      refine ⟨fun last hLast => ?_, .inr ?_⟩
      · rw [List.getLast?_concat] at hLast
        exact (congrArg Poll.time (Option.some.inj hLast)).le
      · obtain ⟨time, needed, fires⟩ := start
        obtain rfl : fires = true := hFired
        cases hStep with
        | fire hRuns hDue => exact Nat.add_le_add_left (schedule.grow_range prior.wait).1 time
  | append_singleton init poll ih =>
      rw [← List.cons_append, ← List.append_assoc] at h ⊢
      obtain ⟨prior, hPrior, hClock, hStep⟩ := h.concat
      obtain ⟨hTimes, hDeadline⟩ := ih hPrior
      have hLater : start.time ≤ poll.time := by
        obtain ⟨last, hLast⟩ : ∃ last, (before ++ start :: init).getLast? = some last :=
          Option.isSome_iff_exists.mp (by simp)
        exact (hTimes last hLast).trans (hClock last hLast).1
      refine ⟨fun last hLast => ?_, ?_⟩
      · rw [List.getLast?_concat] at hLast
        exact hLater.trans (congrArg Poll.time (Option.some.inj hLast)).le
      · obtain ⟨time, needed, fires⟩ := poll
        cases hStep with
        | reset => exact .inl rfl
        | begin => exact .inr (Nat.add_le_add_right hLater _)
        | keep => exact hDeadline
        | fire => exact .inr (Nat.add_le_add hLater (schedule.grow_range prior.wait).1)

/-- Any two firings are a first wait apart. -/
theorem apart (h : Polled schedule delta (before ++ start :: (between ++ [poll])) next)
    (hStart : start.fires = true) (hPoll : poll.fires = true) :
    start.time + schedule.first ≤ poll.time := by
  rw [← List.cons_append, ← List.append_assoc] at h
  obtain ⟨timer, prior, -, hStep⟩ := h.concat
  obtain ⟨-, hDeadline⟩ := prior.since_fired hStart
  obtain ⟨time, needed, fires⟩ := poll
  obtain rfl : fires = true := hPoll
  cases hStep with
  | fire hRuns hDue => exact (hDeadline.resolve_left hRuns).trans hDue

/-- The first poll that needs the timer starts it, and polls that do not see it fire leave
it as it is. -/
theorem since_begun (h : Polled schedule delta (before ++ start :: quiet) timer)
    (hBefore : ∀ last ∈ before.getLast?, last.needed = false) (hStart : start.needed = true)
    (hNeeded : ∀ poll ∈ quiet, poll.needed = true) (hQuiet : ∀ poll ∈ quiet, poll.fires = false) :
    start.fires = false ∧ timer = ⟨schedule.first, start.time + schedule.first⟩ := by
  induction quiet using List.reverseRecOn generalizing timer with
  | nil =>
      obtain ⟨prior, hPrior, -, hStep⟩ := h.concat
      have hIdle := hPrior.idle hBefore
      obtain ⟨time, needed, fires⟩ := start
      obtain rfl : needed = true := hStart
      cases hStep with
      | begin => exact ⟨rfl, rfl⟩
      | keep hRuns => exact absurd hIdle hRuns
      | fire hRuns => exact absurd hIdle hRuns
  | append_singleton init poll ih =>
      rw [← List.cons_append, ← List.append_assoc] at h
      obtain ⟨prior, hPrior, -, hStep⟩ := h.concat
      obtain ⟨hSilent, rfl⟩ :=
        ih hPrior (fun poll hPoll => hNeeded poll (List.mem_append_left _ hPoll))
        fun poll hPoll => hQuiet poll (List.mem_append_left _ hPoll)
      refine ⟨hSilent, ?_⟩
      exact hStep.keeps (hNeeded poll (by simp)) (hQuiet poll (by simp)) schedule.first_pos.ne'

/-- Behind a firing the deadline is the longest wait away at most, as long as the timer is
needed and does not fire again. -/
theorem since_last (h : Polled schedule delta (before ++ last :: quiet) timer)
    (hFired : last.fires = true) (hNeeded : ∀ poll ∈ quiet, poll.needed = true)
    (hQuiet : ∀ poll ∈ quiet, poll.fires = false) :
    timer.wait ≠ 0 ∧ timer.deadline ≤ last.time + schedule.limit := by
  induction quiet using List.reverseRecOn generalizing timer with
  | nil =>
      obtain ⟨prior, -, -, hStep⟩ := h.concat
      obtain ⟨time, needed, fires⟩ := last
      obtain rfl : fires = true := hFired
      cases hStep with
      | fire =>
          obtain ⟨hLow, hHigh⟩ := schedule.grow_range prior.wait
          exact ⟨(schedule.first_pos.trans_le hLow).ne', Nat.add_le_add_left hHigh time⟩
  | append_singleton init poll ih =>
      rw [← List.cons_append, ← List.append_assoc] at h
      obtain ⟨prior, hPrior, -, hStep⟩ := h.concat
      obtain ⟨hRuns, hDeadline⟩ :=
        ih hPrior (fun poll hPoll => hNeeded poll (List.mem_append_left _ hPoll))
        fun poll hPoll => hQuiet poll (List.mem_append_left _ hPoll)
      rw [hStep.keeps (hNeeded poll (by simp)) (hQuiet poll (by simp)) hRuns]
      exact ⟨hRuns, hDeadline⟩

/-- The first firing is at the first poll that is a first wait behind the one that started
the timer. -/
theorem first_fire (h : Polled schedule delta (before ++ start :: (quiet ++ [poll])) next)
    (hBefore : ∀ last ∈ before.getLast?, last.needed = false) (hStart : start.needed = true)
    (hNeeded : ∀ poll ∈ quiet, poll.needed = true) (hQuiet : ∀ poll ∈ quiet, poll.fires = false)
    (hPoll : poll.needed = true) :
    (poll.fires = true ↔ start.time + schedule.first ≤ poll.time) ∧
      poll.time ≤ start.time + schedule.first + delta := by
  rw [← List.cons_append, ← List.append_assoc] at h
  obtain ⟨timer, prior, hFires⟩ := h.fires_iff hPoll
  obtain ⟨-, rfl⟩ := prior.since_begun hBefore hStart hNeeded hQuiet
  exact hFires schedule.first_pos.ne'

/-- The next one is at the first poll that is the longest wait behind it, if not before. -/
theorem next_fire (h : Polled schedule delta (before ++ last :: (quiet ++ [poll])) next)
    (hFired : last.fires = true) (hNeeded : ∀ poll ∈ quiet, poll.needed = true)
    (hQuiet : ∀ poll ∈ quiet, poll.fires = false) (hPoll : poll.needed = true) :
    (last.time + schedule.limit ≤ poll.time → poll.fires = true) ∧
      poll.time ≤ last.time + schedule.limit + delta := by
  rw [← List.cons_append, ← List.append_assoc] at h
  obtain ⟨timer, prior, hFires⟩ := h.fires_iff hPoll
  obtain ⟨hRuns, hDeadline⟩ := prior.since_last hFired hNeeded hQuiet
  obtain ⟨hIff, hLate⟩ := hFires hRuns
  exact ⟨fun hLong => hIff.mpr (hDeadline.trans hLong),
    hLate.trans (Nat.add_le_add_right hDeadline delta)⟩

end Polled

end PollTimer
