import Imkcpp.Backoff
import Imkcpp.FlushPackets
import Imkcpp.Library.PollTimer
import Imkcpp.WindowAnnouncement

/-! Probing a closed remote window. The prober is a timer that the flushes poll: as long as
they see the window closed it makes them send a `WASK` after ever longer waits. Its deadline
is a word, which stands for a time as long as the flushes are not too far apart. -/
namespace Imkcpp

open Transition PollTimer

variable {mtu : Mtu} {host : Host} {conv : UInt32}

/-- What is seen of a flush: its time, the remote window, and how many `WASK`s it sends. -/
structure Probing where
  time : UInt32
  rmtWnd : UInt32
  wasks : ℕ
  deriving DecidableEq

def Event.probing (host : Host) (event : Event mtu) : Probing where
  time := event.flushTime
  rmtWnd := event.before.congestionController.rmtWnd
  wasks := commandCount Commands.wask (event.outcome.datagrams.flatMap (framesOf host))

/-- The executed flushes, in order. -/
def Party.probings (host : Host) (party : Party mtu) : List Probing :=
  (party.history.filter fun event => event.before.flushes event.call).map (Event.probing host)

theorem Party.probings_record (host : Host) (party : Party mtu) (call : Call)
    (outcome : Outcome mtu) :
    (party.record call outcome).probings host = party.probings host ++
      if party.endpoint.flushes call then
        [(⟨party.endpoint, call, outcome⟩ : Event mtu).probing host]
      else [] := by
  unfold Party.probings Party.record
  rw [List.filter_append, List.map_append]
  cases hFlushes : party.endpoint.flushes call with
  | true => simp [hFlushes]
  | false => simp [hFlushes]

namespace WindowProber

/-- The waits of the prober. -/
def schedule : Schedule where
  first := 7000
  limit := 120000
  grow wait := min 120000 (max 7000 wait + max 7000 wait / 2)
  first_pos := by decide
  first_le := by decide
  grow_range := fun wait => ⟨by omega, Nat.min_le_left _ _⟩

/-- The words of the prober stand for a timer, and no request is left over. -/
structure Represents (prober : WindowProber) (timer : Timer) : Prop where
  wait_eq : prober.probeWait.toNat = timer.wait
  deadline_eq : timer.wait ≠ 0 → prober.tsProbe = UInt32.ofNat timer.deadline
  unasked : prober.probe &&& ProbeFlag.askSend.value = 0

variable {prober next : WindowProber} {timer : Timer}

/-- Requests for announcements do not matter. -/
theorem Represents.tell (h : prober.Represents timer) :
    Represents { prober with probe := prober.probe ||| ProbeFlag.askTell.value } timer where
  wait_eq := h.wait_eq
  deadline_eq := h.deadline_eq
  unasked := by
    have hApart : ProbeFlag.askTell.value &&& ProbeFlag.askSend.value = 0 := by decide
    have hBoth : (prober.probe ||| ProbeFlag.askTell.value) &&& ProbeFlag.askSend.value =
        (prober.probe &&& ProbeFlag.askSend.value) |||
          (ProbeFlag.askTell.value &&& ProbeFlag.askSend.value) :=
      UInt32.toBitVec_inj.mp BitVec.and_or_distrib_right
    rw [hBoth, h.unasked, hApart]
    rfl

/-- The next wait, as the code computes it. -/
theorem toNat_backoff {wait : UInt32} (h : wait.toNat ≤ 120000) :
    let least := if wait < probeInit then probeInit else wait
    let longer := least + least / 2
    (if longer > probeLimit then probeLimit else longer).toNat = schedule.grow wait.toNat := by
  intro least longer
  have hInit : probeInit.toNat = 7000 := rfl
  have hLimit : probeLimit.toNat = 120000 := rfl
  have hTwo : (2 : UInt32).toNat = 2 := rfl
  have hLeast : least.toNat = max 7000 wait.toNat := by
    simp only [least, UInt32.lt_iff_toNat_lt, hInit]
    split_ifs <;> omega
  have hLonger : longer.toNat = least.toNat + least.toNat / 2 := by
    simp only [longer, UInt32.toNat_add, UInt32.toNat_div, hTwo]
    omega
  have hGrow : schedule.grow wait.toNat =
      min 120000 (max 7000 wait.toNat + max 7000 wait.toNat / 2) := rfl
  rw [hGrow, ← hLeast, ← hLonger]
  simp only [gt_iff_lt, UInt32.lt_iff_toNat_lt, hLimit]
  split_ifs <;> omega

/-- `WindowProber::update` is a poll of the timer. -/
theorem Represents.update (h : prober.Represents timer) {log : List Poll} {time delta : ℕ}
    {rmtWnd : UInt32} (hRunning : timer.wait = 0 ∨ Running schedule log timer)
    (hDelta : delta < 2 ^ 30)
    (hClock : ∀ last ∈ log.getLast?, last.time ≤ time ∧ time ≤ last.time + delta)
    (hUpdate : prober.update (UInt32.ofNat time) rmtWnd = .ok next) :
    ∃ after, Step schedule timer time (decide (rmtWnd = 0))
        ((next.probe &&& ProbeFlag.askSend.value) != 0) after ∧
          next.resetFlags.Represents after := by
  have hSilent : ((prober.probe &&& ProbeFlag.askSend.value) != 0) = false := by simp [h.unasked]
  unfold WindowProber.update at hUpdate
  by_cases hOpen : rmtWnd = 0
  · rw [if_neg (by simp [hOpen])] at hUpdate
    rw [decide_eq_true hOpen]
    by_cases hIdle : prober.probeWait = 0
    · rw [if_pos (by simp [hIdle])] at hUpdate
      obtain rfl := Except.ok.inj hUpdate
      dsimp only
      rw [hSilent]
      have hWait : timer.wait = 0 := by rw [← h.wait_eq, hIdle, UInt32.toNat_zero]
      refine ⟨_, .begin hWait, rfl, fun _ => ?_, UInt32.zero_and⟩
      exact (UInt32.ofNat_add _ _).symm
    · have hRuns : timer.wait ≠ 0 := by
        rw [← h.wait_eq, ne_eq, ← UInt32.toNat_zero, UInt32.toNat_inj]
        exact hIdle
      obtain ⟨-, hLimit, last, hLast, hAhead, hBehind⟩ := hRunning.resolve_left hRuns
      obtain ⟨hFrom, hTo⟩ := hClock last hLast
      -- The deadline is no further away than the longest wait, and no further behind than a gap.
      have hDue : timeDelta (UInt32.ofNat time) prober.tsProbe ≥ 0 ↔ timer.deadline ≤ time := by
        rw [ge_iff_le, Int32.le_iff_toInt_le, Int32.toInt_zero, h.deadline_eq hRuns]
        change timer.deadline ≤ last.time + 120000 at hBehind
        exact WrappingClock.difference_ofNat_nonneg_iff (by omega) (by omega)
      rw [if_neg (by simp [hIdle])] at hUpdate
      by_cases hReached : timer.deadline ≤ time
      · rw [if_pos (hDue.mpr hReached), setFlag_eq] at hUpdate
        have hNext := Except.ok.inj hUpdate
        have hAsked : next.Asked .askSend := asked_of_set (congrArg WindowProber.probe hNext).symm
        have hWait : next.probeWait.toNat = schedule.grow timer.wait := by
          rw [← hNext, ← h.wait_eq]
          exact toNat_backoff (h.wait_eq.trans_le hLimit)
        have hDeadline : next.tsProbe = UInt32.ofNat (time + schedule.grow timer.wait) := by
          rw [UInt32.ofNat_add, ← hWait, UInt32.ofNat_toNat]
          exact hNext ▸ rfl
        rw [bne_iff_ne.mpr hAsked]
        exact ⟨_, .fire hRuns hReached, hWait, fun _ => hDeadline, UInt32.zero_and⟩
      · rw [if_neg (mt hDue.mp hReached)] at hUpdate
        obtain rfl := Except.ok.inj hUpdate
        rw [hSilent]
        exact ⟨timer, .keep hRuns (Nat.lt_of_not_le hReached), h.wait_eq, h.deadline_eq,
          UInt32.zero_and⟩
  · rw [if_pos (by simp [hOpen])] at hUpdate
    obtain rfl := Except.ok.inj hUpdate
    dsimp only
    rw [decide_eq_false hOpen, hSilent]
    exact ⟨_, .reset, rfl, fun hRuns => absurd rfl hRuns, UInt32.zero_and⟩

end WindowProber

namespace ImKcpp

variable {s : ImKcpp mtu} {timer : Timer} {call : Call} {outcome : Outcome mtu}

/-- Only a flush polls the timer. -/
theorem Invariant.perform_represents (h : s.Invariant)
    (hOutcome : s.perform host call = .ok outcome) (hIdle : s.flushes call = false)
    (hProber : s.windowProber.Represents timer) :
    outcome.state.windowProber.Represents timer := by
  rcases h.perform_tells hOutcome hIdle with hSame | hTold
  · rwa [hSame]
  · rw [hTold]
    exact hProber.tell

/-- A flush polls it, and sends one `WASK` if it fires. -/
theorem Invariant.perform_polls (h : s.Invariant) (hOutcome : s.perform host call = .ok outcome)
    (hFlushes : s.flushes call = true) (hProber : s.windowProber.Represents timer) {log : List Poll}
    {time delta : ℕ}
    (hTime : UInt32.ofNat time = ((⟨s, call, outcome⟩ : Event mtu).probing host).time)
    (hRunning : timer.wait = 0 ∨ Running WindowProber.schedule log timer) (hDelta : delta < 2 ^ 30)
    (hClock : ∀ last ∈ log.getLast?, last.time ≤ time ∧ time ≤ last.time + delta) :
    let probing := (⟨s, call, outcome⟩ : Event mtu).probing host
    probing.wasks ≤ 1 ∧ ∃ after, Step WindowProber.schedule timer time (decide (probing.rmtWnd = 0))
      (decide (probing.wasks ≠ 0)) after ∧ outcome.state.windowProber.Represents after := by
  intro probing
  obtain ⟨start, packets, result, askSend, askTell, hStart, hUpdated, hFlush, hShape, hFlushed⟩ :=
    h.perform_flushes hOutcome hFlushes
  obtain ⟨prober, hUpdate, rfl, -⟩ := hFlushed.asks
  obtain ⟨same, hSame, hReset⟩ := flush_windowProber hUpdated hFlush
  obtain rfl : prober = same := Except.ok.inj (hUpdate.symm.trans hSame)
  have hWasks : probing.wasks =
      if (prober.probe &&& ProbeFlag.askSend.value) != 0 then 1 else 0 := by
    have hSending := (hStart.invariant h).toSending
    simp only [probing, Event.probing]
    rw [hShape]
    dsimp only
    rw [hFlushed.framesOf_eq hSending, hFlushed.frames_eq, hSending.commandCount_flushFrames]
    simp [Commands.wask, Commands.ack, Commands.wins, Commands.push]
  obtain ⟨hStored, hCurrent, hRmtWnd⟩ : start.windowProber = s.windowProber ∧
      start.current = probing.time ∧ start.congestionController.rmtWnd = probing.rmtWnd := by
    cases hStart <;> exact ⟨rfl, rfl, rfl⟩
  rw [hStored, hCurrent, hRmtWnd, ← hTime] at hUpdate
  obtain ⟨after, hStep, hAfter⟩ := hProber.update hRunning hDelta hClock hUpdate
  rw [← hReset] at hAfter
  rw [hWasks]
  refine ⟨?_, after, ?_, hAfter⟩
  · split_ifs <;> decide
  · convert hStep using 1
    cases (prober.probe &&& ProbeFlag.askSend.value) != 0 <;> rfl

end ImKcpp

/-- The readings of the clock do not go back and are no further apart than `delta`. -/
def Steady (delta : ℕ) (probings : List Probing) : Prop :=
  (probings.map Probing.time).IsChain fun earlier later => (later - earlier).toNat ≤ delta

/-- A flush as a poll shows it. -/
def Probing.seen (probing : Probing) : UInt32 × Bool × Bool :=
  (probing.time, decide (probing.rmtWnd = 0), decide (probing.wasks ≠ 0))

/-- A poll as the endpoint sees it. -/
def polled (poll : Poll) : UInt32 × Bool × Bool := (UInt32.ofNat poll.time, poll.needed, poll.fires)

section Runs

variable {delta : ℕ} {probings : List Probing} {log : List Poll}

/-- The next reading of the clock stands for a time behind the last poll. -/
theorem exists_time {probing : Probing} (hLog : log.map polled = probings.map Probing.seen)
    (hSteady : Steady delta (probings ++ [probing])) :
    ∃ time, UInt32.ofNat time = probing.time ∧
      ∀ last ∈ log.getLast?, last.time ≤ time ∧ time ≤ last.time + delta := by
  cases hLast : log.getLast? with
  | none => exact ⟨probing.time.toNat, UInt32.ofNat_toNat, nofun⟩
  | some last =>
      refine ⟨WrappingClock.onward last.time probing.time, WrappingClock.ofNat_onward _ _, ?_⟩
      rintro other hOther
      obtain rfl : last = other := Option.some.inj hOther
      have hReading : (probings.map Probing.time).getLast? = some (UInt32.ofNat last.time) := by
        have hTimes := congrArg (List.map Prod.fst) hLog
        rw [List.map_map, List.map_map] at hTimes
        have hEnds := congrArg List.getLast? hTimes
        rw [List.getLast?_map, hLast] at hEnds
        exact hEnds.symm
      unfold Steady at hSteady
      rw [List.map_append, List.isChain_append] at hSteady
      have hGap := hSteady.2.2 _ hReading probing.time rfl
      exact ⟨Nat.le_add_right _ _, Nat.add_le_add_left hGap _⟩

/-- The flushes of a run are polls of a timer that the prober represents. -/
theorem exists_polled {party : Party mtu} (hReach : (endpointSystem host mtu conv).Reachable party)
    (hDelta : delta < 2 ^ 30) (hSteady : Steady delta (party.probings host)) :
    (∀ probing ∈ party.probings host, probing.wasks ≤ 1) ∧
      ∃ log timer, Polled WindowProber.schedule delta log timer ∧
        log.map polled = (party.probings host).map Probing.seen ∧
        party.endpoint.windowProber.Represents timer := by
  refine hReach.invariant (P := fun party => Steady delta (party.probings host) →
    (∀ probing ∈ party.probings host, probing.wasks ≤ 1) ∧
      ∃ log timer, Polled WindowProber.schedule delta log timer ∧
        log.map polled = (party.probings host).map Probing.seen ∧
        party.endpoint.windowProber.Represents timer) ?_ ?_ hSteady
  · rintro party rfl -
    refine ⟨by simp [Party.probings, Party.fresh], [], {}, .start, rfl, ?_⟩
    exact ⟨rfl, fun hRuns => absurd rfl hRuns, UInt32.zero_and⟩
  · rintro party next hReach ih ⟨call, outcome, hOutcome, rfl⟩ hSteady
    have hInvariant := invariant_of_reachable hReach
    rw [Party.probings_record] at hSteady ⊢
    cases hFlushes : party.endpoint.flushes call with
    | false =>
        rw [hFlushes, if_neg Bool.false_ne_true, List.append_nil] at hSteady
        rw [if_neg Bool.false_ne_true, List.append_nil]
        obtain ⟨hOnce, log, timer, hPolled, hLog, hProber⟩ := ih hSteady
        exact ⟨hOnce, log, timer, hPolled, hLog,
          hInvariant.perform_represents hOutcome hFlushes hProber⟩
    | true =>
        rw [hFlushes, if_pos rfl] at hSteady
        rw [if_pos rfl]
        have hPrior : Steady delta (party.probings host) := by
          unfold Steady at hSteady
          rw [List.map_append] at hSteady
          exact hSteady.left_of_append
        obtain ⟨hOnce, log, timer, hPolled, hLog, hProber⟩ := ih hPrior
        obtain ⟨time, hTime, hClock⟩ := exists_time hLog hSteady
        obtain ⟨hWasks, after, hStep, hAfter⟩ :=
          hInvariant.perform_polls hOutcome hFlushes hProber hTime hPolled.running hDelta hClock
        refine ⟨?_, log ++ [⟨time, _, _⟩], after, hPolled.poll ⟨time, _, _⟩ hClock hStep,
          ?_, hAfter⟩
        · simp only [List.forall_mem_append, List.forall_mem_singleton]
          exact ⟨hOnce, hWasks⟩
        · rw [List.map_append, List.map_append, hLog, List.map_singleton, List.map_singleton,
            polled, hTime]
          rfl

/-- The time that passes from one flush to another one. -/
def Probing.elapsed (first : Probing) (between : List Probing) (second : Probing) : ℕ :=
  WrappingClock.elapsed ((first :: (between ++ [second])).map Probing.time)

/-- Two flushes of a run as two polls, the later one the last. -/
theorem exists_polls {timer : Timer} (hPolled : Polled WindowProber.schedule delta log timer)
    (hLog : log.map polled = probings.map Probing.seen) (hDelta : delta < 2 ^ 30)
    {before between after : List Probing} {first second : Probing}
    (hSplit : probings = before ++ first :: (between ++ second :: after)) :
    ∃ (earlier quiet : List Poll) (start last : Poll) (stopped : Timer),
      Polled WindowProber.schedule delta (earlier ++ start :: (quiet ++ [last])) stopped ∧
      earlier.map polled = before.map Probing.seen ∧ polled start = first.seen ∧
      quiet.map polled = between.map Probing.seen ∧ polled last = second.seen ∧
      start.time + first.elapsed between second = last.time := by
  subst hSplit
  rw [List.map_append, List.map_cons, List.map_append, List.map_cons] at hLog
  obtain ⟨earlier, _, rfl, hEarlier, hLog⟩ := List.map_eq_append_iff.mp hLog
  obtain ⟨start, _, rfl, hStart, hLog⟩ := List.map_eq_cons_iff.mp hLog
  obtain ⟨quiet, _, rfl, hQuiet, hLog⟩ := List.map_eq_append_iff.mp hLog
  obtain ⟨last, rest, rfl, hLast, -⟩ := List.map_eq_cons_iff.mp hLog
  have hShape : earlier ++ start :: (quiet ++ last :: rest) =
      earlier ++ start :: (quiet ++ [last]) ++ rest := by simp
  rw [hShape] at hPolled
  obtain ⟨stopped, hStopped⟩ := hPolled.of_append
  refine ⟨earlier, quiet, start, last, stopped, hStopped, hEarlier, hStart, hQuiet, hLast, ?_⟩
  have hChain : (start.time :: (quiet.map Poll.time ++ [last.time])).IsChain fun earlier later =>
      earlier ≤ later ∧ later < earlier + 2 ^ 32 := by
    have hPolls := hStopped.chain.right_of_append
    have hTimes := List.isChain_map_of_isChain
      (S := fun earlier later => earlier ≤ later ∧ later < earlier + 2 ^ 32) Poll.time
      (fun _ _ hGap => ⟨hGap.1, hGap.2.trans_lt (by omega)⟩) hPolls
    rwa [List.map_cons, List.map_append] at hTimes
  have hTimes : (first :: (between ++ [second])).map Probing.time =
      (start.time :: (quiet.map Poll.time ++ [last.time])).map UInt32.ofNat := by
    have hSeen : (first :: (between ++ [second])).map Probing.seen =
        (start :: (quiet ++ [last])).map polled := by
      rw [List.map_cons, List.map_append, List.map_singleton, List.map_cons, List.map_append,
        List.map_singleton, hStart, hQuiet, hLast]
    have hReadings := congrArg (List.map Prod.fst) hSeen
    rw [List.map_map, List.map_map] at hReadings
    refine hReadings.trans ?_
    simp [polled]
  unfold Probing.elapsed
  rw [hTimes]
  exact WrappingClock.elapsed_ofNat hChain

theorem seen_iff {poll : Poll} {probing : Probing} (h : polled poll = probing.seen) :
    (poll.needed = true ↔ probing.rmtWnd = 0) ∧ (poll.fires = true ↔ probing.wasks ≠ 0) := by
  obtain ⟨-, hFlags⟩ := Prod.mk.inj h
  obtain ⟨hNeeded, hFires⟩ := Prod.mk.inj hFlags
  rw [hNeeded, hFires]
  exact ⟨decide_eq_true_iff, decide_eq_true_iff⟩

theorem exists_seen {polls : List Poll} (h : polls.map polled = probings.map Probing.seen)
    {poll : Poll} (hPoll : poll ∈ polls) : ∃ probing ∈ probings, polled poll = probing.seen := by
  have hSeen : polled poll ∈ polls.map polled := List.mem_map_of_mem hPoll
  rw [h] at hSeen
  obtain ⟨probing, hProbing, hSame⟩ := List.mem_map.mp hSeen
  exact ⟨probing, hProbing, hSame.symm⟩

theorem needed_of_closed {polls : List Poll} (h : polls.map polled = probings.map Probing.seen)
    (hClosed : ∀ probing ∈ probings, probing.rmtWnd = 0) : ∀ poll ∈ polls, poll.needed = true := by
  intro poll hPoll
  obtain ⟨probing, hProbing, hSeen⟩ := exists_seen h hPoll
  exact (seen_iff hSeen).1.mpr (hClosed probing hProbing)

theorem silent_of_none {polls : List Poll} (h : polls.map polled = probings.map Probing.seen)
    (hNone : ∀ probing ∈ probings, probing.wasks = 0) : ∀ poll ∈ polls, poll.fires = false := by
  intro poll hPoll
  obtain ⟨probing, hProbing, hSeen⟩ := exists_seen h hPoll
  rw [← Bool.not_eq_true, (seen_iff hSeen).2]
  exact not_not.mpr (hNone probing hProbing)

theorem unneeded_of_open {polls : List Poll} (h : polls.map polled = probings.map Probing.seen)
    (hOpen : ∀ last ∈ probings.getLast?, last.rmtWnd ≠ 0) :
    ∀ last ∈ polls.getLast?, last.needed = false := by
  intro last hLast
  have hEnds := congrArg List.getLast? h
  rw [List.getLast?_map, List.getLast?_map, hLast, Option.map_some] at hEnds
  obtain ⟨probing, hProbing, hSeen⟩ := Option.map_eq_some_iff.mp hEnds.symm
  rw [← Bool.not_eq_true, (seen_iff hSeen.symm).1]
  exact hOpen probing hProbing

/-- When the flushes of a run probe the window of the peer: once at a time, only a closed
window, and no two of them within seven seconds. The first probe comes seven seconds behind
the flush that has found the window closed, later ones within two minutes, but for the gap
between two flushes. -/
structure OnSchedule (delta : ℕ) (probings : List Probing) : Prop where
  once : ∀ probing ∈ probings, probing.wasks ≤ 1
  closed : ∀ probing ∈ probings, probing.rmtWnd ≠ 0 → probing.wasks = 0
  apart : ∀ before first between second after, probings = before ++ first ::
    (between ++ second :: after) →
    first.wasks ≠ 0 → second.wasks ≠ 0 → 7000 ≤ first.elapsed between second
  opening : ∀ before start after, probings = before ++ start :: after →
    (∀ last ∈ before.getLast?, last.rmtWnd ≠ 0) → start.wasks = 0
  first : ∀ before start quiet flush after, probings = before ++ start ::
    (quiet ++ flush :: after) →
    (∀ last ∈ before.getLast?, last.rmtWnd ≠ 0) →
    (∀ probing ∈ start :: (quiet ++ [flush]), probing.rmtWnd = 0) →
    (∀ probing ∈ quiet, probing.wasks = 0) →
    (flush.wasks ≠ 0 ↔ 7000 ≤ start.elapsed quiet flush) ∧ start.elapsed quiet flush ≤ 7000 + delta
  next : ∀ before last quiet flush after, probings = before ++ last :: (quiet ++ flush :: after) →
    last.wasks ≠ 0 → (∀ probing ∈ quiet ++ [flush], probing.rmtWnd = 0) →
    (∀ probing ∈ quiet, probing.wasks = 0) →
    (120000 ≤ last.elapsed quiet flush → flush.wasks ≠ 0) ∧
      last.elapsed quiet flush ≤ 120000 + delta

theorem onSchedule_of_polled {timer : Timer}
    (hPolled : Polled WindowProber.schedule delta log timer)
    (hLog : log.map polled = probings.map Probing.seen) (hDelta : delta < 2 ^ 30)
    (hOnce : ∀ probing ∈ probings, probing.wasks ≤ 1) : OnSchedule delta probings where
  once := hOnce
  closed := by
    intro probing hProbing hOpen
    have hSeen : probing.seen ∈ probings.map Probing.seen := List.mem_map_of_mem hProbing
    rw [← hLog] at hSeen
    obtain ⟨poll, hPoll, hSame⟩ := List.mem_map.mp hSeen
    by_contra hWasks
    have hFires := (seen_iff hSame).2.mpr hWasks
    exact hOpen ((seen_iff hSame).1.mp (hPolled.needed_of_fires poll hPoll hFires))
  apart := by
    intro before first between second after hSplit hFirst hSecond
    obtain ⟨earlier, quiet, start, last, _, hPolls, -, hStart, -, hLast, hElapsed⟩ :=
      exists_polls hPolled hLog hDelta hSplit
    have hApart := hPolls.apart ((seen_iff hStart).2.mpr hFirst) ((seen_iff hLast).2.mpr hSecond)
    change start.time + 7000 ≤ last.time at hApart
    omega
  opening := by
    rintro before start after rfl hBefore
    rw [List.map_append, List.map_cons] at hLog
    obtain ⟨earlier, _, rfl, hEarlier, hLog⟩ := List.map_eq_append_iff.mp hLog
    obtain ⟨first, rest, rfl, hFirst, -⟩ := List.map_eq_cons_iff.mp hLog
    by_contra hWasks
    have hFires := (seen_iff hFirst).2.mpr hWasks
    have hNeeded := hPolled.needed_of_fires first (by simp) hFires
    rw [List.append_cons] at hPolled
    obtain ⟨timer, hPolls⟩ := hPolled.of_append
    have hBegun := hPolls.since_begun (unneeded_of_open hEarlier hBefore) hNeeded nofun nofun
    exact absurd (hFires.symm.trans hBegun.1) Bool.false_ne_true.symm
  first := by
    intro before start quiet flush after hSplit hBefore hClosed hNone
    obtain ⟨earlier, silent, first, last, _, hPolls, hEarlier, hFirst, hQuiet, hLast, hElapsed⟩ :=
      exists_polls hPolled hLog hDelta hSplit
    obtain ⟨hStart, hRest⟩ := List.forall_mem_cons.mp hClosed
    obtain ⟨hClosed, hFlush⟩ := List.forall_mem_append.mp hRest
    obtain ⟨hIff, hLate⟩ := hPolls.first_fire (unneeded_of_open hEarlier hBefore)
      ((seen_iff hFirst).1.mpr hStart) (needed_of_closed hQuiet hClosed)
        (silent_of_none hQuiet hNone)
      ((seen_iff hLast).1.mpr (hFlush flush (List.mem_singleton_self flush)))
    change _ ↔ first.time + 7000 ≤ last.time at hIff
    change last.time ≤ first.time + 7000 + delta at hLate
    rw [← (seen_iff hLast).2, hIff]
    omega
  next := by
    intro before last quiet flush after hSplit hFired hClosed hNone
    obtain ⟨earlier, silent, fired, poll, _, hPolls, -, hStart, hQuiet, hPoll, hElapsed⟩ :=
      exists_polls hPolled hLog hDelta hSplit
    obtain ⟨hClosed, hFlush⟩ := List.forall_mem_append.mp hClosed
    obtain ⟨hLong, hLate⟩ := hPolls.next_fire ((seen_iff hStart).2.mpr hFired)
      (needed_of_closed hQuiet hClosed) (silent_of_none hQuiet hNone)
      ((seen_iff hPoll).1.mpr (hFlush flush (List.mem_singleton_self flush)))
    change fired.time + 120000 ≤ poll.time → _ at hLong
    change poll.time ≤ fired.time + 120000 + delta at hLate
    rw [← (seen_iff hPoll).2]
    exact ⟨fun hElapse => hLong (by omega), by omega⟩

end Runs

/-- In every run whose flushes are no further apart than `delta`, the wait of the prober is
zero or between seven seconds and two minutes, and the `WASK`s are on schedule. -/
theorem probing_schedule {party : Party mtu}
    (hReach : (endpointSystem host mtu conv).Reachable party) {delta : ℕ} (hDelta : delta < 2 ^ 30)
    (hSteady : Steady delta (party.probings host)) :
    (party.endpoint.windowProber.probeWait = 0 ∨
      7000 ≤ party.endpoint.windowProber.probeWait.toNat ∧
        party.endpoint.windowProber.probeWait.toNat ≤ 120000) ∧
      OnSchedule delta (party.probings host) := by
  obtain ⟨hOnce, log, timer, hPolled, hLog, hProber⟩ := exists_polled hReach hDelta hSteady
  refine ⟨?_, onSchedule_of_polled hPolled hLog hDelta hOnce⟩
  rw [← UInt32.toNat_inj, hProber.wait_eq]
  rcases hPolled.running with hIdle | hRunning
  · exact .inl hIdle
  · exact .inr ⟨hRunning.first_le, hRunning.le_limit⟩

/-- A peer closes its window, and does not open it again. -/
def closedCalls (host : Host) : List Call :=
  [.input (wire host [⟨{ cmd := Commands.wins, wnd := 0 }, []⟩]), .update 0,
    .update 7000, .update 17500]

/-- Two probes, of which the second one comes behind a longer wait. -/
theorem probing_schedule_closed :
    ∃ party : Party .least, (Party.fresh .least 0).run Host.x8664 (closedCalls Host.x8664) =
      .ok party ∧
      party.probings Host.x8664 = [⟨0, 0, 0⟩, ⟨7000, 0, 1⟩, ⟨17500, 0, 1⟩] ∧
      OnSchedule 10500 (party.probings Host.x8664) := by
  have hRuns : ((Party.fresh .least 0).run Host.x8664 (closedCalls Host.x8664)).map
      (fun party => party.probings Host.x8664) = .ok [⟨0, 0, 0⟩, ⟨7000, 0, 1⟩, ⟨17500, 0, 1⟩] := by
    decide +kernel
  obtain ⟨party, hRun, hProbings⟩ := map_eq_ok.mp hRuns
  have hSteady : Steady 10500 (party.probings Host.x8664) := by
    rw [hProbings]
    exact .cons_cons (by decide) (.cons_cons (by decide) (.singleton _))
  refine ⟨party, hRun, hProbings, ?_⟩
  exact (probing_schedule (Party.reachable_run (.of_init rfl) hRun) (by decide) hSteady).2

end Imkcpp
