import Imkcpp.Batching
import Imkcpp.Configuration
import Imkcpp.FlowControl

/-! Dead-link detection. Three branches of a flush count transmissions in the segment
and a fourth compares the count with a threshold; over a whole run, the count of a
number is how often it has been emitted, and the state says whether one has reached
the threshold. -/
namespace Imkcpp

open Transition OrderedList

variable {mtu : Mtu} {host : Host} {conv threshold : UInt32}

namespace Sender

variable {settings : FlushSettings}

/-- Every branch that sends a segment counts it. -/
theorem prepared_xmit {segment : Segment} (hDue : isDue settings segment = true) :
    (prepared settings segment).metadata.xmit = segment.metadata.xmit + 1 := by
  unfold isDue at hDue
  unfold prepared
  split_ifs with hNever hTimedOut hFast
  · rfl
  · rfl
  · rfl
  · simp [hNever, hTimedOut, hFast] at hDue

theorem flushed_xmit (segment : Segment) :
    (flushed settings segment).metadata.xmit =
      segment.metadata.xmit + if isDue settings segment then 1 else 0 := by
  cases hDue : isDue settings segment with
  | true =>
      have hFlushed : flushed settings segment = refresh settings (prepared settings segment) :=
        if_pos hDue
      rw [hFlushed, if_pos rfl, ← prepared_xmit hDue]
      rfl
  | false =>
      rw [flushed_of_not_due hDue, if_neg Bool.false_ne_true, UInt32.add_zero]

theorem nodup_sn {sndBuf : List Segment} (h : Increasing Segment.key sndBuf) :
    (sndBuf.map fun seg => seg.header.sn).Nodup := by
  refine List.pairwise_map.mpr (h.imp ?_)
  exact fun hLt => UInt32.ne_of_lt (UInt32.lt_iff_toNat_lt.mpr hLt)

/-- The number of a buffered segment is sent if and only if the segment is due. -/
theorem mem_due_iff {sndBuf : List Segment} (h : Increasing Segment.key sndBuf) {segment : Segment}
    (hSegment : segment ∈ sndBuf) :
    segment.header.sn ∈ (sndBuf.filter (isDue settings)).map (fun seg => seg.header.sn) ↔
      isDue settings segment = true := by
  constructor
  · intro hSn
    obtain ⟨other, hOther, hSame⟩ := List.mem_map.mp hSn
    obtain ⟨hOther, hDue⟩ := List.mem_filter.mp hOther
    rwa [List.inj_on_of_nodup_map (nodup_sn h) hOther hSegment hSame] at hDue
  · exact fun hDue => List.mem_map_of_mem (List.mem_filter.mpr ⟨hSegment, hDue⟩)

/-- Each buffered number is sent at most once by a flush, namely if its segment is due. -/
theorem count_due {sndBuf : List Segment} (h : Increasing Segment.key sndBuf) {segment : Segment}
    (hSegment : segment ∈ sndBuf) :
    ((sndBuf.filter (isDue settings)).map fun seg => seg.header.sn).count segment.header.sn =
      if isDue settings segment then 1 else 0 := by
  rw [((List.filter_sublist.map _).nodup (nodup_sn h)).count]
  exact if_congr (mem_due_iff h hSegment) rfl rfl

end Sender

namespace ImKcpp

/-- The transmission counters agree with the numbers emitted so far. -/
structure Tallied (sent : List UInt32) (s : ImKcpp mtu) : Prop where
  counted : ∀ seg ∈ s.senderBuffer.sndBuf,
    seg.metadata.xmit = UInt32.ofNat (sent.count seg.header.sn)
  below : ∀ sn ∈ sent, sn < s.segmentTracker.sndNxt

/-- Admitted segments have not been sent, and neither have their numbers. -/
theorem Tallied.moved {s : ImKcpp mtu} {sent : List UInt32} (h : s.Tallied sent) :
    ∀ seg ∈ s.moved.2.1.sndBuf, seg.metadata.xmit = UInt32.ofNat (sent.count seg.header.sn) := by
  intro seg hSeg
  rcases mem_moved seg hSeg with hOld | ⟨-, hNew⟩
  · exact h.counted seg hOld
  · rcases s.moved_progress.2.2.2 seg hSeg with hOld | hHigh
    · exact h.counted seg hOld
    · have hNone : seg.header.sn ∉ sent := fun hSn => UInt32.not_le.mpr (h.below _ hSn) hHigh
      rw [List.count_eq_zero_of_not_mem hNone]
      exact eq_of_beq hNew

theorem Tallied.flush {s next : ImKcpp mtu} {sent : List UInt32} (h : s.Tallied sent)
    {packets : List (List Frame)} {result : FlushResult} {askSend askTell : Bool}
    (hFlushed : Flushed host s next packets result askSend askTell) (hSending : s.Sending) :
    next.Tallied (sent ++ (s.moved.2.1.sndBuf.filter (Sender.isDue s.settings)).map
      fun seg => seg.header.sn) := by
  have hMoved := hSending.moved
  constructor
  · intro seg hSeg
    rw [hFlushed.sndBuf_eq] at hSeg
    obtain ⟨old, hOld, rfl⟩ := List.mem_map.mp hSeg
    have hCore : (Sender.flushed s.settings old).core = old.core := Sender.flushed_core old
    rw [(Segment.core_eq_iff.mp hCore).2.2.2.1, List.count_append,
      Sender.count_due hMoved.increasing hOld, UInt32.ofNat_add, ← h.moved old hOld,
      Sender.flushed_xmit]
    split_ifs <;> rfl
  · intro sn hSn
    rw [hFlushed.tracker_eq]
    rcases List.mem_append.mp hSn with hSn | hSn
    · exact UInt32.lt_of_lt_of_le (h.below sn hSn) s.moved_progress.2.1
    · obtain ⟨seg, hSeg, rfl⟩ := List.mem_map.mp hSn
      exact hMoved.numbered seg (List.mem_filter.mp hSeg).1

/-- Input counts no transmissions. -/
theorem Tallied.input {s t : ImKcpp mtu} {sent : List UInt32} (h : s.Tallied sent)
    (hInvariant : s.Invariant) {data : List UInt8} {result : Except Error InputResult}
    (hInput : s.input host data = .ok (t, result)) : t.Tallied sent := by
  constructor
  · intro seg hSeg
    obtain ⟨old, hOld, hSame⟩ := hInvariant.mem_input_sndBuf hInput seg hSeg
    have hXmit : old.metadata.xmit = seg.metadata.xmit :=
      congrArg (fun seg => seg.metadata.xmit) hSame
    have hSn : old.header.sn = seg.header.sn := congrArg (fun seg => seg.header.sn) hSame
    rw [← hXmit, ← hSn]
    exact h.counted old hOld
  · have hSame := congrArg (fun t : ImKcpp mtu => t.segmentTracker.sndNxt) (input_uncounted hInput)
    change t.segmentTracker.sndNxt = _ at hSame
    rw [hSame]
    intro sn hSn
    exact (foldl_applyFrame_sndNxt (scan host s.sharedCtx.conv data).1 s).symm ▸ h.below sn hSn

/-- A call that executes a flush sends the segments that are due, and the link is dead
behind it if one of them has been sent as often as the threshold says. -/
theorem Invariant.perform_sends {s : ImKcpp mtu} (h : s.Invariant) {call : Call}
    {outcome : Outcome mtu} (hOutcome : s.perform host call = .ok outcome)
    (hFlushes : s.flushes call = true) {sent : List UInt32} (hTallied : s.Tallied sent) :
    ∃ start : ImKcpp mtu, start.sender.deadLink = s.sender.deadLink ∧
      start.Invariant ∧ start.Tallied sent ∧
      (⟨s, call, outcome⟩ : Event mtu).pushNumbers host =
        (start.moved.2.1.sndBuf.filter (Sender.isDue start.settings)).map
          (fun seg => seg.header.sn) ∧
      outcome.state.Tallied (sent ++ (⟨s, call, outcome⟩ : Event mtu).pushNumbers host) ∧
      outcome.state.getState =
        if start.moved.2.1.sndBuf.any (Sender.exhausts start.settings) then .deadLink
        else s.getState := by
  obtain ⟨start, packets, result, askSend, askTell, hStart, hUpdated, hFlush, hShape, hFlushed⟩ :=
    h.perform_flushes hOutcome hFlushes
  have hSame : start.sender = s.sender ∧ start.getState = s.getState ∧ start.Tallied sent := by
    cases hStart <;> exact ⟨rfl, rfl, hTallied.counted, hTallied.below⟩
  obtain ⟨hSender, hState, hStarted⟩ := hSame
  have hSending := (hStart.invariant h).toSending
  have hNumbers : (⟨s, call, outcome⟩ : Event mtu).pushNumbers host =
      (start.moved.2.1.sndBuf.filter (Sender.isDue start.settings)).map fun seg =>
        seg.header.sn := by
    rw [hShape]
    exact hFlushed.pushNumbers_eq hSending _
  obtain ⟨_, _, _, _, hNext, -⟩ := flush_shape hUpdated hFlush
  refine ⟨start, congrArg Sender.deadLink hSender, hStart.invariant h, hStarted, hNumbers, ?_, ?_⟩
  · rw [hNumbers]
    exact hStarted.flush hFlushed hSending
  · rw [← hState, hNext]
    rfl

theorem Tallied.perform {s : ImKcpp mtu} {sent : List UInt32} (h : s.Tallied sent)
    (hInvariant : s.Invariant) {call : Call} {outcome : Outcome mtu}
    (hOutcome : s.perform host call = .ok outcome) :
    outcome.state.Tallied (sent ++ (⟨s, call, outcome⟩ : Event mtu).pushNumbers host) := by
  cases hFlushes : s.flushes call with
  | true =>
      obtain ⟨-, -, -, -, -, hNext, -⟩ := hInvariant.perform_sends hOutcome hFlushes h
      exact hNext
  | false =>
      obtain ⟨hSilent, -, hSender⟩ := (hInvariant.effect hOutcome).without_flush hFlushes
      have hNone : (⟨s, call, outcome⟩ : Event mtu).pushNumbers host = [] := by
        rw [Event.pushNumbers, hSilent]
        rfl
      rw [hNone, List.append_nil]
      rcases hSender with ⟨data, rfl⟩ | ⟨hBuffer, hTracker⟩
      · obtain ⟨result, hInput⟩ := perform_input hOutcome
        exact h.input hInvariant hInput
      · refine ⟨?_, ?_⟩
        · rw [hBuffer]
          exact h.counted
        · rw [hTracker]
          exact h.below

/-- As long as no number has been sent as often as the threshold says, a flush sends
one for that many times exactly when a segment of its own reaches the threshold. -/
theorem Tallied.any_exhausts_iff {s : ImKcpp mtu} {sent : List UInt32} (h : s.Tallied sent)
    (hInvariant : s.Invariant) (hBelow : ∀ sn, sent.count sn < s.sender.deadLink.toNat) :
    s.moved.2.1.sndBuf.any (Sender.exhausts s.settings) = true ↔
      ∃ sn, s.sender.deadLink.toNat ≤
        (sent ++ (s.moved.2.1.sndBuf.filter (Sender.isDue s.settings)).map
        fun seg => seg.header.sn).count sn := by
  have hIncreasing := hInvariant.moved.increasing
  have hXmit : ∀ seg ∈ s.moved.2.1.sndBuf, Sender.isDue s.settings seg = true →
      (Sender.prepared s.settings seg).metadata.xmit =
        UInt32.ofNat (sent.count seg.header.sn + 1) := by
    intro seg hSeg hDue
    rw [Sender.prepared_xmit hDue, h.moved seg hSeg, UInt32.ofNat_add]
    rfl
  rw [List.any_eq_true]
  constructor
  · rintro ⟨seg, hSeg, hExhausts⟩
    obtain ⟨hDue, hReached⟩ := Bool.and_eq_true_iff.mp hExhausts
    have hReached := UInt32.le_iff_toNat_le.mp (of_decide_eq_true hReached)
    refine ⟨seg.header.sn, ?_⟩
    rw [List.count_append, Sender.count_due hIncreasing hSeg, if_pos hDue]
    rw [hXmit seg hSeg hDue, UInt32.toNat_ofNat'] at hReached
    exact hReached.trans (Nat.mod_le _ _)
  · rintro ⟨sn, hCount⟩
    have hOnce := hBelow sn
    rw [List.count_append] at hCount
    have hSn : 0 < ((s.moved.2.1.sndBuf.filter (Sender.isDue s.settings)).map
        fun seg => seg.header.sn).count sn := by omega
    obtain ⟨seg, hSeg, rfl⟩ := List.mem_map.mp (List.count_pos_iff.mp hSn)
    obtain ⟨hSeg, hDue⟩ := List.mem_filter.mp hSeg
    rw [Sender.count_due hIncreasing hSeg, if_pos hDue] at hCount
    -- the count reaches the threshold with this transmission
    have hReached : sent.count seg.header.sn + 1 = s.sender.deadLink.toNat := by omega
    refine ⟨seg, hSeg, Bool.and_eq_true_iff.mpr ⟨hDue, decide_eq_true ?_⟩⟩
    rw [hXmit seg hSeg hDue, hReached, UInt32.ofNat_toNat]
    exact UInt32.le_refl _

/-- Only `set_deadlink` changes the threshold. -/
theorem Invariant.perform_deadLink {s : ImKcpp mtu} (h : s.Invariant) {call : Call}
    {outcome : Outcome mtu} (hOutcome : s.perform host call = .ok outcome) :
    outcome.state.sender.deadLink = call.deadlink.getD s.sender.deadLink := by
  obtain ⟨-, -, hTuned⟩ := h.perform_tuned hOutcome
  rw [hTuned]
  cases call with
  | configure setting => cases setting <;> rfl
  | input data =>
      exact congrArg Sender.deadLink (foldl_applyFrame_eq ImKcpp.sender applyFrame_sender _ s)
  | _ => rfl

end ImKcpp

theorem transmitted_concat (host : Host) (history : List (Event mtu)) (event : Event mtu) :
    transmitted host (history ++ [event]) = transmitted host history ++ event.pushNumbers host := by
  rw [transmitted, List.flatMap_append, List.flatMap_singleton, transmitted]

/-- In every run, the transmission counter of a buffered segment is how often its number
has been emitted. -/
theorem tallied_of_reachable {party : Party mtu}
    (h : (endpointSystem host mtu conv).Reachable party) :
    party.endpoint.Tallied (transmitted host party.history) := by
  refine h.invariant (P := fun party =>
    party.endpoint.Tallied (transmitted host party.history)) ?_ ?_
  · rintro party rfl
    exact ⟨by simp [Party.fresh, ImKcpp.create], by simp [Party.fresh, transmitted]⟩
  · rintro party next hReach hTallied ⟨call, outcome, hOutcome, rfl⟩
    rw [Party.record, transmitted_concat]
    exact hTallied.perform (invariant_of_reachable hReach) hOutcome

/-- The threshold has this value since before the first data segment was emitted. -/
def Party.DeadlinkSet (host : Host) (threshold : UInt32) (party : Party mtu) : Prop :=
  Fixed Call.deadlink Constants.ikcpDeadlink (fun event => event.pushNumbers host = []) threshold
    party.history

/-- The state of the link says whether a number has been emitted often enough. -/
def Party.Exact (host : Host) (threshold : UInt32) (party : Party mtu) : Prop :=
  party.endpoint.getState = .deadLink ↔
    ∃ sn, threshold.toNat ≤ (transmitted host party.history).count sn

/-- Nothing has been emitted, and the link is alive. -/
structure Party.Untransmitted (host : Host) (threshold : UInt32) (party : Party mtu) : Prop where
  deadLink_eq : party.endpoint.sender.deadLink = threshold
  state_eq : party.endpoint.getState = .alive
  transmitted_eq : transmitted host party.history = []

namespace Party

variable {party : Party mtu} {call : Call} {outcome : Outcome mtu}

theorem Untransmitted.exact (h : party.Untransmitted host threshold) {least : UInt32}
    (hPositive : 1 ≤ least) : party.Exact host least := by
  rw [UInt32.le_iff_toNat_le, UInt32.toNat_one] at hPositive
  rw [Exact, h.state_eq, h.transmitted_eq]
  refine iff_of_false nofun ?_
  rintro ⟨sn, hCount⟩
  rw [List.count_nil] at hCount
  omega

theorem Untransmitted.record (h : party.Untransmitted host threshold)
    (hReach : (endpointSystem host mtu conv).Reachable party)
    (hOutcome : party.endpoint.perform host call = .ok outcome)
    (hQuiet : (⟨party.endpoint, call, outcome⟩ : Event mtu).pushNumbers host = []) :
    (party.record call outcome).Untransmitted host (call.deadlink.getD threshold) := by
  have hInvariant := invariant_of_reachable hReach
  refine ⟨?_, ?_, ?_⟩
  · rw [record_endpoint, hInvariant.perform_deadLink hOutcome, h.deadLink_eq]
  · rw [record_endpoint]
    cases hFlushes : party.endpoint.flushes call with
    | true =>
        obtain ⟨start, -, -, -, hNumbers, -, hState⟩ :=
          hInvariant.perform_sends hOutcome hFlushes (tallied_of_reachable hReach)
        rw [hNumbers, List.map_eq_nil_iff, List.filter_eq_nil_iff] at hQuiet
        have hNone : start.moved.2.1.sndBuf.any (Sender.exhausts start.settings) = false := by
          refine List.any_eq_false.mpr fun seg hSeg hExhausts => hQuiet seg hSeg ?_
          exact (Bool.and_eq_true_iff.mp hExhausts).1
        rw [hState, hNone, h.state_eq]
        rfl
    | false => exact ((hInvariant.effect hOutcome).without_flush hFlushes).2.1.trans h.state_eq
  · rw [Party.record, transmitted_concat, hQuiet, List.append_nil, h.transmitted_eq]

theorem Exact.record (h : party.Exact host threshold)
    (hReach : (endpointSystem host mtu conv).Reachable party)
    (hThreshold : party.endpoint.sender.deadLink = threshold)
    (hOutcome : party.endpoint.perform host call = .ok outcome) :
    (party.record call outcome).Exact host threshold := by
  have hInvariant := invariant_of_reachable hReach
  rw [Exact, record_endpoint, Party.record, transmitted_concat]
  cases hFlushes : party.endpoint.flushes call with
  | true =>
      obtain ⟨start, hSame, hStart, hTallied, hNumbers, -, hState⟩ :=
        hInvariant.perform_sends hOutcome hFlushes (tallied_of_reachable hReach)
      rw [hState]
      by_cases hDead : party.endpoint.getState = .deadLink
      · obtain ⟨sn, hCount⟩ := h.mp hDead
        refine iff_of_true (by rw [hDead, ite_self]) ⟨sn, ?_⟩
        rw [List.count_append]
        exact hCount.trans (Nat.le_add_right _ _)
      · have hBelow : ∀ sn, (transmitted host party.history).count sn <
            start.sender.deadLink.toNat := by
          intro sn
          rw [hSame, hThreshold]
          exact Nat.lt_of_not_le fun hCount => hDead (h.mpr ⟨sn, hCount⟩)
        have hExhausts := hTallied.any_exhausts_iff hStart hBelow
        rw [← hNumbers, hSame, hThreshold] at hExhausts
        rw [← hExhausts]
        cases start.moved.2.1.sndBuf.any (Sender.exhausts start.settings) with
        | true => exact iff_of_true rfl rfl
        | false => exact iff_of_false hDead Bool.false_ne_true
  | false =>
      obtain ⟨hSilent, hState, -⟩ := (hInvariant.effect hOutcome).without_flush hFlushes
      have hNone : (⟨party.endpoint, call, outcome⟩ : Event mtu).pushNumbers host = [] := by
        rw [Event.pushNumbers, hSilent]
        rfl
      rw [hState, hNone, List.append_nil]
      exact h

end Party

theorem exact_of_reachable {party : Party mtu}
    (hReach : (endpointSystem host mtu conv).Reachable party)
    (hSet : party.DeadlinkSet host threshold) (hPositive : 1 ≤ threshold) :
    party.Exact host threshold := by
  have hRun : party.endpoint.sender.deadLink = threshold ∧
      (1 ≤ threshold → party.Exact host threshold) := by
    refine hSet.induct (Q := fun threshold party => party.Untransmitted host threshold)
      (P := fun threshold party => party.endpoint.sender.deadLink = threshold ∧
        (1 ≤ threshold → party.Exact host threshold)) ?_ ?_ ?_ ?_ hReach
    · exact ⟨rfl, rfl, rfl⟩
    · exact fun party value call outcome hReach hPrior hOutcome hQuiet =>
        hPrior.record hReach hOutcome hQuiet
    · exact fun party value hReach hPrior => ⟨hPrior.deadLink_eq, hPrior.exact⟩
    · rintro party value call outcome hReach ⟨hThreshold, hPrior⟩ hOutcome hOther
      refine ⟨?_, fun hPositive => (hPrior hPositive).record hReach hThreshold hOutcome⟩
      rw [Party.record_endpoint, (invariant_of_reachable hReach).perform_deadLink hOutcome, hOther]
      exact hThreshold
  exact hRun.2 hPositive

/-- A dead link stays dead, whatever is called. -/
theorem deadLink_of_leads {party final : Party mtu}
    (hReach : (endpointSystem host mtu conv).Reachable party)
    (hDead : party.endpoint.getState = .deadLink)
    (run : (endpointSystem host mtu conv).Leads party final) :
    final.endpoint.getState = .deadLink := by
  refine run.invariant (P := fun party => party.endpoint.getState = .deadLink) ?_ hReach hDead
  rintro party next hReach hPrior ⟨call, outcome, hOutcome, rfl⟩
  have hInvariant := invariant_of_reachable hReach
  rw [Party.record_endpoint]
  cases hFlushes : party.endpoint.flushes call with
  | true =>
      obtain ⟨_, -, -, -, -, -, hState⟩ :=
        hInvariant.perform_sends hOutcome hFlushes (tallied_of_reachable hReach)
      rw [hState, hPrior, ite_self]
  | false => exact ((hInvariant.effect hOutcome).without_flush hFlushes).2.1.trans hPrior

/-- In a run whose threshold is fixed before data is emitted, the link is dead at exactly
those points by which some number has been emitted that many times; and then it stays
dead. -/
theorem dead_link_exact {party final : Party mtu}
    (hReach : (endpointSystem host mtu conv).Reachable party)
    (run : (endpointSystem host mtu conv).Leads party final)
    (hSet : final.DeadlinkSet host threshold) (hPositive : 1 ≤ threshold) :
    (party.endpoint.getState = .deadLink ↔
      ∃ sn, threshold.toNat ≤ (transmitted host party.history).count sn) ∧
    (party.endpoint.getState = .deadLink → final.endpoint.getState = .deadLink) := by
  obtain ⟨more, hHistory⟩ := Party.history_of_leads hReach run
  refine ⟨?_, fun hDead => deadLink_of_leads hReach hDead run⟩
  rw [Party.DeadlinkSet, ← hHistory] at hSet
  rcases hSet.of_append with hFixed | hQuiet
  · exact exact_of_reachable hReach hFixed hPositive
  · -- the threshold is set at a later point
    have hUntransmitted := Party.quiet_induct Call.deadlink Constants.ikcpDeadlink
      (Q := fun threshold party => party.Untransmitted host threshold) ⟨rfl, rfl, rfl⟩
      (fun party value call outcome hReach hPrior hOutcome hQuiet =>
        hPrior.record hReach hOutcome hQuiet)
      hReach hQuiet
    exact hUntransmitted.exact hPositive

/-- The threshold is fixed by a first call that sets it. -/
theorem Party.deadlinkSet_of_first {later : List Call} {party : Party mtu}
    (hRun : (Party.fresh mtu conv).run host (.configure (.deadlink threshold) :: later) = .ok party)
    (hKept : ∀ call ∈ later, call.deadlink = none) : party.DeadlinkSet host threshold := by
  refine .of_calls [.configure (.deadlink threshold)] (Party.calls_run hRun) ?_ rfl hKept
  intro event hEvent hCall
  obtain ⟨before, after, hHistory⟩ := List.append_of_mem hEvent
  obtain ⟨prior, -, -, -, hOutcome⟩ :=
    Party.exists_prior (Party.reachable_run (.of_init rfl) hRun) hHistory
  rw [List.mem_singleton.mp hCall] at hOutcome
  obtain ⟨state, -, hReturn⟩ := bind_eq_ok.mp hOutcome
  rw [Event.pushNumbers, ← Except.ok.inj hReturn]
  rfl

/-- With a threshold of two the first timeout of a segment makes the link dead. -/
theorem dead_link_exact_two :
    ∃ party final : Party .least,
      (Party.fresh .least 0).run Host.x8664
        [.configure (.deadlink 2), .update 0, .send [1], .flush] = .ok party ∧
      (Party.fresh .least 0).run Host.x8664
        [.configure (.deadlink 2), .update 0, .send [1], .flush, .update 300] = .ok final ∧
      (party.endpoint.getState = .alive ∧
        ¬∃ sn, 2 ≤ (transmitted Host.x8664 party.history).count sn) ∧
      final.endpoint.getState = .deadLink ∧
        ∃ sn, 2 ≤ (transmitted Host.x8664 final.history).count sn := by
  have hAlive : ((Party.fresh .least 0).run Host.x8664
      [.configure (.deadlink 2), .update 0, .send [1], .flush]).map
        (fun party => party.endpoint.getState) = .ok .alive := by decide +kernel
  have hDead : ((Party.fresh .least 0).run Host.x8664
      [.configure (.deadlink 2), .update 0, .send [1], .flush, .update 300]).map
        (fun party => party.endpoint.getState) = .ok .deadLink := by decide +kernel
  obtain ⟨party, hRun, hAlive⟩ := map_eq_ok.mp hAlive
  obtain ⟨final, hLonger, hDead⟩ := map_eq_ok.mp hDead
  have hBefore := (dead_link_exact (Party.reachable_run (.of_init rfl) hRun) (.refl party)
    (Party.deadlinkSet_of_first hRun (by simp [Call.deadlink])) (by decide)).1
  have hAfter := (dead_link_exact (Party.reachable_run (.of_init rfl) hLonger) (.refl final)
    (Party.deadlinkSet_of_first hLonger (by simp [Call.deadlink])) (by decide)).1
  refine ⟨party, final, hRun, hLonger, ⟨hAlive, fun hTwice => ?_⟩, hDead, hAfter.mp hDead⟩
  have hNever := hBefore.mpr hTwice
  rw [hAlive] at hNever
  cases hNever

end Imkcpp
