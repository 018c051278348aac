import Imkcpp.Emission

/-! The sender under any input. Sequence numbers only ever leave the sender
buffer because the peer has acknowledged them, and a number that has left it is
never used again: new segments take their numbers from `snd_nxt` upwards. -/
namespace Imkcpp

open Transition OrderedList

variable {mtu : Mtu} {host : Host}

namespace ImKcpp

/-- The sequence numbers in the sender buffer. -/
def numbers (s : ImKcpp mtu) : List UInt32 := s.senderBuffer.sndBuf.map fun seg => seg.header.sn

/-- Numbers depend on the core of the segments only. -/
theorem map_sn_of_core {sndBuf other : List Segment}
    (h : sndBuf.map Segment.core = other.map Segment.core) :
    sndBuf.map (fun seg => seg.header.sn) = other.map fun seg => seg.header.sn := by
  have hMap := congrArg (List.map fun core : SegmentHeader × List UInt8 => core.1.sn) h
  rw [List.map_map, List.map_map] at hMap
  exact hMap

/-- How the sender may get on: `snd_una` and `snd_nxt` do not fall, and numbers
that appear in the buffer are new. -/
structure Progress (s t : ImKcpp mtu) : Prop where
  una_le : s.segmentTracker.sndUna ≤ t.segmentTracker.sndUna
  nxt_le : s.segmentTracker.sndNxt ≤ t.segmentTracker.sndNxt
  fresh : ∀ sn ∈ t.numbers, sn ∈ s.numbers ∨ s.segmentTracker.sndNxt ≤ sn

/-- Whatever leaves these two components alone. -/
theorem Progress.of_eq {s t : ImKcpp mtu} (hBuffer : t.senderBuffer = s.senderBuffer)
    (hTracker : t.segmentTracker = s.segmentTracker) : s.Progress t := by
  refine ⟨?_, ?_, ?_⟩
  · rw [hTracker]
    exact UInt32.le_refl _
  · rw [hTracker]
    exact UInt32.le_refl _
  · intro sn hSn
    rw [numbers, hBuffer] at hSn
    exact .inl hSn

theorem Progress.refl (s : ImKcpp mtu) : s.Progress s := .of_eq rfl rfl

theorem Progress.trans {s t u : ImKcpp mtu} (first : s.Progress t) (second : t.Progress u) :
    s.Progress u := by
  refine ⟨UInt32.le_trans first.una_le second.una_le,
    UInt32.le_trans first.nxt_le second.nxt_le, ?_⟩
  intro sn hSn
  rcases second.fresh sn hSn with hSn | hNew
  · exact first.fresh sn hSn
  · exact .inr (UInt32.le_trans first.nxt_le hNew)

/-- The two ways in which a segment of the peer acknowledges a number. -/
def Acknowledges (frame : Frame) (sn : UInt32) : Prop :=
  (frame.header.cmd = Commands.ack ∧ frame.header.sn = sn) ∨ sn < frame.header.una

instance (frame : Frame) (sn : UInt32) : Decidable (Acknowledges frame sn) :=
  inferInstanceAs (Decidable ((frame.header.cmd = Commands.ack ∧ frame.header.sn = sn) ∨
    sn < frame.header.una))

end ImKcpp

/-- A segment of the peer removes from the sender buffer what it acknowledges,
and nothing else. -/
theorem SenderInvariant.applyFrame_sndBuf {s : ImKcpp mtu}
    (h : SenderInvariant mtu s.sharedCtx.conv s.sender.sndQueue s.senderBuffer s.segmentTracker)
    (frame : Frame) :
    (s.applyFrame frame).senderBuffer.sndBuf =
      s.senderBuffer.sndBuf.filter fun seg =>
        decide (¬ImKcpp.Acknowledges frame seg.header.sn) := by
  have hUna := h.unaReceived_sndBuf frame.header.una
  have hAck := (h.unaReceived frame.header.una).ackReceived_sndBuf frame.header.sn
  by_cases hCmd : frame.header.cmd = Commands.ack
  · have hPush : frame.header.cmd ≠ Commands.push := by
      rw [hCmd]
      decide
    have hBuffer : (s.applyFrame frame).senderBuffer.sndBuf =
        (AckController.unaReceived frame.header.una s.senderBuffer s.segmentTracker).1.sndBuf.filter
          fun seg => decide (seg.header.sn ≠ frame.header.sn) := by
      rw [← hAck]
      unfold ImKcpp.applyFrame
      dsimp only
      rw [if_neg hPush, if_pos hCmd]
      rfl
    rw [hBuffer, hUna, List.filter_filter]
    refine List.filter_congr fun seg _ => ?_
    simp [ImKcpp.Acknowledges, hCmd, eq_comm]
  · have hBuffer : (s.applyFrame frame).senderBuffer =
        (AckController.unaReceived frame.header.una s.senderBuffer s.segmentTracker).1 := by
      unfold ImKcpp.applyFrame
      dsimp only
      rw [if_neg hCmd]
      split_ifs
      · rw [ImKcpp.applyPush_senderBuffer]
        rfl
      · rfl
      · rfl
    rw [hBuffer, hUna]
    refine List.filter_congr fun seg _ => ?_
    simp [ImKcpp.Acknowledges, hCmd]

/-- The same for all segments of a datagram, in whichever order they come. -/
theorem SenderInvariant.foldl_sndBuf {s : ImKcpp mtu}
    (h : SenderInvariant mtu s.sharedCtx.conv s.sender.sndQueue s.senderBuffer s.segmentTracker)
    (frames : List Frame) :
    (frames.foldl ImKcpp.applyFrame s).senderBuffer.sndBuf =
      s.senderBuffer.sndBuf.filter fun seg =>
        decide (∀ frame ∈ frames, ¬ImKcpp.Acknowledges frame seg.header.sn) := by
  induction frames generalizing s with
  | nil => simp
  | cons frame rest ih =>
      rw [List.foldl_cons, ih (h.applyFrame frame), h.applyFrame_sndBuf, List.filter_filter]
      refine List.filter_congr fun seg _ => ?_
      simp [Bool.and_comm]

namespace ImKcpp

section Input

theorem Invariant.mem_applyFrame_sndBuf {s : ImKcpp mtu} (h : s.Invariant) (frame : Frame)
    (seg : Segment) :
    seg ∈ (s.applyFrame frame).senderBuffer.sndBuf ↔
      seg ∈ s.senderBuffer.sndBuf ∧ ¬Acknowledges frame seg.header.sn := by
  rw [h.sender.applyFrame_sndBuf, List.mem_filter, decide_eq_true_eq]

theorem Invariant.applyFrame_progress {s : ImKcpp mtu} (h : s.Invariant) (frame : Frame) :
    s.Progress (s.applyFrame frame) := by
  have hUna : s.segmentTracker.sndUna ≤ (s.applyFrame frame).segmentTracker.sndUna := by
    have hHeader : s.segmentTracker.sndUna ≤ (s.acceptHeader frame.header).segmentTracker.sndUna :=
      h.sender.una_le_discard (h.sender.unaReceived_sublist frame.header.una)
    unfold ImKcpp.applyFrame
    dsimp only
    split_ifs
    · rwa [applyPush_segmentTracker]
    · have hSender := (h.acceptHeader frame.header).sender
      change _ ≤ (AckController.ackReceived frame.header.sn _ _).2.sndUna
      rw [hSender.ackReceived_tracker frame.header.sn]
      exact UInt32.le_trans hHeader (hSender.una_le_discard (hSender.ackReceived_sublist _))
    · exact hHeader
    · exact hHeader
  refine ⟨hUna, UInt32.le_of_eq (s.applyFrame_sndNxt frame).symm, ?_⟩
  intro sn hSn
  obtain ⟨seg, hSeg, rfl⟩ := List.mem_map.mp hSn
  exact .inl (List.mem_map_of_mem ((h.mem_applyFrame_sndBuf frame seg).mp hSeg).1)

theorem Invariant.foldl_progress {s : ImKcpp mtu} (h : s.Invariant) {frames : List Frame}
    (hFrames : ∀ frame ∈ frames, frame.Accepted s.sharedCtx.conv) :
    s.Progress (frames.foldl ImKcpp.applyFrame s) :=
  h.foldl_induct
    (fun _ frame hPrior _ hProgress => hProgress.trans (hPrior.applyFrame_progress frame))
    hFrames (.refl s)

theorem Invariant.mem_foldl_sndBuf {s : ImKcpp mtu} (h : s.Invariant) (frames : List Frame)
    (seg : Segment) :
    seg ∈ (frames.foldl ImKcpp.applyFrame s).senderBuffer.sndBuf ↔
      seg ∈ s.senderBuffer.sndBuf ∧ ∀ frame ∈ frames, ¬Acknowledges frame seg.header.sn := by
  rw [h.sender.foldl_sndBuf, List.mem_filter, decide_eq_true_eq]

end Input

/-- Admission gives out new numbers, one after the other. -/
theorem moved_progress (s : ImKcpp mtu) :
    s.segmentTracker.sndUna = s.moved.2.2.sndUna ∧
      s.segmentTracker.sndNxt ≤ s.moved.2.2.sndNxt ∧
      s.senderBuffer.sndBuf <+: s.moved.2.1.sndBuf ∧
      ∀ seg ∈ s.moved.2.1.sndBuf,
        seg ∈ s.senderBuffer.sndBuf ∨ s.segmentTracker.sndNxt ≤ seg.header.sn := by
  refine Sender.moveSendQueueToBuffer_induct (P := fun _ buffer tracker =>
    s.segmentTracker.sndUna = tracker.sndUna ∧ s.segmentTracker.sndNxt ≤ tracker.sndNxt ∧
      s.senderBuffer.sndBuf <+: buffer.sndBuf ∧ ∀ seg ∈ buffer.sndBuf,
        seg ∈ s.senderBuffer.sndBuf ∨ s.segmentTracker.sndNxt ≤ seg.header.sn) ?_
    ⟨rfl, UInt32.le_refl _, List.prefix_rfl, fun _ hSeg => .inl hSeg⟩
  rintro newseg rest buffer tracker hWindow ⟨hUna, hNxt, hPrefix, hBuffer⟩
  have hSucc := SegmentTracker.sndNxt_succ hWindow
  refine ⟨hUna, ?_, hPrefix.trans (List.prefix_append _ _), ?_⟩
  · rw [UInt32.le_iff_toNat_le] at hNxt ⊢
    dsimp only
    omega
  · intro seg hSeg
    rcases List.mem_append.mp hSeg with hSeg | hSeg
    · exact hBuffer seg hSeg
    · rw [List.mem_singleton.mp hSeg]
      exact .inr hNxt

/-- A flush keeps every buffered number and can only add new ones. -/
theorem Flushed.progress {s next : ImKcpp mtu} {packets : List (List Frame)} {result : FlushResult}
    {askSend askTell : Bool} (h : Flushed host s next packets result askSend askTell) :
    s.Progress next ∧ ∀ sn ∈ s.numbers, sn ∈ next.numbers := by
  obtain ⟨hUna, hNxt, hPrefix, hBuffer⟩ := s.moved_progress
  have hNumbers : next.numbers = s.moved.2.1.sndBuf.map fun seg => seg.header.sn :=
    map_sn_of_core (h.sndBuf_eq ▸ Sender.map_flushed_core _)
  refine ⟨⟨?_, ?_, ?_⟩, ?_⟩
  · rw [h.tracker_eq, ← hUna]
    exact UInt32.le_refl _
  · rw [h.tracker_eq]
    exact hNxt
  · intro sn hSn
    rw [hNumbers] at hSn
    obtain ⟨seg, hSeg, rfl⟩ := List.mem_map.mp hSn
    exact (hBuffer seg hSeg).imp_left List.mem_map_of_mem
  · intro sn hSn
    rw [hNumbers]
    exact (hPrefix.map _).subset hSn

/-- Whatever is sent by a flush stays buffered. -/
theorem Flushed.mem_numbers {s next : ImKcpp mtu} {packets : List (List Frame)}
    {result : FlushResult} {askSend askTell : Bool}
    (h : Flushed host s next packets result askSend askTell) (hSending : s.Sending) :
    ∀ frame ∈ (packets.map (wire host)).flatMap (framesOf host),
      frame.header.cmd = Commands.push → frame.header.sn ∈ next.numbers := by
  rw [h.framesOf_eq hSending, h.frames_eq]
  have hNumbers : next.numbers = s.moved.2.1.sndBuf.map fun seg => seg.header.sn :=
    map_sn_of_core (h.sndBuf_eq ▸ Sender.map_flushed_core _)
  intro frame hFrame hCmd
  obtain ⟨seg, hSeg, -, hHeader⟩ := Sender.mem_pushFrames (push_of_mem_flushFrames hFrame hCmd)
  rw [hNumbers, hHeader]
  exact List.mem_map_of_mem (f := fun seg : Segment => seg.header.sn) hSeg

theorem FlushStart.progress {s start : ImKcpp mtu} {call : Call} (h : s.FlushStart call start) :
    s.Progress start ∧ start.numbers = s.numbers := by
  cases h with
  | flush => exact ⟨.refl s, rfl⟩
  | update current tsFlush => exact ⟨.of_eq rfl rfl, rfl⟩

/-- One call, seen by the sender. -/
theorem Effect.progress {s : ImKcpp mtu} {call : Call} {outcome : Outcome mtu}
    (h : Effect host s call outcome) (hInvariant : s.Invariant) : s.Progress outcome.state := by
  cases h with
  | configure => exact .of_eq rfl rfl
  | input data folded sndBuf controller result hFolded hCore hRcvWnd hTotal =>
      have hFold := hInvariant.foldl_progress (scan_accepted host s.sharedCtx.conv data)
      rw [← hFolded] at hFold
      have hNumbers : folded.numbers = sndBuf.map fun seg => seg.header.sn :=
        (map_sn_of_core hCore).symm
      refine ⟨hFold.una_le, hFold.nxt_le, ?_⟩
      intro sn hSn
      refine hFold.fresh sn ?_
      rw [hNumbers]
      exact hSn
  | recvRefused => exact .of_eq rfl rfl
  | recv => exact .of_eq rfl rfl
  | sendRefused => exact .of_eq rfl rfl
  | send => exact .of_eq rfl rfl
  | check => exact .of_eq rfl rfl
  | idle call start hStart hIdle => exact hStart.progress.1
  | flush call start next packets result askSend askTell hStart hFlushes hFlushed =>
      exact hStart.progress.1.trans hFlushed.progress.1

/-- Only input can take a number out of the buffer, and only by acknowledging it. -/
theorem Effect.acknowledges {s : ImKcpp mtu} {call : Call} {outcome : Outcome mtu}
    (h : Effect host s call outcome) (hInvariant : s.Invariant) {sn : UInt32} (hSn : sn ∈ s.numbers)
    (hGone : sn ∉ outcome.state.numbers) :
    ∃ data, call = .input data ∧
      ∃ frame ∈ (scan host s.sharedCtx.conv data).1, Acknowledges frame sn := by
  cases h with
  | configure => exact absurd hSn hGone
  | input data folded sndBuf controller result hFolded hCore hRcvWnd hTotal =>
      refine ⟨data, rfl, ?_⟩
      have hNumbers : folded.numbers = sndBuf.map fun seg => seg.header.sn :=
        (map_sn_of_core hCore).symm
      obtain ⟨seg, hSeg, rfl⟩ := List.mem_map.mp hSn
      by_contra hNone
      push Not at hNone
      refine hGone ?_
      change seg.header.sn ∈ sndBuf.map fun seg => seg.header.sn
      rw [← hNumbers, hFolded]
      exact List.mem_map_of_mem ((hInvariant.mem_foldl_sndBuf _ seg).mpr ⟨hSeg, hNone⟩)
  | recvRefused => exact absurd hSn hGone
  | recv => exact absurd hSn hGone
  | sendRefused => exact absurd hSn hGone
  | send => exact absurd hSn hGone
  | check => exact absurd hSn hGone
  | idle call start hStart hIdle => exact absurd (hStart.progress.2.symm ▸ hSn) hGone
  | flush call start next packets result askSend askTell hStart hFlushes hFlushed =>
      exact absurd (hFlushed.progress.2 sn (hStart.progress.2.symm ▸ hSn)) hGone

/-- What a call emits is in the buffer behind it. -/
theorem Effect.emits {s : ImKcpp mtu} {call : Call} {outcome : Outcome mtu}
    (h : Effect host s call outcome) (hInvariant : s.Invariant) :
    ∀ frame ∈ outcome.datagrams.flatMap (framesOf host),
      frame.header.cmd = Commands.push → frame.header.sn ∈ outcome.state.numbers := by
  cases h with
  | flush call start next packets result askSend askTell hStart hFlushes hFlushed =>
      exact hFlushed.mem_numbers (hStart.invariant hInvariant).toSending
  | _ => simp

end ImKcpp

variable {conv : UInt32} {party next final : Party mtu}

theorem Party.Step.progress {call : Call} (h : party.Step host next call)
    (hReach : (endpointSystem host mtu conv).Reachable party) :
    party.endpoint.Progress next.endpoint := by
  have hInvariant := invariant_of_reachable hReach
  obtain ⟨outcome, hEffect, rfl⟩ := h.effect hInvariant
  exact hEffect.progress hInvariant

/-- Over any run, the sender gets on. -/
theorem progress_of_leads (hReach : (endpointSystem host mtu conv).Reachable party)
    (run : (endpointSystem host mtu conv).Leads party final) :
    party.endpoint.Progress final.endpoint := by
  refine run.monotone (r := fun party final =>
    party.endpoint.Progress final.endpoint) ?_ ?_ ?_ hReach
  · exact fun party => .refl party.endpoint
  · exact fun _ _ _ first second => first.trans second
  · rintro party next hReach ⟨call, hStep⟩
    exact hStep.progress hReach

/-- A number below `snd_nxt` that is not buffered stays out of the buffer and is
sent no more. -/
theorem retired_of_leads {sn : UInt32} (hReach : (endpointSystem host mtu conv).Reachable party)
    (hOld : sn < party.endpoint.segmentTracker.sndNxt) (hGone : sn ∉ party.endpoint.numbers)
    (run : (endpointSystem host mtu conv).Leads party final) :
    sn ∉ final.endpoint.numbers ∧ ∃ later, final.emitted = party.emitted ++ later ∧
      ∀ frame ∈ later.flatMap (framesOf host), frame.header.cmd = Commands.push →
        frame.header.sn ≠ sn := by
  have hRun : sn < final.endpoint.segmentTracker.sndNxt ∧ sn ∉ final.endpoint.numbers ∧
      ∃ later, final.emitted = party.emitted ++ later ∧
        ∀ frame ∈ later.flatMap (framesOf host),
          frame.header.cmd = Commands.push → frame.header.sn ≠ sn := by
    refine run.invariant (P := fun final => sn < final.endpoint.segmentTracker.sndNxt ∧
      sn ∉ final.endpoint.numbers ∧ ∃ later, final.emitted = party.emitted ++ later ∧
        ∀ frame ∈ later.flatMap (framesOf host),
          frame.header.cmd = Commands.push → frame.header.sn ≠ sn) ?_ hReach
      ⟨hOld, hGone, [], by simp, by simp⟩
    rintro middle last hMiddle ⟨hLow, hOut, later, hEmitted, hLater⟩ ⟨call, hStep⟩
    have hInvariant := invariant_of_reachable hMiddle
    have hProgress := hStep.progress hMiddle
    obtain ⟨outcome, hEffect, rfl⟩ := hStep.effect hInvariant
    have hStays : sn ∉ outcome.state.numbers := by
      intro hSn
      rcases hProgress.fresh sn hSn with hSn | hNew
      · exact hOut hSn
      · exact absurd hLow (UInt32.not_lt.mpr hNew)
    refine ⟨UInt32.lt_of_lt_of_le hLow hProgress.nxt_le, hStays, later ++ outcome.datagrams, ?_, ?_⟩
    · rw [Party.record_emitted, hEmitted, List.append_assoc]
    · intro frame hFrame hCmd hSame
      rw [List.flatMap_append, List.mem_append] at hFrame
      rcases hFrame with hFrame | hFrame
      · exact hLater frame hFrame hCmd hSame
      · exact hStays (hSame ▸ hEffect.emits hInvariant frame hFrame hCmd)
  exact hRun.2

/-- The sender in every state that calls with arbitrary input can lead to: its
buffer is ordered between `snd_una` and `snd_nxt`, `snd_una` does not fall, and
numbers leave the buffer by acknowledgement only and for good. -/
theorem sender_safe (hReach : (endpointSystem host mtu conv).Reachable party) :
    party.endpoint.segmentTracker.sndUna ≤ party.endpoint.segmentTracker.sndNxt ∧
    party.endpoint.numbers.Pairwise (· < ·) ∧
    (∀ sn ∈ party.endpoint.numbers,
      party.endpoint.segmentTracker.sndUna ≤ sn ∧ sn < party.endpoint.segmentTracker.sndNxt) ∧
    party.endpoint.segmentTracker.sndUna =
      party.endpoint.numbers.head?.getD party.endpoint.segmentTracker.sndNxt ∧
    (∀ final, (endpointSystem host mtu conv).Leads party final →
      party.endpoint.segmentTracker.sndUna ≤ final.endpoint.segmentTracker.sndUna) ∧
    ∀ call next, party.Step host next call →
      ∀ sn ∈ party.endpoint.numbers, sn ∉ next.endpoint.numbers →
        (∃ data, call = .input data ∧
          ∃ frame ∈ (scan host conv data).1, ImKcpp.Acknowledges frame sn) ∧
        ∀ final, (endpointSystem host mtu conv).Leads next final →
          sn ∉ final.endpoint.numbers ∧ ∃ later, final.emitted = next.emitted ++ later ∧
            ∀ frame ∈ later.flatMap (framesOf host),
              frame.header.cmd = Commands.push → frame.header.sn ≠ sn := by
  have hInvariant := invariant_of_reachable hReach
  have hSender := hInvariant.sender
  have hRange : ∀ sn ∈ party.endpoint.numbers,
      party.endpoint.segmentTracker.sndUna ≤ sn ∧ sn < party.endpoint.segmentTracker.sndNxt := by
    intro sn hSn
    obtain ⟨seg, hSeg, rfl⟩ := List.mem_map.mp hSn
    exact ⟨hSender.una_le seg hSeg, hSender.numbered seg hSeg⟩
  refine ⟨hSender.una_le_nxt, ?_, hRange, ?_, ?_, ?_⟩
  · refine List.pairwise_map.mpr (hSender.increasing.imp ?_)
    exact fun hLt => UInt32.lt_iff_toNat_lt.mpr hLt
  · rw [hSender.una_eq, ImKcpp.numbers, List.head?_map]
    rfl
  · exact fun final run => (progress_of_leads hReach run).una_le
  · intro call next hStep sn hSn hGone
    have hProgress := hStep.progress hReach
    refine ⟨?_, ?_⟩
    · obtain ⟨outcome, hEffect, rfl⟩ := hStep.effect hInvariant
      rw [← conv_of_reachable hReach]
      exact hEffect.acknowledges hInvariant hSn hGone
    · intro final run
      have hOld := UInt32.lt_of_lt_of_le (hRange sn hSn).2 hProgress.nxt_le
      exact retired_of_leads (hReach.step ⟨call, hStep⟩) hOld hGone run

/-- With two segments in flight, the first is acknowledged, and never comes back. -/
theorem sender_safe_acknowledged :
    ∃ party next : Party .least,
      (Party.fresh .least 0).run Host.x8664
        [.configure (.congestionWindowEnabled false), .send [1], .send [2], .update 0] = .ok party ∧
      party.Step Host.x8664 next (.input (wire Host.x8664 [⟨{ cmd := Commands.ack }, []⟩])) ∧
      party.endpoint.numbers = [0, 1] ∧ next.endpoint.numbers = [1] ∧
      ∀ final, (endpointSystem Host.x8664 .least 0).Leads next final →
        0 ∉ final.endpoint.numbers ∧ ∃ later, final.emitted = next.emitted ++ later ∧
          ∀ frame ∈ later.flatMap (framesOf Host.x8664),
            frame.header.cmd = Commands.push → frame.header.sn ≠ 0 := by
  have hRuns : (Party.fresh .least 0).run Host.x8664
      [.configure (.congestionWindowEnabled false), .send [1], .send [2], .update 0] >>=
        (fun party =>
        (party.endpoint.perform Host.x8664
          (.input (wire Host.x8664 [⟨{ cmd := Commands.ack }, []⟩]))).map
          fun outcome => (party.endpoint.numbers, outcome.state.numbers)) = .ok ([0, 1], [1]) := by
    decide +kernel
  obtain ⟨party, hRun, hInput⟩ := bind_eq_ok.mp hRuns
  obtain ⟨outcome, hOutcome, hNumbers⟩ := map_eq_ok.mp hInput
  obtain ⟨hBoth, hSecond⟩ := Prod.mk.inj hNumbers
  obtain ⟨-, -, -, -, -, hRemoved⟩ := sender_safe (Party.reachable_run (.of_init rfl) hRun)
  have hStep : party.Step Host.x8664 (party.record _ outcome) _ := ⟨outcome, hOutcome, rfl⟩
  refine ⟨party, _, hRun, hStep, hBoth, hSecond, (hRemoved _ _ hStep 0 ?_ ?_).2⟩
  · rw [hBoth]
    decide
  · rw [Party.record_endpoint, hSecond]
    decide

end Imkcpp
