import Imkcpp.FlushPackets
import Imkcpp.Library.NextFit

/-! How a flush fills its datagrams. The three loops of a flush look at the room
in the buffer in three places and still do the same: each segment goes into the
open datagram when it fits there. That is next fit, so no flush could do with
fewer datagrams. -/
namespace Imkcpp

open Transition NextFit

variable {mtu : Mtu} {host : Host}

/-- The bytes of a segment in a datagram. -/
def Frame.size (frame : Frame) : Nat := 24 + frame.payload.length

theorem load_size (host : Host) (frames : List Frame) :
    load Frame.size frames = (wire host frames).length := by
  induction frames with
  | nil => rfl
  | cons frame rest ih =>
      rw [load_cons, wire_cons, List.length_append, Frame.bytes_length, ih, Frame.size]

/-- The datagrams that next fit makes of some segments. -/
def binsOf (mtu : Mtu) (frames : List Frame) : Bins Frame :=
  frames.foldl (Bins.put Frame.size mtu.bytes) {}

theorem binsOf_concat (mtu : Mtu) (frames : List Frame) (frame : Frame) :
    binsOf mtu (frames ++ [frame]) = (binsOf mtu frames).put Frame.size mtu.bytes frame := by
  rw [binsOf, List.foldl_append]
  rfl

/-- The callback has been given the closed datagrams, and the buffer holds the open one. -/
structure Filled (host : Host) (frames : List Frame) (flusher : Flusher mtu)
    (output : List (List UInt8)) : Prop where
  output_eq : output = (binsOf mtu frames).closed.map (wire host)
  content_eq : flusher.content = wire host (binsOf mtu frames).current
  offset_le : flusher.offset ≤ mtu.bytes

namespace Filled

variable {frames : List Frame} {flusher room next : Flusher mtu}
    {output datagrams : List (List UInt8)}
  {written : Nat}

theorem start (h : flusher.offset = 0) : Filled host [] flusher [] where
  output_eq := rfl
  content_eq := by simp [Flusher.content, h, binsOf]
  offset_le := by rw [h]; exact Nat.zero_le _

theorem offset_eq (h : Filled host frames flusher output) :
    flusher.offset = load Frame.size (binsOf mtu frames).current := by
  rw [load_size host, ← h.content_eq, Flusher.content_length h.offset_le]

/-- Handing over the open datagram. -/
theorem flush (h : Filled host frames flusher output)
    (hFlush : flusher.flush output = .ok (room, datagrams, written)) :
    room.offset = 0 ∧ room.content = [] ∧
      datagrams = output ++ [wire host (binsOf mtu frames).current] := by
  rw [Flusher.flush_of_le output h.offset_le] at hFlush
  obtain ⟨rfl, hSent⟩ := Prod.mk.inj (Except.ok.inj hFlush)
  obtain ⟨rfl, -⟩ := Prod.mk.inj hSent
  exact ⟨rfl, by simp [Flusher.content], by rw [h.content_eq]⟩

/-- The buffer is handed over exactly when the next segment does not fit. -/
theorem put (h : Filled host frames flusher output) (frame : Frame) (next : Flusher mtu)
    (hSize : frame.payload.length ≤ mtu.maxSegmentSize)
    (hRoom : flusher.flushIfDoesNotFit output frame.payload.length =
      .ok (room, datagrams, written)) :
    room.offset + frame.size ≤ mtu.bytes ∧
      (next.offset = room.offset + frame.size → next.content = room.content ++ frame.bytes host →
        Filled host (frames ++ [frame]) next datagrams) := by
  have hMtu := mtu.maxSegmentSize_add
  have hOffset := h.offset_eq
  have hFrame : frame.size = 24 + frame.payload.length := rfl
  unfold Flusher.flushIfDoesNotFit at hRoom
  split_ifs at hRoom with hFull
  · obtain ⟨hEmpty, hContent, rfl⟩ := h.flush hRoom
    have hFits : room.offset + frame.size ≤ mtu.bytes := by omega
    refine ⟨hFits, fun hNext hBytes => ?_⟩
    have hClosed := Bins.put_of_lt (binsOf mtu frames) frame
      (show mtu.bytes < load Frame.size (binsOf mtu frames).current + frame.size by omega)
    refine ⟨?_, ?_, hNext.trans_le hFits⟩
    · rw [binsOf_concat, hClosed, h.output_eq, List.map_append, List.map_singleton]
    · rw [binsOf_concat, hClosed, hBytes, hContent, wire_cons, wire_nil, List.nil_append,
        List.append_nil]
  · obtain ⟨rfl, hKept⟩ := Prod.mk.inj (Except.ok.inj hRoom)
    obtain ⟨rfl, -⟩ := Prod.mk.inj hKept
    have hFits : flusher.offset + frame.size ≤ mtu.bytes := by omega
    refine ⟨hFits, fun hNext hBytes => ?_⟩
    have hOpen := Bins.put_of_le (binsOf mtu frames) frame (hOffset ▸ hFits)
    refine ⟨?_, ?_, hNext.trans_le hFits⟩
    · rw [binsOf_concat, hOpen, h.output_eq]
    · rw [binsOf_concat, hOpen, hBytes, h.content_eq, wire_append, wire_cons, wire_nil,
        List.append_nil]

/-- A segment without data. -/
theorem putHeader (h : Filled host frames flusher output) {header : SegmentHeader}
    (hRoom : flusher.flushIfFull output = .ok (room, datagrams, written))
    (hEmplace : room.emplace host header = .ok next) :
    Filled host (frames ++ [⟨header, []⟩]) next datagrams := by
  obtain ⟨hFits, hNext⟩ := h.put ⟨header, []⟩ next (Nat.zero_le _) hRoom
  obtain ⟨filled, hFilled, hOffset, hContent⟩ := @Flusher.emplace_of_le _ host _ header hFits
  obtain rfl := Except.ok.inj (hFilled.symm.trans hEmplace)
  refine hNext hOffset ?_
  rw [hContent, Frame.bytes, List.append_nil]

/-- A segment with data. -/
theorem putData (h : Filled host frames flusher output) {header : SegmentHeader} {data : List UInt8}
    (hLen : header.len.toNat = data.length) (hSize : data.length ≤ mtu.maxSegmentSize)
    (hRoom : flusher.flushIfDoesNotFit output data.length = .ok (room, datagrams, written))
    (hEmplace : room.emplaceData host header data = .ok next) :
    Filled host (frames ++ [⟨header, data⟩]) next datagrams := by
  obtain ⟨hFits, hNext⟩ := h.put ⟨header, data⟩ next hSize hRoom
  rw [Frame.size, ← Nat.add_assoc] at hFits
  obtain ⟨filled, hFilled, hOffset, hContent⟩ := Flusher.emplaceData_of_le host hLen hFits
  obtain rfl := Except.ok.inj (hFilled.symm.trans hEmplace)
  exact hNext (by rw [hOffset, Frame.size, Nat.add_assoc]) hContent

/-- What is left in the buffer is the last datagram. -/
theorem finish (h : Filled host frames flusher output)
    (hFlush : flusher.flushIfNotEmpty output = .ok (next, datagrams, written)) :
    datagrams = (pack Frame.size mtu.bytes frames).map (wire host) := by
  have hOffset := h.offset_eq
  have hEmpty : (binsOf mtu frames).current = [] ↔ flusher.offset = 0 := by
    rw [hOffset, load_size host]
    constructor
    · rintro hNil
      rw [hNil]
      rfl
    · intro hZero
      by_contra hSome
      have hLe := le_wire_length host hSome
      omega
  unfold Flusher.flushIfNotEmpty Flusher.isEmpty at hFlush
  rw [pack, Bins.used]
  change datagrams = ((binsOf mtu frames).closed ++
    if (binsOf mtu frames).current = [] then [] else [(binsOf mtu frames).current]).map (wire host)
  by_cases hZero : flusher.offset = 0
  · simp only [hZero, BEq.rfl, Bool.not_true, Bool.false_eq_true, if_false] at hFlush
    obtain ⟨-, hKept⟩ := Prod.mk.inj (Except.ok.inj hFlush)
    obtain ⟨rfl, -⟩ := Prod.mk.inj hKept
    rw [if_pos (hEmpty.mpr hZero), List.append_nil, h.output_eq]
  · have hSome : (!flusher.offset == 0) = true := by simp [hZero]
    rw [if_pos hSome] at hFlush
    obtain ⟨-, -, rfl⟩ := h.flush hFlush
    rw [if_neg (mt hEmpty.mp hZero), List.map_append, h.output_eq, List.map_singleton]

end Filled

section Loops

variable {frames : List Frame} {flusher next : Flusher mtu} {output datagrams : List (List UInt8)}

theorem ImKcpp.flushAcksLoop_filled {acks : List Ack} {header last : SegmentHeader}
    {sent total : Nat} (h : Filled host frames flusher output)
    (hLoop : flushAcksLoop host acks header flusher output sent =
      .ok (last, next, datagrams, total)) :
    last = lastHeader header acks ∧
      Filled host (frames ++ acks.map (ackFrame header)) next datagrams := by
  induction acks generalizing header frames flusher output sent with
  | nil =>
      obtain ⟨rfl, hRest⟩ := Prod.mk.inj (Except.ok.inj hLoop)
      obtain ⟨rfl, hSent⟩ := Prod.mk.inj hRest
      obtain ⟨rfl, -⟩ := Prod.mk.inj hSent
      exact ⟨rfl, by simpa using h⟩
  | cons ack rest ih =>
      obtain ⟨⟨room, flushed, size⟩, hRoom, hLoop⟩ := bind_eq_ok.mp hLoop
      obtain ⟨filled, hEmplace, hLoop⟩ := bind_eq_ok.mp hLoop
      obtain ⟨hLast, hFilled⟩ := ih (h.putHeader hRoom hEmplace) hLoop
      refine ⟨hLast, ?_⟩
      rw [List.append_assoc] at hFilled
      exact hFilled

theorem ImKcpp.flushProbe_filled {flag : Bool} {cmd : UInt8} {header last : SegmentHeader}
    {sent total : Nat} (h : Filled host frames flusher output)
    (hProbe : flushProbe host flag cmd header flusher output sent =
      .ok (last, next, datagrams, total)) :
    last = (if flag then { header with cmd } else header) ∧
      Filled host (frames ++ if flag then [⟨{ header with cmd }, []⟩] else []) next datagrams := by
  cases flag with
  | false =>
      obtain ⟨rfl, hRest⟩ := Prod.mk.inj (Except.ok.inj hProbe)
      obtain ⟨rfl, hSent⟩ := Prod.mk.inj hRest
      obtain ⟨rfl, -⟩ := Prod.mk.inj hSent
      exact ⟨rfl, by simpa using h⟩
  | true =>
      obtain ⟨⟨room, flushed, size⟩, hRoom, hProbe⟩ := bind_eq_ok.mp hProbe
      obtain ⟨filled, hEmplace, hProbe⟩ := bind_eq_ok.mp hProbe
      obtain ⟨rfl, hRest⟩ := Prod.mk.inj (Except.ok.inj hProbe)
      obtain ⟨rfl, hSent⟩ := Prod.mk.inj hRest
      obtain ⟨rfl, -⟩ := Prod.mk.inj hSent
      exact ⟨rfl, h.putHeader hRoom hEmplace⟩

namespace Sender

variable {settings : FlushSettings}

theorem sendSegment_filled {segment sent : Segment} (hSendable : segment.Sendable mtu)
    {ctx after : FlushContext mtu} (h : Filled host frames ctx.flusher ctx.output)
    (hSend : sendSegment host settings segment ctx = .ok (sent, after)) :
    Filled host (frames ++ [⟨(refresh settings segment).header, segment.data⟩]) after.flusher
      after.output := by
  have hLen : (refresh settings segment).dataSize = segment.data.length := hSendable.len_eq
  obtain ⟨⟨room, flushed, written⟩, hRoom, hSend⟩ := bind_eq_ok.mp hSend
  obtain ⟨filled, hEmplace, hSend⟩ := bind_eq_ok.mp hSend
  obtain ⟨-, rfl⟩ := Prod.mk.inj (Except.ok.inj hSend)
  rw [hLen] at hRoom
  exact h.putData hSendable.len_eq hSendable.data_length_le hRoom hEmplace

theorem forEachSegment_filled {segments kept : List Segment}
    (hSendable : ∀ segment ∈ segments, segment.Sendable mtu) {ctx final : FlushContext mtu}
    (h : Filled host frames ctx.flusher ctx.output)
    (hLoop : forEachSegment host settings segments ctx = .ok (kept, final)) :
    Filled host (frames ++ pushFrames settings segments) final.flusher final.output := by
  induction segments generalizing ctx frames kept with
  | nil =>
      obtain ⟨-, rfl⟩ := Prod.mk.inj (Except.ok.inj hLoop)
      simpa [pushFrames] using h
  | cons segment rest ih =>
      have hSegment := hSendable segment (by simp)
      have hRest := fun other hOther => hSendable other (List.mem_cons_of_mem segment hOther)
      obtain ⟨processed, hProcess, hFlusher, hOutput, -⟩ := processSegment_spec settings segment ctx
      rw [← hFlusher, ← hOutput] at h
      unfold forEachSegment at hLoop
      rw [hProcess] at hLoop
      dsimp only at hLoop
      cases hDue : isDue settings segment with
      | false =>
          rw [hDue, if_neg Bool.false_ne_true] at hLoop
          obtain ⟨_, hKept, hLoop⟩ := bind_eq_ok.mp hLoop
          obtain rfl := Except.ok.inj hKept
          obtain ⟨⟨others, last⟩, hOthers, hLoop⟩ := bind_eq_ok.mp hLoop
          obtain ⟨-, rfl⟩ := Prod.mk.inj (Except.ok.inj hLoop)
          have hNone : pushFrames settings (segment :: rest) = pushFrames settings rest := by
            simp [pushFrames, hDue]
          rw [hNone]
          exact ih hRest h hOthers
      | true =>
          rw [hDue, if_pos rfl] at hLoop
          obtain ⟨⟨sent, after⟩, hSend, hLoop⟩ := bind_eq_ok.mp hLoop
          obtain ⟨_, hCounted, hLoop⟩ := bind_eq_ok.mp hLoop
          obtain rfl := Except.ok.inj hCounted
          obtain ⟨⟨others, last⟩, hOthers, hLoop⟩ := bind_eq_ok.mp hLoop
          obtain ⟨-, rfl⟩ := Prod.mk.inj (Except.ok.inj hLoop)
          have hFlushed : flushed settings segment = refresh settings (prepared settings segment) :=
            if_pos hDue
          have hOne : pushFrames settings (segment :: rest) =
              ⟨(refresh settings (prepared settings segment)).header,
                (prepared settings segment).data⟩ ::
                pushFrames settings rest := by
            simp [pushFrames, hDue, hFlushed, refresh]
          rw [hOne, ← List.singleton_append, ← List.append_assoc]
          have hFilled := sendSegment_filled (prepared_sendable hSegment) h hSend
          refine ih hRest ?_ hOthers
          exact hFilled

end Sender

end Loops

namespace ImKcpp

/-- A flush hands over its segments as next fit packs them. -/
theorem flush_filled {s next : ImKcpp mtu} (hSending : s.Sending) (hUpdated : s.updated = true)
    {datagrams : List (List UInt8)} {result : FlushResult}
    (h : s.flush host = .ok (next, datagrams, result)) :
    ∃ prober, s.windowProber.update s.current s.congestionController.rmtWnd = .ok prober ∧
      datagrams = (pack Frame.size mtu.bytes
        (s.flushFrames (prober.probe &&& ProbeFlag.askSend.value != 0)
          (prober.probe &&& ProbeFlag.askTell.value != 0))).map (wire host) := by
  have hStart : Filled host [] s.flusher [] := Filled.start hSending.flusher_empty
  unfold flush at h
  rw [if_neg (by simp [hUpdated])] at h
  obtain ⟨⟨ackHeader, afterAcks, ackOutput, ackSent⟩, hAcks, h⟩ := bind_eq_ok.mp h
  obtain ⟨prober, hUpdate, h⟩ := bind_eq_ok.mp h
  obtain ⟨askSend, hAskSend, h⟩ := bind_eq_ok.mp h
  obtain ⟨⟨waskHeader, afterWask, waskOutput, waskSent⟩, hWask, h⟩ := bind_eq_ok.mp h
  obtain ⟨askTell, hAskTell, h⟩ := bind_eq_ok.mp h
  have hAskSend := Except.ok.inj ((WindowProber.hasFlag_eq prober .askSend).symm.trans hAskSend)
  have hAskTell := Except.ok.inj ((WindowProber.hasFlag_eq prober .askTell).symm.trans hAskTell)
  obtain ⟨⟨winsHeader, afterWins, winsOutput, winsSent⟩, hWins, h⟩ := bind_eq_ok.mp h
  obtain ⟨⟨sent, dataOutput, counts⟩, hData, h⟩ := bind_eq_ok.mp h
  obtain ⟨⟨final, last, size⟩, hFinal, h⟩ := bind_eq_ok.mp h
  obtain ⟨-, hSent⟩ := Prod.mk.inj (Except.ok.inj h)
  obtain ⟨rfl, -⟩ := Prod.mk.inj hSent
  obtain ⟨rfl, hAcked⟩ := flushAcksLoop_filled hStart hAcks
  obtain ⟨rfl, hAsked⟩ := flushProbe_filled hAcked hWask
  obtain ⟨-, hTold⟩ := flushProbe_filled hAsked hWins
  obtain ⟨⟨kept, ctx⟩, hLoop, hData⟩ := bind_eq_ok.mp hData
  have hSendable : ∀ segment ∈ s.moved.2.1.sndBuf, segment.Sendable mtu :=
    fun segment hSegment => (hSending.moved.inFlight segment hSegment).sendable
  have hFilled := Sender.forEachSegment_filled hSendable hTold hLoop
  have hCtx : sent.flusher = ctx.flusher ∧ dataOutput = ctx.output := by
    dsimp only at hData
    cases hChange : ctx.change with
    | false =>
        rw [hChange, if_neg Bool.false_ne_true] at hData
        obtain ⟨_, -, hData⟩ := bind_eq_ok.mp hData
        obtain ⟨rfl, hOutput⟩ := Prod.mk.inj (Except.ok.inj hData)
        exact ⟨rfl, (Prod.mk.inj hOutput).1.symm⟩
    | true =>
        rw [hChange, if_pos rfl] at hData
        obtain ⟨inFlight, -, hData⟩ := bind_eq_ok.mp hData
        obtain ⟨_, -, hData⟩ := bind_eq_ok.mp hData
        obtain ⟨rfl, hOutput⟩ := Prod.mk.inj (Except.ok.inj hData)
        exact ⟨rfl, (Prod.mk.inj hOutput).1.symm⟩
  rw [hCtx.1, hCtx.2] at hFinal
  refine ⟨prober, hUpdate, (hFilled.finish hFinal).trans ?_⟩
  rw [hAskSend, hAskTell, flushFrames]
  cases askSend <;> cases askTell <;> rfl

/-- What a call hands over is a next-fit packing, be it of no segments at all. -/
theorem Invariant.perform_packs {s : ImKcpp mtu} (h : s.Invariant) {call : Call}
    {outcome : Outcome mtu} (hOutcome : s.perform host call = .ok outcome) :
    ∃ frames, outcome.datagrams = (pack Frame.size mtu.bytes frames).map (wire host) ∧
      outcome.datagrams.flatMap (framesOf host) = frames := by
  cases hFlushes : s.flushes call with
  | false =>
      obtain ⟨hNone, -⟩ := (h.effect hOutcome).without_flush hFlushes
      exact ⟨[], hNone, by rw [hNone, List.flatMap_nil]⟩
  | true =>
      obtain ⟨start, _, result, _, _, hStart, hUpdated, hFlush, hShape, -⟩ :=
        h.perform_flushes hOutcome hFlushes
      have hSending := (hStart.invariant h).toSending
      obtain ⟨prober, -, hPacked⟩ := flush_filled hSending hUpdated hFlush
      rw [hShape, hPacked]
      refine ⟨_, rfl, ?_⟩
      rw [framesOf_packets, flatten_pack]
      intro frame hFrame
      rw [flatten_pack] at hFrame
      exact (issued_of_mem hSending hFrame).wellFormed

end ImKcpp

/-- No call could hand over its segments, in the order it has chosen, in fewer datagrams
that fit the MTU. -/
theorem flush_fewest_datagrams {conv : UInt32} {party : Party mtu}
    (hReach : (endpointSystem host mtu conv).Reachable party) {call : Call} {outcome : Outcome mtu}
    (hOutcome : party.endpoint.perform host call = .ok outcome) {cut : List (List Frame)}
    (hCut : cut.flatten = outcome.datagrams.flatMap (framesOf host))
    (hFits : ∀ packet ∈ cut, (wire host packet).length ≤ mtu.bytes) :
    outcome.datagrams.length ≤ cut.length := by
  obtain ⟨frames, hPacked, hFrames⟩ := (invariant_of_reachable hReach).perform_packs hOutcome
  rw [hPacked, List.length_map]
  refine length_pack_le (hCut.trans hFrames) fun packet hPacket => ?_
  rw [load_size host]
  exact hFits packet hPacket

/-- Two acknowledgements do not fit into one datagram of 47 bytes. -/
theorem flush_fewest_datagrams_two_acks :
    ∃ (party : Party ⟨47, by decide⟩) (outcome : Outcome ⟨47, by decide⟩),
      party.endpoint.perform Host.x8664 .flush = .ok outcome ∧ outcome.datagrams.length = 2 ∧
      ∀ cut : List (List Frame), cut.flatten = outcome.datagrams.flatMap (framesOf Host.x8664) →
        (∀ packet ∈ cut, (wire Host.x8664 packet).length ≤ 47) → 2 ≤ cut.length := by
  obtain ⟨pushes, hPushes⟩ : ∃ pushes, pushes = wire Host.x8664
    [⟨{ cmd := Commands.push, len := 1 }, [7]⟩,
      ⟨{ cmd := Commands.push, sn := 1, len := 1 }, [8]⟩] := ⟨_, rfl⟩
  have hTwo : ((Party.fresh ⟨47, by decide⟩ 0).run Host.x8664 [.update 0, .input pushes] >>=
      fun party =>
      (party.endpoint.perform Host.x8664 .flush).map fun outcome =>
        outcome.datagrams.length) = .ok 2 := by
    rw [hPushes]
    decide +kernel
  obtain ⟨party, hRun, hFlush⟩ := bind_eq_ok.mp hTwo
  obtain ⟨outcome, hOutcome, hLength⟩ := map_eq_ok.mp hFlush
  refine ⟨party, outcome, hOutcome, hLength, fun cut hCut hFits => ?_⟩
  rw [← hLength]
  exact flush_fewest_datagrams (Party.reachable_run (.of_init rfl) hRun) hOutcome hCut hFits

end Imkcpp
