import Imkcpp.Endpoint
import Imkcpp.Frame
import Imkcpp.SenderInvariant

/-! What a flush puts on the wire. Three loops with three different flush
conditions share one buffer; `Packed` is what they all preserve: the datagrams
handed over and the bytes still collected are whole frames, in order. -/
namespace Imkcpp

variable {mtu : Mtu} {host : Host}

/-- The frames sent so far are those of the datagrams handed to the callback and
of the bytes collected in the flusher, and the size counter is right. -/
def Packed (host : Host) (frames : List Frame) (flusher : Flusher mtu)
    (output : List (List UInt8)) (sent : Nat) : Prop :=
  ∃ (packets : List (List Frame)) (current : List Frame), packets.flatten ++ current = frames ∧
    output = packets.map (wire host) ∧
    (∀ packet ∈ packets, packet ≠ [] ∧ (wire host packet).length ≤ mtu.bytes) ∧
    flusher.offset ≤ mtu.bytes ∧ flusher.content = wire host current ∧
    sent = (output.map List.length).sum

namespace Packed

variable {frames : List Frame} {flusher : Flusher mtu} {output : List (List UInt8)} {sent : Nat}

/-- A flusher that has been flushed is ready for the next flush. -/
theorem start (h : flusher.offset = 0) : Packed host [] flusher [] 0 :=
  ⟨[], [], rfl, rfl, by simp, by simp [h], by simp [Flusher.content, h], rfl⟩

/-- Handing over what has been collected, if anything has been. -/
theorem flush (h : Packed host frames flusher output sent) (hSome : 0 < flusher.offset) :
    ∃ datagrams, flusher.flush output =
      .ok ({ flusher with offset := 0 }, datagrams, flusher.offset) ∧
      Packed host frames { flusher with offset := 0 } datagrams (sent + flusher.offset) := by
  obtain ⟨packets, current, hFrames, hOutput, hPackets, hOffset, hContent, hSent⟩ := h
  have hLength : (wire host current).length = flusher.offset := by
    rw [← hContent, Flusher.content_length hOffset]
  have hCurrent : current ≠ [] := by
    rintro rfl
    simp at hLength
    omega
  refine ⟨_, Flusher.flush_of_le output hOffset, packets ++ [current], [], ?_, ?_, ?_, ?_, ?_, ?_⟩
  · simpa using hFrames
  · simp [hOutput, hContent]
  · intro packet hPacket
    rcases List.mem_append.mp hPacket with hPacket | hPacket
    · exact hPackets packet hPacket
    · rw [List.mem_singleton.mp hPacket, hLength]
      exact ⟨hCurrent, hOffset⟩
  · exact Nat.zero_le _
  · simp [Flusher.content]
  · rw [hContent]
    simp [hSent, hLength]

/-- After `flush_if_full` another header fits. -/
theorem flushIfFull (h : Packed host frames flusher output sent) :
    ∃ next datagrams size, flusher.flushIfFull output = .ok (next, datagrams, size) ∧
      Packed host frames next datagrams (sent + size) ∧ next.offset + 24 ≤ mtu.bytes := by
  have hMtu := mtu.maxSegmentSize_add
  unfold Flusher.flushIfFull
  split_ifs with hFull
  · obtain ⟨datagrams, hFlush, hPacked⟩ := h.flush (Nat.zero_lt_of_lt hFull)
    refine ⟨_, _, _, hFlush, hPacked, ?_⟩
    have hHeader := mtu.exceeds_header
    dsimp only
    omega
  · exact ⟨_, _, _, rfl, h, by omega⟩

/-- After `flush_if_does_not_fit` a segment with that payload fits. -/
theorem flushIfDoesNotFit (h : Packed host frames flusher output sent) {size : Nat}
    (hSize : size ≤ mtu.maxSegmentSize) :
    ∃ next datagrams written, flusher.flushIfDoesNotFit output size =
      .ok (next, datagrams, written) ∧
      Packed host frames next datagrams (sent + written) ∧ next.offset + 24 + size ≤ mtu.bytes := by
  have hMtu := mtu.maxSegmentSize_add
  unfold Flusher.flushIfDoesNotFit
  split_ifs with hFull
  · obtain ⟨datagrams, hFlush, hPacked⟩ := h.flush (by omega)
    refine ⟨_, _, _, hFlush, hPacked, ?_⟩
    dsimp only
    omega
  · exact ⟨_, _, _, rfl, h, by omega⟩

/-- After `flush_if_not_empty` nothing is left behind. -/
theorem flushIfNotEmpty (h : Packed host frames flusher output sent) :
    ∃ (next : Flusher mtu) (packets : List (List Frame)) (size : Nat),
      flusher.flushIfNotEmpty output = .ok (next, packets.map (wire host), size) ∧
      next.offset = 0 ∧ packets.flatten = frames ∧
      (∀ packet ∈ packets, packet ≠ [] ∧ (wire host packet).length ≤ mtu.bytes) ∧
      sent + size = ((packets.map (wire host)).map List.length).sum := by
  unfold Flusher.flushIfNotEmpty Flusher.isEmpty
  by_cases hEmpty : flusher.offset = 0
  · obtain ⟨packets, current, hFrames, rfl, hPackets, hOffset, hContent, hSent⟩ := h
    have hLength := Flusher.content_length hOffset
    rw [hContent, hEmpty] at hLength
    have hCurrent : current = [] := by
      by_contra hSome
      have hLe := le_wire_length host hSome
      omega
    refine ⟨flusher, packets, 0, by simp [hEmpty], hEmpty, ?_, hPackets, hSent⟩
    simpa [hCurrent] using hFrames
  · obtain ⟨datagrams, hFlush, packets, current, hFrames, rfl, hPackets, hOffset,
      hContent, hSent⟩ :=
      h.flush (Nat.pos_of_ne_zero hEmpty)
    have hCurrent : current = [] := by
      by_contra hSome
      have hLe := le_wire_length host hSome
      rw [← hContent] at hLe
      simp [Flusher.content] at hLe
    refine ⟨{ flusher with offset := 0 }, packets,
      flusher.offset, by simp [hEmpty, hFlush], rfl, ?_, hPackets, hSent⟩
    simpa [hCurrent] using hFrames

/-- A header that fits joins the collected frames. -/
theorem emplace (h : Packed host frames flusher output sent) (header : SegmentHeader)
    (hFits : flusher.offset + 24 ≤ mtu.bytes) :
    ∃ next, flusher.emplace host header = .ok next ∧
      Packed host (frames ++ [⟨header, []⟩]) next output sent := by
  obtain ⟨packets, current, hFrames, hOutput, hPackets, -, hContent, hSent⟩ := h
  obtain ⟨next, hEmplace, hNext, hNextContent⟩ := Flusher.emplace_of_le host hFits
  refine ⟨next, hEmplace, packets, current ++ [⟨header, []⟩], ?_, hOutput, hPackets, ?_, ?_, hSent⟩
  · rw [← List.append_assoc, hFrames]
  · omega
  · rw [hNextContent, hContent]
    simp [Frame.bytes]

/-- A segment that fits joins the collected frames. -/
theorem emplaceData (h : Packed host frames flusher output sent) (header : SegmentHeader)
    {data : List UInt8} (hLen : header.len.toNat = data.length)
    (hFits : flusher.offset + 24 + data.length ≤ mtu.bytes) :
    ∃ next, flusher.emplaceData host header data = .ok next ∧
      Packed host (frames ++ [⟨header, data⟩]) next output sent := by
  obtain ⟨packets, current, hFrames, hOutput, hPackets, -, hContent, hSent⟩ := h
  obtain ⟨next, hEmplace, hNext, hNextContent⟩ := Flusher.emplaceData_of_le host hLen hFits
  refine ⟨next, hEmplace, packets, current ++ [⟨header, data⟩], ?_, hOutput,
    hPackets, ?_, ?_, hSent⟩
  · rw [← List.append_assoc, hFrames]
  · omega
  · rw [hNextContent, hContent]
    simp [Frame.bytes]

end Packed

/-- The acknowledgements of a flush, one service header each. -/
def ackFrame (header : SegmentHeader) (ack : Ack) : Frame :=
  ⟨{ header with sn := ack.sn, ts := ack.ts }, []⟩

/-- The service header after acknowledgements have been written with it. -/
def lastHeader (header : SegmentHeader) (acks : List Ack) : SegmentHeader :=
  acks.foldl (fun header ack => { header with sn := ack.sn, ts := ack.ts }) header

theorem ImKcpp.flushAcksLoop_packed (acks : List Ack) (header : SegmentHeader)
    {frames : List Frame} {flusher : Flusher mtu} {output : List (List UInt8)} {sent : Nat}
    (h : Packed host frames flusher output sent) :
    ∃ next datagrams size, flushAcksLoop host acks header flusher output sent =
        .ok (lastHeader header acks, next, datagrams, size) ∧
      Packed host (frames ++ acks.map (ackFrame header)) next datagrams size := by
  induction acks generalizing header frames flusher output sent with
  | nil => exact ⟨flusher, output, sent, rfl, by simpa using h⟩
  | cons ack rest ih =>
      obtain ⟨room, flushed, size, hFull, hPacked, hFits⟩ := h.flushIfFull
      obtain ⟨filled, hEmplace, hFilled⟩ :=
        hPacked.emplace { header with sn := ack.sn, ts := ack.ts } hFits
      obtain ⟨next, datagrams, total, hLoop, hNext⟩ := ih _ hFilled
      refine ⟨next, datagrams, total, ?_, ?_⟩
      · unfold flushAcksLoop
        rw [hFull, ok_bind]
        dsimp only
        rw [hEmplace, ok_bind]
        exact hLoop
      · rw [List.append_assoc] at hNext
        exact hNext

theorem ImKcpp.flushProbe_packed (flag : Bool) (cmd : UInt8) (header : SegmentHeader)
    {frames : List Frame} {flusher : Flusher mtu} {output : List (List UInt8)} {sent : Nat}
    (h : Packed host frames flusher output sent) :
    ∃ next datagrams size, flushProbe host flag cmd header flusher output sent =
        .ok (if flag then { header with cmd } else header, next, datagrams, size) ∧
      Packed host (frames ++ if flag then [⟨{ header with cmd }, []⟩] else [])
        next datagrams size := by
  cases flag with
  | false => exact ⟨flusher, output, sent, rfl, by simpa using h⟩
  | true =>
      obtain ⟨room, flushed, size, hFull, hPacked, hFits⟩ := h.flushIfFull
      obtain ⟨next, hEmplace, hNext⟩ := hPacked.emplace { header with cmd } hFits
      refine ⟨next, flushed, sent + size, ?_, hNext⟩
      unfold flushProbe
      rw [if_pos rfl, hFull, ok_bind]
      dsimp only
      rw [hEmplace, ok_bind]
      rfl

namespace Sender

variable (settings : FlushSettings)

/-- Whether `process_segment` has the segment sent. -/
def isDue (segment : Segment) : Bool :=
  hasNeverBeenSent segment || hasTimedOut settings segment || canFastResend settings segment

/-- The segment as `process_segment` leaves it, whatever has been sent before it. -/
def prepared (segment : Segment) : Segment :=
  if hasNeverBeenSent segment then prepareForFirstSend settings segment
  else if hasTimedOut settings segment then prepareSegmentForResend settings segment
  else if canFastResend settings segment then prepareSegmentForFastResend settings segment
  else segment

/-- The segment as a flush leaves it. -/
def flushed (segment : Segment) : Segment :=
  if isDue settings segment then refresh settings (prepared settings segment) else segment

/-- The frames that a flush makes of the buffered segments. -/
def pushFrames (sndBuf : List Segment) : List Frame :=
  (sndBuf.filter (isDue settings)).map fun segment =>
    ⟨(flushed settings segment).header, (flushed settings segment).data⟩

/-- `process_segment` decides on the segment alone and leaves the flusher, the
callback and all counters of emitted segments as they are. -/
theorem processSegment_spec (segment : Segment) (ctx : FlushContext mtu) :
    ∃ next, processSegment settings segment ctx =
        (isDue settings segment, prepared settings segment, next) ∧
      next.flusher = ctx.flusher ∧ next.output = ctx.output ∧
      ∃ timeouts fasts, next.result = { ctx.result with
        timeoutRetransmittedCount := timeouts
        fastRetransmittedCount := fasts } := by
  unfold processSegment isDue prepared
  cases hNever : hasNeverBeenSent segment with
  | true => exact ⟨ctx, rfl, rfl, rfl, _, _, rfl⟩
  | false =>
      cases hTimedOut : hasTimedOut settings segment with
      | true => exact ⟨_, rfl, rfl, rfl, _, _, rfl⟩
      | false =>
          cases hFast : canFastResend settings segment with
          | true => exact ⟨_, rfl, rfl, rfl, _, _, rfl⟩
          | false => exact ⟨ctx, rfl, rfl, rfl, _, _, rfl⟩

variable {settings}

@[simp] theorem prepared_header (segment : Segment) :
    (prepared settings segment).header = segment.header := by
  unfold prepared
  split_ifs <;> rfl

@[simp] theorem prepared_data (segment : Segment) :
    (prepared settings segment).data = segment.data := by
  unfold prepared
  split_ifs <;> rfl

/-- A flush refreshes segments and does not change them otherwise. -/
@[simp] theorem flushed_core (segment : Segment) :
    (flushed settings segment).core = segment.core := by
  unfold flushed
  split_ifs
  · simp [Segment.core, refresh]
  · rfl

theorem prepared_of_not_due {segment : Segment} (h : isDue settings segment = false) :
    prepared settings segment = segment := by
  simp only [isDue, Bool.or_eq_false_iff] at h
  simp [prepared, h]

theorem flushed_of_not_due {segment : Segment} (h : isDue settings segment = false) :
    flushed settings segment = segment := by
  simp [flushed, h]

/-- A segment that has never been sent is due, whatever the time. -/
theorem flushed_of_never {segment : Segment} (h : hasNeverBeenSent segment = true) :
    flushed settings segment = refresh settings (prepareForFirstSend settings segment) := by
  simp [flushed, isDue, prepared, h]

/-- A segment has timed out for half a turn of the clock. -/
theorem hasTimedOut_iff {segment : Segment} :
    hasTimedOut settings segment = true ↔
      (settings.current - segment.metadata.resendts).toNat < 2 ^ 31 := by
  have hZero : (0 : Int32).toInt = 0 := rfl
  have hBound := (settings.current - segment.metadata.resendts).toNat_lt
  rw [hasTimedOut, decide_eq_true_eq, ge_iff_le, Int32.le_iff_toInt_le, hZero, timeDelta,
    WrappingClock.toInt_toInt32]
  split_ifs <;> omega

theorem flushed_of_timedOut {segment : Segment} (hSent : hasNeverBeenSent segment = false)
    (hTimedOut : hasTimedOut settings segment = true) :
    flushed settings segment = refresh settings (prepareSegmentForResend settings segment) := by
  simp [flushed, isDue, prepared, hSent, hTimedOut]

theorem prepared_sendable {segment : Segment} (h : segment.Sendable mtu) :
    (prepared settings segment).Sendable mtu where
  len_eq := by simpa using h.len_eq
  data_ne_nil := by simpa using h.data_ne_nil
  data_length_le := by simpa using h.data_length_le

theorem map_flushed_core (sndBuf : List Segment) :
    (sndBuf.map (flushed settings)).map Segment.core = sndBuf.map Segment.core := by
  simp

/-- `send_segment` on a segment that is due. -/
theorem sendSegment_packed {segment : Segment} (hSendable : segment.Sendable mtu)
    {ctx : FlushContext mtu} {frames : List Frame}
    (h : Packed host frames ctx.flusher ctx.output ctx.result.totalBytesSent) :
    ∃ next, sendSegment host settings segment ctx = .ok (refresh settings segment, next) ∧
      Packed host (frames ++ [⟨(refresh settings segment).header, segment.data⟩])
        next.flusher next.output next.result.totalBytesSent ∧
      ∃ total, next.result = { ctx.result with totalBytesSent := total } := by
  have hLen : segment.dataSize = segment.data.length := hSendable.len_eq
  obtain ⟨room, flushed, written, hFlush, hPacked, hFits⟩ :=
    h.flushIfDoesNotFit (hLen.trans_le hSendable.data_length_le)
  obtain ⟨filled, hEmplace, hFilled⟩ :=
    hPacked.emplaceData (refresh settings segment).header hSendable.len_eq (by omega)
  refine ⟨{ ctx with
    flusher := filled
    output := flushed
    result := { ctx.result with totalBytesSent := ctx.result.totalBytesSent + written }
    state := if segment.metadata.xmit ≥ settings.deadLink then .deadLink else ctx.state },
    ?_, hFilled, _, rfl⟩
  have hRoom : ctx.flusher.flushIfDoesNotFit ctx.output (refresh settings segment).dataSize =
      .ok (room, flushed, written) := hFlush
  have hFill : room.emplaceData host (refresh settings segment).header
      (refresh settings segment).data =
      .ok filled := hEmplace
  unfold sendSegment
  dsimp only
  rw [hRoom, ok_bind]
  dsimp only
  rw [hFill, ok_bind]
  rfl

/-- One iteration of the loop over the sender buffer: a segment that is due is
emitted, refreshed and counted, any other is left alone. -/
theorem forEachSegment_step (settings : FlushSettings) {segment : Segment}
    (hSendable : segment.Sendable mtu) (ctx : FlushContext mtu) {frames : List Frame}
    (h : Packed host frames ctx.flusher ctx.output ctx.result.totalBytesSent) :
    ∃ next, (∀ rest, forEachSegment host settings (segment :: rest) ctx =
        (forEachSegment host settings rest next).map fun done =>
          (flushed settings segment :: done.1, done.2)) ∧
      Packed host (frames ++ pushFrames settings [segment]) next.flusher next.output
        next.result.totalBytesSent ∧
      ∃ timeouts fasts total, next.result = { ctx.result with
        cmdPushCount :=
          ctx.result.cmdPushCount + UInt32.ofNat (pushFrames settings [segment]).length
        timeoutRetransmittedCount := timeouts
        fastRetransmittedCount := fasts
        totalBytesSent := total } := by
  obtain ⟨processed, hProcess, hFlusher, hOutput, timeouts, fasts, hResult⟩ :=
    processSegment_spec settings segment ctx
  have hPacked : Packed host frames processed.flusher processed.output
      processed.result.totalBytesSent := by rwa [hFlusher, hOutput, hResult]
  cases hDue : isDue settings segment with
  | false =>
      have hNone : pushFrames settings [segment] = [] := by simp [pushFrames, hDue]
      have hKept : prepared settings segment = flushed settings segment := by
        rw [flushed_of_not_due hDue, prepared_of_not_due hDue]
      rw [hNone, List.append_nil]
      refine ⟨processed, fun rest => ?_, hPacked, timeouts, fasts,
        processed.result.totalBytesSent, ?_⟩
      · rw [forEachSegment, hProcess, hDue, hKept]
        rfl
      · simp [hResult]
  | true =>
      have hOne : pushFrames settings [segment] =
          [⟨(flushed settings segment).header, (flushed settings segment).data⟩] := by
        simp [pushFrames, hDue]
      have hFlushed : refresh settings (prepared settings segment) = flushed settings segment :=
        (if_pos hDue).symm
      obtain ⟨sent, hSend, hSent, total, hTotal⟩ :=
        sendSegment_packed (prepared_sendable hSendable) hPacked
      rw [hFlushed] at hSend
      refine ⟨{ sent with
          result := { sent.result with cmdPushCount := sent.result.cmdPushCount + 1 } },
        fun rest => ?_, ?_, timeouts, fasts, total, ?_⟩
      · rw [forEachSegment, hProcess, hDue]
        dsimp only
        rw [if_pos rfl, hSend]
        rfl
      · rw [hOne, ← hFlushed]
        exact hSent
      · rw [hTotal, hResult, hOne]
        rfl

/-- The loop over the sender buffer. -/
theorem forEachSegment_packed {segments : List Segment}
    (hSendable : ∀ segment ∈ segments, segment.Sendable mtu) (ctx : FlushContext mtu)
    {frames : List Frame}
    (h : Packed host frames ctx.flusher ctx.output ctx.result.totalBytesSent) :
    ∃ next, forEachSegment host settings segments ctx =
      .ok (segments.map (flushed settings), next) ∧
      Packed host (frames ++ pushFrames settings segments) next.flusher next.output
        next.result.totalBytesSent ∧
      ∃ timeouts fasts total, next.result = { ctx.result with
        cmdPushCount := ctx.result.cmdPushCount + UInt32.ofNat (pushFrames settings segments).length
        timeoutRetransmittedCount := timeouts
        fastRetransmittedCount := fasts
        totalBytesSent := total } := by
  induction segments generalizing ctx frames with
  | nil =>
      exact ⟨ctx, rfl, by simpa [pushFrames] using h, ctx.result.timeoutRetransmittedCount,
        ctx.result.fastRetransmittedCount, ctx.result.totalBytesSent, by simp [pushFrames]⟩
  | cons segment rest ih =>
      obtain ⟨middle, hStep, hMiddle, _, _, _, hCounted⟩ :=
        forEachSegment_step settings (hSendable segment (by simp)) ctx h
      obtain ⟨next, hLoop, hNext, timeouts, fasts, total, hCounts⟩ :=
        ih (fun other hOther => hSendable other (by simp [hOther])) middle hMiddle
      have hSplit : pushFrames settings (segment :: rest) =
          pushFrames settings [segment] ++ pushFrames settings rest := by
        rw [pushFrames, pushFrames, pushFrames, ← List.map_append, ← List.filter_append,
          List.singleton_append]
      refine ⟨next, ?_, ?_, timeouts, fasts, total, ?_⟩
      · rw [hStep, hLoop]
        rfl
      · rwa [hSplit, ← List.append_assoc]
      · rw [hCounts, hCounted, hSplit, List.length_append]
        simp [UInt32.ofNat_add, UInt32.add_assoc]

variable (settings) in
/-- Whether the segment is sent so often that the link counts as dead. -/
def exhausts (segment : Segment) : Bool :=
  isDue settings segment && decide ((prepared settings segment).metadata.xmit ≥ settings.deadLink)

/-- Whether `process_segment` takes its last branch. -/
def sendsFast (settings : FlushSettings) (segment : Segment) : Bool :=
  !hasNeverBeenSent segment && !hasTimedOut settings segment && canFastResend settings segment

theorem processSegment_state (segment : Segment) (ctx : FlushContext mtu) :
    (processSegment settings segment ctx).2.2.state = ctx.state := by
  unfold processSegment
  split_ifs <;> rfl

/-- Only the last branch sets `change`. -/
theorem processSegment_change (segment : Segment) (ctx : FlushContext mtu) :
    (processSegment settings segment ctx).2.2.change =
      (ctx.change || sendsFast settings segment) := by
  unfold processSegment sendsFast
  cases hasNeverBeenSent segment with
  | true => exact (Bool.or_false _).symm
  | false =>
      cases hasTimedOut settings segment with
      | true => exact (Bool.or_false _).symm
      | false =>
          cases canFastResend settings segment with
          | true => exact (Bool.or_true _).symm
          | false => exact (Bool.or_false _).symm

/-- One iteration that returns, with the state, the count and the mark that it leaves. -/
theorem forEachSegment_cons {settings : FlushSettings} {segment : Segment}
    {rest kept : List Segment} {ctx final : FlushContext mtu}
    (h : forEachSegment host settings (segment :: rest) ctx = .ok (kept, final)) :
    ∃ next others, forEachSegment host settings rest next = .ok (others, final) ∧
      kept = flushed settings segment :: others ∧
      next.state = (if exhausts settings segment then .deadLink else ctx.state) ∧
      next.result.fastRetransmittedCount =
        (processSegment settings segment ctx).2.2.result.fastRetransmittedCount ∧
      next.change = (ctx.change || sendsFast settings segment) := by
  obtain ⟨processed, hProcess, -⟩ := processSegment_spec settings segment ctx
  have hState : processed.state = ctx.state := by
    rw [← processSegment_state segment ctx, hProcess]
  have hChange : processed.change = (ctx.change || sendsFast settings segment) := by
    rw [← processSegment_change segment ctx, hProcess]
  unfold forEachSegment at h
  rw [hProcess] at h ⊢
  dsimp only at h
  cases hDue : isDue settings segment with
  | true =>
      have hFlushed : flushed settings segment = refresh settings (prepared settings segment) :=
        if_pos hDue
      rw [hDue, if_pos rfl] at h
      obtain ⟨⟨sent, after⟩, hSend, h⟩ := bind_eq_ok.mp h
      obtain ⟨_, -, hSend⟩ := bind_eq_ok.mp hSend
      obtain ⟨_, -, hSend⟩ := bind_eq_ok.mp hSend
      obtain ⟨rfl, rfl⟩ := Prod.mk.inj (Except.ok.inj hSend)
      obtain ⟨_, hCounted, h⟩ := bind_eq_ok.mp h
      obtain rfl := Except.ok.inj hCounted
      obtain ⟨⟨others, last⟩, hRest, h⟩ := bind_eq_ok.mp h
      obtain ⟨rfl, rfl⟩ := Prod.mk.inj (Except.ok.inj h)
      refine ⟨_, _, hRest, by rw [hFlushed], ?_, rfl, hChange⟩
      rw [exhausts, hDue, Bool.true_and]
      dsimp only
      rw [hState]
      simp [refresh]
  | false =>
      rw [hDue, if_neg Bool.false_ne_true] at h
      obtain ⟨_, hKept, h⟩ := bind_eq_ok.mp h
      obtain rfl := Except.ok.inj hKept
      obtain ⟨⟨others, last⟩, hRest, h⟩ := bind_eq_ok.mp h
      obtain ⟨rfl, rfl⟩ := Prod.mk.inj (Except.ok.inj h)
      refine ⟨_, _, hRest, by rw [flushed_of_not_due hDue, prepared_of_not_due hDue], ?_, rfl,
        hChange⟩
      rw [exhausts, hDue, Bool.false_and, if_neg Bool.false_ne_true, hState]

/-- What the loop leaves of the buffer and of the state, whatever is sent. -/
theorem forEachSegment_eq {settings : FlushSettings} {segs kept : List Segment}
    {ctx final : FlushContext mtu} (h : forEachSegment host settings segs ctx = .ok (kept, final)) :
    kept = segs.map (flushed settings) ∧
      final.state = if segs.any (exhausts settings) then .deadLink else ctx.state := by
  induction segs generalizing ctx kept final with
  | nil =>
      obtain ⟨rfl, rfl⟩ := Prod.mk.inj (Except.ok.inj h)
      exact ⟨rfl, rfl⟩
  | cons segment rest ih =>
      obtain ⟨next, others, hRest, rfl, hState, -⟩ := forEachSegment_cons h
      obtain ⟨rfl, hLast⟩ := ih hRest
      refine ⟨rfl, ?_⟩
      rw [hLast, hState, List.any_cons]
      cases exhausts settings segment <;> cases rest.any (exhausts settings) <;> rfl

/-- The loop has set `change` if some segment has taken the last branch. -/
theorem forEachSegment_change {settings : FlushSettings} {segs kept : List Segment}
    {ctx final : FlushContext mtu} (h : forEachSegment host settings segs ctx = .ok (kept, final)) :
    final.change = (ctx.change || segs.any (sendsFast settings)) := by
  induction segs generalizing ctx kept final with
  | nil =>
      obtain ⟨-, rfl⟩ := Prod.mk.inj (Except.ok.inj h)
      exact (Bool.or_false _).symm
  | cons segment rest ih =>
      obtain ⟨next, others, hRest, -, -, -, hChange⟩ := forEachSegment_cons h
      rw [ih hRest, hChange, List.any_cons, Bool.or_assoc]

end Sender

namespace ImKcpp

/-- The service header that a flush starts with. -/
def serviceHeader (s : ImKcpp mtu) : SegmentHeader := s.createServiceHeader s.unusedReceiveWindow

/-- The sender's components behind the admission loop of a flush. -/
def moved (s : ImKcpp mtu) : List Segment × SenderBuffer × SegmentTracker :=
  s.moveSendQueueToBuffer s.unusedReceiveWindow s.receiver.rcvNxt

def settings (s : ImKcpp mtu) : Sender.FlushSettings :=
  s.flushSettings s.unusedReceiveWindow s.receiver.rcvNxt

/-- A service frame with the given command, behind all acknowledgements. -/
def probeFrame (s : ImKcpp mtu) (cmd : UInt8) : Frame :=
  ⟨{ lastHeader s.serviceHeader s.ackController.acklist with cmd }, []⟩

/-- Everything a flush emits, in order. -/
def flushFrames (s : ImKcpp mtu) (askSend askTell : Bool) : List Frame :=
  s.ackController.acklist.map (ackFrame s.serviceHeader) ++
    (if askSend then [s.probeFrame Commands.wask] else []) ++
    (if askTell then [s.probeFrame Commands.wins] else []) ++
    Sender.pushFrames s.settings s.moved.2.1.sndBuf

/-- The effect of an executed flush of `s`. -/
structure Flushed (host : Host) (s next : ImKcpp mtu) (packets : List (List Frame))
    (result : FlushResult) (askSend askTell : Bool) : Prop where
  frames_eq : packets.flatten = s.flushFrames askSend askTell
  packets_fit : ∀ packet ∈ packets, packet ≠ [] ∧ (wire host packet).length ≤ mtu.bytes
  flusher_empty : next.flusher.offset = 0
  sender_eq : next.sender.sndQueue = s.moved.1
  sndBuf_eq : next.senderBuffer.sndBuf = s.moved.2.1.sndBuf.map (Sender.flushed s.settings)
  tracker_eq : next.segmentTracker = s.moved.2.2
  acks_cleared : next.ackController = s.ackController.clear
  receiver_eq : next.receiver = s.receiver
  conv_eq : next.sharedCtx.conv = s.sharedCtx.conv
  updated_eq : next.updated = s.updated
  rcvWnd_eq : next.congestionController.rcvWnd = s.congestionController.rcvWnd
  ackCount : result.cmdAckCount = UInt32.ofNat s.ackController.acklist.length
  waskCount : result.cmdWaskCount = if askSend then 1 else 0
  winsCount : result.cmdWinsCount = if askTell then 1 else 0
  pushCount : result.cmdPushCount =
    UInt32.ofNat (Sender.pushFrames s.settings s.moved.2.1.sndBuf).length
  total_eq : result.totalBytesSent = ((packets.map (wire host)).map List.length).sum
  asks : ∃ prober, s.windowProber.update s.current s.congestionController.rmtWnd = .ok prober ∧
    askSend = ((prober.probe &&& ProbeFlag.askSend.value) != 0) ∧
    askTell = ((prober.probe &&& ProbeFlag.askTell.value) != 0)

/-- The invariant under which a flush can be described. -/
structure Sending (s : ImKcpp mtu) : Prop where
  flusher_empty : s.flusher.offset = 0
  sender : SenderInvariant mtu s.sharedCtx.conv s.sender.sndQueue s.senderBuffer s.segmentTracker

theorem Sending.moved {s : ImKcpp mtu} (h : s.Sending) :
    SenderInvariant mtu s.sharedCtx.conv s.moved.1 s.moved.2.1 s.moved.2.2 :=
  h.sender.move _ _ _ _ _

/-- Admission only adds segments that have never been sent. -/
theorem moved_append (s : ImKcpp mtu) :
    ∃ admitted, s.moved.2.1.sndBuf = s.senderBuffer.sndBuf ++ admitted ∧
      ∀ seg ∈ admitted, Sender.hasNeverBeenSent seg = true := by
  refine Sender.moveSendQueueToBuffer_induct (P := fun _ buffer _ => ∃ admitted,
    buffer.sndBuf = s.senderBuffer.sndBuf ++ admitted ∧
      ∀ seg ∈ admitted, Sender.hasNeverBeenSent seg = true) ?_
      ⟨[], (List.append_nil _).symm, by simp⟩
  rintro newseg rest buffer tracker - ⟨admitted, hBuffer, hNew⟩
  refine ⟨_, (congrArg (· ++ _) hBuffer).trans (List.append_assoc _ _ _), ?_⟩
  intro seg hSeg
  rcases List.mem_append.mp hSeg with hSeg | hSeg
  · exact hNew seg hSeg
  · rw [List.mem_singleton.mp hSeg]
    rfl

/-- What a flush needs to run to its end: every segment fits, and if one is sent again
early, the numbers in flight must be in plain order, since the tracker asserts it. -/
structure Flushable (s : ImKcpp mtu) : Prop where
  flusher_empty : s.flusher.offset = 0
  sendable : ∀ segment ∈ s.moved.2.1.sndBuf, segment.Sendable mtu
  ordered : s.moved.2.1.sndBuf.any (Sender.sendsFast s.settings) = true →
    s.moved.2.2.sndUna ≤ s.moved.2.2.sndNxt

theorem Sending.flushable {s : ImKcpp mtu} (h : s.Sending) : s.Flushable where
  flusher_empty := h.flusher_empty
  sendable segment hSegment := (h.moved.inFlight segment hSegment).sendable
  ordered _ := h.moved.una_le_nxt

/-- The data part of a flush, once acknowledgements and probes have been written. -/
theorem flushDataSegments_spec (s : ImKcpp mtu) (wnd : Int32) (rcvNxt : UInt32)
    (result : FlushResult)
    (hSendable : ∀ segment ∈ (s.moveSendQueueToBuffer wnd rcvNxt).2.1.sndBuf,
      segment.Sendable mtu)
    (hOrdered : (s.moveSendQueueToBuffer wnd rcvNxt).2.1.sndBuf.any
        (Sender.sendsFast (s.flushSettings wnd rcvNxt)) = true →
      (s.moveSendQueueToBuffer wnd rcvNxt).2.2.sndUna ≤
        (s.moveSendQueueToBuffer wnd rcvNxt).2.2.sndNxt)
    {frames : List Frame} {output : List (List UInt8)}
    (h : Packed host frames s.flusher output result.totalBytesSent) :
    let sndBuf := (s.moveSendQueueToBuffer wnd rcvNxt).2.1.sndBuf
    let pushes := Sender.pushFrames (s.flushSettings wnd rcvNxt) sndBuf
    ∃ state flusher controller xmit datagrams timeouts fasts total,
      s.flushDataSegments host output result wnd rcvNxt =
        .ok ({ s with
          sharedCtx := { s.sharedCtx with state }
          flusher
          segmentTracker := (s.moveSendQueueToBuffer wnd rcvNxt).2.2
          congestionController := controller
          senderBuffer := ⟨sndBuf.map (Sender.flushed (s.flushSettings wnd rcvNxt))⟩
          sender := { s.sender with sndQueue := (s.moveSendQueueToBuffer wnd rcvNxt).1, xmit } },
          datagrams,
          { result with
            cmdPushCount := result.cmdPushCount + UInt32.ofNat pushes.length
            timeoutRetransmittedCount := timeouts
            fastRetransmittedCount := fasts
            totalBytesSent := total }) ∧
      controller.rcvWnd = s.congestionController.rcvWnd ∧
      Packed host (frames ++ pushes) flusher datagrams total := by
  intro sndBuf pushes
  obtain ⟨ctx, hLoop, hPacked, timeouts, fasts, total, hCounts⟩ :=
    Sender.forEachSegment_packed hSendable
      { flusher := s.flusher, output, result, change := false, xmit := s.sender.xmit,
        state := s.sharedCtx.state } h
  have hTotal : ctx.result.totalBytesSent = total := by rw [hCounts]
  have hSome := Sender.forEachSegment_change hLoop
  rw [hTotal] at hPacked
  unfold flushDataSegments
  dsimp only
  rw [hLoop, ok_bind]
  dsimp only
  cases hChange : ctx.change with
  | false =>
      rw [if_neg Bool.false_ne_true, pure_eq_ok, ok_bind, pure_eq_ok, hCounts]
      refine ⟨_, _, _, _, _, _, _, _, rfl, ?_, hPacked⟩
      split_ifs <;> rfl
  | true =>
      have hInFlight : (s.moveSendQueueToBuffer wnd rcvNxt).2.2.sndNxt ≥
          (s.moveSendQueueToBuffer wnd rcvNxt).2.2.sndUna := hOrdered (hSome.symm.trans hChange)
      rw [if_pos rfl, SegmentTracker.getPacketsInFlightCount, assert_of_true hInFlight, ok_bind,
        pure_eq_ok, ok_bind, pure_eq_ok, ok_bind, pure_eq_ok, hCounts]
      refine ⟨_, _, _, _, _, _, _, _, rfl, ?_, hPacked⟩
      split_ifs <;> rfl

/-- Before the first `update` a flush does nothing. -/
theorem flush_idle (host : Host) {s : ImKcpp mtu} (hUpdated : s.updated = false) :
    s.flush host = .ok (s, [], {}) := by
  unfold flush
  rw [if_pos (by simp [hUpdated])]

/-- A flush that can run to its end succeeds and does what `Flushed` says. -/
theorem Flushable.flush (host : Host) {s : ImKcpp mtu} (h : s.Flushable)
    (hUpdated : s.updated = true) :
    ∃ next packets result askSend askTell,
      s.flush host = .ok (next, packets.map (wire host), result) ∧
      Flushed host s next packets result askSend askTell := by
  obtain ⟨prober, hProber⟩ := s.windowProber.update_isOk s.current s.congestionController.rmtWnd
  obtain ⟨askSend, hAskSend⟩ : ∃ flag, flag = ((prober.probe &&& ProbeFlag.askSend.value) != 0) :=
    ⟨_, rfl⟩
  obtain ⟨askTell, hAskTell⟩ : ∃ flag, flag = ((prober.probe &&& ProbeFlag.askTell.value) != 0) :=
    ⟨_, rfl⟩
  have hStart : Packed host [] s.flusher [] 0 := Packed.start h.flusher_empty
  obtain ⟨afterAcks, ackOutput, ackSent, hAcks, hAcksPacked⟩ :=
    flushAcksLoop_packed s.ackController.acklist s.serviceHeader hStart
  obtain ⟨afterWask, waskOutput, waskSent, hWask, hWaskPacked⟩ :=
    flushProbe_packed askSend Commands.wask
      (lastHeader s.serviceHeader s.ackController.acklist) hAcksPacked
  obtain ⟨afterWins, winsOutput, winsSent, hWins, hWinsPacked⟩ :=
    flushProbe_packed askTell Commands.wins _ hWaskPacked
  obtain ⟨state, flusher, controller, xmit, datagrams, timeouts, fasts, total, hData,
    hRcvWnd, hPacked⟩ :=
    flushDataSegments_spec
      { s with
        ackController := s.ackController.clear
        windowProber := prober.resetFlags
        flusher := afterWins }
      s.unusedReceiveWindow s.receiver.rcvNxt
      { cmdAckCount := UInt32.ofNat s.ackController.acklist.length
        cmdWaskCount := if askSend then 1 else 0
        cmdWinsCount := if askTell then 1 else 0
        totalBytesSent := winsSent }
      h.sendable h.ordered hWinsPacked
  obtain ⟨final, packets, size, hFinal, hEmpty, hFrames, hFit, hTotal⟩ := hPacked.flushIfNotEmpty
  unfold ImKcpp.flush
  rw [if_neg (by simp [hUpdated])]
  dsimp only
  rw [show s.createServiceHeader s.unusedReceiveWindow = s.serviceHeader from rfl, hAcks, ok_bind]
  dsimp only
  rw [hProber, ok_bind, WindowProber.hasFlag_eq, ok_bind, ← hAskSend, hWask, ok_bind]
  dsimp only
  rw [WindowProber.hasFlag_eq, ok_bind, ← hAskTell, hWins, ok_bind]
  dsimp only
  rw [hData, ok_bind]
  dsimp only
  rw [hFinal, ok_bind, pure_eq_ok]
  refine ⟨_, packets, _, askSend, askTell, rfl, ?_⟩
  exact {
    frames_eq := by
      rw [hFrames, flushFrames]
      cases askSend <;> cases askTell <;> rfl
    packets_fit := hFit
    flusher_empty := hEmpty
    sender_eq := rfl
    sndBuf_eq := rfl
    tracker_eq := rfl
    acks_cleared := rfl
    receiver_eq := rfl
    conv_eq := rfl
    updated_eq := rfl
    rcvWnd_eq := by
      rw [← hRcvWnd]
      dsimp only [CongestionController.ensureAtLeastOnePacketInFlight]
      split_ifs <;> rfl
    ackCount := rfl
    waskCount := rfl
    winsCount := rfl
    pushCount := UInt32.zero_add _
    total_eq := hTotal
    asks := ⟨prober, hProber, hAskSend, hAskTell⟩ }

/-- Under the invariant every executed flush succeeds. -/
theorem flush_spec (host : Host) {s : ImKcpp mtu} (h : s.Sending) (hUpdated : s.updated = true) :
    ∃ next packets result askSend askTell,
      s.flush host = .ok (next, packets.map (wire host), result) ∧
      Flushed host s next packets result askSend askTell :=
  h.flushable.flush host hUpdated

/-- The data part of a flush that returns has gone through the loop over the segments, and
makes the next state and the counts from what that has returned. -/
theorem flushDataSegments_loop {s next : ImKcpp mtu} {output datagrams : List (List UInt8)}
    {result counts : FlushResult} {wnd : Int32} {rcvNxt : UInt32}
    (h : s.flushDataSegments host output result wnd rcvNxt = .ok (next, datagrams, counts)) :
    ∃ (kept : List Segment) (ctx : Sender.FlushContext mtu) (cwnd ssthresh incr : UInt32),
      Sender.forEachSegment host (s.flushSettings wnd rcvNxt)
        (s.moveSendQueueToBuffer wnd rcvNxt).2.1.sndBuf
        { flusher := s.flusher, output, result, change := false, xmit := s.sender.xmit,
          state := s.sharedCtx.state } = .ok (kept, ctx) ∧
      next = { s with
        sharedCtx := { s.sharedCtx with state := ctx.state }
        flusher := ctx.flusher
        segmentTracker := (s.moveSendQueueToBuffer wnd rcvNxt).2.2
        congestionController := { s.congestionController with cwnd, ssthresh, incr }
        senderBuffer := ⟨kept⟩
        sender := { s.sender with
          sndQueue := (s.moveSendQueueToBuffer wnd rcvNxt).1
          xmit := ctx.xmit } } ∧
      counts = ctx.result ∧
      (ctx.change = true → (s.moveSendQueueToBuffer wnd rcvNxt).2.2.sndUna ≤
        (s.moveSendQueueToBuffer wnd rcvNxt).2.2.sndNxt) := by
  obtain ⟨⟨kept, ctx⟩, hLoop, h⟩ := bind_eq_ok.mp h
  dsimp only at h
  cases hChange : ctx.change with
  | true =>
      rw [hChange, if_pos rfl] at h
      obtain ⟨_, hInFlight, h⟩ := bind_eq_ok.mp h
      obtain ⟨_, hOrdered, -⟩ := bind_eq_ok.mp hInFlight
      obtain ⟨controller, hController, h⟩ := bind_eq_ok.mp h
      obtain rfl := Except.ok.inj hController
      split_ifs at h
      all_goals
        obtain ⟨rfl, hCounts⟩ := Prod.mk.inj (Except.ok.inj h)
        obtain ⟨-, rfl⟩ := Prod.mk.inj hCounts
        exact ⟨kept, ctx, _, _, _, hLoop, rfl, rfl, fun _ => of_assert hOrdered⟩
  | false =>
      rw [hChange, if_neg Bool.false_ne_true] at h
      obtain ⟨controller, hController, h⟩ := bind_eq_ok.mp h
      obtain rfl := Except.ok.inj hController
      split_ifs at h
      all_goals
        obtain ⟨rfl, hCounts⟩ := Prod.mk.inj (Except.ok.inj h)
        obtain ⟨-, rfl⟩ := Prod.mk.inj hCounts
        exact ⟨kept, ctx, _, _, _, hLoop, rfl, rfl,
          fun hSome => absurd (hChange.symm.trans hSome) nofun⟩

/-- A flush that returns has gone through the same loop, behind its acknowledgements and
probes. -/
theorem flush_loop {s next : ImKcpp mtu} {datagrams : List (List UInt8)} {result : FlushResult}
    (hUpdated : s.updated = true) (h : s.flush host = .ok (next, datagrams, result)) :
    ∃ (written flusher : Flusher mtu) (output : List (List UInt8)) (earlier : FlushResult)
      (kept : List Segment) (ctx : Sender.FlushContext mtu) (cwnd ssthresh incr : UInt32)
      (windowProber : WindowProber) (size : Nat),
      Sender.forEachSegment host s.settings s.moved.2.1.sndBuf
        { flusher := written, output, result := earlier, change := false, xmit := s.sender.xmit,
          state := s.sharedCtx.state } = .ok (kept, ctx) ∧
      next = { s with
        sharedCtx := { s.sharedCtx with state := ctx.state }
        flusher
        segmentTracker := s.moved.2.2
        congestionController := { s.congestionController with cwnd, ssthresh, incr }
        windowProber
        senderBuffer := ⟨kept⟩
        ackController := s.ackController.clear
        sender := { s.sender with sndQueue := s.moved.1, xmit := ctx.xmit } } ∧
      result = { ctx.result with totalBytesSent := ctx.result.totalBytesSent + size } ∧
      (earlier.timeoutRetransmittedCount = 0 ∧ earlier.fastRetransmittedCount = 0) ∧
      (ctx.change = true → s.moved.2.2.sndUna ≤ s.moved.2.2.sndNxt) ∧
      ∃ prober, s.windowProber.update s.current s.congestionController.rmtWnd = .ok prober ∧
        windowProber = prober.resetFlags := by
  unfold flush at h
  rw [if_neg (by simp [hUpdated])] at h
  obtain ⟨_, -, h⟩ := bind_eq_ok.mp h
  obtain ⟨prober, hUpdate, h⟩ := bind_eq_ok.mp h
  obtain ⟨_, -, h⟩ := bind_eq_ok.mp h
  obtain ⟨_, -, h⟩ := bind_eq_ok.mp h
  obtain ⟨_, -, h⟩ := bind_eq_ok.mp h
  obtain ⟨_, -, h⟩ := bind_eq_ok.mp h
  obtain ⟨⟨sent, _, counts⟩, hData, h⟩ := bind_eq_ok.mp h
  obtain ⟨_, -, h⟩ := bind_eq_ok.mp h
  obtain ⟨rfl, hSent⟩ := Prod.mk.inj (Except.ok.inj h)
  obtain ⟨-, rfl⟩ := Prod.mk.inj hSent
  obtain ⟨kept, ctx, cwnd, ssthresh, incr, hLoop, rfl, rfl, hOrdered⟩ :=
    flushDataSegments_loop hData
  dsimp only [CongestionController.ensureAtLeastOnePacketInFlight]
  split_ifs
  · exact ⟨_, _, _, _, kept, ctx, _, ssthresh, _, _, _, hLoop, rfl, rfl, ⟨rfl, rfl⟩, hOrdered,
      prober, hUpdate, rfl⟩
  · exact ⟨_, _, _, _, kept, ctx, _, ssthresh, _, _, _, hLoop, rfl, rfl, ⟨rfl, rfl⟩, hOrdered,
      prober, hUpdate, rfl⟩

/-- A flush that returns has met no assertion: if it has sent a segment again early, the
numbers in flight are in plain order. -/
theorem flush_ordered {s next : ImKcpp mtu} {datagrams : List (List UInt8)} {result : FlushResult}
    (hUpdated : s.updated = true) (h : s.flush host = .ok (next, datagrams, result))
    (hFast : s.moved.2.1.sndBuf.any (Sender.sendsFast s.settings) = true) :
    s.moved.2.2.sndUna ≤ s.moved.2.2.sndNxt := by
  obtain ⟨_, _, _, _, _, ctx, _, _, _, _, _, hLoop, -, -, -, hOrdered, -⟩ := flush_loop hUpdated h
  exact hOrdered ((Sender.forEachSegment_change hLoop).trans hFast)

/-- What a flush that returns can change; this needs no invariant. -/
theorem flush_shape {s next : ImKcpp mtu} {datagrams : List (List UInt8)} {result : FlushResult}
    (hUpdated : s.updated = true) (h : s.flush host = .ok (next, datagrams, result)) :
    ∃ flusher controller windowProber xmit,
      next = { s with
        sharedCtx := { s.sharedCtx with
          state := if s.moved.2.1.sndBuf.any (Sender.exhausts s.settings) then .deadLink
            else s.sharedCtx.state }
        flusher
        segmentTracker := s.moved.2.2
        congestionController := controller
        windowProber
        senderBuffer := ⟨s.moved.2.1.sndBuf.map (Sender.flushed s.settings)⟩
        ackController := s.ackController.clear
        sender := { s.sender with sndQueue := s.moved.1, xmit } } ∧
      windowProber.probe = 0 ∧
      controller.congestionWindow = s.congestionController.congestionWindow ∧
      controller.sndWnd = s.congestionController.sndWnd ∧
      controller.rmtWnd = s.congestionController.rmtWnd := by
  obtain ⟨_, flusher, _, _, kept, ctx, _, _, _, windowProber, _, hLoop, hNext, -, -, -, prober, -,
      hReset⟩ :=
    flush_loop hUpdated h
  have hProbe : windowProber.probe = 0 := congrArg WindowProber.probe hReset
  obtain ⟨rfl, hState⟩ := Sender.forEachSegment_eq hLoop
  rw [hState] at hNext
  exact ⟨flusher, _, windowProber, ctx.xmit, hNext, hProbe, rfl, rfl, rfl⟩

/-- A flush probes the window of the peer, and answers all requests. -/
theorem flush_windowProber {s next : ImKcpp mtu} {datagrams : List (List UInt8)}
    {result : FlushResult} (hUpdated : s.updated = true)
    (h : s.flush host = .ok (next, datagrams, result)) :
    ∃ prober, s.windowProber.update s.current s.congestionController.rmtWnd = .ok prober ∧
      next.windowProber = prober.resetFlags := by
  obtain ⟨_, _, _, _, _, _, _, _, _, windowProber, _, -, hNext, -, -, -, prober, hUpdate, hReset⟩ :=
    flush_loop hUpdated h
  exact ⟨prober, hUpdate, (congrArg ImKcpp.windowProber hNext).trans hReset⟩

/-- A flush that returns leaves the sender as the admission loop does, and of the
windows it only changes the congestion window. -/
theorem flush_returns {s next : ImKcpp mtu} {datagrams : List (List UInt8)} {result : FlushResult}
    (hUpdated : s.updated = true) (h : s.flush host = .ok (next, datagrams, result)) :
    next.sender.sndQueue = s.moved.1 ∧
      next.senderBuffer.sndBuf.map Segment.core = s.moved.2.1.sndBuf.map Segment.core ∧
      next.segmentTracker = s.moved.2.2 ∧
      next.congestionController.sndWnd = s.congestionController.sndWnd ∧
      next.congestionController.rmtWnd = s.congestionController.rmtWnd := by
  obtain ⟨_, _, _, _, rfl, -, -, hSndWnd, hRmtWnd⟩ := flush_shape hUpdated h
  exact ⟨rfl, Sender.map_flushed_core _, rfl, hSndWnd, hRmtWnd⟩

/-- A flush leaves the timers of `update` alone. -/
theorem flush_clock {s next : ImKcpp mtu} {datagrams : List (List UInt8)} {result : FlushResult}
    (hUpdated : s.updated = true) (h : s.flush host = .ok (next, datagrams, result)) :
    next.updated = true ∧ next.tsFlush = s.tsFlush ∧
      next.sharedCtx.interval = s.sharedCtx.interval := by
  obtain ⟨_, _, _, _, rfl, -⟩ := flush_shape hUpdated h
  exact ⟨hUpdated, rfl, rfl⟩

end ImKcpp
end Imkcpp
