import Imkcpp.FlushPackets
import Imkcpp.SenderSafety
import Imkcpp.Library.Lockstep

/-! The origin of the clock. A run is replayed with all times of its owner's clock
shifted; the two runs stay in lockstep, although they store different times and
send different bytes. -/
namespace Imkcpp

open Transition

variable {mtu : Mtu} {host : Host} {conv shift : UInt32} {cmd : UInt8}

section Datagrams

/-- The segment with its timestamp shifted, if it carries the command. -/
def Frame.shiftTs (cmd : UInt8) (shift : UInt32) (frame : Frame) : Frame :=
  if frame.header.cmd = cmd then
    { frame with header := { frame.header with ts := frame.header.ts + shift } }
  else frame

/-- The datagram with the timestamps of all segments shifted that `input` sees in
it and that carry the command. -/
def shiftTs (host : Host) (conv : UInt32) (cmd : UInt8) (shift : UInt32) (data : List UInt8) :
    List UInt8 :=
  if _h : data.length < 24 then data
  else
    let header := SegmentHeader.ofBytes host (data.take 24)
    let body := data.drop 24
    if header.conv ≠ conv then data
    else if header.len.toNat > body.length then data
    else if !Commands.isValid header.cmd then data
    else
      let payload := if header.cmd = Commands.push then body.take header.len.toNat else []
      let shifted :=
        if header.cmd = cmd then { header with ts := header.ts + shift }.bytes host
        else data.take 24
      shifted ++ payload ++ shiftTs host conv cmd shift (body.drop payload.length)
termination_by data.length
decreasing_by simp; omega

/-- Only the timestamp changes. -/
theorem Frame.shiftTs_eq (cmd : UInt8) (shift : UInt32) (frame : Frame) :
    ∃ ts, frame.shiftTs cmd shift = { frame with header := { frame.header with ts } } := by
  unfold Frame.shiftTs
  split_ifs
  · exact ⟨_, rfl⟩
  · exact ⟨frame.header.ts, rfl⟩

theorem Frame.shiftTs_of_ne {frame : Frame} (h : frame.header.cmd ≠ cmd) (shift : UInt32) :
    frame.shiftTs cmd shift = frame := if_neg h

theorem length_shiftTs (host : Host) (conv : UInt32) (cmd : UInt8) (shift : UInt32)
    (data : List UInt8) :
    (shiftTs host conv cmd shift data).length = data.length := by
  fun_induction shiftTs host conv cmd shift data with
  | case1 => rfl
  | case2 => rfl
  | case3 => rfl
  | case4 => rfl
  | case5 data hLong header body hConv hLen hValid payload shifted ih =>
      obtain ⟨hData, -, -, -⟩ :=
        @scan_pieces data payload header.len (header.cmd = Commands.push) _ rfl hLen
      have hHead : (data.take 24).length = 24 := by
        rw [List.length_take]
        omega
      have hShifted : shifted.length = 24 := by
        simp only [shifted]
        split_ifs
        · exact SegmentHeader.bytes_length _ _
        · exact hHead
      have hLength := congrArg List.length hData
      simp only [List.length_append, hHead] at hLength
      rw [List.length_append, List.length_append, ih, hShifted, hLength, Nat.add_assoc]

/-- `input` sees the same segments in the shifted datagram, shifted, and stops at the
same place. -/
theorem scan_shiftTs (host : Host) (conv : UInt32) (cmd : UInt8) (shift : UInt32)
    (data : List UInt8) :
    scan host conv (shiftTs host conv cmd shift data) =
      ((scan host conv data).1.map (Frame.shiftTs cmd shift), (scan host conv data).2) := by
  fun_induction shiftTs host conv cmd shift data with
  | case1 data hShort =>
      rw [scan, dif_pos hShort]
      rfl
  | case2 data hLong header hConv =>
      rw [scan, dif_neg hLong]
      dsimp only
      rw [if_pos hConv]
      rfl
  | case3 data hLong header body hConv hLen =>
      rw [scan, dif_neg hLong]
      dsimp only
      rw [if_neg hConv, if_pos hLen]
      rfl
  | case4 data hLong header body hConv hLen hValid =>
      rw [scan, dif_neg hLong]
      dsimp only
      rw [if_neg hConv, if_neg hLen, if_pos hValid]
      rfl
  | case5 data hLong header body hConv hLen hValid payload shifted ih =>
      obtain ⟨hData, hPush, hOther, hFits⟩ :=
        @scan_pieces data payload header.len (header.cmd = Commands.push) _ rfl hLen
      have hHead : (data.take 24).length = 24 := by
        rw [List.length_take]
        omega
      have hValid : Commands.isValid header.cmd = true := by simpa using hValid
      have hOriginal := scan_cons hHead (not_not.mp hConv) hValid hPush hOther hFits
      rw [← hData] at hOriginal
      -- the shifted header differs in its timestamp only
      have hShifted : shifted.length = 24 ∧
          SegmentHeader.ofBytes host shifted =
            (Frame.shiftTs cmd shift ⟨header, payload⟩).header := by
        simp only [shifted, Frame.shiftTs]
        split_ifs
        · exact ⟨SegmentHeader.bytes_length _ _, SegmentHeader.ofBytes_bytes _ _⟩
        · exact ⟨hHead, rfl⟩
      obtain ⟨ts, hTs⟩ := Frame.shiftTs_eq cmd shift ⟨header, payload⟩
      have hHeader : SegmentHeader.ofBytes host shifted = { header with ts } := by
        rw [hShifted.2, hTs]
      rw [List.append_assoc, scan_cons hShifted.1, ih, hOriginal, List.map_cons, hTs, hHeader]
      · rw [hHeader]
        exact not_not.mp hConv
      · rw [hHeader]
        exact hValid
      · rw [hHeader]
        exact hPush
      · rw [hHeader]
        exact hOther
      · rw [hHeader, List.length_append, length_shiftTs, ← List.length_append]
        exact hFits

/-- Shifting whole segments. -/
theorem shiftTs_wire (host : Host) (cmd : UInt8) (shift : UInt32) {frames : List Frame}
    (h : ∀ frame ∈ frames, frame.Accepted conv ∧ frame.WellFormed) :
    shiftTs host conv cmd shift (wire host frames) =
      wire host (frames.map (Frame.shiftTs cmd shift)) := by
  induction frames with
  | nil =>
      rw [shiftTs, dif_pos (by simp)]
      rfl
  | cons frame frames ih =>
      obtain ⟨hAccepted, hFormed⟩ := h frame (by simp)
      have hLen : frame.header.len.toNat = frame.payload.length := hFormed
      have hTail := ih fun other hOther => h other (by simp [hOther])
      have hPayload : (if frame.header.cmd = Commands.push then frame.payload else []) =
          frame.payload := by
        split_ifs with hPush
        · rfl
        · exact (hAccepted.other_payload hPush).symm
      rw [wire_cons, Frame.bytes, List.append_assoc, shiftTs, dif_neg (by simp)]
      dsimp only
      rw [ofBytes_take_append, drop_header_append, hLen, List.take_left, hPayload,
        if_neg (not_not.mpr hAccepted.conv_eq), if_neg (by simp),
        if_neg (by simp [hAccepted.cmd_valid]), List.drop_left, hTail, List.map_cons, wire_cons]
      congr 1
      have hHead : (frame.header.bytes host ++ (frame.payload ++ wire host frames)).take 24 =
          frame.header.bytes host := by
        rw [← SegmentHeader.bytes_length host frame.header, List.take_left]
      rw [hHead]
      unfold Frame.shiftTs
      split_ifs <;> rfl

/-- A datagram without such segments stays as it is. -/
theorem shiftTs_eq_self (shift : UInt32) {data : List UInt8}
    (h : ∀ frame ∈ (scan host conv data).1, frame.header.cmd ≠ cmd) :
    shiftTs host conv cmd shift data = data := by
  fun_induction shiftTs host conv cmd shift data with
  | case1 => rfl
  | case2 => rfl
  | case3 => rfl
  | case4 => rfl
  | case5 data hLong header body hConv hLen hValid payload shifted ih =>
      obtain ⟨hData, -, -, -⟩ :=
        @scan_pieces data payload header.len (header.cmd = Commands.push) _ rfl hLen
      have hScan : (scan host conv data).1 =
          ⟨header, payload⟩ :: (scan host conv (body.drop payload.length)).1 := by
        rw [scan, dif_neg hLong]
        dsimp only
        rw [if_neg hConv, if_neg hLen, if_neg hValid]
        rfl
      rw [hScan] at h
      have hShifted : shifted = data.take 24 := if_neg (h ⟨header, payload⟩ (by simp))
      rw [ih fun frame hFrame => h frame (by simp [hFrame]), hShifted, List.append_assoc]
      exact hData.symm

end Datagrams

section Segments

/-- A buffered segment with the times that the endpoint has stored in it shifted. -/
def Segment.delay (shift : UInt32) (seg : Segment) : Segment :=
  { seg with
    header := { seg.header with ts := seg.header.ts + shift }
    metadata := { seg.metadata with resendts := seg.metadata.resendts + shift } }

def SenderBuffer.delay (shift : UInt32) (buffer : SenderBuffer) : SenderBuffer :=
  ⟨buffer.sndBuf.map (Segment.delay shift)⟩

namespace SenderBuffer

theorem incrementFastackLoop_delay (shift sn : UInt32) (l : List Segment) :
    incrementFastackLoop sn (l.map (Segment.delay shift)) =
      (incrementFastackLoop sn l).map (Segment.delay shift) := by
  induction l with
  | nil => rfl
  | cons seg rest ih =>
      unfold incrementFastackLoop
      rw [List.map_cons]
      dsimp only [Segment.delay]
      split_ifs
      · rw [ih]
        rfl
      · rfl

end SenderBuffer

namespace AckController

theorem unaReceived_delay (shift una : UInt32) (buffer : SenderBuffer) (tracker : SegmentTracker) :
    unaReceived una (buffer.delay shift) tracker =
      ((unaReceived una buffer tracker).1.delay shift, (unaReceived una buffer tracker).2) :=
  unaReceived_map (f := Segment.delay shift) (fun _ => rfl) una buffer tracker

theorem ackReceived_delay (shift sn : UInt32) (buffer : SenderBuffer) (tracker : SegmentTracker) :
    ackReceived sn (buffer.delay shift) tracker =
      ((ackReceived sn buffer tracker).1.delay shift, (ackReceived sn buffer tracker).2) :=
  ackReceived_map (f := Segment.delay shift) (fun _ => rfl) sn buffer tracker

theorem acknowledgeFastack_delay (shift : UInt32) (ctx : FastAckCtx) (buffer : SenderBuffer)
    (tracker : SegmentTracker) :
    acknowledgeFastack ctx (buffer.delay shift) tracker =
      (acknowledgeFastack ctx buffer tracker).delay shift := by
  unfold acknowledgeFastack
  split_ifs
  · rfl
  · rfl
  · exact congrArg SenderBuffer.mk
      (SenderBuffer.incrementFastackLoop_delay shift ctx.maxack buffer.sndBuf)

end AckController

/-- Only the first new header and the deadline take over the time of admission. -/
theorem Sender.moveSendQueueToBuffer_delay (conv rto cwnd current shift : UInt32) (wnd : Int32)
    (rcvNxt : UInt32) (sndQueue : List Segment) (buffer : SenderBuffer) (tracker : SegmentTracker) :
    moveSendQueueToBuffer conv rto cwnd (current + shift) wnd rcvNxt sndQueue
      (buffer.delay shift) tracker =
      let moved := moveSendQueueToBuffer conv rto cwnd current wnd rcvNxt sndQueue buffer tracker
      (moved.1, moved.2.1.delay shift, moved.2.2) := by
  induction sndQueue generalizing buffer tracker with
  | nil => rfl
  | cons newseg rest ih =>
      have hPush : (buffer.delay shift).pushSegment
            (stampSegment conv rto (current + shift) wnd tracker.sndNxt rcvNxt newseg) =
          (buffer.pushSegment
            (stampSegment conv rto current wnd tracker.sndNxt rcvNxt newseg)).delay
            shift := by
        simp [SenderBuffer.pushSegment, SenderBuffer.delay, Segment.delay, stampSegment]
      unfold moveSendQueueToBuffer
      split_ifs
      · rw [hPush, ih]
      · rfl

end Segments

section Flush

/-- Two flushers, with the datagrams that they have handed over: the timestamps of
the data differ, everything else is the same. -/
structure Paired (host : Host) (conv shift : UInt32) (flusher flusher' : Flusher mtu)
    (output output' : List (List UInt8)) : Prop where
  offset_eq : flusher'.offset = flusher.offset
  offset_le : flusher.offset ≤ mtu.bytes
  output_eq : output' = output.map (shiftTs host conv Commands.push shift)
  content_eq : ∃ frames : List Frame, (∀ frame ∈ frames, frame.Accepted conv ∧ frame.WellFormed) ∧
    flusher.content = wire host frames ∧
    flusher'.content = wire host (frames.map (Frame.shiftTs Commands.push shift))

/-- What the flushing functions of two paired flushers return. -/
structure PairedSent (host : Host) (conv shift : UInt32)
    (done done' : Flusher mtu × List (List UInt8) × Nat) : Prop
    extends Paired host conv shift done.1 done'.1 done.2.1 done'.2.1 where
  sent_eq : done'.2.2 = done.2.2

namespace Paired

variable {flusher flusher' : Flusher mtu} {output output' : List (List UInt8)}

theorem start (hEmpty : flusher.offset = 0) (hEmpty' : flusher'.offset = 0) :
    Paired host conv shift flusher flusher' [] [] where
  offset_eq := hEmpty'.trans hEmpty.symm
  offset_le := by rw [hEmpty]; exact Nat.zero_le _
  output_eq := rfl
  content_eq := ⟨[], by simp, by simp [Flusher.content, hEmpty], by simp [Flusher.content, hEmpty']⟩

theorem flush (h : Paired host conv shift flusher flusher' output output') :
    Lockstep (fun done done' => PairedSent host conv shift done done' ∧ done.1.offset = 0)
      (flusher.flush output) (flusher'.flush output') := by
  obtain ⟨frames, hFrames, hContent, hContent'⟩ := h.content_eq
  have hOffset' : flusher'.offset ≤ mtu.bytes := h.offset_eq.trans_le h.offset_le
  rw [Flusher.flush_of_le output h.offset_le, Flusher.flush_of_le output' hOffset']
  refine .ok ⟨⟨⟨rfl, Nat.zero_le _, ?_, [], by simp, by simp [Flusher.content],
    by simp [Flusher.content]⟩, h.offset_eq⟩, rfl⟩
  dsimp only
  rw [List.map_append, h.output_eq, List.map_singleton, hContent, hContent',
    shiftTs_wire host Commands.push shift hFrames]

theorem same (h : Paired host conv shift flusher flusher' output output') :
    PairedSent host conv shift (flusher, output, 0) (flusher', output', 0) := ⟨h, rfl⟩

theorem flushIfFull (h : Paired host conv shift flusher flusher' output output') :
    Lockstep (fun done done' => PairedSent host conv shift done done' ∧
      done.1.offset + 24 ≤ mtu.bytes)
      (flusher.flushIfFull output) (flusher'.flushIfFull output') := by
  have hMtu := mtu.maxSegmentSize_add
  have hHeader := mtu.exceeds_header
  unfold Flusher.flushIfFull
  refine .ite (by rw [h.offset_eq]) (fun _ => h.flush.imp ?_) (fun hRoom => .ok ⟨h.same, ?_⟩)
  · rintro done done' ⟨hSent, hEmpty⟩
    exact ⟨hSent, by omega⟩
  · dsimp only
    omega

theorem flushIfDoesNotFit (h : Paired host conv shift flusher flusher' output output') {size : Nat}
    (hSize : size ≤ mtu.maxSegmentSize) :
    Lockstep (fun done done' => PairedSent host conv shift done done' ∧
        done.1.offset + 24 + size ≤ mtu.bytes)
      (flusher.flushIfDoesNotFit output size) (flusher'.flushIfDoesNotFit output' size) := by
  have hMtu := mtu.maxSegmentSize_add
  unfold Flusher.flushIfDoesNotFit
  refine .ite (by rw [h.offset_eq]) (fun _ => h.flush.imp ?_) (fun hRoom => .ok ⟨h.same, ?_⟩)
  · rintro done done' ⟨hSent, hEmpty⟩
    exact ⟨hSent, by omega⟩
  · dsimp only
    omega

theorem flushIfNotEmpty (h : Paired host conv shift flusher flusher' output output') :
    Lockstep (PairedSent host conv shift) (flusher.flushIfNotEmpty output)
      (flusher'.flushIfNotEmpty output') := by
  unfold Flusher.flushIfNotEmpty Flusher.isEmpty
  exact .ite (by rw [h.offset_eq]) (fun _ => h.flush.imp fun _ _ hSent => hSent.1) fun _ =>
    .ok h.same

/-- Both sides append one segment. -/
theorem append (h : Paired host conv shift flusher flusher' output output')
    {next next' : Flusher mtu} {frame : Frame} (hFrame : frame.Accepted conv ∧ frame.WellFormed)
    (hOffset : next.offset = flusher.offset + 24 + frame.payload.length)
    (hOffset' : next'.offset = flusher'.offset + 24 + frame.payload.length)
    (hFits : flusher.offset + 24 + frame.payload.length ≤ mtu.bytes)
    (hContent : next.content = flusher.content ++ frame.bytes host)
    (hContent' : next'.content = flusher'.content ++
      (frame.shiftTs Commands.push shift).bytes host) :
    Paired host conv shift next next' output output' := by
  obtain ⟨frames, hFrames, hCollected, hCollected'⟩ := h.content_eq
  refine ⟨by rw [hOffset, hOffset', h.offset_eq], hOffset.trans_le hFits, h.output_eq,
    frames ++ [frame], ?_, ?_, ?_⟩
  · intro other hOther
    rcases List.mem_append.mp hOther with hOther | hOther
    · exact hFrames other hOther
    · rw [List.mem_singleton.mp hOther]
      exact hFrame
  · rw [hContent, hCollected, wire_append, wire_cons, wire_nil, List.append_nil]
  · rw [hContent', hCollected', List.map_append, wire_append, List.map_singleton, wire_cons,
      wire_nil, List.append_nil]

/-- A header without data is the same on both sides. -/
theorem emplace (h : Paired host conv shift flusher flusher' output output')
    {header : SegmentHeader}
    (hFrame : (⟨header, []⟩ : Frame).Accepted conv ∧ (⟨header, []⟩ : Frame).WellFormed)
    (hOther : header.cmd ≠ Commands.push) (hFits : flusher.offset + 24 ≤ mtu.bytes) :
    Lockstep (fun next next' => Paired host conv shift next next' output output')
      (flusher.emplace host header) (flusher'.emplace host header) := by
  obtain ⟨next, hEmplace, hOffset, hContent⟩ := @Flusher.emplace_of_le mtu host flusher header hFits
  obtain ⟨next', hEmplace', hOffset', hContent'⟩ :=
    @Flusher.emplace_of_le mtu host flusher' header (by rw [h.offset_eq]; exact hFits)
  have hSame : (⟨header, []⟩ : Frame).shiftTs Commands.push shift = ⟨header, []⟩ :=
    Frame.shiftTs_of_ne hOther shift
  rw [hEmplace, hEmplace']
  refine .ok (h.append hFrame hOffset hOffset' hFits ?_ ?_)
  · simpa [Frame.bytes] using hContent
  · rw [hSame]
    simpa [Frame.bytes] using hContent'

/-- A header with data differs in its timestamp. -/
theorem emplaceData (h : Paired host conv shift flusher flusher' output output')
    {header : SegmentHeader} {data : List UInt8} (hConv : header.conv = conv)
    (hPush : header.cmd = Commands.push) (hLen : header.len.toNat = data.length)
    (hFits : flusher.offset + 24 + data.length ≤ mtu.bytes) :
    Lockstep (fun next next' => Paired host conv shift next next' output output')
      (flusher.emplaceData host header data)
      (flusher'.emplaceData host { header with ts := header.ts + shift } data) := by
  obtain ⟨next, hEmplace, hOffset, hContent⟩ := Flusher.emplaceData_of_le host hLen hFits
  obtain ⟨next', hEmplace', hOffset', hContent'⟩ :=
    @Flusher.emplaceData_of_le mtu host flusher' { header with ts := header.ts + shift } data hLen
      (by rw [h.offset_eq]; exact hFits)
  have hAccepted : (⟨header, data⟩ : Frame).Accepted conv :=
    ⟨hConv, by rw [hPush]; rfl, fun _ => hLen, fun hOther => absurd hPush hOther⟩
  have hShifted : (⟨header, data⟩ : Frame).shiftTs Commands.push shift =
      ⟨{ header with ts := header.ts + shift }, data⟩ := if_pos hPush
  rw [hEmplace, hEmplace']
  refine .ok (h.append ⟨hAccepted, hLen⟩ hOffset hOffset' hFits hContent ?_)
  rw [hShifted]
  exact hContent'

end Paired

/-- What the loops over acknowledgements and probes return: also the service header,
whose times are the peer's or nobody's. -/
structure PairedService (host : Host) (conv shift : UInt32)
    (done done' : SegmentHeader × Flusher mtu × List (List UInt8) × Nat) : Prop
    extends PairedSent host conv shift done.2 done'.2 where
  header_eq : done'.1 = done.1
  conv_eq : done.1.conv = conv
  len_eq : done.1.len = 0

theorem Frame.accepted_service (header : SegmentHeader) (hConv : header.conv = conv)
    (hValid : Commands.isValid header.cmd = true) (hOther : header.cmd ≠ Commands.push)
    (hLen : header.len = 0) : (⟨header, []⟩ : Frame).Accepted conv ∧
      (⟨header, []⟩ : Frame).WellFormed :=
  ⟨⟨hConv, hValid, fun hPush => absurd hPush hOther, fun _ => rfl⟩, congrArg UInt32.toNat hLen⟩

theorem ImKcpp.flushAcksLoop_paired (acks : List Ack) {header : SegmentHeader}
    {flusher flusher' : Flusher mtu} {output output' : List (List UInt8)} (sent : Nat)
    (hConv : header.conv = conv) (hCmd : header.cmd = Commands.ack) (hLen : header.len = 0)
    (h : Paired host conv shift flusher flusher' output output') :
    Lockstep (PairedService host conv shift) (flushAcksLoop host acks header flusher output sent)
      (flushAcksLoop host acks header flusher' output' sent) := by
  induction acks generalizing header flusher flusher' output output' sent with
  | nil => exact .ok ⟨⟨h, rfl⟩, rfl, hConv, hLen⟩
  | cons ack rest ih =>
      unfold flushAcksLoop
      refine h.flushIfFull.bind ?_
      rintro ⟨room, flushed, _⟩ ⟨room', flushed', size⟩ ⟨⟨hRoom, rfl⟩, hFits⟩
      have hOther : header.cmd ≠ Commands.push := by
        rw [hCmd]
        decide
      have hValid : Commands.isValid header.cmd = true := by
        rw [hCmd]
        rfl
      have hFrame :=
        Frame.accepted_service { header with sn := ack.sn, ts := ack.ts } hConv hValid hOther
        hLen
      refine (hRoom.emplace hFrame hOther hFits).bind fun next next' hNext => ?_
      exact ih (sent + size) hConv hCmd hLen hNext

theorem ImKcpp.flushProbe_paired (flag : Bool) {cmd : UInt8} (hValid : Commands.isValid cmd = true)
    (hOther : cmd ≠ Commands.push)
    {done done' : SegmentHeader × Flusher mtu × List (List UInt8) × Nat}
    (h : PairedService host conv shift done done') :
    Lockstep (PairedService host conv shift)
      (flushProbe host flag cmd done.1 done.2.1 done.2.2.1 done.2.2.2)
      (flushProbe host flag cmd done'.1 done'.2.1 done'.2.2.1 done'.2.2.2) := by
  obtain ⟨_, flusher, output, _⟩ := done
  obtain ⟨header, flusher', output', sent⟩ := done'
  obtain ⟨⟨hPaired, rfl⟩, rfl, hConv, hLen⟩ := h
  unfold flushProbe
  refine .ite Iff.rfl (fun _ => hPaired.flushIfFull.bind ?_)
    fun _ => .ok ⟨⟨hPaired, rfl⟩, rfl, hConv, hLen⟩
  rintro ⟨room, flushed, _⟩ ⟨room', flushed', size⟩ ⟨⟨hRoom, rfl⟩, hFits⟩
  have hFrame := Frame.accepted_service { header with cmd } hConv hValid hOther hLen
  exact (hRoom.emplace hFrame hOther hFits).bind fun next next' hNext =>
    .ok ⟨⟨hNext, rfl⟩, rfl, hConv, hLen⟩

/-- Two probers that have been asked the same. The time of the next probe means
nothing while none is armed. -/
structure WindowProber.Delayed (shift : UInt32) (prober prober' : WindowProber) : Prop where
  probe_eq : prober'.probe = prober.probe
  probeWait_eq : prober'.probeWait = prober.probeWait
  armed : prober.probeWait ≠ 0 → prober'.tsProbe = prober.tsProbe + shift

theorem delayed_add (time shift span : UInt32) : time + shift + span = time + span + shift := by
  ac_rfl

theorem timeDelta_add_right (later earlier shift : UInt32) :
    timeDelta (later + shift) (earlier + shift) = timeDelta later earlier :=
  WrappingClock.difference_add_right later earlier shift

theorem WindowProber.Delayed.update {prober prober' : WindowProber}
    (h : prober.Delayed shift prober') (current rmtWnd : UInt32) :
    Lockstep (WindowProber.Delayed shift) (prober.update current rmtWnd)
      (prober'.update (current + shift) rmtWnd) := by
  unfold WindowProber.update
  refine .ite Iff.rfl (fun _ => .ok ⟨h.probe_eq, rfl, fun hArmed => absurd rfl hArmed⟩) fun _ => ?_
  refine .ite (by rw [h.probeWait_eq]) (fun _ => .ok ⟨h.probe_eq, rfl, fun _ => ?_⟩)
    fun hArmed => ?_
  · exact delayed_add _ _ _
  · have hProbe := h.armed (by simpa using hArmed)
    refine .ite (by rw [hProbe, timeDelta_add_right]) (fun _ => ?_) fun _ => .ok h
    rw [WindowProber.setFlag_eq, WindowProber.setFlag_eq, h.probe_eq, h.probeWait_eq]
    exact .ok ⟨rfl, rfl, fun _ => delayed_add _ _ _⟩

namespace Sender

/-- The settings of a flush at the shifted time. -/
def FlushSettings.delay (shift : UInt32) (settings : FlushSettings) : FlushSettings :=
  { settings with current := settings.current + shift }

/-- The contexts of two loops over the sender buffer. -/
inductive PairedContext (host : Host) (conv shift : UInt32) (ctx : FlushContext mtu) :
    FlushContext mtu → Prop where
  | intro {flusher : Flusher mtu} {output : List (List UInt8)}
      (paired : Paired host conv shift ctx.flusher flusher ctx.output output) :
      PairedContext host conv shift ctx { ctx with flusher, output }

variable (settings : FlushSettings) (segment : Segment)

@[simp] theorem hasTimedOut_delay (shift : UInt32) :
    hasTimedOut (settings.delay shift) (segment.delay shift) = hasTimedOut settings segment := by
  unfold hasTimedOut FlushSettings.delay Segment.delay
  rw [timeDelta_add_right]

theorem prepareForFirstSend_delay (shift : UInt32) :
    prepareForFirstSend (settings.delay shift) (segment.delay shift) =
      (prepareForFirstSend settings segment).delay shift := by
  unfold prepareForFirstSend FlushSettings.delay Segment.delay
  dsimp only
  rw [delayed_add settings.current shift settings.rto, delayed_add _ shift settings.rtomin]

theorem prepareSegmentForResend_delay (shift : UInt32) :
    prepareSegmentForResend (settings.delay shift) (segment.delay shift) =
      (prepareSegmentForResend settings segment).delay shift := by
  unfold prepareSegmentForResend FlushSettings.delay Segment.delay
  dsimp only
  rw [delayed_add settings.current shift]

theorem prepareSegmentForFastResend_delay (shift : UInt32) :
    prepareSegmentForFastResend (settings.delay shift) (segment.delay shift) =
      (prepareSegmentForFastResend settings segment).delay shift := by
  unfold prepareSegmentForFastResend FlushSettings.delay Segment.delay
  dsimp only
  rw [delayed_add settings.current shift]

/-- What is due does not depend on the origin of the clock. -/
theorem processSegment_delay (shift : UInt32) (ctx : FlushContext mtu) (flusher : Flusher mtu)
    (output : List (List UInt8)) :
    processSegment (settings.delay shift) (segment.delay shift) { ctx with flusher, output } =
      let processed := processSegment settings segment ctx
      (processed.1, processed.2.1.delay shift, { processed.2.2 with flusher, output }) := by
  have hNever : hasNeverBeenSent (segment.delay shift) = hasNeverBeenSent segment := rfl
  have hFast : canFastResend (settings.delay shift) (segment.delay shift) =
      canFastResend settings segment := rfl
  unfold processSegment
  dsimp only
  rw [hNever, hFast, hasTimedOut_delay, prepareForFirstSend_delay, prepareSegmentForResend_delay,
    prepareSegmentForFastResend_delay]
  split_ifs <;> rfl

variable {settings segment}

/-- One transmission on both sides. -/
theorem sendSegment_paired (hSegment : segment.InFlight mtu conv) {ctx ctx' : FlushContext mtu}
    (h : PairedContext host conv shift ctx ctx') :
    Lockstep (fun sent sent' => sent'.1 = sent.1.delay shift ∧
      PairedContext host conv shift sent.2 sent'.2)
      (sendSegment host settings segment ctx)
      (sendSegment host (settings.delay shift) (segment.delay shift) ctx') := by
  obtain ⟨hPaired⟩ := h
  have hLen : segment.dataSize = segment.data.length := hSegment.sendable.len_eq
  have hFlush := hPaired.flushIfDoesNotFit (hLen.trans_le hSegment.sendable.data_length_le)
  unfold sendSegment
  refine hFlush.bind ?_
  rintro ⟨room, flushed, _⟩ ⟨room', flushed', size⟩ ⟨⟨hRoom, rfl⟩, hFits⟩
  rw [hLen] at hFits
  have hHeader : (refresh settings segment).header.conv = conv := hSegment.conv_eq
  refine (hRoom.emplaceData hHeader hSegment.cmd_eq hSegment.sendable.len_eq hFits).bind
    fun next next' hNext => ?_
  exact .ok ⟨rfl, ⟨hNext⟩⟩

/-- The loop over the sender buffer on both sides. -/
theorem forEachSegment_paired (settings : FlushSettings) {sndBuf : List Segment}
    (hSndBuf : ∀ seg ∈ sndBuf, seg.InFlight mtu conv) {ctx ctx' : FlushContext mtu}
    (h : PairedContext host conv shift ctx ctx') :
    Lockstep (fun done done' => done'.1 = done.1.map (Segment.delay shift) ∧
        PairedContext host conv shift done.2 done'.2)
      (forEachSegment host settings sndBuf ctx)
      (forEachSegment host (settings.delay shift) (sndBuf.map (Segment.delay shift)) ctx') := by
  induction sndBuf generalizing ctx ctx' with
  | nil => exact .ok ⟨rfl, h⟩
  | cons segment rest ih =>
      have hSegment := hSndBuf segment (by simp)
      obtain ⟨processed, hProcess, hFlusher, hOutput, -⟩ := processSegment_spec settings segment ctx
      obtain @⟨flusher', output', hPaired⟩ := h
      have hProcess' := processSegment_delay settings segment shift ctx flusher' output'
      rw [hProcess] at hProcess'
      have hProcessed : PairedContext host conv shift processed
          { processed with flusher := flusher', output := output' } := by
        refine ⟨?_⟩
        rw [hFlusher, hOutput]
        exact hPaired
      have hPrepared : (prepared settings segment).InFlight mtu conv :=
        ⟨prepared_sendable hSegment.sendable, by simpa using hSegment.cmd_eq,
          by simpa using hSegment.conv_eq⟩
      have hRest : ∀ sent sent' : Segment × FlushContext mtu, sent'.1 = sent.1.delay shift ∧
          PairedContext host conv shift sent.2 sent'.2 →
          Lockstep (fun done done' => done'.1 = done.1.map (Segment.delay shift) ∧
              PairedContext host conv shift done.2 done'.2)
            (forEachSegment host settings rest sent.2 >>= fun done =>
              pure (sent.1 :: done.1, done.2))
            (forEachSegment host (settings.delay shift) (rest.map (Segment.delay shift)) sent'.2 >>=
              fun done => pure (sent'.1 :: done.1, done.2)) := by
        rintro ⟨sent, after⟩ ⟨_, after'⟩ ⟨rfl, hAfter⟩
        refine (ih (fun other hOther => hSndBuf other (by simp [hOther])) hAfter).bind ?_
        rintro ⟨kept, final⟩ ⟨_, final'⟩ ⟨rfl, hFinal⟩
        exact .ok ⟨rfl, hFinal⟩
      rw [List.map_cons]
      unfold forEachSegment
      rw [hProcess, hProcess']
      refine .ite Iff.rfl (fun _ => (sendSegment_paired hPrepared hProcessed).bind ?_)
        fun _ => hRest (prepared settings segment, processed) (_, _) ⟨rfl, hProcessed⟩
      rintro ⟨sent, after⟩ ⟨_, _⟩ ⟨rfl, ⟨hAfter⟩⟩
      exact hRest (sent, { after with
        result := { after.result with cmdPushCount := after.result.cmdPushCount + 1 } })
        (_, _) ⟨rfl, ⟨hAfter⟩⟩

end Sender

namespace ImKcpp

/-- An endpoint with all times of its own clock shifted. The bytes behind the offset
of the flusher and the time of a probe that is not armed may differ. -/
inductive Delayed (shift : UInt32) (s : ImKcpp mtu) : ImKcpp mtu → Prop where
  | intro {flusher : Flusher mtu} {windowProber : WindowProber}
      (prober : s.windowProber.Delayed shift windowProber) :
      Delayed shift s { s with
        flusher
        windowProber
        senderBuffer := s.senderBuffer.delay shift
        current := s.current + shift
        tsFlush := s.tsFlush + shift }

theorem Delayed.moveSendQueueToBuffer {s s' : ImKcpp mtu} (h : s.Delayed shift s') (wnd : Int32)
    (rcvNxt : UInt32) : s'.moveSendQueueToBuffer wnd rcvNxt =
      let moved := s.moveSendQueueToBuffer wnd rcvNxt
      (moved.1, moved.2.1.delay shift, moved.2.2) := by
  cases h
  exact Sender.moveSendQueueToBuffer_delay _ _ _ _ shift wnd rcvNxt _ _ _

theorem Delayed.flushSettings {s s' : ImKcpp mtu} (h : s.Delayed shift s') (wnd : Int32)
    (rcvNxt : UInt32) : s'.flushSettings wnd rcvNxt = (s.flushSettings wnd rcvNxt).delay shift := by
  cases h
  rfl

/-- The data part of a flush on both sides. -/
theorem Delayed.flushDataSegments {s s' : ImKcpp mtu} (h : s.Delayed shift s') (wnd : Int32)
    (rcvNxt : UInt32) (result : FlushResult)
    (hMoved : ∀ seg ∈ (s.moveSendQueueToBuffer wnd rcvNxt).2.1.sndBuf, seg.InFlight mtu conv)
    {output output' : List (List UInt8)}
    (hPaired : Paired host conv shift s.flusher s'.flusher output output') :
    Lockstep (fun done done' => done.1.Delayed shift done'.1 ∧ done'.2.2 = done.2.2 ∧
        Paired host conv shift done.1.flusher done'.1.flusher done.2.1 done'.2.1)
      (s.flushDataSegments host output result wnd rcvNxt)
      (s'.flushDataSegments host output' result wnd rcvNxt) := by
  have hContext : Sender.PairedContext host conv shift
      { flusher := s.flusher, output, result, change := false, xmit := s.sender.xmit,
        state := s.sharedCtx.state } _ := ⟨hPaired⟩
  have hLoop := Sender.forEachSegment_paired (s.flushSettings wnd rcvNxt) hMoved hContext
  unfold ImKcpp.flushDataSegments
  rw [h.moveSendQueueToBuffer, h.flushSettings]
  obtain @⟨flusher', windowProber', hProber⟩ := h
  refine hLoop.bind ?_
  rintro ⟨sndBuf, ctx⟩ ⟨_, _⟩ ⟨rfl, ⟨hCtx⟩⟩
  refine .ite Iff.rfl (fun _ => ?_) fun _ => .ok ⟨⟨hProber⟩, rfl, hCtx⟩
  refine (Lockstep.refl (R := Eq) (fun _ => rfl) _).bind ?_
  rintro inFlight _ rfl
  exact .ok ⟨⟨hProber⟩, rfl, hCtx⟩

/-- Whether a probe is due does not depend on the origin of the clock. -/
theorem hasFlag_delay {prober prober' : WindowProber} (h : prober.Delayed shift prober')
    (flag : ProbeFlag) :
    Lockstep Eq (prober.hasFlag flag) (prober'.hasFlag flag) := by
  rw [WindowProber.hasFlag_eq, WindowProber.hasFlag_eq, h.probe_eq]
  exact .ok rfl

/-- A flush on both sides. -/
theorem Delayed.flush {s s' : ImKcpp mtu} (h : s.Delayed shift s') (hSending : s.Sending)
    (hSending' : s'.Sending) :
    Lockstep (fun done done' => done.1.Delayed shift done'.1 ∧ done'.2.2 = done.2.2 ∧
        done'.2.1 = done.2.1.map (shiftTs host s.sharedCtx.conv Commands.push shift))
      (s.flush host) (s'.flush host) := by
  obtain @⟨flusher', windowProber', hProber⟩ := h
  have hStart : Paired host s.sharedCtx.conv shift s.flusher flusher' [] [] :=
    Paired.start hSending.flusher_empty hSending'.flusher_empty
  have hAsk : Commands.wask ≠ Commands.push := by decide
  have hTell : Commands.wins ≠ Commands.push := by decide
  unfold ImKcpp.flush
  refine .ite Iff.rfl (fun _ => .ok ⟨⟨hProber⟩, rfl, rfl⟩) fun _ => ?_
  refine (flushAcksLoop_paired s.ackController.acklist 0 rfl rfl rfl hStart).bind ?_
  rintro acked acked' hAcked
  refine (hProber.update s.current s.congestionController.rmtWnd).bind ?_
  rintro prober prober' hUpdated
  refine (hasFlag_delay hUpdated .askSend).bind ?_
  rintro askSend _ rfl
  refine (flushProbe_paired askSend rfl hAsk hAcked).bind ?_
  rintro asked asked' hAsked
  refine (hasFlag_delay hUpdated .askTell).bind ?_
  rintro askTell _ rfl
  refine (flushProbe_paired askTell rfl hTell hAsked).bind ?_
  rintro ⟨header, flusher, output, _⟩ ⟨_, flusher', output', sent⟩ ⟨⟨hTold, rfl⟩, rfl, -, -⟩
  have hReset : prober.resetFlags.Delayed shift prober'.resetFlags :=
    ⟨rfl, hUpdated.probeWait_eq, hUpdated.armed⟩
  have hAfter : ({ s with
      ackController := s.ackController.clear
      windowProber := prober.resetFlags
      flusher } : ImKcpp mtu).Delayed shift _ := @Delayed.intro mtu shift _ flusher' _ hReset
  refine (hAfter.flushDataSegments s.unusedReceiveWindow s.receiver.rcvNxt _
    hSending.moved.inFlight hTold).bind ?_
  rintro ⟨final, datagrams, _⟩ ⟨final', datagrams', result⟩ ⟨hFinal, rfl, hData⟩
  refine hData.flushIfNotEmpty.bind ?_
  rintro ⟨last, output, _⟩ ⟨last', output', size⟩ ⟨hLast, rfl⟩
  refine .ok ⟨?_, rfl, hLast.output_eq⟩
  have hFinal : final.Delayed shift final' := hFinal
  obtain @⟨_, _, hFinalProber⟩ := hFinal
  exact ⟨hFinalProber⟩

end ImKcpp

end Flush

section Input

namespace ImKcpp

/-- An acknowledgement echoes a time of the endpoint's own clock, so it is shifted
with it; the sample of the round trip is then the same. -/
theorem updateRto_delay (rc : RtoCalculator) (current ts shift : UInt32) :
    rc.updateRto (current + shift) (ts + shift) = rc.updateRto current ts := by
  unfold RtoCalculator.updateRto
  rw [timeDelta_add_right]

theorem Delayed.acceptHeader {s s' : ImKcpp mtu} (h : s.Delayed shift s') (header : SegmentHeader) :
    (s.acceptHeader header).Delayed shift (s'.acceptHeader header) := by
  obtain ⟨hProber⟩ := h
  unfold ImKcpp.acceptHeader
  dsimp only
  rw [AckController.unaReceived_delay]
  exact ⟨hProber⟩

theorem Delayed.applyPush {s s' : ImKcpp mtu} (h : s.Delayed shift s') (frame : Frame) :
    (s.applyPush frame).Delayed shift (s'.applyPush frame) := by
  obtain ⟨hProber⟩ := h
  unfold ImKcpp.applyPush
  dsimp only
  split_ifs <;> exact ⟨hProber⟩

theorem Delayed.inputAck {s s' : ImKcpp mtu} (h : s.Delayed shift s') (header : SegmentHeader)
    (ctx ctx' : InputContext) :
    (ImKcpp.inputAck header s ctx).1.Delayed shift
      (ImKcpp.inputAck { header with ts := header.ts + shift } s' ctx').1 := by
  obtain ⟨hProber⟩ := h
  unfold ImKcpp.inputAck
  dsimp only
  rw [AckController.ackReceived_delay, updateRto_delay]
  exact ⟨hProber⟩

theorem Delayed.applyWask {s s' : ImKcpp mtu} (h : s.Delayed shift s') :
    s.applyWask.Delayed shift s'.applyWask := by
  obtain ⟨hProber⟩ := h
  have hProbe := congrArg (· ||| ProbeFlag.askTell.value) hProber.probe_eq
  exact ⟨⟨hProbe, hProber.probeWait_eq, hProber.armed⟩⟩

/-- One segment on both sides. -/
theorem Delayed.applyFrame {s s' : ImKcpp mtu} (h : s.Delayed shift s') (frame : Frame) :
    (s.applyFrame frame).Delayed shift (s'.applyFrame (frame.shiftTs Commands.ack shift)) := by
  have hHeader := h.acceptHeader frame.header
  by_cases hAck : frame.header.cmd = Commands.ack
  · have hOther : frame.header.cmd ≠ Commands.push := by
      rw [hAck]
      decide
    unfold ImKcpp.applyFrame Frame.shiftTs
    rw [if_pos hAck]
    dsimp only
    rw [if_neg hOther, if_neg hOther, if_pos hAck, if_pos hAck]
    exact hHeader.inputAck frame.header {} {}
  · rw [Frame.shiftTs_of_ne hAck]
    unfold ImKcpp.applyFrame
    dsimp only
    rw [if_neg hAck, if_neg hAck]
    split_ifs
    · exact hHeader.applyPush frame
    · exact hHeader.applyWask
    · exact hHeader

/-- The locals of `input` on both sides: only the remembered timestamp differs. -/
structure InputContext.Same (ctx ctx' : InputContext) : Prop where
  offset_eq : ctx'.offset = ctx.offset
  result_eq : ctx'.result = ctx.result
  maxack_eq : ctx'.fastackCtx.maxack = ctx.fastackCtx.maxack

theorem Delayed.storesPush {s s' : ImKcpp mtu} (h : s.Delayed shift s') (header : SegmentHeader) :
    s'.storesPush header = s.storesPush header := by
  cases h
  rfl

theorem FastAckCtx.update_maxack {ctx ctx' : FastAckCtx} (h : ctx'.maxack = ctx.maxack)
    (sn ts ts' : UInt32) : (ctx'.update sn ts').maxack = (ctx.update sn ts).maxack := by
  unfold FastAckCtx.update FastAckCtx.isValid
  rw [h]
  split_ifs
  · rfl
  · exact h
  · rfl

theorem InputContext.Same.noteFrame {s s' : ImKcpp mtu} (h : s.Delayed shift s') (frame : Frame)
    {ctx ctx' : InputContext} (hSame : ctx.Same ctx') :
    (s.noteFrame frame ctx).Same (s'.noteFrame (frame.shiftTs Commands.ack shift) ctx') := by
  obtain ⟨hOffset, hResult, hMaxack⟩ := hSame
  obtain ⟨ts, hTs⟩ := Frame.shiftTs_eq Commands.ack shift frame
  have hStores : s'.storesPush { frame.header with ts } = s.storesPush frame.header :=
    h.storesPush frame.header
  rw [hTs]
  unfold ImKcpp.noteFrame
  dsimp only
  rw [hStores, hOffset, hResult]
  split_ifs
  · exact ⟨rfl, rfl, hMaxack⟩
  · exact ⟨rfl, rfl, hMaxack⟩
  · exact ⟨rfl, rfl, FastAckCtx.update_maxack hMaxack _ _ _⟩
  · exact ⟨rfl, rfl, hMaxack⟩
  · exact ⟨rfl, rfl, hMaxack⟩

/-- The segments of a datagram on both sides. -/
theorem Delayed.foldl_inputFrame {s s' : ImKcpp mtu} (h : s.Delayed shift s') (frames : List Frame)
    {ctx ctx' : InputContext} (hSame : ctx.Same ctx') :
    let final := frames.foldl inputFrame (s, ctx)
    let final' := (frames.map (Frame.shiftTs Commands.ack shift)).foldl inputFrame (s', ctx')
    final.1.Delayed shift final'.1 ∧ final.2.Same final'.2 := by
  induction frames generalizing s s' ctx ctx' with
  | nil => exact ⟨h, hSame⟩
  | cons frame rest ih => exact ih (h.applyFrame frame) (hSame.noteFrame h frame)

theorem Delayed.finishInput {s s' : ImKcpp mtu} (h : s.Delayed shift s') (prevUna : UInt32)
    {fastackCtx fastackCtx' : FastAckCtx} (hMaxack : fastackCtx'.maxack = fastackCtx.maxack) :
    (s.finishInput prevUna fastackCtx).Delayed shift (s'.finishInput prevUna fastackCtx') := by
  obtain ⟨hProber⟩ := h
  have hFastack (buffer : SenderBuffer) (tracker : SegmentTracker) :
      AckController.acknowledgeFastack fastackCtx' buffer tracker =
        AckController.acknowledgeFastack fastackCtx buffer tracker := by
    unfold AckController.acknowledgeFastack FastAckCtx.isValid
    rw [hMaxack]
  unfold ImKcpp.finishInput
  rw [hFastack, AckController.acknowledgeFastack_delay]
  exact ⟨hProber⟩

/-- `input` on both sides. -/
theorem Delayed.input {s s' : ImKcpp mtu} (h : s.Delayed shift s') (data : List UInt8) :
    Lockstep (fun done done' => done.1.Delayed shift done'.1 ∧ done'.2 = done.2) (s.input host data)
      (s'.input host (shiftTs host s.sharedCtx.conv Commands.ack shift data)) := by
  have hConv : s'.sharedCtx.conv = s.sharedCtx.conv := by
    cases h
    rfl
  have hUna : s'.segmentTracker = s.segmentTracker := by
    cases h
    rfl
  have hLength := length_shiftTs host s.sharedCtx.conv Commands.ack shift data
  by_cases hShort : data.length < 24
  · have hRefused : s.input host data = .ok (s, .error .lessThanHeaderSize) := if_pos hShort
    have hRefused' : s'.input host (shiftTs host s.sharedCtx.conv Commands.ack shift data) =
        .ok (s', .error .lessThanHeaderSize) := if_pos (hLength.trans_lt hShort)
    rw [hRefused, hRefused']
    exact .ok ⟨h, rfl⟩
  · have hLong := Nat.le_of_not_lt hShort
    obtain ⟨hFinal, hSame⟩ := h.foldl_inputFrame (scan host s.sharedCtx.conv data).1
      (⟨rfl, rfl, rfl⟩ : ({} : InputContext).Same {})
    rw [input_eq host s data hLong, input_eq host s' _ (hLong.trans_eq hLength.symm), hConv, hUna,
      scan_shiftTs]
    generalize scan host s.sharedCtx.conv data = seen at hFinal hSame
    obtain ⟨frames, ending⟩ := seen
    cases ending with
    | error error => exact .ok ⟨hFinal, rfl⟩
    | ok left =>
        refine .ok ⟨hFinal.finishInput s.segmentTracker.sndUna hSame.maxack_eq, ?_⟩
        dsimp only
        rw [hSame.result_eq, hSame.offset_eq]

end ImKcpp

end Input

section Runs

/-- A call of the replay. -/
def Call.delay (host : Host) (conv shift : UInt32) : Call → Call
  | .update current => .update (current + shift)
  | .input data => .input (shiftTs host conv Commands.ack shift data)
  | call => call

def Call.isUpdate : Call → Bool
  | .update _ => true
  | _ => false

/-- What the caller gets to see of a call: its result and the datagrams that its
callback receives. -/
def Event.reply (event : Event mtu) : Response × List (List UInt8) :=
  (event.outcome.response, event.outcome.datagrams)

def Party.replies (party : Party mtu) : List (Response × List (List UInt8)) :=
  party.history.map Event.reply

/-- What the caller gets to see in the replay. -/
def delayReply (host : Host) (conv shift : UInt32) (reply : Response × List (List UInt8)) :
    Response × List (List UInt8) :=
  (reply.1, reply.2.map (shiftTs host conv Commands.push shift))

/-- The same call on both sides. -/
structure Outcome.Delayed (host : Host) (conv shift : UInt32)
    (outcome outcome' : Outcome mtu) : Prop where
  state : outcome.state.Delayed shift outcome'.state
  response_eq : outcome'.response = outcome.response
  datagrams_eq : outcome'.datagrams = outcome.datagrams.map (shiftTs host conv Commands.push shift)

namespace ImKcpp

variable {s s' : ImKcpp mtu}

theorem Delayed.configure (h : s.Delayed shift s') (setting : Setting) :
    Lockstep (Delayed shift) (s.configure setting) (s'.configure setting) := by
  obtain ⟨hProber⟩ := h
  cases setting with
  | sendWindow value =>
      refine (Lockstep.refl (R := Eq) (fun _ => rfl) _).bind ?_
      rintro _ _ rfl
      exact .ok ⟨hProber⟩
  | receiveWindow value =>
      refine (Lockstep.refl (R := Eq) (fun _ => rfl) _).bind ?_
      rintro _ _ rfl
      exact .ok ⟨hProber⟩
  | _ => exact .ok ⟨hProber⟩

theorem Delayed.recv (h : s.Delayed shift s') {n : Nat} (buffer : Vector UInt8 n) :
    Lockstep (fun done done' => done.1.Delayed shift done'.1 ∧ done'.2 = done.2) (s.recv buffer)
      (s'.recv buffer) := by
  obtain @⟨_, _, hProber⟩ := h
  unfold ImKcpp.recv
  refine (Lockstep.refl (R := Eq) (fun _ => rfl) _).bind ?_
  rintro ⟨receiver, written, result⟩ _ rfl
  cases result with
  | error error => exact .ok ⟨⟨hProber⟩, rfl⟩
  | ok result =>
      refine .ite Iff.rfl (fun _ => ?_) fun _ => .ok ⟨⟨hProber⟩, rfl⟩
      rw [WindowProber.setFlag_eq, WindowProber.setFlag_eq]
      have hProbe := congrArg (· ||| ProbeFlag.askTell.value) hProber.probe_eq
      exact .ok ⟨⟨⟨hProbe, hProber.probeWait_eq, hProber.armed⟩⟩, rfl⟩

theorem Delayed.send (h : s.Delayed shift s') (buffer : List UInt8) :
    Lockstep (fun done done' => done.1.Delayed shift done'.1 ∧ done'.2 = done.2) (s.send buffer)
      (s'.send buffer) := by
  obtain ⟨hProber⟩ := h
  unfold ImKcpp.send
  refine (Lockstep.refl (R := Eq) (fun _ => rfl) _).bind ?_
  rintro ⟨sender, result⟩ _ rfl
  exact .ok ⟨⟨hProber⟩, rfl⟩

/-- The clock work of a later `update` on both sides. -/
theorem Delayed.updateClock (h : s.Delayed shift s') (hUpdated : s.updated = true) (now : UInt32) :
    (s.updateClock now).1.Delayed shift (s'.updateClock (now + shift)).1 ∧
      (s'.updateClock (now + shift)).2 = (s.updateClock now).2 := by
  have hUpdated' : s'.updated = true := by
    cases h
    exact hUpdated
  rw [updateClock_running hUpdated, updateClock_running hUpdated']
  obtain ⟨hProber⟩ := h
  dsimp only
  rw [timeDelta_add_right, delayed_add s.tsFlush, timeDelta_add_right, delayed_add now]
  split_ifs <;> exact ⟨⟨hProber⟩, rfl⟩

/-- Before the first `update` an endpoint has stored no time of its own clock. -/
structure Waiting (s : ImKcpp mtu) : Prop where
  updated : s.updated = false
  sndBuf : s.senderBuffer.sndBuf = []
  probeWait : s.windowProber.probeWait = 0

theorem Waiting.create (mtu : Mtu) (conv : UInt32) : (create mtu conv).Waiting := ⟨rfl, rfl, rfl⟩

/-- The clock work of the first `update`. -/
theorem Waiting.updateClock (h : s.Waiting) (now shift : UInt32) :
    (s.updateClock now).1.Delayed shift (s.updateClock (now + shift)).1 ∧
      (s.updateClock (now + shift)).2 = (s.updateClock now).2 := by
  have hProber : s.windowProber.Delayed shift s.windowProber :=
    ⟨rfl, rfl, fun hArmed => absurd h.probeWait hArmed⟩
  have hBuffer : s.senderBuffer.delay shift = s.senderBuffer := by
    rw [SenderBuffer.delay, h.sndBuf, List.map_nil, ← h.sndBuf]
  have hStarted : ({ s with updated := true, tsFlush := now } : ImKcpp mtu).Delayed shift
      { s with
        updated := true
        senderBuffer := s.senderBuffer.delay shift
        current := s.current + shift
        tsFlush := now + shift } := ⟨hProber⟩
  have hClock := hStarted.updateClock rfl now
  rw [hBuffer] at hClock
  rw [updateClock_first h.updated, updateClock_first h.updated]
  exact hClock

/-- What `update` does once its clock work is done. -/
theorem Delayed.update {now now' : UInt32}
    (h : (s.updateClock now).1.Delayed shift (s'.updateClock now').1)
    (hDue : (s'.updateClock now').2 = (s.updateClock now).2) (hInvariant : s.Invariant)
    (hInvariant' : s'.Invariant) :
    Lockstep (fun done done' => done.1.Delayed shift done'.1 ∧ done'.2.2 = done.2.2 ∧
        done'.2.1 = done.2.1.map (shiftTs host s.sharedCtx.conv Commands.push shift))
      (s.update host now) (s'.update host now') := by
  have hStart := s.updateClock_start now
  have hSending := (hStart.invariant hInvariant).toSending
  have hSending' := ((s'.updateClock_start now').invariant hInvariant').toSending
  have hFlush := @Delayed.flush mtu host shift _ _ h hSending hSending'
  rw [hStart.conv_eq] at hFlush
  have hBranch : (s'.updateClock now').2 = true ↔ (s.updateClock now).2 = true := by rw [hDue]
  exact .ite hBranch (fun _ => hFlush) fun _ => .ok ⟨h, rfl, rfl⟩

/-- A call on both sides, once both endpoints have been updated. -/
theorem Delayed.perform (h : s.Delayed shift s') (hInvariant : s.Invariant)
    (hInvariant' : s'.Invariant) (hUpdated : s.updated = true) {call : Call}
    (hCheck : ∀ current, call ≠ .check current) :
    Lockstep (Outcome.Delayed host s.sharedCtx.conv shift) (s.perform host call)
      (s'.perform host (call.delay host s.sharedCtx.conv shift)) := by
  cases call with
  | configure setting => exact (h.configure setting).bind fun _ _ hState => .ok ⟨hState, rfl, rfl⟩
  | input data =>
      refine (h.input data).bind ?_
      rintro ⟨state, result⟩ ⟨state', _⟩ ⟨hState, rfl⟩
      exact .ok ⟨hState, rfl, rfl⟩
  | recv buffer =>
      refine (h.recv buffer).bind ?_
      rintro ⟨state, written, result⟩ ⟨state', _, _⟩ ⟨hState, hSame⟩
      obtain ⟨rfl, rfl⟩ := Prod.mk.inj hSame
      exact .ok ⟨hState, rfl, rfl⟩
  | send buffer =>
      refine (h.send buffer).bind ?_
      rintro ⟨state, result⟩ ⟨state', _⟩ ⟨hState, rfl⟩
      exact .ok ⟨hState, rfl, rfl⟩
  | check current => exact absurd rfl (hCheck current)
  | update current =>
      obtain ⟨hClock, hDue⟩ := h.updateClock hUpdated current
      refine (hClock.update hDue hInvariant hInvariant').bind ?_
      rintro ⟨state, datagrams, _⟩ ⟨state', datagrams', result⟩ ⟨hState, rfl, hDatagrams⟩
      exact .ok ⟨hState, rfl, hDatagrams⟩
  | flush =>
      refine (h.flush hInvariant.toSending hInvariant'.toSending).bind ?_
      rintro ⟨state, datagrams, _⟩ ⟨state', datagrams', result⟩ ⟨hState, rfl, hDatagrams⟩
      exact .ok ⟨hState, rfl, hDatagrams⟩

/-- Until the first `update` nothing is emitted and no time is stored. -/
theorem Waiting.perform (h : s.Waiting) (hInvariant : s.Invariant) {call : Call}
    (hCall : call.isUpdate = false) {outcome : Outcome mtu}
    (hOutcome : s.perform host call = .ok outcome) :
    outcome.state.Waiting ∧ outcome.datagrams = [] := by
  have hIdle : s.flushes call = false := by
    cases call with
    | update current => cases hCall
    | flush => exact h.updated
    | _ => rfl
  have hProbed : outcome.state.windowProber.probeWait = 0 := by
    rcases hInvariant.perform_tells hOutcome hIdle with hSame | hTold
    · rw [hSame]
      exact h.probeWait
    · rw [hTold]
      exact h.probeWait
  cases hInvariant.effect hOutcome with
  | configure => exact ⟨⟨h.updated, h.sndBuf, hProbed⟩, rfl⟩
  | input data folded sndBuf controller result hFolded hCore =>
      have hNone : folded.senderBuffer.sndBuf = [] := by
        rw [List.eq_nil_iff_forall_not_mem, hFolded]
        intro seg hSeg
        have hOld := ((hInvariant.mem_foldl_sndBuf _ seg).mp hSeg).1
        rw [h.sndBuf] at hOld
        cases hOld
      rw [hNone, List.map_nil, List.map_eq_nil_iff] at hCore
      refine ⟨⟨?_, hCore, hProbed⟩, rfl⟩
      rw [hFolded, foldl_applyFrame_updated]
      exact h.updated
  | recvRefused => exact ⟨h, rfl⟩
  | recv => exact ⟨⟨h.updated, h.sndBuf, hProbed⟩, rfl⟩
  | sendRefused => exact ⟨h, rfl⟩
  | send => exact ⟨⟨h.updated, h.sndBuf, hProbed⟩, rfl⟩
  | check => exact ⟨⟨h.updated, h.sndBuf, hProbed⟩, rfl⟩
  | idle call start hStart =>
      cases hStart with
      | flush => exact ⟨h, rfl⟩
      | update => cases hCall
  | flush call start next packets result askSend askTell hStart hFlushes =>
      cases hIdle.symm.trans hFlushes

end ImKcpp

namespace Party

variable {party party' : Party mtu}

@[simp] theorem record_replies (call : Call) (outcome : Outcome mtu) :
    (party.record call outcome).replies =
      party.replies ++ [(outcome.response, outcome.datagrams)] := by
  simp [replies, record, Event.reply]

/-- Two runs behind the first `update`. -/
structure Delayed (host : Host) (conv shift : UInt32) (party party' : Party mtu) : Prop where
  endpoint : party.endpoint.Delayed shift party'.endpoint
  invariant : party.endpoint.Invariant
  invariant' : party'.endpoint.Invariant
  updated : party.endpoint.updated = true
  conv_eq : party.endpoint.sharedCtx.conv = conv
  replies_eq : party'.replies = party.replies.map (delayReply host conv shift)

/-- Calls with the same replies, recorded on both sides. -/
theorem replies_record (hReplies : party'.replies = party.replies.map (delayReply host conv shift))
    (call call' : Call) {outcome outcome' : Outcome mtu}
    (h : outcome.Delayed host conv shift outcome') :
    (party'.record call' outcome').replies =
      (party.record call outcome).replies.map (delayReply host conv shift) := by
  rw [record_replies, record_replies, List.map_append, hReplies, h.response_eq, h.datagrams_eq]
  rfl

/-- One call of each run. -/
theorem Delayed.perform (h : Delayed host conv shift party party') {call : Call}
    (hCheck : ∀ current, call ≠ .check current) :
    Lockstep (fun outcome outcome' => Delayed host conv shift (party.record call outcome)
        (party'.record (call.delay host conv shift) outcome'))
      (party.endpoint.perform host call)
      (party'.endpoint.perform host (call.delay host conv shift)) := by
  have hPerform : Lockstep (Outcome.Delayed host party.endpoint.sharedCtx.conv shift)
      (party.endpoint.perform host call)
      (party'.endpoint.perform host (call.delay host party.endpoint.sharedCtx.conv shift)) :=
    h.endpoint.perform h.invariant h.invariant' h.updated hCheck
  rw [h.conv_eq] at hPerform
  refine (hPerform.and_of_ok (fun _ => h.invariant.effect) fun _ => h.invariant'.effect).imp ?_
  rintro outcome outcome' ⟨hOutcome, hEffect, hEffect'⟩
  exact {
    endpoint := hOutcome.state
    invariant := hEffect.invariant h.invariant
    invariant' := hEffect'.invariant h.invariant'
    updated := hEffect.updated (.inl h.updated)
    conv_eq := hEffect.conv_eq.trans h.conv_eq
    replies_eq := replies_record h.replies_eq call _ hOutcome }

/-- The calls behind the first `update`. -/
theorem Delayed.run (h : Delayed host conv shift party party') {calls : List Call}
    (hCheck : ∀ current, .check current ∉ calls) :
    Lockstep (Delayed host conv shift) (party.run host calls)
      (party'.run host (calls.map (Call.delay host conv shift))) := by
  induction calls generalizing party party' with
  | nil => exact .ok h
  | cons call rest ih =>
      have hCall : ∀ current, call ≠ .check current :=
        fun current hCall => hCheck current (by simp [hCall])
      refine (h.perform hCall).bind fun outcome outcome' hNext => ?_
      exact ih hNext fun current hRest => hCheck current (by simp [hRest])

/-- The first `update` of both runs. -/
theorem Delayed.first (hWaiting : party.endpoint.Waiting) (hInvariant : party.endpoint.Invariant)
    (hConv : party.endpoint.sharedCtx.conv = conv)
    (hReplies : party.replies.map (delayReply host conv shift) = party.replies) (current : UInt32) :
    Lockstep (fun outcome outcome' =>
        Delayed host conv shift (party.record (.update current) outcome)
        (party.record (.update (current + shift)) outcome'))
      (party.endpoint.perform host (.update current))
      (party.endpoint.perform host (.update (current + shift))) := by
  obtain ⟨hClock, hDue⟩ := hWaiting.updateClock current shift
  have hUpdate := @ImKcpp.Delayed.update mtu host shift _ _ _ _ hClock hDue hInvariant hInvariant
  rw [hConv] at hUpdate
  have hPerform : Lockstep (Outcome.Delayed host conv shift)
      (party.endpoint.perform host (.update current))
      (party.endpoint.perform host (.update (current + shift))) := by
    refine hUpdate.bind ?_
    rintro ⟨state, datagrams, _⟩ ⟨state', datagrams', result⟩ ⟨hState, rfl, hDatagrams⟩
    exact .ok ⟨hState, rfl, hDatagrams⟩
  refine (hPerform.and_of_ok (fun _ => hInvariant.effect) fun _ => hInvariant.effect).imp ?_
  rintro outcome outcome' ⟨hOutcome, hEffect, hEffect'⟩
  exact {
    endpoint := hOutcome.state
    invariant := hEffect.invariant hInvariant
    invariant' := hEffect'.invariant hInvariant
    updated := hEffect.updated (.inr ⟨current, rfl⟩)
    conv_eq := hEffect.conv_eq.trans hConv
    replies_eq := replies_record hReplies.symm _ _ hOutcome }

/-- Before the first `update` both runs are the same run. -/
theorem run_delay (hWaiting : party.endpoint.Waiting) (hInvariant : party.endpoint.Invariant)
    (hConv : party.endpoint.sharedCtx.conv = conv)
    (hReplies : party.replies.map (delayReply host conv shift) = party.replies) {calls : List Call}
    (hCheck : ∀ current, .check current ∉ calls)
    (hAck : ∀ data, .input data ∈ calls.takeWhile (fun call => !call.isUpdate) →
      ∀ frame ∈ (scan host conv data).1, frame.header.cmd ≠ Commands.ack) :
    Lockstep (fun next next' => next'.replies = next.replies.map (delayReply host conv shift))
      (party.run host calls) (party.run host (calls.map (Call.delay host conv shift))) := by
  induction calls generalizing party with
  | nil => exact .ok hReplies.symm
  | cons call rest ih =>
      have hRest : ∀ current, .check current ∉ rest :=
        fun current hMem => hCheck current (List.mem_cons_of_mem _ hMem)
      cases hUpdate : call.isUpdate with
      | true =>
          obtain ⟨current, rfl⟩ : ∃ current, call = .update current := by
            cases call with
            | update current => exact ⟨current, rfl⟩
            | _ => cases hUpdate
          refine (Delayed.first hWaiting hInvariant hConv hReplies current).bind ?_
          intro outcome outcome' hNext
          exact (hNext.run hRest).imp fun _ _ hFinal => hFinal.replies_eq
      | false =>
          rw [List.takeWhile_cons_of_pos (by simp [hUpdate])] at hAck
          have hSame : call.delay host conv shift = call := by
            cases call with
            | input data => exact congrArg Call.input (shiftTs_eq_self shift (hAck data (by simp)))
            | update current => cases hUpdate
            | _ => rfl
          rw [List.map_cons, hSame]
          refine (Lockstep.refl (R := Eq) (fun _ => rfl) _).and_of_ok
            (fun _ hOutcome => hOutcome) (fun _ hOutcome => hOutcome) |>.bind ?_
          rintro outcome _ ⟨rfl, hOutcome, -⟩
          obtain ⟨hNext, hSilent⟩ := hWaiting.perform hInvariant hUpdate hOutcome
          have hEffect := hInvariant.effect hOutcome
          refine ih hNext (hEffect.invariant hInvariant) (hEffect.conv_eq.trans hConv) ?_ hRest
            fun data hData => hAck data (List.mem_cons_of_mem _ hData)
          rw [record_replies, List.map_append, hReplies, hSilent]
          rfl

end Party

/-- The clock's origin shows nowhere: in a replay with all times of `update` and all
times echoed by acknowledgements shifted, every call returns the same, and the
datagrams differ in the timestamps of their data, which are shifted too. -/
theorem clock_origin (host : Host) (mtu : Mtu) (conv shift : UInt32) (calls : List Call)
    (hCheck : ∀ current, .check current ∉ calls)
    (hAck : ∀ data, .input data ∈ calls.takeWhile (fun call => !call.isUpdate) →
      ∀ frame ∈ (scan host conv data).1, frame.header.cmd ≠ Commands.ack) :
    ((Party.fresh mtu conv).run host (calls.map (Call.delay host conv shift))).map Party.replies =
      ((Party.fresh mtu conv).run host calls).map fun party =>
        party.replies.map (delayReply host conv shift) := by
  have hWaiting : (Party.fresh mtu conv).endpoint.Waiting := .create mtu conv
  exact (Party.run_delay hWaiting (ImKcpp.invariant_create mtu conv) rfl rfl hCheck hAck).map_eq
    fun _ _ hReplies => hReplies

/-- A replay in which the clock wraps before the acknowledgement arrives. -/
theorem clock_origin_wrap :
    ((Party.fresh .least 0).run Host.x8664
        (([.update 0xffffff00, .send [7], .flush,
          .input (wire Host.x8664 [⟨{ cmd := Commands.ack, wnd := 8, ts := 0xffffff00 }, []⟩]),
          .update 0xffffff80] : List Call).map (Call.delay Host.x8664 0 0xe0))).map Party.replies =
      ((Party.fresh .least 0).run Host.x8664
        [.update 0xffffff00, .send [7], .flush,
          .input (wire Host.x8664 [⟨{ cmd := Commands.ack, wnd := 8, ts := 0xffffff00 }, []⟩]),
          .update 0xffffff80]).map fun party => party.replies.map (delayReply Host.x8664 0 0xe0) :=
  clock_origin Host.x8664 .least 0 0xe0 _ (by simp) (by simp [Call.isUpdate])

end Runs

end Imkcpp
