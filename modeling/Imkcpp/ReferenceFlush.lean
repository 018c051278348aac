import Imkcpp.Comparability
import Imkcpp.Packing
import Imkcpp.ReferenceClock
import Imkcpp.ReferenceDecoding
import Imkcpp.Statistics

/-! A flush in both implementations. Both fill datagrams by next fit; what they write and
what they keep of each segment is the same, as long as no counter of a segment is about to
wrap. -/
namespace Imkcpp

open NextFit WrappingClock

variable {mtu : Mtu} {host : Host}

section Write

/-- The buffer of the reference implementation holds the open datagram, and the others have
been handed over. -/
structure Written (host : Host) (mtu : Mtu) (frames : List Frame)
    (writer : Ikcpcb.Writer) : Prop where
  sent_eq : writer.sent = (binsOf mtu frames).closed.map (referenceWire host)
  pending_eq : writer.pending = referenceWire host (binsOf mtu frames).current

namespace Written

variable {frames : List Frame} {writer : Ikcpcb.Writer}

theorem nil : Written host mtu [] {} := ⟨rfl, rfl⟩

theorem pending_length (h : Written host mtu frames writer) :
    writer.pending.length = load Frame.size (binsOf mtu frames).current := by
  rw [h.pending_eq, referenceWire_length, load_size host]

/-- The test in front of a segment is that of next fit. -/
theorem put (h : Written host mtu frames writer) (frame : Frame) (hSize : frame.size ≤ mtu.bytes) :
    let room := writer.makeRoom mtu.bytes frame.size
    Written host mtu (frames ++ [frame])
      ⟨room.pending ++ frame.referenceBytes host, room.sent⟩ := by
  intro room
  have hLength := h.pending_length
  by_cases hFull : writer.pending.length + frame.size > mtu.bytes
  · have hRoom : room = ⟨[], Ikcpcb.output writer.sent writer.pending⟩ := if_pos hFull
    have hSome : ¬writer.pending.length = 0 := by omega
    have hOutput : Ikcpcb.output writer.sent writer.pending = writer.sent ++ [writer.pending] :=
      if_neg hSome
    have hClosed := Bins.put_of_lt (binsOf mtu frames) frame
      (show mtu.bytes < load Frame.size (binsOf mtu frames).current + frame.size by omega)
    rw [hRoom, hOutput]
    constructor
    · rw [binsOf_concat, hClosed, h.sent_eq, h.pending_eq, List.map_append, List.map_singleton]
    · rw [binsOf_concat, hClosed]
      simp [referenceWire]
  · have hRoom : room = writer := if_neg hFull
    have hOpen := Bins.put_of_le (binsOf mtu frames) frame
      (show load Frame.size (binsOf mtu frames).current + frame.size ≤ mtu.bytes by omega)
    rw [hRoom]
    constructor
    · rw [binsOf_concat, hOpen, h.sent_eq]
    · rw [binsOf_concat, hOpen, h.pending_eq, referenceWire_append]
      simp [referenceWire]

/-- A segment without data. -/
theorem putSeg (h : Written host mtu frames writer) (header : SegmentHeader) :
    Written host mtu (frames ++ [⟨header, []⟩])
      (writer.putSeg host mtu.bytes header.toIkcpSeg) := by
  have hMtu := mtu.maxSegmentSize_add
  have hPut := h.put ⟨header, []⟩ (by rw [Frame.size, List.length_nil]; omega)
  rw [Frame.referenceBytes, List.append_nil] at hPut
  unfold Ikcpcb.Writer.putSeg
  dsimp only
  rw [ikcpEncodeSeg_eq]
  exact hPut

/-- A segment with data. -/
theorem putSegment (h : Written host mtu frames writer) {segment : Segment}
    (hSendable : segment.Sendable mtu) :
    Written host mtu (frames ++ [⟨segment.header, segment.data⟩])
      (writer.putSegment host mtu.bytes segment.toIkcp) := by
  have hMtu := mtu.maxSegmentSize_add
  have hLength := hSendable.data_length_le
  have hLen : segment.toIkcp.len.toNat = segment.data.length := hSendable.len_eq
  have hPut := h.put ⟨segment.header, segment.data⟩ (by rw [Frame.size]; dsimp only; omega)
  have hData : segment.toIkcp.data.take segment.data.length = segment.data := List.take_length
  unfold Ikcpcb.Writer.putSegment
  rw [hLen, hData]
  have hHeader : ikcpEncodeSeg host (writer.makeRoom mtu.bytes (24 + segment.data.length)).pending
      segment.toIkcp.toIkcpSeg = _ := ikcpEncodeSeg_eq host _ segment.header
  dsimp only
  rw [hHeader, List.append_assoc]
  exact hPut

/-- A segment without data that is asked for. -/
theorem putIf (h : Written host mtu frames writer) (flag : Bool) (header : SegmentHeader) :
    Written host mtu (frames ++ if flag then [⟨header, []⟩] else [])
      (if flag then writer.putSeg host mtu.bytes header.toIkcpSeg else writer) := by
  cases flag with
  | false => simpa using h
  | true => exact h.putSeg header

/-- What is left in the buffer is the last datagram. -/
theorem finish (h : Written host mtu frames writer) :
    Ikcpcb.output writer.sent writer.pending =
      (pack Frame.size mtu.bytes frames).map (referenceWire host) := by
  have hEmpty : (binsOf mtu frames).current = [] ↔ writer.pending.length = 0 := by
    rw [h.pending_eq, referenceWire_length]
    constructor
    · intro hNil
      rw [hNil]
      rfl
    · intro hZero
      by_contra hSome
      have hLe := le_wire_length host hSome
      omega
  rw [pack, Bins.used]
  change Ikcpcb.output writer.sent writer.pending = ((binsOf mtu frames).closed ++
    if (binsOf mtu frames).current = [] then []
      else [(binsOf mtu frames).current]).map (referenceWire host)
  unfold Ikcpcb.output
  by_cases hNone : writer.pending.length = 0
  · rw [if_pos hNone, if_pos (hEmpty.mpr hNone), List.append_nil, h.sent_eq]
  · rw [if_neg hNone, if_neg (mt hEmpty.mp hNone), List.map_append, h.sent_eq, List.map_singleton,
      h.pending_eq]

/-- The acknowledgements. -/
theorem ackLoop (h : Written host mtu frames writer) (acks : List Ack) (header : SegmentHeader) :
    ∃ after, Ikcpcb.ackLoop host mtu.bytes acks header.toIkcpSeg writer =
        ((lastHeader header acks).toIkcpSeg, after) ∧
      Written host mtu (frames ++ acks.map (ackFrame header)) after := by
  induction acks generalizing header frames writer with
  | nil => exact ⟨writer, rfl, by simpa using h⟩
  | cons ack rest ih =>
      obtain ⟨after, hLoop, hAfter⟩ := ih (h.putSeg { header with sn := ack.sn, ts := ack.ts })
        { header with sn := ack.sn, ts := ack.ts }
      refine ⟨after, hLoop, ?_⟩
      rw [List.append_assoc] at hAfter
      exact hAfter

end Written

end Write

section Prepare

/-- The counters of a segment that the next transmission does not bring to wrap, nor to the
value that stands for no fast retransmission. -/
structure Segment.Young (nodelay : UInt32) (segment : Segment) : Prop where
  xmit_lt : segment.metadata.xmit.toNat < 2 ^ 31
  fastack_lt : segment.metadata.fastack.toNat < 2 ^ 32 - 1
  rto_lt : nodelay = 1 → segment.metadata.rto.toNat < 2 ^ 31

instance (nodelay : UInt32) (segment : Segment) : Decidable (segment.Young nodelay) :=
  decidable_of_iff (segment.metadata.xmit.toNat < 2 ^ 31 ∧
      segment.metadata.fastack.toNat < 2 ^ 32 - 1 ∧
      (nodelay = 1 → segment.metadata.rto.toNat < 2 ^ 31))
    ⟨fun ⟨hXmit, hFastack, hRto⟩ => ⟨hXmit, hFastack, hRto⟩,
      fun h => ⟨h.xmit_lt, h.fastack_lt, h.rto_lt⟩⟩

/-- What the two implementations make of the parameters of a flush. -/
structure ImKcpp.Tuned (s : ImKcpp mtu) : Prop where
  rto_le : s.rtoCalculator.rto.toNat ≤ 60000
  fastresend_lt : s.sender.fastresend.toNat < 2 ^ 31 - 1
  fastlimit_lt : s.sender.fastlimit.toNat < 2 ^ 31
  fastlimit_ne : s.sender.fastlimit ≠ 1

theorem toUInt32_shiftRight {value : UInt32} (h : value.toNat < 2 ^ 31) :
    (value.toInt32 >>> 3).toUInt32 = value >>> 3 := by
  have hMsb : value.toBitVec.msb = false := by
    rw [BitVec.msb_eq_decide, decide_eq_false_iff_not]
    exact Nat.not_le.mpr h
  have hShift : (value.toInt32 >>> 3).toUInt32.toBitVec = value.toBitVec.sshiftRight 3 := rfl
  rw [← UInt32.toBitVec_inj, hShift, BitVec.sshiftRight_eq_of_msb_false hMsb]
  rfl

theorem toUInt32_half {value : UInt32} (h : value.toNat < 2 ^ 31) :
    (value.toInt32 / 2).toUInt32 = value / 2 := by
  have hTwo : (2 : UInt32).toNat < 2 ^ 31 := by decide
  have hDiv := toInt32_div h hTwo
  exact (congrArg Int32.toUInt32 hDiv).symm

namespace ImKcpp

variable {s : ImKcpp mtu} {nodelay : UInt32} {segment : Segment}

/-- One of them counts the skips up to the limit, the other one behind it. -/
theorem Tuned.resent_le_iff (h : s.Tuned) (hYoung : segment.Young nodelay) (aside : Aside) :
    (s.toIkcpcb aside).resent ≤ segment.metadata.fastack ↔
      s.settings.resent < segment.metadata.fastack := by
  have hFastack := hYoung.fastack_lt
  have hFastresend := h.fastresend_lt
  have hNone : (0xffffffff : UInt32).toNat = 2 ^ 32 - 1 := rfl
  rw [UInt32.le_iff_toNat_le, UInt32.lt_iff_toNat_lt]
  by_cases hOff : s.sender.fastresend = 0
  · have hReference : (s.toIkcpcb aside).resent = 0xffffffff := by
      have hZero : (s.toIkcpcb aside).fastresend = 0 := if_pos hOff
      rw [Ikcpcb.resent, hZero]
      rfl
    have hSettings : s.settings.resent = 0xffffffff := if_neg (by rw [hOff]; decide)
    rw [hReference, hSettings, hNone]
    omega
  · have hPositive : 0 < s.sender.fastresend.toNat := by
      refine Nat.pos_of_ne_zero fun hZero => hOff ?_
      exact UInt32.toNat_inj.mp hZero
    have hSucc : (s.sender.fastresend + 1).toNat = s.sender.fastresend.toNat + 1 := by
      rw [UInt32.toNat_add, UInt32.toNat_one, Nat.mod_eq_of_lt (by omega)]
    have hReference : (s.toIkcpcb aside).resent = s.sender.fastresend + 1 := by
      have hOn : (s.toIkcpcb aside).fastresend = (s.sender.fastresend + 1).toInt32 := if_neg hOff
      rw [Ikcpcb.resent, hOn]
      refine if_pos ?_
      rw [gt_iff_lt, Int32.lt_iff_toInt_lt, toInt_of_half (by omega), Int32.toInt_zero]
      omega
    have hSettings : s.settings.resent = s.sender.fastresend :=
      if_pos (show 0 < s.sender.fastresend from UInt32.lt_iff_toNat_lt.mpr hPositive)
    rw [hReference, hSettings, hSucc]
    exact Nat.succ_le_iff

/-- The same for the transmissions. -/
theorem Tuned.xmit_le_iff (h : s.Tuned) (hYoung : segment.Young nodelay) (aside : Aside) :
    (segment.metadata.xmit.toInt32 ≤ (s.toIkcpcb aside).fastlimit ∨
      (s.toIkcpcb aside).fastlimit ≤ 0) ↔
      (segment.metadata.xmit < s.sender.fastlimit ∨ s.sender.fastlimit = 0) := by
  have hXmit := hYoung.xmit_lt
  have hLimit := h.fastlimit_lt
  by_cases hOff : s.sender.fastlimit = 0
  · have hZero : (s.toIkcpcb aside).fastlimit = 0 := if_pos hOff
    rw [hZero]
    exact iff_of_true (.inr (by decide)) (.inr hOff)
  · have hTwo : 2 ≤ s.sender.fastlimit.toNat := by
      have hNotZero : s.sender.fastlimit.toNat ≠ 0 := fun hZero => hOff (UInt32.toNat_inj.mp hZero)
      have hNotOne : s.sender.fastlimit.toNat ≠ 1 :=
        fun hOne => h.fastlimit_ne (UInt32.toNat_inj.mp hOne)
      omega
    have hOn : (s.toIkcpcb aside).fastlimit = (s.sender.fastlimit - 1).toInt32 := if_neg hOff
    have hPred : (s.sender.fastlimit - 1).toNat = s.sender.fastlimit.toNat - 1 :=
      UInt32.toNat_sub_of_le _ _ (UInt32.le_iff_toNat_le.mpr (by rw [UInt32.toNat_one]; omega))
    rw [hOn, or_iff_left hOff, Int32.le_iff_toInt_le, Int32.le_iff_toInt_le, toInt_of_half hXmit,
      toInt_of_half (by omega), hPred, Int32.toInt_zero, UInt32.lt_iff_toNat_lt]
    omega

theorem Tuned.canFastResend_iff (h : s.Tuned) (hYoung : segment.Young nodelay) (aside : Aside) :
    (segment.toIkcp.fastack ≥ (s.toIkcpcb aside).resent ∧
        (segment.toIkcp.xmit.toInt32 ≤ (s.toIkcpcb aside).fastlimit ∨
          (s.toIkcpcb aside).fastlimit ≤ 0)) ↔
      Sender.canFastResend s.settings segment = true := by
  have hSkips := h.resent_le_iff hYoung aside
  have hTransmissions := h.xmit_le_iff hYoung aside
  have hLimit : s.settings.fastlimit = s.sender.fastlimit := rfl
  unfold Sender.canFastResend
  rw [Bool.and_eq_true, decide_eq_true_iff, Bool.or_eq_true, decide_eq_true_iff, beq_iff_eq, hLimit]
  exact and_congr hSkips hTransmissions

/-- How a segment that has timed out is prepared. -/
theorem Tuned.resend_toIkcp (h : s.Tuned) (hYoung : segment.Young s.sender.nodelay)
    (aside : Aside) :
    segment.metadata.rto + (if (s.toIkcpcb aside).nodelay = 0 then
        max segment.metadata.rto (s.toIkcpcb aside).rxRto.toUInt32
      else ((if (s.toIkcpcb aside).nodelay < 2 then segment.metadata.rto.toInt32
        else (s.toIkcpcb aside).rxRto) / 2).toUInt32) =
      (Sender.prepareSegmentForResend s.settings segment).metadata.rto := by
  have hRto : s.rtoCalculator.rto.toNat < 2 ^ 31 := h.rto_le.trans_lt (by decide)
  have hMode : (s.toIkcpcb aside).nodelay = s.sender.nodelay := rfl
  have hReference : (s.toIkcpcb aside).rxRto = s.rtoCalculator.rto.toInt32 := rfl
  have hPrepared : (Sender.prepareSegmentForResend s.settings segment).metadata.rto =
      if (s.sender.nodelay == 0) = true then segment.metadata.rto +
        max segment.metadata.rto s.rtoCalculator.rto
      else segment.metadata.rto +
        (if s.sender.nodelay < 2 then segment.metadata.rto else s.rtoCalculator.rto) / 2 := rfl
  rw [hPrepared, hMode, hReference]
  by_cases hDefault : s.sender.nodelay = 0
  · rw [if_pos hDefault, if_pos (beq_iff_eq.mpr hDefault)]
    rfl
  · have hOther : ¬(s.sender.nodelay == 0) = true := fun hZero => hDefault (beq_iff_eq.mp hZero)
    rw [if_neg hDefault, if_neg hOther]
    by_cases hOne : s.sender.nodelay < 2
    · have hSame : s.sender.nodelay = 1 := by
        have hTwo : s.sender.nodelay.toNat < 2 := UInt32.lt_iff_toNat_lt.mp hOne
        have hNotZero : s.sender.nodelay.toNat ≠ 0 :=
          fun hZero => hDefault (UInt32.toNat_inj.mp hZero)
        have hNat : s.sender.nodelay.toNat = 1 := by omega
        exact UInt32.toNat_inj.mp hNat
      rw [if_pos hOne, if_pos hOne, toUInt32_half (hYoung.rto_lt hSame)]
    · rw [if_neg hOne, if_neg hOne, toUInt32_half hRto]

/-- Both send the same segments, with the same counters and timers. -/
theorem Tuned.prepare_toIkcp (h : s.Tuned) (hYoung : segment.Young s.sender.nodelay) (aside : Aside)
    (ctx : Ikcpcb.FlushLocals) :
    ∃ change lost, (s.toIkcpcb aside).prepare (s.toIkcpcb aside).resent segment.toIkcp ctx =
      (Sender.isDue s.settings segment, (Sender.prepared s.settings segment).toIkcp,
        { ctx with
          xmit := ctx.xmit + if Sender.sendsLate s.settings segment then 1 else 0
          change, lost }) := by
  have hRto : s.rtoCalculator.rto.toNat < 2 ^ 31 := h.rto_le.trans_lt (by decide)
  have hFast := h.canFastResend_iff hYoung aside
  have hNever : segment.toIkcp.xmit = 0 ↔ Sender.hasNeverBeenSent segment = true := beq_iff_eq.symm
  have hLate : itimediff (s.toIkcpcb aside).current segment.toIkcp.resendts ≥ 0 ↔
      Sender.hasTimedOut s.settings segment = true := decide_eq_true_iff.symm
  unfold Ikcpcb.prepare Sender.isDue Sender.prepared Sender.sendsLate
  cases hNeverSent : Sender.hasNeverBeenSent segment with
  | true =>
      rw [if_pos (hNever.mpr hNeverSent)]
      have hRtomin :
          (if (s.toIkcpcb aside).nodelay = 0 then ((s.toIkcpcb aside).rxRto >>> 3).toUInt32
          else 0) = s.settings.rtomin := by
        have hReference : (s.toIkcpcb aside).rxRto = s.rtoCalculator.rto.toInt32 := rfl
        have hSettings : s.settings.rtomin =
            if (s.sender.nodelay == 0) = true then s.rtoCalculator.rto >>> 3 else 0 := rfl
        rw [hSettings, hReference, toUInt32_shiftRight hRto]
        simp only [beq_iff_eq]
        rfl
      refine ⟨ctx.change, ctx.lost, ?_⟩
      dsimp only
      rw [hRtomin]
      simp only [Bool.not_true, Bool.false_and, Bool.true_or, Bool.false_eq_true, if_false, if_true,
        UInt32.add_zero]
      rfl
  | false =>
      rw [if_neg (mt hNever.mp (by simp [hNeverSent]))]
      cases hTimedOut : Sender.hasTimedOut s.settings segment with
      | true =>
          rw [if_pos (hLate.mpr hTimedOut)]
          have hResend := h.resend_toIkcp hYoung aside
          refine ⟨ctx.change, true, ?_⟩
          have hPrepared : (Sender.prepareSegmentForResend s.settings segment).toIkcp =
              { segment.toIkcp with
              xmit := segment.toIkcp.xmit + 1
              rto := (Sender.prepareSegmentForResend s.settings segment).metadata.rto
              resendts := s.current +
                (Sender.prepareSegmentForResend s.settings segment).metadata.rto } := rfl
          simp only [Bool.not_false, Bool.true_and, Bool.false_or, Bool.true_or, Bool.false_eq_true,
            if_false, if_true]
          rw [hPrepared, ← hResend]
          rfl
      | false =>
          rw [if_neg (mt hLate.mp (by simp [hTimedOut]))]
          cases hFastResend : Sender.canFastResend s.settings segment with
          | true =>
              rw [if_pos (hFast.mpr hFastResend)]
              refine ⟨ctx.change + 1, ctx.lost, ?_⟩
              simp only [Bool.not_false, Bool.true_and, Bool.false_or, Bool.false_eq_true, if_false,
                if_true, UInt32.add_zero]
              rfl
          | false =>
              rw [if_neg (mt hFast.mp (by simp [hFastResend]))]
              refine ⟨ctx.change, ctx.lost, ?_⟩
              simp only [Bool.not_false, Bool.true_and, Bool.false_or, Bool.false_eq_true, if_false,
                UInt32.add_zero]

/-- One round of the loops over the segments in flight. -/
theorem Tuned.segmentLoop_cons (h : s.Tuned) (aside : Aside) {wnd : UInt32}
    (hWnd : s.settings.wnd.toUInt32.toUInt16.toUInt32 = wnd)
    (hYoung : segment.Young s.sender.nodelay) (hSendable : segment.Sendable mtu)
    {frames : List Frame} {ctx : Ikcpcb.FlushLocals} (hWritten : Written host mtu frames ctx.writer)
    (rest : List IkcpSegment) :
    ∃ sent, (s.toIkcpcb aside).segmentLoop host (s.toIkcpcb aside).resent wnd
        (segment.toIkcp :: rest) ctx =
        (let done := (s.toIkcpcb aside).segmentLoop host (s.toIkcpcb aside).resent wnd rest sent
        ((Sender.flushed s.settings segment).toIkcp :: done.1, done.2)) ∧
      Written host mtu (frames ++ Sender.pushFrames s.settings [segment]) sent.writer ∧
      sent.xmit = ctx.xmit + (if Sender.sendsLate s.settings segment then 1 else 0) ∧
      sent.state = if Sender.exhausts s.settings segment then 0xffffffff else ctx.state := by
  obtain ⟨change, lost, hPrepare⟩ := h.prepare_toIkcp hYoung aside ctx
  rw [Ikcpcb.segmentLoop, hPrepare]
  cases hDue : Sender.isDue s.settings segment with
  | false =>
      refine ⟨{ ctx with
        xmit := ctx.xmit + if Sender.sendsLate s.settings segment then 1 else 0
        change, lost }, ?_, ?_, rfl, ?_⟩
      · rw [Sender.flushed_of_not_due hDue, Sender.prepared_of_not_due hDue]
        rfl
      · simpa [Sender.pushFrames, hDue] using hWritten
      · rw [Sender.exhausts, hDue]
        rfl
  | true =>
      have hFlushed : Sender.flushed s.settings segment =
          Sender.refresh s.settings (Sender.prepared s.settings segment) := if_pos hDue
      have hPrepared : (Sender.prepared s.settings segment).Sendable mtu :=
        Sender.prepared_sendable hSendable
      have hRefreshed : (Sender.flushed s.settings segment).Sendable mtu := by
        rw [hFlushed]
        exact ⟨hPrepared.len_eq, hPrepared.data_ne_nil, hPrepared.data_length_le⟩
      have hToIkcp : (Sender.flushed s.settings segment).toIkcp =
          { (Sender.prepared s.settings segment).toIkcp with
            ts := (s.toIkcpcb aside).current, wnd, una := (s.toIkcpcb aside).rcvNxt } := by
        rw [hFlushed, ← hWnd]
        rfl
      have hSent : Written host mtu _
          (ctx.writer.putSegment host (s.toIkcpcb aside).mtu
            (Sender.flushed s.settings segment).toIkcp) :=
        hWritten.putSegment hRefreshed
      rw [hToIkcp] at hSent ⊢
      refine ⟨_, rfl, ?_, rfl, ?_⟩
      · simpa [Sender.pushFrames, hDue] using hSent
      · rw [Sender.exhausts, hDue, Bool.true_and]
        simp only [decide_eq_true_eq]
        rfl

/-- The loops over the segments in flight write and keep the same. -/
theorem Tuned.segmentLoop_toIkcp (h : s.Tuned) (aside : Aside) {wnd : UInt32}
    (hWnd : s.settings.wnd.toUInt32.toUInt16.toUInt32 = wnd) {segments : List Segment}
    (hYoung : ∀ segment ∈ segments, segment.Young s.sender.nodelay)
    (hSendable : ∀ segment ∈ segments, segment.Sendable mtu) {frames : List Frame}
    (ctx : Ikcpcb.FlushLocals) (hWritten : Written host mtu frames ctx.writer) :
    ∃ after, (s.toIkcpcb aside).segmentLoop host (s.toIkcpcb aside).resent wnd
      (segments.map Segment.toIkcp) ctx =
        ((segments.map (Sender.flushed s.settings)).map Segment.toIkcp, after) ∧
      Written host mtu (frames ++ Sender.pushFrames s.settings segments) after.writer ∧
      after.xmit = ctx.xmit + UInt32.ofNat (segments.countP (Sender.sendsLate s.settings)) ∧
      after.state =
        if segments.any (Sender.exhausts s.settings) then 0xffffffff else ctx.state := by
  induction segments generalizing frames ctx with
  | nil => exact ⟨ctx, rfl, by simpa [Sender.pushFrames] using hWritten, by simp, rfl⟩
  | cons segment rest ih =>
      obtain ⟨sent, hFirst, hSent, hSentXmit, hSentState⟩ := h.segmentLoop_cons aside hWnd
        (hYoung segment (by simp)) (hSendable segment (by simp)) hWritten (rest.map Segment.toIkcp)
      obtain ⟨after, hLoop, hAfter, hXmit, hState⟩ :=
        ih (fun other hOther => hYoung other (List.mem_cons_of_mem segment hOther))
          (fun other hOther => hSendable other (List.mem_cons_of_mem segment hOther)) sent hSent
      have hPushes : Sender.pushFrames s.settings (segment :: rest) =
          Sender.pushFrames s.settings [segment] ++ Sender.pushFrames s.settings rest := by
        cases hDue : Sender.isDue s.settings segment <;> simp [Sender.pushFrames, hDue]
      refine ⟨after, ?_, ?_, ?_, ?_⟩
      · rw [List.map_cons, hFirst, hLoop]
        rfl
      · rwa [hPushes, ← List.append_assoc]
      · rw [hXmit, hSentXmit, Sender.count_cons]
      · rw [hState, hSentState, List.any_cons]
        cases Sender.exhausts s.settings segment <;>
          cases rest.any (Sender.exhausts s.settings) <;> rfl

end ImKcpp

end Prepare

section Window

namespace ImKcpp

variable {s : ImKcpp mtu} {w : UInt32}

theorem Comparable.tuned (h : s.Comparable w) : s.Tuned :=
  ⟨h.ranged.rto_range.2, h.fastresend_lt, h.fastlimit_lt, h.fastlimit_ne⟩

/-- Both announce the same window, which a header has room for. -/
theorem Comparable.wndUnused_eq (h : s.Comparable w) (aside : Aside) :
    (s.toIkcpcb aside).wndUnused = s.unusedReceiveWindow.toUInt32 ∧
      s.unusedReceiveWindow.toUInt32.toNat < 2 ^ 16 := by
  have hWindow := h.toNat_rcvWnd
  have hSmall := h.small
  have hQueue := h.windowed.queued_le
  rw [h.queueLimit_eq] at hQueue
  have hBound := s.congestionController.rcvWnd.toNat_lt
  have hCount : (UInt32.ofNat s.receiver.rcvQueue.length).toNat = s.receiver.rcvQueue.length :=
    UInt32.toNat_ofNat_of_lt' (hQueue.trans_lt hBound)
  have hQueued : (s.toIkcpcb aside).nrcvQue = UInt32.ofNat s.receiver.rcvQueue.length :=
    congrArg UInt32.ofNat (List.length_map _)
  have hUnused := unusedReceiveWindow_toNat hQueue
  rw [if_pos (by omega)] at hUnused
  refine ⟨?_, by omega⟩
  have hRcvWnd : (s.toIkcpcb aside).rcvWnd = s.congestionController.rcvWnd := rfl
  rw [← UInt32.toNat_inj, hUnused, Ikcpcb.wndUnused, hQueued, hRcvWnd]
  split_ifs with hOpen
  · rw [UInt32.toNat_sub_of_le _ _ (UInt32.le_of_lt hOpen), hCount]
  · rw [UInt32.lt_iff_toNat_lt, hCount] at hOpen
    rw [UInt32.toNat_zero]
    omega

/-- Both probe the window of the peer alike. -/
theorem probeWindow_toIkcpcb {aside : Aside} (hAside : s.WindowsAgree aside) {prober : WindowProber}
    (hUpdate : s.windowProber.update s.current s.congestionController.rmtWnd = .ok prober) :
    (s.toIkcpcb aside).probeWindow =
      ({ s with windowProber := prober } : ImKcpp mtu).toIkcpcb aside := by
  have hClosed : (s.toIkcpcb aside).rmtWnd = 0 ↔ s.congestionController.rmtWnd = 0 := by
    rcases hAside with hSame | ⟨hDefault, hSent, hPositive, -⟩
    · rw [← hSame]
      rfl
    · refine iff_of_false ?_ ?_
      · change ¬aside.rmtWnd = 0
        rw [hDefault]
        decide
      · rw [hSent]
        exact (UInt32.ne_of_lt hPositive).symm
  unfold WindowProber.update at hUpdate
  unfold Ikcpcb.probeWindow
  by_cases hZero : s.congestionController.rmtWnd = 0
  · rw [if_pos (hClosed.mpr hZero)]
    rw [if_neg (by simp [hZero])] at hUpdate
    by_cases hFresh : s.windowProber.probeWait = 0
    · rw [if_pos (beq_iff_eq.mpr hFresh)] at hUpdate
      rw [if_pos (show (s.toIkcpcb aside).probeWait = 0 from hFresh), ← Except.ok.inj hUpdate]
      rfl
    · rw [if_neg (by simpa using hFresh)] at hUpdate
      rw [if_neg (show ¬(s.toIkcpcb aside).probeWait = 0 from hFresh)]
      by_cases hLate : timeDelta s.current s.windowProber.tsProbe ≥ 0
      · rw [if_pos hLate] at hUpdate
        rw [if_pos (show itimediff (s.toIkcpcb aside).current (s.toIkcpcb aside).tsProbe ≥ 0
          from hLate), ← Except.ok.inj hUpdate]
        rfl
      · rw [if_neg hLate] at hUpdate
        rw [if_neg (show ¬itimediff (s.toIkcpcb aside).current (s.toIkcpcb aside).tsProbe ≥ 0
          from hLate), ← Except.ok.inj hUpdate]
  · rw [if_neg (mt hClosed.mp hZero)]
    rw [if_pos (by simpa using hZero)] at hUpdate
    rw [← Except.ok.inj hUpdate]
    rfl

/-- Both let the same segments into the buffer, with the same headers. -/
theorem admitLoop_toIkcp (conv rto current rcvNxt : UInt32) {cwnd room : UInt32} {wnd : Int32}
    (hWnd : wnd.toUInt32.toUInt16.toUInt32 = room) {queue : List Segment} (buffer : SenderBuffer)
    {tracker : SegmentTracker} (hEnd : (tracker.sndUna + cwnd).toNat < 2 ^ 31)
    (hNxt : tracker.sndNxt.toNat + queue.length < 2 ^ 31) :
    Ikcpcb.admitLoop conv room current rcvNxt cwnd tracker.sndUna rto.toInt32
      (queue.map Segment.toIkcp)
        (buffer.sndBuf.map Segment.toIkcp) tracker.sndNxt =
      let moved := Sender.moveSendQueueToBuffer conv rto cwnd current wnd rcvNxt
        queue buffer tracker
      (moved.1.map Segment.toIkcp, moved.2.1.sndBuf.map Segment.toIkcp, moved.2.2.sndNxt) := by
  induction queue generalizing buffer tracker with
  | nil => rfl
  | cons newseg rest ih =>
      rw [List.length_cons] at hNxt
      have hTest : itimediff tracker.sndNxt (tracker.sndUna + cwnd) < 0 ↔
          tracker.sndNxt < tracker.sndUna + cwnd :=
        difference_neg_iff (by omega) hEnd
      rw [List.map_cons, Ikcpcb.admitLoop, Sender.moveSendQueueToBuffer]
      by_cases hFits : tracker.sndNxt < tracker.sndUna + cwnd
      · have hSucc := SegmentTracker.sndNxt_succ hFits
        have hRest := @ih
          (buffer.pushSegment
            (Sender.stampSegment conv rto current wnd tracker.sndNxt rcvNxt newseg))
          { tracker with sndNxt := tracker.sndNxt + 1 } hEnd (by dsimp only; omega)
        rw [if_pos (hTest.mpr hFits), if_pos hFits, ← hRest, ← hWnd]
        have hPushed : (buffer.pushSegment
            (Sender.stampSegment conv rto current wnd tracker.sndNxt rcvNxt newseg)).sndBuf.map
              Segment.toIkcp =
            buffer.sndBuf.map Segment.toIkcp ++
              [(Sender.stampSegment conv rto current wnd tracker.sndNxt rcvNxt newseg).toIkcp] :=
                List.map_append
        rw [hPushed]
        rfl
      · rw [if_neg (mt hTest.mp hFits), if_neg hFits]
        rfl

/-- The congestion window shrinks aside. -/
theorem shrinkCwnd_toIkcpcb (aside : Aside) (resent cwnd : UInt32) (ctx : Ikcpcb.FlushLocals) :
    ∃ ssthresh cwnd' incr, (s.toIkcpcb aside).shrinkCwnd resent cwnd ctx =
      s.toIkcpcb { aside with ssthresh, cwnd := cwnd', incr } := by
  unfold Ikcpcb.shrinkCwnd
  dsimp only
  split_ifs <;> exact ⟨_, _, _, rfl⟩

end ImKcpp

end Window

section Flush

/-- The headers of the probes are made of that of the last acknowledgement. -/
theorem Ikcpcb.flushService_eq (kcp : Ikcpcb) {probed : Ikcpcb} {last : IkcpSeg}
    {acked : Ikcpcb.Writer}
    (hLoop : Ikcpcb.ackLoop host kcp.mtu kcp.acklist {
        conv := kcp.conv, cmd := 82, frg := 0, wnd := kcp.wndUnused
        ts := 0, sn := 0, una := kcp.rcvNxt, len := 0 } {} = (last, acked))
    (hProbe : ({ kcp with acklist := [] } : Ikcpcb).probeWindow = probed) :
    kcp.flushService host = ({ probed with probe := 0 },
      let asked :=
        if (probed.probe &&& 1 != 0) = true then
          acked.putSeg host probed.mtu { last with cmd := 83 }
        else acked
      if (probed.probe &&& 2 != 0) = true then asked.putSeg host probed.mtu { last with cmd := 84 }
      else asked) := by
  unfold Ikcpcb.flushService
  dsimp only
  rw [hLoop]
  dsimp only
  rw [hProbe]
  by_cases hAsked : (probed.probe &&& 1 != 0) = true
  · rw [if_pos hAsked, if_pos hAsked]
  · rw [if_neg hAsked, if_neg hAsked]

/-- Without a congestion window the loops follow one another. -/
theorem Ikcpcb.flushSegments_eq (kcp : Ikcpcb) {wnd cwnd sndNxt : UInt32} {writer : Ikcpcb.Writer}
    {sndQueue sndBuf kept : List IkcpSegment} {ctx : FlushLocals} (hOff : kcp.nocwnd = 1)
    (hWindow : min kcp.sndWnd kcp.rmtWnd = cwnd)
    (hAdmit : admitLoop kcp.conv wnd kcp.current kcp.rcvNxt cwnd kcp.sndUna kcp.rxRto
      kcp.sndQueue kcp.sndBuf kcp.sndNxt = (sndQueue, sndBuf, sndNxt))
    (hLoop : ({ kcp with sndQueue, sndNxt } : Ikcpcb).segmentLoop host kcp.resent wnd sndBuf
      { writer, xmit := kcp.xmit, state := kcp.state } = (kept, ctx)) :
    kcp.flushSegments host wnd writer =
      (({ kcp with
          sndQueue, sndNxt, sndBuf := kept
          xmit := ctx.xmit, state := ctx.state } : Ikcpcb).shrinkCwnd kcp.resent cwnd ctx,
        output ctx.writer.sent ctx.writer.pending) := by
  have hResent : ({ kcp with sndQueue, sndNxt } : Ikcpcb).resent = kcp.resent := rfl
  unfold Ikcpcb.flushSegments
  dsimp only
  rw [if_neg (by rw [hOff]; decide), hWindow, hAdmit]
  dsimp only
  rw [hResent, hLoop]

namespace ImKcpp

variable {s : ImKcpp mtu} {w : UInt32}

/-- Both answer and probe with the same headers. -/
theorem flushService_toIkcpcb (host : Host) (h : s.Comparable w) {aside : Aside}
    (hAside : s.WindowsAgree aside) {prober : WindowProber}
    (hUpdate : s.windowProber.update s.current s.congestionController.rmtWnd = .ok prober) :
    ∃ writer, (s.toIkcpcb aside).flushService host =
        (({ s with ackController := s.ackController.clear, windowProber := prober.resetFlags } :
          ImKcpp mtu).toIkcpcb aside, writer) ∧
      Written host mtu (s.ackController.acklist.map (ackFrame s.serviceHeader) ++
        (if (prober.probe &&& ProbeFlag.askSend.value) != 0 then [s.probeFrame Commands.wask]
          else []) ++
        (if (prober.probe &&& ProbeFlag.askTell.value) != 0 then [s.probeFrame Commands.wins]
          else [])) writer := by
  obtain ⟨hUnused, hSmall⟩ := h.wndUnused_eq aside
  have hHeader : s.serviceHeader.toIkcpSeg = {
      conv := (s.toIkcpcb aside).conv, cmd := 82, frg := 0, wnd := (s.toIkcpcb aside).wndUnused
      ts := 0, sn := 0, una := (s.toIkcpcb aside).rcvNxt, len := 0 } := by
    have hWnd : s.unusedReceiveWindow.toUInt32.toUInt16.toUInt32 =
        (s.toIkcpcb aside).wndUnused := by
      rw [hUnused, ← UInt32.toNat_inj, UInt16.toNat_toUInt32, UInt32.toNat_toUInt16]
      exact Nat.mod_eq_of_lt hSmall
    rw [← hWnd]
    rfl
  have hStart : Written host mtu [] {} := Written.nil
  obtain ⟨acked, hLoop, hAcked⟩ := hStart.ackLoop s.ackController.acklist s.serviceHeader
  have hProbe :=
    probeWindow_toIkcpcb (s := { s with ackController := s.ackController.clear }) hAside hUpdate
  have hAsked := hAcked.putIf (prober.probe &&& ProbeFlag.askSend.value != 0)
    { lastHeader s.serviceHeader s.ackController.acklist with cmd := Commands.wask }
  have hTold := hAsked.putIf (prober.probe &&& ProbeFlag.askTell.value != 0)
    { lastHeader s.serviceHeader s.ackController.acklist with cmd := Commands.wins }
  refine ⟨_, ?_, hTold⟩
  rw [hHeader] at hLoop
  exact (Ikcpcb.flushService_eq (s.toIkcpcb aside) hLoop hProbe).trans rfl

/-- The admission loop gives one number to each segment that it moves. -/
theorem moved_total (s : ImKcpp mtu) :
    s.moved.2.2.sndNxt.toNat + s.moved.1.length =
      s.segmentTracker.sndNxt.toNat + s.sender.sndQueue.length := by
  refine Sender.moveSendQueueToBuffer_induct (P := fun queue _ tracker =>
    tracker.sndNxt.toNat + queue.length = s.segmentTracker.sndNxt.toNat +
      s.sender.sndQueue.length) ?_ rfl
  intro newseg rest buffer tracker hWindow hPrior
  have hSucc := SegmentTracker.sndNxt_succ hWindow
  rw [← hPrior, List.length_cons]
  dsimp only
  omega

/-- It moves only segments that have not been sent. -/
theorem moved_young {nodelay : UInt32} (hRto : s.rtoCalculator.rto.toNat ≤ 60000)
    (hYoung : ∀ segment ∈ s.senderBuffer.sndBuf, segment.Young nodelay) :
    ∀ segment ∈ s.moved.2.1.sndBuf, segment.Young nodelay := by
  refine Sender.moveSendQueueToBuffer_induct (P := fun _ buffer _ =>
    ∀ segment ∈ buffer.sndBuf, segment.Young nodelay) ?_ hYoung
  intro newseg rest buffer tracker _ hPrior segment hSegment
  have hZero : (0 : UInt32).toNat = 0 := rfl
  rcases List.mem_append.mp hSegment with hOld | hNew
  · exact hPrior segment hOld
  · rw [List.mem_singleton.mp hNew]
    refine ⟨?_, ?_, fun _ => hRto.trans_lt (by decide)⟩
    · exact hZero.trans_lt (by decide)
    · exact hZero.trans_lt (by decide)

theorem calculateCongestionWindow_eq {cc : CongestionController}
    (hOff : cc.congestionWindow = false) :
    cc.calculateCongestionWindow = min cc.sndWnd cc.rmtWnd := by
  unfold CongestionController.calculateCongestionWindow
  rw [hOff]
  exact if_neg Bool.false_ne_true

/-- Both send into the same window. -/
theorem window_toIkcpcb (hOff : s.congestionController.congestionWindow = false) {aside : Aside}
    (hAside : s.WindowsAgree aside) :
    min (s.toIkcpcb aside).sndWnd (s.toIkcpcb aside).rmtWnd =
      s.congestionController.calculateCongestionWindow := by
  rw [calculateCongestionWindow_eq hOff]
  rcases hAside with hSame | ⟨hDefault, hSent, -, hSmall⟩
  · rw [← hSame]
    rfl
  · have hReference : min (s.toIkcpcb aside).sndWnd (s.toIkcpcb aside).rmtWnd =
        min s.congestionController.sndWnd 128 := by
      rw [← hDefault]
      rfl
    have hDefault : (128 : UInt32).toNat = 128 := rfl
    rw [hReference, hSent, ← UInt32.toNat_inj, toNat_min, toNat_min, hDefault, Nat.min_self]
    exact Nat.min_eq_left (UInt32.le_iff_toNat_le.mp hSmall)

/-- Both send the same segments and keep them alike. -/
theorem flushSegments_toIkcpcb (h : s.Comparable w) {aside : Aside} (hAside : s.WindowsAgree aside)
    (hYoung : ∀ segment ∈ s.senderBuffer.sndBuf, segment.Young s.sender.nodelay)
    {frames : List Frame} {writer : Ikcpcb.Writer} (hWritten : Written host mtu frames writer) :
    ∃ ssthresh cwnd incr,
      (s.toIkcpcb aside).flushSegments host (s.toIkcpcb aside).wndUnused writer =
      (({ s with
          sharedCtx := { s.sharedCtx with
            state := if s.moved.2.1.sndBuf.any (Sender.exhausts s.settings) then .deadLink
              else s.sharedCtx.state }
          segmentTracker := s.moved.2.2
          senderBuffer := ⟨s.moved.2.1.sndBuf.map (Sender.flushed s.settings)⟩
          sender := { s.sender with
            sndQueue := s.moved.1
            xmit := s.sender.xmit +
              UInt32.ofNat (s.moved.2.1.sndBuf.countP (Sender.sendsLate s.settings)) } } :
          ImKcpp mtu).toIkcpcb { aside with ssthresh, cwnd, incr },
        (pack Frame.size mtu.bytes (frames ++ Sender.pushFrames s.settings s.moved.2.1.sndBuf)).map
          (referenceWire host)) := by
  obtain ⟨hUnused, hSmall⟩ := h.wndUnused_eq aside
  have hWnd : s.unusedReceiveWindow.toUInt32.toUInt16.toUInt32 = (s.toIkcpcb aside).wndUnused := by
    rw [hUnused, ← UInt32.toNat_inj, UInt16.toNat_toUInt32, UInt32.toNat_toUInt16]
    exact Nat.mod_eq_of_lt hSmall
  have hWindow := window_toIkcpcb h.unrestrained hAside
  have hCwnd : s.congestionController.calculateCongestionWindow.toNat < 2 ^ 16 := by
    rw [calculateCongestionWindow_eq h.unrestrained, toNat_min]
    exact (Nat.min_le_right _ _).trans_lt h.rmtWnd_lt
  have hUna := h.sndUna_le
  have hNumbered := h.numbered
  have hEnd : (s.segmentTracker.sndUna + s.congestionController.calculateCongestionWindow).toNat <
      2 ^ 31 := by
    rw [UInt32.toNat_add]
    omega
  have hNxt : s.segmentTracker.sndNxt.toNat + s.sender.sndQueue.length < 2 ^ 31 := by omega
  have hAdmit :=
    admitLoop_toIkcp s.sharedCtx.conv s.rtoCalculator.rto s.current s.receiver.rcvNxt hWnd
    s.senderBuffer hEnd hNxt
  have hMoved := moved_young h.ranged.rto_range.2 hYoung
  have hSendable : ∀ segment ∈ s.moved.2.1.sndBuf, segment.Sendable mtu :=
    fun segment hSegment => (h.invariant.toSending.moved.inFlight segment hSegment).sendable
  have hTracker : s.moved.2.2 = { s.segmentTracker with sndNxt := s.moved.2.2.sndNxt } := by
    dsimp only
    rw [(moved_progress s).1]
  -- the loop runs behind the admission, in a state with fewer segments in the queue
  have hTuned : ({ s with
      segmentTracker := { s.segmentTracker with sndNxt := s.moved.2.2.sndNxt }
      sender := { s.sender with sndQueue := s.moved.1 } } : ImKcpp mtu).Tuned := ⟨h.tuned.rto_le,
    h.tuned.fastresend_lt, h.tuned.fastlimit_lt, h.tuned.fastlimit_ne⟩
  obtain ⟨after, hLoop, hAfter, hXmit, hState⟩ : ∃ after,
      ({ s.toIkcpcb aside with
        sndQueue := s.moved.1.map Segment.toIkcp, sndNxt := s.moved.2.2.sndNxt } :
          Ikcpcb).segmentLoop host (s.toIkcpcb aside).resent (s.toIkcpcb aside).wndUnused
          (s.moved.2.1.sndBuf.map Segment.toIkcp)
          { writer, xmit := s.sender.xmit, state := s.sharedCtx.state.ikcp } =
        ((s.moved.2.1.sndBuf.map (Sender.flushed s.settings)).map Segment.toIkcp, after) ∧
      Written host mtu (frames ++ Sender.pushFrames s.settings s.moved.2.1.sndBuf) after.writer ∧
      after.xmit = s.sender.xmit +
        UInt32.ofNat (s.moved.2.1.sndBuf.countP (Sender.sendsLate s.settings)) ∧
      after.state = if s.moved.2.1.sndBuf.any (Sender.exhausts s.settings) then 0xffffffff
        else s.sharedCtx.state.ikcp :=
    hTuned.segmentLoop_toIkcp aside hWnd hMoved hSendable
      { writer, xmit := s.sender.xmit, state := s.sharedCtx.state.ikcp } hWritten
  have hFlush := Ikcpcb.flushSegments_eq (s.toIkcpcb aside) rfl hWindow hAdmit hLoop
  have hKept := shrinkCwnd_toIkcpcb (s := { s with
    sharedCtx := { s.sharedCtx with
      state := if s.moved.2.1.sndBuf.any (Sender.exhausts s.settings) then .deadLink
        else s.sharedCtx.state }
    segmentTracker := s.moved.2.2
    senderBuffer := ⟨s.moved.2.1.sndBuf.map (Sender.flushed s.settings)⟩
    sender := { s.sender with
      sndQueue := s.moved.1
      xmit := s.sender.xmit +
        UInt32.ofNat (s.moved.2.1.sndBuf.countP (Sender.sendsLate s.settings)) } })
    aside (s.toIkcpcb aside).resent s.congestionController.calculateCongestionWindow after
  obtain ⟨ssthresh, cwnd, incr, hKept⟩ := hKept
  refine ⟨ssthresh, cwnd, incr, ?_⟩
  rw [← hKept, hFlush, hAfter.finish, hXmit, hState, hTracker]
  cases s.moved.2.1.sndBuf.any (Sender.exhausts s.settings) <;> rfl

/-- What a flush does to the endpoint does not matter to the comparison. -/
theorem Comparable.flush (h : s.Comparable w) (hUpdated : s.updated = true) {next : ImKcpp mtu}
    {datagrams : List (List UInt8)} {result : FlushResult}
    (hFlush : s.flush host = .ok (next, datagrams, result)) : next.Comparable w := by
  obtain ⟨after, packets, outcome, askSend, askTell, hSpec, hFlushed⟩ :=
    flush_spec host h.invariant.toSending hUpdated
  obtain rfl : after = next := congrArg Prod.fst (Except.ok.inj (hSpec.symm.trans hFlush))
  have hInvariant := hFlushed.invariant h.invariant
  obtain ⟨_, _, _, _, kept, ctx, cwnd, ssthresh, incr, _, _, -, rfl, -⟩ :=
    flush_loop hUpdated hFlush
  refine { h with
    invariant := hInvariant
    numbered := ?_ }
  rw [moved_total]
  exact h.numbered

/-- Both flush alike. -/
theorem flush_toIkcpcb (h : s.Comparable w) (hUpdated : s.updated = true) {aside : Aside}
    (hAside : s.WindowsAgree aside)
    (hYoung : ∀ segment ∈ s.senderBuffer.sndBuf, segment.Young s.sender.nodelay) :
    ∃ next datagrams result after, s.flush host = .ok (next, datagrams, result) ∧
      next.Comparable w ∧
      next.WindowsAgree after ∧
      (s.toIkcpcb aside).flush host = (next.toIkcpcb after, datagrams.map (recode host)) := by
  obtain ⟨next, packets, result, askSend, askTell, hFlush, hFlushed⟩ :=
    flush_spec host h.invariant.toSending hUpdated
  obtain ⟨prober, hUpdate, hPacked⟩ := flush_filled h.invariant.toSending hUpdated hFlush
  obtain ⟨_, _, _, _, kept, ctx, cwnd, ssthresh, incr, _, _, hLoop, rfl, -, -, -,
    other, hOther, rfl⟩ :=
    flush_loop hUpdated hFlush
  obtain rfl : other = prober := Except.ok.inj (hOther.symm.trans hUpdate)
  obtain ⟨rfl, hState⟩ := Sender.forEachSegment_eq hLoop
  obtain ⟨-, hXmit⟩ := Prod.mk.inj (Sender.forEachSegment_lateCount hLoop)
  obtain ⟨writer, hService, hWritten⟩ := flushService_toIkcpcb host h hAside hUpdate
  have hAnswered : ({ s with
      ackController := s.ackController.clear
      windowProber := other.resetFlags } : ImKcpp mtu).Comparable w :=
    { h with invariant := { h.invariant with } }
  obtain ⟨ssthresh', cwnd', incr', hSegments⟩ :=
    flushSegments_toIkcpcb hAnswered hAside hYoung hWritten
  have hFrames : ∀ packet ∈ pack Frame.size mtu.bytes
      (s.flushFrames (other.probe &&& ProbeFlag.askSend.value != 0)
        (other.probe &&& ProbeFlag.askTell.value != 0)), recode host (wire host packet) =
      referenceWire host packet := by
    intro packet hPacket
    refine recode_wire host fun frame hFrame => ?_
    have hMem := List.mem_flatten.mpr ⟨packet, hPacket, hFrame⟩
    rw [flatten_pack] at hMem
    exact (issued_of_mem h.invariant.toSending hMem).wellFormed
  refine ⟨_, _, result, { aside with ssthresh := ssthresh', cwnd := cwnd', incr := incr' }, hFlush,
    h.flush hUpdated hFlush, hAside, ?_⟩
  have hDatagrams : (packets.map (wire host)).map (recode host) = (pack Frame.size mtu.bytes
      (s.flushFrames (other.probe &&& ProbeFlag.askSend.value != 0)
        (other.probe &&& ProbeFlag.askTell.value != 0))).map (referenceWire host) := by
    rw [hPacked, List.map_map]
    exact List.map_congr_left hFrames
  have hOn : ¬(s.toIkcpcb aside).updated = 0 := by
    rw [updated_toIkcpcb, hUpdated]
    decide
  unfold Ikcpcb.flush
  rw [hDatagrams, if_neg hOn, hService, hState, hXmit]
  exact hSegments

/-- Both update alike. -/
theorem update_toIkcpcb (h : s.Comparable w) {aside : Aside} (hAside : s.WindowsAgree aside)
    (hYoung : ∀ segment ∈ s.senderBuffer.sndBuf, segment.Young s.sender.nodelay)
    (current : UInt32) :
    ∃ next datagrams result after, s.update host current = .ok (next, datagrams, result) ∧
      next.Comparable w ∧
      next.WindowsAgree after ∧
      (s.toIkcpcb aside).update host current =
        (next.toIkcpcb after, datagrams.map (recode host)) := by
  have hStart := updateClock_start s current
  unfold ImKcpp.update Ikcpcb.update
  rw [updateClock_toIkcpcb]
  obtain ⟨⟨start, due⟩, hClock⟩ : ∃ clock, clock = s.updateClock current := ⟨_, rfl⟩
  rw [← hClock] at hStart ⊢
  have hInvariant := hStart.invariant h.invariant
  dsimp only at hStart hInvariant ⊢
  cases hStart with
  | update current tsFlush =>
      have hComparable : ({ s with current, updated := true, tsFlush } : ImKcpp mtu).Comparable w :=
        { h with invariant := hInvariant }
      cases due with
      | false => exact ⟨_, [], {}, aside, rfl, hComparable, hAside, rfl⟩
      | true => exact flush_toIkcpcb hComparable rfl hAside hYoung

end ImKcpp

end Flush

end Imkcpp
