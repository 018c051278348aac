import Imkcpp.Endpoint
import Imkcpp.Frame

/-! What `input` computes, without its cursor: the datagram alone decides which
segments the loop sees and where it stops, and the state only folds over them. -/
namespace Imkcpp

/-- The segments that the parse loop of `input` sees in the unread bytes, and how
it ends: with an error, or with fewer bytes left than a header needs. Only a
`PUSH` takes its payload along; behind any other command the cursor stays where
the header ended. -/
def scan (host : Host) (conv : UInt32) (rest : List UInt8) : List Frame × Except Error Nat :=
  if _h : rest.length < 24 then ([], .ok rest.length)
  else
    let header := SegmentHeader.ofBytes host (rest.take 24)
    let body := rest.drop 24
    if header.conv ≠ conv then ([], .error .convMismatch)
    else if header.len.toNat > body.length then ([], .error .headerAndPayloadLengthMismatch)
    else if !Commands.isValid header.cmd then ([], .error .unknownCommand)
    else
      let payload := if header.cmd = Commands.push then body.take header.len.toNat else []
      let tail := scan host conv (body.drop payload.length)
      (⟨header, payload⟩ :: tail.1, tail.2)
termination_by rest.length
decreasing_by simp; omega

/-- Segments that `scan` can produce. -/
structure Frame.Accepted (conv : UInt32) (frame : Frame) : Prop where
  conv_eq : frame.header.conv = conv
  cmd_valid : Commands.isValid frame.header.cmd = true
  push_payload : frame.header.cmd = Commands.push → frame.WellFormed
  other_payload : frame.header.cmd ≠ Commands.push → frame.payload = []

/-- The loop sees only acceptable segments. -/
theorem scan_accepted (host : Host) (conv : UInt32) (rest : List UInt8) :
    ∀ frame ∈ (scan host conv rest).1, frame.Accepted conv := by
  fun_induction scan host conv rest with
  | case1 => simp
  | case2 => simp
  | case3 => simp
  | case4 => simp
  | case5 rest hLong header body hConv hLen hValid payload tail ih =>
      intro frame hFrame
      rcases List.mem_cons.mp hFrame with rfl | hFrame
      · refine ⟨not_not.mp hConv, by simpa using hValid, ?_, ?_⟩
        · intro hPush
          have hPayload : payload = body.take header.len.toNat := if_pos hPush
          simp only [Frame.WellFormed, hPayload, List.length_take]
          omega
        · intro hOther
          exact if_neg hOther
      · exact ih frame hFrame

/-- Nothing is skipped: the segments and the left-over bytes are all there is. -/
theorem scan_length (host : Host) (conv : UInt32) (rest : List UInt8) (left : Nat)
    (h : (scan host conv rest).2 = .ok left) :
    (wire host (scan host conv rest).1).length + left = rest.length := by
  fun_induction scan host conv rest with
  | case1 rest hShort => simpa using h.symm
  | case2 => cases h
  | case3 => cases h
  | case4 => cases h
  | case5 rest hLong header body hConv hLen hValid payload tail ih =>
      have hTail := ih h
      have hPayload : payload.length ≤ body.length := by
        simp only [payload]
        split <;> simp
      have hBody : body.length = rest.length - 24 := by simp [body]
      change (wire host tail.1).length + left = _ at hTail
      rw [List.length_drop] at hTail
      rw [wire_cons, List.length_append, Frame.bytes_length]
      dsimp only
      clear_value payload body
      omega

/-- An acceptable header with its payload is seen before what follows it. -/
theorem scan_cons {host : Host} {conv : UInt32} {head payload rest : List UInt8}
    (hHead : head.length = 24) (hConv : (SegmentHeader.ofBytes host head).conv = conv)
    (hValid : Commands.isValid (SegmentHeader.ofBytes host head).cmd = true)
    (hPush : (SegmentHeader.ofBytes host head).cmd = Commands.push →
      payload.length = (SegmentHeader.ofBytes host head).len.toNat)
    (hOther : (SegmentHeader.ofBytes host head).cmd ≠ Commands.push → payload = [])
    (hLen : (SegmentHeader.ofBytes host head).len.toNat ≤ (payload ++ rest).length) :
    scan host conv (head ++ (payload ++ rest)) =
      (⟨SegmentHeader.ofBytes host head, payload⟩ ::
        (scan host conv rest).1, (scan host conv rest).2) := by
  have hLong : ¬(head ++ (payload ++ rest)).length < 24 := by
    rw [List.length_append, hHead]
    omega
  have hPayload : (if (SegmentHeader.ofBytes host head).cmd = Commands.push then
      (payload ++ rest).take (SegmentHeader.ofBytes host head).len.toNat else []) = payload := by
    split_ifs with hCmd
    · rw [← hPush hCmd, List.take_left]
    · exact (hOther hCmd).symm
  rw [scan, dif_neg hLong]
  dsimp only
  rw [← hHead, List.take_left, List.drop_left, if_neg (not_not.mpr hConv),
    if_neg (Nat.not_lt.mpr hLen), if_neg (by simp [hValid]), hPayload, List.drop_left]

/-- A concatenation of acceptable segments is seen as such. -/
theorem scan_wire (host : Host) (conv : UInt32) (frames : List Frame)
    (h : ∀ frame ∈ frames, frame.Accepted conv ∧ frame.WellFormed) :
    scan host conv (wire host frames) = (frames, .ok 0) := by
  induction frames with
  | nil => simp [scan]
  | cons frame frames ih =>
      obtain ⟨hAccepted, hLen⟩ := h frame (by simp)
      have hLen : frame.header.len.toNat = frame.payload.length := hLen
      have hTail := ih (fun other hOther => h other (by simp [hOther]))
      rw [wire_cons, Frame.bytes, List.append_assoc, scan_cons (SegmentHeader.bytes_length _ _),
        hTail, SegmentHeader.ofBytes_bytes]
      · rw [SegmentHeader.ofBytes_bytes]
        exact hAccepted.conv_eq
      · rw [SegmentHeader.ofBytes_bytes]
        exact hAccepted.cmd_valid
      · rw [SegmentHeader.ofBytes_bytes]
        exact fun _ => hLen.symm
      · rw [SegmentHeader.ofBytes_bytes]
        exact hAccepted.other_payload
      · rw [SegmentHeader.ofBytes_bytes, hLen, List.length_append]
        exact Nat.le_add_right _ _

/-- A datagram of whole segments is accepted only if each of them is. -/
theorem accepted_of_scan {host : Host} {conv : UInt32} {frames : List Frame}
    (hFrames : ∀ frame ∈ frames, frame.WellFormed ∧
      (frame.header.cmd ≠ Commands.push → frame.payload = []))
    {left : Nat} (h : (scan host conv (wire host frames)).2 = .ok left) :
    ∀ frame ∈ frames, frame.Accepted conv := by
  induction frames with
  | nil => simp
  | cons frame rest ih =>
      obtain ⟨hWhole, hOther⟩ := hFrames frame (by simp)
      have hWhole : frame.header.len.toNat = frame.payload.length := hWhole
      have hHeader := SegmentHeader.ofBytes_bytes host frame.header
      have hLength := SegmentHeader.bytes_length host frame.header
      rw [wire_cons, Frame.bytes, List.append_assoc] at h
      have hFrame : frame.header.conv = conv ∧ Commands.isValid frame.header.cmd = true := by
        have hLong : ¬(frame.header.bytes host ++ (frame.payload ++ wire host rest)).length <
            24 := by
          rw [List.length_append, hLength]
          omega
        rw [scan, dif_neg hLong] at h
        dsimp only at h
        rw [← hLength, List.take_left, List.drop_left, hHeader] at h
        split_ifs at h with hConv hLen hValid
        all_goals exact ⟨not_not.mp hConv, by simpa using hValid⟩
      have hAccepted : frame.Accepted conv := ⟨hFrame.1, hFrame.2, fun _ => hWhole, hOther⟩
      rw [scan_cons hLength (by rw [hHeader, hFrame.1]) (by rw [hHeader, hFrame.2])
        (by rw [hHeader]; exact fun _ => hWhole.symm) (by rw [hHeader]; exact hOther)
        (by rw [hHeader, hWhole, List.length_append]; exact Nat.le_add_right _ _)] at h
      refine List.forall_mem_cons.mpr ⟨hAccepted, ih ?_ h⟩
      exact fun other hOther => hFrames other (by simp [hOther])

/-- The pieces in which the loop takes a segment off the unread bytes. -/
theorem scan_pieces {data payload : List UInt8} {len : UInt32} {push : Prop} [Decidable push]
    (hPayload : payload = if push then (data.drop 24).take len.toNat else [])
    (hLen : ¬len.toNat > (data.drop 24).length) :
    data = data.take 24 ++ (payload ++ (data.drop 24).drop payload.length) ∧
      (push → payload.length = len.toNat) ∧ (¬push → payload = []) ∧
      len.toNat ≤ (payload ++ (data.drop 24).drop payload.length).length := by
  have hLen : len.toNat ≤ (data.drop 24).length := Nat.not_lt.mp hLen
  by_cases hPush : push
  · have hLength : payload.length = len.toNat := by
      rw [hPayload, if_pos hPush, List.length_take, Nat.min_eq_left hLen]
    have hBody : payload ++ (data.drop 24).drop payload.length = data.drop 24 := by
      rw [hLength, hPayload, if_pos hPush, List.take_append_drop]
    rw [hBody, List.take_append_drop]
    exact ⟨rfl, fun _ => hLength, fun hOther => absurd hPush hOther, hLen⟩
  · obtain rfl : payload = [] := hPayload.trans (if_neg hPush)
    rw [List.nil_append, List.length_nil, List.drop_zero, List.take_append_drop]
    exact ⟨rfl, fun hOther => absurd hOther hPush, fun _ => rfl, hLen⟩

namespace ImKcpp

variable {mtu : Mtu}

/-- The state after a `PUSH` whose header has been accepted. -/
def applyPush (s : ImKcpp mtu) (frame : Frame) : ImKcpp mtu :=
  if !s.congestionController.fitsReceiveWindow s.receiver.rcvNxt frame.header.sn then s
  else
    let s := { s with
      ackController := s.ackController.scheduleAck frame.header.sn frame.header.ts }
    if s.receiver.shouldReceive frame.header.sn then
      { s with receiver := s.receiver.emplaceSegment frame.header frame.payload }
    else s

/-- The state after a `WASK` whose header has been accepted. -/
def applyWask (s : ImKcpp mtu) : ImKcpp mtu :=
  { s with windowProber := { s.windowProber with
      probe := s.windowProber.probe ||| ProbeFlag.askTell.value } }

/-- The state after one segment. -/
def applyFrame (s : ImKcpp mtu) (frame : Frame) : ImKcpp mtu :=
  let s := s.acceptHeader frame.header
  if frame.header.cmd = Commands.push then s.applyPush frame
  else if frame.header.cmd = Commands.ack then (inputAck frame.header s {}).1
  else if frame.header.cmd = Commands.wask then s.applyWask
  else s

/-- A `PUSH` is stored when it lies in the window and is not older than `rcv_nxt`. -/
def storesPush (s : ImKcpp mtu) (header : SegmentHeader) : Bool :=
  s.congestionController.fitsReceiveWindow s.receiver.rcvNxt header.sn &&
    s.receiver.shouldReceive header.sn

/-- The locals of `input` after one segment; `s` is the state before it. -/
def noteFrame (s : ImKcpp mtu) (frame : Frame) (ctx : InputContext) : InputContext :=
  let ctx := { ctx with offset := ctx.offset + 24 + frame.payload.length }
  if frame.header.cmd = Commands.push then
    if s.storesPush frame.header then ctx
    else { ctx with result := { ctx.result with
      droppedPushCount := ctx.result.droppedPushCount + 1 } }
  else if frame.header.cmd = Commands.ack then
    { ctx with
      fastackCtx := ctx.fastackCtx.update frame.header.sn frame.header.ts
      result := { ctx.result with cmdAckCount := ctx.result.cmdAckCount + 1 } }
  else if frame.header.cmd = Commands.wask then
    { ctx with result := { ctx.result with cmdWaskCount := ctx.result.cmdWaskCount + 1 } }
  else { ctx with result := { ctx.result with cmdWinsCount := ctx.result.cmdWinsCount + 1 } }

theorem noteFrame_offset (s : ImKcpp mtu) (frame : Frame) (ctx : InputContext) :
    (s.noteFrame frame ctx).offset = ctx.offset + 24 + frame.payload.length := by
  unfold noteFrame
  dsimp only
  split_ifs <;> rfl

/-- One segment, for the state and the locals together. -/
def inputFrame (p : ImKcpp mtu × InputContext) (frame : Frame) : ImKcpp mtu × InputContext :=
  (p.1.applyFrame frame, p.1.noteFrame frame p.2)

@[simp] theorem acceptHeader_sharedCtx (s : ImKcpp mtu) (header : SegmentHeader) :
    (s.acceptHeader header).sharedCtx = s.sharedCtx := rfl

@[simp] theorem applyPush_sharedCtx (s : ImKcpp mtu) (frame : Frame) :
    (s.applyPush frame).sharedCtx = s.sharedCtx := by
  unfold applyPush
  dsimp only
  split_ifs <;> rfl

@[simp] theorem applyFrame_sharedCtx (s : ImKcpp mtu) (frame : Frame) :
    (s.applyFrame frame).sharedCtx = s.sharedCtx := by
  unfold applyFrame
  dsimp only
  split_ifs
  · simp
  all_goals rfl

/-- A `PUSH`, seen by the receiver. -/
theorem applyFrame_push (s : ImKcpp mtu) {frame : Frame} (h : frame.header.cmd = Commands.push) :
    (s.applyFrame frame).receiver =
      if s.storesPush frame.header then s.receiver.emplaceSegment frame.header frame.payload
      else s.receiver := by
  have hStores : (s.acceptHeader frame.header).storesPush frame.header =
      s.storesPush frame.header := rfl
  unfold ImKcpp.applyFrame
  rw [← hStores]
  unfold ImKcpp.applyPush storesPush
  dsimp only
  rw [if_pos h]
  split_ifs <;> simp_all [acceptHeader]

/-- The `PUSH` case, seen through the cursor. -/
theorem inputPush_eq (data : List UInt8) (header : SegmentHeader) (s : ImKcpp mtu)
    (ctx : InputContext) (hLen : ctx.offset + header.len.toNat ≤ data.length) :
    inputPush data header s ctx =
      .ok (s.applyPush ⟨header, (data.drop ctx.offset).take header.len.toNat⟩,
        if s.storesPush header then { ctx with offset := ctx.offset + header.len.toNat }
        else dropPush header ctx) := by
  unfold inputPush applyPush storesPush
  cases hFits : s.congestionController.fitsReceiveWindow s.receiver.rcvNxt header.sn
  · simp
  · cases hReceive : s.receiver.shouldReceive header.sn
    · simp [hReceive]
    · simp [hReceive, SegmentData.decodeFrom_of_le hLen]

/-- The `switch` of `input` on an acceptable segment, seen through the cursor. -/
theorem inputCommand_eq (data : List UInt8) (header : SegmentHeader) (s : ImKcpp mtu)
    (ctx : InputContext) (hLen : ctx.offset + 24 + header.len.toNat ≤ data.length)
    (hValid : Commands.isValid header.cmd = true) :
    let payload := if header.cmd = Commands.push then
      (data.drop (ctx.offset + 24)).take header.len.toNat else []
    inputCommand data header (s.acceptHeader header) { ctx with offset := ctx.offset + 24 } =
      .ok (s.applyFrame ⟨header, payload⟩, .ok (s.noteFrame ⟨header, payload⟩ ctx)) := by
  intro payload
  unfold inputCommand applyFrame noteFrame
  by_cases hPush : header.cmd = Commands.push
  · have hPayload : payload = (data.drop (ctx.offset + 24)).take header.len.toNat := if_pos hPush
    have hLength : payload.length = header.len.toNat := by
      rw [hPayload, List.length_take, List.length_drop]
      omega
    have hPushEq := inputPush_eq data header (s.acceptHeader header)
      { ctx with offset := ctx.offset + 24 } hLen
    rw [if_pos hPush, hPushEq, ok_bind, ← hPayload]
    simp only [if_pos hPush, hLength]
    rfl
  · have hPayload : payload = [] := if_neg hPush
    simp only [hPush, if_false, hPayload, List.length_nil, Nat.add_zero]
    split_ifs with hAck hWask hWins
    · rfl
    · rfl
    · rfl
    · exact absurd ((Commands.isValid_iff _).mp hValid) (by simp [hPush, hAck, hWask, hWins])

/-- The parse loop folds over the segments that it sees. -/
theorem inputLoop_eq (host : Host) (data : List UInt8) (fuel : Nat) (s : ImKcpp mtu)
    (ctx : InputContext) (hOffset : ctx.offset ≤ data.length)
    (hFuel : data.length - ctx.offset < fuel) :
    inputLoop host data fuel s ctx =
      let seen := scan host s.sharedCtx.conv (data.drop ctx.offset)
      let final := seen.1.foldl inputFrame (s, ctx)
      .ok (final.1, seen.2.map fun _ => final.2) := by
  induction fuel generalizing s ctx with
  | zero => omega
  | succ fuel ih =>
      rw [inputLoop, scan, sizeSub_of_le hOffset, ok_bind]
      simp only [List.length_drop, SegmentHeader.fixedSize]
      by_cases hShort : data.length - ctx.offset < 24
      · simp [hShort, Except.map]
      · have hHeader : ctx.offset + 24 ≤ data.length := by omega
        rw [if_neg hShort, dif_neg hShort, SegmentHeader.deserialize_of_le hHeader, ok_bind]
        set header := SegmentHeader.ofBytes host ((data.drop ctx.offset).take 24) with hDef
        dsimp only
        rw [sizeSub_of_le hHeader, ok_bind]
        simp only [List.drop_drop, Nat.sub_sub]
        by_cases hConv : header.conv ≠ s.sharedCtx.conv
        · simp [hConv, Except.map]
        rw [if_neg hConv, if_neg hConv]
        by_cases hLen : header.len.toNat > data.length - (ctx.offset + 24)
        · simp [hLen, Except.map]
        rw [if_neg hLen, if_neg hLen]
        by_cases hValid : Commands.isValid header.cmd = true
        · have hCommand := inputCommand_eq data header s ctx (by omega) hValid
          dsimp only at hCommand
          set payload := if header.cmd = Commands.push then
            (data.drop (ctx.offset + 24)).take header.len.toNat else [] with hPayload
          have hLength : payload.length ≤ data.length - (ctx.offset + 24) := by
            rw [hPayload]
            split
            · simp
            · simp
          have hNext : (s.noteFrame ⟨header, payload⟩ ctx).offset =
              ctx.offset + 24 + payload.length := noteFrame_offset s _ ctx
          have hLoop := ih (s.applyFrame ⟨header, payload⟩) (s.noteFrame ⟨header, payload⟩ ctx)
            (by omega) (by omega)
          rw [applyFrame_sharedCtx, hNext] at hLoop
          simp only [hValid, Bool.not_true, Bool.false_eq_true, if_false, hCommand, ok_bind, hLoop]
          rfl
        · simp [hValid, Except.map]

/-- `input` as a function of the segments it sees. -/
theorem input_eq (host : Host) (s : ImKcpp mtu) (data : List UInt8) (h : 24 ≤ data.length) :
    s.input host data =
      let seen := scan host s.sharedCtx.conv data
      let final := seen.1.foldl inputFrame (s, {})
      .ok (match seen.2 with
        | .error error => (final.1, .error error)
        | .ok _ => (final.1.finishInput s.segmentTracker.sndUna final.2.fastackCtx,
            .ok { final.2.result with totalBytesReceived := final.2.offset })) := by
  have hLoop := inputLoop_eq host data (data.length + 1) s {} (by simp) (by simp)
  have hSize : ¬data.length < SegmentHeader.fixedSize := by
    simp only [SegmentHeader.fixedSize]; omega
  unfold input
  rw [if_neg hSize, hLoop]
  simp only [ok_bind, List.drop_zero]
  cases (scan host s.sharedCtx.conv data).2 <;> rfl

/-- What `input` leaves and counts when it returns no error. -/
theorem input_success {s t : ImKcpp mtu} {host : Host} {data : List UInt8} {counts : InputResult}
    (h : s.input host data = .ok (t, .ok counts)) :
    let seen := scan host s.sharedCtx.conv data
    let final := seen.1.foldl inputFrame (s, {})
    24 ≤ data.length ∧ (∃ left, seen.2 = .ok left) ∧
      t = final.1.finishInput s.segmentTracker.sndUna final.2.fastackCtx ∧
      counts = { final.2.result with totalBytesReceived := final.2.offset } := by
  intro seen final
  have hLong : 24 ≤ data.length := by
    by_contra hShort
    have hRefused : s.input host data = .ok (s, .error .lessThanHeaderSize) :=
      if_pos (Nat.not_le.mp hShort)
    cases (Prod.mk.inj (Except.ok.inj (hRefused.symm.trans h))).2
  rw [input_eq host s data hLong] at h
  dsimp only at h
  cases hEnd : (scan host s.sharedCtx.conv data).2 with
  | error error =>
      rw [hEnd] at h
      cases (Prod.mk.inj (Except.ok.inj h)).2
  | ok left =>
      rw [hEnd] at h
      obtain ⟨hState, hCounts⟩ := Prod.mk.inj (Except.ok.inj h)
      exact ⟨hLong, ⟨left, rfl⟩, hState.symm, (Except.ok.inj hCounts).symm⟩

end ImKcpp
end Imkcpp
