import Imkcpp.MalformedTail

/-! How segments are grouped into datagrams. The loop of `input` folds over the
segments, so two datagrams in one are processed like one after the other; only what
comes behind the loop sees the boundary: the fast-ack counters and the growth of the
congestion window. -/
namespace Imkcpp

variable {mtu : Mtu} {host : Host}

theorem InputResult.add_assoc (a b c : InputResult) : (a.add b).add c = a.add (b.add c) := by
  simp [InputResult.add, UInt32.add_assoc, Nat.add_assoc]

@[simp] theorem InputResult.add_zero (a : InputResult) : a.add {} = a := by
  simp [InputResult.add]

@[simp] theorem InputResult.zero_add (a : InputResult) : InputResult.add {} a = a := by
  simp [InputResult.add]

/-- A segment without its fast-ack counter. -/
def Segment.uncounted (seg : Segment) : Segment :=
  { seg with metadata := { seg.metadata with fastack := 0 } }

namespace ImKcpp

/-- The endpoint without what `input` works out behind its loop: the fast-ack
counters and the two parameters of the congestion window that an acknowledgement
makes grow. -/
def uncounted (s : ImKcpp mtu) : ImKcpp mtu :=
  { s with
    senderBuffer := s.senderBuffer.map Segment.uncounted
    congestionController := { s.congestionController with cwnd := 0, incr := 0 } }

theorem uncounted_acceptHeader (s : ImKcpp mtu) (header : SegmentHeader) :
    (s.acceptHeader header).uncounted = s.uncounted.acceptHeader header := by
  have hUna := AckController.unaReceived_map (f := Segment.uncounted) (fun _ => rfl) header.una
    s.senderBuffer s.segmentTracker
  unfold acceptHeader uncounted
  dsimp only
  rw [hUna]

theorem uncounted_applyPush (s : ImKcpp mtu) (frame : Frame) :
    (s.applyPush frame).uncounted = s.uncounted.applyPush frame := by
  have hFits : s.uncounted.congestionController.fitsReceiveWindow s.uncounted.receiver.rcvNxt
      frame.header.sn =
        s.congestionController.fitsReceiveWindow s.receiver.rcvNxt frame.header.sn := rfl
  have hReceive : s.uncounted.receiver.shouldReceive frame.header.sn =
      s.receiver.shouldReceive frame.header.sn := rfl
  unfold applyPush
  dsimp only
  rw [hFits, hReceive]
  split_ifs <;> rfl

theorem uncounted_inputAck (s : ImKcpp mtu) (header : SegmentHeader) :
    (inputAck header s {}).1.uncounted = (inputAck header s.uncounted {}).1 := by
  have hAck := AckController.ackReceived_map (f := Segment.uncounted) (fun _ => rfl) header.sn
    s.senderBuffer s.segmentTracker
  unfold inputAck uncounted
  dsimp only
  rw [hAck]

/-- No segment is processed differently for the sake of these counters. -/
theorem uncounted_applyFrame (s : ImKcpp mtu) (frame : Frame) :
    (s.applyFrame frame).uncounted = s.uncounted.applyFrame frame := by
  unfold applyFrame
  dsimp only
  rw [← uncounted_acceptHeader]
  split_ifs
  · exact uncounted_applyPush _ frame
  · exact uncounted_inputAck _ frame.header
  · rfl
  · rfl

theorem uncounted_foldl (frames : List Frame) (s : ImKcpp mtu) :
    (frames.foldl applyFrame s).uncounted = frames.foldl applyFrame s.uncounted := by
  induction frames generalizing s with
  | nil => rfl
  | cons frame rest ih => rw [List.foldl_cons, List.foldl_cons, ih, uncounted_applyFrame]

/-- Fast-ack counting writes nothing but the counters. -/
theorem uncounted_finishInput (s : ImKcpp mtu) (prevUna : UInt32) (ctx : FastAckCtx) :
    (s.finishInput prevUna ctx).uncounted = s.uncounted := by
  have hBuffer : (AckController.acknowledgeFastack ctx s.senderBuffer s.segmentTracker).map
      Segment.uncounted = s.senderBuffer.map Segment.uncounted := by
    unfold AckController.acknowledgeFastack
    split_ifs
    · rfl
    · rfl
    · exact congrArg SenderBuffer.mk
        (SenderBuffer.incrementFastackLoop_map (fun _ _ => rfl) ctx.maxack s.senderBuffer.sndBuf)
  unfold finishInput uncounted
  dsimp only
  rw [hBuffer]
  split_ifs
  · obtain ⟨cwnd, incr, hController⟩ :=
      CongestionController.adjustParameters_eq mtu s.congestionController
    rw [hController]
  · rfl

/-- With or without an error, `input` leaves what the fold over its segments leaves. -/
theorem input_uncounted {s t : ImKcpp mtu} {data : List UInt8} {result : Except Error InputResult}
    (h : s.input host data = .ok (t, result)) :
    t.uncounted = ((scan host s.sharedCtx.conv data).1.foldl applyFrame s).uncounted := by
  rcases input_folded h with rfl | ⟨ctx, rfl⟩
  · rfl
  · exact uncounted_finishInput _ _ ctx

/-- Apart from fast-ack counters, what `input` leaves buffered was buffered before. -/
theorem Invariant.mem_input_sndBuf {s t : ImKcpp mtu} (hInvariant : s.Invariant) {data : List UInt8}
    {result : Except Error InputResult} (h : s.input host data = .ok (t, result)) :
    ∀ seg ∈ t.senderBuffer.sndBuf,
      ∃ old ∈ s.senderBuffer.sndBuf, old.uncounted = seg.uncounted := by
  have hBuffer : t.senderBuffer.sndBuf.map Segment.uncounted =
      ((scan host s.sharedCtx.conv data).1.foldl ImKcpp.applyFrame s).senderBuffer.sndBuf.map
        Segment.uncounted :=
    congrArg (fun t : ImKcpp mtu => t.senderBuffer.sndBuf) (input_uncounted h)
  intro seg hSeg
  have hMem := List.mem_map_of_mem (f := Segment.uncounted) hSeg
  rw [hBuffer] at hMem
  obtain ⟨old, hOld, hSame⟩ := List.mem_map.mp hMem
  exact ⟨old, ((hInvariant.mem_foldl_sndBuf _ old).mp hOld).1, hSame⟩

/-- What a segment adds to the counts does not depend on what has been counted. -/
theorem noteFrame_result (s : ImKcpp mtu) (frame : Frame) (ctx : InputContext) :
    (s.noteFrame frame ctx).result = ctx.result.add (s.uncounted.noteFrame frame {}).result := by
  have hStores : s.uncounted.storesPush frame.header = s.storesPush frame.header := rfl
  unfold noteFrame
  rw [hStores]
  split_ifs <;> simp [InputResult.add]

/-- The counts of a datagram, seen from any start of the counting. -/
theorem foldl_inputFrame_result (frames : List Frame) (s : ImKcpp mtu) (ctx : InputContext) :
    (frames.foldl inputFrame (s, ctx)).2.result =
      ctx.result.add (frames.foldl inputFrame (s.uncounted, {})).2.result := by
  induction frames generalizing s ctx with
  | nil => exact (InputResult.add_zero ctx.result).symm
  | cons frame rest ih =>
      have hTwice : s.uncounted.uncounted = s.uncounted := by
        simp [uncounted, SenderBuffer.map, Segment.uncounted, Function.comp_def]
      rw [List.foldl_cons, List.foldl_cons]
      dsimp only [inputFrame]
      rw [ih (s.applyFrame frame), ih (s.uncounted.applyFrame frame), noteFrame_result,
        uncounted_applyFrame, uncounted_applyFrame, hTwice, InputResult.add_assoc]

/-- The locals of `input` behind two groups of segments, from those behind each; it
does not matter what has happened to the counters in between. -/
theorem foldl_inputFrame_append (host : Host) {s middle : ImKcpp mtu} {frames : List Frame}
    (others : List Frame) (hMiddle : middle.uncounted = (frames.foldl applyFrame s).uncounted) :
    let locals := (frames.foldl inputFrame (s, {})).2
    let more := (others.foldl inputFrame (middle, {})).2
    let both := ((frames ++ others).foldl inputFrame (s, {})).2
    both.result = locals.result.add more.result ∧ both.offset = locals.offset + more.offset := by
  intro locals more both
  have hBoth : both = (others.foldl inputFrame (frames.foldl applyFrame s, locals)).2 := by
    simp only [both, locals, List.foldl_append, ← foldl_inputFrame_fst frames s {}]
  have hMore : more.result = (others.foldl inputFrame (middle.uncounted, {})).2.result := by
    rw [foldl_inputFrame_result others middle {}]
    exact InputResult.zero_add _
  have hEnd := foldl_inputFrame_offset host others (frames.foldl applyFrame s) locals
  have hMoreEnd := foldl_inputFrame_offset host others middle {}
  constructor
  · rw [hBoth, foldl_inputFrame_result, hMore, hMiddle]
  · rw [hBoth, hEnd, hMoreEnd, Nat.zero_add]

/-- What a finished `input` leaves of the conversation. -/
theorem finishInput_conv (s : ImKcpp mtu) (frames : List Frame) (ctx : InputContext)
    (prevUna : UInt32) :
    ((frames.foldl inputFrame (s, {})).1.finishInput prevUna ctx.fastackCtx).sharedCtx =
      s.sharedCtx := by
  rw [foldl_inputFrame_fst]
  exact foldl_applyFrame_sharedCtx frames s

end ImKcpp

/-- Two datagrams that `input` takes whole leave the same endpoint as the one that
holds the segments of both, but for fast-ack counters and congestion window, and
the counts add up. -/
theorem batching_transparent {s middle last : ImKcpp mtu} {first second : List UInt8}
    {counts more : InputResult}
    (hFirst : s.input host first = .ok (middle, .ok counts))
    (hCounts : counts.totalBytesReceived = first.length)
    (hSecond : middle.input host second = .ok (last, .ok more))
    (hMore : more.totalBytesReceived = second.length) :
    ∃ batch, s.input host (first ++ second) = .ok (batch, .ok (counts.add more)) ∧
      batch.uncounted = last.uncounted := by
  obtain ⟨hLong, -, -, hCounted⟩ := ImKcpp.input_success hFirst
  obtain ⟨-, -, -, hCountedMore⟩ := ImKcpp.input_success hSecond
  obtain ⟨hWhole, hMiddle⟩ := ImKcpp.input_whole (.inr ⟨_, hFirst, hCounts⟩)
  obtain ⟨hWholeMore, hLast⟩ := ImKcpp.input_whole (.inr ⟨_, hSecond, hMore⟩)
  have hConv : middle.sharedCtx = s.sharedCtx := by
    rw [hMiddle]
    exact ImKcpp.finishInput_conv s _ _ _
  rw [hConv] at hWholeMore hLast hCountedMore
  obtain ⟨frames, hFrames⟩ : ∃ frames, frames = (scan host s.sharedCtx.conv first).1 := ⟨_, rfl⟩
  obtain ⟨others, hOthers⟩ : ∃ others, others = (scan host s.sharedCtx.conv second).1 := ⟨_, rfl⟩
  rw [← hFrames] at hMiddle hCounted
  rw [← hOthers] at hLast hCountedMore
  have hScan : scan host s.sharedCtx.conv (first ++ second) = (frames ++ others, .ok 0) := by
    rw [scan_append hWhole, hFrames, hOthers, hWholeMore]
  have hBoth : 24 ≤ (first ++ second).length := by
    rw [List.length_append]
    omega
  -- the boundary is forgotten together with the counters
  have hForget : middle.uncounted = (frames.foldl ImKcpp.applyFrame s).uncounted := by
    rw [hMiddle, ImKcpp.uncounted_finishInput, ImKcpp.foldl_inputFrame_fst]
  obtain ⟨hResult, hOffset⟩ := ImKcpp.foldl_inputFrame_append host others hForget
  rw [ImKcpp.input_eq host s _ hBoth, hScan]
  refine ⟨_, congrArg Except.ok (Prod.ext rfl (congrArg Except.ok ?_)), ?_⟩
  · rw [hCounted, hCountedMore]
    dsimp only
    rw [hResult, hOffset]
    rfl
  · rw [hLast, ImKcpp.uncounted_finishInput, ImKcpp.uncounted_finishInput,
      ImKcpp.foldl_inputFrame_fst, ImKcpp.foldl_inputFrame_fst, List.foldl_append,
      ImKcpp.uncounted_foldl others, ImKcpp.uncounted_foldl others, hForget]

/-- Acknowledgements, data and a probe, with three segments in flight. -/
theorem batching_transparent_three :
    ∃ (party : Party .least) (middle last batch : ImKcpp .least),
      (Party.fresh .least 0).run Host.x8664 [.configure (.congestionWindowEnabled false), .send [1],
        .send [2], .send [3], .update 0] = .ok party ∧
      party.endpoint.input Host.x8664 (wire Host.x8664
        [⟨{ cmd := Commands.ack, wnd := 7 }, []⟩,
          ⟨{ cmd := Commands.push, wnd := 7, len := 1 }, [4]⟩]) =
          .ok (middle, .ok { cmdAckCount := 1, totalBytesReceived := 49 }) ∧
      middle.input Host.x8664 (wire Host.x8664
        [⟨{ cmd := Commands.push, wnd := 9, sn := 1, una := 1, len := 1 }, [5]⟩,
          ⟨{ cmd := Commands.ack, wnd := 9, sn := 2, una := 1 }, []⟩,
          ⟨{ cmd := Commands.wask, wnd := 9, una := 1 }, []⟩]) =
          .ok (last, .ok { cmdAckCount := 1, cmdWaskCount := 1, totalBytesReceived := 73 }) ∧
      party.endpoint.input Host.x8664 (wire Host.x8664
        [⟨{ cmd := Commands.ack, wnd := 7 }, []⟩,
          ⟨{ cmd := Commands.push, wnd := 7, len := 1 }, [4]⟩,
          ⟨{ cmd := Commands.push, wnd := 9, sn := 1, una := 1, len := 1 }, [5]⟩,
          ⟨{ cmd := Commands.ack, wnd := 9, sn := 2, una := 1 }, []⟩,
          ⟨{ cmd := Commands.wask, wnd := 9, una := 1 }, []⟩]) =
          .ok (batch, .ok { cmdAckCount := 2, cmdWaskCount := 1, totalBytesReceived := 122 }) ∧
      batch.uncounted = last.uncounted := by
  have hResults :
      (Party.fresh .least 0).run Host.x8664 [.configure (.congestionWindowEnabled false),
      .send [1], .send [2], .send [3], .update 0] >>= (fun party =>
        party.endpoint.input Host.x8664 (wire Host.x8664 [⟨{ cmd := Commands.ack, wnd := 7 }, []⟩,
          ⟨{ cmd := Commands.push, wnd := 7, len := 1 }, [4]⟩]) >>= fun first =>
        (first.1.input Host.x8664 (wire Host.x8664
          [⟨{ cmd := Commands.push, wnd := 9, sn := 1, una := 1, len := 1 }, [5]⟩,
            ⟨{ cmd := Commands.ack, wnd := 9, sn := 2, una := 1 }, []⟩,
            ⟨{ cmd := Commands.wask, wnd := 9, una := 1 }, []⟩])).map
          fun second => (first.2, second.2)) =
      .ok (.ok { cmdAckCount := 1, totalBytesReceived := 49 },
        .ok { cmdAckCount := 1, cmdWaskCount := 1, totalBytesReceived := 73 }) := by
    decide +kernel
  obtain ⟨party, hRun, hInputs⟩ := bind_eq_ok.mp hResults
  obtain ⟨⟨middle, counts⟩, hFirst, hRest⟩ := bind_eq_ok.mp hInputs
  obtain ⟨⟨last, more⟩, hSecond, hBoth⟩ := map_eq_ok.mp hRest
  obtain ⟨rfl, rfl⟩ := Prod.mk.inj hBoth
  obtain ⟨batch, hBatch, hSame⟩ :=
    batching_transparent hFirst (by decide +kernel) hSecond (by decide +kernel)
  exact ⟨party, middle, last, batch, hRun, hFirst, hSecond, hBatch, hSame⟩

end Imkcpp
