import Imkcpp.Flusher
import Imkcpp.Controllers
import Imkcpp.SenderBuffer

/-! The sending half: fragmentation of messages, admission of queued segments
to the sender buffer, and the transmission loop of a flush. -/
namespace Imkcpp

structure Sender where
  sndQueue : List Segment := []
  fastresend : UInt32 := 0
  fastlimit : UInt32 := Constants.ikcpFastackLimit
  nodelay : UInt32 := 0
  xmit : UInt32 := 0
  deadLink : UInt32 := Constants.ikcpDeadlink
  deriving DecidableEq

namespace Sender

/-- `Sender::estimate_segments_count` -/
def estimateSegmentsCount (mtu : Mtu) (size : Nat) : Nat :=
  max 1 ((size + mtu.maxSegmentSize - 1) / mtu.maxSegmentSize)

/-- The loop of `Sender::send`. `remaining` is `count - i`, so the fragment
number `count - i - 1` is its predecessor. -/
def sendLoop (mtu : Mtu) (buffer : List UInt8) :
    Nat → List Segment → Nat → Except Fault (List Segment × Nat)
  | 0, sndQueue, offset => .ok (sndQueue, offset)
  | remaining + 1, sndQueue, offset => do
    let rest ← sizeSub buffer.length offset
    let size := min rest mtu.maxSegmentSize
    assert .sender (size > 0)
    let bytes ← readSpan buffer offset size
    let seg := ({} : Segment).dataAssign bytes
    let seg := { seg with header := { seg.header with frg := UInt8.ofNat remaining } }
    assert .sender (seg.dataSize = size)
    sendLoop mtu buffer remaining (sndQueue ++ [seg]) (offset + size)

/-- `Sender::send`; `rcvWnd` is the congestion controller's receive window. -/
def send (mtu : Mtu) (sender : Sender) (rcvWnd : UInt32) (buffer : List UInt8) :
    Except Fault (Sender × Except Error Nat) :=
  if buffer.isEmpty then .ok (sender, .error .bufferTooSmall)
  else
    let count := estimateSegmentsCount mtu buffer.length
    if count > 255 then .ok (sender, .error .tooManyFragments)
    else if count > rcvWnd.toNat then .ok (sender, .error .exceedsWindowSize)
    else do
      let (sndQueue, offset) ← sendLoop mtu buffer count sender.sndQueue 0
      return ({ sender with sndQueue }, .ok offset)

/-- The header and metadata a segment gets when it enters the sender buffer. -/
def stampSegment (conv rto current : UInt32) (wnd : Int32) (sn rcvNxt : UInt32) (newseg : Segment) :
    Segment :=
  { newseg with
    header := { newseg.header with
      conv
      cmd := Commands.push
      wnd := wnd.toUInt32.toUInt16
      ts := current
      sn
      una := rcvNxt }
    metadata := { resendts := current, rto, fastack := 0, xmit := 0 } }

/-- `Sender::move_send_queue_to_buffer`. The loop condition adds the window to
`snd_una` in `u32`. -/
def moveSendQueueToBuffer (conv rto cwnd current : UInt32) (wnd : Int32) (rcvNxt : UInt32) :
    List Segment → SenderBuffer → SegmentTracker → List Segment × SenderBuffer × SegmentTracker
  | [], buffer, tracker => ([], buffer, tracker)
  | newseg :: rest, buffer, tracker =>
    if tracker.sndNxt < tracker.sndUna + cwnd then
      moveSendQueueToBuffer conv rto cwnd current wnd rcvNxt rest
        (buffer.pushSegment (stampSegment conv rto current wnd tracker.sndNxt rcvNxt newseg))
        { tracker with sndNxt := tracker.sndNxt + 1 }
    else (newseg :: rest, buffer, tracker)

/-- What the lambdas of `flush_data_segments` capture by value or never change. -/
structure FlushSettings where
  current : UInt32
  wnd : Int32
  rcvNxt : UInt32
  rto : UInt32
  resent : UInt32
  rtomin : UInt32
  nodelay : UInt32
  fastlimit : UInt32
  deadLink : UInt32

/-- What the lambdas of `flush_data_segments` change through references. -/
structure FlushContext (mtu : Mtu) where
  flusher : Flusher mtu
  output : List (List UInt8)
  result : FlushResult
  change : Bool
  xmit : UInt32
  state : State

variable {mtu : Mtu}

def hasNeverBeenSent (segment : Segment) : Bool := segment.metadata.xmit == 0

def prepareForFirstSend (settings : FlushSettings) (segment : Segment) : Segment :=
  { segment with metadata := { segment.metadata with
      xmit := segment.metadata.xmit + 1
      rto := settings.rto
      resendts := settings.current + settings.rto + settings.rtomin } }

def hasTimedOut (settings : FlushSettings) (segment : Segment) : Bool :=
  decide (timeDelta settings.current segment.metadata.resendts ≥ 0)

def prepareSegmentForResend (settings : FlushSettings) (segment : Segment) : Segment :=
  let step := if settings.nodelay < 2 then segment.metadata.rto else settings.rto
  let rto :=
    if settings.nodelay == 0 then segment.metadata.rto + max segment.metadata.rto settings.rto
    else segment.metadata.rto + step / 2
  { segment with metadata := { segment.metadata with
      xmit := segment.metadata.xmit + 1
      rto
      resendts := settings.current + rto } }

def canFastResend (settings : FlushSettings) (segment : Segment) : Bool :=
  decide (settings.resent < segment.metadata.fastack) &&
    (decide (segment.metadata.xmit < settings.fastlimit) || settings.fastlimit == 0)

def prepareSegmentForFastResend (settings : FlushSettings) (segment : Segment) : Segment :=
  { segment with metadata := { segment.metadata with
      xmit := segment.metadata.xmit + 1
      fastack := 0
      resendts := settings.current + segment.metadata.rto } }

/-- `process_segment`: whether the segment is to be sent, and what changes. -/
def processSegment (settings : FlushSettings) (segment : Segment) (ctx : FlushContext mtu) :
    Bool × Segment × FlushContext mtu :=
  if hasNeverBeenSent segment then (true, prepareForFirstSend settings segment, ctx)
  else if hasTimedOut settings segment then
    (true, prepareSegmentForResend settings segment,
      { ctx with
        xmit := ctx.xmit + 1
        result := { ctx.result with
          timeoutRetransmittedCount := ctx.result.timeoutRetransmittedCount + 1 } })
  else if canFastResend settings segment then
    (true, prepareSegmentForFastResend settings segment,
      { ctx with
        change := true
        result := { ctx.result with
          fastRetransmittedCount := ctx.result.fastRetransmittedCount + 1 } })
  else (false, segment, ctx)

/-- The header fields that every transmission refreshes. -/
def refresh (settings : FlushSettings) (segment : Segment) : Segment :=
  { segment with header := { segment.header with
      ts := settings.current
      wnd := settings.wnd.toUInt32.toUInt16
      una := settings.rcvNxt } }

/-- `send_segment` -/
def sendSegment (host : Host) (settings : FlushSettings) (segment : Segment)
    (ctx : FlushContext mtu) : Except Fault (Segment × FlushContext mtu) := do
  let segment := refresh settings segment
  let (flusher, output, sent) ← ctx.flusher.flushIfDoesNotFit ctx.output segment.dataSize
  let flusher ← flusher.emplaceData host segment.header segment.data
  return (segment, { ctx with
    flusher
    output
    result := { ctx.result with totalBytesSent := ctx.result.totalBytesSent + sent }
    state := if segment.metadata.xmit ≥ settings.deadLink then .deadLink else ctx.state })

/-- The `for_each` over the sender buffer. -/
def forEachSegment (host : Host) (settings : FlushSettings) :
    List Segment → FlushContext mtu → Except Fault (List Segment × FlushContext mtu)
  | [], ctx => .ok ([], ctx)
  | segment :: rest, ctx => do
    let (due, segment, ctx) := processSegment settings segment ctx
    let (segment, ctx) ←
      if due then do
        let (segment, ctx) ← sendSegment host settings segment ctx
        pure (segment, { ctx with
          result := { ctx.result with cmdPushCount := ctx.result.cmdPushCount + 1 } })
      else pure (segment, ctx)
    let (rest, ctx) ← forEachSegment host settings rest ctx
    return (segment :: rest, ctx)

end Sender
end Imkcpp
