import Imkcpp.Receiver
import Imkcpp.Sender

/-! `ImKcpp<MTU>`: the record of its components and its public functions. A
function returns the new state beside its result; output callbacks are the list
of datagrams that they are given. -/
namespace Imkcpp

/-- The members of `ImKcpp`, at the values their initializers give them. -/
structure ImKcpp (mtu : Mtu) where
  sharedCtx : SharedCtx := {}
  flusher : Flusher mtu := {}
  segmentTracker : SegmentTracker := {}
  rtoCalculator : RtoCalculator := {}
  congestionController : CongestionController := {}
  windowProber : WindowProber := {}
  receiver : Receiver := {}
  senderBuffer : SenderBuffer := {}
  ackController : AckController := {}
  sender : Sender := {}
  updated : Bool := false
  current : UInt32 := 0
  tsFlush : UInt32 := Constants.ikcpInterval

namespace ImKcpp

variable {mtu : Mtu}

/-- `ImKcpp::create_service_header` -/
def createServiceHeader (s : ImKcpp mtu) (unusedReceiveWindow : Int32) : SegmentHeader where
  conv := s.sharedCtx.conv
  cmd := Commands.ack
  frg := 0
  wnd := unusedReceiveWindow.toUInt32.toUInt16
  una := s.receiver.rcvNxt
  sn := 0
  ts := 0
  len := 0

section Setters

def setInterval (s : ImKcpp mtu) (interval : UInt32) : ImKcpp mtu :=
  let interval := clamp interval 10 5000
  { s with
    sharedCtx := { s.sharedCtx with interval }
    rtoCalculator := { s.rtoCalculator with interval } }

def setNodelay (s : ImKcpp mtu) (nodelay : UInt32) : ImKcpp mtu :=
  { s with
    sender := { s.sender with nodelay }
    rtoCalculator := { s.rtoCalculator with
      minrto := if nodelay > 0 then Constants.ikcpRtoNdl else Constants.ikcpRtoMin } }

def setFastresend (s : ImKcpp mtu) (fastresend : UInt32) : ImKcpp mtu :=
  { s with sender := { s.sender with fastresend } }

def setFastlimit (s : ImKcpp mtu) (limit : UInt32) : ImKcpp mtu :=
  { s with sender := { s.sender with fastlimit := limit } }

/-- `ImKcpp::set_send_window` also resets the remote window. -/
def setSendWindow (s : ImKcpp mtu) (sndwnd : UInt32) : Except Fault (ImKcpp mtu) := do
  assert .imkcpp (sndwnd > 0)
  return { s with
    congestionController := { s.congestionController with sndWnd := sndwnd, rmtWnd := sndwnd } }

/-- `ImKcpp::set_receive_window`. Reserving room for acknowledgements has no
effect that can be observed. -/
def setReceiveWindow (s : ImKcpp mtu) (rcvwnd : UInt32) : Except Fault (ImKcpp mtu) := do
  assert .imkcpp (rcvwnd > 0)
  return { s with
    congestionController := s.congestionController.setReceiveWindow rcvwnd
    receiver := s.receiver.setQueueLimit rcvwnd }

def setCongestionWindowEnabled (s : ImKcpp mtu) (state : Bool) : ImKcpp mtu :=
  { s with congestionController := { s.congestionController with congestionWindow := state } }

def setDeadlink (s : ImKcpp mtu) (threshold : UInt32) : ImKcpp mtu :=
  { s with sender := { s.sender with deadLink := threshold } }

end Setters

/-- The constructor `ImKcpp(conv)`; its two setter calls pass positive constants. -/
def create (mtu : Mtu) (conv : UInt32) : ImKcpp mtu :=
  { sharedCtx := { conv }
    congestionController := {
      rcvWnd := max Constants.ikcpWndRcv Constants.ikcpWndRcv
      sndWnd := Constants.ikcpWndSnd
      rmtWnd := Constants.ikcpWndSnd }
    receiver := { queueLimit := Constants.ikcpWndRcv } }

/-- The constructor body, as written in the source. -/
theorem create_eq (mtu : Mtu) (conv : UInt32) :
    (({ sharedCtx := { conv } } : ImKcpp mtu).setReceiveWindow Constants.ikcpWndRcv >>=
      fun s => s.setSendWindow Constants.ikcpWndSnd) = .ok (create mtu conv) := rfl

section Input

/-- The locals of `input` that survive an iteration of its loop. -/
structure InputContext where
  offset : Nat := 0
  result : InputResult := {}
  fastackCtx : FastAckCtx := {}
  deriving DecidableEq

/-- The `drop_push` lambda. -/
def dropPush (header : SegmentHeader) (ctx : InputContext) : InputContext :=
  { ctx with
    offset := ctx.offset + header.len.toNat
    result := { ctx.result with droppedPushCount := ctx.result.droppedPushCount + 1 } }

/-- The `PUSH` case of `input`. -/
def inputPush (data : List UInt8) (header : SegmentHeader) (s : ImKcpp mtu) (ctx : InputContext) :
    Except Fault (ImKcpp mtu × InputContext) :=
  if !s.congestionController.fitsReceiveWindow s.receiver.rcvNxt header.sn then
    .ok (s, dropPush header ctx)
  else
    let s := { s with ackController := s.ackController.scheduleAck header.sn header.ts }
    if s.receiver.shouldReceive header.sn then do
      let (segmentData, offset) ← SegmentData.decodeFrom data ctx.offset header.len.toNat
      return ({ s with receiver := s.receiver.emplaceSegment header segmentData },
        { ctx with offset })
    else .ok (s, dropPush header ctx)

/-- The `ACK` case of `input`. -/
def inputAck (header : SegmentHeader) (s : ImKcpp mtu) (ctx : InputContext) :
    ImKcpp mtu × InputContext :=
  let (senderBuffer, segmentTracker) :=
    AckController.ackReceived header.sn s.senderBuffer s.segmentTracker
  ({ s with
      rtoCalculator := s.rtoCalculator.updateRto s.current header.ts
      senderBuffer
      segmentTracker },
    { ctx with
      fastackCtx := ctx.fastackCtx.update header.sn header.ts
      result := { ctx.result with cmdAckCount := ctx.result.cmdAckCount + 1 } })

/-- The `WASK` case of `input`. -/
def inputWask (s : ImKcpp mtu) (ctx : InputContext) : Except Fault (ImKcpp mtu × InputContext) := do
  let windowProber ← s.windowProber.setFlag .askTell
  return ({ s with windowProber },
    { ctx with result := { ctx.result with cmdWaskCount := ctx.result.cmdWaskCount + 1 } })

/-- The `WINS` case of `input`. -/
def inputWins (s : ImKcpp mtu) (ctx : InputContext) : ImKcpp mtu × InputContext :=
  (s, { ctx with result := { ctx.result with cmdWinsCount := ctx.result.cmdWinsCount + 1 } })

/-- What `input` does for every valid header before it looks at the command. -/
def acceptHeader (header : SegmentHeader) (s : ImKcpp mtu) : ImKcpp mtu :=
  let (senderBuffer, segmentTracker) :=
    AckController.unaReceived header.una s.senderBuffer s.segmentTracker
  { s with
    congestionController := { s.congestionController with rmtWnd := header.wnd.toUInt32 }
    ackController := s.ackController.noteRemoteUna header.una
    senderBuffer
    segmentTracker }

/-- The `switch` of `input`. Only a command that `is_valid` let through can
reach it, so its default case is dead code. -/
def inputCommand (data : List UInt8) (header : SegmentHeader) (s : ImKcpp mtu)
    (ctx : InputContext) : Except Fault (ImKcpp mtu × Except Error InputContext) :=
  if header.cmd = Commands.push then do
    let (s, ctx) ← inputPush data header s ctx
    return (s, .ok ctx)
  else if header.cmd = Commands.ack then
    let (s, ctx) := inputAck header s ctx
    .ok (s, .ok ctx)
  else if header.cmd = Commands.wask then do
    let (s, ctx) ← inputWask s ctx
    return (s, .ok ctx)
  else if header.cmd = Commands.wins then
    let (s, ctx) := inputWins s ctx
    .ok (s, .ok ctx)
  else .ok (s, .error .unknownCommand)

/-- The parse loop of `input`. Every iteration consumes a header, so `fuel`
beyond the number of bytes is never used up. -/
def inputLoop (host : Host) (data : List UInt8) :
    Nat → ImKcpp mtu → InputContext → Except Fault (ImKcpp mtu × Except Error InputContext)
  | 0, _, _ => .error .endlessLoop
  | fuel + 1, s, ctx => do
    let remaining ← sizeSub data.length ctx.offset
    if remaining < SegmentHeader.fixedSize then return (s, .ok ctx)
    else
      let (header, offset) ← SegmentHeader.deserialize host data ctx.offset
      let ctx := { ctx with offset }
      let remaining ← sizeSub data.length offset
      if header.conv ≠ s.sharedCtx.conv then return (s, .error .convMismatch)
      else if header.len.toNat > remaining then
        return (s, .error .headerAndPayloadLengthMismatch)
      else if !Commands.isValid header.cmd then return (s, .error .unknownCommand)
      else
        let (s, outcome) ← inputCommand data header (s.acceptHeader header) ctx
        match outcome with
        | .error error => return (s, .error error)
        | .ok ctx => inputLoop host data fuel s ctx

/-- What `input` does after its loop. -/
def finishInput (prevUna : UInt32) (fastackCtx : FastAckCtx) (s : ImKcpp mtu) : ImKcpp mtu :=
  { s with
    senderBuffer := AckController.acknowledgeFastack fastackCtx s.senderBuffer s.segmentTracker
    congestionController :=
      if s.segmentTracker.sndUna > prevUna then s.congestionController.adjustParameters mtu
      else s.congestionController }

/-- `ImKcpp::input` -/
def input (host : Host) (s : ImKcpp mtu) (data : List UInt8) :
    Except Fault (ImKcpp mtu × Except Error InputResult) :=
  if data.length < SegmentHeader.fixedSize then .ok (s, .error .lessThanHeaderSize)
  else do
    let prevUna := s.segmentTracker.sndUna
    let (s, outcome) ← inputLoop host data (data.length + 1) s {}
    match outcome with
    | .error error => return (s, .error error)
    | .ok ctx =>
      return (s.finishInput prevUna ctx.fastackCtx,
        .ok { ctx.result with totalBytesReceived := ctx.offset })

end Input

/-- `ImKcpp::recv` -/
def recv (s : ImKcpp mtu) {n : Nat} (buffer : Vector UInt8 n) :
    Except Fault (ImKcpp mtu × Vector UInt8 n × Except Error Nat) := do
  let (receiver, buffer, result) ← s.receiver.recv buffer s.congestionController.rcvWnd
  let s := { s with receiver }
  match result with
  | .error error => return (s, buffer, .error error)
  | .ok result =>
    if result.recovered then
      let windowProber ← s.windowProber.setFlag .askTell
      return ({ s with windowProber }, buffer, .ok result.size)
    else return (s, buffer, .ok result.size)

/-- `ImKcpp::send` -/
def send (s : ImKcpp mtu) (buffer : List UInt8) :
    Except Fault (ImKcpp mtu × Except Error Nat) := do
  let (sender, result) ← s.sender.send mtu s.congestionController.rcvWnd buffer
  return ({ s with sender }, result)

/-- `ImKcpp::peek_size` -/
def peekSize (s : ImKcpp mtu) : Except Error Nat := s.receiver.peekSize

/-- `ImKcpp::check`, which may move the flush deadline. -/
def check (s : ImKcpp mtu) (current : UInt32) : ImKcpp mtu × UInt32 :=
  if !s.updated then (s, current)
  else
    let s :=
      if Int32.abs (timeDelta current s.tsFlush) ≥ 10000 then { s with tsFlush := current } else s
    if timeDelta current s.tsFlush ≥ 0 then (s, current)
    else
      let nextFlush := (max 0 (timeDelta s.tsFlush current)).toUInt32
      let minimal :=
        match s.senderBuffer.getEarliestTransmitDelta current with
        | some delta => if delta < nextFlush then delta else nextFlush
        | none => nextFlush
      (s, current + min s.sharedCtx.interval minimal)

section Flush

/-- The window that `flush` advertises, as the `i32` it computes. -/
def unusedReceiveWindow (s : ImKcpp mtu) : Int32 :=
  max (s.congestionController.rcvWnd.toInt32 -
    (UInt32.ofNat s.receiver.rcvQueue.length).toInt32) 0

/-- The loop of the `flush_acks` lambda. The service header keeps the numbers of
the last acknowledgement, so it is returned too. -/
def flushAcksLoop (host : Host) :
    List Ack → SegmentHeader → Flusher mtu → List (List UInt8) → Nat →
      Except Fault (SegmentHeader × Flusher mtu × List (List UInt8) × Nat)
  | [], header, flusher, output, sent => .ok (header, flusher, output, sent)
  | ack :: rest, header, flusher, output, sent => do
    let (flusher, output, size) ← flusher.flushIfFull output
    let header := { header with sn := ack.sn, ts := ack.ts }
    let flusher ← flusher.emplace host header
    flushAcksLoop host rest header flusher output (sent + size)

/-- One probe of the `flush_probes` lambda: whether it is asked for, its command. -/
def flushProbe (host : Host) (flag : Bool) (cmd : UInt8) (header : SegmentHeader)
    (flusher : Flusher mtu) (output : List (List UInt8)) (sent : Nat) :
    Except Fault (SegmentHeader × Flusher mtu × List (List UInt8) × Nat) :=
  if flag then do
    let (flusher, output, size) ← flusher.flushIfFull output
    let header := { header with cmd }
    let flusher ← flusher.emplace host header
    return (header, flusher, output, sent + size)
  else .ok (header, flusher, output, sent)

/-- The locals of `Sender::flush_data_segments` that its lambdas capture. -/
def flushSettings (s : ImKcpp mtu) (unusedReceiveWindow : Int32) (rcvNxt : UInt32) :
    Sender.FlushSettings where
  current := s.current
  wnd := unusedReceiveWindow
  rcvNxt
  rto := s.rtoCalculator.rto
  resent := if s.sender.fastresend > 0 then s.sender.fastresend else 0xffffffff
  rtomin := if s.sender.nodelay == 0 then s.rtoCalculator.rto >>> 3 else 0
  nodelay := s.sender.nodelay
  fastlimit := s.sender.fastlimit
  deadLink := s.sender.deadLink

/-- `Sender::move_send_queue_to_buffer`, on the components that `Sender` refers to. -/
def moveSendQueueToBuffer (s : ImKcpp mtu) (unusedReceiveWindow : Int32) (rcvNxt : UInt32) :
    List Segment × SenderBuffer × SegmentTracker :=
  Sender.moveSendQueueToBuffer s.sharedCtx.conv s.rtoCalculator.rto
    s.congestionController.calculateCongestionWindow s.current unusedReceiveWindow rcvNxt
    s.sender.sndQueue s.senderBuffer s.segmentTracker

/-- `Sender::flush_data_segments`, on the components that `Sender` refers to. -/
def flushDataSegments (host : Host) (s : ImKcpp mtu) (output : List (List UInt8))
    (result : FlushResult) (unusedReceiveWindow : Int32) (rcvNxt : UInt32) :
    Except Fault (ImKcpp mtu × List (List UInt8) × FlushResult) := do
  let (sndQueue, senderBuffer, segmentTracker) :=
    s.moveSendQueueToBuffer unusedReceiveWindow rcvNxt
  let settings := s.flushSettings unusedReceiveWindow rcvNxt
  let (sndBuf, ctx) ← Sender.forEachSegment host settings senderBuffer.sndBuf {
    flusher := s.flusher
    output
    result
    change := false
    xmit := s.sender.xmit
    state := s.sharedCtx.state }
  let congestionController ←
    if ctx.change then do
      let inFlight ← segmentTracker.getPacketsInFlightCount
      pure (s.congestionController.packetsResent mtu inFlight settings.resent)
    else pure s.congestionController
  let congestionController :=
    if ctx.result.timeoutRetransmittedCount > 0 then congestionController.packetLost mtu
    else congestionController
  return ({ s with
    sharedCtx := { s.sharedCtx with state := ctx.state }
    flusher := ctx.flusher
    segmentTracker
    congestionController
    senderBuffer := ⟨sndBuf⟩
    sender := { s.sender with sndQueue, xmit := ctx.xmit } }, ctx.output, ctx.result)

/-- `ImKcpp::flush` -/
def flush (host : Host) (s : ImKcpp mtu) :
    Except Fault (ImKcpp mtu × List (List UInt8) × FlushResult) :=
  if !s.updated then .ok (s, [], {})
  else do
    let unusedReceiveWindow := s.unusedReceiveWindow
    let header := s.createServiceHeader unusedReceiveWindow
    -- Acks
    let (header, flusher, output, sent) ←
      flushAcksLoop host s.ackController.acklist header s.flusher [] 0
    let ackCount := UInt32.ofNat s.ackController.acklist.length
    -- Window probes
    let windowProber ← s.windowProber.update s.current s.congestionController.rmtWnd
    let askSend ← windowProber.hasFlag .askSend
    let (header, flusher, output, sent) ←
      flushProbe host askSend Commands.wask header flusher output sent
    let askTell ← windowProber.hasFlag .askTell
    let (_, flusher, output, sent) ←
      flushProbe host askTell Commands.wins header flusher output sent
    let s := { s with
      ackController := s.ackController.clear
      windowProber := windowProber.resetFlags
      flusher }
    let result : FlushResult := {
      cmdAckCount := ackCount
      cmdWaskCount := if askSend then 1 else 0
      cmdWinsCount := if askTell then 1 else 0
      totalBytesSent := sent }
    -- Useful data
    let (s, output, result) ←
      s.flushDataSegments host output result unusedReceiveWindow s.receiver.rcvNxt
    -- Flush remaining
    let (flusher, output, size) ← s.flusher.flushIfNotEmpty output
    return ({ s with
      flusher
      congestionController := s.congestionController.ensureAtLeastOnePacketInFlight mtu },
      output, { result with totalBytesSent := result.totalBytesSent + size })

/-- The clock work of `update`, and whether a flush is due. -/
def updateClock (s : ImKcpp mtu) (current : UInt32) : ImKcpp mtu × Bool :=
  let s := { s with current }
  let s := if !s.updated then { s with updated := true, tsFlush := current } else s
  let slap := timeDelta current s.tsFlush
  let jumped := slap ≥ 10000 ∨ slap < -10000
  let s := if jumped then { s with tsFlush := current } else s
  let slap := if jumped then 0 else slap
  if slap ≥ 0 then
    let tsFlush := s.tsFlush + s.sharedCtx.interval
    let tsFlush :=
      if timeDelta current tsFlush ≥ 0 then current + s.sharedCtx.interval else tsFlush
    ({ s with tsFlush }, true)
  else (s, false)

/-- `ImKcpp::update` -/
def update (host : Host) (s : ImKcpp mtu) (current : UInt32) :
    Except Fault (ImKcpp mtu × List (List UInt8) × FlushResult) :=
  let (s, due) := s.updateClock current
  if due then s.flush host else .ok (s, [], {})

end Flush

/-- `ImKcpp::get_state` -/
def getState (s : ImKcpp mtu) : State := s.sharedCtx.state

/-- `ImKcpp::estimate_segments_count` -/
def estimateSegmentsCount (_ : ImKcpp mtu) (size : Nat) : Nat :=
  Sender.estimateSegmentsCount mtu size

/-- `ImKcpp::estimate_max_payload_size`, a product of two `size_t`. -/
def estimateMaxPayloadSize (s : ImKcpp mtu) : Nat :=
  mtu.maxSegmentSize * min s.congestionController.rcvWnd.toNat 255 % 2 ^ 64

end ImKcpp
end Imkcpp
