import Imkcpp.Endpoint
import Imkcpp.ReferenceEncoding

/-! The reference implementation. Its intrusive queues are lists, and the counters that go
along with them are their lengths. An `int` that holds a size or an error code is a plain
integer; an `int` parameter that is stored keeps its width. -/
namespace Imkcpp

open WordBytes

/-- `struct IKCPSEG`. A new segment is not initialised; no field is read before it is set. -/
structure IkcpSegment extends IkcpSeg where
  resendts : UInt32 := 0
  rto : UInt32 := 0
  fastack : UInt32 := 0
  xmit : UInt32 := 0
  data : List UInt8 := []
  deriving DecidableEq

/-- `struct IKCPCB`, as `ikcp_create` leaves it. -/
structure Ikcpcb where
  conv : UInt32 := 0
  mtu : Nat := 1400
  mss : Nat := 1376
  state : UInt32 := 0
  sndUna : UInt32 := 0
  sndNxt : UInt32 := 0
  rcvNxt : UInt32 := 0
  ssthresh : UInt32 := 2
  rxRttval : Int32 := 0
  rxSrtt : Int32 := 0
  rxRto : Int32 := 200
  rxMinrto : Int32 := 100
  sndWnd : UInt32 := 32
  rcvWnd : UInt32 := 128
  rmtWnd : UInt32 := 128
  cwnd : UInt32 := 0
  probe : UInt32 := 0
  current : UInt32 := 0
  interval : UInt32 := 100
  tsFlush : UInt32 := 100
  xmit : UInt32 := 0
  nodelay : UInt32 := 0
  updated : UInt32 := 0
  tsProbe : UInt32 := 0
  probeWait : UInt32 := 0
  deadLink : UInt32 := 20
  incr : UInt32 := 0
  sndQueue : List IkcpSegment := []
  rcvQueue : List IkcpSegment := []
  sndBuf : List IkcpSegment := []
  rcvBuf : List IkcpSegment := []
  acklist : List Ack := []
  fastresend : Int32 := 0
  fastlimit : Int32 := 5
  nocwnd : Int32 := 0
  stream : Int32 := 0

/-- `_itimediff` -/
def itimediff (later earlier : UInt32) : Int32 := (later - earlier).toInt32

section Decode

/-! The decoders return what they have read and the bytes behind it. -/

variable (host : Host) (p : List UInt8)

/-- `ikcp_decode8u` -/
def ikcpDecode8u : UInt8 × List UInt8 := (p.headD 0, p.drop 1)

/-- `ikcp_decode16u` -/
def ikcpDecode16u : UInt16 × List UInt8 :=
  if host.iwordsBigEndian || host.iwordsMustAlign then
    let w := (p.getD 1 0).toUInt16
    ((p.getD 0 0).toUInt16 + w <<< 8, p.drop 2)
  else (host.byteOrder.word16 (p.take 2), p.drop 2)

/-- `ikcp_decode32u` -/
def ikcpDecode32u : UInt32 × List UInt8 :=
  if host.iwordsBigEndian || host.iwordsMustAlign then
    let l := (p.getD 3 0).toUInt32
    let l := (p.getD 2 0).toUInt32 + l <<< 8
    let l := (p.getD 1 0).toUInt32 + l <<< 8
    ((p.getD 0 0).toUInt32 + l <<< 8, p.drop 4)
  else (host.byteOrder.word32 (p.take 4), p.drop 4)

/-- The eight calls of `ikcp_input` that read a header. -/
def ikcpDecodeSeg : IkcpSeg × List UInt8 :=
  let (conv, data) := ikcpDecode32u host p
  let (cmd, data) := ikcpDecode8u data
  let (frg, data) := ikcpDecode8u data
  let (wnd, data) := ikcpDecode16u host data
  let (ts, data) := ikcpDecode32u host data
  let (sn, data) := ikcpDecode32u host data
  let (una, data) := ikcpDecode32u host data
  let (len, data) := ikcpDecode32u host data
  ({ conv, cmd := cmd.toUInt32, frg := frg.toUInt32, wnd := wnd.toUInt32, ts, sn, una, len }, data)

end Decode

namespace Ikcpcb

/-- `nrcv_que`, which is counted up and down with the queue. -/
def nrcvQue (kcp : Ikcpcb) : UInt32 := UInt32.ofNat kcp.rcvQueue.length

section Receive

/-- The loop of `ikcp_peeksize`. -/
def peekLoop : List IkcpSegment → Int → Int
  | [], length => length
  | seg :: rest, length =>
    if seg.frg = 0 then length + seg.len.toNat else peekLoop rest (length + seg.len.toNat)

/-- `ikcp_peeksize` -/
def peeksize (kcp : Ikcpcb) : Int :=
  match kcp.rcvQueue with
  | [] => -1
  | seg :: _ =>
    if seg.frg = 0 then seg.len.toNat
    else if kcp.nrcvQue < seg.frg + 1 then -1
    else peekLoop kcp.rcvQueue 0

/-- The loop of `ikcp_recv` that copies data out and deletes segments. -/
def mergeLoop : List IkcpSegment → List UInt8 → List UInt8 × List IkcpSegment
  | [], written => (written, [])
  | seg :: rest, written =>
    let written := written ++ seg.data.take seg.len.toNat
    if seg.frg = 0 then (written, rest) else mergeLoop rest written

/-- The loop that moves data from `rcv_buf` to `rcv_queue`. -/
def moveLoop (rcvWnd : UInt32) :
    List IkcpSegment → List IkcpSegment → UInt32 → List IkcpSegment × List IkcpSegment × UInt32
  | [], rcvQueue, rcvNxt => ([], rcvQueue, rcvNxt)
  | seg :: rest, rcvQueue, rcvNxt =>
    if seg.sn = rcvNxt ∧ UInt32.ofNat rcvQueue.length < rcvWnd then
      moveLoop rcvWnd rest (rcvQueue ++ [seg]) (rcvNxt + 1)
    else (seg :: rest, rcvQueue, rcvNxt)

/-- That loop at the end of `ikcp_recv` and of `ikcp_parse_data`. -/
def moveReceived (kcp : Ikcpcb) : Ikcpcb :=
  let moved := moveLoop kcp.rcvWnd kcp.rcvBuf kcp.rcvQueue kcp.rcvNxt
  { kcp with rcvBuf := moved.1, rcvQueue := moved.2.1, rcvNxt := moved.2.2 }

/-- `ikcp_recv` with a length that is not negative: the bytes that it writes to the buffer,
or its error code. -/
def recv (kcp : Ikcpcb) (len : Nat) : Ikcpcb × Except Int (List UInt8) :=
  if kcp.rcvQueue.isEmpty then (kcp, .error (-1))
  else if kcp.peeksize < 0 then (kcp, .error (-2))
  else if kcp.peeksize > len then (kcp, .error (-3))
  else
    let recover := decide (kcp.nrcvQue ≥ kcp.rcvWnd)
    let merged := mergeLoop kcp.rcvQueue []
    let kcp := { kcp with rcvQueue := merged.2 }.moveReceived
    let kcp :=
      if kcp.nrcvQue < kcp.rcvWnd ∧ recover then { kcp with probe := kcp.probe ||| 2 } else kcp
    (kcp, .ok merged.1)

/-- `ikcp_parse_data`. The reverse search stops behind the last segment that is not newer;
a repeated segment is dropped. -/
def parseData (kcp : Ikcpcb) (newseg : IkcpSegment) : Ikcpcb :=
  if itimediff newseg.sn (kcp.rcvNxt + kcp.rcvWnd) ≥ 0 ∨ itimediff newseg.sn kcp.rcvNxt < 0 then kcp
  else
    let passed (seg : IkcpSegment) : Bool :=
      !(seg.sn == newseg.sn || decide (itimediff newseg.sn seg.sn > 0))
    let front := kcp.rcvBuf.rdropWhile passed
    let back := kcp.rcvBuf.rtakeWhile passed
    if front.getLast?.map (fun seg => seg.sn) = some newseg.sn then kcp.moveReceived
    else { kcp with rcvBuf := front ++ newseg :: back }.moveReceived

end Receive

section Send

/-- What `ikcp_send` appends to the last segment of the queue in streaming mode, with the
number of bytes that it has taken. -/
def extend (kcp : Ikcpcb) (buffer : List UInt8) : Ikcpcb × Nat :=
  match kcp.sndQueue.getLast? with
  | none => (kcp, 0)
  | some old =>
    if old.len.toNat < kcp.mss then
      let extend := min buffer.length (kcp.mss - old.len.toNat)
      ({ kcp with sndQueue := kcp.sndQueue.dropLast ++
          [{ len := old.len + UInt32.ofNat extend, frg := 0,
             data := old.data ++ buffer.take extend }] }, extend)
    else (kcp, 0)

/-- The loop of `ikcp_send`. `remaining` is `count - i`. -/
def fragmentLoop (mss : Nat) (stream : Int32) : Nat → List UInt8 → List IkcpSegment
  | 0, _ => []
  | remaining + 1, buffer =>
    let size := min buffer.length mss
    { len := UInt32.ofNat size, frg := if stream = 0 then UInt32.ofNat remaining else 0,
      data := buffer.take size } :: fragmentLoop mss stream remaining (buffer.drop size)

/-- `ikcp_send` with a buffer and a length that is not negative. -/
def send (kcp : Ikcpcb) (buffer : List UInt8) : Ikcpcb × Int :=
  let (kcp, sent) := if kcp.stream ≠ 0 then kcp.extend buffer else (kcp, 0)
  let buffer := buffer.drop sent
  if kcp.stream ≠ 0 ∧ buffer.length = 0 then (kcp, sent)
  else
    let count := if buffer.length ≤ kcp.mss then 1 else (buffer.length + kcp.mss - 1) / kcp.mss
    if count ≥ 128 then (kcp, if kcp.stream ≠ 0 ∧ sent > 0 then sent else -2)
    else
      ({ kcp with sndQueue := kcp.sndQueue ++ fragmentLoop kcp.mss kcp.stream count buffer },
        sent + buffer.length)

end Send

section Acknowledge

/-- The end of `ikcp_update_ack`. -/
def setRto (kcp : Ikcpcb) : Ikcpcb :=
  let rto := kcp.rxSrtt.toUInt32 + max kcp.interval (4 * kcp.rxRttval).toUInt32
  { kcp with rxRto := (min (max kcp.rxMinrto.toUInt32 rto) 60000).toInt32 }

/-- `ikcp_update_ack` -/
def updateAck (kcp : Ikcpcb) (rtt : Int32) : Ikcpcb :=
  let kcp :=
    if kcp.rxSrtt = 0 then { kcp with rxSrtt := rtt, rxRttval := rtt / 2 }
    else
      let delta : Int := (rtt - kcp.rxSrtt).toInt
      let delta := if delta < 0 then -delta else delta
      let rxRttval := Int32.ofInt (((3 * kcp.rxRttval).toInt + delta).tdiv 4)
      let rxSrtt := (7 * kcp.rxSrtt + rtt) / 8
      { kcp with rxRttval, rxSrtt := if rxSrtt < 1 then 1 else rxSrtt }
  kcp.setRto

/-- `ikcp_shrink_buf` -/
def shrinkBuf (kcp : Ikcpcb) : Ikcpcb :=
  match kcp.sndBuf with
  | seg :: _ => { kcp with sndUna := seg.sn }
  | [] => { kcp with sndUna := kcp.sndNxt }

/-- The test at the beginning of `ikcp_parse_ack` and `ikcp_parse_fastack`. -/
def inFlight (kcp : Ikcpcb) (sn : UInt32) : Bool :=
  !(decide (itimediff sn kcp.sndUna < 0) || decide (itimediff sn kcp.sndNxt ≥ 0))

/-- The loop of `ikcp_parse_ack`. -/
def parseAckLoop (sn : UInt32) : List IkcpSegment → List IkcpSegment
  | [] => []
  | seg :: rest =>
    if sn = seg.sn then rest
    else if itimediff sn seg.sn < 0 then seg :: rest
    else seg :: parseAckLoop sn rest

/-- `ikcp_parse_ack` -/
def parseAck (kcp : Ikcpcb) (sn : UInt32) : Ikcpcb :=
  if kcp.inFlight sn then { kcp with sndBuf := parseAckLoop sn kcp.sndBuf } else kcp

/-- The loop of `ikcp_parse_una`. -/
def parseUnaLoop (una : UInt32) : List IkcpSegment → List IkcpSegment
  | [] => []
  | seg :: rest => if itimediff una seg.sn > 0 then parseUnaLoop una rest else seg :: rest

/-- `ikcp_parse_una` -/
def parseUna (kcp : Ikcpcb) (una : UInt32) : Ikcpcb :=
  { kcp with sndBuf := parseUnaLoop una kcp.sndBuf }

/-- The loop of `ikcp_parse_fastack`, as it is without `IKCP_FASTACK_CONSERVE`. -/
def parseFastackLoop (sn : UInt32) : List IkcpSegment → List IkcpSegment
  | [] => []
  | seg :: rest =>
    if itimediff sn seg.sn < 0 then seg :: rest
    else if sn ≠ seg.sn then { seg with fastack := seg.fastack + 1 } :: parseFastackLoop sn rest
    else seg :: parseFastackLoop sn rest

/-- `ikcp_parse_fastack` -/
def parseFastack (kcp : Ikcpcb) (sn : UInt32) : Ikcpcb :=
  if kcp.inFlight sn then { kcp with sndBuf := parseFastackLoop sn kcp.sndBuf } else kcp

/-- `ikcp_ack_push` -/
def ackPush (kcp : Ikcpcb) (sn ts : UInt32) : Ikcpcb :=
  { kcp with acklist := kcp.acklist ++ [⟨sn, ts⟩] }

end Acknowledge

section Input

/-- `maxack` of `ikcp_input`, once its `flag` is set. -/
abbrev MaxAck := Option UInt32

/-- The `ACK` case of `ikcp_input`. -/
def inputAck (kcp : Ikcpcb) (seg : IkcpSeg) : Ikcpcb :=
  let kcp :=
    if itimediff kcp.current seg.ts ≥ 0 then kcp.updateAck (itimediff kcp.current seg.ts) else kcp
  (kcp.parseAck seg.sn).shrinkBuf

/-- The `PUSH` case of `ikcp_input`. -/
def inputPush (kcp : Ikcpcb) (seg : IkcpSeg) (data : List UInt8) : Ikcpcb :=
  if itimediff seg.sn (kcp.rcvNxt + kcp.rcvWnd) < 0 then
    let kcp := kcp.ackPush seg.sn seg.ts
    if itimediff seg.sn kcp.rcvNxt ≥ 0 then
      kcp.parseData { toIkcpSeg := seg, data := data.take seg.len.toNat }
    else kcp
  else kcp

/-- What `ikcp_input` does with a segment whose header it accepts. -/
def inputSegment (kcp : Ikcpcb) (seg : IkcpSeg) (data : List UInt8) : Ikcpcb :=
  let kcp := ({ kcp with rmtWnd := seg.wnd }.parseUna seg.una).shrinkBuf
  if seg.cmd = 82 then kcp.inputAck seg
  else if seg.cmd = 81 then kcp.inputPush seg data
  else if seg.cmd = 83 then { kcp with probe := kcp.probe ||| 2 }
  else kcp

/-- The greatest acknowledged number so far. -/
def noteAck (maxack : MaxAck) (seg : IkcpSeg) : MaxAck :=
  if seg.cmd = 82 then
    match maxack with
    | none => some seg.sn
    | some greatest => if itimediff seg.sn greatest > 0 then some seg.sn else some greatest
  else maxack

theorem length_decode8u (p : List UInt8) : (ikcpDecode8u p).2.length = p.length - 1 :=
  List.length_drop

theorem length_decode16u (host : Host) (p : List UInt8) :
    (ikcpDecode16u host p).2.length = p.length - 2 := by
  unfold ikcpDecode16u
  split_ifs <;> exact List.length_drop

theorem length_decode32u (host : Host) (p : List UInt8) :
    (ikcpDecode32u host p).2.length = p.length - 4 := by
  unfold ikcpDecode32u
  split_ifs <;> exact List.length_drop

theorem length_decodeSeg (host : Host) (p : List UInt8) :
    (ikcpDecodeSeg host p).2.length = p.length - 24 := by
  simp only [ikcpDecodeSeg, length_decode8u, length_decode16u, length_decode32u]
  omega

/-- The loop of `ikcp_input`, with the error code that it returns. -/
def inputLoop (host : Host) (kcp : Ikcpcb) (maxack : MaxAck) (data : List UInt8) :
    Ikcpcb × Except Int MaxAck :=
  if _h : data.length < 24 then (kcp, .ok maxack)
  else
    let header := ikcpDecodeSeg host data
    let seg := header.1
    if seg.conv ≠ kcp.conv then (kcp, .error (-1))
    else if header.2.length < seg.len.toNat ∨ seg.len.toInt32 < 0 then (kcp, .error (-2))
    else if seg.cmd ≠ 81 ∧ seg.cmd ≠ 82 ∧ seg.cmd ≠ 83 ∧ seg.cmd ≠ 84 then (kcp, .error (-3))
    else
      inputLoop host (kcp.inputSegment seg header.2) (noteAck maxack seg)
        (header.2.drop seg.len.toNat)
termination_by data.length
decreasing_by
  rw [List.length_drop, length_decodeSeg]
  omega

/-- The congestion window at the end of `ikcp_input`. -/
def growCwnd (kcp : Ikcpcb) : Ikcpcb :=
  if kcp.cwnd < kcp.rmtWnd then
    let mss := UInt32.ofNat kcp.mss
    let grown : Ikcpcb :=
      if kcp.cwnd < kcp.ssthresh then { kcp with cwnd := kcp.cwnd + 1, incr := kcp.incr + mss }
      else
        let incr := if kcp.incr < mss then mss else kcp.incr
        let incr := incr + (mss * mss / incr + mss / 16)
        { kcp with
          incr
          cwnd :=
            if (kcp.cwnd + 1) * mss ≤ incr then
              (incr + mss - 1) / (if mss > 0 then mss else 1)
            else kcp.cwnd }
    if grown.cwnd > grown.rmtWnd then
      { grown with cwnd := grown.rmtWnd, incr := grown.rmtWnd * mss }
    else grown
  else kcp

/-- What `ikcp_input` does behind its loop. -/
def finishInput (kcp : Ikcpcb) (prevUna : UInt32) (maxack : MaxAck) : Ikcpcb :=
  let kcp := maxack.elim kcp kcp.parseFastack
  if itimediff kcp.sndUna prevUna > 0 then kcp.growCwnd else kcp

/-- `ikcp_input` -/
def input (host : Host) (kcp : Ikcpcb) (data : List UInt8) : Ikcpcb × Int :=
  if data.length < 24 then (kcp, -1)
  else
    let prevUna := kcp.sndUna
    match inputLoop host kcp none data with
    | (kcp, .error code) => (kcp, code)
    | (kcp, .ok maxack) => (kcp.finishInput prevUna maxack, 0)

end Input

section Flush

/-- `ikcp_output` hands over what is not empty. -/
def output (sent : List (List UInt8)) (data : List UInt8) : List (List UInt8) :=
  if data.length = 0 then sent else sent ++ [data]

/-- The bytes between `buffer` and `ptr`, and all that `output` has been given. -/
structure Writer where
  pending : List UInt8 := []
  sent : List (List UInt8) := []

/-- The test in front of every segment: the buffer is handed over if the next one does not fit. -/
def Writer.makeRoom (writer : Writer) (mtu need : Nat) : Writer :=
  if writer.pending.length + need > mtu then ⟨[], output writer.sent writer.pending⟩ else writer

/-- A segment without data. -/
def Writer.putSeg (host : Host) (mtu : Nat) (seg : IkcpSeg) (writer : Writer) : Writer :=
  let writer := writer.makeRoom mtu 24
  { writer with pending := ikcpEncodeSeg host writer.pending seg }

/-- A segment with data. -/
def Writer.putSegment (host : Host) (mtu : Nat) (segment : IkcpSegment)
    (writer : Writer) : Writer :=
  let writer := writer.makeRoom mtu (24 + segment.len.toNat)
  { writer with
    pending := ikcpEncodeSeg host writer.pending segment.toIkcpSeg ++
      segment.data.take segment.len.toNat }

/-- `ikcp_wnd_unused` -/
def wndUnused (kcp : Ikcpcb) : UInt32 :=
  if kcp.nrcvQue < kcp.rcvWnd then kcp.rcvWnd - kcp.nrcvQue else 0

/-- The loop that flushes acknowledges. `seg` keeps the numbers of the last one. -/
def ackLoop (host : Host) (mtu : Nat) : List Ack → IkcpSeg → Writer → IkcpSeg × Writer
  | [], seg, writer => (seg, writer)
  | ack :: rest, seg, writer =>
    let seg := { seg with sn := ack.sn, ts := ack.ts }
    ackLoop host mtu rest seg (writer.putSeg host mtu seg)

/-- The part of `ikcp_flush` that probes the remote window. -/
def probeWindow (kcp : Ikcpcb) : Ikcpcb :=
  if kcp.rmtWnd = 0 then
    if kcp.probeWait = 0 then { kcp with probeWait := 7000, tsProbe := kcp.current + 7000 }
    else if itimediff kcp.current kcp.tsProbe ≥ 0 then
      let wait := if kcp.probeWait < 7000 then 7000 else kcp.probeWait
      let wait := wait + wait / 2
      let wait := if wait > 120000 then 120000 else wait
      { kcp with probeWait := wait, tsProbe := kcp.current + wait, probe := kcp.probe ||| 1 }
    else kcp
  else { kcp with tsProbe := 0, probeWait := 0 }

/-- The loop that moves data from `snd_queue` to `snd_buf`. -/
def admitLoop (conv wnd current rcvNxt cwnd sndUna : UInt32) (rxRto : Int32) :
    List IkcpSegment → List IkcpSegment → UInt32 → List IkcpSegment × List IkcpSegment × UInt32
  | [], sndBuf, sndNxt => ([], sndBuf, sndNxt)
  | newseg :: rest, sndBuf, sndNxt =>
    if itimediff sndNxt (sndUna + cwnd) < 0 then
      let newseg := { newseg with
        conv, cmd := 81, wnd, ts := current, sn := sndNxt, una := rcvNxt
        resendts := current, rto := rxRto.toUInt32, fastack := 0, xmit := 0 }
      admitLoop conv wnd current rcvNxt cwnd sndUna rxRto rest (sndBuf ++ [newseg]) (sndNxt + 1)
    else (newseg :: rest, sndBuf, sndNxt)

/-- What the loop over `snd_buf` changes beside the segments. -/
structure FlushLocals where
  writer : Writer
  xmit : UInt32
  state : UInt32
  change : UInt32 := 0
  lost : Bool := false

/-- The three cases in which a segment is sent. -/
def prepare (kcp : Ikcpcb) (resent : UInt32) (segment : IkcpSegment) (ctx : FlushLocals) :
    Bool × IkcpSegment × FlushLocals :=
  if segment.xmit = 0 then
    let rtomin := if kcp.nodelay = 0 then (kcp.rxRto >>> 3).toUInt32 else 0
    (true, { segment with
      xmit := segment.xmit + 1
      rto := kcp.rxRto.toUInt32
      resendts := kcp.current + kcp.rxRto.toUInt32 + rtomin }, ctx)
  else if itimediff kcp.current segment.resendts ≥ 0 then
    let step := if kcp.nodelay < 2 then segment.rto.toInt32 else kcp.rxRto
    let rto := segment.rto +
      if kcp.nodelay = 0 then max segment.rto kcp.rxRto.toUInt32 else (step / 2).toUInt32
    (true, { segment with xmit := segment.xmit + 1, rto, resendts := kcp.current + rto },
      { ctx with xmit := ctx.xmit + 1, lost := true })
  else if segment.fastack ≥ resent ∧ (segment.xmit.toInt32 ≤ kcp.fastlimit ∨ kcp.fastlimit ≤ 0) then
    (true, { segment with
      xmit := segment.xmit + 1, fastack := 0
      resendts := kcp.current + segment.rto },
      { ctx with change := ctx.change + 1 })
  else (false, segment, ctx)

/-- The loop over `snd_buf`. -/
def segmentLoop (host : Host) (kcp : Ikcpcb) (resent wnd : UInt32) :
    List IkcpSegment → FlushLocals → List IkcpSegment × FlushLocals
  | [], ctx => ([], ctx)
  | segment :: rest, ctx =>
    let (needsend, segment, ctx) := kcp.prepare resent segment ctx
    let segment :=
      if needsend then { segment with ts := kcp.current, wnd, una := kcp.rcvNxt } else segment
    let ctx : FlushLocals :=
      if needsend then { ctx with
        writer := ctx.writer.putSegment host kcp.mtu segment
        state := if segment.xmit ≥ kcp.deadLink then 0xffffffff else ctx.state }
      else ctx
    let (kept, ctx) := segmentLoop host kcp resent wnd rest ctx
    (segment :: kept, ctx)

/-- The end of `ikcp_flush`, where the window shrinks. -/
def shrinkCwnd (kcp : Ikcpcb) (resent cwnd : UInt32) (ctx : FlushLocals) : Ikcpcb :=
  let mss := UInt32.ofNat kcp.mss
  let kcp : Ikcpcb :=
    if ctx.change ≠ 0 then
      let ssthresh := (kcp.sndNxt - kcp.sndUna) / 2
      let ssthresh := if ssthresh < 2 then 2 else ssthresh
      { kcp with ssthresh, cwnd := ssthresh + resent, incr := (ssthresh + resent) * mss }
    else kcp
  let kcp : Ikcpcb :=
    if ctx.lost then
      let ssthresh := cwnd / 2
      { kcp with ssthresh := if ssthresh < 2 then 2 else ssthresh, cwnd := 1, incr := mss }
    else kcp
  if kcp.cwnd < 1 then { kcp with cwnd := 1, incr := mss } else kcp

/-- How often a segment must have been skipped. -/
def resent (kcp : Ikcpcb) : UInt32 :=
  if kcp.fastresend > 0 then kcp.fastresend.toUInt32 else 0xffffffff

/-- The first half of `ikcp_flush`, up to the probes. -/
def flushService (host : Host) (kcp : Ikcpcb) : Ikcpcb × Writer :=
  let seg : IkcpSeg := {
    conv := kcp.conv, cmd := 82, frg := 0, wnd := kcp.wndUnused
    ts := 0, sn := 0, una := kcp.rcvNxt, len := 0 }
  let (seg, writer) := ackLoop host kcp.mtu kcp.acklist seg {}
  let kcp := ({ kcp with acklist := [] } : Ikcpcb).probeWindow
  let (seg, writer) :=
    if (kcp.probe &&& 1) != 0 then
      let seg := { seg with cmd := 83 }
      (seg, writer.putSeg host kcp.mtu seg)
    else (seg, writer)
  let writer :=
    if (kcp.probe &&& 2) != 0 then writer.putSeg host kcp.mtu { seg with cmd := 84 } else writer
  ({ kcp with probe := 0 }, writer)

/-- The second half, with what it hands to `output`; `wnd` is the window in the headers. -/
def flushSegments (host : Host) (kcp : Ikcpcb) (wnd : UInt32) (writer : Writer) :
    Ikcpcb × List (List UInt8) :=
  let cwnd := min kcp.sndWnd kcp.rmtWnd
  let cwnd := if kcp.nocwnd = 0 then min kcp.cwnd cwnd else cwnd
  let (sndQueue, sndBuf, sndNxt) :=
    admitLoop kcp.conv wnd kcp.current kcp.rcvNxt cwnd kcp.sndUna kcp.rxRto kcp.sndQueue
      kcp.sndBuf kcp.sndNxt
  let kcp : Ikcpcb := { kcp with sndQueue, sndNxt }
  let resent := kcp.resent
  let (sndBuf, ctx) :=
    segmentLoop host kcp resent wnd sndBuf { writer, xmit := kcp.xmit, state := kcp.state }
  let kcp : Ikcpcb := { kcp with sndBuf, xmit := ctx.xmit, state := ctx.state }
  (kcp.shrinkCwnd resent cwnd ctx, output ctx.writer.sent ctx.writer.pending)

/-- `ikcp_flush` -/
def flush (host : Host) (kcp : Ikcpcb) : Ikcpcb × List (List UInt8) :=
  if kcp.updated = 0 then (kcp, [])
  else
    let wnd := kcp.wndUnused
    let (kcp, writer) := kcp.flushService host
    kcp.flushSegments host wnd writer

/-- The clock work of `ikcp_update`, and whether it flushes. -/
def updateClock (kcp : Ikcpcb) (current : UInt32) : Ikcpcb × Bool :=
  let kcp := { kcp with current }
  let kcp : Ikcpcb := if kcp.updated = 0 then { kcp with updated := 1, tsFlush := current } else kcp
  let slap := itimediff current kcp.tsFlush
  let jumped := slap ≥ 10000 ∨ slap < -10000
  let kcp : Ikcpcb := if jumped then { kcp with tsFlush := current } else kcp
  let slap := if jumped then 0 else slap
  if slap ≥ 0 then
    let tsFlush := kcp.tsFlush + kcp.interval
    ({ kcp with
      tsFlush := if itimediff current tsFlush ≥ 0 then current + kcp.interval else tsFlush }, true)
  else (kcp, false)

/-- `ikcp_update` -/
def update (host : Host) (kcp : Ikcpcb) (current : UInt32) : Ikcpcb × List (List UInt8) :=
  let (kcp, due) := kcp.updateClock current
  if due then kcp.flush host else (kcp, [])

/-- The loop of `ikcp_check`, with `tm_packet`, or nothing where the function returns in it. -/
def checkLoop (current : UInt32) : List IkcpSegment → Int32 → Option Int32
  | [], tmPacket => some tmPacket
  | seg :: rest, tmPacket =>
    let diff := itimediff seg.resendts current
    if diff ≤ 0 then none else checkLoop current rest (if diff < tmPacket then diff else tmPacket)

/-- `ikcp_check` -/
def check (kcp : Ikcpcb) (current : UInt32) : UInt32 :=
  if kcp.updated = 0 then current
  else
    let tsFlush :=
      if itimediff current kcp.tsFlush ≥ 10000 ∨ itimediff current kcp.tsFlush < -10000 then current
      else kcp.tsFlush
    if itimediff current tsFlush ≥ 0 then current
    else
      let tmFlush := itimediff tsFlush current
      match checkLoop current kcp.sndBuf 0x7fffffff with
      | none => current
      | some tmPacket =>
        let minimal := (if tmPacket < tmFlush then tmPacket else tmFlush).toUInt32
        current + if minimal ≥ kcp.interval then kcp.interval else minimal

end Flush

section Setters

/-- `ikcp_create` -/
def create (conv : UInt32) : Ikcpcb := { conv }

/-- `ikcp_setmtu`; the allocation succeeds. -/
def setmtu (kcp : Ikcpcb) (mtu : Nat) : Ikcpcb × Int :=
  if mtu < 50 ∨ mtu < 24 then (kcp, -1) else ({ kcp with mtu, mss := mtu - 24 }, 0)

/-- `ikcp_wndsize` -/
def wndsize (kcp : Ikcpcb) (sndwnd rcvwnd : Int32) : Ikcpcb :=
  let kcp : Ikcpcb := if sndwnd > 0 then { kcp with sndWnd := sndwnd.toUInt32 } else kcp
  if rcvwnd > 0 then { kcp with rcvWnd := max rcvwnd.toUInt32 128 } else kcp

/-- `ikcp_nodelay` -/
def setNodelay (kcp : Ikcpcb) (nodelay interval resend nc : Int32) : Ikcpcb :=
  let kcp : Ikcpcb :=
    if nodelay ≥ 0 then
      { kcp with nodelay := nodelay.toUInt32, rxMinrto := if nodelay ≠ 0 then 30 else 100 }
    else kcp
  let kcp : Ikcpcb :=
    if interval ≥ 0 then
      { kcp with interval :=
          (if interval > 5000 then 5000
          else if interval < 10 then 10 else interval : Int32).toUInt32 }
    else kcp
  let kcp : Ikcpcb := if resend ≥ 0 then { kcp with fastresend := resend } else kcp
  if nc ≥ 0 then { kcp with nocwnd := nc } else kcp

end Setters

end Ikcpcb
end Imkcpp
