import Imkcpp.Execution
import Imkcpp.Ikcp

/-! The state of the reference implementation that stands for the state of an endpoint.
Three parameters are counted differently: fast retransmission begins one skip later than
`fastresend` says, and ends one transmission before `fastlimit`; and the remote window
has another value until the first segment arrives. -/
namespace Imkcpp

variable {mtu : Mtu}

/-- A segment as the reference implementation holds it. -/
def Segment.toIkcp (seg : Segment) : IkcpSegment where
  toIkcpSeg := seg.header.toIkcpSeg
  resendts := seg.metadata.resendts
  rto := seg.metadata.rto
  fastack := seg.metadata.fastack
  xmit := seg.metadata.xmit
  data := seg.data

/-- `fastresend` as the reference implementation counts it. -/
def ikcpFastresend (fastresend : UInt32) : Int32 :=
  if fastresend = 0 then 0 else (fastresend + 1).toInt32

/-- `fastlimit` as the reference implementation counts it. -/
def ikcpFastlimit (fastlimit : UInt32) : Int32 :=
  if fastlimit = 0 then 0 else (fastlimit - 1).toInt32

def State.ikcp : State → UInt32
  | .alive => 0
  | .deadLink => 0xffffffff

/-- What the reference implementation keeps for itself as long as its congestion window is
switched off. -/
structure Aside where
  rmtWnd : UInt32
  ssthresh : UInt32
  cwnd : UInt32
  incr : UInt32

namespace ImKcpp

/-- The control block in the place of an endpoint without a congestion window. -/
def toIkcpcb (s : ImKcpp mtu) (aside : Aside) : Ikcpcb where
  conv := s.sharedCtx.conv
  mtu := mtu.bytes
  mss := mtu.maxSegmentSize
  state := s.sharedCtx.state.ikcp
  sndUna := s.segmentTracker.sndUna
  sndNxt := s.segmentTracker.sndNxt
  rcvNxt := s.receiver.rcvNxt
  ssthresh := aside.ssthresh
  rxRttval := s.rtoCalculator.rttvar.toInt32
  rxSrtt := s.rtoCalculator.srtt.toInt32
  rxRto := s.rtoCalculator.rto.toInt32
  rxMinrto := s.rtoCalculator.minrto.toInt32
  sndWnd := s.congestionController.sndWnd
  rcvWnd := s.congestionController.rcvWnd
  rmtWnd := aside.rmtWnd
  cwnd := aside.cwnd
  probe := s.windowProber.probe
  current := s.current
  interval := s.sharedCtx.interval
  tsFlush := s.tsFlush
  xmit := s.sender.xmit
  nodelay := s.sender.nodelay
  updated := if s.updated then 1 else 0
  tsProbe := s.windowProber.tsProbe
  probeWait := s.windowProber.probeWait
  deadLink := s.sender.deadLink
  incr := aside.incr
  sndQueue := s.sender.sndQueue.map Segment.toIkcp
  rcvQueue := s.receiver.rcvQueue.map Segment.toIkcp
  sndBuf := s.senderBuffer.sndBuf.map Segment.toIkcp
  rcvBuf := s.receiver.rcvBuf.map Segment.toIkcp
  acklist := s.ackController.acklist
  fastresend := ikcpFastresend s.sender.fastresend
  fastlimit := ikcpFastlimit s.sender.fastlimit
  nocwnd := 1
  stream := 0

theorem updated_toIkcpcb (s : ImKcpp mtu) (aside : Aside) :
    (s.toIkcpcb aside).updated = 0 ↔ s.updated = false := by
  change (if s.updated = true then (1 : UInt32) else 0) = 0 ↔ s.updated = false
  cases s.updated with
  | false => exact iff_of_true rfl rfl
  | true => exact iff_of_false (by decide) (by decide)

/-- The remote windows agree, or no segment has arrived: then neither restrains the sender. -/
def WindowsAgree (s : ImKcpp mtu) (aside : Aside) : Prop :=
  aside.rmtWnd = s.congestionController.rmtWnd ∨
    aside.rmtWnd = 128 ∧ s.congestionController.rmtWnd = s.congestionController.sndWnd ∧
      0 < s.congestionController.sndWnd ∧ s.congestionController.sndWnd ≤ 128

end ImKcpp

/-- What the reference implementation returns where this one returns an error; no error in
the last line has a counterpart. -/
def Error.code : Error → Int
  | .queueEmpty | .lessThanHeaderSize | .convMismatch => -1
  | .waitingForFragment | .headerAndPayloadLengthMismatch | .tooManyFragments => -2
  | .bufferTooSmall | .unknownCommand => -3
  | .none | .peekError | .exceedsWindowSize => 0

theorem toUInt32_eq_zero_iff (n : UInt8) : n.toUInt32 = 0 ↔ n = 0 := by
  rw [← UInt32.toNat_inj, ← UInt8.toNat_inj]
  rfl

end Imkcpp
