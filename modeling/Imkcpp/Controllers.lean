import Imkcpp.Types

/-! The components that hold timers and windows: `SharedCtx`, `RtoCalculator`,
`CongestionController` and `WindowProber`. Their arithmetic is that of the
source's types, with the wrap of two's complement wherever an `i32` overflows. -/
namespace Imkcpp

structure SharedCtx where
  state : State := .alive
  conv : UInt32 := 0
  interval : UInt32 := Constants.ikcpInterval
  deriving DecidableEq

structure RtoCalculator where
  interval : UInt32 := 0
  srtt : UInt32 := 0
  rttvar : UInt32 := 0
  rto : UInt32 := Constants.ikcpRtoDef
  lastRtt : UInt32 := 0
  minrto : UInt32 := Constants.ikcpRtoMin
  maxrto : UInt32 := Constants.ikcpRtoMax
  deriving DecidableEq

/-- `RtoCalculator::update_rto`. A sample from the future is ignored. -/
def RtoCalculator.updateRto (rc : RtoCalculator) (current ts : UInt32) : RtoCalculator :=
  let rtt := timeDelta current ts
  if rtt < 0 then rc
  else
    let rc := { rc with lastRtt := rtt.toUInt32 }
    let rc :=
      if rc.srtt == 0 then
        -- First measurement
        { rc with srtt := rtt.toUInt32, rttvar := (rtt / 2).toUInt32 }
      else
        let delta := Int32.abs (rtt - rc.srtt.toInt32)
        { rc with
          rttvar := (3 * rc.rttvar + delta.toUInt32) / 4
          srtt := (7 * rc.srtt + rtt.toUInt32) / 8 }
    let rto := rc.srtt + max rc.interval (4 * rc.rttvar)
    { rc with rto := clamp rto rc.minrto rc.maxrto }

structure CongestionController where
  congestionWindow : Bool := true
  rcvWnd : UInt32 := Constants.ikcpWndRcv
  rmtWnd : UInt32 := Constants.ikcpWndSnd
  sndWnd : UInt32 := Constants.ikcpWndSnd
  ssthresh : UInt32 := Constants.ikcpThreshInit
  cwnd : UInt32 := 0
  incr : UInt32 := 0
  deriving DecidableEq

namespace CongestionController

/-- `CongestionController::set_receive_window` never goes below the default. -/
def setReceiveWindow (cc : CongestionController) (rcvWnd : UInt32) : CongestionController :=
  { cc with rcvWnd := max rcvWnd Constants.ikcpWndRcv }

/-- `CongestionController::fits_receive_window`, a plain `u32` comparison. -/
def fitsReceiveWindow (cc : CongestionController) (rcvNxt sn : UInt32) : Bool :=
  decide (sn < rcvNxt + cc.rcvWnd)

/-- `MAX_SEGMENT_SIZE` as the `size_t` operand of the window arithmetic. -/
def maxSegmentSize (mtu : Mtu) : UInt64 := UInt64.ofNat mtu.maxSegmentSize

/-- `CongestionController::packets_resent` -/
def packetsResent (mtu : Mtu) (cc : CongestionController) (packetsInFlight resent : UInt32) :
    CongestionController :=
  let ssthresh := max (packetsInFlight / 2) Constants.ikcpThreshMin
  let cwnd := ssthresh + resent
  { cc with ssthresh, cwnd, incr := (cwnd.toUInt64 * maxSegmentSize mtu).toUInt32 }

/-- `CongestionController::packet_lost` -/
def packetLost (mtu : Mtu) (cc : CongestionController) : CongestionController :=
  { cc with
    ssthresh := max (cc.cwnd / 2) Constants.ikcpThreshMin
    cwnd := 1
    incr := (maxSegmentSize mtu).toUInt32 }

/-- The congestion-avoidance branch of `CongestionController::adjust_parameters`. -/
def avoidCongestion (mtu : Mtu) (cc : CongestionController) : CongestionController :=
  let mss := maxSegmentSize mtu
  let incr := if cc.incr.toUInt64 < mss then mss.toUInt32 else cc.incr
  let incr := (incr.toUInt64 + ((mss * mss) / incr.toUInt64 + mss / 16)).toUInt32
  let cwnd :=
    if (cc.cwnd + 1).toUInt64 * mss ≤ incr.toUInt64 then
      ((incr.toUInt64 + mss - 1) / mss).toUInt32
    else cc.cwnd
  { cc with cwnd, incr }

/-- `CongestionController::adjust_parameters` -/
def adjustParameters (mtu : Mtu) (cc : CongestionController) : CongestionController :=
  if cc.cwnd < cc.rmtWnd then
    let cc :=
      if cc.cwnd < cc.ssthresh then
        { cc with
          cwnd := cc.cwnd + 1
          incr := (cc.incr.toUInt64 + maxSegmentSize mtu).toUInt32 }
      else cc.avoidCongestion mtu
    if cc.cwnd > cc.rmtWnd then
      { cc with cwnd := cc.rmtWnd, incr := (cc.rmtWnd.toUInt64 * maxSegmentSize mtu).toUInt32 }
    else cc
  else cc

/-- An acknowledgement makes the congestion window grow and changes nothing else. -/
theorem adjustParameters_eq (mtu : Mtu) (cc : CongestionController) :
    ∃ cwnd incr, cc.adjustParameters mtu = { cc with cwnd, incr } := by
  unfold adjustParameters avoidCongestion
  dsimp only
  split_ifs <;> exact ⟨_, _, rfl⟩

theorem adjustParameters_rcvWnd (mtu : Mtu) (cc : CongestionController) :
    (cc.adjustParameters mtu).rcvWnd = cc.rcvWnd := by
  obtain ⟨cwnd, incr, hController⟩ := adjustParameters_eq mtu cc
  rw [hController]

/-- `CongestionController::ensure_at_least_one_packet_in_flight` -/
def ensureAtLeastOnePacketInFlight (mtu : Mtu) (cc : CongestionController) :
    CongestionController :=
  if cc.cwnd < 1 then { cc with cwnd := 1, incr := (maxSegmentSize mtu).toUInt32 } else cc

/-- `CongestionController::calculate_congestion_window` -/
def calculateCongestionWindow (cc : CongestionController) : UInt32 :=
  let cwnd := min cc.sndWnd cc.rmtWnd
  if cc.congestionWindow then min cc.cwnd cwnd else cwnd

end CongestionController

/-- `enum class ProbeFlag` -/
inductive ProbeFlag where
  | askSend
  | askTell
  deriving DecidableEq

def ProbeFlag.value : ProbeFlag → UInt32
  | askSend => 0x1
  | askTell => 0x2

structure WindowProber where
  probe : UInt32 := 0
  tsProbe : UInt32 := 0
  probeWait : UInt32 := 0
  deriving DecidableEq

namespace WindowProber

def probeInit : UInt32 := 7000
def probeLimit : UInt32 := 120000

/-- The assertion shared by `set_flag` and `has_flag`. -/
def assertFlag (flag : ProbeFlag) : Except Fault Unit :=
  assert .windowProber (flag.value ≥ ProbeFlag.askSend.value ∧ flag.value ≤ ProbeFlag.askTell.value)

@[simp] theorem assertFlag_eq (flag : ProbeFlag) : assertFlag flag = .ok () := by
  cases flag <;> rfl

/-- `WindowProber::set_flag` -/
def setFlag (prober : WindowProber) (flag : ProbeFlag) : Except Fault WindowProber := do
  assertFlag flag
  return { prober with probe := prober.probe ||| flag.value }

/-- `WindowProber::has_flag` -/
def hasFlag (prober : WindowProber) (flag : ProbeFlag) : Except Fault Bool := do
  assertFlag flag
  return (prober.probe &&& flag.value) != 0

/-- `WindowProber::update` -/
def update (prober : WindowProber) (current rmtWnd : UInt32) : Except Fault WindowProber :=
  if rmtWnd != 0 then .ok { prober with tsProbe := 0, probeWait := 0 }
  else if prober.probeWait == 0 then
    .ok { prober with probeWait := probeInit, tsProbe := current + probeInit }
  else if timeDelta current prober.tsProbe ≥ 0 then
    let wait := if prober.probeWait < probeInit then probeInit else prober.probeWait
    let wait := wait + wait / 2
    let wait := if wait > probeLimit then probeLimit else wait
    { prober with probeWait := wait, tsProbe := current + wait }.setFlag .askSend
  else .ok prober

/-- `WindowProber::reset_flags` -/
def resetFlags (prober : WindowProber) : WindowProber := { prober with probe := 0 }

@[simp] theorem setFlag_eq (prober : WindowProber) (flag : ProbeFlag) :
    prober.setFlag flag = .ok { prober with probe := prober.probe ||| flag.value } := by
  simp [setFlag]

@[simp] theorem hasFlag_eq (prober : WindowProber) (flag : ProbeFlag) :
    prober.hasFlag flag = .ok ((prober.probe &&& flag.value) != 0) := by
  simp [hasFlag]

/-- Updating the prober meets no assertion. -/
theorem update_isOk (prober : WindowProber) (current rmtWnd : UInt32) :
    ∃ next, prober.update current rmtWnd = .ok next := by
  unfold update
  split_ifs
  all_goals exact ⟨_, rfl⟩

end WindowProber
end Imkcpp
