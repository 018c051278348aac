import Imkcpp.Controllers
import Imkcpp.Library.ByteWindow
import Imkcpp.Library.Transition

/-! The congestion window as a window with a byte counter. As long as the counter has room
in its word, `adjust_parameters` is the growth step of such a window; every operation
keeps the counter within a segment of the window, and that bounds the step. -/
namespace Imkcpp

open ByteWindow Transition

namespace CongestionController

variable {mtu : Mtu}

/-- The congestion window with its counter. -/
def window (cc : CongestionController) : Window := ⟨cc.cwnd.toNat, cc.incr.toNat⟩

/-- The operations that change a controller. -/
inductive Operation where
  | setCongestionWindowEnabled (state : Bool)
  | setReceiveWindow (rcvWnd : UInt32)
  | setRemoteWindow (rmtWnd : UInt32)
  | setSendWindow (sndWnd : UInt32)
  | packetsResent (packetsInFlight resent : UInt32)
  | packetLost
  | adjustParameters
  | ensureAtLeastOnePacketInFlight

/-- Windows have sixteen bits on the wire, and so has the count of the acknowledgements
that call for a retransmission. -/
def Operation.Allowed : Operation → Prop
  | .setReceiveWindow window => window ≤ 65535
  | .setRemoteWindow window => window ≤ 65535
  | .setSendWindow window => window ≤ 65535
  | .packetsResent _ resent => resent ≤ 65535
  | _ => True

def apply (mtu : Mtu) (cc : CongestionController) : Operation → CongestionController
  | .setCongestionWindowEnabled congestionWindow => { cc with congestionWindow }
  | .setReceiveWindow rcvWnd => cc.setReceiveWindow rcvWnd
  | .setRemoteWindow rmtWnd => { cc with rmtWnd }
  | .setSendWindow sndWnd => { cc with sndWnd }
  | .packetsResent packetsInFlight resent => cc.packetsResent mtu packetsInFlight resent
  | .packetLost => cc.packetLost mtu
  | .adjustParameters => cc.adjustParameters mtu
  | .ensureAtLeastOnePacketInFlight => cc.ensureAtLeastOnePacketInFlight mtu

/-- A fresh controller, on which any operations are made. -/
def controllerSystem (mtu : Mtu) : System CongestionController where
  init cc := cc = {}
  step cc next := ∃ operation : Operation, operation.Allowed ∧ next = cc.apply mtu operation

section Refinement

variable {cc : CongestionController}

theorem toNat_maxSegmentSize (h : mtu.maxSegmentSize < 2 ^ 32) :
    (maxSegmentSize mtu).toNat = mtu.maxSegmentSize := by
  rw [maxSegmentSize, UInt64.toNat_ofNat', Nat.mod_eq_of_lt (by omega)]

theorem toNat_oneSegment (h : mtu.maxSegmentSize < 2 ^ 32) :
    (maxSegmentSize mtu).toUInt32.toNat = mtu.maxSegmentSize := by
  rw [UInt64.toNat_toUInt32, toNat_maxSegmentSize h, Nat.mod_eq_of_lt h]

/-- The counter of so many segments, as the code computes it. -/
theorem toNat_counter (segments : UInt32) (hRoom : segments.toNat * mtu.maxSegmentSize < 2 ^ 32) :
    (segments.toUInt64 * maxSegmentSize mtu).toUInt32.toNat = segments.toNat *
      mtu.maxSegmentSize := by
  rw [UInt64.toNat_toUInt32, UInt64.toNat_mul, UInt32.toNat_toUInt64]
  rcases Nat.eq_zero_or_pos segments.toNat with hZero | hPositive
  · rw [hZero, Nat.zero_mul, Nat.zero_mul, Nat.zero_mod]
  · rw [toNat_maxSegmentSize ((Nat.le_mul_of_pos_left _ hPositive).trans_lt hRoom)]
    omega

/-- The counter that avoidance computes, when its word has room. -/
theorem toNat_advance (hReached : mtu.maxSegmentSize ≤ cc.incr.toNat)
    (hRoom : Window.advance mtu.maxSegmentSize cc.incr.toNat < 2 ^ 32) :
    (cc.incr.toUInt64 + ((maxSegmentSize mtu * maxSegmentSize mtu) / cc.incr.toUInt64 +
        maxSegmentSize mtu / 16)).toUInt32.toNat =
          Window.advance mtu.maxSegmentSize cc.incr.toNat := by
  have hLt := hReached.trans_lt cc.incr.toNat_lt
  have hSquare : mtu.maxSegmentSize * mtu.maxSegmentSize < 2 ^ 64 :=
    (Nat.mul_lt_mul'' hLt hLt).trans_eq (Nat.pow_add 2 32 32).symm
  have hSixteen : (16 : UInt64).toNat = 16 := rfl
  unfold Window.advance at hRoom ⊢
  rw [UInt64.toNat_toUInt32, UInt64.toNat_add, UInt64.toNat_add, UInt64.toNat_div, UInt64.toNat_div,
    UInt64.toNat_mul, UInt32.toNat_toUInt64, toNat_maxSegmentSize hLt, hSixteen,
    Nat.mod_eq_of_lt hSquare]
  generalize mtu.maxSegmentSize * mtu.maxSegmentSize / cc.incr.toNat = quotient at hRoom ⊢
  omega

/-- The rounded-up quotient is no more than the counter. -/
theorem toNat_roundedUp {counter : UInt32} (hMss : mtu.maxSegmentSize < 2 ^ 32) :
    ((counter.toUInt64 + maxSegmentSize mtu - 1) / maxSegmentSize mtu).toUInt32.toNat =
      (counter.toNat + mtu.maxSegmentSize - 1) / mtu.maxSegmentSize := by
  have hPositive := mtu.maxSegmentSize_pos
  have hCounter := counter.toNat_lt
  have hSize : (maxSegmentSize mtu).toNat = mtu.maxSegmentSize := toNat_maxSegmentSize hMss
  have hOne : (1 : UInt64).toNat = 1 := rfl
  have hQuotient : (counter.toNat + mtu.maxSegmentSize - 1) / mtu.maxSegmentSize ≤
      counter.toNat := by
    rw [← Nat.lt_succ_iff, Nat.div_lt_iff_lt_mul hPositive, Nat.succ_mul]
    have hLe := Nat.le_mul_of_pos_right counter.toNat hPositive
    omega
  have hAdd : (counter.toUInt64 + maxSegmentSize mtu).toNat = counter.toNat +
      mtu.maxSegmentSize := by
    rw [UInt64.toNat_add, UInt32.toNat_toUInt64, hSize, Nat.mod_eq_of_lt (by omega)]
  have hSub : (counter.toUInt64 + maxSegmentSize mtu - 1).toNat =
      counter.toNat + mtu.maxSegmentSize - 1 := by
    rw [UInt64.toNat_sub_of_le, hAdd, hOne]
    rw [UInt64.le_iff_toNat_le, hAdd, hOne]
    omega
  rw [UInt64.toNat_toUInt32, UInt64.toNat_div, hSub, hSize, Nat.mod_eq_of_lt (by omega)]

/-- In avoidance, the words have room for what the counter and the window become. -/
theorem avoidCongestion_window (hBalanced : cc.window.Balanced mtu.maxSegmentSize)
    (hTwo : 2 ≤ cc.cwnd.toNat) (hRoom : (cc.cwnd.toNat + 3) * mtu.maxSegmentSize < 2 ^ 32) :
    (cc.avoidCongestion mtu).window = cc.window.avoid mtu.maxSegmentSize := by
  have hPositive := mtu.maxSegmentSize_pos
  obtain ⟨hMax, hGrown, hBelow⟩ := hBalanced.advance_bounds hPositive hTwo
  have hReached : mtu.maxSegmentSize ≤ cc.incr.toNat := (Nat.le_max_left _ _).trans_eq hMax
  have hSize : (maxSegmentSize mtu).toNat = mtu.maxSegmentSize :=
    toNat_maxSegmentSize (hReached.trans_lt cc.incr.toNat_lt)
  have hIncr : ¬cc.incr.toUInt64 < maxSegmentSize mtu := by
    rw [UInt64.lt_iff_toNat_lt, hSize, UInt32.toNat_toUInt64]
    omega
  have hSegment : cc.cwnd.toNat + 3 ≤ (cc.cwnd.toNat + 3) * mtu.maxSegmentSize :=
    Nat.le_mul_of_pos_right _ hPositive
  have hSum : (cc.cwnd + 1).toNat = cc.cwnd.toNat + 1 := by
    rw [UInt32.toNat_add, UInt32.toNat_one, Nat.mod_eq_of_lt (by omega)]
  change Window.advance mtu.maxSegmentSize cc.incr.toNat < (cc.cwnd.toNat + 2) *
    mtu.maxSegmentSize at hBelow
  simp only [Nat.add_mul] at hRoom hBelow
  have hAdvance := toNat_advance hReached (by omega)
  have hTest : (cc.cwnd + 1).toUInt64 * maxSegmentSize mtu ≤ (cc.incr.toUInt64 +
      ((maxSegmentSize mtu * maxSegmentSize mtu) / cc.incr.toUInt64 +
        maxSegmentSize mtu / 16)).toUInt32.toUInt64 ↔
      (cc.cwnd.toNat + 1) * mtu.maxSegmentSize ≤
        Window.advance mtu.maxSegmentSize cc.incr.toNat := by
    rw [UInt64.le_iff_toNat_le, UInt64.toNat_mul, UInt32.toNat_toUInt64, UInt32.toNat_toUInt64,
      hSize, hSum, hAdvance, Nat.mod_eq_of_lt]
    rw [Nat.add_mul]
    omega
  unfold avoidCongestion
  dsimp only
  rw [if_neg hIncr]
  unfold window Window.avoid
  dsimp only
  rw [Nat.max_eq_right hReached, hAdvance]
  congr 1
  by_cases hNextSegment : (cc.cwnd.toNat + 1) * mtu.maxSegmentSize ≤
      Window.advance mtu.maxSegmentSize cc.incr.toNat
  · rw [if_pos (hTest.mpr hNextSegment), if_pos hNextSegment, toNat_roundedUp (by omega), hAdvance]
  · rw [if_neg fun hWord => hNextSegment (hTest.mp hWord), if_neg hNextSegment]

theorem start_window (hBalanced : cc.window.Balanced mtu.maxSegmentSize)
    (hRoom : (cc.cwnd.toNat + 3) * mtu.maxSegmentSize < 2 ^ 32) :
    window { cc with
      cwnd := cc.cwnd + 1
      incr := (cc.incr.toUInt64 + maxSegmentSize mtu).toUInt32 } =
        cc.window.start mtu.maxSegmentSize := by
  have hSegment : cc.cwnd.toNat + 3 < 2 ^ 32 :=
    (Nat.le_mul_of_pos_right _ mtu.maxSegmentSize_pos).trans_lt hRoom
  have hCounter : cc.incr.toNat ≤ (cc.cwnd.toNat + 1) * mtu.maxSegmentSize := by
    rcases hBalanced with ⟨-, hBytes⟩ | ⟨-, -, hBytes⟩
    · exact (show cc.incr.toNat = 0 from hBytes).trans_le (Nat.zero_le _)
    · exact Nat.le_of_lt hBytes
  simp only [Nat.add_mul] at hRoom hCounter
  have hSize : (maxSegmentSize mtu).toNat = mtu.maxSegmentSize := toNat_maxSegmentSize (by omega)
  unfold window Window.start
  dsimp only
  rw [UInt32.toNat_add, UInt32.toNat_one, UInt64.toNat_toUInt32, UInt64.toNat_add,
    UInt32.toNat_toUInt64, hSize]
  congr 1
  · omega
  · omega

/-- Cutting off at the remote window. -/
theorem cap_window (cc : CongestionController)
    (hRoom : cc.rmtWnd < cc.cwnd → cc.rmtWnd.toNat * mtu.maxSegmentSize < 2 ^ 32) :
    window (if cc.cwnd > cc.rmtWnd then { cc with
        cwnd := cc.rmtWnd
        incr := (cc.rmtWnd.toUInt64 * maxSegmentSize mtu).toUInt32 } else cc) =
      cc.window.cap mtu.maxSegmentSize cc.rmtWnd.toNat := by
  have hTest : cc.cwnd > cc.rmtWnd ↔ cc.window.segments > cc.rmtWnd.toNat := UInt32.lt_iff_toNat_lt
  unfold Window.cap
  by_cases hAbove : cc.cwnd > cc.rmtWnd
  · rw [if_pos hAbove, if_pos (hTest.mp hAbove), Window.full, ← toNat_counter _ (hRoom hAbove)]
    rfl
  · rw [if_neg hAbove, if_neg fun hWord => hAbove (hTest.mpr hWord)]

/-- `adjust_parameters` is a growth step, as long as the counter has room for it. -/
theorem adjustParameters_window (hBalanced : cc.window.Balanced mtu.maxSegmentSize)
    (hThreshold : 2 ≤ cc.ssthresh.toNat)
    (hRoom : cc.cwnd < cc.rmtWnd → (cc.cwnd.toNat + 3) * mtu.maxSegmentSize < 2 ^ 32) :
    (cc.adjustParameters mtu).window =
      cc.window.grow mtu.maxSegmentSize cc.rmtWnd.toNat cc.ssthresh.toNat := by
  have hPositive := mtu.maxSegmentSize_pos
  have hLess (limit : UInt32) : cc.cwnd < limit ↔ cc.window.segments < limit.toNat :=
    UInt32.lt_iff_toNat_lt
  unfold adjustParameters Window.grow
  by_cases hLimit : cc.cwnd < cc.rmtWnd
  · rw [if_pos hLimit, if_pos ((hLess _).mp hLimit)]
    have hRoom := hRoom hLimit
    have hRemote (next : UInt32) (hNext : next.toNat ≤ cc.cwnd.toNat + 2)
        (hAbove : cc.rmtWnd < next) :
        cc.rmtWnd.toNat * mtu.maxSegmentSize < 2 ^ 32 := by
      rw [UInt32.lt_iff_toNat_lt] at hAbove
      exact (Nat.mul_le_mul_right _ (by omega)).trans_lt hRoom
    dsimp only
    by_cases hStart : cc.cwnd < cc.ssthresh
    · have hWindow := start_window hBalanced hRoom
      rw [if_pos hStart, if_pos ((hLess _).mp hStart), ← hWindow]
      refine cap_window { cc with
        cwnd := cc.cwnd + 1
        incr := (cc.incr.toUInt64 + maxSegmentSize mtu).toUInt32 } (hRemote _ ?_)
      have hSegments : (cc.cwnd + 1).toNat = cc.cwnd.toNat + 1 := congrArg Window.segments hWindow
      dsimp only
      omega
    · have hTwo : 2 ≤ cc.cwnd.toNat :=
        hThreshold.trans (UInt32.le_iff_toNat_le.mp (UInt32.not_lt.mp hStart))
      have hWindow := avoidCongestion_window hBalanced hTwo hRoom
      rw [if_neg hStart, if_neg fun hWord => hStart ((hLess _).mpr hWord), ← hWindow]
      refine cap_window (cc.avoidCongestion mtu) (hRemote _ ?_)
      have hSegments : (cc.avoidCongestion mtu).cwnd.toNat = _ := congrArg Window.segments hWindow
      rw [hSegments]
      exact (hBalanced.avoid hPositive hTwo).2.2.1
  · rw [if_neg hLimit, if_neg fun hWord => hLimit ((hLess _).mpr hWord)]

/-- The threshold never goes below two. -/
theorem threshold_ge (value : UInt32) : 2 ≤ (max value Constants.ikcpThreshMin).toNat := by
  rw [toNat_max]
  exact le_max_right _ _

/-- One segment. -/
theorem one_balanced (cc : CongestionController) (hSize : mtu.maxSegmentSize < 2 ^ 32) :
    (window { cc with
      cwnd := 1
      incr := (maxSegmentSize mtu).toUInt32 }).Balanced mtu.maxSegmentSize := by
  have hFull : window { cc with cwnd := 1, incr := (maxSegmentSize mtu).toUInt32 } =
      .full mtu.maxSegmentSize 1 := by
    unfold window Window.full
    rw [toNat_oneSegment hSize, Nat.one_mul]
    rfl
  rw [hFull]
  exact Window.full_balanced mtu.maxSegmentSize_pos 1

theorem packetLost_balanced (hSize : mtu.maxSegmentSize < 2 ^ 32) :
    (cc.packetLost mtu).window.Balanced mtu.maxSegmentSize :=
  one_balanced { cc with ssthresh := max (cc.cwnd / 2) Constants.ikcpThreshMin } hSize

/-- `packets_resent` computes the counter from the window, when its word has room. -/
theorem packetsResent_balanced {packetsInFlight resent : UInt32}
    (hRoom : (cc.packetsResent mtu packetsInFlight resent).cwnd.toNat * mtu.maxSegmentSize <
      2 ^ 32) :
    (cc.packetsResent mtu packetsInFlight resent).window.Balanced mtu.maxSegmentSize := by
  have hFull : (cc.packetsResent mtu packetsInFlight resent).window =
      .full mtu.maxSegmentSize (cc.packetsResent mtu packetsInFlight resent).cwnd.toNat := by
    unfold Window.full
    rw [← toNat_counter _ hRoom]
    rfl
  rw [hFull]
  exact Window.full_balanced mtu.maxSegmentSize_pos _

end Refinement

/-- What all operations preserve. Beyond sixteen bits the window can only come from
`packets_resent`, and then it is above every remote window. -/
structure Steady (mtu : Mtu) (cc : CongestionController) : Prop where
  rmtWnd_le : cc.rmtWnd.toNat ≤ 65535
  ssthresh_ge : 2 ≤ cc.ssthresh.toNat
  balanced : cc.cwnd.toNat ≤ 65535 → cc.window.Balanced mtu.maxSegmentSize

section Steady

variable {cc : CongestionController}

theorem Steady.init : Steady mtu {} := ⟨by decide, by decide, fun _ => .inl ⟨rfl, rfl⟩⟩

theorem Steady.packetsResent (h : Steady mtu cc) (hSize : mtu.maxSegmentSize ≤ 65535)
    (packetsInFlight resent : UInt32) :
    Steady mtu (cc.packetsResent mtu packetsInFlight resent) := by
  refine ⟨h.rmtWnd_le, threshold_ge _, fun hSmall => packetsResent_balanced ?_⟩
  exact (Nat.mul_le_mul hSmall hSize).trans_lt (by decide)

theorem Steady.packetLost (h : Steady mtu cc) (hSize : mtu.maxSegmentSize ≤ 65535) :
    Steady mtu (cc.packetLost mtu) :=
  ⟨h.rmtWnd_le, threshold_ge _, fun _ => packetLost_balanced (hSize.trans_lt (by decide))⟩

theorem Steady.ensureAtLeastOnePacketInFlight (h : Steady mtu cc)
    (hSize : mtu.maxSegmentSize ≤ 65535) :
    Steady mtu (cc.ensureAtLeastOnePacketInFlight mtu) := by
  unfold CongestionController.ensureAtLeastOnePacketInFlight
  split_ifs
  · exact ⟨h.rmtWnd_le, h.ssthresh_ge, fun _ => one_balanced cc (hSize.trans_lt (by decide))⟩
  · exact h

/-- Below a remote window the counter has room for the growth step. -/
theorem Steady.grows (h : Steady mtu cc) (hSize : mtu.maxSegmentSize ≤ 65535)
    (hLimit : cc.cwnd < cc.rmtWnd) :
    cc.window.Balanced mtu.maxSegmentSize ∧
      (cc.adjustParameters mtu).window =
        cc.window.grow mtu.maxSegmentSize cc.rmtWnd.toNat cc.ssthresh.toNat := by
  have hRemote := h.rmtWnd_le
  have hLess := UInt32.lt_iff_toNat_lt.mp hLimit
  have hBalanced := h.balanced (by omega)
  have hRoom : (cc.cwnd.toNat + 3) * mtu.maxSegmentSize ≤ 65537 * 65535 :=
    Nat.mul_le_mul (by omega) hSize
  exact ⟨hBalanced, adjustParameters_window hBalanced h.ssthresh_ge fun _ =>
    hRoom.trans_lt (by decide)⟩

/-- At the remote window and above it nothing grows. -/
theorem adjustParameters_of_not_lt (hLimit : ¬cc.cwnd < cc.rmtWnd) : cc.adjustParameters mtu = cc :=
  if_neg hLimit

theorem Steady.adjustParameters (h : Steady mtu cc) (hSize : mtu.maxSegmentSize ≤ 65535) :
    Steady mtu (cc.adjustParameters mtu) := by
  by_cases hLimit : cc.cwnd < cc.rmtWnd
  · obtain ⟨hBalanced, hGrow⟩ := h.grows hSize hLimit
    obtain ⟨cwnd, incr, hKept⟩ := adjustParameters_eq mtu cc
    refine ⟨?_, ?_, fun _ => ?_⟩
    · rw [hKept]
      exact h.rmtWnd_le
    · rw [hKept]
      exact h.ssthresh_ge
    · rw [hGrow]
      exact (hBalanced.grow mtu.maxSegmentSize_pos _ h.ssthresh_ge).1
  · rw [adjustParameters_of_not_lt hLimit]
    exact h

theorem Steady.apply (h : Steady mtu cc) (hSize : mtu.maxSegmentSize ≤ 65535)
    {operation : Operation} (hAllowed : operation.Allowed) :
    Steady mtu (cc.apply mtu operation) := by
  cases operation with
  | setCongestionWindowEnabled state => exact { h with }
  | setReceiveWindow rcvWnd => exact { h with }
  | setRemoteWindow rmtWnd => exact { h with rmtWnd_le := UInt32.le_iff_toNat_le.mp hAllowed }
  | setSendWindow sndWnd => exact { h with }
  | packetsResent packetsInFlight resent => exact h.packetsResent hSize packetsInFlight resent
  | packetLost => exact h.packetLost hSize
  | adjustParameters => exact h.adjustParameters hSize
  | ensureAtLeastOnePacketInFlight => exact h.ensureAtLeastOnePacketInFlight hSize

theorem steady_of_reachable (hSize : mtu.maxSegmentSize ≤ 65535)
    (hReach : (controllerSystem mtu).Reachable cc) : Steady mtu cc := by
  refine hReach.invariant (P := Steady mtu) ?_ ?_
  · rintro cc rfl
    exact .init
  · rintro cc next _ hSteady ⟨operation, hAllowed, rfl⟩
    exact hSteady.apply hSize hAllowed

end Steady

/-- After any operations, `adjust_parameters` does not take the congestion window back and
does not raise it above the remote window; it raises it by one at most while it is below
the threshold, and otherwise by two at most. -/
theorem growth_bounded {cc : CongestionController} (hSize : mtu.maxSegmentSize ≤ 65535)
    (hReach : (controllerSystem mtu).Reachable cc) :
    cc.cwnd ≤ (cc.adjustParameters mtu).cwnd ∧
      (cc.adjustParameters mtu).cwnd.toNat ≤ cc.cwnd.toNat + 2 ∧
      (cc.cwnd < cc.ssthresh → (cc.adjustParameters mtu).cwnd.toNat ≤ cc.cwnd.toNat + 1) ∧
      (cc.cwnd < (cc.adjustParameters mtu).cwnd → (cc.adjustParameters mtu).cwnd ≤ cc.rmtWnd) := by
  have hSteady := steady_of_reachable hSize hReach
  by_cases hLimit : cc.cwnd < cc.rmtWnd
  · obtain ⟨hBalanced, hGrow⟩ := hSteady.grows hSize hLimit
    obtain ⟨-, hUp, hTwo, hOne, hMax⟩ :=
      hBalanced.grow mtu.maxSegmentSize_pos cc.rmtWnd.toNat hSteady.ssthresh_ge
    rw [← hGrow] at hUp hTwo hOne hMax
    refine ⟨UInt32.le_iff_toNat_le.mpr hUp, hTwo,
      fun hStart => hOne (UInt32.lt_iff_toNat_lt.mp hStart), ?_⟩
    rw [UInt32.lt_iff_toNat_lt, UInt32.le_iff_toNat_le]
    intro hLess
    rcases le_max_iff.mp hMax with hSame | hBelow
    · exact absurd hLess (Nat.not_lt.mpr hSame)
    · exact hBelow
  · rw [adjustParameters_of_not_lt hLimit]
    exact ⟨UInt32.le_refl _, Nat.le_add_right _ _, fun _ => Nat.le_succ _,
      fun hLess => absurd hLess (UInt32.lt_irrefl _)⟩

/-- Acknowledgements on a fresh controller, for packets of 1400 bytes. -/
def ethernet : Mtu := ⟨1400, by decide⟩

def acknowledged (count : Nat) : CongestionController :=
  (fun cc => cc.adjustParameters ethernet)^[count] {}

theorem acknowledged_reachable (count : Nat) :
    (controllerSystem ethernet).Reachable (acknowledged count) := by
  induction count with
  | zero => exact .of_init rfl
  | succ count ih =>
      refine ih.step ⟨.adjustParameters, trivial, ?_⟩
      exact Function.iterate_succ_apply' _ count _

/-- The first acknowledgement behind the slow start. -/
theorem growth_bounded_third : (acknowledged 3).cwnd.toNat ≤ (acknowledged 2).cwnd.toNat + 2 := by
  have hBounds := growth_bounded (by decide) (acknowledged_reachable 2)
  exact hBounds.2.1

/-- The next one opens the window by two segments. -/
theorem growth_two :
    ¬∀ (mtu : Mtu) (cc : CongestionController), mtu.maxSegmentSize ≤ 65535 →
      (controllerSystem mtu).Reachable cc →
        cc.cwnd ≤ (cc.adjustParameters mtu).cwnd ∧
          (cc.adjustParameters mtu).cwnd.toNat ≤ cc.cwnd.toNat + 1 ∧
          (cc.cwnd < (cc.adjustParameters mtu).cwnd →
            (cc.adjustParameters mtu).cwnd ≤ cc.rmtWnd) := by
  intro hAll
  have hOne := (hAll ethernet (acknowledged 3) (by decide) (acknowledged_reachable 3)).2.1
  have hWindows : (acknowledged 3).cwnd.toNat = 2 ∧
      ((acknowledged 3).adjustParameters ethernet).cwnd.toNat = 4 := by decide +kernel
  rw [hWindows.1, hWindows.2] at hOne
  exact absurd hOne (by decide)

/-- What the counter is divided by in avoidance. -/
def divisor (mtu : Mtu) (cc : CongestionController) : UInt32 :=
  if cc.incr.toUInt64 < maxSegmentSize mtu then (maxSegmentSize mtu).toUInt32 else cc.incr

theorem avoidCongestion_incr (cc : CongestionController) :
    (cc.avoidCongestion mtu).incr =
      ((divisor mtu cc).toUInt64 +
        ((maxSegmentSize mtu * maxSegmentSize mtu) / (divisor mtu cc).toUInt64 +
        maxSegmentSize mtu / 16)).toUInt32 := rfl

/-- The counter has room for three more segments. -/
def Roomy (mtu : Mtu) (cc : CongestionController) : Prop :=
  (cc.cwnd.toNat + 3) * mtu.maxSegmentSize < 2 ^ 32

instance (mtu : Mtu) (cc : CongestionController) : Decidable (Roomy mtu cc) :=
  inferInstanceAs (Decidable ((cc.cwnd.toNat + 3) * mtu.maxSegmentSize < 2 ^ 32))

/-- Any operations, with windows of any size, for as long as the counter has room. -/
def roomySystem (mtu : Mtu) : System CongestionController where
  init cc := cc = {} ∧ Roomy mtu cc
  step cc next := Roomy mtu next ∧ ∃ operation : Operation, next = cc.apply mtu operation

/-- What the operations preserve while there is room. -/
structure Consistent (mtu : Mtu) (cc : CongestionController) : Prop where
  ssthresh_ge : 2 ≤ cc.ssthresh.toNat
  balanced : cc.window.Balanced mtu.maxSegmentSize

section Room

variable {cc : CongestionController}

theorem Roomy.size_lt (hRoom : Roomy mtu cc) : mtu.maxSegmentSize < 2 ^ 32 :=
  (Nat.le_mul_of_pos_left _ (Nat.succ_pos _)).trans_lt hRoom

theorem Consistent.adjustParameters (h : Consistent mtu cc) (hRoom : Roomy mtu cc) :
    Consistent mtu (cc.adjustParameters mtu) := by
  obtain ⟨cwnd, incr, hKept⟩ := adjustParameters_eq mtu cc
  refine ⟨?_, ?_⟩
  · rw [hKept]
    exact h.ssthresh_ge
  · rw [adjustParameters_window h.balanced h.ssthresh_ge fun _ => hRoom]
    exact (h.balanced.grow mtu.maxSegmentSize_pos _ h.ssthresh_ge).1

theorem Consistent.apply (h : Consistent mtu cc) (hRoom : Roomy mtu cc) {operation : Operation}
    (hNext : Roomy mtu (cc.apply mtu operation)) : Consistent mtu (cc.apply mtu operation) := by
  have hSize := hRoom.size_lt
  cases operation with
  | setCongestionWindowEnabled state => exact { h with }
  | setReceiveWindow rcvWnd => exact { h with }
  | setRemoteWindow rmtWnd => exact { h with }
  | setSendWindow sndWnd => exact { h with }
  | packetsResent packetsInFlight resent =>
      refine ⟨threshold_ge _, packetsResent_balanced ?_⟩
      exact (Nat.mul_le_mul_right _ (Nat.le_add_right _ 3)).trans_lt hNext
  | packetLost => exact ⟨threshold_ge _, packetLost_balanced hSize⟩
  | adjustParameters => exact h.adjustParameters hRoom
  | ensureAtLeastOnePacketInFlight =>
      change Consistent mtu (cc.ensureAtLeastOnePacketInFlight mtu)
      unfold CongestionController.ensureAtLeastOnePacketInFlight
      split_ifs
      · exact ⟨h.ssthresh_ge, one_balanced cc hSize⟩
      · exact h

theorem consistent_of_reachable (hReach : (roomySystem mtu).Reachable cc) :
    Consistent mtu cc ∧ Roomy mtu cc := by
  refine hReach.invariant (P := fun cc => Consistent mtu cc ∧ Roomy mtu cc) ?_ ?_
  · rintro cc ⟨rfl, hRoom⟩
    exact ⟨⟨by decide, .inl ⟨rfl, rfl⟩⟩, hRoom⟩
  · rintro cc next _ ⟨hConsistent, hRoom⟩ ⟨hNext, operation, rfl⟩
    exact ⟨hConsistent.apply hRoom hNext, hNext⟩

/-- Where avoidance divides, the window has two segments, and then the counter has one. -/
theorem Consistent.divisor_eq (h : Consistent mtu cc) (hRoom : Roomy mtu cc)
    (hAvoids : cc.ssthresh ≤ cc.cwnd) : divisor mtu cc = cc.incr := by
  have hTwo : 2 ≤ cc.window.segments := h.ssthresh_ge.trans (UInt32.le_iff_toNat_le.mp hAvoids)
  have hMax := (h.balanced.advance_bounds mtu.maxSegmentSize_pos hTwo).1
  refine if_neg ?_
  rw [UInt64.lt_iff_toNat_lt, toNat_maxSegmentSize hRoom.size_lt, UInt32.toNat_toUInt64]
  exact Nat.not_lt.mpr (max_eq_right_iff.mp hMax)

theorem divisor_ne_zero (hRoom : Roomy mtu cc) : divisor mtu cc ≠ 0 := by
  have hPositive := mtu.maxSegmentSize_pos
  rw [ne_eq, ← UInt32.toNat_inj, UInt32.toNat_zero]
  unfold divisor
  split_ifs with hBelow
  · rw [toNat_oneSegment hRoom.size_lt]
    exact hPositive.ne'
  · rw [UInt64.lt_iff_toNat_lt, toNat_maxSegmentSize hRoom.size_lt, UInt32.toNat_toUInt64] at hBelow
    omega

/-- After any operations that have left room, the threshold is two at least, the window and
its counter are less than a segment apart, and avoidance divides by a counter that is not
zero. -/
theorem window_consistent (hReach : (roomySystem mtu).Reachable cc) :
    2 ≤ cc.ssthresh.toNat ∧
      (cc.cwnd.toNat = 0 ∧ cc.incr.toNat = 0 ∨
        1 ≤ cc.cwnd.toNat ∧ (cc.cwnd.toNat - 1) * mtu.maxSegmentSize < cc.incr.toNat ∧
          cc.incr.toNat < (cc.cwnd.toNat + 1) * mtu.maxSegmentSize) ∧
      (cc.ssthresh ≤ cc.cwnd → divisor mtu cc = cc.incr) ∧ divisor mtu cc ≠ 0 := by
  obtain ⟨hConsistent, hRoom⟩ := consistent_of_reachable hReach
  exact ⟨hConsistent.ssthresh_ge, hConsistent.balanced, hConsistent.divisor_eq hRoom,
    divisor_ne_zero hRoom⟩

end Room

/-- A window far beyond sixteen bits, from resent packets and an acknowledgement. -/
def resent : CongestionController :=
  (((({} : CongestionController).apply ethernet (.setRemoteWindow 1000000)).apply ethernet
    (.packetsResent 200000 0)).apply ethernet .adjustParameters)

theorem resent_reachable : (roomySystem ethernet).Reachable resent := by
  refine .step (.step (.step (.of_init ⟨rfl, ?_⟩) ⟨?_, .setRemoteWindow 1000000, rfl⟩)
    ⟨?_, .packetsResent 200000 0, rfl⟩) ⟨?_, .adjustParameters, rfl⟩
  all_goals decide +kernel

theorem window_consistent_resent :
    (resent.cwnd.toNat - 1) * ethernet.maxSegmentSize < resent.incr.toNat ∨
      resent.cwnd.toNat = 0 := by
  rcases (window_consistent resent_reachable).2.1 with ⟨hZero, -⟩ | ⟨-, hBytes, -⟩
  · exact .inr hZero
  · exact .inl hBytes

end CongestionController
end Imkcpp
