import Mathlib.Algebra.Ring.Int.Defs
import Mathlib.Order.Lattice

/-! A round trip time that is smoothed in integers. A sample moves the estimate by an
eighth of the distance and the variation by a quarter of it; a timeout is read off the
two, within bounds. -/
namespace RoundTripTime

/-- The smoothed round trip time and its variation. -/
@[ext] structure Estimate where
  srtt : ℕ
  rttvar : ℕ
  deriving DecidableEq

namespace Estimate

/-- How far a sample is from the estimate. -/
def deviation (e : Estimate) (rtt : ℕ) : ℕ := ((rtt : ℤ) - e.srtt).natAbs

def first (rtt : ℕ) : Estimate := ⟨rtt, rtt / 2⟩

def next (e : Estimate) (rtt : ℕ) : Estimate where
  srtt := (7 * e.srtt + rtt) / 8
  rttvar := (3 * e.rttvar + e.deviation rtt) / 4

/-- The estimate that a first sample and further ones lead to. -/
def fold (rtt : ℕ) (later : List ℕ) : Estimate := later.foldl next (first rtt)

/-- The timeout for a clock of the given granularity. -/
def timeout (granularity low high : ℕ) (e : Estimate) : ℕ :=
  max low (min high (e.srtt + max granularity (4 * e.rttvar)))

theorem fold_concat (rtt : ℕ) (later : List ℕ) (last : ℕ) :
    fold rtt (later ++ [last]) = (fold rtt later).next last := by
  rw [fold, List.foldl_append]
  rfl

section Bounds

variable {bound : ℕ} {e : Estimate} {rtt : ℕ}

/-- Neither the estimate nor its variation is above the bound. -/
structure Within (bound : ℕ) (e : Estimate) : Prop where
  srtt_le : e.srtt ≤ bound
  rttvar_le : e.rttvar ≤ bound

theorem deviation_le (h : e.srtt ≤ bound) (hSample : rtt ≤ bound) : e.deviation rtt ≤ bound := by
  unfold deviation
  omega

theorem first_within (hSample : rtt ≤ bound) : (first rtt).Within bound :=
  ⟨hSample, (Nat.div_le_self rtt 2).trans hSample⟩

theorem Within.next (h : e.Within bound) (hSample : rtt ≤ bound) : (e.next rtt).Within bound := by
  have hSrtt := h.srtt_le
  have hRttvar := h.rttvar_le
  have hDeviation := deviation_le hSrtt hSample
  constructor
  · show (7 * e.srtt + rtt) / 8 ≤ bound
    omega
  · show (3 * e.rttvar + e.deviation rtt) / 4 ≤ bound
    omega

/-- The estimate is in the range of the samples, and its variation within half of the
highest one or within the whole range. -/
structure Between (low high : ℕ) (e : Estimate) : Prop where
  le_srtt : low ≤ e.srtt
  srtt_le : e.srtt ≤ high
  rttvar_le : e.rttvar ≤ max (high / 2) (high - low)

variable {low high : ℕ}

theorem first_between (hLow : low ≤ rtt) (hHigh : rtt ≤ high) : (first rtt).Between low high :=
  ⟨hLow, hHigh, (Nat.div_le_div_right hHigh).trans (le_max_left _ _)⟩

/-- Rounding down does not leave the range, since its ends are integers. -/
theorem Between.next (h : e.Between low high) (hLow : low ≤ rtt) (hHigh : rtt ≤ high) :
    (e.next rtt).Between low high := by
  obtain ⟨hSrttLow, hSrttHigh, hRttvar⟩ := h
  have hDeviation : e.deviation rtt ≤ high - low := by
    unfold deviation
    omega
  refine ⟨?_, ?_, ?_⟩
  · show low ≤ (7 * e.srtt + rtt) / 8
    omega
  · show (7 * e.srtt + rtt) / 8 ≤ high
    omega
  · show (3 * e.rttvar + e.deviation rtt) / 4 ≤ max (high / 2) (high - low)
    omega

theorem Between.within (h : e.Between low high) : e.Within high := by
  obtain ⟨-, hSrtt, hRttvar⟩ := h
  exact ⟨hSrtt, by omega⟩

/-- Timeouts are ordered as the estimates are. -/
theorem timeout_le (other : Estimate) (hSrtt : e.srtt ≤ other.srtt)
    (hRttvar : e.rttvar ≤ other.rttvar) (granularity least most : ℕ) :
    e.timeout granularity least most ≤ other.timeout granularity least most := by
  unfold timeout
  omega

end Bounds

end Estimate
end RoundTripTime
