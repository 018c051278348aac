import Mathlib.Data.List.Induction
import Imkcpp.Controllers
import Imkcpp.Library.RoundTripTime

/-! `RtoCalculator` against its formulas. A step of the calculator is the step of the
estimator in unbounded integers as long as no word of its arithmetic wraps; which
samples do that depends on the estimate that they meet. -/
namespace Imkcpp

open RoundTripTime

namespace RtoCalculator

/-- `RtoCalculator::set_interval` -/
def setInterval (rc : RtoCalculator) (interval : UInt32) : RtoCalculator := { rc with interval }

/-- `RtoCalculator::set_min_rto` -/
def setMinRto (rc : RtoCalculator) (minrto : UInt32) : RtoCalculator := { rc with minrto }

/-- The calls that change a calculator. -/
inductive Operation where
  | updateRto (current ts : UInt32)
  | setMinRto (minrto : UInt32)
  | setInterval (interval : UInt32)

/-- The values that `ImKcpp` passes. -/
def Operation.Passed : Operation → Prop
  | .updateRto _ _ => True
  | .setMinRto minrto => minrto = Constants.ikcpRtoNdl ∨ minrto = Constants.ikcpRtoMin
  | .setInterval interval => 10 ≤ interval ∧ interval ≤ 5000

def apply (rc : RtoCalculator) : Operation → RtoCalculator
  | .updateRto current ts => rc.updateRto current ts
  | .setMinRto minrto => rc.setMinRto minrto
  | .setInterval interval => rc.setInterval interval

/-- The calculator after calls on a fresh one. -/
def run (operations : List Operation) : RtoCalculator := operations.foldl apply {}

theorem run_concat (operations : List Operation) (last : Operation) :
    run (operations ++ [last]) = (run operations).apply last := by
  rw [run, List.foldl_append]
  rfl

/-- The round trip time of an acknowledgement, which counts unless it is negative. -/
def sample (current ts : UInt32) : ℕ := (timeDelta current ts).toInt.toNat

/-- The stored estimate. -/
def estimate (rc : RtoCalculator) : Estimate := ⟨rc.srtt.toNat, rc.rttvar.toNat⟩

/-- The estimate that follows, in unbounded integers. -/
def measured (rc : RtoCalculator) (rtt : ℕ) : Estimate :=
  if rc.srtt = 0 then .first rtt else rc.estimate.next rtt

/-- The estimate that follows in words of 32 bits. -/
def wrapped (rc : RtoCalculator) (rtt : ℕ) : Estimate :=
  if rc.srtt = 0 then .first rtt
  else ⟨(7 * rc.srtt.toNat + rtt) % 2 ^ 32 / 8,
    (3 * rc.rttvar.toNat + rc.estimate.deviation rtt) % 2 ^ 32 / 4⟩

/-- The ranges of the stored words, which no sample can leave. -/
structure Ranged (rc : RtoCalculator) : Prop where
  srtt_lt : rc.srtt.toNat < 2 ^ 31
  rttvar_lt : rc.rttvar.toNat < 2 ^ 30
  interval_le : rc.interval.toNat ≤ 5000
  minrto_eq : rc.minrto = Constants.ikcpRtoNdl ∨ rc.minrto = Constants.ikcpRtoMin
  maxrto_eq : rc.maxrto = Constants.ikcpRtoMax
  rto_range : 30 ≤ rc.rto.toNat ∧ rc.rto.toNat ≤ 60000

/-- The lower bound is one of two constants. -/
theorem Ranged.minrto_range {rc : RtoCalculator} (h : Ranged rc) :
    30 ≤ rc.minrto.toNat ∧ rc.minrto.toNat ≤ 100 := by
  rcases h.minrto_eq with hMin | hMin
  · rw [hMin]
    decide
  · rw [hMin]
    decide

theorem Ranged.toNat_maxrto {rc : RtoCalculator} (h : Ranged rc) : rc.maxrto.toNat = 60000 :=
  congrArg UInt32.toNat h.maxrto_eq

/-- What the formulas need of the stored words: the estimate as an `i32`, a sum with room
for the interval and an interval to clamp to. -/
structure Limited (rc : RtoCalculator) : Prop where
  srtt_lt : rc.srtt.toNat < 2 ^ 31
  interval_le : rc.interval.toNat ≤ 5000
  minrto_le : rc.minrto.toNat ≤ 60000
  maxrto_eq : rc.maxrto = Constants.ikcpRtoMax

theorem Ranged.limited {rc : RtoCalculator} (h : Ranged rc) : Limited rc :=
  ⟨h.srtt_lt, h.interval_le, h.minrto_range.2.trans (by decide), h.maxrto_eq⟩

section Update

variable {rc : RtoCalculator} {current ts : UInt32}

theorem updateRto_of_negative (h : timeDelta current ts < 0) :
    rc.updateRto current ts = rc := if_pos h

/-- A sample as the word that it is stored in. -/
theorem toNat_sample (h : 0 ≤ timeDelta current ts) :
    (timeDelta current ts).toUInt32.toNat = sample current ts ∧
      ((timeDelta current ts / 2).toUInt32).toNat = sample current ts / 2 ∧
        sample current ts < 2 ^ 31 := by
  rw [Int32.le_iff_toInt_le, Int32.toInt_zero] at h
  have hHigh := Int32.toInt_lt (timeDelta current ts)
  have hWord := WrappingClock.toNat_toUInt32 h
  have hHalf := WrappingClock.toInt_half h
  have hHalfSign : 0 ≤ (timeDelta current ts / 2).toInt := by omega
  have hHalfWord := WrappingClock.toNat_toUInt32 hHalfSign
  unfold sample
  omega

/-- The distance of a sample as the word that `update_rto` adds. -/
theorem toNat_delta (h : Limited rc) (hSample : 0 ≤ timeDelta current ts) :
    (Int32.abs (timeDelta current ts - rc.srtt.toInt32)).toUInt32.toNat =
      rc.estimate.deviation (sample current ts) := by
  rw [Int32.le_iff_toInt_le, Int32.toInt_zero] at hSample
  have hSrtt : rc.srtt.toInt32.toInt = rc.srtt.toNat := by
    rw [WrappingClock.toInt_toInt32, if_pos]
    have hLt := h.srtt_lt
    omega
  have hAbs := WrappingClock.toInt_abs_sub hSample (hSrtt ▸ Int.natCast_nonneg _)
  have hWord := WrappingClock.toNat_toUInt32 (hAbs ▸ Int.natCast_nonneg _)
  have hStored : rc.estimate.srtt = rc.srtt.toNat := rfl
  rw [hAbs, hSrtt] at hWord
  unfold sample Estimate.deviation
  omega

/-- The two ways of `update_rto` in one. -/
theorem updateRto_eq (rc : RtoCalculator) (hSample : 0 ≤ timeDelta current ts) :
    ∃ srtt rttvar, rc.updateRto current ts = { rc with
        lastRtt := (timeDelta current ts).toUInt32
        srtt
        rttvar
        rto := clamp (srtt + max rc.interval (4 * rttvar)) rc.minrto rc.maxrto } ∧
      srtt = (if rc.srtt = 0 then (timeDelta current ts).toUInt32 else
        (7 * rc.srtt + (timeDelta current ts).toUInt32) / 8) ∧
      rttvar = (if rc.srtt = 0 then (timeDelta current ts / 2).toUInt32 else
        (3 * rc.rttvar + (Int32.abs (timeDelta current ts - rc.srtt.toInt32)).toUInt32) / 4) := by
  unfold updateRto
  rw [if_neg (Int32.not_lt.mpr hSample)]
  by_cases hFirst : rc.srtt = 0
  · simp only [hFirst, beq_self_eq_true, if_true]
    exact ⟨_, _, rfl, rfl, rfl⟩
  · simp only [beq_eq_false_iff_ne.mpr hFirst, Bool.false_eq_true, hFirst, if_false]
    exact ⟨_, _, rfl, rfl, rfl⟩

/-- Words keep the ranges, whether they wrap or not. -/
theorem wrapped_lt (rc : RtoCalculator) {rtt : ℕ} (hRtt : rtt < 2 ^ 31) :
    (rc.wrapped rtt).srtt < 2 ^ 31 ∧ (rc.wrapped rtt).rttvar < 2 ^ 30 := by
  unfold RtoCalculator.wrapped Estimate.first
  split_ifs
  · dsimp only
    omega
  · dsimp only
    omega

/-- What `update_rto` stores for a sample that counts. -/
theorem updateRto_spec (h : Limited rc) (hSample : 0 ≤ timeDelta current ts) :
    let rtt := sample current ts
    let after := rc.updateRto current ts
    after.estimate = rc.wrapped rtt ∧ after.interval = rc.interval ∧ after.minrto = rc.minrto ∧
      after.maxrto = rc.maxrto ∧
      after.rto.toNat = max rc.minrto.toNat (min rc.maxrto.toNat (((rc.wrapped rtt).srtt +
        max rc.interval.toNat (4 * (rc.wrapped rtt).rttvar)) % 2 ^ 32)) := by
  intro rtt after
  obtain ⟨hRtt, hHalf, hLt⟩ := toNat_sample hSample
  have hDelta := toNat_delta h hSample
  have hRange : rc.minrto ≤ rc.maxrto := by
    rw [UInt32.le_iff_toNat_le, h.maxrto_eq]
    exact h.minrto_le
  obtain ⟨srtt, rttvar, hAfter, hSrtt, hRttvar⟩ := updateRto_eq rc hSample
  have hSrttNat : srtt.toNat = (rc.wrapped rtt).srtt := by
    rw [hSrtt, RtoCalculator.wrapped]
    split_ifs
    · exact hRtt
    · have hSeven : (7 : UInt32).toNat = 7 := rfl
      have hEight : (8 : UInt32).toNat = 8 := rfl
      rw [UInt32.toNat_div, UInt32.toNat_add, UInt32.toNat_mul, hRtt, hSeven, hEight,
        Nat.mod_add_mod]
  have hRttvarNat : rttvar.toNat = (rc.wrapped rtt).rttvar := by
    rw [hRttvar, RtoCalculator.wrapped]
    split_ifs
    · exact hHalf
    · have hThree : (3 : UInt32).toNat = 3 := rfl
      have hFour : (4 : UInt32).toNat = 4 := rfl
      rw [UInt32.toNat_div, UInt32.toNat_add, UInt32.toNat_mul, hDelta, hThree, hFour,
        Nat.mod_add_mod]
  have hFour : (4 * rttvar).toNat = 4 * (rc.wrapped rtt).rttvar := by
    have hWord : (4 : UInt32).toNat = 4 := rfl
    have hRttvarLt : (rc.wrapped rtt).rttvar < 2 ^ 30 := (wrapped_lt rc hLt).2
    rw [UInt32.toNat_mul, hWord, hRttvarNat, Nat.mod_eq_of_lt (by omega)]
  simp only [after, hAfter]
  refine ⟨?_, trivial, trivial, trivial, ?_⟩
  · exact Estimate.ext hSrttNat hRttvarNat
  · rw [toNat_clamp hRange, UInt32.toNat_add, toNat_max, hSrttNat, hFour]

theorem Limited.updateRto (h : Limited rc) (hSample : 0 ≤ timeDelta current ts) :
    (rc.updateRto current ts).Limited := by
  obtain ⟨hEstimate, hInterval, hMinrto, hMaxrto, -⟩ := updateRto_spec h hSample
  have hSrtt := (wrapped_lt rc (toNat_sample hSample).2.2).1
  rw [← hEstimate] at hSrtt
  refine ⟨hSrtt, ?_, ?_, ?_⟩
  · rw [hInterval]
    exact h.interval_le
  · rw [hMinrto]
    exact h.minrto_le
  · rw [hMaxrto]
    exact h.maxrto_eq

theorem Ranged.updateRto (h : Ranged rc) (current ts : UInt32) :
    (rc.updateRto current ts).Ranged := by
  rcases Int32.lt_or_le (timeDelta current ts) 0 with hNegative | hSample
  · rw [updateRto_of_negative hNegative]
    exact h
  · obtain ⟨hEstimate, -, hMinrto, -, hRto⟩ := updateRto_spec h.limited hSample
    obtain ⟨hSrtt, hInterval, -, hMaxrto⟩ := h.limited.updateRto hSample
    have hRttvar := (wrapped_lt rc (toNat_sample hSample).2.2).2
    rw [← hEstimate] at hRttvar
    refine ⟨hSrtt, hRttvar, hInterval, ?_, hMaxrto, ?_⟩
    · rw [hMinrto]
      exact h.minrto_eq
    · obtain ⟨hLow, hHigh⟩ := h.minrto_range
      rw [hRto, h.toNat_maxrto]
      omega

end Update

theorem Ranged.init : Ranged {} :=
  ⟨by decide, by decide, by decide, .inr rfl, rfl, by decide⟩

theorem Ranged.apply {rc : RtoCalculator} (h : Ranged rc) {operation : Operation}
    (hPassed : operation.Passed) :
    (rc.apply operation).Ranged := by
  cases operation with
  | updateRto current ts => exact h.updateRto current ts
  | setMinRto minrto => exact { h with minrto_eq := hPassed }
  | setInterval interval => exact { h with interval_le := UInt32.le_iff_toNat_le.mp hPassed.2 }

theorem ranged_run {operations : List Operation}
    (hPassed : ∀ operation ∈ operations, operation.Passed) :
    (run operations).Ranged := by
  induction operations using List.reverseRecOn with
  | nil => exact .init
  | append_singleton prior last ih =>
      rw [run_concat]
      refine (ih fun operation hOperation =>
        hPassed operation (List.mem_append_left _ hOperation)).apply ?_
      exact hPassed last (List.mem_append_right _ (List.mem_singleton_self last))

/-- What `update_rto` stores is what its formulas say in unbounded integers, and no word
wraps on the way. -/
structure Exact (rc : RtoCalculator) (current ts : UInt32) : Prop where
  estimate_eq : (rc.updateRto current ts).estimate = rc.measured (sample current ts)
  rto_eq : (rc.updateRto current ts).rto.toNat =
    (rc.measured (sample current ts)).timeout rc.interval.toNat rc.minrto.toNat 60000
  products : rc.srtt ≠ 0 → 7 * rc.srtt.toNat + sample current ts < 2 ^ 32 ∧
    3 * rc.rttvar.toNat + rc.estimate.deviation (sample current ts) < 2 ^ 32
  sum : 4 * (rc.measured (sample current ts)).rttvar < 2 ^ 32 ∧
    (rc.measured (sample current ts)).srtt +
      max rc.interval.toNat (4 * (rc.measured (sample current ts)).rttvar) < 2 ^ 32

/-- The samples that are small enough for the estimate that they meet: about sixteen
days for the first one. -/
def Fits (rc : RtoCalculator) (rtt : ℕ) : Prop :=
  if rc.srtt = 0 then rtt < 1431655766
  else 7 * rc.srtt.toNat + rtt < 2 ^ 32 ∧
    (7 * rc.srtt.toNat + rtt) / 8 + 4 * ((3 * rc.rttvar.toNat + rc.estimate.deviation rtt) / 4) <
      2 ^ 32

section Exact

variable {rc : RtoCalculator} {current ts : UInt32}

/-- A fitting sample meets no wrap. -/
theorem Fits.wrapped {rtt : ℕ} (h : rc.Fits rtt) : rc.wrapped rtt = rc.measured rtt := by
  unfold Fits at h
  unfold RtoCalculator.wrapped RtoCalculator.measured
  split_ifs at h ⊢
  · rfl
  · have hVariation : 3 * rc.rttvar.toNat + rc.estimate.deviation rtt < 2 ^ 32 := by omega
    rw [Nat.mod_eq_of_lt h.1, Nat.mod_eq_of_lt hVariation]
    rfl

theorem exact_iff_fits (h : Limited rc) (hSample : 0 ≤ timeDelta current ts) :
    rc.Exact current ts ↔ rc.Fits (sample current ts) := by
  obtain ⟨hEstimate, hInterval, hMinrto, hMaxrto, hRto⟩ := updateRto_spec h hSample
  constructor
  · intro hExact
    have hSum := hExact.sum.2
    have hProducts := hExact.products
    unfold measured at hSum
    unfold Fits
    split_ifs at hSum ⊢ with hFirst
    · dsimp only [Estimate.first] at hSum
      omega
    · have hMax :=
        Nat.le_max_right rc.interval.toNat (4 * (rc.estimate.next (sample current ts)).rttvar)
      exact ⟨(hProducts hFirst).1, (Nat.add_le_add_left hMax _).trans_lt hSum⟩
  · intro hFits
    have hInterval := h.interval_le
    have hLt := (wrapped_lt rc (toNat_sample hSample).2.2)
    rw [hFits.wrapped] at hEstimate hRto hLt
    have hSum : (rc.measured (sample current ts)).srtt +
        4 * (rc.measured (sample current ts)).rttvar < 2 ^ 32 := by
      unfold Fits at hFits
      unfold measured
      split_ifs at hFits ⊢
      · dsimp only [Estimate.first]
        omega
      · exact hFits.2
    have hWord : (rc.measured (sample current ts)).srtt +
        max rc.interval.toNat (4 * (rc.measured (sample current ts)).rttvar) < 2 ^ 32 := by
      omega
    refine ⟨hEstimate, ?_, ?_, by omega, hWord⟩
    · rw [hRto, Nat.mod_eq_of_lt hWord, h.maxrto_eq]
      rfl
    · intro hFirst
      unfold Fits at hFits
      rw [if_neg hFirst] at hFits
      omega

/-- Samples below six days fit whatever has been measured below six days. -/
theorem Fits.of_within {bound rtt : ℕ} (hBound : bound < 2 ^ 29) (h : rc.estimate.Within bound)
    (hRtt : rtt ≤ bound) : rc.Fits rtt := by
  have hSrtt : rc.srtt.toNat ≤ bound := h.srtt_le
  have hRttvar : rc.rttvar.toNat ≤ bound := h.rttvar_le
  have hDeviation := Estimate.deviation_le h.srtt_le hRtt
  unfold Fits
  split_ifs
  · omega
  · omega

end Exact

/-- In a run of the calls that `ImKcpp` makes, all stored values are exact if and only if
every sample fits the estimate that it meets. -/
theorem run_exact_iff {operations : List Operation}
    (hPassed : ∀ operation ∈ operations, operation.Passed) :
    (∀ done current ts rest, operations = done ++ .updateRto current ts :: rest →
      0 ≤ timeDelta current ts → (run done).Exact current ts) ↔
    ∀ done current ts rest, operations = done ++ .updateRto current ts :: rest →
      0 ≤ timeDelta current ts → (run done).Fits (sample current ts) := by
  have hRanged : ∀ done rest, operations = done ++ rest → (run done).Ranged := by
    intro done rest hSplit
    refine ranged_run fun operation hOperation => hPassed operation ?_
    rw [hSplit]
    exact List.mem_append_left _ hOperation
  constructor
  · intro hExact done current ts rest hSplit hSample
    exact (exact_iff_fits (hRanged done _ hSplit).limited hSample).mp
      (hExact done current ts rest hSplit hSample)
  · intro hFits done current ts rest hSplit hSample
    exact (exact_iff_fits (hRanged done _ hSplit).limited hSample).mpr
      (hFits done current ts rest hSplit hSample)

/-- A round trip of a hundred milliseconds, then a longer one. -/
theorem run_exact_two :
    (run [.setInterval 10]).Exact 100 0 ∧
      (run [.setInterval 10, .updateRto 100 0]).Exact 250 100 := by
  have hPassed : ∀ operation ∈ [Operation.setInterval 10, .updateRto 100 0, .updateRto 250 100],
      operation.Passed := by
    intro operation hOperation
    simp only [List.mem_cons, List.not_mem_nil, or_false] at hOperation
    rcases hOperation with rfl | rfl | rfl
    · exact ⟨by decide, by decide⟩
    · trivial
    · trivial
  have hExact := (run_exact_iff hPassed).mpr fun done current ts rest hSplit _ => by
    rcases done with _ | ⟨first, _ | ⟨second, _ | ⟨third, done⟩⟩⟩
    · cases hSplit
    · cases hSplit
      unfold Fits
      decide
    · cases hSplit
      unfold Fits
      decide
    · simp at hSplit
  exact ⟨hExact [_] 100 0 [_] rfl (by decide), hExact [_, _] 250 100 [] rfl (by decide)⟩

/-- A first round trip of more than sixteen days gives the least timeout. -/
theorem run_inexact_first :
    ¬∀ operations : List Operation, (∀ operation ∈ operations, operation.Passed) →
      ∀ done current ts rest, operations = done ++ .updateRto current ts :: rest →
        0 ≤ timeDelta current ts → (run done).Exact current ts := by
  intro hAll
  have hExact := hAll [.updateRto 1431655766 0] (by simp [Operation.Passed]) [] 1431655766 0 [] rfl
    (by decide)
  have hRto := hExact.rto_eq
  revert hRto
  decide

section Smoothing

/-- The calculator behind samples, each with the time of its acknowledgement. -/
def fed (samples : List (UInt32 × UInt32)) : RtoCalculator :=
  run (samples.map fun pair => .updateRto pair.1 pair.2)

def rtts (samples : List (UInt32 × UInt32)) : List ℕ := samples.map fun pair => sample pair.1 pair.2

theorem fed_concat (samples : List (UInt32 × UInt32)) (last : UInt32 × UInt32) :
    fed (samples ++ [last]) = (fed samples).updateRto last.1 last.2 := by
  rw [fed, List.map_append]
  exact run_concat _ _

theorem ranged_fed (samples : List (UInt32 × UInt32)) : (fed samples).Ranged := by
  refine ranged_run fun operation hOperation => ?_
  obtain ⟨pair, -, rfl⟩ := List.mem_map.mp hOperation
  trivial

theorem measured_within {rc : RtoCalculator} {bound rtt : ℕ} (h : rc.estimate.Within bound)
    (hRtt : rtt ≤ bound) : (rc.measured rtt).Within bound := by
  unfold measured
  split_ifs
  · exact Estimate.first_within hRtt
  · exact h.next hRtt

/-- Samples below six days are stored without a wrap. -/
theorem fed_exact {bound : ℕ} (hBound : bound < 2 ^ 29) {samples : List (UInt32 × UInt32)}
    (hSamples : ∀ pair ∈ samples, 0 ≤ timeDelta pair.1 pair.2 ∧ sample pair.1 pair.2 ≤ bound) :
    (fed samples).estimate.Within bound ∧
      ∀ pair : UInt32 × UInt32, 0 ≤ timeDelta pair.1 pair.2 → sample pair.1 pair.2 ≤ bound →
        (fed samples).Exact pair.1 pair.2 := by
  have hWithin : (fed samples).estimate.Within bound := by
    induction samples using List.reverseRecOn with
    | nil => exact ⟨Nat.zero_le _, Nat.zero_le _⟩
    | append_singleton prior last ih =>
        have hPrior := ih fun pair hPair => hSamples pair (List.mem_append_left _ hPair)
        obtain ⟨hSample, hLe⟩ :=
          hSamples last (List.mem_append_right _ (List.mem_singleton_self last))
        have hExact :=
          (exact_iff_fits (ranged_fed prior).limited hSample).mpr (.of_within hBound hPrior hLe)
        rw [fed_concat, hExact.estimate_eq]
        exact measured_within hPrior hLe
  exact ⟨hWithin, fun pair hSample hLe =>
    (exact_iff_fits (ranged_fed samples).limited hSample).mpr (.of_within hBound hWithin hLe)⟩

variable {first : UInt32 × UInt32} {later : List (UInt32 × UInt32)}

/-- As long as the stored estimate does not come back to zero, it is the smoothed one. -/
theorem fed_eq_fold (hSamples : ∀ pair ∈ first :: later, 0 ≤ timeDelta pair.1 pair.2 ∧
      sample pair.1 pair.2 < 2 ^ 28)
    (hKept : ∀ count < later.length, (fed (first :: later.take count)).srtt ≠ 0) :
    (fed (first :: later)).estimate = .fold (sample first.1 first.2) (rtts later) := by
  have hBound : 2 ^ 28 - 1 < 2 ^ 29 := by decide
  induction later using List.reverseRecOn with
  | nil =>
      obtain ⟨hSample, hLt⟩ := hSamples first (List.mem_singleton_self first)
      have hNone : ∀ pair ∈ ([] : List (UInt32 × UInt32)), 0 ≤ timeDelta pair.1 pair.2 ∧
          sample pair.1 pair.2 ≤ 2 ^ 28 - 1 := nofun
      exact ((fed_exact hBound hNone).2 first hSample (Nat.le_pred_of_lt hLt)).estimate_eq
  | append_singleton prior last ih =>
      obtain ⟨hSample, hLt⟩ := hSamples last (by simp)
      have hPrior : ∀ pair ∈ first :: prior, 0 ≤ timeDelta pair.1 pair.2 ∧
          sample pair.1 pair.2 < 2 ^ 28 := by
        intro pair hPair
        exact hSamples pair (List.mem_append_left _ hPair)
      have hFold := ih hPrior fun count hCount => by
        have hTake := hKept count (by simp; omega)
        rwa [List.take_append_of_le_length hCount.le] at hTake
      have hLast : (fed (first :: prior)).srtt ≠ 0 := by
        have hTake := hKept prior.length (by simp)
        rwa [List.take_left] at hTake
      have hExact := (fed_exact hBound fun pair hPair =>
        ⟨(hPrior pair hPair).1, Nat.le_pred_of_lt (hPrior pair hPair).2⟩).2 last hSample
        (Nat.le_pred_of_lt hLt)
      rw [← List.cons_append, fed_concat, hExact.estimate_eq, measured, if_neg hLast, hFold]
      exact (Estimate.fold_concat _ (rtts prior) _).symm.trans (by simp [rtts])

/-- The calculator smooths a sequence of samples as a fold that starts with the first of
them, and takes no later one for a first one, if and only if that fold does not come to
zero before the last sample. -/
theorem smoothing_iff (hSamples : ∀ pair ∈ first :: later, 0 ≤ timeDelta pair.1 pair.2 ∧
      sample pair.1 pair.2 < 2 ^ 28) :
    ((fed (first :: later)).estimate = .fold (sample first.1 first.2) (rtts later) ∧
      ∀ count < later.length, (fed (first :: later.take count)).srtt ≠ 0) ↔
    ∀ count < later.length,
      (Estimate.fold (sample first.1 first.2) (rtts (later.take count))).srtt ≠ 0 := by
  have hTaken : ∀ count, ∀ pair ∈ first :: later.take count, 0 ≤ timeDelta pair.1 pair.2 ∧
      sample pair.1 pair.2 < 2 ^ 28 := by
    intro count pair hPair
    refine hSamples pair ?_
    rcases List.mem_cons.mp hPair with rfl | hPair
    · exact List.mem_cons_self
    · exact List.mem_cons_of_mem _ (List.mem_of_mem_take hPair)
  have hPrefix : ∀ count ≤ later.length,
      (∀ less < count, (fed (first :: later.take less)).srtt ≠ 0) →
      (fed (first :: later.take count)).estimate =
        .fold (sample first.1 first.2) (rtts (later.take count)) := by
    intro count hCount hKept
    refine fed_eq_fold (hTaken count) fun less hLess => ?_
    rw [List.length_take, Nat.min_eq_left hCount] at hLess
    rw [List.take_take, Nat.min_eq_left hLess.le]
    exact hKept less hLess
  have hZero : ∀ count ≤ later.length, (∀ less < count, (fed (first :: later.take less)).srtt ≠ 0) →
      ((fed (first :: later.take count)).srtt ≠ 0 ↔
        (Estimate.fold (sample first.1 first.2) (rtts (later.take count))).srtt ≠ 0) := by
    intro count hCount hKept
    rw [← hPrefix count hCount hKept, ne_eq, ← UInt32.toNat_inj]
    rfl
  constructor
  · rintro ⟨-, hKept⟩ count hCount
    exact (hZero count hCount.le fun less hLess =>
      hKept less (hLess.trans hCount)).mp (hKept count hCount)
  · intro hFold
    have hKept : ∀ count < later.length, (fed (first :: later.take count)).srtt ≠ 0 := by
      intro count
      induction count using Nat.strongRecOn with
      | ind count ih =>
          intro hCount
          exact (hZero count hCount.le fun less hLess => ih less hLess (hLess.trans hCount)).mpr
            (hFold count hCount)
    exact ⟨fed_eq_fold hSamples hKept, hKept⟩

/-- Two round trips of ten milliseconds. -/
theorem smoothing_ten :
    (fed [(10, 0), (30, 20)]).estimate = .fold (sample 10 0) (rtts [(30, 20)]) := by
  have hSamples : ∀ pair ∈ [((10 : UInt32), (0 : UInt32)), (30, 20)],
      0 ≤ timeDelta pair.1 pair.2 ∧ sample pair.1 pair.2 < 2 ^ 28 := by
    intro pair hPair
    rcases List.mem_pair.mp hPair with rfl | rfl
    · exact ⟨by decide, by decide⟩
    · exact ⟨by decide, by decide⟩
  refine ((smoothing_iff hSamples).mpr ?_).1
  decide

/-- A round trip within the same millisecond, and one of eight: the second one counts as
the first. -/
theorem smoothing_restarts :
    ¬∀ (first : UInt32 × UInt32) (later : List (UInt32 × UInt32)),
      (∀ pair ∈ first :: later, 0 ≤ timeDelta pair.1 pair.2 ∧ sample pair.1 pair.2 < 2 ^ 28) →
        (fed (first :: later)).estimate = .fold (sample first.1 first.2) (rtts later) ∧
          ∀ count < later.length, (fed (first :: later.take count)).srtt ≠ 0 := by
  intro hAll
  have hSamples : ∀ pair ∈ [((0 : UInt32), (0 : UInt32)), (8, 0)],
      0 ≤ timeDelta pair.1 pair.2 ∧ sample pair.1 pair.2 < 2 ^ 28 := by
    intro pair hPair
    rcases List.mem_pair.mp hPair with rfl | rfl
    · exact ⟨by decide, by decide⟩
    · exact ⟨by decide, by decide⟩
  have hSmoothed := (hAll (0, 0) [(8, 0)] hSamples).1
  revert hSmoothed
  decide

end Smoothing

section Range

/-- A fresh calculator with its interval and its least timeout, behind samples. `std::clamp`
asks for a least timeout that is not above the greatest one. -/
def observed (interval minrto : UInt32) (samples : List (UInt32 × UInt32)) : RtoCalculator :=
  samples.foldl (fun rc pair => rc.updateRto pair.1 pair.2) { interval, minrto }

theorem observed_concat (interval minrto : UInt32) (samples : List (UInt32 × UInt32))
    (last : UInt32 × UInt32) :
    observed interval minrto (samples ++ [last]) =
      (observed interval minrto samples).updateRto last.1 last.2 := by
  rw [observed, List.foldl_append]
  rfl

theorem nonneg_of_le_sample {current ts : UInt32} {low : ℕ} (hLow : 1 ≤ low)
    (h : low ≤ sample current ts) :
    0 ≤ timeDelta current ts := by
  unfold sample at h
  rw [Int32.le_iff_toInt_le, Int32.toInt_zero]
  omega

variable {low high : ℕ}

/-- From a fresh estimate, or from one in the range, a sample in the range is stored without
a wrap and leads to an estimate in the range. -/
theorem updateRto_between (hLow : 1 ≤ low) (hHigh : high < 2 ^ 28) {rc : RtoCalculator}
    (hLimited : rc.Limited) (h : rc.srtt = 0 ∨ rc.estimate.Between low high) {current ts : UInt32}
    (hFrom : low ≤ sample current ts) (hTo : sample current ts ≤ high) :
    rc.Exact current ts ∧ (rc.updateRto current ts).estimate.Between low high := by
  have hSample := nonneg_of_le_sample hLow hFrom
  rcases h with hFirst | hBetween
  · have hFits : rc.Fits (sample current ts) := by
      unfold Fits
      rw [if_pos hFirst]
      omega
    have hExact := (exact_iff_fits hLimited hSample).mpr hFits
    refine ⟨hExact, ?_⟩
    rw [hExact.estimate_eq, measured, if_pos hFirst]
    exact Estimate.first_between hFrom hTo
  · have hExact := (exact_iff_fits hLimited hSample).mpr
      (.of_within (hHigh.trans (by decide)) hBetween.within hTo)
    have hSrtt : rc.srtt ≠ 0 := by
      intro hZero
      have hStored : low ≤ rc.srtt.toNat := hBetween.le_srtt
      rw [hZero, UInt32.toNat_zero] at hStored
      omega
    refine ⟨hExact, ?_⟩
    rw [hExact.estimate_eq, measured, if_neg hSrtt]
    exact hBetween.next hFrom hTo

theorem observed_kept (hLow : 1 ≤ low) (hHigh : high < 2 ^ 28) {interval minrto : UInt32}
    (hInterval : interval ≤ 5000) (hMinrto : minrto ≤ 60000) {samples : List (UInt32 × UInt32)}
    (hSamples : ∀ pair ∈ samples, low ≤ sample pair.1 pair.2 ∧ sample pair.1 pair.2 ≤ high) :
    let rc := observed interval minrto samples
    rc.Limited ∧ rc.interval = interval ∧ rc.minrto = minrto ∧
      (rc.srtt = 0 ∨ rc.estimate.Between low high) := by
  intro rc
  induction samples using List.reverseRecOn with
  | nil =>
      have hFresh : ({ interval, minrto } : RtoCalculator).Limited :=
        ⟨(by decide : (0 : UInt32).toNat < 2 ^ 31), UInt32.le_iff_toNat_le.mp hInterval,
          UInt32.le_iff_toNat_le.mp hMinrto, rfl⟩
      exact ⟨hFresh, rfl, rfl, .inl rfl⟩
  | append_singleton prior last ih =>
      obtain ⟨hLimited, hSameInterval, hSameMinrto, hEstimate⟩ :=
        ih fun pair hPair => hSamples pair (List.mem_append_left _ hPair)
      obtain ⟨hFrom, hTo⟩ := hSamples last (List.mem_append_right _ (List.mem_singleton_self last))
      have hSample := nonneg_of_le_sample hLow hFrom
      obtain ⟨-, hKeptInterval, hKeptMinrto, -, -⟩ := updateRto_spec hLimited hSample
      obtain ⟨-, hBetween⟩ := updateRto_between hLow hHigh hLimited hEstimate hFrom hTo
      simp only [rc, observed_concat]
      exact ⟨hLimited.updateRto hSample, hKeptInterval.trans hSameInterval,
        hKeptMinrto.trans hSameMinrto, .inr hBetween⟩

/-- Samples in a range that does not begin at zero keep the smoothed time in that range, its
variation within half of the highest sample or within the whole range, and the timeout
below the one that these give. -/
theorem observed_bounded (hLow : 1 ≤ low) (hHigh : high < 2 ^ 28) {interval minrto : UInt32}
    (hInterval : interval ≤ 5000) (hMinrto : minrto ≤ 60000) {samples : List (UInt32 × UInt32)}
    (hSome : samples ≠ [])
    (hSamples : ∀ pair ∈ samples, low ≤ sample pair.1 pair.2 ∧ sample pair.1 pair.2 ≤ high) :
    (low ≤ (observed interval minrto samples).srtt.toNat ∧
        (observed interval minrto samples).srtt.toNat ≤ high) ∧
      (observed interval minrto samples).rttvar.toNat ≤ max (high / 2) (high - low) ∧
      (observed interval minrto samples).rto.toNat ≤ max minrto.toNat (min 60000
        (high + max interval.toNat (4 * max (high / 2) (high - low)))) := by
  obtain ⟨prior, last, rfl⟩ := (List.eq_nil_or_concat' samples).resolve_left hSome
  obtain ⟨hLimited, hSameInterval, hSameMinrto, hEstimate⟩ :=
    observed_kept hLow hHigh hInterval hMinrto
      fun pair hPair => hSamples pair (List.mem_append_left _ hPair)
  obtain ⟨hFrom, hTo⟩ := hSamples last (List.mem_append_right _ (List.mem_singleton_self last))
  obtain ⟨hExact, hBetween⟩ := updateRto_between hLow hHigh hLimited hEstimate hFrom hTo
  rw [observed_concat]
  refine ⟨⟨hBetween.le_srtt, hBetween.srtt_le⟩, hBetween.rttvar_le, ?_⟩
  have hRto := hExact.rto_eq
  rw [← hExact.estimate_eq, hSameInterval, hSameMinrto] at hRto
  rw [hRto]
  exact Estimate.timeout_le ⟨high,
    max (high / 2) (high - low)⟩ hBetween.srtt_le hBetween.rttvar_le _ _ _

/-- Three round trips of forty to sixty milliseconds. -/
theorem observed_bounded_three :
    (observed 100 100 [(50, 0), (160, 100), (240, 200)]).srtt.toNat ≤ 60 := by
  have hSamples : ∀ pair ∈ [((50 : UInt32), (0 : UInt32)), (160, 100), (240, 200)],
      40 ≤ sample pair.1 pair.2 ∧ sample pair.1 pair.2 ≤ 60 := by
    intro pair hPair
    simp only [List.mem_cons, List.not_mem_nil, or_false] at hPair
    rcases hPair with rfl | rfl | rfl
    · exact ⟨by decide, by decide⟩
    · exact ⟨by decide, by decide⟩
    · exact ⟨by decide, by decide⟩
  exact (observed_bounded (by decide) (by decide) (by decide) (by decide)
    (List.cons_ne_nil _ _) hSamples).1.2

end Range

end RtoCalculator
end Imkcpp
