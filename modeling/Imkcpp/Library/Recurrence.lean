import Mathlib.Order.Filter.AtTopBot.Basic

/-! What happens again and again along an infinite run, and what holds from some
point on. The states of the run are indexed by the natural numbers, and `∃ᶠ` and
`∀ᶠ` at infinity are the two modalities. -/
namespace Recurrence

open Filter

variable {P : ℕ → Prop} {f : ℕ → ℕ}

/-- The first state of a run does not matter. -/
theorem frequently_succ : (∃ᶠ i in atTop, P (i + 1)) ↔ ∃ᶠ i in atTop, P i := by
  rw [← frequently_map (f := atTop) (m := (· + 1)), map_add_atTop_eq_nat]

/-- What holds once and is kept holds from then on. -/
theorem of_kept {start i : ℕ} (hKept : ∀ j, start ≤ j → P j → P (j + 1))
    (hStart : start ≤ i) (h : P i) {j : ℕ} (hLater : i ≤ j) : P j := by
  induction j, hLater using Nat.le_induction with
  | base => exact h
  | succ j hLater ih => exact hKept j (hStart.trans hLater) ih

theorem eventually_of_kept (hKept : ∀ᶠ i in atTop, P i → P (i + 1)) (hSome : ∃ᶠ i in atTop, P i) :
    ∀ᶠ i in atTop, P i := by
  obtain ⟨start, hStart⟩ := eventually_atTop.mp hKept
  obtain ⟨i, hLater, hHolds⟩ := frequently_atTop.mp hSome start
  exact eventually_atTop.mpr ⟨i, fun j hj => of_kept hStart hLater hHolds hj⟩

/-- A bounded counter that never goes back stops. -/
theorem eventually_const {bound : ℕ} (hGrows : ∀ i, f i ≤ f (i + 1)) (hBound : ∀ i, f i ≤ bound) :
    ∃ value, ∀ᶠ i in atTop, f i = value := by
  obtain ⟨top, -, hTop⟩ := (measure fun i => bound - f i).wf.has_min Set.univ ⟨0, trivial⟩
  refine ⟨f top, eventually_atTop.mpr ⟨top, fun j hj => ?_⟩⟩
  have hGrown := monotone_nat_of_le_succ hGrows hj
  have hLeast : ¬bound - f j < bound - f top := hTop j trivial
  have hHere := hBound top
  have hThere := hBound j
  omega

/-- No counter goes down again and again without ever going up. -/
theorem no_descent (hKept : ∀ᶠ i in atTop, f (i + 1) ≤ f i) : ¬∃ᶠ i in atTop, f (i + 1) < f i := by
  intro hLess
  obtain ⟨start, hStart⟩ := eventually_atTop.mp hKept
  obtain ⟨least, hLeast, hMin⟩ := (measure f).wf.has_min (Set.Ici start) ⟨start, Set.self_mem_Ici⟩
  obtain ⟨i, hLater, hDown⟩ := frequently_atTop.mp hLess least
  have hBelow : f i ≤ f least :=
    of_kept (P := fun i => f i ≤ f least)
      (fun j hj hPrior => (hStart j hj).trans hPrior) hLeast le_rfl hLater
  exact hMin (i + 1) (hLeast.trans (Nat.le_succ_of_le hLater)) (hDown.trans_le hBelow)

/-- A request that waits for the next action is there when it comes. -/
theorem frequently_served {pending acts : ℕ → Prop} (hPending : ∃ᶠ i in atTop, pending i)
    (hKept : ∀ᶠ i in atTop, pending i → ¬acts i → pending (i + 1)) (hActs : ∃ᶠ i in atTop, acts i) :
    ∃ᶠ i in atTop, acts i ∧ pending i := by
  classical
  obtain ⟨start, hStart⟩ := eventually_atTop.mp hKept
  refine frequently_atTop.mpr fun bound => ?_
  obtain ⟨i, hi, hWaiting⟩ := frequently_atTop.mp hPending (max bound start)
  have hSome : ∃ j, i ≤ j ∧ acts j := frequently_atTop.mp hActs i
  -- until the first action behind the request nobody takes it back
  obtain ⟨hLater, hServed⟩ := Nat.find_spec hSome
  refine ⟨Nat.find hSome, (le_max_left _ _).trans (hi.trans hLater), hServed, ?_⟩
  have hAll : ∀ j, i ≤ j → j ≤ Nat.find hSome → pending j := by
    intro j hj
    induction j, hj using Nat.le_induction with
    | base => exact fun _ => hWaiting
    | succ j hj ih =>
        intro hBefore
        have hIdle : ¬acts j := fun hActs => Nat.find_min hSome hBefore ⟨hj, hActs⟩
        exact hStart j ((le_max_right _ _).trans (hi.trans hj))
          (ih (Nat.le_of_succ_le hBefore)) hIdle
  exact hAll _ hLater le_rfl

end Recurrence
