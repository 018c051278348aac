import Mathlib.Algebra.BigOperators.Group.List.Basic

/-! Packing a sequence of items into bins of one capacity without changing their
order. Next fit keeps one bin open and closes it when the next item does not
fit; no other way to cut the sequence needs fewer bins. -/
namespace NextFit

variable {α : Type*} {size : α → ℕ} {capacity : ℕ}

/-- The room that some items take. -/
def load (size : α → ℕ) : List α → ℕ
  | [] => 0
  | item :: items => size item + load size items

@[simp] theorem load_nil : load size [] = 0 := rfl

@[simp] theorem load_cons (item : α) (items : List α) :
    load size (item :: items) = size item + load size items := rfl

@[simp] theorem load_append (items others : List α) :
    load size (items ++ others) = load size items + load size others := by
  induction items with
  | nil => simp
  | cons item rest ih => rw [List.cons_append, load_cons, load_cons, ih, Nat.add_assoc]

/-- The bins that have been closed, in order, and the one that is open. -/
structure Bins (α : Type*) where
  closed : List (List α) := []
  current : List α := []

namespace Bins

/-- The next item goes into the open bin when it fits there, otherwise into a new one. -/
def put (size : α → ℕ) (capacity : ℕ) (bins : Bins α) (item : α) : Bins α :=
  if load size bins.current + size item ≤ capacity then
    { bins with current := bins.current ++ [item] }
  else ⟨bins.closed ++ [bins.current], [item]⟩

/-- All bins that are in use. -/
def used (bins : Bins α) : List (List α) :=
  bins.closed ++ if bins.current = [] then [] else [bins.current]

theorem put_of_le (bins : Bins α) (item : α) (h : load size bins.current + size item ≤ capacity) :
    bins.put size capacity item = { bins with current := bins.current ++ [item] } := if_pos h

theorem put_of_lt (bins : Bins α) (item : α) (h : capacity < load size bins.current + size item) :
    bins.put size capacity item = ⟨bins.closed ++ [bins.current], [item]⟩ :=
  if_neg (Nat.not_le.mpr h)

/-- The items stay in their order. -/
theorem flatten_foldl_put (size : α → ℕ) (capacity : ℕ) (bins : Bins α) (items : List α) :
    (items.foldl (put size capacity) bins).closed.flatten ++
      (items.foldl (put size capacity) bins).current =
      bins.closed.flatten ++ bins.current ++ items := by
  induction items generalizing bins with
  | nil => simp
  | cons item rest ih =>
      rw [List.foldl_cons, ih]
      unfold put
      split_ifs <;> simp

/-- As long as everything fits into the open bin, none is closed; each later cut of the
sequence then costs at most one bin. -/
theorem closed_length_le_of_load (bins : Bins α) (first : List α) {cut : List (List α)}
    (hFirst : load size bins.current + load size first ≤ capacity)
    (hCut : ∀ bins : Bins α,
      (cut.flatten.foldl (put size capacity) bins).closed.length ≤
        bins.closed.length + cut.length) :
    ((first ++ cut.flatten).foldl (put size capacity) bins).closed.length ≤
      bins.closed.length + cut.length := by
  induction first generalizing bins with
  | nil => exact hCut bins
  | cons item rest ih =>
      rw [load_cons] at hFirst
      rw [List.cons_append, List.foldl_cons, put_of_le _ _ (by omega)]
      refine ih _ ?_
      simp only [load_append, load_cons, load_nil]
      omega

/-- Next fit never falls behind another cut of the sequence: whatever is in the open bin, it
closes at most one bin for each bin of the cut. -/
theorem closed_length_le (bins : Bins α) {cut : List (List α)}
    (hFits : ∀ bin ∈ cut, load size bin ≤ capacity) :
    (cut.flatten.foldl (put size capacity) bins).closed.length ≤ bins.closed.length +
      cut.length := by
  induction cut generalizing bins with
  | nil => simp
  | cons bin cut ih =>
      have hRest := fun bins => ih bins fun other hOther => hFits other (by simp [hOther])
      have hBin := hFits bin (by simp)
      clear hFits ih
      rw [List.flatten_cons, List.length_cons]
      induction bin generalizing bins with
      | nil => exact Nat.le_succ_of_le (hRest bins)
      | cons item rest ih =>
          rw [load_cons] at hBin
          rw [List.cons_append, List.foldl_cons]
          by_cases hFits : load size bins.current + size item ≤ capacity
          · rw [put_of_le _ _ hFits]
            exact ih _ (by omega)
          · -- the item opens a bin, and the rest of the bin of the cut fits behind it
            rw [put_of_lt _ _ (Nat.not_le.mp hFits)]
            have hBehind := closed_length_le_of_load
              ⟨bins.closed ++ [bins.current], [item]⟩ rest (by simpa using hBin) hRest
            rw [List.length_append, List.length_singleton] at hBehind
            omega

end Bins

/-- The bins of next fit. -/
def pack (size : α → ℕ) (capacity : ℕ) (items : List α) : List (List α) :=
  (items.foldl (Bins.put size capacity) {}).used

theorem flatten_pack (items : List α) : (pack size capacity items).flatten = items := by
  have hItems := Bins.flatten_foldl_put size capacity {} items
  rw [pack, Bins.used]
  split_ifs with hEmpty
  · simpa [hEmpty] using hItems
  · simpa using hItems

/-- No cut of the sequence into bins that fit has fewer bins. -/
theorem length_pack_le {items : List α} {cut : List (List α)} (hCut : cut.flatten = items)
    (hFits : ∀ bin ∈ cut, load size bin ≤ capacity) :
    (pack size capacity items).length ≤ cut.length := by
  subst hCut
  cases cut with
  | nil => simp [pack, Bins.used]
  | cons bin cut =>
      have hRest := fun bins : Bins α =>
        bins.closed_length_le fun other hOther => hFits other (List.mem_cons_of_mem bin hOther)
      have hClosed :=
        Bins.closed_length_le_of_load {} bin (by simpa using hFits bin (by simp)) hRest
      rw [pack, Bins.used, List.length_append, List.length_cons]
      rw [List.flatten_cons]
      split_ifs
      · simpa using Nat.le_succ_of_le hClosed
      · simpa using hClosed

end NextFit
