/-! Two computations that may fail, run side by side. They fail alike or return
related values, and this is proved along their text: one rule for sequencing, one
for a case distinction that both make in the same way. -/

/-- Both fail with the same error, or both return, related by `R`. -/
inductive Lockstep {ε α β : Type} (R : α → β → Prop) : Except ε α → Except ε β → Prop where
  | ok {a : α} {b : β} (related : R a b) : Lockstep R (.ok a) (.ok b)
  | error (fault : ε) : Lockstep R (.error fault) (.error fault)

namespace Lockstep

variable {ε α β α' β' : Type} {R : α → β → Prop} {S : α' → β' → Prop}
  {first : Except ε α} {second : Except ε β}

/-- The same computation on both sides. -/
theorem refl {R : α → α → Prop} (hRefl : ∀ a, R a a) (value : Except ε α) :
    Lockstep R value value := by
  cases value with
  | error fault => exact .error fault
  | ok a => exact .ok (hRefl a)

/-- Sequencing: what the first parts relate is all that the second parts need. -/
theorem bind {next : α → Except ε α'} {next' : β → Except ε β'} (h : Lockstep R first second)
    (hNext : ∀ a b, R a b → Lockstep S (next a) (next' b)) :
    Lockstep S (first >>= next) (second >>= next') := by
  cases h with
  | ok related => exact hNext _ _ related
  | error fault => exact .error fault

/-- Both sides take the same branch. -/
theorem ite {p q : Prop} [Decidable p] [Decidable q] (hSame : q ↔ p) {other : Except ε α}
    {other' : Except ε β} (hThen : p → Lockstep R first second)
    (hElse : ¬p → Lockstep R other other') :
    Lockstep R (if p then first else other) (if q then second else other') := by
  by_cases hp : p
  · rw [if_pos hp, if_pos (hSame.mpr hp)]
    exact hThen hp
  · rw [if_neg hp, if_neg (mt hSame.mp hp)]
    exact hElse hp

theorem imp (h : Lockstep R first second) {R' : α → β → Prop} (hImp : ∀ a b, R a b → R' a b) :
    Lockstep R' first second := by
  cases h with
  | ok related => exact .ok (hImp _ _ related)
  | error fault => exact .error fault

/-- What is known of the values of each side on its own. -/
theorem and_of_ok {P : α → Prop} {Q : β → Prop} (h : Lockstep R first second)
    (hFirst : ∀ a, first = .ok a → P a) (hSecond : ∀ b, second = .ok b → Q b) :
    Lockstep (fun a b => R a b ∧ P a ∧ Q b) first second := by
  cases h with
  | ok related => exact .ok ⟨related, hFirst _ rfl, hSecond _ rfl⟩
  | error fault => exact .error fault

/-- Related values that are shown alike give equal results. -/
theorem map_eq {γ : Type} (h : Lockstep R first second) {read : α → γ} {read' : β → γ}
    (hRead : ∀ a b, R a b → read' b = read a) : second.map read' = first.map read := by
  cases h with
  | ok related => exact congrArg Except.ok (hRead _ _ related)
  | error fault => rfl

end Lockstep
