import Mathlib.Logic.Relation

/-! Transition systems, the states they reach, and the rules for proving
something of all of these: an inductive invariant, a relation that every run
preserves, and a simulation by another system. -/
namespace Transition

open Relation

variable {σ τ : Type*}

/-- Where runs may start, and what one step may do. -/
structure System (σ : Type*) where
  init : σ → Prop
  step : σ → σ → Prop

namespace System

/-- Any number of steps. -/
def Leads (S : System σ) : σ → σ → Prop := ReflTransGen S.step

def Reachable (S : System σ) (s : σ) : Prop := ∃ start, S.init start ∧ S.Leads start s

variable {S : System σ}

theorem Leads.refl (s : σ) : S.Leads s s := ReflTransGen.refl

theorem Leads.single {s t : σ} (h : S.step s t) : S.Leads s t := ReflTransGen.single h

theorem Leads.trans {s t u : σ} (first : S.Leads s t) (second : S.Leads t u) : S.Leads s u :=
  ReflTransGen.trans first second

theorem Reachable.of_init {s : σ} (h : S.init s) : S.Reachable s := ⟨s, h, .refl s⟩

theorem Reachable.leads {s t : σ} (h : S.Reachable s) (run : S.Leads s t) : S.Reachable t := by
  obtain ⟨start, hInit, prior⟩ := h
  exact ⟨start, hInit, prior.trans run⟩

theorem Reachable.step {s t : σ} (h : S.Reachable s) (last : S.step s t) : S.Reachable t :=
  h.leads (.single last)

/-- An inductive invariant holds in every reachable state. The step may use
that the state it leaves is reachable, hence any invariant known before. -/
theorem Reachable.invariant {P : σ → Prop} (hInit : ∀ s, S.init s → P s)
    (hStep : ∀ s t, S.Reachable s → P s → S.step s t → P t) {s : σ} (h : S.Reachable s) : P s := by
  obtain ⟨start, hStart, run⟩ := h
  induction run with
  | refl => exact hInit start hStart
  | tail prior last ih => exact hStep _ _ ⟨start, hStart, prior⟩ ih last

/-- What one step from a reachable state preserves is preserved by a whole run. -/
theorem Leads.invariant {P : σ → Prop} (hStep : ∀ s t, S.Reachable s → P s → S.step s t → P t)
    {s t : σ} (hReach : S.Reachable s) (run : S.Leads s t) (hStart : P s) : P t := by
  induction run with
  | refl => exact hStart
  | tail prior last ih => exact hStep _ _ (hReach.leads prior) ih last

/-- A preorder that every step respects orders the ends of a run. -/
theorem Leads.monotone {r : σ → σ → Prop} (hRefl : ∀ s, r s s)
    (hTrans : ∀ s t u, r s t → r t u → r s u)
    (hStep : ∀ s t, S.Reachable s → S.step s t → r s t)
    {s t : σ} (hReach : S.Reachable s) (run : S.Leads s t) : r s t :=
  run.invariant (P := r s)
    (fun u v hReach hPrior hLast => hTrans s u v hPrior (hStep u v hReach hLast)) hReach (hRefl s)

end System

/-- Every step of `C` is matched by a run of `A` between related states. -/
structure Simulation (C : System σ) (A : System τ) (R : σ → τ → Prop) : Prop where
  init : ∀ s, C.init s → ∃ a, A.init a ∧ R s a
  step : ∀ s t a, C.Reachable s → A.Reachable a → R s a → C.step s t → ∃ b, A.Leads a b ∧ R t b

/-- A simulation relates every reachable state to a reachable state. -/
theorem Simulation.reachable {C : System σ} {A : System τ} {R : σ → τ → Prop}
    (h : Simulation C A R) {s : σ} (hReach : C.Reachable s) : ∃ a, A.Reachable a ∧ R s a := by
  refine hReach.invariant (P := fun s => ∃ a, A.Reachable a ∧ R s a) ?_ ?_
  · intro s hInit
    obtain ⟨a, hAbstract, hRelated⟩ := h.init s hInit
    exact ⟨a, .of_init hAbstract, hRelated⟩
  · rintro s t hReach ⟨a, hAbstract, hRelated⟩ hStep
    obtain ⟨b, run, hNext⟩ := h.step s t a hReach hAbstract hRelated hStep
    exact ⟨b, hAbstract.leads run, hNext⟩

end Transition
