import Mathlib.Data.Set.Insert
import Mathlib.Data.List.TakeDrop
import Imkcpp.Library.Transition

/-! One direction of a selective-repeat protocol, over items of any type. A
sender numbers the items of a stream and keeps each until it may release it; a
receiver holds items that arrive early and delivers them in order. What is in
transit is a set, so packets and acknowledgements can be lost, repeated and
reordered at will. -/
namespace SelectiveRepeat

open Transition

variable {α : Type*}

/-- `produced` is the whole stream so far and `queued` its part without a number
yet. `packets`, `acks` and `cums` contain all that was ever put in transit. -/
structure State (α : Type*) where
  produced : List α := []
  queued : List α := []
  assigned : ℕ := 0
  buffered : Set (ℕ × α) := ∅
  packets : Set (ℕ × α) := ∅
  held : Set (ℕ × α) := ∅
  delivered : List α := []
  acks : Set ℕ := ∅
  cums : Set ℕ := ∅

namespace State

/-- The receiver has item `n`: delivered already, or held. -/
def Stored (s : State α) (n : ℕ) : Prop := n < s.delivered.length ∨ ∃ item, (n, item) ∈ s.held

/-- An acknowledgement in transit permits the sender to forget item `n`. -/
def Releasable (s : State α) (n : ℕ) : Prop := n ∈ s.acks ∨ ∃ m ∈ s.cums, n < m

end State

inductive Step : State α → State α → Prop where
  | produce (s : State α) (items : List α) :
      Step s { s with produced := s.produced ++ items, queued := s.queued ++ items }
  | assign (s : State α) (item : α) (rest : List α) (hQueued : s.queued = item :: rest) :
      Step s { s with
        queued := rest
        assigned := s.assigned + 1
        buffered := insert (s.assigned, item) s.buffered }
  | transmit (s : State α) (sent : Set (ℕ × α)) (hBuffered : sent ⊆ s.buffered) :
      Step s { s with packets := s.packets ∪ sent }
  | store (s : State α) (n : ℕ) (item : α) (hPacket : (n, item) ∈ s.packets)
      (hNew : s.delivered.length ≤ n) : Step s { s with held := insert (n, item) s.held }
  | deliver (s : State α) (item : α) (hHeld : (s.delivered.length, item) ∈ s.held) :
      Step s { s with
        delivered := s.delivered ++ [item]
        held := { p ∈ s.held | p.1 ≠ s.delivered.length } }
  | acknowledge (s : State α) (n : ℕ) (hStored : s.Stored n) :
      Step s { s with acks := insert n s.acks }
  | accumulate (s : State α) : Step s { s with cums := insert s.delivered.length s.cums }
  | release (s : State α) (released : Set ℕ) (hReleasable : ∀ n ∈ released, s.Releasable n) :
      Step s { s with buffered := { p ∈ s.buffered | p.1 ∉ released } }

/-- Both sides start with nothing. -/
def system (α : Type*) : System (State α) where
  init s := s = {}
  step := Step

/-- A numbered item is the item of that place in the stream. -/
def Genuine (s : State α) (p : ℕ × α) : Prop := p.1 < s.assigned ∧ s.produced[p.1]? = some p.2

/-- Everything numbered is genuine, deliveries follow the stream, and no number
is without a copy of its item on one of the two sides. -/
structure Invariant (s : State α) : Prop where
  queued_eq : s.produced.drop s.assigned = s.queued
  assigned_le : s.assigned ≤ s.produced.length
  buffered : ∀ p ∈ s.buffered, Genuine s p
  packets : ∀ p ∈ s.packets, Genuine s p
  held : ∀ p ∈ s.held, Genuine s p
  delivered_eq : s.produced.take s.delivered.length = s.delivered
  delivered_le : s.delivered.length ≤ s.assigned
  acks : ∀ n ∈ s.acks, s.Stored n
  cums : ∀ n ∈ s.cums, n ≤ s.delivered.length
  kept : ∀ n < s.assigned, (∃ item, (n, item) ∈ s.buffered) ∨ s.Stored n

/-- Extending the stream or the numbering keeps genuine items genuine. -/
theorem Genuine.mono {s t : State α} {p : ℕ × α} (h : Genuine s p)
    (hAssigned : s.assigned ≤ t.assigned) (hProduced : s.produced <+: t.produced) :
    Genuine t p := by
  obtain ⟨items, hItems⟩ := hProduced
  obtain ⟨hLt, hItem⟩ := h
  have hLength : p.1 < s.produced.length := (List.getElem?_eq_some_iff.mp hItem).1
  refine ⟨hLt.trans_le hAssigned, ?_⟩
  rw [← hItems, List.getElem?_append_left hLength, hItem]

theorem invariant_init : Invariant ({} : State α) where
  queued_eq := rfl
  assigned_le := Nat.le_refl 0
  buffered := by simp
  packets := by simp
  held := by simp
  delivered_eq := rfl
  delivered_le := Nat.le_refl 0
  acks := by simp
  cums := by simp
  kept := by simp

theorem Invariant.produce {s : State α} (h : Invariant s) (items : List α) :
    Invariant { s with produced := s.produced ++ items, queued := s.queued ++ items } := by
  have hPrefix : s.produced <+: s.produced ++ items := List.prefix_append _ _
  refine { h with queued_eq := ?_, assigned_le := ?_, buffered := ?_, packets := ?_, held := ?_,
                  delivered_eq := ?_ }
  · rw [List.drop_append_of_le_length h.assigned_le, h.queued_eq]
  · exact h.assigned_le.trans hPrefix.length_le
  · exact fun p hp => (h.buffered p hp).mono (Nat.le_refl _) hPrefix
  · exact fun p hp => (h.packets p hp).mono (Nat.le_refl _) hPrefix
  · exact fun p hp => (h.held p hp).mono (Nat.le_refl _) hPrefix
  · rw [List.take_append_of_le_length (h.delivered_le.trans h.assigned_le), h.delivered_eq]

theorem Invariant.assign {s : State α} (h : Invariant s) {item : α} {rest : List α}
    (hQueued : s.queued = item :: rest) :
    Invariant { s with
      queued := rest
      assigned := s.assigned + 1
      buffered := insert (s.assigned, item) s.buffered } := by
  have hDrop : s.produced.drop s.assigned = item :: rest := h.queued_eq.trans hQueued
  have hItem : s.produced[s.assigned]? = some item := by
    rw [← Nat.add_zero s.assigned, ← List.getElem?_drop, hDrop, List.getElem?_cons_zero]
  have hLength : s.assigned < s.produced.length := (List.getElem?_eq_some_iff.mp hItem).1
  refine { h with
    queued_eq := ?_, assigned_le := hLength, buffered := ?_, packets := ?_, held := ?_
    delivered_le := Nat.le_succ_of_le h.delivered_le, kept := ?_ }
  · rw [← List.drop_drop, hDrop, List.drop_one, List.tail_cons]
  · rintro p (rfl | hp)
    · exact ⟨Nat.lt_succ_self _, hItem⟩
    · exact (h.buffered p hp).mono (Nat.le_succ _) List.prefix_rfl
  · exact fun p hp => (h.packets p hp).mono (Nat.le_succ _) List.prefix_rfl
  · exact fun p hp => (h.held p hp).mono (Nat.le_succ _) List.prefix_rfl
  · intro n hn
    rcases Nat.lt_succ_iff_lt_or_eq.mp hn with hn | rfl
    · rcases h.kept n hn with ⟨kept, hKept⟩ | hStored
      · exact .inl ⟨kept, .inr hKept⟩
      · exact .inr hStored
    · exact .inl ⟨item, .inl rfl⟩

theorem Invariant.transmit {s : State α} (h : Invariant s) {sent : Set (ℕ × α)}
    (hBuffered : sent ⊆ s.buffered) : Invariant { s with packets := s.packets ∪ sent } := by
  refine { h with packets := ?_ }
  rintro p (hp | hp)
  · exact h.packets p hp
  · exact h.buffered p (hBuffered hp)

theorem Invariant.store {s : State α} (h : Invariant s) {n : ℕ} {item : α}
    (hPacket : (n, item) ∈ s.packets) : Invariant { s with held := insert (n, item) s.held } := by
  have hStored : ∀ m, s.Stored m →
      ({ s with held := insert (n, item) s.held } : State α).Stored m := by
    rintro m (hDelivered | ⟨other, hHeld⟩)
    · exact .inl hDelivered
    · exact .inr ⟨other, .inr hHeld⟩
  refine { h with held := ?_, acks := ?_, kept := ?_ }
  · rintro p (rfl | hp)
    · exact h.packets _ hPacket
    · exact h.held p hp
  · exact fun m hm => hStored m (h.acks m hm)
  · exact fun m hm => (h.kept m hm).imp_right (hStored m)

theorem Invariant.deliver {s : State α} (h : Invariant s) {item : α}
    (hHeld : (s.delivered.length, item) ∈ s.held) :
    Invariant { s with
      delivered := s.delivered ++ [item]
      held := { p ∈ s.held | p.1 ≠ s.delivered.length } } := by
  obtain ⟨hLt, hItem⟩ := h.held _ hHeld
  have hStored : ∀ m, s.Stored m →
      ({ s with
        delivered := s.delivered ++ [item]
        held := { p ∈ s.held | p.1 ≠ s.delivered.length } } : State α).Stored m := by
    intro m hm
    simp only [State.Stored, List.length_append, List.length_singleton]
    rcases hm with hDelivered | ⟨other, hOther⟩
    · exact .inl (Nat.lt_succ_of_lt hDelivered)
    · by_cases hEq : m = s.delivered.length
      · exact .inl (by omega)
      · exact .inr ⟨other, hOther, hEq⟩
  refine { h with held := ?_, delivered_eq := ?_, delivered_le := ?_, acks := ?_, cums := ?_,
                  kept := ?_ }
  · exact fun p hp => h.held p hp.1
  · rw [List.length_append, List.length_singleton, List.take_add_one, h.delivered_eq, hItem,
      Option.toList_some]
  · rw [List.length_append, List.length_singleton]
    exact hLt
  · exact fun m hm => hStored m (h.acks m hm)
  · exact fun m hm => (h.cums m hm).trans (by simp)
  · exact fun m hm => (h.kept m hm).imp_right (hStored m)

theorem Invariant.acknowledge {s : State α} (h : Invariant s) {n : ℕ} (hStored : s.Stored n) :
    Invariant { s with acks := insert n s.acks } := by
  refine { h with acks := ?_ }
  rintro m (rfl | hm)
  · exact hStored
  · exact h.acks m hm

theorem Invariant.accumulate {s : State α} (h : Invariant s) :
    Invariant { s with cums := insert s.delivered.length s.cums } := by
  refine { h with cums := ?_ }
  rintro m (rfl | hm)
  · exact Nat.le_refl _
  · exact h.cums m hm

/-- Only stored items can be released. -/
theorem Invariant.stored_of_releasable {s : State α} (h : Invariant s) {n : ℕ}
    (hReleasable : s.Releasable n) : s.Stored n := by
  rcases hReleasable with hAck | ⟨m, hCum, hLt⟩
  · exact h.acks n hAck
  · exact .inl (hLt.trans_le (h.cums m hCum))

theorem Invariant.release {s : State α} (h : Invariant s) {released : Set ℕ}
    (hReleasable : ∀ n ∈ released, s.Releasable n) :
    Invariant { s with buffered := { p ∈ s.buffered | p.1 ∉ released } } := by
  refine { h with buffered := fun p hp => h.buffered p hp.1, kept := ?_ }
  intro n hn
  rcases h.kept n hn with ⟨item, hItem⟩ | hStored
  · by_cases hReleased : n ∈ released
    · exact .inr (h.stored_of_releasable (hReleasable n hReleased))
    · exact .inl ⟨item, hItem, hReleased⟩
  · exact .inr hStored

theorem Invariant.step {s t : State α} (h : Invariant s) (hStep : Step s t) : Invariant t := by
  cases hStep with
  | produce items => exact h.produce items
  | assign item rest hQueued => exact h.assign hQueued
  | transmit sent hBuffered => exact h.transmit hBuffered
  | store n item hPacket hNew => exact h.store hPacket
  | deliver item hHeld => exact h.deliver hHeld
  | acknowledge n hStored => exact h.acknowledge hStored
  | accumulate => exact h.accumulate
  | release released hReleasable => exact h.release hReleasable

theorem invariant_of_reachable {s : State α} (h : (system α).Reachable s) : Invariant s := by
  refine h.invariant ?_ ?_
  · rintro s rfl
    exact invariant_init
  · exact fun s t _ hInvariant hStep => hInvariant.step hStep

/-- What has been delivered is the beginning of what has been produced. -/
theorem Invariant.delivered_prefix {s : State α} (h : Invariant s) :
    s.delivered <+: s.produced := by
  rw [← h.delivered_eq]
  exact List.take_prefix _ _

/-- A held item is the only one of its number. -/
theorem Invariant.eq_of_held {s : State α} (h : Invariant s) {n : ℕ} {item other : α}
    (hItem : (n, item) ∈ s.held) (hOther : s.produced[n]? = some other) : item = other :=
  Option.some.inj ((h.held _ hItem).2.symm.trans hOther)

/-- What is stored under a number is the item of that place in the stream. -/
theorem Invariant.eq_of_stored {s : State α} (h : Invariant s) {n : ℕ} {item : α}
    (hItem : s.produced[n]? = some item) (hStored : s.Stored n) :
    s.delivered[n]? = some item ∨ (n, item) ∈ s.held := by
  rcases hStored with hDelivered | ⟨other, hOther⟩
  · left
    rw [← h.delivered_eq, List.getElem?_take_of_lt hDelivered, hItem]
  · right
    rwa [← h.eq_of_held hOther hItem]

end SelectiveRepeat
