import Mathlib.Data.List.DropRight
import Mathlib.Data.List.Sort
import Mathlib.Order.Lattice

/-! Lists kept in strictly increasing order of a key. A scan that stops at the
first element on the wrong side of a threshold then agrees with a filter, and
a gap in the keys is the place where a new element belongs. -/
namespace OrderedList

variable {α κ : Type*} [LinearOrder κ] {key : α → κ}

/-- Keys strictly increase along the list. -/
def Increasing (key : α → κ) (l : List α) : Prop := l.Pairwise (fun a b => key a < key b)

theorem increasing_nil : Increasing key [] := List.Pairwise.nil

theorem increasing_cons {a : α} {l : List α} :
    Increasing key (a :: l) ↔ (∀ b ∈ l, key a < key b) ∧ Increasing key l := List.pairwise_cons

theorem increasing_append {l₁ l₂ : List α} :
    Increasing key (l₁ ++ l₂) ↔
      Increasing key l₁ ∧ Increasing key l₂ ∧ ∀ a ∈ l₁, ∀ b ∈ l₂, key a < key b :=
  List.pairwise_append

theorem Increasing.sublist {l l' : List α} (h : Increasing key l') (hSub : l.Sublist l') :
    Increasing key l := List.Pairwise.sublist hSub h

/-- Only the keys matter, so any map that keeps them keeps the order. -/
theorem increasing_iff_map {l : List α} : Increasing key l ↔ (l.map key).Pairwise (· < ·) :=
  List.pairwise_map.symm

theorem Increasing.of_map_eq {l l' : List α} (h : Increasing key l)
    (hMap : l'.map key = l.map key) : Increasing key l' := by
  rw [increasing_iff_map] at h ⊢
  rwa [hMap]

/-- The elements determine an ordered list, also where only a view of them counts
that shows the key. -/
theorem Increasing.map_eq_of_mem_iff {β : Type*} {view : α → β} {rank : β → κ}
    (hRank : ∀ a, rank (view a) = key a) {l l' : List α} (h : Increasing key l)
    (h' : Increasing key l') (hMem : ∀ b, b ∈ l.map view ↔ b ∈ l'.map view) :
    l.map view = l'.map view := by
  have hOrdered : ∀ {l : List α}, Increasing key l →
      (l.map view).Pairwise (fun a b => rank a < rank b) := by
    intro l h
    rw [List.pairwise_map]
    exact h.imp fun hLt => by rwa [hRank, hRank]
  have : Std.Irrefl fun a b : β => rank a < rank b := ⟨fun b => lt_irrefl (rank b)⟩
  have : Std.Antisymm fun a b : β => rank a < rank b :=
    ⟨fun a b hLt hGt => absurd (hLt.trans hGt) (lt_irrefl _)⟩
  exact (hOrdered h).eq_of_mem_iff (hOrdered h') hMem

/-- The first element has the least key. -/
theorem Increasing.head_le {a : α} {l : List α} (h : Increasing key (a :: l)) :
    ∀ b ∈ a :: l, key a ≤ key b := by
  intro b hb
  rcases List.mem_cons.mp hb with rfl | hb
  · exact le_rfl
  · exact ((increasing_cons.mp h).1 b hb).le

/-- An ordered list whose keys lie in an interval is no longer than the interval. -/
theorem Increasing.length_le {rank : α → ℕ} {l : List α} (h : Increasing rank l) {low high : ℕ}
    (hRange : ∀ a ∈ l, low ≤ rank a ∧ rank a < high) : l.length ≤ high - low := by
  induction l generalizing low with
  | nil => exact Nat.zero_le _
  | cons a l ih =>
      obtain ⟨hHead, hTail⟩ := increasing_cons.mp h
      obtain ⟨hLow, hHigh⟩ := hRange a List.mem_cons_self
      have hRest : l.length ≤ high - (rank a + 1) :=
        ih hTail fun b hB => ⟨hHead b hB, (hRange b (List.mem_cons_of_mem a hB)).2⟩
      rw [List.length_cons]
      omega

/-- A new greatest key goes to the back. -/
theorem Increasing.concat {l : List α} (h : Increasing key l) {a : α}
    (hMax : ∀ b ∈ l, key b < key a) : Increasing key (l ++ [a]) := by
  refine increasing_append.mpr ⟨h, List.pairwise_singleton _ _, ?_⟩
  intro b hb c hc
  rw [List.mem_singleton.mp hc]
  exact hMax b hb

/-- Dropping from the front while keys are below a threshold keeps exactly the
elements that are not below it. -/
theorem Increasing.dropWhile_eq_filter {l : List α} (h : Increasing key l) (k : κ) :
    l.dropWhile (fun a => decide (key a < k)) = l.filter (fun a => decide (k ≤ key a)) := by
  induction l with
  | nil => rfl
  | cons a l ih =>
      by_cases ha : key a < k
      · simp [ha, not_le.mpr ha, ih (increasing_cons.mp h).2]
      · have hAll : ∀ b ∈ a :: l, k ≤ key b := fun b hb => (not_lt.mp ha).trans (h.head_le b hb)
        rw [List.filter_eq_self.mpr (by simpa using hAll)]
        simp [ha]

theorem Increasing.takeWhile_eq_filter {l : List α} (h : Increasing key l) (k : κ) :
    l.takeWhile (fun a => decide (key a < k)) = l.filter (fun a => decide (key a < k)) := by
  induction l with
  | nil => rfl
  | cons a l ih =>
      by_cases ha : key a < k
      · simp [ha, ih (increasing_cons.mp h).2]
      · have hAll : ∀ b ∈ a :: l, ¬key b < k :=
          fun b hb => not_lt.mpr ((not_lt.mp ha).trans (h.head_le b hb))
        rw [List.filter_eq_nil_iff.mpr (by simpa using hAll)]
        simp [ha]

/-- Splitting an ordered list by a threshold cuts it in two. -/
theorem Increasing.filter_append_filter {l : List α} (h : Increasing key l) (k : κ) :
    l.filter (fun a => decide (key a < k)) ++ l.filter (fun a => decide (k ≤ key a)) = l := by
  rw [← h.takeWhile_eq_filter, ← h.dropWhile_eq_filter, List.takeWhile_append_dropWhile]

section Search

variable {p : α → Bool} {l : List α}

/-- Searching from the back for the first element that a test rejects finds the end of the
rejected ones, when the test rejects no element behind one that it accepts. -/
theorem Increasing.rdropWhile_eq_filter_not (h : Increasing key l)
    (hUp : ∀ a ∈ l, ∀ b ∈ l, key a < key b → p a = true → p b = true) :
    l.rdropWhile p = l.filter (fun a => !p a) := by
  induction l using List.reverseRecOn with
  | nil => rfl
  | append_singleton l a ih =>
      obtain ⟨hInit, -, hLast⟩ := increasing_append.mp h
      by_cases hTest : p a = true
      · have hRest := ih hInit fun b hB c hC => hUp b (by simp [hB]) c (by simp [hC])
        rw [List.rdropWhile_concat_pos _ _ _ hTest, hRest]
        simp [hTest]
      · rw [List.rdropWhile_concat_neg _ _ _ hTest, eq_comm, List.filter_eq_self]
        intro b hB
        rcases List.mem_append.mp hB with hB | hB
        · simpa using mt (hUp b (by simp [hB]) a (by simp) (hLast b hB a (by simp))) hTest
        · simpa [List.mem_singleton.mp hB] using hTest

theorem Increasing.rtakeWhile_eq_filter_of_up (h : Increasing key l)
    (hUp : ∀ a ∈ l, ∀ b ∈ l, key a < key b → p a = true → p b = true) :
    l.rtakeWhile p = l.filter p := by
  induction l using List.reverseRecOn with
  | nil => rfl
  | append_singleton l a ih =>
      obtain ⟨hInit, -, hLast⟩ := increasing_append.mp h
      by_cases hTest : p a = true
      · have hRest := ih hInit fun b hB c hC => hUp b (by simp [hB]) c (by simp [hC])
        rw [List.rtakeWhile_concat_pos _ _ _ hTest, hRest]
        simp [hTest]
      · have hNone : ∀ b ∈ l ++ [a], ¬p b = true := by
          intro b hB
          rcases List.mem_append.mp hB with hB | hB
          · exact mt (hUp b (by simp [hB]) a (by simp) (hLast b hB a (by simp))) hTest
          · rwa [List.mem_singleton.mp hB]
        rw [List.rtakeWhile_concat_neg _ _ _ hTest, List.filter_eq_nil_iff.mpr hNone]

theorem not_below_up {k : κ} {a b : α} (hLt : key a < key b)
    (hTest : (!decide (key a < k)) = true) :
    (!decide (key b < k)) = true := by
  simp only [Bool.not_eq_true', decide_eq_false_iff_not, not_lt] at hTest ⊢
  exact hTest.trans hLt.le

/-- Searching from the back for the first key below a threshold finds the end
of the elements below it. -/
theorem Increasing.rdropWhile_eq_filter (h : Increasing key l) (k : κ) :
    l.rdropWhile (fun a => !decide (key a < k)) = l.filter (fun a => decide (key a < k)) := by
  rw [h.rdropWhile_eq_filter_not fun _ _ _ _ => not_below_up]
  simp

theorem Increasing.rtakeWhile_eq_filter (h : Increasing key l) (k : κ) :
    l.rtakeWhile (fun a => !decide (key a < k)) = l.filter (fun a => decide (k ≤ key a)) := by
  rw [h.rtakeWhile_eq_filter_of_up fun _ _ _ _ => not_below_up]
  exact List.filter_congr fun a _ => by rw [← decide_not, decide_eq_decide, not_lt]

end Search

/-- The list with a new element in the place that its key gives it. -/
def insertByKey (key : α → κ) (a : α) (l : List α) : List α :=
  l.filter (fun b => decide (key b < key a)) ++ a :: l.filter (fun b => decide (key a ≤ key b))

/-- Between the elements below a missing key and the others there is room for it. -/
theorem Increasing.insertByKey {l : List α} (h : Increasing key l) {a : α}
    (hNew : ∀ b ∈ l, key b ≠ key a) : Increasing key (insertByKey key a l) := by
  refine increasing_append.mpr ⟨h.sublist List.filter_sublist, ?_, ?_⟩
  · refine increasing_cons.mpr ⟨?_, h.sublist List.filter_sublist⟩
    intro b hb
    obtain ⟨hMem, hLe⟩ := List.mem_filter.mp hb
    exact lt_of_le_of_ne (by simpa using hLe) (hNew b hMem).symm
  · intro b hb c hc
    have hb : key b < key a := by simpa using (List.mem_filter.mp hb).2
    rcases List.mem_cons.mp hc with rfl | hc
    · exact hb
    · exact hb.trans_le (by simpa using (List.mem_filter.mp hc).2)

theorem insertByKey_cons_of_lt {a b : α} (h : key a < key b) (l : List α) :
    insertByKey key b (a :: l) = a :: insertByKey key b l := by
  simp [OrderedList.insertByKey, h, not_le.mpr h]

/-- Inserting adds the new element and keeps the others. -/
theorem insertByKey_perm (key : α → κ) (a : α) (l : List α) :
    (insertByKey key a l).Perm (a :: l) := by
  have hOther : l.filter (fun b => decide (key a ≤ key b)) =
      l.filter (fun b => !decide (key b < key a)) := by
    refine List.filter_congr fun b _ => ?_
    rw [← decide_not, decide_eq_decide, not_lt]
  unfold insertByKey
  rw [hOther]
  exact List.perm_middle.trans ((List.filter_append_perm _ l).cons a)

theorem mem_insertByKey {l : List α} {a b : α} : b ∈ insertByKey key a l ↔ b = a ∨ b ∈ l := by
  rw [(insertByKey_perm key a l).mem_iff, List.mem_cons]

theorem length_insertByKey (key : α → κ) (a : α) (l : List α) :
    (insertByKey key a l).length = l.length + 1 := by
  rw [(insertByKey_perm key a l).length_eq, List.length_cons]

end OrderedList
