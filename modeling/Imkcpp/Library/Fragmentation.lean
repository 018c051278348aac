import Mathlib.Data.List.Basic
import Mathlib.Tactic.Ring

/-! Messages cut into fragments that count down to zero, and the reassembly that
reads a stream of fragments up to the first zero. -/
namespace Fragmentation

variable {β : Type*}

/-- A piece of a message, with the number of pieces still to come. -/
structure Fragment (β : Type*) where
  remaining : ℕ
  payload : List β
  deriving DecidableEq

/-- Cut a message into the given number of pieces of at most `size` elements. -/
def split (size : ℕ) : ℕ → List β → List (Fragment β)
  | 0, _ => []
  | remaining + 1, message =>
    ⟨remaining, message.take size⟩ :: split size remaining (message.drop size)

/-- The first message of a stream of fragments, and the fragments behind it. -/
def joinFirst : List (Fragment β) → List β × List (Fragment β)
  | [] => ([], [])
  | fragment :: rest =>
    if fragment.remaining = 0 then (fragment.payload, rest)
    else (fragment.payload ++ (joinFirst rest).1, (joinFirst rest).2)

@[simp] theorem split_length (size count : ℕ) (message : List β) :
    (split size count message).length = count := by
  induction count generalizing message with
  | zero => rfl
  | succ remaining ih => simp [split, ih]

/-- Pieces enough for the whole message make it whole again. -/
theorem joinFirst_split_append (size remaining : ℕ) (message : List β)
    (rest : List (Fragment β)) (hFits : message.length ≤ (remaining + 1) * size) :
    joinFirst (split size (remaining + 1) message ++ rest) = (message, rest) := by
  induction remaining generalizing message with
  | zero =>
      have hTake : message.take size = message := List.take_of_length_le (by simpa using hFits)
      simp [split, joinFirst, hTake]
  | succ remaining ih =>
      have hTail : (message.drop size).length ≤ (remaining + 1) * size := by
        rw [List.length_drop]
        have hSplit : (remaining + 1 + 1) * size = (remaining + 1) * size + size := by ring
        omega
      rw [split, List.cons_append, joinFirst, if_neg (Nat.succ_ne_zero remaining), ih _ hTail]
      simp

/-- No piece is empty when every piece is needed. -/
theorem payload_ne_nil (size count : ℕ) (message : List β) (hSize : 0 < size)
    (hNeeded : count * size < message.length + size) :
    ∀ fragment ∈ split size count message, fragment.payload ≠ [] := by
  induction count generalizing message with
  | zero => simp [split]
  | succ remaining ih =>
      have hSplit : (remaining + 1) * size = remaining * size + size := by ring
      have hLength : remaining * size < message.length := by omega
      have hMessage : message ≠ [] := by
        rintro rfl
        simp at hLength
      intro fragment hFragment
      rcases List.mem_cons.mp hFragment with rfl | hFragment
      · simp [hMessage, Nat.pos_iff_ne_zero.mp hSize]
      · refine ih (message.drop size) ?_ fragment hFragment
        rw [List.length_drop]
        omega

theorem payload_length_le (size count : ℕ) (message : List β) :
    ∀ fragment ∈ split size count message, fragment.payload.length ≤ size := by
  induction count generalizing message with
  | zero => simp [split]
  | succ remaining ih =>
      intro fragment hFragment
      rcases List.mem_cons.mp hFragment with rfl | hFragment
      · simp
      · exact ih _ fragment hFragment

theorem remaining_lt (size count : ℕ) (message : List β) :
    ∀ fragment ∈ split size count message, fragment.remaining < count := by
  induction count generalizing message with
  | zero => simp [split]
  | succ remaining ih =>
      intro fragment hFragment
      rcases List.mem_cons.mp hFragment with rfl | hFragment
      · exact Nat.lt_succ_self _
      · exact Nat.lt_succ_of_lt (ih _ fragment hFragment)

/-- The pieces, one after the other, are the message. -/
theorem flatMap_payload_split (size count : ℕ) (message : List β)
    (hFits : message.length ≤ count * size) :
    (split size count message).flatMap Fragment.payload = message := by
  induction count generalizing message with
  | zero =>
      obtain rfl : message = [] := by simpa using hFits
      rfl
  | succ remaining ih =>
      have hTail : (message.drop size).length ≤ remaining * size := by
        have hSplit : (remaining + 1) * size = remaining * size + size := by ring
        rw [List.length_drop]
        omega
      rw [split, List.flatMap_cons, ih _ hTail, List.take_append_drop]

/-- They count down to zero. -/
theorem map_remaining_split (size count : ℕ) (message : List β) :
    (split size count message).map Fragment.remaining = (List.range count).reverse := by
  induction count generalizing message with
  | zero => rfl
  | succ remaining ih =>
      rw [split, List.map_cons, ih, List.range_succ, List.reverse_append, List.reverse_singleton,
        List.singleton_append]

/-- All of them but the last one are full. -/
theorem payload_length_of_mem_dropLast (size count : ℕ) (message : List β)
    (hNeeded : count * size < message.length + size) :
    ∀ fragment ∈ (split size count message).dropLast, fragment.payload.length = size := by
  induction count generalizing message with
  | zero => simp [split]
  | succ remaining ih =>
      have hSplit : (remaining + 1) * size = remaining * size + size := by ring
      cases remaining with
      | zero => simp [split]
      | succ more =>
          have hTail : (more + 1) * size < (message.drop size).length + size := by
            have hMore : (more + 1) * size = more * size + size := by ring
            rw [List.length_drop]
            omega
          have hHead : (message.take size).length = size := by
            have hMore : (more + 1) * size = more * size + size := by ring
            rw [List.length_take]
            omega
          rw [split, List.dropLast_cons_of_ne_nil (by simp [split])]
          exact List.forall_mem_cons.mpr ⟨hHead, ih _ hTail⟩

/-- Fragments that all carry something cannot join to an empty message. -/
theorem eq_nil_of_joinFirst_eq_nil {fragments : List (Fragment β)}
    (hFull : ∀ fragment ∈ fragments, fragment.payload ≠ [])
    (hEmpty : (joinFirst fragments).1 = []) : fragments = [] := by
  cases fragments with
  | nil => rfl
  | cons fragment rest =>
      have hHead := hFull fragment (by simp)
      unfold joinFirst at hEmpty
      split at hEmpty
      · exact absurd hEmpty hHead
      · exact absurd (List.append_eq_nil_iff.mp hEmpty).1 hHead

/-- The first message is made of the first payloads. -/
theorem joinFirst_prefix (fragments : List (Fragment β)) :
    (joinFirst fragments).1 <+: fragments.flatMap Fragment.payload := by
  induction fragments with
  | nil => exact List.prefix_rfl
  | cons fragment rest ih =>
      rw [joinFirst, List.flatMap_cons]
      split_ifs
      · exact List.prefix_append _ _
      · exact (List.prefix_append_right_inj _).mpr ih

section Stream

variable {size : ℕ} {count : List β → ℕ} {messages : List (List β)} {queue : List (Fragment β)}

/-- The first fragment of the beginning of a stream announces the rest of its message. -/
theorem remaining_of_prefix {message : List β} {more : List (List β)}
    (hPositive : 0 < count message)
    (hPrefix : queue <+: (message :: more).flatMap fun message =>
      split size (count message) message)
    {first : Fragment β} (hFirst : queue.head? = some first) :
    first.remaining + 1 = count message := by
  obtain ⟨remaining, hRemaining⟩ := Nat.exists_eq_succ_of_ne_zero hPositive.ne'
  rw [List.flatMap_cons, hRemaining] at hPrefix
  obtain ⟨rest, hRest⟩ := hPrefix
  have hHeads := congrArg List.head? hRest
  rw [List.head?_append, hFirst, Option.some_or, split, List.cons_append, List.head?_cons] at hHeads
  rw [Option.some.inj hHeads, hRemaining]

/-- The beginning of a stream of whole messages starts with the first of them,
once it has as many fragments as its first one announces. -/
theorem joinFirst_of_prefix
    (hCount : ∀ message ∈ messages, 0 < count message ∧ message.length ≤ count message * size)
    (hPrefix : queue <+: messages.flatMap fun message => split size (count message) message)
    {first : Fragment β} (hFirst : queue.head? = some first)
    (hReady : first.remaining < queue.length) :
    ∃ message more, messages = message :: more ∧ (joinFirst queue).1 = message ∧
      queue = split size (count message) message ++ (joinFirst queue).2 := by
  cases messages with
  | nil =>
      obtain rfl : queue = [] := by simpa using hPrefix
      simp at hFirst
  | cons message more =>
      obtain ⟨hPositive, hFits⟩ := hCount message (by simp)
      have hHead := remaining_of_prefix hPositive hPrefix hFirst
      obtain ⟨remaining, hRemaining⟩ := Nat.exists_eq_succ_of_ne_zero hPositive.ne'
      rw [hRemaining] at hFits hHead
      rw [List.flatMap_cons, hRemaining] at hPrefix
      have hWhole : split size (remaining + 1) message <+: queue := by
        refine List.prefix_of_prefix_length_le (List.prefix_append _ _) hPrefix ?_
        rw [split_length]
        omega
      obtain ⟨rest, rfl⟩ := hWhole
      have hJoin := joinFirst_split_append size remaining message rest hFits
      exact ⟨message, more, rfl, by rw [hJoin], by rw [hJoin, hRemaining]⟩

end Stream

end Fragmentation
