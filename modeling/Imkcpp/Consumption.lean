import Imkcpp.Endpoint
import Imkcpp.Frame
import Imkcpp.Messages

/-! What one `recv` takes from the queue and what it writes. Two walks over the queue,
with stopping rules of their own, agree on the number of bytes; they do not always
agree on the segments. -/
namespace Imkcpp

open Fragmentation

variable {mtu : Mtu}

theorem flatMap_payload (segs : List Segment) :
    (segs.map Segment.fragment).flatMap Fragment.payload = segs.flatMap Segment.data := by
  rw [List.flatMap_map]
  rfl

namespace ImKcpp

/-- On any queue, whatever its fragment numbers, `recv` succeeds when `peek_size` does
and the buffer is large enough; it then writes the first bytes of the queue to the
beginning of the buffer, and nothing else. Otherwise it changes nothing. -/
theorem recv_agrees {s : ImKcpp mtu} (hQueue : ∀ seg ∈ s.receiver.rcvQueue, seg.Complete) {n : Nat}
    (buffer : Vector UInt8 n) :
    (∀ size, s.peekSize = .ok size → size ≤ n →
      ∃ next final, s.recv buffer = .ok (next, final, .ok size) ∧
        size ≤ (s.receiver.rcvQueue.flatMap Segment.data).length ∧
        final.toList =
          (s.receiver.rcvQueue.flatMap Segment.data).take size ++ buffer.toList.drop size) ∧
    (∀ size, s.peekSize = .ok size → n < size →
      s.recv buffer = .ok (s, buffer, .error .bufferTooSmall)) ∧
    (∀ error, s.peekSize = .error error → s.recv buffer = .ok (s, buffer, .error error)) := by
  refine ⟨fun size hPeek hFits => ?_, fun size hPeek hSmall => ?_, fun error hPeek => ?_⟩
  · obtain ⟨rest, final, recovered, -, hRecv, -, hFinal, -⟩ :=
      Receiver.recv_of_le buffer s.congestionController.rcvWnd hQueue hPeek hFits
    have hSize := Receiver.peekSize_ok hQueue hPeek
    have hPrefix := joinFirst_prefix (s.receiver.rcvQueue.map Segment.fragment)
    rw [flatMap_payload] at hPrefix
    have hFirst := List.prefix_iff_eq_take.mp hPrefix
    rw [← hSize] at hFirst
    rw [ImKcpp.recv, hRecv, ok_bind]
    have hLength : size ≤ (s.receiver.rcvQueue.flatMap Segment.data).length :=
      hSize ▸ hPrefix.length_le
    rw [hFirst] at hFinal
    cases recovered with
    | false => exact ⟨_, final, rfl, hLength, hFinal⟩
    | true => exact ⟨_, final, rfl, hLength, hFinal⟩
  · rw [ImKcpp.recv, Receiver.recv_of_lt buffer _ hPeek hSmall]
    rfl
  · rw [ImKcpp.recv, Receiver.recv_of_error buffer _ hPeek]
    rfl

/-- A queue without a last fragment, whose numbers do not count down. -/
def unterminated : ImKcpp .least :=
  { ImKcpp.create .least 0 with receiver := { rcvQueue :=
    [⟨{ frg := 1, len := 1 }, [7], {}⟩, ⟨{ frg := 2, len := 0 }, [], {}⟩,
      ⟨{ frg := 1, len := 2 }, [8, 9], {}⟩] } }

theorem recv_agrees_unterminated :
    ∃ next final, unterminated.recv #v[(1 : UInt8), 2, 3, 4] = .ok (next, final, .ok 3) ∧
      3 ≤ (unterminated.receiver.rcvQueue.flatMap Segment.data).length ∧
      final.toList = (unterminated.receiver.rcvQueue.flatMap Segment.data).take 3 ++ [4] :=
  (recv_agrees (by simp [unterminated, Segment.Complete]) #v[(1 : UInt8), 2, 3, 4]).1
    3 rfl (by decide)

end ImKcpp

namespace Receiver

/-- The copying loop ends with the message, or before its last segments if these are
empty and something has been left to stop it. -/
theorem copyLoop_message {peeksize n k : Nat} (hFits : peeksize ≤ n) {message : List Segment}
    (rest : List Segment) (hComplete : ∀ seg ∈ message, seg.Complete)
    (hFrg : message.map (fun seg => seg.header.frg.toNat) = (List.range (k + 1)).reverse)
    (buffer : Vector UInt8 n) {offset : Nat}
    (hSize : offset + (message.flatMap Segment.data).length = peeksize) :
    ∃ leftover final, copyLoop peeksize (message ++ rest) buffer offset =
        .ok (leftover ++ rest, final, peeksize) ∧
      (leftover = [] ↔ k = 0 ∨ ∃ last, message.getLast? = some last ∧ last.data ≠ []) := by
  induction k generalizing message buffer offset with
  | zero =>
      obtain ⟨seg, rfl, hLast⟩ := List.map_eq_singleton_iff.mp hFrg
      rw [List.flatMap_singleton] at hSize
      have hWrite : offset + seg.data.length ≤ n := by omega
      rw [List.singleton_append, copyLoop_cons (hComplete seg (by simp)) rest buffer hWrite,
        if_pos (.inl (UInt8.toNat_inj.mp hLast))]
      exact ⟨[], _, by rw [hSize, List.nil_append], iff_of_true rfl (.inl rfl)⟩
  | succ k ih =>
      rw [List.range_succ, List.reverse_append, List.reverse_singleton,
        List.singleton_append] at hFrg
      obtain ⟨seg, tail, rfl, hFirst, hTail⟩ := List.map_eq_cons_iff.mp hFrg
      have hTailComplete : ∀ seg ∈ tail, seg.Complete :=
        fun other hOther => hComplete other (by simp [hOther])
      rw [List.flatMap_cons, List.length_append, ← Nat.add_assoc] at hSize
      have hWrite : offset + seg.data.length ≤ n := by omega
      have hMore : seg.header.frg ≠ 0 := by
        rintro hZero
        rw [hZero] at hFirst
        cases hFirst
      obtain ⟨last, hLast⟩ : ∃ last, tail.getLast? = some last := by
        cases hEnd : tail.getLast? with
        | none => simp [List.getLast?_eq_none_iff.mp hEnd] at hTail
        | some last => exact ⟨last, rfl⟩
      have hLastMem := List.mem_of_getLast? hLast
      have hSameLast : (seg :: tail).getLast? = some last := by simp [List.getLast?_cons, hLast]
      simp only [hSameLast, Option.some.injEq, exists_eq_left', Nat.add_eq_zero_iff, one_ne_zero,
        and_false, false_or]
      rw [List.cons_append, copyLoop_cons (hComplete seg (by simp)) (tail ++ rest) buffer hWrite]
      by_cases hEnough : peeksize ≤ offset + seg.data.length
      · -- The rest of the message is empty, and stays in the queue.
        have hEmpty : tail.flatMap Segment.data = [] := by
          rw [← List.length_eq_zero_iff]
          omega
        have hReached : offset + seg.data.length = peeksize := by omega
        rw [if_pos (.inr hEnough)]
        refine ⟨tail, _, by rw [hReached], iff_of_false ?_ ?_⟩
        · rintro rfl
          cases hLast
        · exact not_not.mpr (List.flatMap_eq_nil_iff.mp hEmpty last hLastMem)
      · rw [if_neg (not_or.mpr ⟨hMore, hEnough⟩)]
        obtain ⟨leftover, final, hLoop, hLeftover⟩ :=
          ih hTailComplete hTail (overwrite buffer offset seg.data hWrite) hSize
        refine ⟨leftover, final, hLoop, hLeftover.trans ?_⟩
        simp only [hLast, Option.some.injEq, exists_eq_left']
        refine or_iff_right_of_imp ?_
        rintro rfl hNil
        -- the last fragment is the only one left, and something is still to be copied
        obtain ⟨only, rfl, -⟩ := List.map_eq_singleton_iff.mp hTail
        have hOnly : only = last := Option.some.inj hLast
        rw [List.flatMap_singleton, hOnly, hNil, List.length_nil] at hSize
        omega

/-- The message at the front of the queue is what the fragments join to. -/
theorem joinFirst_message {k : Nat} {message : List Segment} (rest : List Segment)
    (hFrg : message.map (fun seg => seg.header.frg.toNat) = (List.range (k + 1)).reverse) :
    (joinFirst ((message ++ rest).map Segment.fragment)).1 = message.flatMap Segment.data := by
  induction k generalizing message with
  | zero =>
      obtain ⟨seg, rfl, hLast⟩ := List.map_eq_singleton_iff.mp hFrg
      simp [joinFirst, Segment.fragment, hLast]
  | succ k ih =>
      rw [List.range_succ, List.reverse_append, List.reverse_singleton,
        List.singleton_append] at hFrg
      obtain ⟨seg, tail, rfl, hFirst, hTail⟩ := List.map_eq_cons_iff.mp hFrg
      rw [List.cons_append, List.map_cons, joinFirst]
      simp only [Segment.fragment, hFirst, Nat.succ_ne_zero, if_false]
      rw [List.flatMap_cons]
      exact congrArg (seg.data ++ ·) (ih hTail)

/-- Queues of different sizes stay different when segments are moved to them. -/
theorem move_inj {receiver : Receiver} {first second : List Segment}
    (h : { receiver with rcvQueue := first }.moveReceiveBufferToQueue =
      { receiver with rcvQueue := second }.moveReceiveBufferToQueue) : first.length =
        second.length := by
  have hFirst := move_append { receiver with rcvQueue := first }
  have hSecond := move_append { receiver with rcvQueue := second }
  rw [h, hSecond] at hFirst
  have hLengths := congrArg List.length hFirst
  simp only [List.length_append] at hLengths
  omega

end Receiver

/-- What is known of a `recv` that has succeeded. -/
theorem ImKcpp.recv_success {s next : ImKcpp mtu}
    (hComplete : ∀ seg ∈ s.receiver.rcvQueue, seg.Complete) {n : Nat}
    {buffer final : Vector UInt8 n} {size : Nat}
    (hRecv : s.recv buffer = .ok (next, final, .ok size)) :
    size ≤ n ∧ s.receiver.peekSize = .ok size ∧ ∃ rest,
      Receiver.copyLoop size s.receiver.rcvQueue buffer 0 = .ok (rest, final, size) ∧
      next.receiver = { s.receiver with rcvQueue := rest }.moveReceiveBufferToQueue ∧
      final.toList = (joinFirst (s.receiver.rcvQueue.map Segment.fragment)).1 ++
        buffer.toList.drop size := by
  cases hPeek : s.receiver.peekSize with
  | error error =>
      rw [ImKcpp.recv, Receiver.recv_of_error buffer _ hPeek] at hRecv
      cases hRecv
  | ok peeksize =>
      rcases Nat.lt_or_ge n peeksize with hLarge | hFits
      · rw [ImKcpp.recv, Receiver.recv_of_lt buffer _ hPeek hLarge] at hRecv
        cases hRecv
      · obtain ⟨rest, copied, recovered, hLoop, hReceiver, -, hFinal, -⟩ :=
          Receiver.recv_of_le buffer s.congestionController.rcvWnd hComplete hPeek hFits
        rw [ImKcpp.recv, hReceiver, ok_bind] at hRecv
        cases recovered with
        | false =>
            obtain ⟨rfl, rfl, hSize⟩ := by simpa using hRecv
            obtain rfl := hSize
            exact ⟨hFits, rfl, rest, hLoop, rfl, hFinal⟩
        | true =>
            obtain ⟨rfl, rfl, hSize⟩ := by simpa using hRecv
            obtain rfl := hSize
            exact ⟨hFits, rfl, rest, hLoop, rfl, hFinal⟩

/-- What `recv` should do with the message at the front of the queue: return it, remove
its segments and leave the next one at the front. -/
structure ImKcpp.Consumes (s next : ImKcpp mtu) (message rest : List Segment)
    (written : List UInt8) :
    Prop where
  written_eq : written = message.flatMap Segment.data
  receiver_eq : next.receiver = { s.receiver with rcvQueue := rest }.moveReceiveBufferToQueue
  rest_prefix : rest <+: next.receiver.rcvQueue

/-- A successful `recv` consumes exactly one message, unless this has several segments
and the last one is empty; then the loop has already stopped, and a remainder of the
message is left at the front of the queue. -/
theorem ImKcpp.recv_consumes_iff {s next : ImKcpp mtu} {message rest : List Segment} {k : Nat}
    (hQueue : s.receiver.rcvQueue = message ++ rest)
    (hComplete : ∀ seg ∈ s.receiver.rcvQueue, seg.Complete)
    (hFrg : message.map (fun seg => seg.header.frg.toNat) = (List.range (k + 1)).reverse) {n : Nat}
    {buffer final : Vector UInt8 n} {size : Nat}
    (hRecv : s.recv buffer = .ok (next, final, .ok size)) :
    s.Consumes next message rest (final.toList.take size) ↔
      k = 0 ∨ ∃ last, message.getLast? = some last ∧ last.data ≠ [] := by
  obtain ⟨hFits, hPeek, remaining, hLoop, hReceiver, hFinal⟩ := recv_success hComplete hRecv
  have hSize := Receiver.peekSize_ok hComplete hPeek
  rw [hQueue, Receiver.joinFirst_message rest hFrg] at hSize hFinal
  have hMessage : ∀ seg ∈ message, seg.Complete :=
    fun seg hSeg => hComplete seg (by simp [hQueue, hSeg])
  obtain ⟨leftover, copied, hCopied, hLeftover⟩ :=
    Receiver.copyLoop_message hFits rest hMessage hFrg buffer
    ((Nat.zero_add _).trans hSize.symm)
  rw [← hQueue, hLoop] at hCopied
  obtain rfl : remaining = leftover ++ rest := (Prod.mk.inj (Except.ok.inj hCopied)).1
  rw [← hLeftover]
  constructor
  · intro hConsumes
    have hLengths := Receiver.move_inj (hReceiver.symm.trans hConsumes.receiver_eq)
    rw [List.length_append] at hLengths
    exact List.length_eq_zero_iff.mp (by omega)
  · rintro rfl
    refine ⟨?_, hReceiver, ?_⟩
    · rw [hFinal, hSize, List.take_left]
    · rw [hReceiver]
      exact Receiver.rcvQueue_prefix_move { s.receiver with rcvQueue := rest }

/-- A message of two segments, in front of another one. -/
def ImKcpp.twoMessages : ImKcpp .least :=
  { ImKcpp.create .least 0 with receiver := { rcvQueue :=
    [⟨{ frg := 1, len := 1 }, [7], {}⟩, ⟨{ frg := 0, len := 1 }, [8], {}⟩,
      ⟨{ len := 1 }, [9], {}⟩] } }

theorem ImKcpp.recv_consumes_two :
    ∃ next final, twoMessages.recv #v[(0 : UInt8), 0] = .ok (next, final, .ok 2) ∧
      twoMessages.Consumes next [⟨{ frg := 1, len := 1 }, [7], {}⟩,
        ⟨{ frg := 0, len := 1 }, [8], {}⟩]
        [⟨{ len := 1 }, [9], {}⟩] (final.toList.take 2) := by
  have hSize : (twoMessages.recv #v[(0 : UInt8), 0]).map (fun outcome => outcome.2.2) =
      .ok (.ok 2) := rfl
  obtain ⟨⟨next, final, result⟩, hRecv, hResult⟩ := map_eq_ok.mp hSize
  obtain rfl : result = .ok 2 := hResult
  refine ⟨next, final, hRecv,
    (recv_consumes_iff (k := 1) rfl ?_ rfl hRecv).mpr (.inr ⟨_, rfl, nofun⟩)⟩
  simp [twoMessages, Segment.Complete]

/-- A message of one byte, whose second segment is empty: `recv` leaves this segment. -/
theorem ImKcpp.recv_consumes_empty :
    ¬∀ (mtu : Mtu) (s next : ImKcpp mtu) (message rest : List Segment) (k n : Nat)
      (buffer final : Vector UInt8 n) (size : Nat),
      s.receiver.rcvQueue = message ++ rest → (∀ seg ∈ s.receiver.rcvQueue, seg.Complete) →
      message.map (fun seg => seg.header.frg.toNat) = (List.range (k + 1)).reverse →
      s.recv buffer = .ok (next, final, .ok size) →
      s.Consumes next message rest (final.toList.take size) := by
  intro hAll
  have hRuns : ((ImKcpp.create .least 0).input Host.x8664 (wire Host.x8664
      [⟨{ cmd := Commands.push, frg := 1, sn := 0, len := 1 }, [7]⟩,
        ⟨{ cmd := Commands.push, frg := 0, sn := 1, len := 0 }, []⟩]) >>= fun received =>
      (received.1.recv #v[(0 : UInt8)]).map fun outcome =>
        (received.1.receiver, outcome.1.receiver.rcvQueue.length, outcome.2.2)) =
      .ok ({ rcvQueue := [⟨{ cmd := Commands.push, frg := 1, sn := 0, len := 1 }, [7], {}⟩,
        ⟨{ cmd := Commands.push, frg := 0, sn := 1, len := 0 }, [], {}⟩]
             queueLimit := 128
             rcvNxt := 2 },
        1, .ok 1) := by decide +kernel
  obtain ⟨⟨s, _⟩, -, hRest⟩ := bind_eq_ok.mp hRuns
  obtain ⟨⟨next, final, result⟩, hRecv, hFacts⟩ := map_eq_ok.mp hRest
  simp only [Prod.mk.injEq] at hFacts
  obtain ⟨hReceiver, hLeft, rfl⟩ := hFacts
  have hConsumes := hAll .least s next _ [] 1 1 #v[(0 : UInt8)] final 1
    (by rw [hReceiver, List.append_nil]) (by simp [hReceiver, Segment.Complete]) rfl hRecv
  have hNone : next.receiver.rcvQueue.length = 0 := by
    rw [hConsumes.receiver_eq, hReceiver]
    rfl
  rw [hNone] at hLeft
  cases hLeft

end Imkcpp
