import Imkcpp.Messages
import Imkcpp.ReferenceState

/-! Queueing messages in both implementations. They cut a message alike, but refuse
different ones: 128 to 255 fragments are too many for the reference implementation only,
and an empty message is one segment there. -/
namespace Imkcpp

open Fragmentation

variable {mtu : Mtu}

theorem fragmentLoop_eq (mss : ℕ) {count : ℕ} (hCount : count ≤ 256) (buffer : List UInt8) :
    Ikcpcb.fragmentLoop mss 0 count buffer =
      (split mss count buffer).map fun piece => (Sender.segmentOf piece).toIkcp := by
  induction count generalizing buffer with
  | zero => rfl
  | succ remaining ih =>
      have hPiece : buffer.take (min buffer.length mss) = buffer.take mss := by
        rw [Nat.min_comm, ← List.take_eq_take_min]
      have hFrg : (UInt8.ofNat remaining).toUInt32 = UInt32.ofNat remaining := by
        rw [← UInt32.toNat_inj, UInt8.toNat_toUInt32, UInt8.toNat_ofNat', UInt32.toNat_ofNat']
        omega
      have hDrop : buffer.drop (min buffer.length mss) = buffer.drop mss := by
        rw [List.drop_eq_drop_iff]
        omega
      rw [Ikcpcb.fragmentLoop, split, List.map_cons, ← ih (by omega), if_pos rfl, hPiece, hDrop,
        Sender.segmentOf, ← hFrg, Nat.min_comm, ← List.length_take]
      rfl

/-- The reference implementation estimates the number of fragments in two cases. -/
theorem count_eq_estimateSegmentsCount (mtu : Mtu) {size : ℕ} (hSize : 0 < size) :
    (if size ≤ mtu.maxSegmentSize then 1
      else (size + mtu.maxSegmentSize - 1) / mtu.maxSegmentSize) =
      Sender.estimateSegmentsCount mtu size := by
  have hMss := mtu.maxSegmentSize_pos
  have hPositive : 1 ≤ (size + mtu.maxSegmentSize - 1) / mtu.maxSegmentSize := by
    rw [Nat.le_div_iff_mul_le hMss]
    omega
  rw [Sender.estimateSegmentsCount, Nat.max_eq_right hPositive]
  by_cases hOne : size ≤ mtu.maxSegmentSize
  · rw [if_pos hOne]
    refine (Nat.div_eq_of_lt_le ?_ ?_).symm <;> omega
  · rw [if_neg hOne]

namespace ImKcpp

variable {s : ImKcpp mtu}

/-- Both queue the same segments or refuse the message. -/
theorem send_toIkcpcb (hMtu : mtu.maxSegmentSize < 2 ^ 32)
    (hWindow : 128 ≤ s.congestionController.rcvWnd) {message : List UInt8} (hMessage : message ≠ [])
    (hCount : Sender.estimateSegmentsCount mtu message.length < 128 ∨
      255 < Sender.estimateSegmentsCount mtu message.length) (aside : Aside) :
    ∃ next result, s.send message = .ok (next, result) ∧
      (s.toIkcpcb aside).send message = (next.toIkcpcb aside,
        match result with
        | .ok size => (size : ℤ)
        | .error error => error.code) := by
  have hLength := List.length_pos_iff.mpr hMessage
  have hEstimate := count_eq_estimateSegmentsCount mtu hLength
  have hWindow : 128 ≤ s.congestionController.rcvWnd.toNat := UInt32.le_iff_toNat_le.mp hWindow
  have hSend : (s.toIkcpcb aside).send message =
      if Sender.estimateSegmentsCount mtu message.length ≥ 128 then (s.toIkcpcb aside, -2)
      else ({ s.toIkcpcb aside with
        sndQueue := (s.toIkcpcb aside).sndQueue ++
          Ikcpcb.fragmentLoop mtu.maxSegmentSize 0
            (Sender.estimateSegmentsCount mtu message.length) message },
        ((0 : ℕ) : ℤ) + (message.length : ℤ)) := by
    rw [← hEstimate]
    rfl
  rw [hSend]
  rcases hCount with hFew | hMany
  · rcases Sender.send_cases mtu s.sender s.congestionController.rcvWnd message with
      ⟨hRefused, -⟩ | ⟨-, -, -, -, hQueued⟩ | ⟨hLarge, -⟩
    · exfalso
      rcases hRefused with hEmpty | hMany | hWide
      · exact hMessage hEmpty
      · omega
      · omega
    · rw [ImKcpp.send, hQueued, ok_bind, if_neg (Nat.not_le.mpr hFew), fragmentLoop_eq _ (by omega)]
      refine ⟨_, _, rfl, Prod.ext ?_ (by simp)⟩
      simp [toIkcpcb, fragments, Function.comp_def]
    · exact absurd (hLarge.trans (min_le_right _ _)) (Nat.not_le.mpr hMtu)
  · have hRefused : Sender.send mtu s.sender s.congestionController.rcvWnd message =
        .ok (s.sender, .error .tooManyFragments) := by
      unfold Sender.send
      rw [if_neg (by simpa using hMessage)]
      exact if_pos hMany
    rw [ImKcpp.send, hRefused, ok_bind, if_pos (by omega)]
    exact ⟨_, _, rfl, rfl⟩

end ImKcpp
end Imkcpp
