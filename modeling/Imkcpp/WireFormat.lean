import Imkcpp.Segment

/-! Headers between two hosts. Each host puts its words on the wire in one byte
order; two hosts understand each other when these orders agree. -/
namespace Imkcpp

open WordBytes

/-- Serialise a header on one host and deserialise its 24 bytes on another. -/
def transfer (sender receiver : Host) (header : SegmentHeader) : Except Fault SegmentHeader := do
  let (buffer, _) ← header.serialize sender (Vector.replicate 24 0) 0
  let (received, _) ← SegmentHeader.deserialize receiver buffer.toList 0
  return received

/-- A header whose words read the same in both byte orders. -/
def SegmentHeader.Symmetric (header : SegmentHeader) : Prop :=
  swap32 header.conv = header.conv ∧ swap16 header.wnd = header.wnd ∧
    swap32 header.ts = header.ts ∧ swap32 header.sn = header.sn ∧
    swap32 header.una = header.una ∧ swap32 header.len = header.len

instance (header : SegmentHeader) : Decidable header.Symmetric :=
  inferInstanceAs (Decidable (_ ∧ _))

/-- The bytes travel unchanged, and the receiver reads each field on its own. -/
theorem transfer_eq (sender receiver : Host) (header : SegmentHeader) :
    transfer sender receiver header =
      .ok (SegmentHeader.ofBytes receiver (header.bytes sender)) := by
  have hFits : 0 + (header.bytes sender).length ≤ 24 := by simp
  have hBuffer :
      (overwrite (Vector.replicate 24 (0 : UInt8)) 0 (header.bytes sender) hFits).toList =
      header.bytes sender := by
    simp
  unfold transfer
  rw [SegmentHeader.serialize_of_le hFits, ok_bind]
  dsimp only
  rw [hBuffer, SegmentHeader.deserialize_of_le (by simp), ok_bind, List.drop_zero,
    List.take_of_length_le (by simp)]
  rfl

/-- A word arrives unchanged between hosts of one wire order, and with its bytes
reversed between the others. -/
theorem unwire32_wire32_eq (sender receiver : Host) (value : UInt32) :
    receiver.unwire32 (sender.wire32 value) =
      if sender.wireOrder = receiver.wireOrder then value else swap32 value := by
  rw [Host.unwire32_eq _ _ (by simp), Host.wire32_eq]
  split_ifs with hOrder
  · rw [hOrder, ByteOrder.word32_bytes32]
  · rw [ByteOrder.eq_opposite_of_ne hOrder, ← ByteOrder.bytes32_swap32, ByteOrder.word32_bytes32]

theorem unwire16_wire16_eq (sender receiver : Host) (value : UInt16) :
    receiver.unwire16 (sender.wire16 value) =
      if sender.wireOrder = receiver.wireOrder then value else swap16 value := by
  rw [Host.unwire16_eq _ _ (by simp), Host.wire16_eq]
  split_ifs with hOrder
  · rw [hOrder, ByteOrder.word16_bytes16]
  · rw [ByteOrder.eq_opposite_of_ne hOrder, ← ByteOrder.bytes16_swap16, ByteOrder.word16_bytes16]

/-- On one host the codec is a bijection between headers and 24 bytes, at every offset that
leaves room for these. Serialising advances by 24 and touches no other byte, deserialising at
the same offset gives the header back; what is deserialised serialises to the bytes it came
from, in place and anywhere else. -/
theorem header_codec (host : Host) {n : Nat} (buffer : Vector UInt8 n) (offset : Nat)
    (h : offset + 24 ≤ n) :
    (∀ header : SegmentHeader, ∃ next, header.serialize host buffer offset =
      .ok (next, offset + 24) ∧
      next.toList.take offset = buffer.toList.take offset ∧
      next.toList.drop (offset + 24) = buffer.toList.drop (offset + 24) ∧
      SegmentHeader.deserialize host next.toList offset = .ok (header, offset + 24)) ∧
    ∃ header, SegmentHeader.deserialize host buffer.toList offset = .ok (header, offset + 24) ∧
      header.serialize host buffer offset = .ok (buffer, offset + 24) ∧
      ∀ {m : Nat} (other : Vector UInt8 m) (position : Nat), position + 24 ≤ m →
        ∃ next, header.serialize host other position = .ok (next, position + 24) ∧
          (next.toList.drop position).take 24 = (buffer.toList.drop offset).take 24 := by
  have hRead : ((buffer.toList.drop offset).take 24).length = 24 := by
    rw [List.length_take, List.length_drop, Vector.length_toList]
    omega
  have hBytes := SegmentHeader.bytes_ofBytes host hRead
  refine ⟨fun header => ?_, SegmentHeader.ofBytes host ((buffer.toList.drop offset).take 24),
    ?_, ?_, ?_⟩
  · have hFits : offset + (header.bytes host).length ≤ n := by rwa [SegmentHeader.bytes_length]
    refine ⟨_, SegmentHeader.serialize_of_le hFits, overwrite_before .., ?_, ?_⟩
    · exact overwrite_drop _ _ _ _ (by rw [SegmentHeader.bytes_length])
    · have hBack := overwrite_read buffer offset (header.bytes host) hFits
      rw [SegmentHeader.bytes_length] at hBack
      rw [SegmentHeader.deserialize_of_le (by rwa [Vector.length_toList]), hBack,
        SegmentHeader.ofBytes_bytes]
  · exact SegmentHeader.deserialize_of_le (by rwa [Vector.length_toList])
  · rw [SegmentHeader.serialize_of_le (by rwa [SegmentHeader.bytes_length])]
    simp only [hBytes]
    rw [overwrite_self buffer offset 24 _ h]
  · intro m other position hPosition
    have hFits : position + ((buffer.toList.drop offset).take 24).length ≤ m := by rwa [hRead]
    have hBack := overwrite_read other position _ hFits
    rw [hRead] at hBack
    refine ⟨overwrite other position _ hFits, ?_, hBack⟩
    rw [SegmentHeader.serialize_of_le (by rwa [SegmentHeader.bytes_length])]
    simp only [hBytes]

/-- A header in the middle of a datagram. -/
theorem header_codec_datagram :
    ∃ next, SegmentHeader.serialize Host.aarch64 { sn := 7, wnd := 128 }
      (Vector.replicate 60 (9 : UInt8)) 12 =
        .ok (next, 36) ∧
      SegmentHeader.deserialize Host.aarch64 next.toList 12 =
        .ok ({ sn := 7, wnd := 128 }, 36) := by
  obtain ⟨next, hSerialize, -, -, hDeserialize⟩ :=
    (header_codec Host.aarch64 (Vector.replicate 60 (9 : UInt8)) 12 (by decide)).1
      { sn := 7, wnd := 128 }
  exact ⟨next, hSerialize, hDeserialize⟩

/-- Between two hosts a header survives exactly when both put words on the wire
in the same order, or when its words do not depend on the order. -/
theorem transfer_eq_self_iff (sender receiver : Host) (header : SegmentHeader) :
    transfer sender receiver header = .ok header ↔
      sender.wireOrder = receiver.wireOrder ∨ header.Symmetric := by
  rw [transfer_eq, SegmentHeader.ofBytes_bytes_eq]
  simp only [unwire32_wire32_eq, unwire16_wire16_eq]
  by_cases hOrder : sender.wireOrder = receiver.wireOrder
  · simp [hOrder]
  · simp only [hOrder, if_false, false_or]
    unfold SegmentHeader.Symmetric
    constructor
    · intro hSame
      have hHeader := Except.ok.inj hSame
      exact ⟨congrArg SegmentHeader.conv hHeader, congrArg SegmentHeader.wnd hHeader,
        congrArg SegmentHeader.ts hHeader, congrArg SegmentHeader.sn hHeader,
        congrArg SegmentHeader.una hHeader, congrArg SegmentHeader.len hHeader⟩
    · rintro ⟨hConv, hWnd, hTs, hSn, hUna, hLen⟩
      rw [hConv, hWnd, hTs, hSn, hUna, hLen]

/-- Two little-endian machines that read each other's sequence numbers backwards. -/
theorem transfer_x8664_aarch64 :
    ¬∀ (sender receiver : Host) (header : SegmentHeader),
      transfer sender receiver header = .ok header := by
  intro hAll
  have hTransfer : transfer Host.x8664 Host.aarch64 { sn := 1 } = .ok { sn := 0x01000000 } := by
    decide +kernel
  have hSame := hTransfer.symm.trans (hAll Host.x8664 Host.aarch64 { sn := 1 })
  exact absurd hSame (by decide)

end Imkcpp
