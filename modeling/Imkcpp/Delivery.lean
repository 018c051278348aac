import Imkcpp.Refinement

/-! Reliable delivery over a lossy network: `recv` returns what `send` has
accepted, in order and once, and nothing is given up before it has arrived. -/
namespace Imkcpp

open Transition Fragmentation

variable {mtu : Mtu} {host : Host} {conv : UInt32}

/-- The messages returned on one side are the first of those accepted on the other. -/
theorem returned_prefix {net : Network mtu} (h : (networkSystem host mtu conv).Reachable net) :
    ∀ side, (net side.peer).returned <+: (net side).accepted := by
  intro side
  obtain ⟨s, -, hLink⟩ := link_of_reachable h side
  exact hLink.returned

/-- The datagram of a one-byte fragment from a fresh endpoint. -/
def fragmentDatagram (sn : UInt32) (frg byte : UInt8) : List UInt8 :=
  wire Host.x8664 [⟨{ cmd := Commands.push, frg, wnd := 128, sn, len := 1 }, [byte]⟩]

theorem returned_prefix_fragments :
    ∃ net : Network .least, (networkSystem Host.x8664 .least 0).Reachable net ∧
      (net .right).returned = [[1, 2]] ∧ (net .right).returned <+: (net .left).accepted := by
  have hSend : ((Party.fresh .least 0).run Host.x8664
      [.configure (.congestionWindowEnabled false), .send [1, 2], .update 0]).map Party.emitted =
        .ok [fragmentDatagram 0 1 1, fragmentDatagram 1 0 2] := by decide +kernel
  have hReceive : ((Party.fresh .least 0).run Host.x8664
      [.input (fragmentDatagram 1 0 2), .input (fragmentDatagram 0 1 1),
        .input (fragmentDatagram 1 0 2), .recv (Vector.replicate 2 0)]).map Party.returned =
        .ok [[1, 2]] := by decide +kernel
  obtain ⟨left, hLeft, hEmitted⟩ := map_eq_ok.mp hSend
  obtain ⟨right, hRight, hReturned⟩ := map_eq_ok.mp hReceive
  have hReach := reachable_exchange hLeft hRight (by simp) (by simp [hEmitted])
  exact ⟨_, hReach, hReturned, returned_prefix hReach .left⟩

/-- A party has the payload of a segment, in its place in the stream. -/
def Party.Stores (party : Party mtu) (seg : Segment) : Prop :=
  party.received[seg.header.sn.toNat]? = some seg.fragment ∨
    ∃ held ∈ party.endpoint.receiver.rcvBuf,
      held.header.sn = seg.header.sn ∧ held.fragment = seg.fragment

/-- What the sender may release, the receiver has. -/
theorem Link.stores {a b : Party mtu} {s : SelectiveRepeat.State (Fragment UInt8)}
    (h : Link host a b s) (hProtocol : SelectiveRepeat.Invariant s) {seg : Segment}
    (hSeg : seg ∈ a.endpoint.senderBuffer.sndBuf) (hReleasable : s.Releasable seg.header.sn.toNat) :
    b.Stores seg := by
  have hBuffered : seg.numbered ∈ s.buffered := by
    rw [h.buffered_eq]
    exact mem_items.mpr ⟨seg, hSeg, rfl⟩
  have hItem : s.produced[seg.header.sn.toNat]? = some seg.fragment :=
    (hProtocol.buffered _ hBuffered).2
  rcases hProtocol.eq_of_stored hItem
    (hProtocol.stored_of_releasable hReleasable) with hDelivered | hHeld
  · left
    rw [← h.delivered_eq, hDelivered]
  · rw [h.held_eq, mem_items] at hHeld
    obtain ⟨held, hHeld, hSame⟩ := hHeld
    obtain ⟨hSn, hFragment⟩ := Prod.mk.inj hSame
    exact .inr ⟨held, hHeld, UInt32.toNat_inj.mp hSn, hFragment⟩

/-- Every number given out is buffered by the sender or stored by the receiver,
and a segment leaves the sender buffer only when the receiver has its payload. -/
theorem numbers_kept {net : Network mtu} (h : (networkSystem host mtu conv).Reachable net)
    (side : Side) :
    (∀ sn < (net side).endpoint.segmentTracker.sndNxt,
      sn ∈ (net side).endpoint.numbers ∨ sn < (net side.peer).endpoint.receiver.rcvNxt ∨
        ∃ held ∈ (net side.peer).endpoint.receiver.rcvBuf, held.header.sn = sn) ∧
    ∀ next, Network.Step host net next → ∀ seg ∈ (net side).endpoint.senderBuffer.sndBuf,
      seg.header.sn ∉ (next side).endpoint.numbers → (net side.peer).Stores seg := by
  obtain ⟨s, hProtocol, hLink⟩ := link_of_reachable h side
  constructor
  · intro sn hSn
    have hAssigned : sn.toNat < s.assigned := by
      rw [hLink.assigned_eq]
      exact UInt32.lt_iff_toNat_lt.mp hSn
    rcases hProtocol.kept sn.toNat hAssigned with ⟨item, hItem⟩ | hDelivered | ⟨item, hItem⟩
    · rw [hLink.buffered_eq, mem_items] at hItem
      obtain ⟨seg, hSeg, hSame⟩ := hItem
      obtain rfl : seg.header.sn = sn := UInt32.toNat_inj.mp (congrArg Prod.fst hSame)
      exact .inl (List.mem_map_of_mem hSeg)
    · rw [hLink.length_eq] at hDelivered
      exact .inr (.inl (UInt32.lt_iff_toNat_lt.mpr hDelivered))
    · rw [hLink.held_eq, mem_items] at hItem
      obtain ⟨held, hHeld, hSame⟩ := hItem
      exact .inr (.inr ⟨held, hHeld, UInt32.toNat_inj.mp (congrArg Prod.fst hSame)⟩)
  · rintro next ⟨moving, call, party, hStep, hInput, rfl⟩ seg hSeg hGone
    have hSn : seg.header.sn ∈ (net side).endpoint.numbers := List.mem_map_of_mem hSeg
    by_cases hMoving : side = moving
    · subst hMoving
      have hReach := party_of_network h side
      have hInvariant := invariant_of_reachable hReach
      obtain ⟨outcome, hEffect, rfl⟩ := hStep.effect hInvariant
      rw [Function.update_self] at hGone
      obtain ⟨data, hCall, frame, hFrame, hAcknowledges⟩ :=
        hEffect.acknowledges hInvariant hSn hGone
      rw [conv_of_reachable hReach] at hFrame
      have hPeer := party_of_network h side.peer
      refine hLink.stores hProtocol hSeg (hLink.releasable (ack_of_emitted hPeer).2
        (scan_of_emitted hPeer (hInput data hCall)) _ ⟨frame, hFrame, _, rfl, hAcknowledges⟩)
    · rw [Function.update_of_ne hMoving] at hGone
      exact absurd hSn hGone

/-- The second fragment is acknowledged before the first has arrived: the one is held by
the receiver, the other still buffered. -/
theorem numbers_kept_acknowledged :
    ∃ net next : Network .least, (networkSystem Host.x8664 .least 0).Reachable net ∧
      Network.Step Host.x8664 net next ∧
      (net .left).endpoint.numbers = [0, 1] ∧ (next .left).endpoint.numbers = [0] ∧
      (∀ seg ∈ (net .left).endpoint.senderBuffer.sndBuf, seg.header.sn = 1 →
        (net .right).Stores seg) ∧
      ∀ sn < (next .left).endpoint.segmentTracker.sndNxt,
        sn ∈ (next .left).endpoint.numbers ∨ sn < (next .right).endpoint.receiver.rcvNxt ∨
          ∃ held ∈ (next .right).endpoint.receiver.rcvBuf, held.header.sn = sn := by
  obtain ⟨answer, hAnswer⟩ : ∃ answer, answer =
    wire Host.x8664 [⟨{ cmd := Commands.ack, wnd := 128, sn := 1 }, []⟩] := ⟨_, rfl⟩
  have hSend : (Party.fresh .least 0).run Host.x8664
      [.configure (.congestionWindowEnabled false), .send [1, 2], .update 0] >>= (fun party =>
        (party.endpoint.perform Host.x8664 (.input answer)).map fun outcome =>
          (party.emitted, party.endpoint.numbers, outcome.state.numbers)) =
      .ok ([fragmentDatagram 0 1 1, fragmentDatagram 1 0 2], [0, 1], [0]) := by
    rw [hAnswer]
    decide +kernel
  have hReceive :
      ((Party.fresh .least 0).run Host.x8664 [.input (fragmentDatagram 1 0 2), .update 0]).map
      Party.emitted = .ok [answer] := by
    rw [hAnswer]
    decide +kernel
  obtain ⟨left, hLeft, hInput⟩ := bind_eq_ok.mp hSend
  obtain ⟨outcome, hOutcome, hFacts⟩ := map_eq_ok.mp hInput
  simp only [Prod.mk.injEq] at hFacts
  obtain ⟨hEmitted, hBoth, hFirst⟩ := hFacts
  obtain ⟨right, hRight, hAnswered⟩ := map_eq_ok.mp hReceive
  have hReach := reachable_exchange hLeft hRight (by simp) (by simp [hEmitted])
  obtain ⟨net, hLeftIs, hRightIs, hNet⟩ : ∃ net : Network .least, net .left = left ∧
    net .right = right ∧
      (networkSystem Host.x8664 .least 0).Reachable net := ⟨_, rfl, rfl, hReach⟩
  obtain ⟨next, hNextIs, hStep⟩ : ∃ next : Network .least,
      (next .left).endpoint = outcome.state ∧ Network.Step Host.x8664 net next := by
    have hInput : ∀ data, Call.input answer = .input data → data ∈ (net .right).emitted := by
      rintro data ⟨⟩
      rw [hRightIs, hAnswered]
      exact List.mem_singleton_self _
    rw [← hLeftIs] at hOutcome
    refine ⟨_, ?_, .left, .input answer, _, ⟨outcome, hOutcome, rfl⟩, hInput, rfl⟩
    rw [Function.update_self, Party.record_endpoint]
  refine ⟨net, next, hNet, hStep, ?_, ?_, fun seg hSeg hSn => ?_,
    (numbers_kept (hNet.step hStep) .left).1⟩
  · rw [hLeftIs, hBoth]
  · rw [hNextIs, hFirst]
  · refine (numbers_kept hNet .left).2 next hStep seg hSeg ?_
    rw [hNextIs, hFirst, hSn]
    decide

end Imkcpp
