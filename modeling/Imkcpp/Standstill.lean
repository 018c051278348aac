import Imkcpp.FlushRecurrence
import Imkcpp.Reassembly

/-! What a run without end no longer changes from some point on. Sequence numbers do
not fall, and there are only so many of them; so each counter comes to a stand, and
behind it the receive queues stay drained. -/
namespace Imkcpp

open Transition Fragmentation Filter Recurrence

variable {mtu : Mtu} {host : Host} {conv : UInt32}

namespace ImKcpp

/-- The receive window stays as it was set. -/
theorem Effect.windowed_of_steady {w : UInt32} {s : ImKcpp mtu} {call : Call}
    {outcome : Outcome mtu} (hEffect : Effect host s call outcome) (hInvariant : s.Invariant)
    (hSteady : call.Steady) (h : s.Windowed w) : outcome.state.Windowed w :=
  hEffect.windowed hInvariant h fun _ hSet => by
    rw [hSet] at hSteady
    exact hSteady

end ImKcpp

/-- A number given out is buffered, queued for reading, or held. -/
theorem Link.located {a b : Party mtu} {s : SelectiveRepeat.State (Fragment UInt8)}
    (h : Link host a b s) (hProtocol : SelectiveRepeat.Invariant s) {sn : UInt32}
    (hSn : sn < a.endpoint.segmentTracker.sndNxt) :
    (∃ seg ∈ a.endpoint.senderBuffer.sndBuf, seg.header.sn = sn) ∨ sn < b.endpoint.receiver.rcvNxt ∨
      ∃ held ∈ b.endpoint.receiver.rcvBuf, held.header.sn = sn := by
  have hAssigned : sn.toNat < s.assigned := by
    rw [h.assigned_eq]
    exact UInt32.lt_iff_toNat_lt.mp hSn
  rcases hProtocol.kept sn.toNat hAssigned with ⟨item, hItem⟩ | hDelivered | ⟨item, hItem⟩
  · rw [h.buffered_eq, mem_items] at hItem
    obtain ⟨seg, hSeg, hSame⟩ := hItem
    exact .inl ⟨seg, hSeg, UInt32.toNat_inj.mp (congrArg Prod.fst hSame)⟩
  · rw [h.length_eq] at hDelivered
    exact .inr (.inl (UInt32.lt_iff_toNat_lt.mpr hDelivered))
  · rw [h.held_eq, mem_items] at hItem
    obtain ⟨held, hHeld, hSame⟩ := hItem
    exact .inr (.inr ⟨held, hHeld, UInt32.toNat_inj.mp (congrArg Prod.fst hSame)⟩)

section Room

variable {net : Network mtu} {side : Side} {w : UInt32}

/-- With room in the queue, the number that the receiver waits for has not arrived. -/
theorem next_missing_of_room (hReach : (networkSystem host mtu conv).Reachable net)
    (hWindowed : (net side.peer).endpoint.Windowed w)
    (hRoom : (net side.peer).endpoint.receiver.rcvQueue.length < w.toNat) :
    ∀ seg ∈ (net side.peer).endpoint.receiver.rcvBuf,
      seg.header.sn ≠ (net side.peer).endpoint.receiver.rcvNxt := by
  intro seg hSeg hNext
  have hReceiver := (invariant_of_reachable (party_of_network hReach side.peer)).receiver
  have hFull := hWindowed.settled.full hReceiver hSeg hNext
  rw [Receiver.room, hWindowed.queueLimit_eq] at hFull
  omega

/-- With room in the queue, all that has been acknowledged has been put into it. -/
theorem una_le_of_room (hReach : (networkSystem host mtu conv).Reachable net)
    (hWindowed : (net side.peer).endpoint.Windowed w)
    (hRoom : (net side.peer).endpoint.receiver.rcvQueue.length < w.toNat) :
    (net side).endpoint.segmentTracker.sndUna ≤ (net side.peer).endpoint.receiver.rcvNxt := by
  by_contra hAhead
  have hSender := (invariant_of_reachable (party_of_network hReach side)).sender
  obtain ⟨s, hProtocol, hLink⟩ := link_of_reachable hReach side
  have hLt := UInt32.not_le.mp hAhead
  rcases hLink.located hProtocol (UInt32.lt_of_lt_of_le hLt hSender.una_le_nxt) with
    ⟨seg, hSeg, hSn⟩ | hBelow | ⟨held, hHeld, hSn⟩
  · exact UInt32.not_le.mpr hLt (hSn ▸ hSender.una_le seg hSeg)
  · exact UInt32.lt_irrefl _ hBelow
  · exact next_missing_of_room hReach hWindowed hRoom held hHeld hSn

end Room

section Drained

/-- A receiver with nothing to read, whose window is wide enough for the messages of its peer. -/
structure Network.Drained (net : Network mtu) (side : Side) (w : UInt32) : Prop where
  windowed : (net side.peer).endpoint.Windowed w
  count_le : ∀ message ∈ (net side).accepted,
    Sender.estimateSegmentsCount mtu message.length ≤ w.toNat
  waiting : ¬(net side.peer).endpoint.receiver.Ready

variable {net : Network mtu} {side : Side} {w : UInt32}

/-- A message that is not complete leaves room in the queue. -/
theorem Network.Drained.queue_lt (h : net.Drained side w)
    (hReach : (networkSystem host mtu conv).Reachable net) :
    (net side.peer).endpoint.receiver.rcvQueue.length < w.toNat := by
  by_contra hFull
  have hRoom : (net side.peer).endpoint.receiver.room = 0 := by
    rw [Receiver.room, h.windowed.queueLimit_eq]
    omega
  rcases (net side.peer).endpoint.receiver.peekSize_cases with
    ⟨hReady, -⟩ | ⟨-, hNil, -⟩ | ⟨-, -, hWaiting⟩
  · exact h.waiting hReady
  · have hPositive := UInt32.lt_iff_toNat_lt.mp h.windowed.positive
    rw [hNil] at hFull
    exact hFull hPositive
  · obtain ⟨s, hProtocol, hLink⟩ := link_of_reachable hReach side
    obtain ⟨message, more, hAccepted, hLong⟩ :=
      hLink.count_of_blocked hProtocol h.windowed ⟨hWaiting, hRoom⟩
    have hCount := h.count_le message (by rw [hAccepted]; simp)
    omega

/-- The number that the receiver waits for has not arrived. -/
theorem Network.Drained.next_missing (h : net.Drained side w)
    (hReach : (networkSystem host mtu conv).Reachable net) :
    ∀ seg ∈ (net side.peer).endpoint.receiver.rcvBuf,
      seg.header.sn ≠ (net side.peer).endpoint.receiver.rcvNxt :=
  next_missing_of_room hReach h.windowed (h.queue_lt hReach)

/-- All that has been acknowledged has been put into the queue. -/
theorem Network.Drained.una_le (h : net.Drained side w)
    (hReach : (networkSystem host mtu conv).Reachable net) :
    (net side).endpoint.segmentTracker.sndUna ≤ (net side.peer).endpoint.receiver.rcvNxt :=
  una_le_of_room hReach h.windowed (h.queue_lt hReach)

/-- Numbers are given to fragments of accepted messages. -/
theorem sndNxt_le_fragments (hReach : (networkSystem host mtu conv).Reachable net) (side : Side) :
    (net side).endpoint.segmentTracker.sndNxt.toNat ≤
      ((net side).accepted.flatMap (fragments mtu)).length := by
  obtain ⟨s, hProtocol, hLink⟩ := link_of_reachable hReach side
  rw [← hLink.assigned_eq, ← hLink.produced_eq]
  exact hProtocol.assigned_le

/-- The receiver waits for a number that may have been given out. -/
theorem rcvNxt_le_sndNxt (hReach : (networkSystem host mtu conv).Reachable net) (side : Side) :
    (net side.peer).endpoint.receiver.rcvNxt ≤ (net side).endpoint.segmentTracker.sndNxt := by
  obtain ⟨s, hProtocol, hLink⟩ := link_of_reachable hReach side
  have hLe := hProtocol.delivered_le
  rw [hLink.length_eq, hLink.assigned_eq] at hLe
  exact UInt32.le_iff_toNat_le.mpr hLe

/-- With nothing left to send or to read, everything has been returned. -/
theorem Network.Drained.returned_eq (h : net.Drained side w)
    (hReach : (networkSystem host mtu conv).Reachable net)
    (hQueue : (net side).endpoint.sender.sndQueue = [])
    (hBuffer : (net side).endpoint.senderBuffer.sndBuf = []) :
    (net side.peer).returned = (net side).accepted := by
  have hMissing := h.next_missing hReach
  have hLe := rcvNxt_le_sndNxt hReach side
  obtain ⟨s, hProtocol, hLink⟩ := link_of_reachable hReach side
  have hNext : (net side.peer).endpoint.receiver.rcvNxt =
      (net side).endpoint.segmentTracker.sndNxt := by
    refine UInt32.le_antisymm hLe (UInt32.not_lt.mp fun hLt => ?_)
    rcases hLink.located hProtocol hLt with ⟨seg, hSeg, -⟩ | hBelow | ⟨held, hHeld, hSn⟩
    · rw [hBuffer] at hSeg
      exact List.not_mem_nil hSeg
    · exact UInt32.lt_irrefl _ hBelow
    · exact hMissing held hHeld hSn
  -- every fragment has a number, and every number has been delivered
  have hAll : s.produced.length ≤ s.delivered.length := by
    have hQueued := hProtocol.queued_eq
    rw [hLink.queued_eq, hQueue, List.map_nil, List.drop_eq_nil_iff] at hQueued
    rw [hLink.length_eq, hNext, ← hLink.assigned_eq]
    exact hQueued
  obtain ⟨more, hMore, hPrefix⟩ := hLink.queue_prefix hProtocol
  have hRest : (net side.peer).endpoint.receiver.rcvQueue.map Segment.fragment =
      more.flatMap (fragments mtu) := by
    refine hPrefix.eq_of_length_le ?_
    rw [hLink.produced_eq, hMore, hLink.delivered_eq, Party.received, List.flatMap_append,
      List.length_append, List.length_append] at hAll
    omega
  suffices hNone : more = [] by rw [hMore, hNone, List.append_nil]
  by_contra hSome
  obtain ⟨message, others, rfl⟩ := List.exists_cons_of_ne_nil hSome
  have hLength := congrArg List.length hRest
  rw [List.length_map, List.flatMap_cons, List.length_append, fragments, split_length] at hLength
  have hPositive := Sender.estimateSegmentsCount_pos mtu message.length
  obtain ⟨first, rest, hFirst⟩ := List.exists_cons_of_length_pos
    (l := (net side.peer).endpoint.receiver.rcvQueue) (by omega)
  have hHead : (net side.peer).endpoint.receiver.rcvQueue.head? = some first := by
    rw [hFirst, List.head?_cons]
  have hCount := hLink.frg_of_pending hProtocol hMore hHead
  exact h.waiting ⟨first, hHead, by omega⟩

end Drained

/-- The messages of a run are small enough for the windows that they have to pass. -/
structure FairRun.Fits (run : FairRun host mtu conv) (window : Side → UInt32) : Prop where
  windowed : ∀ side, (run.net 0 side).endpoint.Windowed (window side)
  window_le : ∀ side, (window side).toNat ≤ 65535
  sndWnd_le : ∀ side, (run.net 0 side).endpoint.congestionController.sndWnd.toNat ≤ 65535
  count_le : ∀ i side, ∀ message ∈ (run.net i side).accepted,
    Sender.estimateSegmentsCount mtu message.length ≤ (window side.peer).toNat
  total_le : ∀ i side, ((run.net i side).accepted.flatMap (fragments mtu)).length + 65536 ≤ 2 ^ 32

namespace FairRun

variable {run : FairRun host mtu conv} {window una nxt next : Side → UInt32} {side : Side} {i : ℕ}

/-- Along the run the windows are those of its start. -/
theorem Fits.windowed_at (h : run.Fits window) (i : ℕ) (side : Side) :
    (run.net i side).endpoint.Windowed (window side) := by
  induction i with
  | zero => exact h.windowed side
  | succ i ih =>
      exact run.rel_succ (r := fun s t => s.Windowed (window side) → t.Windowed (window side))
        (fun _ => id)
        (fun _ _ _ hInvariant hOutcome hSteady =>
          (hInvariant.effect hOutcome).windowed_of_steady hInvariant hSteady) i side ih

theorem sndWnd_eq (run : FairRun host mtu conv) (i : ℕ) (side : Side) :
    (run.net i side).endpoint.congestionController.sndWnd =
      (run.net 0 side).endpoint.congestionController.sndWnd := by
  induction i with
  | zero => rfl
  | succ i ih =>
      refine Eq.trans ?_ ih
      refine run.rel_succ (r := fun s t => t.congestionController.sndWnd =
        s.congestionController.sndWnd)
        (fun _ => rfl) (fun s call outcome hInvariant hOutcome hSteady => ?_) i side
      rw [hInvariant.perform_sndWnd hOutcome]
      cases call with
      | configure => cases hSteady
      | _ => rfl

/-- A number that never falls comes to a stand. -/
theorem eventually_stands {f : ImKcpp mtu → UInt32}
    (hGrows : ∀ s call outcome, s.Invariant → s.Effect host call outcome → f s ≤ f outcome.state)
    (run : FairRun host mtu conv) (side : Side) :
    ∃ value, ∀ᶠ i in atTop, f (run.net i side).endpoint = value := by
  obtain ⟨value, hValue⟩ := eventually_const (f := fun i => (f (run.net i side).endpoint).toNat)
    (fun i => run.rel_succ (r := fun s t => (f s).toNat ≤ (f t).toNat) (fun _ => le_rfl)
      (fun s call outcome hInvariant hOutcome _ =>
        UInt32.le_iff_toNat_le.mp
          (hGrows s call outcome hInvariant (hInvariant.effect hOutcome))) i side)
    (fun i => (f (run.net i side).endpoint).toNat_lt.le)
  refine ⟨UInt32.ofNat value, hValue.mono fun i hSame => ?_⟩
  rw [← hSame, UInt32.ofNat_toNat]

/-- No whole message is left once nothing new can arrive. -/
theorem eventually_drained {value : UInt32}
    (hStands : ∀ᶠ i in atTop, (run.net i side).endpoint.receiver.rcvNxt = value) :
    ∀ᶠ i in atTop, ¬(run.net i side).endpoint.receiver.Ready := by
  refine eventually_of_kept ?_ ((run.reads side).mono fun i ⟨error, hError⟩ => ?_)
  · obtain ⟨start, hStart⟩ := eventually_atTop.mp hStands
    filter_upwards [eventually_ge_atTop start] with i hi hWaiting
    have hOnward := run.rel_succ (r := fun s t => s.receiver.Onward t.receiver) (fun _ => .refl _)
      (fun s call outcome hInvariant hOutcome _ =>
        (hInvariant.effect hOutcome).onward hInvariant) i side
    have hSame := hOnward.queue_eq hWaiting
        ((hStart (i + 1) (Nat.le_succ_of_le hi)).trans (hStart i hi).symm)
    unfold Receiver.Ready
    rwa [hSame]
  · rcases (run.net i side).endpoint.receiver.peekSize_cases with
      ⟨-, size, hSize⟩ | ⟨hWaiting, -⟩ | ⟨hWaiting, -⟩
    · cases hError.symm.trans hSize
    · exact hWaiting
    · exact hWaiting

/-- A state of the run in which nothing is ever going to be counted any more. -/
structure Rests (run : FairRun host mtu conv) (una nxt next : Side → UInt32) (i : ℕ) : Prop where
  una_eq : ∀ side, (run.net i side).endpoint.segmentTracker.sndUna = una side
  nxt_eq : ∀ side, (run.net i side).endpoint.segmentTracker.sndNxt = nxt side
  next_eq : ∀ side, (run.net i side).endpoint.receiver.rcvNxt = next side
  drained : ∀ side, ¬(run.net i side).endpoint.receiver.Ready

/-- What holds of both sides from some point on. -/
theorem eventually_sides {P : Side → ℕ → Prop} (h : ∀ side, ∀ᶠ i in atTop, P side i) :
    ∀ᶠ i in atTop, ∀ side, P side i := by
  filter_upwards [h .left, h .right] with i hLeft hRight side
  cases side with
  | left => exact hLeft
  | right => exact hRight

/-- Every run comes to rest. -/
theorem eventually_rests (run : FairRun host mtu conv) :
    ∃ una nxt next, ∀ᶠ i in atTop, run.Rests una nxt next i := by
  choose una hUna using run.eventually_stands (f := fun s => s.segmentTracker.sndUna)
    fun s call outcome hInvariant hEffect => (hEffect.progress hInvariant).una_le
  choose nxt hNxt using run.eventually_stands (f := fun s => s.segmentTracker.sndNxt)
    fun s call outcome hInvariant hEffect => (hEffect.progress hInvariant).nxt_le
  choose next hNext using run.eventually_stands (f := fun s => s.receiver.rcvNxt)
    fun s call outcome hInvariant hEffect => (hEffect.onward hInvariant).next_le
  refine ⟨una, nxt, next, ?_⟩
  filter_upwards [eventually_sides hUna, eventually_sides hNxt, eventually_sides hNext,
    eventually_sides fun side => eventually_drained (hNext side)] with i hUna hNxt hNext hDrained
  exact ⟨hUna, hNxt, hNext, hDrained⟩

/-- What rests, rests from then on. -/
theorem eventually_rests_succ (h : ∀ᶠ i in atTop, run.Rests una nxt next i) :
    ∀ᶠ i in atTop, run.Rests una nxt next i ∧ run.Rests una nxt next (i + 1) := by
  obtain ⟨start, hStart⟩ := eventually_atTop.mp h
  filter_upwards [eventually_ge_atTop start] with i hi
  exact ⟨hStart i hi, hStart (i + 1) (Nat.le_succ_of_le hi)⟩

end FairRun

end Imkcpp
