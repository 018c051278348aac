import Imkcpp.ArrivalOrder
import Imkcpp.Delivery
import Imkcpp.Library.Recurrence
import Imkcpp.Polling
import Imkcpp.SendWindow
import Imkcpp.WindowAnnouncement

/-! Infinite runs over fair lossy links. The network may lose any datagram, but not
every transmission of a segment; it may delay, reorder and duplicate datagrams, but
not repeat one forever. Both sides go on calling `update` and reading. -/
namespace Imkcpp

open Transition Filter

variable {mtu : Mtu} {host : Host} {conv : UInt32}

/-- A call that makes no setting and does not move the flush deadline, as `check` may. -/
def Call.Steady : Call → Prop
  | .configure _ => False
  | .check _ => False
  | _ => True

/-- Among the segments that a call has emitted there is one of this command and number. -/
def Outcome.Emits (host : Host) (outcome : Outcome mtu) (kind : UInt8 → UInt32 → Prop) : Prop :=
  ∃ frame ∈ outcome.datagrams.flatMap (framesOf host), kind frame.header.cmd frame.header.sn

/-- The datagram that a call puts in has a segment of this command and number. -/
def Call.Brings (host : Host) (call : Call) (kind : UInt8 → UInt32 → Prop) : Prop :=
  ∃ data, call = .input data ∧ ∃ frame ∈ framesOf host data, kind frame.header.cmd frame.header.sn

/-- A run without end from any reachable state of a network. -/
structure FairRun (host : Host) (mtu : Mtu) (conv : UInt32) where
  net : ℕ → Network mtu
  moving : ℕ → Side
  call : ℕ → Call
  outcome : ℕ → Outcome mtu
  reachable_zero : (networkSystem host mtu conv).Reachable (net 0)
  perform_eq : ∀ i, (net i (moving i)).endpoint.perform host (call i) = .ok (outcome i)
  net_succ : ∀ i, net (i + 1) =
    Function.update (net i) (moving i) ((net i (moving i)).record (call i) (outcome i))
  genuine : ∀ i data, call i = .input data → data ∈ (net i (moving i).peer).emitted
  steady : ∀ i, (call i).Steady
  /-- The clock goes on, in steps of at most twelve days. -/
  clock : ∀ i now, call i = .update now → (net i (moving i)).endpoint.updated = true →
    0 < (now - (net i (moving i)).endpoint.current).toNat ∧
      (now - (net i (moving i)).endpoint.current).toNat ≤ 2 ^ 30
  updates : ∀ side, ∃ᶠ i in atTop, moving i = side ∧ ∃ now, call i = .update now
  /-- Again and again no whole message is left to read. -/
  reads : ∀ side, ∃ᶠ i in atTop, ∃ error, (net i side).endpoint.peekSize = .error error
  /-- What is transmitted again and again arrives again and again. -/
  fair : ∀ side kind, (∃ᶠ i in atTop, moving i = side ∧ (outcome i).Emits host kind) →
    ∃ᶠ i in atTop, moving i = side.peer ∧ (call i).Brings host kind
  /-- What arrives again and again is transmitted again and again. -/
  finite : ∀ side (datagrams : Set (List UInt8)),
    (∃ᶠ i in atTop, moving i = side.peer ∧ ∃ data ∈ datagrams, call i = .input data) →
    ∃ᶠ i in atTop, moving i = side ∧ ∃ data ∈ datagrams, data ∈ (outcome i).datagrams

/-- The receiver has got on: the next number has not gone back, and the queue has at most
lost whole messages and gained segments with new numbers. -/
structure Receiver.Onward (before after : Receiver) : Prop where
  next_le : before.rcvNxt ≤ after.rcvNxt
  queue_eq : ¬before.Ready → after.rcvNxt = before.rcvNxt → after.rcvQueue = before.rcvQueue

namespace Receiver.Onward

variable {before middle after : Receiver}

theorem refl (receiver : Receiver) : receiver.Onward receiver := ⟨UInt32.le_refl _, fun _ _ => rfl⟩

theorem trans (first : before.Onward middle) (second : middle.Onward after) :
    before.Onward after where
  next_le := UInt32.le_trans first.next_le second.next_le
  queue_eq := by
    intro hWaiting hSame
    have hMiddle : middle.rcvNxt = before.rcvNxt :=
      UInt32.le_antisymm (hSame ▸ second.next_le) first.next_le
    have hQueue := first.queue_eq hWaiting hMiddle
    have hStill : ¬middle.Ready := by
      unfold Receiver.Ready
      rwa [hQueue]
    rw [second.queue_eq hStill (hSame.trans hMiddle.symm), hQueue]

/-- Moving segments to the queue. -/
theorem move (h : ReceiverInvariant before) : before.Onward before.moveReceiveBufferToQueue where
  next_le := h.advanced.next_le
  queue_eq := by
    intro _ hSame
    have hCount := h.advanced.count
    rw [hSame, Nat.add_right_cancel_iff] at hCount
    exact (before.rcvQueue_prefix_move.eq_of_length hCount.symm).symm

theorem emplace (h : ReceiverInvariant before) {header : SegmentHeader} {data : List UInt8}
    (hComplete : header.len.toNat = data.length) (hNew : before.rcvNxt ≤ header.sn)
    (hBound : header.sn.toNat + 1 < 2 ^ 32) :
    before.Onward (before.emplaceSegment header data) := by
  rcases Receiver.emplaceSegment_cases h.increasing header data with
    ⟨-, hSame⟩ | ⟨hMissing, hInsert⟩
  · rw [hSame]
    exact refl before
  · rw [hInsert]
    have hSeg : ({ header, data } : Segment).Complete := hComplete
    have hMoved := move (h.store hSeg hNew hBound hMissing)
    exact ⟨hMoved.next_le, fun hWaiting hNext => hMoved.queue_eq hWaiting hNext⟩

end Receiver.Onward

namespace ImKcpp

theorem Invariant.applyFrame_onward {s : ImKcpp mtu} (h : s.Invariant) {frame : Frame}
    (hFrame : frame.Accepted s.sharedCtx.conv) :
    s.receiver.Onward (s.applyFrame frame).receiver := by
  by_cases hPush : frame.header.cmd = Commands.push
  · rw [applyFrame_push s hPush]
    split_ifs with hStores
    · have hBoth := hStores
      unfold storesPush at hBoth
      rw [Bool.and_eq_true] at hBoth
      exact .emplace h.receiver (hFrame.push_payload hPush) (of_decide_eq_true hBoth.2)
        (succ_lt_of_fits hBoth.1)
    · exact .refl _
  · have hSame : (s.applyFrame frame).receiver = s.receiver := by
      unfold ImKcpp.applyFrame
      dsimp only
      rw [if_neg hPush]
      split_ifs <;> rfl
    rw [hSame]
    exact .refl _

/-- Every call moves the receiver on. -/
theorem Effect.onward {s : ImKcpp mtu} {call : Call} {outcome : Outcome mtu}
    (hEffect : Effect host s call outcome) (hInvariant : s.Invariant) :
    s.receiver.Onward outcome.state.receiver := by
  cases hEffect with
  | configure => exact ⟨UInt32.le_refl _, fun _ _ => rfl⟩
  | input data folded sndBuf controller result hFolded =>
      dsimp only
      rw [hFolded]
      exact hInvariant.foldl_induct (P := fun t => s.receiver.Onward t.receiver)
        (fun t frame hPrior hFrame hOnward => hOnward.trans (hPrior.applyFrame_onward hFrame))
        (scan_accepted host s.sharedCtx.conv data) (.refl _)
  | recvRefused => exact .refl _
  | recv buffer rest prober hReady hSuffix =>
      have hMoved := Receiver.Onward.move (hInvariant.receiver.dequeue hSuffix)
      exact ⟨hMoved.next_le, fun hWaiting => absurd hReady hWaiting⟩
  | sendRefused => exact .refl _
  | send => exact .refl _
  | check => exact .refl _
  | idle call start hStart => cases hStart <;> exact .refl _
  | flush call start next packets result askSend askTell hStart hFlushes hFlushed =>
      rw [hFlushed.receiver_eq]
      cases hStart <;> exact .refl _

end ImKcpp

namespace FairRun

variable {run : FairRun host mtu conv} {side : Side} {i : ℕ}

theorem net_succ_moving (h : run.moving i = side) :
    run.net (i + 1) side = (run.net i side).record (run.call i) (run.outcome i) := by
  rw [run.net_succ, h, Function.update_self]

theorem net_succ_other (h : run.moving i ≠ side) : run.net (i + 1) side = run.net i side := by
  rw [run.net_succ, Function.update_of_ne (Ne.symm h)]

theorem endpoint_succ (h : run.moving i = side) :
    (run.net (i + 1) side).endpoint = (run.outcome i).state := by
  rw [net_succ_moving h, Party.record_endpoint]

theorem perform (h : run.moving i = side) :
    (run.net i side).endpoint.perform host (run.call i) = .ok (run.outcome i) :=
  h ▸ run.perform_eq i

/-- Every state of the run is reachable. -/
theorem reachable (run : FairRun host mtu conv) (i : ℕ) :
    (networkSystem host mtu conv).Reachable (run.net i) := by
  induction i with
  | zero => exact run.reachable_zero
  | succ i ih =>
      exact ih.step ⟨run.moving i, run.call i, _, ⟨run.outcome i, run.perform_eq i, rfl⟩,
        run.genuine i, run.net_succ i⟩

theorem party (run : FairRun host mtu conv) (i : ℕ) (side : Side) :
    (endpointSystem host mtu conv).Reachable (run.net i side) :=
  party_of_network (run.reachable i) side

theorem invariant (run : FairRun host mtu conv) (i : ℕ) (side : Side) :
    (run.net i side).endpoint.Invariant :=
  invariant_of_reachable (run.party i side)

theorem effect (h : run.moving i = side) :
    (run.net i side).endpoint.Effect host (run.call i) (run.outcome i) :=
  (run.invariant i side).effect (perform h)

/-- A relation that every steady call respects holds from one state to the next. -/
theorem rel_succ {r : ImKcpp mtu → ImKcpp mtu → Prop} (hRefl : ∀ s, r s s)
    (hCall : ∀ s call outcome, s.Invariant → s.perform host call = .ok outcome → call.Steady →
      r s outcome.state) (run : FairRun host mtu conv) (i : ℕ) (side : Side) :
    r (run.net i side).endpoint (run.net (i + 1) side).endpoint := by
  by_cases hMoving : run.moving i = side
  · rw [endpoint_succ hMoving]
    exact hCall _ _ _ (run.invariant i side) (perform hMoving) (run.steady i)
  · rw [net_succ_other hMoving]
    exact hRefl _

end FairRun

end Imkcpp
