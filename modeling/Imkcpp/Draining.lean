import Imkcpp.ReceiveWindow

/-! No deliverable segment is left behind, with one exception. Everything that
changes the receive buffer or empties the queue moves segments afterwards;
`set_receive_window` makes room in the queue and does not. -/
namespace Imkcpp

open Transition

variable {mtu : Mtu} {host : Host} {conv : UInt32}

/-- A limit for the queue that does not make room for a segment whose turn it is. -/
def Receiver.KeepsWaiting (receiver : Receiver) (limit : UInt32) : Prop :=
  ∀ seg, receiver.rcvBuf.head? = some seg → seg.header.sn = receiver.rcvNxt →
    limit.toNat ≤ receiver.rcvQueue.length

namespace Receiver.Settled

variable {receiver : Receiver}

theorem emplace (h : receiver.Settled) (hInvariant : ReceiverInvariant receiver)
    (header : SegmentHeader) (data : List UInt8) :
    (receiver.emplaceSegment header data).Settled := by
  rcases emplaceSegment_cases hInvariant.increasing header data with ⟨-, hSame⟩ | ⟨-, hInsert⟩
  · rwa [hSame]
  · rw [hInsert]
    exact move_settled _

end Receiver.Settled

namespace ImKcpp

/-- Every call but `set_receive_window` leaves nothing behind. -/
theorem Effect.settled {s : ImKcpp mtu} {call : Call} {outcome : Outcome mtu}
    (hEffect : Effect host s call outcome) (hInvariant : s.Invariant) (h : s.receiver.Settled)
    (hOther : ∀ value, call ≠ .configure (.receiveWindow value)) : outcome.state.receiver.Settled :=
  hEffect.receiver_kept (P := fun receiver _ => receiver.Settled) hInvariant
    (fun _ _ header data hReceiver hSettled => hSettled.emplace hReceiver header data)
    (fun _ _ _ _ _ _ => Receiver.move_settled _) hOther h

/-- `set_receive_window` leaves nothing behind exactly if there was nothing that
the new limit makes room for. -/
theorem settled_receiveWindow_iff {s : ImKcpp mtu} {value : UInt32} {outcome : Outcome mtu}
    (hOutcome : s.perform host (.configure (.receiveWindow value)) = .ok outcome) :
    outcome.state.receiver.Settled ↔ s.receiver.KeepsWaiting value := by
  rw [perform_configure hOutcome]
  exact Iff.rfl

end ImKcpp

/-- In a run, whatever can be delivered is in the queue in every state, if and
only if no `set_receive_window` has made room for a segment whose turn it was. -/
theorem settled_iff {party : Party mtu} (hReach : (endpointSystem host mtu conv).Reachable party) :
    (∀ event ∈ party.history, event.before.receiver.Settled ∧
      event.outcome.state.receiver.Settled) ↔
      ∀ event ∈ party.history, ∀ value, event.call = .configure (.receiveWindow value) →
        event.before.receiver.KeepsWaiting value := by
  suffices hRun : (∀ event ∈ party.history, ∀ value, event.call =
        .configure (.receiveWindow value) →
        event.before.receiver.KeepsWaiting value) →
      party.endpoint.receiver.Settled ∧ ∀ event ∈ party.history,
        event.before.receiver.Settled ∧ event.outcome.state.receiver.Settled by
    refine ⟨fun hSettled event hEvent value hCall => ?_, fun hCalls => (hRun hCalls).2⟩
    obtain ⟨before, after, hHistory⟩ := List.append_of_mem hEvent
    obtain ⟨prior, -, -, hBefore, hOutcome⟩ := Party.exists_prior hReach hHistory
    rw [hBefore, hCall] at hOutcome
    exact (ImKcpp.settled_receiveWindow_iff hOutcome).mp (hSettled event hEvent).2
  refine hReach.invariant (P := fun party =>
    (∀ event ∈ party.history, ∀ value, event.call = .configure (.receiveWindow value) →
      event.before.receiver.KeepsWaiting value) →
    party.endpoint.receiver.Settled ∧ ∀ event ∈ party.history,
      event.before.receiver.Settled ∧ event.outcome.state.receiver.Settled) ?_ ?_
  · rintro party rfl -
    exact ⟨by simp [Receiver.Settled, Party.fresh, ImKcpp.create], by simp [Party.fresh]⟩
  · rintro party next hReach hPrior ⟨call, outcome, hOutcome, rfl⟩ hCalls
    obtain ⟨hSettled, hEvents⟩ := hPrior fun event hEvent =>
      hCalls event (List.mem_append_left _ hEvent)
    have hNext : outcome.state.receiver.Settled := by
      by_cases hOther : ∀ value, call ≠ .configure (.receiveWindow value)
      · have hInvariant := invariant_of_reachable hReach
        exact (hInvariant.effect hOutcome).settled hInvariant hSettled hOther
      · obtain ⟨value, hValue⟩ := not_forall.mp hOther
        obtain rfl := not_not.mp hValue
        exact (ImKcpp.settled_receiveWindow_iff hOutcome).mpr
          (hCalls ⟨party.endpoint, _, outcome⟩ (by simp [Party.record]) value rfl)
    refine ⟨hNext, fun event hEvent => ?_⟩
    rcases List.mem_append.mp hEvent with hEvent | hEvent
    · exact hEvents event hEvent
    · rw [List.mem_singleton.mp hEvent]
      exact ⟨hSettled, hNext⟩

/-- The arrival of two segments at a receiver whose queue takes one. -/
def fillOne : List Call :=
  [.configure (.receiveWindow 1),
    .input (wire Host.x8664 [⟨{ cmd := Commands.push, len := 1 }, [1]⟩]),
    .input (wire Host.x8664 [⟨{ cmd := Commands.push, sn := 1, len := 1 }, [2]⟩])]

theorem settled_fillOne :
    ∃ party : Party .least, (Party.fresh .least 0).run Host.x8664 fillOne = .ok party ∧
      ((∀ event ∈ party.history,
          event.before.receiver.Settled ∧ event.outcome.state.receiver.Settled) ↔
        ∀ event ∈ party.history, ∀ value, event.call = .configure (.receiveWindow value) →
          event.before.receiver.KeepsWaiting value) := by
  have hRuns : ((Party.fresh .least 0).run Host.x8664 fillOne).map
      (fun party => party.history.length) = .ok 3 := by
    decide +kernel
  obtain ⟨party, hRun, -⟩ := map_eq_ok.mp hRuns
  exact ⟨party, hRun, settled_iff (Party.reachable_run (.of_init rfl) hRun)⟩

/-- Room is made for the second segment, and it stays where it is. -/
theorem not_settled_two :
    ¬∀ (mtu : Mtu) (host : Host) (conv : UInt32) (party : Party mtu),
      (endpointSystem host mtu conv).Reachable party → party.endpoint.receiver.Settled := by
  intro hAll
  have hRuns : ((Party.fresh .least 0).run Host.x8664
      (fillOne ++ [.configure (.receiveWindow 2)])).map (fun party =>
        (party.endpoint.receiver.rcvBuf.head?.map fun seg => seg.header.sn,
          party.endpoint.receiver.rcvNxt, party.endpoint.receiver.queueLimit,
          party.endpoint.receiver.rcvQueue.length)) = .ok (some 1, 1, 2, 1) := by
    decide +kernel
  obtain ⟨party, hRun, hFacts⟩ := map_eq_ok.mp hRuns
  simp only [Prod.mk.injEq, Option.map_eq_some_iff] at hFacts
  obtain ⟨⟨seg, hHead, hSn⟩, hNext, hLimit, hQueue⟩ := hFacts
  have hSettled :=
    hAll .least Host.x8664 0 party (Party.reachable_run (.of_init rfl) hRun) seg hHead
    (hSn.trans hNext.symm)
  rw [hLimit, hQueue] at hSettled
  exact absurd hSettled (by decide)

end Imkcpp
