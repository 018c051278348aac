import Imkcpp.Effect

/-! Runs under arbitrary input. Every access to a span is checked in the model
and every assertion is kept, so a run that finishes has stayed inside all of its
spans and has met no assertion. -/
namespace Imkcpp

variable {mtu : Mtu} {host : Host}

/-- A successful `input` has not read beyond its datagram. -/
def Event.WithinDatagram (event : Event mtu) : Prop :=
  ∀ data counts, event.call = .input data → event.outcome.response = .input (.ok counts) →
    counts.totalBytesReceived ≤ data.length

theorem ImKcpp.Effect.withinDatagram {s : ImKcpp mtu} {call : Call} {outcome : Outcome mtu}
    (h : s.Effect host call outcome) : (⟨s, call, outcome⟩ : Event mtu).WithinDatagram := by
  rintro data counts rfl hResponse
  cases h with
  | input data folded sndBuf controller result hFolded hCore hRcvWnd hTotal =>
      exact hTotal counts (Response.input.inj hResponse)
  | idle call start hStart => cases hResponse
  | flush call start next packets result askSend askTell hStart => cases hResponse

/-- Every run whose windows are not empty finishes, whatever bytes `input` is
given. Only fragments of 4 GiB and more can stop one, at the assertion of `send`
that their size fits into the length field. -/
theorem run_safe (host : Host) (mtu : Mtu) (conv : UInt32) (calls : List Call)
    (hAllowed : ∀ call ∈ calls,
      call ≠ .configure (.sendWindow 0) ∧ call ≠ .configure (.receiveWindow 0)) :
    (∃ party, (Party.fresh mtu conv).run host calls = .ok party ∧
      ∀ event ∈ party.history, event.WithinDatagram) ∨
    (2 ^ 32 ≤ mtu.maxSegmentSize ∧
      (Party.fresh mtu conv).run host calls = .error (.assertion .sender)) := by
  have hRun : ∀ party : Party mtu, party.endpoint.Invariant →
      (∀ event ∈ party.history, event.WithinDatagram) →
      (∃ next, party.run host calls = .ok next ∧ ∀ event ∈ next.history, event.WithinDatagram) ∨
        (2 ^ 32 ≤ mtu.maxSegmentSize ∧ party.run host calls = .error (.assertion .sender)) := by
    induction calls with
    | nil => exact fun party _ hHistory => .inl ⟨party, rfl, hHistory⟩
    | cons call calls ih =>
        intro party hInvariant hHistory
        obtain ⟨hSend, hReceive⟩ := hAllowed call (by simp)
        unfold Party.run
        rcases hInvariant.perform host call with
          ⟨outcome, hOutcome, hEffect⟩ | ⟨hZero, -⟩ | ⟨buffer, -, hLarge, hFault⟩
        · rw [hOutcome, ok_bind]
          refine ih (fun other hOther => hAllowed other (by simp [hOther])) _
            (hEffect.invariant hInvariant) ?_
          intro event hEvent
          rcases List.mem_append.mp hEvent with hEvent | hEvent
          · exact hHistory event hEvent
          · rw [List.mem_singleton.mp hEvent]
            exact hEffect.withinDatagram
        · exact absurd hZero (not_or.mpr ⟨hSend, hReceive⟩)
        · rw [hFault, error_bind]
          exact .inr ⟨hLarge, rfl⟩
  exact hRun _ (ImKcpp.invariant_create mtu conv) (by simp [Party.fresh])

theorem run_safe_garbage :
    ∃ party : Party .least, (Party.fresh .least 0).run Host.x8664
        [.send [1, 2], .input (List.replicate 30 0xff), .update 0] = .ok party ∧
      ∀ event ∈ party.history, event.WithinDatagram :=
  (run_safe Host.x8664 .least 0 _ (by simp)).resolve_right fun hFault => absurd hFault.1 (by decide)

end Imkcpp
