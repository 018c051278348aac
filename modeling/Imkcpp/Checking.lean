import Imkcpp.ClockShift
import Imkcpp.Polling
import Imkcpp.WindowAnnouncement

/-! What `check` leaves behind. It may move the flush deadline, and a later `update`
flushes or not according to the deadline; so a query that moves it shows, once there
is something to be flushed. -/
namespace Imkcpp

open Transition

variable {mtu : Mtu} {host : Host} {conv : UInt32}

namespace ImKcpp

/-- What the calls return and hand to the callback, one after the other. -/
def replies (host : Host) (s : ImKcpp mtu) (calls : List Call) :
    Except Fault (List (Response × List (List UInt8))) :=
  (({ endpoint := s } : Party mtu).run host calls).map Party.replies

theorem replies_two {s : ImKcpp mtu} {first second : Call} {middle last : Outcome mtu}
    (hFirst : s.perform host first = .ok middle)
    (hSecond : middle.state.perform host second = .ok last) :
    s.replies host [first, second] =
      .ok [(middle.response, middle.datagrams), (last.response, last.datagrams)] := by
  rw [replies, Party.run_cons hFirst, Party.run_cons hSecond]
  rfl

/-- A query so far from the deadline moves it. -/
def Jumps (s : ImKcpp mtu) (current : UInt32) : Prop :=
  s.updated = true ∧ Int32.abs (timeDelta current s.tsFlush) ≥ 10000

theorem check_of_jumps {s : ImKcpp mtu} {current : UInt32} (h : s.Jumps current) :
    (s.check current).1 = { s with tsFlush := current } := by
  unfold ImKcpp.check
  simp only [h.1, Bool.not_true, Bool.false_eq_true, if_false, if_pos h.2]
  split_ifs <;> rfl

theorem check_of_not_jumps {s : ImKcpp mtu} {current : UInt32} (h : ¬s.Jumps current) :
    (s.check current).1 = s := by
  unfold ImKcpp.check
  cases hUpdated : s.updated with
  | false => rfl
  | true =>
      have hNear : ¬Int32.abs (timeDelta current s.tsFlush) ≥ 10000 :=
        fun hFar => h ⟨hUpdated, hFar⟩
      simp only [Bool.not_true, Bool.false_eq_true, if_false, if_neg hNear]
      split_ifs <;> rfl

section Deadlines

variable {s : ImKcpp mtu} {now : UInt32}

/-- A millisecond before the deadline no flush is due. -/
theorem flushes_before (hUpdated : s.updated = true) (hDeadline : s.tsFlush = now + 1) :
    s.flushes (.update now) = false := by
  have hAhead : timeDelta now s.tsFlush = -1 := by
    have hMinus : now - (now + 1) = -1 := by grind
    rw [hDeadline, timeDelta, hMinus]
    rfl
  change (s.updateClock now).2 = false
  rw [updateClock_running hUpdated, hAhead, if_neg (by decide), if_neg (by decide)]

/-- One deadline is between ten seconds and half a turn behind the other. -/
theorem Jumps.apart {current : UInt32} (h : s.Jumps current) :
    (10000 ≤ (current - s.tsFlush).toNat ∧ (current - s.tsFlush).toNat ≤ 2 ^ 31) ∨
      (10000 ≤ (s.tsFlush - current).toNat ∧ (s.tsFlush - current).toNat ≤ 2 ^ 31) := by
  have hFar := h.2
  have hLimit : (10000 : Int32).toInt = 10000 := rfl
  have hLow := Int32.le_toInt (timeDelta current s.tsFlush)
  have hHigh := Int32.toInt_lt (timeDelta current s.tsFlush)
  rw [ge_iff_le, Int32.le_iff_toInt_le, hLimit] at hFar
  have hSize : 10000 ≤ (timeDelta current s.tsFlush).toInt.natAbs := by
    by_cases hLeast : -2 ^ 31 < (timeDelta current s.tsFlush).toInt
    · rw [WrappingClock.toInt_abs hLeast] at hFar
      omega
    · omega
  rw [timeDelta_eq_difference] at *
  rcases lt_or_ge (WrappingClock.difference current s.tsFlush).toInt 0 with hBehind | hAhead
  · have hNat := WrappingClock.toNat_of_difference_neg hBehind
    exact .inr (by omega)
  · have hNat := WrappingClock.toNat_of_difference_nonneg hAhead
    exact .inl (by omega)

/-- The later of two deadlines is not due when the earlier one has passed long ago. -/
theorem flushes_after {deadline : UInt32} (hUpdated : s.updated = true)
    (hDeadline : deadline = now + 1)
    (hApart : 10000 ≤ (deadline - s.tsFlush).toNat ∧ (deadline - s.tsFlush).toNat ≤ 2 ^ 31) :
    s.flushes (.update now) = true := by
  refine updateClock_snd_of_passed hUpdated ?_
  have hNat : (now - s.tsFlush).toNat + 1 = (deadline - s.tsFlush).toNat := by
    have hNow := now.toNat_lt
    have hFlush := s.tsFlush.toNat_lt
    rw [hDeadline] at hApart ⊢
    simp only [UInt32.toNat_sub, UInt32.toNat_add, UInt32.toNat_one] at hApart ⊢
    omega
  have hClose : (now - s.tsFlush).toNat < 2 ^ 31 := by omega
  have hInt := WrappingClock.toInt_difference_of_ahead hClose
  rw [timeDelta_eq_difference, ge_iff_le, Int32.le_iff_toInt_le, hInt]
  exact Int.natCast_nonneg _

end Deadlines

section Distinguish

@[simp] theorem applyFrame_tsFlush (s : ImKcpp mtu) (frame : Frame) :
    (s.applyFrame frame).tsFlush = s.tsFlush := by
  unfold ImKcpp.applyFrame ImKcpp.applyPush
  dsimp only
  split_ifs <;> rfl

/-- A peer that asks for the window. -/
def asking (host : Host) (conv : UInt32) : Call :=
  .input (wire host [⟨{ conv, cmd := Commands.wask }, []⟩])

/-- It is noted, and the timer goes on. -/
theorem Invariant.perform_asking {s : ImKcpp mtu} (h : s.Invariant) (host : Host) :
    ∃ outcome, s.perform host (asking host s.sharedCtx.conv) = .ok outcome ∧
      outcome.state.Invariant ∧
      outcome.state.updated = s.updated ∧ outcome.state.tsFlush = s.tsFlush ∧
      outcome.state.windowProber.Asked .askTell := by
  rcases h.perform host (asking host s.sharedCtx.conv) with
    ⟨outcome, hOutcome, hEffect⟩ | ⟨hZero, -⟩ | ⟨buffer, hSend, -⟩
  · have hKept : outcome.state.updated = s.updated ∧ outcome.state.tsFlush = s.tsFlush := by
      cases hEffect with
      | input data folded sndBuf controller result hFolded =>
          rw [hFolded]
          exact ⟨foldl_applyFrame_updated _ s,
            foldl_applyFrame_eq ImKcpp.tsFlush applyFrame_tsFlush _ s⟩
      | idle call start hStart => cases hStart
      | flush call start next packets result askSend askTell hStart => cases hStart
    refine ⟨outcome, hOutcome, hEffect.invariant h, hKept.1, hKept.2, ?_⟩
    refine h.asked_of_wask hOutcome ⟨{ conv := s.sharedCtx.conv, cmd := Commands.wask }, ?_, rfl⟩
    have hOther : Commands.wask ≠ Commands.push := by decide
    rw [headers_of_input rfl rfl hOther rfl rfl]
    exact List.mem_singleton_self _
  · rcases hZero with hZero | hZero <;> cases hZero
  · cases hSend

/-- If one of two endpoints flushes at a time when the other one does not, a peer's
question shows it. -/
theorem replies_ne {s t : ImKcpp mtu} (hS : s.Invariant) (hT : t.Invariant)
    (hConv : s.sharedCtx.conv = t.sharedCtx.conv) (hUpdatedS : s.updated = true)
    (hUpdatedT : t.updated = true)
    (hApart : 10000 ≤ (t.tsFlush - s.tsFlush).toNat ∧ (t.tsFlush - s.tsFlush).toNat ≤ 2 ^ 31) :
    s.replies host [asking host s.sharedCtx.conv, .update (t.tsFlush - 1)] ≠
      t.replies host [asking host s.sharedCtx.conv, .update (t.tsFlush - 1)] := by
  have hDeadline : t.tsFlush = t.tsFlush - 1 + 1 := (UInt32.sub_add_cancel _ _).symm
  obtain ⟨asked, hAsked, hInvariant, hUpdated, hFlush, hOwed⟩ := hS.perform_asking host
  obtain ⟨asked', hAsked', hInvariant', hUpdated', hFlush', -⟩ := hT.perform_asking host
  obtain ⟨last, hLast, -⟩ := hInvariant.updateEffect host (t.tsFlush - 1)
  obtain ⟨last', hLast', -⟩ := hInvariant'.updateEffect host (t.tsFlush - 1)
  rw [← hConv] at hAsked'
  rw [hUpdatedS] at hUpdated
  rw [hUpdatedT] at hUpdated'
  rw [← hFlush] at hApart
  have hFlushes := flushes_after hUpdated hDeadline hApart
  have hIdle := flushes_before hUpdated' (hFlush'.trans hDeadline)
  obtain ⟨frame, hFrame, -⟩ := hInvariant.announces hLast hFlushes hOwed
  have hSilent := ((hInvariant'.effect hLast').without_flush hIdle).1
  rw [replies_two hAsked hLast, replies_two hAsked' hLast', hSilent]
  intro hSame
  obtain ⟨-, hLasts⟩ := List.cons.inj (Except.ok.inj hSame)
  obtain ⟨-, hNone⟩ := Prod.mk.inj (List.cons.inj hLasts).1
  rw [hNone] at hFrame
  cases hFrame

end Distinguish

end ImKcpp

/-- A query leaves no trace in what later calls do exactly when it is near the flush
deadline, as the endpoint sees it, or comes before the first `update`. -/
theorem check_pure_iff {party : Party mtu} (hReach : (endpointSystem host mtu conv).Reachable party)
    (current : UInt32) :
    (∀ calls, (party.endpoint.check current).1.replies host calls =
      party.endpoint.replies host calls) ↔
      ¬party.endpoint.Jumps current := by
  have hInvariant := invariant_of_reachable hReach
  constructor
  · intro hSame hJumps
    have hChecked := ImKcpp.check_of_jumps hJumps
    have hMoved : ({ party.endpoint with tsFlush := current } : ImKcpp mtu).Invariant :=
      { hInvariant with }
    rw [hChecked] at hSame
    rcases hJumps.apart with hLater | hEarlier
    · exact ImKcpp.replies_ne hInvariant hMoved rfl hJumps.1 hJumps.1 hLater (hSame _).symm
    · exact ImKcpp.replies_ne hMoved hInvariant rfl hJumps.1 hJumps.1 hEarlier (hSame _)
  · intro hNear calls
    rw [ImKcpp.check_of_not_jumps hNear]

/-- Asking half an interval ahead. -/
theorem check_pure_near :
    ∃ party : Party .least, (Party.fresh .least 0).run Host.x8664 [.update 0] = .ok party ∧
      ∀ calls, (party.endpoint.check 50).1.replies Host.x8664 calls =
        party.endpoint.replies Host.x8664 calls := by
  have hTimers : ((Party.fresh .least 0).run Host.x8664 [.update 0]).map
      (fun party => party.endpoint.tsFlush) = .ok 100 := by decide +kernel
  obtain ⟨party, hRun, hDeadline⟩ := map_eq_ok.mp hTimers
  refine ⟨party, hRun, (check_pure_iff (Party.reachable_run (.of_init rfl) hRun) 50).mpr ?_⟩
  have hNear : ¬Int32.abs (timeDelta 50 100) ≥ 10000 := by decide
  rw [← hDeadline] at hNear
  exact fun hJumps => hNear hJumps.2

/-- Ten seconds ahead, `check` puts off a flush that is due before. -/
theorem check_pure_far :
    ¬∀ (mtu : Mtu) (host : Host) (conv : UInt32) (party : Party mtu),
      (endpointSystem host mtu conv).Reachable party → ∀ (current : UInt32) (calls : List Call),
        (party.endpoint.check current).1.replies host calls =
          party.endpoint.replies host calls := by
  intro hAll
  have hRuns : ((Party.fresh .least 0).run Host.x8664 [.update 0] >>= fun party =>
      ((party.endpoint.check 10100).1.replies Host.x8664 [.send [1], .update 200]).bind fun after =>
        (party.endpoint.replies Host.x8664 [.send [1], .update 200]).map fun before =>
          (after.map fun reply => reply.2.length, before.map fun reply => reply.2.length)) =
      .ok ([0, 0], [0, 1]) := by decide +kernel
  obtain ⟨party, hRun, hBoth⟩ := bind_eq_ok.mp hRuns
  obtain ⟨after, hAfter, hBefore⟩ := bind_eq_ok.mp hBoth
  obtain ⟨before, hBefore, hLengths⟩ := map_eq_ok.mp hBefore
  have hSame := hAll .least Host.x8664 0 party (Party.reachable_run (.of_init rfl) hRun) 10100
    [.send [1], .update 200]
  rw [hAfter, hBefore] at hSame
  obtain rfl := Except.ok.inj hSame
  obtain ⟨hNone, hOne⟩ := Prod.mk.inj hLengths
  rw [hNone] at hOne
  exact absurd hOne (by decide)

end Imkcpp
