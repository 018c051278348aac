import Imkcpp.Execution

/-! Settings that stay. A setting is made while the endpoint is still quiet, in
whatever sense a result needs, and is not made again; its value is then the last one
that has been set, or the one of the constructor. -/
namespace Imkcpp

open Transition

variable {mtu : Mtu} {host : Host} {conv : UInt32}

namespace Call

/-- The window that a call gives to `set_send_window`. -/
def sendWindow : Call → Option UInt32
  | .configure (.sendWindow value) => some value
  | _ => none

/-- The window that a call gives to `set_receive_window`. -/
def receiveWindow : Call → Option UInt32
  | .configure (.receiveWindow value) => some value
  | _ => none

theorem receiveWindow_eq_some {call : Call} {value : UInt32} :
    call.receiveWindow = some value ↔ call = .configure (.receiveWindow value) := by
  constructor
  · intro hSet
    cases call with
    | configure setting =>
        cases setting with
        | receiveWindow value => rw [← Option.some.inj hSet]
        | _ => cases hSet
    | _ => cases hSet
  · rintro rfl
    rfl

/-- The value that a call gives to `set_interval`. -/
def interval : Call → Option UInt32
  | .configure (.interval value) => some value
  | _ => none

/-- The threshold that a call gives to `set_deadlink`. -/
def deadlink : Call → Option UInt32
  | .configure (.deadlink value) => some value
  | _ => none

end Call

/-- What the last call that makes a setting has set. -/
def lastSet (read : Call → Option UInt32) (initial : UInt32)
    (history : List (Event mtu)) : UInt32 :=
  (history.filterMap fun event => read event.call).getLast?.getD initial

theorem lastSet_concat (read : Call → Option UInt32) (initial : UInt32) (history : List (Event mtu))
    (event : Event mtu) :
    lastSet read initial (history ++ [event]) =
      (read event.call).getD (lastSet read initial history) := by
  unfold lastSet
  rw [List.filterMap_append]
  cases hRead : read event.call <;> simp [hRead]

/-- The history begins with quiet events, behind which the setting has its value, and
no later call makes the setting. -/
def Fixed (read : Call → Option UInt32) (initial : UInt32) (quiet : Event mtu → Prop)
    (value : UInt32) (history : List (Event mtu)) : Prop :=
  ∃ early later, history = early ++ later ∧ (∀ event ∈ early, quiet event) ∧
    lastSet read initial early = value ∧ ∀ event ∈ later, read event.call = none

variable {read : Call → Option UInt32} {initial value : UInt32} {quiet : Event mtu → Prop}
  {history more : List (Event mtu)} {party : Party mtu}

/-- At an earlier point of the run the setting is fixed too, or the endpoint is still quiet. -/
theorem Fixed.of_append (h : Fixed read initial quiet value (history ++ more)) :
    Fixed read initial quiet value history ∨ ∀ event ∈ history, quiet event := by
  obtain ⟨early, later, hHistory, hQuiet, hValue, hKept⟩ := h
  rcases List.append_eq_append_iff.mp hHistory with ⟨rest, rfl, -⟩ | ⟨rest, rfl, rfl⟩
  · exact .inr fun event hEvent => hQuiet event (List.mem_append_left _ hEvent)
  · exact .inl ⟨early, rest, rfl, hQuiet, hValue,
      fun event hEvent => hKept event (List.mem_append_left _ hEvent)⟩

/-- Reading off the calls that a setting is fixed. -/
theorem Fixed.of_calls (early : List Call) {later : List Call}
    (hCalls : history.map Event.call = early ++ later)
    (hQuiet : ∀ event ∈ history, event.call ∈ early → quiet event)
    (hValue : (early.filterMap read).getLast?.getD initial = value)
    (hKept : ∀ call ∈ later, read call = none) : Fixed read initial quiet value history := by
  obtain ⟨first, last, rfl, rfl, rfl⟩ := List.map_eq_append_iff.mp hCalls
  refine ⟨first, last, rfl, ?_, ?_, ?_⟩
  · exact fun event hEvent =>
      hQuiet event (List.mem_append_left _ hEvent) (List.mem_map_of_mem hEvent)
  · rw [← hValue, lastSet, List.filterMap_map]
    rfl
  · exact fun event hEvent => hKept event.call (List.mem_map_of_mem hEvent)

/-- What quiet calls on a fresh endpoint preserve, whatever they set. -/
theorem Party.quiet_induct (read : Call → Option UInt32) (initial : UInt32)
    {Q : UInt32 → Party mtu → Prop} (hFresh : Q initial (.fresh mtu conv))
    (hQuiet : ∀ (party : Party mtu) value call outcome,
      (endpointSystem host mtu conv).Reachable party →
      Q value party → party.endpoint.perform host call = .ok outcome →
      quiet ⟨party.endpoint, call, outcome⟩ →
      Q ((read call).getD value) (party.record call outcome))
    (hReach : (endpointSystem host mtu conv).Reachable party)
    (hAll : ∀ event ∈ party.history, quiet event) :
    Q (lastSet read initial party.history) party := by
  refine hReach.invariant (P := fun party => (∀ event ∈ party.history, quiet event) →
    Q (lastSet read initial party.history) party) ?_ ?_ hAll
  · rintro party rfl -
    exact hFresh
  · rintro party next hReach hPrior ⟨call, outcome, hOutcome, rfl⟩ hAll
    dsimp only [Party.record] at hAll ⊢
    rw [lastSet_concat]
    refine hQuiet party _ call outcome hReach (hPrior fun event hEvent => ?_) hOutcome ?_
    · exact hAll event (List.mem_append_left _ hEvent)
    · exact hAll _ (List.mem_append_right _ (List.mem_singleton_self _))

/-- To prove something of all runs in which a setting is fixed: quiet calls preserve
what is needed at first, and all other calls preserve what it leads to. -/
theorem Fixed.induct {Q P : UInt32 → Party mtu → Prop} (hFresh : Q initial (.fresh mtu conv))
    (hQuiet : ∀ (party : Party mtu) value call outcome,
      (endpointSystem host mtu conv).Reachable party →
      Q value party → party.endpoint.perform host call = .ok outcome →
      quiet ⟨party.endpoint, call, outcome⟩ →
      Q ((read call).getD value) (party.record call outcome))
    (hStart : ∀ (party : Party mtu) value, (endpointSystem host mtu conv).Reachable party →
      Q value party → P value party)
    (hStep : ∀ (party : Party mtu) value call outcome,
      (endpointSystem host mtu conv).Reachable party →
      P value party → party.endpoint.perform host call = .ok outcome → read call = none →
      P value (party.record call outcome))
    (hReach : (endpointSystem host mtu conv).Reachable party)
    (hFixed : Fixed read initial quiet value party.history) : P value party := by
  refine hReach.invariant (P := fun party => Fixed read initial quiet value party.history →
    P value party)
    ?_ ?_ hFixed
  · rintro party rfl ⟨early, later, hHistory, -, hValue, -⟩
    obtain ⟨rfl, -⟩ := List.append_eq_nil_iff.mp hHistory.symm
    obtain rfl : initial = value := hValue
    exact hStart _ initial (.of_init rfl) hFresh
  · rintro party next hReach hPrior ⟨call, outcome, hOutcome, rfl⟩ ⟨early, later, hHistory,
      hAll, hValue, hKept⟩
    rcases later.eq_nil_or_concat' with rfl | ⟨init, last, rfl⟩
    · -- the endpoint is still quiet
      rw [List.append_nil] at hHistory
      have hNext := hReach.step ⟨call, outcome, hOutcome, rfl⟩
      rw [← hHistory] at hAll hValue
      refine hStart _ value hNext ?_
      rw [← hValue]
      exact Party.quiet_induct read initial hFresh hQuiet hNext hAll
    · rw [← List.append_assoc] at hHistory
      obtain ⟨hBefore, hLast⟩ := List.append_inj' hHistory rfl
      obtain rfl := (List.cons.inj hLast).1
      refine hStep party value call outcome hReach (hPrior ⟨early, init, hBefore, hAll, hValue,
        ?_⟩) hOutcome ?_
      · exact fun event hEvent => hKept event (List.mem_append_left _ hEvent)
      · exact hKept _ (List.mem_append_right _ (List.mem_singleton_self _))

end Imkcpp
