import Imkcpp.InputFrames
import Imkcpp.Library.Transition

/-! Runs of one endpoint. A party is an endpoint with the history of the calls
made on it; what was sent, received and acknowledged is read off the history. -/
namespace Imkcpp

open Transition

/-- The configuration functions of `ImKcpp`. -/
inductive Setting where
  | interval (value : UInt32)
  | nodelay (value : UInt32)
  | fastresend (value : UInt32)
  | fastlimit (value : UInt32)
  | sendWindow (value : UInt32)
  | receiveWindow (value : UInt32)
  | congestionWindowEnabled (value : Bool)
  | deadlink (value : UInt32)
  deriving DecidableEq

/-- A call of a public function. The span given to `recv` comes with its contents. -/
inductive Call where
  | configure (setting : Setting)
  | input (data : List UInt8)
  | recv {n : Nat} (buffer : Vector UInt8 n)
  | send (buffer : List UInt8)
  | check (current : UInt32)
  | update (current : UInt32)
  | flush

/-- What a call returns. For `recv` these are the bytes that it has written. -/
inductive Response where
  | none
  | input (result : Except Error InputResult)
  | recv (result : Except Error (List UInt8))
  | send (result : Except Error Nat)
  | check (next : UInt32)
  | flush (result : FlushResult)

structure Outcome (mtu : Mtu) where
  state : ImKcpp mtu
  response : Response := .none
  datagrams : List (List UInt8) := []

namespace ImKcpp

variable {mtu : Mtu} {host : Host}

def configure (s : ImKcpp mtu) : Setting → Except Fault (ImKcpp mtu)
  | .interval value => .ok (s.setInterval value)
  | .nodelay value => .ok (s.setNodelay value)
  | .fastresend value => .ok (s.setFastresend value)
  | .fastlimit value => .ok (s.setFastlimit value)
  | .sendWindow value => s.setSendWindow value
  | .receiveWindow value => s.setReceiveWindow value
  | .congestionWindowEnabled value => .ok (s.setCongestionWindowEnabled value)
  | .deadlink value => .ok (s.setDeadlink value)

/-- The state behind a setting that is made. -/
def configured (s : ImKcpp mtu) : Setting → ImKcpp mtu
  | .interval value => s.setInterval value
  | .nodelay value => s.setNodelay value
  | .fastresend value => s.setFastresend value
  | .fastlimit value => s.setFastlimit value
  | .sendWindow value => { s with
      congestionController := { s.congestionController with sndWnd := value, rmtWnd := value } }
  | .receiveWindow value => { s with
      congestionController := s.congestionController.setReceiveWindow value
      receiver := s.receiver.setQueueLimit value }
  | .congestionWindowEnabled value => s.setCongestionWindowEnabled value
  | .deadlink value => s.setDeadlink value

theorem eq_configured {s next : ImKcpp mtu} {setting : Setting}
    (h : s.configure setting = .ok next) :
    next = s.configured setting := by
  cases setting with
  | sendWindow value =>
      obtain ⟨-, -, hNext⟩ := bind_eq_ok.mp h
      exact (Except.ok.inj hNext).symm
  | receiveWindow value =>
      obtain ⟨-, -, hNext⟩ := bind_eq_ok.mp h
      exact (Except.ok.inj hNext).symm
  | _ => exact (Except.ok.inj h).symm

def perform (host : Host) (s : ImKcpp mtu) : Call → Except Fault (Outcome mtu)
  | .configure setting => do
    let state ← s.configure setting
    return { state }
  | .input data => do
    let (state, result) ← s.input host data
    return { state, response := .input result }
  | .recv buffer => do
    let (state, buffer, result) ← s.recv buffer
    return { state, response := .recv (result.map fun size => buffer.toList.take size) }
  | .send buffer => do
    let (state, result) ← s.send buffer
    return { state, response := .send result }
  | .check current =>
    let (state, next) := s.check current
    .ok { state, response := .check next }
  | .update current => do
    let (state, datagrams, result) ← s.update host current
    return { state, response := .flush result, datagrams }
  | .flush => do
    let (state, datagrams, result) ← s.flush host
    return { state, response := .flush result, datagrams }

/-- A call that makes a setting does nothing else. -/
theorem perform_configure {s : ImKcpp mtu} {setting : Setting} {outcome : Outcome mtu}
    (h : s.perform host (.configure setting) = .ok outcome) :
    outcome.state = s.configured setting := by
  obtain ⟨state, hState, hReturn⟩ := bind_eq_ok.mp h
  obtain rfl := Except.ok.inj hReturn
  exact eq_configured hState

theorem perform_input {s : ImKcpp mtu} {data : List UInt8} {outcome : Outcome mtu}
    (h : s.perform host (.input data) = .ok outcome) :
    ∃ result, s.input host data = .ok (outcome.state, result) := by
  obtain ⟨⟨state, result⟩, hInput, hReturn⟩ := bind_eq_ok.mp h
  obtain rfl := Except.ok.inj hReturn
  exact ⟨result, hInput⟩

theorem perform_recv {s : ImKcpp mtu} {n : Nat} {buffer : Vector UInt8 n} {outcome : Outcome mtu}
    (h : s.perform host (.recv buffer) = .ok outcome) :
    ∃ written result, s.recv buffer = .ok (outcome.state, written, result) := by
  obtain ⟨⟨state, written, result⟩, hRecv, hReturn⟩ := bind_eq_ok.mp h
  obtain rfl := Except.ok.inj hReturn
  exact ⟨written, result, hRecv⟩

theorem perform_flush {s state : ImKcpp mtu} {datagrams : List (List UInt8)} {result : FlushResult}
    (h : s.flush host = .ok (state, datagrams, result)) :
    s.perform host .flush = .ok { state, response := .flush result, datagrams } := by
  rw [perform, h, ok_bind]
  exact pure_eq_ok _

/-- Whether a call executes a flush: `flush` does nothing before the first
`update`, and `update` flushes only when a flush is due. -/
def flushes (s : ImKcpp mtu) : Call → Bool
  | .update current => (s.updateClock current).2
  | .flush => s.updated
  | _ => false

/-- The acknowledgements called for by segments that `s` processes: one for each
`PUSH` whose number is below `rcv_nxt + rcv_wnd` when its turn comes. -/
def dueAcks (s : ImKcpp mtu) : List Frame → List Ack
  | [] => []
  | frame :: rest =>
    (if frame.header.cmd = Commands.push ∧
        frame.header.sn < s.receiver.rcvNxt + s.congestionController.rcvWnd then
      [⟨frame.header.sn, frame.header.ts⟩] else []) ++ (s.applyFrame frame).dueAcks rest

end ImKcpp

/-- One call on an endpoint, with the state it was made in. -/
structure Event (mtu : Mtu) where
  before : ImKcpp mtu
  call : Call
  outcome : Outcome mtu

namespace Event

variable {mtu : Mtu}

/-- The buffer that a successful `send` has accepted. -/
def accepted (event : Event mtu) : List (List UInt8) :=
  match event.call, event.outcome.response with
  | .send buffer, .send (.ok _) => [buffer]
  | _, _ => []

/-- The message that a successful `recv` has returned. -/
def returned (event : Event mtu) : List (List UInt8) :=
  match event.outcome.response with
  | .recv (.ok message) => [message]
  | _ => []

/-- The acknowledgements that the segments of an `input` have called for. -/
def dueAcks (host : Host) (event : Event mtu) : List Ack :=
  match event.call with
  | .input data => event.before.dueAcks (scan host event.before.sharedCtx.conv data).1
  | _ => []

end Event

structure Party (mtu : Mtu) where
  endpoint : ImKcpp mtu
  history : List (Event mtu) := []

namespace Party

variable {mtu : Mtu}

def fresh (mtu : Mtu) (conv : UInt32) : Party mtu := { endpoint := .create mtu conv }

def record (party : Party mtu) (call : Call) (outcome : Outcome mtu) : Party mtu where
  endpoint := outcome.state
  history := party.history ++ [{ before := party.endpoint, call, outcome }]

def calls (party : Party mtu) : List Call := party.history.map Event.call

/-- All messages accepted by `send`, in order. -/
def accepted (party : Party mtu) : List (List UInt8) := party.history.flatMap Event.accepted

/-- All messages returned by `recv`, in order. -/
def returned (party : Party mtu) : List (List UInt8) := party.history.flatMap Event.returned

/-- All datagrams handed to the output callbacks, in order. -/
def emitted (party : Party mtu) : List (List UInt8) :=
  party.history.flatMap fun event => event.outcome.datagrams

/-- All acknowledgements ever called for, in the order of arrival. -/
def dueAcks (host : Host) (party : Party mtu) : List Ack :=
  party.history.flatMap (Event.dueAcks host)

/-- The acknowledgements called for since the last executed flush. -/
def pendingAcks (host : Host) (party : Party mtu) : List Ack :=
  party.history.foldl
    (fun acks event =>
      if event.before.flushes event.call then [] else acks ++ event.dueAcks host) []

/-- A call that stays within the defined behaviour of the program. -/
def Step (host : Host) (party next : Party mtu) (call : Call) : Prop :=
  ∃ outcome, party.endpoint.perform host call = .ok outcome ∧ next = party.record call outcome

/-- Make calls one after the other, up to the first that the program does not define. -/
def run (host : Host) : Party mtu → List Call → Except Fault (Party mtu)
  | party, [] => .ok party
  | party, call :: calls => do
    let outcome ← party.endpoint.perform host call
    run host (party.record call outcome) calls

section Record

variable (host : Host) (party : Party mtu) (call : Call) (outcome : Outcome mtu)

@[simp] theorem record_endpoint : (party.record call outcome).endpoint = outcome.state := rfl

@[simp] theorem record_calls : (party.record call outcome).calls = party.calls ++ [call] := by
  simp [calls, record]

@[simp] theorem record_accepted :
    (party.record call outcome).accepted =
      party.accepted ++ (⟨party.endpoint, call, outcome⟩ : Event mtu).accepted := by
  simp [accepted, record]

@[simp] theorem record_returned :
    (party.record call outcome).returned =
      party.returned ++ (⟨party.endpoint, call, outcome⟩ : Event mtu).returned := by
  simp [returned, record]

@[simp] theorem record_emitted :
    (party.record call outcome).emitted = party.emitted ++ outcome.datagrams := by
  simp [emitted, record]

@[simp] theorem record_dueAcks :
    (party.record call outcome).dueAcks host =
      party.dueAcks host ++ (⟨party.endpoint, call, outcome⟩ : Event mtu).dueAcks host := by
  simp [dueAcks, record]

@[simp] theorem record_pendingAcks :
    (party.record call outcome).pendingAcks host =
      if party.endpoint.flushes call then []
      else party.pendingAcks host ++
        (⟨party.endpoint, call, outcome⟩ : Event mtu).dueAcks host := by
  simp [pendingAcks, record]

end Record

end Party

/-- A fresh endpoint, on which any calls are made, with any bytes as input. -/
def endpointSystem (host : Host) (mtu : Mtu) (conv : UInt32) : System (Party mtu) where
  init party := party = .fresh mtu conv
  step party next := ∃ call, party.Step host next call

theorem Party.run_cons {host : Host} {mtu : Mtu} {party : Party mtu} {call : Call}
    {calls : List Call} {outcome : Outcome mtu}
    (h : party.endpoint.perform host call = .ok outcome) :
    party.run host (call :: calls) = (party.record call outcome).run host calls := by
  rw [run, h, ok_bind]

/-- A run over an append is the two runs. -/
theorem Party.run_append (host : Host) {mtu : Mtu} (party : Party mtu) (first second : List Call) :
    party.run host (first ++ second) =
      party.run host first >>= fun middle => middle.run host second := by
  induction first generalizing party with
  | nil => rfl
  | cons call rest ih =>
      rw [List.cons_append, run, run]
      cases party.endpoint.perform host call with
      | error fault => rfl
      | ok outcome => exact ih (party.record call outcome)

/-- Calls that all return and preserve a property of the party make a run that
returns and preserves it. -/
theorem Party.run_induct {host : Host} {mtu : Mtu} {P : Party mtu → Prop} {calls : List Call}
    (hStep : ∀ party, ∀ call ∈ calls, P party →
      ∃ outcome, party.endpoint.perform host call = .ok outcome ∧ P (party.record call outcome))
    {party : Party mtu} (hStart : P party) : ∃ next, party.run host calls = .ok next ∧ P next := by
  induction calls generalizing party with
  | nil => exact ⟨party, rfl, hStart⟩
  | cons call rest ih =>
      obtain ⟨outcome, hOutcome, hNext⟩ := hStep party call (by simp) hStart
      obtain ⟨next, hRun, hLast⟩ :=
        ih (fun other call hCall => hStep other call (by simp [hCall])) hNext
      exact ⟨next, (run_cons hOutcome).trans hRun, hLast⟩

/-- Runs lead from reachable states to reachable states. -/
theorem Party.reachable_run {host : Host} {mtu : Mtu} {conv : UInt32} {calls : List Call}
    {party next : Party mtu} (hReach : (endpointSystem host mtu conv).Reachable party)
    (hRun : party.run host calls = .ok next) : (endpointSystem host mtu conv).Reachable next := by
  induction calls generalizing party with
  | nil =>
      obtain rfl := Except.ok.inj hRun
      exact hReach
  | cons call calls ih =>
      obtain ⟨outcome, hOutcome, hRest⟩ := bind_eq_ok.mp hRun
      exact ih (hReach.step ⟨call, outcome, hOutcome, rfl⟩) hRest

/-- A run that finishes has made all of its calls. -/
theorem Party.calls_run {host : Host} {mtu : Mtu} {calls : List Call} {party next : Party mtu}
    (hRun : party.run host calls = .ok next) : next.calls = party.calls ++ calls := by
  induction calls generalizing party with
  | nil =>
      obtain rfl := Except.ok.inj hRun
      exact (List.append_nil _).symm
  | cons call calls ih =>
      obtain ⟨outcome, -, hRest⟩ := bind_eq_ok.mp hRun
      rw [ih hRest, Party.record_calls, List.append_assoc, List.singleton_append]

/-- A run prolongs the history. -/
theorem Party.history_of_leads {host : Host} {mtu : Mtu} {conv : UInt32} {party final : Party mtu}
    (hReach : (endpointSystem host mtu conv).Reachable party)
    (run : (endpointSystem host mtu conv).Leads party final) : party.history <+: final.history := by
  refine run.monotone (r := fun party final => party.history <+: final.history) ?_ ?_ ?_ hReach
  · exact fun party => List.prefix_rfl
  · exact fun _ _ _ first second => first.trans second
  · rintro party next - ⟨call, outcome, -, rfl⟩
    exact List.prefix_append _ _

/-- Every event of a history is a call on a reachable party with the history
before it. -/
theorem Party.exists_prior {host : Host} {mtu : Mtu} {conv : UInt32} {party : Party mtu}
    (hReach : (endpointSystem host mtu conv).Reachable party) {before after : List (Event mtu)}
    {event : Event mtu} (hHistory : party.history = before ++ event :: after) :
    ∃ prior, (endpointSystem host mtu conv).Reachable prior ∧ prior.history = before ∧
      prior.endpoint = event.before ∧
        prior.endpoint.perform host event.call = .ok event.outcome := by
  refine hReach.invariant (P := fun party => ∀ after, party.history = before ++ event :: after →
    ∃ prior, (endpointSystem host mtu conv).Reachable prior ∧ prior.history = before ∧
      prior.endpoint = event.before ∧
      prior.endpoint.perform host event.call = .ok event.outcome) ?_ ?_ after hHistory
  · rintro party rfl after hHistory
    simp [Party.fresh] at hHistory
  · rintro party next hReach hPrior ⟨call, outcome, hOutcome, rfl⟩ after hHistory
    rcases after.eq_nil_or_concat' with rfl | ⟨init, last, rfl⟩
    · obtain ⟨hBefore, hLast⟩ := List.append_inj' hHistory rfl
      obtain rfl := (List.cons.inj hLast).1
      exact ⟨party, hReach, hBefore, rfl, hOutcome⟩
    · rw [← List.cons_append, ← List.append_assoc] at hHistory
      exact hPrior init (List.append_inj' hHistory rfl).1

/-- What one event establishes and the events behind it preserve. -/
theorem Party.since_induct {host : Host} {mtu : Mtu} {conv : UInt32} {P : Party mtu → Prop}
    {before between : List (Event mtu)} {first : Event mtu}
    (hFirst : ∀ prior : Party mtu, (endpointSystem host mtu conv).Reachable prior →
      prior.history = before → prior.endpoint = first.before →
      prior.endpoint.perform host first.call = .ok first.outcome →
      P (prior.record first.call first.outcome))
    (hNext : ∀ prior : Party mtu, (endpointSystem host mtu conv).Reachable prior → P prior →
      ∀ event ∈ between, prior.endpoint = event.before →
      prior.endpoint.perform host event.call = .ok event.outcome →
      P (prior.record event.call event.outcome))
    {party : Party mtu} (hReach : (endpointSystem host mtu conv).Reachable party)
    (hHistory : party.history = before ++ first :: between) : P party := by
  refine hReach.invariant (P := fun party => ∀ made, made ⊆ between →
    party.history = before ++ first :: made → P party) ?_ ?_ between (List.Subset.refl _) hHistory
  · rintro party rfl made - hHistory
    simp [Party.fresh] at hHistory
  · rintro party next hReach hPrior ⟨call, outcome, hOutcome, rfl⟩ made hMade hHistory
    rcases made.eq_nil_or_concat' with rfl | ⟨init, last, rfl⟩
    · obtain ⟨hBefore, hLast⟩ := List.append_inj' hHistory rfl
      obtain rfl := (List.cons.inj hLast).1
      exact hFirst party hReach hBefore rfl hOutcome
    · rw [← List.cons_append, ← List.append_assoc] at hHistory
      obtain ⟨hBefore, hLast⟩ := List.append_inj' hHistory rfl
      obtain rfl := (List.cons.inj hLast).1
      have hInit := hPrior init (fun event hEvent => hMade (List.mem_append_left _ hEvent)) hBefore
      have hLast : (⟨party.endpoint, call, outcome⟩ : Event mtu) ∈ between := hMade (by simp)
      exact hNext party hReach hInit _ hLast rfl hOutcome

end Imkcpp
