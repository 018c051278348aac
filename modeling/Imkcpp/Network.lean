import Imkcpp.FlushPackets

/-! Two endpoints and the network between them. The network delivers datagrams
that the peer has emitted, any number of times, in any order, or never. -/
namespace Imkcpp

open Transition

variable {mtu : Mtu} {host : Host} {conv : UInt32}

inductive Side where
  | left
  | right
  deriving DecidableEq

namespace Side

def peer : Side → Side
  | left => right
  | right => left

@[simp] theorem peer_peer (side : Side) : side.peer.peer = side := by
  cases side <;> rfl

@[simp] theorem peer_ne (side : Side) : side.peer ≠ side := by
  cases side <;> decide

@[simp] theorem ne_peer (side : Side) : side ≠ side.peer := (peer_ne side).symm

theorem eq_or_eq_peer (side other : Side) : other = side ∨ other = side.peer := by
  cases side <;> cases other <;> decide

end Side

abbrev Network (mtu : Mtu) := Side → Party mtu

/-- One call on one side. The only datagrams that can be put in are those that
the other side has emitted. -/
def Network.Step (host : Host) (net next : Network mtu) : Prop :=
  ∃ side call party, (net side).Step host party call ∧
    (∀ data, call = .input data → data ∈ (net side.peer).emitted) ∧
    next = Function.update net side party

def networkSystem (host : Host) (mtu : Mtu) (conv : UInt32) : System (Network mtu) where
  init net := net = fun _ => .fresh mtu conv
  step := Network.Step host

/-- On its own, each side is an endpoint with some input. -/
theorem party_of_network {net : Network mtu} (h : (networkSystem host mtu conv).Reachable net)
    (side : Side) : (endpointSystem host mtu conv).Reachable (net side) := by
  refine h.invariant (P := fun net => (endpointSystem host mtu conv).Reachable (net side)) ?_ ?_
  · rintro net rfl
    exact .of_init rfl
  · rintro net next - hSide ⟨moving, call, party, hStep, -, rfl⟩
    by_cases hMoving : side = moving
    · subst hMoving
      rw [Function.update_self]
      exact hSide.step ⟨call, hStep⟩
    · rwa [Function.update_of_ne hMoving]

/-- A run of calls on one side, with input from the other side only. -/
theorem reachable_update {net : Network mtu} (h : (networkSystem host mtu conv).Reachable net)
    {side : Side} {calls : List Call} {party : Party mtu}
    (hRun : (net side).run host calls = .ok party)
    (hInput : ∀ data, .input data ∈ calls → data ∈ (net side.peer).emitted) :
    (networkSystem host mtu conv).Reachable (Function.update net side party) := by
  induction calls generalizing net with
  | nil =>
      obtain rfl := Except.ok.inj hRun
      rwa [Function.update_eq_self]
  | cons call calls ih =>
      obtain ⟨outcome, hOutcome, hRest⟩ := bind_eq_ok.mp hRun
      have hStep : Network.Step host net
          (Function.update net side ((net side).record call outcome)) :=
        ⟨side, call, _, ⟨outcome, hOutcome, rfl⟩,
          fun data hData => hInput data (by simp [hData]), rfl⟩
      have hTail := ih (h.step hStep)
      rw [Function.update_self, Function.update_of_ne side.peer_ne, Function.update_idem] at hTail
      exact hTail hRest fun data hData => hInput data (by simp [hData])

/-- One side runs without input, then the other with its datagrams. -/
theorem reachable_exchange {left right : Party mtu} {leftCalls rightCalls : List Call}
    (hLeft : (Party.fresh mtu conv).run host leftCalls = .ok left)
    (hRight : (Party.fresh mtu conv).run host rightCalls = .ok right)
    (hSilent : ∀ data, .input data ∉ leftCalls)
    (hInput : ∀ data, .input data ∈ rightCalls → data ∈ left.emitted) :
    (networkSystem host mtu conv).Reachable
      (Function.update (Function.update (fun _ => .fresh mtu conv) .left left) .right right) := by
  have hFirst : (networkSystem host mtu conv).Reachable
      (Function.update (fun _ => .fresh mtu conv) .left left) :=
    reachable_update (.of_init rfl) hLeft fun data hData => absurd hData (hSilent data)
  exact reachable_update hFirst hRight hInput

section Emitted

namespace ImKcpp

/-- Every datagram consists of whole segments that the peer's parser accepts. -/
theorem Effect.wire_of_mem {s : ImKcpp mtu} {call : Call} {outcome : Outcome mtu}
    (h : Effect host s call outcome) (hInvariant : s.Invariant) :
    ∀ datagram ∈ outcome.datagrams, ∃ frames, datagram = wire host frames ∧
      ∀ frame ∈ frames, frame.Accepted s.sharedCtx.conv ∧ frame.WellFormed := by
  cases h with
  | flush call start next packets result askSend askTell hStart hFlushes hFlushed =>
      intro datagram hDatagram
      obtain ⟨packet, hPacket, rfl⟩ := List.mem_map.mp hDatagram
      refine ⟨packet, rfl, fun frame hFrame => ?_⟩
      have hIssued := hFlushed.issued (hStart.invariant hInvariant).toSending frame
        (List.mem_flatten.mpr ⟨packet, hPacket, hFrame⟩)
      rw [← hStart.conv_eq]
      exact ⟨hIssued.accepted, hIssued.wellFormed⟩
  | _ => simp

/-- Acknowledgements are sent for entries of the list only. -/
theorem Effect.ack_of_mem {s : ImKcpp mtu} {call : Call} {outcome : Outcome mtu}
    (h : Effect host s call outcome) (hInvariant : s.Invariant) :
    ∀ frame ∈ outcome.datagrams.flatMap (framesOf host), frame.header.cmd = Commands.ack →
      ∃ ack ∈ s.ackController.acklist, frame.header.sn = ack.sn := by
  cases h with
  | flush call start next packets result askSend askTell hStart hFlushes hFlushed =>
      have hSending := (hStart.invariant hInvariant).toSending
      intro frame hFrame hCmd
      rw [hFlushed.framesOf_eq hSending, hFlushed.frames_eq] at hFrame
      obtain ⟨hWask, hWins, hPush⟩ : Commands.wask ≠ Commands.ack ∧ Commands.wins ≠ Commands.ack ∧
        Commands.push ≠ Commands.ack := by decide
      rcases mem_flushFrames.mp hFrame with ⟨ack, hAck, rfl⟩ | ⟨-, rfl⟩ | ⟨-, rfl⟩ | hData
      · rw [hStart.ackController_eq] at hAck
        exact ⟨ack, hAck, rfl⟩
      · exact absurd hCmd hWask
      · exact absurd hCmd hWins
      · exact absurd ((hSending.pushFrames_cmd frame hData).symm.trans hCmd) hPush
  | _ => simp

end ImKcpp

variable {party : Party mtu}

theorem wire_of_emitted (h : (endpointSystem host mtu conv).Reachable party) :
    ∀ datagram ∈ party.emitted, ∃ frames, datagram = wire host frames ∧
      ∀ frame ∈ frames, frame.Accepted conv ∧ frame.WellFormed := by
  refine h.invariant (P := fun party => ∀ datagram ∈ party.emitted, ∃ frames,
    datagram = wire host frames ∧ ∀ frame ∈ frames, frame.Accepted conv ∧ frame.WellFormed) ?_ ?_
  · rintro party rfl
    simp [Party.emitted, Party.fresh]
  · rintro party next hReach hPrior ⟨call, hStep⟩ datagram hDatagram
    have hInvariant := invariant_of_reachable hReach
    obtain ⟨outcome, hEffect, rfl⟩ := hStep.effect hInvariant
    rw [Party.record_emitted, List.mem_append] at hDatagram
    rcases hDatagram with hDatagram | hDatagram
    · exact hPrior datagram hDatagram
    · rw [← conv_of_reachable hReach]
      exact hEffect.wire_of_mem hInvariant datagram hDatagram

/-- The parser finds in an emitted datagram what its sender has put there. -/
theorem scan_of_emitted (h : (endpointSystem host mtu conv).Reachable party) {datagram : List UInt8}
    (hDatagram : datagram ∈ party.emitted) :
    ∀ frame ∈ (scan host conv datagram).1, frame ∈ party.emittedFrames host := by
  obtain ⟨frames, rfl, hFrames⟩ := wire_of_emitted h datagram hDatagram
  intro frame hFrame
  rw [scan_wire host conv frames hFrames] at hFrame
  refine List.mem_flatMap.mpr ⟨_, hDatagram, ?_⟩
  rw [framesOf_wire host frames fun other hOther => (hFrames other hOther).2]
  exact hFrame

/-- Acknowledgements on their way have been called for. -/
theorem ack_of_emitted (h : (endpointSystem host mtu conv).Reachable party) :
    (∀ ack ∈ party.endpoint.ackController.acklist, ack ∈ party.dueAcks host) ∧
    ∀ frame ∈ party.emittedFrames host, frame.header.cmd = Commands.ack →
      ∃ ack ∈ party.dueAcks host, frame.header.sn = ack.sn := by
  refine h.invariant (P := fun party =>
    (∀ ack ∈ party.endpoint.ackController.acklist, ack ∈ party.dueAcks host) ∧
    ∀ frame ∈ party.emittedFrames host, frame.header.cmd = Commands.ack →
      ∃ ack ∈ party.dueAcks host, frame.header.sn = ack.sn) ?_ ?_
  · rintro party rfl
    simp [Party.emittedFrames, Party.emitted, Party.fresh, ImKcpp.create]
  · rintro party next hReach ⟨hList, hEmitted⟩ ⟨call, hStep⟩
    have hInvariant := invariant_of_reachable hReach
    obtain ⟨outcome, hEffect, rfl⟩ := hStep.effect hInvariant
    rw [Party.record_dueAcks, Party.record_emittedFrames]
    refine ⟨fun ack hAck => ?_, fun frame hFrame hCmd => ?_⟩
    · rw [Party.record_endpoint, hEffect.acklist_eq] at hAck
      rw [List.mem_append]
      split_ifs at hAck
      · simp at hAck
      · exact (List.mem_append.mp hAck).imp_left (hList ack)
    · have hKnown : ∃ ack ∈ party.dueAcks host, frame.header.sn = ack.sn := by
        rcases List.mem_append.mp hFrame with hFrame | hFrame
        · exact hEmitted frame hFrame hCmd
        · obtain ⟨ack, hAck, hSn⟩ := hEffect.ack_of_mem hInvariant frame hFrame hCmd
          exact ⟨ack, hList ack hAck, hSn⟩
      obtain ⟨ack, hAck, hSn⟩ := hKnown
      exact ⟨ack, List.mem_append_left _ hAck, hSn⟩

end Emitted

end Imkcpp
