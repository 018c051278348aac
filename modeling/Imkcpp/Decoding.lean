import Mathlib.Data.UInt
import Imkcpp.FlushPackets

/-! What a flush encodes, `input` decodes: every datagram is taken apart at its
segment boundaries, whatever the receiver does with the segments, and the
counters of both sides agree. -/
namespace Imkcpp

open Transition

variable {mtu : Mtu} {host : Host}

namespace ImKcpp

/-- The counters of `input` for the segments that a flush reports. -/
structure Counted (before after : InputResult) (frames : List Frame) : Prop where
  ackCount : after.cmdAckCount = before.cmdAckCount +
    UInt32.ofNat (commandCount Commands.ack frames)
  waskCount : after.cmdWaskCount = before.cmdWaskCount +
    UInt32.ofNat (commandCount Commands.wask frames)
  winsCount : after.cmdWinsCount = before.cmdWinsCount +
    UInt32.ofNat (commandCount Commands.wins frames)

theorem Counted.nil (result : InputResult) : Counted result result [] where
  ackCount := (UInt32.add_zero _).symm
  waskCount := (UInt32.add_zero _).symm
  winsCount := (UInt32.add_zero _).symm

theorem Counted.append {first second third : InputResult} {frames others : List Frame}
    (hFirst : Counted first second frames) (hSecond : Counted second third others) :
    Counted first third (frames ++ others) := by
  refine ⟨?_, ?_, ?_⟩
  · rw [commandCount_append, UInt32.ofNat_add, ← UInt32.add_assoc, ← hFirst.ackCount,
      hSecond.ackCount]
  · rw [commandCount_append, UInt32.ofNat_add, ← UInt32.add_assoc, ← hFirst.waskCount,
      hSecond.waskCount]
  · rw [commandCount_append, UInt32.ofNat_add, ← UInt32.add_assoc, ← hFirst.winsCount,
      hSecond.winsCount]

/-- Counting may start from any result. -/
theorem Counted.shift {total : InputResult} {frames : List Frame} (h : Counted {} total frames)
    (before : InputResult) :
    Counted before {
      cmdAckCount := before.cmdAckCount + total.cmdAckCount
      cmdWaskCount := before.cmdWaskCount + total.cmdWaskCount
      cmdWinsCount := before.cmdWinsCount + total.cmdWinsCount } frames := by
  obtain ⟨hAck, hWask, hWins⟩ := h
  rw [UInt32.zero_add] at hAck hWask hWins
  refine ⟨?_, ?_, ?_⟩
  · rw [hAck]
  · rw [hWask]
  · rw [hWins]

/-- The order of the segments does not matter. -/
theorem Counted.perm {before after : InputResult} {frames others : List Frame}
    (h : Counted before after frames) (hPerm : frames.Perm others) :
    Counted before after others := by
  have hCount (cmd : UInt8) : commandCount cmd frames = commandCount cmd others := hPerm.countP_eq _
  obtain ⟨hAck, hWask, hWins⟩ := h
  rw [hCount] at hAck hWask hWins
  exact ⟨hAck, hWask, hWins⟩

/-- Every command has its own counter. -/
theorem noteFrame_counted (s : ImKcpp mtu) {frame : Frame} (ctx : InputContext)
    (hValid : Commands.isValid frame.header.cmd = true) :
    Counted ctx.result (s.noteFrame frame ctx).result [frame] := by
  have hSelf : ∀ other ∈ [frame], other.header.cmd = frame.header.cmd := by simp
  obtain ⟨hAckPush, hWaskPush, hWinsPush, hWaskAck, hWinsAck, hWinsWask⟩ :
      Commands.ack ≠ Commands.push ∧ Commands.wask ≠ Commands.push ∧ Commands.wins ≠ Commands.push ∧
      Commands.wask ≠ Commands.ack ∧ Commands.wins ≠ Commands.ack ∧
        Commands.wins ≠ Commands.wask := by
    decide
  unfold noteFrame
  dsimp only
  rcases (Commands.isValid_iff _).mp hValid with hCmd | hCmd | hCmd | hCmd <;> rw [hCmd] at hSelf ⊢
  · rw [if_pos rfl]
    split_ifs <;> constructor <;> rw [commandCount_of_forall hSelf] <;> simp [*]
  · rw [if_neg hAckPush, if_pos rfl]
    constructor <;> rw [commandCount_of_forall hSelf] <;> simp [*]
  · rw [if_neg hWaskPush, if_neg hWaskAck, if_pos rfl]
    constructor <;> rw [commandCount_of_forall hSelf] <;> simp [*, hWaskAck.symm]
  · rw [if_neg hWinsPush, if_neg hWinsAck, if_neg hWinsWask]
    constructor <;> rw [commandCount_of_forall hSelf] <;> simp [*, hWinsAck.symm, hWinsWask.symm]

theorem foldl_inputFrame_counted {frames : List Frame}
    (hFrames : ∀ frame ∈ frames, Commands.isValid frame.header.cmd = true)
    (s : ImKcpp mtu) (ctx : InputContext) :
    Counted ctx.result (frames.foldl inputFrame (s, ctx)).2.result frames := by
  induction frames generalizing s ctx with
  | nil => exact .nil ctx.result
  | cons frame rest ih =>
      have hFirst := s.noteFrame_counted ctx (hFrames frame (by simp))
      exact hFirst.append (ih (fun other hOther => hFrames other (by simp [hOther])) _ _)

/-- A datagram of acceptable whole segments is decoded, in any state. -/
theorem input_wire (host : Host) (s : ImKcpp mtu) {frames : List Frame}
    (hFrames : ∀ frame ∈ frames, frame.Accepted s.sharedCtx.conv ∧ frame.WellFormed)
    (hSize : 24 ≤ (wire host frames).length) :
    ∃ next counts, s.input host (wire host frames) = .ok (next, .ok counts) ∧
      counts.totalBytesReceived = (wire host frames).length ∧ Counted {} counts frames := by
  have hInput := s.input_eq host (wire host frames) hSize
  rw [scan_wire host s.sharedCtx.conv frames hFrames] at hInput
  refine ⟨_, _, hInput, ?_, ?_⟩
  · dsimp only
    rw [foldl_inputFrame_offset host, Nat.zero_add]
  · have hCounted := foldl_inputFrame_counted
      (fun frame hFrame => (hFrames frame hFrame).1.cmd_valid) s {}
    exact ⟨hCounted.ackCount, hCounted.waskCount, hCounted.winsCount⟩

/-- What a call that reports a flush has emitted. -/
theorem Effect.counted {s : ImKcpp mtu} {call : Call} {outcome : Outcome mtu}
    (h : Effect host s call outcome) (hInvariant : s.Invariant) {result : FlushResult}
    (hResult : outcome.response = .flush result) :
    ∃ packets : List (List Frame), outcome.datagrams = packets.map (wire host) ∧
      (∀ packet ∈ packets, 24 ≤ (wire host packet).length ∧
        ∀ frame ∈ packet, frame.Accepted s.sharedCtx.conv ∧ frame.WellFormed) ∧
      Counted {} { cmdAckCount := result.cmdAckCount, cmdWaskCount := result.cmdWaskCount,
                   cmdWinsCount := result.cmdWinsCount } packets.flatten := by
  cases h with
  | idle call start hStart hIdle =>
      obtain rfl := Response.flush.inj hResult
      exact ⟨[], rfl, by simp, .nil {}⟩
  | flush call start next packets reported askSend askTell hStart hFlushes hFlushed =>
      obtain rfl := Response.flush.inj hResult
      have hPacketised := hFlushed.packetised (hStart.invariant hInvariant).toSending
      rw [hStart.conv_eq] at hPacketised
      refine ⟨packets, rfl, ?_, ?_⟩
      · intro packet hPacket
        exact ⟨(hPacketised.sizes _ (List.mem_map_of_mem hPacket)).1,
          hPacketised.whole packet hPacket⟩
      · exact {
          ackCount := hPacketised.ackCount.trans (UInt32.zero_add _).symm
          waskCount := hPacketised.waskCount.trans (UInt32.zero_add _).symm
          winsCount := hPacketised.winsCount.trans (UInt32.zero_add _).symm }
  | _ => cases hResult

end ImKcpp

/-- One datagram, delivered in one state of the peer. -/
def Decoded (host : Host) (delivery : Party mtu × List UInt8) (received : InputResult) : Prop :=
  ∃ next, delivery.1.endpoint.input host delivery.2 = .ok (next, .ok received) ∧
    received.totalBytesReceived = delivery.2.length

/-- The counters of several deliveries add up to those of all their segments. -/
theorem decoded_all {deliveries : List (Party mtu × List UInt8)}
    (hEach : ∀ delivery ∈ deliveries, ∃ received, Decoded host delivery received ∧
      ImKcpp.Counted {} received (framesOf host delivery.2)) :
    ∃ counts : List InputResult, List.Forall₂ (Decoded host) deliveries counts ∧
      ImKcpp.Counted {} {
        cmdAckCount := (counts.map InputResult.cmdAckCount).sum
        cmdWaskCount := (counts.map InputResult.cmdWaskCount).sum
        cmdWinsCount := (counts.map InputResult.cmdWinsCount).sum }
        (deliveries.flatMap fun delivery => framesOf host delivery.2) := by
  induction deliveries with
  | nil => exact ⟨[], .nil, .nil {}⟩
  | cons delivery rest ih =>
      obtain ⟨received, hDecoded, hCounted⟩ := hEach delivery (by simp)
      obtain ⟨counts, hRest, hSums⟩ := ih fun other hOther => hEach other (by simp [hOther])
      refine ⟨received :: counts, .cons hDecoded hRest, ?_⟩
      rw [List.flatMap_cons]
      exact hCounted.append (hSums.shift received)

/-- The datagrams of one flush, in any order and each delivered in any state of
the peer that can be reached, are all decoded, and the counters add up. -/
theorem flush_decoded {conv : UInt32} {sender : Party mtu}
    (hSender : (endpointSystem host mtu conv).Reachable sender) {call : Call}
    {outcome : Outcome mtu} (hCall : sender.endpoint.perform host call = .ok outcome)
    {result : FlushResult} (hResult : outcome.response = .flush result)
    {deliveries : List (Party mtu × List UInt8)}
    (hReceivers : ∀ delivery ∈ deliveries, (endpointSystem host mtu conv).Reachable delivery.1)
    (hDelivered : (deliveries.map Prod.snd).Perm outcome.datagrams) :
    ∃ counts : List InputResult, List.Forall₂ (Decoded host) deliveries counts ∧
      (counts.map InputResult.cmdAckCount).sum = result.cmdAckCount ∧
      (counts.map InputResult.cmdWaskCount).sum = result.cmdWaskCount ∧
      (counts.map InputResult.cmdWinsCount).sum = result.cmdWinsCount := by
  have hInvariant := invariant_of_reachable hSender
  obtain ⟨packets, hDatagrams, hPackets, hReported⟩ :=
    (hInvariant.effect hCall).counted hInvariant hResult
  rw [conv_of_reachable hSender] at hPackets
  rw [hDatagrams] at hDelivered
  have hFrames : ∀ packet ∈ packets, framesOf host (wire host packet) = packet := by
    intro packet hPacket
    exact framesOf_wire host packet fun frame hFrame => ((hPackets packet hPacket).2 frame hFrame).2
  have hEach : ∀ delivery ∈ deliveries, ∃ received, Decoded host delivery received ∧
      ImKcpp.Counted {} received (framesOf host delivery.2) := by
    intro delivery hDelivery
    obtain ⟨packet, hPacket, hWire⟩ :=
      List.mem_map.mp (hDelivered.subset (List.mem_map_of_mem (f := Prod.snd) hDelivery))
    obtain ⟨hSize, hAccepted⟩ := hPackets packet hPacket
    rw [← conv_of_reachable (hReceivers delivery hDelivery)] at hAccepted
    obtain ⟨next, received, hInput, hTotal, hCounted⟩ :=
      delivery.1.endpoint.input_wire host hAccepted hSize
    rw [hWire] at hInput hTotal
    rw [← hWire, hFrames packet hPacket]
    exact ⟨received, ⟨next, hInput, hTotal⟩, hCounted⟩
  obtain ⟨counts, hDecoded, hSums⟩ := decoded_all hEach
  have hAll : (deliveries.flatMap fun delivery =>
    framesOf host delivery.2).Perm packets.flatten := by
    have hMap := hDelivered.flatMap_right (framesOf host)
    rw [framesOf_packets fun frame hFrame => ?_] at hMap
    · simpa only [List.flatMap_map] using hMap
    · obtain ⟨packet, hPacket, hFrame⟩ := List.mem_flatten.mp hFrame
      exact ((hPackets packet hPacket).2 frame hFrame).2
  have hSums := hSums.perm hAll
  exact ⟨counts, hDecoded, hSums.ackCount.trans hReported.ackCount.symm,
    hSums.waskCount.trans hReported.waskCount.symm, hSums.winsCount.trans hReported.winsCount.symm⟩

/-- The two datagrams of a busy endpoint, the second of them first. -/
theorem flush_decoded_busy :
    ∃ (sender : Party ⟨100, by decide⟩) (outcome : Outcome ⟨100, by decide⟩)
      (counts : List InputResult),
      (Party.fresh ⟨100, by decide⟩ 0).run Host.x8664 busyCalls = .ok sender ∧
      sender.endpoint.perform Host.x8664 (.update 7200) = .ok outcome ∧
      outcome.datagrams.length = 2 ∧
      List.Forall₂ (Decoded Host.x8664) (outcome.datagrams.reverse.map fun datagram =>
        (Party.fresh ⟨100, by decide⟩ 0, datagram)) counts ∧
      (counts.map InputResult.cmdAckCount).sum = 2 ∧ (counts.map InputResult.cmdWaskCount).sum = 1 ∧
      (counts.map InputResult.cmdWinsCount).sum = 1 := by
  have hRuns : (Party.fresh ⟨100, by decide⟩ 0).run Host.x8664 busyCalls >>= (fun sender =>
      (sender.endpoint.update Host.x8664 7200).map fun flushed =>
        (flushed.2.1.length, flushed.2.2.cmdAckCount, flushed.2.2.cmdWaskCount,
          flushed.2.2.cmdWinsCount)) =
      .ok (2, 2, 1, 1) := by decide +kernel
  obtain ⟨sender, hRun, hUpdates⟩ := bind_eq_ok.mp hRuns
  obtain ⟨⟨state, datagrams, result⟩, hUpdate, hFacts⟩ := map_eq_ok.mp hUpdates
  simp only [Prod.mk.injEq] at hFacts
  obtain ⟨hTwo, hAcks, hWasks, hWins⟩ := hFacts
  have hCall : sender.endpoint.perform Host.x8664 (.update 7200) =
      .ok { state, response := .flush result, datagrams } := by
    rw [ImKcpp.perform, hUpdate, ok_bind]
    exact pure_eq_ok _
  have hReceivers : ∀ delivery ∈ datagrams.reverse.map fun datagram =>
      (Party.fresh ⟨100, by decide⟩ 0, datagram),
      (endpointSystem Host.x8664 ⟨100, by decide⟩ 0).Reachable delivery.1 := by
    intro delivery hDelivery
    obtain ⟨datagram, -, rfl⟩ := List.mem_map.mp hDelivery
    exact .of_init rfl
  have hDelivered : ((datagrams.reverse.map fun datagram =>
      (Party.fresh ⟨100, by decide⟩ 0, datagram)).map Prod.snd).Perm datagrams := by
    rw [List.map_map]
    exact (List.Perm.of_eq (List.map_id _)).trans datagrams.reverse_perm
  obtain ⟨counts, hDecoded, hAckSum, hWaskSum, hWinsSum⟩ :=
    flush_decoded (Party.reachable_run (.of_init rfl) hRun) hCall rfl hReceivers hDelivered
  exact ⟨sender, _, counts, hRun, hCall, hTwo, hDecoded, hAckSum.trans hAcks, hWaskSum.trans hWasks,
    hWinsSum.trans hWins⟩

end Imkcpp
