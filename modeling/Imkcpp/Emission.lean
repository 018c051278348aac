import Imkcpp.Effect

/-! The frames of a flush, one by one: what their headers say, and that the
peer's parser finds exactly these frames in the datagrams. -/
namespace Imkcpp

variable {mtu : Mtu} {host : Host}

/-- Writing acknowledgements changes two fields of the service header. -/
theorem lastHeader_eq (header : SegmentHeader) (acks : List Ack) :
    ∃ sn ts, lastHeader header acks = { header with sn, ts } := by
  induction acks generalizing header with
  | nil => exact ⟨header.sn, header.ts, rfl⟩
  | cons ack rest ih =>
      obtain ⟨sn, ts, hRest⟩ := ih { header with sn := ack.sn, ts := ack.ts }
      exact ⟨sn, ts, hRest⟩

/-- A frame of data is a buffered segment with its volatile fields refreshed. -/
theorem Sender.mem_pushFrames {settings : FlushSettings} {sndBuf : List Segment} {frame : Frame}
    (h : frame ∈ pushFrames settings sndBuf) :
    ∃ seg ∈ sndBuf, frame.payload = seg.data ∧ frame.header = { seg.header with
      ts := settings.current
      wnd := settings.wnd.toUInt32.toUInt16
      una := settings.rcvNxt } := by
  obtain ⟨seg, hSeg, rfl⟩ := List.mem_map.mp h
  obtain ⟨hMem, hDue⟩ := List.mem_filter.mp hSeg
  have hFlushed : flushed settings seg = refresh settings (prepared settings seg) := if_pos hDue
  refine ⟨seg, hMem, ?_, ?_⟩
  · rw [hFlushed]
    exact prepared_data seg
  · rw [hFlushed]
    simp [refresh]

namespace ImKcpp

/-- The frames of a flush, by kind. -/
theorem mem_flushFrames {s : ImKcpp mtu} {askSend askTell : Bool} {frame : Frame} :
    frame ∈ s.flushFrames askSend askTell ↔
      (∃ ack ∈ s.ackController.acklist, frame = ackFrame s.serviceHeader ack) ∨
      (askSend = true ∧ frame = s.probeFrame Commands.wask) ∨
      (askTell = true ∧ frame = s.probeFrame Commands.wins) ∨
      frame ∈ Sender.pushFrames s.settings s.moved.2.1.sndBuf := by
  unfold flushFrames
  cases askSend <;> cases askTell <;> simp [eq_comm]

/-- All frames of a flush that carry `PUSH` are data of the buffer. -/
theorem push_of_mem_flushFrames {s : ImKcpp mtu} {askSend askTell : Bool} {frame : Frame}
    (h : frame ∈ s.flushFrames askSend askTell) (hCmd : frame.header.cmd = Commands.push) :
    frame ∈ Sender.pushFrames s.settings s.moved.2.1.sndBuf := by
  obtain ⟨hAck, hWask, hWins⟩ : Commands.ack ≠ Commands.push ∧ Commands.wask ≠ Commands.push ∧
      Commands.wins ≠ Commands.push := by decide
  rcases mem_flushFrames.mp h with ⟨ack, -, rfl⟩ | ⟨-, rfl⟩ | ⟨-, rfl⟩ | hPush
  · exact absurd hCmd hAck
  · exact absurd hCmd hWask
  · exact absurd hCmd hWins
  · exact hPush

/-- What all frames of a flush have in common. -/
structure Issued (s : ImKcpp mtu) (frame : Frame) : Prop where
  accepted : frame.Accepted s.sharedCtx.conv
  wellFormed : frame.WellFormed
  wnd_eq : frame.header.wnd = s.unusedReceiveWindow.toUInt32.toUInt16
  una_eq : frame.header.una = s.receiver.rcvNxt

theorem Issued.service (s : ImKcpp mtu) {cmd : UInt8} (hCmd : Commands.isValid cmd = true)
    (hOther : cmd ≠ Commands.push) (sn ts : UInt32) :
    s.Issued ⟨{ s.serviceHeader with cmd, sn, ts }, []⟩ where
  accepted := ⟨rfl, hCmd, fun hPush => absurd hPush hOther, fun _ => rfl⟩
  wellFormed := rfl
  wnd_eq := rfl
  una_eq := rfl

theorem issued_of_mem {s : ImKcpp mtu} (h : s.Sending) {askSend askTell : Bool} {frame : Frame}
    (hFrame : frame ∈ s.flushFrames askSend askTell) : s.Issued frame := by
  obtain ⟨sn, ts, hLast⟩ := lastHeader_eq s.serviceHeader s.ackController.acklist
  rcases mem_flushFrames.mp hFrame with ⟨ack, -, rfl⟩ | ⟨-, rfl⟩ | ⟨-, rfl⟩ | hPush
  · have hAck : Commands.ack ≠ Commands.push := by decide
    exact Issued.service s rfl hAck ack.sn ack.ts
  · rw [probeFrame, hLast]
    exact Issued.service s (by decide) (by decide) sn ts
  · rw [probeFrame, hLast]
    exact Issued.service s (by decide) (by decide) sn ts
  · obtain ⟨seg, hSeg, hPayload, hHeader⟩ := Sender.mem_pushFrames hPush
    obtain ⟨hSendable, hCmd, hConv⟩ := h.moved.inFlight seg hSeg
    have hLen : frame.WellFormed := by
      rw [Frame.WellFormed, hHeader, hPayload]
      exact hSendable.len_eq
    refine ⟨⟨?_, ?_, fun _ => hLen, ?_⟩, hLen, ?_, ?_⟩
    · rw [hHeader]
      exact hConv
    · rw [hHeader]
      dsimp only
      rw [hCmd]
      rfl
    · intro hOther
      rw [hHeader] at hOther
      exact absurd hCmd hOther
    · rw [hHeader]
      rfl
    · rw [hHeader]
      rfl

end ImKcpp

/-- Whole frames are found again in the datagrams made of them. -/
theorem framesOf_packets {packets : List (List Frame)}
    (h : ∀ frame ∈ packets.flatten, frame.WellFormed) :
    (packets.map (wire host)).flatMap (framesOf host) = packets.flatten := by
  have hPacket : ∀ packet ∈ packets, framesOf host (wire host packet) = packet := by
    intro packet hPacket
    exact framesOf_wire host packet fun frame hFrame =>
      h frame (List.mem_flatten.mpr ⟨packet, hPacket, hFrame⟩)
  have hFrames : packets.map (framesOf host ∘ wire host) = packets :=
    (List.map_congr_left hPacket).trans (List.map_id packets)
  rw [List.flatMap_def, List.map_map, hFrames]

/-- The datagrams of a flush have exactly its frames. -/
theorem ImKcpp.Flushed.issued {s next : ImKcpp mtu} {packets : List (List Frame)}
    {result : FlushResult} {askSend askTell : Bool}
    (h : Flushed host s next packets result askSend askTell) (hSending : s.Sending) :
    ∀ frame ∈ packets.flatten, s.Issued frame := by
  intro frame hFrame
  rw [h.frames_eq] at hFrame
  exact issued_of_mem hSending hFrame

theorem ImKcpp.Flushed.framesOf_eq {s next : ImKcpp mtu} {packets : List (List Frame)}
    {result : FlushResult} {askSend askTell : Bool}
    (h : Flushed host s next packets result askSend askTell) (hSending : s.Sending) :
    (packets.map (wire host)).flatMap (framesOf host) = packets.flatten :=
  framesOf_packets fun frame hFrame => (h.issued hSending frame hFrame).wellFormed

/-- The frames of the datagrams that a party has emitted. -/
def Party.emittedFrames (host : Host) (party : Party mtu) : List Frame :=
  party.emitted.flatMap (framesOf host)

@[simp] theorem Party.record_emittedFrames (host : Host) (party : Party mtu) (call : Call)
    (outcome : Outcome mtu) :
    (party.record call outcome).emittedFrames host =
      party.emittedFrames host ++ outcome.datagrams.flatMap (framesOf host) := by
  rw [emittedFrames, record_emitted, List.flatMap_append]
  rfl

end Imkcpp
