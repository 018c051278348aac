import Imkcpp.EndpointInvariant

/-! Segment framing of `input`. Only the `PUSH` case moves the cursor over a
payload, so a datagram is taken apart at its segment boundaries exactly when no
other segment carries one. -/
namespace Imkcpp

variable {mtu : Mtu}

/-- A datagram of the given segments is processed as such: the loop sees these
headers in this order, the call succeeds having consumed every byte, and the
state is what the segments make of it one after the other. -/
def Processes (host : Host) (s : ImKcpp mtu) (frames : List Frame) : Prop :=
  (scan host s.sharedCtx.conv (wire host frames)).1.map Frame.header = frames.map Frame.header ∧
  ∃ counts, s.input host (wire host frames) =
      .ok ((frames.foldl ImKcpp.inputFrame (s, {})).1.finishInput s.segmentTracker.sndUna
        (frames.foldl ImKcpp.inputFrame (s, {})).2.fastackCtx, .ok counts) ∧
    counts.totalBytesReceived = (wire host frames).length

/-- The loop consumes no more of a datagram than its segments have, and it
consumes all of it only when nothing but `PUSH` segments carries a payload. -/
theorem payload_eq_nil_of_wire_length (host : Host) {conv : UInt32} {seen frames : List Frame}
    (hSeen : ∀ frame ∈ seen, frame.Accepted conv) (hFrames : ∀ frame ∈ frames, frame.WellFormed)
    (hHeaders : seen.map Frame.header = frames.map Frame.header) :
    (wire host seen).length ≤ (wire host frames).length ∧
      ((wire host seen).length = (wire host frames).length →
        ∀ frame ∈ frames, frame.header.cmd ≠ Commands.push → frame.payload = []) := by
  induction frames generalizing seen with
  | nil =>
      obtain rfl : seen = [] := by simpa using hHeaders
      simp
  | cons frame frames ih =>
      cases seen with
      | nil => simp at hHeaders
      | cons first others =>
          obtain ⟨hHeader, hOthers⟩ : first.header = frame.header ∧
              others.map Frame.header = frames.map Frame.header := by simpa using hHeaders
          obtain ⟨hLe, hTail⟩ := ih (fun other hOther => hSeen other (by simp [hOther]))
            (fun other hOther => hFrames other (by simp [hOther])) hOthers
          have hAccepted := hSeen first (by simp)
          have hWellFormed : frame.header.len.toNat = frame.payload.length :=
            hFrames frame (by simp)
          have hFirst : first.payload.length ≤ frame.payload.length ∧
              (first.payload.length = frame.payload.length → frame.header.cmd ≠ Commands.push →
                frame.payload = []) := by
            by_cases hPush : frame.header.cmd = Commands.push
            · have hLength : first.header.len.toNat = first.payload.length :=
                hAccepted.push_payload (by rw [hHeader, hPush])
              rw [hHeader, hWellFormed] at hLength
              exact ⟨hLength.ge, fun _ hOther => absurd hPush hOther⟩
            · have hEmpty : first.payload = [] := hAccepted.other_payload (by rwa [hHeader])
              rw [hEmpty, List.length_nil]
              exact ⟨Nat.zero_le _, fun hZero _ => List.length_eq_zero_iff.mp hZero.symm⟩
          simp only [wire_cons, List.length_append, Frame.bytes_length]
          refine ⟨by omega, fun hLength => ?_⟩
          intro other hOther
          rcases List.mem_cons.mp hOther with rfl | hOther
          · exact hFirst.2 (by omega)
          · exact hTail (by omega) other hOther

/-- Segments of a datagram are told apart exactly when there is at least one and
only `PUSH` segments carry a payload. -/
theorem processes_iff (host : Host) (s : ImKcpp mtu) (frames : List Frame)
    (hFrames : ∀ frame ∈ frames, frame.header.conv = s.sharedCtx.conv ∧
      Commands.isValid frame.header.cmd = true ∧ frame.WellFormed) :
    Processes host s frames ↔
      frames ≠ [] ∧ ∀ frame ∈ frames, frame.header.cmd ≠ Commands.push → frame.payload = [] := by
  constructor
  · rintro ⟨hHeaders, counts, hInput, hTotal⟩
    have hNonempty : frames ≠ [] := by
      rintro rfl
      simp [ImKcpp.input, SegmentHeader.fixedSize] at hInput
    refine ⟨hNonempty, ?_⟩
    have hSeen := scan_accepted host s.sharedCtx.conv (wire host frames)
    have hWellFormed : ∀ frame ∈ frames, frame.WellFormed := fun frame hFrame =>
      (hFrames frame hFrame).2.2
    refine (payload_eq_nil_of_wire_length host hSeen hWellFormed hHeaders).2 ?_
    rw [ImKcpp.input_eq host s _ (le_wire_length host hNonempty)] at hInput
    dsimp only at hInput
    cases hEnd : (scan host s.sharedCtx.conv (wire host frames)).2 with
    | error error => simp [hEnd] at hInput
    | ok left =>
        rw [hEnd] at hInput
        have hCounts := Except.ok.inj (congrArg Prod.snd (Except.ok.inj hInput))
        rw [← hTotal, ← hCounts]
        dsimp only
        rw [ImKcpp.foldl_inputFrame_offset host, Nat.zero_add]
  · rintro ⟨hNonempty, hEmpty⟩
    have hScan := scan_wire host s.sharedCtx.conv frames fun frame hFrame => by
      obtain ⟨hConv, hValid, hLen⟩ := hFrames frame hFrame
      exact ⟨⟨hConv, hValid, fun _ => hLen, hEmpty frame hFrame⟩, hLen⟩
    have hInput := ImKcpp.input_eq host s _ (le_wire_length host hNonempty)
    rw [hScan] at hInput
    refine ⟨by rw [hScan], _, hInput, ?_⟩
    dsimp only
    rw [ImKcpp.foldl_inputFrame_offset host, Nat.zero_add]

/-- Segments of every kind, two of them with a payload. -/
theorem processes_mixed :
    Processes Host.x8664 (ImKcpp.create .least 5)
      [⟨{ conv := 5, cmd := Commands.ack, wnd := 3, sn := 2, una := 1 }, []⟩,
        ⟨{ conv := 5, cmd := Commands.push, sn := 1, len := 1 }, [7]⟩,
        ⟨{ conv := 5, cmd := Commands.wask, una := 4 }, []⟩,
        ⟨{ conv := 5, cmd := Commands.push, frg := 1, len := 3 }, [8, 9, 10]⟩,
        ⟨{ conv := 5, cmd := Commands.wins, wnd := 9 }, []⟩] :=
  (processes_iff _ _ _ (by decide)).mpr (by decide)

/-- An `ACK` with one payload byte: the byte is left over. -/
theorem not_processes_ack :
    ¬∀ (mtu : Mtu) (host : Host) (s : ImKcpp mtu) (frames : List Frame),
      (∀ frame ∈ frames, frame.header.conv = s.sharedCtx.conv ∧
        Commands.isValid frame.header.cmd = true ∧ frame.WellFormed) → Processes host s frames := by
  intro hAll
  obtain ⟨-, counts, hInput, hTotal⟩ := hAll .least Host.x8664 (ImKcpp.create _ 0)
    [⟨{ cmd := Commands.ack, len := 1 }, [7]⟩] (by decide)
  have hCounts :=
    congrArg (Except.map fun outcome => outcome.2.map InputResult.totalBytesReceived) hInput
  have hReal : ((ImKcpp.create .least 0).input Host.x8664
      (wire Host.x8664 [⟨{ cmd := Commands.ack, len := 1 }, [7]⟩])).map
        (fun outcome => outcome.2.map InputResult.totalBytesReceived) = .ok (.ok 24) := by
    decide +kernel
  have hSize : 24 = counts.totalBytesReceived := by
    simpa [Except.map] using hReal.symm.trans hCounts
  rw [← hSize] at hTotal
  exact absurd hTotal (by decide)

end Imkcpp
