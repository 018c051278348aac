import Imkcpp.Transfer

/-! A message and its answer over a lossless network. One endpoint sends a message,
the other one receives it and answers, and then nothing is left to do, in whatever
order and however often the datagrams of either side arrive. -/
namespace Imkcpp

variable {mtu : Mtu} {host : Host}

/-- The calls on the endpoint that sends the message. -/
def sendingCalls (S R now : UInt32) (message : List UInt8) : List Call :=
  .configure (.congestionWindowEnabled false) :: opening S R now ++ [.send message, .flush]

/-- The calls on the endpoint that receives it. -/
def receivingCalls (S R now : UInt32) (deliveries : List (List UInt8)) {room : Nat}
    (span : Vector UInt8 room) : List Call :=
  opening S R now ++ deliveries.map .input ++ [.recv span, .flush]

/-- A message, and the answer to it, each delivered in any order and any number of
times; in the end the sender is done, and stays so. -/
def ExchangeCompletes (host : Host) (mtu : Mtu) (conv S R sentAt receivedAt : UInt32)
    (message : List UInt8) : Prop :=
  ∃ sender : Party mtu, (Party.fresh mtu conv).run host (sendingCalls S R sentAt message) =
    .ok sender ∧
    ∀ deliveries : List (List UInt8),
      (∀ datagram, datagram ∈ deliveries ↔ datagram ∈ sender.emitted) →
    ∀ room (span : Vector UInt8 room), message.length ≤ room →
    ∃ receiver : Party mtu,
      (Party.fresh mtu conv).run host (receivingCalls S R receivedAt deliveries span) =
        .ok receiver ∧
      receiver.returned = [message] ∧
      ∀ answers : List (List UInt8),
        (∀ datagram, datagram ∈ answers ↔ datagram ∈ receiver.emitted) →
      ∃ final : Party mtu, sender.run host (answers.map .input) = .ok final ∧
        final.endpoint.sender.sndQueue = [] ∧ final.endpoint.senderBuffer.sndBuf = [] ∧
        final.endpoint.segmentTracker.sndUna.toNat =
          Sender.estimateSegmentsCount mtu message.length ∧
        final.endpoint.segmentTracker.sndNxt.toNat =
          Sender.estimateSegmentsCount mtu message.length ∧
        ∀ times : List UInt32,
          ∃ last, final.run host (times.map .update) = .ok last ∧ last.emitted = final.emitted

section Exchange

variable {conv S R : UInt32} {message : List UInt8}

/-- The `send` of a message that is not too long for the windows. -/
theorem ImKcpp.Opened.perform_send {s : ImKcpp mtu} {congestionWindow : Bool}
    (h : s.Opened conv S R congestionWindow) (hMessage : message ≠ [])
    (hCount : Sender.estimateSegmentsCount mtu message.length ≤ 255)
    (hRoom : Sender.estimateSegmentsCount mtu message.length ≤ R.toNat) (host : Host) :
    ((∀ seg ∈ (fragments mtu message).map Sender.segmentOf, seg.Sendable mtu) ∧
      min message.length mtu.maxSegmentSize < 2 ^ 32 ∧
      ∃ finish, s.perform host (.send message) = .ok {
        state := { s with sender := { s.sender with
          sndQueue := (fragments mtu message).map Sender.segmentOf } }
        response := .send (.ok finish) }) ∨
    (2 ^ 32 ≤ min message.length mtu.maxSegmentSize ∧
      s.perform host (.send message) = .error (.assertion .sender)) := by
  have hRcvWnd := h.rcvWnd_toNat
  dsimp only [ImKcpp.perform, ImKcpp.send]
  rcases Sender.send_cases mtu s.sender s.congestionController.rcvWnd message with
    ⟨hRefused, -⟩ | ⟨-, -, -, hSmall, hSend⟩ | ⟨hLarge, hSend⟩
  · rcases hRefused with hEmpty | hMany | hWindow
    · exact absurd hEmpty hMessage
    · omega
    · omega
  · rw [hSend, ok_bind, h.unsent, List.nil_append]
    exact .inl ⟨Sender.segmentOf_sendable hMessage hSmall, Sender.min_lt_of_small hSmall, _, rfl⟩
  · rw [hSend]
    exact .inr ⟨hLarge, rfl⟩

/-- The sender, up to the flush of the message. -/
theorem run_sendingCalls (hMessage : message ≠ [])
    (hCount : Sender.estimateSegmentsCount mtu message.length ≤ 255)
    (hS : Sender.estimateSegmentsCount mtu message.length ≤ S.toNat)
    (hRoom : Sender.estimateSegmentsCount mtu message.length ≤ R.toNat)
    (hR : R.toNat ≤ 65535) (host : Host) (conv now : UInt32) :
    (min message.length mtu.maxSegmentSize < 2 ^ 32 ∧
      ∃ (sender : Party mtu) (packets : List (List Frame)),
        (Party.fresh mtu conv).run host (sendingCalls S R now message) = .ok sender ∧
        sender.emitted = packets.map (wire host) ∧ Carries mtu conv message packets.flatten ∧
        sender.endpoint.Answered ∧ sender.endpoint.sharedCtx.conv = conv ∧
        sender.endpoint.segmentTracker.sndNxt.toNat =
          Sender.estimateSegmentsCount mtu message.length) ∨
    (2 ^ 32 ≤ min message.length mtu.maxSegmentSize ∧
      (Party.fresh mtu conv).run host (sendingCalls S R now message) =
        .error (.assertion .sender)) := by
  have hSome := Sender.estimateSegmentsCount_pos mtu message.length
  obtain ⟨first, hFirst⟩ : ∃ first : Party mtu, first = (Party.fresh mtu conv).record
    (.configure (.congestionWindowEnabled false))
      { state := (ImKcpp.create mtu conv).setCongestionWindowEnabled false } := ⟨_, rfl⟩
  have hEndpoint : first.endpoint = (ImKcpp.create mtu conv).setCongestionWindowEnabled false := by
    rw [hFirst]
    rfl
  have hNone : first.emitted = [] := by
    rw [hFirst]
    rfl
  obtain ⟨ready, hReady, hOpened, hEmitted, -⟩ := Party.run_opening
    (UInt32.lt_iff_toNat_lt.mpr (hSome.trans_le hS))
      (UInt32.lt_iff_toNat_lt.mpr (hSome.trans_le hRoom))
    host now hEndpoint
  have hConfigured : (Party.fresh mtu conv).endpoint.perform host
      (.configure (.congestionWindowEnabled false)) =
        .ok { state := (ImKcpp.create mtu conv).setCongestionWindowEnabled false } := rfl
  rw [sendingCalls, Party.run_append, Party.run_cons hConfigured, ← hFirst, hReady, ok_bind]
  rcases hOpened.perform_send hMessage hCount hRoom host with
    ⟨hSendable, hSmall, finish, hSend⟩ | ⟨hLarge, hSend⟩
  · obtain ⟨next, packets, result, hFlush, hCarries, hAnswered, hStanding⟩ :=
      hOpened.sends hSendable hS hR host
    have hCall := ImKcpp.perform_flush hFlush
    have hConv : next.sharedCtx.conv = ready.endpoint.sharedCtx.conv :=
      congrArg ImKcpp.Standing.conv hStanding
    have hNxt : next.segmentTracker.sndNxt =
        UInt32.ofNat (Sender.estimateSegmentsCount mtu message.length) :=
      congrArg (fun standing : ImKcpp.Standing => standing.segmentTracker.sndNxt) hStanding
    refine .inl ⟨hSmall, _, packets,
      (Party.run_cons hSend).trans ((Party.run_cons hCall).trans rfl), ?_⟩
    refine ⟨?_, hCarries, hAnswered,
      hConv.trans (congrArg ImKcpp.Standing.conv hOpened.standing_eq), ?_⟩
    · rw [Party.record_emitted, Party.record_emitted, hEmitted, hNone]
      rfl
    · rw [Party.record_endpoint]
      dsimp only
      rw [hNxt]
      exact UInt32.toNat_ofNat_of_lt' (Nat.lt_of_le_of_lt hCount (by decide))
  · refine .inr ⟨hLarge, ?_⟩
    rw [Party.run, hSend]
    rfl

/-- The receiver, up to the flush of the answer. -/
theorem run_receivingCalls {packets : List (List Frame)}
    (hCarries : Carries mtu conv message packets.flatten) (hMessage : message ≠ [])
    (hCount : Sender.estimateSegmentsCount mtu message.length ≤ 255) (hS : 0 < S)
    (hRoom : Sender.estimateSegmentsCount mtu message.length ≤ R.toNat) (hR : R.toNat ≤ 65535)
    (now : UInt32) {deliveries : List (List UInt8)}
    (hSame : ∀ datagram, datagram ∈ deliveries ↔ datagram ∈ packets.map (wire host)) {room : Nat}
    (span : Vector UInt8 room) (hSpan : message.length ≤ room) :
    ∃ (receiver : Party mtu) (answers : List (List Frame)) (una : UInt32),
      (Party.fresh mtu conv).run host (receivingCalls S R now deliveries span) = .ok receiver ∧
      receiver.returned = [message] ∧ receiver.emitted = answers.map (wire host) ∧
      Answers conv una answers.flatten ∧
        una.toNat = Sender.estimateSegmentsCount mtu message.length := by
  have hSome := Sender.estimateSegmentsCount_pos mtu message.length
  have hEndpoint : (Party.fresh mtu conv).endpoint =
      (ImKcpp.create mtu conv).setCongestionWindowEnabled true := rfl
  obtain ⟨ready, hReady, hOpened, hNoneEmitted, hNoneReturned⟩ := Party.run_opening hS
    (UInt32.lt_iff_toNat_lt.mpr (hSome.trans_le hRoom)) host now hEndpoint
  have hConv : ready.endpoint.sharedCtx.conv = conv :=
    congrArg ImKcpp.Standing.conv hOpened.standing_eq
  have hRcvWnd := hOpened.rcvWnd_toNat
  have hInside : ∀ frame ∈ packets.flatten,
      frame.header.sn < ready.endpoint.receiver.rcvNxt +
        ready.endpoint.congestionController.rcvWnd := by
    have hArrives := hOpened.arrives hCarries hCount hRoom (List.Subset.refl _)
    intro frame hFrame
    have hBelow := hArrives.below frame hFrame
    rw [hOpened.receiver_eq, UInt32.toNat_zero, Nat.zero_add] at hBelow
    rwa [hOpened.receiver_eq, UInt32.zero_add, UInt32.lt_iff_toNat_lt]
  obtain ⟨middle, hDelivered, hReceiving, hEmitted, hReturned⟩ :=
    Party.run_inputs (P := ready.endpoint.Receiving) hCarries.whole
      (fun arrived s h => h.conv_eq.trans hConv)
      (fun arrived s frame hFrame h => h.applyFrame (hConv ▸ (hCarries.whole frame hFrame).1)
        (hCarries.push frame hFrame) (hCarries.window frame hFrame) (hInside frame hFrame))
      (fun arrived s sndBuf controller hCore hRcvWnd hRmtWnd h => h.refresh hCore hRcvWnd hRmtWnd)
      (packet_of_delivered hSame) hOpened.receiving
  rw [List.nil_append] at hReceiving
  have hArrived := mem_delivered_iff (fun frame hFrame => (hCarries.whole frame hFrame).2) hSame
  obtain ⟨hEmpty, hNext, hQueue⟩ := hOpened.gathers hCarries hCount hRoom hR hArrived
  rw [← hReceiving.receiver_eq] at hEmpty hNext hQueue
  obtain ⟨received, windowProber, hRecv, hReceived, hInvariant, hProbe⟩ :=
    hReceiving.recv hMessage hEmpty hQueue span hSpan host
  have hSomeArrived : deliveries.flatMap (framesOf host) ≠ [] := by
    obtain ⟨frame, hFrame⟩ := List.exists_mem_of_ne_nil _ (hCarries.ne_nil hCount)
    exact List.ne_nil_of_mem ((hArrived frame).mpr hFrame)
  obtain ⟨final, answers, result, hFlush, hAnswers⟩ :=
    hReceiving.answers hSomeArrived hReceived hInvariant hProbe (by omega) (by omega) host
  have hCall := ImKcpp.perform_flush hFlush
  rw [receivingCalls, Party.run_append, Party.run_append, hReady, ok_bind, hDelivered, ok_bind]
  refine ⟨_, answers, middle.endpoint.receiver.rcvNxt,
    (Party.run_cons hRecv).trans ((Party.run_cons hCall).trans rfl), ?_⟩
  refine ⟨?_, ?_, hConv ▸ hAnswers, hNext⟩
  · rw [Party.record_returned, Party.record_returned, hReturned, hNoneReturned]
    rfl
  · rw [Party.record_emitted, Party.record_emitted, hEmitted, hNoneEmitted]
    rfl

/-- The sender, once the answer has arrived. -/
theorem run_answers {sender : Party mtu} (hSender : sender.endpoint.Answered)
    (hConv : sender.endpoint.sharedCtx.conv = conv) {packets : List (List Frame)}
    (hAnswers : Answers conv sender.endpoint.segmentTracker.sndNxt packets.flatten)
    {deliveries : List (List UInt8)}
    (hSame : ∀ datagram, datagram ∈ deliveries ↔ datagram ∈ packets.map (wire host)) :
    ∃ final, sender.run host (deliveries.map .input) = .ok final ∧ final.endpoint.Quiet ∧
      final.endpoint.segmentTracker.sndNxt = sender.endpoint.segmentTracker.sndNxt := by
  have hStart : sender.endpoint.Acknowledging [] sender.endpoint :=
    { hSender with
      conv_eq := rfl
      sndNxt_eq := rfl
      acknowledged := fun hNone => absurd rfl hNone }
  obtain ⟨final, hRun, hFinal, -, -⟩ :=
    Party.run_inputs (P := sender.endpoint.Acknowledging) hAnswers.whole
      (fun arrived s h => h.conv_eq.trans hConv)
      (fun arrived s frame hFrame h => h.applyFrame (hConv ▸ (hAnswers.whole frame hFrame).1)
        (hAnswers.kind frame hFrame) (hAnswers.window frame hFrame) (hAnswers.una_eq frame hFrame))
      (fun arrived s sndBuf controller hCore hRcvWnd hRmtWnd h => h.refresh hCore hRmtWnd)
      (packet_of_delivered hSame) hStart
  rw [List.nil_append] at hFinal
  have hArrived := mem_delivered_iff (fun frame hFrame => (hAnswers.whole frame hFrame).2) hSame
  obtain ⟨frame, hFrame⟩ := List.exists_mem_of_ne_nil _ hAnswers.ne_nil
  exact ⟨final, hRun,
    { hFinal.toAnswered with
      acknowledged := hFinal.acknowledged (List.ne_nil_of_mem ((hArrived frame).mpr hFrame)) },
    hFinal.sndNxt_eq⟩

/-- With nothing in flight, `snd_una` has caught up with `snd_nxt`. -/
theorem ImKcpp.Quiet.una_eq_nxt {s : ImKcpp mtu} (h : s.Quiet) :
    s.segmentTracker.sndUna = s.segmentTracker.sndNxt := by
  have hUna := h.sender.una_eq
  rw [SenderBuffer.getFirstSequenceNumberInFlight, h.acknowledged] at hUna
  exact hUna

end Exchange

/-- A message that the windows have room for is exchanged in full, if and only if
its longest piece has a length that the header can hold. -/
theorem exchange_completes_iff {S R : UInt32} {message : List UInt8} (hMessage : message ≠ [])
    (hCount : Sender.estimateSegmentsCount mtu message.length ≤ 255)
    (hS : Sender.estimateSegmentsCount mtu message.length ≤ S.toNat)
    (hRoom : Sender.estimateSegmentsCount mtu message.length ≤ R.toNat)
    (hR : R.toNat ≤ 65535) (host : Host) (conv sentAt receivedAt : UInt32) :
    ExchangeCompletes host mtu conv S R sentAt receivedAt message ↔
      min message.length mtu.maxSegmentSize < 2 ^ 32 := by
  rcases run_sendingCalls hMessage hCount hS hRoom hR host conv sentAt with
    ⟨hSmall, sender, packets, hSent, hEmitted, hCarries, hAnswered, hConv, hNxt⟩ | ⟨hLarge, hFault⟩
  · refine iff_of_true ⟨sender, hSent, fun deliveries hDeliveries room span hSpan => ?_⟩ hSmall
    rw [hEmitted] at hDeliveries
    have hPositive : 0 < S := UInt32.lt_iff_toNat_lt.mpr
      ((Sender.estimateSegmentsCount_pos mtu message.length).trans_le hS)
    obtain ⟨receiver, replies, una, hReceived, hReturned, hReplied, hAnswers, hUna⟩ :=
      run_receivingCalls hCarries hMessage hCount hPositive hRoom hR receivedAt
        hDeliveries span hSpan
    refine ⟨receiver, hReceived, hReturned, fun answers hSame => ?_⟩
    rw [hReplied] at hSame
    obtain rfl : una = sender.endpoint.segmentTracker.sndNxt :=
      UInt32.toNat_inj.mp (hUna.trans hNxt.symm)
    obtain ⟨final, hFinal, hQuiet, hLast⟩ := run_answers hAnswered hConv hAnswers hSame
    rw [← hLast] at hNxt
    refine ⟨final, hFinal, hQuiet.unsent, hQuiet.acknowledged, hQuiet.una_eq_nxt ▸ hNxt, hNxt,
      fun times => ?_⟩
    obtain ⟨last, hTimes, -, hSilent⟩ := Party.run_updates_of_quiet hQuiet host times
    exact ⟨last, hTimes, hSilent⟩
  · refine iff_of_false ?_ (Nat.not_lt.mpr hLarge)
    rintro ⟨sender, hSent, -⟩
    cases hFault.symm.trans hSent

theorem exchange_completes_two_bytes :
    ExchangeCompletes Host.x8664 .least 0 32 128 0 0 [7, 8] ↔
      min [7, 8].length Mtu.least.maxSegmentSize < 2 ^ 32 :=
  exchange_completes_iff (List.cons_ne_nil _ _) (by decide) (by decide) (by decide)
    (by decide) _ 0 0 0

/-- One segment of 2^32 bytes is within every limit that `send` checks, but its
length is none that the header can hold. -/
theorem exchange_fails_of_long_piece :
    ¬∀ (mtu : Mtu) (message : List UInt8) (S R : UInt32), message ≠ [] →
      Sender.estimateSegmentsCount mtu message.length ≤ min 255 (min S.toNat R.toNat) →
        R.toNat ≤ 65535 →
      ∀ host conv sentAt receivedAt,
        ExchangeCompletes host mtu conv S R sentAt receivedAt message := by
  intro hAll
  obtain ⟨message, hLength⟩ : ∃ message : List UInt8, message.length = 2 ^ 32 :=
    ⟨List.replicate (2 ^ 32) 0, List.length_replicate⟩
  obtain ⟨mtu, hMtu⟩ : ∃ mtu : Mtu, mtu.maxSegmentSize = 2 ^ 32 := ⟨⟨2 ^ 32 + 24, by decide⟩, rfl⟩
  have hMessage : message ≠ [] := by
    rintro rfl
    simp at hLength
  have hCount : Sender.estimateSegmentsCount mtu message.length = 1 := by
    rw [Sender.estimateSegmentsCount, hLength, hMtu]
    norm_num
  have hWindow : Sender.estimateSegmentsCount mtu message.length ≤ (1 : UInt32).toNat := hCount.le
  obtain ⟨sender, hSent, -⟩ := hAll mtu message 1 1 hMessage (by rw [hCount]; decide) (by decide)
    Host.x8664 0 0 0
  rcases run_sendingCalls hMessage (by rw [hCount]; decide) hWindow hWindow (by decide)
    Host.x8664 0 0 with ⟨hSmall, -⟩ | ⟨-, hFault⟩
  · rw [hLength, hMtu, Nat.min_self] at hSmall
    exact absurd hSmall (Nat.lt_irrefl _)
  · cases hFault.symm.trans hSent

end Imkcpp
