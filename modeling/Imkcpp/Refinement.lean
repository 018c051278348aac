import Imkcpp.Link

/-! One direction of a network refines the selective-repeat protocol: the calls of
the receiving side keep the relation too, and so every run of the network is
matched by a run of the protocol. -/
namespace Imkcpp

open Transition Fragmentation OrderedList

variable {mtu : Mtu} {host : Host} {conv : UInt32}

section Receiver

variable {s : SelectiveRepeat.State (Fragment UInt8)} {base : List (Fragment UInt8)}
  {receiver : Receiver} {acks : Set ℕ}

/-- From `s`, the protocol can get to a state that looks like the receiver, where
`base` has been taken out of the queue already. -/
structure Tracks (s : SelectiveRepeat.State (Fragment UInt8)) (base : List (Fragment UInt8))
    (receiver : Receiver) (acks : Set ℕ) : Prop where
  leads : protocol.Leads s { s with
    held := items receiver.rcvBuf
    delivered := base ++ receiver.rcvQueue.map Segment.fragment
    acks }
  length_eq : (base ++ receiver.rcvQueue.map Segment.fragment).length = receiver.rcvNxt.toNat
  invariant : ReceiverInvariant receiver

/-- Segments move to the queue in the order of the stream. -/
theorem Tracks.move (h : Tracks s base receiver acks) :
    Tracks s base receiver.moveReceiveBufferToQueue acks := by
  refine Receiver.move_induct (P := fun receiver => Tracks s base receiver acks) ?_ h
  intro receiver seg rest hBuffer hNext hRoom hPrior
  have hInvariant := hPrior.invariant
  have hSeg : seg ∈ receiver.rcvBuf := hBuffer ▸ List.mem_cons_self
  have hKey : seg.key = receiver.rcvNxt.toNat := congrArg UInt32.toNat hNext
  have hSucc : (receiver.rcvNxt + 1).toNat = receiver.rcvNxt.toNat + 1 := by
    have hBound := hInvariant.bounded seg hSeg
    rw [UInt32.toNat_add, UInt32.toNat_one, Nat.mod_eq_of_lt (by omega)]
  have hLength := hPrior.length_eq
  refine ⟨hPrior.leads.trans (.single ?_), ?_, hInvariant.advance hBuffer hNext⟩
  · have hHeld : ((base ++ receiver.rcvQueue.map Segment.fragment).length, seg.fragment) ∈
        items receiver.rcvBuf := by
      rw [hLength, ← hKey]
      exact mem_items.mpr ⟨seg, hSeg, rfl⟩
    have hTail : items rest = {p ∈ items receiver.rcvBuf | p.1 ≠ seg.key} := by
      have hIncreasing := hInvariant.increasing
      rw [hBuffer] at hIncreasing ⊢
      exact items_tail hIncreasing
    have hDeliver := SelectiveRepeat.Step.deliver { s with
      held := items receiver.rcvBuf
      delivered := base ++ receiver.rcvQueue.map Segment.fragment
      acks } seg.fragment hHeld
    rw [hTail, hKey, ← hLength, List.map_append, ← List.append_assoc]
    exact hDeliver
  · rw [hSucc, ← hLength]
    simp [Nat.add_assoc]

/-- Whatever has been stored can be acknowledged. -/
theorem Tracks.acknowledge (h : Tracks s base receiver acks) {sn : UInt32}
    (hStored : sn < receiver.rcvNxt ∨ ∃ seg ∈ receiver.rcvBuf, seg.header.sn = sn) :
    Tracks s base receiver (insert sn.toNat acks) := by
  refine ⟨h.leads.trans (.single (.acknowledge _ _ ?_)), h.length_eq, h.invariant⟩
  rcases hStored with hOld | ⟨seg, hSeg, rfl⟩
  · refine .inl ?_
    dsimp only
    rw [h.length_eq]
    exact UInt32.lt_iff_toNat_lt.mp hOld
  · exact .inr ⟨seg.fragment, mem_items.mpr ⟨seg, hSeg, rfl⟩⟩

/-- A segment in transit is stored, and then acknowledged. -/
theorem Tracks.emplace (h : Tracks s base receiver acks) {frame : Frame}
    (hPacket : frame.numbered ∈ s.packets) (hComplete : frame.WellFormed)
    (hNew : receiver.rcvNxt ≤ frame.header.sn) (hBound : frame.header.sn.toNat + 1 < 2 ^ 32) :
    Tracks s base (receiver.emplaceSegment frame.header frame.payload)
      (insert frame.header.sn.toNat acks) := by
  have hInvariant := h.invariant
  rcases Receiver.emplaceSegment_cases hInvariant.increasing frame.header frame.payload with
    ⟨hStored, hSame⟩ | ⟨hMissing, hInsert⟩
  · rw [hSame]
    exact h.acknowledge (.inr hStored)
  · rw [hInsert]
    have hStore := SelectiveRepeat.Step.store { s with
      held := items receiver.rcvBuf
      delivered := base ++ receiver.rcvQueue.map Segment.fragment
      acks } frame.header.sn.toNat frame.numbered.2 hPacket
      (h.length_eq.le.trans (UInt32.le_iff_toNat_le.mp hNew))
    have hInserted : Tracks s base { receiver with
        rcvBuf :=
          insertByKey Segment.key ⟨frame.header, frame.payload, {}⟩ receiver.rcvBuf } acks := by
      have hSeg : (⟨frame.header, frame.payload, {}⟩ : Segment).Complete := hComplete
      refine ⟨h.leads.trans (.single ?_), h.length_eq, hInvariant.store hSeg hNew hBound hMissing⟩
      rw [items_insertByKey]
      exact hStore
    exact (hInserted.acknowledge (.inr ⟨_, mem_insertByKey.mpr (.inl rfl), rfl⟩)).move

variable {r : ImKcpp mtu}

/-- One `PUSH`: dropped, acknowledged again, or stored and acknowledged. -/
theorem Tracks.push (h : Tracks s base r.receiver acks) {frame : Frame}
    (hPacket : frame.numbered ∈ s.packets) (hComplete : frame.WellFormed) :
    ∃ more, Tracks s base (r.applyPush frame).receiver more ∧ acks ⊆ more ∧
      (frame.header.sn < r.receiver.rcvNxt + r.congestionController.rcvWnd →
        frame.header.sn.toNat ∈ more) := by
  unfold ImKcpp.applyPush
  dsimp only
  by_cases hFits : r.congestionController.fitsReceiveWindow r.receiver.rcvNxt frame.header.sn = true
  · refine ⟨insert frame.header.sn.toNat acks, ?_, Set.subset_insert _ _, fun _ => .inl rfl⟩
    rw [hFits, Bool.not_true, if_neg Bool.false_ne_true]
    split_ifs with hReceive
    · exact h.emplace hPacket hComplete (of_decide_eq_true hReceive) (ImKcpp.succ_lt_of_fits hFits)
    · refine h.acknowledge (.inl (UInt32.not_le.mp fun hNew => hReceive ?_))
      exact decide_eq_true hNew
  · have hOutside : r.congestionController.fitsReceiveWindow r.receiver.rcvNxt frame.header.sn =
        false :=
      Bool.eq_false_of_not_eq_true hFits
    rw [hOutside, Bool.not_false, if_pos rfl]
    exact ⟨acks, h, subset_rfl, fun hInside => absurd (decide_eq_true hInside) hFits⟩

/-- One segment of the peer. -/
theorem Tracks.frame (h : Tracks s base r.receiver acks) {frame : Frame}
    (hAccepted : frame.Accepted conv)
    (hPacket : frame.header.cmd = Commands.push → frame.numbered ∈ s.packets) :
    ∃ more, Tracks s base (r.applyFrame frame).receiver more ∧ acks ⊆ more ∧
      (frame.header.cmd = Commands.push ∧
        frame.header.sn < r.receiver.rcvNxt + r.congestionController.rcvWnd →
        frame.header.sn.toNat ∈ more) := by
  unfold ImKcpp.applyFrame
  dsimp only
  by_cases hPush : frame.header.cmd = Commands.push
  · have hHeader : Tracks s base (r.acceptHeader frame.header).receiver acks := h
    obtain ⟨more, hTracks, hAcks, hDue⟩ :=
      hHeader.push (hPacket hPush) (hAccepted.push_payload hPush)
    rw [if_pos hPush]
    exact ⟨more, hTracks, hAcks, fun hInside => hDue hInside.2⟩
  · rw [if_neg hPush]
    refine ⟨acks, ?_, subset_rfl, fun hInside => absurd hInside.1 hPush⟩
    split_ifs <;> exact h

/-- All segments of a datagram. -/
theorem Tracks.frames (h : Tracks s base r.receiver acks) {frames : List Frame}
    (hAccepted : ∀ frame ∈ frames, frame.Accepted conv)
    (hPackets : ∀ frame ∈ frames, frame.header.cmd = Commands.push → frame.numbered ∈ s.packets) :
    ∃ more, Tracks s base (frames.foldl ImKcpp.applyFrame r).receiver more ∧ acks ⊆ more ∧
      ∀ ack ∈ r.dueAcks frames, ack.sn.toNat ∈ more := by
  induction frames generalizing r acks with
  | nil => exact ⟨acks, h, subset_rfl, by simp [ImKcpp.dueAcks]⟩
  | cons frame rest ih =>
      obtain ⟨middle, hMiddle, hFirst, hDue⟩ :=
        h.frame (hAccepted frame (by simp)) (hPackets frame (by simp))
      obtain ⟨more, hMore, hRest, hOthers⟩ := ih hMiddle
        (fun other hOther => hAccepted other (by simp [hOther]))
        (fun other hOther => hPackets other (by simp [hOther]))
      refine ⟨more, hMore, hFirst.trans hRest, ?_⟩
      intro ack hAck
      rw [ImKcpp.dueAcks, List.mem_append] at hAck
      rcases hAck with hAck | hAck
      · split_ifs at hAck with hInside
        · rw [List.mem_singleton.mp hAck]
          exact hRest (hDue hInside)
        · simp at hAck
      · exact hOthers ack hAck

variable {a b : Party mtu} {call : Call} {outcome : Outcome mtu}

/-- What waits in the queue continues what has been returned. -/
theorem Link.queue_prefix (h : Link host a b s) (hProtocol : SelectiveRepeat.Invariant s) :
    ∃ more, a.accepted = b.returned ++ more ∧
      b.endpoint.receiver.rcvQueue.map Segment.fragment <+: more.flatMap (fragments mtu) := by
  obtain ⟨more, hMore⟩ := h.returned
  have hPrefix := hProtocol.delivered_prefix
  rw [h.delivered_eq, h.produced_eq, ← hMore, List.flatMap_append, Party.received,
    List.prefix_append_right_inj] at hPrefix
  exact ⟨more, hMore.symm, hPrefix⟩

theorem Link.tracks (h : Link host a b s) (hInvariant : b.endpoint.Invariant) :
    Tracks s (b.returned.flatMap (fragments mtu)) b.endpoint.receiver s.acks where
  leads := by
    have hView : b.returned.flatMap (fragments mtu) ++
        b.endpoint.receiver.rcvQueue.map Segment.fragment = s.delivered := h.delivered_eq.symm
    rw [hView, ← h.held_eq]
    exact .refl s
  length_eq := by
    have hLength := h.length_eq
    rw [h.delivered_eq] at hLength
    exact hLength
  invariant := hInvariant.receiver

/-- A call of the receiving side. -/
theorem Link.receives (h : Link host a b s) {held : Set (ℕ × Fragment UInt8)}
    {delivered : List (Fragment UInt8)} {acks cums : Set ℕ}
    (hHeld : held = items outcome.state.receiver.rcvBuf)
    (hDelivered : delivered = (b.record call outcome).received)
    (hLength : delivered.length = outcome.state.receiver.rcvNxt.toNat)
    (hAcks : s.acks ⊆ acks)
    (hDue : ∀ ack ∈ (⟨b.endpoint, call, outcome⟩ : Event mtu).dueAcks host, ack.sn.toNat ∈ acks)
    (hCums : s.cums ⊆ cums)
    (hSent : ∀ frame ∈ outcome.datagrams.flatMap (framesOf host), frame.header.una.toNat ∈ cums)
    (hReturned : (b.record call outcome).returned <+: a.accepted) :
    Link host a (b.record call outcome) { s with held, delivered, acks, cums } := by
  refine { h with held_eq := hHeld, delivered_eq := hDelivered, length_eq := hLength, acks := ?_,
                  cums := ?_, returned := hReturned }
  · intro ack hAck
    rw [Party.record_dueAcks, List.mem_append] at hAck
    rcases hAck with hAck | hAck
    · exact hAcks (h.acks ack hAck)
    · exact hDue ack hAck
  · intro frame hFrame
    rw [Party.record_emittedFrames, List.mem_append] at hFrame
    rcases hFrame with hFrame | hFrame
    · exact hCums (h.cums frame hFrame)
    · exact hSent frame hFrame

/-- The end of a run that tracks the receiver of a call without output. -/
theorem Link.of_tracks (h : Link host a b s) {acks : Set ℕ}
    (hTracks : Tracks s ((b.record call outcome).returned.flatMap (fragments mtu))
      outcome.state.receiver acks)
    (hDatagrams : outcome.datagrams = []) (hAcks : s.acks ⊆ acks)
    (hDue : ∀ ack ∈ (⟨b.endpoint, call, outcome⟩ : Event mtu).dueAcks host, ack.sn.toNat ∈ acks)
    (hReturned : (b.record call outcome).returned <+: a.accepted) :
    ∃ t, protocol.Leads s t ∧ Link host a (b.record call outcome) t :=
  ⟨_, hTracks.leads, h.receives rfl rfl hTracks.length_eq hAcks hDue subset_rfl
    (by simp [hDatagrams]) hReturned⟩

/-- A call that leaves the receiver alone and at most announces the next number. -/
theorem Link.receiver_quiet (h : Link host a b s) {cums : Set ℕ}
    (hReturned : (⟨b.endpoint, call, outcome⟩ : Event mtu).returned = [])
    (hDue : (⟨b.endpoint, call, outcome⟩ : Event mtu).dueAcks host = [])
    (hBuffer : outcome.state.receiver.rcvBuf = b.endpoint.receiver.rcvBuf)
    (hQueue : outcome.state.receiver.rcvQueue = b.endpoint.receiver.rcvQueue)
    (hNext : outcome.state.receiver.rcvNxt = b.endpoint.receiver.rcvNxt) (hCums : s.cums ⊆ cums)
    (hSent : ∀ frame ∈ outcome.datagrams.flatMap (framesOf host), frame.header.una.toNat ∈ cums) :
    Link host a (b.record call outcome) { s with cums } := by
  have hSame : (b.record call outcome).returned = b.returned := by
    rw [Party.record_returned, hReturned, List.append_nil]
  refine h.receives ?_ ?_ ?_ subset_rfl ?_ hCums hSent ?_
  · rw [hBuffer, h.held_eq]
  · rw [Party.received, hSame, Party.record_endpoint, hQueue, h.delivered_eq, Party.received]
  · rw [hNext, h.length_eq]
  · simp [hDue]
  · rw [hSame]
    exact h.returned

/-- Calls that do not concern the receiver, without output. -/
theorem Link.receiver_silent (h : Link host a b s)
    (hReturned : (⟨b.endpoint, call, outcome⟩ : Event mtu).returned = [])
    (hDue : (⟨b.endpoint, call, outcome⟩ : Event mtu).dueAcks host = [])
    (hBuffer : outcome.state.receiver.rcvBuf = b.endpoint.receiver.rcvBuf)
    (hQueue : outcome.state.receiver.rcvQueue = b.endpoint.receiver.rcvQueue)
    (hNext : outcome.state.receiver.rcvNxt = b.endpoint.receiver.rcvNxt)
    (hDatagrams : outcome.datagrams = []) :
    ∃ t, protocol.Leads s t ∧ Link host a (b.record call outcome) t :=
  ⟨s, .refl s,
    h.receiver_quiet hReturned hDue hBuffer hQueue hNext subset_rfl (by simp [hDatagrams])⟩

/-- A flush announces the next number. -/
theorem Link.announce (h : Link host a b s) (hInvariant : b.endpoint.Invariant)
    {start next : ImKcpp mtu} {packets : List (List Frame)} {result : FlushResult}
    {askSend askTell : Bool} (hStart : b.endpoint.FlushStart call start)
    (hFlushed : ImKcpp.Flushed host start next packets result askSend askTell) :
    Link host a (b.record call {
        state := next
        response := .flush result
        datagrams := packets.map (wire host) })
      { s with cums := insert s.delivered.length s.cums } := by
  have hSending := (hStart.invariant hInvariant).toSending
  have hReceiver : start.receiver = b.endpoint.receiver := by
    cases hStart <;> rfl
  have hNext : next.receiver = b.endpoint.receiver := hFlushed.receiver_eq.trans hReceiver
  refine h.receiver_quiet rfl ?_ ?_ ?_ ?_ (Set.subset_insert _ _) ?_
  · cases hStart <;> rfl
  · rw [hNext]
  · rw [hNext]
  · rw [hNext]
  · intro frame hFrame
    rw [hFlushed.framesOf_eq hSending] at hFrame
    rw [(hFlushed.issued hSending frame hFrame).una_eq, hReceiver, ← h.length_eq]
    exact .inl rfl

/-- Every call of the receiving side is matched by a run of the protocol. -/
theorem Link.receiver_step (h : Link host a b s) (hInvariant : b.endpoint.Invariant)
    (hProtocol : SelectiveRepeat.Invariant s) (hEffect : b.endpoint.Effect host call outcome)
    (hInput : ∀ data, call = .input data →
      ∀ frame ∈ (scan host b.endpoint.sharedCtx.conv data).1, frame ∈ a.emittedFrames host) :
    ∃ t, protocol.Leads s t ∧ Link host a (b.record call outcome) t := by
  cases hEffect with
  | configure => exact h.receiver_silent rfl rfl rfl rfl rfl rfl
  | input data folded sndBuf controller result hFolded hCore hRcvWnd hTotal =>
      obtain ⟨acks, hTracks, hAcks, hDue⟩ := (h.tracks hInvariant).frames
        (scan_accepted host b.endpoint.sharedCtx.conv data)
        (fun frame hFrame => h.packets frame (hInput data rfl frame hFrame))
      have hNone : ∀ outcome : Outcome mtu, outcome.response = .input result →
          (b.record (.input data) outcome).returned = b.returned := by
        rintro ⟨state, response, datagrams⟩ rfl
        exact (Party.record_returned _ _ _).trans (List.append_nil _)
      refine h.of_tracks ?_ rfl hAcks hDue ?_
      · rw [hNone _ rfl, hFolded]
        exact hTracks
      · rw [hNone _ rfl]
        exact h.returned
  | recvRefused => exact h.receiver_silent rfl rfl rfl rfl rfl rfl
  | recv buffer rest prober hReady hSuffix hRest =>
      obtain ⟨more, hMore, hPrefix⟩ := h.queue_prefix hProtocol
      have hNonempty : ∀ message ∈ more, message ≠ [] := fun message hMessage =>
        h.accepted message (by rw [hMore]; exact List.mem_append_right _ hMessage)
      obtain ⟨message, others, rfl, hMessage, hQueue⟩ :=
        Receiver.joinFirst_of_ready hNonempty hPrefix hReady
      have hRest := hRest (Receiver.data_ne_nil_of_prefix hNonempty hPrefix)
      rw [hMessage]
      have hReturned : ∀ outcome : Outcome mtu, outcome.response = .recv (.ok message) →
          (b.record (.recv buffer) outcome).returned = b.returned ++ [message] := by
        rintro ⟨state, response, datagrams⟩ rfl
        exact Party.record_returned _ _ _
      have hView : (b.returned ++ [message]).flatMap (fragments mtu) ++ rest.map Segment.fragment =
          b.returned.flatMap (fragments mtu) ++
            b.endpoint.receiver.rcvQueue.map Segment.fragment := by
        rw [List.flatMap_append, List.flatMap_singleton, List.append_assoc, hRest, ← hQueue]
      have hTracks := h.tracks hInvariant
      have hTaken : Tracks s ((b.returned ++ [message]).flatMap (fragments mtu))
          { b.endpoint.receiver with rcvQueue := rest } s.acks := by
        refine ⟨?_, ?_, hInvariant.receiver.dequeue hSuffix⟩
        · rw [hView]
          exact hTracks.leads
        · rw [hView]
          exact hTracks.length_eq
      refine h.of_tracks ?_ rfl subset_rfl (fun ack hAck => absurd hAck List.not_mem_nil) ?_
      · rw [hReturned _ rfl]
        exact hTaken.move
      · rw [hReturned _ rfl, hMore]
        exact ⟨others, by simp⟩
  | sendRefused => exact h.receiver_silent rfl rfl rfl rfl rfl rfl
  | send => exact h.receiver_silent rfl rfl rfl rfl rfl rfl
  | check => exact h.receiver_silent rfl rfl rfl rfl rfl rfl
  | idle call start hStart hIdle =>
      cases hStart <;> exact h.receiver_silent rfl rfl rfl rfl rfl rfl
  | flush call start next packets result askSend askTell hStart hFlushes hFlushed =>
      exact ⟨_, .single (.accumulate s), h.announce hInvariant hStart hFlushed⟩

end Receiver

/-- Either direction of a network refines the protocol. -/
theorem network_simulation (host : Host) (mtu : Mtu) (conv : UInt32) (side : Side) :
    Simulation (networkSystem host mtu conv) protocol
      (fun net s => Link host (net side) (net side.peer) s) where
  init := by
    rintro net rfl
    exact ⟨{}, rfl, Link.init host mtu conv⟩
  step := by
    rintro net next s hReach hProtocol hLink ⟨moving, call, party, hStep, hInput, rfl⟩
    have hScan (data : List UInt8) (hData : data ∈ (net moving.peer).emitted) :
        ∀ frame ∈ (scan host (net moving).endpoint.sharedCtx.conv data).1,
          frame ∈ (net moving.peer).emittedFrames host := by
      rw [conv_of_reachable (party_of_network hReach moving)]
      exact scan_of_emitted (party_of_network hReach moving.peer) hData
    have hInvariant := invariant_of_reachable (party_of_network hReach moving)
    obtain ⟨outcome, hEffect, rfl⟩ := hStep.effect hInvariant
    rcases side.eq_or_eq_peer moving with rfl | rfl
    · rw [Function.update_self, Function.update_of_ne moving.peer_ne]
      exact hLink.sender_step hInvariant hEffect
        (ack_of_emitted (party_of_network hReach moving.peer)).2
        (fun data hCall => hScan data (hInput data hCall))
    · rw [Function.update_self, Function.update_of_ne side.ne_peer]
      rw [Side.peer_peer] at hScan hInput
      exact hLink.receiver_step hInvariant
        (SelectiveRepeat.invariant_of_reachable hProtocol) hEffect
        (fun data hCall => hScan data (hInput data hCall))

/-- The protocol state behind a reachable network. -/
theorem link_of_reachable {net : Network mtu} (h : (networkSystem host mtu conv).Reachable net)
    (side : Side) :
    ∃ s, SelectiveRepeat.Invariant s ∧ Link host (net side) (net side.peer) s := by
  obtain ⟨s, hProtocol, hLink⟩ := (network_simulation host mtu conv side).reachable h
  exact ⟨s, SelectiveRepeat.invariant_of_reachable hProtocol, hLink⟩

end Imkcpp
