import Imkcpp.SenderInvariant
import Imkcpp.ReceiverInvariant
import Imkcpp.Library.Fragmentation

/-! Messages and their segments: `send` cuts a buffer into fragments that count
down to zero, and `recv` puts the fragments at the front of its queue together. -/
namespace Imkcpp

open Fragmentation

variable {mtu : Mtu}

/-- The part of a segment that fragmentation is about. -/
def Segment.fragment (seg : Segment) : Fragment UInt8 := ⟨seg.header.frg.toNat, seg.data⟩

/-- The fragments that `send` makes of a message. -/
def fragments (mtu : Mtu) (message : List UInt8) : List (Fragment UInt8) :=
  split mtu.maxSegmentSize (Sender.estimateSegmentsCount mtu message.length) message

namespace Sender

/-- All segments of a message are needed to carry it, and they suffice. -/
theorem estimateSegmentsCount_spec (mtu : Mtu) {size : Nat} (hSize : 0 < size) :
    size ≤ estimateSegmentsCount mtu size * mtu.maxSegmentSize ∧
      estimateSegmentsCount mtu size * mtu.maxSegmentSize < size + mtu.maxSegmentSize := by
  have hMss := mtu.maxSegmentSize_pos
  unfold estimateSegmentsCount
  generalize mtu.maxSegmentSize = mss at hMss
  have hCount : 1 ≤ (size + mss - 1) / mss := by
    rw [Nat.le_div_iff_mul_le hMss]
    omega
  rw [max_eq_right hCount]
  have hDivMod := Nat.div_add_mod (size + mss - 1) mss
  have hMod := Nat.mod_lt (size + mss - 1) hMss
  rw [Nat.mul_comm] at hDivMod
  omega

theorem estimateSegmentsCount_pos (mtu : Mtu) (size : Nat) : 0 < estimateSegmentsCount mtu size :=
  Nat.lt_of_lt_of_le Nat.zero_lt_one (le_max_left _ _)

/-- The segment that `send` queues for a fragment. -/
def segmentOf (fragment : Fragment UInt8) : Segment where
  header := { frg := UInt8.ofNat fragment.remaining, len := UInt32.ofNat fragment.payload.length }
  data := fragment.payload

/-- One iteration of `send`: the next piece is queued unless its length does not
fit into the length field, which an assertion notices. -/
theorem sendLoop_succ {buffer piece : List UInt8} {offset : Nat} (hOffset : offset < buffer.length)
    (hPiece : piece = (buffer.drop offset).take mtu.maxSegmentSize) (remaining : Nat)
    (sndQueue : List Segment) :
    sendLoop mtu buffer (remaining + 1) sndQueue offset =
      if piece.length < 2 ^ 32 then
        sendLoop mtu buffer remaining (sndQueue ++ [segmentOf ⟨remaining, piece⟩])
          (offset + piece.length)
      else .error (.assertion .sender) := by
  have hLength : min (buffer.length - offset) mtu.maxSegmentSize = piece.length := by
    rw [hPiece, List.length_take, List.length_drop, Nat.min_comm]
  have hBytes : (buffer.drop offset).take piece.length = piece := by
    rw [← hLength, ← List.length_drop, Nat.min_comm, ← List.take_eq_take_min, hPiece]
  have hPositive : piece.length > 0 := by
    have hMss := mtu.maxSegmentSize_pos
    omega
  rw [sendLoop, sizeSub_of_le hOffset.le, ok_bind]
  dsimp only
  rw [hLength, assert_of_true hPositive, ok_bind, readSpan_of_le (by omega), ok_bind, hBytes]
  by_cases hSmall : piece.length < 2 ^ 32
  · have hDataSize : (UInt32.ofNat piece.length).toNat = piece.length :=
      UInt32.toNat_ofNat_of_lt' hSmall
    rw [if_pos hSmall, assert_of_true (by exact hDataSize), ok_bind]
    rfl
  · have hDataSize : (UInt32.ofNat piece.length).toNat ≠ piece.length := by
      have hLt := (UInt32.ofNat piece.length).toNat_lt
      omega
    rw [if_neg hSmall, assert_of_false (by exact hDataSize), error_bind]

/-- The loop of `send` queues the fragments of the rest of the buffer. It meets
no assertion unless a fragment can be too long for the length field. -/
theorem sendLoop_cases {buffer : List UInt8} {remaining offset : Nat}
    (hNeeded : offset + remaining * mtu.maxSegmentSize < buffer.length + mtu.maxSegmentSize)
    (sndQueue : List Segment) :
    let pieces := split mtu.maxSegmentSize remaining (buffer.drop offset)
    ((∀ piece ∈ pieces, piece.payload.length < 2 ^ 32) ∧
      sendLoop mtu buffer remaining sndQueue offset = .ok (sndQueue ++ pieces.map segmentOf,
        offset + (pieces.flatMap Fragment.payload).length)) ∨
    (2 ^ 32 ≤ min buffer.length mtu.maxSegmentSize ∧
      sendLoop mtu buffer remaining sndQueue offset = .error (.assertion .sender)) := by
  induction remaining generalizing sndQueue offset with
  | zero => exact .inl ⟨by simp [split], by simp [split, sendLoop]⟩
  | succ remaining ih =>
      intro pieces
      have hSplit : (remaining + 1) * mtu.maxSegmentSize =
          remaining * mtu.maxSegmentSize + mtu.maxSegmentSize := Nat.succ_mul _ _
      have hOffset : offset < buffer.length := by omega
      obtain ⟨piece, hPiece⟩ : ∃ piece, piece = (buffer.drop offset).take mtu.maxSegmentSize :=
        ⟨_, rfl⟩
      have hLength : piece.length = min mtu.maxSegmentSize (buffer.length - offset) := by
        rw [hPiece, List.length_take, List.length_drop]
      have hDrop : (buffer.drop offset).drop mtu.maxSegmentSize =
          buffer.drop (offset + piece.length) := by
        rw [List.drop_drop, List.drop_eq_drop_iff]
        omega
      have hPieces : pieces = ⟨remaining, piece⟩ ::
          split mtu.maxSegmentSize remaining (buffer.drop (offset + piece.length)) := by
        rw [← hDrop, hPiece]
        rfl
      rw [sendLoop_succ hOffset hPiece]
      by_cases hSmall : piece.length < 2 ^ 32
      · rw [if_pos hSmall]
        have hRest : offset + piece.length + remaining * mtu.maxSegmentSize <
            buffer.length + mtu.maxSegmentSize := by omega
        rcases ih hRest (sndQueue ++ [segmentOf ⟨remaining, piece⟩]) with
          ⟨hAll, hLoop⟩ | ⟨hLarge, hLoop⟩
        · refine .inl ⟨?_, ?_⟩
          · rw [hPieces]
            exact List.forall_mem_cons.mpr ⟨hSmall, hAll⟩
          · rw [hLoop, hPieces, List.map_cons, List.append_assoc, List.singleton_append,
              List.flatMap_cons, List.length_append, Nat.add_assoc]
        · exact .inr ⟨hLarge, hLoop⟩
      · exact .inr ⟨by omega, if_neg hSmall⟩

/-- A piece of a message becomes a segment that can be sent. -/
theorem segmentOf_sendable {message : List UInt8} (hMessage : message ≠ [])
    (hSmall : ∀ piece ∈ fragments mtu message, piece.payload.length < 2 ^ 32) :
    ∀ seg ∈ (fragments mtu message).map segmentOf, seg.Sendable mtu := by
  intro seg hSeg
  obtain ⟨piece, hPiece, rfl⟩ := List.mem_map.mp hSeg
  obtain ⟨-, hNeeded⟩ := estimateSegmentsCount_spec mtu (List.length_pos_iff.mpr hMessage)
  exact {
    len_eq := UInt32.toNat_ofNat_of_lt' (hSmall piece hPiece)
    data_ne_nil := payload_ne_nil _ _ _ mtu.maxSegmentSize_pos hNeeded piece hPiece
    data_length_le := payload_length_le _ _ _ piece hPiece }

/-- The pieces are short enough for the length field only if the first one is. -/
theorem min_lt_of_small {message : List UInt8}
    (hSmall : ∀ piece ∈ fragments mtu message, piece.payload.length < 2 ^ 32) :
    min message.length mtu.maxSegmentSize < 2 ^ 32 := by
  obtain ⟨remaining, hCount⟩ :=
    Nat.exists_eq_succ_of_ne_zero (estimateSegmentsCount_pos mtu message.length).ne'
  rw [fragments, hCount] at hSmall
  have hFirst := hSmall ⟨remaining, message.take mtu.maxSegmentSize⟩ List.mem_cons_self
  rwa [List.length_take, Nat.min_comm] at hFirst

/-- The segments of a message have its fragments. -/
theorem map_fragment_segmentOf {message : List UInt8}
    (hCount : estimateSegmentsCount mtu message.length ≤ 255) :
    ((fragments mtu message).map segmentOf).map Segment.fragment = fragments mtu message := by
  rw [List.map_map]
  refine (List.map_congr_left ?_).trans (List.map_id _)
  intro piece hPiece
  have hRemaining := remaining_lt _ _ _ piece hPiece
  have hFrg : (UInt8.ofNat piece.remaining).toNat = piece.remaining :=
    UInt8.toNat_ofNat_of_lt' (show piece.remaining < 256 by omega)
  simp [Segment.fragment, segmentOf, hFrg]

/-- `send` refuses an empty buffer and one that needs too many segments. -/
theorem send_refused {sender : Sender} {rcvWnd : UInt32} {buffer : List UInt8}
    (h : buffer = [] ∨ 255 < estimateSegmentsCount mtu buffer.length ∨
      rcvWnd.toNat < estimateSegmentsCount mtu buffer.length) :
    ∃ error, send mtu sender rcvWnd buffer = .ok (sender, .error error) := by
  unfold send
  dsimp only
  split_ifs with hEmpty hMany hWindow
  · exact ⟨_, rfl⟩
  · exact ⟨_, rfl⟩
  · exact ⟨_, rfl⟩
  · rcases h with rfl | h | h
    · exact absurd rfl hEmpty
    · exact absurd h hMany
    · exact absurd h hWindow

/-- What `send` can do: refuse, queue the fragments of the buffer, or meet its
assertion because a fragment is too long for the length field. -/
theorem send_cases (mtu : Mtu) (sender : Sender) (rcvWnd : UInt32) (buffer : List UInt8) :
    ((buffer = [] ∨ 255 < estimateSegmentsCount mtu buffer.length ∨
        rcvWnd.toNat < estimateSegmentsCount mtu buffer.length) ∧
      ∃ error, send mtu sender rcvWnd buffer = .ok (sender, .error error)) ∨
    (buffer ≠ [] ∧ estimateSegmentsCount mtu buffer.length ≤ 255 ∧
      estimateSegmentsCount mtu buffer.length ≤ rcvWnd.toNat ∧
      (∀ piece ∈ fragments mtu buffer, piece.payload.length < 2 ^ 32) ∧
      send mtu sender rcvWnd buffer =
        .ok ({ sender with sndQueue := sender.sndQueue ++ (fragments mtu buffer).map segmentOf },
          .ok buffer.length)) ∨
    (2 ^ 32 ≤ min buffer.length mtu.maxSegmentSize ∧
      send mtu sender rcvWnd buffer = .error (.assertion .sender)) := by
  by_cases hRefused : buffer = [] ∨ 255 < estimateSegmentsCount mtu buffer.length ∨
      rcvWnd.toNat < estimateSegmentsCount mtu buffer.length
  · exact .inl ⟨hRefused, send_refused hRefused⟩
  · obtain ⟨hBuffer, hMany, hWindow⟩ := by simpa only [not_or] using hRefused
    obtain ⟨hFits, hNeeded⟩ := estimateSegmentsCount_spec mtu (List.length_pos_iff.mpr hBuffer)
    rw [← Nat.zero_add (_ * _)] at hNeeded
    unfold send
    dsimp only
    rw [if_neg (by simpa using hBuffer), if_neg hMany, if_neg hWindow]
    rcases sendLoop_cases hNeeded sender.sndQueue with ⟨hAll, hLoop⟩ | ⟨hLarge, hLoop⟩
    · refine .inr (.inl ⟨hBuffer, Nat.not_lt.mp hMany, Nat.not_lt.mp hWindow, hAll, ?_⟩)
      rw [hLoop, List.drop_zero, flatMap_payload_split _ _ _ hFits, Nat.zero_add]
      rfl
    · refine .inr (.inr ⟨hLarge, ?_⟩)
      rw [hLoop]
      rfl

end Sender

namespace Receiver

/-- `peek_size` adds up the payloads of the first message. -/
theorem peekLoop_eq {segs : List Segment} (h : ∀ seg ∈ segs, seg.Complete) (length : Nat) :
    peekLoop segs length = length + (joinFirst (segs.map Segment.fragment)).1.length := by
  induction segs generalizing length with
  | nil => rfl
  | cons seg rest ih =>
      have hSeg : seg.dataSize = seg.data.length := h seg (by simp)
      have hRest := ih (fun other hOther => h other (by simp [hOther]))
      unfold peekLoop
      by_cases hLast : seg.header.frg = 0
      · simp [joinFirst, Segment.fragment, hLast, hSeg]
      · have hFrg : seg.header.frg.toNat ≠ 0 := fun hZero => hLast (UInt8.toNat_inj.mp hZero)
        simp [joinFirst, Segment.fragment, hLast, hFrg, hSeg, hRest, Nat.add_assoc]

/-- The queue holds as many segments as its first one announces. -/
def Ready (receiver : Receiver) : Prop :=
  ∃ first, receiver.rcvQueue.head? = some first ∧ first.header.frg.toNat < receiver.rcvQueue.length

/-- `peek_size` succeeds on a queue that is ready, and tells the other two cases apart. -/
theorem peekSize_cases (receiver : Receiver) :
    (receiver.Ready ∧ ∃ size, receiver.peekSize = .ok size) ∨
    (¬receiver.Ready ∧ receiver.rcvQueue = [] ∧ receiver.peekSize = .error .queueEmpty) ∨
    (¬receiver.Ready ∧ receiver.rcvQueue ≠ [] ∧
      receiver.peekSize = .error .waitingForFragment) := by
  unfold peekSize Ready
  cases hQueue : receiver.rcvQueue with
  | nil => exact .inr (.inl ⟨by simp, rfl, rfl⟩)
  | cons front rest =>
      simp only [List.head?_cons, Option.some.injEq, exists_eq_left']
      split_ifs with hLast hShort
      · refine .inl ⟨?_, _, rfl⟩
        rw [hLast]
        exact Nat.zero_lt_succ _
      · exact .inr (.inr ⟨by omega, by simp, rfl⟩)
      · exact .inl ⟨by omega, _, rfl⟩

/-- When `peek_size` succeeds, it is the size of the first message. -/
theorem peekSize_ok {receiver : Receiver} (hQueued : ∀ seg ∈ receiver.rcvQueue, seg.Complete)
    {size : Nat} (hPeek : receiver.peekSize = .ok size) :
    size = (joinFirst (receiver.rcvQueue.map Segment.fragment)).1.length := by
  unfold peekSize at hPeek
  cases hQueue : receiver.rcvQueue with
  | nil => simp [hQueue] at hPeek
  | cons front rest =>
      have hFront : front.dataSize = front.data.length := hQueued front (by simp [hQueue])
      simp only [hQueue] at hPeek hQueued
      split_ifs at hPeek with hLast hShort
      · obtain rfl := Except.ok.inj hPeek
        simp [joinFirst, Segment.fragment, hLast, hFront]
      · rw [← Except.ok.inj hPeek, peekLoop_eq hQueued, Nat.zero_add]

/-- One iteration of `recv`: a payload is copied, and the loop goes on unless the
segment is the last one of its message or enough has been copied. -/
theorem copyLoop_cons {peeksize n : Nat} {seg : Segment} (hSeg : seg.Complete) (tail : List Segment)
    (buffer : Vector UInt8 n) {offset : Nat} (hWrite : offset + seg.data.length ≤ n) :
    copyLoop peeksize (seg :: tail) buffer offset =
      if seg.header.frg = 0 ∨ peeksize ≤ offset + seg.data.length then
        .ok (tail, overwrite buffer offset seg.data hWrite, offset + seg.data.length)
      else copyLoop peeksize tail (overwrite buffer offset seg.data hWrite)
        (offset + seg.data.length) := by
  have hSize : seg.dataSize = seg.data.length := hSeg
  have hMin : min seg.dataSize (n - offset) = seg.data.length := by omega
  rw [copyLoop, sizeSub_of_le (by omega), ok_bind, hMin, SegmentData.encodeTo_of_le hWrite, ok_bind,
    ite_or]
  rfl

/-- The copying loop of `recv` writes the first message behind the offset. When
no segment is empty, it also removes exactly the segments of that message. -/
theorem copyLoop_spec {peeksize n : Nat} (hFits : peeksize ≤ n) {segs : List Segment}
    (hComplete : ∀ seg ∈ segs, seg.Complete) (buffer : Vector UInt8 n) {offset : Nat}
    (hSize : offset + (joinFirst (segs.map Segment.fragment)).1.length = peeksize) :
    ∃ rest final, copyLoop peeksize segs buffer offset = .ok (rest, final, peeksize) ∧
      rest <:+ segs ∧
      final.toList = buffer.toList.take offset ++ (joinFirst (segs.map Segment.fragment)).1 ++
        buffer.toList.drop peeksize ∧
      ((∀ seg ∈ segs, seg.data ≠ []) →
        rest.map Segment.fragment = (joinFirst (segs.map Segment.fragment)).2) := by
  induction segs generalizing buffer offset with
  | nil =>
      obtain rfl : offset = peeksize := hSize
      exact ⟨[], buffer, rfl, List.suffix_rfl, by simp [joinFirst], by simp [joinFirst]⟩
  | cons seg tail ih =>
      have hTail : ∀ other ∈ tail, other.Complete :=
        fun other hOther => hComplete other (by simp [hOther])
      have hBound : offset + seg.data.length ≤ peeksize := by
        rw [← hSize, List.map_cons, joinFirst]
        split <;> simp [Segment.fragment]
      have hWrite : offset + seg.data.length ≤ n := by omega
      have hTake := overwrite_take buffer offset seg.data hWrite
      have hDrop := overwrite_drop buffer offset seg.data hWrite hBound
      rw [copyLoop_cons (hComplete seg (by simp)) tail buffer hWrite]
      by_cases hLast : seg.header.frg = 0
      · have hJoin : joinFirst ((seg :: tail).map Segment.fragment) =
            (seg.data, tail.map Segment.fragment) := by
          simp [joinFirst, Segment.fragment, hLast]
        rw [hJoin] at hSize ⊢
        rw [if_pos (.inl hLast)]
        refine ⟨tail, _, by rw [hSize], List.suffix_cons _ _, ?_, fun _ => rfl⟩
        rw [overwrite_toList, hSize]
      · have hFrg : seg.header.frg.toNat ≠ 0 := fun hZero => hLast (UInt8.toNat_inj.mp hZero)
        have hJoin : joinFirst ((seg :: tail).map Segment.fragment) =
            (seg.data ++ (joinFirst (tail.map Segment.fragment)).1,
              (joinFirst (tail.map Segment.fragment)).2) := by
          simp [joinFirst, Segment.fragment, hFrg]
        rw [hJoin] at hSize ⊢
        rw [List.length_append, ← Nat.add_assoc] at hSize
        by_cases hEnough : peeksize ≤ offset + seg.data.length
        · -- Only empty segments are left of the message.
          have hEmpty : (joinFirst (tail.map Segment.fragment)).1 = [] := by
            rw [← List.length_eq_zero_iff]
            omega
          have hReached : offset + seg.data.length = peeksize := by omega
          rw [if_pos (.inr hEnough)]
          refine ⟨tail, _, by rw [hReached], List.suffix_cons _ _, ?_, ?_⟩
          · rw [hEmpty, List.append_nil, overwrite_toList, hReached]
          · intro hFull
            have hNil : tail.map Segment.fragment = [] := by
              refine eq_nil_of_joinFirst_eq_nil ?_ hEmpty
              intro fragment hFragment
              obtain ⟨other, hOther, rfl⟩ := List.mem_map.mp hFragment
              exact hFull other (by simp [hOther])
            rw [hNil]
            rfl
        · rw [if_neg (not_or.mpr ⟨hLast, hEnough⟩)]
          obtain ⟨rest, final, hLoop, hSuffix, hFinal, hRest⟩ :=
            ih hTail (overwrite buffer offset seg.data hWrite) hSize
          refine ⟨rest, final, hLoop, hSuffix.trans (List.suffix_cons _ _), ?_, ?_⟩
          · rw [hFinal, hTake, hDrop, List.append_assoc (List.take _ _)]
          · exact fun hFull => hRest fun other hOther => hFull other (by simp [hOther])

section Recv

variable {receiver : Receiver} {n : Nat} (buffer : Vector UInt8 n) (rcvWnd : UInt32)

/-- `recv` refuses a queue that `peek_size` refuses. -/
theorem recv_of_error {error : Error} (hPeek : receiver.peekSize = .error error) :
    receiver.recv buffer rcvWnd = .ok (receiver, buffer, .error error) := by
  rw [recv, hPeek]

theorem recv_of_lt {size : Nat} (hPeek : receiver.peekSize = .ok size) (hSmall : n < size) :
    receiver.recv buffer rcvWnd = .ok (receiver, buffer, .error .bufferTooSmall) := by
  rw [recv, hPeek]
  exact if_pos hSmall

/-- Otherwise it copies as much as `peek_size` has counted, and its assertion holds. -/
theorem recv_of_le (hQueued : ∀ seg ∈ receiver.rcvQueue, seg.Complete) {size : Nat}
    (hPeek : receiver.peekSize = .ok size) (hFits : size ≤ n) :
    ∃ rest final recovered, copyLoop size receiver.rcvQueue buffer 0 = .ok (rest, final, size) ∧
      receiver.recv buffer rcvWnd =
        .ok ({ receiver with rcvQueue := rest }.moveReceiveBufferToQueue,
        final, .ok ⟨size, recovered⟩) ∧
      rest <:+ receiver.rcvQueue ∧
      final.toList = (joinFirst (receiver.rcvQueue.map Segment.fragment)).1 ++
        buffer.toList.drop size ∧
      ((∀ seg ∈ receiver.rcvQueue, seg.data ≠ []) →
        rest.map Segment.fragment = (joinFirst (receiver.rcvQueue.map Segment.fragment)).2) := by
  obtain ⟨rest, final, hLoop, hSuffix, hFinal, hRest⟩ := copyLoop_spec hFits hQueued buffer
    ((Nat.zero_add _).trans (peekSize_ok hQueued hPeek).symm)
  rw [recv, hPeek]
  dsimp only
  rw [if_neg (Nat.not_lt.mpr hFits), hLoop, ok_bind]
  dsimp only
  rw [assert_of_true rfl, ok_bind, pure_eq_ok]
  exact ⟨rest, final, _, rfl, rfl, hSuffix, hFinal, hRest⟩

/-- What `recv` can do: refuse and change nothing, or return the first message
of the queue. It never leaves its buffer and never meets its assertion. -/
theorem recv_cases (hQueued : ∀ seg ∈ receiver.rcvQueue, seg.Complete) :
    (∃ error, receiver.recv buffer rcvWnd = .ok (receiver, buffer, .error error) ∧
      (receiver.Ready → n < (joinFirst (receiver.rcvQueue.map Segment.fragment)).1.length)) ∨
    receiver.Ready ∧ ∃ rest final recovered,
      receiver.recv buffer rcvWnd =
        .ok ({ receiver with rcvQueue := rest }.moveReceiveBufferToQueue, final,
          .ok ⟨(joinFirst (receiver.rcvQueue.map Segment.fragment)).1.length, recovered⟩) ∧
      rest <:+ receiver.rcvQueue ∧
      final.toList = (joinFirst (receiver.rcvQueue.map Segment.fragment)).1 ++
        buffer.toList.drop (joinFirst (receiver.rcvQueue.map Segment.fragment)).1.length ∧
      ((∀ seg ∈ receiver.rcvQueue, seg.data ≠ []) →
        rest.map Segment.fragment = (joinFirst (receiver.rcvQueue.map Segment.fragment)).2) := by
  rcases receiver.peekSize_cases with
    ⟨hReady, peeksize, hPeek⟩ | ⟨hReady, -, hPeek⟩ | ⟨hReady, -, hPeek⟩
  · rw [← peekSize_ok hQueued hPeek]
    rcases Nat.lt_or_ge n peeksize with hSmall | hFits
    · exact .inl ⟨_, recv_of_lt buffer rcvWnd hPeek hSmall, fun _ => hSmall⟩
    · obtain ⟨rest, final, recovered, -, hRecv⟩ := recv_of_le buffer rcvWnd hQueued hPeek hFits
      exact .inr ⟨hReady, rest, final, recovered, hRecv⟩
  · exact .inl ⟨_, recv_of_error buffer rcvWnd hPeek, fun h => absurd h hReady⟩
  · exact .inl ⟨_, recv_of_error buffer rcvWnd hPeek, fun h => absurd h hReady⟩

end Recv

section Stream

variable {receiver : Receiver} {messages : List (List UInt8)}

/-- No segment of a stream of messages is empty. -/
theorem data_ne_nil_of_prefix (hMessages : ∀ message ∈ messages, message ≠ [])
    (hPrefix : receiver.rcvQueue.map Segment.fragment <+: messages.flatMap (fragments mtu)) :
    ∀ seg ∈ receiver.rcvQueue, seg.data ≠ [] := by
  intro seg hSeg
  obtain ⟨message, hMessage, hFragment⟩ :=
    List.mem_flatMap.mp (hPrefix.subset (List.mem_map_of_mem (f := Segment.fragment) hSeg))
  obtain ⟨-, hNeeded⟩ :=
    Sender.estimateSegmentsCount_spec mtu (List.length_pos_iff.mpr (hMessages message hMessage))
  exact payload_ne_nil _ _ _ mtu.maxSegmentSize_pos hNeeded seg.fragment hFragment

/-- A queue that is ready starts with the first message of its stream. -/
theorem joinFirst_of_ready (hMessages : ∀ message ∈ messages, message ≠ [])
    (hPrefix : receiver.rcvQueue.map Segment.fragment <+: messages.flatMap (fragments mtu))
    (hReady : receiver.Ready) :
    ∃ message more, messages = message :: more ∧
      (joinFirst (receiver.rcvQueue.map Segment.fragment)).1 = message ∧
      receiver.rcvQueue.map Segment.fragment =
        fragments mtu message ++ (joinFirst (receiver.rcvQueue.map Segment.fragment)).2 := by
  obtain ⟨first, hFirst, hLength⟩ := hReady
  have hHead : (receiver.rcvQueue.map Segment.fragment).head? = some first.fragment := by
    rw [List.head?_map, hFirst]
    rfl
  have hCount : ∀ message ∈ messages,
      0 < Sender.estimateSegmentsCount mtu message.length ∧
      message.length ≤ Sender.estimateSegmentsCount mtu message.length * mtu.maxSegmentSize := by
    intro message hMessage
    exact ⟨Sender.estimateSegmentsCount_pos mtu _, (Sender.estimateSegmentsCount_spec mtu
      (List.length_pos_iff.mpr (hMessages message hMessage))).1⟩
  exact joinFirst_of_prefix hCount hPrefix hHead (by rwa [List.length_map])

end Stream

end Receiver
end Imkcpp
