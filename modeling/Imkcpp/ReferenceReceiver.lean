import Imkcpp.ReferenceState
import Imkcpp.WindowAnnouncement

/-! Reading and storing data in both implementations. The reference implementation
compares numbers by signed differences and looks for a repeated segment from the other
side of it; on numbers of the lower half and on a receiver that has nothing to move this
comes to the same. -/
namespace Imkcpp

open Fragmentation OrderedList WrappingClock

variable {mtu : Mtu}

theorem peekLoop_toIkcp (segs : List Segment) (length : ℕ) :
    Ikcpcb.peekLoop (segs.map Segment.toIkcp) length = (Receiver.peekLoop segs length : ℕ) := by
  induction segs generalizing length with
  | nil => rfl
  | cons seg rest ih =>
      have hFrg : seg.toIkcp.frg = 0 ↔ seg.header.frg = 0 := toUInt32_eq_zero_iff _
      have hRest := ih (length + seg.dataSize)
      rw [Nat.cast_add] at hRest
      unfold Receiver.peekLoop
      rw [List.map_cons, Ikcpcb.peekLoop]
      by_cases hLast : seg.header.frg = 0
      · rw [if_pos (hFrg.mpr hLast), if_pos hLast, Nat.cast_add]
        rfl
      · rw [if_neg (mt hFrg.mp hLast), if_neg hLast]
        exact hRest

/-- The queue behind the first message is what the copying loop leaves of it. -/
theorem mergeLoop_toIkcp {segs : List Segment} (hComplete : ∀ seg ∈ segs, seg.Complete)
    (written : List UInt8) :
    ∃ rest, Ikcpcb.mergeLoop (segs.map Segment.toIkcp) written =
        (written ++ (joinFirst (segs.map Segment.fragment)).1, rest.map Segment.toIkcp) ∧
      rest <:+ segs ∧ rest.map Segment.fragment = (joinFirst (segs.map Segment.fragment)).2 := by
  induction segs generalizing written with
  | nil => exact ⟨[], by simp [Ikcpcb.mergeLoop, joinFirst], List.suffix_rfl, rfl⟩
  | cons seg tail ih =>
      have hTail : ∀ other ∈ tail, other.Complete :=
        fun other hOther => hComplete other (by simp [hOther])
      have hFrg : seg.toIkcp.frg = 0 ↔ seg.header.frg = 0 := toUInt32_eq_zero_iff _
      have hWhole : seg.toIkcp.data.take seg.toIkcp.len.toNat = seg.data :=
        List.take_of_length_le (hComplete seg (by simp)).ge
      rw [List.map_cons, Ikcpcb.mergeLoop, hWhole]
      by_cases hLast : seg.header.frg = 0
      · rw [if_pos (hFrg.mpr hLast)]
        refine ⟨tail, ?_, List.suffix_cons _ _, ?_⟩
        · simp [joinFirst, Segment.fragment, hLast]
        · simp [joinFirst, Segment.fragment, hLast]
      · have hMore : seg.header.frg.toNat ≠ 0 := fun hZero => hLast (UInt8.toNat_inj.mp hZero)
        obtain ⟨rest, hMerge, hSuffix, hRest⟩ := ih hTail (written ++ seg.data)
        rw [if_neg (mt hFrg.mp hLast), hMerge]
        refine ⟨rest, ?_, hSuffix.trans (List.suffix_cons _ _), ?_⟩
        · simp [joinFirst, Segment.fragment, hMore]
        · simp [joinFirst, Segment.fragment, hMore, hRest]

/-- A queue below the limit has as many segments as the counter says. -/
theorem moveLoop_toIkcp {limit : UInt32} (rcvBuf : List Segment) {rcvQueue : List Segment}
    (hQueue : rcvQueue.length ≤ limit.toNat) (rcvNxt : UInt32) :
    Ikcpcb.moveLoop limit (rcvBuf.map Segment.toIkcp) (rcvQueue.map Segment.toIkcp) rcvNxt =
      let moved := Receiver.moveLoop limit rcvBuf rcvQueue rcvNxt
      (moved.1.map Segment.toIkcp, moved.2.1.map Segment.toIkcp, moved.2.2) := by
  induction rcvBuf generalizing rcvQueue rcvNxt with
  | nil => rfl
  | cons seg rest ih =>
      have hRoom : UInt32.ofNat (rcvQueue.map Segment.toIkcp).length < limit ↔
          rcvQueue.length < limit.toNat := by
        have hLimit := limit.toNat_lt
        rw [UInt32.lt_iff_toNat_lt, UInt32.toNat_ofNat', List.length_map]
        omega
      rw [List.map_cons, Ikcpcb.moveLoop, Receiver.moveLoop]
      by_cases hStop : seg.header.sn ≠ rcvNxt ∨ rcvQueue.length ≥ limit.toNat
      · rw [if_pos hStop, if_neg]
        · rfl
        · rintro ⟨hNext, hFits⟩
          exact hStop.elim (fun hOther => hOther hNext) (Nat.not_le.mpr (hRoom.mp hFits))
      · obtain ⟨hNext, hFits⟩ := not_or.mp hStop
        have hFits : rcvQueue.length < limit.toNat := Nat.lt_of_not_le hFits
        rw [if_neg hStop, if_pos ⟨not_not.mp hNext, hRoom.mpr hFits⟩, ← ih]
        · rw [List.map_append]
          rfl
        · rw [List.length_append, List.length_singleton]
          exact hFits

/-- A receiver that has nothing to move stays as it is. -/
theorem Receiver.Settled.move_eq {receiver : Receiver} (h : receiver.Settled) :
    receiver.moveReceiveBufferToQueue = receiver := by
  have hStay : moveLoop receiver.queueLimit receiver.rcvBuf receiver.rcvQueue receiver.rcvNxt =
      (receiver.rcvBuf, receiver.rcvQueue, receiver.rcvNxt) := by
    cases hBuffer : receiver.rcvBuf with
    | nil => rfl
    | cons first rest =>
        refine if_pos ?_
        by_cases hNext : first.header.sn = receiver.rcvNxt
        · exact .inr (h first (by simp [hBuffer]) hNext)
        · exact .inl hNext
  rw [moveReceiveBufferToQueue, hStay]

namespace ImKcpp

variable {s : ImKcpp mtu} {w : UInt32}

theorem moveReceived_toIkcpcb (hLimit : s.receiver.queueLimit = s.congestionController.rcvWnd)
    (hQueue : s.receiver.rcvQueue.length ≤ s.receiver.queueLimit.toNat) (aside : Aside) :
    (s.toIkcpcb aside).moveReceived =
      ({ s with receiver := s.receiver.moveReceiveBufferToQueue } : ImKcpp mtu).toIkcpcb aside := by
  have hLoop := moveLoop_toIkcp s.receiver.rcvBuf hQueue s.receiver.rcvNxt
  rw [hLimit] at hLoop
  have hMoved : Ikcpcb.moveLoop (s.toIkcpcb aside).rcvWnd (s.toIkcpcb aside).rcvBuf
      (s.toIkcpcb aside).rcvQueue
      (s.toIkcpcb aside).rcvNxt = _ := hLoop
  unfold Ikcpcb.moveReceived Receiver.moveReceiveBufferToQueue
  dsimp only
  rw [hMoved, hLimit]
  rfl

theorem toNat_nrcvQue (hQueue : s.receiver.rcvQueue.length < 2 ^ 32) (aside : Aside) :
    (s.toIkcpcb aside).nrcvQue.toNat = s.receiver.rcvQueue.length := by
  have hLength : (s.toIkcpcb aside).rcvQueue.length = s.receiver.rcvQueue.length :=
    List.length_map _
  rw [Ikcpcb.nrcvQue, hLength]
  exact UInt32.toNat_ofNat_of_lt' hQueue

theorem peeksize_toIkcpcb (hQueue : s.receiver.rcvQueue.length < 2 ^ 32) (aside : Aside) :
    (s.toIkcpcb aside).peeksize =
      match s.receiver.peekSize with
      | .ok size => (size : ℤ)
      | .error _ => -1 := by
  have hCount := toNat_nrcvQue hQueue aside
  have hMapped : (s.toIkcpcb aside).rcvQueue = s.receiver.rcvQueue.map Segment.toIkcp := rfl
  unfold Ikcpcb.peeksize Receiver.peekSize
  rw [hMapped]
  cases hSegs : s.receiver.rcvQueue with
  | nil => rfl
  | cons front rest =>
      have hFrg : front.toIkcp.frg = 0 ↔ front.header.frg = 0 := toUInt32_eq_zero_iff _
      have hShort : (s.toIkcpcb aside).nrcvQue < front.toIkcp.frg + 1 ↔
          (front :: rest).length < front.header.frg.toNat + 1 := by
        have hByte := front.header.frg.toNat_lt
        have hSame : front.toIkcp.frg.toNat = front.header.frg.toNat := rfl
        rw [hSegs] at hCount
        rw [UInt32.lt_iff_toNat_lt, hCount, UInt32.toNat_add, hSame, UInt32.toNat_one,
          Nat.mod_eq_of_lt (by omega)]
      rw [List.map_cons]
      dsimp only
      by_cases hLast : front.header.frg = 0
      · rw [if_pos (hFrg.mpr hLast), if_pos hLast]
        rfl
      · rw [if_neg (mt hFrg.mp hLast), if_neg hLast]
        by_cases hMissing : (front :: rest).length < front.header.frg.toNat + 1
        · rw [if_pos (hShort.mpr hMissing), if_pos hMissing]
        · rw [if_neg (mt hShort.mp hMissing), if_neg hMissing, ← List.map_cons]
          exact peekLoop_toIkcp (front :: rest) 0

/-- Both return the same bytes or refuse for the same reason, and keep the same segments. -/
theorem recv_toIkcpcb (hReceiver : ReceiverInvariant s.receiver) (hWindowed : s.Windowed w)
    (hLarge : 128 ≤ w) (hFilled : ∀ seg ∈ s.receiver.rcvQueue, seg.data ≠ []) (aside : Aside)
    {n : ℕ} (buffer : Vector UInt8 n) :
    ∃ next written result, s.recv buffer = .ok (next, written, result) ∧
      (s.toIkcpcb aside).recv n = (next.toIkcpcb aside,
        (result.map fun size => written.toList.take size).mapError Error.code) := by
  have hLimit : s.receiver.queueLimit = s.congestionController.rcvWnd := by
    rw [hWindowed.queueLimit_eq, hWindowed.rcvWnd_eq, ← UInt32.toNat_inj, toNat_max]
    exact (Nat.max_eq_left (UInt32.le_iff_toNat_le.mp hLarge)).symm
  have hBound : s.receiver.rcvQueue.length < 2 ^ 32 :=
    hWindowed.queued_le.trans_lt s.receiver.queueLimit.toNat_lt
  have hPeeksize := peeksize_toIkcpcb hBound aside
  have hMapped : (s.toIkcpcb aside).rcvQueue = s.receiver.rcvQueue.map Segment.toIkcp := rfl
  unfold Ikcpcb.recv
  rw [hPeeksize, hMapped]
  rcases s.receiver.peekSize_cases with ⟨-, size, hPeek⟩ | ⟨-, hEmpty, hPeek⟩ | ⟨-, hSome, hPeek⟩
  · have hSome : s.receiver.rcvQueue ≠ [] := by
      intro hEmpty
      rw [Receiver.peekSize, hEmpty] at hPeek
      cases hPeek
    rw [if_neg (by simpa using hSome), hPeek]
    dsimp only
    rw [if_neg (by omega)]
    rcases Nat.lt_or_ge n size with hSmall | hFits
    · refine ⟨s, buffer, .error .bufferTooSmall, ?_, if_pos (by omega)⟩
      rw [ImKcpp.recv, Receiver.recv_of_lt buffer _ hPeek hSmall]
      rfl
    · obtain ⟨rest, final, recovered, -, hRecv, hSuffix, hFinal, hRest⟩ :=
        Receiver.recv_of_le buffer s.congestionController.rcvWnd hReceiver.queued hPeek hFits
      obtain ⟨left, hMerge, hLeft, hBehind⟩ := mergeLoop_toIkcp hReceiver.queued []
      have hSame : left = rest := by
        have hLength := congrArg List.length (hBehind.trans (hRest hFilled).symm)
        rw [List.length_map, List.length_map] at hLength
        exact (List.suffix_of_suffix_length_le hLeft hSuffix hLength.le).eq_of_length hLength
      obtain ⟨moved, hMovedEq⟩ : ∃ moved, moved =
        { s.receiver with rcvQueue := rest }.moveReceiveBufferToQueue :=
        ⟨_, rfl⟩
      have hShorter : rest.length ≤ s.receiver.queueLimit.toNat :=
        hSuffix.length_le.trans hWindowed.queued_le
      have hMoved : ({ s.toIkcpcb aside with rcvQueue := rest.map Segment.toIkcp } :
          Ikcpcb).moveReceived =
          ({ s with receiver := moved } : ImKcpp mtu).toIkcpcb aside := by
        rw [hMovedEq]
        exact moveReceived_toIkcpcb
          (s := { s with receiver := { s.receiver with rcvQueue := rest } }) hLimit
          hShorter aside
      have hMovedCount :
          (({ s with receiver := moved } : ImKcpp mtu).toIkcpcb aside).nrcvQue.toNat =
          moved.rcvQueue.length := by
        refine toNat_nrcvQue (s := { s with receiver := moved }) ?_ aside
        rw [hMovedEq]
        exact (Receiver.move_rcvQueue_length_le hShorter).trans_lt (UInt32.toNat_lt _)
      rw [← hMovedEq] at hRecv
      have hRecovered : recovered = true ↔
          moved.rcvQueue.length < s.congestionController.rcvWnd.toNat ∧
            s.congestionController.rcvWnd.toNat ≤ s.receiver.rcvQueue.length := by
        rcases Receiver.recv_recovered hRecv with ⟨-, error, hError⟩ | ⟨outcome, hOutcome, hIff⟩
        · cases hError
        · obtain rfl := Except.ok.inj hOutcome
          exact hIff
      have hWritten : final.toList.take size =
          (joinFirst (s.receiver.rcvQueue.map Segment.fragment)).1 := by
        rw [hFinal, Receiver.peekSize_ok hReceiver.queued hPeek]
        exact List.take_left
      have hAsk : (({ s with receiver := moved } : ImKcpp mtu).toIkcpcb aside).nrcvQue <
            (({ s with receiver := moved } : ImKcpp mtu).toIkcpcb aside).rcvWnd ∧
          decide ((s.toIkcpcb aside).nrcvQue ≥ (s.toIkcpcb aside).rcvWnd) = true ↔
            recovered = true := by
        rw [hRecovered, decide_eq_true_iff, ge_iff_le, UInt32.lt_iff_toNat_lt,
          UInt32.le_iff_toNat_le, hMovedCount, toNat_nrcvQue hBound]
        rfl
      rw [if_neg (by omega), hMerge, hSame]
      dsimp only
      rw [hMoved, ImKcpp.recv, hRecv, ok_bind]
      dsimp only
      cases recovered with
      | true =>
          rw [if_pos (hAsk.mpr rfl)]
          refine ⟨_, _, _, rfl, ?_⟩
          rw [Except.map, hWritten]
          rfl
      | false =>
          rw [if_neg (mt hAsk.mp Bool.false_ne_true)]
          refine ⟨_, _, _, rfl, ?_⟩
          rw [Except.map, hWritten]
          rfl
  · refine ⟨s, buffer, .error .queueEmpty, ?_, if_pos (by simp [hEmpty])⟩
    rw [ImKcpp.recv, Receiver.recv_of_error buffer _ hPeek]
    rfl
  · refine ⟨s, buffer, .error .waitingForFragment, ?_, ?_⟩
    · rw [ImKcpp.recv, Receiver.recv_of_error buffer _ hPeek]
      rfl
    · rw [if_neg (by simpa using hSome), hPeek]
      exact if_pos (by decide)

section Store

variable {header : SegmentHeader} {data : List UInt8}

/-- The reverse search of the reference implementation, on numbers of the lower half. -/
theorem passed_toIkcp {seg : Segment} (hSn : header.sn.toNat < 2 ^ 31) (hKey : seg.key < 2 ^ 31) :
    (!(seg.toIkcp.sn == header.sn || decide (itimediff header.sn seg.toIkcp.sn > 0))) =
      decide (header.sn.toNat < seg.key) := by
  have hNewer : itimediff header.sn seg.toIkcp.sn > 0 ↔ seg.header.sn < header.sn :=
    difference_pos_iff hSn hKey
  have hSame : seg.toIkcp.sn = header.sn ↔ seg.key = header.sn.toNat := UInt32.toNat_inj.symm
  rw [Bool.eq_iff_iff]
  simp only [Bool.not_eq_true', Bool.or_eq_false_iff, beq_eq_false_iff_ne, ne_eq, hSame, hNewer,
    decide_eq_false_iff_not, decide_eq_true_eq, UInt32.lt_iff_toNat_lt]
  change ¬seg.key = _ ∧ ¬seg.key < _ ↔ _
  omega

/-- An ordered list up to a number ends with that number exactly when it has it. -/
theorem getLast?_filter_le {segs : List Segment} (h : Increasing Segment.key segs) (sn : UInt32) :
    (segs.filter fun seg => decide (seg.key ≤ sn.toNat)).getLast?.map
      (fun seg => seg.header.sn) = some sn ↔
      ∃ seg ∈ segs, seg.header.sn = sn := by
  constructor
  · intro hLast
    obtain ⟨seg, hSeg, hSn⟩ := Option.map_eq_some_iff.mp hLast
    exact ⟨seg, List.mem_of_mem_filter (List.mem_of_getLast? hSeg), hSn⟩
  · rintro ⟨seg, hSeg, rfl⟩
    have hOrdered :=
      h.sublist (List.filter_sublist (p := fun other => decide (other.key ≤ seg.header.sn.toNat)))
    have hMem : seg ∈ segs.filter fun other => decide (other.key ≤ seg.header.sn.toNat) :=
      List.mem_filter.mpr ⟨hSeg, decide_eq_true (le_refl seg.key)⟩
    rcases (segs.filter fun other =>
      decide (other.key ≤ seg.header.sn.toNat)).eq_nil_or_concat' with
      hNil | ⟨init, last, hConcat⟩
    · rw [hNil] at hMem
      cases hMem
    · rw [hConcat] at hMem hOrdered
      have hLe : last.key ≤ seg.key := by
        have hLast : last ∈ segs.filter fun other => decide (other.key ≤ seg.header.sn.toNat) := by
          simp [hConcat]
        exact of_decide_eq_true (List.mem_filter.mp hLast).2
      have hSame : last.header.sn = seg.header.sn := by
        rcases List.mem_append.mp hMem with hInit | hLast
        · exact absurd ((increasing_append.mp hOrdered).2.2 seg hInit last (by simp))
            (Nat.not_lt.mpr hLe)
        · rw [List.mem_singleton.mp hLast]
      rw [hConcat, List.getLast?_concat, Option.map_some, hSame]

/-- Both store a segment of the window in the same place, or find that it is there. -/
theorem parseData_toIkcpcb (data : List UInt8) (hReceiver : ReceiverInvariant s.receiver)
    (hLimit : s.receiver.queueLimit = s.congestionController.rcvWnd)
    (hQueue : s.receiver.rcvQueue.length ≤ s.receiver.queueLimit.toNat)
    (hSettled : s.receiver.Settled) (hBuffered : ∀ seg ∈ s.receiver.rcvBuf, seg.key < 2 ^ 31)
    (hWindow : (s.receiver.rcvNxt + s.congestionController.rcvWnd).toNat < 2 ^ 31)
    (hFits : header.sn < s.receiver.rcvNxt + s.congestionController.rcvWnd)
    (hNew : s.receiver.rcvNxt ≤ header.sn) (aside : Aside) :
    (s.toIkcpcb aside).parseData ({ header, data } : Segment).toIkcp =
      ({ s with
        receiver := s.receiver.emplaceSegment header data } : ImKcpp mtu).toIkcpcb aside := by
  have hSn : header.sn.toNat < 2 ^ 31 := (UInt32.lt_iff_toNat_lt.mp hFits).trans hWindow
  have hNxt : s.receiver.rcvNxt.toNat < 2 ^ 31 := (UInt32.le_iff_toNat_le.mp hNew).trans_lt hSn
  have hAbove : ¬itimediff header.sn (s.receiver.rcvNxt + s.congestionController.rcvWnd) ≥ 0 :=
    mt (difference_nonneg_iff hSn hWindow).mp (UInt32.not_le.mpr hFits)
  have hBelow : ¬itimediff header.sn s.receiver.rcvNxt < 0 :=
    mt (difference_neg_iff hSn hNxt).mp (UInt32.not_lt.mpr hNew)
  have hIncreasing : Increasing
      (fun seg : IkcpSegment => seg.sn.toNat) (s.receiver.rcvBuf.map Segment.toIkcp) :=
    List.pairwise_map.mpr hReceiver.increasing
  obtain ⟨passed, hPassed⟩ : ∃ passed : IkcpSegment → Bool,
      passed = fun seg => !(seg.sn == header.sn || decide (itimediff header.sn seg.sn > 0)) :=
        ⟨_, rfl⟩
  have hTest : ∀ seg ∈ s.receiver.rcvBuf, passed seg.toIkcp =
      decide (header.sn.toNat < seg.key) := by
    intro seg hSeg
    rw [hPassed]
    exact passed_toIkcp hSn (hBuffered seg hSeg)
  have hUp : ∀ a ∈ s.receiver.rcvBuf.map Segment.toIkcp, ∀ b ∈ s.receiver.rcvBuf.map Segment.toIkcp,
      a.sn.toNat < b.sn.toNat → passed a = true → passed b = true := by
    intro a hA b hB hLt hPast
    obtain ⟨first, hFirst, rfl⟩ := List.mem_map.mp hA
    obtain ⟨second, hSecond, rfl⟩ := List.mem_map.mp hB
    rw [hTest first hFirst, decide_eq_true_eq] at hPast
    rw [hTest second hSecond, decide_eq_true_eq]
    exact hPast.trans hLt
  have hFront : (s.receiver.rcvBuf.map Segment.toIkcp).rdropWhile passed =
      (s.receiver.rcvBuf.filter fun seg =>
        decide (seg.key ≤ header.sn.toNat)).map Segment.toIkcp := by
    rw [hIncreasing.rdropWhile_eq_filter_not hUp, List.filter_map]
    refine congrArg _ (List.filter_congr fun seg hSeg => ?_)
    rw [Function.comp_apply, hTest seg hSeg, ← decide_not, decide_eq_decide, Nat.not_lt]
  have hBack : (s.receiver.rcvBuf.map Segment.toIkcp).rtakeWhile passed =
      (s.receiver.rcvBuf.filter fun seg =>
        decide (header.sn.toNat < seg.key)).map Segment.toIkcp := by
    rw [hIncreasing.rtakeWhile_eq_filter_of_up hUp, List.filter_map]
    exact congrArg _ (List.filter_congr hTest)
  have hLast :
      (((s.receiver.rcvBuf.map Segment.toIkcp).rdropWhile passed).getLast?.map fun seg => seg.sn) =
      some header.sn ↔ ∃ seg ∈ s.receiver.rcvBuf, seg.header.sn = header.sn := by
    rw [← getLast?_filter_le hReceiver.increasing header.sn, hFront, List.getLast?_map,
      Option.map_map]
    rfl
  have hParse : (s.toIkcpcb aside).parseData ({ header, data } : Segment).toIkcp =
      if (((s.receiver.rcvBuf.map Segment.toIkcp).rdropWhile passed).getLast?.map
          fun seg => seg.sn) = some header.sn then (s.toIkcpcb aside).moveReceived
      else ({ s.toIkcpcb aside with
        rcvBuf := (s.receiver.rcvBuf.map Segment.toIkcp).rdropWhile passed ++
          ({ header, data } : Segment).toIkcp ::
            (s.receiver.rcvBuf.map Segment.toIkcp).rtakeWhile passed } :
            Ikcpcb).moveReceived := by
    rw [hPassed]
    exact if_neg (not_or.mpr ⟨hAbove, hBelow⟩)
  rw [hParse]
  rcases Receiver.emplaceSegment_cases hReceiver.increasing header data with
    ⟨hThere, hSame⟩ | ⟨hMissing, hInsert⟩
  · rw [if_pos (hLast.mpr hThere), hSame, moveReceived_toIkcpcb hLimit hQueue, hSettled.move_eq]
  · have hNone : ∀ seg ∈ s.receiver.rcvBuf, seg.key ≠ header.sn.toNat :=
      fun seg hSeg hKey => hMissing seg hSeg (UInt32.toNat_inj.mp hKey)
    have hInserted : (s.receiver.rcvBuf.filter fun seg =>
      decide (seg.key ≤ header.sn.toNat)).map Segment.toIkcp ++
        ({ header, data } : Segment).toIkcp ::
          (s.receiver.rcvBuf.filter fun seg =>
            decide (header.sn.toNat < seg.key)).map Segment.toIkcp =
        (insertByKey Segment.key { header, data } s.receiver.rcvBuf).map Segment.toIkcp := by
      rw [insertByKey, List.map_append, List.map_cons]
      congr 2
      · refine List.filter_congr fun seg hSeg => ?_
        exact decide_eq_decide.mpr ⟨fun hLe => lt_of_le_of_ne hLe (hNone seg hSeg), le_of_lt⟩
      · refine congrArg _ (List.filter_congr fun seg hSeg => ?_)
        exact decide_eq_decide.mpr ⟨le_of_lt, fun hLe => lt_of_le_of_ne hLe (hNone seg hSeg).symm⟩
    rw [if_neg (mt hLast.mp (by simpa using hMissing)), hInsert, hFront, hBack, hInserted]
    exact moveReceived_toIkcpcb (s := { s with receiver := { s.receiver with
      rcvBuf := insertByKey Segment.key { header, data } s.receiver.rcvBuf } }) hLimit hQueue aside

theorem inputPush_toIkcpcb (hReceiver : ReceiverInvariant s.receiver)
    (hLimit : s.receiver.queueLimit = s.congestionController.rcvWnd)
    (hQueue : s.receiver.rcvQueue.length ≤ s.receiver.queueLimit.toNat)
    (hSettled : s.receiver.Settled) (hBuffered : ∀ seg ∈ s.receiver.rcvBuf, seg.key < 2 ^ 31)
    (hNxt : s.receiver.rcvNxt.toNat < 2 ^ 31)
    (hWindow : (s.receiver.rcvNxt + s.congestionController.rcvWnd).toNat < 2 ^ 31) {frame : Frame}
    (hSn : frame.header.sn.toNat < 2 ^ 31)
    (hPayload : data.take frame.header.len.toNat = frame.payload) (aside : Aside) :
    (s.toIkcpcb aside).inputPush frame.header.toIkcpSeg data =
      (s.applyPush frame).toIkcpcb aside := by
  have hBelow : itimediff frame.header.sn (s.receiver.rcvNxt + s.congestionController.rcvWnd) < 0 ↔
      s.congestionController.fitsReceiveWindow s.receiver.rcvNxt frame.header.sn = true :=
    (difference_neg_iff hSn hWindow).trans decide_eq_true_iff.symm
  have hAbove : itimediff frame.header.sn s.receiver.rcvNxt ≥ 0 ↔
      s.receiver.shouldReceive frame.header.sn = true :=
    (difference_nonneg_iff hSn hNxt).trans decide_eq_true_iff.symm
  unfold applyPush
  by_cases hFits : s.congestionController.fitsReceiveWindow s.receiver.rcvNxt frame.header.sn = true
  · rw [if_neg (by simp [hFits])]
    dsimp only
    refine (if_pos (hBelow.mpr hFits)).trans ?_
    by_cases hNew : s.receiver.shouldReceive frame.header.sn = true
    · rw [if_pos hNew]
      refine (if_pos (hAbove.mpr hNew)).trans ?_
      have hStored := parseData_toIkcpcb (s := { s with
        ackController :=
          s.ackController.scheduleAck frame.header.sn frame.header.ts }) frame.payload
        hReceiver hLimit hQueue hSettled hBuffered hWindow (of_decide_eq_true hFits)
          (of_decide_eq_true hNew) aside
      rw [← hStored, ← hPayload]
      rfl
    · rw [if_neg hNew]
      exact if_neg (mt hAbove.mp hNew)
  · rw [if_pos (by simp [hFits])]
    exact if_neg (mt hBelow.mp hFits)

end Store

end ImKcpp
end Imkcpp
