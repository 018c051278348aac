import Imkcpp.ReferenceFlush
import Imkcpp.ReferenceInput
import Imkcpp.ReferenceSender

/-! The library in the place of the reference implementation. A caller that stays where both
count and compare alike makes the same calls on both, and cannot tell them apart by any
answer or datagram, except for the byte order of the headers. -/
namespace Imkcpp

open Transition WrappingClock

variable {mtu : Mtu} {host : Host}

/-- What a function of the reference implementation returns, writes to the buffer of the
caller and gives to `output`. -/
structure IkcpReply where
  code : Int := 0
  bytes : List UInt8 := []
  datagrams : List (List UInt8) := []
  deriving DecidableEq

namespace Ikcpcb

/-- The call that makes a setting, or the assignment where there is no such call. -/
def configure (kcp : Ikcpcb) : Setting → Ikcpcb
  | .interval value => kcp.setNodelay (-1) value.toInt32 (-1) (-1)
  | .nodelay value => kcp.setNodelay value.toInt32 (-1) (-1) (-1)
  | .fastresend value => kcp.setNodelay (-1) (-1) (ikcpFastresend value) (-1)
  | .fastlimit value => { kcp with fastlimit := ikcpFastlimit value }
  | .sendWindow value => kcp.wndsize value.toInt32 0
  | .receiveWindow value => kcp.wndsize 0 value.toInt32
  | .congestionWindowEnabled value => kcp.setNodelay (-1) (-1) (-1) (if value then 0 else 1)
  | .deadlink value => { kcp with deadLink := value }

/-- The counterpart of a call. A datagram arrives in the byte order of this implementation. -/
def perform (host : Host) (kcp : Ikcpcb) : Call → Ikcpcb × IkcpReply
  | .configure setting => (kcp.configure setting, {})
  | .input data =>
    let (kcp, code) := kcp.input host (recode host data)
    (kcp, { code })
  | @Call.recv len _ =>
    let (kcp, result) := kcp.recv len
    (kcp, match result with
      | .ok bytes => { code := bytes.length, bytes }
      | .error code => { code })
  | .send buffer =>
    let (kcp, code) := kcp.send buffer
    (kcp, { code })
  | .check current => (kcp, { code := (kcp.check current).toNat })
  | .update current =>
    let (kcp, datagrams) := kcp.update host current
    (kcp, { datagrams })
  | .flush =>
    let (kcp, datagrams) := kcp.flush host
    (kcp, { datagrams })

/-- The answers to calls that are made one after the other. -/
def replies (host : Host) : Ikcpcb → List Call → List IkcpReply
  | _, [] => []
  | kcp, call :: rest =>
    let (kcp, reply) := kcp.perform host call
    reply :: kcp.replies host rest

end Ikcpcb

/-- What the reference implementation returns in the place of a response. -/
def Response.toIkcp : Response → IkcpReply
  | .none | .flush _ | .input (.ok _) => {}
  | .input (.error error) | .recv (.error error) | .send (.error error) => { code := error.code }
  | .recv (.ok bytes) => { code := bytes.length, bytes }
  | .send (.ok size) => { code := size }
  | .check next => { code := next.toNat }

def ikcpReply (host : Host) (reply : Response × List (List UInt8)) : IkcpReply :=
  { reply.1.toIkcp with datagrams := reply.2.map (recode host) }

/-- The values of a setting that mean the same in both, once traffic has begun. -/
def Setting.Fits : Setting → Prop
  | .interval value | .nodelay value => value.toNat < 2 ^ 31
  | .fastresend value => value.toNat < 2 ^ 31 - 1
  | .fastlimit value => value.toNat < 2 ^ 31 ∧ value ≠ 1
  | .sendWindow _ | .receiveWindow _ => False
  | .congestionWindowEnabled value => value = false
  | .deadlink _ => True

namespace ImKcpp

/-- The calls to which both answer alike. The numbers of the segments stay in the lower
quarter of the words, and the counters of a segment do not come to their end. -/
def Fits (host : Host) (s : ImKcpp mtu) : Call → Prop
  | .configure setting => setting.Fits
  | .input data => data.length < 2 ^ 31 ∧
      ∀ frame ∈ (scan host s.sharedCtx.conv data).1, frame.Common s.current
  | .recv _ => True
  | .send buffer => buffer ≠ [] ∧ (255 < Sender.estimateSegmentsCount mtu buffer.length ∨
      Sender.estimateSegmentsCount mtu buffer.length < 128 ∧ s.segmentTracker.sndNxt.toNat +
        s.sender.sndQueue.length + Sender.estimateSegmentsCount mtu buffer.length ≤ 2 ^ 30)
  | .check now => now.toNat < 2 ^ 31 ∧
      (∀ seg ∈ s.senderBuffer.sndBuf, seg.metadata.resendts.toNat < 2 ^ 31) ∧
      -10000 < (timeDelta now s.tsFlush).toInt ∧ (timeDelta now s.tsFlush).toInt < 10000
  | .update _ | .flush => ∀ segment ∈ s.senderBuffer.sndBuf, segment.Young s.sender.nodelay

/-- Every call is one of these in the state in which it is made. -/
def FitsRun (host : Host) : ImKcpp mtu → List Call → Prop
  | _, [] => True
  | s, call :: rest => s.Fits host call ∧ match s.perform host call with
    | .ok outcome => outcome.state.FitsRun host rest
    | .error _ => True

instance : DecidablePred Setting.Fits
  | .interval _ | .nodelay _ | .fastresend _ => inferInstanceAs (Decidable (_ < _))
  | .fastlimit _ => inferInstanceAs (Decidable (_ ∧ _))
  | .sendWindow _ | .receiveWindow _ => inferInstanceAs (Decidable False)
  | .congestionWindowEnabled _ => inferInstanceAs (Decidable (_ = _))
  | .deadlink _ => inferInstanceAs (Decidable True)

instance (host : Host) (s : ImKcpp mtu) : DecidablePred (s.Fits host)
  | .configure setting => inferInstanceAs (Decidable setting.Fits)
  | .input _ | .send _ | .check _ => inferInstanceAs (Decidable (_ ∧ _))
  | .recv _ => inferInstanceAs (Decidable True)
  | .update _ | .flush =>
    inferInstanceAs (Decidable (∀ segment ∈ s.senderBuffer.sndBuf, segment.Young s.sender.nodelay))

/-- Whether a session stays within these calls can be found out by running it. -/
def decidableFitsRun (host : Host) : (s : ImKcpp mtu) → (calls : List Call) →
    Decidable (s.FitsRun host calls)
  | _, [] => inferInstanceAs (Decidable True)
  | s, call :: rest =>
    match hPerform : s.perform host call with
    | .ok outcome =>
      have := decidableFitsRun host outcome.state rest
      decidable_of_iff (s.Fits host call ∧
        outcome.state.FitsRun host rest) (by rw [FitsRun, hPerform])
    | .error _ => decidable_of_iff (s.Fits host call) (by rw [FitsRun, hPerform, and_true])

instance (host : Host) (s : ImKcpp mtu) : DecidablePred (s.FitsRun host) := decidableFitsRun host s

section Configure

variable {s : ImKcpp mtu} {w : UInt32}

/-- A setting keeps the endpoint comparable. -/
theorem Comparable.configured (h : s.Comparable w) {setting : Setting} (hFits : setting.Fits) :
    s.configure setting = .ok (s.configured setting) ∧ (s.configured setting).Comparable w := by
  cases setting with
  | interval value =>
      refine ⟨rfl, { h with invariant := { h.invariant with }, ranged := ?_, interval_eq := rfl }⟩
      exact { h.ranged with interval_le := (clamp_interval value).2 }
  | nodelay value =>
      refine ⟨rfl, { h with invariant := { h.invariant with }, ranged := ?_ }⟩
      refine { h.ranged with minrto_eq := ?_ }
      change (if value > 0 then _ else _) = _ ∨ (if value > 0 then _ else _) = _
      split_ifs
      · exact .inl rfl
      · exact .inr rfl
  | fastresend value =>
      exact ⟨rfl, { h with invariant := { h.invariant with }, fastresend_lt := hFits }⟩
  | fastlimit value =>
      exact ⟨rfl, { h with
        invariant := { h.invariant with }, fastlimit_lt := hFits.1, fastlimit_ne := hFits.2 }⟩
  | sendWindow value => cases hFits
  | receiveWindow value => cases hFits
  | congestionWindowEnabled value =>
      exact ⟨rfl, { h with invariant := { h.invariant with }, unrestrained := hFits }⟩
  | deadlink value => exact ⟨rfl, { h with invariant := { h.invariant with } }⟩

theorem toInt32_nonneg {value : UInt32} (h : value.toNat < 2 ^ 31) : value.toInt32 ≥ 0 := by
  rw [ge_iff_le, Int32.le_iff_toInt_le, toInt_of_half h, Int32.toInt_zero]
  exact Int.natCast_nonneg _

theorem toInt32_pos {value : UInt32} (hPositive : 0 < value) (h : value.toNat < 2 ^ 31) :
    value.toInt32 > 0 := by
  rw [UInt32.lt_iff_toNat_lt, UInt32.toNat_zero] at hPositive
  rw [gt_iff_lt, Int32.lt_iff_toInt_lt, toInt_of_half h, Int32.toInt_zero]
  omega

/-- Both keep the interval between the same bounds. -/
theorem interval_toIkcpcb {value : UInt32} (h : value.toNat < 2 ^ 31) :
    (if value.toInt32 > 5000 then 5000
      else if value.toInt32 < 10 then 10 else value.toInt32 : Int32).toUInt32 =
      clamp value 10 5000 := by
  have hHigh : value.toInt32 > 5000 ↔ 5000 < value := by
    rw [gt_iff_lt, Int32.lt_iff_toInt_lt, toInt_of_half h, UInt32.lt_iff_toNat_lt]
    exact Int.ofNat_lt
  have hLow : value.toInt32 < 10 ↔ value < 10 := by
    rw [Int32.lt_iff_toInt_lt, toInt_of_half h, UInt32.lt_iff_toNat_lt]
    exact Int.ofNat_lt
  unfold clamp
  by_cases hSmall : value < 10
  · have hBounds : (10 : UInt32) < 5000 := by decide
    have hNotLarge : ¬5000 < value := UInt32.lt_asymm (UInt32.lt_trans hSmall hBounds)
    rw [if_neg (mt hHigh.mp hNotLarge), if_pos (hLow.mpr hSmall), if_pos hSmall]
    rfl
  · rw [if_neg hSmall]
    by_cases hLarge : 5000 < value
    · rw [if_pos (hHigh.mpr hLarge), if_pos hLarge]
      rfl
    · rw [if_neg (mt hHigh.mp hLarge), if_neg (mt hLow.mp hSmall), if_neg hLarge,
        UInt32.toUInt32_toInt32]

theorem configure_toIkcpcb {setting : Setting} (hFits : setting.Fits) (aside : Aside) :
    (s.toIkcpcb aside).configure setting = (s.configured setting).toIkcpcb aside := by
  have hUnchanged : ¬(-1 : Int32) ≥ 0 := by decide
  cases setting with
  | interval value =>
      have hNonneg := toInt32_nonneg hFits
      have hInterval := interval_toIkcpcb hFits
      unfold Ikcpcb.configure Ikcpcb.setNodelay
      simp only [if_neg hUnchanged, if_pos hNonneg]
      rw [hInterval]
      rfl
  | nodelay value =>
      have hNonneg := toInt32_nonneg hFits
      unfold Ikcpcb.configure Ikcpcb.setNodelay
      have hMinrto : (if value.toInt32 ≠ 0 then (30 : Int32) else 100) =
          (if value > 0 then Constants.ikcpRtoNdl else Constants.ikcpRtoMin).toInt32 := by
        have hZero : value.toInt32 ≠ 0 ↔ value > 0 := by
          rw [ne_eq, ← Int32.toInt_inj, toInt_of_half hFits, Int32.toInt_zero, gt_iff_lt,
            UInt32.lt_iff_toNat_lt, UInt32.toNat_zero]
          omega
        by_cases hOff : value > 0
        · rw [if_pos (hZero.mpr hOff), if_pos hOff]
          rfl
        · rw [if_neg (mt hZero.mp hOff), if_neg hOff]
          rfl
      simp only [if_neg hUnchanged, if_pos hNonneg]
      rw [hMinrto, UInt32.toUInt32_toInt32]
      rfl
  | fastresend value =>
      have hNonneg : ikcpFastresend value ≥ 0 := by
        have hOne : (1 : UInt32).toNat = 1 := rfl
        have hFits : value.toNat < 2 ^ 31 - 1 := hFits
        unfold ikcpFastresend
        split_ifs
        · decide
        · exact toInt32_nonneg (by rw [UInt32.toNat_add]; omega)
      unfold Ikcpcb.configure Ikcpcb.setNodelay
      simp only [if_neg hUnchanged, if_pos hNonneg]
      rfl
  | fastlimit value => rfl
  | sendWindow value => cases hFits
  | receiveWindow value => cases hFits
  | congestionWindowEnabled value =>
      obtain rfl : value = false := hFits
      rfl
  | deadlink value => rfl

end Configure

section Step

variable {s : ImKcpp mtu} {w : UInt32}

theorem Comparable.recv (h : s.Comparable w) {n : ℕ} {buffer : Vector UInt8 n}
    {outcome : Outcome mtu} (hOutcome : s.perform host (.recv buffer) = .ok outcome) :
    outcome.state.Comparable w ∧ outcome.state.congestionController = s.congestionController := by
  have hEffect := h.invariant.effect hOutcome
  have hInvariant := hEffect.invariant h.invariant
  have hWindowed := hEffect.windowed h.invariant h.windowed nofun
  cases hEffect with
  | recvRefused => exact ⟨h, rfl⟩
  | recv buffer rest prober hReady hSuffix =>
      exact ⟨{ h with
        invariant := hInvariant
        windowed := hWindowed
        modest := (h.modest.dequeue hSuffix).move }, rfl⟩
  | idle call start hStart => cases hStart
  | flush call start next packets result askSend askTell hStart => cases hStart

/-- What is queued takes a number each. -/
theorem Comparable.send (h : s.Comparable w) {buffer : List UInt8}
    (hFits : s.Fits host (.send buffer)) {outcome : Outcome mtu}
    (hOutcome : s.perform host (.send buffer) = .ok outcome) :
    outcome.state.Comparable w ∧ outcome.state.congestionController = s.congestionController := by
  have hEffect := h.invariant.effect hOutcome
  have hInvariant := hEffect.invariant h.invariant
  have hWindowed := hEffect.windowed h.invariant h.windowed nofun
  cases hEffect with
  | sendRefused => exact ⟨h, rfl⟩
  | send buffer finish hBuffer hCount =>
      refine ⟨{ h with invariant := hInvariant, windowed := hWindowed, numbered := ?_ }, rfl⟩
      have hLength : (fragments mtu buffer).length =
          Sender.estimateSegmentsCount mtu buffer.length :=
        Fragmentation.split_length _ _ _
      dsimp only
      rw [List.length_append, List.length_map, hLength]
      rcases hFits.2 with hMany | ⟨-, hNumbers⟩
      · omega
      · omega
  | idle call start hStart => cases hStart
  | flush call start next packets result askSend askTell hStart => cases hStart

theorem WindowsAgree.configured {setting : Setting} (hFits : setting.Fits) {aside : Aside}
    (h : s.WindowsAgree aside) : (s.configured setting).WindowsAgree aside := by
  cases setting with
  | sendWindow value => cases hFits
  | receiveWindow value => cases hFits
  | _ => exact h

/-- One call on both. -/
theorem perform_toIkcpcb (hMtu : mtu.maxSegmentSize < 2 ^ 32) (h : s.Comparable w) {aside : Aside}
    (hAside : s.WindowsAgree aside) {call : Call} (hFits : s.Fits host call) :
    ∃ outcome rest, s.perform host call = .ok outcome ∧ outcome.state.Comparable w ∧
      outcome.state.WindowsAgree rest ∧ (s.toIkcpcb aside).perform host call =
        (outcome.state.toIkcpcb rest, ikcpReply host (outcome.response, outcome.datagrams)) := by
  cases call with
  | configure setting =>
      obtain ⟨hSetting, hComparable⟩ := h.configured hFits
      refine ⟨{ state := s.configured setting }, aside, ?_, hComparable,
        hAside.configured hFits, ?_⟩
      · rw [perform, hSetting, ok_bind]
        exact pure_eq_ok _
      · rw [Ikcpcb.perform, configure_toIkcpcb hFits]
        rfl
  | input data =>
      obtain ⟨next, result, rest, hInput, hComparable, hAgree, hReference⟩ :=
        input_toIkcpcb hFits.1 h hFits.2 hAside
      refine ⟨{ state := next, response := .input result }, rest, ?_, hComparable, hAgree, ?_⟩
      · rw [perform, hInput, ok_bind]
        exact pure_eq_ok _
      · rw [Ikcpcb.perform, hReference]
        cases result <;> rfl
  | @recv n buffer =>
      obtain ⟨next, written, result, hRecv, hReference⟩ :=
        recv_toIkcpcb h.invariant.receiver h.windowed
        (UInt32.le_iff_toNat_le.mpr h.large) h.modest.queued aside buffer
      have hOutcome : s.perform host (.recv buffer) = .ok {
          state := next
          response := .recv (result.map fun size => written.toList.take size) } := by
        rw [perform, hRecv, ok_bind]
        exact pure_eq_ok _
      obtain ⟨hComparable, hController⟩ := h.recv hOutcome
      refine ⟨_, aside, hOutcome, hComparable, ?_, ?_⟩
      · unfold WindowsAgree at hAside ⊢
        rwa [hController]
      · rw [Ikcpcb.perform, hReference]
        cases result <;> rfl
  | send buffer =>
      have hCount : Sender.estimateSegmentsCount mtu buffer.length < 128 ∨
          255 < Sender.estimateSegmentsCount mtu buffer.length := by
        rcases hFits.2 with hMany | ⟨hFew, -⟩
        · exact .inr hMany
        · exact .inl hFew
      have hWindow : 128 ≤ s.congestionController.rcvWnd :=
        UInt32.le_iff_toNat_le.mpr (h.toNat_rcvWnd ▸ h.large)
      obtain ⟨next, result, hSend, hReference⟩ := send_toIkcpcb hMtu hWindow hFits.1 hCount aside
      have hOutcome : s.perform host (.send buffer) =
          .ok { state := next, response := .send result } := by
        rw [perform, hSend, ok_bind]
        exact pure_eq_ok _
      obtain ⟨hComparable, hController⟩ := h.send hFits hOutcome
      refine ⟨_, aside, hOutcome, hComparable, ?_, ?_⟩
      · unfold WindowsAgree at hAside ⊢
        rwa [hController]
      · rw [Ikcpcb.perform, hReference]
        cases result <;> rfl
  | check now =>
      obtain ⟨hNow, hHalf, hLow, hHigh⟩ := hFits
      have hCheck := check_toIkcpcb hNow hHalf hLow hHigh aside
      refine ⟨{ state := s, response := .check ((s.toIkcpcb aside).check now) }, aside,
        ?_, h, hAside, rfl⟩
      rw [perform, hCheck]
  | update now =>
      obtain ⟨next, datagrams, result, after, hUpdate, hComparable, hAgree, hReference⟩ :=
        update_toIkcpcb h hAside hFits now
      refine ⟨{ state := next, response := .flush result, datagrams }, after, ?_,
        hComparable, hAgree, ?_⟩
      · rw [perform, hUpdate, ok_bind]
        exact pure_eq_ok _
      · rw [Ikcpcb.perform, hReference]
        rfl
  | flush =>
      cases hUpdated : s.updated with
      | true =>
          obtain ⟨next, datagrams, result, after, hFlush, hComparable, hAgree, hReference⟩ :=
            flush_toIkcpcb h hUpdated hAside hFits
          refine ⟨_, after, perform_flush hFlush, hComparable, hAgree, ?_⟩
          rw [Ikcpcb.perform, hReference]
          rfl
      | false =>
          have hIdle : (s.toIkcpcb aside).flush host = (s.toIkcpcb aside, []) :=
            if_pos ((s.updated_toIkcpcb aside).mpr hUpdated)
          refine ⟨_, aside, perform_flush (flush_idle host hUpdated), h, hAside, ?_⟩
          rw [Ikcpcb.perform, hIdle]
          rfl

end Step

section Run

variable {s : ImKcpp mtu} {w : UInt32}

/-- A run on both. -/
theorem run_toIkcpcb (hMtu : mtu.maxSegmentSize < 2 ^ 32) {calls : List Call} (party : Party mtu)
    (h : party.endpoint.Comparable w) {aside : Aside} (hAside : party.endpoint.WindowsAgree aside)
    (hFits : party.endpoint.FitsRun host calls) :
    ∃ final, party.run host calls = .ok final ∧ final.replies.map (ikcpReply host) =
      party.replies.map (ikcpReply host) ++ (party.endpoint.toIkcpcb aside).replies host calls := by
  induction calls generalizing party aside with
  | nil => exact ⟨party, rfl, (List.append_nil _).symm⟩
  | cons call rest ih =>
      obtain ⟨hCall, hRest⟩ := hFits
      obtain ⟨outcome, after, hOutcome, hComparable, hAgree, hReference⟩ :=
        perform_toIkcpcb hMtu h hAside hCall
      rw [hOutcome] at hRest
      obtain ⟨final, hRun, hReplies⟩ := ih (party.record call outcome) hComparable hAgree hRest
      refine ⟨final, (Party.run_cons hOutcome).trans hRun, ?_⟩
      rw [hReplies, Party.record_replies, List.map_append, List.append_assoc, Ikcpcb.replies,
        hReference]
      rfl

end Run

end ImKcpp

/-- What the caller sets on both before any traffic. The congestion window is switched off,
and the send window is not larger than what the reference implementation takes the remote
window for. -/
structure Setup where
  conv : UInt32
  interval : UInt32
  fastlimit : UInt32
  sendWindow : UInt32
  receiveWindow : UInt32

namespace Setup

structure Sound (setup : Setup) : Prop where
  interval_lt : setup.interval.toNat < 2 ^ 31
  fastlimit_lt : setup.fastlimit.toNat < 2 ^ 31
  fastlimit_ne : setup.fastlimit ≠ 1
  sendWindow_pos : 0 < setup.sendWindow
  sendWindow_le : setup.sendWindow ≤ 128
  receiveWindow_ge : 128 ≤ setup.receiveWindow.toNat
  receiveWindow_lt : setup.receiveWindow.toNat < 2 ^ 16

def settings (setup : Setup) : List Setting :=
  [.congestionWindowEnabled false, .interval setup.interval, .fastlimit setup.fastlimit,
    .sendWindow setup.sendWindow, .receiveWindow setup.receiveWindow]

def calls (setup : Setup) : List Call := setup.settings.map Call.configure

/-- The endpoint behind these calls. -/
def endpoint (mtu : Mtu) (setup : Setup) : ImKcpp mtu :=
  setup.settings.foldl ImKcpp.configured (.create mtu setup.conv)

end Setup

section Settings

/-- Settings answer nothing. -/
theorem Ikcpcb.replies_settings (kcp : Ikcpcb) (settings : List Setting) (calls : List Call) :
    kcp.replies host (settings.map Call.configure ++ calls) =
      (settings.map fun _ => ({} : IkcpReply)) ++
        (settings.foldl Ikcpcb.configure kcp).replies host calls := by
  induction settings generalizing kcp with
  | nil => rfl
  | cons setting rest ih =>
      rw [List.map_cons, List.cons_append, Ikcpcb.replies, List.foldl_cons, List.map_cons,
        List.cons_append, ← ih]
      rfl

theorem Party.run_settings (host : Host) {settings : List Setting}
    (hSend : .sendWindow 0 ∉ settings) (hReceive : .receiveWindow 0 ∉ settings)
    (party : Party mtu) :
    ∃ next, party.run host (settings.map Call.configure) = .ok next ∧
      next.endpoint = settings.foldl ImKcpp.configured party.endpoint ∧
      next.replies = party.replies ++ settings.map fun _ => (.none, []) := by
  induction settings generalizing party with
  | nil => exact ⟨party, rfl, rfl, (List.append_nil _).symm⟩
  | cons setting rest ih =>
      rw [List.mem_cons, not_or] at hSend hReceive
      have hSetting : party.endpoint.configure setting =
          .ok (party.endpoint.configured setting) := by
        rcases party.endpoint.configure_cases setting with
          ⟨_, _, _, _, _, _, _, _, hSet⟩ | ⟨hZero, -⟩
        · rw [hSet, ImKcpp.eq_configured hSet]
        · rcases hZero with rfl | rfl
          · exact absurd rfl hSend.1
          · exact absurd rfl hReceive.1
      have hOutcome : party.endpoint.perform host (.configure setting) =
          .ok { state := party.endpoint.configured setting } := by
        rw [ImKcpp.perform, hSetting, ok_bind]
        exact pure_eq_ok _
      obtain ⟨next, hRun, hEndpoint, hReplies⟩ := ih hSend.2 hReceive.2
        (party.record (.configure setting) { state := party.endpoint.configured setting })
      refine ⟨next, (Party.run_cons hOutcome).trans hRun, hEndpoint, ?_⟩
      rw [hReplies, Party.record_replies, List.append_assoc]
      rfl

end Settings

namespace Setup

variable {setup : Setup}

theorem Sound.receiveWindow_pos (h : setup.Sound) : 0 < setup.receiveWindow :=
  UInt32.lt_iff_toNat_lt.mpr (Nat.lt_of_lt_of_le (by decide) h.receiveWindow_ge)

theorem Sound.comparable (h : setup.Sound) :
    (setup.endpoint mtu).Comparable setup.receiveWindow := by
  have hCreate := ImKcpp.invariant_create mtu setup.conv
  have hDefault : (128 : UInt32).toNat = 128 := rfl
  have hSend := UInt32.le_iff_toNat_le.mp h.sendWindow_le
  exact {
    invariant := { hCreate with receiver := { hCreate.receiver with } }
    windowed := ⟨h.receiveWindow_pos, rfl, rfl, Nat.zero_le _, nofun⟩
    large := h.receiveWindow_ge
    small := h.receiveWindow_lt
    modest := ⟨nofun, nofun, Nat.zero_le _⟩
    numbered := Nat.zero_le _
    ranged := { RtoCalculator.Ranged.init with
      interval_le := (ImKcpp.clamp_interval setup.interval).2 }
    steady := .inl rfl
    interval_eq := rfl
    rmtWnd_lt := hSend.trans_lt (by decide)
    unrestrained := rfl
    fastresend_lt := show (0 : UInt32).toNat < 2 ^ 31 - 1 by decide
    fastlimit_lt := h.fastlimit_lt
    fastlimit_ne := h.fastlimit_ne }

theorem Sound.windowsAgree (h : setup.Sound) :
    (setup.endpoint mtu).WindowsAgree { rmtWnd := 128, ssthresh := 2, cwnd := 0, incr := 0 } :=
  .inr ⟨rfl, rfl, h.sendWindow_pos, h.sendWindow_le⟩

/-- Both are set up alike. -/
theorem Sound.setup_toIkcpcb (h : setup.Sound) (hMtu : 50 ≤ mtu.bytes) :
    setup.settings.foldl Ikcpcb.configure ((Ikcpcb.create setup.conv).setmtu mtu.bytes).1 =
      (setup.endpoint mtu).toIkcpcb { rmtWnd := 128, ssthresh := 2, cwnd := 0, incr := 0 } := by
  have hUnchanged : ¬(-1 : Int32) ≥ 0 := by decide
  have hNone : ¬(0 : Int32) > 0 := by decide
  have hSmall := UInt32.le_iff_toNat_le.mp h.sendWindow_le
  have hInterval := ImKcpp.interval_toIkcpcb h.interval_lt
  have hPositive := ImKcpp.toInt32_nonneg h.interval_lt
  have hSend := ImKcpp.toInt32_pos h.sendWindow_pos (hSmall.trans_lt (by decide))
  have hReceive := ImKcpp.toInt32_pos h.receiveWindow_pos (h.receiveWindow_lt.trans (by decide))
  have hMtu : ¬(mtu.bytes < 50 ∨ mtu.bytes < 24) := by omega
  unfold Setup.settings Setup.endpoint Ikcpcb.setmtu
  rw [if_neg hMtu]
  simp only [List.foldl_cons, List.foldl_nil, Ikcpcb.configure, Ikcpcb.setNodelay, Ikcpcb.wndsize,
    if_neg hUnchanged, if_neg hNone, if_pos hSend, if_pos hReceive, if_pos hPositive,
    UInt32.toUInt32_toInt32]
  rw [hInterval]
  rfl

end Setup

namespace Setup

def example50 : Setup :=
  { conv := 7, interval := 10, fastlimit := 5, sendWindow := 32, receiveWindow := 128 }

def session50 : List Call :=
  [.update 0, .send [1, 2, 3], .update 100, .update 150,
    .input (wire Host.x8664 [
      ⟨{ conv := 7, cmd := Commands.ack, frg := 0, wnd := 100, ts := 100, sn := 0, una := 0,
         len := 0 }, []⟩,
      ⟨{ conv := 7, cmd := Commands.push, frg := 0, wnd := 100, ts := 120, sn := 0, una := 1,
         len := 2 }, [8, 9]⟩]),
    .recv (Vector.replicate 8 0), .check 151, .flush]

end Setup

end Imkcpp
