import Imkcpp.Library.WrappingClock
import Mathlib.Data.List.Basic

/-! The fixed-width integers, error codes, result records and constants that
every component of the library shares. `size_t` values are object sizes and
offsets into objects, so they are natural numbers here; counters and protocol
fields keep the width the source gives them. -/
namespace Imkcpp

/-- Components whose `assert`s the model keeps apart. -/
inductive Component where
  | serializer
  | segment
  | flusher
  | receiver
  | segmentTracker
  | windowProber
  | sender
  | imkcpp
  deriving DecidableEq, Repr

/-- Ways in which the C++ program leaves its defined behaviour. A call that
meets one of these has no result: the run does not continue past it. -/
inductive Fault where
  | outOfSpan
  | sizeUnderflow
  | assertion (component : Component)
  | endlessLoop
  deriving DecidableEq, Repr

@[simp] theorem ok_bind {ε α β : Type} (value : α) (next : α → Except ε β) :
    (Except.ok value >>= next) = next value := rfl

@[simp] theorem error_bind {ε α β : Type} (fault : ε) (next : α → Except ε β) :
    ((Except.error fault : Except ε α) >>= next) = .error fault := rfl

@[simp] theorem pure_eq_ok {ε α : Type} (value : α) : (pure value : Except ε α) = .ok value := rfl

/-- A sequence of two computations succeeds when both do. -/
theorem bind_eq_ok {ε α β : Type} {value : Except ε α} {next : α → Except ε β} {result : β} :
    (value >>= next) = .ok result ↔ ∃ produced, value = .ok produced ∧
      next produced = .ok result := by
  cases value with
  | error fault => simp
  | ok produced => simp

theorem map_eq_ok {ε α β : Type} {value : Except ε α} {f : α → β} {result : β} :
    value.map f = .ok result ↔ ∃ produced, value = .ok produced ∧ f produced = result := by
  cases value with
  | error fault => simp [Except.map]
  | ok produced => simp [Except.map]

/-- `assert(p)` inside one of the components. -/
def assert (component : Component) (p : Prop) [Decidable p] : Except Fault Unit :=
  if p then .ok () else .error (.assertion component)

@[simp] theorem assert_of_true {component : Component} {p : Prop} [Decidable p] (h : p) :
    assert component p = .ok () := if_pos h

@[simp] theorem assert_of_false {component : Component} {p : Prop} [Decidable p] (h : ¬p) :
    assert component p = .error (.assertion component) := if_neg h

/-- An assertion that is passed holds. -/
theorem of_assert {component : Component} {p : Prop} [Decidable p]
    (h : assert component p = .ok ()) :
    p := by
  by_contra hNot
  rw [assert_of_false hNot] at h
  cases h

/-- `a - b` on `size_t` values. Wrapping below zero is never meant in this
library, so the model reports it instead of computing with the wrapped value. -/
def sizeSub (a b : Nat) : Except Fault Nat :=
  if b ≤ a then .ok (a - b) else .error .sizeUnderflow

@[simp] theorem sizeSub_of_le {a b : Nat} (h : b ≤ a) : sizeSub a b = .ok (a - b) := if_pos h

/-- `enum class error` -/
inductive Error where
  | none
  | peekError
  | bufferTooSmall
  | queueEmpty
  | waitingForFragment
  | tooManyFragments
  | lessThanHeaderSize
  | convMismatch
  | headerAndPayloadLengthMismatch
  | unknownCommand
  | exceedsWindowSize
  deriving DecidableEq, Repr

/-- `enum class State` -/
inductive State where
  | alive
  | deadLink
  deriving DecidableEq, Repr

/-- `time_delta`: the difference of two clock values, read as a signed number. -/
def timeDelta (later earlier : UInt32) : Int32 := (later - earlier).toInt32

theorem timeDelta_eq_difference : timeDelta = WrappingClock.difference := rfl

/-- `std::clamp` -/
def clamp (value low high : UInt32) : UInt32 :=
  if value < low then low else if high < value then high else value

theorem toNat_max (a b : UInt32) : (max a b).toNat = max a.toNat b.toNat := by
  have hMax : max a b = if a ≤ b then b else a := rfl
  rw [hMax]
  split_ifs with hLe
  · exact (Nat.max_eq_right (UInt32.le_iff_toNat_le.mp hLe)).symm
  · exact (Nat.max_eq_left (Nat.le_of_lt (UInt32.lt_iff_toNat_lt.mp (UInt32.not_le.mp hLe)))).symm

theorem toNat_min (a b : UInt32) : (min a b).toNat = min a.toNat b.toNat := by
  have hMin : min a b = if a ≤ b then a else b := rfl
  rw [hMin]
  split_ifs with hLe
  · exact (Nat.min_eq_left (UInt32.le_iff_toNat_le.mp hLe)).symm
  · exact (Nat.min_eq_right (Nat.le_of_lt (UInt32.lt_iff_toNat_lt.mp (UInt32.not_le.mp hLe)))).symm

theorem toNat_clamp {low high : UInt32} (h : low ≤ high) (value : UInt32) :
    (clamp value low high).toNat = max low.toNat (min high.toNat value.toNat) := by
  rw [UInt32.le_iff_toNat_le] at h
  unfold clamp
  simp only [UInt32.lt_iff_toNat_lt]
  split_ifs <;> omega

namespace Constants

def ikcpRtoNdl : UInt32 := 30
def ikcpRtoMin : UInt32 := 100
def ikcpRtoDef : UInt32 := 200
def ikcpRtoMax : UInt32 := 60000
def ikcpWndSnd : UInt32 := 32
def ikcpWndRcv : UInt32 := 128
def ikcpInterval : UInt32 := 100
def ikcpDeadlink : UInt32 := 20
def ikcpThreshInit : UInt32 := 2
def ikcpThreshMin : UInt32 := 2
def ikcpFastackLimit : UInt32 := 5

end Constants

namespace Commands

def push : UInt8 := 81
def ack : UInt8 := 82
def wask : UInt8 := 83
def wins : UInt8 := 84

def isValid (cmd : UInt8) : Bool :=
  cmd == push || cmd == ack || cmd == wask || cmd == wins

theorem isValid_iff (cmd : UInt8) :
    isValid cmd = true ↔ cmd = push ∨ cmd = ack ∨ cmd = wask ∨ cmd = wins := by
  simp [isValid, or_assoc]

end Commands

/-- `InputResult`, the counters that `input()` returns. -/
structure InputResult where
  cmdAckCount : UInt32 := 0
  cmdWaskCount : UInt32 := 0
  cmdWinsCount : UInt32 := 0
  cmdPushCount : UInt32 := 0
  droppedPushCount : UInt32 := 0
  totalBytesReceived : Nat := 0
  deriving DecidableEq, Repr

/-- `InputResult::operator+` -/
def InputResult.add (a b : InputResult) : InputResult where
  cmdAckCount := a.cmdAckCount + b.cmdAckCount
  cmdWaskCount := a.cmdWaskCount + b.cmdWaskCount
  cmdWinsCount := a.cmdWinsCount + b.cmdWinsCount
  cmdPushCount := a.cmdPushCount + b.cmdPushCount
  droppedPushCount := a.droppedPushCount + b.droppedPushCount
  totalBytesReceived := a.totalBytesReceived + b.totalBytesReceived

/-- `FlushResult`, the counters that `flush()` and `update()` return. -/
structure FlushResult where
  cmdAckCount : UInt32 := 0
  cmdWaskCount : UInt32 := 0
  cmdWinsCount : UInt32 := 0
  cmdPushCount : UInt32 := 0
  timeoutRetransmittedCount : UInt32 := 0
  fastRetransmittedCount : UInt32 := 0
  totalBytesSent : Nat := 0
  deriving DecidableEq, Repr

/-- `ReceiveResult` -/
structure ReceiveResult where
  size : Nat
  recovered : Bool
  deriving DecidableEq, Repr

/-- A maximum transmission unit that the `static_assert`s of the templates
accept: at least one payload byte fits behind a 24-byte segment header. -/
structure Mtu where
  bytes : Nat
  exceeds_header : 24 < bytes

/-- The least MTU that the templates accept. -/
def Mtu.least : Mtu := ⟨25, by decide⟩

/-- `MTU_TO_MSS` -/
def Mtu.maxSegmentSize (mtu : Mtu) : Nat := mtu.bytes - 24

theorem Mtu.maxSegmentSize_pos (mtu : Mtu) : 0 < mtu.maxSegmentSize :=
  Nat.sub_pos_of_lt mtu.exceeds_header

theorem Mtu.maxSegmentSize_add (mtu : Mtu) : mtu.maxSegmentSize + 24 = mtu.bytes :=
  Nat.sub_add_cancel (Nat.le_of_lt mtu.exceeds_header)

end Imkcpp
