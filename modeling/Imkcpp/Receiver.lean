import Imkcpp.SenderBuffer

/-! The receiving half: `rcv_buf` keeps segments that arrived ahead of their
turn, `rcv_queue` those that wait for `recv`. -/
namespace Imkcpp

open OrderedList

structure Receiver where
  rcvBuf : List Segment := []
  rcvQueue : List Segment := []
  queueLimit : UInt32 := 0
  rcvNxt : UInt32 := 0
  deriving DecidableEq

namespace Receiver

/-- The loop of `Receiver::peek_size`. -/
def peekLoop : List Segment → Nat → Nat
  | [], length => length
  | seg :: rest, length =>
    if seg.header.frg = 0 then length + seg.dataSize else peekLoop rest (length + seg.dataSize)

/-- `Receiver::peek_size` -/
def peekSize (receiver : Receiver) : Except Error Nat :=
  match receiver.rcvQueue with
  | [] => .error .queueEmpty
  | front :: _ =>
    if front.header.frg = 0 then .ok front.dataSize
    else if receiver.rcvQueue.length < front.header.frg.toNat + 1 then .error .waitingForFragment
    else .ok (peekLoop receiver.rcvQueue 0)

/-- The loop of `Receiver::move_receive_buffer_to_queue`. -/
def moveLoop (queueLimit : UInt32) :
    List Segment → List Segment → UInt32 → List Segment × List Segment × UInt32
  | [], rcvQueue, rcvNxt => ([], rcvQueue, rcvNxt)
  | seg :: rest, rcvQueue, rcvNxt =>
    if seg.header.sn ≠ rcvNxt ∨ rcvQueue.length ≥ queueLimit.toNat then
      (seg :: rest, rcvQueue, rcvNxt)
    else moveLoop queueLimit rest (rcvQueue ++ [seg]) (rcvNxt + 1)

/-- `Receiver::move_receive_buffer_to_queue` -/
def moveReceiveBufferToQueue (receiver : Receiver) : Receiver :=
  let moved := moveLoop receiver.queueLimit receiver.rcvBuf receiver.rcvQueue receiver.rcvNxt
  { receiver with rcvBuf := moved.1, rcvQueue := moved.2.1, rcvNxt := moved.2.2 }

/-- The loop of `Receiver::recv` that copies payloads out and erases segments. -/
def copyLoop (peeksize : Nat) {n : Nat} :
    List Segment → Vector UInt8 n → Nat → Except Fault (List Segment × Vector UInt8 n × Nat)
  | [], buffer, offset => .ok ([], buffer, offset)
  | segment :: rest, buffer, offset => do
    let room ← sizeSub n offset
    let (buffer, offset) ← SegmentData.encodeTo segment.data buffer offset
        (min segment.dataSize room)
    if segment.header.frg = 0 then return (rest, buffer, offset)
    else if offset ≥ peeksize then return (rest, buffer, offset)
    else copyLoop peeksize rest buffer offset

/-- `Receiver::recv`. The buffer is returned as `recv` leaves it. -/
def recv (receiver : Receiver) {n : Nat} (buffer : Vector UInt8 n) (rcvWnd : UInt32) :
    Except Fault (Receiver × Vector UInt8 n × Except Error ReceiveResult) :=
  match receiver.peekSize with
  | .error error => .ok (receiver, buffer, .error error)
  | .ok peeksize =>
    if peeksize > n then .ok (receiver, buffer, .error .bufferTooSmall)
    else do
      let isFull := decide (receiver.rcvQueue.length ≥ rcvWnd.toNat)
      let (rcvQueue, buffer, offset) ← copyLoop peeksize receiver.rcvQueue buffer 0
      assert .receiver (offset = peeksize)
      let receiver := { receiver with rcvQueue }.moveReceiveBufferToQueue
      let recovered := decide (rcvWnd.toNat > receiver.rcvQueue.length) && isFull
      return (receiver, buffer, .ok { size := offset, recovered })

/-- `Receiver::emplace_segment`. The reverse search stops at the last segment
with a smaller number; the segment behind it, if any, may be the same one. -/
def emplaceSegment (receiver : Receiver) (header : SegmentHeader) (data : List UInt8) : Receiver :=
  let front := receiver.rcvBuf.rdropWhile (fun seg => !decide (seg.header.sn < header.sn))
  let back := receiver.rcvBuf.rtakeWhile (fun seg => !decide (seg.header.sn < header.sn))
  if back.head?.map (fun seg => seg.header.sn) = some header.sn then receiver
  else
    { receiver with
      rcvBuf := front ++ ({ header, data } : Segment) :: back }.moveReceiveBufferToQueue

/-- `Receiver::should_receive` -/
def shouldReceive (receiver : Receiver) (sn : UInt32) : Bool := decide (sn ≥ receiver.rcvNxt)

/-- `Receiver::set_queue_limit` -/
def setQueueLimit (receiver : Receiver) (value : UInt32) : Receiver :=
  { receiver with queueLimit := value }

end Receiver
end Imkcpp
