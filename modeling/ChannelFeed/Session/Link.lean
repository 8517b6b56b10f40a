import ChannelFeed.Session.Pipe
import ChannelFeed.Wire.Request

namespace ChannelFeed

structure Link where
  toDevice : Pipe Request
  toClient : Pipe String
  held : Bool
  /-- Whether the device has found the client gone. -/
  hungUp : Bool
  deriving DecidableEq, Inhabited

namespace Link

/-- A new connection, if there can be queues of that size. -/
def ofBuffer? (buffer : Nat) (held : Bool) : Option Link :=
  match Pipe.ofCapacity? buffer, Pipe.ofCapacity? buffer with
  | some toDevice, some toClient => some ⟨toDevice, toClient, held, false⟩
  | _, _ => none

/-- The client lets go of both halves. -/
def dropClient (l : Link) : Link :=
  { l with toDevice := l.toDevice.closeSender, toClient := l.toClient.closeReceiver }

def closeDeviceSender (l : Link) : Link := { l with toClient := l.toClient.closeSender }

def closeDeviceReceiver (l : Link) : Link := { l with toDevice := l.toDevice.closeReceiver }

def deviceSend (l : Link) (text : String) : Link × Sent :=
  let (toClient, sent) := l.toClient.send text
  ({ l with toClient }, sent)

/-- The device reads what has arrived and sees whether its client is newly gone. -/
def deviceRead (l : Link) : Link × List Request × Bool :=
  if l.held || !l.toDevice.receiverOpen then (l, [], false)
  else
    let (toDevice, requests) := l.toDevice.takeAll
    let gone := !toDevice.senderOpen && !l.hungUp
    ({ l with toDevice, hungUp := l.hungUp || gone }, requests, gone)

end Link

end ChannelFeed
