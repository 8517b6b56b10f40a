import ChannelFeed.Session.Basic

namespace ChannelFeed

inductive DeviceStep where
  | accept (buffer : Nat) (held : Bool)
  | refuse (fault : TransportFault)
  | send (link : Nat) (texts : List String)
  | close (link : Nat)
  | closeSender (link : Nat)
  | closeReceiver (link : Nat)
  | unhold (link : Nat)
  deriving DecidableEq, Repr

inductive DeviceReply where
  | nothing
  | link (link : Nat)
  | sent (results : List Sent)
  | impossible
  deriving DecidableEq, Repr

namespace Session

def changeLink? (s : Session) (link : Nat) (f : Link → Link) : Option (Session × DeviceReply) :=
  if link < s.links.length then some (s.modifyLink link f, .nothing) else none

/-- A step of the device; none if it is about something that is not there. -/
def device? (s : Session) : DeviceStep → Option (Session × DeviceReply)
  | .accept buffer held =>
    match s.accept? buffer held with
    | some (s, link) => some (s, .link link)
    | none => some (s, .impossible)
  | .refuse fault => some (s.refuse fault, .nothing)
  | .send link texts =>
    if link < s.links.length then
      let (s, results) := s.deviceSend link texts
      some (s, .sent results)
    else none
  | .close link => s.changeLink? link (fun l => l.closeDeviceSender.closeDeviceReceiver)
  | .closeSender link => s.changeLink? link Link.closeDeviceSender
  | .closeReceiver link => s.changeLink? link Link.closeDeviceReceiver
  | .unhold link => s.changeLink? link (fun l => { l with held := false })

end Session

end ChannelFeed
