import ChannelFeed.Fault
import ChannelFeed.Session.Pipe

namespace ChannelFeed

inductive PairEnd where
  | first
  | second
  deriving DecidableEq, Repr

structure Pair where
  fromFirst : Pipe String
  fromSecond : Pipe String
  deriving DecidableEq

namespace Pair

def ofBuffer? (buffer : Nat) : Option Pair :=
  (Pipe.ofCapacity? buffer).map (fun empty => ⟨empty, empty⟩)

def send (p : Pair) (e : PairEnd) (text : String) : Pair × Except TransportFault Bool :=
  let (p, sent) : Pair × Sent := match e with
    | .first => let (q, sent) := p.fromFirst.send text; ({ p with fromFirst := q }, sent)
    | .second => let (q, sent) := p.fromSecond.send text; ({ p with fromSecond := q }, sent)
  (p, match sent with
    | .ok => .ok true
    | .full => .ok false
    | .closed => .error (.channelClosed "connection outbound"))

def receive (p : Pair) : PairEnd → Pair × Arrival String
  | .first => let (q, arrival) := p.fromSecond.receive; ({ p with fromSecond := q }, arrival)
  | .second => let (q, arrival) := p.fromFirst.receive; ({ p with fromFirst := q }, arrival)

def drop (p : Pair) : PairEnd → Pair
  | .first => ⟨p.fromFirst.closeSender, p.fromSecond.closeReceiver⟩
  | .second => ⟨p.fromFirst.closeReceiver, p.fromSecond.closeSender⟩

end Pair

end ChannelFeed
