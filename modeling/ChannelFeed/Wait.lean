import ChannelFeed.Edge

namespace ChannelFeed

/-- How far a wait has come. Whoever waits looks at the edge's state once at the beginning and then
only when the state has changed. -/
inductive Wait where
  /-- Nothing is decided up to some change of the state. -/
  | pending (seen : Nat)
  | decided (connected : Bool)
  deriving DecidableEq, Repr

namespace Wait

/-- Whether an edge is connected or will not be. -/
def decides (e : Edge) : Bool :=
  e.session.state.isConnected || e.session.state.isFailed || e.session.stopped

def look (e : Edge) : Wait :=
  if decides e then decided e.session.state.isConnected
  else pending e.session.watchedState.changes

def resume (w : Wait) (e : Edge) : Wait :=
  match w with
  | pending seen => if e.session.watchedState.unseen seen then look e else w
  | decided _ => w

def isDecided : Wait → Bool
  | pending _ => false
  | decided _ => true

/-- What a wait answers that was given up after so many milliseconds unless it was decided before. -/
def answer (w : Wait) (ms : Nat) : Except Fault Unit :=
  match w with
  | decided true => .ok ()
  | decided false => .error .notConnected
  | pending _ => .error (.transport (.timeout ms))

end Wait

end ChannelFeed
