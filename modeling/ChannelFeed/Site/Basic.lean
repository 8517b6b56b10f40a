import ChannelFeed.Bus
import ChannelFeed.Clock
import ChannelFeed.Wait

namespace ChannelFeed

/-- On which bus an edge publishes. -/
inductive Home where
  | shared
  | managed
  | own (bus : Bus)

/-- An edge in its place. -/
structure Cell where
  edge : Edge
  home : Home

/-- Whether an edge is held from outside of the manager. -/
def Cell.held (c : Cell) : Bool := c.edge.panel.attended

structure Turn where
  place : Nat
  worker : Worker
  deriving DecidableEq, Repr

/-- All edges of one program, on one clock: those of a manager and those that stand alone. A worker
that gets something to do joins a queue, and each works until it has to wait before the next one
begins. -/
structure Site where
  now : Nat
  /-- What distinguishes the names of its edges' requests from those of others. -/
  source : Nat
  cells : List Cell
  /-- Whose turn it is, one after another. -/
  queue : List Turn
  /-- Who has set a timer, the first first. -/
  timers : List Turn
  /-- The places of the managed edges by their names. -/
  members : SortedMap String Nat
  shared : Bus
  manager : Bus
  notes : Array Note

namespace Site

/-- A site whose manager's bus has a given capacity. -/
def ofCapacity? (capacity source : Nat) : Option Site :=
  (Bus.ofCapacity? capacity).map (fun manager =>
    ⟨0, source, [], [], [], .empty, .standard, manager, #[]⟩)

def edge? (s : Site) (place : Nat) : Option Edge := (s.cells[place]?).map Cell.edge

def held? (s : Site) (place : Nat) : Option Edge :=
  match s.cells[place]? with
  | some c => if c.held then some c.edge else none
  | none => none

def isManaged (s : Site) (place : Nat) : Bool :=
  s.members.entries.any (fun entry => entry.2 == place)

def modifyCell (s : Site) (place : Nat) (f : Cell → Cell) : Site :=
  { s with cells := s.cells.modify place f }

/-- Publishes an event on the bus of an edge. -/
def publishAt (s : Site) (place : Nat) (event : Event) : Site :=
  match (s.cells[place]?).map Cell.home with
  | some .shared => { s with shared := s.shared.publish event }
  | some .managed => { s with manager := s.manager.publish event }
  | some (.own bus) => s.modifyCell place (fun c => { c with home := .own (bus.publish event) })
  | none => s

/-- Writes notes of an edge into the log and publishes their events. -/
def log (s : Site) (place : Nat) (notes : List Note) : Site :=
  (publishedEvents notes).foldl (fun s event => s.publishAt place event)
    { s with notes := s.notes ++ notes }

/-- The workers of an edge that have something to do join the queue. -/
def lineUp (s : Site) (place : Nat) : Site :=
  match s.edge? place with
  | none => s
  | some e =>
    let ready := (Worker.all.filter e.isReady).map (Turn.mk place)
    { s with queue := s.queue ++ ready.filter (fun t => !s.queue.contains t) }

/-- Changes an edge, with what it notes on the way and the work that it makes. -/
def changeEdge (s : Site) (place : Nat) (f : Edge → Edge) : Site :=
  match s.edge? place with
  | none => s
  | some e =>
    let e := (f e).collect
    let s := s.modifyCell place (fun c => { c with edge := { e with notes := [] } })
    (s.log place e.notes).lineUp place

def places (s : Site) : List Nat := List.range s.cells.length

def due? (s : Site) (t : Turn) : Option Nat := (s.edge? t.place).bind (fun e => e.timer? t.worker)

/-- A worker takes its turn; a timer that it leaves running is the last one set. -/
def takeTurn (s : Site) (t : Turn) : Site :=
  let s := s.changeEdge t.place (fun e => e.work t.worker)
  let others := s.timers.filter (fun t' => t' != t)
  { s with timers := if (s.due? t).isSome then others ++ [t] else others }

/-- How many turns there can be at one instant. -/
def restBound (s : Site) : Nat := s.cells.foldr (fun c n => c.edge.workBound + n) 0

/-- Turns are taken until nobody has anything to do. -/
def settle (s : Site) : Site := go s.restBound s
where
  go : Nat → Site → Site
    | 0, s => s
    | n + 1, s =>
      match s.queue with
      | [] => s
      | t :: rest => go n ({ s with queue := rest }.takeTurn t)

def timer? (s : Site) : Option Nat := (s.timers.filterMap s.due?).min?

def isDue (s : Site) (t : Turn) : Bool :=
  match s.due? t with
  | some due => due ≤ s.now
  | none => false

/-- The clock reaches a later time: those whose timers are due take their turns in the order in which
the timers were set. -/
def wake (s : Site) (now : Nat) : Site :=
  let cells := s.cells.map (fun c => { c with edge := c.edge.atTime now })
  let s := { s with now, cells }
  { s with queue := s.queue ++ s.timers.filter s.isDue }.settle

def timed : Timed Site := ⟨timer?, fun now s => s.wake now⟩

def advance (s : Site) (ms : Nat) : Site := timed.pass s.now ms s

def place (s : Site) (c : Config) (connector : Connector) (home : Home) :
    Except Fault (Site × Nat) :=
  let place := s.cells.length
  match Edge.start c connector (s.source + place) s.now with
  | .ok e =>
    let cells := s.cells ++ [⟨{ e with notes := [] }, home⟩]
    .ok ({ s with cells, notes := s.notes ++ e.notes }.lineUp place, place)
  | .error fault => .error fault

/-- An edge of its own that publishes on the shared bus. -/
def openShared (s : Site) (c : Config) (connector : Connector) : Except Fault (Site × Nat) :=
  s.place c connector .shared

/-- An edge with a bus of its own that connects the way its configuration says. -/
def openOwn (s : Site) (c : Config) : Except Fault (Site × Nat) :=
  match Edge.connectorFor c with
  | .ok connector => s.place c connector (.own .standard)
  | .error fault => .error (.transport fault)

def enlist (s : Site) (edge : String) (place : Nat) : Site :=
  { s with members := s.members.insert edge place }.log place
    [.edgeAdded edge, .published (.added edge)]

/-- Adds an edge to the manager, unless it has one of that name. -/
def add (s : Site) (c : Config) (connector : Connector) : Except Fault (Site × Nat) :=
  if s.members.contains c.edge then .error (.edgeExists c.edge)
  else
    match s.place c connector .managed with
    | .ok (s, place) => .ok (s.enlist c.edge place, place)
    | .error fault => .error fault

/-- Adds an edge that connects the way its configuration says. -/
def addConfigured (s : Site) (c : Config) : Except Fault (Site × Nat) :=
  if s.members.contains c.edge then .error (.edgeExists c.edge)
  else
    match Edge.connectorFor c with
    | .ok connector => s.add c connector
    | .error fault => .error (.transport fault)

/-- An edge that nobody holds any more is done with. -/
def disposeUnheld (s : Site) (place : Nat) : Site :=
  match s.cells[place]? with
  | some c => if c.held || s.isManaged place then s else s.changeEdge place Edge.dispose
  | none => s

/-- Shuts a managed edge down and takes it from the manager. -/
def remove (s : Site) (edge : String) : Except Fault Site :=
  match s.members.get? edge with
  | none => .error (.edgeNotFound edge)
  | some place =>
    let s := { s with members := s.members.erase edge }.changeEdge place Edge.shutdown
    .ok ((s.log place [.edgeRemoved edge, .published (.removed edge)]).disposeUnheld place)

/-- Shuts all managed edges down and takes them from the manager. -/
def shutdownAll (s : Site) : Site :=
  s.members.entries.foldl (fun s (edge, place) =>
    let s := s.changeEdge place Edge.shutdown
    (s.log place [.published (.removed edge)]).disposeUnheld place) { s with members := .empty }

def edgeIds (s : Site) : List String := s.members.keys

/-- Whoever holds an edge from outside lets go of it. -/
def letGo (s : Site) (place : Nat) : Site :=
  (s.changeEdge place Edge.letGo).disposeUnheld place

def resume (s : Site) (place : Nat) (w : Wait) : Wait :=
  match s.edge? place with
  | some e => w.resume e
  | none => w

/-- A site in time with someone who waits for one of its edges. -/
def timedWait (place : Nat) : Timed (Site × Wait) where
  timer? sw := sw.1.timer?
  wake now sw :=
    let s := sw.1.wake now
    (s, s.resume place sw.2)

/-- Waits for an edge to be connected, at most for a time. What happens at the end of that time comes
too late. -/
def waitConnected (s : Site) (place ms : Nat) : Site × Except Fault Unit :=
  match (s.edge? place).map Wait.look with
  | none => (s, .error .notConnected)
  | some (.decided connected) => (s, (Wait.decided connected).answer ms)
  | some w =>
    let target := s.now + ms
    let ((s, w'), reached) :=
      (timedWait place).runUntil (fun sw => sw.2.isDecided) s.now target (s, w)
    (s, (if reached < target then w' else w).answer ms)

def readLinks (s : Site) (place : Nat) : Site × List (Nat × Request) × List Nat :=
  match s.edge? place with
  | none => (s, [], [])
  | some e =>
    let (session, requests, gone) := e.session.readLinks
    (s.changeEdge place (fun e => { e with session }), requests, gone)

/-- A listener on the bus of an edge, narrowed to a name. -/
def listenTo (s : Site) (place : Nat) (edge : String) : Site × Stream :=
  match (s.cells[place]?).map Cell.home with
  | some (.own bus) =>
    let (bus, stream) := bus.listen (some edge)
    (s.modifyCell place (fun c => { c with home := .own bus }), stream)
  | some .managed =>
    let (manager, stream) := s.manager.listen (some edge)
    ({ s with manager }, stream)
  | _ =>
    let (shared, stream) := s.shared.listen (some edge)
    ({ s with shared }, stream)

def busOf? (s : Site) (place : Nat) : Option Bus :=
  match (s.cells[place]?).map Cell.home with
  | some .shared => some s.shared
  | some .managed => some s.manager
  | some (.own bus) => some bus
  | none => none

end Site

end ChannelFeed
