import ChannelFeed.Session.Device
import ChannelFeed.Site.Basic

namespace ChannelFeed

/-- Whose bus a listener listens to. -/
inductive Source where
  | manager
  | edge (place : Nat)
  deriving DecidableEq, Repr

/-- A site with listeners on its buses. Steps are taken one at a time, and after each one everything
that can happen at that instant happens before it is looked at. -/
structure Console where
  site : Site
  shared : Stream
  manager : Stream
  streams : List (Source × Stream)
  notes : List Note

namespace Console

inductive EdgeStep where
  | command (command : Command)
  | subscribeDecoded (subscriber : String) (decoder : Charge.Decoder)
  | waitConnected (ms : Nat)
  | check
  | current
  | report
  | shutdown
  | events

inductive Step where
  | openShared (c : Config)
  | openOwn (c : Config)
  | add (c : Config)
  | addConfigured (c : Config)
  | remove (edge : String)
  | edgeIds
  | managed (edge : String)
  | shutdownAll
  | listenerCount
  | listen
  | drain (stream : Nat)
  | advance (ms : Nat)
  | settle
  | dropEdge (place : Nat)
  | guard (place : Nat) (command : Command)
  | edge (place : Nat) (step : EdgeStep)
  | device (place : Nat) (step : DeviceStep)

inductive Answer where
  | nothing
  | flag (b : Bool)
  | number (n : Nat)
  | text (s : String)
  | edgeIds (edges : List String)
  | managed (edge : String) (state : LinkState)
  | events (events : List Event)
  | view (v : View)
  | connected
  | reply (reply : Reply)
  | device (reply : DeviceReply)
  | fault (fault : Fault)
  | gone

structure EdgeSight where
  requests : List (Nat × Request)
  closed : List Nat
  journal : List Delivery

structure Sight where
  answer : Answer
  edges : List EdgeSight
  events : List Event
  managed : List Event

def ofCapacity? (capacity source : Nat) : Option Console :=
  (Site.ofCapacity? capacity source).map (fun site =>
    let (shared, sharedStream) := site.shared.listen none
    let (manager, managerStream) := site.manager.listen none
    ⟨{ site with shared, manager }, sharedStream, managerStream, [], []⟩)

def collect (c : Console) : Console :=
  { c with notes := c.notes ++ c.site.notes.toList, site := { c.site with notes := #[] } }

def change (c : Console) (f : Site → Site) : Console := { c with site := f c.site }.collect

def changeEdge (c : Console) (place : Nat) (f : Edge → Edge) : Console :=
  c.change (fun s => s.changeEdge place f)

/-- Goes on with a site in which an edge got a place. -/
def placed (c : Console) : Except Fault (Site × Nat) → Console × Answer
  | .ok (site, place) => ({ c with site }.collect, .number place)
  | .error fault => (c, .fault fault)

def runCommand (c : Console) (place : Nat) (e : Edge) (command : Command) : Console × Answer :=
  (c.changeEdge place (fun e => (e.perform command).1), .reply (e.perform command).2)

def actOnEdge (c : Console) (place : Nat) (e : Edge) : EdgeStep → Console × Answer
  | .command command => c.runCommand place e command
  | .subscribeDecoded subscriber decoder =>
    (c.changeEdge place (fun e => (e.subscribeDecoded subscriber decoder).1),
      .reply (e.subscribeDecoded subscriber decoder).2)
  | .waitConnected ms =>
    let (site, result) := c.site.waitConnected place ms
    ({ c with site }.collect, match result with
      | .ok () => .connected
      | .error fault => .fault fault)
  | .check =>
    (c, match e.check with
      | some fault => .fault fault
      | none => .nothing)
  | .current => (c, .view e.current)
  | .report => (c, .text e.report)
  | .shutdown => (c.changeEdge place Edge.shutdown, .nothing)
  | .events =>
    let (site, stream) := c.site.listenTo place e.id
    ({ c with site, streams := c.streams ++ [(.edge place, stream)] },
      .number c.streams.length)

def busOf? (c : Console) : Source → Option Bus
  | .manager => some c.site.manager
  | .edge place => c.site.busOf? place

def drain (c : Console) (n : Nat) : Console × Answer :=
  match c.streams[n]? with
  | none => (c, .gone)
  | some (source, stream) =>
    match c.busOf? source with
    | none => (c, .gone)
    | some bus =>
      let (events, stream, lag) := stream.drain bus
      ({ c with streams := c.streams.set n (source, stream), notes := c.notes ++ lag },
        .events events)

def act (c : Console) : Step → Console × Answer
  | .openShared config => c.placed (c.site.openShared config (.queued []))
  | .openOwn config => c.placed (c.site.openOwn config)
  | .add config => c.placed (c.site.add config (.queued []))
  | .addConfigured config => c.placed (c.site.addConfigured config)
  | .remove edge =>
    match c.site.remove edge with
    | .ok site => ({ c with site }.collect, .nothing)
    | .error fault => (c, .fault fault)
  | .edgeIds => (c, .edgeIds c.site.edgeIds)
  | .managed edge =>
    (c, match (c.site.members.get? edge).bind c.site.edge? with
      | some e => .managed e.id e.session.state
      | none => .nothing)
  | .shutdownAll => (c.change Site.shutdownAll, .nothing)
  | .listenerCount => (c, .number c.site.manager.listeners)
  | .listen =>
    let (manager, stream) := c.site.manager.listen none
    ({ c with site := { c.site with manager }, streams := c.streams ++ [(.manager, stream)] },
      .number c.streams.length)
  | .drain n => c.drain n
  | .advance ms => (c.change (fun s => s.advance ms), .nothing)
  | .settle => (c, .nothing)
  | .dropEdge place =>
    match c.site.held? place with
    | some _ => (c.change (fun s => s.letGo place), .flag true)
    | none => (c, if place < c.site.cells.length then .flag false else .gone)
  | .guard place command =>
    match c.site.edge? place with
    | some e => c.runCommand place e command
    | none => (c, .gone)
  | .edge place step =>
    match c.site.held? place with
    | some e => c.actOnEdge place e step
    | none => (c, .gone)
  | .device place step =>
    match c.site.edge? place with
    | some e =>
      match e.session.device? step with
      | some (session, reply) =>
        (c.changeEdge place (fun e => { e with session }), .device reply)
      | none => (c, .gone)
    | none => (c, .gone)

def readLinks (c : Console) : Console × List (List (Nat × Request) × List Nat) :=
  c.site.places.foldl (fun (c, done) place =>
    let (site, requests, closed) := c.site.readLinks place
    ({ c with site }, done ++ [(requests, closed)])) (c, [])

/-- Takes out what the widgets of an edge wrote down. -/
def takeJournal (c : Console) (place : Nat) : Console × List Delivery :=
  match c.site.edge? place with
  | none => (c, [])
  | some e =>
    (c.changeEdge place (fun e => { e with panel := { e.panel with journal := [] } }),
      e.panel.journal)

/-- A step with all that follows from it: the edges rest, devices read, the edges rest again, and the
listeners hear what was published. -/
def perform (c : Console) (step : Step) : Console × Sight × List Note :=
  let (c, answer) := c.act step
  let c := c.change Site.settle
  let (c, reads) := c.readLinks
  let c := c.change Site.settle
  let (c, edges) := reads.zipIdx.foldl (fun (c, done) ((requests, closed), place) =>
    let (c, journal) := takeJournal c place
    (c, done ++ [EdgeSight.mk requests closed journal])) (c, [])
  let (events, shared, lag) := c.shared.drain c.site.shared
  let (managed, manager, lag') := c.manager.drain c.site.manager
  ({ c with shared, manager, notes := [] }, ⟨answer, edges, events, managed⟩,
    c.notes ++ lag ++ lag')

end Console

end ChannelFeed
