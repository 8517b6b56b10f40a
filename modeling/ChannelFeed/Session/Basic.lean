import ChannelFeed.Generation
import ChannelFeed.Note
import ChannelFeed.Session.Config
import ChannelFeed.Session.Gate
import ChannelFeed.Session.Link
import ChannelFeed.Watch
import ChannelFeed.Wire.Message

namespace ChannelFeed

/-- What an attempt to connect comes to: a link, by its index, or a fault. -/
abbrev Outcome := Except TransportFault Nat

/-- Where outcomes come from: they are queued from outside, every attempt fails alike, or none ever
comes. -/
inductive Connector where
  | queued (outcomes : List Outcome)
  | failing (url : String) (fault : TransportFault)
  | silent

/-- An established connection. -/
structure Drive where
  link : Nat
  gate : Gate
  subscribed : AddressSet
  pending : Option RequestId
  /-- When the device has been silent for too long, in milliseconds. -/
  deadline : Option Nat
  deriving DecidableEq, Inhabited

/-- What a session is waiting for. -/
inductive Phase where
  | spawned
  | connecting (failures : Nat)
  /-- Anything that may happen on a connection. -/
  | driving (d : Drive)
  | requesting (d : Drive) (request : Request)
  | forwarding (d : Drive) (snapshot : Snapshot)
  | pausing (failures wake : Nat)
  | finished
  deriving DecidableEq, Inhabited

/-- A session with one device. -/
structure Session where
  edge : String
  policy : Policy
  idle : Option Duration
  lastInstant : Nat
  /-- What distinguishes the names of its requests. -/
  source : Nat
  connector : Connector
  attempts : Nat
  links : List Link
  desired : Watch AddressSet
  /-- Up to which change of `desired` the session has looked. -/
  desiredSeen : Nat
  /-- Where the session stands, as it is watched. -/
  watchedState : Watch LinkState
  stopped : Bool
  rejection : Option Rejection
  requestsSent : Nat
  snapshots : Pipe Snapshot
  phase : Phase
  /-- Milliseconds since the clock started. -/
  now : Nat
  notes : List Note

namespace Session

/-- A session before its work. -/
def ofQueue (c : Config) (connector : Connector) (source now : Nat) (snapshots : Pipe Snapshot) :
    Session where
  edge := c.edge
  policy := c.policy
  idle := c.idle
  lastInstant := c.lastInstant
  source
  connector
  attempts := 0
  links := []
  desired := .init .empty
  desiredSeen := 0
  watchedState := .init .disconnected
  stopped := false
  rejection := none
  requestsSent := 0
  snapshots
  phase := .spawned
  now
  notes := []

/-- A session before its work, if there can be a queue for its snapshots. -/
def ofConfig (c : Config) (connector : Connector) (source now : Nat) : Except Fault Session :=
  match Pipe.ofCapacity? (max c.buffer 1) with
  | some snapshots => .ok (ofQueue c connector source now snapshots)
  | none => .error (.queueSize c.buffer)

def note (s : Session) (notes : List Note) : Session := { s with notes := s.notes ++ notes }

def state (s : Session) : LinkState := s.watchedState.value

def isFinished (s : Session) : Bool := s.phase == .finished

/-- Changes the state and tells listeners. A stopped session only becomes disconnected. -/
def transition (s : Session) (next : LinkState) : Session :=
  if (next == .disconnected || !s.stopped) && s.state != next then
    { s with watchedState := s.watchedState.send next }.note
      [.stateChanged s.edge next, .published (.connectionChanged s.edge next)]
  else s

/-- Says which channels the device should stream; false if nothing changes. -/
def setSubscription (s : Session) (addresses : AddressSet) : Session × Bool :=
  if s.desired.value = addresses then (s, false)
  else ({ s with desired := s.desired.send addresses }, true)

def shutdown (s : Session) : Session :=
  if s.stopped then s
  else ({ s with stopped := true }.note [.shuttingDown s.edge]).transition .disconnected

def modifyLink (s : Session) (link : Nat) (f : Link → Link) : Session :=
  { s with links := s.links.modify link f }

def queueOutcome (s : Session) (outcome : Outcome) : Session :=
  match s.connector with
  | .queued outcomes => { s with connector := .queued (outcomes ++ [outcome]) }
  | _ => s

/-- A device accepts one connection, if there can be one with queues of that size; without a session
that could take it, it is lost at once. -/
def accept? (s : Session) (buffer : Nat) (held : Bool) : Option (Session × Nat) :=
  let link := s.links.length
  (Link.ofBuffer? buffer held).map (fun fresh =>
    if s.isFinished then ({ s with links := s.links ++ [fresh.dropClient] }, link)
    else ({ s with links := s.links ++ [fresh] }.queueOutcome (.ok link), link))

def refuse (s : Session) (fault : TransportFault) : Session :=
  if s.isFinished then s else s.queueOutcome (.error fault)

/-- A device sends frames, as far as there is room for them. -/
def deviceSend (s : Session) (link : Nat) : List String → Session × List Sent
  | [] => (s, [])
  | text :: rest =>
    match s.links[link]? with
    | none => (s, [])
    | some l =>
      let (l, sent) := l.deviceSend text
      let (s, more) := deviceSend (s.modifyLink link (fun _ => l)) link rest
      (s, sent :: more)

def takeSnapshot (s : Session) : Session × Arrival Snapshot :=
  let (snapshots, arrival) := s.snapshots.receive
  ({ s with snapshots }, arrival)

def dropSnapshots (s : Session) : Session := { s with snapshots := s.snapshots.closeReceiver }

/-- All devices read: the requests that arrived, with the links that were found dead. -/
def readLinks (s : Session) : Session × List (Nat × Request) × List Nat :=
  let read := s.links.map Link.deviceRead
  let indexed := read.zipIdx
  ({ s with links := read.map Prod.fst },
    indexed.flatMap (fun ((_, requests, _), link) => requests.map (fun r => (link, r))),
    (indexed.filter (fun ((_, _, gone), _) => gone)).map Prod.snd)

/-- How many frames wait to be taken on all links. -/
def framesWaiting (s : Session) : Nat :=
  s.links.foldr (fun l n => l.toClient.queue.length + n) 0

def report (s : Session) : String :=
  "TransportSession \x7b edge_id: " ++ edgeReport s.edge ++ ", state: " ++ s.state.report ++
    ", desired: " ++ toString s.desired.value.size ++ ", .. \x7d"

end Session

end ChannelFeed
