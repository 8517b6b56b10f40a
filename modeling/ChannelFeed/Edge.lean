import ChannelFeed.Panel.Basic
import ChannelFeed.Session.Move

namespace ChannelFeed

inductive Worker where
  | session
  | pump
  | processor
  deriving DecidableEq, Repr

/-- The workers in the order in which they begin. -/
def Worker.all : List Worker := [.session, .pump, .processor]

/-- What the pump is doing with the union. -/
inductive Pump where
  | waiting
  /-- Lets further changes come in until a point in time. -/
  | debouncing (wake : Nat)
  /-- Is about to look at the version. -/
  | marking
  /-- Is about to read the union. -/
  | reading (version : Nat)
  /-- Is about to hand the union on. -/
  | setting (version : Nat) (union : AddressSet)
  | stopped
  deriving DecidableEq

/-- One edge: what its widgets want and the session with its device, tied together by a pump that
carries the union of all declarations to the session and a processor that carries snapshots to the
widgets. -/
structure Edge where
  id : String
  debounce : Duration
  lastInstant : Nat
  panel : Panel
  session : Session
  pump : Pump
  /-- Up to which change of the version the pump has looked. -/
  versionSeen : Nat
  /-- Whether snapshots are still being applied. -/
  processing : Bool
  notes : List Note

namespace Edge

def note (e : Edge) (notes : List Note) : Edge := { e with notes := e.notes ++ notes }

/-- Moves the notes of the parts to those of the whole. -/
def collect (e : Edge) : Edge :=
  { e with
    notes := e.notes ++ e.panel.notes ++ e.session.notes
    panel := { e.panel with notes := [] }
    session := { e.session with notes := [] } }

/-- An edge with its session before their work. -/
def ofSession (c : Config) (session : Session) : Edge where
  id := c.edge
  debounce := c.debounce
  lastInstant := c.lastInstant
  panel := .empty
  session
  pump := .waiting
  versionSeen := 0
  processing := true
  notes := [.edgeStarted c.edge]

/-- An edge before its work, if there can be a session for it. -/
def start (c : Config) (connector : Connector) (source now : Nat) : Except Fault Edge :=
  (Session.ofConfig c connector source now).map (ofSession c)

/-- The connector for a way to reach a device, if the way makes sense. -/
def connectorFor (c : Config) : Except TransportFault Connector :=
  match c.access with
  | .socket url =>
    match SocketEndpoint.ofUrl url with
    | .error fault => .error fault
    | .ok endpoint =>
      match endpoint.fault? with
      | some fault => .ok (.failing url fault)
      | none => .ok .silent
  | .broker url root _ =>
    match BrokerEndpoint.ofUrl url root c.edge with
    | .error fault => .error fault
    | .ok _ => .ok .silent

def registry (e : Edge) : Registry := e.panel.dispatcher.registry

def union (e : Edge) : AddressSet := e.registry.union

def generation (e : Edge) : Generation := e.panel.dispatcher.generation

/-- Everything known, without a scope. -/
def current (e : Edge) : View := ⟨e.generation, .all⟩

def perform (e : Edge) (command : Command) : Edge × Reply :=
  let (panel, reply) := e.panel.perform command
  ({ e with panel }.collect, reply)

def subscribeDecoded (e : Edge) (subscriber : String) (decoder : Charge.Decoder) : Edge × Reply :=
  let (panel, reply) :=
    e.panel.subscribe subscriber none decoder.addresses.toList (.decoded decoder)
  ({ e with panel }.collect, reply)

/-- When the window is over in which further changes come in, if it begins now. -/
def endOfPause (e : Edge) (now : Nat) : Nat := e.debounce.endOfPause e.lastInstant now

/-- A step of the pump, if it has something to do. -/
def pump? (e : Edge) : Option Edge :=
  match e.pump with
  | .waiting =>
    if e.registry.announced.unseen e.versionSeen then
      let pump :=
        if e.debounce.isZero then .marking else .debouncing (e.endOfPause e.session.now)
      some { e with pump, versionSeen := e.registry.announced.changes }
    else none
  | .debouncing wake => if wake ≤ e.session.now then some { e with pump := .marking } else none
  | .marking =>
    some { e with
      pump := .reading e.registry.announced.value
      versionSeen := e.registry.announced.changes }
  | .reading version => some { e with pump := .setting version e.union }
  | .setting version union =>
    let (session, changed) := e.session.setSubscription union
    let e := { e with session, pump := .waiting }
    some (if changed then e.note [.unionForwarded e.id version union.size] else e)
  | .stopped => none

/-- Applies the next snapshot and delivers it, if there is one. -/
def process? (e : Edge) : Option Edge :=
  if e.processing then
    match e.session.takeSnapshot with
    | (session, .item snapshot) =>
      let e := { e with session, panel := e.panel.merge snapshot }.collect
      let g := e.generation
      let e := e.note [.snapshotApplied e.id g.number g.touched.size]
      some { e with panel := e.panel.deliverCurrent }.collect
    | (session, .closed) =>
      some ({ e with session := session.dropSnapshots, processing := false }.note
        [.snapshotsEnded e.id])
    | (_, .empty) => none
  else none

/-- The state after a step of a worker, if there is something for it to do. -/
def step? (e : Edge) : Worker → Option Edge
  | .session => e.session.next?.map (fun session => { e with session }.collect)
  | .pump => e.pump?
  | .processor => e.process?

def isReady (e : Edge) (w : Worker) : Bool := (e.step? w).isSome

/-- How much a worker can have to do at one instant. -/
def workBound (e : Edge) : Nat :=
  16 * (e.session.restBound + e.panel.depth + e.session.snapshots.queue.length + 4)

/-- A worker's turn: it works until it has to wait. -/
def work (e : Edge) (w : Worker) : Edge := go e.workBound e
where
  go : Nat → Edge → Edge
    | 0, e => e
    | n + 1, e =>
      match e.step? w with
      | some e => go n e
      | none => e

/-- When the timer of a worker is due. -/
def timer? (e : Edge) : Worker → Option Nat
  | .session => e.session.timer?
  | .pump =>
    match e.pump with
    | .debouncing wake => some wake
    | _ => none
  | .processor => none

def atTime (e : Edge) (now : Nat) : Edge := { e with session := e.session.atTime now }

/-- Stops the session and ends pump and processor. -/
def stop (e : Edge) : Edge :=
  { e with
    session := e.session.shutdown.dropSnapshots
    pump := .stopped
    processing := false }.collect

def shutdown (e : Edge) : Edge := (e.note [.edgeShuttingDown e.id]).stop

/-- Whoever gave commands to the edge lets go of it. -/
def letGo (e : Edge) : Edge := { e with panel := e.panel.unattend }

/-- Nobody holds the edge any more. -/
def dispose (e : Edge) : Edge :=
  let e := e.stop
  { e with panel := { e.panel with present := false } }

/-- The standing rejection of what was asked for, as a fault. -/
def check (e : Edge) : Option Fault := e.session.rejection.map .rejected

def report (e : Edge) : String :=
  "Edge \x7b id: " ++ edgeReport e.id ++ ", state: " ++ e.session.state.report ++
    ", subscribers: " ++ toString e.panel.dispatcher.size ++
    ", generation: " ++ toString e.generation.number ++ ", .. \x7d"

end Edge

end ChannelFeed
