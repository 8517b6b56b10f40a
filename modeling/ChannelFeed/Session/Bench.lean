import ChannelFeed.Bus
import ChannelFeed.Clock
import ChannelFeed.Session.Device
import ChannelFeed.Session.Move

namespace ChannelFeed

structure Bench where
  session : Session
  bus : Bus
  stream : Stream
  /-- Whether snapshots are only taken on demand. -/
  onDemand : Bool
  held : Bool
  receiving : Bool
  notes : List Note

namespace Bench

inductive Step where
  | set (addresses : AddressSet)
  /-- Several settings before the session gets to run. -/
  | sets (sets : List AddressSet)
  | desired
  | report
  | shutdown
  | dropSession
  | dropSnapshots
  | advance (ms : Nat)
  | settle
  | take (most : Nat)
  | device (step : DeviceStep)

inductive Answer where
  | nothing
  | flag (b : Bool)
  | flags (bs : List Bool)
  | addresses (s : AddressSet)
  | text (s : String)
  | device (reply : DeviceReply)
  | gone

structure Sight where
  answer : Answer
  snapshots : List Snapshot
  requests : List (Nat × Request)
  closed : List Nat
  events : List Event

def timed : Timed Session := ⟨Session.timer?, fun now s => (s.atTime now).settle⟩

/-- Publishes what the session noted. -/
def collect (b : Bench) : Bench :=
  { b with
    notes := b.notes ++ b.session.notes
    bus := (publishedEvents b.session.notes).foldl Bus.publish b.bus
    session := { b.session with notes := [] } }

def change (b : Bench) (f : Session → Session) : Bench :=
  { b with session := f b.session }.collect

def ofConfig (c : Config) (onDemand : Bool) (source : Nat) : Except Fault Bench :=
  let (bus, stream) := Bus.standard.listen none
  (Session.ofConfig c (.queued []) source 0).map (fun session =>
    (Bench.mk session bus stream onDemand true true []).change Session.settle)

def act (b : Bench) (step : Step) : Bench × Answer :=
  match step with
  | .dropSession =>
    if b.held then ({ b with held := false }.change Session.shutdown, .flag true)
    else (b, .flag false)
  | .dropSnapshots =>
    ({ b with receiving := false }.change Session.dropSnapshots, .flag b.receiving)
  | .advance ms => (b.change (fun s => timed.pass s.now ms s), .nothing)
  | .settle => (b, .nothing)
  | .take _ => (b, .nothing)
  | .device step =>
    match b.session.device? step with
    | some (session, reply) => ({ b with session }.collect, .device reply)
    | none => (b, .gone)
  | step =>
    if !b.held then (b, .gone)
    else
      match step with
      | .set addresses =>
        let (session, changed) := b.session.setSubscription addresses
        ({ b with session }.collect, .flag changed)
      | .sets sets =>
        let (session, changed) := sets.foldl (fun (s, done) addresses =>
          let (s, changed) := Session.setSubscription s addresses
          (s, done ++ [changed])) (b.session, [])
        ({ b with session }.collect, .flags changed)
      | .desired => (b, .addresses b.session.desired.value)
      | .report => (b, .text b.session.report)
      | .shutdown => (b.change Session.shutdown, .nothing)
      | _ => (b, .nothing)

/-- Takes snapshots while there are any, letting the session go on after each. -/
def takeSnapshots (b : Bench) : Nat → Bench × List Snapshot
  | 0 => (b, [])
  | n + 1 =>
    match b.session.takeSnapshot with
    | (session, .item snapshot) =>
      let (b, rest) := ({ b with session }.change Session.settle).takeSnapshots n
      (b, snapshot :: rest)
    | _ => (b, [])

/-- How many snapshots are taken after a step: on demand those asked for, else all that may come. -/
def takeBound (b : Bench) (step : Step) : Nat :=
  if !b.receiving then 0
  else if b.onDemand then
    match step with
    | .take most => most
    | _ => 0
  else b.session.snapshots.queue.length + b.session.framesWaiting + 1

/-- A step with all that follows from it: the session rests, snapshots are taken, devices read, the
session rests again, and the listener hears what was published. -/
def perform (b : Bench) (step : Step) : Bench × Sight × List Note :=
  let (b, answer) := b.act step
  let b := b.change Session.settle
  let (b, snapshots) := b.takeSnapshots (b.takeBound step)
  let (session, requests, closed) := b.session.readLinks
  let b := { b with session }.change Session.settle
  let (events, stream, lag) := b.stream.drain b.bus
  ({ b with stream, notes := [] }, ⟨answer, snapshots, requests, closed, events⟩, b.notes ++ lag)

end Bench

end ChannelFeed
