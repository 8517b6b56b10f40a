import ChannelFeed.Dispatcher
import ChannelFeed.Panel.Command

namespace ChannelFeed

/-- One subscription from the side of its user. -/
structure Widget where
  handle : Nat
  guarded : Bool
  /-- How often its callback has been called. -/
  calls : Nat
  callback : Callback
  deriving Inhabited

/-- A guard that was just given out. -/
def guardReport (handle : Nat) : String :=
  "SubscriptionGuard \x7b handle: SubscriptionHandle(" ++ toString handle ++
    "), released: false, .. \x7d"

/-- A dispatcher with the widgets that use it, whose callbacks run commands of their own while a
delivery is going on. -/
structure Panel where
  dispatcher : Dispatcher
  widgets : List Widget
  /-- Whether someone still holds the dispatcher. -/
  present : Bool
  /-- Whether the one who gives commands still does. -/
  attended : Bool
  journal : List Delivery
  notes : List Note
  deriving Inhabited

namespace Panel

def empty : Panel := ⟨.empty, [], true, true, [], []⟩

def note (p : Panel) (notes : List Note) : Panel := { p with notes := p.notes ++ notes }

def record (p : Panel) (d : Delivery) : Panel := { p with journal := p.journal ++ [d] }

/-- Commands no longer reach the dispatcher; guards still do. -/
def unattend (p : Panel) : Panel := { p with attended := false }

def modifyWidget (p : Panel) (widget : Nat) (f : Widget → Widget) : Panel :=
  { p with widgets := p.widgets.modify widget f }

def subscribe (p : Panel) (subscriber : String) (component : Option String)
    (addresses : List Address) (callback : Callback) : Panel × Reply :=
  let widget := p.widgets.length
  let (dispatcher, handle) := p.dispatcher.install subscriber component addresses widget
  let p := { p with dispatcher, widgets := p.widgets ++ [Widget.mk handle true 0 callback] }
  (p.note (Dispatcher.installNotes subscriber addresses handle), .installed widget handle)

def unsubscribe (p : Panel) (handle : Nat) : Panel × Bool :=
  let notes := p.dispatcher.unsubscribeNotes handle
  let (dispatcher, live) := p.dispatcher.unsubscribe handle
  ({ p with dispatcher }.note notes, live)

/-- Lets go of a guard, which takes its subscription out if the dispatcher is there; none if the
guard is gone already, else whether its handle was live. -/
def letGo (p : Panel) (widget : Nat) : Option (Panel × Bool) :=
  match p.widgets[widget]? with
  | some w =>
    if w.guarded then
      let p := p.modifyWidget widget (fun w => { w with guarded := false })
      some (if p.present then p.unsubscribe w.handle else (p, false))
    else none
  | none => none

def merge (p : Panel) (s : Snapshot) : Panel :=
  let notes := p.dispatcher.mergeNotes s
  { p with dispatcher := p.dispatcher.merge s }.note notes

/-- Runs a callback's commands one after another; true if it fails. -/
def runCommands (exec : Panel → Command → Panel × Reply) (widget call : Nat) :
    Panel → List Command → Panel × Bool
  | p, [] => (p, false)
  | p, .panic :: _ => (p, true)
  | p, command :: rest =>
    let (p, reply) := exec p command
    runCommands exec widget call (p.record (.replied widget call reply)) rest

/-- Calls a widget back; true if its callback fails. -/
def callBack (exec : Panel → Command → Panel × Reply) (p : Panel) (widget : Nat) (v : View) :
    Panel × Bool :=
  match p.widgets[widget]? with
  | none => (p, false)
  | some w =>
    let call := w.calls + 1
    let p := p.modifyWidget widget (fun w => { w with calls := call })
    match w.callback with
    | .scripted script => runCommands exec widget call (p.record (.called widget call v))
        (script.at call)
    | .decoded decoder => (p.record (.decoded widget (decoder.decode v)), false)

/-- The turn of one handle in a delivery. -/
def deliver (exec : Panel → Command → Panel × Reply) (g : Generation) (p : Panel) (handle : Nat) :
    Panel :=
  match p.dispatcher.due? g handle with
  | none => p
  | some slot =>
    let p :=
      if slot.primed then p
      else { p with dispatcher := p.dispatcher.prime handle }.note
        [.primed slot.subscriber handle]
    let (p, failed) := callBack exec p slot.widget ⟨g, slot.scope⟩
    if failed then
      { p with dispatcher := p.dispatcher.mute handle }.note [.muted slot.subscriber handle]
    else p

/-- Delivers a generation to the subscriptions that are there when it begins, by handle. -/
def publish (exec : Panel → Command → Panel × Reply) (p : Panel) (g : Generation) : Panel :=
  p.dispatcher.slots.keys.foldl (deliver exec g) p

/-- Runs a command; `fuel` bounds how deep callbacks may cause one another. -/
def exec : Nat → Panel → Command → Panel × Reply
  | 0, p, _ => (p, .nothing)
  | fuel + 1, p, command =>
    match command with
    | .release widget =>
      match p.letGo widget with
      | some (p, live) => (p, .flag live)
      | none => (p, .nothing)
    | .drop widget =>
      match p.letGo widget with
      | some (p, _) => (p, .flag true)
      | none => (p, .flag false)
    | .refuse fault => (p, .refused fault)
    | command =>
      if !p.attended then (p, .gone)
      else
        match command with
        | .subscribe subscriber component addresses script =>
          p.subscribe subscriber component addresses (.scripted script)
        | .unsubscribe widget =>
          match p.widgets[widget]? with
          | some w =>
            let (p, live) := p.unsubscribe w.handle
            (p, .flag live)
          | none => (p, .nothing)
        | .view subscriber => (p, .view (p.dispatcher.view? subscriber))
        | .apply snapshot deliver =>
          let p := p.merge snapshot
          let g := p.dispatcher.generation
          (if deliver then publish (exec fuel) p g else p, .generation g.number)
        | .republish =>
          let p := publish (exec fuel) p p.dispatcher.generation
          (p, .generation p.dispatcher.generation.number)
        | .retire => (p.unattend, .nothing)
        | _ => (p, .nothing)

/-- A bound on how deep the callbacks of all widgets can cause one another: each command of a script
runs at most once. -/
def depth (p : Panel) : Nat := p.widgets.foldr (fun w n => w.callback.weight + n) 0

/-- Runs a command with all that its callbacks cause. -/
def perform (p : Panel) (command : Command) : Panel × Reply :=
  exec (p.depth + command.weight + 1) p command

/-- Runs a command on a panel that stands alone: a dispatcher without commands goes at its end. -/
def performAlone (p : Panel) (command : Command) : Panel × Reply :=
  let (p, reply) := p.perform command
  ({ p with present := p.present && p.attended }, reply)

def deliverCurrent (p : Panel) : Panel :=
  publish (exec (p.depth + 1)) p p.dispatcher.generation

end Panel

end ChannelFeed
