import ChannelFeed.Panel.Basic

namespace ChannelFeed.Panel

inductive Happening where
  | subscribed (subscriber : String) (handle : Nat)
  | unsubscribed (handle : Nat)
  | letGo (handle : Nat)
  /-- A delivery primed the slot of a handle. A delivery is known by how much had happened when it
  began. -/
  | primed (delivery handle : Nat)
  | called (delivery handle : Nat) (view : View)
  | muted (handle : Nat)
  | delivered (delivery : Nat)

/-- Something that happened, with the panel right after it. -/
structure Moment where
  what : Happening
  panel : Panel

abbrev History := List Moment

def primeSlot (p : Panel) (handle : Nat) (slot : Slot) : Panel :=
  { p with dispatcher := p.dispatcher.prime handle }.note [.primed slot.subscriber handle]

def muteSlot (p : Panel) (handle : Nat) (slot : Slot) : Panel :=
  { p with dispatcher := p.dispatcher.mute handle }.note [.muted slot.subscriber handle]

/-- The panel of a turn when a widget's callback starts. -/
def startCall (p : Panel) (widget : Nat) (w : Widget) (v : View) : Panel :=
  let p := p.modifyWidget widget (fun w' => { w' with calls := w.calls + 1 })
  match w.callback with
  | .scripted _ => p.record (.called widget (w.calls + 1) v)
  | .decoded decoder => p.record (.decoded widget (decoder.decode v))

section

variable (exec : Panel → Command → Panel × Reply) (log : History → Panel → Command → History)

def logCommands (widget call : Nat) : History → Panel → List Command → History
  | past, _, [] => past
  | past, _, .panic :: _ => past
  | past, p, command :: rest =>
    logCommands widget call (log past p command)
      ((exec p command).1.record (.replied widget call (exec p command).2)) rest

def logCallBack (delivery handle : Nat) (past : History) (p : Panel) (widget : Nat) (v : View) :
    History :=
  match p.widgets[widget]? with
  | none => past
  | some w =>
    let p := p.startCall widget w v
    let past := past ++ [⟨.called delivery handle v, p⟩]
    match w.callback with
    | .scripted script =>
      logCommands exec log widget (w.calls + 1) past p (script.at (w.calls + 1))
    | .decoded _ => past

def logCall (g : Generation) (delivery : Nat) (past : History) (p : Panel) (handle : Nat)
    (slot : Slot) : History :=
  let past := logCallBack exec log delivery handle past p slot.widget ⟨g, slot.scope⟩
  let (p, failed) := callBack exec p slot.widget ⟨g, slot.scope⟩
  if failed then past ++ [⟨.muted handle, p.muteSlot handle slot⟩] else past

def logTurn (g : Generation) (delivery : Nat) (past : History) (p : Panel) (handle : Nat) :
    History :=
  match p.dispatcher.due? g handle with
  | none => past
  | some slot =>
    if slot.primed then logCall exec log g delivery past p handle slot
    else
      let p := p.primeSlot handle slot
      logCall exec log g delivery (past ++ [⟨.primed delivery handle, p⟩]) p handle slot

def logTurns (g : Generation) (delivery : Nat) : History → Panel → List Nat → History
  | past, _, [] => past
  | past, p, handle :: rest =>
    logTurns g delivery (logTurn exec log g delivery past p handle) (deliver exec g p handle) rest

def logPublish (past : History) (p : Panel) (g : Generation) : History :=
  logTurns exec log g past.length past p p.dispatcher.slots.keys ++
    [⟨.delivered past.length, publish exec p g⟩]

end

def logSubscribe (past : History) (p : Panel) (subscriber : String) (component : Option String)
    (addresses : List Address) (callback : Callback) : History :=
  past ++ [⟨.subscribed subscriber p.dispatcher.registry.nextHandle,
    (p.subscribe subscriber component addresses callback).1⟩]

def logUnsubscribe (past : History) (p : Panel) (handle : Nat) : History :=
  past ++ [⟨.unsubscribed handle, (p.unsubscribe handle).1⟩]

def logLetGo (past : History) (p : Panel) (widget : Nat) : History :=
  match p.widgets[widget]?, p.letGo widget with
  | some w, some (q, _) => past ++ [⟨.letGo w.handle, q⟩]
  | _, _ => past

/-- What happens while a command runs, with as much fuel as it runs with. -/
def log : Nat → History → Panel → Command → History
  | 0, past, _, _ => past
  | fuel + 1, past, p, command =>
    match command with
    | .release widget => logLetGo past p widget
    | .drop widget => logLetGo past p widget
    | .refuse _ => past
    | command =>
      if !p.attended then past
      else
        match command with
        | .subscribe subscriber component addresses script =>
          logSubscribe past p subscriber component addresses (.scripted script)
        | .unsubscribe widget =>
          match p.widgets[widget]? with
          | some w => logUnsubscribe past p w.handle
          | none => past
        | .apply snapshot deliver =>
          let p := p.merge snapshot
          if deliver then logPublish (exec fuel) (log fuel) past p p.dispatcher.generation
          else past
        | .republish => logPublish (exec fuel) (log fuel) past p p.dispatcher.generation
        | _ => past

/-- What is done to a panel from outside. -/
inductive Use where
  | command (command : Command)
  | subscribe (subscriber : String) (component : Option String) (addresses : List Address)
      (callback : Callback)
  /-- A handle is unsubscribed, whether or not it is live or was ever given out. -/
  | unsubscribe (handle : Nat)
  | merge (s : Snapshot)
  /-- A generation is delivered, whether or not it is the current one. -/
  | deliver (g : Generation)

def use (p : Panel) : Use → Panel
  | .command command => (p.perform command).1
  | .subscribe subscriber component addresses callback =>
    (p.subscribe subscriber component addresses callback).1
  | .unsubscribe handle => (p.unsubscribe handle).1
  | .merge s => p.merge s
  | .deliver g => publish (exec (p.depth + 1)) p g

def logUse (past : History) (p : Panel) : Use → History
  | .command command => log (p.depth + command.weight + 1) past p command
  | .subscribe subscriber component addresses callback =>
    logSubscribe past p subscriber component addresses callback
  | .unsubscribe handle => logUnsubscribe past p handle
  | .merge _ => past
  | .deliver g => logPublish (exec (p.depth + 1)) (log (p.depth + 1)) past p g

/-- A panel after some uses, from an empty one on. -/
def used (uses : List Use) : Panel := uses.foldl use .empty

/-- All that happened in the course of some uses. -/
def historyOf (uses : List Use) : History :=
  (uses.foldl (fun (past, p) x => (logUse past p x, p.use x)) ([], .empty)).1

end ChannelFeed.Panel
