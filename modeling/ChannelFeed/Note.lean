import ChannelFeed.Address
import ChannelFeed.Event

namespace ChannelFeed

inductive Level where
  | trace
  | debug
  | info
  | warn
  | error
  deriving DecidableEq, Repr

def Level.text : Level → String
  | trace => "trace"
  | debug => "debug"
  | info => "info"
  | warn => "warn"
  | error => "error"

structure Line where
  level : Level
  message : String
  fields : List (String × String)
  deriving DecidableEq, Repr

/-- What happened, in the domain's terms. Publishing an event is itself a note, so that the notes of
a run give its events in order. -/
inductive Note where
  | snapshotMerged (generation sequence touched : Nat)
  | registering (subscriber : String) (handle addresses : Nat)
  | unregistering (subscriber : String) (handle : Nat)
  | subscribed (subscriber : String) (handle : Nat)
  | unsubscribed (subscriber : String) (handle : Nat)
  | primed (subscriber : String) (handle : Nat)
  | muted (subscriber : String) (handle : Nat)
  | published (event : Event)
  | lagged (skipped : Nat)
  | invalidKey (key : String)
  | nonScalar (address : Address)
  | stateChanged (edge : String) (state : LinkState)
  | shuttingDown (edge : String)
  | connected (edge : String)
  | processorGone (edge : String)
  | connectionLost (edge reason : String)
  | connectFailed (edge error : String) (attempt : Nat)
  | givingUp (edge reason : String)
  | reconnecting (edge : String) (attempt delay : Nat)
  | requestSent (edge id : String) (count channels : Nat)
  | outOfOrder (edge : String) (sequence : Nat) (last : Option Nat)
  | unknownResponse (edge : String) (id pending : Option String)
  | accepted (edge : String) (id : Option String)
  | rejected (edge : String) (id : Option String) (code : Int) (message : String)
  | unhandled (edge method : String)
  | malformed (edge error : String)
  | edgeStarted (edge : String)
  | edgeShuttingDown (edge : String)
  | unionForwarded (edge : String) (version channels : Nat)
  | snapshotApplied (edge : String) (generation channels : Nat)
  | snapshotsEnded (edge : String)
  | edgeAdded (edge : String)
  | edgeRemoved (edge : String)
  | connectingTo (url : String)
  deriving DecidableEq, Repr

namespace Note

def handleText (handle : Nat) : String := "Sub(" ++ toString handle ++ ")"

def optionReport : Option String → String
  | none => "None"
  | some text => "Some(" ++ text ++ ")"

def quotedOption (text : Option String) : String := optionReport (text.map quoted)

def subscriberFields (subscriber : String) (handle : Nat) : List (String × String) :=
  [("subscriber", subscriber), ("handle", handleText handle)]

/-- The line of a note. A rejection is logged under its own message. -/
def line : Note → Line
  | snapshotMerged generation sequence touched =>
    ⟨.trace, "Applied snapshot", [("generation", toString generation),
      ("sequence", optionReport (some (toString sequence))), ("touched", toString touched)]⟩
  | registering subscriber handle addresses =>
    ⟨.trace, "Registering subscriber",
      subscriberFields subscriber handle ++ [("addresses", toString addresses)]⟩
  | unregistering subscriber handle =>
    ⟨.trace, "Unregistering subscriber", subscriberFields subscriber handle⟩
  | subscribed subscriber handle => ⟨.debug, "Subscribed", subscriberFields subscriber handle⟩
  | unsubscribed subscriber handle => ⟨.debug, "Unsubscribed", subscriberFields subscriber handle⟩
  | primed subscriber handle => ⟨.trace, "Subscriber primed", subscriberFields subscriber handle⟩
  | muted subscriber handle =>
    ⟨.error, "Subscriber callback panicked; no further updates are delivered to it",
      subscriberFields subscriber handle⟩
  | published event =>
    ⟨.trace, "Publishing edge event", [("edge", event.edge), ("event", event.report)]⟩
  | lagged skipped => ⟨.warn, "Event listener lagged behind", [("skipped", toString skipped)]⟩
  | invalidKey key =>
    ⟨.warn, "Skipping invalid channel address in currentData", [("key", key)]⟩
  | nonScalar address =>
    ⟨.debug, "Skipping non-scalar channel value", [("address", address.text)]⟩
  | stateChanged edge state =>
    ⟨.debug, "Connection state changed", [("edge", edge), ("state", state.display)]⟩
  | shuttingDown edge => ⟨.debug, "Shutting down transport session", [("edge", edge)]⟩
  | connected edge => ⟨.info, "Connected to edge", [("edge", edge)]⟩
  | processorGone edge => ⟨.debug, "Snapshot receiver dropped", [("edge", edge)]⟩
  | connectionLost edge reason =>
    ⟨.warn, "Connection to edge lost", [("edge", edge), ("reason", reason)]⟩
  | connectFailed edge error attempt =>
    ⟨.warn, "Connecting to edge failed",
      [("edge", edge), ("error", error), ("attempt", toString attempt)]⟩
  | givingUp edge reason =>
    ⟨.error, "Giving up reconnecting to edge", [("edge", edge), ("reason", reason)]⟩
  | reconnecting edge attempt delay =>
    ⟨.debug, "Reconnecting",
      [("edge", edge), ("attempt", toString attempt), ("delay_ms", toString delay)]⟩
  | requestSent edge id count channels =>
    ⟨.debug, "Sent subscribeChannels",
      [("edge", edge), ("id", id), ("count", toString count), ("channels", toString channels)]⟩
  | outOfOrder edge sequence last =>
    ⟨.trace, "Dropping out-of-order currentData", [("edge", edge),
      ("sequence", toString sequence), ("last", optionReport (last.map toString))]⟩
  | unknownResponse edge id pending =>
    ⟨.debug, "Ignoring response to a superseded or unknown request",
      [("edge", edge), ("id", quotedOption id), ("pending", quotedOption pending)]⟩
  | accepted edge id =>
    ⟨.debug, "Subscription accepted", [("edge", edge), ("id", quotedOption id)]⟩
  | rejected edge id code message =>
    ⟨.warn, message, [("edge", edge), ("id", quotedOption id), ("code", toString code)]⟩
  | unhandled edge method =>
    ⟨.debug, "Ignoring notification", [("edge", edge), ("method", method)]⟩
  | malformed edge error =>
    ⟨.debug, "Dropping malformed frame", [("edge", edge), ("error", error)]⟩
  | edgeStarted edge => ⟨.debug, "Edge started", [("edge", edge)]⟩
  | edgeShuttingDown edge => ⟨.debug, "Edge shutting down", [("edge", edge)]⟩
  | unionForwarded edge version channels =>
    ⟨.debug, "Subscription changed",
      [("edge", edge), ("version", toString version), ("channels", toString channels)]⟩
  | snapshotApplied edge generation channels =>
    ⟨.trace, "Snapshot applied", [("edge", edge), ("generation", toString generation),
      ("channels", toString channels)]⟩
  | snapshotsEnded edge => ⟨.debug, "Snapshot stream closed", [("edge", edge)]⟩
  | edgeAdded edge => ⟨.info, "Edge added", [("edge", edge)]⟩
  | edgeRemoved edge => ⟨.info, "Edge removed", [("edge", edge)]⟩
  | connectingTo url => ⟨.debug, "Connecting WebSocket", [("url", url)]⟩

def event? : Note → Option Event
  | published event => some event
  | _ => none

end Note

/-- The events that notes publish, in their order. -/
def publishedEvents (notes : List Note) : List Event := notes.filterMap Note.event?

end ChannelFeed
