import ChannelFeed.Text.Quoted

namespace ChannelFeed

/-- Where a session stands with its device. -/
inductive LinkState where
  | disconnected
  | connecting
  | connected
  | reconnecting (attempt : Nat)
  | failed (reason : String)
  deriving DecidableEq, Repr, Inhabited

namespace LinkState

def isConnected (s : LinkState) : Bool := s == connected

def isFailed : LinkState → Bool
  | failed _ => true
  | _ => false

def display : LinkState → String
  | disconnected => "disconnected"
  | connecting => "connecting"
  | connected => "connected"
  | reconnecting attempt => "reconnecting (attempt " ++ toString attempt ++ ")"
  | failed reason => "failed: " ++ reason

def report : LinkState → String
  | disconnected => "Disconnected"
  | connecting => "Connecting"
  | connected => "Connected"
  | reconnecting attempt => "Reconnecting \x7b attempt: " ++ toString attempt ++ " \x7d"
  | failed reason => "Failed(" ++ quoted reason ++ ")"

end LinkState

def edgeReport (edge : String) : String := "EdgeId(" ++ edge ++ ")"

inductive Event where
  | added (edge : String)
  | removed (edge : String)
  | connectionChanged (edge : String) (state : LinkState)
  | subscriptionSent (edge : String) (count channels : Nat)
  | subscriptionRejected (edge : String) (code : Int) (message : String)
  deriving DecidableEq, Repr, Inhabited

namespace Event

def edge : Event → String
  | added edge => edge
  | removed edge => edge
  | connectionChanged edge _ => edge
  | subscriptionSent edge _ _ => edge
  | subscriptionRejected edge _ _ => edge

def isLifecycle : Event → Bool
  | added _ => true
  | removed _ => true
  | _ => false

def isConnection : Event → Bool
  | connectionChanged _ _ => true
  | _ => false

def isSubscription : Event → Bool
  | subscriptionSent _ _ _ => true
  | subscriptionRejected _ _ _ => true
  | _ => false

def recordReport (name : String) (fields : List (String × String)) : String :=
  name ++ " \x7b " ++
    String.intercalate ", " (fields.map (fun (field, text) => field ++ ": " ++ text)) ++ " \x7d"

def report : Event → String
  | added edge => recordReport "EdgeAdded" [("edge_id", edgeReport edge)]
  | removed edge => recordReport "EdgeRemoved" [("edge_id", edgeReport edge)]
  | connectionChanged edge state =>
    recordReport "ConnectionChanged" [("edge_id", edgeReport edge), ("state", state.report)]
  | subscriptionSent edge count channels =>
    recordReport "SubscriptionSent"
      [("edge_id", edgeReport edge), ("count", toString count), ("channels", toString channels)]
  | subscriptionRejected edge code message =>
    recordReport "SubscriptionRejected"
      [("edge_id", edgeReport edge), ("code", toString code), ("message", quoted message)]

end Event

end ChannelFeed
