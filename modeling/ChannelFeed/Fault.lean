import ChannelFeed.Text.Quoted

namespace ChannelFeed

/-- Why a text could not be read. -/
inductive ReadFault where
  | malformed
  | address (text : String)
  | format (detail : String)
  deriving DecidableEq, Repr

def ReadFault.message : ReadFault → String
  | malformed => "JSON parse error"
  | address text => "invalid channel address: " ++ quoted text
  | format detail => "unexpected message format: " ++ detail

/-- Why a device could not be reached. -/
inductive TransportFault where
  | webSocket (detail : String)
  | connectionFailed (detail : String)
  | timeout (ms : Nat)
  | invalidAddress (detail : String)
  | channelClosed (detail : String)
  deriving DecidableEq, Repr

def TransportFault.message : TransportFault → String
  | webSocket detail => "WebSocket error: " ++ detail
  | connectionFailed detail => "connection failed: " ++ detail
  | timeout ms => "timed out after " ++ toString ms ++ " ms"
  | invalidAddress detail => "invalid address: " ++ detail
  | channelClosed detail => "channel closed: " ++ detail

/-- A device's refusal of a request. -/
structure Rejection where
  code : Int
  message : String
  deriving DecidableEq, Repr

def Rejection.text (r : Rejection) : String :=
  r.message ++ " (code " ++ toString r.code ++ ")"

/-- Why an operation on an edge failed. -/
inductive Fault where
  | transport (cause : TransportFault)
  | read (cause : ReadFault)
  | rejected (rejection : Rejection)
  | edgeNotFound (edge : String)
  | edgeExists (edge : String)
  | notConnected
  | queueSize (size : Nat)
  deriving DecidableEq, Repr

def Fault.message : Fault → String
  | transport cause => "protocol error: " ++ cause.message
  | read cause => "parse error: " ++ cause.message
  | rejected r =>
    "subscription rejected by edge (code " ++ toString r.code ++ "): " ++ r.message
  | edgeNotFound edge => "edge not found: " ++ edge
  | edgeExists edge => "edge already exists: " ++ edge
  | notConnected => "edge is not connected"
  | queueSize size => "no queue holds " ++ toString size ++ " items"

end ChannelFeed
