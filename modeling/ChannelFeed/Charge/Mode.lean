import ChannelFeed.Value

namespace ChannelFeed.Charge

inductive Mode where
  | manual
  | off
  | automatic
  | unknown
  deriving DecidableEq, Repr, Inhabited

namespace Mode

def ofText (text : String) : Mode :=
  if text = "MANUAL" then manual
  else if text = "OFF" then off
  else if text = "AUTOMATIC" then automatic
  else unknown

/-- The mode that a channel shows; without a text it is unknown. -/
def ofValue (value : Option Value) : Mode :=
  match value.bind Value.asText? with
  | some text => ofText text
  | none => unknown

def text : Mode → String
  | manual => "MANUAL"
  | off => "OFF"
  | automatic => "AUTOMATIC"
  | unknown => "UNKNOWN"

def isKnown (m : Mode) : Bool := m != unknown

/-- What is assumed of a controller that has not said anything. -/
def initial : Mode := unknown

end Mode

end ChannelFeed.Charge
