import ChannelFeed.Address
import ChannelFeed.Fault
import ChannelFeed.Json.Printer

namespace ChannelFeed.Address

def read (s : String) : Except ReadFault Address :=
  match ofText? s with
  | some a => .ok a
  | none => .error (.address s)

def toJson (a : Address) : Json := .text a.text

/-- Nothing but a string is an address. -/
def ofJson? : Json → Option Address
  | .text s => ofText? s
  | _ => none

/-- Reads a JSON text that holds an address. -/
def readJson (text : String) : Except ReadFault Address :=
  match (Json.ofText? text).bind ofJson? with
  | some a => .ok a
  | none => .error .malformed

end ChannelFeed.Address
