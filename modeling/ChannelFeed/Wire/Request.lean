import ChannelFeed.Address
import ChannelFeed.Json.Printer

namespace ChannelFeed

/-- The name of a request: which source made it, and its number there. Sources are drawn at random from
the numbers below 2^64, so that nobody else comes upon the name. -/
structure RequestId where
  source : Nat
  number : Nat
  deriving DecidableEq, Repr, Inhabited

/-- The name as an identifier of version 4 in five groups. -/
def RequestId.text (id : RequestId) : String :=
  hexPadded 8 (id.source / 4294967296) ++ "-" ++ hexPadded 4 (id.source / 65536 % 65536) ++ "-4" ++
    hexPadded 3 (id.source / 16 % 4096) ++ "-a00" ++ hexPadded 1 (id.source % 16) ++ "-" ++
    hexPadded 12 id.number

structure Request where
  id : RequestId
  count : Nat
  channels : AddressSet
  deriving DecidableEq, Inhabited

namespace Request

def member (key value : String) : String := Json.literal key ++ ":" ++ value

def object (members : List String) : String :=
  "\x7b" ++ Json.commaSeparated members ++ "\x7d"

/-- The frame, its members in their fixed order. -/
def text (r : Request) : String :=
  object
    [member "jsonrpc" (Json.literal "2.0"),
      member "id" (Json.literal r.id.text),
      member "method" (Json.literal "subscribeChannels"),
      member "params" (object
        [member "count" (toString r.count),
          member "channels" ("[" ++
            Json.commaSeparated (r.channels.toList.map (fun a => Json.literal a.text)) ++ "]")])]

end Request

end ChannelFeed
