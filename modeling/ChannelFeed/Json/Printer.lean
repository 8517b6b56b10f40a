import ChannelFeed.Json.Basic
import ChannelFeed.Number.Layout
import ChannelFeed.Text.Quoted

namespace ChannelFeed.Json

/-- One character inside a literal: quotes, backslashes and control characters are escaped. -/
def literalChar (c : Char) : List Char :=
  if c = '"' then ['\\', '"']
  else if c = '\\' then ['\\', '\\']
  else if c.toNat = 8 then ['\\', 'b']
  else if c.toNat = 12 then ['\\', 'f']
  else if c = '\n' then ['\\', 'n']
  else if c = '\r' then ['\\', 'r']
  else if c = '\t' then ['\\', 't']
  else if c.toNat < 32 then ['\\', 'u'] ++ (hexPadded 4 c.toNat).toList
  else [c]

def literal (s : String) : String :=
  "\"" ++ String.ofList (s.toList.flatMap literalChar) ++ "\""

def Number.text : Number → String
  | .whole n => toString n
  | .real x => DecimalLayout.json.text x

def commaSeparated (texts : List String) : String := String.intercalate "," texts

mutual

def print : Json → String
  | .null => "null"
  | .bool b => if b then "true" else "false"
  | .number n => n.text
  | .text s => literal s
  | .array items => "[" ++ commaSeparated (printItems items) ++ "]"
  | .object members => "\x7b" ++ commaSeparated (printMembers members) ++ "\x7d"

def printItems : List Json → List String
  | [] => []
  | item :: rest => print item :: printItems rest

def printMembers : List (String × Json) → List String
  | [] => []
  | (key, value) :: rest => (literal key ++ ":" ++ print value) :: printMembers rest

end

end ChannelFeed.Json
