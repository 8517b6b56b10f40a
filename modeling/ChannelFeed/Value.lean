import ChannelFeed.Json.Printer

namespace ChannelFeed

inductive Value where
  | bool (b : Bool)
  | integer (n : Int)
  | float (x : Binary64)
  | text (s : String)
  deriving DecidableEq, Repr, Inhabited

namespace Value

def minInteger : Int := -9223372036854775808

def maxInteger : Int := 9223372036854775807

def inIntegers (n : Int) : Bool := decide (minInteger ≤ n ∧ n ≤ maxInteger)

/-- The integer of a value; a double counts if it is whole and of magnitude at most 2^63, and 2^63
itself is cut to the greatest integer. -/
def asInteger? : Value → Option Int
  | integer n => some n
  | float x =>
    match x.toInt? with
    | some n => if n.natAbs ≤ 9223372036854775808 then some (min n maxInteger) else none
    | none => none
  | _ => none

/-- The number of a value as a double. -/
def asFloat? : Value → Option Binary64
  | integer n => some (.ofInt n)
  | float x => some x
  | _ => none

def asText? : Value → Option String
  | text s => some s
  | _ => none

/-- The truth of a value; the integers zero and one count. -/
def asBool? : Value → Option Bool
  | bool b => some b
  | integer n => if n = 0 then some false else if n = 1 then some true else none
  | _ => none

def display : Value → String
  | bool b => if b then "true" else "false"
  | integer n => toString n
  | float x => DecimalLayout.plain.text x
  | text s => s

def toJson : Value → Json
  | bool b => .bool b
  | integer n => .number (.whole n)
  | float x => .number (.real x)
  | text s => .text s

/-- A number as a value: an integer if it is one of 64 bits, otherwise a double. -/
def ofNumber : Json.Number → Value
  | .whole n => if inIntegers n then integer n else float (.ofInt n)
  | .real x => float x

/-- What a reported JSON value means for its channel: null takes the value away, and containers mean
nothing. -/
def reported? : Json → Option (Option Value)
  | .null => some none
  | .bool b => some (some (bool b))
  | .number n => some (some (ofNumber n))
  | .text s => some (some (text s))
  | .array _ => none
  | .object _ => none

def readBool? : Json → Option Value
  | .bool b => some (bool b)
  | _ => none

def readInteger? : Json → Option Value
  | .number (.whole n) => if inIntegers n then some (integer n) else none
  | _ => none

def readFloat? : Json → Option Value
  | .number (.whole n) => some (float (.ofInt n))
  | .number (.real x) => some (float x)
  | _ => none

def readText? : Json → Option Value
  | .text s => some (text s)
  | _ => none

/-- The first kind of value, in the order of their declaration, that a JSON value can be read as. -/
def ofJson? (json : Json) : Option Value :=
  readBool? json <|> readInteger? json <|> readFloat? json <|> readText? json

end Value

end ChannelFeed
