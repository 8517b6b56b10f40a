import ChannelFeed.Generation
import ChannelFeed.Note
import ChannelFeed.Wire.Envelope

namespace ChannelFeed

inductive Message where
  | report (snapshot : Snapshot)
  | success (id : Option String)
  | failure (id : Option String) (rejection : Rejection)
  | unhandled (method : String)
  deriving DecidableEq

/-- A frame as it was read, with notes on the entries that were passed over. -/
structure Reading where
  message : Except ReadFault Message
  notes : List Note

namespace Message

def reportMethod : String := "currentData"

/-- An identifier as a text; one that is no text is taken as it is written compactly. -/
def idText : Option Json → Option String
  | none => none
  | some .null => none
  | some (.text s) => some s
  | some other => some other.print

/-- Adds one reported entry; an entry with a bad key or without a scalar is passed over. -/
def addEntry (acc : SortedMap Address (Option Value) × List Note) (entry : String × Json) :
    SortedMap Address (Option Value) × List Note :=
  match Address.ofText? entry.1 with
  | none => (acc.1, acc.2 ++ [.invalidKey entry.1])
  | some a =>
    match Value.reported? entry.2 with
    | some value => (acc.1.insert a value, acc.2)
    | none => (acc.1, acc.2 ++ [.nonScalar a])

/-- The values that a notification reports. -/
def reportedValues (entries : List (String × Json)) :
    SortedMap Address (Option Value) × List Note :=
  entries.foldl addEntry (.empty, [])

def ofParams (params : Option Json) : Reading :=
  match params with
  | none => ⟨.error (.format "currentData notification without params"), []⟩
  | some json =>
    match ReportParams.ofJson? json with
    | none => ⟨.error .malformed, []⟩
    | some params =>
      let (values, notes) := reportedValues params.values
      ⟨.ok (.report ⟨params.sequence, values⟩), notes⟩

/-- An error outweighs a result, a result outweighs a method, and the only notification understood
is the one that reports values. -/
def ofEnvelope (e : Envelope) : Reading :=
  match e.error with
  | some rejection => ⟨.ok (.failure (idText e.id) rejection), []⟩
  | none =>
    if e.hasResult then ⟨.ok (.success (idText e.id)), []⟩
    else
      match e.method with
      | none => ⟨.error (.format "frame has neither method, result nor error"), []⟩
      | some method =>
        if method = reportMethod then ofParams e.params else ⟨.ok (.unhandled method), []⟩

def read (text : String) : Reading :=
  match Envelope.ofText? text with
  | none => ⟨.error .malformed, []⟩
  | some e => ofEnvelope e

end Message

end ChannelFeed
