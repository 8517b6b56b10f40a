import ChannelFeed.Json.Token

namespace ChannelFeed.Json

inductive Tree where
  | null
  | bool (b : Bool)
  | number (n : Numeral)
  | text (pieces : List Piece)
  | array (items : List Tree)
  | object (members : List (List Piece × Tree))
  deriving Repr

/-- An open container that waits for the value being read, its contents last first. -/
inductive Frame where
  | array (done : List Tree)
  | member (done : List (List Piece × Tree)) (key : List Piece)

/-- What may come next. -/
inductive Place where
  | value
  | arrayStart
  | objectStart
  | afterItem (done : List Tree)
  | afterMember (done : List (List Piece × Tree))
  | key (done : List (List Piece × Tree))
  | colon (done : List (List Piece × Tree)) (key : List Piece)
  | complete (tree : Tree)

/-- A finished value goes into the innermost open container. -/
def fill : List Frame → Tree → List Frame × Place
  | [], tree => ([], .complete tree)
  | .array done :: frames, tree => (frames, .afterItem (tree :: done))
  | .member done key :: frames, tree => (frames, .afterMember ((key, tree) :: done))

def startValue (frames : List Frame) : Token → Option (List Frame × Place)
  | .null => some (fill frames .null)
  | .bool b => some (fill frames (.bool b))
  | .number n => some (fill frames (.number n))
  | .text pieces => some (fill frames (.text pieces))
  | .openArray => some (frames, .arrayStart)
  | .openObject => some (frames, .objectStart)
  | _ => none

def stepTree (frames : List Frame) (place : Place) (token : Token) :
    Option (List Frame × Place) :=
  match place with
  | .value => startValue frames token
  | .arrayStart =>
    if token = .closeArray then some (fill frames (.array []))
    else startValue (.array [] :: frames) token
  | .objectStart =>
    match token with
    | .closeObject => some (fill frames (.object []))
    | .text key => some (frames, .colon [] key)
    | _ => none
  | .afterItem done =>
    match token with
    | .comma => some (.array done :: frames, .value)
    | .closeArray => some (fill frames (.array done.reverse))
    | _ => none
  | .afterMember done =>
    match token with
    | .comma => some (frames, .key done)
    | .closeObject => some (fill frames (.object done.reverse))
    | _ => none
  | .key done =>
    match token with
    | .text key => some (frames, .colon done key)
    | _ => none
  | .colon done key =>
    match token with
    | .colon => some (.member done key :: frames, .value)
    | _ => none
  | .complete _ => none

def treeFrom (frames : List Frame) (place : Place) : List Token → Option Tree
  | [] =>
    match place with
    | .complete tree => some tree
    | _ => none
  | token :: rest =>
    match stepTree frames place token with
    | some (frames, place) => treeFrom frames place rest
    | none => none

/-- The structure of a whole text, if it is JSON. Nesting has no limit here: limits apply where a
value is made of a tree. -/
def Tree.ofText? (text : String) : Option Tree := do
  let tokens ← tokens? text.toList
  treeFrom [] .value tokens

end ChannelFeed.Json
