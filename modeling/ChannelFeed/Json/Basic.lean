import ChannelFeed.Json.Number
import ChannelFeed.Json.Tree
import ChannelFeed.Ordered.SortedMap

namespace ChannelFeed

/-- A JSON value. The members of an object are in ascending order of their keys, and of members with
one key the last counts. -/
inductive Json where
  | null
  | bool (b : Bool)
  | number (n : Json.Number)
  | text (s : String)
  | array (items : List Json)
  | object (members : List (String × Json))
  deriving Repr, Inhabited

namespace Json

/-- How deep containers may be nested in a value. -/
def depthLimit : Nat := 127

def text? (pieces : List Piece) : Option String := (decode? pieces).map String.ofList

/-- The value of a tree with at most `depth` containers around any part of it. -/
def ofTree? : Nat → Tree → Option Json
  | _, .null => some .null
  | _, .bool b => some (.bool b)
  | _, .number n => n.value?.map .number
  | _, .text pieces => (text? pieces).map .text
  | 0, .array _ => none
  | 0, .object _ => none
  | depth + 1, .array items => (items.mapM (ofTree? depth)).map .array
  | depth + 1, .object members => do
    let members ← members.mapM (fun (key, tree) => do
      let key ← text? key
      let value ← ofTree? depth tree
      some (key, value))
    some (.object (members.foldl (fun done (key, value) => insertKey key value done) []))

def ofText? (text : String) : Option Json := do
  let tree ← Tree.ofText? text
  ofTree? depthLimit tree

end Json

end ChannelFeed
