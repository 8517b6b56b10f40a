import ChannelFeed.Fault
import ChannelFeed.Json.Basic
import ChannelFeed.Value

namespace ChannelFeed

/-- A frame by its members. It is written as an object or as an array of its fields in their order;
members that it does not know are not looked into, and none that it knows may be repeated. -/
structure Envelope where
  id : Option Json
  method : Option String
  params : Option Json
  /-- Whether there is a result, be it null. -/
  hasResult : Bool
  error : Option Rejection

structure ReportParams where
  sequence : Nat
  values : List (String × Json)

namespace Json

/-- The members of an object by the texts of their keys. -/
def keyed? (members : List (List Piece × Tree)) : Option (List (String × Tree)) :=
  members.mapM (fun (key, tree) => (text? key).map (fun key => (key, tree)))

/-- The member of a key, if there is one; nothing is read if there are several. -/
def member? (members : List (String × Tree)) (key : String) : Option (Option Tree) :=
  match members.filter (fun entry => entry.1 == key) with
  | [] => some none
  | [(_, tree)] => some (some tree)
  | _ => none

/-- A member that counts as missing when it is null. -/
def optional? {α : Type} (read : Tree → Option α) : Option Tree → Option (Option α)
  | none => some none
  | some .null => some none
  | some tree => (read tree).map some

def asText? : Tree → Option String
  | .text pieces => text? pieces
  | _ => none

/-- An integer of 64 bits written as one. -/
def asInteger? : Tree → Option Int
  | .number n =>
    match n.value? with
    | some (.whole i) => if Value.inIntegers i then some i else none
    | _ => none
  | _ => none

end Json

namespace Rejection

def ofFields? (code message : Json.Tree) : Option Rejection := do
  let code ← Json.asInteger? code
  let message ← Json.asText? message
  some ⟨code, message⟩

def ofTree? : Json.Tree → Option Rejection
  | .array [code, message] => ofFields? code message
  | .object members => do
    let members ← Json.keyed? members
    let code ← Json.member? members "code"
    let message ← Json.member? members "message"
    ofFields? (← code) (← message)
  | _ => none

end Rejection

namespace Envelope

/-- How deep a member may be nested, the frame itself being one container. -/
def memberDepth : Nat := Json.depthLimit - 1

def ofFields? (id method params result error : Option Json.Tree) : Option Envelope := do
  let value := Json.ofTree? memberDepth
  let id ← Json.optional? value id
  let method ← Json.optional? Json.asText? method
  let params ← Json.optional? value params
  let hasResult ← match result with
    | none => some false
    | some tree => (value tree).map (fun _ => true)
  let error ← Json.optional? Rejection.ofTree? error
  some ⟨id, method, params, hasResult, error⟩

def ofTree? : Json.Tree → Option Envelope
  | .array items =>
    if items.length ≤ 5 then ofFields? items[0]? items[1]? items[2]? items[3]? items[4]? else none
  | .object members => do
    let members ← Json.keyed? members
    let id ← Json.member? members "id"
    let method ← Json.member? members "method"
    let params ← Json.member? members "params"
    let result ← Json.member? members "result"
    let error ← Json.member? members "error"
    ofFields? id method params result error
  | _ => none

def ofText? (text : String) : Option Envelope := do
  let tree ← Json.Tree.ofText? text
  ofTree? tree

end Envelope

namespace ReportParams

def ofFields? : Json → Json → Option ReportParams
  | .number (.whole sequence), .object values =>
    if 0 ≤ sequence then some ⟨sequence.toNat, values⟩ else none
  | _, _ => none

def ofJson? : Json → Option ReportParams
  | .array [sequence, values] => ofFields? sequence values
  | .object members => do
    let sequence ← lookupKey "sequence" members
    let values ← lookupKey "currentData" members
    ofFields? sequence values
  | _ => none

end ReportParams

end ChannelFeed
