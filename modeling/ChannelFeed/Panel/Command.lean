import ChannelFeed.Charge.Decoder
import ChannelFeed.Fault
import ChannelFeed.View

namespace ChannelFeed

inductive Command where
  | subscribe (subscriber : String) (component : Option String) (addresses : List Address)
      (script : List (Nat × List Command))
  | unsubscribe (widget : Nat)
  | release (widget : Nat)
  | drop (widget : Nat)
  | view (subscriber : String)
  | apply (snapshot : Snapshot) (publish : Bool)
  | republish
  /-- The one who gives commands lets go of the dispatcher. -/
  | retire
  /-- The callback fails. -/
  | panic
  /-- A command that could not be read. -/
  | refuse (fault : ReadFault)
  deriving Inhabited

/-- Commands by the number of the call that runs them. -/
abbrev Script := List (Nat × List Command)

namespace Command

mutual

/-- How many commands a command contains, itself included. -/
def weight : Command → Nat
  | subscribe _ _ _ script => weightOfScript script + 1
  | _ => 1

def weightOfScript : List (Nat × List Command) → Nat
  | [] => 0
  | (_, commands) :: rest => weightOfList commands + weightOfScript rest

def weightOfList : List Command → Nat
  | [] => 0
  | command :: rest => command.weight + weightOfList rest

end

end Command

def Script.at (script : Script) (call : Nat) : List Command :=
  match script.find? (fun entry => entry.1 == call) with
  | some (_, commands) => commands
  | none => []

/-- What a subscription does when it is called. -/
inductive Callback where
  | scripted (script : Script)
  | decoded (decoder : Charge.Decoder)
  deriving Inhabited

def Callback.weight : Callback → Nat
  | scripted script => Command.weightOfScript script
  | decoded _ => 0

inductive Reply where
  | nothing
  | flag (b : Bool)
  | installed (widget handle : Nat)
  | view (v : Option View)
  | generation (number : Nat)
  | refused (fault : ReadFault)
  /-- What the command is about is no longer there. -/
  | gone
  deriving DecidableEq, Inhabited

/-- What the callbacks of widgets wrote down. -/
inductive Delivery where
  | called (widget call : Nat) (view : View)
  | replied (widget call : Nat) (reply : Reply)
  | decoded (widget : Nat) (status : Charge.Status)
  deriving DecidableEq

end ChannelFeed
