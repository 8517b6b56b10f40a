import ChannelFeed.Generation

namespace ChannelFeed

/-- The component that a reader calls its own, if any. -/
structure Scope where
  component : Option String
  deriving DecidableEq, Repr, Inhabited

namespace Scope

def all : Scope := ⟨none⟩

def of (component : String) : Scope := ⟨some component⟩

end Scope

/-- A generation seen from a scope. -/
structure View where
  generation : Generation
  scope : Scope
  deriving DecidableEq, Inhabited

namespace View

def get? (v : View) (a : Address) : Option Value := v.generation.get? a

/-- A channel of the scope's component. -/
def thisComponent? (v : View) (channel : String) : Option Value :=
  match v.scope.component with
  | some component => v.generation.get? ⟨component, channel⟩
  | none => none

/-- A channel by the text of its address. -/
def allComponents? (v : View) (key : String) : Option Value :=
  match Address.ofText? key with
  | some a => v.generation.get? a
  | none => none

/-- The channels of the scope's component with their values. -/
def thisComponent (v : View) : SortedMap String Value :=
  match v.scope.component with
  | some component =>
    .ofList ((v.generation.values.entries.filter (fun e => e.1.inComponent component)).map
      (fun e => (e.1.channel, e.2)))
  | none => .empty

/-- All channels with their values, by the text of their addresses. -/
def allComponents (v : View) : SortedMap String Value :=
  .ofList (v.generation.values.entries.map (fun e => (e.1.text, e.2)))

end View

end ChannelFeed
