namespace ChannelFeed

structure Gate where
  last : Option Nat
  deriving DecidableEq, Repr, Inhabited

namespace Gate

def fresh : Gate := ⟨none⟩

def accepts (g : Gate) (sequence : Nat) : Bool :=
  match g.last with
  | some last => decide (last < sequence)
  | none => true

/-- Lets a number pass if it is above the last one. -/
def pass (g : Gate) (sequence : Nat) : Gate × Bool :=
  if g.accepts sequence then (⟨some sequence⟩, true) else (g, false)

end Gate

end ChannelFeed
