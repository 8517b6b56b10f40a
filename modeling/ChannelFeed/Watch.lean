namespace ChannelFeed

/-- A watched value and how often it was set. -/
structure Watch (α : Type) where
  value : α
  changes : Nat
  deriving DecidableEq

namespace Watch

def init {α : Type} (value : α) : Watch α := ⟨value, 0⟩

def send {α : Type} (w : Watch α) (value : α) : Watch α := ⟨value, w.changes + 1⟩

/-- Whether the value was set since an observer looked. -/
def unseen {α : Type} (w : Watch α) (seen : Nat) : Bool := w.changes != seen

end Watch

end ChannelFeed
