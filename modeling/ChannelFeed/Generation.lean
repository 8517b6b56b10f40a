import ChannelFeed.Address
import ChannelFeed.Value

namespace ChannelFeed

/-- What a device reported at once; an absent value takes the channel's value away. -/
structure Snapshot where
  sequence : Nat
  values : SortedMap Address (Option Value)
  deriving DecidableEq

/-- All values known after a number of snapshots. -/
structure Generation where
  number : Nat
  /-- The sequence number of the last snapshot. -/
  sequence : Option Nat
  values : SortedMap Address Value
  touched : AddressSet
  deriving DecidableEq

namespace Generation

def empty : Generation := ⟨0, none, .empty, .empty⟩

instance : Inhabited Generation := ⟨empty⟩

def record (values : SortedMap Address Value) (a : Address) :
    Option Value → SortedMap Address Value
  | some v => values.insert a v
  | none => values.erase a

def next (g : Generation) (s : Snapshot) : Generation where
  number := g.number + 1
  sequence := some s.sequence
  values := s.values.entries.foldl (fun values e => record values e.1 e.2) g.values
  touched := s.values.entries.foldl (fun touched e => touched.insert e.1) .empty

def get? (g : Generation) (a : Address) : Option Value := g.values.get? a

def size (g : Generation) : Nat := g.values.size

/-- Whether the last snapshot mentioned one of the addresses; the smaller set is gone through. -/
def touchesAny (g : Generation) (addresses : AddressSet) : Bool :=
  if addresses.size < g.touched.size then addresses.toList.any (fun a => decide (a ∈ g.touched))
  else g.touched.toList.any (fun a => decide (a ∈ addresses))

def applyAll (g : Generation) (snapshots : List Snapshot) : Generation :=
  snapshots.foldl next g

end Generation

end ChannelFeed
