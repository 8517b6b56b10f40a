import ChannelFeed.Note
import ChannelFeed.View
import ChannelFeed.Watch

namespace ChannelFeed

structure Entry where
  handle : Nat
  scope : Scope
  addresses : AddressSet
  deriving DecidableEq, Inhabited

/-- Who wants which channels. The version goes up whenever an address enters or leaves the union of
all declarations, and whoever watches it is told. -/
structure Registry where
  nextHandle : Nat
  entries : SortedMap String Entry
  /-- The subscriber that each live handle belongs to. -/
  owners : SortedMap Nat String
  counts : SortedMap Address Nat
  version : Nat
  /-- The version as it is watched. -/
  announced : Watch Nat
  deriving DecidableEq

namespace Registry

def empty : Registry := ⟨1, .empty, .empty, .empty, 0, .init 0⟩

instance : Inhabited Registry := ⟨empty⟩

/-- Counts one more declaration of an address; true if it was the first. -/
def acquire (counts : SortedMap Address Nat) (a : Address) : SortedMap Address Nat × Bool :=
  match counts.get? a with
  | some n => (counts.insert a (n + 1), false)
  | none => (counts.insert a 1, true)

/-- Counts one declaration of an address less; true if it was the last. -/
def release (counts : SortedMap Address Nat) (a : Address) : SortedMap Address Nat × Bool :=
  match counts.get? a with
  | some n => if 1 < n then (counts.insert a (n - 1), false) else (counts.erase a, true)
  | none => (counts, false)

/-- Does one of the two to each address; true if the union changed at any of them. -/
def countAll (count : SortedMap Address Nat → Address → SortedMap Address Nat × Bool)
    (counts : SortedMap Address Nat) (addresses : List Address) :
    SortedMap Address Nat × Bool :=
  addresses.foldl (fun (counts, changed) a =>
    let (counts, changed') := count counts a
    (counts, changed || changed')) (counts, false)

/-- Takes out what a subscriber declared; true if the union changed. -/
def removeEntry (r : Registry) (subscriber : String) : Registry × Bool :=
  match r.entries.get? subscriber with
  | none => (r, false)
  | some entry =>
    let (counts, changed) := countAll release r.counts entry.addresses.toList
    ({ r with
        entries := r.entries.erase subscriber
        owners := r.owners.erase entry.handle
        counts }, changed)

def bump (r : Registry) : Registry :=
  { r with version := r.version + 1, announced := r.announced.send (r.version + 1) }

/-- Puts a declaration in the place of the subscriber's former one and gives it a fresh handle. The
new addresses are counted first, so those that stay never leave the union. An empty declaration only
takes the former one out. -/
def insert (r : Registry) (subscriber : String) (scope : Scope) (addresses : AddressSet) :
    Registry × Nat :=
  let handle := r.nextHandle
  let (counts, entered) := countAll acquire r.counts addresses.toList
  let (r, left) := { r with nextHandle := handle + 1, counts }.removeEntry subscriber
  let r :=
    if addresses.isEmpty then r
    else { r with
      owners := r.owners.insert handle subscriber
      entries := r.entries.insert subscriber ⟨handle, scope, addresses⟩ }
  (if entered || left then r.bump else r, handle)

/-- The scope of a declaration that names none: the component of its first address. -/
def scopeOfFirst : List Address → Scope
  | first :: _ => .of first.component
  | [] => .all

/-- Declares what a subscriber wants, under a given component or that of the first address. -/
def register (r : Registry) (subscriber : String) (component : Option String)
    (addresses : List Address) : Registry × Nat :=
  let scope := match component with
    | some component => .of component
    | none => scopeOfFirst addresses
  r.insert subscriber scope (.ofList addresses)

/-- Takes out the declaration of a handle; a handle that is not live changes nothing. -/
def unregister (r : Registry) (handle : Nat) : Registry × Bool :=
  match r.owners.get? handle with
  | none => (r, false)
  | some subscriber =>
    let (r, changed) := r.removeEntry subscriber
    (if changed then r.bump else r, true)

def registerNotes (subscriber : String) (addresses : List Address) (handle : Nat) : List Note :=
  [.registering subscriber handle (SortedSet.ofList addresses).size]

def unregisterNotes (r : Registry) (handle : Nat) : List Note :=
  match r.owners.get? handle with
  | some subscriber => [.unregistering subscriber handle]
  | none => []

theorem ascending_counts (r : Registry) :
    Ascending (r.counts.entries.map Prod.fst) :=
  List.pairwise_map.2 r.counts.ascending

/-- Every address that some declaration holds. -/
def union (r : Registry) : AddressSet := ⟨r.counts.entries.map Prod.fst, r.ascending_counts⟩

def contains (r : Registry) (a : Address) : Bool := r.counts.contains a

def addressesOf? (r : Registry) (subscriber : String) : Option AddressSet :=
  (r.entries.get? subscriber).map Entry.addresses

def scopeOf? (r : Registry) (subscriber : String) : Option Scope :=
  (r.entries.get? subscriber).map Entry.scope

def subscriberOf? (r : Registry) (handle : Nat) : Option String := r.owners.get? handle

def size (r : Registry) : Nat := r.entries.size

def report (r : Registry) : String :=
  "SubscriptionRegistry \x7b subscribers: " ++ toString r.size ++ ", union: " ++
    toString r.counts.size ++ ", version: " ++ toString r.version ++ ", .. \x7d"

end Registry

end ChannelFeed
