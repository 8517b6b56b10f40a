import ChannelFeed.Registry

namespace ChannelFeed

/-- A subscription as deliveries see it. It takes part in one once a snapshot mentioned one of its
addresses, until it is removed or muted. -/
structure Slot where
  subscriber : String
  scope : Scope
  addresses : AddressSet
  /-- Whether a snapshot has mentioned one of the addresses. -/
  primed : Bool
  /-- False once its callback has failed. -/
  active : Bool
  /-- Whose callback it is. -/
  widget : Nat
  deriving DecidableEq, Inhabited

structure Dispatcher where
  registry : Registry
  generation : Generation
  slots : SortedMap Nat Slot
  deriving DecidableEq, Inhabited

namespace Dispatcher

def empty : Dispatcher := ⟨.empty, .empty, .empty⟩

def handlesOf (d : Dispatcher) (subscriber : String) : List Nat :=
  (d.slots.entries.filter (fun e => e.2.subscriber == subscriber)).map Prod.fst

/-- Declares a subscription and gives it a slot in the place of the subscriber's former one; an empty
declaration gets none. -/
def install (d : Dispatcher) (subscriber : String) (component : Option String)
    (addresses : List Address) (widget : Nat) : Dispatcher × Nat :=
  let (registry, handle) := d.registry.register subscriber component addresses
  let scope := (registry.scopeOf? subscriber).getD .all
  let slots := (d.handlesOf subscriber).foldl SortedMap.erase d.slots
  let slots :=
    if (registry.subscriberOf? handle).isSome then
      slots.insert handle ⟨subscriber, scope, .ofList addresses, false, true, widget⟩
    else slots
  ({ d with registry, slots }, handle)

def installNotes (subscriber : String) (addresses : List Address) (handle : Nat) : List Note :=
  Registry.registerNotes subscriber addresses handle ++ [.subscribed subscriber handle]

/-- Takes a subscription out; true if its handle was live. -/
def unsubscribe (d : Dispatcher) (handle : Nat) : Dispatcher × Bool :=
  let (registry, unregistered) := d.registry.unregister handle
  match d.slots.get? handle with
  | some _ => ({ d with registry, slots := d.slots.erase handle }, true)
  | none => ({ d with registry }, unregistered)

def unsubscribeNotes (d : Dispatcher) (handle : Nat) : List Note :=
  d.registry.unregisterNotes handle ++
    match d.slots.get? handle with
    | some slot => [.unsubscribed slot.subscriber handle]
    | none => []

def merge (d : Dispatcher) (s : Snapshot) : Dispatcher :=
  { d with generation := d.generation.next s }

def mergeNotes (d : Dispatcher) (s : Snapshot) : List Note :=
  let g := d.generation.next s
  [.snapshotMerged g.number s.sequence g.touched.size]

/-- The slot of a handle, if the delivery of a generation has to call it. -/
def due? (d : Dispatcher) (g : Generation) (handle : Nat) : Option Slot :=
  (d.slots.get? handle).filter (fun slot =>
    slot.active && (slot.primed || g.touchesAny slot.addresses))

def adjust (d : Dispatcher) (handle : Nat) (f : Slot → Slot) : Dispatcher :=
  match d.slots.get? handle with
  | some slot => { d with slots := d.slots.insert handle (f slot) }
  | none => d

def prime (d : Dispatcher) (handle : Nat) : Dispatcher :=
  d.adjust handle (fun slot => { slot with primed := true })

def mute (d : Dispatcher) (handle : Nat) : Dispatcher :=
  d.adjust handle (fun slot => { slot with active := false })

/-- The current generation as a subscriber sees it. -/
def view? (d : Dispatcher) (subscriber : String) : Option View :=
  (d.registry.scopeOf? subscriber).map (fun scope => ⟨d.generation, scope⟩)

def size (d : Dispatcher) : Nat := d.slots.size

def report (d : Dispatcher) : String :=
  "SubscriberDispatcher \x7b subscriptions: " ++ toString d.size ++ ", .. \x7d"

end Dispatcher

end ChannelFeed
