namespace ChannelFeed

/-- A bounded queue with two ends. After the sender has gone the receiver still gets what is queued;
after either has gone nothing more can be sent. -/
structure Pipe (α : Type) where
  capacity : Nat
  queue : List α
  senderOpen : Bool
  receiverOpen : Bool
  deriving DecidableEq, Inhabited

/-- What became of a sent item. -/
inductive Sent where
  | ok
  | full
  | closed
  deriving DecidableEq, Repr

inductive Arrival (α : Type) where
  | item (item : α)
  | empty
  | closed
  deriving DecidableEq

namespace Pipe

variable {α : Type}

/-- No queue holds more than this. -/
def mostCapacity : Nat := 2305843009213693951

/-- An empty queue, if there can be one of that capacity. -/
def ofCapacity? (capacity : Nat) : Option (Pipe α) :=
  if 0 < capacity ∧ capacity ≤ mostCapacity then some ⟨capacity, [], true, true⟩ else none

def send (p : Pipe α) (item : α) : Pipe α × Sent :=
  if !p.receiverOpen || !p.senderOpen then (p, .closed)
  else if p.queue.length < p.capacity then ({ p with queue := p.queue ++ [item] }, .ok)
  else (p, .full)

def receive (p : Pipe α) : Pipe α × Arrival α :=
  match p.queue with
  | item :: rest => ({ p with queue := rest }, .item item)
  | [] => (p, if p.senderOpen then .empty else .closed)

def closeSender (p : Pipe α) : Pipe α := { p with senderOpen := false }

def closeReceiver (p : Pipe α) : Pipe α := { p with receiverOpen := false }

def takeAll (p : Pipe α) : Pipe α × List α := ({ p with queue := [] }, p.queue)

end Pipe

end ChannelFeed
