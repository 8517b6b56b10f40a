import ChannelFeed.Note

namespace ChannelFeed

/-- A bus with everything ever published on it, of which listeners reach the last `capacity`. -/
structure Bus where
  capacity : Nat
  history : Array Event
  listeners : Nat
  closed : Bool
  deriving DecidableEq, Inhabited

/-- A listener's place in the history, and the edge it is narrowed to. -/
structure Stream where
  position : Nat
  edge : Option String
  deriving DecidableEq, Inhabited

/-- What a listener finds at its place. -/
inductive Received where
  | event (event : Event)
  | lagged (skipped : Nat)
  | empty
  | closed
  deriving DecidableEq, Repr

namespace Bus

def defaultCapacity : Nat := 256

/-- No bus keeps more events than this. -/
def mostCapacity : Nat := 72057594037927936

/-- A bus that keeps at least so many events, if there can be one. -/
def ofCapacity? (capacity : Nat) : Option Bus :=
  if 0 < capacity ∧ capacity ≤ mostCapacity then some ⟨capacity.nextPowerOfTwo, #[], 0, false⟩
  else none

def standard : Bus := ⟨defaultCapacity, #[], 0, false⟩

def publish (b : Bus) (e : Event) : Bus := { b with history := b.history.push e }

/-- A new listener starts behind everything published so far. -/
def listen (b : Bus) (edge : Option String) : Bus × Stream :=
  ({ b with listeners := b.listeners + 1 }, ⟨b.history.size, edge⟩)

def unlisten (b : Bus) : Bus := { b with listeners := b.listeners - 1 }

def close (b : Bus) : Bus := { b with closed := true }

/-- The oldest place whose event is kept. -/
def oldest (b : Bus) : Nat := b.history.size - b.capacity

/-- What is found at a place, and the place after it. -/
def take (b : Bus) (position : Nat) : Received × Nat :=
  if position < b.oldest then (.lagged (b.oldest - position), b.oldest)
  else
    match b.history[position]? with
    | some e => (.event e, position + 1)
    | none => (if b.closed then .closed else .empty, position)

theorem take_position (b : Bus) (position : Nat) :
    (∃ e, b.take position = (.event e, position + 1) ∧ position < b.history.size) ∨
      (b.take position = (.lagged (b.oldest - position), b.oldest) ∧ position < b.oldest) ∨
      b.take position = (.empty, position) ∨ b.take position = (.closed, position) := by
  unfold take
  split
  · simp_all
  · split
    · rename_i e he
      exact .inl ⟨e, rfl, (Array.getElem?_eq_some_iff.1 he).1⟩
    · cases b.closed <;> simp

end Bus

namespace Stream

def accepts (s : Stream) (e : Event) : Bool :=
  match s.edge with
  | some edge => e.edge == edge
  | none => true

/-- The next event for a listener, past the events of other edges and past what it missed, which is
noted; without one, whether the bus has closed. -/
def next (s : Stream) (b : Bus) : Received × Stream × List Note :=
  match _h : b.take s.position with
  | (.event e, position) =>
    if s.accepts e then (.event e, { s with position }, [])
    else next { s with position } b
  | (.lagged skipped, position) =>
    let (received, s, notes) := next { s with position } b
    (received, s, .lagged skipped :: notes)
  | (other, position) => (other, { s with position }, [])
termination_by b.history.size - s.position
decreasing_by
  · rcases b.take_position s.position with ⟨e', he, hlt⟩ | ⟨he, _⟩ | he | he <;>
      rw [he] at _h <;> simp_all
    omega
  · rcases b.take_position s.position with ⟨e', he, _⟩ | ⟨he, hlt⟩ | he | he <;>
      rw [he] at _h <;> simp_all
    have : b.oldest ≤ b.history.size := Nat.sub_le _ _
    obtain ⟨-, rfl⟩ := _h
    omega

def tryNext (s : Stream) (b : Bus) : Option Event × Stream × List Note :=
  match next s b with
  | (.event e, s, notes) => (some e, s, notes)
  | (_, s, notes) => (none, s, notes)

def drain (s : Stream) (b : Bus) : List Event × Stream × List Note :=
  go (b.history.size + 1) s
where
  go : Nat → Stream → List Event × Stream × List Note
    | 0, s => ([], s, [])
    | n + 1, s =>
      match s.tryNext b with
      | (some e, s, notes) =>
        let (events, s, more) := go n s
        (e :: events, s, notes ++ more)
      | (none, s, notes) => ([], s, notes)

end Stream

end ChannelFeed
