import ChannelFeed.Proofs.Site.Seats

namespace ChannelFeed.Site

/-- Shuts one managed edge down that was taken from the manager. -/
def retire (s : Site) (member : String × Nat) : Site :=
  ((s.changeEdge member.2 Edge.shutdown).log member.2
    [.published (.removed member.1)]).disposeUnheld member.2

/-- Takes all edges from the manager and shuts them down in a given order. -/
def shutdownIn (s : Site) (order : List (String × Nat)) : Site :=
  order.foldl retire { s with members := .empty }

inductive Act where
  | add (c : Config) (connector : Connector)
  | addConfigured (c : Config)
  | remove (edge : String)
  | shutdownAll (order : List (String × Nat))
  | openShared (c : Config) (connector : Connector)
  | openOwn (c : Config)
  | edge (place : Nat) (acts : List Edge.Act)
  | letGo (place : Nat)
  | journal (place : Nat)
  | pass (ms : Nat)
  | listen (edge : Option String)
  | listenShared (edge : Option String)
  | listenTo (place : Nat) (edge : String)
  /-- Turns are taken off the queue and timers are set. -/
  | arrange (queue timers : List Turn)
  | collect

def act (s : Site) : Act → Except Fault Site
  | .add c connector => (s.add c connector).map Prod.fst
  | .addConfigured c => (s.addConfigured c).map Prod.fst
  | .remove edge => s.remove edge
  | .shutdownAll order => .ok (s.shutdownIn order)
  | .openShared c connector => (s.openShared c connector).map Prod.fst
  | .openOwn c => (s.openOwn c).map Prod.fst
  | .edge place acts => .ok (s.changeEdge place (fun e => e.run acts))
  | .letGo place => .ok (s.letGo place)
  | .journal place =>
    .ok (s.changeEdge place (fun e => { e with panel := { e.panel with journal := [] } }))
  | .pass ms =>
    let now := s.now + ms
    .ok { s with now, cells := s.cells.map (fun c => { c with edge := c.edge.atTime now }) }
  | .listen edge => .ok { s with manager := (s.manager.listen edge).1 }
  | .listenShared edge => .ok { s with shared := (s.shared.listen edge).1 }
  | .listenTo place edge => .ok (s.listenTo place edge).1
  | .arrange queue timers => .ok { s with queue, timers }
  | .collect => .ok { s with notes := #[] }

/-- What can happen: a connector promises no link before a device has made one, all managed edges are
shut down when all are, and what happens to an edge is its own affair. -/
def CanBefall (s : Site) : Act → Prop
  | .add _ connector => connector.links = []
  | .openShared _ connector => connector.links = []
  | .shutdownAll order => order.Perm s.members.entries
  | .edge _ acts => ∀ x ∈ acts, x.isInner = true
  | _ => True

/-- The site afterwards; what is refused changes nothing. -/
def next (s : Site) (x : Act) : Site :=
  match s.act x with
  | .ok t => t
  | .error _ => s

theorem next_ok {s t : Site} {x : Act} (h : s.act x = .ok t) : s.next x = t := by
  rw [next, h]

theorem next_error {s : Site} {x : Act} {fault : Fault} (h : s.act x = .error fault) :
    s.next x = s := by
  rw [next, h]

/-- The past of a site: the states it was in, each with what happened then. -/
abbrev Past := List (Site × Act)

/-- A site that has come through a past. -/
inductive Reached : Past → Site → Prop where
  | start {capacity source : Nat} {s : Site} (made : ofCapacity? capacity source = some s) :
      Reached [] s
  | act {past : Past} {s : Site} {x : Act} (earlier : Reached past s) (can : s.CanBefall x) :
      Reached (past ++ [(s, x)]) (s.next x)

instance (s : Site) (x : Act) : Decidable (s.CanBefall x) :=
  match x with
  | .add _ connector => inferInstanceAs (Decidable (connector.links = []))
  | .openShared _ connector => inferInstanceAs (Decidable (connector.links = []))
  | .shutdownAll order => inferInstanceAs (Decidable (order.Perm s.members.entries))
  | .edge _ acts => inferInstanceAs (Decidable (∀ x ∈ acts, x.isInner = true))
  | .addConfigured _ | .remove _ | .openOwn _ | .letGo _ | .journal _ | .pass _ | .listen _
  | .listenShared _ | .listenTo _ _ | .arrange _ _ | .collect => inferInstanceAs (Decidable True)

def next? (s : Site) (x : Act) : Option Site := if s.CanBefall x then some (s.next x) else none

theorem Reached.of_next {past : Past} {s t : Site} {x : Act} (h : Reached past s)
    (hx : s.next? x = some t) : Reached (past ++ [(s, x)]) t := by
  unfold next? at hx
  split at hx
  · rename_i can
    cases hx
    exact h.act can
  · cases hx

/-- Acts that can be replayed make a run, of which a test tells what it comes to. -/
theorem Reached.of_replay {past : Past} {s : Site} (h : Reached past s) (acts : List Act)
    (test : Past → Site → Bool)
    (passes : (replay next? past s acts).any (fun run => test run.1 run.2) = true) :
    ∃ past' s', Reached past' s' ∧ past'.map Prod.snd = past.map Prod.snd ++ acts ∧
      test past' s' = true := by
  obtain ⟨run, hrun, htest⟩ := (Option.any_eq_true _ _).mp passes
  exact ⟨run.1, run.2, replay_kept (fun _ _ _ _ => Reached.of_next) h hrun, replay_steps hrun, htest⟩

def fresh : Site := ⟨0, 0, [], [], [], .empty, .standard, .standard, #[]⟩

theorem fresh_reached : Reached [] fresh := by
  have hbus : Bus.ofCapacity? Bus.defaultCapacity = some .standard := by decide +kernel
  have hmade : ofCapacity? Bus.defaultCapacity 0 = some fresh := by
    rw [ofCapacity?, hbus]
    rfl
  exact .start hmade

end ChannelFeed.Site
