import ChannelFeed.Proofs.Edge.Telling
import ChannelFeed.Site.Basic

namespace ChannelFeed

def Home.isManaged : Home → Bool
  | managed => true
  | _ => false

/-- An edge, and whether it publishes on the manager's bus. -/
structure Seat where
  edge : Edge
  managed : Bool

namespace Site

open Session (publishedEvents_append)

variable {s : Site} {place : Nat}

def seats (s : Site) : List Seat := s.cells.map (fun c => ⟨c.edge, c.home.isManaged⟩)

/-- Everything that was published on the manager's bus. -/
def heard (s : Site) : List Event := s.manager.history.toList

/-- Whether the edge in a place publishes on the manager's bus. -/
def tells (s : Site) (place : Nat) : Bool := (s.seats[place]?).any Seat.managed

theorem seats_getElem? (s : Site) (place : Nat) :
    s.seats[place]? = (s.cells[place]?).map (fun c => ⟨c.edge, c.home.isManaged⟩) :=
  List.getElem?_map

theorem seats_length (s : Site) : s.seats.length = s.cells.length := List.length_map _

theorem edge?_eq (s : Site) (place : Nat) : s.edge? place = (s.seats[place]?).map Seat.edge := by
  rw [seats_getElem?, edge?, Option.map_map]
  rfl

theorem tells_of_home {home : Home} (h : (s.cells[place]?).map Cell.home = some home) :
    s.tells place = home.isManaged := by
  obtain ⟨c, hc, rfl⟩ := Option.map_eq_some_iff.mp h
  simp [tells, seats_getElem?, hc]

/-- An operation that leaves all edges and the members alone, and puts these events on the bus. -/
structure Publishes (s r : Site) (events : List Event) : Prop where
  seats : r.seats = s.seats
  members : r.members = s.members
  now : r.now = s.now
  heard : r.heard = s.heard ++ events

theorem Publishes.refl (s : Site) : s.Publishes s [] := ⟨rfl, rfl, rfl, (List.append_nil _).symm⟩

theorem aside_publishes {s r : Site} (cells : r.cells = s.cells) (members : r.members = s.members)
    (now : r.now = s.now) (history : r.manager.history = s.manager.history) : s.Publishes r [] where
  seats := by rw [seats, cells, seats]
  members := members
  now := now
  heard := by rw [heard, history, heard, List.append_nil]

theorem Publishes.trans {r q : Site} {events more : List Event} (h : s.Publishes r events)
    (h' : r.Publishes q more) : s.Publishes q (events ++ more) where
  seats := h'.seats.trans h.seats
  members := h'.members.trans h.members
  now := h'.now.trans h.now
  heard := by rw [h'.heard, h.heard, List.append_assoc]

theorem rehouse_publishes {bus : Bus} (h : (s.cells[place]?).map Cell.home = some (.own bus))
    (bus' : Bus) : s.Publishes (s.modifyCell place (fun c => { c with home := .own bus' })) [] := by
  obtain ⟨c, hc, hhome⟩ := Option.map_eq_some_iff.mp h
  refine ⟨List.ext_getElem? (fun k => ?_), rfl, rfl, (List.append_nil _).symm⟩
  rw [seats_getElem?, seats_getElem?, modifyCell, List.getElem?_modify]
  by_cases hk : place = k
  · subst hk
    simp [hc, hhome, Home.isManaged]
  · simp [hk]

theorem publishAt_publishes (s : Site) (place : Nat) (event : Event) :
    s.Publishes (s.publishAt place event) (if s.tells place then [event] else []) := by
  unfold publishAt
  split
  · rename_i h
    rw [tells_of_home h]
    exact aside_publishes rfl rfl rfl rfl
  · rename_i h
    rw [tells_of_home h]
    exact ⟨rfl, rfl, rfl, by simp [heard, Bus.publish, Home.isManaged]⟩
  · rename_i bus h
    rw [tells_of_home h]
    exact rehouse_publishes h _
  · rename_i h
    have hnone : s.cells[place]? = none := Option.map_eq_none_iff.mp h
    have htells : s.tells place = false := by simp [tells, seats_getElem?, hnone]
    rw [htells]
    exact .refl s

theorem log_publishes (s : Site) (place : Nat) (notes : List Note) :
    s.Publishes (s.log place notes) (if s.tells place then publishedEvents notes else []) := by
  have hfold : ∀ (events : List Event) (s : Site),
      s.Publishes (events.foldl (fun s event => s.publishAt place event) s)
        (if s.tells place then events else []) := by
    intro events
    induction events with
    | nil =>
      intro s
      rw [ite_self]
      exact .refl s
    | cons event rest ih =>
      intro s
      have hfirst := publishAt_publishes s place event
      have hrest := ih (s.publishAt place event)
      have hsame : (s.publishAt place event).tells place = s.tells place := by
        rw [tells, hfirst.seats, tells]
      rw [hsame] at hrest
      have hboth := hfirst.trans hrest
      cases hm : s.tells place <;> simpa [hm] using hboth
  have hnoted : s.Publishes { s with notes := s.notes ++ notes } [] :=
    aside_publishes rfl rfl rfl rfl
  exact hnoted.trans (hfold (publishedEvents notes) _)

theorem lineUp_publishes (s : Site) (place : Nat) : s.Publishes (s.lineUp place) [] := by
  unfold lineUp
  split
  · exact .refl s
  · exact aside_publishes rfl rfl rfl rfl

/-- An edge whose notes were carried off. -/
def settled (e : Edge) : Edge := { e.collect with notes := [] }

/-- A change of one edge: its seat has the changed edge, and its events are on the bus. -/
structure Changes (s r : Site) (place : Nat) (f : Edge → Edge) : Prop where
  seats : r.seats = s.seats.modify place (fun c => { c with edge := settled (f c.edge) })
  members : r.members = s.members
  now : r.now = s.now
  heard : r.heard = s.heard ++
    (s.seats[place]?).elim [] (fun c => if c.managed then (f c.edge).events else [])

theorem changeEdge_changes (s : Site) (place : Nat) (f : Edge → Edge) :
    s.Changes (s.changeEdge place f) place f := by
  unfold changeEdge
  rw [edge?_eq]
  cases hc : s.seats[place]? with
  | none =>
    dsimp only [Option.map_none]
    refine ⟨?_, rfl, rfl, by simp [hc]⟩
    rw [List.modify_eq_self (List.getElem?_eq_none_iff.mp hc)]
  | some c =>
    dsimp only [Option.map_some]
    have hevents : publishedEvents (f c.edge).collect.notes = (f c.edge).events := rfl
    have hpublishes := (log_publishes (s.modifyCell place (fun c' => { c' with
      edge := settled (f c.edge) })) place (f c.edge).collect.notes).trans (lineUp_publishes _ place)
    have hseats : (s.modifyCell place (fun c' => { c' with
        edge := settled (f c.edge) })).seats =
          s.seats.modify place (fun c => { c with edge := settled (f c.edge) }) := by
      refine List.ext_getElem? (fun k => ?_)
      rw [seats_getElem?, List.getElem?_modify, seats_getElem?, modifyCell, List.getElem?_modify]
      by_cases hk : place = k
      · subst hk
        rw [seats_getElem?] at hc
        obtain ⟨c', hc', rfl⟩ := Option.map_eq_some_iff.mp hc
        simp [hc']
      · simp [hk]
    have htells : (s.modifyCell place (fun c' => { c' with
        edge := settled (f c.edge) })).tells place = c.managed := by
      rw [tells, hseats, List.getElem?_modify_eq, hc]
      rfl
    rw [htells, hevents, List.append_nil] at hpublishes
    refine ⟨hpublishes.seats.trans hseats, hpublishes.members, hpublishes.now, ?_⟩
    rw [hc]
    exact hpublishes.heard

end Site

end ChannelFeed
