import ChannelFeed.Proofs.Ordered.Entries
import ChannelFeed.Proofs.Site.Roster
import ChannelFeed.Proofs.Site.Run

namespace ChannelFeed.Site

variable {s t u : Site} {member member' member'' : String → Option Nat} {place : Nat} {id : String}

/-- The edges of a site, those of them that a table names and what the manager's bus has heard agree,
and all clocks show the same time. -/
structure Orderly (s : Site) (member : String → Option Nat) : Prop where
  roster : Roster s.seats member s.heard
  clock : ∀ c ∈ s.seats, c.edge.session.now = s.now

/-- No edge loses its seat. -/
def Stays (s t : Site) : Prop :=
  ∀ (place : Nat) (c : Seat), s.seats[place]? = some c →
    ∃ c' : Seat, t.seats[place]? = some c' ∧ c'.edge.id = c.edge.id ∧ c'.managed = c.managed

/-- From a site in agreement with a table to a site in agreement with another. -/
structure Leads (s : Site) (member : String → Option Nat) (t : Site)
    (member' : String → Option Nat) : Prop where
  orderly : s.Orderly member → t.Orderly member'
  stays : s.Stays t

theorem Stays.of_seats (h : t.seats = s.seats) : s.Stays t :=
  fun _ c hc => ⟨c, h ▸ hc, rfl, rfl⟩

theorem Stays.trans (h : s.Stays t) (h' : t.Stays u) : s.Stays u := by
  intro place c hc
  obtain ⟨c', hc', hid, hmanaged⟩ := h place c hc
  obtain ⟨c'', hc'', hid', hmanaged'⟩ := h' place c' hc'
  exact ⟨c'', hc'', hid'.trans hid, hmanaged'.trans hmanaged⟩

theorem Leads.trans (h : s.Leads member t member') (h' : t.Leads member' u member'') :
    s.Leads member u member'' where
  orderly hs := h'.orderly (h.orderly hs)
  stays := h.stays.trans h'.stays

theorem Publishes.leads (h : s.Publishes t []) : s.Leads member t member where
  orderly hs := by
    refine ⟨?_, ?_⟩
    · rw [h.seats, h.heard, List.append_nil]
      exact hs.roster
    · rw [h.seats, h.now]
      exact hs.clock
  stays := .of_seats h.seats

theorem aside_leads (cells : t.cells = s.cells) (members : t.members = s.members)
    (now : t.now = s.now) (history : t.manager.history = s.manager.history) :
    s.Leads s.members.get? t t.members.get? := by
  rw [members]
  exact (aside_publishes cells members now history).leads

theorem changeEdge_leads (s : Site) (place : Nat) {f : Edge → Edge}
    (goes : ∀ e : Edge, ∃ told, e.Goes (f e) told) :
    s.Leads member (s.changeEdge place f) member := by
  have hchange := changeEdge_changes s place f
  cases hc : s.seats[place]? with
  | none =>
    have hsame : s.Publishes (s.changeEdge place f) [] := by
      refine ⟨?_, hchange.members, hchange.now, ?_⟩
      · rw [hchange.seats, List.modify_eq_self (List.getElem?_eq_none_iff.mp hc)]
      · rw [hchange.heard, hc]
        rfl
    exact hsame.leads
  | some c =>
    obtain ⟨told, hgoes⟩ := goes c.edge
    refine ⟨fun hs => ⟨?_, ?_⟩, ?_⟩
    · have hsilent := (hs.roster.sound c (List.mem_of_getElem? hc)).silent
      have htold : (f c.edge).events = told := by rw [hgoes.events, hsilent, List.nil_append]
      rw [hchange.seats, hchange.heard, hc, Option.elim_some, htold]
      exact hs.roster.change hc hgoes
    · intro c' hc'
      rw [hchange.seats] at hc'
      rw [hchange.now]
      obtain ⟨k, hk⟩ := List.mem_iff_getElem?.mp hc'
      rcases getElem?_modify_cases hc hk with ⟨_, rfl⟩ | ⟨_, hwas⟩
      · exact hgoes.now.trans (hs.clock c (List.mem_of_getElem? hc))
      · exact hs.clock c' (List.mem_of_getElem? hwas)
    · intro k c' hk
      by_cases hplace : place = k
      · subst hplace
        rw [hc] at hk
        cases hk
        refine ⟨{ c with edge := settled (f c.edge) }, ?_, hgoes.id, rfl⟩
        rw [hchange.seats]
        simp [hc]
      · refine ⟨c', ?_, rfl, rfl⟩
        rw [hchange.seats]
        simp [hplace, hk]

theorem disposeUnheld_leads (s : Site) (place : Nat) :
    s.Leads member (s.disposeUnheld place) member := by
  unfold disposeUnheld
  split
  · split
    · exact (Publishes.refl s).leads
    · exact changeEdge_leads s place (fun _ => Edge.act_goes (x := .dispose) rfl rfl)
  · exact (Publishes.refl s).leads

theorem disposeUnheld_members (s : Site) (place : Nat) :
    (s.disposeUnheld place).members = s.members := by
  unfold disposeUnheld
  split
  · split
    · rfl
    · exact (changeEdge_changes s place Edge.dispose).members
  · rfl

theorem letGo_leads (s : Site) (place : Nat) : s.Leads member (s.letGo place) member :=
  (changeEdge_leads s place (fun _ => Edge.act_goes (x := .letGo) rfl rfl)).trans
    (disposeUnheld_leads _ place)

theorem listenTo_publishes (s : Site) (place : Nat) (edge : String) :
    s.Publishes (s.listenTo place edge).1 [] := by
  unfold listenTo
  split
  · rename_i h
    exact rehouse_publishes h _
  · exact aside_publishes rfl rfl rfl rfl
  · exact aside_publishes rfl rfl rfl rfl

theorem shutdown_stopped {c : Seat} (h : (s.changeEdge place Edge.shutdown).seats[place]? = some c) :
    c.edge.session.stopped = true := by
  rw [(changeEdge_changes s place Edge.shutdown).seats, List.getElem?_modify_eq] at h
  obtain ⟨was, _, rfl⟩ := Option.map_eq_some_iff.mp h
  exact Edge.stop_stopped _

/-- A managed edge is shut down, its leaving is announced, and it is done with unless someone else
holds it. -/
theorem retired_leads (s : Site) (was : member id = some place) (notes : List Note)
    (announces : publishedEvents notes = [.removed id]) :
    s.Leads member (((s.changeEdge place Edge.shutdown).log place notes).disposeUnheld place)
      (fun k => if k = id then none else member k) := by
  have hshut : s.Leads member (s.changeEdge place Edge.shutdown) member :=
    changeEdge_leads s place (fun _ => Edge.act_goes (x := .shutdown) rfl rfl)
  have hlog := log_publishes (s.changeEdge place Edge.shutdown) place notes
  refine Leads.trans ⟨fun hs => ?_, ?_⟩ (disposeUnheld_leads _ place)
  · obtain ⟨hroster, hclock⟩ := hshut.orderly hs
    obtain ⟨c, hc, hmanaged, _⟩ := hroster.present id place was
    have htells : (s.changeEdge place Edge.shutdown).tells place = true := by
      rw [tells, hc]
      exact hmanaged
    rw [htells, if_pos rfl, announces] at hlog
    refine ⟨?_, ?_⟩
    · rw [hlog.seats, hlog.heard]
      exact hroster.leave was hc (shutdown_stopped hc)
    · rw [hlog.seats, hlog.now]
      exact hclock
  · intro k c hk
    rw [hlog.seats]
    exact hshut.stays k c hk

theorem retired_members (s : Site) (place : Nat) (notes : List Note) :
    (((s.changeEdge place Edge.shutdown).log place notes).disposeUnheld place).members =
      s.members := by
  rw [disposeUnheld_members, (log_publishes _ place notes).members, (changeEdge_changes s place _).members]

theorem table_leads (s : Site) (members : SortedMap String Nat) :
    s.Leads member { s with members } member where
  orderly hs := ⟨hs.roster, hs.clock⟩
  stays := .of_seats rfl

theorem remove_leads (h : s.remove id = .ok t) : s.Leads s.members.get? t t.members.get? := by
  unfold remove at h
  split at h
  · cases h
  · rename_i place hplace
    cases h
    have hleave := (table_leads s (s.members.erase id)).trans
      (retired_leads { s with members := s.members.erase id } hplace
        [.edgeRemoved id, .published (.removed id)] rfl)
    have htable : (fun k => if k = id then none else s.members.get? k) =
        (s.members.erase id).get? := funext (fun k => (s.members.get?_erase id k).symm)
    rw [htable] at hleave
    rw [retired_members]
    exact hleave

/-- All edges of a table leave one after another, in whatever order it lists them. -/
theorem foldl_retire_leads (order : List (String × Nat)) (distinct : (order.map Prod.fst).Nodup)
    (s : Site) :
    s.Leads (fun k => lookupKey k order) (order.foldl retire s) (fun _ => none) := by
  induction order generalizing s with
  | nil => exact (Publishes.refl s).leads
  | cons first rest ih =>
    obtain ⟨id, place⟩ := first
    have hwas : lookupKey id ((id, place) :: rest) = some place := by simp [lookupKey]
    have hretire : s.Leads (fun k => lookupKey k ((id, place) :: rest)) (s.retire (id, place))
        (fun k => if k = id then none else lookupKey k ((id, place) :: rest)) :=
      retired_leads s hwas [.published (.removed id)] rfl
    rw [funext (SortedMap.lookupKey_tail distinct)] at hretire
    exact hretire.trans (ih (List.nodup_cons.mp distinct).2 _)

theorem foldl_retire_members (order : List (String × Nat)) (s : Site) :
    (order.foldl retire s).members = s.members := by
  induction order generalizing s with
  | nil => rfl
  | cons first rest ih => exact (ih _).trans (retired_members s first.2 _)

theorem shutdownIn_leads {order : List (String × Nat)} (all : order.Perm s.members.entries) :
    s.Leads s.members.get? (s.shutdownIn order) (s.shutdownIn order).members.get? := by
  have hdistinct : (order.map Prod.fst).Nodup :=
    (all.map Prod.fst).nodup_iff.mpr s.members.keys_nodup
  have htable : s.members.get? = fun k => lookupKey k order :=
    funext (fun k => (SortedMap.lookupKey_perm all s.members.keys_nodup k).symm)
  have hempty : (s.shutdownIn order).members = .empty := foldl_retire_members order _
  rw [htable, hempty]
  exact (table_leads s .empty).trans (foldl_retire_leads order hdistinct _)

theorem start_sound {c : Config} {connector : Connector} {source now : Nat} {e : Edge}
    (promised : connector.links = []) (h : Edge.start c connector source now = .ok e)
    (managed : Bool) :
    Seat.Sound ⟨{ e with notes := [] }, managed⟩ ∧ e.id = c.edge ∧
      e.session.state = .disconnected ∧ e.session.now = now := by
  unfold Edge.start at h
  cases hs : Session.ofConfig c connector source now with
  | error fault =>
    rw [hs] at h
    cases h
  | ok session =>
    rw [hs] at h
    cases h
    obtain ⟨snapshots, _, rfl⟩ := Session.ofConfig_eq hs
    exact ⟨⟨⟨[], .start promised hs⟩, rfl, rfl⟩, rfl, rfl, rfl⟩

/-- An edge takes a new place. -/
structure Places (s t : Site) (c : Seat) (place : Nat) : Prop where
  place : place = s.seats.length
  seats : t.seats = s.seats ++ [c]
  members : t.members = s.members
  now : t.now = s.now
  heard : t.heard = s.heard

theorem place_places {c : Config} {connector : Connector} {home : Home} {k : Nat}
    (h : s.place c connector home = .ok (t, k)) :
    ∃ e, Edge.start c connector (s.source + k) s.now = .ok e ∧
      s.Places t ⟨{ e with notes := [] }, home.isManaged⟩ k := by
  unfold place at h
  dsimp only at h
  split at h
  · rename_i e he
    cases h
    have hpublishes := lineUp_publishes { s with
      cells := s.cells ++ [⟨{ e with notes := [] }, home⟩], notes := s.notes ++ e.notes }
      s.cells.length
    refine ⟨e, he, s.seats_length.symm, hpublishes.seats.trans ?_, hpublishes.members, hpublishes.now, ?_⟩
    · simp [seats]
    · rw [hpublishes.heard, List.append_nil]
      rfl
  · cases h

theorem Places.stays {c : Seat} (h : s.Places t c place) : s.Stays t := by
  intro k was hk
  refine ⟨was, ?_, rfl, rfl⟩
  rw [h.seats]
  exact getElem?_concat_some hk

theorem place_leads {c : Config} {connector : Connector} {home : Home} {k : Nat}
    (promised : connector.links = []) (own : home.isManaged = false)
    (h : s.place c connector home = .ok (t, k)) :
    s.Leads s.members.get? t t.members.get? := by
  obtain ⟨e, he, hplaces⟩ := place_places h
  obtain ⟨hsound, _, _, hnow⟩ := start_sound promised he home.isManaged
  refine ⟨fun hs => ⟨?_, ?_⟩, hplaces.stays⟩
  · rw [hplaces.seats, hplaces.members, hplaces.heard]
    exact hs.roster.open hsound own
  · rw [hplaces.seats, hplaces.now]
    exact List.forall_mem_append.mpr ⟨hs.clock, List.forall_mem_singleton.mpr hnow⟩

theorem enlist_publishes {c : Config} {connector : Connector} {k : Nat}
    (h : s.place c connector .managed = .ok (t, k)) :
    Publishes { t with members := t.members.insert c.edge k } (t.enlist c.edge k)
      [.added c.edge] := by
  obtain ⟨e, _, hplaces⟩ := place_places h
  have hpublishes := log_publishes { t with members := t.members.insert c.edge k } k
    [.edgeAdded c.edge, .published (.added c.edge)]
  have htells : tells { t with members := t.members.insert c.edge k } k = true := by
    change (t.seats[k]?).any Seat.managed = true
    rw [hplaces.seats, hplaces.place, List.getElem?_concat_length]
    rfl
  rw [htells] at hpublishes
  exact hpublishes

theorem enlist_leads {c : Config} {connector : Connector} {k : Nat}
    (promised : connector.links = []) (free : s.members.get? c.edge = none)
    (h : s.place c connector .managed = .ok (t, k)) :
    s.Leads s.members.get? (t.enlist c.edge k) (t.enlist c.edge k).members.get? := by
  obtain ⟨e, he, hplaces⟩ := place_places h
  obtain ⟨hsound, hid, hdown, hnow⟩ := start_sound promised he Home.managed.isManaged
  have hlog := enlist_publishes h
  have htable : (t.enlist c.edge k).members.get? =
      fun id => if id = c.edge then some s.seats.length else s.members.get? id := by
    funext id
    rw [hlog.members, SortedMap.get?_insert, hplaces.place, hplaces.members]
  refine ⟨fun hs => ⟨?_, ?_⟩, fun k' was hk => ?_⟩
  · rw [hlog.seats, hlog.heard, htable, ← hid]
    change Roster t.seats _ (t.heard ++ _)
    rw [hplaces.seats, hplaces.heard]
    exact hs.roster.join hsound rfl hdown (hid ▸ free)
  · rw [hlog.seats, hlog.now]
    change ∀ c ∈ t.seats, c.edge.session.now = t.now
    rw [hplaces.seats, hplaces.now]
    exact List.forall_mem_append.mpr ⟨hs.clock, List.forall_mem_singleton.mpr hnow⟩
  · rw [hlog.seats]
    exact hplaces.stays k' was hk

theorem add_leads {c : Config} {connector : Connector} {k : Nat}
    (promised : connector.links = []) (h : s.add c connector = .ok (t, k)) :
    s.Leads s.members.get? t t.members.get? := by
  unfold add at h
  split at h
  · cases h
  · rename_i hfree
    have hnone : s.members.get? c.edge = none := by simpa [SortedMap.contains] using hfree
    split at h
    · rename_i u place hplace
      cases h
      exact enlist_leads promised hnone hplace
    · cases h

theorem connectorFor_links {c : Config} {connector : Connector}
    (h : Edge.connectorFor c = .ok connector) : connector.links = [] := by
  unfold Edge.connectorFor at h
  split at h
  · split at h
    · cases h
    · split at h <;> cases h <;> rfl
  · split at h <;> cases h
    rfl

theorem addConfigured_leads {c : Config} {k : Nat} (h : s.addConfigured c = .ok (t, k)) :
    s.Leads s.members.get? t t.members.get? := by
  unfold addConfigured at h
  split at h
  · cases h
  · split at h
    · rename_i connector hconnector
      exact add_leads (connectorFor_links hconnector) h
    · cases h

theorem openOwn_leads {c : Config} {k : Nat} (h : s.openOwn c = .ok (t, k)) :
    s.Leads s.members.get? t t.members.get? := by
  unfold openOwn at h
  split at h
  · rename_i connector hconnector
    exact place_leads (connectorFor_links hconnector) rfl h
  · cases h

theorem pass_leads (s : Site) (ms : Nat) : s.Leads member
    { s with
      now := s.now + ms
      cells := s.cells.map (fun c => { c with edge := c.edge.atTime (s.now + ms) }) } member := by
  have hseats : seats { s with
      now := s.now + ms
      cells := s.cells.map (fun c => { c with edge := c.edge.atTime (s.now + ms) }) } =
        s.seats.map (fun c => { c with edge := c.edge.atTime (s.now + ms) }) := by
    simp [seats, Function.comp_def]
  refine ⟨fun hs => ⟨?_, ?_⟩, fun k c hk => ?_⟩
  · rw [hseats]
    refine hs.roster.pass (fun c hc => ?_)
    rw [hs.clock c hc]
    exact Nat.le_add_right _ _
  · rw [hseats]
    intro c hc
    obtain ⟨was, _, rfl⟩ := List.mem_map.mp hc
    rfl
  · refine ⟨{ c with edge := c.edge.atTime (s.now + ms) }, ?_, rfl, rfl⟩
    rw [hseats, List.getElem?_map, hk]
    rfl

/-- Whatever befalls a site keeps its table in agreement. -/
theorem act_leads {x : Act} (can : s.CanBefall x) (h : s.act x = .ok t) :
    s.Leads s.members.get? t t.members.get? := by
  have hmap : ∀ {made : Except Fault (Site × Nat)}, made.map Prod.fst = .ok t →
      ∃ k, made = .ok (t, k) := by
    intro made hmade
    cases made with
    | error fault => cases hmade
    | ok result =>
      cases hmade
      exact ⟨result.2, rfl⟩
  cases x with
  | add c connector =>
    obtain ⟨k, hk⟩ := hmap h
    exact add_leads can hk
  | addConfigured c =>
    obtain ⟨k, hk⟩ := hmap h
    exact addConfigured_leads hk
  | openShared c connector =>
    obtain ⟨k, hk⟩ := hmap h
    exact place_leads can rfl hk
  | openOwn c =>
    obtain ⟨k, hk⟩ := hmap h
    exact openOwn_leads hk
  | remove edge => exact remove_leads h
  | shutdownAll order =>
    cases h
    exact shutdownIn_leads can
  | edge place acts =>
    cases h
    rw [(changeEdge_changes s place _).members]
    exact changeEdge_leads s place (fun e => Edge.run_goes e can)
  | letGo place =>
    cases h
    rw [letGo, disposeUnheld_members, (changeEdge_changes s place _).members]
    exact letGo_leads s place
  | journal place =>
    cases h
    rw [(changeEdge_changes s place _).members]
    exact changeEdge_leads s place (fun e => ⟨_, Edge.goes_panel e _ rfl⟩)
  | pass ms =>
    cases h
    exact pass_leads s ms
  | listenTo place edge =>
    cases h
    have hpublishes := listenTo_publishes s place edge
    rw [hpublishes.members]
    exact hpublishes.leads
  | listen edge =>
    cases h
    exact aside_leads rfl rfl rfl rfl
  | listenShared edge =>
    cases h
    exact aside_leads rfl rfl rfl rfl
  | arrange queue timers =>
    cases h
    exact aside_leads rfl rfl rfl rfl
  | collect =>
    cases h
    exact aside_leads rfl rfl rfl rfl

/-- In every run the table, the edges and the history agree. -/
theorem Reached.orderly {past : Past} (h : Reached past s) : s.Orderly s.members.get? := by
  induction h with
  | start made =>
    obtain ⟨bus, hbus, rfl⟩ := Option.map_eq_some_iff.mp made
    have hheard : bus.history = #[] := by
      unfold Bus.ofCapacity? at hbus
      split at hbus
      · cases hbus
        rfl
      · cases hbus
    refine ⟨?_, fun c hc => by cases hc⟩
    simp only [heard, hheard]
    exact .empty
  | @act past s x earlier can ih =>
    cases hact : s.act x with
    | error fault =>
      rw [next_error hact]
      exact ih
    | ok t =>
      rw [next_ok hact]
      exact (act_leads can hact).orderly ih

/-- No edge of a run ever loses its seat. -/
theorem Reached.stays {past : Past} {x : Act} (h : Reached past s) (then' : (u, x) ∈ past) :
    u.Stays s := by
  induction h with
  | start => cases then'
  | @act past s y earlier can ih =>
    have hlast : s.Stays (s.next y) := by
      cases hact : s.act y with
      | error fault =>
        rw [next_error hact]
        exact .of_seats rfl
      | ok t =>
        rw [next_ok hact]
        exact (act_leads can hact).stays
    rcases List.mem_append.mp then' with hearlier | hnow
    · exact (ih hearlier).trans hlast
    · cases List.mem_singleton.mp hnow
      exact hlast

end ChannelFeed.Site
