import ChannelFeed.Proofs.Site.Orderly
import ChannelFeed.Site.Console

namespace ChannelFeed

/-- Whether a step is a call of the manager that changes which edges it has. -/
def Console.Step.manages : Console.Step → Bool
  | add _ => true
  | addConfigured _ => true
  | remove _ => true
  | shutdownAll => true
  | _ => false

namespace Site

variable {past : Past} {s t u : Site} {id : String} {place : Nat}

theorem Reached.followed (h : Reached past s) (id : String) :
    ∃ known, ChannelFeed.followed id s.heard = some known ∧
      (known.isSome = true ↔ s.members.contains id = true) := by
  have hroster := h.orderly.roster
  cases hmember : s.members.get? id with
  | none => exact ⟨none, hroster.absent id hmember, by simp [SortedMap.contains, hmember]⟩
  | some place =>
    obtain ⟨c, _, _, _, hfollowed⟩ := hroster.present id place hmember
    exact ⟨_, hfollowed, by simp [SortedMap.contains, hmember]⟩

theorem Reached.down (h : Reached past s) {before rest : List Event}
    (split : s.heard = before ++ .removed id :: rest) :
    ChannelFeed.followed id before = some (some .disconnected) := by
  obtain ⟨known, hknown, _⟩ := h.followed id
  rw [split] at hknown
  obtain ⟨sofar, next, hsofar, hnext, _⟩ := followed_at hknown rfl
  rw [hsofar, (follow_removed hnext).1]

/-- Where the going of an edge is announced, the edge was shut down and is disconnected. -/
theorem Reached.shut (h : Reached past s) {c : Seat}
    (there : (s.changeEdge place Edge.shutdown).seats[place]? = some c) :
    c.edge.session.stopped = true ∧ c.edge.session.state = .disconnected := by
  have hshut := (changeEdge_leads s place
    (fun _ => Edge.act_goes (x := .shutdown) rfl rfl)).orderly h.orderly
  have hstopped := shutdown_stopped there
  have hsound := hshut.roster.sound c (List.mem_of_getElem? there)
  exact ⟨hstopped, hsound.shown.halted hstopped⟩

theorem Reached.earlier {x : Act} (h : Reached past s) (passed : (u, x) ∈ past) :
    ∃ before, Reached before u := by
  induction h with
  | start => cases passed
  | @act past s y earlier can ih =>
    rcases List.mem_append.mp passed with hpassed | hlast
    · exact ih hpassed
    · cases List.mem_singleton.mp hlast
      exact ⟨past, earlier⟩

/-- An edge that was managed once and is no more stays where it was, stopped and disconnected. -/
theorem Reached.gone {x : Act} (h : Reached past s) (passed : (u, x) ∈ past)
    (was : u.members.get? id = some place) (left : s.members.get? id ≠ some place) :
    ∃ c, s.seats[place]? = some c ∧ c.edge.id = id ∧ c.edge.session.stopped = true ∧
      c.edge.session.state = .disconnected := by
  obtain ⟨before, hu⟩ := h.earlier passed
  obtain ⟨c, hc, hmanaged, rfl, _⟩ := hu.orderly.roster.present id place was
  obtain ⟨c', hc', hid, hmanaged'⟩ := h.stays passed place c hc
  have hstopped := h.orderly.roster.left place c' hc' (hmanaged'.trans hmanaged) (hid ▸ left)
  have hsound := h.orderly.roster.sound c' (List.mem_of_getElem? hc')
  exact ⟨c', hc', hid, hstopped, hsound.shown.halted hstopped⟩

theorem place_fault {c : Config} {connector : Connector} {home : Home} {fault : Fault}
    (h : s.place c connector home = .error fault) : fault = .queueSize c.buffer := by
  unfold place Edge.start Session.ofConfig at h
  dsimp only at h
  cases hq : Pipe.ofCapacity? (max c.buffer 1) with
  | some snapshots =>
    rw [hq] at h
    cases h
  | none =>
    rw [hq] at h
    cases h
    rfl

theorem add_exists_iff (s : Site) (c : Config) (connector : Connector) :
    s.add c connector = .error (.edgeExists c.edge) ↔ s.members.contains c.edge = true := by
  unfold add
  split
  · rename_i hmember
    simp [hmember]
  · rename_i hfree
    refine ⟨fun h => ?_, fun hmember => absurd hmember hfree⟩
    split at h
    · cases h
    · rename_i fault hplace
      cases h
      cases place_fault hplace

theorem add_effect {c : Config} {connector : Connector} (h : s.add c connector = .ok (t, place)) :
    place = s.seats.length ∧ t.members = s.members.insert c.edge place ∧
      t.heard = s.heard ++ [.added c.edge] := by
  unfold add at h
  split at h
  · cases h
  · split at h
    · rename_i u k hplace
      cases h
      obtain ⟨e, _, hplaces⟩ := place_places hplace
      have hpublishes := enlist_publishes hplace
      refine ⟨hplaces.place, ?_, ?_⟩
      · rw [hpublishes.members, hplaces.members]
      · rw [hpublishes.heard, ← hplaces.heard]
        rfl
    · cases h

theorem addConfigured_iff (s : Site) (c : Config) (t : Site) (place : Nat) :
    s.addConfigured c = .ok (t, place) ↔
      ∃ connector, Edge.connectorFor c = .ok connector ∧ s.add c connector = .ok (t, place) := by
  unfold addConfigured
  cases hmember : s.members.contains c.edge with
  | true => simp [add, hmember]
  | false => cases hc : Edge.connectorFor c <;> simp

theorem remove_error_iff (s : Site) (id : String) (fault : Fault) :
    s.remove id = .error fault ↔ s.members.contains id = false ∧ fault = .edgeNotFound id := by
  unfold remove SortedMap.contains
  cases s.members.get? id with
  | none => simp [eq_comm]
  | some place => simp

theorem remove_members (h : s.remove id = .ok t) : t.members = s.members.erase id := by
  unfold remove at h
  split at h
  · cases h
  · cases h
    exact retired_members _ _ _

theorem shutdownIn_members (s : Site) (order : List (String × Nat)) :
    (s.shutdownIn order).members = .empty := foldl_retire_members order _

/-- A call of the manager that fails leaves everything as it was. -/
theorem act_refused (c : Console) {step : Console.Step} {fault : Fault}
    (manages : step.manages = true) (h : (c.act step).2 = .fault fault) : (c.act step).1 = c := by
  have hplaced : ∀ result, (c.placed result).2 = .fault fault → (c.placed result).1 = c := by
    intro result hresult
    cases result with
    | ok made => cases hresult
    | error cause => rfl
  cases step with
  | add config => exact hplaced _ h
  | addConfigured config => exact hplaced _ h
  | remove edge =>
    simp only [Console.act] at h ⊢
    split at h
    · cases h
    · rfl
  | shutdownAll => cases h
  | _ => cases manages

/-- What the manager, its edges and its bus have to do with one another after a run. -/
structure Agrees (past : Past) (s : Site) : Prop where
  /-- The comings and goings of a name take turns, the first of them a coming. -/
  alternates : ∀ id, ∃ n, lifecycleOf id s.heard = alternating id n
  managed : ∀ id, s.members.contains id = true ↔
    (lifecycleOf id s.heard).getLast? = some (.added id)
  listed : Ascending s.edgeIds ∧ (∀ id, id ∈ s.edgeIds ↔ s.members.contains id = true) ∧
    s.members.size = s.edgeIds.length
  /-- Whoever follows a managed edge knows its state. -/
  known : ∀ id place, s.members.get? id = some place → ∃ c, s.seats[place]? = some c ∧
    c.edge.id = id ∧ followed id s.heard = some (some c.edge.session.state)
  /-- The edge whose going is announced was shut down and is disconnected, ... -/
  shut : ∀ place c, (s.changeEdge place Edge.shutdown).seats[place]? = some c →
    c.edge.session.stopped = true ∧ c.edge.session.state = .disconnected
  /-- ... which is known then, ... -/
  down : ∀ id before rest, s.heard = before ++ .removed id :: rest →
    followed id before = some (some .disconnected)
  /-- ... and that it stays. -/
  gone : ∀ u x id place, (u, x) ∈ past → u.members.get? id = some place →
    s.members.get? id ≠ some place → ∃ c, s.seats[place]? = some c ∧ c.edge.id = id ∧
      c.edge.session.stopped = true ∧ c.edge.session.state = .disconnected
  adds : ∀ c connector t place, s.add c connector = .ok (t, place) →
    place = s.seats.length ∧ t.members = s.members.insert c.edge place ∧
      t.heard = s.heard ++ [.added c.edge]
  exists_iff : ∀ c connector, s.add c connector = .error (.edgeExists c.edge) ↔
    s.members.contains c.edge = true
  configured : ∀ c t place, s.addConfigured c = .ok (t, place) ↔
    ∃ connector, Edge.connectorFor c = .ok connector ∧ s.add c connector = .ok (t, place)
  removes : ∀ id t, s.remove id = .ok t → t.members = s.members.erase id
  missing_iff : ∀ id fault, s.remove id = .error fault ↔
    s.members.contains id = false ∧ fault = .edgeNotFound id
  empties : ∀ order, (s.shutdownIn order).members = .empty
  /-- A call that fails changes nothing, neither on a bus nor in an edge. -/
  refused : ∀ (c : Console) (step : Console.Step) fault, c.site = s → step.manages = true →
    (c.act step).2 = .fault fault → (c.act step).1 = c

theorem Reached.manager_agrees (h : Reached past s) : Agrees past s where
  alternates id := by
    obtain ⟨known, hknown, _⟩ := h.followed id
    obtain ⟨n, hn, _⟩ := followed_alternates hknown
    exact ⟨n, hn⟩
  managed id := by
    obtain ⟨known, hknown, hmember⟩ := h.followed id
    obtain ⟨n, hn, hodd⟩ := followed_alternates hknown
    rw [hn, alternating_last, ← hodd, hmember]
  listed := by
    refine ⟨List.pairwise_map.mpr s.members.ascending, fun id => ?_, (List.length_map _).symm⟩
    rw [edgeIds, SortedMap.mem_keys_iff, SortedMap.contains, Option.isSome_iff_exists]
  known id place hmember := by
    obtain ⟨c, hc, _, hid, hfollowed⟩ := h.orderly.roster.present id place hmember
    exact ⟨c, hc, hid, hfollowed⟩
  shut _ _ there := h.shut there
  down _ _ _ split := h.down split
  gone _ _ _ _ passed was left := h.gone passed was left
  adds _ _ _ _ := add_effect
  exists_iff := s.add_exists_iff
  configured := s.addConfigured_iff
  removes _ _ := remove_members
  missing_iff := s.remove_error_iff
  empties := s.shutdownIn_members
  refused c _ _ _ manages hfault := act_refused c manages hfault

/-- A name is added, refused, removed and added anew; then all edges are shut down, the last first. -/
theorem changing_members_agree : ∃ past s, Reached past s ∧ Agrees past s ∧ s.edgeIds = [] ∧
    s.seats.length = 3 ∧ s.heard = [.added "a", .connectionChanged "a" .connecting,
      .connectionChanged "a" .disconnected, .removed "a", .added "a", .added "b", .removed "b",
      .removed "a"] := by
  obtain ⟨past, s, hs, _, htest⟩ := fresh_reached.of_replay
    [.add (.socket "a" "ws://unused") (.queued []), .add (.socket "a" "ws://unused") .silent,
      .remove "b", .addConfigured (.socket "b" "http://unused"), .edge 0 [.session .start],
      .remove "a", .add (.socket "a" "ws://unused") (.queued []),
      .addConfigured (.socket "b" "ws://unused"), .shutdownAll [("b", 2), ("a", 1)]]
    (fun _ s => s.edgeIds == [] && s.seats.length == 3 && s.heard == [.added "a",
      .connectionChanged "a" .connecting, .connectionChanged "a" .disconnected, .removed "a",
      .added "a", .added "b", .removed "b", .removed "a"])
    (by decide +kernel)
  simp only [Bool.and_eq_true, beq_iff_eq] at htest
  exact ⟨past, s, hs, hs.manager_agrees, htest.1.1, htest.1.2, htest.2⟩

end Site

end ChannelFeed
