import ChannelFeed.Proofs.Session.Telling
import Mathlib.Data.List.Induction

namespace ChannelFeed

/-- What is known of an edge after one more event about it: that there is none, or its state. None if
the event does not fit: an edge comes that is there, one goes that is not disconnected, or the state
changes of one that is not there. -/
def Event.follow (known : Option LinkState) : Event → Option (Option LinkState)
  | added _ => if known = none then some (some .disconnected) else none
  | removed _ => if known = some .disconnected then some none else none
  | connectionChanged _ state => known.map (fun _ => some state)
  | subscriptionSent _ _ _ => some known
  | subscriptionRejected _ _ _ => some known

def eventsOf (edge : String) (events : List Event) : List Event :=
  events.filter (fun ev => ev.edge == edge)

/-- What is known of an edge after some events, if they can be followed. -/
def followed (edge : String) (events : List Event) : Option (Option LinkState) :=
  (eventsOf edge events).foldlM Event.follow none

/-- The comings and goings of an edge. -/
def lifecycleOf (edge : String) (events : List Event) : List Event :=
  (eventsOf edge events).filter Event.isLifecycle

/-- So many comings and goings in turn, the first of them a coming. -/
def alternating (edge : String) (n : Nat) : List Event :=
  (List.range n).map (fun k => if k % 2 = 0 then .added edge else .removed edge)

variable {edge : String} {events more : List Event} {known : Option LinkState}

theorem eventsOf_append (edge : String) (events more : List Event) :
    eventsOf edge (events ++ more) = eventsOf edge events ++ eventsOf edge more := by
  simp [eventsOf]

theorem eventsOf_own (h : ∀ ev ∈ events, ev.edge = edge) : eventsOf edge events = events :=
  List.filter_eq_self.mpr (fun ev hev => by simp [h ev hev])

theorem followed_append (h : followed edge events = some known) :
    followed edge (events ++ more) = (eventsOf edge more).foldlM Event.follow known := by
  unfold followed at h ⊢
  rw [eventsOf_append, List.foldlM_append, h]
  rfl

theorem followed_own (h : followed edge events = some known) (own : ∀ ev ∈ more, ev.edge = edge) :
    followed edge (events ++ more) = more.foldlM Event.follow known := by
  rw [followed_append h, eventsOf_own own]

theorem follow_subscriptions (h : ∀ ev ∈ events, ev.isSubscription = true)
    (known : Option LinkState) : events.foldlM Event.follow known = some known := by
  induction events with
  | nil => rfl
  | cons ev rest ih =>
    obtain ⟨hev, hrest⟩ := List.forall_mem_cons.mp h
    have hsame : Event.follow known ev = some known := by
      cases ev <;> first | rfl | cases hev
    rw [List.foldlM_cons, hsame]
    exact ih hrest

/-- While an edge is there, what its session tells can be followed. -/
theorem follow_session (h : ∀ ev ∈ events, ev.isConnection = true ∨ ev.isSubscription = true)
    (state : LinkState) :
    events.foldlM Event.follow (some state) = some (some (events.foldl Event.stateAfter state)) := by
  induction events generalizing state with
  | nil => rfl
  | cons ev rest ih =>
    obtain ⟨hev, hrest⟩ := List.forall_mem_cons.mp h
    have hnext : Event.follow (some state) ev = some (some (Event.stateAfter state ev)) := by
      cases ev with
      | added | removed => rcases hev with hev | hev <;> cases hev
      | connectionChanged | subscriptionSent | subscriptionRejected => rfl
    rw [List.foldlM_cons, hnext, List.foldl_cons]
    exact ih hrest _

theorem followed_quietly (h : followed edge events = some known)
    (quiet : ∀ ev ∈ more, ev.edge = edge → ev.isSubscription = true) :
    followed edge (events ++ more) = some known := by
  rw [followed_append h]
  refine follow_subscriptions (fun ev hev => ?_) known
  obtain ⟨hmem, hedge⟩ := List.mem_filter.mp hev
  exact quiet ev hmem (by simpa using hedge)

theorem followed_other {ev : Event} (h : followed edge events = some known)
    (other : edge ≠ ev.edge) : followed edge (events ++ [ev]) = some known := by
  refine followed_quietly h (fun ev' hev' hedge => absurd ?_ other)
  rw [← List.mem_singleton.mp hev', hedge]

/-- At each of its events the history of an edge that can be followed was known so far, the event fits,
and the rest can be followed from there. -/
theorem followed_at {before rest : List Event} {ev : Event}
    (h : followed edge (before ++ ev :: rest) = some known) (about : ev.edge = edge) :
    ∃ sofar next, followed edge before = some sofar ∧ ev.follow sofar = some next ∧
      (eventsOf edge rest).foldlM Event.follow next = some known := by
  unfold followed at h ⊢
  have hcons : eventsOf edge (ev :: rest) = ev :: eventsOf edge rest := by simp [eventsOf, about]
  rw [eventsOf_append, hcons, List.foldlM_append] at h
  obtain ⟨sofar, hsofar, h⟩ := Option.bind_eq_some_iff.mp h
  rw [List.foldlM_cons] at h
  obtain ⟨next, hnext, hrest⟩ := Option.bind_eq_some_iff.mp h
  exact ⟨sofar, next, hsofar, hnext, hrest⟩

/-- An edge goes when it is known to be disconnected, and then there is none. -/
theorem follow_removed {sofar next : Option LinkState}
    (h : Event.follow sofar (.removed edge) = some next) :
    sofar = some .disconnected ∧ next = none := by
  simp only [Event.follow] at h
  split at h
  · rename_i hdown
    cases h
    exact ⟨hdown, rfl⟩
  · cases h

/-- As long as there is no edge, requests and refusals are all that may be told of it. -/
theorem follow_absent (h : events.foldlM Event.follow none = some known)
    (missing : ∀ ev ∈ events, ev ≠ .added ev.edge) : ∀ ev ∈ events, ev.isSubscription = true := by
  induction events with
  | nil => exact fun ev hev => nomatch hev
  | cons ev rest ih =>
    obtain ⟨hev, hrest⟩ := List.forall_mem_cons.mp missing
    rw [List.foldlM_cons] at h
    obtain ⟨next, hnext, hfollow⟩ := Option.bind_eq_some_iff.mp h
    cases ev with
    | added edge => exact absurd rfl hev
    | removed | connectionChanged => cases hnext
    | subscriptionSent | subscriptionRejected =>
      cases hnext
      exact List.forall_mem_cons.mpr ⟨rfl, ih hfollow hrest⟩

theorem alternating_succ (edge : String) (n : Nat) : alternating edge (n + 1) =
    alternating edge n ++ [if n % 2 = 0 then .added edge else .removed edge] := by
  simp [alternating, List.range_succ]

/-- The comings and goings of an edge take turns, and it is there if there was one coming more. -/
theorem followed_alternates (h : followed edge events = some known) :
    ∃ n, lifecycleOf edge events = alternating edge n ∧ (known.isSome = true ↔ n % 2 = 1) := by
  unfold lifecycleOf
  unfold followed at h
  have hown : ∀ ev ∈ eventsOf edge events, ev.edge = edge := by
    intro ev hev
    simpa using (List.mem_filter.mp hev).2
  generalize eventsOf edge events = own at h hown
  induction own using List.reverseRecOn generalizing known with
  | nil =>
    cases h
    exact ⟨0, rfl, by simp⟩
  | append_singleton earlier ev ih =>
    rw [List.foldlM_append] at h
    obtain ⟨sofar, hsofar, h⟩ := Option.bind_eq_some_iff.mp h
    have hnext : ev.follow sofar = some known := by simpa using h
    rw [List.forall_mem_append] at hown
    obtain ⟨n, halt, hodd⟩ := ih hsofar hown.1
    have hedge : ev.edge = edge := hown.2 ev (by simp)
    rw [List.filter_append, halt]
    cases ev with
    | added =>
      cases hedge
      simp only [Event.follow] at hnext
      split at hnext
      · rename_i hnone
        cases hnext
        have heven : n % 2 = 0 := by simp [hnone] at hodd; omega
        refine ⟨n + 1, ?_, by simp; omega⟩
        rw [alternating_succ, if_pos heven]
        rfl
      · cases hnext
    | removed =>
      cases hedge
      simp only [Event.follow] at hnext
      split at hnext
      · rename_i hdown
        cases hnext
        have hone : n % 2 = 1 := by simpa [hdown] using hodd
        refine ⟨n + 1, ?_, by simp; omega⟩
        rw [alternating_succ, if_neg (by omega)]
        rfl
      · cases hnext
    | connectionChanged _ state =>
      refine ⟨n, by simp [Event.isLifecycle], ?_⟩
      simp only [Event.follow, Option.map_eq_some_iff] at hnext
      obtain ⟨old, rfl, rfl⟩ := hnext
      simpa using hodd
    | subscriptionSent | subscriptionRejected =>
      cases hnext
      exact ⟨n, by simp [Event.isLifecycle], hodd⟩

theorem alternating_last (edge : String) (n : Nat) :
    (alternating edge n).getLast? = some (.added edge) ↔ n % 2 = 1 := by
  cases n with
  | zero => simp [alternating]
  | succ n =>
    rw [alternating_succ, List.getLast?_concat]
    split <;> simp <;> omega

end ChannelFeed
