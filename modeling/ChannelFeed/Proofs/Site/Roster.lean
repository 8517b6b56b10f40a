import ChannelFeed.Proofs.Site.Followed
import ChannelFeed.Proofs.Site.Seats

namespace ChannelFeed

variable {seats : List Seat} {member : String → Option Nat} {heard told : List Event} {c : Seat}
  {place : Nat} {id : String} {e : Edge} {f : Edge → Edge}

/-- The edge of a seat has come through a run, and all that was to be told of it was told. -/
structure Seat.Sound (c : Seat) : Prop where
  ran : ∃ past, Session.Reached past c.edge.session
  silent : c.edge.events = []
  named : c.edge.session.edge = c.edge.id

theorem Seat.Sound.shown (h : c.Sound) : Session.Shown c.edge.session := by
  obtain ⟨past, hreached⟩ := h.ran
  exact hreached.shown

theorem Seat.Sound.goes (h : c.Sound) (goes : c.edge.Goes e told) :
    Seat.Sound { c with edge := Site.settled e } := by
  obtain ⟨past, hreached⟩ := h.ran
  obtain ⟨rest, hrest, _⟩ := goes.collected.session.reached hreached
  refine ⟨⟨_, hrest⟩, rfl, ?_⟩
  exact goes.collected.session.edge.trans (h.named.trans goes.collected.id.symm)

/-- What the manager knows, where the edges are and what was heard agree. -/
structure Roster (seats : List Seat) (member : String → Option Nat) (heard : List Event) :
    Prop where
  sound : ∀ c ∈ seats, c.Sound
  /-- Where there is a managed edge of a name, and that those who follow it know its state. -/
  present : ∀ id place, member id = some place → ∃ c, seats[place]? = some c ∧ c.managed = true ∧
    c.edge.id = id ∧ followed id heard = some (some c.edge.session.state)
  absent : ∀ id, member id = none → followed id heard = some none
  left : ∀ place c, seats[place]? = some c → c.managed = true →
    member c.edge.id ≠ some place → c.edge.session.stopped = true

theorem Roster.empty : Roster [] (fun _ => none) [] where
  sound _ hc := by cases hc
  present _ _ hmember := by cases hmember
  absent _ _ := rfl
  left place c hc := by simp at hc

/-- Of an edge that has left nothing is told but requests and refusals, so nobody is misled about
another edge of its name. -/
theorem Roster.quiet (h : Roster seats member heard) (there : seats[place]? = some c)
    (goes : c.edge.Goes e told) (other : member id ≠ some place) :
    ∀ ev ∈ (if c.managed then told else []), ev.edge = id → ev.isSubscription = true := by
  intro ev hev hid
  split at hev
  · rename_i hmanaged
    have hsound := h.sound c (List.mem_of_getElem? there)
    have hname : c.edge.id = id :=
      (hsound.named.symm.trans (goes.session.own ev hev).1.symm).trans hid
    have hstopped := h.left place c there hmanaged (hname ▸ other)
    exact (goes.session.still hsound.shown hstopped).2.2 ev hev
  · cases hev

theorem getElem?_modify_cases {g : Seat → Seat} {c' : Seat} {k : Nat}
    (there : seats[place]? = some c) (h : (seats.modify place g)[k]? = some c') :
    k = place ∧ c' = g c ∨ k ≠ place ∧ seats[k]? = some c' := by
  rw [List.getElem?_modify] at h
  obtain ⟨was, hwas, rfl⟩ := Option.map_eq_some_iff.mp h
  by_cases hplace : place = k
  · subst hplace
    rw [there] at hwas
    cases hwas
    exact .inl ⟨rfl, if_pos rfl⟩
  · rw [if_neg hplace]
    exact .inr ⟨fun hk => hplace hk.symm, hwas⟩

theorem Roster.change (h : Roster seats member heard) (there : seats[place]? = some c)
    (goes : c.edge.Goes (f c.edge) told) :
    Roster (seats.modify place (fun c => { c with edge := Site.settled (f c.edge) })) member
      (heard ++ if c.managed then told else []) where
  sound c' hc' := by
    obtain ⟨k, hk⟩ := List.mem_iff_getElem?.mp hc'
    rcases getElem?_modify_cases there hk with ⟨_, rfl⟩ | ⟨_, hwas⟩
    · exact (h.sound c (List.mem_of_getElem? there)).goes goes
    · exact h.sound c' (List.mem_of_getElem? hwas)
  present id k hmember := by
    obtain ⟨was, hwas, hmanaged, hid, hfollowed⟩ := h.present id k hmember
    by_cases hplace : place = k
    · subst hplace
      rw [there] at hwas
      cases hwas
      refine ⟨{ c with edge := Site.settled (f c.edge) }, by simp [there], hmanaged,
        goes.id.trans hid, ?_⟩
      have hnamed := (h.sound c (List.mem_of_getElem? there)).named
      have hown : ∀ ev ∈ told, ev.edge = id := fun ev hev =>
        ((goes.session.own ev hev).1.trans hnamed).trans hid
      rw [if_pos hmanaged, followed_own hfollowed hown,
        follow_session (fun ev hev => (goes.session.own ev hev).2), ← goes.session.state]
      rfl
    · refine ⟨was, by simp [hplace, hwas], hmanaged, hid, ?_⟩
      refine followed_quietly hfollowed (h.quiet there goes ?_)
      rw [hmember]
      exact fun hk => hplace (Option.some.inj hk).symm
  absent id hmember :=
    followed_quietly (h.absent id hmember) (h.quiet there goes (by rw [hmember]; nofun))
  left k c' hk hmanaged hnot := by
    rcases getElem?_modify_cases there hk with ⟨rfl, rfl⟩ | ⟨_, hwas⟩
    · have hid : (Site.settled (f c.edge)).id = c.edge.id := goes.id
      have hstopped := h.left _ c there hmanaged (hid ▸ hnot)
      exact (goes.session.still (h.sound c (List.mem_of_getElem? there)).shown hstopped).2.1
    · exact h.left k c' hwas hmanaged hnot

theorem getElem?_concat_cases {c' : Seat} (h : (seats ++ [c])[place]? = some c') :
    seats[place]? = some c' ∨ place = seats.length ∧ c' = c := by
  rcases Nat.lt_trichotomy place seats.length with hlt | rfl | hgt
  · rw [List.getElem?_append_left hlt] at h
    exact .inl h
  · rw [List.getElem?_concat_length] at h
    exact .inr ⟨rfl, (Option.some.inj h).symm⟩
  · rw [List.getElem?_eq_none (by simpa using Nat.succ_le_of_lt hgt)] at h
    cases h

theorem getElem?_concat_some {c' : Seat} (h : seats[place]? = some c) :
    (seats ++ [c'])[place]? = some c := by
  rw [List.getElem?_append_left (List.getElem?_eq_some_iff.mp h).1, h]

theorem Roster.open (h : Roster seats member heard) (sound : c.Sound) (own : c.managed = false) :
    Roster (seats ++ [c]) member heard where
  sound := List.forall_mem_append.mpr ⟨h.sound, List.forall_mem_singleton.mpr sound⟩
  present id k hmember := by
    obtain ⟨was, hwas, hrest⟩ := h.present id k hmember
    exact ⟨was, getElem?_concat_some hwas, hrest⟩
  absent := h.absent
  left k c' hk hmanaged hnot := by
    rcases getElem?_concat_cases hk with hwas | ⟨_, rfl⟩
    · exact h.left k c' hwas hmanaged hnot
    · rw [own] at hmanaged
      cases hmanaged

theorem Roster.join (h : Roster seats member heard) (sound : c.Sound) (managed : c.managed = true)
    (down : c.edge.session.state = .disconnected) (free : member c.edge.id = none) :
    Roster (seats ++ [c]) (fun id => if id = c.edge.id then some seats.length else member id)
      (heard ++ [.added c.edge.id]) where
  sound := List.forall_mem_append.mpr ⟨h.sound, List.forall_mem_singleton.mpr sound⟩
  present id k hmember := by
    split at hmember
    · rename_i hid
      cases hmember
      refine ⟨c, List.getElem?_concat_length, managed, hid.symm, ?_⟩
      rw [hid, followed_own (h.absent _ free) (by simp [Event.edge]), down]
      rfl
    · rename_i hid
      obtain ⟨was, hwas, hmanaged, hname, hfollowed⟩ := h.present id k hmember
      exact ⟨was, getElem?_concat_some hwas, hmanaged, hname, followed_other hfollowed hid⟩
  absent id hmember := by
    split at hmember
    · cases hmember
    · rename_i hid
      exact followed_other (h.absent id hmember) hid
  left k c' hk hmanaged hnot := by
    rcases getElem?_concat_cases hk with hwas | ⟨rfl, rfl⟩
    · refine h.left k c' hwas hmanaged ?_
      split at hnot
      · rename_i hid
        rw [hid, free]
        nofun
      · exact hnot
    · rw [if_pos rfl] at hnot
      exact absurd rfl hnot

theorem Roster.leave (h : Roster seats member heard) (was : member id = some place)
    (there : seats[place]? = some c) (stopped : c.edge.session.stopped = true) :
    Roster seats (fun k => if k = id then none else member k) (heard ++ [.removed id]) where
  sound := h.sound
  present k there' hmember := by
    split at hmember
    · cases hmember
    · rename_i hid
      obtain ⟨c', hc', hmanaged, hname, hfollowed⟩ := h.present k there' hmember
      exact ⟨c', hc', hmanaged, hname, followed_other hfollowed hid⟩
  absent k hmember := by
    split at hmember
    · rename_i hid
      subst hid
      obtain ⟨c', hc', _, _, hfollowed⟩ := h.present k place was
      rw [there] at hc'
      cases hc'
      have hdown : c.edge.session.state = .disconnected :=
        (h.sound c (List.mem_of_getElem? there)).shown.halted stopped
      rw [followed_own hfollowed (by simp [Event.edge]), hdown]
      rfl
    · rename_i hid
      exact followed_other (h.absent k hmember) hid
  left k c' hk hmanaged hnot := by
    by_cases hplace : k = place
    · subst hplace
      rw [there] at hk
      cases hk
      exact stopped
    · refine h.left k c' hk hmanaged ?_
      split at hnot
      · rename_i hid
        rw [hid, was]
        exact fun hk' => hplace (Option.some.inj hk').symm
      · exact hnot

theorem Roster.pass {now : Nat} (h : Roster seats member heard)
    (clock : ∀ c ∈ seats, c.edge.session.now ≤ now) :
    Roster (seats.map (fun c => { c with edge := c.edge.atTime now })) member heard where
  sound c hc := by
    obtain ⟨was, hwas, rfl⟩ := List.mem_map.mp hc
    obtain ⟨past, hreached⟩ := (h.sound was hwas).ran
    have hlate : was.edge.session.now + (now - was.edge.session.now) = now :=
      Nat.add_sub_cancel' (clock was hwas)
    have hpass : was.edge.session.step? (.pass (now - was.edge.session.now)) =
        some (was.edge.session.atTime now) := by rw [Session.step?, hlate]
    exact ⟨⟨_, hreached.step hpass⟩, (h.sound was hwas).silent, (h.sound was hwas).named⟩
  present id k hmember := by
    obtain ⟨was, hwas, hmanaged, hid, hfollowed⟩ := h.present id k hmember
    exact ⟨{ was with edge := was.edge.atTime now }, by simp [hwas], hmanaged, hid, hfollowed⟩
  absent := h.absent
  left k c hk hmanaged hnot := by
    rw [List.getElem?_map] at hk
    obtain ⟨was, hwas, rfl⟩ := Option.map_eq_some_iff.mp hk
    exact h.left k was hwas hmanaged hnot

end ChannelFeed
