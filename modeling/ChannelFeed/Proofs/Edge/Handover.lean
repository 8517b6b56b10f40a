import ChannelFeed.Proofs.Edge.Run
import ChannelFeed.Proofs.Panel.Kept
import ChannelFeed.Proofs.Panel.Slots
import ChannelFeed.Proofs.Registry.Version
import ChannelFeed.Proofs.Session.Asked

namespace ChannelFeed

namespace Registry

/-- A later state of a sound registry: a watcher who has seen its last change has seen its union. -/
structure Later (r r' : Registry) : Prop where
  sound : r'.Sound
  changes : r.announced.changes ≤ r'.announced.changes
  union : r'.announced.changes = r.announced.changes → r'.union = r.union

theorem Later.refl {r : Registry} (h : r.Sound) : Later r r := ⟨h, Nat.le_refl _, fun _ => rfl⟩

theorem Later.told {r r' r'' : Registry} (h : Later r r') (ht : Told r' r'') (hs : r''.Sound) :
    Later r r'' := by
  have hle := h.changes
  unfold Told at ht
  split at ht
  · rename_i hu
    rw [← ht.2] at hle
    exact ⟨hs, hle, fun he => hu.trans (h.union (ht.2 ▸ he))⟩
  · have hnext : r''.announced.changes = r'.announced.changes + 1 :=
      (congrArg Watch.changes ht.2).trans rfl
    exact ⟨hs, by omega, fun he => by omega⟩

end Registry

namespace Dispatcher

theorem kept_later (r : Registry) : Kept (fun d => r.Later d.registry) where
  install d subscriber component addresses widget h := by
    rw [install_registry]
    exact h.told (h.sound.register_told ..) (h.sound.register ..)
  unsubscribe d handle h := by
    rw [unsubscribe_registry]
    exact h.told (h.sound.unregister_told handle) (h.sound.unregister handle)
  merge _ _ h := h
  prime d handle h := by
    unfold prime
    rw [adjust_registry]
    exact h
  mute d handle h := by
    unfold mute
    rw [adjust_registry]
    exact h

end Dispatcher

namespace Edge

open Session (channelsOf frame_shutdown)

variable {e e' : Edge} {x : Act}

/-- Nothing is given to the session or read by the pump, and the registry is in a later state. -/
structure Aside (e e' : Edge) : Prop where
  registry : e.registry.Later e'.registry
  desired : e'.session.desired = e.session.desired
  seen : e'.versionSeen = e.versionSeen
  pump : e'.pump = e.pump ∨ e'.pump = .stopped

theorem process_aside (hs : e.registry.Sound) (h : e.process? = some e') : e.Aside e' := by
  have hrefl : e.registry.Later e.panel.dispatcher.registry := .refl hs
  have hkept := (Dispatcher.kept_later e.registry).panel
  have htake : e.session.takeSnapshot.1.desired = e.session.desired := rfl
  unfold process? at h
  split at h
  · split at h
    · rename_i session snapshot ht
      cases h
      rw [ht] at htake
      exact ⟨hkept.deliverCurrent _ (hkept.merge _ [] _ hrefl), htake, rfl, .inl rfl⟩
    · rename_i session ht
      cases h
      rw [ht] at htake
      exact ⟨hrefl, htake, rfl, .inl rfl⟩
    · cases h
  · cases h

theorem stop_desired (e : Edge) : e.stop.session.desired = e.session.desired :=
  (frame_shutdown e.session).desired

/-- Only the pump hands the union on. -/
theorem act_aside (hs : e.registry.Sound) (hx : e.act? x = some e') (hp : x ≠ .pump) :
    e.Aside e' := by
  have hrefl : e.registry.Later e.panel.dispatcher.registry := .refl hs
  have hkept := (Dispatcher.kept_later e.registry).panel
  cases x with
  | pump => exact absurd rfl hp
  | process => exact process_aside hs hx
  | command command =>
    cases hx
    exact ⟨hkept.perform _ command hrefl, rfl, rfl, .inl rfl⟩
  | decoded subscriber decoder =>
    cases hx
    exact ⟨hkept.subscribe e.panel subscriber none decoder.addresses.toList (.decoded decoder) hrefl,
      rfl, rfl, .inl rfl⟩
  | session m =>
    simp only [act?, Option.map_eq_some_iff] at hx
    obtain ⟨session, hm, rfl⟩ := hx
    have hdesired := Session.move_desired hm
    exact ⟨hrefl, hdesired, rfl, .inl rfl⟩
  | device step =>
    simp only [act?, Option.map_eq_some_iff] at hx
    obtain ⟨result, hd, rfl⟩ := hx
    exact ⟨hrefl, Session.device_desired hd, rfl, .inl rfl⟩
  | shutdown =>
    cases hx
    exact ⟨hrefl, stop_desired _, rfl, .inr rfl⟩
  | dispose =>
    cases hx
    exact ⟨hrefl, stop_desired _, rfl, .inr rfl⟩
  | read | pass ms | letGo | drain =>
    cases hx
    exact ⟨hrefl, rfl, rfl, .inl rfl⟩

theorem pump_registry (h : e.pump? = some e') : e'.registry = e.registry := by
  rcases pump_cases h with ⟨_, _, rfl⟩ | ⟨_, _, _, rfl⟩ | ⟨_, rfl⟩ | ⟨_, _, rfl⟩ |
    ⟨_, _, _, _, rfl⟩ <;> rfl

/-- A pump that has seen the last version holds or has handed on the union. -/
structure Handover (e : Edge) : Prop where
  sound : e.registry.Sound
  looked : e.versionSeen ≤ e.registry.announced.changes
  handed : e.pump = .waiting → e.versionSeen = e.registry.announced.changes →
    e.session.desired.value = e.union
  held : ∀ version union, e.pump = .setting version union →
    e.versionSeen = e.registry.announced.changes → union = e.union

theorem Handover.aside (h : e.Handover) (ha : e.Aside e') : e'.Handover := by
  have hle := ha.registry.changes
  have hlooked := h.looked
  -- the pump has seen the last version only if the registry still announces what it did
  have hsame : e'.versionSeen = e'.registry.announced.changes →
      e.versionSeen = e.registry.announced.changes ∧ e'.union = e.union := by
    intro hc
    rw [ha.seen] at hc
    exact ⟨by omega, ha.registry.union (by omega)⟩
  refine ⟨ha.registry.sound, by rw [ha.seen]; omega, ?_, ?_⟩
  · intro hp hc
    obtain ⟨hc', hu⟩ := hsame hc
    rw [ha.desired, hu]
    rcases ha.pump with hpump | hpump
    · exact h.handed (hpump ▸ hp) hc'
    · rw [hpump] at hp
      cases hp
  · intro version union hp hc
    obtain ⟨hc', hu⟩ := hsame hc
    rw [hu]
    rcases ha.pump with hpump | hpump
    · exact h.held version union (hpump ▸ hp) hc'
    · rw [hpump] at hp
      cases hp

theorem Handover.pump (h : e.Handover) (hx : e.pump? = some e') : e'.Handover := by
  rcases pump_cases hx with ⟨_, _, rfl⟩ | ⟨_, _, _, rfl⟩ | ⟨_, rfl⟩ | ⟨version, _, rfl⟩ |
    ⟨version, union, notes, hp, rfl⟩
  · refine ⟨h.sound, Nat.le_refl _, fun hp => ?_, fun version union hp => ?_⟩
    · dsimp only at hp
      split at hp <;> cases hp
    · dsimp only at hp
      split at hp <;> cases hp
  · exact ⟨h.sound, h.looked, nofun, nofun⟩
  · exact ⟨h.sound, Nat.le_refl _, nofun, nofun⟩
  · refine ⟨h.sound, h.looked, nofun, ?_⟩
    intro version' union hp _
    cases hp
    rfl
  · refine ⟨h.sound, h.looked, ?_, nofun⟩
    intro _ hc
    exact (Session.setSubscription_value e.session union).trans (h.held version union hp hc)

theorem Reached.handover {past : Past} (h : Reached past e) : e.Handover := by
  induction h with
  | @start c connector source now e promised started =>
    unfold Edge.start Session.ofConfig at started
    split at started
    · cases started
      exact ⟨Registry.sound_empty, Nat.le_refl _, fun _ _ => rfl, nofun⟩
    · cases started
  | @act past e e' x earlier possible ih =>
    by_cases hx : x = .pump
    · subst hx
      exact ih.pump possible
    · exact ih.aside (act_aside ih.sound possible hx)

theorem act_registry (hand : e.Handover) (hx : e.act? x = some e') :
    e.registry.Later e'.registry := by
  by_cases hp : x = .pump
  · subst hp
    rw [pump_registry hx]
    exact .refl hand.sound
  · exact (act_aside hand.sound hx hp).registry

/-- In every run: while the pump waits and has seen the last version, and the session waits on a
connection and has seen the last change of what is wanted, the channels that the last request on the
connection asks for, none if there was no request, are those that the live subscriptions hold. -/
theorem Reached.asked_iff_held {past : Past} {d : Drive} (h : Reached past e)
    (hpump : e.pump = .waiting) (hversion : e.registry.announced.unseen e.versionSeen = false)
    (hdrive : e.session.phase = .driving d)
    (hdesired : e.session.desired.unseen e.session.desiredSeen = false) (a : Address) :
    a ∈ channelsOf (asked past e d.link) ↔
      ∃ subscriber entry, e.registry.entries.get? subscriber = some entry ∧
        a ∈ entry.addresses := by
  obtain ⟨past', hs, hread⟩ := h.session
  have hhand := h.handover
  have hseen := (Watch.unseen_eq_false.mp hversion).symm
  have hlast := (hs.asked_eq (d := d) (by rw [hdrive]; rfl)).1
  have hwanted := hs.asking_eq (by rw [hdrive]; rfl) hdesired
  rw [asked_eq hread] at hlast
  rw [← hlast, hwanted, hhand.handed hpump hseen]
  exact hhand.sound.mem_union a

def unbegun : Edge :=
  ofSession (.socket "edge0" "ws://device/socket")
    (.ofQueue (.socket "edge0" "ws://device/socket") (.queued []) 0 0 ⟨16, [], true, true⟩)

theorem unbegun_start :
    Edge.start (.socket "edge0" "ws://device/socket") (.queued []) 0 0 = .ok unbegun := rfl

def subscribedOnce : Option (Past × Edge) :=
  replay act? [] unbegun
    [.session .start, .device (.accept 4 false), .session .connect,
      .command (.subscribe "widget" none [⟨"c", "A"⟩] []), .pump, .pass 100, .pump, .pump, .pump,
      .pump, .session .desire, .session .request, .read]

/-- The device has been asked for the one channel that is subscribed to. -/
theorem subscribed_channel_asked : ∃ past e d, Reached past e ∧ e.pump = .waiting ∧
    e.registry.announced.unseen e.versionSeen = false ∧ e.session.phase = .driving d ∧
    e.session.desired.unseen e.session.desiredSeen = false ∧
    ⟨"c", "A"⟩ ∈ channelsOf (asked past e d.link) := by
  obtain ⟨run, hrun⟩ : ∃ run, subscribedOnce = some run := ⟨_, rfl⟩
  have hreached : Reached run.1 run.2 := (Reached.start rfl unbegun_start).replay hrun
  have hrest : run.2.pump = .waiting ∧ run.2.registry.announced.unseen run.2.versionSeen = false ∧
      run.2.session.desired.unseen run.2.session.desiredSeen = false := by
    cases hrun
    decide
  obtain ⟨d, hd⟩ : ∃ d, run.2.session.phase = .driving d := by
    cases hrun
    exact ⟨_, rfl⟩
  obtain ⟨entry, hentry, hmem⟩ : ∃ entry, run.2.registry.entries.get? "widget" = some entry ∧
      ⟨"c", "A"⟩ ∈ entry.addresses := by
    cases hrun
    exact ⟨_, rfl, by decide⟩
  exact ⟨run.1, run.2, d, hreached, hrest.1, hrest.2.1, hd, hrest.2.2,
    (hreached.asked_iff_held hrest.1 hrest.2.1 hd hrest.2.2 _).mpr ⟨"widget", entry, hentry, hmem⟩⟩

end Edge

end ChannelFeed
