import ChannelFeed.Proofs.Panel.Kept
import ChannelFeed.Proofs.Panel.Scene

namespace ChannelFeed

/-- Each slot stands beside the entry of its subscriber, and each entry beside the slot of its
handle. -/
structure Dispatcher.Paired (d : Dispatcher) : Prop where
  sound : d.registry.Sound
  entry : ∀ handle slot, d.slots.get? handle = some slot →
    d.registry.entries.get? slot.subscriber = some ⟨handle, slot.scope, slot.addresses⟩
  slot : ∀ subscriber e, d.registry.entries.get? subscriber = some e →
    ∃ slot, d.slots.get? e.handle = some slot ∧ slot.subscriber = subscriber

/-- What registry and slots have to say of one another. -/
structure Dispatcher.Aligned (d : Dispatcher) : Prop where
  /-- The handles of the slots are the live ones. -/
  live : ∀ handle, handle ∈ d.slots.keys ↔ ∃ s, d.registry.subscriberOf? handle = some s
  /-- A slot says what the entry of its subscriber says, under the same handle. -/
  entry : ∀ handle slot, d.slots.get? handle = some slot →
    d.registry.subscriberOf? handle = some slot.subscriber ∧
      d.registry.entries.get? slot.subscriber = some ⟨handle, slot.scope, slot.addresses⟩
  /-- No subscriber has two slots. -/
  single : ∀ h k slot slot', d.slots.get? h = some slot → d.slots.get? k = some slot' →
    slot.subscriber = slot'.subscriber → h = k
  size : d.size = d.registry.size
  /-- Whoever has a slot can look at the current generation, under the scope of the slot, and nobody
  else can. -/
  view : ∀ subscriber v, d.view? subscriber = some v ↔
    ∃ handle slot, d.slots.get? handle = some slot ∧ slot.subscriber = subscriber ∧
      v = ⟨d.generation, slot.scope⟩

namespace Dispatcher

variable {d : Dispatcher}

theorem paired_empty : Paired .empty where
  sound := Registry.sound_empty
  entry _ _ hs := nomatch hs
  slot _ _ he := nomatch he

theorem Paired.install (h : d.Paired) (subscriber : String) (component : Option String)
    (addresses : List Address) (widget : Nat) :
    (d.install subscriber component addresses widget).1.Paired := by
  have hslot := install_get? h.sound subscriber component addresses widget
  have hentry : ∀ k, (d.install subscriber component addresses widget).1.registry.entries.get? k =
      if k = subscriber then
        if addresses.isEmpty then none
        else some ⟨d.registry.nextHandle, ⟨component <|> addresses.head?.map Address.component⟩,
          .ofList addresses⟩
      else d.registry.entries.get? k := by
    intro k
    rw [install_registry, Registry.register_eq, Registry.insert_entries, SortedSet.isEmpty_ofList]
  refine ⟨?_, ?_, ?_⟩
  · rw [install_registry]
    exact h.sound.register subscriber component addresses
  · intro k slot hs
    rw [hslot] at hs
    split at hs
    · rename_i hk
      cases hs
      rw [hentry, if_pos rfl, hk.1, hk.2]
      rfl
    · obtain ⟨hs, hne⟩ := Option.filter_eq_some_iff.mp hs
      rw [hentry, if_neg (of_decide_eq_true hne)]
      exact h.entry k slot hs
  · intro k e he
    rw [hentry] at he
    split at he
    · rename_i hk
      split at he
      · cases he
      · rename_i hne
        cases he
        rw [hslot, if_pos ⟨rfl, Bool.eq_false_iff.mpr hne⟩]
        exact ⟨_, rfl, hk.symm⟩
    · rename_i hk
      obtain ⟨slot, hs, hsub⟩ := h.slot k e he
      have hold : e.handle ≠ d.registry.nextHandle := Nat.ne_of_lt (h.sound.issued k e he)
      rw [hslot, if_neg (fun hx => hold hx.1), hs]
      refine ⟨slot, Option.filter_eq_some_iff.mpr ⟨rfl, ?_⟩, hsub⟩
      exact decide_eq_true (fun he => hk (hsub.symm.trans he))

theorem Paired.unsubscribe (h : d.Paired) (handle : Nat) : (d.unsubscribe handle).1.Paired := by
  have hslot := d.unsubscribe_get? handle
  have hentry : ∀ k, (d.unsubscribe handle).1.registry.entries.get? k =
      if d.registry.owners.get? handle = some k then none else d.registry.entries.get? k := by
    intro k
    rw [unsubscribe_registry, Registry.unregister_entries]
  refine ⟨?_, ?_, ?_⟩
  · rw [unsubscribe_registry]
    exact h.sound.unregister handle
  · intro k slot hs
    rw [hslot] at hs
    split at hs
    · cases hs
    · rename_i hk
      have he := h.entry k slot hs
      rw [hentry, if_neg, he]
      -- the owner of the handle has no other one
      intro ho
      obtain ⟨e, he', hh⟩ := (h.sound.owned handle slot.subscriber).mp ho
      rw [he] at he'
      cases he'
      exact hk hh
  · intro k e he
    rw [hentry] at he
    split at he
    · cases he
    · rename_i ho
      obtain ⟨slot, hs, hsub⟩ := h.slot k e he
      refine ⟨slot, ?_, hsub⟩
      rw [hslot, if_neg, hs]
      intro hh
      exact ho ((h.sound.owned handle k).mpr ⟨e, he, hh⟩)

theorem Paired.adjust (h : d.Paired) (handle : Nat) {f : Slot → Slot}
    (hf : ∀ slot, (f slot).subscriber = slot.subscriber ∧ (f slot).scope = slot.scope ∧
      (f slot).addresses = slot.addresses) : (d.adjust handle f).Paired := by
  refine ⟨?_, ?_, ?_⟩
  · rw [adjust_registry]
    exact h.sound
  · intro k slot hs
    rw [adjust_get?] at hs
    rw [adjust_registry]
    split at hs
    · obtain ⟨before, hbefore, rfl⟩ := Option.map_eq_some_iff.mp hs
      obtain ⟨hsub, hscope, haddresses⟩ := hf before
      rw [hsub, hscope, haddresses]
      exact h.entry k before hbefore
    · exact h.entry k slot hs
  · intro k e he
    rw [adjust_registry] at he
    obtain ⟨slot, hs, hsub⟩ := h.slot k e he
    rw [adjust_get?]
    split
    · exact ⟨f slot, by rw [hs]; rfl, (hf slot).1.trans hsub⟩
    · exact ⟨slot, hs, hsub⟩

theorem kept_paired : Kept Paired where
  install _ subscriber component addresses widget h :=
    h.install subscriber component addresses widget
  unsubscribe _ handle h := h.unsubscribe handle
  merge _ _ h := ⟨h.sound, h.entry, h.slot⟩
  prime _ handle h := h.adjust handle (fun _ => ⟨rfl, rfl, rfl⟩)
  mute _ handle h := h.adjust handle (fun _ => ⟨rfl, rfl, rfl⟩)

theorem Paired.single (h : d.Paired) {handle k : Nat} {slot slot' : Slot}
    (hs : d.slots.get? handle = some slot) (hs' : d.slots.get? k = some slot')
    (hsub : slot.subscriber = slot'.subscriber) : handle = k := by
  have he := h.entry handle slot hs
  have he' := h.entry k slot' hs'
  rw [hsub, he'] at he
  exact (congrArg Entry.handle (Option.some.inj he)).symm

/-- The subscribers of the slots are those of the entries, each once. -/
theorem Paired.subscribers_perm (h : d.Paired) :
    (d.slots.entries.map (fun e => e.2.subscriber)).Perm d.registry.entries.keys := by
  have hslots : (d.slots.entries.map (fun e => e.2.subscriber)).Nodup := by
    refine List.pairwise_map.mpr (d.slots.entries_nodup.imp_of_mem ?_)
    intro e f he hf hne hsub
    have hs := SortedMap.get?_eq_some_iff.mpr he
    have hs' := SortedMap.get?_eq_some_iff.mpr hf
    have hk := h.single hs hs' hsub
    rw [hk, hs'] at hs
    exact hne (Prod.ext hk (Option.some.inj hs).symm)
  refine (List.perm_ext_iff_of_nodup hslots d.registry.entries.keys_nodup).mpr ?_
  intro s
  rw [List.mem_map, SortedMap.mem_keys_iff]
  constructor
  · intro hx
    obtain ⟨⟨handle, slot⟩, hm, rfl⟩ := hx
    exact ⟨_, h.entry handle slot (SortedMap.get?_eq_some_iff.mpr hm)⟩
  · intro hx
    obtain ⟨e, he⟩ := hx
    obtain ⟨slot, hs, rfl⟩ := h.slot s e he
    exact ⟨(e.handle, slot), SortedMap.get?_eq_some_iff.mp hs, rfl⟩

theorem Paired.size_eq (h : d.Paired) : d.size = d.registry.size := by
  have hlength := h.subscribers_perm.length_eq
  unfold SortedMap.keys at hlength
  rw [List.length_map, List.length_map] at hlength
  exact hlength

theorem Paired.live (h : d.Paired) (handle : Nat) :
    handle ∈ d.slots.keys ↔ ∃ s, d.registry.subscriberOf? handle = some s := by
  rw [SortedMap.mem_keys_iff]
  constructor
  · intro hx
    obtain ⟨slot, hs⟩ := hx
    exact ⟨slot.subscriber, (h.sound.owned _ _).mpr ⟨_, h.entry handle slot hs, rfl⟩⟩
  · intro hx
    obtain ⟨s, ho⟩ := hx
    obtain ⟨e, he, rfl⟩ := (h.sound.owned _ _).mp ho
    obtain ⟨slot, hs, _⟩ := h.slot s e he
    exact ⟨slot, hs⟩

theorem Paired.view_eq_some (h : d.Paired) (subscriber : String) (v : View) :
    d.view? subscriber = some v ↔
      ∃ handle slot, d.slots.get? handle = some slot ∧ slot.subscriber = subscriber ∧
        v = ⟨d.generation, slot.scope⟩ := by
  unfold view? Registry.scopeOf?
  rw [Option.map_map, Option.map_eq_some_iff]
  constructor
  · intro hx
    obtain ⟨e, he, rfl⟩ := hx
    obtain ⟨slot, hs, rfl⟩ := h.slot subscriber e he
    have hsame := h.entry e.handle slot hs
    rw [he] at hsame
    have hscope : e.scope = slot.scope := congrArg Entry.scope (Option.some.inj hsame)
    exact ⟨e.handle, slot, hs, rfl, congrArg (View.mk d.generation) hscope⟩
  · intro hx
    obtain ⟨handle, slot, hs, rfl, rfl⟩ := hx
    exact ⟨_, h.entry handle slot hs, rfl⟩

theorem Paired.aligned (h : d.Paired) : d.Aligned where
  live := h.live
  entry handle slot hs := by
    have he := h.entry handle slot hs
    exact ⟨(h.sound.owned _ _).mpr ⟨_, he, rfl⟩, he⟩
  single _ _ _ _ hs hs' hsub := h.single hs hs' hsub
  size := h.size_eq
  view := h.view_eq_some

end Dispatcher

namespace Panel

open Scene

variable {a b : Scene} {what : Option Happening}

/-- A step changes the dispatcher in one of the ways there are. -/
theorem Scene.Next.kept {P : Dispatcher → Prop} (k : Dispatcher.Kept P) (h : Next a what b)
    (ha : P a.panel.dispatcher) : P b.panel.dispatcher := by
  cases h with
  | subscribe => exact k.install _ _ _ _ _ ha
  | unsubscribe => exact k.unsubscribe _ _ ha
  | letGo _ _ gone => exact k.panel.letGo gone ha
  | merge => exact k.merge _ _ ha
  | prime => exact k.prime _ _ ha
  | mute => exact k.mute _ _ ha
  | call =>
    rw [add_panel, call_dispatcher]
    exact ha
  | unattend => exact ha
  | reply => exact ha
  | begin => exact ha
  | pass => exact ha
  | finish => exact ha

theorem Scene.Reached.paired (h : Reached a) : a.panel.dispatcher.Paired := by
  induction h with
  | refl => exact Dispatcher.paired_empty
  | tail _ hx ih =>
    obtain ⟨_, hn⟩ := hx
    exact hn.kept Dispatcher.kept_paired ih

/-- A callback is given the scope of the slot of its handle. -/
theorem Scene.Next.called_slot {delivery handle : Nat} {v : View}
    (h : Next a (some (.called delivery handle v)) b) :
    ∃ slot, b.panel.dispatcher.slots.get? handle = some slot ∧ v.scope = slot.scope := by
  cases h with
  | call _ _ due =>
    refine ⟨_, ?_, rfl⟩
    rw [add_panel, call_dispatcher]
    exact (Dispatcher.due?_eq_some.mp due).1

/-- Registry and slots never disagree, whatever is done to a panel and whatever its callbacks do in the
middle of a delivery: after each thing that happens, and in the end, they are in step. A callback that
starts is given the scope under which its subscriber can look at the current generation then. -/
theorem uses_keep_aligned (uses : List Use) :
    (∀ m ∈ historyOf uses, m.panel.dispatcher.Aligned) ∧ (used uses).dispatcher.Aligned ∧
    ∀ m ∈ historyOf uses, ∀ delivery handle v, m.what = .called delivery handle v →
      ∃ subscriber now, m.panel.dispatcher.registry.subscriberOf? handle = some subscriber ∧
        m.panel.dispatcher.view? subscriber = some now ∧ now.scope = v.scope := by
  have hr := Reached.uses uses
  refine ⟨?_, hr.paired.aligned, ?_⟩
  · refine hr.moments ?_
    intro a b what ha hn
    exact (ha.next hn).paired.aligned
  · refine hr.moments ?_
    intro a b what ha hn delivery handle v hcalled
    subst hcalled
    have hp := (ha.next hn).paired
    obtain ⟨slot, hs, hscope⟩ := hn.called_slot
    refine ⟨slot.subscriber, ⟨b.panel.dispatcher.generation, slot.scope⟩,
      (hp.aligned.entry handle slot hs).1, ?_, hscope.symm⟩
    exact (hp.view_eq_some _ _).mpr ⟨handle, slot, hs, rfl, rfl⟩

end Panel

end ChannelFeed
