import ChannelFeed.Dispatcher
import ChannelFeed.Proofs.Generation.Touched
import ChannelFeed.Proofs.Registry.Sound

namespace ChannelFeed.Dispatcher

variable {d : Dispatcher}

theorem foldl_erase_get? (handles : List Nat) (slots : SortedMap Nat Slot) (k : Nat) :
    (handles.foldl SortedMap.erase slots).get? k =
      if k ∈ handles then none else slots.get? k := by
  induction handles generalizing slots with
  | nil => rfl
  | cons handle rest ih =>
    rw [List.foldl_cons, ih, SortedMap.get?_erase]
    by_cases hr : k ∈ rest
    · simp [hr]
    · by_cases hk : k = handle <;> simp [hr, hk]

theorem mem_handlesOf (d : Dispatcher) (subscriber : String) (k : Nat) :
    k ∈ d.handlesOf subscriber ↔
      ∃ slot, d.slots.get? k = some slot ∧ slot.subscriber = subscriber := by
  unfold handlesOf
  simp only [List.mem_map, List.mem_filter, beq_iff_eq, SortedMap.get?_eq_some_iff]
  constructor
  · intro hx
    obtain ⟨⟨k, slot⟩, ⟨hm, hs⟩, rfl⟩ := hx
    exact ⟨slot, hm, hs⟩
  · intro hx
    obtain ⟨slot, hm, hs⟩ := hx
    exact ⟨(k, slot), ⟨hm, hs⟩, rfl⟩

theorem erase_handlesOf_get? (d : Dispatcher) (subscriber : String) (k : Nat) :
    ((d.handlesOf subscriber).foldl SortedMap.erase d.slots).get? k =
      (d.slots.get? k).filter (fun slot => decide (slot.subscriber ≠ subscriber)) := by
  rw [foldl_erase_get?]
  simp only [mem_handlesOf]
  cases hs : d.slots.get? k with
  | none => simp
  | some slot => by_cases he : slot.subscriber = subscriber <;> simp [he, Option.filter]

theorem install_handle (d : Dispatcher) (subscriber : String) (component : Option String)
    (addresses : List Address) (widget : Nat) :
    (d.install subscriber component addresses widget).2 = d.registry.nextHandle := by
  simp only [install, Registry.register_eq, Registry.insert_eq]

theorem install_registry (d : Dispatcher) (subscriber : String) (component : Option String)
    (addresses : List Address) (widget : Nat) :
    (d.install subscriber component addresses widget).1.registry =
      (d.registry.register subscriber component addresses).1 := rfl

theorem register_fresh (h : d.registry.Sound) (subscriber : String) (component : Option String)
    (addresses : List Address) :
    (d.registry.register subscriber component addresses).1.subscriberOf? d.registry.nextHandle =
      if addresses.isEmpty then none else some subscriber := by
  rw [Registry.register_eq]
  unfold Registry.subscriberOf?
  rw [Registry.insert_owners, SortedSet.isEmpty_ofList, h.fresh_unowned]
  cases addresses <;> simp

theorem register_scope (d : Dispatcher) (subscriber : String) (component : Option String)
    {addresses : List Address} (hne : addresses.isEmpty = false) :
    (d.registry.register subscriber component addresses).1.scopeOf? subscriber =
      some ⟨component <|> addresses.head?.map Address.component⟩ := by
  rw [Registry.register_eq]
  unfold Registry.scopeOf?
  rw [Registry.insert_entries, SortedSet.isEmpty_ofList, hne]
  simp

/-- An installation takes the subscriber's slots out and puts in a fresh one, unless nothing is
declared. -/
theorem install_get? (h : d.registry.Sound) (subscriber : String) (component : Option String)
    (addresses : List Address) (widget k : Nat) :
    (d.install subscriber component addresses widget).1.slots.get? k =
      if k = d.registry.nextHandle ∧ addresses.isEmpty = false then
        some ⟨subscriber, ⟨component <|> addresses.head?.map Address.component⟩,
          .ofList addresses, false, true, widget⟩
      else (d.slots.get? k).filter (fun slot => decide (slot.subscriber ≠ subscriber)) := by
  have hhandle := d.install_handle subscriber component addresses widget
  unfold install at hhandle ⊢
  dsimp only at hhandle ⊢
  rw [hhandle, register_fresh h, ← erase_handlesOf_get?]
  cases hne : addresses.isEmpty with
  | true => simp
  | false =>
    rw [register_scope d subscriber component hne]
    simp [SortedMap.get?_insert]

theorem unsubscribe_registry (d : Dispatcher) (handle : Nat) :
    (d.unsubscribe handle).1.registry = (d.registry.unregister handle).1 := by
  unfold unsubscribe
  dsimp only
  split <;> rfl

theorem unsubscribe_get? (d : Dispatcher) (handle k : Nat) :
    (d.unsubscribe handle).1.slots.get? k = if k = handle then none else d.slots.get? k := by
  unfold unsubscribe
  dsimp only
  split
  · rw [SortedMap.get?_erase]
  · rename_i hnone
    by_cases hk : k = handle
    · rw [if_pos hk, hk, hnone]
    · rw [if_neg hk]

theorem adjust_registry (d : Dispatcher) (handle : Nat) (f : Slot → Slot) :
    (d.adjust handle f).registry = d.registry := by
  unfold adjust
  split <;> rfl

theorem adjust_generation (d : Dispatcher) (handle : Nat) (f : Slot → Slot) :
    (d.adjust handle f).generation = d.generation := by
  unfold adjust
  split <;> rfl

theorem adjust_get? (d : Dispatcher) (handle : Nat) (f : Slot → Slot) (k : Nat) :
    (d.adjust handle f).slots.get? k =
      if k = handle then (d.slots.get? k).map f else d.slots.get? k := by
  unfold adjust
  by_cases hk : k = handle
  · subst hk
    cases hs : d.slots.get? k with
    | none => simp [hs]
    | some slot => simp [SortedMap.get?_insert]
  · cases hs : d.slots.get? handle with
    | none => simp [hk]
    | some slot => simp [SortedMap.get?_insert, hk]

end ChannelFeed.Dispatcher
