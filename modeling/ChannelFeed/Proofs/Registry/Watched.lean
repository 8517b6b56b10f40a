import ChannelFeed.Proofs.Registry.Book
import ChannelFeed.Proofs.Registry.Version

namespace ChannelFeed

/-- How many of the calls leave the registry with another union than they found. -/
def Registry.unionTurns : Registry → List Call → Nat
  | _, [] => 0
  | r, call :: rest =>
    (if (r.answer call).1.union = r.union then 0 else 1) + (r.answer call).1.unionTurns rest

/-- What a call does to a registry's version and to whoever watches it. -/
structure Registry.CallWatched (r : Registry) (call : Call) (r' : Registry) : Prop where
  kept : (∀ a, a ∈ r'.union ↔ a ∈ r.union) → r'.version = r.version
  bumped : ¬ (∀ a, a ∈ r'.union ↔ a ∈ r.union) → r'.version = r.version + 1
  /-- The watched value is the version before and after. -/
  matching : r.announced.value = r.version ∧ r'.announced.value = r'.version
  /-- It is set once with each bump and not otherwise. -/
  sent : r'.announced =
    if r'.version = r.version then r.announced else r.announced.send r'.version
  /-- An observer that had seen everything has something to see exactly after a bump. -/
  noticed : ∀ seen, r.announced.unseen seen = false →
    (r'.announced.unseen seen = true ↔ r'.version = r.version + 1)
  /-- What an observer had not seen stays for it to see. -/
  pending : ∀ seen, seen ≤ r.announced.changes → r.announced.unseen seen = true →
    r'.announced.unseen seen = true
  /-- A handle that is not live changes nothing. -/
  stale : ∀ handle, call = .unregister handle → r.subscriberOf? handle = none → r' = r
  /-- Neither does the union change by a declaration within it that keeps what its subscriber had
  declared before. -/
  within : ∀ subscriber component addresses, call = .register subscriber component addresses →
    (∀ a ∈ addresses, a ∈ r.union) →
    (∀ former, r.addressesOf? subscriber = some former → ∀ a ∈ former, a ∈ addresses) →
    r'.version = r.version

namespace Registry

variable {r : Registry}

theorem union_eq_iff_mem (r r' : Registry) :
    r'.union = r.union ↔ ∀ a, a ∈ r'.union ↔ a ∈ r.union := by
  constructor
  · intro he a
    rw [he]
  · exact SortedSet.ext_mem

theorem Sound.answer (h : r.Sound) (call : Call) : (r.answer call).1.Sound := by
  cases call with
  | register subscriber component addresses => exact h.register subscriber component addresses
  | unregister handle => exact h.unregister handle

theorem Sound.answer_told (h : r.Sound) (call : Call) : Told r (r.answer call).1 := by
  cases call with
  | register subscriber component addresses => exact h.register_told subscriber component addresses
  | unregister handle => exact h.unregister_told handle

/-- The version and the watchers move by the calls that change the union and by nothing else. -/
theorem Sound.run_told (h : r.Sound) (ha : r.announced = ⟨r.version, r.version⟩)
    (calls : List Call) :
    (runCalls Registry.answer r calls).1.Sound ∧
      (runCalls Registry.answer r calls).1.version = r.version + r.unionTurns calls ∧
      (runCalls Registry.answer r calls).1.announced =
        ⟨r.version + r.unionTurns calls, r.version + r.unionTurns calls⟩ := by
  induction calls generalizing r with
  | nil => exact ⟨h, rfl, ha⟩
  | cons call rest ih =>
    have ht := h.answer_told call
    unfold Told at ht
    split at ht
    · rename_i hu
      obtain ⟨hv, hw⟩ := ht
      have hrest := ih (h.answer call) (by rw [hw, hv, ha])
      simpa only [runCalls, unionTurns, hu, ↓reduceIte, hv, Nat.zero_add] using hrest
    · rename_i hu
      obtain ⟨hv, hw⟩ := ht
      have hrest := ih (h.answer call) (by rw [hw, hv, ha]; rfl)
      simpa only [runCalls, unionTurns, hu, ↓reduceIte, hv, Nat.add_assoc] using hrest

/-- The registry that any calls lead to, with its watchers. -/
theorem run_told_blank (calls : List Call) :
    (runCalls Registry.answer .empty calls).1.Sound ∧
      (runCalls Registry.answer .empty calls).1.version = empty.unionTurns calls ∧
      (runCalls Registry.answer .empty calls).1.announced =
        ⟨empty.unionTurns calls, empty.unionTurns calls⟩ := by
  simpa [empty] using sound_empty.run_told rfl calls

theorem unregister_stale {handle : Nat} (h : r.subscriberOf? handle = none) :
    (r.unregister handle).1 = r := by
  have ho : r.owners.get? handle = none := h
  simp only [unregister_eq, ho]

/-- A declaration within the union that takes nothing back leaves the union as it is. -/
theorem Sound.register_within (h : r.Sound) (subscriber : String) (component : Option String)
    (addresses : List Address) (hin : ∀ a ∈ addresses, a ∈ r.union)
    (hkeep : ∀ former, r.addressesOf? subscriber = some former → ∀ a ∈ former, a ∈ addresses)
    (a : Address) :
    a ∈ (r.register subscriber component addresses).1.union ↔ a ∈ r.union := by
  rw [(h.register subscriber component addresses).mem_union]
  simp only [register_eq, insert_entries]
  constructor
  · intro hx
    obtain ⟨s, entry, he, ha⟩ := hx
    split at he
    · split at he
      · cases he
      · cases he
        exact hin a (SortedSet.mem_ofList.mp ha)
    · exact h.mem_union a |>.mpr ⟨s, entry, he, ha⟩
  · intro hx
    obtain ⟨s, entry, he, ha⟩ := (h.mem_union a).mp hx
    by_cases hs : s = subscriber
    · subst hs
      have hm : a ∈ addresses := hkeep entry.addresses (by simp [addressesOf?, he]) a ha
      have hne : (SortedSet.ofList addresses).isEmpty = false := by
        rw [SortedSet.isEmpty_ofList]
        cases addresses with
        | nil => cases hm
        | cons _ _ => rfl
      refine ⟨s, ⟨r.nextHandle, ⟨component <|> addresses.head?.map Address.component⟩,
        .ofList addresses⟩, ?_, SortedSet.mem_ofList.mpr hm⟩
      simp [hne]
    · exact ⟨s, entry, by simpa [hs] using he, ha⟩

/-- What a call does to a registry whose watchers know of everything before it. -/
theorem Sound.callWatched (h : r.Sound) (ha : r.announced = ⟨r.version, r.version⟩) (call : Call) :
    r.CallWatched call (r.answer call).1 := by
  have ht := h.answer_told call
  have hstale : ∀ handle, call = .unregister handle → r.subscriberOf? handle = none →
      (r.answer call).1 = r := by
    rintro handle rfl hn
    exact unregister_stale hn
  have hwithin : ∀ subscriber component addresses,
      call = .register subscriber component addresses → (∀ a ∈ addresses, a ∈ r.union) →
      (∀ former, r.addressesOf? subscriber = some former → ∀ a ∈ former, a ∈ addresses) →
      ∀ a, a ∈ (r.answer call).1.union ↔ a ∈ r.union := by
    rintro subscriber component addresses rfl hin hkeep
    exact h.register_within subscriber component addresses hin hkeep
  unfold Told at ht
  split at ht
  · rename_i hu
    obtain ⟨hv, hw⟩ := ht
    have hm := (union_eq_iff_mem _ _).mp hu
    refine ⟨fun _ => hv, fun hn => absurd hm hn, ⟨by rw [ha], by rw [hw, hv, ha]⟩, ?_, ?_, ?_,
      hstale, fun _ _ _ _ _ _ => hv⟩
    · rw [if_pos hv, hw]
    · intro seen hs
      rw [hw, hs, hv]
      simp
    · intro seen _ hs
      rw [hw, hs]
  · rename_i hu
    obtain ⟨hv, hw⟩ := ht
    have hm := fun hm => hu ((union_eq_iff_mem r (r.answer call).1).mpr hm)
    refine ⟨fun hk => absurd hk hm, fun _ => hv, ⟨by rw [ha], by rw [hw, hv]; rfl⟩, ?_, ?_, ?_,
      hstale, fun s c as hc hin hk => absurd (hwithin s c as hc hin hk) hm⟩
    · rw [if_neg (by omega), hw, hv]
    · intro seen hs
      rw [hw, hv]
      simp [Watch.unseen, Watch.send] at hs ⊢
      omega
    · intro seen hle hs
      rw [hw]
      simp [Watch.unseen, Watch.send]
      omega

/-- Whatever calls were made on a new registry, the next one moves its version by one exactly if it
changes the union, and the watchers are told exactly then. -/
theorem run_watched (calls : List Call) (call : Call) :
    (runCalls Registry.answer .empty calls).1.version = empty.unionTurns calls ∧
      (runCalls Registry.answer .empty calls).1.announced =
        ⟨empty.unionTurns calls, empty.unionTurns calls⟩ ∧
      (runCalls Registry.answer .empty calls).1.CallWatched call
        ((runCalls Registry.answer .empty calls).1.answer call).1 := by
  obtain ⟨hs, hv, ha⟩ := run_told_blank calls
  exact ⟨hv, ha, hs.callWatched (by rw [ha, hv]) call⟩

end Registry

end ChannelFeed
