import ChannelFeed.Proofs.Ordered.Entries
import ChannelFeed.Proofs.Registry.Tally

namespace ChannelFeed.Registry

variable {r : Registry}

def holders (r : Registry) (a : Address) : Nat :=
  r.entries.entries.countP (fun e => decide (a ∈ e.2.addresses))

/-- Whether the declaration of a subscriber holds an address, as a number. -/
def held (r : Registry) (subscriber : String) (a : Address) : Nat :=
  match r.entries.get? subscriber with
  | some entry => entry.addresses.toList.count a
  | none => 0

/-- Counts and owners say what the entries say, and no live handle is still to be given out. -/
structure Sound (r : Registry) : Prop where
  counted : Tallies r.counts r.holders
  owned : ∀ handle subscriber, r.owners.get? handle = some subscriber ↔
    ∃ entry, r.entries.get? subscriber = some entry ∧ entry.handle = handle
  issued : ∀ subscriber entry, r.entries.get? subscriber = some entry →
    entry.handle < r.nextHandle

theorem sound_empty : Sound empty :=
  ⟨fun _ => rfl, by simp [empty], by simp [empty]⟩

theorem Sound.owner_issued (h : r.Sound) {handle : Nat} {subscriber : String}
    (ho : r.owners.get? handle = some subscriber) : handle < r.nextHandle := by
  obtain ⟨entry, he, rfl⟩ := (h.owned handle subscriber).mp ho
  exact h.issued subscriber entry he

theorem Sound.fresh_unowned (h : r.Sound) : r.owners.get? r.nextHandle = none := by
  cases ho : r.owners.get? r.nextHandle with
  | none => rfl
  | some subscriber => exact absurd (h.owner_issued ho) (Nat.lt_irrefl _)

theorem Sound.handle_unique (h : r.Sound) {s t : String} {e f : Entry}
    (hs : r.entries.get? s = some e) (ht : r.entries.get? t = some f)
    (he : e.handle = f.handle) : s = t := by
  have h1 := (h.owned e.handle s).mpr ⟨e, hs, rfl⟩
  have h2 := (h.owned e.handle t).mpr ⟨f, ht, he.symm⟩
  exact Option.some.inj (h1.symm.trans h2)

theorem mem_union_iff (r : Registry) (a : Address) : a ∈ r.union ↔ r.contains a = true := by
  change a ∈ r.counts.entries.map Prod.fst ↔ (r.counts.get? a).isSome = true
  rw [Option.isSome_iff_exists, List.mem_map]
  simp only [SortedMap.get?_eq_some_iff]
  constructor
  · intro hx
    obtain ⟨⟨b, n⟩, hm, rfl⟩ := hx
    exact ⟨n, hm⟩
  · intro hx
    obtain ⟨n, hm⟩ := hx
    exact ⟨(a, n), hm, rfl⟩

theorem Sound.mem_union_iff_holders (h : r.Sound) (a : Address) :
    a ∈ r.union ↔ 0 < r.holders a :=
  (mem_union_iff r a).trans (h.counted.contains_iff a)

/-- The union is what the live declarations hold together. -/
theorem Sound.mem_union (h : r.Sound) (a : Address) :
    a ∈ r.union ↔
      ∃ subscriber entry, r.entries.get? subscriber = some entry ∧ a ∈ entry.addresses := by
  rw [h.mem_union_iff_holders, holders, List.countP_pos_iff]
  constructor
  · intro hx
    obtain ⟨⟨subscriber, entry⟩, hm, ha⟩ := hx
    exact ⟨subscriber, entry, SortedMap.get?_eq_some_iff.mpr hm, of_decide_eq_true ha⟩
  · intro hx
    obtain ⟨subscriber, entry, he, ha⟩ := hx
    exact ⟨(subscriber, entry), SortedMap.get?_eq_some_iff.mp he, decide_eq_true ha⟩

theorem holders_erase (r : Registry) (subscriber : String) (a : Address) :
    r.holders a = (r.entries.erase subscriber).entries.countP
      (fun e => decide (a ∈ e.2.addresses)) + r.held subscriber a := by
  unfold holders held
  cases he : r.entries.get? subscriber with
  | none => rw [SortedMap.erase_of_get?_none he]; rfl
  | some entry =>
    rw [SortedMap.countP_erase _ he]
    simp only [SortedSet.count_toList, decide_eq_true_eq]

theorem held_le_holders (r : Registry) (subscriber : String) (a : Address) :
    r.held subscriber a ≤ r.holders a := by
  have := r.holders_erase subscriber a
  omega

theorem held_le_one (r : Registry) (subscriber : String) (a : Address) :
    r.held subscriber a ≤ 1 := by
  unfold held
  split
  · rw [SortedSet.count_toList]
    split <;> omega
  · omega

theorem removeEntry_entries (r : Registry) (subscriber : String) :
    (r.removeEntry subscriber).1.entries = r.entries.erase subscriber := by
  unfold removeEntry
  split
  · rename_i he
    exact (SortedMap.erase_of_get?_none he).symm
  · rfl

theorem removeEntry_owners (r : Registry) (subscriber : String) (handle : Nat) :
    (r.removeEntry subscriber).1.owners.get? handle =
      if (r.entries.get? subscriber).map Entry.handle = some handle then none
      else r.owners.get? handle := by
  unfold removeEntry
  split
  · rename_i he
    simp [he]
  · rename_i entry he
    simp [he, SortedMap.get?_erase, eq_comm]

@[simp] theorem removeEntry_nextHandle (r : Registry) (subscriber : String) :
    (r.removeEntry subscriber).1.nextHandle = r.nextHandle := by
  unfold removeEntry
  split <;> rfl

@[simp] theorem removeEntry_version (r : Registry) (subscriber : String) :
    (r.removeEntry subscriber).1.version = r.version := by
  unfold removeEntry
  split <;> rfl

@[simp] theorem removeEntry_announced (r : Registry) (subscriber : String) :
    (r.removeEntry subscriber).1.announced = r.announced := by
  unfold removeEntry
  split <;> rfl

section counted

variable {f : Address → Nat}

/-- Whatever the counts are when an entry goes, its own addresses are counted once less. -/
theorem removeEntry_tallies (h : Tallies r.counts f) (subscriber : String) :
    Tallies (r.removeEntry subscriber).1.counts (fun a => f a - r.held subscriber a) := by
  cases he : r.entries.get? subscriber with
  | none => simpa [removeEntry, held, he] using h
  | some entry =>
    simp only [removeEntry, held, he]
    exact releaseAll_tallies _ h

theorem removeEntry_left (h : Tallies r.counts f) (subscriber : String)
    (hf : ∀ a, r.held subscriber a ≤ f a) :
    (r.removeEntry subscriber).2 = true ↔ ∃ a, 0 < r.held subscriber a ∧ f a = 1 := by
  have hone := r.held_le_one subscriber
  unfold removeEntry
  unfold held at hf hone ⊢
  split
  · rename_i he
    simp [he]
  · rename_i entry he
    simp only [he] at hf hone ⊢
    rw [releaseAll_left _ h hf]
    constructor
    · intro hx
      obtain ⟨a, ha, hc⟩ := hx
      have := List.count_pos_iff.mpr ha
      have := hone a
      exact ⟨a, by omega, by omega⟩
    · intro hx
      obtain ⟨a, ha, hc⟩ := hx
      have := hone a
      exact ⟨a, List.count_pos_iff.mp ha, by omega⟩

end counted

/-- Tells the watchers if there is something to tell. -/
def bumpIf (changed : Bool) (r : Registry) : Registry := if changed then r.bump else r

@[simp] theorem bumpIf_entries (c : Bool) : (bumpIf c r).entries = r.entries := by
  cases c <;> rfl

@[simp] theorem bumpIf_owners (c : Bool) : (bumpIf c r).owners = r.owners := by
  cases c <;> rfl

@[simp] theorem bumpIf_counts (c : Bool) : (bumpIf c r).counts = r.counts := by
  cases c <;> rfl

@[simp] theorem bumpIf_nextHandle (c : Bool) : (bumpIf c r).nextHandle = r.nextHandle := by
  cases c <;> rfl

theorem Sound.bumpIf (h : r.Sound) (c : Bool) : (bumpIf c r).Sound := by
  cases c
  · exact h
  · exact ⟨h.counted, h.owned, h.issued⟩

/-- The registry in the middle of a registration: the new addresses are counted beside the old. -/
def acquired (r : Registry) (addresses : AddressSet) : Registry :=
  { r with
    nextHandle := r.nextHandle + 1
    counts := (countAll acquire r.counts addresses.toList).1 }

/-- Puts an entry under the handle that was given out last. -/
def enter (r : Registry) (subscriber : String) (entry : Entry) : Registry :=
  if entry.addresses.isEmpty then r
  else { r with
    owners := r.owners.insert entry.handle subscriber
    entries := r.entries.insert subscriber entry }

/-- Whether a registration changes the union. -/
def insertChanges (r : Registry) (subscriber : String) (addresses : AddressSet) : Bool :=
  (countAll acquire r.counts addresses.toList).2 ||
    ((r.acquired addresses).removeEntry subscriber).2

theorem insert_eq (r : Registry) (subscriber : String) (scope : Scope) (addresses : AddressSet) :
    r.insert subscriber scope addresses =
      (bumpIf (r.insertChanges subscriber addresses)
        (((r.acquired addresses).removeEntry subscriber).1.enter subscriber
          ⟨r.nextHandle, scope, addresses⟩), r.nextHandle) := rfl

@[simp] theorem enter_counts (r : Registry) (subscriber : String) (entry : Entry) :
    (r.enter subscriber entry).counts = r.counts := by
  unfold enter
  split <;> rfl

@[simp] theorem enter_nextHandle (r : Registry) (subscriber : String) (entry : Entry) :
    (r.enter subscriber entry).nextHandle = r.nextHandle := by
  unfold enter
  split <;> rfl

theorem enter_entries (r : Registry) (subscriber : String) (entry : Entry) (k : String) :
    (r.enter subscriber entry).entries.get? k =
      if k = subscriber ∧ entry.addresses.isEmpty = false then some entry
      else r.entries.get? k := by
  unfold enter
  split
  · simp_all
  · simp_all [SortedMap.get?_insert]

theorem enter_owners (r : Registry) (subscriber : String) (entry : Entry) (k : Nat) :
    (r.enter subscriber entry).owners.get? k =
      if k = entry.handle ∧ entry.addresses.isEmpty = false then some subscriber
      else r.owners.get? k := by
  unfold enter
  split
  · simp_all
  · simp_all [SortedMap.get?_insert]

/-- A registration replaces the entry of its subscriber and no other. -/
theorem insert_entries (r : Registry) (subscriber : String) (scope : Scope)
    (addresses : AddressSet) (k : String) :
    (r.insert subscriber scope addresses).1.entries.get? k =
      if k = subscriber then
        if addresses.isEmpty then none else some ⟨r.nextHandle, scope, addresses⟩
      else r.entries.get? k := by
  rw [insert_eq]
  simp only [bumpIf_entries, enter_entries, removeEntry_entries, SortedMap.get?_erase, acquired]
  by_cases hk : k = subscriber
  · cases addresses.isEmpty <;> simp [hk]
  · simp [hk]

/-- The fresh handle goes to the subscriber, and the handle that was its before goes stale. -/
theorem insert_owners (r : Registry) (subscriber : String) (scope : Scope)
    (addresses : AddressSet) (k : Nat) :
    (r.insert subscriber scope addresses).1.owners.get? k =
      if k = r.nextHandle ∧ addresses.isEmpty = false then some subscriber
      else if (r.entries.get? subscriber).map Entry.handle = some k then none
      else r.owners.get? k := by
  rw [insert_eq]
  simp only [bumpIf_owners, enter_owners, removeEntry_owners]
  rfl

@[simp] theorem insert_nextHandle (r : Registry) (subscriber : String) (scope : Scope)
    (addresses : AddressSet) :
    (r.insert subscriber scope addresses).1.nextHandle = r.nextHandle + 1 := by
  rw [insert_eq]
  simp only [bumpIf_nextHandle, enter_nextHandle, removeEntry_nextHandle]
  rfl

/-- Each address is held once more if it is declared now and once less if it was before. -/
theorem insert_holders (r : Registry) (subscriber : String) (scope : Scope)
    (addresses : AddressSet) (a : Address) :
    (r.insert subscriber scope addresses).1.holders a + r.held subscriber a =
      r.holders a + addresses.toList.count a := by
  have he := r.holders_erase subscriber a
  have ha : ((r.acquired addresses).removeEntry subscriber).1.entries =
      r.entries.erase subscriber := removeEntry_entries _ _
  rw [insert_eq, holders]
  simp only [bumpIf_entries, enter]
  split
  · rename_i hs
    have hz : addresses.toList.count a = 0 :=
      List.count_eq_zero.mpr ((SortedSet.isEmpty_iff addresses).mp hs a)
    rw [ha]
    omega
  · have hsame : (r.entries.erase subscriber).erase subscriber = r.entries.erase subscriber :=
      SortedMap.erase_of_get?_none (by simp [SortedMap.get?_erase])
    rw [ha, SortedMap.countP_insert, hsame]
    simp only [SortedSet.count_toList, decide_eq_true_eq]
    omega

theorem Sound.acquired_tallies (h : r.Sound) (addresses : AddressSet) :
    Tallies (r.acquired addresses).counts
      (fun a => r.holders a + addresses.toList.count a) :=
  acquireAll_tallies _ h.counted

/-- The counts go up by the new declaration and down by the old one. -/
theorem Sound.insert_counted (h : r.Sound) (subscriber : String) (scope : Scope)
    (addresses : AddressSet) :
    Tallies (r.insert subscriber scope addresses).1.counts
      (r.insert subscriber scope addresses).1.holders := by
  have ht := removeEntry_tallies (h.acquired_tallies addresses) subscriber
  have hc : (r.insert subscriber scope addresses).1.counts =
      ((r.acquired addresses).removeEntry subscriber).1.counts := by
    rw [insert_eq]
    simp only [bumpIf_counts, enter_counts]
  rw [hc]
  refine ht.congr (fun a => ?_)
  have := r.insert_holders subscriber scope addresses a
  have : (r.acquired addresses).held subscriber a = r.held subscriber a := rfl
  omega

/-- The fresh handle belongs to the new entry if there is one, and to no former entry. -/
theorem Sound.insert_owned_fresh (h : r.Sound) (subscriber : String) (scope : Scope)
    (addresses : AddressSet) (s : String) :
    (r.insert subscriber scope addresses).1.owners.get? r.nextHandle = some s ↔
      ∃ entry, (r.insert subscriber scope addresses).1.entries.get? s = some entry ∧
        entry.handle = r.nextHandle := by
  rw [insert_owners, insert_entries]
  by_cases hs : s = subscriber
  · subst hs
    cases addresses.isEmpty <;> simp [h.fresh_unowned]
  · have hne : ¬ ∃ e, r.entries.get? s = some e ∧ e.handle = r.nextHandle :=
      fun ⟨e, he, hh⟩ => Nat.ne_of_lt (h.issued s e he) hh
    simp only [hs, if_false]
    rw [iff_false_right hne]
    cases addresses.isEmpty <;> simp [h.fresh_unowned, Ne.symm hs]

/-- Of the former handles only that of the subscriber goes. -/
theorem Sound.insert_owned_other (h : r.Sound) (subscriber : String) (scope : Scope)
    (addresses : AddressSet) {handle : Nat} (hk : handle ≠ r.nextHandle) (s : String) :
    (r.insert subscriber scope addresses).1.owners.get? handle = some s ↔
      ∃ entry, (r.insert subscriber scope addresses).1.entries.get? s = some entry ∧
        entry.handle = handle := by
  rw [insert_owners, insert_entries]
  simp only [hk, false_and, if_false]
  by_cases hs : s = subscriber
  · subst hs
    have hr : ¬ ∃ e, (if addresses.isEmpty = true then none
        else some (Entry.mk r.nextHandle scope addresses)) = some e ∧ e.handle = handle := by
      intro hx
      obtain ⟨e, he, rfl⟩ := hx
      split at he
      · cases he
      · cases he
        exact hk rfl
    simp only [if_true]
    rw [iff_false_right hr]
    split
    · simp
    · rename_i hn
      intro ho
      obtain ⟨e, he, rfl⟩ := (h.owned handle s).mp ho
      exact hn (by simp [he])
  · simp only [hs, if_false]
    split
    · -- the stale handle belonged to the subscriber alone
      rename_i hst
      obtain ⟨e, he, rfl⟩ := Option.map_eq_some_iff.mp hst
      refine iff_of_false (by simp) ?_
      intro hx
      obtain ⟨f, hf, hh⟩ := hx
      exact hs (h.handle_unique hf he hh)
    · exact h.owned handle s

theorem Sound.insert (h : r.Sound) (subscriber : String) (scope : Scope)
    (addresses : AddressSet) : (r.insert subscriber scope addresses).1.Sound := by
  refine ⟨h.insert_counted subscriber scope addresses, ?_, ?_⟩
  · intro handle s
    by_cases hk : handle = r.nextHandle
    · rw [hk]
      exact h.insert_owned_fresh subscriber scope addresses s
    · exact h.insert_owned_other subscriber scope addresses hk s
  · intro s e he
    rw [insert_entries] at he
    rw [insert_nextHandle]
    split at he
    · split at he
      · cases he
      · cases he
        exact Nat.lt_succ_self _
    · exact Nat.lt_succ_of_lt (h.issued s e he)

theorem register_eq (r : Registry) (subscriber : String) (component : Option String)
    (addresses : List Address) :
    r.register subscriber component addresses =
      r.insert subscriber ⟨component <|> addresses.head?.map Address.component⟩
        (.ofList addresses) := by
  unfold register
  cases component with
  | some c => rfl
  | none => cases addresses <;> rfl

theorem Sound.register (h : r.Sound) (subscriber : String) (component : Option String)
    (addresses : List Address) : (r.register subscriber component addresses).1.Sound :=
  h.insert subscriber _ _

theorem Sound.removeEntry (h : r.Sound) (subscriber : String) :
    (r.removeEntry subscriber).1.Sound := by
  refine ⟨?_, ?_, ?_⟩
  · refine (removeEntry_tallies h.counted subscriber).congr (fun a => ?_)
    have := r.holders_erase subscriber a
    have he : (r.removeEntry subscriber).1.holders a = (r.entries.erase subscriber).entries.countP
        (fun e => decide (a ∈ e.2.addresses)) := by
      rw [holders, removeEntry_entries]
    omega
  · intro handle s
    rw [removeEntry_owners, removeEntry_entries, SortedMap.get?_erase]
    split
    · rename_i hst
      obtain ⟨e, he, rfl⟩ := Option.map_eq_some_iff.mp hst
      refine iff_of_false (by simp) ?_
      intro hx
      obtain ⟨f, hf, hh⟩ := hx
      split at hf
      · cases hf
      · rename_i hs
        exact hs (h.handle_unique hf he hh)
    · rename_i hn
      rw [h.owned handle s]
      refine exists_congr (fun e => and_congr_left (fun hh => ?_))
      split
      · rename_i hs
        subst hs
        refine iff_of_false (fun he => hn ?_) (by simp)
        simp [he, hh]
      · rfl
  · intro s e he
    rw [removeEntry_entries, SortedMap.get?_erase] at he
    rw [removeEntry_nextHandle]
    split at he
    · cases he
    · exact h.issued s e he

theorem unregister_eq (r : Registry) (handle : Nat) :
    r.unregister handle =
      match r.owners.get? handle with
      | none => (r, false)
      | some subscriber =>
        (bumpIf (r.removeEntry subscriber).2 (r.removeEntry subscriber).1, true) := rfl

/-- Taking a handle out takes out the entry of its owner. -/
theorem unregister_entries (r : Registry) (handle : Nat) (k : String) :
    (r.unregister handle).1.entries.get? k =
      if r.owners.get? handle = some k then none else r.entries.get? k := by
  rw [unregister_eq]
  cases ho : r.owners.get? handle with
  | none => rfl
  | some subscriber =>
    dsimp only
    rw [bumpIf_entries, removeEntry_entries, SortedMap.get?_erase]
    simp only [Option.some.injEq, eq_comm]

theorem unregister_nextHandle (r : Registry) (handle : Nat) :
    (r.unregister handle).1.nextHandle = r.nextHandle := by
  rw [unregister_eq]
  split
  · rfl
  · rw [bumpIf_nextHandle, removeEntry_nextHandle]

theorem Sound.unregister (h : r.Sound) (handle : Nat) : (r.unregister handle).1.Sound := by
  rw [unregister_eq]
  split
  · exact h
  · exact (h.removeEntry _).bumpIf _

end ChannelFeed.Registry
