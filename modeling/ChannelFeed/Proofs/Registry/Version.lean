import ChannelFeed.Proofs.Registry.Sound

namespace ChannelFeed.Registry

variable {r : Registry}

/-- What a call does to the watched version: it goes up by one if the union became another, and is
not touched otherwise. -/
def Told (r r' : Registry) : Prop :=
  if r'.union = r.union then r'.version = r.version ∧ r'.announced = r.announced
  else r'.version = r.version + 1 ∧ r'.announced = r.announced.send (r.version + 1)

theorem Sound.union_eq_iff {r' : Registry} (h : r.Sound) (h' : r'.Sound) :
    r'.union = r.union ↔ ∀ a, 0 < r'.holders a ↔ 0 < r.holders a := by
  constructor
  · intro he a
    rw [← h.mem_union_iff_holders, ← h'.mem_union_iff_holders, he]
  · intro ha
    refine SortedSet.ext_mem (fun a => ?_)
    rw [h.mem_union_iff_holders, h'.mem_union_iff_holders, ha]

theorem told_of_flag {r' base : Registry} {changed : Bool} (he : r' = bumpIf changed base)
    (hv : base.version = r.version) (ha : base.announced = r.announced)
    (hc : changed = true ↔ r'.union ≠ r.union) : Told r r' := by
  unfold Told
  cases changed with
  | true =>
    rw [if_neg (hc.mp rfl), he]
    exact ⟨congrArg (· + 1) hv, by simp [bumpIf, bump, hv, ha]⟩
  | false =>
    have hu : r'.union = r.union := Decidable.not_not.mp (fun hn => by simpa using hc.mpr hn)
    rw [if_pos hu, he]
    exact ⟨hv, ha⟩

theorem Sound.insertChanges_iff (h : r.Sound) (subscriber : String) (scope : Scope)
    (addresses : AddressSet) :
    r.insertChanges subscriber addresses = true ↔
      (r.insert subscriber scope addresses).1.union ≠ r.union := by
  have hold := fun a => r.insert_holders subscriber scope addresses a
  have hle := fun a => r.held_le_holders subscriber a
  have hone := fun a => r.held_le_one subscriber a
  have hnew : ∀ a, addresses.toList.count a ≤ 1 := by
    intro a
    rw [SortedSet.count_toList]
    split <;> omega
  have hleft := removeEntry_left (h.acquired_tallies addresses) subscriber
    (fun a => Nat.le_trans (hle a) (Nat.le_add_right _ _))
  have hsame : ∀ a, (r.acquired addresses).held subscriber a = r.held subscriber a := fun _ => rfl
  rw [insertChanges, Bool.or_eq_true, acquireAll_entered _ h.counted, hleft, Ne,
    h.union_eq_iff (h.insert subscriber scope addresses), Classical.not_forall]
  simp only [hsame]
  constructor
  · intro hx
    rcases hx with ⟨a, ha, hz⟩ | ⟨a, ha, hz⟩
    · have := List.count_pos_iff.mpr ha
      have := hold a
      have := hle a
      exact ⟨a, by omega⟩
    · have := hold a
      have := hle a
      have := hone a
      exact ⟨a, by omega⟩
  · intro hx
    obtain ⟨a, hn⟩ := hx
    have := hold a
    have := hle a
    have := hone a
    have := hnew a
    by_cases hz : r.holders a = 0
    · exact .inl ⟨a, List.count_pos_iff.mp (by omega), hz⟩
    · exact .inr ⟨a, by omega, by omega⟩

theorem Sound.register_told (h : r.Sound) (subscriber : String) (component : Option String)
    (addresses : List Address) : Told r (r.register subscriber component addresses).1 := by
  refine told_of_flag (congrArg Prod.fst (insert_eq ..)) ?_ ?_ (h.insertChanges_iff ..)
  · simp only [enter]
    split <;> exact removeEntry_version _ _
  · simp only [enter]
    split <;> exact removeEntry_announced _ _

theorem Sound.unregister_told (h : r.Sound) (handle : Nat) : Told r (r.unregister handle).1 := by
  rw [unregister_eq]
  cases ho : r.owners.get? handle with
  | none =>
    unfold Told
    rw [if_pos rfl]
    exact ⟨rfl, rfl⟩
  | some subscriber =>
    refine told_of_flag rfl (removeEntry_version _ _) (removeEntry_announced _ _) ?_
    have hrem : ∀ a, (Registry.bumpIf (r.removeEntry subscriber).2
        (r.removeEntry subscriber).1).holders a + r.held subscriber a = r.holders a := by
      intro a
      rw [r.holders_erase subscriber a, holders, bumpIf_entries, removeEntry_entries]
    have hle := fun a => r.held_le_holders subscriber a
    have hone := fun a => r.held_le_one subscriber a
    rw [removeEntry_left h.counted subscriber hle, Ne,
      h.union_eq_iff ((h.removeEntry subscriber).bumpIf _), Classical.not_forall]
    refine exists_congr (fun a => ?_)
    have := hrem a
    have := hone a
    omega

end ChannelFeed.Registry
