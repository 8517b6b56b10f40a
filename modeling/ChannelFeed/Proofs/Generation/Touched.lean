import ChannelFeed.Generation
import ChannelFeed.Proofs.Ordered.Entries

namespace ChannelFeed

/-- Whether a snapshot mentions a channel, with a value or with null. -/
def Snapshot.reports (s : Snapshot) (a : Address) : Bool := s.values.contains a

namespace Generation

theorem touchesAny_iff (g : Generation) (addresses : AddressSet) :
    g.touchesAny addresses = true ↔ ∃ a ∈ addresses, a ∈ g.touched := by
  unfold touchesAny
  split
  · simp only [List.any_eq_true, decide_eq_true_eq]
    exact Iff.rfl
  · simp only [List.any_eq_true, decide_eq_true_eq]
    constructor
    · intro hx
      obtain ⟨a, ht, ha⟩ := hx
      exact ⟨a, ha, ht⟩
    · intro hx
      obtain ⟨a, ha, ht⟩ := hx
      exact ⟨a, ht, ha⟩

theorem mem_touched_next (g : Generation) (s : Snapshot) (a : Address) :
    a ∈ (g.next s).touched ↔ s.reports a = true := by
  have hfold : ∀ (entries : List (Address × Option Value)) (touched : AddressSet),
      a ∈ entries.foldl (fun touched e => touched.insert e.1) touched ↔
        a ∈ entries.map Prod.fst ∨ a ∈ touched := by
    intro entries
    induction entries with
    | nil => simp
    | cons e rest ih =>
      intro touched
      rw [List.foldl_cons, ih, SortedSet.mem_insert, List.map_cons, List.mem_cons]
      grind
  have hempty : a ∉ (SortedSet.empty : AddressSet) := List.not_mem_nil
  unfold next Snapshot.reports SortedMap.contains
  rw [hfold, or_iff_left hempty, Option.isSome_iff_exists]
  simp only [List.mem_map, SortedMap.get?_eq_some_iff]
  constructor
  · intro hx
    obtain ⟨⟨k, v⟩, hm, rfl⟩ := hx
    exact ⟨v, hm⟩
  · intro hx
    obtain ⟨v, hm⟩ := hx
    exact ⟨(a, v), hm, rfl⟩

theorem next_touchesAny (g : Generation) (s : Snapshot) (addresses : AddressSet) :
    (g.next s).touchesAny addresses = true ↔ ∃ a ∈ addresses, s.reports a = true := by
  simp only [touchesAny_iff, mem_touched_next]

theorem applyAll_append (g : Generation) (snapshots : List Snapshot) (s : Snapshot) :
    g.applyAll (snapshots ++ [s]) = (g.applyAll snapshots).next s := by
  simp [applyAll]

end Generation

end ChannelFeed
