import ChannelFeed.Proofs.Generation.Touched

namespace ChannelFeed.Generation

theorem record_get? (values : SortedMap Address Value) (k : Address) (value : Option Value)
    (a : Address) :
    (record values k value).get? a = if a = k then value else values.get? a := by
  cases value with
  | none => exact SortedMap.get?_erase values k a
  | some v => exact SortedMap.get?_insert values k a v

theorem foldl_record_get? (entries : List (Address × Option Value)) (h : AscendingKeys entries)
    (values : SortedMap Address Value) (a : Address) :
    (entries.foldl (fun values e => record values e.1 e.2) values).get? a =
      (lookupKey a entries).getD (values.get? a) := by
  induction entries generalizing values with
  | nil => rfl
  | cons e rest ih =>
    obtain ⟨k, value⟩ := e
    obtain ⟨hbelow, hrest⟩ := List.pairwise_cons.mp h
    rw [List.foldl_cons, ih hrest, record_get?, lookupKey]
    by_cases ha : a = k
    · -- the key is not among the later entries
      subst ha
      have hnone : lookupKey a rest = none := lookupKey_eq_none_of_lt hbelow
      simp [hnone]
    · simp [ha, Std.LawfulEqCmp.compare_eq_iff_eq]

theorem next_get? (g : Generation) (s : Snapshot) (a : Address) :
    (g.next s).get? a = (s.values.get? a).getD (g.get? a) :=
  foldl_record_get? s.values.entries s.values.ascending g.values a

end ChannelFeed.Generation
