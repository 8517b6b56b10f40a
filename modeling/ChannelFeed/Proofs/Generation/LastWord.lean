import ChannelFeed.Dispatcher
import ChannelFeed.Proofs.Generation.Values
import Mathlib.Data.List.Induction
import Mathlib.Data.Set.Card

namespace ChannelFeed

/-- What is said of a channel by the last of some snapshots that mentions it. -/
def lastMention? (snapshots : List Snapshot) (a : Address) : Option (Option Value) :=
  (snapshots.filterMap (fun s => s.values.get? a)).getLast?

theorem lastMention?_append (snapshots : List Snapshot) (s : Snapshot) (a : Address) :
    lastMention? (snapshots ++ [s]) a = (s.values.get? a).or (lastMention? snapshots a) := by
  unfold lastMention?
  rw [List.filterMap_append, List.filterMap_cons, List.filterMap_nil]
  cases s.values.get? a <;> simp

namespace Generation

variable (snapshots : List Snapshot)

theorem applyAll_number (g : Generation) :
    (g.applyAll snapshots).number = g.number + snapshots.length := by
  induction snapshots using List.reverseRecOn with
  | nil => rfl
  | append_singleton snapshots s ih =>
    rw [applyAll_append, next, ih, List.length_append, List.length_singleton, Nat.add_assoc]

theorem applyAll_get? (a : Address) :
    (empty.applyAll snapshots).get? a = (lastMention? snapshots a).join := by
  induction snapshots using List.reverseRecOn with
  | nil => rfl
  | append_singleton snapshots s ih =>
    rw [applyAll_append, next_get?, ih, lastMention?_append]
    cases s.values.get? a <;> rfl

/-- As many channels have a value as there are entries. -/
theorem size_eq_encard (g : Generation) : (g.size : ℕ∞) = {a | ∃ v, g.get? a = some v}.encard := by
  have hkeys : {a | ∃ v, g.get? a = some v} = (g.values.keys.toFinset : Set Address) := by
    ext a
    rw [List.coe_toFinset, Set.mem_ofPred_eq, Set.mem_ofPred_eq, SortedMap.mem_keys_iff]
    rfl
  rw [hkeys, Set.encard_coe_eq_coe_finsetCard, List.toFinset_card_of_nodup g.values.keys_nodup,
    SortedMap.keys, List.length_map]
  rfl

theorem next_touched (g : Generation) (s : Snapshot) : (g.next s).touched.toList = s.values.keys := by
  have hascending : Ascending s.values.keys := List.pairwise_map.mpr s.values.ascending
  refine (g.next s).touched.ascending.eq_of_mem_iff hascending (fun a => ?_)
  have hreports := g.mem_touched_next s a
  rw [Snapshot.reports, SortedMap.contains, Option.isSome_iff_exists] at hreports
  rw [SortedMap.mem_keys_iff]
  exact hreports

theorem merged_generation (d : Dispatcher) :
    (snapshots.foldl Dispatcher.merge d).generation = d.generation.applyAll snapshots :=
  (List.foldl_hom Dispatcher.generation (fun _ _ => rfl)).symm

theorem touchesAny_eitherWay (g : Generation) (addresses : AddressSet) :
    addresses.toList.any (fun a => decide (a ∈ g.touched)) = g.touchesAny addresses ∧
      g.touched.toList.any (fun a => decide (a ∈ addresses)) = g.touchesAny addresses := by
  constructor
  · rw [Bool.eq_iff_iff, touchesAny_iff, List.any_eq_true]
    simp only [decide_eq_true_eq]
    exact Iff.rfl
  · rw [Bool.eq_iff_iff, touchesAny_iff, List.any_eq_true]
    simp only [decide_eq_true_eq]
    exact exists_congr (fun a => and_comm)

/-- What a generation says that comes of these snapshots alone. -/
structure LastWord (snapshots : List Snapshot) (g : Generation) : Prop where
  /-- It is what a cache holds that was new before the snapshots were merged into it. -/
  cached : ∀ d : Dispatcher, d.generation = .empty →
    (snapshots.foldl Dispatcher.merge d).generation = g
  number : g.number = snapshots.length
  /-- A null is no value. -/
  value : ∀ a, g.get? a = (lastMention? snapshots a).join
  size : (g.size : ℕ∞) = {a | ∃ v, lastMention? snapshots a = some (some v)}.encard
  /-- The last snapshot touches what it mentions, be it with null. -/
  touched : g.touched.toList = (snapshots.getLast?.map (fun s => s.values.keys)).getD []
  touches : ∀ addresses : AddressSet, g.touchesAny addresses = true ↔
    ∃ s ∈ snapshots.getLast?, ∃ a ∈ addresses, a ∈ s.values.keys
  /-- Neither set has to be the one that is gone through. -/
  eitherWay : ∀ addresses : AddressSet,
    addresses.toList.any (fun a => decide (a ∈ g.touched)) = g.touchesAny addresses ∧
      g.touched.toList.any (fun a => decide (a ∈ addresses)) = g.touchesAny addresses

/-- In a cache every channel has the value last reported of it. -/
theorem applyAll_lastWord : LastWord snapshots (empty.applyAll snapshots) := by
  have hvalue := applyAll_get? snapshots
  have htouched : (empty.applyAll snapshots).touched.toList =
      (snapshots.getLast?.map (fun s => s.values.keys)).getD [] := by
    rcases List.eq_nil_or_concat snapshots with rfl | ⟨earlier, s, rfl⟩
    · rfl
    · rw [List.concat_eq_append, applyAll_append, next_touched, List.getLast?_concat]
      rfl
  exact
    { cached := fun d hd => by rw [merged_generation, hd]
      number := (applyAll_number snapshots empty).trans (Nat.zero_add _)
      value := hvalue
      size := by
        rw [size_eq_encard]
        simp only [hvalue, Option.join_eq_some_iff]
      touched := htouched
      touches := fun addresses => by
        have hmem : ∀ a, a ∈ (empty.applyAll snapshots).touched ↔
            ∃ s ∈ snapshots.getLast?, a ∈ s.values.keys := fun a => by
          show a ∈ (empty.applyAll snapshots).touched.toList ↔ _
          rw [htouched]
          cases snapshots.getLast? <;> simp
        rw [touchesAny_iff]
        simp only [hmem]
        grind
      eitherWay := touchesAny_eitherWay _ }

end Generation

end ChannelFeed
