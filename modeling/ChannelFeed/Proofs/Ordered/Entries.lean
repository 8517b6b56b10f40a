import ChannelFeed.Ordered.SortedMap
import ChannelFeed.Ordered.SortedSet
import Mathlib.Data.List.Induction
import Mathlib.Data.List.Nodup

namespace ChannelFeed

theorem Ascending.nodup {α : Type} [Ord α] [Std.LawfulEqOrd α] {members : List α}
    (h : Ascending members) : members.Nodup := by
  refine h.imp ?_
  intro a b hlt he
  simp [he] at hlt

namespace SortedSet

variable {α : Type} [Ord α]

theorem isEmpty_iff (s : SortedSet α) : s.isEmpty = true ↔ ∀ a, a ∉ s := by
  constructor
  · intro h a ha
    have he : s.toList = [] := List.isEmpty_iff.mp h
    have hm : a ∈ s.toList := ha
    simp [he] at hm
  · intro h
    exact List.isEmpty_iff.mpr (List.eq_nil_iff_forall_not_mem.mpr h)

variable [Std.LawfulEqOrd α]

theorem nodup (s : SortedSet α) : s.toList.Nodup := s.ascending.nodup

theorem count_toList [DecidableEq α] (s : SortedSet α) (a : α) :
    s.toList.count a = if a ∈ s then 1 else 0 := s.nodup.count

theorem isEmpty_ofList [Std.TransOrd α] (members : List α) :
    (ofList members).isEmpty = members.isEmpty := by
  apply Bool.eq_iff_iff.mpr
  rw [isEmpty_iff, List.isEmpty_iff, List.eq_nil_iff_forall_not_mem]
  simp only [mem_ofList]

end SortedSet

namespace SortedMap

variable {κ ν : Type} [Ord κ] [Std.LawfulEqOrd κ]

theorem mem_keys {m : SortedMap κ ν} {k : κ} {v : ν} (h : m.get? k = some v) : k ∈ m.keys :=
  List.mem_map.mpr ⟨_, get?_eq_some_iff.mp h, rfl⟩

theorem mem_keys_iff {m : SortedMap κ ν} {k : κ} : k ∈ m.keys ↔ ∃ v, m.get? k = some v := by
  constructor
  · intro hk
    obtain ⟨⟨k, v⟩, hm, rfl⟩ := List.mem_map.mp hk
    exact ⟨v, get?_eq_some_iff.mpr hm⟩
  · intro hk
    obtain ⟨v, hv⟩ := hk
    exact mem_keys hv

theorem keys_nodup (m : SortedMap κ ν) : m.keys.Nodup := by
  refine List.pairwise_map.mpr (m.ascending.imp ?_)
  intro a b hlt he
  simp [he] at hlt

theorem entries_nodup (m : SortedMap κ ν) : m.entries.Nodup :=
  (List.pairwise_map.mp m.keys_nodup).imp (fun hne he => hne (congrArg Prod.fst he))

theorem mem_erase [DecidableEq κ] {m : SortedMap κ ν} {k : κ} {e : κ × ν} :
    e ∈ (m.erase k).entries ↔ e ∈ m.entries ∧ e.1 ≠ k := by
  obtain ⟨k', v⟩ := e
  rw [← get?_eq_some_iff, ← get?_eq_some_iff, get?_erase]
  split <;> simp_all

theorem erase_perm_filter [DecidableEq κ] (m : SortedMap κ ν) (k : κ) :
    (m.erase k).entries.Perm (m.entries.filter (fun e => decide (e.1 ≠ k))) := by
  refine (List.perm_ext_iff_of_nodup (entries_nodup _) (m.entries_nodup.filter _)).mpr ?_
  intro e
  rw [mem_erase, List.mem_filter, decide_eq_true_eq]

theorem perm_cons_erase [DecidableEq κ] {m : SortedMap κ ν} {k : κ} {v : ν}
    (h : m.get? k = some v) : m.entries.Perm ((k, v) :: (m.erase k).entries) := by
  have hn : ((k, v) :: (m.erase k).entries).Nodup :=
    List.nodup_cons.mpr ⟨fun hm => (mem_erase.mp hm).2 rfl, entries_nodup _⟩
  refine (List.perm_ext_iff_of_nodup m.entries_nodup hn).mpr ?_
  intro hx
  obtain ⟨k', v'⟩ := hx
  rw [List.mem_cons, mem_erase, ← get?_eq_some_iff]
  by_cases hk : k' = k
  · subst hk
    simp [h, eq_comm]
  · simp [hk]

theorem erase_of_get?_none [DecidableEq κ] [Std.TransOrd κ] {m : SortedMap κ ν} {k : κ}
    (h : m.get? k = none) : m.erase k = m := by
  refine ext_get? (fun k' => ?_)
  rw [get?_erase]
  split
  · simp_all
  · rfl

/-- An inserted entry takes the place of the former one of its key. -/
theorem insert_perm [DecidableEq κ] [Std.TransOrd κ] (m : SortedMap κ ν) (k : κ) (v : ν) :
    (m.insert k v).entries.Perm ((k, v) :: (m.erase k).entries) := by
  have h : (m.insert k v).get? k = some v := by simp [get?_insert]
  have he : (m.insert k v).erase k = m.erase k := by
    refine ext_get? (fun k' => ?_)
    simp only [get?_erase, get?_insert]
    split <;> simp_all
  exact he ▸ perm_cons_erase h

theorem countP_erase [DecidableEq κ] {m : SortedMap κ ν} {k : κ} {v : ν} (p : κ × ν → Bool)
    (h : m.get? k = some v) :
    m.entries.countP p = (m.erase k).entries.countP p + if p (k, v) then 1 else 0 := by
  rw [(perm_cons_erase h).countP_eq, List.countP_cons]

theorem countP_insert [DecidableEq κ] [Std.TransOrd κ] (m : SortedMap κ ν) (k : κ) (v : ν)
    (p : κ × ν → Bool) : (m.insert k v).entries.countP p =
      (m.erase k).entries.countP p + if p (k, v) then 1 else 0 := by
  rw [(insert_perm m k v).countP_eq, List.countP_cons]

theorem entries_ofList [Std.TransOrd κ] (entries : List (κ × ν)) :
    (ofList entries).entries = entries.foldl (fun done e => insertKey e.1 e.2 done) [] :=
  (List.foldl_hom SortedMap.entries (fun _ _ => rfl)).symm

theorem get?_ofList [DecidableEq κ] [Std.TransOrd κ] {entries : List (κ × ν)} {k : κ} {v : ν}
    (distinct : (entries.map Prod.fst).Nodup) :
    (ofList entries).get? k = some v ↔ (k, v) ∈ entries := by
  induction entries using List.reverseRecOn with
  | nil => simp [ofList]
  | append_singleton entries e ih =>
    rw [List.map_append, List.map_singleton, List.nodup_append] at distinct
    obtain ⟨hdistinct, _, hnew⟩ := distinct
    have hlast : ofList (entries ++ [e]) = (ofList entries).insert e.1 e.2 := by simp [ofList]
    rw [hlast, get?_insert, List.mem_append, List.mem_singleton]
    obtain ⟨k', w⟩ := e
    by_cases hk : k = k'
    · subst hk
      have hnot : (k, v) ∉ entries := fun hm =>
        hnew k (List.mem_map_of_mem hm) k (List.mem_singleton_self _) rfl
      simp [hnot, eq_comm]
    · simp [hk, ih hdistinct]

theorem size_ofList [DecidableEq κ] [Std.TransOrd κ] {entries : List (κ × ν)}
    (distinct : (entries.map Prod.fst).Nodup) : (ofList entries).size = entries.length := by
  induction entries using List.reverseRecOn with
  | nil => rfl
  | append_singleton entries e ih =>
    rw [List.map_append, List.map_singleton, List.nodup_append] at distinct
    obtain ⟨hdistinct, _, hnew⟩ := distinct
    have hlast : ofList (entries ++ [e]) = (ofList entries).insert e.1 e.2 := by simp [ofList]
    have hfresh : (ofList entries).get? e.1 = none := by
      rw [Option.eq_none_iff_forall_ne_some]
      intro v hv
      have hm : (e.1, v) ∈ entries := (get?_ofList hdistinct).mp hv
      exact hnew e.1 (List.mem_map.mpr ⟨_, hm, rfl⟩) e.1 (List.mem_singleton_self _) rfl
    rw [hlast, size, (insert_perm _ _ _).length_eq, erase_of_get?_none hfresh, List.length_cons,
      ← size, ih hdistinct, List.length_append, List.length_singleton]

theorem get?_ofList_last [DecidableEq κ] [Std.TransOrd κ] (entries : List (κ × ν)) (k : κ) :
    (ofList entries).get? k = (entries.filter (fun e => e.1 = k)).getLast?.map Prod.snd := by
  induction entries using List.reverseRecOn with
  | nil => rfl
  | append_singleton entries e ih =>
    have hlast : ofList (entries ++ [e]) = (ofList entries).insert e.1 e.2 := by simp [ofList]
    rw [hlast, get?_insert, ih, List.filter_append]
    by_cases hk : e.1 = k
    · simp [hk]
    · simp [hk, Ne.symm hk]

/-- In any order of entries with distinct keys a look-up finds what there is. -/
theorem lookupKey_iff_mem {entries : List (κ × ν)} {k : κ} {v : ν}
    (distinct : (entries.map Prod.fst).Nodup) :
    lookupKey k entries = some v ↔ (k, v) ∈ entries := by
  induction entries with
  | nil => simp [lookupKey]
  | cons e rest ih =>
    obtain ⟨k', w⟩ := e
    obtain ⟨hnew, hrest⟩ := List.nodup_cons.mp distinct
    simp only [lookupKey, List.mem_cons, Std.LawfulEqCmp.compare_eq_iff_eq]
    by_cases hk : k = k'
    · subst hk
      have hnot : (k, v) ∉ rest := fun hm => hnew (List.mem_map.mpr ⟨_, hm, rfl⟩)
      simp [hnot, eq_comm]
    · simp [hk, ih hrest]

theorem lookupKey_tail [DecidableEq κ] {rest : List (κ × ν)} {k : κ} {v : ν}
    (distinct : (((k, v) :: rest).map Prod.fst).Nodup) (k' : κ) :
    (if k' = k then none else lookupKey k' ((k, v) :: rest)) = lookupKey k' rest := by
  obtain ⟨hnew, hrest⟩ := List.nodup_cons.mp distinct
  split
  · rename_i hk
    subst hk
    refine (Option.eq_none_iff_forall_ne_some.mpr (fun w hw => hnew ?_)).symm
    exact List.mem_map.mpr ⟨_, (lookupKey_iff_mem hrest).mp hw, rfl⟩
  · rename_i hk
    rw [lookupKey, if_neg (fun he => hk (Std.LawfulEqCmp.eq_of_compare he))]

theorem lookupKey_perm {entries others : List (κ × ν)} (same : entries.Perm others)
    (distinct : (others.map Prod.fst).Nodup) (k : κ) :
    lookupKey k entries = lookupKey k others := by
  refine Option.ext (fun v => ?_)
  have hdistinct : (entries.map Prod.fst).Nodup := (same.map Prod.fst).nodup_iff.mpr distinct
  rw [lookupKey_iff_mem hdistinct, lookupKey_iff_mem distinct, same.mem_iff]

end SortedMap

namespace SortedMap

variable {κ ν : Type} [Ord κ]

def mapValues (f : κ → ν → ν) (m : SortedMap κ ν) : SortedMap κ ν where
  entries := m.entries.map (fun e => (e.1, f e.1 e.2))
  ascending := List.pairwise_map.mpr m.ascending

theorem get?_mapValues [Std.LawfulEqOrd κ] (f : κ → ν → ν) (m : SortedMap κ ν) (k : κ) :
    (m.mapValues f).get? k = (m.get? k).map (f k) := by
  refine Option.ext (fun v => ?_)
  rw [get?_eq_some_iff, Option.map_eq_some_iff]
  simp only [mapValues, List.mem_map, Prod.mk.injEq, get?_eq_some_iff]
  constructor
  · rintro ⟨e, hm, rfl, rfl⟩
    exact ⟨e.2, hm, rfl⟩
  · rintro ⟨w, hm, rfl⟩
    exact ⟨(k, w), hm, rfl, rfl⟩

end SortedMap

namespace SortedMap

variable {κ κ' ν : Type} {entries : List (κ × ν)} {rename : κ → κ'}

/-- Keys that are told apart by their new names stay distinct. -/
theorem renamed_distinct (distinct : (entries.map Prod.fst).Nodup)
    (apart : ∀ e ∈ entries, ∀ e' ∈ entries, rename e.1 = rename e'.1 → e.1 = e'.1) :
    ((entries.map (fun e => (rename e.1, e.2))).map Prod.fst).Nodup := by
  rw [List.map_map]
  refine List.Nodup.map_on ?_ (List.Nodup.of_map _ distinct)
  intro e he e' he' hsame
  exact List.inj_on_of_nodup_map distinct he he' (apart e he e' he' hsame)

/-- A value is found under the new name of its key. -/
theorem get?_renamed [Ord κ'] [Std.LawfulEqOrd κ'] [Std.TransOrd κ'] [DecidableEq κ']
    (distinct : (entries.map Prod.fst).Nodup)
    (apart : ∀ e ∈ entries, ∀ e' ∈ entries, rename e.1 = rename e'.1 → e.1 = e'.1)
    {name : κ'} {v : ν} :
    (ofList (entries.map (fun e => (rename e.1, e.2)))).get? name = some v ↔
      ∃ k, (k, v) ∈ entries ∧ rename k = name := by
  rw [get?_ofList (renamed_distinct distinct apart)]
  simp only [List.mem_map, Prod.mk.injEq, Prod.exists]
  constructor
  · rintro ⟨k, w, hm, hk, rfl⟩
    exact ⟨k, hm, hk⟩
  · rintro ⟨k, hm, hk⟩
    exact ⟨k, v, hm, hk, rfl⟩

end SortedMap

end ChannelFeed
