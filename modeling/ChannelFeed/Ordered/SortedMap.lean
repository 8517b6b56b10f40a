import ChannelFeed.Ordered.Ascending

namespace ChannelFeed

variable {κ ν : Type} [Ord κ]

def lookupKey (k : κ) : List (κ × ν) → Option ν
  | [] => none
  | (k', v) :: rest => if compare k k' = .eq then some v else lookupKey k rest

/-- Puts an entry at its place among ascending entries, over an entry of an equal key. -/
def insertKey (k : κ) (v : ν) : List (κ × ν) → List (κ × ν)
  | [] => [(k, v)]
  | (k', v') :: rest =>
    match compare k k' with
    | .lt => (k, v) :: (k', v') :: rest
    | .eq => (k, v) :: rest
    | .gt => (k', v') :: insertKey k v rest

def eraseKey (k : κ) : List (κ × ν) → List (κ × ν)
  | [] => []
  | (k', v') :: rest => if compare k k' = .eq then rest else (k', v') :: eraseKey k rest

/-- Each key is below all the keys after it. -/
abbrev AscendingKeys (entries : List (κ × ν)) : Prop :=
  entries.Pairwise (fun a b => compare a.1 b.1 = .lt)

theorem mem_insertKey {k : κ} {v : ν} {e : κ × ν} {entries : List (κ × ν)}
    (h : e ∈ insertKey k v entries) : e = (k, v) ∨ e ∈ entries := by
  induction entries with
  | nil => simp_all [insertKey]
  | cons head rest ih =>
    obtain ⟨k', v'⟩ := head
    simp only [insertKey] at h
    split at h
    · simpa using h
    · rcases List.mem_cons.1 h with rfl | h
      · exact .inl rfl
      · exact .inr (List.mem_cons_of_mem _ h)
    · rcases List.mem_cons.1 h with rfl | h
      · exact .inr List.mem_cons_self
      · exact (ih h).imp_right (List.mem_cons_of_mem _)

theorem mem_of_mem_eraseKey {k : κ} {e : κ × ν} {entries : List (κ × ν)}
    (h : e ∈ eraseKey k entries) : e ∈ entries := by
  induction entries with
  | nil => simp_all [eraseKey]
  | cons head rest ih =>
    simp only [eraseKey] at h
    split at h
    · exact List.mem_cons_of_mem _ h
    · rcases List.mem_cons.1 h with rfl | h
      · exact List.mem_cons_self
      · exact List.mem_cons_of_mem _ (ih h)

theorem ascendingKeys_eraseKey (k : κ) {entries : List (κ × ν)}
    (h : AscendingKeys entries) : AscendingKeys (eraseKey k entries) := by
  induction entries with
  | nil => simp [eraseKey, AscendingKeys]
  | cons head rest ih =>
    have hrest := List.pairwise_cons.1 h
    simp only [eraseKey]
    split
    · exact hrest.2
    · exact List.pairwise_cons.2
        ⟨fun e he => hrest.1 e (mem_of_mem_eraseKey he), ih hrest.2⟩

theorem lookupKey_eq_none_of_lt {k : κ} {entries : List (κ × ν)}
    (h : ∀ e ∈ entries, compare k e.1 = .lt) : lookupKey k entries = none := by
  induction entries with
  | nil => rfl
  | cons head rest ih =>
    have := h head List.mem_cons_self
    simp only [lookupKey, this]
    exact ih (fun e he => h e (List.mem_cons_of_mem _ he))

section lawful

variable [Std.LawfulEqOrd κ]

theorem ascendingKeys_insertKey [Std.TransOrd κ] (k : κ) (v : ν) {entries : List (κ × ν)}
    (h : AscendingKeys entries) : AscendingKeys (insertKey k v entries) := by
  induction entries with
  | nil => simp [insertKey, AscendingKeys]
  | cons head rest ih =>
    obtain ⟨k', v'⟩ := head
    have hrest := List.pairwise_cons.1 h
    simp only [insertKey]
    split
    · rename_i hlt
      refine List.pairwise_cons.2 ⟨fun e he => ?_, h⟩
      rcases List.mem_cons.1 he with rfl | he
      · exact hlt
      · exact Std.TransCmp.lt_trans hlt (hrest.1 e he)
    · rename_i heq
      have : k = k' := Std.LawfulEqCmp.eq_of_compare heq
      subst this
      exact List.pairwise_cons.2 ⟨fun e he => hrest.1 e he, hrest.2⟩
    · rename_i hgt
      refine List.pairwise_cons.2 ⟨fun e he => ?_, ih hrest.2⟩
      rcases mem_insertKey he with rfl | he
      · exact Std.OrientedCmp.gt_iff_lt.1 hgt
      · exact hrest.1 e he

theorem lookupKey_insertKey (k k' : κ) (v : ν) (entries : List (κ × ν)) :
    lookupKey k' (insertKey k v entries) =
      if compare k' k = .eq then some v else lookupKey k' entries := by
  induction entries with
  | nil => simp [insertKey, lookupKey]
  | cons head rest ih =>
    obtain ⟨c, w⟩ := head
    simp only [insertKey]
    split
    · simp [lookupKey]
    · rename_i heq
      have : k = c := Std.LawfulEqCmp.eq_of_compare heq
      subst this
      simp only [lookupKey]
      split <;> simp_all
    · rename_i hgt
      simp only [lookupKey, ih]
      by_cases hc : compare k' c = .eq
      · have : k' = c := Std.LawfulEqCmp.eq_of_compare hc
        subst this
        have : compare k' k ≠ .eq := by
          intro he
          have : k' = k := Std.LawfulEqCmp.eq_of_compare he
          subst this
          simp_all
        simp [this]
      · simp [hc]

theorem lookupKey_eraseKey (k k' : κ) {entries : List (κ × ν)} (h : AscendingKeys entries) :
    lookupKey k' (eraseKey k entries) =
      if compare k' k = .eq then none else lookupKey k' entries := by
  induction entries with
  | nil => simp [eraseKey, lookupKey]
  | cons head rest ih =>
    obtain ⟨c, w⟩ := head
    have hrest := List.pairwise_cons.1 h
    simp only [eraseKey]
    split
    · rename_i heq
      have : k = c := Std.LawfulEqCmp.eq_of_compare heq
      subst this
      by_cases hk : compare k' k = .eq
      · have : k' = k := Std.LawfulEqCmp.eq_of_compare hk
        subst this
        simp [lookupKey_eq_none_of_lt (fun e he => hrest.1 e he)]
      · simp [lookupKey, hk]
    · rename_i hne
      simp only [lookupKey, ih hrest.2]
      by_cases hc : compare k' c = .eq
      · have : k' = c := Std.LawfulEqCmp.eq_of_compare hc
        subst this
        have : compare k' k ≠ .eq := by
          intro he
          have : k' = k := Std.LawfulEqCmp.eq_of_compare he
          subst this
          exact hne (by simp)
        simp [this]
      · simp [hc]

theorem lookupKey_eq_some_iff {k : κ} {v : ν} {entries : List (κ × ν)}
    (h : AscendingKeys entries) : lookupKey k entries = some v ↔ (k, v) ∈ entries := by
  induction entries with
  | nil => simp [lookupKey]
  | cons head rest ih =>
    obtain ⟨c, w⟩ := head
    have hrest := List.pairwise_cons.1 h
    simp only [lookupKey]
    split
    · rename_i heq
      have : k = c := Std.LawfulEqCmp.eq_of_compare heq
      subst this
      constructor
      · intro hv
        simp_all
      · intro hv
        rcases List.mem_cons.1 hv with hv | hv
        · simp_all
        · have := hrest.1 _ hv
          simp at this
    · rename_i hne
      rw [ih hrest.2]
      constructor
      · exact List.mem_cons_of_mem _
      · intro hv
        rcases List.mem_cons.1 hv with hv | hv
        · simp_all
        · exact hv

end lawful

/-- A finite map as the list of its entries in ascending key order. -/
structure SortedMap (κ ν : Type) [Ord κ] where
  entries : List (κ × ν)
  ascending : AscendingKeys entries

namespace SortedMap

theorem ext_entries {m m' : SortedMap κ ν} (h : m.entries = m'.entries) : m = m' := by
  cases m; cases m'; simp_all

instance [DecidableEq κ] [DecidableEq ν] : DecidableEq (SortedMap κ ν) := fun m m' =>
  if h : m.entries = m'.entries then isTrue (ext_entries h)
  else isFalse (fun he => h (congrArg entries he))

def empty : SortedMap κ ν := ⟨[], List.Pairwise.nil⟩

instance : EmptyCollection (SortedMap κ ν) := ⟨empty⟩

instance : Inhabited (SortedMap κ ν) := ⟨empty⟩

def get? (m : SortedMap κ ν) (k : κ) : Option ν := lookupKey k m.entries

@[simp] theorem get?_empty (k : κ) : (empty : SortedMap κ ν).get? k = none := rfl

def contains (m : SortedMap κ ν) (k : κ) : Bool := (m.get? k).isSome

def keys (m : SortedMap κ ν) : List κ := m.entries.map Prod.fst

def size (m : SortedMap κ ν) : Nat := m.entries.length

def erase (m : SortedMap κ ν) (k : κ) : SortedMap κ ν :=
  ⟨eraseKey k m.entries, ascendingKeys_eraseKey k m.ascending⟩

section lawful

variable [Std.LawfulEqOrd κ]

def insert [Std.TransOrd κ] (m : SortedMap κ ν) (k : κ) (v : ν) : SortedMap κ ν :=
  ⟨insertKey k v m.entries, ascendingKeys_insertKey k v m.ascending⟩

/-- Of several entries with one key the last counts. -/
def ofList [Std.TransOrd κ] (entries : List (κ × ν)) : SortedMap κ ν :=
  entries.foldl (fun m e => m.insert e.1 e.2) empty

theorem get?_insert [Std.TransOrd κ] (m : SortedMap κ ν) (k k' : κ) (v : ν) [DecidableEq κ] :
    (m.insert k v).get? k' = if k' = k then some v else m.get? k' := by
  simp only [get?, insert, lookupKey_insertKey, Std.LawfulEqCmp.compare_eq_iff_eq]

theorem get?_erase (m : SortedMap κ ν) (k k' : κ) [DecidableEq κ] :
    (m.erase k).get? k' = if k' = k then none else m.get? k' := by
  simp only [get?, erase, lookupKey_eraseKey k k' m.ascending,
    Std.LawfulEqCmp.compare_eq_iff_eq]

theorem get?_eq_some_iff {m : SortedMap κ ν} {k : κ} {v : ν} :
    m.get? k = some v ↔ (k, v) ∈ m.entries :=
  lookupKey_eq_some_iff m.ascending

theorem ext_get? [Std.TransOrd κ] {m m' : SortedMap κ ν} (h : ∀ k, m.get? k = m'.get? k) :
    m = m' := by
  refine ext_entries (eq_of_pairwise_of_mem_iff (fun a b => compare_lt_asymm a.1 b.1)
    m.ascending m'.ascending ?_)
  rintro ⟨k, v⟩
  rw [← get?_eq_some_iff, ← get?_eq_some_iff, h k]

end lawful

end SortedMap

end ChannelFeed
