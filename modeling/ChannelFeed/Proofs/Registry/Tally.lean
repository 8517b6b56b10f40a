import ChannelFeed.Registry

namespace ChannelFeed.Registry

variable {counts : SortedMap Address Nat} {f : Address → Nat}

/-- How a count is kept: a zero is no entry. -/
def tally (n : Nat) : Option Nat := if n = 0 then none else some n

/-- A map that keeps the counts `f`. -/
def Tallies (counts : SortedMap Address Nat) (f : Address → Nat) : Prop :=
  ∀ a, counts.get? a = tally (f a)

theorem tally_eq_none {n : Nat} : tally n = none ↔ n = 0 := by
  unfold tally
  split <;> simp_all

theorem tally_eq_some {n k : Nat} : tally n = some k ↔ n = k ∧ 0 < n := by
  unfold tally
  split <;> simp_all
  omega

theorem Tallies.congr {g : Address → Nat} (h : Tallies counts f) (he : ∀ a, f a = g a) :
    Tallies counts g := fun a => he a ▸ h a

/-- An address is counted at all exactly if its count is positive. -/
theorem Tallies.contains_iff (h : Tallies counts f) (a : Address) :
    counts.contains a = true ↔ 0 < f a := by
  unfold SortedMap.contains
  rw [h a]
  unfold tally
  split <;> simp <;> omega

theorem acquire_tallies (h : Tallies counts f) (a : Address) :
    Tallies (acquire counts a).1 (fun b => f b + if a = b then 1 else 0) := by
  intro b
  have ha := h a
  have hb := h b
  unfold acquire
  cases hc : counts.get? a with
  | none =>
    have hz : f a = 0 := tally_eq_none.mp (ha ▸ hc)
    simp only [SortedMap.get?_insert]
    by_cases he : b = a
    · subst he
      simp [tally, hz]
    · simp [he, Ne.symm he, hb]
  | some n =>
    obtain ⟨hn, _⟩ := tally_eq_some.mp (ha ▸ hc)
    simp only [SortedMap.get?_insert]
    by_cases he : b = a
    · subst he
      simp [tally, hn]
    · simp [he, Ne.symm he, hb]

theorem acquire_entered (h : Tallies counts f) (a : Address) :
    (acquire counts a).2 = true ↔ f a = 0 := by
  have ha := h a
  unfold acquire
  cases hc : counts.get? a with
  | none => simpa using tally_eq_none.mp (ha ▸ hc)
  | some n =>
    have := (tally_eq_some.mp (ha ▸ hc)).2
    simp only [Bool.false_eq_true, false_iff]
    omega

theorem release_tallies (h : Tallies counts f) (a : Address) :
    Tallies (release counts a).1 (fun b => f b - if a = b then 1 else 0) := by
  intro b
  have ha := h a
  have hb := h b
  unfold release
  cases hc : counts.get? a with
  | none =>
    have hz : f a = 0 := tally_eq_none.mp (ha ▸ hc)
    by_cases he : a = b
    · subst he
      simpa [hz] using hc.trans (tally_eq_none.mpr rfl).symm
    · simpa [he] using hb
  | some n =>
    obtain ⟨hn, hp⟩ := tally_eq_some.mp (ha ▸ hc)
    dsimp only
    split
    · rename_i h1
      simp only [SortedMap.get?_insert]
      by_cases he : b = a
      · subst he
        simp only [↓reduceIte]
        exact (tally_eq_some.mpr ⟨by omega, by omega⟩).symm
      · simp [he, Ne.symm he, hb]
    · simp only [SortedMap.get?_erase]
      by_cases he : b = a
      · subst he
        simp only [↓reduceIte]
        exact (tally_eq_none.mpr (by omega)).symm
      · simp [he, Ne.symm he, hb]

theorem release_left (h : Tallies counts f) (a : Address) :
    (release counts a).2 = true ↔ f a = 1 := by
  have ha := h a
  unfold release
  cases hc : counts.get? a with
  | none =>
    have : f a = 0 := tally_eq_none.mp (ha ▸ hc)
    simp only [Bool.false_eq_true, false_iff]
    omega
  | some n =>
    obtain ⟨hn, hp⟩ := tally_eq_some.mp (ha ▸ hc)
    dsimp only
    split
    · simp only [Bool.false_eq_true, false_iff]
      omega
    · simp only [true_iff]
      omega

section countAll

variable (count : SortedMap Address Nat → Address → SortedMap Address Nat × Bool)

theorem countAll_flag (counts : SortedMap Address Nat) (flag : Bool) (addresses : List Address) :
    addresses.foldl (fun (acc : SortedMap Address Nat × Bool) a =>
        ((count acc.1 a).1, acc.2 || (count acc.1 a).2)) (counts, flag) =
      ((countAll count counts addresses).1, flag || (countAll count counts addresses).2) := by
  induction addresses generalizing counts flag with
  | nil => simp [countAll]
  | cons a rest ih =>
    simp only [countAll, List.foldl_cons]
    rw [ih, ih]
    simp [Bool.or_assoc]

theorem countAll_nil (counts : SortedMap Address Nat) :
    countAll count counts [] = (counts, false) := rfl

theorem countAll_cons (counts : SortedMap Address Nat) (a : Address) (rest : List Address) :
    countAll count counts (a :: rest) =
      ((countAll count (count counts a).1 rest).1,
        (count counts a).2 || (countAll count (count counts a).1 rest).2) := by
  rw [← countAll_flag]
  simp [countAll]

end countAll

theorem acquireAll_tallies (addresses : List Address) (h : Tallies counts f) :
    Tallies (countAll acquire counts addresses).1 (fun a => f a + addresses.count a) := by
  induction addresses generalizing counts f with
  | nil => exact h.congr (by simp)
  | cons a rest ih =>
    rw [countAll_cons]
    refine (ih (acquire_tallies h a)).congr (fun b => ?_)
    simp only [List.count_cons, beq_iff_eq]
    omega

/-- Counting up shows a change exactly if an address had not been counted before. -/
theorem acquireAll_entered (addresses : List Address) (h : Tallies counts f) :
    (countAll acquire counts addresses).2 = true ↔ ∃ a ∈ addresses, f a = 0 := by
  induction addresses generalizing counts f with
  | nil => simp [countAll_nil]
  | cons a rest ih =>
    rw [countAll_cons]
    simp only [Bool.or_eq_true, acquire_entered h a, ih (acquire_tallies h a)]
    constructor
    · intro hx
      rcases hx with ha | ⟨b, hb, he⟩
      · exact ⟨a, List.mem_cons_self, ha⟩
      · exact ⟨b, List.mem_cons_of_mem _ hb, by omega⟩
    · intro hx
      obtain ⟨b, hb, he⟩ := hx
      by_cases hab : a = b
      · exact .inl (hab ▸ he)
      · rcases List.mem_cons.mp hb with rfl | hb
        · exact .inl he
        · exact .inr ⟨b, hb, by simpa [hab] using he⟩

theorem releaseAll_tallies (addresses : List Address) (h : Tallies counts f) :
    Tallies (countAll release counts addresses).1 (fun a => f a - addresses.count a) := by
  induction addresses generalizing counts f with
  | nil => exact h.congr (by simp)
  | cons a rest ih =>
    rw [countAll_cons]
    refine (ih (release_tallies h a)).congr (fun b => ?_)
    simp only [List.count_cons, beq_iff_eq]
    omega

/-- Counting down shows a change exactly if an address was counted as often as it is taken away. -/
theorem releaseAll_left (addresses : List Address) (h : Tallies counts f)
    (hc : ∀ a, addresses.count a ≤ f a) :
    (countAll release counts addresses).2 = true ↔
      ∃ a ∈ addresses, f a = addresses.count a := by
  induction addresses generalizing counts f with
  | nil => simp [countAll_nil]
  | cons a rest ih =>
    have hr : ∀ b, rest.count b ≤ f b - if a = b then 1 else 0 := by
      intro b
      have := hc b
      simp only [List.count_cons, beq_iff_eq] at this
      omega
    rw [countAll_cons]
    simp only [Bool.or_eq_true, release_left h a, ih (release_tallies h a) hr]
    simp only [List.count_cons, beq_iff_eq]
    constructor
    · intro hx
      rcases hx with h1 | ⟨b, hb, he⟩
      · refine ⟨a, List.mem_cons_self, ?_⟩
        have := hc a
        simp only [List.count_cons, beq_iff_eq, ↓reduceIte] at this ⊢
        omega
      · refine ⟨b, List.mem_cons_of_mem _ hb, ?_⟩
        have := hc b
        simp only [List.count_cons, beq_iff_eq] at this
        omega
    · intro hx
      obtain ⟨b, hb, he⟩ := hx
      by_cases hm : b ∈ rest
      · exact .inr ⟨b, hm, by omega⟩
      · obtain rfl : b = a := by simpa [hm] using hb
        simp only [List.count_eq_zero.mpr hm, ↓reduceIte] at he
        exact .inl he

end ChannelFeed.Registry
