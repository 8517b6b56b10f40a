namespace ChannelFeed

variable {α : Type}

theorem eq_of_pairwise_of_mem_iff {r : α → α → Prop} (asymm : ∀ a b, r a b → ¬ r b a)
    {xs ys : List α} (hx : xs.Pairwise r) (hy : ys.Pairwise r) (h : ∀ a, a ∈ xs ↔ a ∈ ys) :
    xs = ys := by
  have irrefl : ∀ a, ¬ r a a := fun a ha => asymm a a ha ha
  induction xs generalizing ys with
  | nil =>
    cases ys with
    | nil => rfl
    | cons b rest => simpa using (h b).2 List.mem_cons_self
  | cons a xs ih =>
    cases ys with
    | nil => simpa using (h a).1 List.mem_cons_self
    | cons b ys =>
      obtain ⟨hxa, hxs⟩ := List.pairwise_cons.1 hx
      obtain ⟨hyb, hys⟩ := List.pairwise_cons.1 hy
      have hab : a = b := by
        rcases List.mem_cons.1 ((h a).1 List.mem_cons_self) with e | ha
        · exact e
        rcases List.mem_cons.1 ((h b).2 List.mem_cons_self) with e | hb
        · exact e.symm
        exact absurd (hyb a ha) (asymm a b (hxa b hb))
      subst hab
      rw [ih hxs hys]
      intro c
      constructor
      · intro hc
        rcases List.mem_cons.1 ((h c).1 (List.mem_cons_of_mem _ hc)) with rfl | hc'
        · exact absurd (hxa c hc) (irrefl c)
        · exact hc'
      · intro hc
        rcases List.mem_cons.1 ((h c).2 (List.mem_cons_of_mem _ hc)) with rfl | hc'
        · exact absurd (hyb c hc) (irrefl c)
        · exact hc'

section lawful

variable [Ord α] [Std.OrientedOrd α]

/-- Each member is below all those after it. -/
abbrev Ascending (members : List α) : Prop :=
  members.Pairwise (fun a b => compare a b = .lt)

theorem compare_lt_asymm (a b : α) (h : compare a b = .lt) : ¬ compare b a = .lt := by
  rw [Std.OrientedCmp.gt_iff_lt.2 h]
  simp

theorem Ascending.eq_of_mem_iff {xs ys : List α} (hx : Ascending xs) (hy : Ascending ys)
    (h : ∀ a, a ∈ xs ↔ a ∈ ys) : xs = ys :=
  eq_of_pairwise_of_mem_iff compare_lt_asymm hx hy h

end lawful

end ChannelFeed
