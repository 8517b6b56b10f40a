namespace ChannelFeed

/-- What stands before and after the first `sep`, if there is one. -/
def splitFirst (sep : Char) : List Char → Option (List Char × List Char)
  | [] => none
  | c :: rest =>
    if c = sep then some ([], rest) else (splitFirst sep rest).map (fun (a, b) => (c :: a, b))

/-- What stands before and after the last `sep`, if there is one. -/
def splitLast (sep : Char) : List Char → Option (List Char × List Char)
  | [] => none
  | c :: rest =>
    match splitLast sep rest with
    | some (a, b) => some (c :: a, b)
    | none => if c = sep then some ([], rest) else none

/-- What follows a given beginning. -/
def afterStart (start : List Char) (text : List Char) : Option (List Char) :=
  match start, text with
  | [], rest => some rest
  | _ :: _, [] => none
  | a :: start, b :: rest => if a = b then afterStart start rest else none

theorem splitFirst_eq_some_iff {sep : Char} {s a b : List Char} :
    splitFirst sep s = some (a, b) ↔ s = a ++ sep :: b ∧ sep ∉ a := by
  induction s generalizing a with
  | nil => simp [splitFirst]
  | cons c rest ih =>
    simp only [splitFirst]
    split
    · rename_i hc
      subst hc
      constructor
      · intro h
        simp only [Option.some.injEq, Prod.mk.injEq] at h
        obtain ⟨rfl, rfl⟩ := h
        simp
      · rintro ⟨h, hn⟩
        cases a with
        | nil => simp_all
        | cons d a => simp_all
    · rename_i hc
      constructor
      · intro h
        obtain ⟨⟨a', b'⟩, h', he⟩ := Option.map_eq_some_iff.1 h
        simp only [Prod.mk.injEq] at he
        obtain ⟨rfl, rfl⟩ := he
        obtain ⟨rfl, hn⟩ := ih.1 h'
        exact ⟨rfl, by simp only [List.mem_cons, not_or]; exact ⟨fun e => hc e.symm, hn⟩⟩
      · rintro ⟨h, hn⟩
        cases a with
        | nil => simp_all
        | cons d a =>
          simp only [List.cons_append, List.cons.injEq] at h
          obtain ⟨rfl, h⟩ := h
          have := (ih (a := a)).2 ⟨h, fun hm => hn (List.mem_cons_of_mem _ hm)⟩
          simp [this]

theorem splitLast_eq_none_iff {sep : Char} {s : List Char} : splitLast sep s = none ↔ sep ∉ s := by
  induction s with
  | nil => simp [splitLast]
  | cons c rest ih =>
    unfold splitLast
    cases h : splitLast sep rest with
    | some parts =>
      have hrest : sep ∈ rest := Decidable.by_contra (fun hn => by simp [ih.mpr hn] at h)
      simp [hrest]
    | none =>
      have hrest := ih.mp h
      by_cases hc : c = sep
      · simp [hc]
      · simp [hc, hrest, Ne.symm hc]

theorem splitLast_append {sep : Char} {b : List Char} (h : sep ∉ b) (a : List Char) :
    splitLast sep (a ++ sep :: b) = some (a, b) := by
  induction a with
  | nil => simp [splitLast, splitLast_eq_none_iff.mpr h]
  | cons c a ih => simp [splitLast, ih]

theorem splitLast_eq_some_iff {sep : Char} {s a b : List Char} :
    splitLast sep s = some (a, b) ↔ s = a ++ sep :: b ∧ sep ∉ b := by
  constructor
  · intro h
    induction s generalizing a with
    | nil => cases h
    | cons c rest ih =>
      unfold splitLast at h
      split at h
      · rename_i a' b' hrest
        cases h
        obtain ⟨rfl, hb⟩ := ih hrest
        exact ⟨rfl, hb⟩
      · rename_i hrest
        split at h
        · rename_i hc
          cases h
          exact ⟨by rw [hc, List.nil_append], splitLast_eq_none_iff.mp hrest⟩
        · cases h
  · rintro ⟨rfl, hb⟩
    exact splitLast_append hb a

theorem afterStart_eq_some_iff {start text rest : List Char} :
    afterStart start text = some rest ↔ text = start ++ rest := by
  induction start generalizing text with
  | nil => simp [afterStart]
  | cons c start ih =>
    cases text with
    | nil => simp [afterStart]
    | cons d text =>
      unfold afterStart
      split
      · rename_i hc
        rw [ih, hc, List.cons_append, List.cons_inj_right]
      · rename_i hc
        simp [Ne.symm hc]

theorem afterStart_eq_none_iff {start text : List Char} :
    afterStart start text = none ↔ ¬ start <+: text := by
  rw [Option.eq_none_iff_forall_ne_some, List.IsPrefix, not_exists]
  exact forall_congr' (fun rest => not_congr (afterStart_eq_some_iff.trans eq_comm))

end ChannelFeed
