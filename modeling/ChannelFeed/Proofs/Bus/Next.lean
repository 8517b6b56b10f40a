import ChannelFeed.Bus

namespace ChannelFeed

/-- All that can be found at a place: its event if it is kept, how far back it is if it is not, and
nothing behind the last event. -/
theorem Bus.take_eq {b : Bus} {position after : Nat} {received : Received}
    (h : b.take position = (received, after)) :
    match received with
    | .event e => b.oldest ≤ position ∧ b.history[position]? = some e ∧ after = position + 1
    | .lagged skipped => position < b.oldest ∧ skipped = b.oldest - position ∧ after = b.oldest
    | .empty | .closed => b.history.size ≤ position ∧ after = position := by
  unfold take at h
  split at h
  · rename_i hbehind
    cases h
    exact ⟨hbehind, rfl, rfl⟩
  · rename_i hkept
    cases hfound : b.history[position]? with
    | some e =>
      rw [hfound] at h
      cases h
      exact ⟨Nat.le_of_not_lt hkept, rfl, rfl⟩
    | none =>
      rw [hfound] at h
      have hbeyond := Array.getElem?_eq_none_iff.mp hfound
      cases hclosed : b.closed <;> rw [hclosed] at h <;> cases h <;> exact ⟨hbeyond, rfl⟩

def Received.event? : Received → Option Event
  | event e => some e
  | _ => none

namespace Stream

variable {b : Bus} {s t : Stream} {found : Option Event}

theorem accepts_iff {e : Event} : s.accepts e = true ↔ ∀ edge ∈ s.edge, e.edge = edge := by
  unfold accepts
  cases s.edge <;> simp

/-- An event is due to a listener that has not passed it and accepts it, as long as it is kept. -/
def IsDue (b : Bus) (s : Stream) (place : Nat) : Prop :=
  s.position ≤ place ∧ b.history.size ≤ place + b.capacity ∧
    ∃ e, b.history[place]? = some e ∧ s.accepts e = true

/-- What a listener may get, and where it stands then. -/
inductive Takes (b : Bus) (s : Stream) : Option Event → Stream → Prop where
  | first {e : Event} {place : Nat} (due : s.IsDue b place) (event : b.history[place]? = some e)
      (least : ∀ other, s.IsDue b other → place ≤ other) :
      Takes b s (some e) { s with position := place + 1 }
  | nothing (quiet : ∀ place, ¬ s.IsDue b place) :
      Takes b s none { s with position := b.history.size }

theorem Takes.onward {position : Nat} (h : Takes b { s with position } found t)
    (same : ∀ place, s.IsDue b place ↔ { s with position }.IsDue b place) :
    s.Takes b found t := by
  cases h with
  | first due event least =>
    exact .first ((same _).mpr due) event (fun other hother => least other ((same other).mp hother))
  | nothing quiet => exact .nothing (fun place hplace => quiet place ((same place).mp hplace))

theorem isDue_lagged (h : s.position < b.oldest) (place : Nat) :
    s.IsDue b place ↔ { s with position := b.oldest }.IsDue b place := by
  unfold Bus.oldest at h ⊢
  constructor
  · rintro ⟨_, hkept, hfor⟩
    exact ⟨Nat.sub_le_of_le_add hkept, hkept, hfor⟩
  · rintro ⟨hplace, hkept, hfor⟩
    exact ⟨Nat.le_of_lt (Nat.lt_of_lt_of_le h hplace), hkept, hfor⟩

theorem isDue_skipped {e : Event} (hfound : b.history[s.position]? = some e)
    (hrefused : s.accepts e = false) (place : Nat) :
    s.IsDue b place ↔ { s with position := s.position + 1 }.IsDue b place := by
  constructor
  · rintro ⟨hplace, hkept, e', he', haccepts⟩
    refine ⟨Nat.lt_of_le_of_ne hplace ?_, hkept, e', he', haccepts⟩
    rintro rfl
    rw [hfound] at he'
    cases he'
    rw [hrefused] at haccepts
    cases haccepts
  · rintro ⟨hplace, hkept, hfor⟩
    exact ⟨Nat.le_of_succ_le hplace, hkept, hfor⟩

theorem not_isDue_end (h : b.history.size ≤ s.position) (place : Nat) : ¬ s.IsDue b place := by
  rintro ⟨hplace, _, e, he, _⟩
  obtain ⟨hlt, _⟩ := Array.getElem?_eq_some_iff.mp he
  exact absurd (Nat.lt_of_lt_of_le hlt h) (Nat.not_lt.mpr hplace)

theorem next_takes (h : s.position ≤ b.history.size) :
    s.Takes b (s.next b).1.event? (s.next b).2.1 := by
  fun_induction next s b with
  | case1 s e position htake haccepts =>
    obtain ⟨hkept, hfound, rfl⟩ := Bus.take_eq htake
    have hkept' : b.history.size ≤ s.position + b.capacity := Nat.le_add_of_sub_le hkept
    exact .first ⟨Nat.le_refl _, hkept', e, hfound, haccepts⟩ hfound (fun _ hother => hother.1)
  | case2 s e position htake hrefused ih =>
    obtain ⟨_, hfound, rfl⟩ := Bus.take_eq htake
    obtain ⟨hlt, _⟩ := Array.getElem?_eq_some_iff.mp hfound
    exact (ih hlt).onward (isDue_skipped hfound (by simpa using hrefused))
  | case3 s skipped position htake received t notes hnext ih =>
    obtain ⟨hbehind, _, rfl⟩ := Bus.take_eq htake
    rw [hnext] at ih
    exact (ih (Nat.sub_le _ _)).onward (isDue_lagged hbehind)
  | case4 s other position noEvent noLag htake =>
    have hend : b.history.size ≤ s.position ∧ position = s.position := by
      cases other with
      | event e => exact absurd rfl (noEvent e)
      | lagged skipped => exact absurd rfl (noLag skipped)
      | empty | closed => exact Bus.take_eq htake
    obtain ⟨hbeyond, rfl⟩ := hend
    have hevent : other.event? = none := by
      cases other with
      | event e => exact absurd rfl (noEvent e)
      | lagged | empty | closed => rfl
    have hsize : s.position = b.history.size := Nat.le_antisymm h hbeyond
    rw [hevent, hsize]
    exact .nothing (not_isDue_end hbeyond)

theorem tryNext_eq (s : Stream) (b : Bus) :
    (s.tryNext b).1 = (s.next b).1.event? ∧ (s.tryNext b).2.1 = (s.next b).2.1 := by
  unfold tryNext
  split
  · rename_i e t notes heq
    rw [heq]
    exact ⟨rfl, rfl⟩
  · rename_i received t notes noEvent heq
    rw [heq]
    cases received with
    | event e => exact absurd rfl (noEvent e)
    | lagged | empty | closed => exact ⟨rfl, rfl⟩

theorem tryNext_takes (h : s.position ≤ b.history.size) :
    s.Takes b (s.tryNext b).1 (s.tryNext b).2.1 := by
  rw [(s.tryNext_eq b).1, (s.tryNext_eq b).2]
  exact next_takes h

/-- A try that is given up if it is not over after so many rounds. -/
def nextWithin (b : Bus) : Nat → Stream → Option (Received × Stream × List Note)
  | 0, _ => none
  | rounds + 1, s =>
    match b.take s.position with
    | (.event e, position) =>
      if s.accepts e then some (.event e, { s with position }, [])
      else nextWithin b rounds { s with position }
    | (.lagged skipped, position) =>
      (nextWithin b rounds { s with position }).map
        (fun (received, s, notes) => (received, s, .lagged skipped :: notes))
    | (other, position) => some (other, { s with position }, [])

/-- A try is over after a round for each event to pass and one more. -/
theorem nextWithin_enough {rounds : Nat} (h : b.history.size ≤ s.position + rounds) :
    s.nextWithin b (rounds + 1) = some (s.next b) := by
  fun_induction next s b generalizing rounds with
  | case1 s e position htake haccepts => simp only [nextWithin, htake, haccepts, if_true]
  | case2 s e position htake hrefused ih =>
    obtain ⟨_, hfound, rfl⟩ := Bus.take_eq htake
    obtain ⟨hlt, _⟩ := Array.getElem?_eq_some_iff.mp hfound
    -- the event that is skipped pays for this round
    obtain ⟨left, rfl⟩ : ∃ left, rounds = left + 1 := ⟨rounds - 1, by omega⟩
    have hleft : b.history.size ≤ s.position + 1 + left := by omega
    rw [nextWithin, htake]
    simpa only [hrefused, Bool.false_eq_true, if_false] using ih hleft
  | case3 s skipped position htake received t notes hnext ih =>
    obtain ⟨hbehind, _, rfl⟩ := Bus.take_eq htake
    have holdest : b.oldest ≤ b.history.size := Nat.sub_le _ _
    obtain ⟨left, rfl⟩ : ∃ left, rounds = left + 1 := ⟨rounds - 1, by omega⟩
    have hleft : b.history.size ≤ b.oldest + left := by omega
    rw [nextWithin, htake]
    simp only [ih hleft, hnext, Option.map_some]
  | case4 s other position noEvent noLag htake =>
    rw [nextWithin, htake]
    cases other with
    | event e => exact absurd rfl (noEvent e)
    | lagged skipped => exact absurd rfl (noLag skipped)
    | empty | closed => rfl

end Stream

end ChannelFeed
