import ChannelFeed.Proofs.Number.Rounded

namespace ChannelFeed

/-- The naturals of 64 bits with the first bit set. -/
def IsWord (n : Nat) : Prop := 2 ^ 63 ≤ n ∧ n < 2 ^ 64

variable {n : Nat}

theorem le_roundDiv_word (h : IsWord n) : 2 ^ 52 ≤ roundDiv n 2048 :=
  le_roundDiv (by decide) (by have := h.1; omega)

theorem roundDiv_word_le (h : IsWord n) : roundDiv n 2048 ≤ 2 ^ 53 :=
  roundDiv_le (by decide) (by have := h.2; omega)

/-- What lies half of the way to the next double is rounded to the even one. -/
theorem roundDiv_word_eq_iff (h : IsWord n) : roundDiv n 2048 = 2 ^ 52 ↔ n ≤ 2 ^ 63 + 1024 := by
  obtain ⟨hlow, hhigh⟩ := h
  unfold roundDiv
  dsimp only
  split
  · omega
  · split
    · omega
    · split <;> omega

namespace Binary64

theorem fitExponent_word (h : IsWord n) : fitExponent .double n 1 = 11 := by
  obtain ⟨hlow, hhigh⟩ := h
  have hlog : n.log2 = 63 := (Nat.log2_eq_iff (by omega)).mpr ⟨hlow, hhigh⟩
  have hlog' : Nat.log2 1 = 0 := rfl
  have hmax : max (-1074 : Int) ((63 : Nat) - (0 : Nat) - (53 : Nat)) = 10 := by omega
  have hscaled : scaled n 1 10 = (n, 1024) := rfl
  have hlong : ¬ n / 1024 < 2 ^ 53 := by omega
  rw [fitExponent_eq, hlog, hlog', hmax]
  dsimp only
  rw [hscaled, if_neg hlong]
  rfl

/-- A word is rounded to a multiple of 2048. -/
theorem ofRatio_word (negative : Bool) (h : IsWord n) : (ofRatio negative n 1).toRat? =
    some (if negative then -magnitude (roundDiv n 2048) 11 else magnitude (roundDiv n 2048) 11) := by
  have hbound : ((n : ℚ) / (1 : Nat)) ≤ magnitude 1 64 := by
    have hhigh : (n : ℚ) ≤ 2 ^ 64 := by exact_mod_cast h.2.le
    norm_num [magnitude]
    norm_num at hhigh
    exact hhigh
  obtain ⟨y, hy⟩ := ofRatio_finite negative Nat.one_pos (by norm_num) (by norm_num) hbound
  obtain ⟨hsize, hsign⟩ := ofRatio_toRat? Nat.one_pos hy
  have hscaled : scaled n 1 11 = (n, 2048) := rfl
  rw [fitSignificand, fitExponent_word h, hscaled] at hsize
  rw [hy, hsign, hsize]

end Binary64

end ChannelFeed
