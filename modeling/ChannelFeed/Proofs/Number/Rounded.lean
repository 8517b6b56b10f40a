import ChannelFeed.Proofs.Number.Exact
import Mathlib.Data.Nat.Log

namespace ChannelFeed

theorem le_roundDiv {n d a : Nat} (hd : 0 < d) (h : a * d ≤ n) : a ≤ roundDiv n d := by
  have ha : a ≤ n / d := (Nat.le_div_iff_mul_le hd).mpr h
  unfold roundDiv
  dsimp only
  split
  · exact ha
  · split
    · omega
    · split <;> omega

theorem roundDiv_le {n d a : Nat} (hd : 0 < d) (h : n ≤ a * d) : roundDiv n d ≤ a := by
  have hn := Nat.div_add_mod n d
  have hle : n / d ≤ a := Nat.div_le_of_le_mul (by rwa [Nat.mul_comm])
  rcases Nat.lt_or_eq_of_le hle with hlt | heq
  · unfold roundDiv
    dsimp only
    split
    · exact hle
    · split
      · exact hlt
      · split
        · exact hle
        · exact hlt
  · -- there is no remainder to round
    have hmod : n % d = 0 := by
      rw [heq, Nat.mul_comm d a] at hn
      omega
    simp [roundDiv, hmod, hd, hle]

namespace Binary64

variable {num den : Nat}

/-- A number is on the same side of every double as what it is rounded to, if that is finite. -/
def Rounds (r : ℚ) (x : Binary64) : Prop :=
  ∀ y, x.toRat? = some y → ∀ m e, m < 2 ^ 53 → -1074 ≤ e →
    (magnitude m e ≤ r → magnitude m e ≤ |y|) ∧ (r ≤ magnitude m e → |y| ≤ magnitude m e)

theorem magnitude_le_iff {m m' : Nat} {e : Int} : magnitude m e ≤ magnitude m' e ↔ m ≤ m' := by
  unfold magnitude
  rw [mul_le_mul_iff_left₀ (by positivity)]
  exact_mod_cast Iff.rfl

theorem magnitude_shift (m : Nat) {e q : Int} (h : e ≤ q) :
    magnitude m q = magnitude (m * 2 ^ (q - e).toNat) e := by
  obtain ⟨k, rfl⟩ : ∃ k : Nat, q = e + k := ⟨(q - e).toNat, by omega⟩
  have hk : (e + k - e).toNat = k := by omega
  unfold magnitude
  rw [hk, zpow_add₀ (by norm_num), zpow_natCast]
  push_cast
  ring

variable (num) in
theorem scaled_ratio (hden : 0 < den) (e : Int) : 0 < (scaled num den e).2 ∧
    ((scaled num den e).1 : ℚ) / (scaled num den e).2 = num / den / 2 ^ e := by
  unfold scaled
  split
  · rename_i he
    obtain ⟨k, rfl⟩ := Int.eq_ofNat_of_zero_le he
    have hpow : Nat.pow 2 (k : Int).toNat = 2 ^ k := rfl
    rw [hpow]
    refine ⟨by positivity, ?_⟩
    push_cast
    rw [zpow_natCast, div_div]
  · rename_i he
    obtain ⟨k, rfl⟩ : ∃ k : Nat, e = -k := ⟨(-e).toNat, by omega⟩
    have hpow : Nat.pow 2 (- -(k : Int)).toNat = 2 ^ k := by simp
    rw [hpow]
    refine ⟨hden, ?_⟩
    push_cast
    rw [zpow_neg, zpow_natCast]
    field_simp

theorem log2_ratio (hnum : 0 < num) (hden : 0 < den) :
    (2 : ℚ) ^ ((num.log2 : Int) - den.log2 - 1) ≤ num / den := by
  have hlow : 2 ^ num.log2 ≤ num := Nat.log2_self_le hnum.ne'
  have hhigh : den ≤ 2 ^ (den.log2 + 1) := Nat.lt_log2_self.le
  have hden' : (0 : ℚ) < den := by exact_mod_cast hden
  have hlow' : (2 : ℚ) ^ num.log2 ≤ num := by exact_mod_cast hlow
  have hhigh' : (den : ℚ) ≤ 2 ^ (den.log2 + 1) := by exact_mod_cast hhigh
  have hsplit : (2 : ℚ) ^ ((num.log2 : Int) - den.log2 - 1) = 2 ^ num.log2 / 2 ^ (den.log2 + 1) := by
    rw [sub_sub, zpow_sub₀ (by norm_num), zpow_natCast]
    norm_cast
  rw [hsplit]
  exact div_le_div₀ (by positivity) hlow' hden' hhigh'

variable (num den) in
theorem fitExponent_eq : fitExponent .double num den =
    let low := max (-1074 : Int) ((num.log2 : Int) - den.log2 - (53 : Nat))
    if (scaled num den low).1 / (scaled num den low).2 < 2 ^ 53 then low else low + 1 :=
  rfl

/-- A ratio is rounded at the least exponent, or its significand has full length. -/
theorem fitExponent_fits (hnum : 0 < num) (hden : 0 < den) :
    fitExponent .double num den = -1074 ∨ -1074 ≤ fitExponent .double num den ∧
      (2 : ℚ) ^ (52 + fitExponent .double num den) ≤ num / den := by
  obtain ⟨low, hlow⟩ : ∃ low, max (-1074 : Int) ((num.log2 : Int) - den.log2 - (53 : Nat)) = low :=
    ⟨_, rfl⟩
  rw [fitExponent_eq, hlow]
  dsimp only
  obtain ⟨hd, hratio⟩ := scaled_ratio num hden low
  by_cases hshort : (scaled num den low).1 / (scaled num den low).2 < 2 ^ 53
  · rw [if_pos hshort]
    rcases eq_or_ne low (-1074) with h | h
    · exact .inl h
    · refine .inr ⟨by omega, ?_⟩
      have hlog : (num.log2 : Int) - den.log2 - 1 = 52 + low := by omega
      rw [← hlog]
      exact log2_ratio hnum hden
  · rw [if_neg hshort]
    refine .inr ⟨by omega, ?_⟩
    have hfull : 2 ^ 53 * (scaled num den low).2 ≤ (scaled num den low).1 :=
      (Nat.le_div_iff_mul_le hd).mp (Nat.le_of_not_lt hshort)
    have hd' : (0 : ℚ) < (scaled num den low).2 := by exact_mod_cast hd
    have hfull' : (2 : ℚ) ^ 53 * (scaled num den low).2 ≤ (scaled num den low).1 := by
      exact_mod_cast hfull
    have hle : (2 : ℚ) ^ 53 ≤ num / den / 2 ^ low := by
      rw [← hratio]
      exact (le_div_iff₀ hd').mpr hfull'
    have hsplit : (2 : ℚ) ^ (52 + (low + 1)) = 2 ^ 53 * 2 ^ low := by
      rw [show 52 + (low + 1) = 53 + low by ring, zpow_add₀ (by norm_num)]
      norm_cast
    rw [hsplit]
    exact (le_div_iff₀ (by positivity)).mp hle

/-- The significand that a ratio is rounded to. -/
def fitSignificand (num den : Nat) : Nat :=
  let (n, d) := scaled num den (fitExponent .double num den)
  roundDiv n d

theorem le_fitSignificand (hden : 0 < den) {a : Nat}
    (h : magnitude a (fitExponent .double num den) ≤ num / den) : a ≤ fitSignificand num den := by
  obtain ⟨hd, hratio⟩ := scaled_ratio num hden (fitExponent .double num den)
  refine le_roundDiv hd ?_
  rw [magnitude, ← le_div_iff₀ (by positivity), ← hratio, le_div_iff₀ (by exact_mod_cast hd)] at h
  exact_mod_cast h

theorem fitSignificand_le (hden : 0 < den) {a : Nat}
    (h : num / den ≤ magnitude a (fitExponent .double num den)) : fitSignificand num den ≤ a := by
  obtain ⟨hd, hratio⟩ := scaled_ratio num hden (fitExponent .double num den)
  refine roundDiv_le hd ?_
  rw [magnitude, ← div_le_iff₀ (by positivity), ← hratio, div_le_iff₀ (by exact_mod_cast hd)] at h
  exact_mod_cast h

variable (num) in
/-- A ratio is rounded to its significand at its exponent, unless that overflows. -/
theorem ofRatio_eq (negative : Bool) (hden : 0 < den) :
    ofRatio negative num den = infinite negative ∧ 0 < num ∧
        (971 < fitExponent .double num den ∨
          fitExponent .double num den = 971 ∧ fitSignificand num den = 2 ^ 53) ∨
      ∃ m e, ofRatio negative num den = finite negative m e ∧
        magnitude m e = magnitude (fitSignificand num den) (fitExponent .double num den) := by
  rcases Nat.eq_zero_or_pos num with rfl | hnum
  · have hzero : fitSignificand 0 den = 0 :=
      Nat.le_zero.mp (fitSignificand_le hden (by simp [magnitude]))
    refine .inr ⟨0, -1074, rfl, ?_⟩
    simp [hzero, magnitude]
  obtain ⟨m, hm⟩ : ∃ m, fitSignificand num den = m := ⟨_, rfl⟩
  obtain ⟨e, he⟩ : ∃ e, fitExponent .double num den = e := ⟨_, rfl⟩
  have hround : ofRatio negative num den =
      (if m = 2 ^ 53 then
        if (971 : Int) < e + 1 then infinite negative else finite negative (m / 2) (e + 1)
      else if (971 : Int) < e then infinite negative else finite negative m e) := by
    unfold ofRatio roundRatio
    rw [if_neg hnum.ne', ← hm, ← he]
    by_cases hfull : fitSignificand num den = 2 ^ 53
    · have hfull' : roundDiv (scaled num den (fitExponent .double num den)).1
          (scaled num den (fitExponent .double num den)).2 = Nat.pow 2 BinaryFormat.double.precision :=
        hfull
      simp only [hfull', if_true, hfull]
      rfl
    · have hfull' : roundDiv (scaled num den (fitExponent .double num den)).1
          (scaled num den (fitExponent .double num den)).2 ≠ Nat.pow 2 BinaryFormat.double.precision :=
        hfull
      simp only [if_neg hfull', if_neg hfull]
      rfl
  rw [hround, hm, he]
  split
  · rename_i hfull
    split
    · exact .inl ⟨rfl, hnum, by omega⟩
    · refine .inr ⟨_, _, rfl, ?_⟩
      -- a significand of one bit too many is even
      subst hfull
      unfold magnitude
      rw [zpow_add_one₀ (by norm_num)]
      norm_num
      ring
  · split
    · rename_i hover
      exact .inl ⟨rfl, hnum, .inl hover⟩
    · exact .inr ⟨_, _, rfl, rfl⟩

/-- A finite number that a ratio is rounded to, by its size and sign. -/
theorem ofRatio_toRat? {negative : Bool} (hden : 0 < den) {y : ℚ}
    (hy : (ofRatio negative num den).toRat? = some y) :
    |y| = magnitude (fitSignificand num den) (fitExponent .double num den) ∧
      y = if negative then -|y| else |y| := by
  rcases ofRatio_eq num negative hden with ⟨hinf, _⟩ | ⟨m, e, hfin, hmag⟩
  · rw [hinf] at hy
    cases hy
  · rw [hfin] at hy
    obtain ⟨_, _, _, heq, habs, hsign⟩ := toRat?_eq_some hy
    cases heq
    exact ⟨habs.trans hmag, hsign⟩

theorem magnitude_lt {m : Nat} {q e : Int} (hm : m < 2 ^ 53) (h : q < e) :
    magnitude m q < magnitude (2 ^ 52) e := by
  refine lt_of_not_ge (fun hge => ?_)
  rw [magnitude_shift (2 ^ 52) h.le, magnitude_le_iff] at hge
  have hpos : 2 ^ 1 ≤ 2 ^ (e - q).toNat := Nat.pow_le_pow_right (by norm_num) (by omega)
  omega

theorem fitExponent_full (hnum : 0 < num) (hden : 0 < den)
    (h : -1074 < fitExponent .double num den) :
    magnitude (2 ^ 52) (fitExponent .double num den) ≤ num / den := by
  rcases fitExponent_fits hnum hden with hleast | ⟨_, hfull⟩
  · omega
  · rw [zpow_add₀ (by norm_num)] at hfull
    unfold magnitude
    exact_mod_cast hfull

variable (num) in
theorem ofRatio_rounds (negative : Bool) (hden : 0 < den) :
    Rounds (num / den) (ofRatio negative num den) := by
  intro y hy m q hm hq
  rw [(ofRatio_toRat? hden hy).1]
  rcases le_or_gt (fitExponent .double num den) q with heq | hqe
  · rw [magnitude_shift m heq, magnitude_le_iff, magnitude_le_iff]
    exact ⟨le_fitSignificand hden, fitSignificand_le hden⟩
  · rcases Nat.eq_zero_or_pos num with rfl | hnum
    · have hzero : fitSignificand 0 den = 0 :=
        Nat.le_zero.mp (fitSignificand_le hden (by simp [magnitude]))
      have hnone : magnitude 0 (fitExponent .double 0 den) = 0 := by simp [magnitude]
      rw [hzero, hnone]
      exact ⟨by simp, fun _ => magnitude_nonneg m q⟩
    · have hbelow := magnitude_lt hm hqe
      have hfull := fitExponent_full hnum hden (by omega)
      refine ⟨fun _ => ?_, fun h => absurd h (not_le.mpr (hbelow.trans_le hfull))⟩
      exact hbelow.le.trans (magnitude_le_iff.mpr (le_fitSignificand hden hfull))

theorem ofRatio_finite (negative : Bool) (hden : 0 < den) {m : Nat} {q : Int} (hm : m < 2 ^ 53)
    (hq : q ≤ 971) (h : num / den ≤ magnitude m q) :
    ∃ y, (ofRatio negative num den).toRat? = some y := by
  rcases ofRatio_eq num negative hden with ⟨_, hnum, hover⟩ | ⟨_, _, hfin, _⟩
  · have hfull := fitExponent_full hnum hden (by omega)
    rcases lt_or_ge q (fitExponent .double num den) with hlt | hge
    · exact absurd (hfull.trans h) (not_le.mpr (magnitude_lt hm hlt))
    · obtain ⟨he, hcarry⟩ : fitExponent .double num den = q ∧ fitSignificand num den = 2 ^ 53 := by
        omega
      have hle := fitSignificand_le hden (he ▸ h)
      omega
  · rw [hfin]
    exact ⟨_, rfl⟩

theorem ofNat_rounds (n : Nat) : Rounds n (ofNat n) := by
  have h := ofRatio_rounds n false Nat.one_pos
  rwa [Nat.cast_one, div_one] at h

theorem ofScaled_ratio (m : Nat) (e : Int) : ∃ num den : Nat, 0 < den ∧
    (num : ℚ) / den = magnitude m e ∧
      ∀ negative, ofScaled negative m e = ofRatio negative num den := by
  unfold ofScaled magnitude
  split
  · rename_i he
    obtain ⟨k, rfl⟩ := Int.eq_ofNat_of_zero_le he
    refine ⟨_, _, Nat.one_pos, ?_, fun _ => rfl⟩
    have hpow : Nat.pow 2 (k : Int).toNat = 2 ^ k := rfl
    rw [hpow, Nat.cast_one, div_one, zpow_natCast]
    norm_cast
  · rename_i he
    obtain ⟨k, rfl⟩ : ∃ k : Nat, e = -k := ⟨(-e).toNat, by omega⟩
    have hpow : Nat.pow 2 (- -(k : Int)).toNat = 2 ^ k := by simp
    rw [hpow]
    refine ⟨_, _, Nat.two_pow_pos k, ?_, fun _ => rfl⟩
    rw [zpow_neg, zpow_natCast, ← div_eq_mul_inv]
    norm_cast

theorem ofScaled_rounds (negative : Bool) (m : Nat) (e : Int) :
    Rounds (magnitude m e) (ofScaled negative m e) := by
  obtain ⟨num, den, hden, hratio, hof⟩ := ofScaled_ratio m e
  rw [hof, ← hratio]
  exact ofRatio_rounds num negative hden

/-- A number that is a double is rounded to itself. -/
theorem ofScaled_exact (negative : Bool) {m m' : Nat} {e e' : Int} (hm : m' < 2 ^ 53)
    (hlow : -1074 ≤ e') (hhigh : e' ≤ 971) (h : magnitude m e = magnitude m' e') :
    (ofScaled negative m e).toRat? =
      some (if negative then -magnitude m e else magnitude m e) := by
  obtain ⟨num, den, hden, hratio, hof⟩ := ofScaled_ratio m e
  obtain ⟨y, hy⟩ := ofRatio_finite negative hden hm hhigh (hratio.trans h).le
  obtain ⟨habove, hbelow⟩ := ofRatio_rounds num negative hden y hy m' e' hm hlow
  rw [hratio, h] at habove hbelow
  have hsize : |y| = magnitude m e := (le_antisymm (hbelow le_rfl) (habove le_rfl)).trans h.symm
  rw [hof, hy, (ofRatio_toRat? hden hy).2, hsize]

/-- Up to 2^53 every integer is a double. -/
theorem toRat?_ofInt {n : Int} (h : n.natAbs ≤ 2 ^ 53) : (ofInt n).toRat? = some (n : ℚ) := by
  obtain ⟨m, e, hm, hlow, hhigh, hmag⟩ : ∃ m e, m < 2 ^ 53 ∧ -1074 ≤ e ∧ e ≤ 971 ∧
      magnitude n.natAbs 0 = magnitude m e := by
    rcases Nat.lt_or_eq_of_le h with hlt | hlimit
    · exact ⟨n.natAbs, 0, hlt, by norm_num, by norm_num, rfl⟩
    · refine ⟨2 ^ 52, 1, by norm_num, by norm_num, by norm_num, ?_⟩
      rw [hlimit]
      norm_num [magnitude]
  have hscaled : ofInt n = ofScaled (decide (n < 0)) n.natAbs 0 := by simp [ofInt, ofScaled]
  have hsize : magnitude n.natAbs 0 = |(n : ℚ)| := by
    rw [magnitude, zpow_zero, mul_one, Nat.cast_natAbs, Int.cast_abs]
  rw [hscaled, ofScaled_exact _ hm hlow hhigh hmag, hsize, Option.some.injEq]
  by_cases hneg : n < 0
  · rw [if_pos (decide_eq_true hneg), abs_of_neg (by exact_mod_cast hneg), neg_neg]
  · rw [if_neg (by simpa using hneg), abs_of_nonneg (by exact_mod_cast not_lt.mp hneg)]

theorem magnitude_mul (m n : Nat) (e d : Int) :
    magnitude m e * magnitude n d = magnitude (m * n) (e + d) := by
  unfold magnitude
  rw [zpow_add₀ (by norm_num)]
  push_cast
  ring

/-- A product that is finite is the rounded product of its factors. -/
theorem mul_rounds {x y : Binary64} {r : ℚ} (h : (x.mul y).toRat? = some r) :
    ∃ a b, x.toRat? = some a ∧ y.toRat? = some b ∧ Rounds (|a| * |b|) (x.mul y) := by
  cases x with
  | nan => cases h
  | infinite s =>
    cases y with
    | nan | infinite => cases h
    | finite t m e =>
      simp only [mul] at h
      split at h <;> cases h
  | finite s m e =>
    cases y with
    | nan => cases h
    | infinite t =>
      simp only [mul] at h
      split at h <;> cases h
    | finite t n d =>
      obtain ⟨_, _, _, heq, ha, _⟩ := toRat?_eq_some (x := finite s m e) rfl
      cases heq
      obtain ⟨_, _, _, heq, hb, _⟩ := toRat?_eq_some (x := finite t n d) rfl
      cases heq
      refine ⟨_, _, rfl, rfl, ?_⟩
      rw [ha, hb, magnitude_mul]
      exact ofScaled_rounds (s != t) (m * n) (e + d)

theorem mul_one_toRat? {x : Binary64} {a : ℚ} (hx : x.toRat? = some a) {m : Nat} {e : Int}
    (hm : m < 2 ^ 53) (hlow : -1074 ≤ e) (hhigh : e ≤ 971) (h : |a| = magnitude m e) :
    (x.mul one).toRat? = some a := by
  obtain ⟨s, n, d, rfl, habs, hsign⟩ := toRat?_eq_some hx
  have hone : one = finite false (2 ^ 52) (-52) := rfl
  have hunit : magnitude (2 ^ 52) (-52) = 1 := by norm_num [magnitude]
  have hsame : magnitude (n * 2 ^ 52) (d + -52) = |a| := by
    rw [← magnitude_mul, hunit, mul_one, habs]
  have hmul : (finite s n d).mul one = ofScaled s (n * 2 ^ 52) (d + -52) := by
    rw [hone, mul, Bool.bne_false]
  rw [hmul, ofScaled_exact s hm hlow hhigh (hsame.trans h), hsame, ← hsign]

end Binary64

end ChannelFeed
