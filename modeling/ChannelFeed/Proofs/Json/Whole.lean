import ChannelFeed.Proofs.Json.Decimal
import ChannelFeed.Proofs.Json.Lexeme
import ChannelFeed.Proofs.Number.Word

namespace ChannelFeed.Json.Numeral

open Binary64 (magnitude)

/-- The number that is written, its fraction and power aside. -/
def integer (n : Numeral) : Int := if n.negative then -(valueOf n.whole : Int) else valueOf n.whole

theorem le_foldl_digits (digits : List Nat) (significand : Nat) :
    significand ≤ digits.foldl (fun value d => 10 * value + d) significand := by
  induction digits generalizing significand with
  | nil => exact Nat.le_refl _
  | cons d rest ih =>
    refine Nat.le_trans ?_ (ih (10 * significand + d))
    omega

theorem takeDigits_fits {digits : List Nat} {significand : Nat}
    (h : digits.foldl (fun value d => 10 * value + d) significand < wordLimit) :
    takeDigits significand digits =
      (digits.foldl (fun value d => 10 * value + d) significand, []) := by
  induction digits generalizing significand with
  | nil => rfl
  | cons d rest ih =>
    have hfits : 10 * significand + d < wordLimit := Nat.lt_of_le_of_lt (le_foldl_digits rest _) h
    rw [takeDigits, if_pos hfits, ih h, List.foldl_cons]

/-- Of any other some digits are left over, and what was taken would not have had room for one more. -/
theorem takeDigits_drops {digits : List Nat} {significand : Nat} (hd : ∀ d ∈ digits, d < 10)
    (hs : significand < wordLimit)
    (h : wordLimit ≤ digits.foldl (fun value d => 10 * value + d) significand) :
    ∃ m d rest, takeDigits significand digits = (m, d :: rest) ∧ wordLimit ≤ 10 * m + 9 := by
  induction digits generalizing significand with
  | nil => exact absurd hs (Nat.not_lt.mpr h)
  | cons d rest ih =>
    rw [takeDigits]
    split
    · rename_i hfits
      exact ih (fun d' hd' => hd d' (List.mem_cons_of_mem _ hd')) hfits h
    · rename_i hfull
      have hdigit := hd d List.mem_cons_self
      exact ⟨significand, d, rest, rfl, by omega⟩

theorem scaleTen_zero {x : Binary64} {a : ℚ} (hx : x.toRat? = some a) {m : Nat} {e : Int}
    (hm : m < 2 ^ 53) (hlow : -1074 ≤ e) (hhigh : e ≤ 971) (h : |a| = magnitude m e) :
    ∃ y, scaleTen x 0 = some y ∧ y.toRat? = some a := by
  have hone := Binary64.mul_one_toRat? hx hm hlow hhigh h
  obtain ⟨s, n, d, hmul, _, _⟩ := Binary64.toRat?_eq_some hone
  have hten : x.mul (.ofNat (Nat.pow 10 (0 : Int).natAbs)) = .finite s n d := hmul
  refine ⟨.finite s n d, ?_, hmul ▸ hone⟩
  rw [scaleTen, if_pos (by decide)]
  simp only [hten, le_refl, if_true]

theorem le_scaleTen {x y : Binary64} {k : Int} (hk : 0 < k) {m : Nat} (hm : 2 ^ 60 ≤ m)
    (hx : x = .ofNat m) (h : scaleTen x k = some y) {r : ℚ} (hr : y.toRat? = some r) :
    2 ^ 63 < |r| := by
  have hlarge : ∀ a, x.toRat? = some a → magnitude 1 60 ≤ |a| := fun a ha => by
    refine (Binary64.ofNat_rounds m a (hx ▸ ha) 1 60 (by norm_num) (by norm_num)).1 ?_
    have hm' : (2 : ℚ) ^ 60 ≤ m := by exact_mod_cast hm
    simpa [magnitude] using hm'
  have hzero : x.isZero = false := by
    rw [Bool.eq_false_iff]
    intro hzero
    cases x with
    | nan | infinite => cases hzero
    | finite s n d =>
      have hn : n = 0 := by simpa [Binary64.isZero] using hzero
      subst hn
      have hle := hlarge _ rfl
      norm_num [magnitude] at hle
  rw [scaleTen] at h
  split at h
  · -- the power is one double, and the product is not infinite
    rw [if_pos (le_of_lt hk)] at h
    obtain ⟨t, ht⟩ : ∃ t, x.mul (.ofNat (Nat.pow 10 k.natAbs)) = t := ⟨_, rfl⟩
    have hy : t = y := by
      rw [ht] at h
      split at h
      · cases h
      · exact Option.some.inj h
    rw [← hy, ← ht] at hr
    obtain ⟨a, b, ha, hb, hrounds⟩ := Binary64.mul_rounds hr
    have hten : magnitude 10 0 ≤ |b| := by
      refine (Binary64.ofNat_rounds _ b hb 10 0 (by norm_num) (by norm_num)).1 ?_
      have hpow : 10 ^ 1 ≤ 10 ^ k.natAbs := Nat.pow_le_pow_right (by norm_num) (by omega)
      have hpow' : (10 : ℚ) ≤ (10 ^ k.natAbs : Nat) := by exact_mod_cast hpow
      simpa [magnitude] using hpow'
    have hproduct : magnitude 10 60 ≤ |a| * |b| := by
      calc magnitude 10 60 = magnitude 1 60 * magnitude 10 0 := by norm_num [magnitude]
        _ ≤ |a| * |b| := mul_le_mul (hlarge a ha) hten (Binary64.magnitude_nonneg _ _) (abs_nonneg a)
    have hle := (hrounds r hr 10 60 (by norm_num) (by norm_num)).1 hproduct
    refine lt_of_lt_of_le ?_ hle
    norm_num [magnitude]
  · simp only [hzero, Bool.false_eq_true, if_false, reduceCtorEq] at h

variable {n : Numeral}

/-- A number without fraction and power is kept as one if it fits 64 bits, with its sign if it has one;
otherwise it becomes a double, and so does minus zero. -/
theorem value?_cases (h : n.isWhole = true) :
    n.value? = some (.whole n.integer) ∧ -2 ^ 63 ≤ n.integer ∧ n.integer < 2 ^ 64 ∨
      n.value? = n.toReal?.map .real ∧ (valueOf n.whole = 0 ∨ 2 ^ 63 < valueOf n.whole) := by
  have hlimit : wordLimit = 2 ^ 64 := rfl
  have hvalue : n.value? =
      if n.negative = false ∧ valueOf n.whole < wordLimit then some (.whole n.integer)
      else if n.negative = true ∧ 0 < valueOf n.whole ∧ valueOf n.whole ≤ 2 ^ 63 then
        some (.whole n.integer)
      else n.toReal?.map .real := by
    unfold value? integer valueOf
    rw [h]
    cases n.negative <;> simp
  rw [hvalue]
  cases hnegative : n.negative with
  | false =>
    have hinteger : n.integer = valueOf n.whole := by simp [integer, hnegative]
    by_cases hfits : valueOf n.whole < wordLimit
    · rw [if_pos ⟨rfl, hfits⟩]
      exact .inl ⟨rfl, by omega, by omega⟩
    · rw [if_neg (fun hin => hfits hin.2), if_neg (fun hin => Bool.false_ne_true hin.1)]
      exact .inr ⟨rfl, by omega⟩
  | true =>
    have hinteger : n.integer = -(valueOf n.whole : Int) := by simp [integer, hnegative]
    rw [if_neg (fun hin => Bool.false_ne_true hin.1.symm)]
    by_cases hfits : 0 < valueOf n.whole ∧ valueOf n.whole ≤ 2 ^ 63
    · rw [if_pos ⟨rfl, hfits⟩]
      exact .inl ⟨rfl, by omega, by omega⟩
    · rw [if_neg (fun hin => hfits hin.2)]
      exact .inr ⟨rfl, by omega⟩

theorem signed_toRat? (negative : Bool) (x : Binary64) : (signed negative x).toRat? =
    x.toRat?.map (fun a => if negative then -a else a) := by
  cases negative with
  | true => exact Binary64.toRat?_neg x
  | false => simp [signed]

theorem toReal?_whole (h : n.isWhole = true) {m : Nat} {dropped : List Nat}
    (htake : takeDigits 0 n.whole = (m, dropped)) : n.toReal? =
      (scaleTen (.ofNat m) (min powerLimit dropped.length)).map (signed n.negative) := by
  obtain ⟨negative, whole, fraction, power⟩ := n
  obtain ⟨hfraction, hpower⟩ := Bool.and_eq_true_iff.mp h
  obtain rfl : fraction = [] := List.isEmpty_iff.mp hfraction
  obtain rfl : power = none := Option.isNone_iff_eq_none.mp hpower
  have hexponent : max (-powerLimit - 1) (min powerLimit
      ((dropped.length : Int) - ((([] : List Nat).length : Int) - ([] : List Nat).length) + 0)) =
        min powerLimit dropped.length := by
    have hlimit : powerLimit = 2147483647 := rfl
    simp only [List.length_nil]
    omega
  rw [← hexponent]
  unfold toReal?
  rw [htake]
  rfl

theorem toReal?_fits (h : n.isWhole = true) (hfits : valueOf n.whole < wordLimit) :
    n.toReal? = (scaleTen (.ofNat (valueOf n.whole)) 0).map (signed n.negative) :=
  toReal?_whole h (takeDigits_fits hfits)

theorem toReal?_zero (h : n.isWhole = true) (hzero : valueOf n.whole = 0) :
    ∃ y, n.toReal? = some y ∧ y.toRat? = some 0 := by
  have hnothing : (Binary64.ofNat 0).toRat? = some 0 := by
    simp [Binary64.ofNat, Binary64.ofRatio, Binary64.roundRatio, Binary64.toRat?, magnitude]
  obtain ⟨x, hx, hvalue⟩ := scaleTen_zero (m := 0) (e := 0) hnothing (by norm_num) (by norm_num)
    (by norm_num) (by simp [magnitude])
  rw [toReal?_fits h (by rw [hzero]; decide), hzero, hx]
  refine ⟨_, rfl, ?_⟩
  rw [signed_toRat?, hvalue]
  simp

/-- A number of 64 bits with the first bit set is rounded once. -/
theorem toReal?_word (h : n.isWhole = true) (hword : IsWord (valueOf n.whole)) :
    ∃ y, n.toReal? = some y ∧
      y.toRat? = (Binary64.ofRatio n.negative (valueOf n.whole) 1).toRat? := by
  have hpositive := Binary64.ofRatio_word false hword
  have hsize := abs_of_nonneg (Binary64.magnitude_nonneg (roundDiv (valueOf n.whole) 2048) 11)
  -- a significand of one bit too many is that of the next exponent
  obtain ⟨m, e, hm, hlow, hhigh, hmag⟩ : ∃ m e, m < 2 ^ 53 ∧ -1074 ≤ e ∧ e ≤ 971 ∧
      magnitude (roundDiv (valueOf n.whole) 2048) 11 = magnitude m e := by
    rcases Nat.lt_or_eq_of_le (roundDiv_word_le hword) with hlt | heq
    · exact ⟨_, 11, hlt, by norm_num, by norm_num, rfl⟩
    · exact ⟨1, 64, by norm_num, by norm_num, by norm_num, by rw [heq]; norm_num [magnitude]⟩
  obtain ⟨x, hx, hvalue⟩ := scaleTen_zero hpositive hm hlow hhigh (hsize.trans hmag)
  have hof : Binary64.ofNat (valueOf n.whole) = Binary64.ofRatio false (valueOf n.whole) 1 := rfl
  rw [toReal?_fits h hword.2, hof, hx]
  refine ⟨_, rfl, ?_⟩
  rw [signed_toRat?, hvalue, Binary64.ofRatio_word _ hword]
  rfl

/-- A number of more than 64 bits is beyond all integers, if it has a double at all. -/
theorem toReal?_long (h : n.isWhole = true) (hd : n.Decimal)
    (hlong : wordLimit ≤ valueOf n.whole) {y : Binary64} (hy : n.toReal? = some y) {r : ℚ}
    (hr : y.toRat? = some r) : 2 ^ 63 < |r| := by
  obtain ⟨m, d, rest, htake, hfull⟩ := takeDigits_drops hd (by decide) hlong
  rw [toReal?_whole h htake] at hy
  obtain ⟨x, hx, rfl⟩ := Option.map_eq_some_iff.mp hy
  rw [signed_toRat?] at hr
  obtain ⟨a, ha, rfl⟩ := Option.map_eq_some_iff.mp hr
  have hpower : 0 < min powerLimit ((d :: rest).length : Int) := by
    have hlimit : powerLimit = 2147483647 := rfl
    rw [List.length_cons]
    omega
  have hlarge : 2 ^ 60 ≤ m := by
    have hlimit : wordLimit = 18446744073709551616 := rfl
    omega
  have hbeyond := le_scaleTen hpower hlarge rfl hx ha
  cases n.negative <;> simpa using hbeyond

/-- What fits 64 bits has a value. -/
theorem value?_fits (h : n.isWhole = true) (hfits : valueOf n.whole < wordLimit) :
    ∃ number, n.value? = some number := by
  rcases value?_cases h with ⟨hwhole, _⟩ | ⟨hreal, hzero | hfar⟩
  · exact ⟨_, hwhole⟩
  · obtain ⟨y, hy, _⟩ := toReal?_zero h hzero
    exact ⟨_, hreal.trans (congrArg (Option.map Number.real) hy)⟩
  · obtain ⟨y, hy, _⟩ := toReal?_word h ⟨hfar.le, hfits⟩
    exact ⟨_, hreal.trans (congrArg (Option.map Number.real) hy)⟩

end ChannelFeed.Json.Numeral
