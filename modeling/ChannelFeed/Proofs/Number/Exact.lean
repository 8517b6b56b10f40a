import ChannelFeed.Number.Binary64
import Mathlib.Algebra.Order.Field.Power
import Mathlib.Data.Rat.Cast.Order
import Mathlib.Tactic.FieldSimp
import Mathlib.Tactic.Linarith
import Mathlib.Tactic.Ring

namespace ChannelFeed.Binary64

/-- The size of a significand times a power of two. -/
def magnitude (significand : Nat) (exponent : Int) : ℚ := significand * 2 ^ exponent

/-- The number that a double is, if it is finite. -/
def toRat? : Binary64 → Option ℚ
  | finite negative m e => some (if negative then -magnitude m e else magnitude m e)
  | _ => none

theorem magnitude_nonneg (m : Nat) (e : Int) : 0 ≤ magnitude m e := by
  unfold magnitude
  positivity

theorem toRat?_eq_some {x : Binary64} {r : ℚ} (h : x.toRat? = some r) :
    ∃ negative m e, x = finite negative m e ∧ |r| = magnitude m e ∧
      r = if negative then -|r| else |r| := by
  cases x with
  | nan | infinite => cases h
  | finite negative m e =>
    cases h
    have hm := magnitude_nonneg m e
    refine ⟨negative, m, e, rfl, ?_, ?_⟩
    · cases negative <;> simp [abs_of_nonneg hm]
    · cases negative <;> simp [abs_of_nonneg hm]

theorem toRat?_neg (x : Binary64) : x.neg.toRat? = x.toRat?.map (fun r => -r) := by
  cases x with
  | nan | infinite => rfl
  | finite negative m e => cases negative <;> simp [neg, toRat?]

/-- A magnitude is a natural exactly if its significand is a multiple of what it is divided by. -/
theorem magnitude_eq_natCast_iff {m n : Nat} {e : Int} : magnitude m e = n ↔
    (if 0 ≤ e then some (m * Nat.pow 2 e.toNat)
      else if m % Nat.pow 2 (-e).toNat = 0 then some (m / Nat.pow 2 (-e).toNat) else none) =
        some n := by
  unfold magnitude
  split
  · rename_i he
    obtain ⟨k, rfl⟩ := Int.eq_ofNat_of_zero_le he
    rw [Int.toNat_natCast, zpow_natCast, Option.some.injEq]
    exact_mod_cast Iff.rfl
  · rename_i he
    obtain ⟨k, rfl⟩ : ∃ k : Nat, e = -k := ⟨(-e).toNat, by omega⟩
    have hpos : 0 < 2 ^ k := Nat.two_pow_pos k
    have hmul : (m : ℚ) * 2 ^ (-(k : Int)) = n ↔ m = n * 2 ^ k := by
      rw [zpow_neg, zpow_natCast, ← div_eq_mul_inv, div_eq_iff (by positivity)]
      exact_mod_cast Iff.rfl
    have hpow : Nat.pow 2 (- -(k : Int)).toNat = 2 ^ k := by simp
    rw [hmul, hpow]
    split
    · rename_i hdvd
      rw [Option.some.injEq]
      rw [Nat.div_eq_iff_eq_mul_left hpos (Nat.dvd_of_mod_eq_zero hdvd)]
    · rename_i hnot
      simp only [reduceCtorEq, iff_false]
      rintro rfl
      exact hnot (Nat.mul_mod_left n _)

/-- A double stands for a whole number exactly if it is that number. -/
theorem toInt?_eq_some_iff {x : Binary64} {n : Int} : x.toInt? = some n ↔ x.toRat? = some (n : ℚ) := by
  cases x with
  | nan | infinite => simp [toInt?, toRat?]
  | finite negative m e =>
    have hm := magnitude_nonneg m e
    simp only [toInt?, toRat?, Option.map_eq_some_iff, Option.bind_eq_bind, Option.bind_eq_some_iff,
      Option.pure_def, ← magnitude_eq_natCast_iff, Option.some.injEq]
    constructor
    · rintro ⟨_, ⟨k, hk, rfl⟩, rfl⟩
      rw [hk]
      cases negative <;> simp
    · intro h
      -- the whole number has the sign of the double
      have habs : magnitude m e = (n.natAbs : ℚ) := by
        rw [Nat.cast_natAbs, Int.cast_abs, ← h]
        cases negative <;> simp [abs_of_nonneg hm]
      refine ⟨_, ⟨n.natAbs, habs, rfl⟩, ?_⟩
      cases negative with
      | true =>
        have hsign : (n : ℚ) ≤ 0 := by
          rw [← h]
          simpa using hm
        have : n ≤ 0 := by exact_mod_cast hsign
        simp only [if_true]
        omega
      | false =>
        have hsign : (0 : ℚ) ≤ n := by
          rw [← h]
          simpa using hm
        have : 0 ≤ n := by exact_mod_cast hsign
        simp only [Bool.false_eq_true, if_false]
        omega

end ChannelFeed.Binary64
