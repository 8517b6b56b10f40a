import ChannelFeed.Charge.Decoder
import ChannelFeed.Proofs.Wire.Integers
import Mathlib.Tactic.IntervalCases

namespace ChannelFeed

namespace Value

/-- Whether a value is a whole number, be it as an integer or as a double. -/
def IsWhole (n : Int) : Value → Prop
  | integer m => m = n
  | float x => x.toRat? = some (n : ℚ)
  | _ => False

/-- Whether a value is a number, an integer being the double next to it. -/
def IsNumber (x : Binary64) : Value → Prop
  | integer n => .ofInt n = x
  | float y => y = x
  | _ => False

def IsPositive : Value → Prop
  | integer n => 0 < n
  | float x => x = .infinite false ∨ ∃ r, x.toRat? = some r ∧ 0 < r
  | _ => False

theorem asInteger?_eq_some_iff {v : Value} {n : Int} (hlow : minInteger ≤ n) (hhigh : n < maxInteger) :
    v.asInteger? = some n ↔ v.IsWhole n := by
  cases v with
  | bool | text => simp [asInteger?, IsWhole]
  | integer m => simp [asInteger?, IsWhole]
  | float x =>
    rw [asInteger?_float_iff, IsWhole]
    constructor
    · rintro (⟨hx, _⟩ | ⟨_, hmax⟩)
      · exact hx
      · omega
    · intro hx
      exact .inl ⟨hx, hlow, hhigh.le⟩

end Value

namespace Binary64

theorem isPositive_iff {x : Binary64} :
    x.isPositive = true ↔ x = infinite false ∨ ∃ r, x.toRat? = some r ∧ 0 < r := by
  cases x with
  | nan => simp [isPositive, toRat?]
  | infinite negative => simp [isPositive, toRat?]
  | finite negative m e =>
    have hnonneg := magnitude_nonneg m e
    have hpos : 0 < magnitude m e ↔ m ≠ 0 := by
      unfold magnitude
      rw [mul_pos_iff_of_pos_right (by positivity), Nat.cast_pos, Nat.pos_iff_ne_zero]
    cases negative with
    | true => simp [isPositive, toRat?, hnonneg]
    | false => simp [isPositive, toRat?, hpos]

/-- No number from one on is rounded to zero. -/
theorem ofRatio_significand_ne_zero {n : Nat} (hn : 0 < n) {negative s : Bool} {m : Nat} {e : Int}
    (h : ofRatio negative n 1 = finite s m e) : m ≠ 0 := by
  have hunit : magnitude 1 0 = 1 := by norm_num [magnitude]
  have hle : magnitude 1 0 ≤ (n : ℚ) / (1 : Nat) := by
    rw [hunit, Nat.cast_one, div_one]
    exact_mod_cast hn
  obtain ⟨hrounded, _⟩ := ofRatio_rounds n negative Nat.one_pos _ (congrArg toRat? h) 1 0
    (by norm_num) (by norm_num)
  rintro rfl
  have hzero : magnitude 0 e = 0 := by simp [magnitude]
  have hone := hrounded hle
  simp [hunit, hzero] at hone
  norm_num at hone

/-- Rounding keeps an integer above zero, and none else. -/
theorem isPositive_ofInt (n : Int) : (ofInt n).isPositive = true ↔ 0 < n := by
  rcases eq_or_ne n 0 with rfl | hne
  · decide
  · have hpos : 0 < n.natAbs := Int.natAbs_pos.mpr hne
    unfold ofInt
    rcases ofRatio_eq n.natAbs (decide (n < 0)) Nat.one_pos with ⟨hinf, _⟩ | ⟨m, e, hfin, _⟩
    · rw [hinf]
      simp only [isPositive, Bool.not_eq_true', decide_eq_false_iff_not]
      omega
    · have hm := ofRatio_significand_ne_zero hpos hfin
      rw [hfin]
      simp only [isPositive, Bool.and_eq_true, Bool.not_eq_true', decide_eq_false_iff_not, bne_iff_ne]
      omega

end Binary64

namespace Value

theorem asFloat?_eq_some_iff {v : Value} {x : Binary64} : v.asFloat? = some x ↔ v.IsNumber x := by
  cases v <;> simp [asFloat?, IsNumber]

theorem asFloat?_isPositive (v : Value) :
    (v.asFloat?.map Binary64.isPositive).getD false = true ↔ v.IsPositive := by
  cases v with
  | bool | text => simp [asFloat?, IsPositive]
  | integer n => exact Binary64.isPositive_ofInt n
  | float x => exact Binary64.isPositive_iff

end Value

namespace Charge

def shownStates : List (Int × State) :=
  [(-1, .notDefined), (0, .chargeLimitActive), (1, .passedEndTime), (2, .storageAlreadyFull),
    (3, .endTimeNotCalculated), (4, .noLimitPossible), (5, .noLimitActive), (6, .disabled),
    (7, .noLimitActive), (8, .chargingDelayed)]

theorem SellLimit.ofCode?_eq_some_iff {code : Int} {s : SellLimit} :
    ofCode? code = some s ↔ code = s.code := by
  constructor
  · intro h
    by_cases hrange : -1 ≤ code ∧ code ≤ 5
    · obtain ⟨hlow, hhigh⟩ := hrange
      interval_cases code <;> (cases h; rfl)
    · have hnone : ofCode? code = none := by
        unfold ofCode?
        simp (disch := omega) only [if_neg]
      rw [hnone] at h
      cases h
  · rintro rfl
    cases s <;> rfl

theorem Delay.ofCode?_eq_some_iff {code : Int} {s : Delay} : ofCode? code = some s ↔ code = s.code := by
  constructor
  · intro h
    by_cases hrange : -1 ≤ code ∧ code ≤ 8
    · obtain ⟨hlow, hhigh⟩ := hrange
      interval_cases code <;> (cases h; rfl)
    · have hnone : ofCode? code = none := by
        unfold ofCode?
        simp (disch := omega) only [if_neg]
      rw [hnone] at h
      cases h
  · rintro rfl
    cases s <;> rfl

namespace Decoder

/-- Whether a channel of the controller holds a value of some kind. -/
def Holds (d : Decoder) (v : View) (channel : String) (kind : Value → Prop) : Prop :=
  ∃ x, v.get? ⟨d.component, channel⟩ = some x ∧ kind x

variable {d : Decoder} {v : View} {channel : String}

theorem whole_iff {n : Int} (hlow : Value.minInteger ≤ n) (hhigh : n < Value.maxInteger) :
    (d.channel? v channel).bind Value.asInteger? = some n ↔ d.Holds v channel (Value.IsWhole n) := by
  rw [Option.bind_eq_some_iff]
  simp only [Value.asInteger?_eq_some_iff hlow hhigh]
  rfl

theorem number?_eq_some_iff {x : Binary64} :
    d.number? v channel = some x ↔ d.Holds v channel (Value.IsNumber x) := by
  unfold number?
  rw [Option.bind_eq_some_iff]
  simp only [Value.asFloat?_eq_some_iff]
  rfl

theorem number?_isPositive : ((d.number? v channel).map Binary64.isPositive).getD false = true ↔
    d.Holds v channel Value.IsPositive := by
  unfold number? channel? Holds
  cases v.get? ⟨d.component, channel⟩ with
  | none => simp
  | some x => simp [Value.asFloat?_isPositive]

theorem sell_iff {s : SellLimit} : SellLimit.ofValue? (d.channel? v channel) = some s ↔
    d.Holds v channel (Value.IsWhole s.code) := by
  have hrange : Value.minInteger ≤ s.code ∧ s.code < Value.maxInteger := by cases s <;> decide
  rw [← whole_iff hrange.1 hrange.2, SellLimit.ofValue?, Option.bind_eq_some_iff]
  simp only [SellLimit.ofCode?_eq_some_iff]
  exact exists_eq_right

theorem delay_iff {s : Delay} : Delay.ofValue? (d.channel? v channel) = some s ↔
    d.Holds v channel (Value.IsWhole s.code) := by
  have hrange : Value.minInteger ≤ s.code ∧ s.code < Value.maxInteger := by cases s <;> decide
  rw [← whole_iff hrange.1 hrange.2, Delay.ofValue?, Option.bind_eq_some_iff]
  simp only [Delay.ofCode?_eq_some_iff]
  exact exists_eq_right

end Decoder

theorem avoidsLimit_iff {sell : Option SellLimit} {delay : Option Delay} {minimum : Option Binary64} :
    avoidsLimit sell delay minimum = true ↔ sell = some .activeLimitFixed ∨
      sell = some .activeLimitConstraint ∧ delay ≠ some .activeLimit ∧
        (minimum.map Binary64.isPositive).getD false = true := by
  unfold avoidsLimit
  split <;> simp_all

/-- No delay alone shows as avoiding the limitation. -/
theorem State.ofDelay_ne (delay : Option Delay) :
    State.ofDelay delay ≠ .gridFeedInLimitationAvoided := by
  rcases delay with _ | delay
  · decide
  · cases delay <;> decide

theorem mem_shownStates {code : Int} {state : State} (h : (code, state) ∈ shownStates) :
    ∃ delay : Delay, delay.code = code ∧ State.ofDelay (some delay) = state := by
  have hlist : shownStates = [Delay.undefined, .activeLimit, .noRemainingTime, .noRemainingCapacity,
      .targetMinuteNotCalculated, .noFeasibleSolution, .noChargeLimit, .disabled, .notStarted,
      .avoidLowCharging].map (fun delay => (delay.code, State.ofDelay (some delay))) := rfl
  rw [hlist] at h
  obtain ⟨delay, _, heq⟩ := List.mem_map.mp h
  cases heq
  exact ⟨delay, rfl, rfl⟩

namespace Decoder

/-- What a status says about its parts and about the channels it was read from. -/
structure Coherent (d : Decoder) (v : View) (s : Status) : Prop where
  sell : ∀ limit, s.sell = some limit ↔
    d.Holds v "SellToGridLimitState" (Value.IsWhole limit.code)
  delay : ∀ delay, s.delay = some delay ↔ d.Holds v "DelayChargeState" (Value.IsWhole delay.code)
  avoided : s.avoided = true ↔ d.Holds v "SellToGridLimitState" (Value.IsWhole 0) ∨
    d.Holds v "SellToGridLimitState" (Value.IsWhole 3) ∧
      ¬ d.Holds v "DelayChargeState" (Value.IsWhole 0) ∧
      d.Holds v "SellToGridLimitMinimumChargeLimit" Value.IsPositive
  shown : s.state = .gridFeedInLimitationAvoided ↔ s.avoided = true
  /-- Otherwise the delayed charge alone decides. -/
  mapped : s.avoided = false → ∀ code state, (code, state) ∈ shownStates →
    d.Holds v "DelayChargeState" (Value.IsWhole code) → s.state = state
  unmapped : s.avoided = false → (∀ code, d.Holds v "DelayChargeState" (Value.IsWhole code) →
    ¬ (-1 ≤ code ∧ code ≤ 8)) → s.state = .unknown
  decoded : s.state =
    State.decode s.sell s.delay (d.number? v "SellToGridLimitMinimumChargeLimit")
  number : ∀ channel x, d.number? v channel = some x ↔ d.Holds v channel (Value.IsNumber x)
  minimum : s.avoided = true →
    s.limit = (d.number? v "SellToGridLimitMinimumChargeLimit").map .minimum
  maximum : s.avoided = false →
    s.limit = (d.number? v "DelayChargeMaximumChargeLimit").map .maximum
  unlimited : s.limit = none ↔ ∀ x, ¬ d.Holds v
    (if s.avoided then "SellToGridLimitMinimumChargeLimit" else "DelayChargeMaximumChargeLimit")
    (Value.IsNumber x)

variable {d : Decoder} {v : View}

theorem decode_avoided_iff : (d.decode v).avoided = true ↔
    d.Holds v "SellToGridLimitState" (Value.IsWhole 0) ∨
      d.Holds v "SellToGridLimitState" (Value.IsWhole 3) ∧
        ¬ d.Holds v "DelayChargeState" (Value.IsWhole 0) ∧
        d.Holds v "SellToGridLimitMinimumChargeLimit" Value.IsPositive := by
  unfold decode
  rw [avoidsLimit_iff, sell_iff, sell_iff, Ne, delay_iff, number?_isPositive]
  rfl

/-- The state is that of the delayed charge unless the limitation is avoided. -/
theorem decode_state (h : (d.decode v).avoided = false) :
    (d.decode v).state = .ofDelay (d.decode v).delay := by
  unfold decode at h ⊢
  exact if_neg (Bool.eq_false_iff.mp h)

theorem decode_limit : (d.decode v).limit =
    if (d.decode v).avoided then (d.number? v "SellToGridLimitMinimumChargeLimit").map .minimum
    else (d.number? v "DelayChargeMaximumChargeLimit").map .maximum := rfl

theorem decode_limit_none : (d.decode v).limit = none ↔ ∀ x, ¬ d.Holds v
    (if (d.decode v).avoided then "SellToGridLimitMinimumChargeLimit"
      else "DelayChargeMaximumChargeLimit") (Value.IsNumber x) := by
  have hnumber : ∀ channel, d.number? v channel = none ↔
      ∀ x, ¬ d.Holds v channel (Value.IsNumber x) := by
    intro channel
    rw [Option.eq_none_iff_forall_ne_some]
    simp only [Ne, number?_eq_some_iff]
  rw [decode_limit, ← hnumber]
  split <;> exact Option.map_eq_none_iff

/-- A status does not contradict itself or the channels, whatever they hold. -/
theorem decode_coherent (d : Decoder) (v : View) : d.Coherent v (d.decode v) where
  sell _ := sell_iff
  delay _ := delay_iff
  avoided := decode_avoided_iff
  shown := by
    cases h : (d.decode v).avoided with
    | true => exact iff_of_true (if_pos h) rfl
    | false =>
      rw [decode_state h]
      exact iff_of_false (State.ofDelay_ne _) Bool.false_ne_true
  mapped h code state hm hholds := by
    obtain ⟨delay, rfl, rfl⟩ := mem_shownStates hm
    rw [decode_state h]
    have hdelay : (d.decode v).delay = some delay := delay_iff.mpr hholds
    rw [hdelay]
  unmapped h hout := by
    have hnone : (d.decode v).delay = none := by
      rw [Option.eq_none_iff_forall_ne_some]
      intro delay hdelay
      refine hout delay.code (delay_iff.mp hdelay) ?_
      cases delay <;> decide
    rw [decode_state h, hnone]
    rfl
  decoded := rfl
  number _ _ := number?_eq_some_iff
  minimum h := by rw [decode_limit, if_pos h]
  maximum h := by rw [decode_limit, if_neg (Bool.eq_false_iff.mp h)]
  unlimited := decode_limit_none

end Decoder

end Charge

end ChannelFeed
