import ChannelFeed.Proofs.Json.Lexeme
import ChannelFeed.Value

namespace ChannelFeed

namespace Json

/-- Reads a value that may be missing, for which null stands. -/
def nullable? {α : Type} (read : Json → Option α) : Json → Option (Option α)
  | .null => some none
  | json => (read json).map some

/-- What is written with a fraction or a power stands for a double. -/
theorem Numeral.value?_real {n : Numeral} {number : Number} (written : n.isWhole = false)
    (h : n.value? = some number) : ∃ x, number = .real x := by
  simp only [Numeral.value?, written, Bool.false_and, Bool.false_eq_true, if_false,
    Option.map_eq_some_iff] at h
  obtain ⟨x, _, rfl⟩ := h
  exact ⟨x, rfl⟩

theorem Numeral.value?_minusZero {n : Numeral} {number : Number} (negative : n.negative = true)
    (zero : valueOf n.whole = 0) (h : n.value? = some number) : ∃ x, number = .real x := by
  rw [valueOf] at zero
  simp only [Numeral.value?, negative, zero, Bool.not_true, Bool.and_false, Bool.false_and,
    Nat.lt_irrefl, false_and, decide_false, Bool.false_eq_true, if_false,
    Option.map_eq_some_iff] at h
  obtain ⟨x, _, rfl⟩ := h
  exact ⟨x, rfl⟩

end Json

namespace Value

/-- How a reader of channel values tells integers from doubles. -/
structure SortsNumbers (read : Json → Option (Option Value)) : Prop where
  integer : ∀ n, minInteger ≤ n → n ≤ maxInteger →
    read (.number (.whole n)) = some (some (.integer n))
  /-- A greater number is the double nearest to it. -/
  beyond : ∀ n, maxInteger < n → read (.number (.whole n)) = some (some (.float (.ofInt n)))
  /-- A double is kept as it is, also one that is whole. -/
  real : ∀ x, read (.number (.real x)) = some (some (.float x))
  /-- It is never an integer that was written with a fraction or a power, or as minus zero. -/
  written : ∀ (n : Json.Numeral) number, n.value? = some number →
    n.isWhole = false ∨ n.negative = true ∧ Json.valueOf n.whole = 0 →
    ∀ i, read (.number number) ≠ some (some (.integer i))

theorem inIntegers_iff (n : Int) : inIntegers n = true ↔ minInteger ≤ n ∧ n ≤ maxInteger :=
  decide_eq_true_iff

theorem inIntegers_beyond {n : Int} (h : maxInteger < n) : inIntegers n = false := by
  rw [Bool.eq_false_iff, Ne, inIntegers_iff]
  omega

theorem ofJson?_whole (n : Int) : ofJson? (.number (.whole n)) =
    some (if inIntegers n then integer n else float (.ofInt n)) := by
  cases h : inIntegers n <;> simp [ofJson?, readBool?, readInteger?, readFloat?, h]

/-- What is reported of a channel is what its value reads as, and nothing where it reads as none. -/
theorem reported?_eq_nullable (json : Json) : reported? json = Json.nullable? ofJson? json := by
  cases json with
  | null => rfl
  | bool b => rfl
  | number n =>
    cases n with
    | whole n => simp [reported?, ofNumber, Json.nullable?, ofJson?_whole]
    | real x => rfl
  | text s => rfl
  | array items => rfl
  | object members => rfl

theorem reported?_sorts : SortsNumbers reported? := by
  have hreal : ∀ x, reported? (.number (.real x)) = some (some (float x)) := fun x => rfl
  refine ⟨fun n low high => ?_, fun n h => ?_, hreal, fun n number hn hw i => ?_⟩
  · simp [reported?, ofNumber, (inIntegers_iff n).mpr ⟨low, high⟩]
  · simp [reported?, ofNumber, inIntegers_beyond h]
  · obtain ⟨x, rfl⟩ : ∃ x, number = .real x := by
      rcases hw with hw | ⟨negative, zero⟩
      · exact Json.Numeral.value?_real hw hn
      · exact Json.Numeral.value?_minusZero negative zero hn
    simp [hreal]

/-- Both readers take every JSON value for the same, be it a value, none, or nothing they can read, and
keep integers and doubles apart alike. -/
theorem readers_agree : (∀ json, reported? json = Json.nullable? ofJson? json) ∧
    SortsNumbers reported? ∧ SortsNumbers (Json.nullable? ofJson?) := by
  have hsame : reported? = Json.nullable? ofJson? := funext reported?_eq_nullable
  exact ⟨reported?_eq_nullable, reported?_sorts, hsame ▸ reported?_sorts⟩

/-- The least and the greatest integer, the first number beyond, and minus zero. -/
example : [.whole (-9223372036854775808), .whole 9223372036854775807, .whole 9223372036854775808,
      .real (.neg .zero)].map (fun n => reported? (.number n)) =
    [some (some (.integer (-9223372036854775808))), some (some (.integer 9223372036854775807)),
      some (some (.float (.finite false 4503599627370496 11))),
      some (some (.float (.finite true 0 (-1074))))] := by
  decide +kernel

end Value

end ChannelFeed
