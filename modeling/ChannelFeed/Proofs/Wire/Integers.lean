import ChannelFeed.Proofs.Json.Whole
import ChannelFeed.Proofs.Wire.Entries
import ChannelFeed.Proofs.Wire.Scalar

namespace ChannelFeed

namespace Value

theorem limits_eq : minInteger = -2 ^ 63 ∧ maxInteger = 2 ^ 63 - 1 := ⟨rfl, rfl⟩

/-- A double is read as the integer that it is, and 2^63 as the greatest one. -/
theorem asInteger?_float_iff {x : Binary64} {m : Int} : (float x).asInteger? = some m ↔
    x.toRat? = some (m : ℚ) ∧ minInteger ≤ m ∧ m ≤ maxInteger ∨
      x.toRat? = some ((maxInteger + 1 : Int) : ℚ) ∧ m = maxInteger := by
  obtain ⟨hmin, hmax⟩ := limits_eq
  simp only [← Binary64.toInt?_eq_some_iff]
  cases hx : x.toInt? with
  | none => simp [asInteger?, hx]
  | some n =>
    simp only [asInteger?, hx, Option.ite_none_right_eq_some, Option.some.injEq]
    omega

theorem asInteger?_float_none {x : Binary64}
    (h : ∀ r, x.toRat? = some r → 2 ^ 63 < |r|) : (float x).asInteger? = none := by
  rw [Option.eq_none_iff_forall_ne_some]
  intro m hm
  rcases asInteger?_float_iff.mp hm with ⟨hx, hlow, hhigh⟩ | ⟨hx, _⟩
  · have hbeyond := h _ hx
    rw [← Int.cast_abs] at hbeyond
    have hbeyond' : 2 ^ 63 < |m| := by exact_mod_cast hbeyond
    obtain ⟨hmin, hmax⟩ := limits_eq
    have habs : |m| ≤ 2 ^ 63 := abs_le.mpr ⟨by omega, by omega⟩
    omega
  · have hbeyond := h _ hx
    have hmax : maxInteger + 1 = 2 ^ 63 := rfl
    rw [hmax] at hbeyond
    norm_num at hbeyond

/-- A word is an integer once it is rounded if it is rounded to 2^63. -/
theorem asInteger?_word {negative : Bool} {n : Nat} (h : IsWord n) {x : Binary64}
    (hx : x.toRat? = (Binary64.ofRatio negative n 1).toRat?) : (float x).asInteger? =
      if n ≤ 2 ^ 63 + 1024 then some (if negative then minInteger else maxInteger) else none := by
  have hmag : Binary64.magnitude (roundDiv n 2048) 11 = ((2048 * roundDiv n 2048 : Int) : ℚ) := by
    rw [Binary64.magnitude]
    push_cast
    ring
  have hword : x.toRat? = some
      (((if negative then -(2048 * roundDiv n 2048 : Int) else 2048 * roundDiv n 2048 : Int)) : ℚ) := by
    rw [hx, Binary64.ofRatio_word negative h, hmag]
    cases negative <;> simp
  have hnear := roundDiv_word_eq_iff h
  have hlow := le_roundDiv_word h
  simp only [asInteger?, Binary64.toInt?_eq_some_iff.mpr hword]
  by_cases hn : n ≤ 2 ^ 63 + 1024
  · rw [if_pos hn, hnear.mpr hn]
    cases negative <;> rfl
  · rw [if_neg hn, if_neg]
    split <;> omega

/-- How an integer is read from the value that came of it. -/
structure ReadsInteger (i : Int) (v : Value) : Prop where
  within : minInteger ≤ i → i ≤ maxInteger → v.asInteger? = some i
  /-- Above the limits it is no integer, unless it is rounded to 2^63. -/
  above : maxInteger < i → v.asInteger? = if i ≤ maxInteger + 1025 then some maxInteger else none
  /-- Nor is it below them, unless it is rounded to -2^63. -/
  below : i < minInteger → v.asInteger? = if minInteger - 1024 ≤ i then some minInteger else none

namespace ReadsInteger

variable {i : Int} {v : Value} {n : Nat}

theorem of_within (hlow : minInteger ≤ i) (hhigh : i ≤ maxInteger) (h : v.asInteger? = some i) :
    ReadsInteger i v :=
  ⟨fun _ _ => h, fun habove => by omega, fun hbelow => by omega⟩

theorem of_beyond (hbeyond : 2 ^ 63 + 1024 < i.natAbs) (h : v.asInteger? = none) :
    ReadsInteger i v := by
  obtain ⟨hmin, hmax⟩ := limits_eq
  refine ⟨fun _ _ => by omega, fun _ => ?_, fun _ => ?_⟩
  · rw [h, if_neg (by omega)]
  · rw [h, if_neg (by omega)]

theorem of_word (hn : IsWord n)
    (h : v.asInteger? = if n ≤ 2 ^ 63 + 1024 then some maxInteger else none) :
    ReadsInteger n v := by
  obtain ⟨hlow, _⟩ := hn
  obtain ⟨hmin, hmax⟩ := limits_eq
  have hsame : n ≤ 2 ^ 63 + 1024 ↔ (n : Int) ≤ maxInteger + 1025 := by omega
  simp only [hsame] at h
  exact ⟨fun _ _ => by omega, fun _ => h, fun _ => by omega⟩

theorem of_negative_word (hn : 2 ^ 63 < n)
    (h : v.asInteger? = if n ≤ 2 ^ 63 + 1024 then some minInteger else none) :
    ReadsInteger (-n) v := by
  obtain ⟨hmin, hmax⟩ := limits_eq
  have hsame : n ≤ 2 ^ 63 + 1024 ↔ minInteger - 1024 ≤ -(n : Int) := by omega
  simp only [hsame] at h
  exact ⟨fun _ _ => by omega, fun _ => by omega, fun _ => h⟩

end ReadsInteger

theorem ofNumber_whole {i : Int} (hlow : minInteger ≤ i) (hhigh : i < 2 ^ 64) :
    ReadsInteger i (ofNumber (.whole i)) := by
  obtain ⟨hmin, hmax⟩ := limits_eq
  rw [ofNumber]
  by_cases hfits : i ≤ maxInteger
  · rw [if_pos ((inIntegers_iff i).mpr ⟨hlow, hfits⟩)]
    exact .of_within hlow hfits rfl
  · obtain ⟨n, rfl⟩ := Int.eq_ofNat_of_zero_le (by omega : 0 ≤ i)
    have hword : IsWord n := ⟨by omega, by omega⟩
    have hround : (Binary64.ofInt n).toRat? = (Binary64.ofRatio false n 1).toRat? := rfl
    rw [inIntegers_beyond (by omega)]
    exact .of_word hword (asInteger?_word hword hround)

/-- A whole number of which a double was made, because it is minus zero or too far from zero. -/
theorem toReal?_integer {n : Json.Numeral} {x : Binary64} (hwhole : n.isWhole = true) (hd : n.Decimal)
    (h : n.toReal? = some x) (hout : Json.valueOf n.whole = 0 ∨ 2 ^ 63 < Json.valueOf n.whole) :
    ReadsInteger n.integer (float x) := by
  obtain ⟨hmin, hmax⟩ := limits_eq
  have hinteger : n.integer = if n.negative then -(Json.valueOf n.whole : Int)
      else Json.valueOf n.whole := rfl
  have hlimit : Json.Numeral.wordLimit = 2 ^ 64 := rfl
  rcases hout with hzero | hfar
  · obtain ⟨y, hy, hvalue⟩ := Json.Numeral.toReal?_zero hwhole hzero
    obtain rfl : x = y := Option.some.inj (h.symm.trans hy)
    have hnone : n.integer = 0 := by simp [hinteger, hzero]
    rw [hnone]
    exact .of_within (by omega) (by omega) (asInteger?_float_iff.mpr (.inl ⟨hvalue, by omega⟩))
  · by_cases hlong : Json.Numeral.wordLimit ≤ Json.valueOf n.whole
    · refine .of_beyond (by rw [hinteger]; split <;> omega) ?_
      exact asInteger?_float_none (fun r => Json.Numeral.toReal?_long hwhole hd hlong h)
    · have hword : IsWord (Json.valueOf n.whole) := ⟨by omega, by omega⟩
      obtain ⟨y, hy, hvalue⟩ := Json.Numeral.toReal?_word hwhole hword
      obtain rfl : x = y := Option.some.inj (h.symm.trans hy)
      have hread := asInteger?_word hword hvalue
      rw [hinteger]
      cases hnegative : n.negative with
      | false =>
        rw [hnegative] at hread
        exact .of_word hword hread
      | true =>
        rw [hnegative] at hread
        exact .of_negative_word hfar hread

/-- A number that is written whole is read as the integer that it is, the limits apart. -/
theorem ofNumber_integer {n : Json.Numeral} {number : Json.Number} (hwhole : n.isWhole = true)
    (hd : n.Decimal) (h : n.value? = some number) : ReadsInteger n.integer (ofNumber number) := by
  rcases Json.Numeral.value?_cases hwhole with ⟨hkept, hlow, hhigh⟩ | ⟨hreal, hout⟩
  · obtain rfl : number = .whole n.integer := Option.some.inj (h.symm.trans hkept)
    exact ofNumber_whole hlow hhigh
  · obtain ⟨x, hx, rfl⟩ := Option.map_eq_some_iff.mp (hreal.symm.trans h)
    exact toReal?_integer hwhole hd hx hout

end Value

namespace Json

theorem field?_object_read {depth : Nat} {members : List (List Piece × Tree)} {json : Json}
    (h : ofTree? (depth + 1) (.object members) = some json) {name : String} {place : Nat}
    {tree : Tree} (hfield : (Tree.object members).field? name place = some tree) :
    ∃ value, ofTree? depth tree = some value := by
  obtain ⟨written, _, hwritten⟩ := ofTree?_object h
  obtain ⟨m, hm, rfl⟩ := Option.map_eq_some_iff.mp hfield
  have hlast := congrArg List.getLast? (mapM_filter hwritten name)
  rw [List.getLast?_map, List.getLast?_map, hm] at hlast
  obtain ⟨e, _, hread⟩ := Option.map_eq_some_iff.mp hlast.symm
  exact ⟨_, hread.symm⟩

theorem Tree.Decimal.field {tree inner : Tree} (h : tree.Decimal) {name : String} {place : Nat}
    (hfield : tree.field? name place = some inner) : inner.Decimal := by
  cases h with
  | array hitems => exact hitems inner (List.mem_of_getElem? hfield)
  | object hmembers =>
    obtain ⟨m, hm, rfl⟩ := Option.map_eq_some_iff.mp hfield
    exact hmembers m (List.mem_filter.mp (List.mem_of_getLast? hm)).1
  | null | bool | number | text => cases hfield

end Json

namespace Message

/-- How integers are read from a frame that reports values. -/
structure IntegersRead (text : String) (s : Snapshot) : Prop where
  /-- Every integer is written as some number, however many digits that takes. -/
  spelled : ∀ i : Int, ∃ n : Json.Numeral, n.isWhole = true ∧ n.integer = i ∧
    Json.Lexes (toString i).toList [.number n]
  /-- No frame is refused because of one that fits 64 bits. -/
  valued : ∀ n : Json.Numeral, n.isWhole = true → n.integer.natAbs < 2 ^ 64 →
    ∃ number, n.value? = some number
  /-- Where one is reported for a channel, the channel has a value that is read as it. -/
  literal : ∀ frame params data key n a, Json.Tree.ofText? text = some frame →
    frame.field? "params" 2 = some params → params.field? "currentData" 1 = some data →
    data.field? key 0 = some (.number n) → n.isWhole = true → Address.ofText? key = some a →
    ∃ v, s.values.get? a = some (some v) ∧ Value.ReadsInteger n.integer v
  /-- A double is no other integer than itself, unless it is 2^63. -/
  double : ∀ (x : Binary64) (m : Int), (Value.float x).asInteger? = some m ↔
    x.toRat? = some (m : ℚ) ∧ Value.minInteger ≤ m ∧ m ≤ Value.maxInteger ∨
      x.toRat? = some ((Value.maxInteger + 1 : Int) : ℚ) ∧ m = Value.maxInteger

variable {text : String} {s : Snapshot}

theorem report_literal (h : (read text).message = .ok (.report s)) {frame params data : Json.Tree}
    {key : String} {n : Json.Numeral} {a : Address} (hframe : Json.Tree.ofText? text = some frame)
    (hparams : frame.field? "params" 2 = some params)
    (hdata : params.field? "currentData" 1 = some data) (hkey : data.field? key 0 = some (.number n))
    (hwhole : n.isWhole = true) (ha : Address.ofText? key = some a) :
    ∃ v, s.values.get? a = some (some v) ∧ Value.ReadsInteger n.integer v := by
  obtain ⟨e, he, hsnapshot⟩ := read_eq_ok.mp h
  obtain ⟨json, p, _, hjson, hp, rfl⟩ := ofEnvelope_snapshot.mp hsnapshot
  obtain ⟨frame', params', members, hframe', hparams', _, hdata', hobject⟩ :=
    params_written he hjson hp
  obtain rfl : frame' = frame := Option.some.inj (hframe'.symm.trans hframe)
  obtain rfl : params' = params := Option.some.inj (hparams'.symm.trans hparams)
  obtain rfl : .object members = data := Option.some.inj (hdata'.symm.trans hdata)
  obtain ⟨value, hvalue⟩ := Json.field?_object_read hobject hkey
  have hentry := ((Json.ofTree?_entries hobject).2 key value).mpr ⟨_, hkey, hvalue⟩
  obtain ⟨number, hnumber, rfl⟩ := Option.map_eq_some_iff.mp
    (show n.value?.map Json.number = some value from hvalue)
  have hdecimal : Json.Tree.Decimal (.number n) :=
    (((Json.Tree.ofText?_decimal hframe).field hparams).field hdata).field hkey
  cases hdecimal with
  | number hdigits =>
    refine ⟨Value.ofNumber number, ?_, Value.ofNumber_integer hwhole hdigits hnumber⟩
    obtain ⟨rfl, _⟩ := Address.ofText?_iff_readable.mp ha
    refine (reportedValues_get?_iff (params_distinct he hjson hp)).mpr ⟨_, hentry, ?_⟩
    exact understood?_eq_some_iff.mpr ⟨ha, rfl⟩

/-- Integers that a frame reports are read as what they are, but for those next to the limits. -/
theorem report_integers (h : (read text).message = .ok (.report s)) : IntegersRead text s where
  spelled i := by
    obtain ⟨digits, hdigits, hlexes⟩ := Json.lexes_whole i
    refine ⟨_, rfl, ?_, hlexes⟩
    rw [Json.Numeral.integer, hdigits]
    by_cases hi : i < 0
    · rw [if_pos (decide_eq_true hi)]
      omega
    · rw [if_neg (by simpa using hi)]
      omega
  valued n hwhole hfits := by
    refine Json.Numeral.value?_fits hwhole ?_
    rw [Json.Numeral.integer] at hfits
    have hlimit : Json.Numeral.wordLimit = 2 ^ 64 := rfl
    split at hfits <;> omega
  literal _ _ _ _ _ _ hframe hparams hdata hkey hwhole ha :=
    report_literal h hframe hparams hdata hkey hwhole ha
  double _ _ := Value.asInteger?_float_iff

def limitsReport : String :=
  "\x7b\"method\":\"currentData\",\"params\":\x7b\"sequence\":1,\"currentData\":\x7b" ++
    "\"a/below\":-9223372036854775809,\"a/least\":-9223372036854775808,\"a/greatest\":9223372036854775807," ++
    "\"a/above\":9223372036854775808,\"a/far\":9223372036854776833\x7d\x7d\x7d"

theorem limitsReport_integers : ∃ s, (read limitsReport).message = .ok (.report s) ∧
    IntegersRead limitsReport s ∧
    s.values.entries.map (fun e => (e.1.channel, e.2.bind Value.asInteger?)) =
      [("above", some 9223372036854775807), ("below", some (-9223372036854775808)), ("far", none),
        ("greatest", some 9223372036854775807), ("least", some (-9223372036854775808))] := by
  have hread : (read limitsReport).message = .ok (.report ⟨1, .ofList
      [(⟨"a", "below"⟩, some (.float (.finite true 4503599627370496 11))),
        (⟨"a", "least"⟩, some (.integer (-9223372036854775808))),
        (⟨"a", "greatest"⟩, some (.integer 9223372036854775807)),
        (⟨"a", "above"⟩, some (.float (.ofInt 9223372036854775808))),
        (⟨"a", "far"⟩, some (.float (.ofInt 9223372036854776833)))]⟩) := by decide +kernel
  refine ⟨_, hread, report_integers hread, ?_⟩
  decide +kernel

end Message

end ChannelFeed
