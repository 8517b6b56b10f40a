import ChannelFeed.Charge.Decoder
import ChannelFeed.Proofs.Wire.Integers

namespace ChannelFeed

namespace Value

/-- An integer as the double that it is, if all integers of its magnitude are doubles. -/
def floated : Value → Value
  | integer n => if n.natAbs ≤ 2 ^ 53 then float (.ofInt n) else integer n
  | v => v

variable (v : Value)

theorem floated_asInteger? : v.floated.asInteger? = v.asInteger? := by
  cases v with
  | integer n =>
    rw [floated]
    split
    · rename_i hn
      obtain ⟨hmin, hmax⟩ := limits_eq
      have hwithin : minInteger ≤ n ∧ n ≤ maxInteger := by omega
      exact asInteger?_float_iff.mpr (.inl ⟨Binary64.toRat?_ofInt hn, hwithin⟩)
    · rfl
  | _ => rfl

theorem floated_asFloat? : v.floated.asFloat? = v.asFloat? := by
  cases v with
  | integer n =>
    rw [floated]
    split <;> rfl
  | _ => rfl

theorem floated_asText? : v.floated.asText? = v.asText? := by
  cases v with
  | integer n =>
    rw [floated]
    split <;> rfl
  | _ => rfl

/-- As doubles zero and one are no truth values any more. -/
theorem floated_asBool? :
    v.floated.asBool? = if v = integer 0 ∨ v = integer 1 then none else v.asBool? := by
  cases v with
  | integer n =>
    by_cases hn : n = 0 ∨ n = 1
    · rcases hn with rfl | rfl <;> rfl
    · rw [not_or] at hn
      rw [floated]
      split <;> simp [hn, asBool?]
  | _ => simp [floated]

end Value

namespace Generation

def floatedOn (g : Generation) (chosen : Address → Bool) : Generation :=
  { g with values := g.values.mapValues (fun a v => if chosen a then v.floated else v) }

variable (g : Generation) (chosen : Address → Bool) (a : Address)

theorem floatedOn_get? : (g.floatedOn chosen).get? a =
    (g.get? a).map (fun v => if chosen a then v.floated else v) :=
  SortedMap.get?_mapValues _ _ _

/-- What is read the same of a double is read the same of a channel. -/
theorem floatedOn_bind {α : Type} {read : Value → Option α} (h : ∀ v, read v.floated = read v) :
    ((g.floatedOn chosen).get? a).bind read = (g.get? a).bind read := by
  rw [floatedOn_get?]
  cases g.get? a with
  | none => rfl
  | some v =>
    cases chosen a with
    | false => rfl
    | true => exact h v

theorem floatedOn_asBool? : ((g.floatedOn chosen).get? a).bind Value.asBool? =
    if chosen a ∧ (g.get? a = some (.integer 0) ∨ g.get? a = some (.integer 1)) then none
    else (g.get? a).bind Value.asBool? := by
  rw [floatedOn_get?]
  cases g.get? a with
  | none => simp
  | some v => cases chosen a <;> simp [Value.floated_asBool?]

end Generation

namespace Charge.Decoder

def switch (d : Decoder) : Address := ⟨d.component, "_PropertySellToGridLimitEnabled"⟩

theorem capacity_floated (g : Generation) (scope : Scope) (chosen : Address → Bool) (key : String) :
    ((View.mk (g.floatedOn chosen) scope).allComponents? key).bind Value.asFloat? =
      ((View.mk g scope).allComponents? key).bind Value.asFloat? := by
  unfold View.allComponents?
  cases Address.ofText? key with
  | none => rfl
  | some a => exact g.floatedOn_bind chosen a Value.floated_asFloat?

/-- Whether the switch of the sell limit is among the chosen channels and is a truth value as an
integer. -/
def LosesSwitch (d : Decoder) (g : Generation) (chosen : Address → Bool) : Prop :=
  chosen d.switch ∧ (g.get? d.switch = some (.integer 0) ∨ g.get? d.switch = some (.integer 1))

section

variable {d : Decoder} {g : Generation} {chosen : Address → Bool}

theorem switch_eq (scope : Scope) :
    (d.decode ⟨g, scope⟩).sellLimitEnabled = (g.get? d.switch).bind Value.asBool? := rfl

theorem LosesSwitch.counted (h : d.LosesSwitch g chosen) (scope : Scope) :
    (d.decode ⟨g, scope⟩).sellLimitEnabled ≠ none := by
  rw [switch_eq]
  obtain ⟨_, hzero | hone⟩ := h
  · simp [hzero, Value.asBool?]
  · simp [hone, Value.asBool?]

theorem LosesSwitch.lost (h : d.LosesSwitch g chosen) :
    ((g.floatedOn chosen).get? d.switch).bind Value.asBool? = none :=
  (g.floatedOn_asBool? chosen d.switch).trans (if_pos h)

theorem switch_kept (h : ¬ d.LosesSwitch g chosen) :
    ((g.floatedOn chosen).get? d.switch).bind Value.asBool? =
      (g.get? d.switch).bind Value.asBool? :=
  (g.floatedOn_asBool? chosen d.switch).trans (if_neg h)

end

/-- The fields other than the switch are the same. -/
theorem decode_floated_rest (d : Decoder) (g : Generation) (scope : Scope) (chosen : Address → Bool) :
    d.decode ⟨g.floatedOn chosen, scope⟩ =
      { d.decode ⟨g, scope⟩ with
        sellLimitEnabled := ((g.floatedOn chosen).get? d.switch).bind Value.asBool? } := by
  have hread : ∀ {α : Type} {read : Value → Option α} (channel : String),
      (∀ v, read v.floated = read v) →
        (d.channel? ⟨g.floatedOn chosen, scope⟩ channel).bind read =
          (d.channel? ⟨g, scope⟩ channel).bind read :=
    fun channel h => g.floatedOn_bind chosen ⟨d.component, channel⟩ h
  simp only [decode, number?, SellLimit.ofValue?, Delay.ofValue?, Mode.ofValue,
    hread _ Value.floated_asInteger?, hread _ Value.floated_asFloat?, hread _ Value.floated_asText?,
    capacity_floated]
  rfl

/-- With any of the integers of a generation as doubles a status is the same, unless that takes the
switch of the sell limit away. -/
theorem decode_floated (d : Decoder) (g : Generation) (scope : Scope) (chosen : Address → Bool) :
    (∀ a n, g.get? a = some (.integer n) → n.natAbs ≤ 2 ^ 53 → chosen a →
      ∃ x, (g.floatedOn chosen).get? a = some (.float x) ∧ x.toRat? = some (n : ℚ)) ∧
    (d.decode ⟨g.floatedOn chosen, scope⟩ = d.decode ⟨g, scope⟩ ↔ ¬ d.LosesSwitch g chosen) ∧
    (d.LosesSwitch g chosen → (d.decode ⟨g, scope⟩).sellLimitEnabled ≠ none ∧
      d.decode ⟨g.floatedOn chosen, scope⟩ =
        { d.decode ⟨g, scope⟩ with sellLimitEnabled := none }) := by
  have hrest := d.decode_floated_rest g scope chosen
  refine ⟨?_, ⟨?_, ?_⟩, ?_⟩
  · intro a n ha hn hc
    refine ⟨.ofInt n, ?_, Binary64.toRat?_ofInt hn⟩
    rw [g.floatedOn_get?, ha, Option.map_some, if_pos hc, Value.floated, if_pos hn]
  · intro hsame h
    apply h.counted scope
    rw [← hsame, hrest]
    exact h.lost
  · intro h
    rw [hrest, switch_kept h]
    rfl
  · intro h
    rw [h.lost] at hrest
    exact ⟨h.counted scope, hrest⟩

-- The switch is on as the integer one, and unknown as the double.
example : (decode ⟨"c", none⟩ ⟨Generation.empty.next ⟨0, .ofList
      [(switch ⟨"c", none⟩, some (.integer 1))]⟩, .all⟩).sellLimitEnabled = some true ∧
    (decode ⟨"c", none⟩ ⟨(Generation.empty.next ⟨0, .ofList
      [(switch ⟨"c", none⟩, some (.integer 1))]⟩).floatedOn (fun _ => true), .all⟩).sellLimitEnabled =
        none := by decide +kernel

end Charge.Decoder

end ChannelFeed
