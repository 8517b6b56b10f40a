import ChannelFeed.Proofs.Generation.Touched
import ChannelFeed.Wire.Message
import Mathlib.Data.List.Induction

namespace ChannelFeed

namespace Address

/-- Whether the text of an address reads as the address. -/
def Readable (a : Address) : Prop := ofText? a.text = some a

instance (a : Address) : Decidable a.Readable := inferInstanceAs (Decidable (_ = _))

theorem toList_text (a : Address) :
    a.text.toList = a.component.toList ++ '/' :: a.channel.toList := by
  unfold text
  simp

/-- Which texts read as an address. -/
theorem ofText?_eq_some_iff {s : String} {a : Address} :
    ofText? s = some a ↔
      s = a.text ∧ a.component ≠ "" ∧ '/' ∉ a.component.toList ∧ a.channel ≠ "" := by
  unfold ofText?
  constructor
  · intro h
    split at h
    · rename_i component channel hsplit
      split at h
      · cases h
      · rename_i hparts
        cases h
        obtain ⟨hs, hslash⟩ := splitFirst_eq_some_iff.mp hsplit
        simp only [Bool.or_eq_true, List.isEmpty_iff, not_or] at hparts
        refine ⟨?_, ?_, ?_, ?_⟩
        · apply String.toList_inj.mp
          rw [toList_text, hs, String.toList_ofList, String.toList_ofList]
        · intro he
          exact hparts.1 (by simpa using congrArg String.toList he)
        · rw [String.toList_ofList]
          exact hslash
        · intro he
          exact hparts.2 (by simpa using congrArg String.toList he)
    · cases h
  · intro h
    obtain ⟨rfl, hcomponent, hslash, hchannel⟩ := h
    rw [toList_text, splitFirst_eq_some_iff.mpr ⟨rfl, hslash⟩]
    simp [hcomponent, hchannel]

theorem readable_iff (a : Address) :
    a.Readable ↔ a.component ≠ "" ∧ '/' ∉ a.component.toList ∧ a.channel ≠ "" := by
  unfold Readable
  rw [ofText?_eq_some_iff]
  exact and_iff_right rfl

/-- Nothing but its text reads as an address, and that only if it is readable. -/
theorem ofText?_iff_readable {s : String} {a : Address} :
    ofText? s = some a ↔ s = a.text ∧ a.Readable := by
  rw [ofText?_eq_some_iff, readable_iff]

/-- The text of an address whose component holds no slash reads as that address or as none. -/
theorem ofText?_text {a : Address} (h : '/' ∉ a.component.toList) :
    ofText? a.text = if a.Readable then some a else none := by
  split
  · rename_i hreadable
    exact hreadable
  · rename_i hnot
    rw [readable_iff] at hnot
    unfold ofText?
    rw [toList_text, splitFirst_eq_some_iff.mpr ⟨rfl, h⟩]
    simp_all

/-- Readable addresses are told apart by their texts. -/
theorem Readable.text_injective {a b : Address} (ha : a.Readable) (hb : b.Readable)
    (h : a.text = b.text) : a = b := by
  unfold Readable at ha hb
  rw [h, hb] at ha
  exact (Option.some.inj ha).symm

end Address

namespace Message

/-- What the last entry of a key reports that has a scalar. -/
def lastReport? (entries : List (String × Json)) (key : String) : Option (Option Value) :=
  (entries.filterMap (fun e => if e.1 = key then Value.reported? e.2 else none)).getLast?

theorem lastReport?_append (entries : List (String × Json)) (e : String × Json) (key : String) :
    lastReport? (entries ++ [e]) key =
      (if e.1 = key then Value.reported? e.2 else none).or (lastReport? entries key) := by
  unfold lastReport?
  rw [List.filterMap_append, List.filterMap_cons, List.filterMap_nil]
  cases (if e.1 = key then Value.reported? e.2 else none) with
  | none => simp
  | some value => simp

/-- An entry counts for the address that its key reads as. -/
theorem addEntry_get? (acc : SortedMap Address (Option Value) × List Note) (e : String × Json)
    (a : Address) : (addEntry acc e).1.get? a =
      (if a.Readable ∧ e.1 = a.text then Value.reported? e.2 else none).or (acc.1.get? a) := by
  have hkey : a.Readable ∧ e.1 = a.text ↔ Address.ofText? e.1 = some a := by
    rw [Address.ofText?_iff_readable, and_comm]
  simp only [hkey]
  unfold addEntry
  cases hof : Address.ofText? e.1 with
  | none => simp
  | some b =>
    cases hvalue : Value.reported? e.2 with
    | none => simp
    | some value =>
      rw [SortedMap.get?_insert]
      by_cases hab : a = b
      · simp [hab]
      · simp [hab, Ne.symm hab]

theorem reportedValues_append (entries : List (String × Json)) (e : String × Json) :
    reportedValues (entries ++ [e]) = addEntry (reportedValues entries) e := by
  simp [reportedValues]

theorem reportedValues_get? (entries : List (String × Json)) (a : Address) :
    (reportedValues entries).1.get? a =
      if a.Readable then lastReport? entries a.text else none := by
  induction entries using List.reverseRecOn with
  | nil =>
    split <;> rfl
  | append_singleton entries e ih =>
    rw [reportedValues_append, addEntry_get?, ih, lastReport?_append]
    by_cases ha : a.Readable <;> simp [ha]

/-- The parameters of a frame that reports values: one without an error or a result, whose method says
so. -/
def reportParams? (text : String) : Option ReportParams :=
  match Envelope.ofText? text with
  | some ⟨_, some method, some params, false, none⟩ =>
    if method = reportMethod then ReportParams.ofJson? params else none
  | _ => none

theorem read_eq_report {text : String} {s : Snapshot} :
    (read text).message = .ok (.report s) ↔ ∃ params, reportParams? text = some params ∧
      s = ⟨params.sequence, (reportedValues params.values).1⟩ := by
  unfold read reportParams?
  cases Envelope.ofText? text with
  | none => simp
  | some e =>
    obtain ⟨id, method, params, hasResult, error⟩ := e
    unfold ofEnvelope
    cases error with
    | some rejection => simp
    | none =>
      cases hasResult with
      | true => simp
      | false =>
        cases method with
        | none => simp
        | some method =>
          cases params with
          | none =>
            by_cases hmethod : method = reportMethod <;> simp [hmethod, ofParams]
          | some json =>
            by_cases hmethod : method = reportMethod
            · cases hof : ReportParams.ofJson? json with
              | none => simp [hmethod, ofParams, hof]
              | some params =>
                simp only [hmethod, ofParams, hof, if_true, Bool.false_eq_true, if_false,
                  Except.ok.injEq, Message.report.injEq, Option.some.injEq, exists_eq_left']
                exact eq_comm
            · simp [hmethod]

/-- No frame mentions an address that is not readable. -/
theorem report_readable {text : String} {s : Snapshot} {a : Address}
    (h : (read text).message = .ok (.report s)) (ha : s.reports a = true) : a.Readable := by
  obtain ⟨params, _, rfl⟩ := read_eq_report.mp h
  unfold Snapshot.reports SortedMap.contains at ha
  rw [reportedValues_get?] at ha
  by_cases hreadable : a.Readable
  · exact hreadable
  · rw [if_neg hreadable] at ha
    cases ha

end Message

end ChannelFeed
