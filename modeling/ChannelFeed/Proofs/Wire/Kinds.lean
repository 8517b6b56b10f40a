import ChannelFeed.Proofs.Wire.Fields
import ChannelFeed.Wire.Message

namespace ChannelFeed

/-- Which parameters are those of a report: a number that is not negative and an object, in an array or
under their names. -/
theorem ReportParams.ofJson?_eq_some_iff {json : Json} {p : ReportParams} :
    ofJson? json = some p ↔
      json = .array [.number (.whole p.sequence), .object p.values] ∨
        ∃ members, json = .object members ∧
          lookupKey "sequence" members = some (.number (.whole p.sequence)) ∧
          lookupKey "currentData" members = some (.object p.values) := by
  have hfields : ∀ sequence values, ofFields? sequence values = some p ↔
      sequence = .number (.whole p.sequence) ∧ values = .object p.values := by
    intro sequence values
    obtain ⟨number, entries⟩ := p
    unfold ofFields?
    split
    · rename_i whole entries'
      simp only [Option.ite_none_right_eq_some, Option.some.injEq, ReportParams.mk.injEq,
        Json.number.injEq, Json.Number.whole.injEq, Json.object.injEq]
      grind
    · rename_i hnot
      simp only [reduceCtorEq, false_iff, not_and]
      rintro rfl rfl
      exact hnot _ _ rfl rfl
  unfold ofJson?
  split
  · simp [hfields]
  · simp [Option.bind_eq_some_iff, hfields]
  · rename_i harray hobject
    simp only [reduceCtorEq, false_iff, not_or, not_exists, not_and]
    exact ⟨fun h => harray _ _ h, fun members h => absurd h (hobject members)⟩

/-- Whether a frame is the notification that reports values. -/
def Envelope.IsReport (e : Envelope) : Prop :=
  e.error = none ∧ e.hasResult = false ∧ e.method = some Message.reportMethod

theorem Envelope.ofText?_eq_some {text : String} {e : Envelope} (h : ofText? text = some e) :
    ∃ frame, Json.Tree.ofText? text = some frame ∧ ofTree? frame = some e := by
  simpa only [ofText?, Option.bind_eq_bind, Option.bind_eq_some_iff] using h

theorem Envelope.ofText?_isSome {text : String} : (ofText? text).isSome = true ↔
    ∃ frame, Json.Tree.ofText? text = some frame ∧ Readable frame := by
  unfold ofText?
  cases Json.Tree.ofText? text with
  | none => simp
  | some frame => simp [ofTree?_isSome]

namespace Message

open Envelope (ofText?)

section envelope

variable {e : Envelope}

theorem ofParams_report {params : Option Json} {s : Snapshot} :
    (ofParams params).message = .ok (.report s) ↔
      ∃ json p, params = some json ∧ ReportParams.ofJson? json = some p ∧
        s = ⟨p.sequence, (reportedValues p.values).1⟩ := by
  cases params with
  | none => simp [ofParams]
  | some json =>
    cases hp : ReportParams.ofJson? json with
    | none => simp [ofParams, hp]
    | some p => simp [ofParams, hp, eq_comm]

theorem ofParams_fault {params : Option Json} {cause : ReadFault} :
    (ofParams params).message = .error cause ↔
      (params = none ∧ cause = .format "currentData notification without params") ∨
        ((∃ json, params = some json ∧ ReportParams.ofJson? json = none) ∧ cause = .malformed) := by
  cases params with
  | none => simp [ofParams, eq_comm]
  | some json =>
    cases hp : ReportParams.ofJson? json with
    | none => simp [ofParams, hp, eq_comm]
    | some p => simp [ofParams, hp]

theorem ofParams_other {params : Option Json} {m : Message} (h : ∀ s, m ≠ .report s) :
    (ofParams params).message ≠ .ok m := by
  cases params with
  | none => simp [ofParams]
  | some json =>
    cases hp : ReportParams.ofJson? json with
    | none => simp [ofParams, hp]
    | some p => simpa [ofParams, hp] using (h _).symm

theorem ofEnvelope_report (h : e.IsReport) : ofEnvelope e = ofParams e.params := by
  obtain ⟨herror, hresult, hmethod⟩ := h
  simp [ofEnvelope, herror, hresult, hmethod]

/-- What an envelope means that is no report, by the first of its members that counts. -/
theorem ofEnvelope_other (h : ¬ e.IsReport) : ofEnvelope e =
    match e.error, e.hasResult, e.method with
    | some r, _, _ => ⟨.ok (.failure (idText e.id) r), []⟩
    | none, true, _ => ⟨.ok (.success (idText e.id)), []⟩
    | none, false, some method => ⟨.ok (.unhandled method), []⟩
    | none, false, none => ⟨.error (.format "frame has neither method, result nor error"), []⟩ := by
  unfold Envelope.IsReport at h
  unfold ofEnvelope
  cases herror : e.error with
  | some r => rfl
  | none =>
    cases hresult : e.hasResult with
    | true => rfl
    | false =>
      cases hmethod : e.method with
      | none => rfl
      | some method =>
        have hother : method ≠ reportMethod := by
          rintro rfl
          exact h ⟨herror, hresult, hmethod⟩
        simp [hother]

theorem ofEnvelope_failure {id : Option String} {r : Rejection} :
    (ofEnvelope e).message = .ok (.failure id r) ↔ e.error = some r ∧ id = idText e.id := by
  by_cases h : e.IsReport
  · simp [ofEnvelope_report h, h.1, ofParams_other]
  · rw [ofEnvelope_other h]
    split <;> grind

theorem ofEnvelope_success {id : Option String} :
    (ofEnvelope e).message = .ok (.success id) ↔
      e.error = none ∧ e.hasResult = true ∧ id = idText e.id := by
  by_cases h : e.IsReport
  · simp [ofEnvelope_report h, h.2.1, ofParams_other]
  · rw [ofEnvelope_other h]
    split <;> grind

theorem ofEnvelope_unhandled {method : String} :
    (ofEnvelope e).message = .ok (.unhandled method) ↔
      e.error = none ∧ e.hasResult = false ∧ e.method = some method ∧ method ≠ reportMethod := by
  by_cases h : e.IsReport
  · have hother := @ofParams_other e.params (.unhandled method) (by simp)
    have hmethod := h.2.2
    simp only [ofEnvelope_report h, hother, false_iff]
    rintro ⟨_, _, hm, hne⟩
    exact hne (Option.some.inj (hm.symm.trans hmethod))
  · rw [ofEnvelope_other h]
    unfold Envelope.IsReport at h
    split <;> grind

theorem ofEnvelope_snapshot {s : Snapshot} : (ofEnvelope e).message = .ok (.report s) ↔
    ∃ json p, e.IsReport ∧ e.params = some json ∧ ReportParams.ofJson? json = some p ∧
      s = ⟨p.sequence, (reportedValues p.values).1⟩ := by
  by_cases h : e.IsReport
  · simp [ofEnvelope_report h, h, ofParams_report]
  · rw [ofEnvelope_other h]
    split <;> simp [h]

theorem ofEnvelope_fault {cause : ReadFault} : (ofEnvelope e).message = .error cause ↔
    (e.error = none ∧ e.hasResult = false ∧ e.method = none ∧
        cause = .format "frame has neither method, result nor error") ∨
      (e.IsReport ∧ e.params = none ∧
        cause = .format "currentData notification without params") ∨
      (e.IsReport ∧ (∃ json, e.params = some json ∧ ReportParams.ofJson? json = none) ∧
        cause = .malformed) := by
  by_cases h : e.IsReport
  · simp [ofEnvelope_report h, h, h.2.2, ofParams_fault]
  · rw [ofEnvelope_other h]
    split <;> grind

/-- Nothing but a report is read by its parameters. -/
theorem ofEnvelope_params (params : Option Json) (h : ¬ e.IsReport) :
    ofEnvelope { e with params } = ofEnvelope e := by
  have h' : ¬ Envelope.IsReport { e with params } := h
  rw [ofEnvelope_other h, ofEnvelope_other h']

end envelope

section frame

variable {text text' : String}

theorem read_eq_ok {m : Message} : (read text).message = .ok m ↔
    ∃ e, ofText? text = some e ∧ (ofEnvelope e).message = .ok m := by
  unfold read
  cases ofText? text <;> simp

theorem read_eq_error {cause : ReadFault} : (read text).message = .error cause ↔
    (ofText? text = none ∧ cause = .malformed) ∨
      ∃ e, ofText? text = some e ∧ (ofEnvelope e).message = .error cause := by
  unfold read
  cases ofText? text <;> simp [eq_comm]

theorem read_of_envelope {e : Envelope} (h : ofText? text = some e) : read text = ofEnvelope e := by
  rw [read, h]

theorem read_reordered {members members' : List (List Json.Piece × Json.Tree)}
    {keyed keyed' : List (String × Json.Tree)}
    (h : Json.Tree.ofText? text = some (.object members))
    (h' : Json.Tree.ofText? text' = some (.object members'))
    (hk : Json.keyed? members = some keyed) (hk' : Json.keyed? members' = some keyed')
    (same : (keyed.filter Envelope.isKnown).Perm (keyed'.filter Envelope.isKnown)) :
    read text' = read text := by
  have henvelope : ofText? text' = ofText? text := by
    simp only [ofText?, h, h', Option.bind_eq_bind, Option.bind_some]
    exact (Envelope.ofTree?_perm hk hk' same).symm
  rw [read, read, henvelope]

/-- What a frame is, in terms of its envelope. -/
structure Classified (text : String) : Prop where
  failure : ∀ id r, (read text).message = .ok (.failure id r) ↔
    ∃ e, ofText? text = some e ∧ e.error = some r ∧ id = idText e.id
  success : ∀ id, (read text).message = .ok (.success id) ↔
    ∃ e, ofText? text = some e ∧ e.error = none ∧ e.hasResult = true ∧ id = idText e.id
  unhandled : ∀ method, (read text).message = .ok (.unhandled method) ↔
    ∃ e, ofText? text = some e ∧ e.error = none ∧ e.hasResult = false ∧ e.method = some method ∧
      method ≠ reportMethod
  report : ∀ s, (read text).message = .ok (.report s) ↔
    ∃ e, ofText? text = some e ∧ ∃ json p, e.IsReport ∧ e.params = some json ∧
      ReportParams.ofJson? json = some p ∧ s = ⟨p.sequence, (reportedValues p.values).1⟩
  fault : ∀ cause, (read text).message = .error cause ↔
    (ofText? text = none ∧ cause = .malformed) ∨
      ∃ e, ofText? text = some e ∧
        ((e.error = none ∧ e.hasResult = false ∧ e.method = none ∧
            cause = .format "frame has neither method, result nor error") ∨
          (e.IsReport ∧ e.params = none ∧
            cause = .format "currentData notification without params") ∨
          (e.IsReport ∧ (∃ json, e.params = some json ∧ ReportParams.ofJson? json = none) ∧
            cause = .malformed))
  /-- A text has an envelope exactly if it is JSON that can be read as one. -/
  envelope : (ofText? text).isSome = true ↔
    ∃ frame, Json.Tree.ofText? text = some frame ∧ Envelope.Readable frame
  /-- What the envelope has, the frame's fields have. -/
  fields : ∀ e, ofText? text = some e →
    ∃ frame, Json.Tree.ofText? text = some frame ∧ e.Matches frame
  /-- The parameters of a report are a number that is not negative and an object. -/
  reportParams : ∀ json p, ReportParams.ofJson? json = some p ↔
    json = .array [.number (.whole p.sequence), .object p.values] ∨
      ∃ members, json = .object members ∧
        lookupKey "sequence" members = some (.number (.whole p.sequence)) ∧
        lookupKey "currentData" members = some (.object p.values)
  /-- An object with the same members in another order, or with others that a frame does not have, is
  read alike. -/
  reordered : ∀ text' members members' keyed keyed',
    Json.Tree.ofText? text = some (.object members) →
    Json.Tree.ofText? text' = some (.object members') →
    Json.keyed? members = some keyed → Json.keyed? members' = some keyed' →
    (keyed.filter Envelope.isKnown).Perm (keyed'.filter Envelope.isKnown) → read text' = read text
  /-- No frame but a report is read otherwise because of its parameters. -/
  params : ∀ e text' params, ofText? text = some e → ¬ e.IsReport →
    ofText? text' = some { e with params } → read text' = read text

/-- Every frame is of the kind that its envelope makes it, and a fault if it is of none. -/
theorem classified (text : String) : Classified text where
  failure _ _ := by simp only [read_eq_ok, ofEnvelope_failure]
  success _ := by simp only [read_eq_ok, ofEnvelope_success]
  unhandled _ := by simp only [read_eq_ok, ofEnvelope_unhandled]
  report _ := by simp only [read_eq_ok, ofEnvelope_snapshot]
  fault _ := by simp only [read_eq_error, ofEnvelope_fault]
  envelope := Envelope.ofText?_isSome
  fields e he := by
    obtain ⟨frame, hframe, hof⟩ := Envelope.ofText?_eq_some he
    exact ⟨frame, hframe, Envelope.ofTree?_matches hof⟩
  reportParams _ _ := ReportParams.ofJson?_eq_some_iff
  reordered _ _ _ _ _ h h' hk hk' same := read_reordered h h' hk hk' same
  params e text' params he hreport he' := by
    rw [read_of_envelope he, read_of_envelope he', ofEnvelope_params params hreport]

/-- A null is a result and no error, an error outweighs a result and a method, and what is not read is a
fault. -/
theorem null_result_classified :
    (read "[7,\"currentData\",null,null,null]").message = .ok (.success (some "7")) ∧
      (read "[true,\"currentData\",null,1,[-1,\"no\"]]").message =
        .ok (.failure (some "true") ⟨-1, "no"⟩) ∧
      (read "[7,0]").message = .error .malformed := by
  refine ⟨?_, ?_, ?_⟩
  · have hfields : (ofText? "[7,\"currentData\",null,null,null]").map
        (fun e => (e.error, e.hasResult, idText e.id)) = some (none, true, some "7") := by
      decide +kernel
    obtain ⟨e, he, hfields⟩ := Option.map_eq_some_iff.mp hfields
    simp only [Prod.mk.injEq] at hfields
    obtain ⟨herror, hresult, hid⟩ := hfields
    exact ((classified _).success _).mpr ⟨e, he, herror, hresult, hid.symm⟩
  · have hfields : (ofText? "[true,\"currentData\",null,1,[-1,\"no\"]]").map
        (fun e => (e.error, idText e.id)) = some (some ⟨-1, "no"⟩, some "true") := by
      decide +kernel
    obtain ⟨e, he, hfields⟩ := Option.map_eq_some_iff.mp hfields
    simp only [Prod.mk.injEq] at hfields
    obtain ⟨herror, hid⟩ := hfields
    exact ((classified _).failure _ _).mpr ⟨e, he, herror, hid.symm⟩
  · have hnone : ofText? "[7,0]" = none := by
      rw [← Option.isNone_iff_eq_none]
      decide +kernel
    exact ((classified _).fault _).mpr (.inl ⟨hnone, rfl⟩)

end frame

end Message

end ChannelFeed
