import ChannelFeed.Proofs.Wire.Kinds
import ChannelFeed.Proofs.Wire.Reported

namespace ChannelFeed

namespace Json

def isScalar : Json → Bool
  | .array _ | .object _ => false
  | _ => true

def withEntries (entries : List (String × Json)) : Json → Json
  | .array [sequence, _] => .array [sequence, .object entries]
  | .object members => .object (insertKey "currentData" (.object entries) members)
  | json => json

theorem isScalar_eq (json : Json) : json.isScalar = (Value.reported? json).isSome := by
  cases json <;> rfl

theorem ofTree?_eq_object {depth : Nat} {tree : Tree} {entries : List (String × Json)}
    (h : ofTree? (depth + 1) tree = some (.object entries)) : ∃ members, tree = .object members := by
  cases tree with
  | object members => exact ⟨members, rfl⟩
  | null | bool => cases h
  | number n =>
    rw [ofTree?] at h
    obtain ⟨_, _, hjson⟩ := Option.map_eq_some_iff.mp h
    cases hjson
  | text pieces =>
    rw [ofTree?] at h
    obtain ⟨_, _, hjson⟩ := Option.map_eq_some_iff.mp h
    cases hjson
  | array items =>
    rw [ofTree?] at h
    obtain ⟨_, _, hjson⟩ := Option.map_eq_some_iff.mp h
    cases hjson

/-- Of an object that was read, no key comes twice, and every entry is the last member of its key. -/
theorem ofTree?_entries {depth : Nat} {members : List (List Piece × Tree)}
    {entries : List (String × Json)}
    (h : ofTree? (depth + 1) (.object members) = some (.object entries)) :
    (entries.map Prod.fst).Nodup ∧ ∀ key json, (key, json) ∈ entries ↔
      ∃ tree, (Tree.object members).field? key 0 = some tree ∧ ofTree? depth tree = some json := by
  obtain ⟨written, hjson, _⟩ := ofTree?_object h
  cases hjson
  refine ⟨SortedMap.keys_nodup _, fun key json => ?_⟩
  have hfield := field?_read h key 0
  rw [← SortedMap.get?_eq_some_iff]
  show field? key 0 (.object (SortedMap.ofList written).entries) = some json ↔ _
  rw [hfield, Option.bind_eq_some_iff]

end Json

theorem ReportParams.ofJson?_fields {json : Json} {p : ReportParams} (h : ofJson? json = some p) :
    json.field? "sequence" 0 = some (.number (.whole p.sequence)) ∧
      json.field? "currentData" 1 = some (.object p.values) := by
  rcases ofJson?_eq_some_iff.mp h with rfl | ⟨members, rfl, hsequence, hvalues⟩
  · exact ⟨rfl, rfl⟩
  · exact ⟨hsequence, hvalues⟩

theorem ReportParams.ofJson?_withEntries {json : Json} {p : ReportParams}
    (h : ofJson? json = some p) (entries : List (String × Json)) :
    ofJson? (json.withEntries entries) = some ⟨p.sequence, entries⟩ := by
  rw [ofJson?_eq_some_iff] at h ⊢
  rcases h with rfl | ⟨members, rfl, hsequence, _⟩
  · exact .inl rfl
  · refine .inr ⟨_, rfl, ?_, ?_⟩
    · rw [lookupKey_insertKey, if_neg (by decide), hsequence]
    · rw [lookupKey_insertKey, if_pos (by decide)]

namespace Message

open Envelope (ofText?)

/-- What an entry of a report says, if its key is an address and it holds a scalar. -/
def understood? (entry : String × Json) : Option (Address × Option Value) :=
  (Address.ofText? entry.1).bind (fun a => (Value.reported? entry.2).map (fun value => (a, value)))

def isGood (entry : String × Json) : Bool :=
  (Address.ofText? entry.1).isSome && entry.2.isScalar

theorem understood?_isSome (entry : String × Json) : (understood? entry).isSome = isGood entry := by
  rw [isGood, Json.isScalar_eq, understood?]
  cases Address.ofText? entry.1 <;> simp

theorem understood?_eq_some_iff {entry : String × Json} {a : Address} {value : Option Value} :
    understood? entry = some (a, value) ↔
      Address.ofText? entry.1 = some a ∧ Value.reported? entry.2 = some value := by
  simp [understood?, Option.bind_eq_some_iff]

section entries

variable {entries others : List (String × Json)}

theorem ofText?_apart {key key' : String} {a : Address} (h : Address.ofText? key = some a)
    (h' : Address.ofText? key' = some a) : key = key' :=
  (Address.ofText?_iff_readable.mp h).1.trans (Address.ofText?_iff_readable.mp h').1.symm

theorem understood_nodup (distinct : (entries.map Prod.fst).Nodup) :
    ((entries.filterMap understood?).map Prod.fst).Nodup := by
  refine List.pairwise_map.mpr (List.pairwise_filterMap.mpr ?_)
  refine (List.pairwise_map.mp distinct).imp (fun hne e he e' he' hsame => hne ?_)
  have hkey := (understood?_eq_some_iff.mp he).1
  have hkey' := (understood?_eq_some_iff.mp he').1
  exact ofText?_apart hkey (hsame ▸ hkey')

/-- An address is told what the entry of its text says, if that is understood. -/
theorem reportedValues_get?_iff (distinct : (entries.map Prod.fst).Nodup) {a : Address}
    {value : Option Value} : (reportedValues entries).1.get? a = some value ↔
      ∃ json, (a.text, json) ∈ entries ∧ understood? (a.text, json) = some (a, value) := by
  rw [reportedValues_get?]
  by_cases ha : a.Readable
  · have hunderstood : ∀ json, understood? (a.text, json) = some (a, value) ↔
        Value.reported? json = some value := fun json => by
      rw [understood?_eq_some_iff]
      exact and_iff_right ha
    simp only [if_pos ha, hunderstood, lastReport?_eq_some_iff distinct]
  · simp only [if_neg ha, reduceCtorEq, false_iff, not_exists, not_and]
    exact fun json _ h => ha (understood?_eq_some_iff.mp h).1

/-- The values of a report are what its entries say that are understood. -/
theorem reportedValues_perm (distinct : (entries.map Prod.fst).Nodup) :
    (reportedValues entries).1.entries.Perm (entries.filterMap understood?) := by
  have hnodup : (entries.filterMap understood?).Nodup := (understood_nodup distinct).of_map _
  refine (List.perm_ext_iff_of_nodup (SortedMap.entries_nodup _) hnodup).mpr ?_
  rintro ⟨a, value⟩
  rw [← SortedMap.get?_eq_some_iff, reportedValues_get?_iff distinct, List.mem_filterMap]
  constructor
  · rintro ⟨json, hm, hentry⟩
    exact ⟨_, hm, hentry⟩
  · rintro ⟨⟨key, json⟩, hm, hentry⟩
    obtain ⟨rfl, _⟩ := Address.ofText?_iff_readable.mp (understood?_eq_some_iff.mp hentry).1
    exact ⟨json, hm, hentry⟩

theorem reportedValues_size (distinct : (entries.map Prod.fst).Nodup) :
    (reportedValues entries).1.size = entries.countP isGood := by
  rw [SortedMap.size, (reportedValues_perm distinct).length_eq, List.length_filterMap_eq_countP]
  simp only [understood?_isSome]

/-- What an address is told depends on the good entry of its key alone. -/
theorem reportedValues_others (distinct : (entries.map Prod.fst).Nodup)
    (distinct' : (others.map Prod.fst).Nodup) {a : Address}
    (same : ∀ json, isGood (a.text, json) = true →
      ((a.text, json) ∈ others ↔ (a.text, json) ∈ entries)) :
    (reportedValues others).1.get? a = (reportedValues entries).1.get? a := by
  refine Option.ext (fun value => ?_)
  rw [reportedValues_get?_iff distinct, reportedValues_get?_iff distinct']
  refine exists_congr (fun json => and_congr_left (fun hentry => same json ?_))
  rw [← understood?_isSome, hentry]
  rfl

end entries

/-- What becomes of the entries of a report. -/
structure Sifted (text : String) (e : Envelope) (params : Json) (p : ReportParams)
    (values : SortedMap Address (Option Value)) : Prop where
  read : (read text).message = .ok (.report ⟨p.sequence, values⟩)
  /-- The parameters are those that are written; of entries with one key the last counts. -/
  written : ∃ frame tree members, Json.Tree.ofText? text = some frame ∧
    frame.field? "params" 2 = some tree ∧
    (tree.field? "sequence" 0).bind (Json.ofTree? (Envelope.memberDepth - 1)) =
      some (.number (.whole p.sequence)) ∧
    tree.field? "currentData" 1 = some (.object members) ∧
    ∀ key json, (key, json) ∈ p.values ↔ ∃ tree, (Json.Tree.object members).field? key 0 = some tree ∧
      Json.ofTree? (Envelope.memberDepth - 2) tree = some json
  distinct : (p.values.map Prod.fst).Nodup
  /-- The values are what the entries say whose key is an address and that hold a scalar, each once. -/
  entries : values.entries.Perm (p.values.filterMap understood?)
  good : ∀ entry, (understood? entry).isSome = isGood entry
  apart : ∀ key key' a, Address.ofText? key = some a → Address.ofText? key' = some a → key = key'
  size : values.size = p.values.countP isGood
  /-- In a frame with other entries the sequence is the same, and so is what an address is told whose
  good entry is the same. -/
  others : ∀ text' others, ofText? text' = some { e with params := some (params.withEntries others) } →
    ∃ values', (Message.read text').message = .ok (.report ⟨p.sequence, values'⟩) ∧
      (∀ a, (∀ json, isGood (a.text, json) = true →
        ((a.text, json) ∈ others ↔ (a.text, json) ∈ p.values)) → values'.get? a = values.get? a) ∧
      ((∀ entry, isGood entry = true → (entry ∈ others ↔ entry ∈ p.values)) → values' = values)

section report

variable {text : String} {e : Envelope} {params : Json} {p : ReportParams}

theorem read_report (he : ofText? text = some e) (hreport : e.IsReport)
    (hparams : e.params = some params) (hp : ReportParams.ofJson? params = some p) :
    (read text).message = .ok (.report ⟨p.sequence, (reportedValues p.values).1⟩) :=
  read_eq_ok.mpr ⟨e, he, ofEnvelope_snapshot.mpr ⟨params, p, hreport, hparams, hp, rfl⟩⟩

theorem params_written (he : ofText? text = some e) (hparams : e.params = some params)
    (hp : ReportParams.ofJson? params = some p) :
    ∃ frame tree members, Json.Tree.ofText? text = some frame ∧
      frame.field? "params" 2 = some tree ∧
      (tree.field? "sequence" 0).bind (Json.ofTree? 125) = some (.number (.whole p.sequence)) ∧
      tree.field? "currentData" 1 = some (.object members) ∧
      Json.ofTree? (124 + 1) (.object members) = some (.object p.values) := by
  obtain ⟨frame, hframe, hof⟩ := Envelope.ofText?_eq_some he
  obtain ⟨tree, htree, _, hread⟩ := ((Envelope.ofTree?_matches hof).params params).mp hparams
  obtain ⟨hsequence, hvalues⟩ := ReportParams.ofJson?_fields hp
  have hfields : Json.ofTree? (125 + 1) tree = some params := hread
  rw [Json.field?_read hfields] at hsequence hvalues
  obtain ⟨data, hdata, hobject⟩ := Option.bind_eq_some_iff.mp hvalues
  have hdeep : Json.ofTree? (124 + 1) data = some (.object p.values) := hobject
  obtain ⟨members, rfl⟩ := Json.ofTree?_eq_object hdeep
  exact ⟨frame, tree, members, hframe, htree, hsequence, hdata, hobject⟩

theorem params_distinct (he : ofText? text = some e) (hparams : e.params = some params)
    (hp : ReportParams.ofJson? params = some p) : (p.values.map Prod.fst).Nodup := by
  obtain ⟨_, _, members, _, _, _, _, hobject⟩ := params_written he hparams hp
  exact (Json.ofTree?_entries hobject).1

/-- Of the entries of a report none is lost that is good, and none counts that is not. -/
theorem report_sifted (he : ofText? text = some e) (hreport : e.IsReport)
    (hparams : e.params = some params) (hp : ReportParams.ofJson? params = some p) :
    ∃ values, Sifted text e params p values := by
  have hdistinct := params_distinct he hparams hp
  refine ⟨(reportedValues p.values).1, ?_⟩
  exact
    { read := read_report he hreport hparams hp
      written := by
        obtain ⟨frame, tree, members, hframe, htree, hsequence, hdata, hobject⟩ :=
          params_written he hparams hp
        exact ⟨frame, tree, members, hframe, htree, hsequence, hdata,
          (Json.ofTree?_entries hobject).2⟩
      distinct := hdistinct
      entries := reportedValues_perm hdistinct
      good := understood?_isSome
      apart := fun _ _ _ => ofText?_apart
      size := reportedValues_size hdistinct
      others := fun text' others he' => by
        have hp' := ReportParams.ofJson?_withEntries hp others
        have hdistinct' : (others.map Prod.fst).Nodup := params_distinct he' rfl hp'
        have hread' := read_report he' hreport rfl hp'
        refine ⟨_, hread', fun a same => reportedValues_others hdistinct hdistinct' same, ?_⟩
        intro same
        exact SortedMap.ext_get? (fun a => reportedValues_others hdistinct hdistinct'
          (fun json => same (a.text, json))) }

end report

/-- A report with a key that is no address, a null, an array, and a key that comes twice. -/
def mixedReport : String :=
  "\x7b\"method\":\"currentData\",\"params\":\x7b\"sequence\":7,\"currentData\":\x7b" ++
    "\"a/x\":1,\"bad\":2,\"a/y\":null,\"a/z\":[3],\"a/x\":true\x7d\x7d\x7d"

theorem mixedReport_sifted : ∃ e params p values, ofText? mixedReport = some e ∧ e.IsReport ∧
    e.params = some params ∧ ReportParams.ofJson? params = some p ∧
    Sifted mixedReport e params p values ∧
    values.entries = [(⟨"a", "x"⟩, some (.bool true)), (⟨"a", "y"⟩, none)] := by
  have hread : (read mixedReport).message = .ok (.report ⟨7,
      .ofList [(⟨"a", "x"⟩, some (.bool true)), (⟨"a", "y"⟩, none)]⟩) := by decide +kernel
  obtain ⟨e, he, hsnapshot⟩ := read_eq_ok.mp hread
  obtain ⟨params, p, hreport, hparams, hp, _⟩ := ofEnvelope_snapshot.mp hsnapshot
  obtain ⟨values, hvalues⟩ := report_sifted he hreport hparams hp
  refine ⟨e, params, p, values, he, hreport, hparams, hp, hvalues, ?_⟩
  have hsame := hvalues.read
  rw [hread] at hsame
  simp only [Except.ok.injEq, Message.report.injEq, Snapshot.mk.injEq] at hsame
  rw [← hsame.2]
  decide +kernel

end Message

end ChannelFeed
