import ChannelFeed.Proofs.Json.Printed
import ChannelFeed.Proofs.Ordered.Entries
import ChannelFeed.Proofs.Wire.Readable
import Mathlib.Data.List.Nodup

namespace ChannelFeed

/-- A value that its text tells from all others. -/
def Value.isExact : Value → Bool
  | .bool _ => true
  | .integer n => inIntegers n
  | .float _ => false
  | .text _ => true

/-- A reported value, null where one is taken away. -/
def Value.reportJson : Option Value → Json
  | none => .null
  | some v => v.toJson

namespace Message

def paramsJson (sequence : Nat) (entries : List (Address × Option Value)) : Json :=
  .object [("sequence", .number (.whole sequence)),
    ("currentData", .object (entries.map (fun e => (e.1.text, Value.reportJson e.2))))]

def reportJson (sequence : Nat) (entries : List (Address × Option Value)) : Json :=
  .object [("jsonrpc", .text "2.0"), ("method", .text reportMethod),
    ("params", paramsJson sequence entries)]

/-- The frame as a text. -/
example :
    (reportJson 12 [(⟨"meter0", "power"⟩, some (.integer 2)), (⟨"ess0", "soc"⟩, none)]).print =
    "\x7b\"jsonrpc\":\"2.0\",\"method\":\"currentData\",\"params\":\x7b\"sequence\":12," ++
      "\"currentData\":\x7b\"meter0/power\":2,\"ess0/soc\":null\x7d\x7d\x7d" := by
  decide +kernel

end Message

namespace Value

theorem reportJson_exact {value : Option Value} (h : ∀ v ∈ value, v.isExact = true) (depth : Nat) :
    Json.Exact depth (reportJson value) := by
  cases value with
  | none => exact .null
  | some v =>
    have hv := h v rfl
    cases v with
    | bool b => exact .bool b
    | integer n =>
      have hn : -9223372036854775808 ≤ n ∧ n ≤ 9223372036854775807 := of_decide_eq_true hv
      exact .whole hn.1 (by omega)
    | float x => cases hv
    | text s => exact .text s

/-- What is reported of a value is that value. -/
theorem reported?_reportJson {value : Option Value} (h : ∀ v ∈ value, v.isExact = true) :
    reported? (reportJson value).sorted = some value := by
  cases value with
  | none => rfl
  | some v =>
    have hv := h v rfl
    cases v with
    | bool b => rfl
    | integer n =>
      have hn : inIntegers n = true := hv
      simp [reportJson, toJson, Json.sorted, reported?, ofNumber, hn]
    | float x => cases hv
    | text s => rfl

end Value

namespace Json

theorem keyed?_memberTrees (members : List (String × Json)) :
    keyed? (memberTrees members) = some (members.map (fun m => (m.1, m.2.tree))) := by
  unfold keyed?
  induction members with
  | nil => rfl
  | cons m rest ih =>
    rw [memberTrees, List.mapM_cons, ih]
    simp [text?_pieces]

theorem optional?_some {α : Type} {read : Tree → Option α} {tree : Tree} (h : tree ≠ .null) :
    optional? read (some tree) = (read tree).map some := by
  cases tree <;> first | rfl | exact absurd rfl h

theorem sortedMembers_eq (members : List (String × Json)) :
    sortedMembers members = members.map (fun m => (m.1, m.2.sorted)) := by
  induction members with
  | nil => rfl
  | cons m rest ih =>
    rw [sortedMembers, ih]
    rfl

end Json

namespace Message

variable {sequence : Nat} {entries : List (Address × Option Value)}

theorem paramsJson_exact (inRange : sequence < 18446744073709551616)
    (exact : ∀ e ∈ entries, ∀ v ∈ e.2, v.isExact = true) (depth : Nat) :
    Json.Exact (depth + 2) (paramsJson sequence entries) := by
  have hvalues : Json.Exact (depth + 1)
      (.object (entries.map (fun e => (e.1.text, Value.reportJson e.2)))) := by
    refine .object (fun m hm => ?_)
    obtain ⟨e, he, rfl⟩ := List.mem_map.mp hm
    exact Value.reportJson_exact (exact e he) depth
  refine .object (fun m hm => ?_)
  simp only [List.mem_cons, List.not_mem_nil, or_false] at hm
  rcases hm with rfl | rfl
  · exact .whole (by omega) (by omega)
  · exact hvalues

theorem reportJson_exact (inRange : sequence < 18446744073709551616)
    (exact : ∀ e ∈ entries, ∀ v ∈ e.2, v.isExact = true) (depth : Nat) :
    Json.Exact (depth + 3) (reportJson sequence entries) := by
  refine .object (fun m hm => ?_)
  simp only [List.mem_cons, List.not_mem_nil, or_false] at hm
  rcases hm with rfl | rfl | rfl
  · exact .text _
  · exact .text _
  · exact paramsJson_exact inRange exact depth

theorem envelope_reportJson (inRange : sequence < 18446744073709551616)
    (exact : ∀ e ∈ entries, ∀ v ∈ e.2, v.isExact = true) :
    Envelope.ofText? (reportJson sequence entries).print =
      some ⟨none, some reportMethod, some (paramsJson sequence entries).sorted, false, none⟩ := by
  have htree := (reportJson_exact inRange exact 124).tree_print
  have hparams : Json.ofTree? Envelope.memberDepth (paramsJson sequence entries).tree =
      some (paramsJson sequence entries).sorted :=
    (paramsJson_exact inRange exact 124).ofTree?_tree
  have hpresent : Json.optional? (Json.ofTree? Envelope.memberDepth)
      (some (paramsJson sequence entries).tree) =
        some (some (paramsJson sequence entries).sorted) := by
    rw [Json.optional?_some (by simp [paramsJson, Json.tree]), hparams]
    rfl
  have hmethod : Json.optional? Json.asText? (some (Json.text reportMethod).tree) =
      some (some reportMethod) := by
    rw [Json.optional?_some (by simp [Json.tree]), Json.tree, Json.asText?, Json.text?_pieces]
    rfl
  rw [Envelope.ofText?, htree]
  simp only [reportJson, Json.tree, Option.bind_eq_bind, Option.bind_some, Envelope.ofTree?,
    Json.keyed?_memberTrees]
  simp [Json.member?, Envelope.ofFields?, hpresent, hmethod]
  rfl

def keyed (entries : List (Address × Option Value)) : SortedMap String Json :=
  .ofList (entries.map (fun e => (e.1.text, (Value.reportJson e.2).sorted)))

theorem params_reportJson (sequence : Nat) (entries : List (Address × Option Value)) :
    ReportParams.ofJson? (paramsJson sequence entries).sorted =
      some ⟨sequence, (keyed entries).entries⟩ := by
  simp [paramsJson, Json.sorted, Json.sortedMembers_eq, ReportParams.ofJson?, lookupKey_insertKey,
    ReportParams.ofFields?, keyed, SortedMap.entries_ofList, Function.comp_def]

/-- Where no key comes twice, what is reported under a key is what its entry says. -/
theorem lastReport?_eq_some_iff {members : List (String × Json)} {key : String}
    {value : Option Value} (distinct : (members.map Prod.fst).Nodup) :
    lastReport? members key = some value ↔
      ∃ json, (key, json) ∈ members ∧ Value.reported? json = some value := by
  induction members using List.reverseRecOn generalizing value with
  | nil => simp [lastReport?]
  | append_singleton members m ih =>
    rw [List.map_append, List.map_singleton, List.nodup_append] at distinct
    obtain ⟨hdistinct, _, hnew⟩ := distinct
    obtain ⟨key', json'⟩ := m
    rw [lastReport?_append]
    by_cases hkey : key' = key
    · subst hkey
      have hnot : ∀ json, (key', json) ∉ members := fun json hm =>
        hnew key' (List.mem_map_of_mem hm) key' (List.mem_singleton_self _) rfl
      have hnone : lastReport? members key' = none := by
        refine Option.eq_none_iff_forall_ne_some.mpr (fun v hv => ?_)
        obtain ⟨json, hm, _⟩ := (ih hdistinct).mp hv
        exact hnot json hm
      simp [hnot, hnone]
    · simp [hkey, Ne.symm hkey, ih hdistinct]

theorem reportedValues_silent {members : List (String × Json)}
    (h : ∀ m ∈ members, ∃ a value, Address.ofText? m.1 = some a ∧
      Value.reported? m.2 = some value) :
    (reportedValues members).2 = [] := by
  induction members using List.reverseRecOn with
  | nil => rfl
  | append_singleton members m ih =>
    obtain ⟨a, value, hkey, hvalue⟩ := h m (by simp)
    rw [reportedValues_append, addEntry, hkey, hvalue]
    exact ih (fun m' hm => h m' (List.mem_append_left _ hm))

variable {values : SortedMap Address (Option Value)}

theorem keys_distinct (order : entries.Perm values.entries)
    (readable : ∀ e ∈ entries, e.1.Readable) : (entries.map (fun e => e.1.text)).Nodup := by
  have hdistinct : (entries.map Prod.fst).Nodup :=
    (order.map Prod.fst).nodup_iff.mpr values.keys_nodup
  have htexts := List.Nodup.map_on (f := Address.text) (fun a ha b hb he => by
    obtain ⟨e, hm, rfl⟩ := List.mem_map.mp ha
    obtain ⟨e', hm', rfl⟩ := List.mem_map.mp hb
    exact (readable e hm).text_injective (readable e' hm') he) hdistinct
  rw [List.map_map] at htexts
  exact htexts

theorem mem_keyed (distinct : (entries.map (fun e => e.1.text)).Nodup) {m : String × Json} :
    m ∈ (keyed entries).entries ↔
      ∃ e ∈ entries, m = (e.1.text, (Value.reportJson e.2).sorted) := by
  obtain ⟨key, json⟩ := m
  rw [← SortedMap.get?_eq_some_iff, keyed, SortedMap.get?_ofList]
  · simp [eq_comm]
  · rw [List.map_map]
    exact distinct

theorem reportedValues_keyed (order : entries.Perm values.entries)
    (readable : ∀ e ∈ entries, e.1.Readable)
    (exact : ∀ e ∈ entries, ∀ v ∈ e.2, v.isExact = true) :
    reportedValues (keyed entries).entries = (values, []) := by
  have hdistinct := keys_distinct order readable
  have hvalues : (reportedValues (keyed entries).entries).1 = values := by
    refine SortedMap.ext_get? (fun a => Option.ext (fun value => ?_))
    have hlast : lastReport? (keyed entries).entries a.text = some value ↔ _ :=
      lastReport?_eq_some_iff (keyed entries).keys_nodup
    rw [reportedValues_get?, SortedMap.get?_eq_some_iff, ← order.mem_iff]
    constructor
    · intro hreport
      split at hreport
      · rename_i ha
        obtain ⟨json, hm, hjson⟩ := hlast.mp hreport
        obtain ⟨e, he, hpair⟩ := (mem_keyed hdistinct).mp hm
        obtain ⟨htext, rfl⟩ := Prod.mk.inj hpair
        have haddress := ha.text_injective (readable e he) htext
        rw [Value.reported?_reportJson (exact e he)] at hjson
        cases hjson
        rw [haddress]
        exact he
      · cases hreport
    · intro hm
      rw [if_pos (readable _ hm)]
      exact hlast.mpr ⟨_, (mem_keyed hdistinct).mpr ⟨_, hm, rfl⟩,
        Value.reported?_reportJson (exact _ hm)⟩
  have hnotes : (reportedValues (keyed entries).entries).2 = [] := by
    refine reportedValues_silent (fun m hm => ?_)
    obtain ⟨e, he, rfl⟩ := (mem_keyed hdistinct).mp hm
    exact ⟨e.1, e.2, readable e he, Value.reported?_reportJson (exact e he)⟩
  exact Prod.ext hvalues hnotes

/-- A report that is written, its entries in any order, is read as it was. -/
theorem read_reportJson (order : entries.Perm values.entries)
    (inRange : sequence < 18446744073709551616)
    (addressed : ∀ e ∈ entries, e.1.component ≠ "" ∧ '/' ∉ e.1.component.toList ∧ e.1.channel ≠ "")
    (exact : ∀ e ∈ entries, ∀ v ∈ e.2, v.isExact = true) :
    read (reportJson sequence entries).print = ⟨.ok (.report ⟨sequence, values⟩), []⟩ := by
  have readable : ∀ e ∈ entries, e.1.Readable := fun e he =>
    (Address.readable_iff e.1).mpr (addressed e he)
  rw [read, envelope_reportJson inRange exact]
  simp [ofEnvelope, ofParams, params_reportJson, reportedValues_keyed order readable exact]

/-- Keys that are ordered otherwise than their addresses, slashes in a channel, characters that are
escaped, and the greatest and the least of the numbers. -/
def hardEntries : List (Address × Option Value) :=
  [(⟨"a", "b/c/"⟩, some (.integer (-9223372036854775808))),
    (⟨"a!", "\"\\\n"⟩, some (.text "\x00\x1f\x7f\"/\\ü😀")),
    (⟨"a", "b"⟩, none),
    (⟨"Ω", "/"⟩, some (.integer 9223372036854775807)),
    (⟨"a ", "on"⟩, some (.bool false))]

theorem read_hardEntries : hardEntries.Perm (SortedMap.ofList hardEntries).entries ∧
    read (reportJson 18446744073709551615 hardEntries).print =
      ⟨.ok (.report ⟨18446744073709551615, .ofList hardEntries⟩), []⟩ := by
  have order : hardEntries.Perm (SortedMap.ofList hardEntries).entries := by decide +kernel
  exact ⟨order, read_reportJson order (by decide) (by decide +kernel) (by decide +kernel)⟩

end Message

end ChannelFeed
