import ChannelFeed.Proofs.Generation.LastWord
import ChannelFeed.Proofs.Wire.Readable
import ChannelFeed.View

namespace ChannelFeed

/-- Whoever holds a value was named by some frame that reports. -/
def Generation.Inbound (g : Generation) : Prop :=
  ∀ a v, g.get? a = some v →
    ∃ text s, (Message.read text).message = .ok (.report s) ∧ s.reports a = true

/-- What comes of reports that were read is inbound. -/
theorem Generation.inbound_applyAll {snapshots : List Snapshot}
    (h : ∀ s ∈ snapshots, ∃ text, (Message.read text).message = .ok (.report s)) :
    (empty.applyAll snapshots).Inbound := by
  intro a v ha
  rw [applyAll_get?, Option.join_eq_some_iff] at ha
  obtain ⟨s, hs, hvalue⟩ := List.mem_filterMap.mp (List.mem_of_getLast? ha)
  obtain ⟨text, hread⟩ := h s hs
  refine ⟨text, s, hread, ?_⟩
  rw [Snapshot.reports, SortedMap.contains, hvalue]
  rfl

namespace View

variable {v : View}

theorem allComponents?_eq_some {key : String} {x : Value} : v.allComponents? key = some x ↔
    ∃ a, Address.ofText? key = some a ∧ v.get? a = some x := by
  unfold allComponents? get?
  cases Address.ofText? key <;> simp

theorem thisComponent?_of {component : String} (h : v.scope.component = some component)
    (channel : String) : v.thisComponent? channel = v.get? ⟨component, channel⟩ := by
  unfold thisComponent?
  rw [h]
  rfl

theorem mem_ownEntries {entries : List (Address × Value)} {component : String}
    {e : Address × Value} : e ∈ entries.filter (fun e => e.1.inComponent component) ↔
      e ∈ entries ∧ e.1.component = component := by
  rw [List.mem_filter, Address.inComponent, beq_iff_eq]

theorem thisComponent_get? (v : View) (channel : String) :
    v.thisComponent.get? channel = v.thisComponent? channel := by
  cases hscope : v.scope.component with
  | none =>
    unfold thisComponent thisComponent?
    rw [hscope]
    rfl
  | some component =>
    rw [thisComponent?_of hscope]
    unfold thisComponent
    rw [hscope]
    dsimp only
    have hdistinct : ((v.generation.values.entries.filter
        (fun e => e.1.inComponent component)).map Prod.fst).Nodup :=
      (List.filter_sublist.map _).nodup v.generation.values.keys_nodup
    refine Option.ext (fun x => ?_)
    rw [SortedMap.get?_renamed hdistinct]
    · constructor
      · intro h
        obtain ⟨a, ha, rfl⟩ := h
        obtain ⟨hm, rfl⟩ := mem_ownEntries.mp ha
        exact SortedMap.get?_eq_some_iff.mpr hm
      · intro h
        exact ⟨_, mem_ownEntries.mpr ⟨SortedMap.get?_eq_some_iff.mp h, rfl⟩, rfl⟩
    · intro e he e' he' hsame
      obtain ⟨_, hown⟩ := mem_ownEntries.mp he
      obtain ⟨_, hown'⟩ := mem_ownEntries.mp he'
      have hcomponent : e.1.component = e'.1.component := hown.trans hown'.symm
      obtain ⟨⟨component, channel⟩, x⟩ := e
      obtain ⟨⟨component', channel'⟩, x'⟩ := e'
      exact congrArg₂ Address.mk hcomponent hsame

end View

namespace Generation.Inbound

variable {v : View}

theorem readable {g : Generation} (h : g.Inbound) {a : Address} {x : Value}
    (ha : g.get? a = some x) : a.Readable := by
  obtain ⟨text, s, hread, hreports⟩ := h a x ha
  exact Message.report_readable hread hreports

theorem texts_apart (h : v.generation.Inbound) :
    ∀ e ∈ v.generation.values.entries, ∀ e' ∈ v.generation.values.entries,
      e.1.text = e'.1.text → e.1 = e'.1 := by
  intro e he e' he' hsame
  have hreadable := h.readable (SortedMap.get?_eq_some_iff.mpr he)
  have hreadable' := h.readable (SortedMap.get?_eq_some_iff.mpr he')
  exact hreadable.text_injective hreadable' hsame

theorem allComponents_get? (h : v.generation.Inbound) (key : String) :
    v.allComponents.get? key = v.allComponents? key := by
  refine Option.ext (fun x => ?_)
  unfold View.allComponents
  rw [SortedMap.get?_renamed v.generation.values.keys_nodup h.texts_apart,
    View.allComponents?_eq_some]
  refine exists_congr (fun a => ?_)
  rw [Address.ofText?_iff_readable, ← SortedMap.get?_eq_some_iff]
  constructor
  · intro ha
    obtain ⟨hvalue, rfl⟩ := ha
    exact ⟨⟨rfl, h.readable hvalue⟩, hvalue⟩
  · intro ha
    obtain ⟨⟨rfl, _⟩, hvalue⟩ := ha
    exact ⟨hvalue, rfl⟩

theorem allComponents_size (h : v.generation.Inbound) :
    v.allComponents.size = v.generation.size := by
  have hdistinct := SortedMap.renamed_distinct v.generation.values.keys_nodup h.texts_apart
  unfold View.allComponents
  rw [SortedMap.size_ofList hdistinct, List.length_map]
  rfl

/-- A channel is found under the text of its address, whatever slashes the channel holds. -/
theorem allComponents?_text (h : v.generation.Inbound) {a : Address}
    (hslash : '/' ∉ a.component.toList) : v.allComponents? a.text = v.get? a := by
  unfold View.allComponents?
  rw [Address.ofText?_text hslash]
  by_cases hreadable : a.Readable
  · rw [if_pos hreadable]
    rfl
  · rw [if_neg hreadable]
    refine (Option.eq_none_iff_forall_ne_some.mpr (fun x hx => ?_)).symm
    exact hreadable (h.readable hx)

end Generation.Inbound

/-- All ways to read a view tell the same. -/
structure View.Consistent (v : View) : Prop where
  keyed : ∀ key, v.allComponents.get? key = v.allComponents? key
  address : ∀ key a, Address.ofText? key = some a → v.allComponents? key = v.get? a
  malformed : ∀ key, Address.ofText? key = none → v.allComponents? key = none
  /-- No two channels share a key. -/
  size : v.allComponents.size = v.generation.size
  channel : ∀ channel, v.thisComponent.get? channel = v.thisComponent? channel
  /-- The scope's component need not be that of any channel, but a slash would end it early. -/
  own : ∀ component, v.scope.component = some component → '/' ∉ component.toList →
    ∀ channel, v.allComponents? (component ++ "/" ++ channel) = v.thisComponent? channel
  unscoped : v.scope.component = none →
    v.thisComponent = .empty ∧ ∀ channel, v.thisComponent? channel = none

/-- Whatever was read off the wire, all its readers agree. -/
theorem Generation.Inbound.views_consistent {g : Generation} (h : g.Inbound) (scope : Scope) :
    View.Consistent ⟨g, scope⟩ where
  keyed := allComponents_get? h
  address key a ha := by
    unfold View.allComponents?
    rw [ha]
    rfl
  malformed key hkey := by
    unfold View.allComponents?
    rw [hkey]
  size := allComponents_size h
  channel := View.thisComponent_get? ⟨g, scope⟩
  own component hscope hslash channel := by
    rw [View.thisComponent?_of hscope]
    exact allComponents?_text (v := ⟨g, scope⟩) h (a := ⟨component, channel⟩) hslash
  unscoped hscope := by
    unfold View.thisComponent View.thisComponent?
    rw [hscope]
    exact ⟨rfl, fun _ => rfl⟩

/-- A report of channels that hold slashes, and of texts that are no addresses. -/
def slashedReport : String :=
  "\x7b\"method\":\"currentData\",\"params\":\x7b\"sequence\":1,\"currentData\":\x7b" ++
    "\"c/A/B\":1,\"c/A\":true,\"c//\":2,\"d/A\":3,\"/A\":4,\"c/\":5\x7d\x7d\x7d"

theorem slashedReport_consistent : ∃ s, (Message.read slashedReport).message = .ok (.report s) ∧
    (Generation.empty.applyAll [s]).Inbound ∧
    View.Consistent ⟨Generation.empty.applyAll [s], .of "c"⟩ ∧
    (View.mk (Generation.empty.applyAll [s]) (.of "c")).thisComponent.entries =
      [("/", .integer 2), ("A", .bool true), ("A/B", .integer 1)] := by
  have hread : (Message.read slashedReport).message = .ok (.report ⟨1, .ofList
      [(⟨"c", "A/B"⟩, some (.integer 1)), (⟨"c", "A"⟩, some (.bool true)),
        (⟨"c", "/"⟩, some (.integer 2)), (⟨"d", "A"⟩, some (.integer 3))]⟩) := by decide +kernel
  refine ⟨_, hread, ?_⟩
  have hinbound := Generation.inbound_applyAll (fun s hs => ⟨slashedReport, by
    rw [List.mem_singleton.mp hs]
    exact hread⟩)
  exact ⟨hinbound, hinbound.views_consistent _, by decide +kernel⟩

end ChannelFeed
