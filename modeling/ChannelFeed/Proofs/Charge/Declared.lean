import ChannelFeed.Proofs.Generation.LastWord
import ChannelFeed.Proofs.Panel.Beside
import ChannelFeed.Proofs.Wire.Readable

namespace ChannelFeed

namespace Charge.Decoder

variable {d : Decoder} {v v' : View}

/-- Whether the storage, if there is one, can be the component of an address that was read. -/
def Addressable (d : Decoder) : Prop := ∀ storage, d.storage = some storage → '/' ∉ storage.toList

theorem channel_mem_addresses (d : Decoder) {channel : String} (h : channel ∈ channels) :
    ⟨d.component, channel⟩ ∈ d.addresses := by
  have hown : (⟨d.component, channel⟩ : Address) ∈ SortedSet.ofList
      (channels.map (fun channel => (⟨d.component, channel⟩ : Address))) :=
    SortedSet.mem_ofList.mpr (List.mem_map_of_mem h)
  unfold addresses
  cases d.storage with
  | none => exact hown
  | some storage => exact SortedSet.mem_insert.mpr (.inr hown)

theorem capacity_mem_addresses {storage : String} (h : d.storage = some storage) :
    ⟨storage, "Capacity"⟩ ∈ d.addresses := by
  unfold addresses
  rw [h]
  exact SortedSet.mem_insert.mpr (.inl rfl)

theorem channel?_congr (h : v.Agree d.addresses v') {channel : String} (hm : channel ∈ channels) :
    d.channel? v channel = d.channel? v' channel :=
  h _ (d.channel_mem_addresses hm)

theorem number?_congr (h : v.Agree d.addresses v') {channel : String} (hm : channel ∈ channels) :
    d.number? v channel = d.number? v' channel := by
  unfold number?
  rw [channel?_congr h hm]

/-- The capacity is looked up by a text, which reads as the address that is declared. -/
theorem capacity_congr (hd : d.Addressable) (h : v.Agree d.addresses v') {storage : String}
    (hs : d.storage = some storage) :
    v.allComponents? (storage ++ "/Capacity") = v'.allComponents? (storage ++ "/Capacity") := by
  have htext : storage ++ "/Capacity" = Address.text ⟨storage, "Capacity"⟩ := by
    unfold Address.text
    rw [String.append_assoc]
    rfl
  unfold View.allComponents?
  rw [htext, Address.ofText?_text (hd storage hs)]
  split
  · rename_i a hread
    split at hread
    · cases hread
      exact h _ (capacity_mem_addresses hs)
    · cases hread
  · rfl

theorem decode_congr (hd : d.Addressable) (h : v.Agree d.addresses v') :
    d.decode v = d.decode v' := by
  have hcapacity : d.storage.bind (fun storage =>
        (v.allComponents? (storage ++ "/Capacity")).bind Value.asFloat?) =
      d.storage.bind (fun storage =>
        (v'.allComponents? (storage ++ "/Capacity")).bind Value.asFloat?) := by
    cases hs : d.storage with
    | none => rfl
    | some storage =>
      rw [Option.bind_some, Option.bind_some, capacity_congr hd h hs]
  unfold decode
  rw [hcapacity]
  simp (disch := decide) only [channel?_congr h, number?_congr h]

theorem map_decode_congr (hd : d.Addressable) {vs vs' : List View}
    (h : List.Forall₂ (View.Agree d.addresses) vs vs') : vs.map d.decode = vs'.map d.decode := by
  induction h with
  | nil => rfl
  | cons hv _ ih => rw [List.map_cons, List.map_cons, decode_congr hd hv, ih]

/-- Two subscribers are told the same by views that show the same of what is declared. -/
theorem told_congr (hd : d.Addressable) (uses uses' : List Panel.Use)
    {widget widget' handle handle' : Nat}
    (hrole : (Panel.used uses).roles[widget]? = some (handle, .decoded d))
    (hrole' : (Panel.used uses').roles[widget']? = some (handle', .decoded d))
    (h : List.Forall₂ (View.Agree d.addresses) (Panel.received (Panel.historyOf uses) handle)
      (Panel.received (Panel.historyOf uses') handle')) :
    (Panel.used uses).statuses widget = (Panel.used uses').statuses widget' := by
  rw [(Panel.Scene.Reached.uses uses).statuses hrole,
    (Panel.Scene.Reached.uses uses').statuses hrole']
  exact map_decode_congr hd h

/-- What a decoder tells depends on the channels it declares alone. -/
structure SeesDeclaredOnly (d : Decoder) : Prop where
  /-- Whatever the views are scoped to. -/
  status : ∀ v v' : View, v.Agree d.addresses v' → d.decode v = d.decode v'
  /-- Other channels may have been reported in any way. -/
  reported : ∀ snapshots snapshots' scope scope',
    (∀ a ∈ d.addresses, lastMention? snapshots a = lastMention? snapshots' a) →
      d.decode ⟨Generation.empty.applyAll snapshots, scope⟩ =
        d.decode ⟨Generation.empty.applyAll snapshots', scope'⟩
  /-- Whether a snapshot is delivered to a subscription depends on the declared channels it mentions. -/
  due : ∀ (p p' : Dispatcher) (handle handle' : Nat) (slot slot' : Slot) (s s' : Snapshot),
    p.slots.get? handle = some slot → p'.slots.get? handle' = some slot' →
    slot.addresses = d.addresses → slot'.addresses = d.addresses →
    slot.active = slot'.active → slot.primed = slot'.primed →
    (∀ a ∈ d.addresses, s.reports a = s'.reports a) →
      (p.due? (p.generation.next s) handle).isSome = (p'.due? (p'.generation.next s') handle').isSome
  /-- A subscriber is told the status of each view that it is given. -/
  told : ∀ (uses : List Panel.Use) (widget handle : Nat),
    (Panel.used uses).roles[widget]? = some (handle, .decoded d) →
      (Panel.used uses).statuses widget =
        (Panel.received (Panel.historyOf uses) handle).map d.decode
  /-- Two subscribers, each in a run of its own, are told the same if they are given views that show the
  same of the declared channels. -/
  apart : ∀ (uses uses' : List Panel.Use) (widget widget' handle handle' : Nat),
    (Panel.used uses).roles[widget]? = some (handle, .decoded d) →
    (Panel.used uses').roles[widget']? = some (handle', .decoded d) →
    List.Forall₂ (View.Agree d.addresses) (Panel.received (Panel.historyOf uses) handle)
      (Panel.received (Panel.historyOf uses') handle') →
    (Panel.used uses).statuses widget = (Panel.used uses').statuses widget'
  /-- A subscriber is told the same in two runs that differ in the component that it subscribes under, in
  the order of what it declares, in what others declare and in what is reported of other channels. -/
  beside : ∀ uses uses' : List Panel.Use, List.Forall₂ (Panel.Use.Beside d) uses uses' →
    ∀ widget handle handle' : Nat,
      (Panel.used uses).roles[widget]? = some (handle, .decoded d) →
      (Panel.used uses').roles[widget]? = some (handle', .decoded d) →
      (Panel.used uses).statuses widget = (Panel.used uses').statuses widget

theorem sees_declared_only (hd : d.Addressable) : d.SeesDeclaredOnly where
  status _ _ h := decode_congr hd h
  reported snapshots snapshots' scope scope' h := by
    refine decode_congr hd (fun a ha => ?_)
    unfold View.get?
    rw [Generation.applyAll_get?, Generation.applyAll_get?, h a ha]
  due p p' handle handle' slot slot' s s' hs hs' ha ha' hactive hprimed hreports := by
    have htouches : (p.generation.next s).touchesAny slot.addresses =
        (p'.generation.next s').touchesAny slot'.addresses := by
      rw [Bool.eq_iff_iff, Generation.next_touchesAny, Generation.next_touchesAny, ha, ha']
      refine exists_congr (fun a => and_congr_right (fun hm => ?_))
      rw [hreports a hm]
    unfold Dispatcher.due?
    rw [hs, hs', Option.filter_some, Option.filter_some, hactive, hprimed, htouches]
    split <;> rfl
  told uses widget handle hrole := (Panel.Scene.Reached.uses uses).statuses hrole
  apart uses uses' _ _ _ _ hrole hrole' h := told_congr hd uses uses' hrole hrole' h
  beside uses uses' h _ _ _ hrole hrole' :=
    told_congr hd uses uses' hrole hrole' ((Panel.uses_beside h).heard hrole hrole')

def siteDecoder : Decoder := ⟨"ctrl", some "ess0"⟩

/-- A report of a controller, of its storage and of a component that no one asked about. -/
def siteReport (others : List (Address × Option Value)) : Snapshot :=
  ⟨1, .ofList (others ++ [(⟨"ctrl", "SellToGridLimitState"⟩, some (.integer 0)),
    (⟨"ctrl", "SellToGridLimitMinimumChargeLimit"⟩, some (.integer 800)),
    (⟨"ess0", "Capacity"⟩, some (.integer 9000))])⟩

/-- A subscriber of the status with a neighbour, and a report that is delivered. -/
def siteUses (component : Option String) (declared others : List Address) (report : Snapshot) :
    List Panel.Use :=
  [.subscribe "charge" component declared (.decoded siteDecoder),
    .subscribe "meter" none others (.scripted []), .command (.apply report true)]

/-- Neither another component's report nor the primary component makes a difference. -/
theorem siteReport_declared : siteDecoder.Addressable ∧
    siteDecoder.decode ⟨Generation.empty.applyAll [siteReport []], .of "ctrl"⟩ =
      siteDecoder.decode ⟨Generation.empty.applyAll
        [siteReport [(⟨"meter0", "ActivePower"⟩, some (.integer 5))], ⟨2, .ofList
          [(⟨"meter0", "ActivePower"⟩, none)]⟩], .of "ess0"⟩ ∧
    (siteDecoder.decode ⟨Generation.empty.applyAll [siteReport []], .of "ctrl"⟩).capacity =
      some (.ofInt 9000) ∧
    (Panel.used (siteUses none siteDecoder.addresses.toList [] (siteReport []))).statuses 0 =
      (Panel.used (siteUses (some "ess0") siteDecoder.addresses.toList.reverse
        [⟨"meter0", "ActivePower"⟩]
        (siteReport [(⟨"meter0", "ActivePower"⟩, some (.integer 5))]))).statuses 0 ∧
    ((Panel.used (siteUses none siteDecoder.addresses.toList [] (siteReport []))).statuses 0).length =
      1 := by
  have haddressable : siteDecoder.Addressable := by
    intro storage hs
    cases hs
    decide
  have hsees := sees_declared_only haddressable
  refine ⟨haddressable, hsees.reported _ _ _ _ ?_, by decide +kernel,
    hsees.beside _ _ ?_ 0 1 1 rfl rfl, by decide +kernel⟩
  · show ∀ a ∈ siteDecoder.addresses.toList, _
    decide +kernel
  · refine .cons (.subscribe _ _ _ trivial trivial (fun _ _ => ?_))
      (.cons (.subscribe _ _ _ (fun _ _ hm => nomatch hm) (fun _ _ hm => nomatch hm)
        (fun he => nomatch he)) (.cons (.command (.apply true ?_)) .nil))
    · decide +kernel
    · show ∀ a ∈ siteDecoder.addresses.toList, _
      decide +kernel

end Charge.Decoder

end ChannelFeed
