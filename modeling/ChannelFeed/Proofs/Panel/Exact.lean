import ChannelFeed.Proofs.Panel.Acts

namespace ChannelFeed.Panel

variable {acts : List Act} {p q : Panel}

/-- A slot says what the history says about its subscription. -/
structure Fits (r : Subscription) (since : List Act) (slot : Slot) : Prop where
  subscriber : slot.subscriber = r.subscriber
  scope : slot.scope = r.scope
  addresses : slot.addresses = .ofList r.addresses
  active : slot.active = true
  primed : slot.primed = true ↔ Reported since r.addresses

/-- A panel is as its history has it: its slots are those of the subscriptions that stand. -/
structure Follows (acts : List Act) (p : Panel) : Prop where
  sound : p.dispatcher.registry.Sound
  next : p.dispatcher.registry.nextHandle = issued acts
  generation : p.dispatcher.generation = .applyAll .empty (snapshots acts)
  quiet : p.Quiet
  seated : p.Seated
  named : p.Named
  slot : ∀ handle slot, p.dispatcher.slots.get? handle = some slot →
    ∃ r since, Stands acts handle r since ∧ Fits r since slot
  standing : ∀ handle r since, Stands acts handle r since → r.addresses.isEmpty = false →
    ∃ slot, p.dispatcher.slots.get? handle = some slot ∧ Fits r since slot

theorem follows_empty : Follows [] .empty where
  sound := Registry.sound_empty
  next := rfl
  generation := rfl
  quiet w hw := nomatch hw
  seated handle slot hs := nomatch hs
  named widget call v hm := nomatch hm
  slot handle slot hs := nomatch hs
  standing handle r since h := by
    obtain ⟨before, hacts, _⟩ := h
    simp at hacts

/-- An act without a snapshot leaves a slot that fits fitting. -/
theorem Fits.silent {r : Subscription} {since : List Act} {slot : Slot} (h : Fits r since slot)
    {x : Act} (hx : x.snapshot? = none) : Fits r (since ++ [x]) slot :=
  { h with primed := h.primed.trans (reported_silent hx since r.addresses).symm }

theorem subscribe_widgets (p : Panel) (subscriber : String) (component : Option String)
    (addresses : List Address) (callback : Callback) :
    (p.subscribe subscriber component addresses callback).1.widgets =
      p.widgets ++ [⟨p.dispatcher.registry.nextHandle, true, 0, callback⟩] := by
  have hhandle := p.dispatcher.install_handle subscriber component addresses p.widgets.length
  exact congrArg (fun handle => p.widgets ++ [Widget.mk handle true 0 callback]) hhandle

theorem subscribe_reply (p : Panel) (subscriber : String) (component : Option String)
    (addresses : List Address) (callback : Callback) :
    (p.subscribe subscriber component addresses callback).2 =
      .installed p.widgets.length p.dispatcher.registry.nextHandle := by
  have hhandle := p.dispatcher.install_handle subscriber component addresses p.widgets.length
  exact congrArg (Reply.installed p.widgets.length) hhandle

section
variable (p) (r : Subscription)

/-- The panel after a subscription. -/
abbrev subscribed : Panel :=
  (p.subscribe r.subscriber r.component r.addresses (.scripted r.script)).1

theorem subscribed_widgets :
    (p.subscribed r).widgets =
      p.widgets ++ [⟨p.dispatcher.registry.nextHandle, true, 0, .scripted r.script⟩] :=
  p.subscribe_widgets _ _ _ _

theorem subscribed_handles :
    (p.subscribed r).handles = p.handles ++ [p.dispatcher.registry.nextHandle] := by
  simp [handles, subscribed_widgets]

theorem subscribed_reply :
    (p.subscribe r.subscriber r.component r.addresses (.scripted r.script)).2 =
      .installed p.widgets.length p.dispatcher.registry.nextHandle :=
  p.subscribe_reply _ _ _ _

theorem subscribed_slot (h : p.dispatcher.registry.Sound) (k : Nat) :
    (p.subscribed r).dispatcher.slots.get? k =
      if k = p.dispatcher.registry.nextHandle ∧ r.addresses.isEmpty = false then
        some ⟨r.subscriber, r.scope, .ofList r.addresses, false, true, p.widgets.length⟩
      else (p.dispatcher.slots.get? k).filter
        (fun slot => decide (slot.subscriber ≠ r.subscriber)) :=
  p.dispatcher.install_get? h r.subscriber r.component r.addresses p.widgets.length k

end

theorem heardIn_grow (handles more : List Nat) (journal : List Delivery)
    (hn : ∀ widget call v, .called widget call v ∈ journal → widget < handles.length) :
    heardIn (handles ++ more) journal = heardIn handles journal := by
  induction journal with
  | nil => rfl
  | cons delivery rest ih =>
    have hrest := ih (fun widget call v hm => hn widget call v (List.mem_cons_of_mem _ hm))
    rw [← List.singleton_append, heardIn_append, heardIn_append, hrest]
    cases delivery with
    | called widget call v =>
      have heq : (handles ++ more)[widget]? = handles[widget]? :=
        List.getElem?_append_left (hn widget call v List.mem_cons_self)
      simp only [heardIn, List.filterMap_cons, List.filterMap_nil, heq]
    | _ => rfl

theorem subscribed_heard (hn : p.Named) (r : Subscription) :
    (p.subscribed r).heard = p.heard := by
  refine (congrArg (fun hs => heardIn hs p.journal) (subscribed_handles p r)).trans ?_
  refine heardIn_grow p.handles _ p.journal (fun widget call v hm => ?_)
  simpa [handles] using hn widget call v hm

theorem Follows.subscribed_fits (h : Follows acts p) (r : Subscription) (handle : Nat) (slot : Slot)
    (hs : (p.subscribed r).dispatcher.slots.get? handle = some slot) :
    ∃ r' since, Stands (acts ++ [.subscribe r]) handle r' since ∧ Fits r' since slot := by
  rw [p.subscribed_slot r h.sound] at hs
  split at hs
  · rename_i hk
    cases hs
    refine ⟨r, [], ?_, rfl, rfl, rfl, rfl, ?_⟩
    · exact (stands_append ..).mpr (.inl ⟨rfl, hk.1.trans h.next, rfl⟩)
    · exact iff_of_false (by simp) (not_reported_nil _)
  · obtain ⟨hs, hne⟩ := Option.filter_eq_some_iff.mp hs
    obtain ⟨r', since, hstands, hfits⟩ := h.slot handle slot hs
    refine ⟨r', since ++ [.subscribe r], ?_, hfits.silent rfl⟩
    refine (stands_append ..).mpr (.inr ⟨since, rfl, hstands, fun he => ?_⟩)
    exact of_decide_eq_true hne (hfits.subscriber.trans (Eq.symm he))

theorem Follows.subscribed_standing (h : Follows acts p) (r : Subscription) (handle : Nat)
    (r' : Subscription) (since : List Act)
    (hstands : Stands (acts ++ [.subscribe r]) handle r' since)
    (hne : r'.addresses.isEmpty = false) :
    ∃ slot, (p.subscribed r).dispatcher.slots.get? handle = some slot ∧ Fits r' since slot := by
  rw [p.subscribed_slot r h.sound]
  rcases (stands_append ..).mp hstands with ⟨hr, hhandle, rfl⟩ | ⟨earlier, rfl, hstands, hkept⟩
  · cases hr
    rw [if_pos ⟨hhandle.trans h.next.symm, hne⟩]
    exact ⟨_, rfl, rfl, rfl, rfl, rfl, iff_of_false (by simp) (not_reported_nil _)⟩
  · obtain ⟨slot, hs, hfits⟩ := h.standing handle r' earlier hstands hne
    have hissued := hstands.issued
    rw [if_neg (fun hk => by rw [hk.1, h.next] at hissued; exact Nat.lt_irrefl _ hissued)]
    refine ⟨slot, Option.filter_eq_some_iff.mpr ⟨hs, decide_eq_true ?_⟩, hfits.silent rfl⟩
    exact fun he => hkept (he.symm.trans hfits.subscriber)

theorem Follows.subscribe (h : Follows acts p) (r : Subscription) :
    Follows (acts ++ [.subscribe r]) (p.subscribed r) := by
  refine ⟨h.sound.register .., ?_, ?_, ?_, ?_, ?_, h.subscribed_fits r, h.subscribed_standing r⟩
  · refine (congrArg Registry.nextHandle (Dispatcher.install_registry ..)).trans ?_
    rw [Registry.register_eq, Registry.insert_nextHandle, issued_append, h.next]
    rfl
  · have hsilent : (Act.subscribe r).snapshot? = none := rfl
    rw [snapshots_append, hsilent, Option.toList_none, List.append_nil]
    exact h.generation
  · intro w hw
    rw [subscribed_widgets, List.mem_append, List.mem_singleton] at hw
    rcases hw with hw | rfl
    · exact h.quiet w hw
    · exact ⟨r.script, rfl, r.quiet⟩
  · intro handle slot hs
    rw [subscribed_handles]
    rw [p.subscribed_slot r h.sound] at hs
    split at hs
    · rename_i hk
      cases hs
      rw [hk.1]
      simp [handles]
    · obtain ⟨hs, _⟩ := Option.filter_eq_some_iff.mp hs
      have hseat := h.seated handle slot hs
      rw [List.getElem?_append_left (List.getElem?_eq_some_iff.mp hseat).1]
      exact hseat
  · intro widget call v hm
    rw [subscribed_widgets, List.length_append]
    exact Nat.lt_add_right _ (h.named widget call v hm)

theorem unsubscribe_slot (p : Panel) (handle k : Nat) :
    (p.unsubscribe handle).1.dispatcher.slots.get? k =
      if k = handle then none else p.dispatcher.slots.get? k :=
  p.dispatcher.unsubscribe_get? handle k

theorem unsubscribe_generation (d : Dispatcher) (handle : Nat) :
    (d.unsubscribe handle).1.generation = d.generation := by
  unfold Dispatcher.unsubscribe
  dsimp only
  split <;> rfl

theorem Follows.unsubscribe (h : Follows acts p) (handle : Nat) :
    Follows (acts ++ [.unsubscribe handle]) (p.unsubscribe handle).1 := by
  have hsilent : (Act.unsubscribe handle).snapshot? = none := rfl
  have hregistry : (p.unsubscribe handle).1.dispatcher.registry =
      (p.dispatcher.registry.unregister handle).1 := p.dispatcher.unsubscribe_registry handle
  refine ⟨?_, ?_, ?_, h.quiet, ?_, h.named, ?_, ?_⟩
  · rw [hregistry]
    exact h.sound.unregister handle
  · rw [hregistry, Registry.unregister_nextHandle, issued_append, h.next]
    rfl
  · rw [snapshots_append, hsilent, Option.toList_none, List.append_nil]
    exact (unsubscribe_generation p.dispatcher handle).trans h.generation
  · intro k slot hs
    rw [unsubscribe_slot] at hs
    split at hs
    · cases hs
    · exact h.seated k slot hs
  · intro k slot hs
    rw [unsubscribe_slot] at hs
    split at hs
    · cases hs
    · rename_i hk
      obtain ⟨r, since, hstands, hfits⟩ := h.slot k slot hs
      refine ⟨r, since ++ [.unsubscribe handle], ?_, hfits.silent hsilent⟩
      exact (stands_append ..).mpr (.inr ⟨since, rfl, hstands, fun he => hk (Eq.symm he)⟩)
  · intro k r since hstands hne
    rcases (stands_append ..).mp hstands with ⟨hr, _⟩ | ⟨earlier, rfl, hstands, hkept⟩
    · cases hr
    · obtain ⟨slot, hs, hfits⟩ := h.standing k r earlier hstands hne
      rw [unsubscribe_slot, if_neg (fun he => hkept (Eq.symm he))]
      exact ⟨slot, hs, hfits.silent hsilent⟩

theorem Follows.delivered (h : Follows acts p) (s : Snapshot) :
    Delivered (p.dispatcher.generation.next s) (p.merge s).dispatcher.slots.keys (p.merge s)
      (p.act (.publish s)) :=
  publish_delivered (p := p.merge s) (exec_runsQuietly _) h.quiet h.seated h.named
    (p.dispatcher.generation.next s)

theorem Fits.turn {r : Subscription} {since : List Act} {slot : Slot} (h : Fits r since slot)
    (g : Generation) (s : Snapshot) :
    Fits r (since ++ [.publish s]) (slot.afterTurn (g.next s)) := by
  refine ⟨h.subscriber, h.scope, h.addresses, h.active, ?_⟩
  simp only [Slot.afterTurn, Bool.or_eq_true, Bool.and_eq_true, h.primed, h.active, h.addresses,
    Generation.next_touchesAny, SortedSet.mem_ofList, reported_append, Act.snapshot?, true_and,
    Option.some.injEq, exists_eq_left']

theorem Follows.publish (h : Follows acts p) (s : Snapshot) :
    Follows (acts ++ [.publish s]) (p.act (.publish s)) := by
  have hd := h.delivered s
  have hslot : ∀ k, (p.act (.publish s)).dispatcher.slots.get? k =
      (p.dispatcher.slots.get? k).map (Slot.afterTurn (p.dispatcher.generation.next s)) := hd.slot
  refine ⟨?_, ?_, ?_, hd.quiet, hd.seated h.seated, hd.named, ?_, ?_⟩
  · rw [hd.registry]
    exact h.sound
  · rw [hd.registry, issued_append]
    exact h.next
  · rw [hd.generation, snapshots_append, Act.snapshot?, Option.toList_some,
      Generation.applyAll_append, ← h.generation]
    rfl
  · intro k slot hs
    rw [hslot] at hs
    obtain ⟨before, hbefore, rfl⟩ := Option.map_eq_some_iff.mp hs
    obtain ⟨r, since, hstands, hfits⟩ := h.slot k before hbefore
    refine ⟨r, since ++ [.publish s], ?_, hfits.turn _ s⟩
    exact (stands_append ..).mpr (.inr ⟨since, rfl, hstands, fun he => he⟩)
  · intro k r since hstands hne
    rcases (stands_append ..).mp hstands with ⟨hr, _⟩ | ⟨earlier, rfl, hstands, _⟩
    · cases hr
    · obtain ⟨slot, hs, hfits⟩ := h.standing k r earlier hstands hne
      exact ⟨_, by rw [hslot, hs]; rfl, hfits.turn _ s⟩

theorem Follows.act (h : Follows acts p) (x : Act) : Follows (acts ++ [x]) (p.act x) := by
  cases x with
  | subscribe r => exact h.subscribe r
  | unsubscribe handle => exact h.unsubscribe handle
  | publish s => exact h.publish s

theorem Follows.foldl (h : Follows acts p) (more : List Act) :
    Follows (acts ++ more) (more.foldl Panel.act p) := by
  induction more generalizing acts p with
  | nil => simpa using h
  | cons x rest ih =>
    rw [List.foldl_cons, ← List.singleton_append, ← List.append_assoc]
    exact ih (h.act x)

/-- A panel follows its history. -/
theorem run_follows (acts : List Act) : Follows acts (run acts) := follows_empty.foldl acts

/-- The calls of the delivery that a snapshot gives. -/
def callsAt (p : Panel) (s : Snapshot) : List (Nat × View) :=
  p.dispatcher.slots.keys.filterMap (p.dispatcher.call? (p.dispatcher.generation.next s))

theorem Follows.publish_heard (h : Follows acts p) (s : Snapshot) :
    (p.act (.publish s)).heard = p.heard ++ p.callsAt s := (h.delivered s).heard

/-- Called are the subscriptions that stand and were mentioned since they were made. -/
theorem Follows.mem_callsAt (h : Follows acts p) (s : Snapshot) (handle : Nat) (v : View) :
    (handle, v) ∈ p.callsAt s ↔ ∃ r since, Stands acts handle r since ∧
      Reported (since ++ [.publish s]) r.addresses ∧
      v = ⟨.applyAll .empty (snapshots acts ++ [s]), r.scope⟩ := by
  have hg : Generation.applyAll .empty (snapshots acts ++ [s]) =
      p.dispatcher.generation.next s := by
    rw [Generation.applyAll_append, h.generation]
  have hdue : ∀ {r since slot}, Fits r since slot →
      ((slot.primed = true ∨
          (p.dispatcher.generation.next s).touchesAny slot.addresses = true) ↔
        Reported (since ++ [.publish s]) r.addresses) := by
    intro r since slot hfits
    rw [← (hfits.turn p.dispatcher.generation s).primed]
    simp [Slot.afterTurn, hfits.active]
  unfold callsAt
  rw [Dispatcher.mem_calls, hg]
  constructor
  · intro hx
    obtain ⟨slot, hd, rfl⟩ := hx
    obtain ⟨hs, _, hready⟩ := Dispatcher.due?_eq_some.mp hd
    obtain ⟨r, since, hstands, hfits⟩ := h.slot handle slot hs
    exact ⟨r, since, hstands, (hdue hfits).mp hready, by rw [hfits.scope]⟩
  · intro hx
    obtain ⟨r, since, hstands, hreported, rfl⟩ := hx
    have hne : r.addresses.isEmpty = false := by
      obtain ⟨_, _, a, ha, _⟩ := hreported
      exact List.isEmpty_eq_false_iff.mpr (List.ne_nil_of_mem ha)
    obtain ⟨slot, hs, hfits⟩ := h.standing handle r since hstands hne
    exact ⟨slot, Dispatcher.due?_eq_some.mpr ⟨hs, hfits.active, (hdue hfits).mpr hreported⟩,
      by rw [hfits.scope]⟩

/-- The numbers of the generations that a handle was called with, in the order of the calls. -/
def numbersHeard (p : Panel) (handle : Nat) : List Nat :=
  (p.heard.filter (fun c => c.1 == handle)).map (fun c => c.2.generation.number)

/-- What a handle was called with so far: nothing before it was primed, then every generation up to
the present one for as long as it has a slot. -/
structure Steady (acts : List Act) (p : Panel) (handle : Nat) : Prop where
  unissued : issued acts ≤ handle → p.numbersHeard handle = []
  waiting : ∀ slot, p.dispatcher.slots.get? handle = some slot → slot.primed = false →
    p.numbersHeard handle = []
  flowing : ∀ slot, p.dispatcher.slots.get? handle = some slot → slot.primed = true →
    ∃ first, first ≤ p.dispatcher.generation.number ∧
      p.numbersHeard handle = List.range' first (p.dispatcher.generation.number + 1 - first)
  steady : ∃ first n, p.numbersHeard handle = List.range' first n

theorem steady_empty (handle : Nat) : Steady [] .empty handle where
  unissued _ := rfl
  waiting _ _ _ := rfl
  flowing _ hs := nomatch hs
  steady := ⟨0, 0, rfl⟩

theorem Steady.subscribe {handle : Nat} (h : Steady acts p handle) (hf : Follows acts p)
    (r : Subscription) : Steady (acts ++ [.subscribe r]) (p.subscribed r) handle := by
  have hheard : (p.subscribed r).numbersHeard handle = p.numbersHeard handle := by
    unfold numbersHeard
    rw [subscribed_heard hf.named r]
  have hslot := p.subscribed_slot r hf.sound handle
  refine ⟨?_, ?_, ?_, ?_⟩
  · intro hle
    rw [issued_append] at hle
    rw [hheard]
    exact h.unissued (Nat.le_trans (Nat.le_add_right _ _) hle)
  · intro slot hs hp
    rw [hheard]
    rw [hslot] at hs
    split at hs
    · rename_i hk
      exact h.unissued (Nat.le_of_eq (hf.next.symm.trans hk.1.symm))
    · exact h.waiting slot (Option.filter_eq_some_iff.mp hs).1 hp
  · intro slot hs hp
    rw [hheard]
    rw [hslot] at hs
    split at hs
    · cases hs
      cases hp
    · exact h.flowing slot (Option.filter_eq_some_iff.mp hs).1 hp
  · rw [hheard]
    exact h.steady

theorem Steady.unsubscribe {handle : Nat} (h : Steady acts p handle) (k : Nat) :
    Steady (acts ++ [.unsubscribe k]) (p.unsubscribe k).1 handle := by
  have hslot : ∀ slot, (p.unsubscribe k).1.dispatcher.slots.get? handle = some slot →
      p.dispatcher.slots.get? handle = some slot := by
    intro slot hs
    rw [unsubscribe_slot] at hs
    split at hs
    · cases hs
    · exact hs
  have hgeneration : (p.unsubscribe k).1.dispatcher.generation = p.dispatcher.generation :=
    unsubscribe_generation p.dispatcher k
  refine ⟨fun hle => ?_, fun slot hs => h.waiting slot (hslot slot hs), fun slot hs => ?_, h.steady⟩
  · rw [issued_append] at hle
    exact h.unissued hle
  · rw [hgeneration]
    exact h.flowing slot (hslot slot hs)

/-- A delivery adds at most one number to those that a handle has heard. -/
theorem Follows.publish_numbers (h : Follows acts p) (s : Snapshot) (handle : Nat) :
    (p.act (.publish s)).numbersHeard handle = p.numbersHeard handle ++
      (p.dispatcher.due? (p.dispatcher.generation.next s) handle).toList.map
        (fun _ => p.dispatcher.generation.number + 1) := by
  unfold numbersHeard
  rw [h.publish_heard, List.filter_append, List.map_append]
  unfold callsAt
  rw [Dispatcher.calls_of]
  unfold Dispatcher.call?
  cases p.dispatcher.due? (p.dispatcher.generation.next s) handle <;> rfl

theorem Steady.called {handle : Nat} {slot : Slot} (h : Steady acts p handle)
    (hs : p.dispatcher.slots.get? handle = some slot) :
    ∃ first, first ≤ p.dispatcher.generation.number + 1 ∧
      p.numbersHeard handle ++ [p.dispatcher.generation.number + 1] =
        List.range' first (p.dispatcher.generation.number + 1 + 1 - first) := by
  cases hp : slot.primed with
  | true =>
    obtain ⟨first, hle, hn⟩ := h.flowing slot hs hp
    refine ⟨first, by omega, ?_⟩
    have hlen : p.dispatcher.generation.number + 1 + 1 - first =
        p.dispatcher.generation.number + 1 - first + 1 := by omega
    have hlast : first + (p.dispatcher.generation.number + 1 - first) =
        p.dispatcher.generation.number + 1 := by omega
    rw [hn, hlen, List.range'_1_concat, hlast]
  | false =>
    refine ⟨p.dispatcher.generation.number + 1, Nat.le_refl _, ?_⟩
    rw [h.waiting slot hs hp, Nat.add_sub_cancel_left]
    rfl

theorem Steady.publish {handle : Nat} (h : Steady acts p handle) (hf : Follows acts p)
    (s : Snapshot) : Steady (acts ++ [.publish s]) (p.act (.publish s)) handle := by
  have hnumbers := hf.publish_numbers s handle
  have hslot : (p.act (.publish s)).dispatcher.slots.get? handle =
      (p.dispatcher.slots.get? handle).map (Slot.afterTurn (p.dispatcher.generation.next s)) :=
    (hf.delivered s).slot handle
  have hnumber : (p.act (.publish s)).dispatcher.generation.number =
      p.dispatcher.generation.number + 1 :=
    congrArg Generation.number (hf.delivered s).generation
  have hissued : issued (acts ++ [.publish s]) = issued acts := issued_append ..
  cases hdue : p.dispatcher.due? (p.dispatcher.generation.next s) handle with
  | none =>
    rw [hdue, Option.toList_none, List.map_nil, List.append_nil] at hnumbers
    rw [Dispatcher.afterTurn_idle hdue] at hslot
    refine ⟨fun hle => ?_, fun slot hs hp => ?_, fun slot hs hp => ?_, ?_⟩
    · rw [hnumbers]
      exact h.unissued (hissued ▸ hle)
    · rw [hnumbers]
      exact h.waiting slot (hslot ▸ hs) hp
    · -- a primed slot is due
      obtain ⟨_, _, _, hfits⟩ := hf.slot handle slot (hslot ▸ hs)
      rw [Dispatcher.due?_eq_some.mpr ⟨hslot ▸ hs, hfits.active, .inl hp⟩] at hdue
      cases hdue
    · rw [hnumbers]
      exact h.steady
  | some slot =>
    obtain ⟨hs, hactive, hready⟩ := Dispatcher.due?_eq_some.mp hdue
    obtain ⟨first, hle, hcalled⟩ := h.called hs
    rw [hdue, Option.toList_some, List.map_singleton, hcalled] at hnumbers
    obtain ⟨_, _, hstands, _⟩ := hf.slot handle slot hs
    refine ⟨fun hge => ?_, fun slot' hs' hp => ?_, fun _ _ _ => ?_, ⟨first, _, hnumbers⟩⟩
    · exact absurd (hissued ▸ hge) (Nat.not_le_of_lt hstands.issued)
    · rw [hslot, hs] at hs'
      cases hs'
      simp only [Slot.afterTurn, hactive, Bool.true_and, Bool.or_eq_false_iff] at hp
      simp [hp.1, hp.2] at hready
    · rw [hnumber]
      exact ⟨first, hle, hnumbers⟩

/-- Whatever is done to a panel that follows its history, it goes on steadily. -/
theorem Follows.foldl_steady (h : Follows acts p) {handle : Nat} (hs : Steady acts p handle)
    (more : List Act) : Steady (acts ++ more) (more.foldl Panel.act p) handle := by
  induction more generalizing acts p with
  | nil => simpa using hs
  | cons x rest ih =>
    rw [List.foldl_cons, ← List.singleton_append, ← List.append_assoc]
    refine ih (h.act x) ?_
    cases x with
    | subscribe r => exact hs.subscribe h r
    | unsubscribe k => exact hs.unsubscribe k
    | publish s => exact hs.publish h s

/-- Exact delivery, for any acts on a panel whose callbacks leave the dispatcher alone. A delivery
calls a handle if and only if its subscription stands and one of its addresses was mentioned since it
was made, the snapshot that is delivered included; the call gives it the generation of all snapshots so
far under its scope, and the calls go in ascending order of the handles, hence to each at most once.
Handles are given out in the order of the subscriptions, nothing but a delivery calls, and the
generations that a handle is called with follow one another without gap or repetition. -/
theorem run_delivers_exactly (acts : List Act) :
    (∀ s, ∃ calls, (run (acts ++ [.publish s])).heard = (run acts).heard ++ calls ∧
      (calls.map Prod.fst).Pairwise (· < ·) ∧
      ∀ handle v, (handle, v) ∈ calls ↔ ∃ r since, Stands acts handle r since ∧
        Reported (since ++ [.publish s]) r.addresses ∧
        v = ⟨.applyAll .empty (snapshots acts ++ [s]), r.scope⟩) ∧
    (∀ r : Subscription,
      (∃ widget, ((run acts).subscribe r.subscriber r.component r.addresses
        (.scripted r.script)).2 = .installed widget (issued acts)) ∧
      (run (acts ++ [.subscribe r])).heard = (run acts).heard) ∧
    (∀ handle, (run (acts ++ [.unsubscribe handle])).heard = (run acts).heard) ∧
    ∀ handle, ∃ first n, (run acts).numbersHeard handle = List.range' first n := by
  have hf := run_follows acts
  refine ⟨fun s => ⟨(run acts).callsAt s, ?_, ?_, hf.mem_callsAt s⟩, fun r => ⟨?_, ?_⟩,
    fun handle => ?_, fun handle => ?_⟩
  · rw [run_append]
    exact hf.publish_heard s
  · exact Dispatcher.calls_ascending _ _
  · rw [← hf.next]
    exact ⟨_, subscribed_reply (run acts) r⟩
  · rw [run_append]
    exact subscribed_heard hf.named r
  · rw [run_append]
    rfl
  · exact (follows_empty.foldl_steady (steady_empty handle) acts).steady

def forgetting (channel : String) : Snapshot := ⟨0, .ofList [(⟨"c", channel⟩, none)]⟩

-- channel A is not mentioned by the first snapshot, and is by the second, as null
example : (run [.subscribe ⟨"widget", none, [⟨"c", "A"⟩], [], fun _ _ h => nomatch h⟩,
    .publish (forgetting "B"), .publish (forgetting "A"), .publish (forgetting "B"),
    .unsubscribe 1, .publish (forgetting "A")]).numbersHeard 1 = [2, 3] := by decide

end ChannelFeed.Panel
