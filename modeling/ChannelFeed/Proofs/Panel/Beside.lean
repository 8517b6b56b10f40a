import ChannelFeed.Proofs.Generation.Touched
import ChannelFeed.Proofs.Generation.Values
import ChannelFeed.Proofs.Panel.Decoded
import ChannelFeed.Proofs.Panel.Spared

namespace ChannelFeed

/-- Two snapshots that report the same of some addresses. -/
def Snapshot.Agree (addresses : AddressSet) (s s' : Snapshot) : Prop :=
  ∀ a ∈ addresses, s.values.get? a = s'.values.get? a

/-- Two views that show the same of some addresses. -/
def View.Agree (addresses : AddressSet) (v v' : View) : Prop := ∀ a ∈ addresses, v.get? a = v'.get? a

/-- Two generations that hold the same of some addresses, and were touched at one of them both or
neither. -/
structure Generation.Agree (addresses : AddressSet) (g g' : Generation) : Prop where
  values : ∀ a ∈ addresses, g.get? a = g'.get? a
  touched : g.touchesAny addresses = g'.touchesAny addresses

theorem Generation.Agree.next {addresses : AddressSet} {g g' : Generation} {s s' : Snapshot}
    (h : g.Agree addresses g') (hs : s.Agree addresses s') :
    (g.next s).Agree addresses (g'.next s') where
  values a ha := by rw [next_get?, next_get?, hs a ha, h.values a ha]
  touched := by
    rw [Bool.eq_iff_iff, next_touchesAny, next_touchesAny]
    refine exists_congr (fun a => and_congr_right (fun ha => ?_))
    unfold Snapshot.reports SortedMap.contains
    rw [hs a ha]

/-- The slot of one handle in two runs: none in either, or the same but for what it is scoped to. -/
inductive Slot.Twins (addresses : AddressSet) : Option Slot → Option Slot → Prop where
  | none : Twins addresses none none
  | some {slot : Slot} (scope : Scope) (declared : slot.addresses = addresses) :
      Twins addresses (some slot) (some { slot with scope })

theorem Slot.afterTurn_ready {g : Generation} {slot : Slot} (hactive : slot.active = true)
    (hready : slot.primed = true ∨ g.touchesAny slot.addresses = true) :
    slot.afterTurn g = { slot with primed := true, active := true } := by
  unfold afterTurn
  rw [hactive, Bool.true_and, Bool.or_eq_true_iff.mpr hready]

/-- A command that brings neither a subscription nor a report. -/
def Command.isPlain : Command → Bool
  | subscribe .. => false
  | apply .. => false
  | _ => true

/-- Two commands that do the same for whoever reads only some addresses. -/
inductive Command.Beside (addresses : AddressSet) : Command → Command → Prop where
  | plain {c : Command} (plain : c.isPlain = true) : Beside addresses c c
  | subscribe (subscriber : String) (component component' : Option String)
      (declared declared' : List Address) {script script' : Script} (mild : script.Mild)
      (mild' : script'.Mild) : Beside addresses (.subscribe subscriber component declared script)
        (.subscribe subscriber component' declared' script')
  | apply {s s' : Snapshot} (now : Bool) (agree : s.Agree addresses s') :
      Beside addresses (.apply s now) (.apply s' now)

section

variable {addresses : AddressSet} {g g' : Generation} {slot slot' : Option Slot}

theorem Slot.Twins.afterTurn (h : Twins addresses slot slot') (hg : g.Agree addresses g') :
    Twins addresses (slot.map (Slot.afterTurn g)) (slot'.map (Slot.afterTurn g')) := by
  cases h with
  | none => exact .none
  | @some slot scope declared =>
    have htouches : g'.touchesAny slot.addresses = g.touchesAny slot.addresses := by
      rw [declared, hg.touched]
    have hsame : Slot.afterTurn g' { slot with scope } = { slot.afterTurn g with scope } := by
      simp only [Slot.afterTurn, htouches]
    rw [Option.map_some, Option.map_some, hsame]
    exact .some scope declared

theorem Slot.Twins.filter (h : Twins addresses slot slot') (subscriber : String) :
    Twins addresses (slot.filter (fun s => decide (s.subscriber ≠ subscriber)))
      (slot'.filter (fun s => decide (s.subscriber ≠ subscriber))) := by
  cases h with
  | none => exact .none
  | some scope declared =>
    rw [Option.filter_some, Option.filter_some]
    split
    · exact .some scope declared
    · exact .none

theorem Slot.Twins.called {p p' : Dispatcher} {handle : Nat}
    (h : Twins addresses (p.slots.get? handle) (p'.slots.get? handle))
    (hg : g.Agree addresses g') :
    List.Forall₂ (View.Agree addresses) ((p.call? g handle).map Prod.snd).toList
      ((p'.call? g' handle).map Prod.snd).toList := by
  unfold Dispatcher.call? Dispatcher.due?
  generalize p.slots.get? handle = slot at h ⊢
  generalize p'.slots.get? handle = slot' at h ⊢
  cases h with
  | none => exact .nil
  | @some slot scope declared =>
    have htouches : g'.touchesAny slot.addresses = g.touchesAny slot.addresses := by
      rw [declared, hg.touched]
    rw [Option.filter_some, Option.filter_some, htouches]
    split
    · exact .cons hg.values .nil
    · exact .nil

end

namespace Panel

/-- Two uses that do the same for whoever is told by a decoder. Where both subscribe the decoder, they
declare its addresses, in any order and under any component. -/
inductive Use.Beside (d : Charge.Decoder) : Use → Use → Prop where
  | command {c c' : Command} (beside : c.Beside d.addresses c') : Beside d (.command c) (.command c')
  | subscribe (subscriber : String) (component component' : Option String)
      {declared declared' : List Address} {callback callback' : Callback} (mild : callback.Mild)
      (mild' : callback'.Mild)
      (decodes : callback = .decoded d → callback' = .decoded d →
        SortedSet.ofList declared = d.addresses ∧ SortedSet.ofList declared' = d.addresses) :
      Beside d (.subscribe subscriber component declared callback)
        (.subscribe subscriber component' declared' callback')
  | unsubscribe (handle : Nat) : Beside d (.unsubscribe handle) (.unsubscribe handle)
  | merge {s s' : Snapshot} (agree : s.Agree d.addresses s') : Beside d (.merge s) (.merge s')
  | deliver {g g' : Generation} (agree : g.Agree d.addresses g') : Beside d (.deliver g) (.deliver g')

open Scene

variable {a b c : Scene} {p q : Panel} {past past' : History} {rounds rounds' : List Round}
  {d : Charge.Decoder}

/-- What the turns of some handles come to for subscriptions with decoders. -/
structure Turned (g : Generation) (turns : List Nat) (a b : Scene) : Prop where
  reached : b.Reached
  registry : b.panel.dispatcher.registry = a.panel.dispatcher.registry
  generation : b.panel.dispatcher.generation = a.panel.dispatcher.generation
  attended : b.panel.attended = a.panel.attended
  seen : b.panel.widgets.map seenOf = a.panel.widgets.map seenOf
  roles : b.panel.roles = a.panel.roles
  mild : b.panel.Mild
  slot : ∀ {widget handle : Nat} {d : Charge.Decoder},
    a.panel.roles[widget]? = some (handle, .decoded d) → b.slot? handle =
      if handle ∈ turns then (a.slot? handle).map (Slot.afterTurn g) else a.slot? handle
  heard : ∀ {widget handle : Nat} {d : Charge.Decoder},
    a.panel.roles[widget]? = some (handle, .decoded d) → received b.past handle =
      received a.past handle ++
        if handle ∈ turns then ((a.panel.dispatcher.call? g handle).map Prod.snd).toList else []

section

variable {g : Generation} {handle : Nat} {turns : List Nat}

theorem Called.roles {slot : Slot} {w : Widget} (h : Called handle slot w p q) :
    q.roles = p.roles := by
  unfold Panel.roles
  rw [h.widgets]
  exact map_modify_same (fun w => (w.handle, w.callback)) p.widgets slot.widget (fun _ => rfl)

theorem Called.mild {slot : Slot} {w : Widget} (h : Called handle slot w p q) (hm : p.Mild) :
    q.Mild := by
  unfold Panel.Mild
  rw [h.widgets]
  exact forall_modify hm _ (fun _ => rfl)

theorem Turned.idle (ha : a.Reached) (hm : a.panel.Mild)
    (hd : a.panel.dispatcher.due? g handle = none) : Turned g [handle] a a where
  reached := ha
  registry := rfl
  generation := rfl
  attended := rfl
  seen := rfl
  roles := rfl
  mild := hm
  slot _ := by
    split
    · rename_i hk
      rw [List.mem_singleton.mp hk]
      exact (Dispatcher.afterTurn_idle hd).symm
    · rfl
  heard _ := by
    split
    · rename_i hk
      rw [List.mem_singleton.mp hk, Dispatcher.call?, hd]
      exact (List.append_nil _).symm
    · exact (List.append_nil _).symm

theorem Turned.called {slot : Slot} {w : Widget} (ha : a.Reached) (hb : b.Reached)
    (hm : a.panel.Mild) (hd : a.panel.dispatcher.due? g handle = some slot)
    (hw : a.panel.widgets[slot.widget]? = some w) (hhandle : w.handle = handle)
    (hcall : Called handle slot w a.panel b.panel)
    (hheard : ∀ k, received b.past k =
      received a.past k ++ if k = handle then [⟨g, slot.scope⟩] else []) :
    Turned g [handle] a b where
  reached := hb
  registry := hcall.registry
  generation := hcall.generation
  attended := hcall.attended
  seen := hcall.seen
  roles := hcall.roles
  mild := hcall.mild hm
  slot {widget k d} hrole := by
    obtain ⟨hs, hactive, hready⟩ := Dispatcher.due?_eq_some.mp hd
    refine (hcall.slots k).trans ?_
    simp only [List.mem_singleton]
    split
    · rename_i hk
      subst hk
      -- a decoder does not fail, so its slot stays active
      obtain ⟨w', hw', hhandle', hcallback⟩ := roles_eq_some.mp hrole
      obtain rfl := ha.distinct_at hw' hw (hhandle'.trans hhandle.symm)
      obtain rfl := Option.some.inj (hw'.symm.trans hw)
      have hslot : a.slot? k = some slot := hs
      rw [hslot, hcallback, Option.map_some, Slot.afterTurn_ready hactive hready]
      rfl
    · rfl
  heard {widget k d} hrole := by
    rw [hheard]
    simp only [List.mem_singleton]
    split
    · rename_i hk
      rw [hk, Dispatcher.call?, hd]
      rfl
    · rfl

theorem Turned.cons (h : Turned g [handle] a b) (h' : Turned g turns b c) (hnew : handle ∉ turns) :
    Turned g (handle :: turns) a c where
  reached := h'.reached
  registry := h'.registry.trans h.registry
  generation := h'.generation.trans h.generation
  attended := h'.attended.trans h.attended
  seen := h'.seen.trans h.seen
  roles := h'.roles.trans h.roles
  mild := h'.mild
  slot {widget k d} hrole := by
    rw [h'.slot (h.roles ▸ hrole), h.slot hrole]
    by_cases hk : k = handle
    · subst hk
      simp [hnew]
    · simp [hk]
  heard {widget k d} hrole := by
    rw [h'.heard (h.roles ▸ hrole), h.heard hrole]
    by_cases hk : k = handle
    · subst hk
      simp [hnew]
    · -- its slot is as it was before the turn of the other handle
      have hslot := h.slot hrole
      rw [if_neg (by simpa using hk)] at hslot
      have hsame : b.panel.dispatcher.call? g k = a.panel.dispatcher.call? g k := by
        unfold Dispatcher.call? Dispatcher.due?
        exact congrArg (fun s : Option Slot => (s.filter _).map _) hslot
      simp [hk, hsame]

end

variable {began : Nat} {g : Generation} {handle : Nat} {turns : List Nat} {outer : List Round}

theorem turn_turned (ha : Reached ⟨past, p, ⟨began, g, handle :: turns⟩ :: outer⟩) (hm : p.Mild)
    (fuel : Nat) :
    Turned g [handle] ⟨past, p, ⟨began, g, handle :: turns⟩ :: outer⟩
      ⟨logTurn (exec fuel) (log fuel) g began past p handle, deliver (exec fuel) g p handle,
        ⟨began, g, turns⟩ :: outer⟩ := by
  have hturn : Leads ⟨past, p, ⟨began, g, handle :: turns⟩ :: outer⟩ _ :=
    (exec_runsStepwise fuel).turn past outer ha.present rfl
  have hb := ha.trans hturn
  cases hd : p.dispatcher.due? g handle with
  | none =>
    obtain ⟨hpast, hpanel⟩ := idle_turn (exec fuel) (log fuel) hd began past
    dsimp only at hpast hpanel hb
    rw [hpast, hpanel] at hb ⊢
    exact { Turned.idle ha hm hd with reached := hb }
  | some slot =>
    obtain ⟨hs, _, _⟩ := Dispatcher.due?_eq_some.mp hd
    obtain ⟨w, hw, hhandle⟩ := ha.told.seated.widget hs
    have hmild := hm w (List.mem_of_getElem? hw)
    exact Turned.called ha hb hm hd hw hhandle (deliver_called (exec_runsQuietly fuel) hd hw hmild)
      (logTurn_received (log_writesQuietly fuel) hd hw hmild began past)

theorem turns_turned (ha : Reached ⟨past, p, ⟨began, g, turns⟩ :: outer⟩) (hm : p.Mild)
    (hnodup : turns.Nodup) (fuel : Nat) :
    Turned g turns ⟨past, p, ⟨began, g, turns⟩ :: outer⟩
      ⟨logTurns (exec fuel) (log fuel) g began past p turns, turns.foldl (deliver (exec fuel) g) p,
        ⟨began, g, []⟩ :: outer⟩ := by
  induction turns generalizing past p with
  | nil =>
    exact
      { reached := ha
        registry := rfl
        generation := rfl
        attended := rfl
        seen := rfl
        roles := rfl
        mild := hm
        slot := fun _ => rfl
        heard := fun _ => (List.append_nil _).symm }
  | cons handle rest ih =>
    obtain ⟨hnew, hrest⟩ := List.nodup_cons.mp hnodup
    have hturn := turn_turned ha hm fuel
    exact hturn.cons (ih hturn.reached hturn.mild hrest) hnew

theorem publish_turned (ha : Reached ⟨past, p, rounds⟩) (hm : p.Mild) (g : Generation) (fuel : Nat) :
    Turned g p.dispatcher.slots.keys ⟨past, p, rounds⟩
      ⟨logPublish (exec fuel) (log fuel) past p g, publish (exec fuel) p g, rounds⟩ := by
  have hbegun := ha.next (.begin _ g)
  have hturns := turns_turned hbegun hm p.dispatcher.slots.keys_nodup fuel
  have hfinish : Next ⟨logTurns (exec fuel) (log fuel) g past.length past p
      p.dispatcher.slots.keys, Panel.publish (exec fuel) p g, ⟨past.length, g, []⟩ :: rounds⟩ _ _ :=
    .finish rfl rfl
  refine { hturns with reached := hturns.reached.next hfinish, heard := fun hrole => ?_ }
  exact (received_other rfl _ _ _).trans (hturns.heard hrole)

theorem Turned.delivered (h : Turned g a.panel.dispatcher.slots.keys a b) {widget : Nat}
    (hrole : a.panel.roles[widget]? = some (handle, .decoded d)) :
    b.slot? handle = (a.slot? handle).map (Slot.afterTurn g) ∧
      received b.past handle = received a.past handle ++
        ((a.panel.dispatcher.call? g handle).map Prod.snd).toList := by
  rw [h.slot hrole, h.heard hrole]
  split
  · exact ⟨rfl, rfl⟩
  · rename_i hk
    have hnone : a.panel.dispatcher.slots.get? handle = none :=
      Option.eq_none_iff_forall_ne_some.mpr (fun _ hs => hk (SortedMap.mem_keys hs))
    unfold slot? Dispatcher.call? Dispatcher.due?
    rw [hnone]
    exact ⟨rfl, rfl⟩

/-- A subscription with a decoder is the same in two runs, but for what it is scoped to. -/
structure Twins (d : Charge.Decoder) (handle : Nat) (a b : Scene) : Prop where
  slot : Slot.Twins d.addresses (a.slot? handle) (b.slot? handle)
  heard : List.Forall₂ (View.Agree d.addresses) (received a.past handle) (received b.past handle)

/-- Two runs that are the same for the subscriptions with a decoder that they both have. -/
structure Beside (d : Charge.Decoder) (a b : Scene) : Prop where
  left : a.Reached
  right : b.Reached
  mild : a.panel.Mild
  mild' : b.panel.Mild
  next : b.next = a.next
  attended : b.panel.attended = a.panel.attended
  seen : b.panel.widgets.map seenOf = a.panel.widgets.map seenOf
  generation : a.panel.dispatcher.generation.Agree d.addresses b.panel.dispatcher.generation
  twins : ∀ {widget handle : Nat}, a.panel.roles[widget]? = some (handle, .decoded d) →
    b.panel.roles[widget]? = some (handle, .decoded d) → Twins d handle a b

theorem Twins.delivered {a' b' : Scene} {g' : Generation} (h : Twins d handle a b)
    (hg : g.Agree d.addresses g')
    (hslot : a'.slot? handle = (a.slot? handle).map (Slot.afterTurn g))
    (hslot' : b'.slot? handle = (b.slot? handle).map (Slot.afterTurn g'))
    (hheard : received a'.past handle = received a.past handle ++
      ((a.panel.dispatcher.call? g handle).map Prod.snd).toList)
    (hheard' : received b'.past handle = received b.past handle ++
      ((b.panel.dispatcher.call? g' handle).map Prod.snd).toList) : Twins d handle a' b' where
  slot := by
    rw [hslot, hslot']
    exact h.slot.afterTurn hg
  heard := by
    rw [hheard, hheard']
    exact List.rel_append h.heard (h.slot.called hg)

theorem Beside.publish {g' : Generation} (h : Beside d ⟨past, p, rounds⟩ ⟨past', q, rounds'⟩)
    (hg : g.Agree d.addresses g') (fuel fuel' : Nat) :
    Beside d ⟨logPublish (exec fuel) (log fuel) past p g, publish (exec fuel) p g, rounds⟩
      ⟨logPublish (exec fuel') (log fuel') past' q g', publish (exec fuel') q g', rounds'⟩ := by
  have hleft := publish_turned h.left h.mild g fuel
  have hright := publish_turned h.right h.mild' g' fuel'
  exact
    { left := hleft.reached
      right := hright.reached
      mild := hleft.mild
      mild' := hright.mild
      next := by
        unfold Scene.next
        rw [hleft.registry, hright.registry]
        exact h.next
      attended := hright.attended.trans (h.attended.trans hleft.attended.symm)
      seen := hright.seen.trans (h.seen.trans hleft.seen.symm)
      generation := by
        rw [hleft.generation, hright.generation]
        exact h.generation
      twins := fun hrole hrole' => by
        rw [hleft.roles] at hrole
        rw [hright.roles] at hrole'
        obtain ⟨hslot, hheard⟩ := hleft.delivered hrole
        obtain ⟨hslot', hheard'⟩ := hright.delivered hrole'
        exact (h.twins hrole hrole').delivered hg hslot hslot' hheard hheard' }

theorem Beside.takenOut {a' b' : Scene} (h : Beside d a b) (handle : Nat) (ha : a'.Reached)
    (hb : b'.Reached) (hd : a'.panel.dispatcher = (a.panel.dispatcher.unsubscribe handle).1)
    (hd' : b'.panel.dispatcher = (b.panel.dispatcher.unsubscribe handle).1)
    (hattended : b'.panel.attended = a'.panel.attended)
    (hseen : b'.panel.widgets.map seenOf = a'.panel.widgets.map seenOf)
    (hmild : a'.panel.Mild) (hmild' : b'.panel.Mild) (hroles : a'.panel.roles = a.panel.roles)
    (hroles' : b'.panel.roles = b.panel.roles)
    (hheard : ∀ k, received a'.past k = received a.past k)
    (hheard' : ∀ k, received b'.past k = received b.past k) : Beside d a' b' where
  left := ha
  right := hb
  mild := hmild
  mild' := hmild'
  next := by
    unfold Scene.next
    rw [hd, hd', Dispatcher.unsubscribe_registry, Dispatcher.unsubscribe_registry,
      Registry.unregister_nextHandle, Registry.unregister_nextHandle]
    exact h.next
  attended := hattended
  seen := hseen
  generation := by
    rw [hd, hd', unsubscribe_generation, unsubscribe_generation]
    exact h.generation
  twins {widget k} hrole hrole' := by
    have ht := h.twins (hroles ▸ hrole) (hroles' ▸ hrole')
    refine ⟨?_, by rw [hheard, hheard']; exact ht.heard⟩
    unfold slot?
    rw [hd, hd', Dispatcher.unsubscribe_get?, Dispatcher.unsubscribe_get?]
    split
    · exact .none
    · exact ht.slot

theorem Beside.unsubscribe (h : Beside d ⟨past, p, rounds⟩ ⟨past', q, rounds'⟩) (handle : Nat) :
    Beside d ⟨logUnsubscribe past p handle, (p.unsubscribe handle).1, rounds⟩
      ⟨logUnsubscribe past' q handle, (q.unsubscribe handle).1, rounds'⟩ :=
  h.takenOut handle (h.left.next (.unsubscribe _ handle)) (h.right.next (.unsubscribe _ handle))
    rfl rfl h.attended h.seen h.mild h.mild' rfl rfl (fun _ => received_other rfl _ _ _)
    (fun _ => received_other rfl _ _ _)

theorem Beside.letGone {widget : Nat} {u w : Widget}
    (h : Beside d ⟨past, p, rounds⟩ ⟨past', q, rounds'⟩) (hu : p.widgets[widget]? = some u)
    (hw : q.widgets[widget]? = some w) (hg : u.guarded = true) (hsame : seenOf w = seenOf u) :
    Beside d ⟨past ++ [⟨.letGo u.handle, p.letGone widget u⟩], p.letGone widget u, rounds⟩
      ⟨past' ++ [⟨.letGo w.handle, q.letGone widget w⟩], q.letGone widget w, rounds'⟩ := by
  obtain ⟨hhandle, hguarded⟩ := Prod.mk.inj hsame
  have ha : Next ⟨past, p, rounds⟩ _ _ :=
    .letGo h.left.present hu (letGo_guarded h.left.present hu hg)
  have hb : Next ⟨past', q, rounds'⟩ _ _ :=
    .letGo h.right.present hw (letGo_guarded h.right.present hw (hguarded.trans hg))
  refine h.takenOut u.handle (h.left.next ha) (h.right.next hb) rfl ?_ h.attended ?_
    (forall_modify h.mild _ (fun _ => rfl)) (forall_modify h.mild' _ (fun _ => rfl))
    (modifyWidget_roles p widget (fun _ => rfl) (fun _ => rfl))
    (modifyWidget_roles q widget (fun _ => rfl) (fun _ => rfl))
    (fun _ => received_other rfl _ _ _) (fun _ => received_other rfl _ _ _)
  · rw [← hhandle]
    rfl
  · refine (q.letGone_seen widget w).trans (Eq.trans ?_ (p.letGone_seen widget u).symm)
    exact congrArg (List.modify · widget _) h.seen

theorem Beside.seen_at (h : Beside d a b) (widget : Nat) :
    (b.panel.widgets[widget]?).map seenOf = (a.panel.widgets[widget]?).map seenOf := by
  rw [← List.getElem?_map, ← List.getElem?_map, h.seen]

theorem Beside.length (h : Beside d a b) : b.panel.widgets.length = a.panel.widgets.length := by
  have hseen := congrArg List.length h.seen
  rwa [List.length_map, List.length_map] at hseen

theorem Beside.letGo (h : Beside d ⟨past, p, rounds⟩ ⟨past', q, rounds'⟩) (widget : Nat)
    {f : Bool → Reply} {r : Reply} :
    Beside d
      ⟨logLetGo past p widget, (match p.letGo widget with
        | some (p', live) => (p', f live)
        | none => (p, r)).1, rounds⟩
      ⟨logLetGo past' q widget, (match q.letGo widget with
        | some (q', live) => (q', f live)
        | none => (q, r)).1, rounds'⟩ := by
  rcases letGo_together h.left.present h.right.present (h.seen_at widget) past past' with
    ⟨hgone, hlog, hgone', hlog'⟩ | ⟨u, w, hu, hw, hg, hsame, hgone, hlog, hgone', hlog'⟩
  · dsimp only at hgone hgone' hlog hlog'
    rw [hgone, hlog, hgone', hlog']
    exact h
  · dsimp only at hu hw hgone hgone' hlog hlog'
    rw [hgone, hlog, hgone', hlog']
    exact h.letGone hu hw hg hsame

theorem subscribe_roles (p : Panel) (subscriber : String) (component : Option String)
    (declared : List Address) (callback : Callback) :
    (p.subscribe subscriber component declared callback).1.roles =
      p.roles ++ [(p.dispatcher.registry.nextHandle, callback)] := by
  unfold roles
  rw [subscribe_widgets, List.map_append]
  rfl

theorem subscribe_mild (hm : p.Mild) (subscriber : String) (component : Option String)
    (declared : List Address) {callback : Callback} (hc : callback.Mild) :
    (p.subscribe subscriber component declared callback).1.Mild := by
  intro w hw
  rw [subscribe_widgets, List.mem_append, List.mem_singleton] at hw
  rcases hw with hw | rfl
  · exact hm w hw
  · exact hc

theorem subscribe_next (p : Panel) (subscriber : String) (component : Option String)
    (declared : List Address) (callback : Callback) :
    (p.subscribe subscriber component declared callback).1.dispatcher.registry.nextHandle =
      p.dispatcher.registry.nextHandle + 1 := by
  refine (congrArg Registry.nextHandle (Dispatcher.install_registry ..)).trans ?_
  rw [Registry.register_eq, Registry.insert_nextHandle]

section

variable (subscriber : String) (component component' : Option String)
  {declared declared' : List Address} {callback callback' : Callback}

theorem Beside.subscribed_fresh (h : Beside d a b) (hset : SortedSet.ofList declared = d.addresses)
    (hset' : SortedSet.ofList declared' = d.addresses) {widget widget' : Nat}
    (hw : widget' = widget) :
    Slot.Twins d.addresses
      ((a.panel.dispatcher.install subscriber component declared widget).1.slots.get? a.next)
      ((b.panel.dispatcher.install subscriber component' declared' widget').1.slots.get? a.next) := by
  have hempty : declared'.isEmpty = declared.isEmpty := by
    rw [← SortedSet.isEmpty_ofList, ← SortedSet.isEmpty_ofList, hset, hset']
  have hnext : a.next = b.panel.dispatcher.registry.nextHandle := h.next.symm
  rw [Dispatcher.install_get? h.left.paired.sound, Dispatcher.install_get? h.right.paired.sound,
    hempty]
  cases hd : declared.isEmpty with
  | true =>
    have hfresh : a.panel.dispatcher.slots.get? a.next = none :=
      Option.eq_none_iff_forall_ne_some.mpr
        (fun _ hs => Nat.lt_irrefl _ (h.left.slot_issued hs))
    have hfresh' : b.panel.dispatcher.slots.get? a.next = none :=
      Option.eq_none_iff_forall_ne_some.mpr
        (fun _ hs => Nat.lt_irrefl _ (Nat.lt_of_lt_of_eq (h.right.slot_issued hs) h.next))
    rw [if_neg (fun he => nomatch he.2), if_neg (fun he => nomatch he.2), hfresh, hfresh']
    exact .none
  | false =>
    rw [if_pos ⟨rfl, rfl⟩, if_pos ⟨hnext, rfl⟩, hset, hset', hw]
    refine .some _ ?_
    rfl

theorem Beside.subscribed_other (h : Beside d a b) {handle : Nat} (hissued : handle < a.next)
    (hslot : Slot.Twins d.addresses (a.slot? handle) (b.slot? handle)) (widget widget' : Nat) :
    Slot.Twins d.addresses
      ((a.panel.dispatcher.install subscriber component declared widget).1.slots.get? handle)
      ((b.panel.dispatcher.install subscriber component' declared' widget').1.slots.get? handle) := by
  have hissued' : handle < b.next := h.next ▸ hissued
  rw [Dispatcher.install_get? h.left.paired.sound, Dispatcher.install_get? h.right.paired.sound,
    if_neg (fun he => Nat.ne_of_lt hissued he.1), if_neg (fun he => Nat.ne_of_lt hissued' he.1)]
  exact hslot.filter subscriber

/-- A widget with the decoder in both runs was there already or has come with the subscription. -/
theorem Beside.subscribed_role (h : Beside d a b) {widget handle : Nat}
    (hrole : (a.panel.roles ++ [(a.next, callback)])[widget]? = some (handle, .decoded d))
    (hrole' : (b.panel.roles ++ [(b.next, callback')])[widget]? = some (handle, .decoded d)) :
    (handle < a.next ∧ Twins d handle a b) ∨
      (handle = a.next ∧ callback = .decoded d ∧ callback' = .decoded d) := by
  have hlen : b.panel.roles.length = a.panel.roles.length := by
    simpa [roles] using h.length
  rw [List.getElem?_append] at hrole hrole'
  rw [hlen] at hrole'
  split at hrole
  · rename_i hold
    rw [if_pos hold] at hrole'
    obtain ⟨w, hw, rfl, _⟩ := roles_eq_some.mp hrole
    have hissued := h.left.distinct.2 w.handle (List.mem_map_of_mem (List.mem_of_getElem? hw))
    exact .inl ⟨hissued, h.twins hrole hrole'⟩
  · rename_i hnew
    rw [if_neg hnew, List.getElem?_singleton] at hrole'
    rw [List.getElem?_singleton] at hrole
    split at hrole
    · rename_i hat
      rw [if_pos hat] at hrole'
      obtain ⟨hhandle, hcallback⟩ := Prod.mk.inj (Option.some.inj hrole)
      obtain ⟨_, hcallback'⟩ := Prod.mk.inj (Option.some.inj hrole')
      exact .inr ⟨hhandle.symm, hcallback, hcallback'⟩
    · cases hrole

theorem Beside.subscribe (h : Beside d ⟨past, p, rounds⟩ ⟨past', q, rounds'⟩)
    (hm : callback.Mild) (hm' : callback'.Mild)
    (hd : callback = .decoded d → callback' = .decoded d →
      SortedSet.ofList declared = d.addresses ∧ SortedSet.ofList declared' = d.addresses) :
    Beside d
      ⟨logSubscribe past p subscriber component declared callback,
        (p.subscribe subscriber component declared callback).1, rounds⟩
      ⟨logSubscribe past' q subscriber component' declared' callback',
        (q.subscribe subscriber component' declared' callback').1, rounds'⟩ := by
  have hnext : q.dispatcher.registry.nextHandle = p.dispatcher.registry.nextHandle := h.next
  refine
    { left := h.left.next (.subscribe _ subscriber component declared callback)
      right := h.right.next (.subscribe _ subscriber component' declared' callback')
      mild := subscribe_mild h.mild subscriber component declared hm
      mild' := subscribe_mild h.mild' subscriber component' declared' hm'
      next := ?_
      attended := h.attended
      seen := ?_
      generation := h.generation
      twins := fun hrole hrole' => ?_ }
  · refine (subscribe_next ..).trans (Eq.trans ?_ (subscribe_next ..).symm)
    rw [hnext]
  · rw [subscribe_widgets, subscribe_widgets, List.map_append, List.map_append, hnext]
    exact congrArg (· ++ _) h.seen
  · rw [subscribe_roles] at hrole hrole'
    unfold logSubscribe
    rcases h.subscribed_role hrole hrole' with ⟨hissued, ht⟩ | ⟨rfl, hc, hc'⟩
    · refine ⟨h.subscribed_other subscriber component component' hissued ht.slot _ _, ?_⟩
      rw [received_other rfl, received_other rfl]
      exact ht.heard
    · obtain ⟨hset, hset'⟩ := hd hc hc'
      refine ⟨h.subscribed_fresh subscriber component component' hset hset' h.length, ?_⟩
      have hheard : received past p.dispatcher.registry.nextHandle = [] :=
        h.left.unheard (Nat.le_refl _)
      have hheard' : received past' p.dispatcher.registry.nextHandle = [] :=
        h.right.unheard (Nat.le_of_eq hnext)
      rw [received_other rfl, received_other rfl]
      unfold Scene.next
      rw [hheard, hheard']
      exact .nil

end

theorem Beside.merge {s s' : Snapshot} (h : Beside d ⟨past, p, rounds⟩ ⟨past', q, rounds'⟩)
    (hs : s.Agree d.addresses s') :
    Beside d ⟨past, p.merge s, rounds⟩ ⟨past', q.merge s', rounds'⟩ :=
  { h with
    left := h.left.next (.merge _ s)
    right := h.right.next (.merge _ s')
    generation := h.generation.next hs
    twins := fun hrole hrole' =>
      { slot := (h.twins hrole hrole').slot
        heard := (h.twins hrole hrole').heard } }

theorem Beside.unattend (h : Beside d ⟨past, p, rounds⟩ ⟨past', q, rounds'⟩) :
    Beside d ⟨past, p.unattend, rounds⟩ ⟨past', q.unattend, rounds'⟩ :=
  { h with
    left := h.left.next (.unattend _)
    right := h.right.next (.unattend _)
    attended := rfl
    twins := fun hrole hrole' =>
      { slot := (h.twins hrole hrole').slot
        heard := (h.twins hrole hrole').heard } }

theorem Beside.exec (h : Beside d ⟨past, p, rounds⟩ ⟨past', q, rounds'⟩) {c c' : Command}
    (hc : c.Beside d.addresses c') (fuel fuel' : Nat) :
    Beside d ⟨log (fuel + 1) past p c, (Panel.exec (fuel + 1) p c).1, rounds⟩
      ⟨log (fuel' + 1) past' q c', (Panel.exec (fuel' + 1) q c').1, rounds'⟩ := by
  have hattended : q.attended = p.attended := h.attended
  cases hc with
  | subscribe subscriber component component' declared declared' mild mild' =>
    simp only [Panel.exec, log, hattended]
    split
    · exact h
    · refine h.subscribe subscriber component component' mild mild' (fun he => ?_)
      cases he
  | apply now agree =>
    simp only [Panel.exec, log, hattended]
    split
    · exact h
    · have hmerged := h.merge agree
      split
      · exact hmerged.publish hmerged.generation fuel fuel'
      · exact hmerged
  | plain plain =>
    cases c with
    | subscribe | apply => cases plain
    | release widget => exact h.letGo widget
    | drop widget => exact h.letGo widget
    | refuse fault => exact h
    | unsubscribe widget =>
      simp only [Panel.exec, log, hattended]
      split
      · exact h
      · have hseen : (q.widgets[widget]?).map seenOf = (p.widgets[widget]?).map seenOf :=
          h.seen_at widget
        cases hu : p.widgets[widget]? with
        | none =>
          rw [hu, Option.map_none, Option.map_eq_none_iff] at hseen
          rw [hseen]
          exact h
        | some u =>
          rw [hu, Option.map_some, Option.map_eq_some_iff] at hseen
          obtain ⟨w, hw, hsame⟩ := hseen
          have hhandle : w.handle = u.handle := congrArg Prod.fst hsame
          rw [hw]
          dsimp only
          rw [hhandle]
          exact h.unsubscribe u.handle
    | republish =>
      simp only [Panel.exec, log, hattended]
      split
      · exact h
      · exact h.publish h.generation fuel fuel'
    | retire =>
      simp only [Panel.exec, log, hattended]
      split
      · exact h
      · exact h.unattend
    | view | panic =>
      simp only [Panel.exec, log, hattended]
      split <;> exact h

theorem Beside.use {x x' : Use} (h : Beside d ⟨past, p, rounds⟩ ⟨past', q, rounds'⟩)
    (hx : x.Beside d x') :
    Beside d ⟨logUse past p x, p.use x, rounds⟩ ⟨logUse past' q x', q.use x', rounds'⟩ := by
  cases hx with
  | command beside => exact h.exec beside _ _
  | subscribe subscriber component component' mild mild' decodes =>
    exact h.subscribe subscriber component component' mild mild' decodes
  | unsubscribe handle => exact h.unsubscribe handle
  | merge agree => exact h.merge agree
  | deliver agree => exact h.publish agree _ _

theorem Beside.uses {uses uses' : List Use} (hu : List.Forall₂ (Use.Beside d) uses uses')
    (h : Beside d ⟨past, p, rounds⟩ ⟨past', q, rounds'⟩) :
    Beside d
      ⟨(uses.foldl (fun (past, p) x => (logUse past p x, p.use x)) (past, p)).1,
        uses.foldl Panel.use p, rounds⟩
      ⟨(uses'.foldl (fun (past, p) x => (logUse past p x, p.use x)) (past', q)).1,
        uses'.foldl Panel.use q, rounds'⟩ := by
  induction hu generalizing past past' p q with
  | nil => exact h
  | cons hx _ ih => exact ih (h.use hx)

theorem uses_beside {uses uses' : List Use} (hu : List.Forall₂ (Use.Beside d) uses uses') :
    Beside d ⟨historyOf uses, used uses, []⟩ ⟨historyOf uses', used uses', []⟩ := by
  have hstart : Beside d start start :=
    { left := .refl
      right := .refl
      mild := fun _ hw => nomatch hw
      mild' := fun _ hw => nomatch hw
      next := rfl
      attended := rfl
      seen := rfl
      generation := ⟨fun _ _ => rfl, rfl⟩
      twins := fun hrole => by simp [start, roles, Panel.empty] at hrole }
  exact hstart.uses hu

/-- A subscriber with a decoder receives views in both runs that show the same of what it declares. -/
theorem Beside.heard (h : Beside d a b) {widget handle handle' : Nat}
    (hrole : a.panel.roles[widget]? = some (handle, .decoded d))
    (hrole' : b.panel.roles[widget]? = some (handle', .decoded d)) :
    List.Forall₂ (View.Agree d.addresses) (received a.past handle) (received b.past handle') := by
  obtain ⟨u, hu, hhandle, _⟩ := roles_eq_some.mp hrole
  obtain ⟨w, hw, hhandle', _⟩ := roles_eq_some.mp hrole'
  have hseen := h.seen_at widget
  rw [hu, hw, Option.map_some, Option.map_some] at hseen
  obtain rfl : handle' = handle := by
    rw [← hhandle, ← hhandle']
    exact congrArg Prod.fst (Option.some.inj hseen)
  exact (h.twins hrole hrole').heard

end Panel

end ChannelFeed
