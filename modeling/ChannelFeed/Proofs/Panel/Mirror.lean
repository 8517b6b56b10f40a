import ChannelFeed.Proofs.Panel.Failing

namespace ChannelFeed

/-- The first call in which a callback fails. -/
def Callback.FailsFirst (callback : Callback) (call : Nat) : Prop :=
  0 < call ∧ callback.failsAt call = true ∧
    ∀ earlier, 0 < earlier → earlier < call → callback.failsAt earlier = false

/-- A slot with nothing to tell that its callback has failed. -/
def Slot.roused (slot : Slot) : Slot := { slot with active := true }

namespace Panel

/-- How a subscription fares next to what it would hear if no callback ever failed: it hears the same,
or it has failed and has heard nothing since. -/
inductive Fares (w : Widget) (slot : Option Slot) (ideal heard : List View) : Prop where
  | well (same : heard = ideal) (calls : w.calls = ideal.length)
      (unfailed : ∀ call, 0 < call → call ≤ ideal.length → w.callback.failsAt call = false)
      (active : ∀ s, slot = some s → s.active = true)
  | failed {call : Nat} (first : w.callback.FailsFirst call) (reached : call ≤ ideal.length)
      (cut : heard = ideal.take call)
      (muted : ∀ s, slot = some s → s.active = false ∧ s.primed = true)

/-- What others see of a widget. -/
def seenOf (w : Widget) : Nat × Bool := (w.handle, w.guarded)

open Scene

/-- One run next to the same run with callbacks that do nothing. -/
structure Mirrors (a b : Scene) : Prop where
  ideal : a.Reached
  real : b.Reached
  registry : b.panel.dispatcher.registry = a.panel.dispatcher.registry
  generation : b.panel.dispatcher.generation = a.panel.dispatcher.generation
  attended : b.panel.attended = a.panel.attended
  slots : ∀ k, (b.slot? k).map Slot.roused = a.slot? k
  seen : b.panel.widgets.map seenOf = a.panel.widgets.map seenOf
  silent : ∀ w ∈ a.panel.widgets, w.callback = .scripted []
  mild : b.panel.Mild
  fares : ∀ w ∈ b.panel.widgets,
    Fares w (b.slot? w.handle) (received a.past w.handle) (received b.past w.handle)

section

variable {w : Widget} {slot slot' : Option Slot} {ideal heard : List View}

theorem Fares.called {s : Slot} (h : Fares w (some s) ideal heard) (hactive : s.active = true)
    (v : View) :
    Fares { w with calls := w.calls + 1 }
      (some { s with primed := true, active := !w.callback.failsAt (w.calls + 1) })
      (ideal ++ [v]) (heard ++ [v]) := by
  cases h with
  | failed _ _ _ muted =>
    obtain ⟨hmuted, _⟩ := muted s rfl
    rw [hactive] at hmuted
    cases hmuted
  | well same calls unfailed _ =>
    have hlen : (ideal ++ [v]).length = w.calls + 1 := by
      rw [List.length_append, calls]
      rfl
    have hearlier : ∀ call, 0 < call → call < w.calls + 1 → w.callback.failsAt call = false :=
      fun call hpos hlt => unfailed call hpos (by omega)
    cases hfails : w.callback.failsAt (w.calls + 1) with
    | true =>
      refine .failed ⟨Nat.succ_pos _, hfails, hearlier⟩ (Nat.le_of_eq hlen.symm) ?_ ?_
      · rw [same]
        exact (List.take_of_length_le (Nat.le_of_eq hlen)).symm
      · intro s' hs
        cases hs
        exact ⟨rfl, rfl⟩
    | false =>
      refine .well (by rw [same]) hlen.symm ?_ ?_
      · intro call hpos hle
        rw [hlen] at hle
        rcases Nat.lt_or_eq_of_le hle with hlt | rfl
        · exact hearlier call hpos hlt
        · exact hfails
      · intro s' hs
        cases hs
        rfl

theorem Fares.missed {s : Slot} (h : Fares w (some s) ideal heard) (hmuted : s.active = false)
    (v : View) : Fares w (some s) (ideal ++ [v]) heard := by
  cases h with
  | well _ _ _ active =>
    rw [active s rfl] at hmuted
    cases hmuted
  | failed first reached cut muted =>
    refine .failed first ?_ ?_ muted
    · rw [List.length_append]
      exact Nat.le_add_right_of_le reached
    · rw [List.take_append_of_le_length reached]
      exact cut

theorem Fares.spared (h : Fares w slot ideal heard) {w' : Widget} (hcalls : w'.calls = w.calls)
    (hcallback : w'.callback = w.callback) (hs : ∀ s, slot' = some s → slot = some s) :
    Fares w' slot' ideal heard := by
  cases h with
  | well same calls unfailed active =>
    refine .well same (hcalls.trans calls) ?_ (fun s hs' => active s (hs s hs'))
    rw [hcallback]
    exact unfailed
  | failed first reached cut muted =>
    exact .failed (hcallback ▸ first) reached cut (fun s hs' => muted s (hs s hs'))

theorem Fares.primed {s : Slot} (h : Fares w (some s) ideal heard) (hmuted : s.active = false) :
    s.primed = true := by
  cases h with
  | well _ _ _ active =>
    rw [active s rfl] at hmuted
    cases hmuted
  | failed _ _ _ muted => exact (muted s rfl).2

end

theorem map_modify {β : Type} (proj : Widget → β) (widgets : List Widget) (i : Nat)
    {f : Widget → Widget} {g : β → β} (hf : ∀ w, proj (f w) = g (proj w)) :
    (widgets.modify i f).map proj = (widgets.map proj).modify i g := by
  refine List.ext_getElem? (fun j => ?_)
  rw [List.getElem?_map, List.getElem?_modify, List.getElem?_modify, List.getElem?_map]
  cases widgets[j]? with
  | none => rfl
  | some w =>
    simp only [Option.map_eq_map, Option.map_some]
    split
    · rw [hf]
    · rfl

theorem map_modify_same {β : Type} (proj : Widget → β) (widgets : List Widget) (i : Nat)
    {f : Widget → Widget} (hf : ∀ w, proj (f w) = proj w) :
    (widgets.modify i f).map proj = widgets.map proj :=
  (map_modify proj widgets i (g := id) hf).trans (List.modify_id i _)

theorem mem_modify_same {β : Type} (proj : Widget → β) {widgets : List Widget} {i : Nat}
    {f : Widget → Widget} (hf : ∀ w, proj (f w) = proj w) {w' : Widget}
    (hw : w' ∈ widgets.modify i f) : ∃ w ∈ widgets, proj w = proj w' := by
  have hm := List.mem_map_of_mem (f := proj) hw
  rw [map_modify_same proj widgets i hf] at hm
  exact List.mem_map.mp hm

/-- What holds of the callback of each widget holds after a change that leaves callbacks alone. -/
theorem forall_modify {Q : Callback → Prop} {widgets : List Widget}
    (h : ∀ w ∈ widgets, Q w.callback) (i : Nat) {f : Widget → Widget}
    (hf : ∀ w, (f w).callback = w.callback) : ∀ w ∈ widgets.modify i f, Q w.callback := by
  intro w hw
  obtain ⟨w', hw', hsame⟩ := mem_modify_same Widget.callback hf hw
  exact hsame ▸ h w' hw'

namespace Scene

variable {a b : Scene}

/-- No two widgets have one handle, and each handle was given out. -/
theorem Reached.distinct (h : a.Reached) :
    a.panel.handles.Nodup ∧ ∀ handle ∈ a.panel.handles, handle < a.next := by
  induction h with
  | refl => exact ⟨List.nodup_nil, fun _ hm => nomatch hm⟩
  | @tail b c hb hx ih =>
    obtain ⟨what, hn⟩ := hx
    obtain ⟨hnodup, hissued⟩ := ih
    have hlater : ∀ handle ∈ b.panel.handles, handle < c.next :=
      fun handle hm => Nat.lt_of_lt_of_le (hissued handle hm) hn.next_le
    rw [hn.handles]
    cases hw : what.bind Happening.issued? with
    | none =>
      rw [Option.toList_none, List.append_nil]
      exact ⟨hnodup, hlater⟩
    | some fresh =>
      obtain ⟨w, rfl, hw⟩ := Option.bind_eq_some_iff.mp hw
      cases w with
      | subscribed s handle =>
        cases hw
        obtain ⟨hfresh, hnext⟩ := hn.subscribed
        refine ⟨List.nodup_append.mpr ⟨hnodup, List.pairwise_singleton _ _, ?_⟩, ?_⟩
        · intro x hx y hy
          rw [Option.toList_some, List.mem_singleton] at hy
          have hlt := hissued x hx
          omega
        · intro x hx
          rcases List.mem_append.mp hx with hx | hx
          · exact hlater x hx
          · rw [Option.toList_some, List.mem_singleton] at hx
            omega
      | _ => cases hw

theorem Reached.distinct_at (h : a.Reached) {i j : Nat} {w w' : Widget}
    (hi : a.panel.widgets[i]? = some w) (hj : a.panel.widgets[j]? = some w')
    (hsame : w.handle = w'.handle) : i = j := by
  have hhandle : ∀ {k : Nat} {u : Widget}, a.panel.widgets[k]? = some u →
      a.panel.handles[k]? = some u.handle := by
    intro k u hk
    unfold Panel.handles
    rw [List.getElem?_map, hk]
    rfl
  have hi' := hhandle hi
  refine (List.getElem?_inj (List.getElem?_eq_some_iff.mp hi').1 h.distinct.1).mp ?_
  rw [hi', hhandle hj, hsame]

theorem Reached.unheard (h : a.Reached) {handle : Nat} (hfresh : a.next ≤ handle) :
    received a.past handle = [] := by
  refine List.filterMap_eq_nil_iff.mpr (fun m hm => ?_)
  obtain ⟨i, hi⟩ := List.mem_iff_getElem?.mp hm
  obtain ⟨what, q⟩ := m
  cases what with
  | called delivery k v =>
    have hlt := (h.silences.since i _ delivery k ⟨q, hi⟩ rfl).1
    exact if_neg (by omega)
  | _ => rfl

theorem Reached.present (h : a.Reached) : a.panel.present = true := Leads.present h

end Scene

open Scene

variable {a b : Scene}

theorem idle_turn (run : Panel → Command → Panel × Reply)
    (write : History → Panel → Command → History) {p : Panel} {g : Generation} {handle : Nat}
    (hd : p.dispatcher.due? g handle = none) (delivery : Nat) (past : History) :
    logTurn run write g delivery past p handle = past ∧ deliver run g p handle = p := by
  unfold logTurn deliver
  rw [hd]
  exact ⟨rfl, rfl⟩

/-- Whose turn it is: its slot in the one run, muted or not, and its widget in both. -/
theorem Mirrors.due (h : Mirrors a b) {g : Generation} {handle : Nat} {slot : Slot}
    (hd : a.panel.dispatcher.due? g handle = some slot) :
    ∃ s w u, b.slot? handle = some s ∧ slot = s.roused ∧
      a.panel.widgets[slot.widget]? = some u ∧ b.panel.widgets[s.widget]? = some w ∧
      w.handle = handle := by
  obtain ⟨hs, _, _⟩ := Dispatcher.due?_eq_some.mp hd
  obtain ⟨s, hslot, rfl⟩ := Option.map_eq_some_iff.mp ((h.slots handle).trans hs)
  obtain ⟨u, hu, _⟩ := h.ideal.told.seated.widget hs
  obtain ⟨w, hw, hhandle⟩ := h.real.told.seated.widget hslot
  exact ⟨s, w, u, hslot, rfl, hu, hw, hhandle⟩

theorem Mirrors.not_due (h : Mirrors a b) {g : Generation} {handle : Nat}
    (hd : a.panel.dispatcher.due? g handle = none) : b.panel.dispatcher.due? g handle = none := by
  refine Option.eq_none_iff_forall_ne_some.mpr (fun s hs => ?_)
  obtain ⟨hslot, _, hready⟩ := Dispatcher.due?_eq_some.mp hs
  have hroused : a.slot? handle = some s.roused := by
    rw [← h.slots, show b.slot? handle = some s from hslot]
    rfl
  rw [Dispatcher.due?_eq_some.mpr ⟨hroused, rfl, hready⟩] at hd
  cases hd

theorem Called.seen {handle : Nat} {slot : Slot} {w : Widget} {p q : Panel}
    (h : Called handle slot w p q) : q.widgets.map seenOf = p.widgets.map seenOf := by
  rw [h.widgets]
  exact map_modify_same seenOf p.widgets slot.widget (fun _ => rfl)

section

variable {g : Generation} {handle : Nat} {s : Slot} {w u : Widget} {a' b' : Scene}

/-- A turn in which the callback is called that does nothing, and whatever becomes of the other. -/
theorem Mirrors.called (h : Mirrors a b) (ha : a'.Reached) (hb : b'.Reached)
    (hu : u ∈ a.panel.widgets) (hcall : Called handle s.roused u a.panel a'.panel)
    (hregistry : b'.panel.dispatcher.registry = b.panel.dispatcher.registry)
    (hgeneration : b'.panel.dispatcher.generation = b.panel.dispatcher.generation)
    (hattended : b'.panel.attended = b.panel.attended)
    (hslots : ∀ k, (b'.slot? k).map Slot.roused =
      if k = handle then some { s with primed := true, active := true }
      else (b.slot? k).map Slot.roused)
    (hseen : b'.panel.widgets.map seenOf = b.panel.widgets.map seenOf) (hmild : b'.panel.Mild)
    (hfares : ∀ w ∈ b'.panel.widgets,
      Fares w (b'.slot? w.handle) (received a'.past w.handle) (received b'.past w.handle)) :
    Mirrors a' b' where
  ideal := ha
  real := hb
  registry := hregistry.trans (h.registry.trans hcall.registry.symm)
  generation := hgeneration.trans (h.generation.trans hcall.generation.symm)
  attended := hattended.trans (h.attended.trans hcall.attended.symm)
  slots k := by
    have hunfailing : u.callback.failsAt (u.calls + 1) = false := by
      rw [h.silent u hu]
      rfl
    rw [hslots, h.slots]
    unfold slot?
    rw [hcall.slots, hunfailing]
    rfl
  seen := hseen.trans (h.seen.trans hcall.seen.symm)
  silent := by
    rw [hcall.widgets]
    exact forall_modify (Q := (· = .scripted [])) h.silent _ (fun _ => rfl)
  mild := hmild
  fares := hfares

theorem Mirrors.called_both (h : Mirrors a b) (ha : a'.Reached) (hb : b'.Reached)
    (hs : b.slot? handle = some s) (hactive : s.active = true)
    (hw : b.panel.widgets[s.widget]? = some w) (hhandle : w.handle = handle)
    (hu : u ∈ a.panel.widgets) (hcall : Called handle s.roused u a.panel a'.panel)
    (hcall' : Called handle s w b.panel b'.panel)
    (hheard : ∀ k, received a'.past k =
      received a.past k ++ if k = handle then [⟨g, s.scope⟩] else [])
    (hheard' : ∀ k, received b'.past k =
      received b.past k ++ if k = handle then [⟨g, s.scope⟩] else []) : Mirrors a' b' := by
  have hslot : ∀ k, b'.slot? k = if k = handle then
      some { s with primed := true, active := !w.callback.failsAt (w.calls + 1) }
    else b.slot? k := hcall'.slots
  refine h.called ha hb hu hcall hcall'.registry hcall'.generation hcall'.attended (fun k => ?_)
    hcall'.seen ?_ (fun w' hw' => ?_)
  · rw [hslot]
    split <;> rfl
  · unfold Panel.Mild
    rw [hcall'.widgets]
    exact forall_modify h.mild _ (fun _ => rfl)
  · rw [hcall'.widgets] at hw'
    obtain ⟨j, hj⟩ := List.mem_iff_getElem?.mp hw'
    rw [List.getElem?_modify] at hj
    obtain ⟨before, hbefore, hafter⟩ := Option.map_eq_some_iff.mp hj
    have hfares := h.fares before (List.mem_of_getElem? hbefore)
    split at hafter
    · rename_i hsame
      rw [← hsame, hw] at hbefore
      cases hbefore
      subst hafter hhandle
      rw [hs] at hfares
      rw [hslot, if_pos rfl, hheard, if_pos rfl, hheard', if_pos rfl]
      exact hfares.called hactive _
    · rename_i hother
      have hne : before.handle ≠ handle :=
        fun he => hother (h.real.distinct_at hw hbefore (hhandle.trans he.symm))
      subst hafter
      rw [hslot, if_neg hne, hheard, if_neg hne, hheard', if_neg hne, List.append_nil,
        List.append_nil]
      exact hfares

theorem Mirrors.called_one (h : Mirrors a b) (ha : a'.Reached) {rounds : List Round}
    (hb : { b with rounds }.Reached) (hs : b.slot? handle = some s) (hmuted : s.active = false)
    (hw : w ∈ b.panel.widgets) (hhandle : w.handle = handle) (hu : u ∈ a.panel.widgets)
    (hcall : Called handle s.roused u a.panel a'.panel)
    (hheard : ∀ k, received a'.past k =
      received a.past k ++ if k = handle then [⟨g, s.scope⟩] else []) :
    Mirrors a' { b with rounds } := by
  refine h.called ha hb hu hcall rfl rfl rfl (fun k => ?_) rfl h.mild (fun w' hw' => ?_)
  · have hfares := h.fares w hw
    rw [hhandle, hs] at hfares
    have hprimed := hfares.primed hmuted
    split
    · rename_i hk
      have hat : ({ b with rounds } : Scene).slot? k = some s := hk ▸ hs
      rw [hat]
      cases s
      cases hprimed
      rfl
    · rfl
  · have hfares : Fares w' (b.slot? w'.handle) (received a.past w'.handle)
      (received b.past w'.handle) := h.fares w' hw'
    rw [hheard]
    by_cases hk : w'.handle = handle
    · rw [hk, hs] at hfares
      rw [if_pos hk, hk]
      exact hs ▸ hfares.missed hmuted _
    · rw [if_neg hk, List.append_nil]
      exact hfares

end

theorem Mirrors.turn {past past' : History} {p q : Panel} {began began' : Nat} {g : Generation}
    {handle : Nat} {turns : List Nat} {outer outer' : List Round}
    (h : Mirrors ⟨past, p, ⟨began, g, handle :: turns⟩ :: outer⟩
      ⟨past', q, ⟨began', g, handle :: turns⟩ :: outer'⟩) (fuel fuel' : Nat) :
    Mirrors
      ⟨logTurn (exec fuel) (log fuel) g began past p handle, deliver (exec fuel) g p handle,
        ⟨began, g, turns⟩ :: outer⟩
      ⟨logTurn (exec fuel') (log fuel') g began' past' q handle, deliver (exec fuel') g q handle,
        ⟨began', g, turns⟩ :: outer'⟩ := by
  have hturn : Leads ⟨past, p, ⟨began, g, handle :: turns⟩ :: outer⟩ _ :=
    (exec_runsStepwise fuel).turn past outer h.ideal.present rfl
  have hturn' : Leads ⟨past', q, ⟨began', g, handle :: turns⟩ :: outer'⟩ _ :=
    (exec_runsStepwise fuel').turn past' outer' h.real.present rfl
  have ha := h.ideal.trans hturn
  have hb := h.real.trans hturn'
  cases hd : p.dispatcher.due? g handle with
  | none =>
    obtain ⟨hpast, hpanel⟩ := idle_turn (exec fuel) (log fuel) hd began past
    obtain ⟨hpast', hpanel'⟩ := idle_turn (exec fuel') (log fuel') (h.not_due hd) began'
      past'
    dsimp only at hpast hpanel hpast' hpanel' ha hb
    rw [hpast, hpanel] at ha ⊢
    rw [hpast', hpanel'] at hb ⊢
    exact { h with ideal := ha, real := hb }
  | some slot =>
    obtain ⟨s, w, u, hs, rfl, hu, hw, hhandle⟩ := h.due hd
    have hum := List.mem_of_getElem? hu
    have hwm := List.mem_of_getElem? hw
    have hsilent : u.callback.Mild := by
      rw [h.silent u hum]
      exact fun _ _ hm => nomatch hm
    have hcall := deliver_called (exec_runsQuietly fuel) hd hu hsilent
    have hheard : ∀ k, received (logTurn (exec fuel) (log fuel) g began past p handle) k = _ :=
      logTurn_received (log_writesQuietly fuel) hd hu hsilent began past
    cases hactive : s.active with
    | true =>
      obtain ⟨_, _, hready⟩ := Dispatcher.due?_eq_some.mp hd
      have hd' : q.dispatcher.due? g handle = some s :=
        Dispatcher.due?_eq_some.mpr ⟨hs, hactive, hready⟩
      exact h.called_both ha hb hs hactive hw hhandle hum hcall
        (deliver_called (exec_runsQuietly fuel') hd' hw (h.mild w hwm)) hheard
        (logTurn_received (log_writesQuietly fuel') hd' hw (h.mild w hwm) began' past')
    | false =>
      have hd' : q.dispatcher.due? g handle = none := by
        refine Option.eq_none_iff_forall_ne_some.mpr (fun s' hs' => ?_)
        obtain ⟨hslot, hactive', _⟩ := Dispatcher.due?_eq_some.mp hs'
        rw [show q.dispatcher.slots.get? handle = some s from hs] at hslot
        cases hslot
        rw [hactive] at hactive'
        cases hactive'
      obtain ⟨hpast', hpanel'⟩ := idle_turn (exec fuel') (log fuel') hd' began' past'
      dsimp only at hpast' hpanel' hb
      rw [hpast', hpanel'] at hb ⊢
      exact h.called_one ha hb hs hactive hwm hhandle hum hcall hheard

theorem Mirrors.turns {past past' : History} {p q : Panel} {began began' : Nat} {g : Generation}
    {turns : List Nat} {outer outer' : List Round}
    (h : Mirrors ⟨past, p, ⟨began, g, turns⟩ :: outer⟩ ⟨past', q, ⟨began', g, turns⟩ :: outer'⟩)
    (fuel fuel' : Nat) :
    Mirrors
      ⟨logTurns (exec fuel) (log fuel) g began past p turns, turns.foldl (deliver (exec fuel) g) p,
        ⟨began, g, []⟩ :: outer⟩
      ⟨logTurns (exec fuel') (log fuel') g began' past' q turns,
        turns.foldl (deliver (exec fuel') g) q, ⟨began', g, []⟩ :: outer'⟩ := by
  induction turns generalizing past past' p q with
  | nil => exact h
  | cons handle rest ih => exact ih (h.turn fuel fuel')

theorem Mirrors.keys (h : Mirrors a b) :
    b.panel.dispatcher.slots.keys = a.panel.dispatcher.slots.keys := by
  refine Ascending.eq_of_mem_iff (List.pairwise_map.mpr b.panel.dispatcher.slots.ascending)
    (List.pairwise_map.mpr a.panel.dispatcher.slots.ascending) (fun k => ?_)
  have hk : (b.panel.dispatcher.slots.get? k).map Slot.roused =
      a.panel.dispatcher.slots.get? k := h.slots k
  rw [SortedMap.mem_keys_iff, SortedMap.mem_keys_iff, ← Option.isSome_iff_exists,
    ← Option.isSome_iff_exists, ← hk, Option.isSome_map]

section

variable {past past' : History} {p q : Panel} {rounds rounds' : List Round}

theorem Mirrors.finish {began began' : Nat} {g : Generation}
    (h : Mirrors ⟨past, p, ⟨began, g, []⟩ :: rounds⟩ ⟨past', q, ⟨began', g, []⟩ :: rounds'⟩) :
    Mirrors ⟨past ++ [⟨.delivered began, p⟩], p, rounds⟩
      ⟨past' ++ [⟨.delivered began', q⟩], q, rounds'⟩ := by
  have ha : Next ⟨past, p, ⟨began, g, []⟩ :: rounds⟩ _ _ := .finish rfl rfl
  have hb : Next ⟨past', q, ⟨began', g, []⟩ :: rounds'⟩ _ _ := .finish rfl rfl
  refine { h with ideal := h.ideal.next ha, real := h.real.next hb, fares := fun w hw => ?_ }
  rw [received_other rfl, received_other rfl]
  exact h.fares w hw

theorem Mirrors.publish (h : Mirrors ⟨past, p, rounds⟩ ⟨past', q, rounds'⟩) (g : Generation)
    (fuel fuel' : Nat) :
    Mirrors ⟨logPublish (exec fuel) (log fuel) past p g, publish (exec fuel) p g, rounds⟩
      ⟨logPublish (exec fuel') (log fuel') past' q g, publish (exec fuel') q g, rounds'⟩ := by
  have hkeys : q.dispatcher.slots.keys = p.dispatcher.slots.keys := h.keys
  have ha := h.ideal.next (.begin _ g)
  have hb := h.real.next (.begin _ g)
  dsimp only at ha hb
  rw [hkeys] at hb
  have hbegun : Mirrors ⟨past, p, ⟨past.length, g, p.dispatcher.slots.keys⟩ :: rounds⟩
      ⟨past', q, ⟨past'.length, g, p.dispatcher.slots.keys⟩ :: rounds'⟩ :=
    { h with ideal := ha, real := hb }
  have hturns := (hbegun.turns fuel fuel').finish
  unfold logPublish Panel.publish
  rw [hkeys]
  exact hturns

end

end Panel

end ChannelFeed
