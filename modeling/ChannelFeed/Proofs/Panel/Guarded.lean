import ChannelFeed.Proofs.Panel.Silenced

namespace ChannelFeed

namespace Dispatcher

variable {d : Dispatcher}

/-- A handle is live while a subscriber owns it. -/
def Live (d : Dispatcher) (handle : Nat) : Prop :=
  ∃ subscriber, d.registry.subscriberOf? handle = some subscriber

/-- What is left when the subscription with a handle is taken out, if there is one. -/
structure TakenOut (handle : Nat) (d d' : Dispatcher) : Prop where
  gone : ¬ d'.Live handle
  slots : ∀ k, k ≠ handle → d'.slots.get? k = d.slots.get? k
  entries : ∀ subscriber (e : Entry), e.handle ≠ handle →
    (d'.registry.entries.get? subscriber = some e ↔ d.registry.entries.get? subscriber = some e)

theorem Paired.live_iff (h : d.Paired) (handle : Nat) :
    d.Live handle ↔ ∃ slot, d.slots.get? handle = some slot :=
  (h.live handle).symm.trans SortedMap.mem_keys_iff

theorem unsubscribe_stale {handle : Nat} (ho : d.registry.owners.get? handle = none)
    (hs : d.slots.get? handle = none) : d.unsubscribe handle = (d, false) := by
  unfold unsubscribe Registry.unregister
  simp only [ho, hs]

theorem Paired.stale (h : d.Paired) {handle : Nat} (hstale : ¬ d.Live handle) :
    d.registry.owners.get? handle = none ∧ d.slots.get? handle = none := by
  constructor
  · exact Option.eq_none_iff_forall_ne_some.mpr (fun s hs => hstale ⟨s, hs⟩)
  · exact Option.eq_none_iff_forall_ne_some.mpr
      (fun slot hs => hstale ((h.live_iff handle).mpr ⟨slot, hs⟩))

theorem Paired.unsubscribe_flag (h : d.Paired) (handle : Nat) :
    (d.unsubscribe handle).2 = true ↔ d.Live handle := by
  by_cases hlive : d.Live handle
  · obtain ⟨slot, hs⟩ := (h.live_iff handle).mp hlive
    unfold Dispatcher.unsubscribe
    simp [hs, hlive]
  · obtain ⟨ho, hs⟩ := h.stale hlive
    simp [unsubscribe_stale ho hs, hlive]

theorem Paired.unsubscribe_takenOut (h : d.Paired) (handle : Nat) :
    TakenOut handle d (d.unsubscribe handle).1 where
  gone hlive := by
    obtain ⟨slot, hs⟩ := ((h.unsubscribe handle).live_iff handle).mp hlive
    rw [unsubscribe_get?, if_pos rfl] at hs
    cases hs
  slots k hk := by rw [unsubscribe_get?, if_neg hk]
  entries subscriber e he := by
    rw [unsubscribe_registry, Registry.unregister_entries]
    split
    · rename_i ho
      -- the one entry that goes is under the handle
      obtain ⟨e', he', hhandle⟩ := (h.sound.owned handle subscriber).mp ho
      rw [he']
      refine iff_of_false (by simp) (fun hsame => he ?_)
      rw [← Option.some.inj hsame, hhandle]
    · exact Iff.rfl

/-- Without a live handle nothing is declared and nobody waits. -/
theorem Paired.nothing_live (h : d.Paired) (hnone : ∀ handle, ¬ d.Live handle) :
    d.registry.entries = .empty ∧ d.registry.owners = .empty ∧ d.registry.union = .empty ∧
      d.slots = .empty := by
  have hentries : ∀ subscriber, d.registry.entries.get? subscriber = none := by
    intro subscriber
    refine Option.eq_none_iff_forall_ne_some.mpr (fun e he => ?_)
    exact hnone e.handle ⟨subscriber, (h.sound.owned _ _).mpr ⟨e, he, rfl⟩⟩
  refine ⟨SortedMap.ext_get? hentries, SortedMap.ext_get? (fun k => (h.stale (hnone k)).1), ?_,
    SortedMap.ext_get? (fun k => (h.stale (hnone k)).2)⟩
  refine SortedSet.ext_mem (fun a => iff_of_false (fun ha => ?_) List.not_mem_nil)
  obtain ⟨subscriber, e, he, _⟩ := (h.sound.mem_union a).mp ha
  rw [hentries subscriber] at he
  cases he

end Dispatcher

namespace Panel

/-- Every live handle is that of a guard that is still there. -/
def Held (p : Panel) : Prop :=
  ∀ handle, p.dispatcher.Live handle → ∃ w ∈ p.widgets, w.handle = handle ∧ w.guarded = true

/-- A command that lets go of a guard. -/
def LetsGo (widget : Nat) (command : Command) : Prop :=
  command = .release widget ∨ command = .drop widget

/-- What the guards of a panel stand for, and what letting go of one comes to. -/
structure GuardsHold (p : Panel) : Prop where
  held : p.Held
  /-- Releasing a guard tells whether its handle was live. -/
  released : ∀ widget w, p.widgets[widget]? = some w → w.guarded = true →
    ∃ live, (p.perform (.release widget)).2 = .flag live ∧
      (live = true ↔ p.dispatcher.Live w.handle)
  /-- Letting go of a guard takes out the subscription with its handle and no other. -/
  takesOut : ∀ widget w command, p.widgets[widget]? = some w → w.guarded = true →
    LetsGo widget command →
    p.dispatcher.TakenOut w.handle (p.perform command).1.dispatcher
  /-- If the handle is stale, all is left exactly as it was. -/
  stale : ∀ widget w command, p.widgets[widget]? = some w → LetsGo widget command →
    ¬ p.dispatcher.Live w.handle → (p.perform command).1.dispatcher = p.dispatcher
  /-- A guard can be let go of once. -/
  once : ∀ widget w command, p.widgets[widget]? = some w → w.guarded = false →
    LetsGo widget command → (p.perform command).1 = p
  /-- Once all guards are gone nothing is left. -/
  nothing : (∀ w ∈ p.widgets, w.guarded = false) →
    p.dispatcher.registry.entries = .empty ∧ p.dispatcher.registry.owners = .empty ∧
      p.dispatcher.registry.union = .empty ∧ p.dispatcher.slots = .empty

section

variable {p : Panel} {widget : Nat} {w : Widget} {command : Command}

theorem letGo_guarded (hp : p.present = true) (hw : p.widgets[widget]? = some w)
    (hg : w.guarded = true) : p.letGo widget = some
      ((p.modifyWidget widget (fun w => { w with guarded := false })).unsubscribe w.handle) := by
  have hpresent : (p.modifyWidget widget (fun w => { w with guarded := false })).present = true := hp
  unfold letGo
  simp only [hw, hg, hpresent, if_true]

theorem letGo_unguarded (hw : p.widgets[widget]? = some w) (hg : w.guarded = false) :
    p.letGo widget = none := by
  unfold letGo
  simp [hw, hg]

theorem perform_letsGo (hp : p.present = true) (hw : p.widgets[widget]? = some w)
    (hg : w.guarded = true) (hc : LetsGo widget command) :
    (p.perform command).1.dispatcher = (p.dispatcher.unsubscribe w.handle).1 ∧
      (command = .release widget →
        (p.perform command).2 = .flag (p.dispatcher.unsubscribe w.handle).2) := by
  have hgone := letGo_guarded hp hw hg
  rcases hc with rfl | rfl
  · simp only [perform, exec, hgone]
    exact ⟨rfl, fun _ => rfl⟩
  · simp only [perform, exec, hgone]
    refine ⟨rfl, fun hrelease => ?_⟩
    cases hrelease

theorem perform_letGone (hw : p.widgets[widget]? = some w) (hg : w.guarded = false)
    (hc : LetsGo widget command) : (p.perform command).1 = p := by
  have hgone := letGo_unguarded hw hg
  rcases hc with rfl | rfl
  · simp only [perform, exec, hgone]
  · simp only [perform, exec, hgone]

theorem Held.guardsHold (h : p.Held) (hd : p.dispatcher.Paired) (hp : p.present = true) :
    p.GuardsHold where
  held := h
  released widget w hw hg :=
    ⟨_, (perform_letsGo hp hw hg (.inl rfl)).2 rfl, hd.unsubscribe_flag w.handle⟩
  takesOut widget w command hw hg hc := by
    rw [(perform_letsGo hp hw hg hc).1]
    exact hd.unsubscribe_takenOut w.handle
  stale widget w command hw hc hstale := by
    cases hg : w.guarded with
    | false => rw [perform_letGone hw hg hc]
    | true =>
      obtain ⟨ho, hs⟩ := hd.stale hstale
      rw [(perform_letsGo hp hw hg hc).1, Dispatcher.unsubscribe_stale ho hs]
  once widget w command hw hg hc := perform_letGone hw hg hc
  nothing hnone := by
    refine hd.nothing_live (fun handle hlive => ?_)
    obtain ⟨w, hw, _, hg⟩ := h handle hlive
    rw [hnone w hw] at hg
    cases hg

end

namespace Scene

variable {a b : Scene} {what : Option Happening}

theorem guard_modify {widgets : List Widget} {w : Widget} {i : Nat} (hi : widgets[i]? = some w)
    (hg : w.guarded = true) (widget : Nat) {f : Widget → Widget}
    (hf : widget = i → (f w).handle = w.handle ∧ (f w).guarded = w.guarded) :
    ∃ w' ∈ widgets.modify widget f, w'.handle = w.handle ∧ w'.guarded = true := by
  have hat : (widgets.modify widget f)[i]? = some (if widget = i then f w else w) := by
    rw [List.getElem?_modify, hi]
    rfl
  refine ⟨_, List.mem_of_getElem? hat, ?_⟩
  split
  · rename_i he
    obtain ⟨hhandle, hguarded⟩ := hf he
    exact ⟨hhandle, hguarded.trans hg⟩
  · exact ⟨rfl, hg⟩

/-- A guard stays until it is let go of. -/
theorem Next.guard (h : Next a what b) {w : Widget} (hw : w ∈ a.panel.widgets)
    (hg : w.guarded = true) (hkept : what ≠ some (.letGo w.handle)) :
    ∃ w' ∈ b.panel.widgets, w'.handle = w.handle ∧ w'.guarded = true := by
  obtain ⟨i, hi⟩ := List.mem_iff_getElem?.mp hw
  cases h with
  | subscribe => exact ⟨w, List.mem_append_left _ hw, rfl, hg⟩
  | @letGo widget w' _ _ present held gone =>
    rw [add_panel, letGo_eq present held gone]
    refine guard_modify hi hg widget (fun he => ?_)
    rw [he, hi] at held
    exact absurd (by rw [Option.some.inj held]) hkept
  | @call round outer handle turns slot w' going turn due ready held =>
    have hcalled : (a.panel.startCall slot.widget w' ⟨round.generation, slot.scope⟩).widgets =
        a.panel.widgets.modify slot.widget (fun w => { w with calls := w'.calls + 1 }) := by
      unfold startCall
      dsimp only
      split <;> rfl
    rw [add_panel, hcalled]
    exact guard_modify hi hg slot.widget (fun _ => ⟨rfl, rfl⟩)
  | _ => exact ⟨w, hw, rfl, hg⟩

theorem Next.fresh_guard {subscriber : String} {handle : Nat}
    (h : Next a (some (.subscribed subscriber handle)) b) :
    ∃ w ∈ b.panel.widgets, w.handle = handle ∧ w.guarded = true := by
  cases h with
  | subscribe _ component addresses callback =>
    have hhandle := Dispatcher.install_handle a.panel.dispatcher subscriber component addresses
      a.panel.widgets.length
    exact ⟨_, List.mem_append_right _ List.mem_cons_self, hhandle, rfl⟩

theorem Next.held (ha : a.Reached) (h : Next a what b) (hh : a.panel.Held) : b.panel.Held := by
  have hbefore : ∀ {handle slot}, a.slot? handle = some slot → what ≠ some (.letGo handle) →
      ∃ w ∈ b.panel.widgets, w.handle = handle ∧ w.guarded = true := by
    intro handle slot hs hkept
    obtain ⟨w, hw, rfl, hg⟩ := hh handle ((ha.paired.live_iff handle).mpr ⟨slot, hs⟩)
    exact h.guard hw hg hkept
  intro handle hlive
  obtain ⟨slot, hs⟩ := ((ha.next h).paired.live_iff handle).mp hlive
  have hfate := h.fate ha handle
  generalize hwas : a.slot? handle = before at hfate
  rw [show b.slot? handle = some slot from hs] at hfate
  cases hfate with
  | same goes => exact hbefore hwas (fun he => goes _ he rfl)
  | primed is => exact hbefore hwas (by simp [is])
  | muted is => exact hbefore hwas (by simp [is])
  | made is =>
    subst is
    exact h.fresh_guard

theorem Reached.held (h : a.Reached) : a.panel.Held := by
  induction h with
  | refl =>
    intro handle hlive
    obtain ⟨_, hs⟩ := hlive
    cases hs
  | tail hb hx ih =>
    obtain ⟨_, hn⟩ := hx
    exact hn.held hb ih

theorem Reached.guardsHold (h : a.Reached) : a.panel.GuardsHold :=
  h.held.guardsHold h.paired (Leads.present h)

end Scene

/-- Guards leave nothing behind and take out nothing that is not theirs, whatever is done to a panel
and whatever its callbacks do in the middle of a delivery: this holds after each thing that happens,
and in the end. -/
theorem uses_leak_nothing (uses : List Use) :
    (∀ m ∈ historyOf uses, m.panel.GuardsHold) ∧ (used uses).GuardsHold := by
  have hr := Scene.Reached.uses uses
  exact ⟨hr.moments (fun _ _ _ ha hn => (ha.next hn).guardsHold), hr.guardsHold⟩

-- The second subscription of a subscriber outlives the guard of the first.
example : ((used [.subscribe "s" none [⟨"c", "A"⟩] (.scripted []),
    .subscribe "s" none [⟨"c", "B"⟩] (.scripted []),
    .command (.drop 0)]).perform (.release 1)).2 = .flag true := by decide

end Panel

end ChannelFeed
