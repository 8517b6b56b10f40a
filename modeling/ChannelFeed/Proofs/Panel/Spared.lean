import ChannelFeed.Proofs.Panel.Exact
import ChannelFeed.Proofs.Panel.Guarded
import ChannelFeed.Proofs.Panel.Mirror

namespace ChannelFeed

/-- A command without the script that a subscription brings. -/
def Command.silenced : Command → Command
  | subscribe subscriber component addresses _ => subscribe subscriber component addresses []
  | command => command

/-- A command whose subscription, if it makes one, leaves the dispatcher alone, though it may fail. -/
def Command.Mild : Command → Prop
  | subscribe _ _ _ script => Script.Mild script
  | _ => True

namespace Panel

def Use.silenced : Use → Use
  | command c => command c.silenced
  | subscribe subscriber component addresses _ =>
    subscribe subscriber component addresses (.scripted [])
  | x => x

def Use.Mild : Use → Prop
  | command c => c.Mild
  | subscribe _ _ _ callback => callback.Mild
  | _ => True

def answer (p : Panel) : Use → Reply
  | .command c => (p.perform c).2
  | .subscribe subscriber component addresses callback =>
    (p.subscribe subscriber component addresses callback).2
  | .unsubscribe handle => .flag (p.unsubscribe handle).2
  | .merge _ => .nothing
  | .deliver _ => .nothing

def answers : Panel → List Use → List Reply
  | _, [] => []
  | p, x :: rest => p.answer x :: answers (p.use x) rest

open Scene

variable {a b : Scene}

section

variable {past past' : History} {p q : Panel} {rounds rounds' : List Round}

theorem Mirrors.flag (h : Mirrors a b) (handle : Nat) :
    (b.panel.dispatcher.unsubscribe handle).2 = (a.panel.dispatcher.unsubscribe handle).2 := by
  rw [Bool.eq_iff_iff, h.real.paired.unsubscribe_flag, h.ideal.paired.unsubscribe_flag]
  unfold Dispatcher.Live
  rw [h.registry]

theorem Mirrors.takenOut {a' b' : Scene} (h : Mirrors a b) (handle : Nat) (ha : a'.Reached)
    (hb : b'.Reached) (hd : a'.panel.dispatcher = (a.panel.dispatcher.unsubscribe handle).1)
    (hd' : b'.panel.dispatcher = (b.panel.dispatcher.unsubscribe handle).1)
    (hattended : b'.panel.attended = a'.panel.attended)
    (hseen : b'.panel.widgets.map seenOf = a'.panel.widgets.map seenOf)
    (hsilent : ∀ w ∈ a'.panel.widgets, w.callback = .scripted [])
    (hwidgets : ∀ w' ∈ b'.panel.widgets, ∃ w ∈ b.panel.widgets,
      w'.handle = w.handle ∧ w'.calls = w.calls ∧ w'.callback = w.callback)
    (hheard : ∀ k, received a'.past k = received a.past k)
    (hheard' : ∀ k, received b'.past k = received b.past k) : Mirrors a' b' where
  ideal := ha
  real := hb
  registry := by
    rw [hd, hd', Dispatcher.unsubscribe_registry, Dispatcher.unsubscribe_registry, h.registry]
  generation := by
    rw [hd, hd', unsubscribe_generation, unsubscribe_generation, h.generation]
  attended := hattended
  slots k := by
    unfold slot?
    rw [hd, hd', Dispatcher.unsubscribe_get?, Dispatcher.unsubscribe_get?]
    split
    · rfl
    · exact h.slots k
  seen := hseen
  silent := hsilent
  mild w' hw' := by
    obtain ⟨w, hw, _, _, hcallback⟩ := hwidgets w' hw'
    exact hcallback ▸ h.mild w hw
  fares w' hw' := by
    obtain ⟨w, hw, hhandle, hcalls, hcallback⟩ := hwidgets w' hw'
    rw [hheard, hheard', hhandle]
    refine (h.fares w hw).spared hcalls hcallback (fun s hs => ?_)
    unfold slot? at hs ⊢
    rw [hd', Dispatcher.unsubscribe_get?] at hs
    split at hs
    · cases hs
    · exact hs

theorem Mirrors.unsubscribe (h : Mirrors ⟨past, p, rounds⟩ ⟨past', q, rounds'⟩) (handle : Nat) :
    Mirrors ⟨logUnsubscribe past p handle, (p.unsubscribe handle).1, rounds⟩
      ⟨logUnsubscribe past' q handle, (q.unsubscribe handle).1, rounds'⟩ :=
  h.takenOut handle (h.ideal.next (.unsubscribe _ handle))
    (h.real.next (.unsubscribe _ handle)) rfl rfl h.attended h.seen h.silent
    (fun w hw => ⟨w, hw, rfl, rfl, rfl⟩) (fun _ => received_other rfl _ _ _)
    (fun _ => received_other rfl _ _ _)

theorem Mirrors.seen_at (h : Mirrors a b) (widget : Nat) :
    (b.panel.widgets[widget]?).map seenOf = (a.panel.widgets[widget]?).map seenOf := by
  rw [← List.getElem?_map, ← List.getElem?_map, h.seen]

/-- The panel once a guard was let go of. -/
abbrev letGone (p : Panel) (widget : Nat) (w : Widget) : Panel :=
  ((p.modifyWidget widget (fun w => { w with guarded := false })).unsubscribe w.handle).1

theorem letGo_together (hp : p.present = true) (hq : q.present = true) {widget : Nat}
    (hseen : (q.widgets[widget]?).map seenOf = (p.widgets[widget]?).map seenOf)
    (past past' : History) :
    (p.letGo widget = none ∧ logLetGo past p widget = past ∧
      q.letGo widget = none ∧ logLetGo past' q widget = past') ∨
    ∃ u w, p.widgets[widget]? = some u ∧ q.widgets[widget]? = some w ∧
      u.guarded = true ∧ seenOf w = seenOf u ∧
      p.letGo widget = some (p.letGone widget u, (p.dispatcher.unsubscribe u.handle).2) ∧
      logLetGo past p widget = past ++ [⟨.letGo u.handle, p.letGone widget u⟩] ∧
      q.letGo widget = some (q.letGone widget w, (q.dispatcher.unsubscribe w.handle).2) ∧
      logLetGo past' q widget = past' ++ [⟨.letGo w.handle, q.letGone widget w⟩] := by
  unfold logLetGo
  cases hu : p.widgets[widget]? with
  | none =>
    rw [hu, Option.map_none, Option.map_eq_none_iff] at hseen
    have hgone : p.letGo widget = none := by
      unfold Panel.letGo
      rw [hu]
    have hgone' : q.letGo widget = none := by
      unfold Panel.letGo
      rw [hseen]
    rw [hgone, hseen, hgone']
    exact .inl ⟨rfl, rfl, rfl, rfl⟩
  | some u =>
    rw [hu, Option.map_some, Option.map_eq_some_iff] at hseen
    obtain ⟨w, hw, hsame⟩ := hseen
    obtain ⟨_, hguarded⟩ := Prod.mk.inj hsame
    rw [hw]
    cases hg : u.guarded with
    | false =>
      rw [letGo_unguarded hu hg, letGo_unguarded hw (hguarded.trans hg)]
      exact .inl ⟨rfl, rfl, rfl, rfl⟩
    | true =>
      rw [letGo_guarded hp hu hg, letGo_guarded hq hw (hguarded.trans hg)]
      exact .inr ⟨u, w, rfl, rfl, hg, hsame, rfl, rfl, rfl, rfl⟩

theorem letGone_seen (p : Panel) (widget : Nat) (w : Widget) :
    (p.letGone widget w).widgets.map seenOf =
      (p.widgets.map seenOf).modify widget (fun s => (s.1, false)) :=
  map_modify seenOf p.widgets widget (fun _ => rfl)

theorem Mirrors.letGone {widget : Nat} {u w : Widget}
    (h : Mirrors ⟨past, p, rounds⟩ ⟨past', q, rounds'⟩) (hu : p.widgets[widget]? = some u)
    (hw : q.widgets[widget]? = some w) (hg : u.guarded = true) (hsame : seenOf w = seenOf u) :
    Mirrors ⟨past ++ [⟨.letGo u.handle, p.letGone widget u⟩], p.letGone widget u, rounds⟩
      ⟨past' ++ [⟨.letGo w.handle, q.letGone widget w⟩], q.letGone widget w, rounds'⟩ := by
  obtain ⟨hhandle, hguarded⟩ := Prod.mk.inj hsame
  have ha : Next ⟨past, p, rounds⟩ _ _ :=
    .letGo h.ideal.present hu (letGo_guarded h.ideal.present hu hg)
  have hb : Next ⟨past', q, rounds'⟩ _ _ :=
    .letGo h.real.present hw (letGo_guarded h.real.present hw (hguarded.trans hg))
  refine h.takenOut u.handle (h.ideal.next ha) (h.real.next hb) rfl ?_ h.attended ?_ ?_
    ?_ (fun _ => received_other rfl _ _ _) (fun _ => received_other rfl _ _ _)
  · rw [← hhandle]
    rfl
  · refine (q.letGone_seen widget w).trans (Eq.trans ?_ (p.letGone_seen widget u).symm)
    exact congrArg (List.modify · widget _) h.seen
  · exact forall_modify (Q := (· = .scripted [])) h.silent _ (fun _ => rfl)
  · intro w' hw'
    obtain ⟨before, hbefore, hkept⟩ :=
      mem_modify_same (fun w => (w.handle, w.calls, w.callback))
        (f := fun w => { w with guarded := false }) (fun _ => rfl) hw'
    obtain ⟨h1, h2⟩ := Prod.mk.inj hkept
    obtain ⟨h2, h3⟩ := Prod.mk.inj h2
    exact ⟨before, hbefore, h1.symm, h2.symm, h3.symm⟩

theorem Mirrors.letGo (h : Mirrors ⟨past, p, rounds⟩ ⟨past', q, rounds'⟩) (widget : Nat)
    {f : Bool → Reply} {r : Reply} :
    Mirrors
      ⟨logLetGo past p widget, (match p.letGo widget with
        | some (p', live) => (p', f live)
        | none => (p, r)).1, rounds⟩
      ⟨logLetGo past' q widget, (match q.letGo widget with
        | some (q', live) => (q', f live)
        | none => (q, r)).1, rounds'⟩ ∧
    (match q.letGo widget with
      | some (q', live) => (q', f live)
      | none => (q, r)).2 = (match p.letGo widget with
        | some (p', live) => (p', f live)
        | none => (p, r)).2 := by
  rcases letGo_together h.ideal.present h.real.present (h.seen_at widget) past past' with
    ⟨hgone, hlog, hgone', hlog'⟩ |
      ⟨u, w, hu, hw, hg, hsame, hgone, hlog, hgone', hlog'⟩
  · dsimp only at hgone hgone' hlog hlog'
    rw [hgone, hlog, hgone', hlog']
    exact ⟨h, rfl⟩
  · dsimp only at hu hw hgone hgone' hlog hlog'
    rw [hgone, hlog, hgone', hlog']
    refine ⟨h.letGone hu hw hg hsame, congrArg f ?_⟩
    rw [show w.handle = u.handle from congrArg Prod.fst hsame]
    exact h.flag u.handle

section

variable (subscriber : String) (component : Option String) (addresses : List Address)
  {callback : Callback}

theorem Mirrors.installed (h : Mirrors a b) (widget k : Nat) :
    ((b.panel.dispatcher.install subscriber component addresses widget).1.slots.get? k).map
        Slot.roused =
      (a.panel.dispatcher.install subscriber component addresses widget).1.slots.get? k := by
  rw [Dispatcher.install_get? h.real.paired.sound, Dispatcher.install_get? h.ideal.paired.sound,
    h.registry]
  split
  · rfl
  · have hslot : (b.panel.dispatcher.slots.get? k).map Slot.roused =
        a.panel.dispatcher.slots.get? k := h.slots k
    rw [← hslot]
    cases b.panel.dispatcher.slots.get? k with
    | none => rfl
    | some s =>
      have hsubscriber : s.roused.subscriber = s.subscriber := rfl
      rw [Option.map_some, Option.filter_some, Option.filter_some, hsubscriber]
      split <;> rfl

theorem Reached.installed_active (h : b.Reached) (widget : Nat) {s : Slot}
    (hs : (b.panel.dispatcher.install subscriber component addresses widget).1.slots.get? b.next =
      some s) : s.active = true := by
  rw [Dispatcher.install_get? h.paired.sound] at hs
  split at hs
  · cases hs
    rfl
  · exact absurd (h.slot_issued (Option.filter_eq_some_iff.mp hs).1) (Nat.lt_irrefl _)

theorem Mirrors.installed_other (h : Mirrors a b) (widget : Nat) {k : Nat} (hk : k < b.next)
    {s : Slot}
    (hs : (b.panel.dispatcher.install subscriber component addresses widget).1.slots.get? k =
      some s) : b.slot? k = some s := by
  rw [Dispatcher.install_get? h.real.paired.sound, if_neg (fun he => Nat.ne_of_lt hk he.1)] at hs
  exact (Option.filter_eq_some_iff.mp hs).1

theorem Mirrors.subscribe (h : Mirrors ⟨past, p, rounds⟩ ⟨past', q, rounds'⟩)
    (hm : callback.Mild) :
    Mirrors
      ⟨logSubscribe past p subscriber component addresses (.scripted []),
        (p.subscribe subscriber component addresses (.scripted [])).1, rounds⟩
      ⟨logSubscribe past' q subscriber component addresses callback,
        (q.subscribe subscriber component addresses callback).1, rounds'⟩ ∧
    (q.subscribe subscriber component addresses callback).2 =
      (p.subscribe subscriber component addresses (.scripted [])).2 := by
  have hlen : q.widgets.length = p.widgets.length := by
    have hseen := congrArg List.length h.seen
    rwa [List.length_map, List.length_map] at hseen
  have hregistry : q.dispatcher.registry = p.dispatcher.registry := h.registry
  refine ⟨?_, ?_⟩
  · refine
      { ideal := h.ideal.next (.subscribe _ subscriber component addresses (.scripted []))
        real := h.real.next (.subscribe _ subscriber component addresses callback)
        registry := ?_
        generation := h.generation
        attended := h.attended
        slots := fun k => ?_
        seen := ?_
        silent := fun w hw => ?_
        mild := fun w hw => ?_
        fares := fun w hw => ?_ }
    · exact congrArg (fun r => (Registry.register r subscriber component addresses).1) hregistry
    · have hinstalled := h.installed subscriber component addresses q.widgets.length k
      refine hinstalled.trans ?_
      rw [hlen]
      rfl
    · rw [subscribe_widgets, subscribe_widgets, List.map_append, List.map_append, hregistry]
      exact congrArg (· ++ _) h.seen
    · rw [subscribe_widgets, List.mem_append, List.mem_singleton] at hw
      rcases hw with hw | rfl
      · exact h.silent w hw
      · rfl
    · rw [subscribe_widgets, List.mem_append, List.mem_singleton] at hw
      rcases hw with hw | rfl
      · exact h.mild w hw
      · exact hm
    · unfold logSubscribe
      rw [received_other rfl, received_other rfl]
      rw [subscribe_widgets, List.mem_append, List.mem_singleton] at hw
      rcases hw with hw | rfl
      · have hold := h.real.distinct.2 w.handle (List.mem_map_of_mem hw)
        exact (h.fares w hw).spared rfl rfl
          (fun s hs => h.installed_other subscriber component addresses _ hold hs)
      · have hnext : Scene.next ⟨past, p, rounds⟩ ≤ q.dispatcher.registry.nextHandle :=
          Nat.le_of_eq (congrArg Registry.nextHandle hregistry).symm
        have hheard : received past q.dispatcher.registry.nextHandle = [] := h.ideal.unheard hnext
        have hheard' : received past' q.dispatcher.registry.nextHandle = [] :=
          h.real.unheard (Nat.le_refl _)
        dsimp only
        rw [hheard, hheard']
        refine .well rfl rfl (fun call hpos hle => ?_) (fun s hs => ?_)
        · exact absurd hpos (Nat.not_lt_of_le hle)
        · exact Reached.installed_active subscriber component addresses h.real _ hs
  · rw [subscribe_reply, subscribe_reply, hlen, hregistry]

end

theorem Mirrors.merge (h : Mirrors ⟨past, p, rounds⟩ ⟨past', q, rounds'⟩) (s : Snapshot) :
    Mirrors ⟨past, p.merge s, rounds⟩ ⟨past', q.merge s, rounds'⟩ :=
  { h with
    ideal := h.ideal.next (.merge _ s)
    real := h.real.next (.merge _ s)
    generation := congrArg (Generation.next · s) h.generation }

theorem Mirrors.unattend (h : Mirrors ⟨past, p, rounds⟩ ⟨past', q, rounds'⟩) :
    Mirrors ⟨past, p.unattend, rounds⟩ ⟨past', q.unattend, rounds'⟩ :=
  { h with
    ideal := h.ideal.next (.unattend _)
    real := h.real.next (.unattend _)
    attended := rfl }

theorem Mirrors.exec (h : Mirrors ⟨past, p, rounds⟩ ⟨past', q, rounds'⟩) {c : Command}
    (hm : c.Mild) (fuel fuel' : Nat) :
    Mirrors
      ⟨log (fuel + 1) past p c.silenced, (Panel.exec (fuel + 1) p c.silenced).1, rounds⟩
      ⟨log (fuel' + 1) past' q c, (Panel.exec (fuel' + 1) q c).1, rounds'⟩ ∧
    (Panel.exec (fuel' + 1) q c).2 = (Panel.exec (fuel + 1) p c.silenced).2 := by
  have hattended : q.attended = p.attended := h.attended
  have hregistry : q.dispatcher.registry = p.dispatcher.registry := h.registry
  have hgeneration : q.dispatcher.generation = p.dispatcher.generation := h.generation
  cases c with
  | release widget => exact h.letGo widget
  | drop widget => exact h.letGo widget
  | refuse fault => exact ⟨h, rfl⟩
  | subscribe subscriber component addresses script =>
    simp only [Panel.exec, log, Command.silenced, hattended]
    split
    · exact ⟨h, rfl⟩
    · have hscript : (Callback.scripted script).Mild := hm
      exact h.subscribe subscriber component addresses hscript
  | unsubscribe widget =>
    simp only [Panel.exec, log, Command.silenced, hattended]
    split
    · exact ⟨h, rfl⟩
    · have hseen : (q.widgets[widget]?).map seenOf = (p.widgets[widget]?).map seenOf :=
        h.seen_at widget
      cases hu : p.widgets[widget]? with
      | none =>
        rw [hu, Option.map_none, Option.map_eq_none_iff] at hseen
        rw [hseen]
        exact ⟨h, rfl⟩
      | some u =>
        rw [hu, Option.map_some, Option.map_eq_some_iff] at hseen
        obtain ⟨w, hw, hsame⟩ := hseen
        have hhandle : w.handle = u.handle := congrArg Prod.fst hsame
        rw [hw]
        dsimp only
        rw [hhandle]
        exact ⟨h.unsubscribe u.handle, congrArg Reply.flag (h.flag u.handle)⟩
  | view subscriber =>
    simp only [Panel.exec, log, Command.silenced, hattended]
    split
    · exact ⟨h, rfl⟩
    · refine ⟨h, ?_⟩
      unfold Dispatcher.view?
      rw [hregistry, hgeneration]
  | apply snapshot now =>
    simp only [Panel.exec, log, Command.silenced, hattended]
    split
    · exact ⟨h, rfl⟩
    · have hmerged := h.merge snapshot
      have hgiven : (q.merge snapshot).dispatcher.generation =
          (p.merge snapshot).dispatcher.generation := hmerged.generation
      refine ⟨?_, congrArg (fun g => Reply.generation (Generation.number g)) hgiven⟩
      rw [hgiven]
      split
      · exact hmerged.publish _ fuel fuel'
      · exact hmerged
  | republish =>
    simp only [Panel.exec, log, Command.silenced, hattended]
    split
    · exact ⟨h, rfl⟩
    · have hdelivered := h.publish p.dispatcher.generation fuel fuel'
      rw [hgeneration]
      exact ⟨hdelivered, congrArg (fun g => Reply.generation (Generation.number g))
        hdelivered.generation⟩
  | retire =>
    simp only [Panel.exec, log, Command.silenced, hattended]
    split
    · exact ⟨h, rfl⟩
    · exact ⟨h.unattend, rfl⟩
  | panic =>
    simp only [Panel.exec, log, Command.silenced, hattended]
    split <;> exact ⟨h, rfl⟩

theorem Mirrors.use (h : Mirrors ⟨past, p, rounds⟩ ⟨past', q, rounds'⟩) {x : Use} (hm : x.Mild) :
    Mirrors ⟨logUse past p x.silenced, p.use x.silenced, rounds⟩
      ⟨logUse past' q x, q.use x, rounds'⟩ ∧
    q.answer x = p.answer x.silenced := by
  cases x with
  | command c => exact h.exec hm _ _
  | subscribe subscriber component addresses callback =>
    exact h.subscribe subscriber component addresses hm
  | unsubscribe handle => exact ⟨h.unsubscribe handle, congrArg Reply.flag (h.flag handle)⟩
  | merge s => exact ⟨h.merge s, rfl⟩
  | deliver g => exact ⟨h.publish g _ _, rfl⟩

theorem Mirrors.uses (h : Mirrors ⟨past, p, rounds⟩ ⟨past', q, rounds'⟩) {uses : List Use}
    (hm : ∀ x ∈ uses, x.Mild) :
    Mirrors
      ⟨((uses.map Use.silenced).foldl (fun (past, p) x => (logUse past p x, p.use x)) (past, p)).1,
        (uses.map Use.silenced).foldl Panel.use p, rounds⟩
      ⟨(uses.foldl (fun (past, p) x => (logUse past p x, p.use x)) (past', q)).1,
        uses.foldl Panel.use q, rounds'⟩ ∧
    answers q uses = answers p (uses.map Use.silenced) := by
  induction uses generalizing past past' p q with
  | nil => exact ⟨h, rfl⟩
  | cons x rest ih =>
    obtain ⟨hnext, hanswer⟩ := h.use (hm x List.mem_cons_self)
    obtain ⟨hrest, hanswers⟩ := ih hnext (fun x hx => hm x (List.mem_cons_of_mem _ hx))
    refine ⟨hrest, ?_⟩
    rw [List.map_cons, answers, answers, hanswer, hanswers]

end

/-- A run next to the same run with callbacks that do nothing. -/
theorem uses_mirror {uses : List Use} (hm : ∀ x ∈ uses, x.Mild) :
    Mirrors ⟨historyOf (uses.map Use.silenced), used (uses.map Use.silenced), []⟩
      ⟨historyOf uses, used uses, []⟩ ∧
    answers .empty uses = answers .empty (uses.map Use.silenced) := by
  have hstart : Mirrors start start :=
    { ideal := .refl
      real := .refl
      registry := rfl
      generation := rfl
      attended := rfl
      slots := fun _ => rfl
      seen := rfl
      silent := fun _ hw => nomatch hw
      mild := fun _ hw => nomatch hw
      fares := fun _ hw => nomatch hw }
  exact hstart.uses hm

theorem Fares.unfailing {w : Widget} {slot : Option Slot} {ideal heard : List View}
    (h : Fares w slot ideal heard) (hnever : ∀ call, w.callback.failsAt call = false) :
    heard = ideal := by
  cases h with
  | well same => exact same
  | failed first =>
    obtain ⟨_, hfails, _⟩ := first
    rw [hnever] at hfails
    cases hfails

/-- What is heard up to a call before which no call fails. -/
theorem Fares.until {w : Widget} {slot : Option Slot} {ideal heard : List View}
    (h : Fares w slot ideal heard) {call : Nat}
    (hbefore : ∀ earlier, 0 < earlier → earlier < call → w.callback.failsAt earlier = false) :
    heard.take call = ideal.take call := by
  cases h with
  | well same => rw [same]
  | @failed n first _ cut =>
    obtain ⟨hpos, hfails, _⟩ := first
    have hle : call ≤ n := by
      refine Nat.le_of_not_lt (fun hlt => ?_)
      rw [hbefore n hpos hlt] at hfails
      cases hfails
    rw [cut, List.take_take, Nat.min_eq_left hle]

theorem Fares.failsFirst {w : Widget} {slot : Option Slot} {ideal heard : List View}
    (h : Fares w slot ideal heard) {call : Nat} (hfirst : w.callback.FailsFirst call) :
    heard = ideal.take call := by
  obtain ⟨hpos, hfails, hbefore⟩ := hfirst
  rw [← h.until hbefore]
  refine (List.take_of_length_le ?_).symm
  cases h with
  | well same _ unfailed =>
    refine Nat.le_of_not_lt (fun hlt => ?_)
    rw [same] at hlt
    rw [unfailed call hpos (Nat.le_of_lt hlt)] at hfails
    cases hfails
  | @failed n first _ cut =>
    have hle : n ≤ call := by
      refine Nat.le_of_not_lt (fun hlt => ?_)
      rw [first.2.2 call hpos hlt] at hfails
      cases hfails
    rw [cut, List.length_take]
    exact Nat.le_trans (Nat.min_le_left _ _) hle

/-- Two runs with the same uses, whose callbacks leave the dispatcher alone but may fail, each run in
other calls. They end with the same registry, generation, number of slots and views, and their uses
answer the same. A subscription whose callback never fails receives the same in both; one that fails
receives what it receives in the other run up to the call in which it first fails, and nothing
afterwards. -/
theorem failing_harms_itself (uses uses' : List Use) (hm : ∀ x ∈ uses, x.Mild)
    (hm' : ∀ x ∈ uses', x.Mild) (hsame : uses'.map Use.silenced = uses.map Use.silenced) :
    (used uses').dispatcher.registry = (used uses).dispatcher.registry ∧
    (used uses').dispatcher.generation = (used uses).dispatcher.generation ∧
    (used uses').dispatcher.size = (used uses).dispatcher.size ∧
    (∀ subscriber, (used uses').dispatcher.view? subscriber =
      (used uses).dispatcher.view? subscriber) ∧
    answers .empty uses' = answers .empty uses ∧
    (used uses').handles = (used uses).handles ∧
    ∀ (i : Nat) (w w' : Widget), (used uses).widgets[i]? = some w →
      (used uses').widgets[i]? = some w' →
      ((∀ call, w.callback.failsAt call = false) → (∀ call, w'.callback.failsAt call = false) →
        received (historyOf uses') w.handle = received (historyOf uses) w.handle) ∧
      ∀ call, w'.callback.FailsFirst call →
        (∀ earlier, 0 < earlier → earlier < call → w.callback.failsAt earlier = false) →
        received (historyOf uses') w.handle = (received (historyOf uses) w.handle).take call := by
  obtain ⟨h, hanswers⟩ := uses_mirror hm
  obtain ⟨h', hanswers'⟩ := uses_mirror hm'
  rw [hsame] at h' hanswers'
  have hregistry : (used uses').dispatcher.registry = (used uses).dispatcher.registry :=
    h'.registry.trans h.registry.symm
  have hgeneration : (used uses').dispatcher.generation = (used uses).dispatcher.generation :=
    h'.generation.trans h.generation.symm
  have hhandles : (used uses').handles = (used uses).handles := by
    have hseen := congrArg (List.map Prod.fst) (h'.seen.trans h.seen.symm)
    rw [List.map_map, List.map_map] at hseen
    exact hseen
  have hkeys := h'.keys.trans h.keys.symm
  refine ⟨hregistry, hgeneration, ?_, ?_, hanswers'.trans hanswers.symm, hhandles, ?_⟩
  · have hlength := congrArg List.length hkeys
    unfold SortedMap.keys at hlength
    rw [List.length_map, List.length_map] at hlength
    exact hlength
  · intro subscriber
    unfold Dispatcher.view?
    rw [hregistry, hgeneration]
  · intro i w w' hw hw'
    have hhandle : w'.handle = w.handle := by
      have hat := congrArg (·[i]?) hhandles
      simp only [Panel.handles, List.getElem?_map, hw, hw', Option.map_some, Option.some.injEq]
        at hat
      exact hat
    have hfares := h.fares w (List.mem_of_getElem? hw)
    have hfares' := h'.fares w' (List.mem_of_getElem? hw')
    rw [hhandle] at hfares'
    refine ⟨fun hnever hnever' => ?_, fun call hfirst hbefore => ?_⟩
    · exact (hfares'.unfailing hnever').trans (hfares.unfailing hnever).symm
    · exact (hfares'.failsFirst hfirst).trans (hfares.until hbefore).symm

theorem mild_of_entries {script : Script}
    (h : ∀ entry ∈ script, ∀ command ∈ entry.2, command.isQuiet = true ∨ command.isPanic = true) :
    script.Mild := by
  intro call command hc
  unfold Script.at at hc
  split at hc
  · rename_i entry _ hfound
    exact h _ (List.mem_of_find?_eq_some hfound) command hc
  · cases hc

def neighbours (script : Script) : List Use :=
  [.subscribe "a" none [⟨"c", "A"⟩] (.scripted script),
    .subscribe "b" none [⟨"c", "A"⟩] (.scripted []),
    .command (.apply (forgetting "A") true), .command .republish, .command .republish,
    .command (.release 0)]

theorem neighbours_mild {script : Script} (h : script.Mild) : ∀ x ∈ neighbours script, x.Mild := by
  intro x hx
  simp only [neighbours, List.mem_cons, List.not_mem_nil, or_false] at hx
  rcases hx with rfl | rfl | rfl | rfl | rfl | rfl
  · exact h
  · exact fun _ _ hm => nomatch hm
  all_goals exact trivial

/-- The first subscriber fails in its second call and is spared the third. -/
theorem neighbours_fail :
    received (historyOf (neighbours [(2, [.panic])])) 1 =
      (received (historyOf (neighbours [])) 1).take 2 ∧
    (received (historyOf (neighbours [])) 1).length = 3 ∧
    received (historyOf (neighbours [(2, [.panic])])) 2 =
      received (historyOf (neighbours [])) 2 ∧
    (used (neighbours [(2, [.panic])])).dispatcher.registry =
      (used (neighbours [])).dispatcher.registry := by
  obtain ⟨hregistry, _, _, _, _, _, hwidgets⟩ := failing_harms_itself (neighbours [])
    (neighbours [(2, [.panic])]) (neighbours_mild (mild_of_entries (by decide)))
    (neighbours_mild (mild_of_entries (by decide))) rfl
  obtain ⟨_, hfirst⟩ := hwidgets 0 ⟨1, false, 3, .scripted []⟩
    ⟨1, false, 2, .scripted [(2, [.panic])]⟩ (by rfl) (by rfl)
  obtain ⟨hsecond, _⟩ := hwidgets 1 ⟨2, true, 3, .scripted []⟩ ⟨2, true, 3, .scripted []⟩
    (by rfl) (by rfl)
  refine ⟨hfirst 2 ⟨by decide, by decide, fun earlier hpos hlt => ?_⟩ (fun _ _ _ => rfl),
    by decide, hsecond (fun _ => rfl) (fun _ => rfl), hregistry⟩
  obtain rfl : earlier = 1 := by omega
  rfl

end Panel

end ChannelFeed
