import ChannelFeed.Proofs.Edge.Untouched

namespace ChannelFeed.Edge

variable {e e' f g : Edge} {x : Act} {before past since : Past}

/-- Time passes only while the pump has nothing to do, and not beyond the end of its pause. -/
def Punctual (e : Edge) : Act → Prop
  | .pass ms => e.isReady .pump = false ∧ ∀ wake ∈ e.timer? .pump, e.session.now + ms ≤ wake
  | _ => True

instance (e : Edge) (x : Act) : Decidable (e.Punctual x) :=
  match x with
  | .pass _ => inferInstanceAs (Decidable (_ ∧ _))
  | .command _ | .decoded _ _ | .session _ | .pump | .process | .device _ | .read | .shutdown
  | .letGo | .dispose | .drain => isTrue trivial

theorem isReady_pump (e : Edge) : e.isReady .pump = e.pump?.isSome := rfl

theorem Punctual.still (h : e.Punctual x) (ready : e.isReady .pump = true) : x.elapsed = 0 := by
  cases x with
  | pass ms => simp [h.1] at ready
  | _ => rfl

/-- A stretch of a run in which all time passes so. -/
def Timely (since : Past) : Prop := ∀ y ∈ since, y.1.Punctual y.2

instance (since : Past) : Decidable (Timely since) :=
  inferInstanceAs (Decidable (∀ y ∈ since, _))

/-- A stretch of a run in which nobody stops the edge. -/
def Unstopped (since : Past) : Prop := ∀ y ∈ since, y.2.stops = false

instance (since : Past) : Decidable (Unstopped since) :=
  inferInstanceAs (Decidable (∀ y ∈ since, _))

theorem timely_append : Timely (since ++ [(e, x)]) ↔ Timely since ∧ e.Punctual x := by
  simp only [Timely, List.mem_append, List.mem_singleton]
  constructor
  · intro h
    exact ⟨fun y hy => h y (.inl hy), h (e, x) (.inr rfl)⟩
  · rintro ⟨hsince, hlast⟩ y (hy | rfl)
    · exact hsince y hy
    · exact hlast

/-- When the pause is over that a change begins. -/
def due (f : Edge) : Nat := f.endOfPause f.session.now

/-- A whole pause has gone by that did not begin before the change. -/
def Elapsed (f : Edge) (now : Nat) : Prop :=
  ∃ begun, f.session.now ≤ begun ∧ f.endOfPause begun ≤ now

theorem Elapsed.mono {now later : Nat} (h : f.Elapsed now) (hle : now ≤ later) :
    f.Elapsed later := by
  obtain ⟨begun, hbegun, hends⟩ := h
  exact ⟨begun, hbegun, Nat.le_trans hends hle⟩

/-- A pump that looks at an instant finds so many changes: the first one and all that came before that
instant. -/
structure Looks (f : Edge) (since : Past) (looked upTo : Nat) : Prop where
  elapsed : f.Elapsed looked
  change : f.registry.announced.changes < upTo
  gathers : ∀ y ∈ since, y.1.session.now < looked → y.1.registry.announced.changes ≤ upTo
  punctual : Timely since → looked = f.due

/-- A union is what all declarations held between two instants. -/
def Stands (since : Past) (looked now : Nat) (union : AddressSet) : Prop :=
  ∃ y ∈ since, looked ≤ y.1.session.now ∧ y.1.session.now ≤ now ∧ union = y.1.union

/-- A call tells of the changes found at an instant and of the union as it stood from then on. -/
structure Tells (f : Edge) (since : Past) (looked : Nat) (c : Call) : Prop where
  looks : Looks f since looked c.upTo
  stands : Stands since looked c.time c.union
  punctual : Timely since → c.time = f.due

/-- What the pump knows while it makes the call, having noticed so many changes. -/
def Knows (f : Edge) (since : Past) (upTo now : Nat) : Pump → Prop
  | .marking => True
  | .reading _ => ∃ looked ≤ now, Looks f since looked upTo
  | .setting _ union => ∃ looked, Looks f since looked upTo ∧ Stands since looked now union
  | _ => False

/-- How far the pump is since a change that found it at rest. -/
inductive Progress (f : Edge) (since : Past) (e : Edge) : Prop
  | unnoticed (none : calls since = []) (is : e.pump = .waiting)
      (unseen : e.registry.announced.unseen e.versionSeen = true)
      (later : f.session.now ≤ e.session.now)
      (punctual : Timely since → e.session.now = f.session.now)
  | pausing {begun : Nat} (none : calls since = [])
      (is : e.pump = .debouncing (f.endOfPause begun)) (later : f.session.now ≤ begun)
      (punctual : Timely since → begun = f.session.now ∧ e.session.now ≤ f.due)
  | calling (none : calls since = [])
      (knows : Knows f since e.versionSeen e.session.now e.pump) (elapsed : f.Elapsed e.session.now)
      (punctual : Timely since → e.session.now = f.due)
  | called {c : Call} {later : List Call} {looked : Nat} (made : calls since = c :: later)
      (tells : Tells f since looked c) (now : c.time ≤ e.session.now)

/-- The pump is on its way since a change that found it at rest. -/
structure Underway (f : Edge) (since : Past) (e : Edge) : Prop where
  window : SameWindow f e
  more : f.registry.announced.changes < e.registry.announced.changes
  rising : ∀ y ∈ since, y.1.registry.announced.changes ≤ e.registry.announced.changes
  progress : Progress f since e

theorem Looks.later {looked upTo : Nat} (h : Looks f since looked upTo)
    (now : looked ≤ e.session.now) : Looks f (since ++ [(e, x)]) looked upTo := by
  refine ⟨h.elapsed, h.change, fun y hy hnow => ?_, fun ht => h.punctual (timely_append.mp ht).1⟩
  rcases List.mem_append.mp hy with hy | hy
  · exact h.gathers y hy hnow
  · cases List.mem_singleton.mp hy
    exact absurd now (Nat.not_le_of_lt hnow)

theorem Stands.looked {looked now : Nat} {union : AddressSet} (h : Stands since looked now union) :
    looked ≤ now := by
  obtain ⟨y, _, hlooked, hnow, _⟩ := h
  exact Nat.le_trans hlooked hnow

theorem Stands.later {looked now now' : Nat} {union : AddressSet}
    (h : Stands since looked now union) (hle : now ≤ now') :
    Stands (since ++ [(e, x)]) looked now' union := by
  obtain ⟨y, hy, hlooked, hnow, hunion⟩ := h
  exact ⟨y, List.mem_append_left _ hy, hlooked, Nat.le_trans hnow hle, hunion⟩

theorem Tells.later {looked : Nat} {c : Call} (h : Tells f since looked c)
    (now : c.time ≤ e.session.now) : Tells f (since ++ [(e, x)]) looked c :=
  ⟨h.looks.later (Nat.le_trans h.stands.looked now), h.stands.later (Nat.le_refl _),
    fun ht => h.punctual (timely_append.mp ht).1⟩

theorem Knows.later {upTo now : Nat} {p : Pump} (h : Knows f since upTo e.session.now p)
    (hle : e.session.now ≤ now) : Knows f (since ++ [(e, x)]) upTo now p := by
  cases p with
  | marking => trivial
  | reading version =>
    obtain ⟨looked, hlooked, hlooks⟩ := h
    exact ⟨looked, Nat.le_trans hlooked hle, hlooks.later hlooked⟩
  | setting version union =>
    obtain ⟨looked, hlooks, hstands⟩ := h
    exact ⟨looked, hlooks.later hstands.looked, hstands.later hle⟩
  | waiting | debouncing | stopped => cases h

theorem Knows.ready {upTo now : Nat} (h : Knows f since upTo now e.pump) :
    e.isReady .pump = true := by
  cases hp : e.pump with
  | marking | reading | setting => simp [isReady_pump, pump?, hp]
  | waiting | debouncing | stopped =>
    rw [hp] at h
    cases h

theorem unseen_mono {seen : Nat} (h : e.registry.announced.unseen seen = true)
    (looked : seen ≤ e.registry.announced.changes)
    (later : e.registry.announced.changes ≤ e'.registry.announced.changes) :
    e'.registry.announced.unseen seen = true := by
  have hne : e.registry.announced.changes ≠ seen := by simpa [Watch.unseen] using h
  have hne' : e'.registry.announced.changes ≠ seen := by omega
  simpa [Watch.unseen] using hne'

theorem Progress.aside (h : Progress f since e) (hand : e.Handover) (hx : e.act? x = some e')
    (other : x ≠ .pump) (going : x.stops = false) : Progress f (since ++ [(e, x)]) e' := by
  have haside := act_aside hand.sound hx other
  have hpump := (act_kept hx).2 other going
  have hnow := act_now hx
  have hlater : e.session.now ≤ e'.session.now := hnow ▸ Nat.le_add_right _ _
  have hseen := haside.seen
  have hcalls : calls (since ++ [(e, x)]) = calls since := by
    rw [calls_act, callIn_other e other, List.append_nil]
  -- no time passes punctually while the pump has something to do
  have hstill : e.isReady .pump = true → Timely (since ++ [(e, x)]) →
      e'.session.now = e.session.now := fun ready ht => by
    rw [hnow, (timely_append.mp ht).2.still ready, Nat.add_zero]
  cases h with
  | unnoticed none is unseen later punctual =>
    have hlast := unseen_mono unseen hand.looked haside.registry.changes
    refine .unnoticed (hcalls.trans none) (hpump.trans is) (by rw [hseen]; exact hlast)
      (Nat.le_trans later hlater) (fun ht => ?_)
    rw [hstill (by simp [isReady_pump, pump?, is, unseen]) ht]
    exact punctual (timely_append.mp ht).1
  | pausing none is later punctual =>
    refine .pausing (hcalls.trans none) (hpump.trans is) later (fun ht => ?_)
    obtain ⟨hsince, hlast⟩ := timely_append.mp ht
    obtain ⟨rfl, hle⟩ := punctual hsince
    refine ⟨rfl, ?_⟩
    rw [hnow]
    cases x with
    | pass ms => exact hlast.2 _ (by simp [timer?, is, due])
    | _ => exact hle
  | calling none knows elapsed punctual =>
    refine .calling (hcalls.trans none) ?_ (elapsed.mono hlater) (fun ht => ?_)
    · rw [hseen, hpump]
      exact knows.later hlater
    · rw [hstill knows.ready ht]
      exact punctual (timely_append.mp ht).1
  | called made tells now =>
    exact .called (hcalls.trans made) (tells.later now) (Nat.le_trans now hlater)

theorem Progress.call (h : Underway f since e) (none : calls since = [])
    (knows : Knows f since e.versionSeen e.session.now e.pump) (elapsed : f.Elapsed e.session.now)
    (punctual : Timely since → e.session.now = f.due) (hx : e.pump? = some e') :
    Progress f (since ++ [(e, .pump)]) e' := by
  have hcalls : calls (since ++ [(e, .pump)]) = e.callIn .pump := by
    rw [calls_act, none, List.nil_append]
  have hpunctual : Timely (since ++ [(e, .pump)]) → e.session.now = f.due :=
    fun ht => punctual (timely_append.mp ht).1
  rcases pump_cases hx with ⟨hp, _⟩ | ⟨_, hp, _⟩ | ⟨hp, rfl⟩ | ⟨version, hp, rfl⟩ |
    ⟨version, union, notes, hp, rfl⟩ <;> rw [hp] at knows
  · cases knows
  · cases knows
  · refine .calling (by simp [hcalls, callIn, hp])
      ⟨e.session.now, Nat.le_refl _, elapsed, h.more, fun y hy hnow => ?_, hpunctual⟩ elapsed
      hpunctual
    rcases List.mem_append.mp hy with hy | hy
    · exact h.rising y hy
    · cases List.mem_singleton.mp hy
      exact absurd hnow (Nat.lt_irrefl _)
  · obtain ⟨looked, hlooked, hlooks⟩ := knows
    exact .calling (by simp [hcalls, callIn, hp])
      ⟨looked, hlooks.later hlooked, (e, .pump), by simp, hlooked, Nat.le_refl _, rfl⟩ elapsed
      hpunctual
  · obtain ⟨looked, hlooks, hstands⟩ := knows
    have hmade : calls (since ++ [(e, .pump)]) = [⟨e.session.now, e.versionSeen, union⟩] := by
      simp [hcalls, callIn, hp]
    refine .called hmade
      ⟨hlooks.later hstands.looked, hstands.later (Nat.le_refl _), hpunctual⟩ ?_
    exact Nat.le_of_eq (Session.setSubscription_now _ _).symm

theorem Underway.pump (h : Underway f since e) (window : f.debounce.isZero = false)
    (hx : e.pump? = some e') : Progress f (since ++ [(e, .pump)]) e' := by
  have hcalls : calls (since ++ [(e, .pump)]) = calls since ++ e.callIn .pump :=
    calls_act since e .pump
  cases h.progress with
  | unnoticed none is unseen later punctual =>
    simp only [pump?, is, unseen, if_true, h.window.debounce, window, Bool.false_eq_true, if_false,
      h.window.endOfPause, Option.some.injEq] at hx
    subst hx
    refine .pausing (by simp [hcalls, none, callIn, is]) rfl later (fun ht => ?_)
    have hnow := punctual (timely_append.mp ht).1
    refine ⟨hnow, ?_⟩
    rw [due, ← hnow]
    exact Duration.le_endOfPause _ _ _
  | pausing none is later punctual =>
    simp only [pump?, is, Option.ite_none_right_eq_some, Option.some.injEq] at hx
    obtain ⟨hdue, rfl⟩ := hx
    refine .calling (by simp [hcalls, none, callIn, is]) trivial ⟨_, later, hdue⟩ (fun ht => ?_)
    obtain ⟨rfl, hle⟩ := punctual (timely_append.mp ht).1
    exact Nat.le_antisymm hle hdue
  | calling none knows elapsed punctual => exact .call h none knows elapsed punctual hx
  | called made tells now =>
    have hnow : e'.session.now = e.session.now := act_now (x := .pump) hx
    exact .called (hcalls.trans (congrArg (· ++ e.callIn .pump) made)) (tells.later now)
      (hnow ▸ now)

theorem Underway.act (h : Underway f since e) (hand : e.Handover) (window : f.debounce.isZero = false)
    (hx : e.act? x = some e') (going : x.stops = false) : Underway f (since ++ [(e, x)]) e' := by
  have hrises := (act_registry hand hx).changes
  refine ⟨h.window.trans (act_kept hx).1, Nat.lt_of_lt_of_le h.more hrises, fun y hy => ?_, ?_⟩
  · rcases List.mem_append.mp hy with hy | hy
    · exact Nat.le_trans (h.rising y hy) hrises
    · cases List.mem_singleton.mp hy
      exact hrises
  · by_cases hp : x = .pump
    · subst hp
      exact h.pump window hx
    · exact h.progress.aside hand hx hp going

/-- The union changes, be it that it changes back at once, while the pump is at rest. -/
structure Stirs (f : Edge) (x : Act) (g : Edge) : Prop where
  waits : f.pump = .waiting
  noticed : f.registry.announced.unseen f.versionSeen = false
  possible : f.act? x = some g
  changes : g.union ≠ f.union ∨ g.registry.announced.changes ≠ f.registry.announced.changes

theorem Stirs.other (h : f.Stirs x g) : x ≠ .pump := by
  rintro rfl
  have hnone : f.pump? = none := by simp [pump?, h.waits, h.noticed]
  exact absurd (h.possible.symm.trans hnone) (by simp)

theorem Stirs.underway (h : f.Stirs x g) (hand : f.Handover) (going : x.stops = false) :
    Underway f [(f, x)] g := by
  have haside := act_aside hand.sound h.possible h.other
  have hrises := haside.registry.changes
  have hdiffer : g.registry.announced.changes ≠ f.registry.announced.changes := by
    intro hsame
    rcases h.changes with hunion | hchanges
    · exact hunion (haside.registry.union hsame)
    · exact hchanges hsame
  have hseen : f.registry.announced.changes = f.versionSeen := Watch.unseen_eq_false.mp h.noticed
  have hstill : x.elapsed = 0 := by
    cases x with
    | pass ms =>
      cases h.possible
      exact absurd rfl hdiffer
    | _ => rfl
  have hnow : g.session.now = f.session.now := by
    rw [act_now h.possible, hstill, Nat.add_zero]
  refine ⟨(act_kept h.possible).1, by omega, ?_, .unnoticed ?_ ?_ ?_ ?_ ?_⟩
  · intro y hy
    cases List.mem_singleton.mp hy
    exact hrises
  · simp [calls, callIn_other f h.other]
  · exact ((act_kept h.possible).2 h.other going).trans h.waits
  · have hne : g.registry.announced.changes ≠ f.versionSeen := hseen ▸ hdiffer
    rw [haside.seen]
    simpa [Watch.unseen] using hne
  · exact Nat.le_of_eq hnow.symm
  · exact fun _ => hnow

theorem Reached.underway (h : Reached (before ++ (f, x) :: since) e) (stirs : f.Stirs x g)
    (window : f.debounce.isZero = false) (going : Unstopped ((f, x) :: since)) :
    Underway f ((f, x) :: since) e := by
  refine h.onward (P := fun since e => Unstopped since → Underway f since e) ?_ ?_ going
  · intro g' hf hx going
    cases stirs.possible.symm.trans hx
    exact stirs.underway hf.handover (going _ (List.mem_singleton.mpr rfl))
  · intro since u y v hu ih hy going
    have hearlier : Unstopped ((f, x) :: since) := fun z hz => going z (List.mem_append_left _ hz)
    exact (ih hearlier).act hu.handover window hy (going (u, y) (by simp))

/-- What becomes of a change that finds the pump at rest, as seen later. -/
structure Debounced (before : Past) (f : Edge) (since : Past) (e : Edge) : Prop where
  /-- The pause is the whole window, or thirty years if the clock cannot tell its end. -/
  pause : f.due = f.session.now + f.debounce.ticks ∨
    f.debounce.after? f.lastInstant f.session.now = none ∧ f.due = f.session.now + Duration.longestPause
  early : Timely since → e.session.now < f.due → calls since = []
  made : Timely since → (f.due < e.session.now ∨ f.due = e.session.now ∧ e.isReady .pump = false) →
    calls since ≠ []
  /-- Be time punctual or not, a call is on its way until it is made. -/
  awaited : calls since = [] →
    e.isReady .pump = true ∨ ∃ wake ∈ e.timer? .pump, e.session.now < wake
  /-- The call is made when the pause is over, for the union as it stands then, and it tells of the
  change and of all that came before the pause was over. -/
  first : ∀ c later, calls since = c :: later → ∃ looked, Tells f since looked c
  /-- It is the only one as long as there is no change that it does not tell of. -/
  only : ∀ c later, calls since = c :: later → e.registry.announced.changes = c.upTo →
    later = [] ∧ c.union = e.union
  /-- Of any two calls the later one tells of more. There is a whole window between them if the clock
  can tell the end of one that begins with the later, and at least thirty years of it in any case. -/
  apart : (calls (before ++ since)).Pairwise (fun c c' => c.upTo < c'.upTo ∧
    (f.debounce.after? f.lastInstant c'.time ≠ none → c.time + f.debounce.ticks ≤ c'.time) ∧
      c.time + min f.debounce.ticks Duration.longestPause ≤ c'.time)
  /-- Changes that cancel out leave what is wanted as it was. The session goes on as if nobody had said
  anything, so that the devices get what they would have got anyway: nothing on a connection on which
  all was asked for. -/
  cancelled : (∀ c ∈ calls since, c.union = f.union) →
    e.session.desired = f.session.desired ∧
      f.session.LeadsUntold (received since) e.session ∧
      ∀ d, f.session.phase.drive? = some d → (∀ r, f.session.phase ≠ .requesting d r) →
        f.session.desired.unseen f.session.desiredSeen = false →
        asked (before ++ since) e d.link = asked before f d.link

theorem Call.Precedes.apart {c c' : Call} (h : c.Precedes f c') : c.upTo < c'.upTo ∧
    (f.debounce.after? f.lastInstant c'.time ≠ none → c.time + f.debounce.ticks ≤ c'.time) ∧
      c.time + min f.debounce.ticks Duration.longestPause ≤ c'.time := by
  obtain ⟨hless, begun, hafter, hends⟩ := h
  unfold Edge.endOfPause at hends
  have hbegun := Nat.le_trans (f.debounce.le_endOfPause f.lastInstant begun) hends
  obtain ⟨_, heq⟩ | ⟨hnone, heq⟩ := f.debounce.endOfPause_cases f.lastInstant begun
  · exact ⟨hless, fun _ => by omega, by omega⟩
  · exact ⟨hless, fun htold => absurd hnone (Duration.after?_earlier htold hbegun), by omega⟩

theorem Progress.early (h : Progress f since e) (timely : Timely since)
    (soon : e.session.now < f.due) : calls since = [] := by
  cases h with
  | called made tells now =>
    rw [tells.punctual timely] at now
    exact absurd soon (Nat.not_lt_of_le now)
  | unnoticed none | pausing none | calling none => exact none

theorem Progress.awaited (h : Progress f since e) (none : calls since = []) :
    e.isReady .pump = true ∨ ∃ wake ∈ e.timer? .pump, e.session.now < wake := by
  cases h with
  | unnoticed none is unseen => exact .inl (by simp [isReady_pump, pump?, is, unseen])
  | @pausing begun none is =>
    rcases Nat.lt_or_ge e.session.now (f.endOfPause begun) with hlt | hge
    · exact .inr ⟨_, by simp [timer?, is], hlt⟩
    · exact .inl (by simp [isReady_pump, pump?, is, hge])
  | calling none knows => exact .inl knows.ready
  | called made => simp [none] at made

theorem Progress.made (h : Progress f since e) (timely : Timely since)
    (late : f.due < e.session.now ∨ f.due = e.session.now ∧ e.isReady .pump = false) :
    calls since ≠ [] := by
  -- until the call is made the pump has something to do, or the pause is not over
  have habsurd : e.session.now ≤ f.due → (e.session.now = f.due → e.isReady .pump = true) →
      calls since ≠ [] := by
    intro hle hready
    rcases late with hlt | ⟨heq, hrest⟩
    · exact absurd hle (Nat.not_le_of_lt hlt)
    · simp [hready heq.symm] at hrest
  cases h with
  | unnoticed none is unseen later punctual =>
    refine habsurd ?_ (fun _ => by simp [isReady_pump, pump?, is, unseen])
    rw [punctual timely]
    exact Duration.le_endOfPause _ _ _
  | pausing none is later punctual =>
    obtain ⟨rfl, hle⟩ := punctual timely
    exact habsurd hle (fun heq => by simp [isReady_pump, pump?, is, due, heq])
  | calling none knows elapsed punctual =>
    exact habsurd (Nat.le_of_eq (punctual timely)) (fun _ => knows.ready)
  | called made => simp [made]

theorem Progress.first {c : Call} {later : List Call} (h : Progress f since e)
    (hc : calls since = c :: later) : ∃ looked, Tells f since looked c := by
  cases h with
  | called made tells =>
    obtain ⟨rfl, _⟩ := List.cons.inj (made.symm.trans hc)
    exact ⟨_, tells⟩
  | unnoticed none | pausing none | calling none => simp [none] at hc

/-- An edge that lets changes come in for as long as can be said. -/
def unhurried : Edge :=
  { unbegun with debounce := .ofParts 18446744073709551615 999999999 }

end ChannelFeed.Edge
