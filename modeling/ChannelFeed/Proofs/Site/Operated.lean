import ChannelFeed.Proofs.Site.Run
import ChannelFeed.Site.Console

namespace ChannelFeed

/-- What each wake-up keeps is kept while time passes, and the clock does not run backwards. -/
theorem Timed.runUntil_kept {σ : Type} (t : Timed σ) {P : Nat → σ → Prop}
    (wakes : ∀ now later s, P now s → now ≤ later → P later (t.wake later s)) (reached : σ → Bool)
    (now target : Nat) (s : σ) (h : P now s) (ahead : now ≤ target) :
    P (t.runUntil reached now target s).2 (t.runUntil reached now target s).1 := by
  unfold runUntil
  generalize target - now = fuel
  induction fuel generalizing now s with
  | zero => exact h
  | succ fuel ih =>
    unfold runUntil.go
    cases hdue : t.timer? s with
    | none => exact wakes now target s h ahead
    | some due =>
      dsimp only
      split
      · rename_i hbetween
        have hwoken := wakes now due s h (Nat.le_of_lt hbetween.1)
        split
        · exact hwoken
        · exact ih due _ hwoken (Nat.le_of_lt hbetween.2)
      · exact wakes now target s h ahead

namespace Site

variable {s t u : Site} {place : Nat}

/-- Acts lead from one site to another. -/
def Turns (s t : Site) : Prop := ∀ past, Reached past s → ∃ later, Reached (past ++ later) t

theorem Turns.refl (s : Site) : s.Turns s := fun _ h => ⟨[], (List.append_nil _).symm ▸ h⟩

theorem Turns.trans (h : s.Turns t) (h' : t.Turns u) : s.Turns u := by
  intro past hs
  obtain ⟨later, ht⟩ := h past hs
  obtain ⟨more, hu⟩ := h' _ ht
  exact ⟨later ++ more, by rw [← List.append_assoc]; exact hu⟩

theorem Turns.act {x : Act} (can : s.CanBefall x) (h : s.act x = .ok t) : s.Turns t := by
  intro past hs
  have hreached := hs.act can
  rw [next_ok h] at hreached
  exact ⟨_, hreached⟩

theorem changeEdge_congr {f g : Edge → Edge} (same : ∀ e, s.edge? place = some e → f e = g e) :
    s.changeEdge place f = s.changeEdge place g := by
  unfold changeEdge
  split
  · rfl
  · rename_i e he
    rw [same e he]

/-- A change of an edge that its acts bring about. -/
theorem changeEdge_turns {f : Edge → Edge}
    (acts : ∀ e, s.edge? place = some e → ∃ acts, (∀ x ∈ acts, x.isInner = true) ∧ f e = e.run acts) :
    s.Turns (s.changeEdge place f) := by
  cases he : s.edge? place with
  | none =>
    have hsame : s.changeEdge place f = s := by
      unfold changeEdge
      rw [he]
    rw [hsame]
    exact .refl s
  | some e =>
    obtain ⟨acts, inner, hrun⟩ := acts e he
    rw [changeEdge_congr (g := fun e => e.run acts) (fun e' he' => by
      rw [he] at he'
      cases he'
      exact hrun)]
    exact .act (x := .edge place acts) inner rfl

theorem changeEdge_turns_act {f : Edge → Edge} (x : Edge.Act) (inner : x.isInner = true)
    (possible : ∀ e, s.edge? place = some e → e.act? x = some (f e)) :
    s.Turns (s.changeEdge place f) := by
  refine changeEdge_turns (fun e he => ⟨[x], List.forall_mem_singleton.mpr inner, ?_⟩)
  simp [Edge.run, possible e he]

theorem takeTurn_turns (s : Site) (t : Turn) : s.Turns (s.takeTurn t) := by
  have hwork : s.Turns (s.changeEdge t.place (fun e => e.work t.worker)) :=
    changeEdge_turns (fun e _ => Edge.work_run e t.worker)
  unfold takeTurn
  exact hwork.trans (.act (x := .arrange _ _) trivial rfl)

theorem settle_turns (s : Site) : s.Turns s.settle := by
  unfold settle
  generalize s.restBound = fuel
  induction fuel generalizing s with
  | zero => exact .refl s
  | succ fuel ih =>
    unfold settle.go
    split
    · exact .refl s
    · rename_i t rest _
      have hpop : s.Turns { s with queue := rest } := .act (x := .arrange rest s.timers) trivial rfl
      exact (hpop.trans (takeTurn_turns _ t)).trans (ih _)

theorem settle_now (s : Site) : s.settle.now = s.now := by
  unfold settle
  generalize s.restBound = fuel
  induction fuel generalizing s with
  | zero => rfl
  | succ fuel ih =>
    unfold settle.go
    split
    · rfl
    · exact (ih _).trans (changeEdge_changes _ _ _).now

theorem wake_turns {now : Nat} (ahead : s.now ≤ now) : s.Turns (s.wake now) := by
  have hlate : s.now + (now - s.now) = now := Nat.add_sub_cancel' ahead
  have hpass : s.Turns { s with
      now, cells := s.cells.map (fun c => { c with edge := c.edge.atTime now }) } := by
    refine .act (x := .pass (now - s.now)) trivial ?_
    simp only [Site.act, hlate]
  unfold wake
  exact (hpass.trans (.act (x := .arrange _ _) trivial rfl)).trans (settle_turns _)

theorem wake_now (s : Site) (now : Nat) : (s.wake now).now = now := settle_now _

theorem advance_turns (s : Site) (ms : Nat) : s.Turns (s.advance ms) := by
  have hkept := timed.runUntil_kept (P := fun now t => t.now = now ∧ s.Turns t)
    (fun now later t ht hle => ⟨wake_now t later, ht.2.trans (wake_turns (ht.1 ▸ hle))⟩)
    (fun _ => false) s.now (s.now + min ms Duration.longestPause) s ⟨rfl, .refl s⟩
    (Nat.le_add_right _ _)
  exact hkept.2

theorem waitConnected_turns (s : Site) (place ms : Nat) :
    s.Turns (s.waitConnected place ms).1 := by
  unfold waitConnected
  split
  · exact .refl s
  · exact .refl s
  · rename_i w _ _
    have hkept := (timedWait place).runUntil_kept
      (P := fun now (sw : Site × Wait) => sw.1.now = now ∧ s.Turns sw.1)
      (fun now later sw hsw hle =>
        ⟨wake_now sw.1 later, hsw.2.trans (wake_turns (hsw.1 ▸ hle))⟩)
      (fun sw => sw.2.isDecided) s.now (s.now + ms) (s, w) ⟨rfl, .refl s⟩ (Nat.le_add_right _ _)
    exact hkept.2

theorem readLinks_turns (s : Site) (place : Nat) : s.Turns (s.readLinks place).1 := by
  unfold readLinks
  split
  · exact .refl s
  · rename_i e he
    refine changeEdge_turns_act .read rfl (fun e' he' => ?_)
    rw [he] at he'
    cases he'
    rfl

end Site

namespace Console

open Site (Turns changeEdge_turns_act)

variable {c : Console} {place : Nat}

/-- A step at a console comes to acts of its site. -/
def Operates (c d : Console) : Prop := c.site.Turns d.site

theorem Operates.collected {d : Console} (h : c.Operates d) : c.Operates d.collect :=
  Turns.trans h (.act (x := .collect) trivial rfl)

theorem change_operates {f : Site → Site} (h : c.site.Turns (f c.site)) :
    c.Operates (c.change f) :=
  Operates.collected (d := { c with site := f c.site }) h

theorem runCommand_operates (c : Console) (place : Nat) (e : Edge) (command : Command) :
    c.Operates (c.runCommand place e command).1 :=
  change_operates (changeEdge_turns_act (.command command) rfl (fun _ _ => rfl))

theorem actOnEdge_operates {e : Edge} (c : Console) (place : Nat) (step : EdgeStep) :
    c.Operates (c.actOnEdge place e step).1 := by
  cases step with
  | command command => exact runCommand_operates c place e command
  | subscribeDecoded subscriber decoder =>
    exact change_operates
      (changeEdge_turns_act (.decoded subscriber decoder) rfl (fun _ _ => rfl))
  | waitConnected ms =>
    exact Operates.collected (d := { c with site := (c.site.waitConnected place ms).1 })
      (c.site.waitConnected_turns place ms)
  | check | current | report => exact .refl c.site
  | shutdown => exact change_operates (changeEdge_turns_act .shutdown rfl (fun _ _ => rfl))
  | events => exact .act (x := .listenTo place e.id) trivial rfl

theorem placed_operates {result : Except Fault (Site × Nat)}
    (h : ∀ t place, result = .ok (t, place) → c.site.Turns t) : c.Operates (c.placed result).1 := by
  cases result with
  | error fault => exact .refl c.site
  | ok made => exact Operates.collected (d := { c with site := made.1 }) (h made.1 made.2 rfl)

theorem act_operates (c : Console) (step : Step) : c.Operates (c.act step).1 := by
  have hplaces : ∀ (x : Site.Act) (result : Except Fault (Site × Nat)), c.site.CanBefall x →
      c.site.act x = result.map Prod.fst → c.Operates (c.placed result).1 := by
    intro x result can hact
    refine placed_operates (fun t place hresult => .act can ?_)
    rw [hact, hresult]
    rfl
  cases step with
  | openShared config => exact hplaces (.openShared config (.queued [])) _ rfl rfl
  | openOwn config => exact hplaces (.openOwn config) _ trivial rfl
  | add config => exact hplaces (.add config (.queued [])) _ rfl rfl
  | addConfigured config => exact hplaces (.addConfigured config) _ trivial rfl
  | remove edge =>
    simp only [act]
    split
    · rename_i site hremove
      exact Operates.collected (d := { c with site }) (.act (x := .remove edge) trivial hremove)
    · exact .refl c.site
  | edgeIds | managed | listenerCount | settle => exact .refl c.site
  | shutdownAll =>
    exact change_operates (.act (x := .shutdownAll c.site.members.entries) (.refl _) rfl)
  | listen => exact .act (x := .listen none) trivial rfl
  | drain n =>
    simp only [act, drain]
    split
    · exact .refl c.site
    · split <;> exact .refl c.site
  | advance ms => exact change_operates (c.site.advance_turns ms)
  | dropEdge place =>
    simp only [act]
    split
    · exact change_operates (.act (x := .letGo place) trivial rfl)
    · exact .refl c.site
  | guard place command =>
    simp only [act]
    split
    · exact runCommand_operates c place _ command
    · exact .refl c.site
  | edge place step =>
    simp only [act]
    split
    · exact actOnEdge_operates c place step
    · exact .refl c.site
  | device place step =>
    simp only [act]
    split
    · rename_i e he
      split
      · rename_i session reply hdevice
        refine change_operates (changeEdge_turns_act (.device step) rfl (fun e' he' => ?_))
        rw [he] at he'
        cases he'
        simp [Edge.act?, hdevice]
      · exact .refl c.site
    · exact .refl c.site

theorem foldl_operates {α β : Type} {f : Console × β → α → Console × β}
    (visits : ∀ (p : Console × β) a, p.1.Operates (f p a).1) (xs : List α) (p : Console × β) :
    p.1.Operates (xs.foldl f p).1 := by
  induction xs generalizing p with
  | nil => exact .refl p.1.site
  | cons a rest ih => exact Turns.trans (visits p a) (ih (f p a))

theorem readLinks_operates (c : Console) : c.Operates c.readLinks.1 := by
  unfold readLinks
  refine foldl_operates (fun p place => ?_) c.site.places (c, [])
  exact p.1.site.readLinks_turns place

theorem takeJournal_operates (c : Console) (place : Nat) : c.Operates (c.takeJournal place).1 := by
  unfold takeJournal
  split
  · exact .refl c.site
  · exact change_operates (.act (x := .journal place) trivial rfl)

theorem settle_operates (c : Console) : c.Operates (c.change Site.settle) :=
  change_operates c.site.settle_turns

theorem perform_operates (c : Console) (step : Step) : c.Operates (c.perform step).1 := by
  have hact := Turns.trans (act_operates c step) (settle_operates _)
  have hread := Turns.trans (Turns.trans hact (readLinks_operates _)) (settle_operates _)
  unfold perform
  dsimp only
  refine Turns.trans hread (foldl_operates ?_ _ (_, []))
  exact fun p x => takeJournal_operates p.1 x.2

/-- Whatever is done at a console, the site at it goes through a run. -/
theorem operated {capacity source : Nat} (made : ofCapacity? capacity source = some c)
    (steps : List Step) :
    ∃ past, Site.Reached past (steps.foldl (fun c step => (c.perform step).1) c).site := by
  obtain ⟨site, hsite, rfl⟩ := Option.map_eq_some_iff.mp made
  have hlisten : site.Turns { site with
      shared := (site.shared.listen none).1, manager := (site.manager.listen none).1 } :=
    Turns.trans (.act (x := .listenShared none) trivial rfl)
      (.act (x := .listen none) trivial rfl)
  have hsteps : ∀ (steps : List Step) (c : Console),
      c.Operates (steps.foldl (fun c step => (c.perform step).1) c) := by
    intro steps
    induction steps with
    | nil => exact fun c => .refl c.site
    | cons step rest ih => exact fun c => Turns.trans (perform_operates c step) (ih _)
  have hrun := hsteps steps ⟨{ site with
    shared := (site.shared.listen none).1, manager := (site.manager.listen none).1 },
    (site.shared.listen none).2, (site.manager.listen none).2, [], []⟩
  obtain ⟨later, hreached⟩ := hlisten.trans hrun [] (.start hsite)
  exact ⟨_, hreached⟩

end Console

end ChannelFeed
