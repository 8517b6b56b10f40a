import ChannelFeed.Proofs.Edge.Run
import ChannelFeed.Proofs.Panel.Kept
import ChannelFeed.Proofs.Session.Telling
import ChannelFeed.Proofs.Session.Traffic

namespace ChannelFeed

open Session (publishedEvents_append)

def Panel.events (p : Panel) : List Event := publishedEvents p.notes

theorem Panel.kept_events (told : List Event) :
    Panel.Kept (fun _ notes => publishedEvents notes = told) := by
  have hsilent : ∀ notes more : List Note, publishedEvents more = [] →
      publishedEvents notes = told → publishedEvents (notes ++ more) = told := by
    intro notes more hmore hnotes
    rw [publishedEvents_append, hmore, List.append_nil, hnotes]
  refine ⟨fun _ _ _ _ _ _ => hsilent _ _ rfl, fun d _ handle => hsilent _ _ ?_,
    fun _ _ _ => hsilent _ _ rfl, fun _ _ _ _ => hsilent _ _ rfl, fun _ _ _ _ => hsilent _ _ rfl⟩
  unfold Dispatcher.unsubscribeNotes Registry.unregisterNotes
  split <;> split <;> rfl

namespace Edge

variable {e f g : Edge} {told more : List Event} {x : Act}

/-- The events that an edge and its parts have noted and that were not carried off yet. -/
def events (e : Edge) : List Event := publishedEvents (e.notes ++ e.panel.notes ++ e.session.notes)

/-- One state of an edge leads to another at one instant, and these events are told meanwhile. -/
structure Goes (e f : Edge) (told : List Event) : Prop where
  id : f.id = e.id
  now : f.session.now = e.session.now
  session : e.session.Goes f.session told
  events : f.events = e.events ++ told

theorem Goes.refl (e : Edge) : e.Goes e [] := ⟨rfl, rfl, .refl, (List.append_nil _).symm⟩

theorem Goes.trans (h : e.Goes f told) (h' : f.Goes g more) : e.Goes g (told ++ more) where
  id := h'.id.trans h.id
  now := h'.now.trans h.now
  session := h.session.trans h'.session
  events := by rw [h'.events, h.events, List.append_assoc]

theorem Goes.aside (id : f.id = e.id) (session : f.session = e.session)
    (notes : publishedEvents f.notes = publishedEvents e.notes)
    (panel : f.panel.events = e.panel.events) : e.Goes f [] := by
  have hpanel : publishedEvents f.panel.notes = publishedEvents e.panel.notes := panel
  refine ⟨id, by rw [session], session ▸ .refl, ?_⟩
  simp [Edge.events, session, publishedEvents_append, notes, hpanel]

theorem goes_note (e : Edge) (notes : List Note) (silent : publishedEvents notes = []) :
    e.Goes (e.note notes) [] :=
  .aside rfl rfl (by simp [note, publishedEvents_append, silent]) rfl

theorem goes_panel (e : Edge) (panel : Panel) (h : panel.events = e.panel.events) :
    e.Goes { e with panel } [] := .aside rfl rfl rfl h

theorem goes_session (e : Edge) {y : Session.Step} {t : Session}
    (h : e.session.step? y = some t) (inner : y.isInner = true) :
    e.Goes { e with session := t } (e.session.toldIn y t) where
  id := rfl
  now := Session.step_now h (by rintro ms rfl; cases inner)
  session := .single h
  events := by
    have hy : y ≠ .collect := by
      rintro rfl
      cases inner
    simp only [events, publishedEvents_append, Session.step_told h hy, List.append_assoc]

theorem goes_collect (e : Edge) : e.Goes e.collect [] where
  id := rfl
  now := rfl
  session := by
    have hrefused : e.session.refusedIn .collect = [] := Session.refusedIn_other rfl
    refine .quiet (x := .collect) rfl ?_
    simp [Session.toldIn, Session.sentIn, Session.putIn, hrefused, Session.state, collect]
  events := by simp [events, collect, publishedEvents, List.filterMap_append]

theorem Goes.collected (h : e.Goes f told) : e.Goes f.collect told := by
  simpa using h.trans (goes_collect f)

theorem pump_goes (h : e.pump? = some f) : ∃ told, e.Goes f told := by
  unfold pump? at h
  split at h
  · split at h
    · cases h
      exact ⟨[], .aside rfl rfl rfl rfl⟩
    · cases h
  · split at h
    · cases h
      exact ⟨[], .aside rfl rfl rfl rfl⟩
    · cases h
  · cases h
    exact ⟨[], .aside rfl rfl rfl rfl⟩
  · cases h
    exact ⟨[], .aside rfl rfl rfl rfl⟩
  · rename_i version union _
    have hset := goes_session e (y := .set union) rfl rfl
    have hwaits := hset.trans (.aside (f := { e with
      session := (e.session.setSubscription union).1, pump := .waiting }) rfl rfl rfl rfl)
    dsimp only at h
    split at h
    · cases h
      exact ⟨_, hwaits.trans (goes_note _ _ rfl)⟩
    · cases h
      exact ⟨_, hwaits⟩
  · cases h

theorem process_goes (h : e.process? = some f) : ∃ told, e.Goes f told := by
  have htake := goes_session e (y := .take) rfl rfl
  unfold process? at h
  split at h
  · split at h
    · rename_i session snapshot hs
      cases h
      rw [hs] at htake
      have hmerge := (htake.trans (goes_panel { e with session } (e.panel.merge snapshot)
        ((Panel.kept_events _).merge e.panel.dispatcher _ snapshot rfl))).collected
      have hnote := hmerge.trans (goes_note _ [.snapshotApplied e.id
        (e.panel.merge snapshot).dispatcher.generation.number
        (e.panel.merge snapshot).dispatcher.generation.touched.size] rfl)
      exact ⟨_, (hnote.trans (goes_panel _ _ ((Panel.kept_events _).deliverCurrent _ rfl))).collected⟩
    · rename_i session hs
      cases h
      rw [hs] at htake
      have hdrop := htake.trans
        (goes_session { e with session } (y := .dropSnapshots) rfl rfl)
      have hends := hdrop.trans (.aside (f := { e with
        session := session.dropSnapshots, processing := false }) rfl rfl rfl rfl)
      exact ⟨_, hends.trans (goes_note _ _ rfl)⟩
    · cases h
  · cases h

theorem stop_goes (e : Edge) : ∃ told, e.Goes e.stop told := by
  have hshut := goes_session e (y := .shutdown) rfl rfl
  have hdrop := hshut.trans
    (goes_session { e with session := e.session.shutdown } (y := .dropSnapshots) rfl rfl)
  have hends := hdrop.trans (.aside (f := { e with
    session := e.session.shutdown.dropSnapshots, pump := .stopped, processing := false })
    rfl rfl rfl rfl)
  exact ⟨_, hends.collected⟩

/-- What happens to an edge alone, at one instant and with its notes left in place. -/
def Act.isInner : Act → Bool
  | pass _ => false
  | drain => false
  | _ => true

/-- Whatever happens to an edge tells what its session does meanwhile. -/
theorem act_goes (h : e.act? x = some f) (inner : x.isInner = true) : ∃ told, e.Goes f told := by
  cases x with
  | drain | pass ms => cases inner
  | command command =>
    cases h
    exact ⟨_, (goes_panel e _ ((Panel.kept_events _).perform _ _ rfl)).collected⟩
  | decoded subscriber decoder =>
    cases h
    have hpanel := (Panel.kept_events e.panel.events).subscribe e.panel subscriber none
      decoder.addresses.toList (.decoded decoder) rfl
    exact ⟨_, (goes_panel e _ hpanel).collected⟩
  | session m =>
    simp only [act?, Option.map_eq_some_iff] at h
    obtain ⟨session, hm, rfl⟩ := h
    exact ⟨_, (goes_session e (y := .move m) hm rfl).collected⟩
  | pump => exact pump_goes h
  | process => exact process_goes h
  | device step =>
    simp only [act?, Option.map_eq_some_iff] at h
    obtain ⟨result, hd, rfl⟩ := h
    refine ⟨_, goes_session e (y := .device step) ?_ rfl⟩
    simp only [Session.step?, hd, Option.map_some]
  | read =>
    cases h
    exact ⟨_, goes_session e (y := .read) rfl rfl⟩
  | shutdown =>
    cases h
    obtain ⟨told, hstop⟩ := stop_goes (e.note [.edgeShuttingDown e.id])
    exact ⟨_, (goes_note e _ rfl).trans hstop⟩
  | letGo =>
    cases h
    exact ⟨_, goes_panel e _ rfl⟩
  | dispose =>
    cases h
    obtain ⟨told, hstop⟩ := stop_goes e
    exact ⟨_, hstop.trans (goes_panel _ _ rfl)⟩

theorem stop_stopped (e : Edge) : e.stop.session.stopped = true := by
  have hshut := congrArg Session.Standing.stopped (Session.standing_shutdown e.session)
  rw [Session.Standing.stop_stopped] at hshut
  exact hshut

/-- The edge after some acts, of which those that are not possible are passed over. -/
def run (e : Edge) (acts : List Act) : Edge := acts.foldl (fun e x => (e.act? x).getD e) e

theorem run_goes {acts : List Act} (e : Edge) (inner : ∀ x ∈ acts, x.isInner = true) :
    ∃ told, e.Goes (e.run acts) told := by
  induction acts generalizing e with
  | nil => exact ⟨[], .refl e⟩
  | cons x rest ih =>
    obtain ⟨hx, hrest⟩ := List.forall_mem_cons.mp inner
    obtain ⟨more, hmore⟩ := ih ((e.act? x).getD e) hrest
    cases hact : e.act? x with
    | none =>
      rw [hact] at hmore
      exact ⟨more, by simpa [run, hact] using hmore⟩
    | some f =>
      obtain ⟨told, hgoes⟩ := act_goes hact hx
      rw [hact] at hmore
      exact ⟨told ++ more, by simpa [run, hact] using hgoes.trans hmore⟩

theorem step_act {w : Worker} (h : e.step? w = some f) :
    ∃ x, x.isInner = true ∧ e.act? x = some f := by
  cases w with
  | session =>
    simp only [step?, Option.map_eq_some_iff] at h
    obtain ⟨session, hs, rfl⟩ := h
    obtain ⟨m, _, hm⟩ := List.exists_of_findSome?_eq_some hs
    exact ⟨.session m, rfl, by simp [act?, hm]⟩
  | pump => exact ⟨.pump, rfl, h⟩
  | processor => exact ⟨.process, rfl, h⟩

/-- A worker's turn is made of acts. -/
theorem work_run (e : Edge) (w : Worker) :
    ∃ acts, (∀ x ∈ acts, x.isInner = true) ∧ e.work w = e.run acts := by
  unfold work
  generalize e.workBound = fuel
  induction fuel generalizing e with
  | zero => exact ⟨[], fun _ hx => (nomatch hx), rfl⟩
  | succ fuel ih =>
    unfold work.go
    cases hstep : e.step? w with
    | none => exact ⟨[], fun _ hx => (nomatch hx), rfl⟩
    | some f =>
      obtain ⟨x, hx, hact⟩ := step_act hstep
      obtain ⟨acts, hacts, hrun⟩ := ih f
      refine ⟨x :: acts, List.forall_mem_cons.mpr ⟨hx, hacts⟩, ?_⟩
      simp only [hrun, run, List.foldl_cons, hact, Option.getD_some]

end Edge

end ChannelFeed
