import ChannelFeed.Proofs.Edge.Handover
import ChannelFeed.Proofs.Edge.Telling
import ChannelFeed.Proofs.Session.Watched
import ChannelFeed.Wait

namespace ChannelFeed.Edge

variable {e e' f first : Edge} {x : Act} {past since : Past} {looked : List Edge} {w : Wait}

theorem Reached.served (h : Reached past e) : e.session.Served := by
  have hkept : (∃ past', Session.Reached past' e.session) ∧ e.session.Served := by
    induction h with
    | @start c connector source now e promised started =>
      obtain ⟨past', hs, _⟩ := (Reached.start promised started).session
      refine ⟨⟨past', hs⟩, ?_⟩
      unfold Edge.start Session.ofConfig at started
      split at started
      · rename_i snapshots hcapacity
        cases started
        exact ⟨fun _ _ => (Session.ofCapacity_fresh hcapacity).2.1, fun _ hp => nomatch hp⟩
      · cases started
    | @act past e e' x earlier possible ih =>
      refine act_keeps (P := fun s => (∃ past', Session.Reached past' s) ∧ s.Served) ?_ ih possible
      rintro s t y ⟨⟨past', hs⟩, hserved⟩ hy hmade
      refine ⟨⟨_, hs.step hy⟩, hs.served_step hserved hy (fun hdrop => ?_)⟩
      rcases hmade.dropped hdrop with hstop | hsender
      · exact .inl hstop
      · by_contra hne
        rw [not_or] at hne
        simp [hs.streaming.sending hne.2] at hsender
  exact hkept.2

theorem Reached.shown (h : Reached past e) : e.session.Shown := by
  obtain ⟨past', hs, _⟩ := h.session
  exact hs.shown

theorem act_later (shown : e.session.Shown) (h : e.act? x = some e') :
    e.session.Later e'.session := by
  refine (act_keeps (P := fun t => t.Shown ∧ e.session.Later t) ?_ ⟨shown, .refl _⟩ h).2
  rintro s t y ⟨hs, hlater⟩ hy _
  exact ⟨hs.step hy, hlater.trans (hs.later hy)⟩

theorem act_stopped (h : e.act? x = some e') (hx : x.stops = false) :
    e'.session.stopped = e.session.stopped := by
  refine act_keeps (P := fun t => t.stopped = e.session.stopped) (fun {s t y} hs hy hmade => ?_)
    rfl h
  rcases Session.step_course hy with ⟨m, _, hc⟩ | ⟨_, _, ⟨hy', _⟩ | ⟨_, he⟩ | ⟨_, _, he⟩⟩
  · exact hc.stopped.trans hs
  · simp [hmade.stopped hy'] at hx
  · exact (congrArg Session.Standing.stopped he).trans hs
  · exact (congrArg Session.Standing.stopped he).trans hs

theorem act_stops (h : e.act? x = some e') (hx : x.stops = true) :
    e'.session.stopped = true ∧ e.session.Sets e'.session := by
  have hsets : e.session.Sets e.stop.session := (Session.sets_shutdown e.session).after rfl
  cases x with
  | shutdown =>
    cases h
    exact ⟨stop_stopped _, hsets⟩
  | dispose =>
    cases h
    exact ⟨stop_stopped e, hsets⟩
  | _ => cases hx

/-- Whether an edge was stopped while its session was still to begin. -/
def StoppedEarly (past : Past) : Prop :=
  ∃ y ∈ past, y.1.session.phase = .spawned ∧ y.2.stops = true

theorem stoppedEarly_append (past more : Past) :
    StoppedEarly (past ++ more) ↔ StoppedEarly past ∨ StoppedEarly more := by
  simp only [StoppedEarly, List.mem_append, or_and_right, exists_or]

/-- An edge that was stopped so early is one that was stopped and whose state has never changed. -/
theorem Reached.stoppedEarly_iff (h : Reached past e) :
    StoppedEarly past ↔ e.session.stopped = true ∧ e.session.changeCount = 0 := by
  induction h with
  | @start c connector source now e promised started =>
    unfold Edge.start Session.ofConfig at started
    split at started
    · cases started
      exact ⟨fun ⟨_, hy, _⟩ => (nomatch hy), fun hs => nomatch hs.1⟩
    · cases started
  | @act past e e' x earlier possible ih =>
    obtain ⟨past', hs, _⟩ := earlier.session
    have hlater := act_later earlier.shown possible
    rw [stoppedEarly_append]
    constructor
    · rintro (hearly | ⟨y, hy, hphase, hstops⟩)
      · obtain ⟨hstop, hzero⟩ := ih.mp hearly
        obtain ⟨hstop', hsame⟩ := hlater.halted hstop
        exact ⟨hstop', (congrArg Watch.changes hsame).trans hzero⟩
      · -- the session was disconnected and stays so
        cases List.mem_singleton.mp hy
        obtain ⟨hstop', hsets⟩ := act_stops possible hstops
        have hsame : e'.session.state = e.session.state :=
          ((earlier.act possible).shown.halted hstop').trans (hs.shown.spawned hphase).symm
        rw [Session.Sets, if_pos hsame] at hsets
        exact ⟨hstop', (congrArg Watch.changes hsets).trans (hs.changeCount_spawned hphase)⟩
    · rintro ⟨hstop', hzero'⟩
      have hzero : e.session.changeCount = 0 := Nat.le_zero.mp (hzero' ▸ hlater.changeCount)
      cases hstop : e.session.stopped with
      | true => exact .inl (ih.mpr ⟨hstop, hzero⟩)
      | false =>
        have hstops : x.stops = true := by
          cases hx : x.stops with
          | true => rfl
          | false => simp [act_stopped possible hx, hstop] at hstop'
        exact .inr ⟨(e, x), List.mem_singleton.mpr rfl, (hs.unchanged hzero).2 hstop, hstops⟩

/-- Someone waits for an edge, and found it in one state at first: what has happened to the edge since
then, in which states it was found when it was looked for, the edge now, and how far the wait is. -/
inductive Waits (first : Edge) : Past → List Edge → Edge → Wait → Prop where
  | begins : Waits first [] [first] first (.look first)
  | act {since : Past} {looked : List Edge} {e e' : Edge} {w : Wait} {x : Act}
      (earlier : Waits first since looked e w) (possible : e.act? x = some e') :
      Waits first (since ++ [(e, x)]) looked e' w
  | looks {since : Past} {looked : List Edge} {e : Edge} {w : Wait}
      (earlier : Waits first since looked e w) : Waits first since (looked ++ [e]) e (w.resume e)

theorem Waits.reached (h : Waits first since looked e w) (hf : Reached past first) :
    Reached (past ++ since) e := by
  induction h with
  | begins => simpa using hf
  | act _ possible ih =>
    rw [← List.append_assoc]
    exact ih.act possible
  | looks _ ih => exact ih

/-- What a look decides it has seen. -/
theorem look_decided {connected : Bool} (h : Wait.look e = .decided connected) :
    e.session.state.isConnected = connected ∧ Wait.decides e = true := by
  unfold Wait.look at h
  split at h
  · rename_i hd
    cases h
    exact ⟨rfl, hd⟩
  · cases h

theorem look_pending {seen : Nat} (h : Wait.look e = .pending seen) :
    seen = e.session.changeCount ∧ e.session.state.isConnected = false ∧
      e.session.state.isFailed = false ∧ e.session.stopped = false := by
  unfold Wait.look at h
  split at h
  · cases h
  · rename_i hd
    cases h
    simp only [Wait.decides, Bool.or_eq_true, not_or, Bool.not_eq_true] at hd
    exact ⟨rfl, hd.1.1, hd.1.2, hd.2⟩

theorem resume_cases (w : Wait) (e : Edge) : w.resume e = .look e ∨
    w.resume e = w ∧ ∀ seen, w = .pending seen → e.session.changeCount = seen := by
  unfold Wait.resume
  split
  · rename_i seen
    split
    · exact .inl rfl
    · rename_i hseen
      refine .inr ⟨rfl, fun n hn => ?_⟩
      cases hn
      simpa [Session.changeCount, Watch.unseen] using hseen
  · exact .inr ⟨rfl, by simp⟩

theorem Waits.decided {connected : Bool} (h : Waits first since looked e w)
    (hw : w = .decided connected) :
    ∃ f ∈ looked, f.session.state.isConnected = connected ∧ Wait.decides f = true := by
  induction h with
  | begins => exact ⟨first, List.mem_singleton.mpr rfl, look_decided hw⟩
  | act _ _ ih => exact ih hw
  | @looks since looked e w _ ih =>
    rcases resume_cases w e with hlook | ⟨hsame, _⟩
    · rw [hlook] at hw
      exact ⟨e, by simp, look_decided hw⟩
    · rw [hsame] at hw
      obtain ⟨f, hf, hseen⟩ := ih hw
      exact ⟨f, List.mem_append_left _ hf, hseen⟩

/-- What is known of an edge for which a wait goes on since some change: it was not stopped at first,
and as long as the state has not changed it is neither connected nor failed, nor disconnected except
before its beginning. -/
structure Undecided (first e : Edge) (seen : Nat) : Prop where
  running : first.session.stopped = false
  past : seen ≤ e.session.changeCount
  unchanged : e.session.changeCount = seen → e.session.state.isConnected = false ∧
    e.session.state.isFailed = false ∧ (e.session.state = .disconnected → seen = 0)

theorem Reached.looks_pending {seen : Nat} (h : Reached past e) (hw : Wait.look e = .pending seen)
    (running : first.session.stopped = false) : Undecided first e seen := by
  obtain ⟨rfl, hconnected, hfailed, hstop⟩ := look_pending hw
  obtain ⟨past', hs, _⟩ := h.session
  refine ⟨running, Nat.le_refl _, fun _ => ⟨hconnected, hfailed, fun down => ?_⟩⟩
  rcases h.served.disconnected hs.shown down with hstopped | hspawned
  · simp [hstop] at hstopped
  · exact hs.changeCount_spawned hspawned

theorem Waits.pending {seen : Nat} (h : Waits first since looked e w) (hf : Reached past first)
    (hw : w = .pending seen) : Undecided first e seen := by
  induction h generalizing seen with
  | begins => exact hf.looks_pending hw (look_pending hw).2.2.2
  | @act since looked e e' w x earlier possible ih =>
    obtain ⟨running, hseen, hunchanged⟩ := ih hw
    have hlater := act_later (earlier.reached hf).shown possible
    refine ⟨running, Nat.le_trans hseen hlater.changeCount, fun he => ?_⟩
    have hcount := Nat.le_antisymm (he ▸ hlater.changeCount) hseen
    have hstate : e'.session.state = e.session.state :=
      congrArg Watch.value (hlater.same (he.trans hcount.symm))
    rw [hstate]
    exact hunchanged hcount
  | @looks since looked e w earlier ih =>
    rcases resume_cases w e with hlook | ⟨hsame, _⟩
    · cases w with
      | pending seen' =>
        rw [hlook] at hw
        exact (earlier.reached hf).looks_pending hw (ih rfl).running
      | decided connected => cases hw
    · rw [hsame] at hw
      exact ih hw

/-- A wait that goes on after a look is for an edge that is neither connected nor failed, and that was
stopped, if at all, only since the wait began and before its state ever changed. -/
theorem Waits.lasts {seen : Nat} (h : Waits first since looked e w) (hf : Reached past first)
    (hw : w.resume e = .pending seen) : e.session.state.isConnected = false ∧
      e.session.state.isFailed = false ∧
      (e.session.stopped = true → first.session.stopped = false ∧ e.session.changeCount = 0) := by
  have hundecided := h.looks.pending hf hw
  have hcount : e.session.changeCount = seen := by
    rcases resume_cases w e with hlook | ⟨hsame, hseen⟩
    · rw [hlook] at hw
      exact (look_pending hw).1.symm
    · rw [hsame] at hw
      exact hseen seen hw
  obtain ⟨hconnected, hfailed, hdown⟩ := hundecided.unchanged hcount
  refine ⟨hconnected, hfailed, fun hstop => ⟨hundecided.running, ?_⟩⟩
  rw [hcount]
  exact hdown ((h.reached hf).shown.halted hstop)

/-- As long as the state has not changed at all, a wait that began before the stop goes on. -/
theorem Waits.unmoved (h : Waits first since looked e w) (hf : Reached past first)
    (running : first.session.stopped = false) (hzero : e.session.changeCount = 0) :
    w = .pending 0 := by
  induction h with
  | begins =>
    obtain ⟨past', hs, _⟩ := hf.session
    have hdown := (hs.unchanged hzero).1
    have hchanges : first.session.watchedState.changes = 0 := hzero
    simp [Wait.look, Wait.decides, hdown, running, hchanges, LinkState.isConnected,
      LinkState.isFailed]
  | act earlier possible ih =>
    have hlater := act_later (earlier.reached hf).shown possible
    exact ih (Nat.le_zero.mp (hzero ▸ hlater.changeCount))
  | @looks since looked e w _ ih =>
    have hchanges : e.session.watchedState.changes = 0 := hzero
    rw [ih hzero]
    simp [Wait.resume, Watch.unseen, hchanges]

/-- Whether the edge that someone waits for was stopped since then and before its session began. -/
def Missed (first : Edge) (since : Past) : Prop :=
  first.session.stopped = false ∧ StoppedEarly since

theorem Waits.missed_iff (h : Waits first since looked e w) (hf : Reached past first) :
    Missed first since ↔ first.session.stopped = false ∧ e.session.stopped = true ∧
      e.session.changeCount = 0 := by
  rw [Missed, ← (h.reached hf).stoppedEarly_iff, stoppedEarly_append]
  refine and_congr_right (fun running => ⟨.inr, ?_⟩)
  rintro (hearly | hearly)
  · simp [(hf.stoppedEarly_iff.mp hearly).1] at running
  · exact hearly

/-- How waiting for an edge ends, for whoever gives up after so many milliseconds and looks once more
then. -/
structure WaitFollows (first : Edge) (since : Past) (looked : List Edge) (e : Edge) (w : Wait)
    (ms : Nat) : Prop where
  /-- It ends well only if the edge was found connected. -/
  connected : w.answer ms = .ok () → ∃ f ∈ looked, f.session.state.isConnected = true
  /-- It ends badly before its time only if the edge was found failed or stopped. -/
  ended : w.answer ms = .error .notConnected → ∃ f ∈ looked,
    f.session.state.isConnected = false ∧
      (f.session.state.isFailed = true ∨ f.session.stopped = true)
  /-- The end of the session is noticed, unless the edge was found connected before or was stopped
  after the wait began and before the session did. -/
  noticed : (∀ f ∈ looked, f.session.state.isConnected = false) →
    (e.session.state.isFailed = true ∨ e.session.stopped = true) → ¬ Missed first since →
    (w.resume e).answer ms = .error .notConnected
  /-- In that case it is never noticed. -/
  missed : Missed first since → (w.resume e).answer ms = .error (.transport (.timeout ms))

theorem answer_ok {ms : Nat} (h : w.answer ms = .ok ()) : w = .decided true := by
  unfold Wait.answer at h
  split at h <;> first | rfl | cases h

theorem answer_notConnected {ms : Nat} (h : w.answer ms = .error .notConnected) :
    w = .decided false := by
  unfold Wait.answer at h
  split at h <;> first | rfl | cases h

theorem Waits.follows (h : Waits first since looked e w) (hf : Reached past first) (ms : Nat) :
    WaitFollows first since looked e w ms where
  connected hw := by
    obtain ⟨f, hfl, hseen, _⟩ := h.decided (answer_ok hw)
    exact ⟨f, hfl, hseen⟩
  ended hw := by
    obtain ⟨f, hfl, hseen, hd⟩ := h.decided (answer_notConnected hw)
    refine ⟨f, hfl, hseen, ?_⟩
    simpa [Wait.decides, hseen] using hd
  noticed hunseen hover hnot := by
    cases hw : w.resume e with
    | pending seen =>
      obtain ⟨_, hfailed, hstopped⟩ := h.lasts hf hw
      rcases hover with hover | hstop
      · simp [hfailed] at hover
      · obtain ⟨running, hzero⟩ := hstopped hstop
        exact absurd ((h.missed_iff hf).mpr ⟨running, hstop, hzero⟩) hnot
    | decided connected =>
      cases connected with
      | false => rfl
      | true =>
        obtain ⟨f, hfl, hseen, _⟩ := h.looks.decided hw
        rcases List.mem_append.mp hfl with hfl | hfl
        · simp [hunseen f hfl] at hseen
        · cases List.mem_singleton.mp hfl
          rcases hover with hover | hstop
          · rw [eq_of_beq hseen] at hover
            cases hover
          · rw [(h.reached hf).shown.halted hstop] at hseen
            cases hseen
  missed hmissed := by
    obtain ⟨running, _, hzero⟩ := (h.missed_iff hf).mp hmissed
    rw [h.looks.unmoved hf running hzero]
    rfl

/-- Someone waits for an edge that has not begun, which is then stopped before it begins: the session
ends and a second later the time is up. -/
theorem early_stop_missed : ∃ since e w, Waits unbegun since [unbegun] e w ∧
    e.session.phase = .finished ∧
    (w.resume e).answer 1000 = .error (.transport (.timeout 1000)) := by
  obtain ⟨run, hrun⟩ : ∃ run, replay act? [] unbegun
      [.shutdown, .session .start, .session .halt, .pass 1000] = some run := ⟨_, rfl⟩
  have hwaits : Waits unbegun run.1 [unbegun] run.2 (.look unbegun) :=
    replay_kept (R := fun since e => Waits unbegun since [unbegun] e (.look unbegun))
      (fun _ _ _ _ h => h.act) .begins hrun
  have hmissed : Missed unbegun run.1 := by
    cases hrun
    exact ⟨rfl, (unbegun, .shutdown), List.mem_cons_self, rfl, rfl⟩
  have hphase : run.2.session.phase = .finished := by
    cases hrun
    rfl
  have hfollows := hwaits.follows (.start rfl unbegun_start) 1000
  exact ⟨run.1, run.2, _, hwaits, hphase, hfollows.missed hmissed⟩

end ChannelFeed.Edge
