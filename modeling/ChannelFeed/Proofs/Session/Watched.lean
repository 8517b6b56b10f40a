import ChannelFeed.Proofs.Session.Stopped

namespace ChannelFeed.Session

variable {s t u : Session} {x : Step} {past : Past}

/-- The watched state is set if it becomes another, and only then. -/
def Sets (s t : Session) : Prop :=
  t.watchedState = if t.state = s.state then s.watchedState else s.watchedState.send t.state

theorem watched_retire (s : Session) : s.retire.watchedState = s.watchedState :=
  dropOutcomes_kept (P := fun t => t.watchedState = s.watchedState) s rfl (fun _ _ h => h) rfl

theorem watched_sync (s : Session) (d : Drive) : (s.sync d).watchedState = s.watchedState := by
  unfold sync
  dsimp only
  split <;> rfl

theorem watched_sent (s : Session) (d : Drive) (r : Request) :
    (s.sent d r).watchedState = s.watchedState := by
  unfold sent
  dsimp only
  split
  · rfl
  · exact watched_retire _

theorem watched_handle (s : Session) (d : Drive) (text : String) :
    (s.handle d text).watchedState = s.watchedState := by
  unfold handle
  dsimp only
  split
  · rfl
  · rfl
  · split <;> rfl
  · split <;> rfl
  · split <;> rfl

theorem watched_takeOutcome {outcome : Outcome} (h : s.takeOutcome? = some (t, outcome)) :
    t.watchedState = s.watchedState := by
  rcases takeOutcome_cases h with ⟨_, _, rfl⟩ | ⟨_, _, _, _, rfl⟩ <;> rfl

theorem Sets.of_eq (h : t.watchedState = s.watchedState) : Sets s t := by
  have hstate : t.state = s.state := congrArg Watch.value h
  rw [Sets, if_pos hstate, h]

theorem Sets.before (h : Sets u t) (hu : u.watchedState = s.watchedState) : Sets s t := by
  have hstate : u.state = s.state := congrArg Watch.value hu
  rw [Sets, h, hu, hstate]

theorem Sets.after (h : Sets s u) (ht : t.watchedState = u.watchedState) : Sets s t := by
  have hstate : t.state = u.state := congrArg Watch.value ht
  rw [Sets, ht, h, hstate]

theorem sets_transition (s : Session) (next : LinkState) : Sets s (s.transition next) := by
  unfold transition
  split
  · rename_i h
    have hne : ¬ next = s.state := by
      intro he
      simp [he] at h
    exact (if_neg hne).symm
  · exact .of_eq rfl

theorem sets_finish (s : Session) : Sets s s.finish :=
  (sets_transition s.retire .disconnected).before (watched_retire s)

theorem sets_shutdown (s : Session) : Sets s s.shutdown := by
  unfold shutdown
  split
  · exact .of_eq rfl
  · exact (sets_transition _ _).before rfl

theorem sets_attempt (s : Session) (failures : Nat) : Sets s (s.attempt failures) := by
  unfold attempt
  dsimp only
  split <;> exact (sets_transition s _).after rfl

theorem sets_openLink (s : Session) (link : Nat) : Sets s (s.openLink link) := by
  unfold openLink
  exact (sets_transition s .connected).after (watched_sync _ _)

theorem sets_retry (s : Session) (failures : Nat) (reason : String) :
    Sets s (s.retry failures reason) := by
  unfold retry
  split
  · exact (sets_transition _ _).before (watched_retire _)
  · exact (sets_transition s _).after rfl

theorem sets_lose (s : Session) (link : Nat) (reason : String) : Sets s (s.lose link reason) :=
  (sets_retry _ _ _).before rfl

theorem move_sets {m : Move} (h : s.move? m = some t) : Sets s t := by
  cases m with
  | start =>
    obtain ⟨_, rfl⟩ := start_cases h
    exact sets_attempt s 0
  | connect =>
    obtain ⟨failures, u, _, ⟨link, ho, rfl⟩ | ⟨fault, ho, rfl⟩⟩ := connect_cases h
    · exact (sets_openLink u link).before (watched_takeOutcome ho)
    · refine (sets_retry _ _ _).before ?_
      exact (watched_takeOutcome ho : u.watchedState = s.watchedState)
  | request =>
    obtain ⟨d, r, l, _, _, ⟨toDevice, _, rfl⟩ | ⟨_, rfl⟩⟩ := request_cases h
    · exact .of_eq (watched_sent _ d r)
    · exact sets_lose s _ _
  | forward =>
    obtain ⟨d, snapshot, _, ⟨snapshots, _, rfl⟩ | ⟨_, rfl⟩⟩ := forward_cases h
    · exact .of_eq rfl
    · exact (sets_finish _).before rfl
  | halt =>
    obtain ⟨_, ⟨_, rfl⟩ | ⟨d, _, rfl⟩⟩ := halt_cases h
    · exact sets_finish s
    · exact (sets_finish _).before rfl
  | desire =>
    obtain ⟨d, _, _, rfl⟩ := desire_cases h
    exact .of_eq (watched_sync s d)
  | frame =>
    obtain ⟨d, l, _, _, ⟨toClient, text, _, ⟨deadline, _, rfl⟩ | ⟨_, rfl⟩⟩ | ⟨_, rfl⟩⟩ :=
      frame_cases h
    · exact .of_eq (watched_handle _ _ _)
    · exact .of_eq (watched_retire _)
    · exact sets_lose s _ _
  | silence =>
    obtain ⟨d, _, _, _, _, rfl⟩ := silence_cases h
    exact sets_lose s _ _
  | wake =>
    obtain ⟨failures, _, _, _, rfl⟩ := wake_cases h
    exact sets_attempt s failures

/-- Whoever watches a session looks again at every change of its state, and at nothing else. -/
theorem step_sets (h : s.step? x = some t) : Sets s t := by
  cases x with
  | move m => exact move_sets h
  | set addresses =>
    cases h
    refine .of_eq ?_
    unfold setSubscription
    split <;> rfl
  | shutdown =>
    cases h
    exact sets_shutdown s
  | device step =>
    simp only [step?, Option.map_eq_some_iff] at h
    obtain ⟨result, hd, rfl⟩ := h
    obtain ⟨links, connector, heq⟩ := device_shape hd
    rw [heq]
    exact .of_eq rfl
  | read | take | dropSnapshots | pass ms | collect =>
    cases h
    exact .of_eq rfl

/-- How often the state of a session has changed. -/
def changeCount (s : Session) : Nat := s.watchedState.changes

/-- What of a session stands as it goes on: it does not start again after its stop, and its watched
state is set only to be another. -/
structure Later (s t : Session) : Prop where
  changeCount : s.changeCount ≤ t.changeCount
  same : t.changeCount = s.changeCount → t.watchedState = s.watchedState
  halted : s.stopped = true → t.stopped = true ∧ t.watchedState = s.watchedState

theorem Later.refl (s : Session) : Later s s := ⟨Nat.le_refl _, fun _ => rfl, fun h => ⟨h, rfl⟩⟩

theorem Later.trans (h : Later s t) (h' : Later t u) : Later s u where
  changeCount := Nat.le_trans h.changeCount h'.changeCount
  same he := by
    have hmid : t.changeCount = s.changeCount := Nat.le_antisymm (he ▸ h'.changeCount) h.changeCount
    rw [h'.same (he.trans hmid.symm), h.same hmid]
  halted hs := by
    obtain ⟨ht, hsame⟩ := h.halted hs
    obtain ⟨hu, hsame'⟩ := h'.halted ht
    exact ⟨hu, hsame'.trans hsame⟩

theorem Shown.later (h : Shown s) (hx : s.step? x = some t) : Later s t := by
  have hsets := step_sets hx
  refine ⟨?_, fun he => ?_, fun hs => ?_⟩
  · rw [changeCount, changeCount, hsets]
    split
    · exact Nat.le_refl _
    · exact Nat.le_succ _
  · by_cases hstate : t.state = s.state
    · rwa [Sets, if_pos hstate] at hsets
    · rw [changeCount, changeCount, hsets, if_neg hstate] at he
      exact absurd he (Nat.succ_ne_self _)
  · obtain ⟨hstate, ht⟩ := h.step_still hx hs
    exact ⟨ht, by rwa [Sets, if_pos hstate] at hsets⟩

theorem Shown.spawned (h : Shown s) (hp : s.phase = .spawned) : s.state = .disconnected := by
  cases hs : s.stopped with
  | true => exact h.halted hs
  | false => exact h.shows hs _ (congrArg shownIn hp)

/-- A session that is still to begin has not changed its state, whether it was stopped or not. -/
theorem Reached.changeCount_spawned (h : Reached past s) (hp : s.phase = .spawned) :
    s.changeCount = 0 := by
  induction h with
  | start _ started =>
    obtain ⟨snapshots, _, rfl⟩ := ofConfig_eq started
    rfl
  | @step past u t x earlier possible ih =>
    have hu : u.phase = .spawned := by
      rcases step_course possible with ⟨m, _, hc⟩ | ⟨_, hphase, _⟩
      · have hnone : t.phase.drive? = none := by rw [hp]; rfl
        generalize u.turnIn x = turn at hc
        cases hc with
        | begins _ is | wakes _ _ is | breaksDown _ is | ends _ is => simp [hp] at is
        | opens _ is | goesOn _ is => simp [hnone] at is
        | isRefused _ is | isLost _ is =>
          rcases is with ⟨_, is, _⟩ | ⟨_, _, is, _⟩ <;> simp [hp] at is
      · exact hphase ▸ hp
    have hsame : t.state = u.state :=
      ((earlier.shown.step possible).spawned hp).trans (earlier.shown.spawned hu).symm
    have hsets := step_sets possible
    rw [Sets, if_pos hsame] at hsets
    exact (congrArg Watch.changes hsets).trans (ih hu)

/-- A session whose state has never changed is disconnected, and it is still to begin unless it was
stopped. -/
theorem Reached.unchanged (h : Reached past s) (hzero : s.changeCount = 0) :
    s.state = .disconnected ∧ (s.stopped = false → s.phase = .spawned) := by
  induction h with
  | start _ started =>
    obtain ⟨snapshots, _, rfl⟩ := ofConfig_eq started
    exact ⟨rfl, fun _ => rfl⟩
  | @step past u t x earlier possible ih =>
    have hlater := earlier.shown.later possible
    have hu : u.changeCount = 0 := Nat.le_zero.mp (hzero ▸ hlater.changeCount)
    have hstate : t.state = u.state := congrArg Watch.value (hlater.same (hzero.trans hu.symm))
    obtain ⟨hdown, hspawned⟩ := ih hu
    refine ⟨hstate.trans hdown, fun running => ?_⟩
    have hrunning : u.stopped = false := by
      cases hs : u.stopped with
      | false => rfl
      | true => simp [(hlater.halted hs).1] at running
    have hp := hspawned hrunning
    rcases step_course possible with ⟨m, _, hc⟩ | ⟨_, hphase, _⟩
    · -- the only move is to begin, and that is a change of state
      have hnone : u.phase.drive? = none := by rw [hp]; rfl
      generalize u.turnIn x = turn at hc
      cases hc with
      | begins _ _ stands =>
        have hnext := (congrArg Standing.state stands).trans (Standing.become_state hrunning _)
        cases hnext.symm.trans (hstate.trans hdown)
      | opens was | isRefused was | wakes was => simp [hp] at was
      | goesOn was | isLost was | breaksDown was => simp [hnone] at was
      | ends was => simp [hnone, hrunning] at was
    · exact hphase.trans hp

/-- As long as a session was not stopped there is somebody to receive its snapshots, and it ends only
when it gives up or breaks down. -/
structure Served (s : Session) : Prop where
  received : s.stopped = false → s.phase ≠ .finished → s.snapshots.receiverOpen = true
  stays : s.stopped = false → s.phase = .finished → s.state ≠ .disconnected

/-- A move of a session that was not stopped, and whose snapshots are received, leads to its end only
when it gives up or breaks down. -/
theorem move_ends {m : Move} (h : s.move? m = some t) (running : s.stopped = false)
    (unsent : ∀ d snapshot, s.phase = .forwarding d snapshot →
      (s.snapshots.send snapshot).2 ≠ .closed) :
    t.phase ≠ .finished ∨ (s.phase.drive?.isSome = true ∧ t.standing = s.standing) ∨
      ∃ failures reason, GivesWay s t failures reason := by
  have hdrive : t.phase.drive?.isSome = true → t.phase ≠ .finished := by
    intro hd he
    rw [he] at hd
    cases hd
  cases m with
  | start =>
    obtain ⟨_, rfl⟩ := start_cases h
    exact .inl (by simp [attempt_phase])
  | wake =>
    obtain ⟨failures, _, _, _, rfl⟩ := wake_cases h
    exact .inl (by simp [attempt_phase])
  | halt =>
    obtain ⟨hs, _⟩ := halt_cases h
    simp [running] at hs
  | forward =>
    obtain ⟨d, snapshot, hp, ⟨snapshots, _, rfl⟩ | ⟨hs, rfl⟩⟩ := forward_cases h
    · exact .inl (by simp)
    · exact absurd hs (unsent d snapshot hp)
  | desire =>
    obtain ⟨d, _, _, rfl⟩ := desire_cases h
    exact .inl (hdrive (by rw [sync_drive]; rfl))
  | silence =>
    obtain ⟨d, _, _, _, _, rfl⟩ := silence_cases h
    exact .inr (.inr ⟨_, _, lose_givesWay s _ _⟩)
  | connect =>
    obtain ⟨failures, u, hp, ⟨link, ho, rfl⟩ | ⟨fault, ho, rfl⟩⟩ := connect_cases h
    · refine .inl (hdrive ?_)
      unfold openLink
      rw [sync_drive]
      rfl
    · refine .inr (.inr ⟨failures, _, (retry_givesWay _ failures fault.message).of_standing ?_ ?_⟩)
      · exact (standing_note _ rfl).trans (standing_takeOutcome ho)
      · exact (takeOutcome_now ho : u.now = s.now)
  | request =>
    obtain ⟨d, r, l, hp, _, ⟨toDevice, _, rfl⟩ | ⟨_, rfl⟩⟩ := request_cases h
    · exact .inr (.inl ⟨by rw [hp]; rfl, standing_sent _ d r⟩)
    · exact .inr (.inr ⟨_, _, lose_givesWay s _ _⟩)
  | frame =>
    obtain ⟨d, l, hp, _, ⟨toClient, text, _, ⟨deadline, _, rfl⟩ | ⟨_, rfl⟩⟩ | ⟨_, rfl⟩⟩ :=
      frame_cases h
    · exact .inr (.inl ⟨by rw [hp]; rfl, standing_handle _ _ _⟩)
    · exact .inr (.inl ⟨by rw [hp]; rfl, standing_breakDown _ _⟩)
    · exact .inr (.inr ⟨_, _, lose_givesWay s _ _⟩)

/-- Whatever a session does, its snapshots go on to be received, if their receiver leaves it only
after its stop or its end. -/
theorem Reached.served_step (hs : Reached past s) (h : Served s) (hx : s.step? x = some t)
    (kept : x = .dropSnapshots → s.stopped = true ∨ s.phase = .finished) : Served t := by
  have hback : t.stopped = false → s.stopped = false := by
    intro running
    cases hstop : s.stopped with
    | false => rfl
    | true => simp [((hs.shown.later hx).halted hstop).1] at running
  have hopen : t.stopped = false → s.phase ≠ .finished →
      t.snapshots.receiverOpen = true := by
    intro running hne
    have hdrop : x ≠ .dropSnapshots := by
      intro hx'
      rcases kept hx' with hstop | hfinished
      · simp [hback running] at hstop
      · exact hne hfinished
    rw [(step_passage hx).queue.2 hdrop]
    exact h.received (hback running) hne
  rcases step_course hx with ⟨m, rfl, _⟩ | ⟨_, hphase, hstands⟩
  · have hne : s.phase ≠ .finished := fun hp => by simp [step?, finished_still hp] at hx
    refine ⟨fun running _ => hopen running hne, fun running hend => ?_⟩
    have hrunning := hback running
    have hunsent : ∀ d snapshot, s.phase = .forwarding d snapshot →
        (s.snapshots.send snapshot).2 ≠ .closed := by
      intro d snapshot _ hclosed
      have hgone := send_closed hclosed (hs.streaming.sending hne)
      simp [h.received hrunning hne] at hgone
    rcases move_ends hx hrunning hunsent with hgoes | ⟨hd, stands⟩ | ⟨failures, reason, hw⟩
    · exact absurd hend hgoes
    · have hstate : t.state = s.state := congrArg Standing.state stands
      rw [hstate, hs.shown.shows hrunning _ (shownIn_of_drive hd)]
      simp
    · rcases hw with ⟨_, _, stands⟩ | ⟨_, _, hp, _⟩
      · have hfailed : t.state = .failed reason :=
          (congrArg Standing.state stands).trans (Standing.become_state hrunning _)
        simp [hfailed]
      · simp [hp] at hend
  · refine ⟨fun running hp => hopen running (hphase ▸ hp), fun running hp => ?_⟩
    have hstate : t.state = s.state := by
      rcases hstands with ⟨_, hs'⟩ | ⟨_, hs'⟩ | ⟨_, _, hs'⟩
      · have hstop : t.stopped = true := (congrArg Standing.stopped hs').trans (by simp)
        simp [hstop] at running
      · exact congrArg Standing.state hs'
      · exact congrArg Standing.state hs'
    rw [hstate]
    exact h.stays (hback running) (hphase ▸ hp)

/-- A session whose snapshots are received is disconnected before it begins and after its stop. -/
theorem Served.disconnected (h : Served s) (shown : Shown s) (down : s.state = .disconnected) :
    s.stopped = true ∨ s.phase = .spawned := by
  cases hs : s.stopped with
  | true => exact .inl rfl
  | false =>
    have hshows := shown.shows hs
    rw [down] at hshows
    cases hp : s.phase with
    | spawned => exact .inr rfl
    | finished => exact absurd down (h.stays hs hp)
    | connecting failures | pausing failures wake =>
      have hattempt := hshows _ (congrArg shownIn hp)
      unfold attemptState at hattempt
      split at hattempt <;> cases hattempt
    | driving | requesting | forwarding => cases hshows _ (congrArg shownIn hp)

end ChannelFeed.Session
