import ChannelFeed.Proofs.Session.Course

namespace ChannelFeed

/-- The changes of state that a session makes. -/
inductive LinkState.CanBecome : LinkState → LinkState → Prop where
  | begins : CanBecome disconnected connecting
  | connects : CanBecome connecting connected
  | reconnects (attempt : Nat) : CanBecome (reconnecting attempt) connected
  | isRefused : CanBecome connecting (reconnecting 1)
  | isRefusedAgain (attempt : Nat) :
      CanBecome (reconnecting attempt) (reconnecting (attempt + 1))
  | isLost : CanBecome connected (reconnecting 1)
  | givesUp {was : LinkState} (reason : String) (begun : was ≠ disconnected)
      (trying : was.isFailed = false) : CanBecome was (failed reason)
  | leaves {was : LinkState} (begun : was ≠ disconnected) : CanBecome was disconnected

namespace Session

variable {s t : Session}

/-- The state of a session in a phase, where the phase tells. -/
def shownIn : Phase → Option LinkState
  | .spawned => some .disconnected
  | .connecting failures => some (attemptState failures)
  | .pausing failures _ => some (attemptState failures)
  | .driving _ => some .connected
  | .requesting _ _ => some .connected
  | .forwarding _ _ => some .connected
  | .finished => none

theorem shownIn_of_drive {p : Phase} (h : p.drive?.isSome = true) : shownIn p = some .connected := by
  cases p <;> first | rfl | cases h

/-- A stopped session is disconnected, and any other is in the state that goes with its phase. -/
structure Shown (s : Session) : Prop where
  halted : s.stopped = true → s.state = .disconnected
  shows : s.stopped = false → ∀ st, shownIn s.phase = some st → s.state = st

theorem Shown.same (h : Shown s) (hs : t.standing = s.standing)
    (hp : ∀ st, shownIn t.phase = some st → shownIn s.phase = some st) : Shown t := by
  have hstate : t.state = s.state := congrArg Standing.state hs
  have hstopped : t.stopped = s.stopped := congrArg Standing.stopped hs
  refine ⟨?_, ?_⟩
  · rw [hstate, hstopped]
    exact h.halted
  · rw [hstate, hstopped]
    exact fun running st hst => h.shows running st (hp st hst)

theorem Shown.becomes {next : LinkState} (h : Shown s)
    (hs : t.standing = s.standing.become next)
    (hp : ∀ st, shownIn t.phase = some st → next = st) : Shown t := by
  have hstate : t.state = (s.standing.become next).state := congrArg Standing.state hs
  have hstopped : t.stopped = s.stopped :=
    (congrArg Standing.stopped hs).trans (s.standing.become_stopped next)
  refine ⟨?_, ?_⟩
  · intro stopped
    have hs' : s.stopped = true := hstopped ▸ stopped
    rw [hstate, Standing.become_eq_self hs' (h.halted hs')]
    exact h.halted hs'
  · intro running st hst
    have hs' : s.stopped = false := hstopped ▸ running
    rw [hstate, Standing.become_state hs']
    exact hp st hst

theorem Shown.givesWay {failures : Nat} {reason : String} (h : Shown s)
    (hw : GivesWay s t failures reason) : Shown t := by
  rcases hw with ⟨_, is, stands⟩ | ⟨delay, _, is, stands⟩
  · exact h.becomes stands (by simp [is, shownIn])
  · exact h.becomes stands (by simp [is, shownIn, attemptState])

theorem Shown.course {turn : Option Turn} (h : Shown s) (hc : Course s t turn) : Shown t := by
  cases hc with
  | begins _ is stands => exact h.becomes stands (by simp [is, shownIn])
  | opens _ is stands => exact h.becomes stands (by simp [shownIn_of_drive is])
  | isRefused _ is => exact h.givesWay is
  | goesOn was is stands =>
    refine h.same stands ?_
    rw [shownIn_of_drive was, shownIn_of_drive is]
    exact fun _ hst => hst
  | isLost _ is => exact h.givesWay is
  | breaksDown _ is stands => exact h.same stands (by simp [is, shownIn])
  | wakes _ _ is stands => exact h.becomes stands (by simp [is, shownIn])
  | ends _ is stands => exact h.becomes stands (by simp [is, shownIn])

theorem Shown.step {x : Step} (h : Shown s) (hx : s.step? x = some t) : Shown t := by
  rcases step_course hx with ⟨m, _, hc⟩ | ⟨_, hphase, ⟨_, hs⟩ | ⟨_, hs⟩ | ⟨_, _, hs⟩⟩
  · exact h.course hc
  · -- a shutdown: disconnected at once, if not before
    by_cases hstop : s.stopped = true
    · have hsame : s.standing.stop = s.standing := if_pos hstop
      exact h.same (hs.trans hsame) (by simp [hphase])
    · have hstate : t.state = .disconnected := by
        refine (congrArg Standing.state hs).trans ?_
        have hfresh : s.standing.stop =
            { s.standing with stopped := true }.become .disconnected := if_neg hstop
        rw [hfresh]
        unfold Standing.become
        split
        · rfl
        · rename_i hn
          simpa using hn
      have hstopped : t.stopped = true := (congrArg Standing.stopped hs).trans (by simp)
      exact ⟨fun _ => hstate, fun running => by simp [hstopped] at running⟩
  · have hstate : t.state = s.state := congrArg Standing.state hs
    have hstopped : t.stopped = s.stopped := congrArg Standing.stopped hs
    exact ⟨by rw [hstate, hstopped]; exact h.halted,
      by rw [hstate, hstopped, hphase]; exact h.shows⟩
  · exact h.same hs (by simp [hphase])

/-- What a session starts as. -/
theorem Reached.shown {past : Past} (h : Reached past s) : Shown s := by
  induction h with
  | start _ started =>
    obtain ⟨snapshots, _, rfl⟩ := ofConfig_eq started
    exact ⟨nofun, fun _ st hst => Option.some.inj hst⟩
  | step _ possible ih => exact ih.step possible

def changes (past : Past) (s : Session) : List (LinkState × LinkState) :=
  let states := past.map (fun x => x.1.state) ++ [s.state]
  (states.zip states.tail).filter (fun c => c.1 != c.2)

/-- The changes of state that listeners were told of. -/
def announced (past : Past) (s : Session) : List Event := stateEvents (noted past s)

theorem zip_tail_append {α : Type} (xs : List α) (a b : α) :
    (xs ++ [a] ++ [b]).zip (xs ++ [a] ++ [b]).tail =
      (xs ++ [a]).zip (xs ++ [a]).tail ++ [(a, b)] := by
  induction xs with
  | nil => rfl
  | cons x rest ih =>
    cases rest with
    | nil => rfl
    | cons y rest => simpa using ih

theorem changes_append (past : Past) (s : Session) (x : Step) (t : Session) :
    changes (past ++ [(s, x)]) t =
      changes past s ++ if t.state = s.state then [] else [(s.state, t.state)] := by
  unfold changes
  simp only [List.map_append, List.map_cons, List.map_nil, zip_tail_append, List.filter_append]
  by_cases he : t.state = s.state
  · simp [he]
  · simp [he, Ne.symm he]

/-- How one standing follows another: its changes of state are told of. -/
structure Standing.Tells (st st' : Standing) : Prop where
  edge : st'.edge = st.edge
  policy : st'.policy = st.policy
  lastInstant : st'.lastInstant = st.lastInstant
  told : st'.announced = st.announced ++
    if st'.state = st.state then [] else [.connectionChanged st.edge st'.state]

theorem Standing.Tells.refl (st : Standing) : st.Tells st := ⟨rfl, rfl, rfl, by simp⟩

theorem Standing.tells_become (st : Standing) (next : LinkState) : st.Tells (st.become next) :=
  ⟨st.become_edge next, st.become_policy next, st.become_lastInstant next, st.become_announced next⟩

theorem Standing.tells_stop (st : Standing) : st.Tells st.stop := by
  unfold Standing.stop
  split
  · exact .refl st
  · have h := tells_become { st with stopped := true } .disconnected
    exact ⟨h.edge, h.policy, h.lastInstant, h.told⟩

theorem GivesWay.stands {failures : Nat} {reason : String} (h : GivesWay s t failures reason) :
    ∃ next, t.standing = s.standing.become next := by
  rcases h with ⟨_, _, stands⟩ | ⟨_, _, _, stands⟩
  · exact ⟨_, stands⟩
  · exact ⟨_, stands⟩

/-- In a course the standing changes once at most. -/
theorem Course.stands {turn : Option Turn} (h : Course s t turn) :
    t.standing = s.standing ∨ ∃ next, t.standing = s.standing.become next := by
  cases h with
  | goesOn _ _ stands | breaksDown _ _ stands => exact .inl stands
  | begins _ _ stands | opens _ _ stands | wakes _ _ _ stands | ends _ _ stands =>
    exact .inr ⟨_, stands⟩
  | isRefused _ is | isLost _ is => exact .inr is.stands

theorem Course.tells {turn : Option Turn} (h : Course s t turn) :
    s.standing.Tells t.standing := by
  rcases h.stands with hs | ⟨next, hs⟩
  · exact hs ▸ .refl _
  · exact hs ▸ s.standing.tells_become next

theorem Course.stopped {turn : Option Turn} (h : Course s t turn) : t.stopped = s.stopped := by
  rcases h.stands with hs | ⟨next, hs⟩
  · exact congrArg Standing.stopped hs
  · exact (congrArg Standing.stopped hs).trans (s.standing.become_stopped next)

theorem announced_append {past : Past} {x : Step} (hx : s.step? x = some t) :
    announced (past ++ [(s, x)]) t = announced past s ++
      if t.state = s.state then [] else [.connectionChanged s.edge t.state] := by
  have htell : s.carriedIn x = [] → s.standing.Tells t.standing →
      announced (past ++ [(s, x)]) t = announced past s ++
        if t.state = s.state then [] else [.connectionChanged s.edge t.state] := by
    intro hcarried h
    have htold : stateEvents t.notes = stateEvents s.notes ++
        if t.state = s.state then [] else [.connectionChanged s.edge t.state] := h.told
    unfold announced noted
    rw [logged_append, hcarried, List.append_nil, stateEvents_append, stateEvents_append, htold,
      List.append_assoc]
  rcases step_course hx with ⟨m, rfl, hc⟩ | ⟨_, _, ⟨rfl, hs⟩ | ⟨rfl, hs⟩ | ⟨_, hx', hs⟩⟩
  · exact htell rfl hc.tells
  · exact htell rfl (hs ▸ s.standing.tells_stop)
  · have hstate : t.state = s.state := congrArg Standing.state hs
    have hnone : stateEvents t.notes = [] := congrArg Standing.announced hs
    unfold announced noted
    rw [logged_append, stateEvents_append, hnone, if_pos hstate, List.append_nil, List.append_nil]
    rfl
  · refine htell ?_ (hs ▸ .refl _)
    cases x <;> first | rfl | exact absurd rfl hx'

theorem step_edge {x : Step} (hx : s.step? x = some t) : t.edge = s.edge := by
  rcases step_course hx with ⟨m, _, hc⟩ | ⟨_, _, ⟨_, hs⟩ | ⟨_, hs⟩ | ⟨_, _, hs⟩⟩
  · exact hc.tells.edge
  · exact (congrArg Standing.edge hs).trans s.standing.tells_stop.edge
  · exact congrArg Standing.edge hs
  · exact congrArg Standing.edge hs

theorem GivesWay.canBecome {failures : Nat} {reason : String} (h : GivesWay s t failures reason)
    (running : s.stopped = false) (begun : s.state ≠ .disconnected)
    (trying : s.state.isFailed = false)
    (next : s.state.CanBecome (.reconnecting (failures + 1))) : s.state.CanBecome t.state := by
  rcases h with ⟨_, _, stands⟩ | ⟨_, _, _, stands⟩
  · have hstate : t.state = .failed reason :=
      (congrArg Standing.state stands).trans (Standing.become_state running _)
    exact hstate ▸ .givesUp reason begun trying
  · have hstate : t.state = .reconnecting (failures + 1) :=
      (congrArg Standing.state stands).trans (Standing.become_state running _)
    exact hstate ▸ next

theorem Shown.course_still {turn : Option Turn} (h : Shown s) (hc : Course s t turn)
    (stopped : s.stopped = true) : t.standing = s.standing := by
  rcases hc.stands with hs | ⟨next, hs⟩
  · exact hs
  · exact hs.trans (Standing.become_eq_self stopped (h.halted stopped) next)

theorem Shown.course_canBecome {turn : Option Turn} (h : Shown s) (hc : Course s t turn)
    (hne : t.state ≠ s.state) : s.state.CanBecome t.state := by
  have running : s.stopped = false := by
    cases hs : s.stopped with
    | false => rfl
    | true => exact absurd (congrArg Standing.state (h.course_still hc hs)) hne
  have hnext : ∀ next, t.standing = s.standing.become next → t.state = next := fun next stands =>
    (congrArg Standing.state stands).trans (Standing.become_state running next)
  cases hc with
  | begins was _ stands =>
    rw [h.shows running _ (congrArg shownIn was), hnext _ stands]
    exact .begins
  | @opens failures was _ stands =>
    rw [h.shows running _ (congrArg shownIn was), hnext _ stands]
    cases failures with
    | zero => exact .connects
    | succ n => exact .reconnects (n + 1)
  | @isRefused failures reason was is =>
    have hstate := h.shows running _ (congrArg shownIn was)
    cases failures with
    | zero =>
      have hconnecting : s.state = .connecting := hstate
      exact is.canBecome running (by simp [hconnecting]) (by rw [hconnecting]; rfl)
        (hconnecting ▸ .isRefused)
    | succ n =>
      have hagain : s.state = .reconnecting (n + 1) := hstate
      exact is.canBecome running (by simp [hagain]) (by rw [hagain]; rfl)
        (hagain ▸ .isRefusedAgain (n + 1))
  | goesOn _ _ stands | breaksDown _ _ stands =>
    exact absurd (congrArg Standing.state stands) hne
  | isLost was is =>
    have hstate := h.shows running _ (shownIn_of_drive was)
    exact is.canBecome running (by simp [hstate]) (by rw [hstate]; rfl) (hstate ▸ .isLost)
  | wakes was _ _ stands =>
    -- the pause shows the attempt to come
    exact absurd ((hnext _ stands).trans (h.shows running _ (congrArg shownIn was)).symm) hne
  | ends _ _ stands =>
    have hdown := hnext _ stands
    rw [hdown]
    exact .leaves (fun he => hne (hdown.trans he.symm))

theorem Shown.canBecome {x : Step} (h : Shown s) (hx : s.step? x = some t)
    (hne : t.state ≠ s.state) : s.state.CanBecome t.state := by
  rcases step_course hx with ⟨m, _, hc⟩ | ⟨_, _, ⟨_, hs⟩ | ⟨_, hs⟩ | ⟨_, _, hs⟩⟩
  · exact h.course_canBecome hc hne
  · have hstopped : t.stopped = true := (congrArg Standing.stopped hs).trans (by simp)
    have hdown : t.state = .disconnected := (h.step hx).halted hstopped
    rw [hdown]
    exact .leaves (fun he => hne (hdown.trans he.symm))
  · exact absurd (congrArg Standing.state hs) hne
  · exact absurd (congrArg Standing.state hs) hne

/-- A failed session is finished: only a shutdown changes its state. -/
theorem Shown.failed_left {x : Step} (h : Shown s) (hx : s.step? x = some t)
    (failed : s.state.isFailed = true) (hne : t.state ≠ s.state) : x = .shutdown := by
  have running : s.stopped = false := by
    cases hs : s.stopped with
    | false => rfl
    | true =>
      rw [h.halted hs] at failed
      cases failed
  have hshown : ∀ st, shownIn s.phase = some st → st.isFailed = true := fun st hst =>
    h.shows running st hst ▸ failed
  rcases step_course hx with ⟨m, _, hc⟩ | ⟨_, _, ⟨hx', _⟩ | ⟨_, hs⟩ | ⟨_, _, hs⟩⟩
  · generalize s.turnIn x = turn at hc
    cases hc with
    | begins was => cases hshown _ (congrArg shownIn was)
    | @opens failures was | @isRefused failures _ was | @wakes failures _ was =>
      have hf := hshown _ (congrArg shownIn was)
      cases failures <;> cases hf
    | isLost was => cases hshown _ (shownIn_of_drive was)
    | goesOn _ _ stands | breaksDown _ _ stands =>
      exact absurd (congrArg Standing.state stands) hne
    | ends was =>
      rcases was with was | ⟨hstop, _⟩
      · cases hshown _ (shownIn_of_drive was)
      · simp [running] at hstop
  · exact hx'
  · exact absurd (congrArg Standing.state hs) hne
  · exact absurd (congrArg Standing.state hs) hne

/-- Where a run stood when the rest of its past was still to come. -/
def stateAt (rest : Past) (s : Session) : Session :=
  match rest with
  | [] => s
  | x :: _ => x.1

theorem stateAt_append (rest : Past) (s : Session) (x : Step) (t : Session) :
    stateAt (rest ++ [(s, x)]) t = stateAt rest s := by
  cases rest <;> rfl

theorem Reached.earlier {before rest : Past} (h : Reached (before ++ rest) s) :
    Reached before (stateAt rest s) := by
  generalize hpast : before ++ rest = past at h
  induction h generalizing rest with
  | start promised started =>
    obtain ⟨rfl, rfl⟩ := List.append_eq_nil_iff.mp hpast
    exact .start promised started
  | @step past u t x earlier possible ih =>
    rcases List.eq_nil_or_concat rest with rfl | ⟨rest', y, rfl⟩
    · rw [List.append_nil] at hpast
      subst hpast
      exact earlier.step possible
    · rw [List.concat_eq_append, ← List.append_assoc] at hpast
      obtain ⟨hbefore, hlast⟩ := List.append_inj' hpast rfl
      cases hlast
      rw [List.concat_eq_append, stateAt_append]
      exact ih hbefore

theorem Reached.stopped_of_shutdown {past : Past} (h : Reached past s)
    (hs : Step.shutdown ∈ past.map Prod.snd) : s.stopped = true := by
  induction h with
  | start => cases hs
  | @step past u t x _ possible ih =>
    rw [List.map_append, List.mem_append] at hs
    rcases step_course possible with ⟨m, rfl, hc⟩ | ⟨_, _, ⟨_, he⟩ | ⟨rfl, he⟩ | ⟨hx, _, he⟩⟩
    · rcases hs with hs | hs
      · exact hc.stopped.trans (ih hs)
      · simp at hs
    · exact (congrArg Standing.stopped he).trans (by simp)
    · rcases hs with hs | hs
      · exact (congrArg Standing.stopped he).trans (ih hs)
      · simp at hs
    · rcases hs with hs | hs
      · exact (congrArg Standing.stopped he).trans (ih hs)
      · simp [hx.symm] at hs

theorem Shown.step_still {x : Step} (h : Shown s) (hx : s.step? x = some t)
    (stopped : s.stopped = true) : t.state = s.state ∧ t.stopped = true := by
  rcases step_course hx with ⟨m, _, hc⟩ | ⟨_, _, ⟨_, hs⟩ | ⟨_, hs⟩ | ⟨_, _, hs⟩⟩
  · exact ⟨congrArg Standing.state (h.course_still hc stopped), hc.stopped.trans stopped⟩
  · have hsame : s.standing.stop = s.standing := if_pos stopped
    exact ⟨congrArg Standing.state (hs.trans hsame), (congrArg Standing.stopped hs).trans (by simp)⟩
  · exact ⟨congrArg Standing.state hs, (congrArg Standing.stopped hs).trans stopped⟩
  · exact ⟨congrArg Standing.state hs, (congrArg Standing.stopped hs).trans stopped⟩

/-- Nothing is told of a stopped session any more. -/
theorem Reached.still {before rest : Past} (h : Reached (before ++ rest) s)
    (stopped : (stateAt rest s).stopped = true) :
    s.stopped = true ∧ announced (before ++ rest) s = announced before (stateAt rest s) := by
  generalize hpast : before ++ rest = past at h
  induction h generalizing rest with
  | start =>
    obtain ⟨rfl, rfl⟩ := List.append_eq_nil_iff.mp hpast
    exact ⟨stopped, rfl⟩
  | @step past u t x earlier possible ih =>
    rcases List.eq_nil_or_concat rest with rfl | ⟨rest', y, rfl⟩
    · rw [List.append_nil] at hpast
      subst hpast
      exact ⟨stopped, rfl⟩
    · rw [List.concat_eq_append, ← List.append_assoc] at hpast
      obtain ⟨hbefore, hlast⟩ := List.append_inj' hpast rfl
      cases hlast
      rw [List.concat_eq_append, stateAt_append] at stopped ⊢
      obtain ⟨hu, htold⟩ := ih stopped hbefore
      obtain ⟨hstate, ht⟩ := earlier.shown.step_still possible hu
      refine ⟨ht, ?_⟩
      rw [announced_append possible, if_pos hstate, List.append_nil, htold]

/-- Every change of state in a run is one that `CanBecome` knows. -/
theorem Reached.changes_canBecome {past : Past} (h : Reached past s) :
    ∀ c ∈ changes past s, c.1 ≠ c.2 ∧ c.1.CanBecome c.2 := by
  induction h with
  | start => simp [changes]
  | @step past u t x earlier possible ih =>
    intro c hc
    rw [changes_append] at hc
    rcases List.mem_append.mp hc with hc | hc
    · exact ih c hc
    · by_cases he : t.state = u.state
      · simp [he] at hc
      · simp only [if_neg he, List.mem_singleton] at hc
        subst hc
        exact ⟨Ne.symm he, earlier.shown.canBecome possible he⟩

/-- Listeners are told of the changes and of nothing else. -/
theorem Reached.announced_eq {past : Past} (h : Reached past s) :
    announced past s = (changes past s).map (fun c => .connectionChanged s.edge c.2) := by
  induction h with
  | start _ started =>
    obtain ⟨snapshots, _, rfl⟩ := ofConfig_eq started
    rfl
  | @step past u t x _ possible ih =>
    rw [announced_append possible, changes_append, List.map_append, ih, step_edge possible]
    by_cases he : t.state = u.state
    · simp [he]
    · simp [he]

/-- The state is the one that the last change led to. -/
theorem Reached.state_eq {past : Past} (h : Reached past s) :
    s.state = ((changes past s).getLast?.map Prod.snd).getD .disconnected := by
  induction h with
  | start _ started =>
    obtain ⟨snapshots, _, rfl⟩ := ofConfig_eq started
    rfl
  | @step past u t x _ _ ih =>
    rw [changes_append]
    by_cases he : t.state = u.state
    · rw [if_pos he, List.append_nil, he, ih]
    · simp [he]

theorem Reached.first_disconnected {past : Past} (h : Reached past s) :
    (past.map (fun x => x.1.state) ++ [s.state]).head? = some .disconnected := by
  induction h with
  | start _ started =>
    obtain ⟨snapshots, _, rfl⟩ := ofConfig_eq started
    rfl
  | step _ _ ih => rw [List.map_append, List.head?_append, List.map_singleton, ih, Option.some_or]

/-- In every run the state begins as disconnected and changes only as `CanBecome` says; the changes
that listeners are told of are these, in their order, and the last of them is the state; a failed
session only changes its state by a shutdown; and after a shutdown a session is disconnected, whatever
it still does, and nothing more is told of it. -/
theorem Reached.states_follow {past : Past} (h : Reached past s) :
    (past.map (fun x => x.1.state) ++ [s.state]).head? = some .disconnected ∧
    (∀ c ∈ changes past s, c.1 ≠ c.2 ∧ c.1.CanBecome c.2) ∧
    announced past s = (changes past s).map (fun c => .connectionChanged s.edge c.2) ∧
    s.state = ((changes past s).getLast?.map Prod.snd).getD .disconnected ∧
    (∀ x t, s.step? x = some t → s.state.isFailed = true → t.state ≠ s.state → x = .shutdown) ∧
    ∀ before rest, past = before ++ rest → Step.shutdown ∈ before.map Prod.snd →
      s.state = .disconnected ∧ announced past s = announced before (stateAt rest s) := by
  refine ⟨h.first_disconnected, h.changes_canBecome, h.announced_eq, h.state_eq,
    fun x t hx failed hne => h.shown.failed_left hx failed hne, ?_⟩
  intro before rest hpast hshut
  subst hpast
  have hstop := h.earlier.stopped_of_shutdown hshut
  obtain ⟨hs, htold⟩ := h.still hstop
  exact ⟨h.shown.halted hs, htold⟩

/-- A connection is lost, and the session is stopped during the second attempt: the connection that
this one brings is not told of. -/
theorem shutdown_while_connecting : ∃ past s, Reached past s ∧
    Step.shutdown ∈ past.map Prod.snd ∧ s.phase.drive?.isSome = true ∧ s.state = .disconnected ∧
    announced past s = [.connecting, .connected, .reconnecting 1, .disconnected].map
      (Event.connectionChanged "edge0") := by
  obtain ⟨past, s, hreached, hsteps, htest⟩ := unbegun_reached.of_replay
    [.move .start, .device (.accept 4 false), .move .connect, .collect,
      .device (.close 0), .move .frame, .pass 1000, .move .wake, .shutdown,
      .device (.accept 4 false), .move .connect]
    (fun past s => s.phase.drive?.isSome && s.edge == "edge0" &&
      (changes past s).map Prod.snd == [.connecting, .connected, .reconnecting 1, .disconnected])
    (by decide +kernel)
  simp only [Bool.and_eq_true, beq_iff_eq] at htest
  obtain ⟨⟨hdrive, hedge⟩, hchanges⟩ := htest
  obtain ⟨_, _, htold, _, _, hstop⟩ := hreached.states_follow
  have hshut : Step.shutdown ∈ past.map Prod.snd := by simp [hsteps]
  refine ⟨past, s, hreached, hshut, hdrive, (hstop past [] (by simp) hshut).1, ?_⟩
  rw [htold, hedge, ← hchanges, List.map_map]
  rfl

end Session

end ChannelFeed
