import ChannelFeed.Proofs.Session.Frame
import ChannelFeed.Proofs.Session.History
import ChannelFeed.Proofs.Session.Moves

namespace ChannelFeed

namespace Session

variable {s t : Session}

def stateEvents (notes : List Note) : List Event :=
  (publishedEvents notes).filter Event.isConnection

theorem publishedEvents_append (notes more : List Note) :
    publishedEvents (notes ++ more) = publishedEvents notes ++ publishedEvents more := by
  simp [publishedEvents]

@[simp]
theorem stateEvents_append (notes more : List Note) :
    stateEvents (notes ++ more) = stateEvents notes ++ stateEvents more := by
  simp [stateEvents, publishedEvents_append]

/-- What a session shows of itself and what it goes by. -/
structure Standing where
  edge : String
  policy : Policy
  lastInstant : Nat
  state : LinkState
  stopped : Bool
  /-- The changes of state told of and not carried off yet. -/
  announced : List Event

def standing (s : Session) : Standing :=
  ⟨s.edge, s.policy, s.lastInstant, s.state, s.stopped, stateEvents s.notes⟩

namespace Standing

/-- A change of state, unless it is none or the session was stopped. -/
def become (st : Standing) (next : LinkState) : Standing :=
  if (next == .disconnected || !st.stopped) && st.state != next then
    { st with state := next, announced := st.announced ++ [.connectionChanged st.edge next] }
  else st

/-- The end that is put to a session. -/
def stop (st : Standing) : Standing :=
  if st.stopped then st else { st with stopped := true }.become .disconnected

@[simp]
theorem become_edge (st : Standing) (next : LinkState) : (st.become next).edge = st.edge := by
  unfold become
  split <;> rfl

@[simp]
theorem become_policy (st : Standing) (next : LinkState) :
    (st.become next).policy = st.policy := by
  unfold become
  split <;> rfl

@[simp]
theorem become_lastInstant (st : Standing) (next : LinkState) :
    (st.become next).lastInstant = st.lastInstant := by
  unfold become
  split <;> rfl

@[simp]
theorem become_stopped (st : Standing) (next : LinkState) :
    (st.become next).stopped = st.stopped := by
  unfold become
  split <;> rfl

/-- A session that was not stopped changes to any state. -/
theorem become_state {st : Standing} (running : st.stopped = false) (next : LinkState) :
    (st.become next).state = next := by
  unfold become
  split
  · rfl
  · rename_i h
    simpa [running] using h

/-- A session that was stopped, and is disconnected, stays as it is. -/
theorem become_eq_self {st : Standing} (stopped : st.stopped = true)
    (down : st.state = .disconnected) (next : LinkState) : st.become next = st := by
  unfold become
  split
  · rename_i h
    have hboth : next = .disconnected ∧ ¬ LinkState.disconnected = next := by
      simpa [stopped, down] using h
    exact absurd hboth.1.symm hboth.2
  · rfl

/-- A change is told of if and only if it is one. -/
theorem become_announced (st : Standing) (next : LinkState) :
    (st.become next).announced = st.announced ++
      if (st.become next).state = st.state then []
      else [.connectionChanged st.edge (st.become next).state] := by
  unfold become
  split
  · rename_i h
    have hne : next ≠ st.state := by
      intro he
      simp [he] at h
    simp [hne]
  · simp

@[simp]
theorem stop_stopped (st : Standing) : st.stop.stopped = true := by
  unfold stop
  split
  · assumption
  · simp

end Standing

theorem standing_note (s : Session) {notes : List Note} (silent : stateEvents notes = []) :
    (s.note notes).standing = s.standing := by
  simp [standing, note, silent, state]

theorem standing_retire (s : Session) : s.retire.standing = s.standing :=
  dropOutcomes_kept (P := fun t => t.standing = s.standing) s rfl (fun _ _ h => h) rfl

theorem standing_breakDown (s : Session) (link : Nat) :
    (s.breakDown link).standing = s.standing := standing_retire _

theorem standing_sync (s : Session) (d : Drive) : (s.sync d).standing = s.standing := by
  unfold sync
  dsimp only
  split <;> rfl

theorem standing_sent (s : Session) (d : Drive) (r : Request) :
    (s.sent d r).standing = s.standing := by
  unfold sent
  dsimp only
  split
  · exact standing_note s rfl
  · exact (standing_breakDown _ _).trans (standing_note s rfl)

theorem publishedEvents_reportedValues (entries : List (String × Json)) :
    publishedEvents (Message.reportedValues entries).2 = [] := by
  unfold Message.reportedValues
  generalize hacc : ((.empty, []) : SortedMap Address (Option Value) × List Note) = acc
  have hsilent : publishedEvents acc.2 = [] := by
    rw [← hacc]
    rfl
  clear hacc
  induction entries generalizing acc with
  | nil => exact hsilent
  | cons entry rest ih =>
    rw [List.foldl_cons]
    apply ih
    unfold Message.addEntry
    split
    · rw [publishedEvents_append, hsilent]
      rfl
    · split
      · exact hsilent
      · rw [publishedEvents_append, hsilent]
        rfl

theorem publishedEvents_read (text : String) : publishedEvents (Message.read text).notes = [] := by
  unfold Message.read
  split
  · rfl
  · unfold Message.ofEnvelope
    split
    · rfl
    · split
      · rfl
      · split
        · rfl
        · split
          · unfold Message.ofParams
            split
            · rfl
            · split
              · rfl
              · exact publishedEvents_reportedValues _
          · rfl

theorem stateEvents_read (text : String) : stateEvents (Message.read text).notes = [] := by
  rw [stateEvents, publishedEvents_read, List.filter_nil]

theorem standing_handle (s : Session) (d : Drive) (text : String) :
    (s.handle d text).standing = s.standing := by
  have hread : (s.note (Message.read text).notes).standing = s.standing :=
    standing_note s (stateEvents_read text)
  unfold handle
  dsimp only
  split
  · exact (standing_note _ rfl).trans hread
  · exact (standing_note _ rfl).trans hread
  · split
    · exact hread
    · exact (standing_note _ rfl).trans hread
  · split
    · exact (standing_note _ rfl).trans hread
    · exact (standing_note _ rfl).trans hread
  · split
    · exact (standing_note _ rfl).trans hread
    · exact (standing_note _ rfl).trans hread

theorem standing_takeOutcome {outcome : Outcome} (h : s.takeOutcome? = some (t, outcome)) :
    t.standing = s.standing := by
  rcases takeOutcome_cases h with ⟨_, _, rfl⟩ | ⟨_, _, _, _, rfl⟩
  · rfl
  · exact standing_note s rfl

theorem standing_transition (s : Session) (next : LinkState) :
    (s.transition next).standing = s.standing.become next := by
  by_cases h : ((next == .disconnected || !s.stopped) && s.state != next) = true
  · have hs : ((next == .disconnected || !s.standing.stopped) && s.standing.state != next) = true := h
    rw [transition, if_pos h, Standing.become, if_pos hs]
    simp only [standing, note, stateEvents_append]
    rfl
  · have hs : ¬ ((next == .disconnected || !s.standing.stopped) &&
      s.standing.state != next) = true := h
    rw [transition, if_neg h, Standing.become, if_neg hs]

theorem standing_finish (s : Session) : s.finish.standing = s.standing.become .disconnected := by
  unfold finish
  rw [standing_transition, standing_retire]

theorem standing_shutdown (s : Session) : s.shutdown.standing = s.standing.stop := by
  unfold shutdown Standing.stop
  have hstopped : s.standing.stopped = s.stopped := rfl
  rw [hstopped]
  split
  · rfl
  · rw [standing_transition, standing_note _ rfl]
    rfl

def attemptState (failures : Nat) : LinkState :=
  if failures = 0 then .connecting else .reconnecting failures

theorem standing_attempt (s : Session) (failures : Nat) :
    (s.attempt failures).standing = s.standing.become (attemptState failures) := by
  unfold attempt
  dsimp only
  split <;> exact standing_transition s _

theorem standing_openLink (s : Session) (link : Nat) :
    (s.openLink link).standing = s.standing.become .connected := by
  unfold openLink
  rw [standing_sync]
  exact (standing_note _ rfl).trans (standing_transition s _)

/-- After a failure: the session gives up if its policy has no pause for it, or else pauses. -/
def GivesWay (s t : Session) (failures : Nat) (reason : String) : Prop :=
  (s.policy.nextDelay failures = none ∧ t.phase = .finished ∧
      t.standing = s.standing.become (.failed reason)) ∨
    ∃ delay, s.policy.nextDelay failures = some delay ∧
      t.phase = .pausing (failures + 1) (delay.endOfPause s.lastInstant s.now) ∧
      t.standing = s.standing.become (.reconnecting (failures + 1))

theorem retry_givesWay (s : Session) (failures : Nat) (reason : String) :
    GivesWay s (s.retry failures reason) failures reason := by
  unfold retry
  split
  · rename_i hd
    refine .inl ⟨hd, transition_phase _ _, ?_⟩
    rw [standing_transition, standing_retire, standing_note _ rfl]
  · rename_i delay hd
    refine .inr ⟨delay, hd, ?_, ?_⟩
    · obtain ⟨hnow, hlast⟩ : (s.transition (.reconnecting (failures + 1))).now = s.now ∧
          (s.transition (.reconnecting (failures + 1))).lastInstant = s.lastInstant := by
        unfold transition
        split <;> exact ⟨rfl, rfl⟩
      simp only [hnow, hlast]
    · exact (standing_note _ rfl).trans (standing_transition s _)

theorem lose_givesWay (s : Session) (link : Nat) (reason : String) :
    GivesWay s (s.lose link reason) 0 reason := by
  have h := retry_givesWay ((s.dropLink link).note [.connectionLost s.edge reason]) 0 reason
  have hs : ((s.dropLink link).note [.connectionLost s.edge reason]).standing = s.standing :=
    standing_note _ rfl
  unfold GivesWay at h
  rw [hs] at h
  exact h

end Session

end ChannelFeed
