import ChannelFeed.Proofs.Session.Standing

namespace ChannelFeed

namespace Session

variable {s t : Session}

/-- What became of an attempt to connect, or of a connection. -/
inductive Turn where
  | opened
  | refused (reason : String)
  | lost (reason : String)
  deriving DecidableEq

/-- Why a turn is a failure; none if it is not. -/
def Turn.reason? : Turn → Option String
  | opened => none
  | refused reason => some reason
  | lost reason => some reason

def turnOf (s : Session) : Move → Option Turn
  | .connect =>
    match s.phase, s.takeOutcome? with
    | .connecting _, some (_, .ok _) => some .opened
    | .connecting _, some (_, .error fault) => some (.refused fault.message)
    | _, _ => none
  | .request =>
    match s.phase with
    | .requesting d r =>
      match s.links[d.link]? with
      | some l =>
        if (l.toDevice.send r).2 = .closed then some (.lost "transport closed while subscribing")
        else none
      | none => none
    | _ => none
  | .frame =>
    match s.phase with
    | .driving d =>
      match s.links[d.link]? with
      | some l => if l.toClient.receive.2 = .closed then some (.lost "connection closed") else none
      | none => none
    | _ => none
  | .silence =>
    match s.phase with
    | .driving d =>
      d.deadline.map (fun _ =>
        .lost ("no data for " ++ toString (s.idle.getD ⟨0⟩).millis ++ " ms"))
    | _ => none
  | _ => none

def turnIn (s : Session) : Step → Option Turn
  | .move m => s.turnOf m
  | _ => none

/-- How a move goes, and the turn it brings. -/
inductive Course (s t : Session) : Option Turn → Prop where
  | begins (was : s.phase = .spawned) (is : t.phase = .connecting 0)
      (stands : t.standing = s.standing.become (attemptState 0)) : Course s t none
  | opens {failures : Nat} (was : s.phase = .connecting failures)
      (is : t.phase.drive?.isSome = true) (stands : t.standing = s.standing.become .connected) :
      Course s t (some .opened)
  | isRefused {failures : Nat} {reason : String} (was : s.phase = .connecting failures)
      (is : GivesWay s t failures reason) : Course s t (some (.refused reason))
  | goesOn (was : s.phase.drive?.isSome = true) (is : t.phase.drive?.isSome = true)
      (stands : t.standing = s.standing) : Course s t none
  | isLost {reason : String} (was : s.phase.drive?.isSome = true) (is : GivesWay s t 0 reason) :
      Course s t (some (.lost reason))
  | breaksDown (was : s.phase.drive?.isSome = true) (is : t.phase = .finished)
      (stands : t.standing = s.standing) : Course s t none
  | wakes {failures wake : Nat} (was : s.phase = .pausing failures wake) (due : wake ≤ s.now)
      (is : t.phase = .connecting failures)
      (stands : t.standing = s.standing.become (attemptState failures)) : Course s t none
  /-- A session that was stopped ends, and one that has nobody left to serve. -/
  | ends (was : s.phase.drive?.isSome = true ∨ s.stopped = true ∧ s.phase ≠ .finished)
      (is : t.phase = .finished) (stands : t.standing = s.standing.become .disconnected) :
      Course s t none

theorem sync_drive (s : Session) (d : Drive) : (s.sync d).phase.drive? = some d := by
  unfold sync
  dsimp only
  split <;> rfl

theorem GivesWay.of_standing {u : Session} {failures : Nat} {reason : String}
    (h : GivesWay u t failures reason) (hs : u.standing = s.standing) (hnow : u.now = s.now) :
    GivesWay s t failures reason := by
  have hpolicy : u.policy = s.policy := congrArg Standing.policy hs
  have hlast : u.lastInstant = s.lastInstant := congrArg Standing.lastInstant hs
  unfold GivesWay at h ⊢
  rw [hs, hnow, hpolicy, hlast] at h
  exact h

theorem takeOutcome_now {outcome : Outcome} (h : s.takeOutcome? = some (t, outcome)) :
    t.now = s.now := by
  rcases takeOutcome_cases h with ⟨_, _, rfl⟩ | ⟨_, _, _, _, rfl⟩ <;> rfl

/-- After a request the session goes on, unless it breaks down. -/
theorem sent_course {u : Session} {d : Drive} {r : Request}
    (was : s.phase.drive?.isSome = true) (h : u.standing = s.standing) :
    Course s (u.sent d r) none := by
  have hs : (u.sent d r).standing = s.standing := (standing_sent u d r).trans h
  unfold sent at hs ⊢
  dsimp only at hs ⊢
  split
  · rename_i deadline hd
    rw [hd] at hs
    exact .goesOn was rfl hs
  · rename_i hd
    rw [hd] at hs
    exact .breaksDown was rfl hs

theorem connect_course (h : s.move? .connect = some t) : Course s t (s.turnOf .connect) := by
  obtain ⟨failures, u, hp, ⟨link, ho, rfl⟩ | ⟨fault, ho, rfl⟩⟩ := connect_cases h
  · have hturn : s.turnOf .connect = some .opened := by simp [turnOf, hp, ho]
    rw [hturn]
    refine .opens hp ?_ ?_
    · unfold openLink
      rw [sync_drive]
      rfl
    · rw [standing_openLink, standing_takeOutcome ho]
  · have hturn : s.turnOf .connect = some (.refused fault.message) := by simp [turnOf, hp, ho]
    rw [hturn]
    refine .isRefused hp ((retry_givesWay _ failures fault.message).of_standing ?_ ?_)
    · exact (standing_note _ rfl).trans (standing_takeOutcome ho)
    · exact (takeOutcome_now ho : u.now = s.now)

theorem request_course (h : s.move? .request = some t) : Course s t (s.turnOf .request) := by
  obtain ⟨d, r, l, hp, hl, ⟨toDevice, hs, rfl⟩ | ⟨hs, rfl⟩⟩ := request_cases h
  · have hturn : s.turnOf .request = none := by simp [turnOf, hp, hl, hs]
    rw [hturn]
    refine sent_course ?_ rfl
    rw [hp]
    rfl
  · have hturn : s.turnOf .request = some (.lost "transport closed while subscribing") := by
      simp [turnOf, hp, hl, hs]
    rw [hturn]
    refine .isLost ?_ (lose_givesWay s _ _)
    rw [hp]
    rfl

theorem forward_course (h : s.move? .forward = some t) : Course s t none := by
  obtain ⟨d, snapshot, hp, ⟨snapshots, _, rfl⟩ | ⟨_, rfl⟩⟩ := forward_cases h
  · exact .goesOn (by rw [hp]; rfl) rfl rfl
  · refine .ends (.inl (by rw [hp]; rfl)) (finish_phase _) ?_
    rw [standing_finish, standing_note _ rfl]
    rfl

theorem halt_course (h : s.move? .halt = some t) : Course s t none := by
  obtain ⟨hstop, ⟨hp, rfl⟩ | ⟨d, hp, rfl⟩⟩ := halt_cases h
  · refine .ends (.inr ⟨hstop, ?_⟩) (finish_phase s) (standing_finish s)
    rcases hp with ⟨failures, hp⟩ | ⟨failures, wake, hp⟩
    · simp [hp]
    · simp [hp]
  · refine .ends (.inl (by rw [hp]; rfl)) (finish_phase _) ?_
    rw [standing_finish]
    rfl

theorem frame_course (h : s.move? .frame = some t) : Course s t (s.turnOf .frame) := by
  obtain ⟨d, l, hp, hl, ⟨toClient, text, hr, hcases⟩ | ⟨hr, rfl⟩⟩ := frame_cases h
  · have hturn : s.turnOf .frame = none := by simp [turnOf, hp, hl, hr]
    have was : s.phase.drive?.isSome = true := by rw [hp]; rfl
    rw [hturn]
    rcases hcases with ⟨deadline, _, rfl⟩ | ⟨_, rfl⟩
    · refine .goesOn was ?_ (standing_handle _ _ _)
      rcases (frame_handle (s.modifyLink d.link (fun l => { l with toClient }))
        { d with deadline } text).2 with hphase | ⟨gate, snapshot, hphase⟩
      · rw [hphase]
        rfl
      · rw [hphase]
        rfl
    · exact .breaksDown was rfl (standing_breakDown _ _)
  · have hturn : s.turnOf .frame = some (.lost "connection closed") := by
      simp [turnOf, hp, hl, hr]
    rw [hturn]
    exact .isLost (by rw [hp]; rfl) (lose_givesWay s _ _)

theorem move_course {m : Move} (h : s.move? m = some t) : Course s t (s.turnOf m) := by
  cases m with
  | start =>
    obtain ⟨hp, rfl⟩ := start_cases h
    exact .begins hp (attempt_phase s 0) (standing_attempt s 0)
  | connect => exact connect_course h
  | request => exact request_course h
  | forward => exact forward_course h
  | halt => exact halt_course h
  | desire =>
    obtain ⟨d, hp, _, rfl⟩ := desire_cases h
    exact .goesOn (by rw [hp]; rfl) (by rw [sync_drive]; rfl) (standing_sync s d)
  | frame => exact frame_course h
  | silence =>
    obtain ⟨d, deadline, hp, hd, _, rfl⟩ := silence_cases h
    have hturn : s.turnOf .silence =
        some (.lost ("no data for " ++ toString (s.idle.getD ⟨0⟩).millis ++ " ms")) := by
      simp [turnOf, hp, hd]
    rw [hturn]
    exact .isLost (by rw [hp]; rfl) (lose_givesWay s _ _)
  | wake =>
    obtain ⟨failures, wake, hp, hle, rfl⟩ := wake_cases h
    exact .wakes hp hle (attempt_phase s failures) (standing_attempt s failures)

/-- What others do leaves the phase as it is, and of the standing it only changes that the session is
stopped, or what was not carried off yet. -/
theorem step_course {x : Step} (h : s.step? x = some t) :
    (∃ m, x = .move m ∧ Course s t (s.turnIn x)) ∨
      (s.turnIn x = none ∧ t.phase = s.phase ∧
        ((x = .shutdown ∧ t.standing = s.standing.stop) ∨
          (x = .collect ∧ t.standing = { s.standing with announced := [] }) ∨
          (x ≠ .shutdown ∧ x ≠ .collect ∧ t.standing = s.standing))) := by
  cases x with
  | move m => exact .inl ⟨m, rfl, move_course h⟩
  | set addresses =>
    cases h
    refine .inr ⟨rfl, ?_, .inr (.inr ⟨nofun, nofun, ?_⟩)⟩
    · unfold setSubscription
      split <;> rfl
    · unfold setSubscription
      split <;> rfl
  | shutdown =>
    cases h
    exact .inr ⟨rfl, shutdown_phase s, .inl ⟨rfl, standing_shutdown s⟩⟩
  | device step =>
    simp only [step?, Option.map_eq_some_iff] at h
    obtain ⟨result, hd, rfl⟩ := h
    obtain ⟨links, connector, heq⟩ := device_shape hd
    rw [heq]
    exact .inr ⟨rfl, rfl, .inr (.inr ⟨nofun, nofun, rfl⟩)⟩
  | read | take | dropSnapshots | pass ms =>
    cases h
    exact .inr ⟨rfl, rfl, .inr (.inr ⟨nofun, nofun, rfl⟩)⟩
  | collect =>
    cases h
    exact .inr ⟨rfl, rfl, .inr (.inl ⟨rfl, rfl⟩)⟩

end Session

end ChannelFeed
