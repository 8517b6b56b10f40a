import ChannelFeed.Proofs.Session.States

namespace ChannelFeed

namespace Policy

theorem nextDelay_eq_none_iff {p : Policy} {failures : Nat} :
    p.nextDelay failures = none ↔ p.allows failures = false := by
  unfold nextDelay
  split
  · rename_i h
    simp [h]
  · rename_i h
    simp [Bool.eq_false_iff.mpr h]

theorem allows_of_nextDelay {p : Policy} {failures : Nat} {delay : Duration}
    (h : p.nextDelay failures = some delay) : p.allows failures = true := by
  cases ha : p.allows failures with
  | true => rfl
  | false => simp [nextDelay_eq_none_iff.mpr ha] at h

/-- No pause is longer than the longest. -/
theorem nextDelay_le {p : Policy} {failures : Nat} {delay : Duration}
    (h : p.nextDelay failures = some delay) : delay.nanoseconds ≤ p.longest.nanoseconds := by
  unfold nextDelay at h
  split at h
  · cases h
    exact Nat.min_le_right _ _
  · cases h

theorem enabled_of_allows {p : Policy} {failures : Nat} (h : p.allows failures = true) :
    p.enabled = true := (Bool.and_eq_true_iff.mp h).1

theorem allows_iff_lt {p : Policy} {most failures : Nat} (enabled : p.enabled = true)
    (limit : p.maxRetries = some most) : p.allows failures = true ↔ failures < most := by
  simp [allows, enabled, limit]

theorem allows_unlimited {p : Policy} (enabled : p.enabled = true) (limit : p.maxRetries = none)
    (failures : Nat) : p.allows failures = true := by
  simp [allows, enabled, limit]

end Policy

namespace Session

variable {s t : Session} {ts : List (Nat × Turn)}

/-- The turn that a step brings, with the time at which it does. -/
def turnsIn (s : Session) (x : Step) : List (Nat × Turn) :=
  ((s.turnIn x).map (fun turn => (s.now, turn))).toList

def turns (past : Past) : List (Nat × Turn) := logged turnsIn past

def Turn.isFailure (turn : Turn) : Bool := turn.reason?.isSome

def Turn.isRefusal : Turn → Bool
  | refused _ => true
  | _ => false

/-- The turns since a connection was last opened, the latest first. -/
def sinceOpened (ts : List (Nat × Turn)) : List (Nat × Turn) :=
  ts.reverse.takeWhile (fun turn => turn.2.isFailure)

/-- How many failures there were in a row, a loss being the first. -/
def failuresInARow (ts : List (Nat × Turn)) : Nat := (sinceOpened ts).length

def refusalsInARow (ts : List (Nat × Turn)) : Nat :=
  (sinceOpened ts).countP (fun turn => turn.2.isRefusal)

def everOpened (ts : List (Nat × Turn)) : Bool := ts.any (fun turn => turn.2 == .opened)

theorem sinceOpened_opened (ts : List (Nat × Turn)) (now : Nat) :
    sinceOpened (ts ++ [(now, .opened)]) = [] := by
  simp [sinceOpened, Turn.isFailure, Turn.reason?]

theorem sinceOpened_failure (ts : List (Nat × Turn)) (now : Nat) {turn : Turn}
    (h : turn.isFailure = true) :
    sinceOpened (ts ++ [(now, turn)]) = (now, turn) :: sinceOpened ts := by
  simp [sinceOpened, h]

theorem failuresInARow_failure (ts : List (Nat × Turn)) (now : Nat) {turn : Turn}
    (h : turn.isFailure = true) :
    failuresInARow (ts ++ [(now, turn)]) = failuresInARow ts + 1 := by
  simp [failuresInARow, sinceOpened_failure ts now h]

theorem refusalsInARow_failure (ts : List (Nat × Turn)) (now : Nat) {turn : Turn}
    (h : turn.isFailure = true) :
    refusalsInARow (ts ++ [(now, turn)]) =
      refusalsInARow ts + if turn.isRefusal then 1 else 0 := by
  simp [refusalsInARow, sinceOpened_failure ts now h, List.countP_cons]

theorem everOpened_append (ts : List (Nat × Turn)) (now : Nat) (turn : Turn) :
    everOpened (ts ++ [(now, turn)]) = (everOpened ts || turn == .opened) := by
  simp [everOpened]

/-- Every failure so far might be followed by a retry. -/
structure Trying (p : Policy) (ts : List (Nat × Turn)) : Prop where
  allowed : ∀ n < failuresInARow ts, p.allows n = true
  enabled : (∃ turn ∈ ts, turn.2.isFailure = true) → p.enabled = true

/-- The last turn is the failure that no retry is allowed after. -/
def GaveUp (p : Policy) (ts : List (Nat × Turn)) (reason : String) : Prop :=
  ∃ before now turn, ts = before ++ [(now, turn)] ∧ turn.reason? = some reason ∧
    Trying p before ∧ p.allows (failuresInARow before) = false

/-- How the turns of a run fit the phase that it has come to. -/
def InBudget (ts : List (Nat × Turn)) (s : Session) : Phase → Prop
  | .spawned => ts = []
  | .connecting failures =>
    failuresInARow ts = failures ∧ (failures = 0 → ts = []) ∧ Trying s.policy ts
  | .pausing failures wake =>
    Trying s.policy ts ∧ failuresInARow ts = failures ∧
      ∃ earlier now turn delay, failures = earlier + 1 ∧ ts.getLast? = some (now, turn) ∧
        turn.isFailure = true ∧ s.policy.nextDelay earlier = some delay ∧
        wake = delay.endOfPause s.lastInstant now
  | .finished => s.stopped = false →
    (∃ reason, s.state = .failed reason ∧ GaveUp s.policy ts reason) ∨
      ((s.state = .connected ∨ s.state = .disconnected) ∧ failuresInARow ts = 0 ∧
        Trying s.policy ts)
  | _ => failuresInARow ts = 0 ∧ everOpened ts = true ∧ Trying s.policy ts

/-- The turns fit the phase, and all failures but a loss are refusals. -/
structure Budgeted (ts : List (Nat × Turn)) (s : Session) : Prop where
  fits : InBudget ts s s.phase
  refused : failuresInARow ts = refusalsInARow ts +
    if everOpened ts && 0 < failuresInARow ts then 1 else 0

theorem inBudget_drive {p : Phase} (h : p.drive?.isSome = true) :
    InBudget ts s p ↔
      failuresInARow ts = 0 ∧ everOpened ts = true ∧ Trying s.policy ts := by
  cases p <;> first | exact Iff.rfl | cases h

theorem Trying.opened {p : Policy} (h : Trying p ts) (now : Nat) :
    Trying p (ts ++ [(now, .opened)]) := by
  refine ⟨?_, ?_⟩
  · intro n hn
    simp [failuresInARow, sinceOpened_opened] at hn
  · intro hex
    obtain ⟨turn, hm, hf⟩ := hex
    rcases List.mem_append.mp hm with hm | hm
    · exact h.enabled ⟨turn, hm, hf⟩
    · rw [List.mem_singleton.mp hm] at hf
      cases hf

theorem Trying.failed {p : Policy} {turn : Turn} (h : Trying p ts) (now : Nat)
    (hf : turn.isFailure = true) (ha : p.allows (failuresInARow ts) = true) :
    Trying p (ts ++ [(now, turn)]) := by
  refine ⟨?_, fun _ => Policy.enabled_of_allows ha⟩
  intro n hn
  rw [failuresInARow_failure ts now hf] at hn
  rcases Nat.lt_succ_iff_lt_or_eq.mp hn with hn | rfl
  · exact h.allowed n hn
  · exact ha

/-- After a failure the session pauses as its policy says, or has given up. -/
theorem inBudget_givesWay {turn : Turn} {reason : String} (h : Trying s.policy ts)
    (hr : turn.reason? = some reason) (hw : GivesWay s t (failuresInARow ts) reason) :
    InBudget (ts ++ [(s.now, turn)]) t t.phase := by
  have hf : turn.isFailure = true := by simp [Turn.isFailure, hr]
  rcases hw with ⟨hnone, is, stands⟩ | ⟨delay, hsome, is, stands⟩
  · rw [is]
    intro running
    have hpolicy : t.policy = s.policy :=
      (congrArg Standing.policy stands).trans (Standing.become_policy _ _)
    have hstopped : t.stopped = s.stopped :=
      (congrArg Standing.stopped stands).trans (Standing.become_stopped _ _)
    have hstate : t.state = .failed reason :=
      (congrArg Standing.state stands).trans (Standing.become_state (hstopped.symm.trans running) _)
    refine .inl ⟨reason, hstate, ⟨ts, s.now, turn, rfl, hr, hpolicy ▸ h, ?_⟩⟩
    rw [hpolicy]
    exact Policy.nextDelay_eq_none_iff.mp hnone
  · rw [is]
    have hpolicy : t.policy = s.policy :=
      (congrArg Standing.policy stands).trans (Standing.become_policy _ _)
    have hlast : t.lastInstant = s.lastInstant :=
      (congrArg Standing.lastInstant stands).trans (Standing.become_lastInstant _ _)
    unfold InBudget
    rw [hpolicy, hlast]
    exact ⟨h.failed s.now hf (Policy.allows_of_nextDelay hsome), failuresInARow_failure ts _ hf,
      failuresInARow ts, s.now, turn, delay, rfl, by simp, hf, hsome, rfl⟩

theorem Course.policy {turn : Option Turn} (h : Course s t turn) : t.policy = s.policy :=
  h.tells.policy

theorem Trying.nil (p : Policy) : Trying p [] := by
  refine ⟨?_, ?_⟩
  · intro n hn
    cases hn
  · intro hex
    obtain ⟨_, hm, _⟩ := hex
    cases hm

theorem Budgeted.course {turn : Option Turn} (h : Budgeted ts s) (shown : Shown s)
    (hc : Course s t turn) :
    Budgeted (ts ++ (turn.map (fun turn => (s.now, turn))).toList) t := by
  have hpolicy := hc.policy
  have hfits := h.fits
  have hrefused := h.refused
  cases hc with
  | begins was is stands =>
    rw [was] at hfits
    have hnil : ts = [] := hfits
    subst hnil
    refine ⟨?_, hrefused⟩
    rw [is]
    exact ⟨rfl, fun _ => rfl, .nil _⟩
  | opens was is stands =>
    rw [was] at hfits
    obtain ⟨_, _, htrying⟩ := hfits
    refine ⟨(inBudget_drive is).mpr ⟨?_, ?_, ?_⟩, ?_⟩
    · simp [failuresInARow, sinceOpened_opened]
    · simp [everOpened_append]
    · exact hpolicy ▸ htrying.opened s.now
    · simp [failuresInARow, refusalsInARow, sinceOpened_opened]
  | @isRefused failures reason was is =>
    rw [was] at hfits
    obtain ⟨hcount, hfirst, htrying⟩ := hfits
    refine ⟨inBudget_givesWay htrying rfl (hcount ▸ is), ?_⟩
    rcases Nat.eq_zero_or_pos failures with hz | hpos
    · rw [hfirst hz]
      rfl
    · have hone : failuresInARow (ts ++ [(s.now, .refused reason)]) = failuresInARow ts + 1 :=
        failuresInARow_failure ts s.now rfl
      have hmore : refusalsInARow (ts ++ [(s.now, .refused reason)]) = refusalsInARow ts + 1 :=
        refusalsInARow_failure ts s.now rfl
      simp only [Option.map_some, Option.toList_some, hone, hmore, everOpened_append]
      simp [hcount, hpos] at hrefused ⊢
      omega
  | goesOn was is stands =>
    rw [inBudget_drive was] at hfits
    rw [Option.map_none, Option.toList_none, List.append_nil]
    exact ⟨(inBudget_drive is).mpr (hpolicy.symm ▸ hfits), hrefused⟩
  | @isLost reason was is =>
    rw [inBudget_drive was] at hfits
    obtain ⟨hzero, hopened, htrying⟩ := hfits
    refine ⟨inBudget_givesWay htrying rfl (hzero.symm ▸ is), ?_⟩
    have hone : failuresInARow (ts ++ [(s.now, .lost reason)]) = failuresInARow ts + 1 :=
      failuresInARow_failure ts s.now rfl
    have hsame : refusalsInARow (ts ++ [(s.now, .lost reason)]) = refusalsInARow ts :=
      refusalsInARow_failure ts s.now rfl
    simp only [Option.map_some, Option.toList_some, hone, hsame, everOpened_append]
    simp [hzero, hopened] at hrefused ⊢
    exact hrefused.symm
  | breaksDown was is stands =>
    rw [inBudget_drive was] at hfits
    rw [Option.map_none, Option.toList_none, List.append_nil]
    refine ⟨?_, hrefused⟩
    rw [is]
    intro running
    have hstate : t.state = s.state := congrArg Standing.state stands
    have hstopped : t.stopped = s.stopped := congrArg Standing.stopped stands
    have hup := shown.shows (hstopped.symm.trans running) _ (shownIn_of_drive was)
    exact .inr ⟨.inl (hstate.trans hup), hfits.1, hpolicy.symm ▸ hfits.2.2⟩
  | wakes was due is stands =>
    rw [was] at hfits
    obtain ⟨htrying, hcount, earlier, _, _, _, hsucc, _⟩ := hfits
    rw [Option.map_none, Option.toList_none, List.append_nil]
    refine ⟨?_, hrefused⟩
    rw [is]
    exact ⟨hcount, fun hz => by omega, hpolicy.symm ▸ htrying⟩
  | ends was is stands =>
    rw [Option.map_none, Option.toList_none, List.append_nil]
    refine ⟨?_, hrefused⟩
    rw [is]
    intro running
    have hstopped : t.stopped = s.stopped :=
      (congrArg Standing.stopped stands).trans (Standing.become_stopped _ _)
    have hs : s.stopped = false := hstopped.symm.trans running
    have hstate : t.state = .disconnected :=
      (congrArg Standing.state stands).trans (Standing.become_state hs _)
    rcases was with was | ⟨stopped, _⟩
    · rw [inBudget_drive was] at hfits
      exact .inr ⟨.inr hstate, hfits.1, hpolicy.symm ▸ hfits.2.2⟩
    · simp [hs] at stopped

theorem Budgeted.aside (h : Budgeted ts s) (hphase : t.phase = s.phase)
    (hpolicy : t.policy = s.policy) (hlast : t.lastInstant = s.lastInstant)
    (hstate : t.stopped = false → s.stopped = false ∧ t.state = s.state) :
    Budgeted ts t := by
  refine ⟨?_, h.refused⟩
  have hfits := h.fits
  rw [hphase]
  generalize s.phase = p at hfits
  cases p with
  | finished =>
    intro running
    obtain ⟨hs, hsame⟩ := hstate running
    rw [hsame, hpolicy]
    exact hfits hs
  | spawned => exact hfits
  | connecting | driving | requesting | forwarding =>
    unfold InBudget at hfits ⊢
    rw [hpolicy]
    exact hfits
  | pausing =>
    unfold InBudget at hfits ⊢
    rw [hpolicy, hlast]
    exact hfits

theorem Budgeted.step {x : Step} (h : Budgeted ts s) (shown : Shown s)
    (hx : s.step? x = some t) : Budgeted (ts ++ s.turnsIn x) t := by
  unfold turnsIn
  rcases step_course hx with ⟨m, _, hc⟩ | ⟨hturn, hphase, hcases⟩
  · exact h.course shown hc
  · rw [hturn, Option.map_none, Option.toList_none, List.append_nil]
    rcases hcases with ⟨_, hs⟩ | ⟨_, hs⟩ | ⟨_, _, hs⟩
    · have htells := s.standing.tells_stop
      refine h.aside hphase ((congrArg Standing.policy hs).trans htells.policy)
        ((congrArg Standing.lastInstant hs).trans htells.lastInstant) ?_
      intro running
      have hstopped : t.stopped = true := (congrArg Standing.stopped hs).trans (by simp)
      simp [running] at hstopped
    · refine h.aside hphase (congrArg Standing.policy hs) (congrArg Standing.lastInstant hs)
        (fun running => ⟨?_, ?_⟩)
      · exact (congrArg Standing.stopped hs).symm.trans running
      · exact congrArg Standing.state hs
    · refine h.aside hphase (congrArg Standing.policy hs) (congrArg Standing.lastInstant hs)
        (fun running => ⟨?_, ?_⟩)
      · exact (congrArg Standing.stopped hs).symm.trans running
      · exact congrArg Standing.state hs

theorem Reached.budgeted {past : Past} (h : Reached past s) : Budgeted (turns past) s := by
  induction h with
  | start _ started =>
    obtain ⟨snapshots, _, rfl⟩ := ofConfig_eq started
    exact ⟨rfl, rfl⟩
  | step earlier possible ih =>
    unfold turns
    rw [logged_append]
    exact ih.step earlier.shown possible

theorem GaveUp.not_trying {p : Policy} {reason : String} (h : GaveUp p ts reason) :
    ¬ Trying p ts := by
  obtain ⟨before, now, turn, rfl, hr, _, hnot⟩ := h
  intro htrying
  have hfailure : turn.isFailure = true := by simp [Turn.isFailure, hr]
  have hcount := failuresInARow_failure before now hfailure
  have hallowed := htrying.allowed (failuresInARow before) (by omega)
  simp [hnot] at hallowed

theorem GaveUp.last_reason {p : Policy} {reason : String} (h : GaveUp p ts reason) :
    ts.getLast?.bind (fun turn => turn.2.reason?) = some reason := by
  obtain ⟨before, now, turn, rfl, hr, _⟩ := h
  simpa using hr

/-- A session that was not stopped is still trying, or it has failed and given up. -/
theorem Budgeted.outcome (h : Budgeted ts s) (shown : Shown s) (running : s.stopped = false) :
    (s.state.isFailed = false ∧ Trying s.policy ts) ∨
      ∃ reason, s.state = .failed reason ∧ GaveUp s.policy ts reason := by
  have hfits := h.fits
  have hshows := shown.shows running
  generalize s.phase = p at hfits hshows
  cases p with
  | spawned =>
    have hnil : ts = [] := hfits
    rw [hshows _ rfl, hnil]
    exact .inl ⟨rfl, .nil _⟩
  | connecting failures =>
    rw [hshows _ rfl]
    refine .inl ⟨?_, hfits.2.2⟩
    cases failures <;> rfl
  | pausing failures wake =>
    rw [hshows _ rfl]
    refine .inl ⟨?_, hfits.1⟩
    cases failures <;> rfl
  | driving | requesting | forwarding =>
    rw [hshows _ rfl]
    exact .inl ⟨rfl, hfits.2.2⟩
  | finished =>
    rcases hfits running with hgave | ⟨hstate | hstate, _, htrying⟩
    · exact .inr hgave
    · rw [hstate]
      exact .inl ⟨rfl, htrying⟩
    · rw [hstate]
      exact .inl ⟨rfl, htrying⟩

/-- A session that was not stopped has failed if and only if it gave up. -/
theorem Budgeted.failed_iff (h : Budgeted ts s) (shown : Shown s) (running : s.stopped = false)
    (reason : String) : s.state = .failed reason ↔ GaveUp s.policy ts reason := by
  rcases h.outcome shown running with ⟨hnot, htrying⟩ | ⟨reason', hstate, hgave⟩
  · constructor
    · intro hfailed
      rw [hfailed] at hnot
      cases hnot
    · exact fun hgave => absurd htrying hgave.not_trying
  · rw [hstate]
    constructor
    · intro he
      cases he
      exact hgave
    · intro hgave'
      rw [Option.some.inj (hgave.last_reason.symm.trans hgave'.last_reason)]

section Limited

variable {p : Policy} {most : Nat} (enabled : p.enabled = true) (limit : p.maxRetries = some most)

include enabled limit

theorem Trying.failures_le (h : Trying p ts) : failuresInARow ts ≤ most := by
  cases hn : failuresInARow ts with
  | zero => exact Nat.zero_le _
  | succ n => exact (Policy.allows_iff_lt enabled limit).mp (h.allowed n (by omega))

theorem GaveUp.failures_eq {reason : String} (h : GaveUp p ts reason) :
    failuresInARow ts = most + 1 := by
  obtain ⟨before, now, turn, rfl, hr, htrying, hnot⟩ := h
  have hle := htrying.failures_le enabled limit
  have hge : ¬ failuresInARow before < most := by
    rw [← Policy.allows_iff_lt enabled limit, hnot]
    exact Bool.false_ne_true
  rw [failuresInARow_failure before now (by simp [Turn.isFailure, hr])]
  omega

/-- With a limit the session fails at the failure after that many retries in a row. -/
theorem Budgeted.failed_iff_limited (h : Budgeted ts s) (shown : Shown s)
    (running : s.stopped = false) (hp : s.policy = p) (reason : String) :
    s.state = .failed reason ↔ failuresInARow ts = most + 1 ∧
      ts.getLast?.bind (fun turn => turn.2.reason?) = some reason := by
  subst hp
  rw [h.failed_iff shown running]
  constructor
  · exact fun hgave => ⟨hgave.failures_eq enabled limit, hgave.last_reason⟩
  · intro hlast
    obtain ⟨hcount, hreason⟩ := hlast
    rcases h.outcome shown running with ⟨_, htrying⟩ | ⟨reason', _, hgave⟩
    · have hle := htrying.failures_le enabled limit
      omega
    · obtain rfl := Option.some.inj (hgave.last_reason.symm.trans hreason)
      exact hgave

end Limited

/-- Without retries the first failure is the end. -/
theorem Budgeted.failed_iff_disabled (h : Budgeted ts s) (shown : Shown s)
    (running : s.stopped = false) (disabled : s.policy.enabled = false) (reason : String) :
    s.state = .failed reason ↔ ∃ turn ∈ ts, turn.2.reason? = some reason := by
  have hnot : ∀ before, Trying s.policy before → ∀ turn ∈ before, turn.2.isFailure = false := by
    intro before htrying turn hm
    cases hf : turn.2.isFailure with
    | false => rfl
    | true => simp [htrying.enabled ⟨turn, hm, hf⟩] at disabled
  rw [h.failed_iff shown running]
  constructor
  · intro hgave
    obtain ⟨before, now, turn, rfl, hr, _⟩ := hgave
    exact ⟨(now, turn), by simp, hr⟩
  · intro hex
    obtain ⟨turn, hm, hr⟩ := hex
    have hf : turn.2.isFailure = true := by simp [Turn.isFailure, hr]
    rcases h.outcome shown running with ⟨_, htrying⟩ | ⟨reason', _, hgave⟩
    · simp [hnot ts htrying turn hm] at hf
    · -- no failure came before the last turn, so the turn is the last
      have hreason := hgave.last_reason
      obtain ⟨before, now, last, rfl, _, htrying, _⟩ := id hgave
      rcases List.mem_append.mp hm with hm | hm
      · simp [hnot before htrying turn hm] at hf
      · rw [List.mem_singleton.mp hm] at hr
        have heq : some reason' = some reason := by
          rw [← hreason, ← hr]
          simp
        exact Option.some.inj heq ▸ hgave

theorem Trying.unlimited {p : Policy} (enabled : p.enabled = true) (limit : p.maxRetries = none)
    (reason : String) : ¬ GaveUp p ts reason := by
  intro hgave
  obtain ⟨before, _, _, _, _, _, hnot⟩ := hgave
  simp [Policy.allows_unlimited enabled limit] at hnot

/-- How a session that was not stopped keeps to its policy, after the turns it has had. -/
structure KeepsPolicy (ts : List (Nat × Turn)) (s : Session) : Prop where
  /-- Without retries it fails at the first failure. -/
  disabled : s.policy.enabled = false → ∀ reason,
    s.state = .failed reason ↔ ∃ turn ∈ ts, turn.2.reason? = some reason
  /-- With a limit it fails at the failure after that many retries in a row, for that failure's
  reason; there are never more, and as many attempts failed as retries are allowed, with one more if
  there was no connection before. -/
  limited : s.policy.enabled = true → ∀ most, s.policy.maxRetries = some most →
    (∀ reason, s.state = .failed reason ↔ failuresInARow ts = most + 1 ∧
      ts.getLast?.bind (fun turn => turn.2.reason?) = some reason) ∧
    failuresInARow ts ≤ most + 1 ∧
    (s.state.isFailed = true → refusalsInARow ts = if everOpened ts then most else most + 1)
  /-- Without a limit it never fails. -/
  unlimited : s.policy.enabled = true → s.policy.maxRetries = none → s.state.isFailed = false
  /-- On a connection the whole budget is there again. -/
  restored : s.phase.drive?.isSome = true → failuresInARow ts = 0
  /-- The number that the state shows counts the failures in a row. -/
  numbered : ∀ n, s.state = .reconnecting n → n = failuresInARow ts
  /-- The pause before a retry begins with the last failure, is the one that the policy has after the
  failures before that, and ends the session's waiting when it is over: after the whole delay, unless
  the clock cannot tell when that is. -/
  paused : ∀ n wake, s.phase = .pausing n wake → n = failuresInARow ts ∧
    ∃ earlier now turn delay, n = earlier + 1 ∧ ts.getLast? = some (now, turn) ∧
      turn.isFailure = true ∧ s.policy.nextDelay earlier = some delay ∧
      delay.nanoseconds ≤ s.policy.longest.nanoseconds ∧ wake = delay.endOfPause s.lastInstant now ∧
      (wake = now + delay.ticks ∨
        delay.after? s.lastInstant now = none ∧ wake = now + Duration.longestPause) ∧
      ((s.move? .wake).isSome = true ↔ wake ≤ s.now)

theorem Budgeted.refusals_eq {most : Nat} (h : Budgeted ts s)
    (hcount : failuresInARow ts = most + 1) :
    refusalsInARow ts = if everOpened ts then most else most + 1 := by
  have hrefused := h.refused
  rw [hcount] at hrefused
  cases ho : everOpened ts with
  | false =>
    simp [ho] at hrefused
    simp [← hrefused]
  | true =>
    simp [ho] at hrefused
    simp [← hrefused]

theorem Budgeted.numbered (h : Budgeted ts s) (shown : Shown s) (running : s.stopped = false)
    {n : Nat} (hstate : s.state = .reconnecting n) : n = failuresInARow ts := by
  have hfits := h.fits
  have hshows := shown.shows running
  generalize s.phase = p at hfits hshows
  cases p with
  | connecting failures =>
    have hsame := hstate.symm.trans (hshows _ rfl)
    cases failures with
    | zero => cases hsame
    | succ k =>
      cases hsame
      exact hfits.1.symm
  | pausing failures wake =>
    have hsame := hstate.symm.trans (hshows _ rfl)
    cases failures with
    | zero => cases hsame
    | succ k =>
      cases hsame
      exact hfits.2.1.symm
  | spawned | driving | requesting | forwarding => cases hstate.symm.trans (hshows _ rfl)
  | finished =>
    rcases hfits running with ⟨reason, hfailed, _⟩ | ⟨hother | hother, _⟩
    · cases hstate.symm.trans hfailed
    · cases hstate.symm.trans hother
    · cases hstate.symm.trans hother

theorem Reached.running {past : Past} (h : Reached past s)
    (hs : Step.shutdown ∉ past.map Prod.snd) : s.stopped = false := by
  induction h with
  | start _ started =>
    obtain ⟨snapshots, _, rfl⟩ := ofConfig_eq started
    rfl
  | @step past u t x _ possible ih =>
    rw [List.map_append, List.mem_append, not_or] at hs
    have hu := ih hs.1
    rcases step_course possible with ⟨m, _, hc⟩ | ⟨_, _, ⟨rfl, _⟩ | ⟨_, he⟩ | ⟨_, _, he⟩⟩
    · exact hc.stopped.trans hu
    · exact absurd (by simp) hs.2
    · exact (congrArg Standing.stopped he).trans hu
    · exact (congrArg Standing.stopped he).trans hu

/-- Whatever happens to a session but a shutdown, it keeps to its policy. -/
theorem Reached.retries_within {past : Past} (h : Reached past s)
    (hs : Step.shutdown ∉ past.map Prod.snd) : KeepsPolicy (turns past) s := by
  have running := h.running hs
  have shown := h.shown
  have hb := h.budgeted
  refine ⟨hb.failed_iff_disabled shown running, ?_, ?_, ?_, fun n => hb.numbered shown running, ?_⟩
  · intro enabled most limit
    refine ⟨hb.failed_iff_limited enabled limit shown running rfl, ?_, ?_⟩
    · rcases hb.outcome shown running with ⟨_, htrying⟩ | ⟨reason, _, hgave⟩
      · exact Nat.le_succ_of_le (htrying.failures_le enabled limit)
      · exact Nat.le_of_eq (hgave.failures_eq enabled limit)
    · intro hfailed
      rcases hb.outcome shown running with ⟨hnot, _⟩ | ⟨reason, _, hgave⟩
      · simp [hnot] at hfailed
      · exact hb.refusals_eq (hgave.failures_eq enabled limit)
  · intro enabled limit
    rcases hb.outcome shown running with ⟨hnot, _⟩ | ⟨reason, _, hgave⟩
    · exact hnot
    · exact absurd hgave (Trying.unlimited enabled limit reason)
  · exact fun hup => ((inBudget_drive hup).mp hb.fits).1
  · intro n wake hp
    have hfits := hb.fits
    rw [hp] at hfits
    obtain ⟨_, hcount, earlier, now, turn, delay, hn, hlast, hfailure, hdelay, hwake⟩ := hfits
    refine ⟨hcount.symm, earlier, now, turn, delay, hn, hlast, hfailure, hdelay,
      Policy.nextDelay_le hdelay, hwake, ?_, ?_⟩
    · exact hwake ▸ (delay.endOfPause_cases s.lastInstant now).imp_left And.right
    · simp [move?, hp]

/-- With one retry allowed: the first attempt fails and the retry succeeds, then the connection is lost
and the retry fails. That is the end, with the reason of the last failure. -/
theorem loss_and_refusal_fail : ∃ past s, Reached past s ∧ Step.shutdown ∉ past.map Prod.snd ∧
    s.policy.enabled = true ∧ s.policy.maxRetries = some 1 ∧
    (turns past).map Prod.snd = [.refused "connection failed: down", .opened,
      .lost "connection closed", .refused "connection failed: gone"] ∧
    s.state = .failed "connection failed: gone" := by
  have hstart : Reached [] { unbegun with policy := { Policy.standard with maxRetries := some 1 } } :=
    .start (c := { Config.socket "edge0" "ws://device/socket" with
      policy := { Policy.standard with maxRetries := some 1 } }) rfl rfl
  obtain ⟨past, s, hreached, hsteps, htest⟩ := hstart.of_replay
    [.move .start, .device (.refuse (.connectionFailed "down")), .move .connect, .pass 1000,
      .move .wake, .device (.accept 4 false), .move .connect, .device (.close 0), .move .frame,
      .pass 1000, .move .wake, .device (.refuse (.connectionFailed "gone")), .move .connect]
    (fun past s => s.policy.enabled && s.policy.maxRetries == some 1 &&
      (turns past).map Prod.snd == [.refused "connection failed: down", .opened,
        .lost "connection closed", .refused "connection failed: gone"] &&
      failuresInARow (turns past) == 2)
    (by decide +kernel)
  simp only [Bool.and_eq_true, beq_iff_eq] at htest
  obtain ⟨⟨⟨enabled, limit⟩, hturns⟩, hcount⟩ := htest
  have hs : Step.shutdown ∉ past.map Prod.snd := by simp [hsteps]
  refine ⟨past, s, hreached, hs, enabled, limit, hturns, ?_⟩
  refine (((hreached.retries_within hs).limited enabled 1 limit).1 _).mpr ⟨hcount, ?_⟩
  have hlast := congrArg List.getLast? hturns
  rw [List.getLast?_map] at hlast
  obtain ⟨turn, hturn, hlast⟩ := Option.map_eq_some_iff.mp hlast
  rw [hturn, Option.bind_some, hlast]
  rfl

end Session

end ChannelFeed
