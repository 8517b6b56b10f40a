import ChannelFeed.Proofs.Generation.Values
import ChannelFeed.Proofs.Session.States
import ChannelFeed.Proofs.Session.Stream

namespace ChannelFeed

theorem Snapshot.reports_iff (x : Snapshot) (a : Address) :
    x.reports a = true ↔ a ∈ x.values.keys := by
  rw [SortedMap.mem_keys_iff, ← Option.isSome_iff_exists]
  rfl

/-- What a snapshot says hides what one that mentions the same channels said before. -/
theorem Snapshot.hides {x y : Snapshot} {a : Address} (alike : x.reports a = y.reports a)
    (before : Option Value) :
    (x.values.get? a).getD ((y.values.get? a).getD before) = (x.values.get? a).getD before := by
  unfold reports SortedMap.contains at alike
  cases hx : x.values.get? a with
  | some v => rfl
  | none =>
    have hy : y.values.get? a = none := by simpa [hx] using alike.symm
    rw [hy]
    rfl

/-- The report of the greatest number decides what the reports that lead leave behind. -/
theorem Generation.applyAll_leading {reports : List Snapshot}
    (alike : ∀ x ∈ reports, ∀ y ∈ reports, ∀ a, x.reports a = y.reports a) (g : Generation)
    (hne : reports ≠ []) :
    ∃ top ∈ reports, (∀ x ∈ reports, x.sequence ≤ top.sequence) ∧
      ∀ a, (g.applyAll (leading reports)).get? a = (top.values.get? a).getD (g.get? a) := by
  induction reports using List.reverseRecOn with
  | nil => exact absurd rfl hne
  | append_singleton earlier x ih =>
    have hx : x ∈ earlier ++ [x] := by simp
    have hmem : ∀ y ∈ earlier, y ∈ earlier ++ [x] := fun y hy => List.mem_append_left _ hy
    rcases eq_or_ne earlier [] with rfl | hearlier
    · refine ⟨x, hx, by simp, fun a => ?_⟩
      simp [leading, leadingAfter, applyAll, next_get?]
    · obtain ⟨top, htop, hgreatest, hget⟩ :=
        ih (fun y hy z hz => alike y (hmem y hy) z (hmem z hz)) hearlier
      rw [leading_append]
      split
      · rename_i hall
        simp only [List.all_eq_true, decide_eq_true_eq] at hall
        refine ⟨x, hx, ?_, fun a => ?_⟩
        · simp only [List.forall_mem_append, List.forall_mem_singleton]
          exact ⟨fun y hy => Nat.le_of_lt (hall y hy), Nat.le_refl _⟩
        · rw [applyAll_append, next_get?, hget a]
          exact Snapshot.hides (alike x hx top (hmem top htop) a) _
      · rename_i hall
        simp only [List.all_eq_true, decide_eq_true_eq, Classical.not_forall] at hall
        obtain ⟨z, hz, hn⟩ := hall
        refine ⟨top, hmem top htop, ?_, ?_⟩
        · simp only [List.forall_mem_append, List.forall_mem_singleton]
          exact ⟨hgreatest, Nat.le_trans (Nat.le_of_not_lt hn) (hgreatest z hz)⟩
        · rw [List.append_nil]
          exact hget

namespace Session

variable {s t u : Session} {x : Step}

theorem Passage.handled_current {fresh : List (Nat × AddressSet)} {sent : List (Nat × Request)}
    {new : List (Nat × String)} {out : List Snapshot} (h : Passage s x t fresh sent new out) :
    ∀ p ∈ new, ∃ d, s.phase.drive? = some d ∧ p.1 = d.link := by
  cases h with
  | @handles d text deadline was _ _ _ =>
    intro p hp
    rw [List.mem_singleton.mp hp]
    exact ⟨d, by rw [was]; rfl, rfl⟩
  | rests | takes | idles | opens | looks | puts | forwards => exact fun p hp => (nomatch hp)

/-- As long as no connection is opened, frames are handled on the last one that was. -/
theorem Reached.handled_since {before rest : Past} (h : Reached (before ++ rest) s)
    (only : logged openedIn rest = []) :
    ∀ p ∈ logged handledIn rest, ((logged openedIn before).map Prod.fst).getLast? = some p.1 := by
  induction rest using List.reverseRecOn generalizing s with
  | nil => exact fun p hp => (nomatch hp)
  | append_singleton rest' y ih =>
    obtain ⟨u, x⟩ := y
    rw [← List.append_assoc] at h
    obtain ⟨hu, hx⟩ := h.unstep
    rw [logged_append, List.append_eq_nil_iff] at only
    intro p hp
    rw [logged_append] at hp
    rcases List.mem_append.mp hp with hp | hp
    · exact ih hu only.1 p hp
    · obtain ⟨d, hd, hlink⟩ := (step_passage hx).handled_current p hp
      have hlast := hu.connected.current d hd
      rw [logged, List.flatMap_append, ← logged, ← logged, only.1, List.append_nil] at hlast
      rw [hlink, hlast]

theorem reportsOn_other {handled : List (Nat × String)} {link k : Nat} (hne : k ≠ link)
    (all : ∀ p ∈ handled, p.1 = link) : reportsOn handled k = [] := by
  have hnone : handled.filter (fun p => p.1 == k) = [] := by
    rw [List.filter_eq_nil_iff]
    intro p hp he
    exact hne ((eq_of_beq he).symm.trans (all p hp))
  rw [reportsOn, hnone]
  rfl

theorem reportsOn_concat (earlier later : List (Nat × String)) (k : Nat) :
    reportsOn (earlier ++ later) k = reportsOn earlier k ++ reportsOn later k := by
  simp [reportsOn]

/-- What the first connections bring is not changed by what is handled on the next one. -/
theorem flatMap_since {earlier later : List (Nat × String)} {opened : List Nat} {link : Nat}
    (known : ∀ p ∈ earlier, p.1 ∈ opened) (hnew : link ∉ opened)
    (all : ∀ p ∈ later, p.1 = link) :
    (opened ++ [link]).flatMap (fun k => leading (reportsOn (earlier ++ later) k)) =
      opened.flatMap (fun k => leading (reportsOn earlier k)) ++ leading (reportsOn later link) := by
  have hfirst : opened.flatMap (fun k => leading (reportsOn (earlier ++ later) k)) =
      opened.flatMap (fun k => leading (reportsOn earlier k)) := by
    rw [List.flatMap_def, List.flatMap_def]
    refine congrArg List.flatten (List.map_congr_left (fun k hk => ?_))
    have hne : k ≠ link := fun he => hnew (he ▸ hk)
    rw [reportsOn_concat, reportsOn_other hne all, List.append_nil]
  rw [List.flatMap_append, List.flatMap_singleton, hfirst, reportsOn_concat,
    reportsOn_unknown known hnew, List.nil_append]

/-- A connection of a run from its opening on: exactly these reports came on it, each at least once,
and those that passed its gate are in the queue of snapshots or have been taken from there. -/
structure Carries (frames : List Snapshot) (before : Past) (u : Session) (rest : Past)
    (s : Session) : Prop where
  reached : Reached (before ++ (u, .move .connect) :: rest) s
  opened : ∃ link channels, openedIn u (.move .connect) = [(link, channels)] ∧
    ∀ x, x ∈ reportsOn (logged handledIn rest) link ↔ x ∈ frames
  /-- No other connection was opened since. -/
  only : logged openedIn rest = []
  received : Step.dropSnapshots ∉ (before ++ (u, .move .connect) :: rest).map Prod.snd
  passed : s.phase.inFlight = []

theorem openedIn_connect {entry : Nat × AddressSet}
    (h : openedIn u (.move .connect) = [entry]) : u.phase.inFlight = [] := by
  unfold openedIn at h
  dsimp only at h
  split at h
  · rename_i hp _
    rw [hp]
    rfl
  · cases h

/-- From its opening on a connection brings the reports on it that lead. -/
theorem Carries.streamed_eq {frames : List Snapshot} {before rest : Past}
    (h : Carries frames before u rest s) :
    ∃ reports, (∀ x, x ∈ reports ↔ x ∈ frames) ∧
      streamed (before ++ (u, .move .connect) :: rest) s = streamed before u ++ leading reports := by
  obtain ⟨link, channels, hopen, hreports⟩ := h.opened
  refine ⟨_, hreports, ?_⟩
  have hu : Reached before u := h.reached.earlier
  have hreceived := h.received
  rw [List.map_append, List.mem_append, not_or] at hreceived
  have hbefore := hu.streaming.exact (hu.receiving hreceived.1)
  have hafter := h.reached.streaming.exact (h.reached.receiving h.received)
  have hhandled : logged handledIn (before ++ (u, .move .connect) :: rest) =
      logged handledIn before ++ logged handledIn rest := by
    simp [logged, handledIn]
  have hopened : (logged openedIn (before ++ (u, .move .connect) :: rest)).map Prod.fst =
      (logged openedIn before).map Prod.fst ++ [link] := by
    have honly := h.only
    simp only [logged] at honly
    simp [logged, hopen, honly]
  have hnew : link ∉ (logged openedIn before).map Prod.fst := by
    have honce := h.reached.connected.once
    rw [hopened, List.nodup_append] at honce
    exact fun hm => honce.2.2 link hm link (by simp) rfl
  have hlast : ∀ p ∈ logged handledIn rest, p.1 = link := by
    have hreached := h.reached
    rw [List.append_cons] at hreached
    intro p hp
    have hcurrent := hreached.handled_since h.only p hp
    simpa [logged_append, hopen, eq_comm] using hcurrent
  rw [openedIn_connect hopen, List.append_nil] at hbefore
  rw [hhandled, hopened, h.passed, List.append_nil,
    flatMap_since hu.streaming.known hnew hlast, ← hbefore] at hafter
  exact hafter

/-- What a connection leaves in a cache: the values of its report of the greatest number where its
reports say anything, what was there before elsewhere. -/
theorem Carries.leaves {frames : List Snapshot} {before rest : Past}
    (h : Carries frames before u rest s)
    (alike : ∀ x ∈ frames, ∀ y ∈ frames, ∀ a, x.reports a = y.reports a) (g : Generation) :
    (frames = [] ∧ ∀ a,
      (g.applyAll (streamed (before ++ (u, .move .connect) :: rest) s)).get? a =
        (g.applyAll (streamed before u)).get? a) ∨
      ∃ top ∈ frames, (∀ x ∈ frames, x.sequence ≤ top.sequence) ∧ ∀ a,
        (g.applyAll (streamed (before ++ (u, .move .connect) :: rest) s)).get? a =
          (top.values.get? a).getD ((g.applyAll (streamed before u)).get? a) := by
  obtain ⟨reports, hmem, heq⟩ := h.streamed_eq
  have happly : g.applyAll (streamed (before ++ (u, .move .connect) :: rest) s) =
      (g.applyAll (streamed before u)).applyAll (leading reports) := by
    rw [heq, Generation.applyAll, List.foldl_append]
    rfl
  simp only [happly]
  rcases eq_or_ne reports [] with rfl | hne
  · refine .inl ⟨List.eq_nil_iff_forall_not_mem.mpr (fun x hx => ?_), fun _ => rfl⟩
    cases (hmem x).mpr hx
  · obtain ⟨top, htop, hgreatest, hget⟩ := Generation.applyAll_leading
      (fun x hx y hy => alike x ((hmem x).mp hx) y ((hmem y).mp hy))
      (g.applyAll (streamed before u)) hne
    exact .inr ⟨top, (hmem top).mp htop, fun x hx => hgreatest x ((hmem x).mpr hx), hget⟩

/-- Two connections, perhaps of different sessions, bring the same reports in whatever order and
however often, all of which mention the same channels. Caches that showed the same when the
connections were opened show the same after: what the report of the greatest number says of the
channels that it mentions, and what was there before of the others. -/
theorem orders_agree {frames : List Snapshot}
    (alike : ∀ x ∈ frames, ∀ y ∈ frames, ∀ a, x.reports a = y.reports a)
    (identical : ∀ x ∈ frames, ∀ y ∈ frames, x.sequence = y.sequence → x = y)
    {before rest before' rest' : Past} {u s u' s' : Session}
    (h : Carries frames before u rest s) (h' : Carries frames before' u' rest' s')
    {g g' : Generation}
    (equal : ∀ a,
      (g.applyAll (streamed before u)).get? a = (g'.applyAll (streamed before' u')).get? a) :
    (∀ a, (g.applyAll (streamed (before ++ (u, .move .connect) :: rest) s)).get? a =
      (g'.applyAll (streamed (before' ++ (u', .move .connect) :: rest') s')).get? a) ∧
    (∀ top ∈ frames, (∀ x ∈ frames, x.sequence ≤ top.sequence) →
      ∀ a value, top.values.get? a = some value →
        (g.applyAll (streamed (before ++ (u, .move .connect) :: rest) s)).get? a = value) ∧
    ∀ a, (∀ x ∈ frames, x.reports a = false) →
      (g.applyAll (streamed (before ++ (u, .move .connect) :: rest) s)).get? a =
        (g.applyAll (streamed before u)).get? a := by
  have huniq : ∀ x ∈ frames, ∀ y ∈ frames, (∀ z ∈ frames, z.sequence ≤ x.sequence) →
      (∀ z ∈ frames, z.sequence ≤ y.sequence) → x = y := fun x hx y hy hgx hgy =>
    identical x hx y hy (Nat.le_antisymm (hgy x hx) (hgx y hy))
  rcases h.leaves alike g with ⟨hempty, hsame⟩ | ⟨top, htop, hgreatest, hget⟩
  · rcases h'.leaves alike g' with ⟨_, hsame'⟩ | ⟨top', htop', _, _⟩
    · refine ⟨fun a => (hsame a).trans ((equal a).trans (hsame' a).symm), ?_, fun a _ => hsame a⟩
      intro top htop
      rw [hempty] at htop
      cases htop
    · rw [hempty] at htop'
      cases htop'
  · rcases h'.leaves alike g' with ⟨hempty, _⟩ | ⟨top', htop', hgreatest', hget'⟩
    · rw [hempty] at htop
      cases htop
    · have he : top' = top := huniq top' htop' top htop hgreatest' hgreatest
      refine ⟨fun a => ?_, fun top'' htop'' hgreatest'' a value hv => ?_, fun a hnone => ?_⟩
      · rw [hget a, hget' a, he, equal a]
      · rw [hget a, ← huniq top'' htop'' top htop hgreatest'' hgreatest, hv]
        rfl
      · have hv : top.values.get? a = none := by
          simpa [Snapshot.reports, SortedMap.contains] using hnone top htop
        rw [hget a, hv]
        rfl

def levelReport (sequence : Nat) : String :=
  "\x7b\"method\":\"currentData\",\"params\":[" ++ toString sequence ++ ",\x7b\"ess0/Soc\":" ++
    toString sequence ++ "\x7d]\x7d"

def levelReports : List Snapshot := [1, 2, 3].filterMap (fun n => reportOf (levelReport n))

/-- A replayed connection on which these three came and passed on those of some numbers. -/
def carriesLevels (passed : List Nat) (before : Past) (u : Session) (rest : Past) (s : Session) :
    Bool :=
  match openedIn u (.move .connect) with
  | [(link, _)] =>
    decide (∀ x ∈ reportsOn (logged handledIn rest) link, x ∈ levelReports) &&
      decide (∀ x ∈ levelReports, x ∈ reportsOn (logged handledIn rest) link) &&
      (logged openedIn rest).isEmpty && s.phase.inFlight.isEmpty && (streamed before u).isEmpty &&
      (streamed (before ++ (u, .move .connect) :: rest) s).map Snapshot.sequence == passed
  | _ => false

theorem carries_of_replay (passed : List Nat) (steps : List Step)
    (kept : Step.dropSnapshots ∉ steps)
    (passes : (replay step? [] unbegun [.move .start, .device (.accept 8 false)]).any (fun a =>
      (a.2.step? (.move .connect)).any (fun t => (replay step? [] t steps).any (fun b =>
        carriesLevels passed a.1 a.2 b.1 b.2))) = true) :
    ∃ before u rest s, Carries levelReports before u rest s ∧ streamed before u = [] ∧
      (streamed (before ++ (u, .move .connect) :: rest) s).map Snapshot.sequence = passed := by
  obtain ⟨before, u, rest, s, hreached, hbefore, hrest, htest⟩ :=
    unbegun_reached.of_replay_split _ _ _ _ passes
  unfold carriesLevels at htest
  split at htest
  · rename_i link channels hopen
    simp only [Bool.and_eq_true, decide_eq_true_eq, List.isEmpty_iff, beq_iff_eq] at htest
    obtain ⟨⟨⟨⟨⟨hin, hall⟩, honly⟩, hflight⟩, hempty⟩, hpassed⟩ := htest
    refine ⟨before, u, rest, s, ⟨hreached, ⟨link, channels, hopen, fun x => ⟨hin x, hall x⟩⟩,
      honly, ?_, hflight⟩, hempty, hpassed⟩
    simp [hbefore, hrest, kept]
  · cases htest

/-- Three reports come out of order on one connection, where only the last passes, and in order but
repeatedly on another, where all pass. The caches agree. -/
theorem shuffled_levels_agree :
    (∀ x ∈ levelReports, ∀ y ∈ levelReports, ∀ a, x.reports a = y.reports a) ∧
    (∀ x ∈ levelReports, ∀ y ∈ levelReports, x.sequence = y.sequence → x = y) ∧
    ∃ before u rest s before' u' rest' s', Carries levelReports before u rest s ∧
      Carries levelReports before' u' rest' s' ∧
      (streamed (before ++ (u, .move .connect) :: rest) s).map Snapshot.sequence = [3] ∧
      (streamed (before' ++ (u', .move .connect) :: rest') s').map Snapshot.sequence = [1, 2, 3] ∧
      (∀ a, (Generation.empty.applyAll (streamed before u)).get? a =
        (Generation.empty.applyAll (streamed before' u')).get? a) ∧
      ∀ a, (Generation.empty.applyAll
          (streamed (before ++ (u, .move .connect) :: rest) s)).get? a =
        (Generation.empty.applyAll
          (streamed (before' ++ (u', .move .connect) :: rest') s')).get? a := by
  have halike : ∀ x ∈ levelReports, ∀ y ∈ levelReports, ∀ a, x.reports a = y.reports a := by
    have hkeys : ∀ x ∈ levelReports, ∀ y ∈ levelReports, x.values.keys = y.values.keys := by
      decide +kernel
    intro x hx y hy a
    rw [Bool.eq_iff_iff, Snapshot.reports_iff, Snapshot.reports_iff, hkeys x hx y hy]
  have hidentical : ∀ x ∈ levelReports, ∀ y ∈ levelReports, x.sequence = y.sequence → x = y := by
    decide +kernel
  obtain ⟨before, u, rest, s, h, hempty, hpassed⟩ := carries_of_replay [3]
    [.device (.send 0 ([3, 1, 2].map levelReport)), .move .frame, .move .forward, .move .frame,
      .move .frame] (by decide) (by decide +kernel)
  obtain ⟨before', u', rest', s', h', hempty', hpassed'⟩ := carries_of_replay [1, 2, 3]
    [.device (.send 0 ([1, 2, 1, 3].map levelReport)), .move .frame, .move .forward,
      .move .frame, .move .forward, .move .frame, .move .frame, .move .forward, .take]
    (by decide) (by decide +kernel)
  have hequal : ∀ a, (Generation.empty.applyAll (streamed before u)).get? a =
      (Generation.empty.applyAll (streamed before' u')).get? a := by
    intro a
    rw [hempty, hempty']
  exact ⟨halike, hidentical, before, u, rest, s, before', u', rest', s', h, h', hpassed, hpassed',
    hequal, (orders_agree halike hidentical h h' hequal).1⟩

end Session

end ChannelFeed
