import ChannelFeed.Proofs.Session.Course
import ChannelFeed.Proofs.Session.Stream
import ChannelFeed.Proofs.Session.Traffic

namespace ChannelFeed.Session

variable {s t : Session} {x : Step} {past : Past}

/-- The instants from which silence on a link counts that a step brings. -/
def stirsIn (link : Nat) (s : Session) (x : Step) : List Nat :=
  ((s.putIn x).filter (fun p => p.1 == link)).map (fun _ => s.now) ++
    (takenOffIn link s x).map Prod.fst

/-- When silence is too long that began at some instant. It never is without a bound, or if no channels
were asked for. -/
def dueAt? (idle : Option Duration) (subscribed : AddressSet) (began : Option Nat) : Option Nat :=
  match idle, began with
  | some timeout, some began => if subscribed.isEmpty then none else some (began + timeout.ticks)
  | _, _ => none

theorem dueAt?_eq_some {idle : Option Duration} {subscribed : AddressSet} {began : Option Nat}
    {due : Nat} : dueAt? idle subscribed began = some due ↔
      ∃ timeout instant, idle = some timeout ∧ began = some instant ∧
        subscribed.isEmpty = false ∧ due = instant + timeout.ticks := by
  cases idle with
  | none => simp [dueAt?]
  | some timeout =>
    cases began with
    | none => simp [dueAt?]
    | some instant =>
      cases hempty : subscribed.isEmpty with
      | true => simp [dueAt?, hempty]
      | false => simp [dueAt?, hempty, eq_comm (a := due)]

/-- A deadline that is set now counts from now. -/
theorem deadlineFor?_dueAt? {subscribed : AddressSet} {deadline : Option Nat}
    (h : s.deadlineFor? subscribed = some deadline) :
    deadline = dueAt? s.idle subscribed (some s.now) := by
  unfold deadlineFor? at h
  unfold dueAt?
  split at h
  · rename_i hidle
    rw [hidle]
    exact (Option.some.inj h).symm
  · rename_i timeout hidle
    rw [hidle]
    dsimp only
    split at h
    · rename_i hempty
      rw [if_pos hempty]
      exact (Option.some.inj h).symm
    · rename_i hsome
      rw [if_neg hsome]
      rw [Option.map_eq_some_iff] at h
      obtain ⟨due, hafter, rfl⟩ := h
      unfold Duration.after? at hafter
      split at hafter
      · exact hafter.symm
      · cases hafter

/-- How a step leaves the deadline of the connection that is in use after it. -/
inductive Arms (s : Session) (x : Step) (d : Drive) : Prop where
  | opened (empty : d.subscribed = .empty) (deadline : d.deadline = none)
  | kept {d' : Drive} (was : s.phase.drive? = some d') (link : d.link = d'.link)
      (subscribed : d.subscribed = d'.subscribed) (deadline : d.deadline = d'.deadline)
      (still : stirsIn d.link s x = [])
  | anew (stirred : stirsIn d.link s x = [s.now])
      (deadline : d.deadline = dueAt? s.idle d.subscribed (some s.now))

variable {d : Drive}

theorem request_arms (h : s.move? .request = some t) (hd : t.phase.drive? = some d) :
    Arms s (.move .request) d := by
  obtain ⟨e, r, l, hp, hl, ⟨toDevice, hs, rfl⟩ | ⟨_, rfl⟩⟩ := request_cases h
  · unfold sent at hd
    dsimp only at hd
    split at hd
    · rename_i deadline hdeadline
      cases hd
      refine .anew ?_ (deadlineFor?_dueAt? hdeadline)
      simp [stirsIn, putIn, takenOffIn, hp, hl, hs]
    · cases hd
  · rw [lose_drive] at hd
    cases hd

theorem frame_arms (h : s.move? .frame = some t) (hd : t.phase.drive? = some d) :
    Arms s (.move .frame) d := by
  obtain ⟨e, l, hp, hl, ⟨toClient, text, hr, hcases⟩ | ⟨_, rfl⟩⟩ := frame_cases h
  · rcases hcases with ⟨deadline, hdeadline, rfl⟩ | ⟨_, rfl⟩
    · obtain ⟨rejection, notes, heq⟩ := handle_shape
        (s.modifyLink e.link (fun l => { l with toClient })) { e with deadline } text
      obtain ⟨gate, hgate⟩ := Drive.afterFrame_drive { e with deadline } text
      rw [heq] at hd
      dsimp only at hd
      rw [hgate] at hd
      cases hd
      refine .anew ?_ (deadlineFor?_dueAt? hdeadline)
      simp [stirsIn, putIn, takenOffIn, hp, inbound, hl, receive_item hr]
    · cases hd
  · rw [lose_drive] at hd
    cases hd

theorem move_arms {m : Move} (h : s.move? m = some t) (hd : t.phase.drive? = some d) :
    Arms s (.move m) d := by
  cases m with
  | request => exact request_arms h hd
  | frame => exact frame_arms h hd
  | connect =>
    obtain ⟨failures, u, _, ⟨link, _, rfl⟩ | ⟨fault, _, rfl⟩⟩ := connect_cases h
    · unfold openLink at hd
      rw [sync_drive] at hd
      cases hd
      exact .opened rfl rfl
    · rw [retry_drive] at hd
      cases hd
  | forward =>
    obtain ⟨e, snapshot, hp, ⟨snapshots, _, rfl⟩ | ⟨_, rfl⟩⟩ := forward_cases h
    · cases hd
      exact .kept (by rw [hp]; rfl) rfl rfl rfl rfl
    · rw [finish_phase] at hd
      cases hd
  | desire =>
    obtain ⟨e, hp, _, rfl⟩ := desire_cases h
    rw [sync_drive] at hd
    cases hd
    exact .kept (by rw [hp]; rfl) rfl rfl rfl rfl
  | start =>
    obtain ⟨_, rfl⟩ := start_cases h
    rw [attempt_phase] at hd
    cases hd
  | wake =>
    obtain ⟨failures, _, _, _, rfl⟩ := wake_cases h
    rw [attempt_phase] at hd
    cases hd
  | halt =>
    obtain ⟨_, ⟨_, rfl⟩ | ⟨e, _, rfl⟩⟩ := halt_cases h
    · rw [finish_phase] at hd
      cases hd
    · rw [finish_phase] at hd
      cases hd
  | silence =>
    obtain ⟨e, _, _, _, _, rfl⟩ := silence_cases h
    rw [lose_drive] at hd
    cases hd

theorem step_arms (h : s.step? x = some t) (hd : t.phase.drive? = some d) : Arms s x d := by
  rcases step_course h with ⟨m, rfl, _⟩ | ⟨hturn, hphase, _⟩
  · exact move_arms h hd
  · cases x with
    | move m => exact move_arms h hd
    | _ => exact .kept (hphase ▸ hd) rfl rfl rfl rfl

/-- The deadline of a connection counts from the last request that was put on it and the last frame
that was taken off it. -/
theorem Reached.armed (h : Reached past s) (hd : s.phase.drive? = some d) :
    d.deadline = dueAt? s.idle d.subscribed (logged (stirsIn d.link) past).getLast? := by
  induction h generalizing d with
  | start promised started =>
    obtain ⟨snapshots, _, rfl⟩ := ofConfig_eq started
    cases hd
  | @step past u t x earlier possible ih =>
    rw [logged_append, (step_traffic possible).idle]
    cases step_arms possible hd with
    | opened empty deadline =>
      rw [deadline, empty]
      symm
      rw [Option.eq_none_iff_forall_ne_some]
      intro due hdue
      obtain ⟨_, _, _, _, hempty, _⟩ := dueAt?_eq_some.mp hdue
      cases hempty
    | kept was link subscribed deadline still =>
      rw [still, List.append_nil, link, subscribed, deadline]
      exact ih was
    | anew stirred deadline =>
      rw [stirred, List.getLast?_concat]
      exact deadline

theorem Reached.logged_ascending {entries : Session → Step → List Nat} (h : Reached past s)
    (present : ∀ s x, ∀ i ∈ entries s x, i = s.now) :
    (logged entries past).Pairwise (· ≤ ·) ∧ ∀ i ∈ logged entries past, i ≤ s.now := by
  induction h with
  | start promised started => exact ⟨.nil, fun _ hm => nomatch hm⟩
  | @step past u t x earlier possible ih =>
    have hnow := (step_traffic possible).now
    have hnew : ∀ i ∈ entries u x, i = u.now := present u x
    rw [logged_append, List.pairwise_append]
    refine ⟨⟨ih.1, ?_, ?_⟩, ?_⟩
    · rw [List.pairwise_iff_getElem]
      intro i j hi hj _
      exact Nat.le_of_eq ((hnew _ (List.getElem_mem hi)).trans (hnew _ (List.getElem_mem hj)).symm)
    · intro i hi j hj
      rw [hnew j hj]
      exact ih.2 i hi
    · intro i hi
      rcases List.mem_append.mp hi with hi | hi
      · exact Nat.le_trans (ih.2 i hi) hnow
      · exact hnew i hi ▸ hnow

theorem stirsIn_instant {link : Nat} {i : Nat} (h : i ∈ stirsIn link s x) : i = s.now := by
  rcases List.mem_append.mp h with h | h
  · obtain ⟨_, _, rfl⟩ := List.mem_map.mp h
    rfl
  · obtain ⟨frame, hframe, rfl⟩ := List.mem_map.mp h
    exact takenOffIn_instant hframe

theorem takenOff_stirs {link : Nat} {frame : Nat × String}
    (h : frame ∈ logged (takenOffIn link) past) : frame.1 ∈ logged (stirsIn link) past := by
  obtain ⟨moment, hm, hframe⟩ := List.mem_flatMap.mp h
  exact List.mem_flatMap.mpr ⟨moment, hm,
    List.mem_append_right _ (List.mem_map_of_mem hframe)⟩

/-- No frame was taken off a link that was put there after silence on it began. -/
theorem Reached.taken_before (h : Reached past s) {link began : Nat}
    (hbegan : (logged (stirsIn link) past).getLast? = some began) :
    ∃ early late, logged (arrivedIn link) past = early ++ late ∧
      late.map Prod.snd = s.inbound link ∧ ∀ frame ∈ early, frame.1 ≤ began := by
  obtain ⟨early, late, hsplit, hlate, hpairs⟩ := (h.flow link).order
  refine ⟨early, late, hsplit, hlate, ?_⟩
  have hlast : ∀ i ∈ logged (stirsIn link) past, i ≤ began := by
    have hpresent : ∀ s x, ∀ i ∈ stirsIn link s x, i = s.now := fun _ _ _ => stirsIn_instant
    have hascending := (h.logged_ascending hpresent).1
    obtain ⟨before, hbefore⟩ := List.getLast?_eq_some_iff.mp hbegan
    rw [hbefore, List.pairwise_append] at hascending
    intro i hi
    rw [hbefore] at hi
    rcases List.mem_append.mp hi with hi | hi
    · exact hascending.2.2 i hi began (List.mem_singleton_self began)
    · exact Nat.le_of_eq (List.mem_singleton.mp hi)
  have htaken : ∀ frame ∈ logged (takenOffIn link) past, frame.1 ≤ began :=
    fun frame hframe => hlast _ (takenOff_stirs hframe)
  clear hsplit hlate
  generalize logged (takenOffIn link) past = taken at hpairs htaken
  induction hpairs with
  | nil => exact fun _ hm => nomatch hm
  | cons hfirst _ ih =>
    rw [List.forall_mem_cons] at htaken ⊢
    exact ⟨Nat.le_trans hfirst.1 htaken.1, ih htaken.2⟩

theorem ticks_over {timeout : Duration} {began now : Nat} (h : began + timeout.ticks ≤ now) :
    began * Duration.perMilli + timeout.nanoseconds ≤ now * Duration.perMilli := by
  unfold Duration.ticks Duration.perMilli at h
  unfold Duration.perMilli
  omega

/-- A device that is given up as silent was asked for nothing, and no frame of it was taken, for the
whole of the timeout. Its frames that were taken had been put on the connection before that; those that
were not still wait, and the session could have taken the next of them instead. -/
theorem Reached.silence_follows (h : Reached past s) (hm : s.move? .silence = some t) :
    ∃ d timeout began, s.phase = .driving d ∧ s.idle = some timeout ∧
      t = s.lose d.link ("no data for " ++ toString timeout.millis ++ " ms") ∧
      (logged (stirsIn d.link) past).getLast? = some began ∧
      began * Duration.perMilli + timeout.nanoseconds ≤ s.now * Duration.perMilli ∧
      ∃ early late, logged (arrivedIn d.link) past = early ++ late ∧
        late.map Prod.snd = s.inbound d.link ∧ (∀ frame ∈ early, frame.1 ≤ began) ∧
        (late ≠ [] → (s.move? .frame).isSome = true) := by
  obtain ⟨d, due, hp, hd, hle, rfl⟩ := silence_cases hm
  have harmed := h.armed (d := d) (by rw [hp]; rfl)
  rw [hd] at harmed
  obtain ⟨timeout, began, hidle, hbegan, _, rfl⟩ := dueAt?_eq_some.mp harmed.symm
  obtain ⟨early, late, hsplit, hlate, hearly⟩ := h.taken_before hbegan
  refine ⟨d, timeout, began, hp, hidle, ?_, hbegan, ticks_over hle, early, late, hsplit, hlate,
    hearly, ?_⟩
  · rw [hidle]
    rfl
  · intro hwaits
    have hqueue : s.inbound d.link ≠ [] := by
      rw [← hlate]
      exact fun hnone => hwaits (List.map_eq_nil_iff.mp hnone)
    unfold inbound at hqueue
    split at hqueue
    · rename_i l hl
      obtain ⟨text, rest, hq⟩ := List.exists_cons_of_ne_nil hqueue
      simp only [move?, hp, hl, Pipe.receive, hq]
      split <;> rfl
    · exact absurd rfl hqueue

def briefly : Config :=
  { Config.socket "edge0" "ws://device/socket" with buffer := 1, idle := some (.ofMillis 1000) }

/-- A device that sends a frame every 600 ms can be given up as silent for a second, while the receiver
of the snapshots is slow: the last frame was put on the connection since, and waits there. -/
theorem talking_device_given_up : ∃ past s t, Reached past s ∧ s.move? .silence = some t ∧
    s.idle = some (.ofMillis 1000) ∧ s.now = 1200 ∧
    (logged (arrivedIn 0) past).map Prod.fst = [0, 0, 600] ∧
    s.inbound 0 = [bareReport 3] ∧ (s.move? .frame).isSome = true := by
  have hstart : Reached [] (ofQueue briefly (.queued []) 0 0 ⟨1, [], true, true⟩) :=
    .start (c := briefly) rfl rfl
  obtain ⟨past, s, hreached, _, htest⟩ := hstart.of_replay
    [.move .start, .device (.accept 8 false), .move .connect, .set (.ofList [⟨"c", "A"⟩]),
      .move .desire, .move .request, .device (.send 0 [bareReport 1, bareReport 2]),
      .move .frame, .move .forward, .move .frame, .pass 600, .device (.send 0 [bareReport 3]),
      .pass 600, .take, .move .forward]
    (fun past s => (s.move? .silence).isSome && s.idle == some (.ofMillis 1000) &&
      s.now == 1200 && (logged (arrivedIn 0) past).map Prod.fst == [0, 0, 600] &&
      s.inbound 0 == [bareReport 3] && (s.move? .frame).isSome)
    (by decide +kernel)
  simp only [Bool.and_eq_true, beq_iff_eq] at htest
  obtain ⟨⟨⟨⟨⟨hsilence, hidle⟩, hnow⟩, harrived⟩, hwaits⟩, hframe⟩ := htest
  obtain ⟨t, ht⟩ := Option.isSome_iff_exists.mp hsilence
  exact ⟨past, s, t, hreached, ht, hidle, hnow, harrived, hwaits, hframe⟩

end ChannelFeed.Session
