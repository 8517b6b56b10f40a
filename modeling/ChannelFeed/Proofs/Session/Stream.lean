import ChannelFeed.Proofs.Session.Links

namespace ChannelFeed

/-- The snapshots whose sequence numbers are above those of all before them. -/
def leadingAfter (earlier : List Snapshot) : List Snapshot → List Snapshot
  | [] => []
  | x :: rest =>
    if earlier.all (fun y => y.sequence < x.sequence) then
      x :: leadingAfter (earlier ++ [x]) rest
    else leadingAfter (earlier ++ [x]) rest

def leading (reports : List Snapshot) : List Snapshot := leadingAfter [] reports

theorem leadingAfter_append (earlier reports : List Snapshot) (x : Snapshot) :
    leadingAfter earlier (reports ++ [x]) = leadingAfter earlier reports ++
      if (earlier ++ reports).all (fun y => y.sequence < x.sequence) then [x] else [] := by
  induction reports generalizing earlier with
  | nil => simp only [List.nil_append, List.append_nil, leadingAfter]
  | cons y rest ih =>
    have hsplit : earlier ++ y :: rest = (earlier ++ [y]) ++ rest := by simp
    rw [List.cons_append, leadingAfter, leadingAfter, ih, hsplit]
    split <;> rfl

theorem leading_append (reports : List Snapshot) (x : Snapshot) :
    leading (reports ++ [x]) = leading reports ++
      if reports.all (fun y => y.sequence < x.sequence) then [x] else [] :=
  leadingAfter_append [] reports x

theorem leading_head (reports : List Snapshot) : (leading reports).head? = reports.head? := by
  cases reports with
  | nil => rfl
  | cons x rest => simp [leading, leadingAfter]

/-- A gate that has seen these reports and lets a number pass if it is above all of theirs. -/
def Gate.Seen (g : Gate) (reports : List Snapshot) : Prop :=
  ∀ n, g.accepts n = true ↔ ∀ x ∈ reports, x.sequence < n

theorem Gate.seen_fresh : Gate.fresh.Seen [] := by
  intro n
  simp [fresh, accepts]

theorem Gate.Seen.accept {g : Gate} {reports : List Snapshot} {x : Snapshot} (h : g.Seen reports)
    (ha : g.accepts x.sequence = true) : Gate.Seen ⟨some x.sequence⟩ (reports ++ [x]) := by
  have habove := (h x.sequence).mp ha
  intro n
  simp only [accepts, decide_eq_true_eq, List.forall_mem_append, List.forall_mem_singleton]
  exact ⟨fun hn => ⟨fun y hy => Nat.lt_trans (habove y hy) hn, hn⟩, fun hn => hn.2⟩

theorem Gate.Seen.refuse {g : Gate} {reports : List Snapshot} {x : Snapshot} (h : g.Seen reports)
    (ha : g.accepts x.sequence = false) : g.Seen (reports ++ [x]) := by
  intro n
  rw [h n]
  simp only [List.forall_mem_append, List.forall_mem_singleton]
  refine ⟨fun hn => ⟨hn, ?_⟩, fun hn => hn.1⟩
  -- a number above all reports so far is above the one that did not pass
  have hnot : ¬ ∀ y ∈ reports, y.sequence < x.sequence := by
    rw [← h, ha]
    exact Bool.false_ne_true
  rw [Classical.not_forall] at hnot
  obtain ⟨y, hy⟩ := hnot
  rw [Classical.not_imp] at hy
  exact Nat.lt_of_le_of_lt (Nat.le_of_not_lt hy.2) (hn y hy.1)

/-- A gate lets through the reports that lead. -/
theorem Gate.Seen.accepts_eq {g : Gate} {reports : List Snapshot} (h : g.Seen reports) (n : Nat) :
    g.accepts n = reports.all (fun y => y.sequence < n) := by
  rw [Bool.eq_iff_iff, h n, List.all_eq_true]
  simp

/-- The snapshot that was accepted and still waits for room. -/
def Phase.inFlight : Phase → List Snapshot
  | forwarding _ snapshot => [snapshot]
  | _ => []

theorem Phase.inFlight_eq_nil {p : Phase} (h : p.drive? = none) : p.inFlight = [] := by
  cases p with
  | forwarding d snapshot => cases h
  | _ => rfl

namespace Session

variable {s t u : Session} {x : Step}

/-- The reports among the frames that were handled on a link. -/
def reportsOn (handled : List (Nat × String)) (link : Nat) : List Snapshot :=
  (handled.filter (fun p => p.1 == link)).filterMap (fun p => reportOf p.2)

theorem reportsOn_append (handled : List (Nat × String)) (link k : Nat) (text : String) :
    reportsOn (handled ++ [(k, text)]) link = reportsOn handled link ++
      if k = link then (reportOf text).toList else [] := by
  by_cases h : k = link
  · cases hr : reportOf text with
    | none => simp [reportsOn, h, hr]
    | some snapshot => simp [reportsOn, h, hr]
  · simp [reportsOn, h]

/-- The snapshots that were put into the queue, the earliest first: those its receiver has taken and
those it will. -/
def streamed (past : Past) (s : Session) : List Snapshot :=
  logged takenIn past ++ s.snapshots.queue

/-- What a connection has seen of the frames that were handled. -/
structure Streaming (handled : List (Nat × String)) (opened : List Nat) (taken : List Snapshot)
    (s : Session) : Prop where
  sending : s.phase ≠ .finished → s.snapshots.senderOpen = true
  gate : ∀ d, s.phase.drive? = some d → d.gate.Seen (reportsOn handled d.link)
  known : ∀ p ∈ handled, p.1 ∈ opened
  exact : s.snapshots.receiverOpen = true → taken ++ s.snapshots.queue ++ s.phase.inFlight =
    opened.flatMap (fun link => leading (reportsOn handled link))

theorem reportsOn_unknown {handled : List (Nat × String)} {opened : List Nat} {link : Nat}
    (known : ∀ p ∈ handled, p.1 ∈ opened) (hnew : link ∉ opened) : reportsOn handled link = [] := by
  have hnone : handled.filter (fun p => p.1 == link) = [] := by
    rw [List.filter_eq_nil_iff]
    intro p hp he
    exact hnew (eq_of_beq he ▸ known p hp)
  rw [reportsOn, hnone]
  rfl

variable {handled : List (Nat × String)} {opened : List Nat} {taken : List Snapshot}

theorem flatMap_handled {link : Nat} {text : String} (once : opened.Nodup)
    (hlast : opened.getLast? = some link) :
    opened.flatMap (fun k => leading (reportsOn (handled ++ [(link, text)]) k)) =
      opened.flatMap (fun k => leading (reportsOn handled k)) ++
        ((reportOf text).toList.filter (fun snapshot =>
          (reportsOn handled link).all (fun y => y.sequence < snapshot.sequence))) := by
  obtain ⟨before, rfl⟩ := List.getLast?_eq_some_iff.mp hlast
  have hnot : link ∉ before := by
    rw [List.nodup_append] at once
    exact fun hm => once.2.2 link hm link (by simp) rfl
  have hbefore : before.flatMap (fun k => leading (reportsOn (handled ++ [(link, text)]) k)) =
      before.flatMap (fun k => leading (reportsOn handled k)) := by
    rw [List.flatMap_def, List.flatMap_def]
    refine congrArg List.flatten (List.map_congr_left (fun k hk => ?_))
    have hne : link ≠ k := fun he => hnot (he ▸ hk)
    rw [reportsOn_append, if_neg hne, List.append_nil]
  have hlink : leading (reportsOn (handled ++ [(link, text)]) link) =
      leading (reportsOn handled link) ++ ((reportOf text).toList.filter (fun snapshot =>
        (reportsOn handled link).all (fun y => y.sequence < snapshot.sequence))) := by
    rw [reportsOn_append, if_pos rfl]
    cases reportOf text with
    | none => simp
    | some snapshot =>
      rw [Option.toList_some, leading_append, List.filter_cons, List.filter_nil]
  simp only [List.flatMap_append, List.flatMap_singleton, hbefore, hlink, List.append_assoc]

theorem Streaming.keeps {taken' : List Snapshot} (h : Streaming handled opened taken s)
    (sending : t.phase ≠ .finished → t.snapshots.senderOpen = true)
    (same : ∀ d, t.phase.drive? = some d →
      ∃ d', s.phase.drive? = some d' ∧ d.link = d'.link ∧ d.gate = d'.gate)
    (flow : t.snapshots.receiverOpen = true → s.snapshots.receiverOpen = true ∧
      taken' ++ t.snapshots.queue ++ t.phase.inFlight =
        taken ++ s.snapshots.queue ++ s.phase.inFlight) : Streaming handled opened taken' t where
  sending := sending
  gate d hd := by
    obtain ⟨d', hd', hlink, hgate⟩ := same d hd
    rw [hlink, hgate]
    exact h.gate d' hd'
  known := h.known
  exact hr := by
    obtain ⟨hopen, heq⟩ := flow hr
    rw [heq]
    exact h.exact hopen

theorem Streaming.same_phase {taken' : List Snapshot} (h : Streaming handled opened taken s)
    (hp : t.phase = s.phase) (hsender : t.snapshots.senderOpen = s.snapshots.senderOpen)
    (flow : t.snapshots.receiverOpen = true → s.snapshots.receiverOpen = true ∧
      taken' ++ t.snapshots.queue = taken ++ s.snapshots.queue) :
    Streaming handled opened taken' t := by
  refine h.keeps (fun hne => ?_) (fun d hd => ⟨d, hp ▸ hd, rfl, rfl⟩) (fun hr => ?_)
  · rw [hsender]
    exact h.sending (hp ▸ hne)
  · obtain ⟨hopen, heq⟩ := flow hr
    rw [heq, hp]
    exact ⟨hopen, rfl⟩

theorem Streaming.idles (h : Streaming handled opened taken s) (was : s.phase ≠ .finished)
    (drive : t.phase.drive? = none) (outlet : t.snapshots = s.snapshots ∨
      t.phase = .finished ∧ t.snapshots = s.snapshots.closeSender)
    (unsent : ∀ d snapshot, s.phase = .forwarding d snapshot →
      (s.snapshots.send snapshot).2 = .closed) : Streaming handled opened taken t := by
  have hopen := h.sending was
  have hqueue : t.snapshots.queue = s.snapshots.queue ∧
      t.snapshots.receiverOpen = s.snapshots.receiverOpen := by
    rcases outlet with he | ⟨_, he⟩
    · rw [he]
      exact ⟨rfl, rfl⟩
    · rw [he]
      exact ⟨rfl, rfl⟩
  refine h.keeps (fun hne => ?_) (fun d hd => by simp [drive] at hd) (fun hr => ?_)
  · rcases outlet with he | ⟨hfinished, _⟩
    · rw [he]
      exact hopen
    · exact absurd hfinished hne
  · rw [hqueue.2] at hr
    refine ⟨hr, ?_⟩
    have hnone : s.phase.inFlight = [] := by
      cases hp : s.phase with
      | forwarding d snapshot =>
        have hgone := send_closed (unsent d snapshot hp) hopen
        rw [hr] at hgone
        cases hgone
      | _ => rfl
    rw [hqueue.1, Phase.inFlight_eq_nil drive, hnone]

theorem Asks.inFlight {d : Drive} (h : Asks s t d) : t.phase.inFlight = [] := by
  cases h with
  | content _ is _ => rw [is]; rfl
  | asks _ is _ => rw [is]; rfl

theorem Streaming.opens {link failures : Nat} (h : Streaming handled opened taken s)
    (was : s.phase = .connecting failures) (hnew : link ∉ opened)
    (ha : Asks s t ⟨link, .fresh, .empty, none, none⟩) (outlet : t.snapshots = s.snapshots) :
    Streaming handled (opened ++ [link]) taken t := by
  have hnone := reportsOn_unknown h.known hnew
  refine ⟨fun _ => ?_, fun d hd => ?_, fun p hp => List.mem_append_left _ (h.known p hp),
    fun hr => ?_⟩
  · rw [outlet]
    exact h.sending (by simp [was])
  · rw [ha.drive] at hd
    cases hd
    exact hnone ▸ Gate.seen_fresh
  · rw [outlet] at hr ⊢
    have hexact := h.exact hr
    rw [was] at hexact
    rw [ha.inFlight, List.flatMap_append, List.flatMap_singleton, hnone, ← hexact]
    simp [Phase.inFlight, leading, leadingAfter]

theorem afterFrame_seen (d : Drive) (text : String) {reports : List Snapshot}
    (h : d.gate.Seen reports) :
    ∃ gate, (d.afterFrame text).drive? = some { d with gate } ∧
      gate.Seen (reports ++ (reportOf text).toList) ∧
      (d.afterFrame text).inFlight = (reportOf text).toList.filter (fun snapshot =>
        reports.all (fun y => y.sequence < snapshot.sequence)) := by
  unfold Drive.afterFrame
  cases reportOf text with
  | none => exact ⟨d.gate, rfl, by simpa using h, rfl⟩
  | some snapshot =>
    dsimp only [Option.toList_some]
    rw [List.filter_cons, List.filter_nil, ← h.accepts_eq]
    cases ha : d.gate.accepts snapshot.sequence with
    | true => exact ⟨_, rfl, h.accept ha, rfl⟩
    | false => exact ⟨d.gate, rfl, h.refuse ha, rfl⟩

theorem Streaming.handles {d : Drive} {text : String} {deadline : Option Nat}
    (h : Streaming handled opened taken s) (hc : Connected opened s) (was : s.phase = .driving d)
    (is : t.phase = ({ d with deadline } : Drive).afterFrame text)
    (outlet : t.snapshots = s.snapshots) :
    Streaming (handled ++ [(d.link, text)]) opened taken t := by
  have hd : s.phase.drive? = some d := by rw [was]; rfl
  have hlast := hc.current d hd
  obtain ⟨gate, hdrive, hseen, hflight⟩ := afterFrame_seen { d with deadline } text (h.gate d hd)
  rw [← is] at hdrive hflight
  refine ⟨fun _ => ?_, fun e he => ?_, fun p hp => ?_, fun hr => ?_⟩
  · rw [outlet]
    exact h.sending (by simp [was])
  · rw [hdrive] at he
    cases he
    rw [reportsOn_append, if_pos rfl]
    exact hseen
  · rcases List.mem_append.mp hp with hp | hp
    · exact h.known p hp
    · rw [List.mem_singleton.mp hp]
      exact List.mem_of_getLast? hlast
  · rw [outlet] at hr ⊢
    have hexact := h.exact hr
    rw [was] at hexact
    rw [flatMap_handled hc.once hlast, hflight, ← hexact]
    simp [Phase.inFlight]

theorem Streaming.step {fresh : List (Nat × AddressSet)} {sent : List (Nat × Request)}
    {new : List (Nat × String)} {out : List Snapshot} (h : Streaming handled opened taken s)
    (hc : Connected opened s) (hp : Passage s x t fresh sent new out) :
    Streaming (handled ++ new) (opened ++ fresh.map Prod.fst) (taken ++ out) t := by
  cases hp with
  | rests phase _ outlet =>
    simp only [List.map_nil, List.append_nil]
    refine h.same_phase phase ?_ (fun hr => ?_)
    · rcases outlet with he | ⟨_, he⟩
      · rw [he]
      · rw [he]
        rfl
    · rcases outlet with he | ⟨_, he⟩
      · rw [he] at hr ⊢
        exact ⟨hr, rfl⟩
      · rw [he] at hr
        cases hr
  | takes phase _ outlet =>
    simp only [List.map_nil, List.append_nil]
    obtain ⟨hsender, hreceiver, hqueue⟩ := receive_queue s.snapshots
    rw [← outlet] at hsender hreceiver hqueue
    refine h.same_phase phase hsender (fun hr => ⟨hreceiver ▸ hr, ?_⟩)
    rw [List.append_assoc, hqueue]
  | idles was idle unsent =>
    simp only [List.map_nil, List.append_nil]
    exact h.idles was idle.drive idle.outlet unsent
  | opens was promised ha outlet =>
    simp only [List.append_nil]
    exact h.opens was (fun hm => (hc.used _ hm).2 promised) ha outlet
  | @looks d was ha outlet =>
    simp only [List.map_nil, List.append_nil]
    refine h.keeps (fun _ => ?_) (fun e he => ?_) (fun hr => ?_)
    · rw [outlet]
      exact h.sending (by simp [was])
    · rw [ha.drive] at he
      cases he
      exact ⟨d, by rw [was]; rfl, rfl, rfl⟩
    · rw [outlet] at hr ⊢
      rw [ha.inFlight, was]
      exact ⟨hr, rfl⟩
  | @puts d r was is _ outlet =>
    simp only [List.map_nil, List.append_nil]
    rcases is with hnone | ⟨deadline, is⟩
    · exact h.idles (by simp [was]) hnone outlet (fun e snapshot he => by simp [was] at he)
    · have outlet : t.snapshots = s.snapshots := by
        rcases outlet with he | ⟨hfinished, _⟩
        · exact he
        · simp [is] at hfinished
      refine h.keeps (fun _ => ?_) (fun e he => ?_) (fun hr => ?_)
      · rw [outlet]
        exact h.sending (by simp [was])
      · rw [is] at he
        cases he
        exact ⟨d, by rw [was]; rfl, rfl, rfl⟩
      · rw [outlet] at hr ⊢
        rw [is, was]
        exact ⟨hr, rfl⟩
  | @handles d text deadline was is _ outlet =>
    simp only [List.map_nil, List.append_nil]
    exact h.handles hc was is outlet
  | @forwards d snapshot was is _ outlet =>
    simp only [List.map_nil, List.append_nil]
    obtain ⟨hreceiver, hsender, _, hqueue⟩ := send_ok outlet
    refine h.keeps (fun _ => ?_) (fun e he => ?_) (fun _ => ⟨hreceiver, ?_⟩)
    · rw [hqueue]
      exact hsender
    · rw [is] at he
      cases he
      exact ⟨d, by rw [was]; rfl, rfl, rfl⟩
    · rw [hqueue, is, was]
      simp [Phase.inFlight]

/-- The queue loses only what is taken from its front and gets more only at its end, and its receiver
is gone only when it is dropped. -/
theorem Passage.queue {fresh : List (Nat × AddressSet)} {sent : List (Nat × Request)}
    {new : List (Nat × String)} {out : List Snapshot} (h : Passage s x t fresh sent new out) :
    (∃ more, s.snapshots.queue ++ more = out ++ t.snapshots.queue) ∧
      (x ≠ .dropSnapshots → t.snapshots.receiverOpen = s.snapshots.receiverOpen) := by
  have hsame : t.snapshots = s.snapshots →
      (∃ more, s.snapshots.queue ++ more = [] ++ t.snapshots.queue) ∧
        (x ≠ .dropSnapshots → t.snapshots.receiverOpen = s.snapshots.receiverOpen) :=
    fun he => ⟨⟨[], by simp [he]⟩, fun _ => by rw [he]⟩
  have hclosed : t.snapshots = s.snapshots.closeSender →
      (∃ more, s.snapshots.queue ++ more = [] ++ t.snapshots.queue) ∧
        (x ≠ .dropSnapshots → t.snapshots.receiverOpen = s.snapshots.receiverOpen) :=
    fun he => ⟨⟨[], by simp [he, Pipe.closeSender]⟩, fun _ => by rw [he]; rfl⟩
  cases h with
  | rests _ _ outlet =>
    rcases outlet with he | ⟨hdrop, he⟩
    · exact hsame he
    · exact ⟨⟨[], by simp [he, Pipe.closeReceiver]⟩, fun hx => absurd hdrop hx⟩
  | takes _ _ outlet =>
    obtain ⟨_, hreceiver, hqueue⟩ := receive_queue s.snapshots
    rw [← outlet] at hreceiver hqueue
    exact ⟨⟨[], by rw [List.append_nil, hqueue]⟩, fun _ => hreceiver⟩
  | idles _ idle _ =>
    rcases idle.outlet with he | ⟨_, he⟩
    · exact hsame he
    · exact hclosed he
  | opens _ _ _ outlet => exact hsame outlet
  | looks _ _ outlet => exact hsame outlet
  | puts _ _ _ outlet =>
    rcases outlet with he | ⟨_, he⟩
    · exact hsame he
    · exact hclosed he
  | handles _ _ _ outlet => exact hsame outlet
  | @forwards d snapshot _ _ _ outlet =>
    obtain ⟨_, _, _, hqueue⟩ := send_ok outlet
    exact ⟨⟨[snapshot], by simp [hqueue]⟩, fun _ => by rw [hqueue]⟩

/-- A session with a snapshot to hand on waits for room, and for nothing else. -/
theorem forwarding_blocked {d : Drive} {snapshot : Snapshot} (hp : s.phase = .forwarding d snapshot)
    (hreceiver : s.snapshots.receiverOpen = true) (hsender : s.snapshots.senderOpen = true) :
    ((s.move? .forward).isSome = true ↔ s.snapshots.queue.length < s.snapshots.capacity) ∧
      ∀ m t, s.move? m = some t → t.phase = .driving d ∧
        t.snapshots.queue = s.snapshots.queue ++ [snapshot] := by
  constructor
  · by_cases hroom : s.snapshots.queue.length < s.snapshots.capacity
    · simp [move?, hp, Pipe.send, hreceiver, hsender, hroom]
    · simp [move?, hp, Pipe.send, hreceiver, hsender, hroom]
  · intro m t hm
    cases m with
    | forward =>
      obtain ⟨e, y, he, ⟨snapshots, hs, rfl⟩ | ⟨hclosed, _⟩⟩ := forward_cases hm
      · rw [hp] at he
        cases he
        obtain ⟨_, _, _, hqueue⟩ := send_ok hs
        exact ⟨rfl, by rw [hqueue]⟩
      · rw [hp] at he
        cases he
        have hgone := send_closed hclosed hsender
        rw [hreceiver] at hgone
        cases hgone
    | start | request | halt | desire | frame | silence | connect | wake => simp [move?, hp] at hm

theorem Reached.streaming {past : Past} (h : Reached past s) :
    Streaming (logged handledIn past) ((logged openedIn past).map Prod.fst) (logged takenIn past)
      s := by
  induction h with
  | start promised started =>
    obtain ⟨snapshots, hcapacity, rfl⟩ := ofConfig_eq started
    obtain ⟨hsender, _, hqueue⟩ := ofCapacity_fresh hcapacity
    refine ⟨fun _ => hsender, fun _ hd => (nomatch hd), fun _ hm => (nomatch hm), fun _ => ?_⟩
    simp [logged, ofQueue, Phase.inFlight, hqueue]
  | @step past u t x earlier possible ih =>
    rw [logged_append, logged_append, logged_append, List.map_append]
    exact ih.step earlier.connected (step_passage possible)

theorem Reached.receiving {past : Past} (h : Reached past s)
    (hkept : Step.dropSnapshots ∉ past.map Prod.snd) : s.snapshots.receiverOpen = true := by
  induction h with
  | start promised started =>
    obtain ⟨snapshots, hcapacity, rfl⟩ := ofConfig_eq started
    exact (ofCapacity_fresh hcapacity).2.1
  | @step past u t x earlier possible ih =>
    rw [List.map_append, List.mem_append, not_or] at hkept
    have hu := ih hkept.1
    exact ((step_passage possible).queue.2 (fun hx => hkept.2 (by simp [hx]))).trans hu

/-- How the snapshots of a run and the frames that were handled go together. -/
structure StreamFollows (past : Past) (s : Session) : Prop where
  /-- The snapshots are, connection by connection, the reports that lead all those before them. -/
  exact : streamed past s ++ s.phase.inFlight = (logged openedIn past).flatMap
    (fun p => leading (reportsOn (logged handledIn past) p.1))
  once : ((logged openedIn past).map Prod.fst).Nodup
  known : ∀ p ∈ logged handledIn past, p.1 ∈ (logged openedIn past).map Prod.fst
  /-- The first report on a connection leads whatever came before on others. -/
  first : ∀ link, (leading (reportsOn (logged handledIn past) link)).head? =
    (reportsOn (logged handledIn past) link).head?
  /-- What was put into the queue stays where it was put. -/
  kept : ∀ x t, s.step? x = some t → streamed past s <+: streamed (past ++ [(s, x)]) t
  /-- A snapshot for which there is no room waits, and all the session can do is to hand it on once
  there is. -/
  blocked : ∀ d snapshot, s.phase = .forwarding d snapshot →
    ((s.move? .forward).isSome = true ↔ s.snapshots.queue.length < s.snapshots.capacity) ∧
      ∀ m t, s.move? m = some t → t.phase = .driving d ∧
        t.snapshots.queue = s.snapshots.queue ++ [snapshot]

theorem Reached.stream_follows {past : Past} (h : Reached past s)
    (hkept : Step.dropSnapshots ∉ past.map Prod.snd) : StreamFollows past s := by
  have hs := h.streaming
  have hopen := h.receiving hkept
  refine ⟨?_, h.connected.once, hs.known, fun link => leading_head _, ?_, ?_⟩
  · have hexact := hs.exact hopen
    rw [List.flatMap_map] at hexact
    exact hexact
  · intro x t hx
    obtain ⟨⟨more, hmore⟩, _⟩ := (step_passage hx).queue
    refine ⟨more, ?_⟩
    rw [streamed, streamed, logged_append, List.append_assoc, List.append_assoc, hmore]
  · intro d snapshot hp
    exact forwarding_blocked hp hopen (hs.sending (by simp [hp]))

def bareReport (sequence : Nat) : String :=
  "\x7b\"method\":\"currentData\",\"params\":\x7b\"sequence\":" ++ toString sequence ++
    ",\"currentData\":\x7b\x7d\x7d\x7d"

/-- A late report, one that comes twice and a frame that is none are passed over, one waits for room
while the receiver is slow, and after the loss of the connection a lower number leads again. -/
theorem slow_receiver_gets_all : ∃ past s, Reached past s ∧
    Step.dropSnapshots ∉ past.map Prod.snd ∧ s.snapshots.capacity = 1 ∧
    (streamed past s).map Snapshot.sequence = [5, 7, 1] ∧ s.phase.inFlight = [] ∧
    streamed past s = (logged openedIn past).flatMap
      (fun p => leading (reportsOn (logged handledIn past) p.1)) := by
  have hstart : Reached [] { unbegun with snapshots := ⟨1, [], true, true⟩ } :=
    .start (c := { Config.socket "edge0" "ws://device/socket" with buffer := 1 }) rfl rfl
  obtain ⟨past, s, hreached, hsteps, htest⟩ := hstart.of_replay
    [.move .start, .device (.accept 8 false), .move .connect,
      .device (.send 0 [bareReport 5, bareReport 5, "noise", bareReport 3, bareReport 7]),
      .move .frame, .move .forward, .move .frame, .move .frame, .move .frame, .move .frame, .take,
      .move .forward, .device (.close 0), .move .frame, .device (.accept 8 false), .pass 1000,
      .move .wake, .move .connect, .device (.send 1 [bareReport 1]), .move .frame, .take,
      .move .forward]
    (fun past s => s.snapshots.capacity == 1 &&
      (streamed past s).map Snapshot.sequence == [5, 7, 1] && s.phase.inFlight.isEmpty)
    (by decide +kernel)
  simp only [Bool.and_eq_true, beq_iff_eq, List.isEmpty_iff] at htest
  obtain ⟨⟨hcapacity, hsequences⟩, hflight⟩ := htest
  have hkept : Step.dropSnapshots ∉ past.map Prod.snd := by simp [hsteps]
  have hexact := (hreached.stream_follows hkept).exact
  rw [hflight, List.append_nil] at hexact
  exact ⟨past, s, hreached, hkept, hcapacity, hsequences, hflight, hexact⟩

end Session

end ChannelFeed
