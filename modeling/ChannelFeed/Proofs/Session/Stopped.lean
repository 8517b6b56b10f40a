import ChannelFeed.Proofs.Session.Stream
import ChannelFeed.Proofs.Session.Telling
import Mathlib.Data.List.Induction

namespace ChannelFeed.Session

variable {s t u : Session} {x : Step} {before rest : Past}

/-- The first of the session's own moves in a past. -/
def firstMove (rest : Past) : Option Move :=
  rest.findSome? (fun y =>
    match y.2 with
    | .move m => some m
    | _ => none)

/-- Nothing comes from a session: no request is put, no frame is handled, no snapshot is put into the
queue, the rejection stands and nothing is published. -/
structure Hushed (before rest : Past) (s : Session) : Prop where
  put : logged putIn rest = []
  handled : logged handledIn rest = []
  streamed : streamed (before ++ rest) s = streamed before (stateAt rest s)
  rejection : s.rejection = (stateAt rest s).rejection
  published : published (before ++ rest) s = published before (stateAt rest s)

theorem Reached.stopped_told (h : Reached (before ++ rest) s)
    (stopped : (stateAt rest s).stopped = true) :
    s.stopped = true ∧ published (before ++ rest) s = published before (stateAt rest s) ++
      logged (fun u x => u.sentIn x ++ u.refusedIn x) rest := by
  induction rest using List.reverseRecOn generalizing s with
  | nil => exact ⟨stopped, by simp [stateAt, logged]⟩
  | append_singleton rest' y ih =>
    obtain ⟨u, x⟩ := y
    rw [← List.append_assoc] at h ⊢
    obtain ⟨hu, hx⟩ := h.unstep
    rw [stateAt_append] at stopped ⊢
    obtain ⟨hstop, htold⟩ := ih hu stopped
    obtain ⟨hstate, hs⟩ := hu.shown.step_still hx hstop
    refine ⟨hs, ?_⟩
    rw [published_append hx, htold, logged_append, toldIn, if_pos hstate, List.nil_append,
      List.append_assoc]

theorem finished_still (h : s.phase = .finished) (m : Move) : s.move? m = none := by
  cases m with
  | halt => cases hs : s.stopped <;> simp [move?, h, hs]
  | _ => simp [move?, h]

theorem halt_finishes (h : s.move? .halt = some t) : t.phase = .finished := by
  obtain ⟨_, ⟨_, rfl⟩ | ⟨d, _, rfl⟩⟩ := halt_cases h
  · exact finish_phase s
  · exact finish_phase _

/-- What others do, and the move that ends a session, leaves its rejection standing and puts nothing
into the queue of snapshots. -/
structure Rests (s : Session) (x : Step) (t : Session) : Prop where
  put : s.putIn x = []
  handled : s.handledIn x = []
  queue : s.takenIn x ++ t.snapshots.queue = s.snapshots.queue
  rejection : t.rejection = s.rejection

theorem finish_rests (s : Session) :
    s.finish.snapshots.queue = s.snapshots.queue ∧ s.finish.rejection = s.rejection := by
  refine ⟨?_, congrArg Ruling.rejection (ruling_finish s)⟩
  rcases (idles_finish s).outlet with he | ⟨_, he⟩
  · rw [he]
  · rw [he]
    rfl

theorem halt_rests (h : s.move? .halt = some t) : Rests s (.move .halt) t := by
  obtain ⟨_, ⟨_, rfl⟩ | ⟨d, _, rfl⟩⟩ := halt_cases h
  · obtain ⟨hqueue, hrejection⟩ := finish_rests s
    exact ⟨rfl, rfl, hqueue, hrejection⟩
  · obtain ⟨hqueue, hrejection⟩ := finish_rests (s.dropLink d.link)
    exact ⟨rfl, rfl, hqueue, hrejection⟩

theorem aside_rests (h : s.step? x = some t) (aside : ∀ m, x ≠ .move m) :
    Rests s x t ∧ t.phase = s.phase := by
  cases x with
  | move m => exact absurd rfl (aside m)
  | set addresses =>
    cases h
    unfold setSubscription
    split <;> exact ⟨⟨rfl, rfl, rfl, rfl⟩, rfl⟩
  | shutdown =>
    cases h
    obtain ⟨stopped, watchedState, notes, heq⟩ := shutdown_shape s
    rw [heq]
    exact ⟨⟨rfl, rfl, rfl, rfl⟩, rfl⟩
  | device step =>
    simp only [step?, Option.map_eq_some_iff] at h
    obtain ⟨result, hd, rfl⟩ := h
    obtain ⟨links, connector, heq⟩ := device_shape hd
    rw [heq]
    exact ⟨⟨rfl, rfl, rfl, rfl⟩, rfl⟩
  | take =>
    cases h
    exact ⟨⟨rfl, rfl, (receive_queue s.snapshots).2.2, rfl⟩, rfl⟩
  | read | dropSnapshots | pass ms | collect =>
    cases h
    exact ⟨⟨rfl, rfl, rfl, rfl⟩, rfl⟩

theorem firstMove_append (rest : Past) (s : Session) (x : Step) :
    firstMove (rest ++ [(s, x)]) = (firstMove rest).or (firstMove [(s, x)]) := by
  simp [firstMove, List.findSome?_append]

/-- A session whose first move is to end makes no other. -/
theorem Reached.ended (h : Reached (before ++ rest) s)
    (first : ∀ m, firstMove rest = some m → m = .halt) :
    (firstMove rest = none ∨ s.phase = .finished) ∧
      ∀ y ∈ rest, ∀ m, y.2 = .move m → m = .halt := by
  induction rest using List.reverseRecOn generalizing s with
  | nil => exact ⟨.inl rfl, fun y hy => nomatch hy⟩
  | append_singleton rest' y ih =>
    obtain ⟨u, x⟩ := y
    rw [← List.append_assoc] at h
    obtain ⟨hu, hx⟩ := h.unstep
    rw [firstMove_append] at first ⊢
    obtain ⟨hended, hall⟩ := ih hu (fun m hm => first m (by rw [hm]; rfl))
    simp only [List.forall_mem_append, List.forall_mem_singleton]
    by_cases hmove : ∃ m, x = .move m
    · obtain ⟨m, rfl⟩ := hmove
      have hhalt : m = .halt := by
        rcases hended with hnone | hfinished
        · exact first m (by rw [hnone]; rfl)
        · exact absurd hx (by simp [step?, finished_still hfinished])
      subst hhalt
      refine ⟨.inr (halt_finishes hx), hall, fun m hm => ?_⟩
      cases hm
      rfl
    · have haside : ∀ m, x ≠ .move m := fun m hm => hmove ⟨m, hm⟩
      have hsilent : firstMove [(u, x)] = none := by
        cases x <;> first | rfl | exact absurd rfl (haside _)
      refine ⟨?_, hall, fun m hm => absurd hm (haside m)⟩
      rcases hended with hnone | hfinished
      · exact .inl (by rw [hnone, hsilent]; rfl)
      · exact .inr ((aside_rests hx haside).2.trans hfinished)

theorem step_rests (h : s.step? x = some t) (only : ∀ m, x = .move m → m = .halt) :
    Rests s x t := by
  by_cases hmove : ∃ m, x = .move m
  · obtain ⟨m, rfl⟩ := hmove
    cases only m rfl
    exact halt_rests h
  · exact (aside_rests h (fun m hm => hmove ⟨m, hm⟩)).1

/-- A stopped session that notices its stop before anything else is hushed from its stop on. -/
theorem Reached.hushed (h : Reached (before ++ rest) s)
    (stopped : (stateAt rest s).stopped = true)
    (first : ∀ m, firstMove rest = some m → m = .halt) : Hushed before rest s := by
  have honly := (h.ended first).2
  clear first
  induction rest using List.reverseRecOn generalizing s with
  | nil => exact ⟨rfl, rfl, by simp [stateAt], rfl, by simp [stateAt]⟩
  | append_singleton rest' y ih =>
    obtain ⟨u, x⟩ := y
    rw [← List.append_assoc] at h
    obtain ⟨hu, hx⟩ := h.unstep
    rw [stateAt_append] at stopped
    simp only [List.forall_mem_append, List.forall_mem_singleton] at honly
    have hq := ih hu stopped honly.1
    have hr := step_rests hx honly.2
    obtain ⟨hstate, _⟩ := hu.shown.step_still hx (hu.stopped_told stopped).1
    have htold : u.toldIn x s = [] := by
      simp [toldIn, hstate, sentIn, hr.put, refusedIn_other hr.handled]
    refine ⟨?_, ?_, ?_, ?_, ?_⟩
    · rw [logged_append, hq.put, hr.put]
      rfl
    · rw [logged_append, hq.handled, hr.handled]
      rfl
    · rw [stateAt_append, ← List.append_assoc, ← hq.streamed, streamed, streamed, logged_append,
        List.append_assoc, hr.queue]
    · rw [stateAt_append, hr.rejection, hq.rejection]
    · rw [stateAt_append, ← List.append_assoc, published_append hx, htold, List.append_nil,
        hq.published]

/-- What a stopped session may do next while it waits for whatever comes first: it may end, and it may
take anything else that is ready. -/
structure Chooses (s : Session) (d : Drive) : Prop where
  halts : ∃ t, s.move? .halt = some t ∧ t.phase = .finished
  desires : (s.move? .desire).isSome = true ↔ s.desired.unseen s.desiredSeen = true
  hears : (s.move? .frame).isSome = true ↔ ∃ l, s.links[d.link]? = some l ∧
    (l.toClient.queue ≠ [] ∨ l.toClient.senderOpen = false)
  misses : (s.move? .silence).isSome = true ↔
    ∃ deadline, d.deadline = some deadline ∧ deadline ≤ s.now
  others : ∀ m, (s.move? m).isSome = true → m = .halt ∨ m = .desire ∨ m = .frame ∨ m = .silence

theorem frame_isSome {d : Drive} (was : s.phase = .driving d) :
    (s.move? .frame).isSome = true ↔ ∃ l, s.links[d.link]? = some l ∧
      (l.toClient.queue ≠ [] ∨ l.toClient.senderOpen = false) := by
  cases hl : s.links[d.link]? with
  | none => simp [move?, was, hl]
  | some l =>
    cases hq : l.toClient.queue with
    | nil => cases ho : l.toClient.senderOpen <;> simp [move?, was, hl, Pipe.receive, hq, ho]
    | cons text texts =>
      have hsome : (s.move? .frame).isSome = true := by
        simp only [move?, was, hl, Pipe.receive, hq]
        split <;> rfl
      simp [hsome, hq]

theorem stopped_chooses {d : Drive} (stopped : s.stopped = true) (was : s.phase = .driving d) :
    Chooses s d where
  halts := ⟨_, by simp only [move?, stopped, was]; rfl, finish_phase _⟩
  desires := by
    cases hu : s.desired.unseen s.desiredSeen <;> simp [move?, was, hu]
  hears := frame_isSome was
  misses := by
    cases hd : d.deadline with
    | none => simp [move?, was, hd]
    | some deadline => by_cases hle : deadline ≤ s.now <;> simp [move?, was, hd, hle]
  others m hm := by
    cases m with
    | halt | desire | frame | silence => simp
    | start | request | forward | connect | wake => simp [move?, was] at hm

/-- A session that waits for room in a queue can do nothing but use it. -/
theorem waiting_blind {m : Move} (h : s.move? m = some t) :
    (∀ d r, s.phase = .requesting d r → m = .request) ∧
      ∀ d snapshot, s.phase = .forwarding d snapshot → m = .forward := by
  constructor
  · intro d r was
    cases m with
    | request => rfl
    | start | forward | halt | desire | frame | silence | connect | wake =>
      simp [move?, was] at h
  · intro d snapshot was
    cases m with
    | forward => rfl
    | start | request | halt | desire | frame | silence | connect | wake =>
      simp [move?, was] at h

/-- Where other channels are wanted than were asked for, the stopped session that looks at them first
makes a request, which goes out as soon as there is room and is told of. -/
theorem desire_asks {d : Drive} (was : s.phase = .driving d)
    (unseen : s.desired.unseen s.desiredSeen = true) (other : s.desired.value ≠ d.subscribed) :
    ∃ t r, s.move? .desire = some t ∧ r.channels = s.desired.value ∧
      ∀ l, t.links[d.link]? = some l → (l.toDevice.send r).2 = .ok →
        (t.move? .request).isSome = true ∧ t.putIn (.move .request) = [(d.link, r)] ∧
        t.sentIn (.move .request) = [.subscriptionSent s.edge r.count r.channels.size] := by
  have hmove : s.move? .desire = some (s.sync d) := by simp [move?, was, unseen]
  have hphase : (s.sync d).phase = .requesting d
      ⟨⟨s.source, s.requestsSent + 1⟩, s.requestsSent + 1, s.desired.value⟩ := by
    simp [sync, other]
  have hedge : (s.sync d).edge = s.edge := congrArg Account.edge (account_sync s d)
  refine ⟨_, ⟨⟨s.source, s.requestsSent + 1⟩, s.requestsSent + 1, s.desired.value⟩, hmove, rfl,
    fun l hl hs => ?_⟩
  have hput : (s.sync d).putIn (.move .request) = [(d.link,
      ⟨⟨s.source, s.requestsSent + 1⟩, s.requestsSent + 1, s.desired.value⟩)] := by
    simp [putIn, hphase, hl, hs]
  refine ⟨?_, hput, by rw [sentIn, hput, hedge]; rfl⟩
  simp only [move?, hphase, hl]
  split
  · rfl
  · rename_i hfull
    rw [hfull] at hs
    cases hs
  · rfl

/-- What becomes of a session after its stop. -/
structure StoppedFollows (before rest : Past) (s : Session) : Prop where
  still : s.stopped = true ∧ s.state = .disconnected
  /-- No change of state is told of any more, but each request that is put and each refusal that is
  heard. -/
  told : published (before ++ rest) s = published before (stateAt rest s) ++
    logged (fun u x => u.sentIn x ++ u.refusedIn x) rest
  /-- Nothing at all comes from it if it notices its stop before anything else. -/
  hushed : (∀ m, firstMove rest = some m → m = .halt) → Hushed before rest s
  /-- It always can, but it need not. -/
  chooses : ∀ d, s.phase = .driving d → Chooses s d
  asks : ∀ d, s.phase = .driving d → s.desired.unseen s.desiredSeen = true →
    s.desired.value ≠ d.subscribed → ∃ t r, s.move? .desire = some t ∧
      r.channels = s.desired.value ∧ ∀ l, t.links[d.link]? = some l → (l.toDevice.send r).2 = .ok →
        (t.move? .request).isSome = true ∧ t.putIn (.move .request) = [(d.link, r)] ∧
        t.sentIn (.move .request) = [.subscriptionSent s.edge r.count r.channels.size]
  /-- As long as it waits for room it cannot notice. -/
  blind : ∀ m t, s.move? m = some t → (∀ d r, s.phase = .requesting d r → m = .request) ∧
    ∀ d snapshot, s.phase = .forwarding d snapshot → m = .forward
  ended : s.phase = .finished → ∀ m, s.move? m = none

theorem Reached.stopped_follows (h : Reached (before ++ rest) s)
    (stopped : (stateAt rest s).stopped = true) : StoppedFollows before rest s := by
  obtain ⟨hstop, htold⟩ := h.stopped_told stopped
  exact ⟨⟨hstop, h.shown.halted hstop⟩, htold, h.hushed stopped,
    fun d was => stopped_chooses hstop was, fun d was => desire_asks was,
    fun m t hm => waiting_blind hm, finished_still⟩

end ChannelFeed.Session
