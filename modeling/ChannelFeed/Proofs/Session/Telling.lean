import ChannelFeed.Proofs.Session.Rejections

namespace ChannelFeed

/-- What is told of a frame on a connection: a refusal of the last request. -/
def Drive.refusal (d : Drive) (edge text : String) : List Event :=
  (((responseOf text).filter (fun a => a.id == d.pending.map RequestId.text)).bind
    (fun a => a.event? edge)).toList

/-- The state of an edge once an event was told of it. -/
def Event.stateAfter (state : LinkState) : Event → LinkState
  | connectionChanged _ next => next
  | _ => state

/-- What a session goes by, its state, and what was told and not carried off yet. -/
structure Account where
  edge : String
  state : LinkState
  told : List Event

namespace Account

/-- A change of state that is told of, if it is one. -/
def turn (a : Account) (state : LinkState) : Account :=
  if state = a.state then a else ⟨a.edge, state, a.told ++ [.connectionChanged a.edge state]⟩

def tell (a : Account) (events : List Event) : Account := { a with told := a.told ++ events }

@[simp] theorem turn_self (a : Account) : a.turn a.state = a := if_pos rfl

theorem turn_told (a : Account) (state : LinkState) : (a.turn state).told =
    a.told ++ if state = a.state then [] else [.connectionChanged a.edge state] := by
  unfold turn
  split <;> simp

@[simp] theorem tell_nil (a : Account) : a.tell [] = a := by simp [tell]

end Account

namespace Session

variable {s t u : Session} {x : Step} {past : Past}

def account (s : Session) : Account := ⟨s.edge, s.state, publishedEvents s.notes⟩

/-- A change from one state to another that is told of, and nothing else. -/
def Turned (s t : Session) : Prop := t.account = s.account.turn t.state

/-- What happens at one instant and leaves the notes in place. -/
def Step.isInner : Step → Bool
  | pass _ => false
  | collect => false
  | _ => true

def sentIn (s : Session) (x : Step) : List Event :=
  (s.putIn x).map (fun p => .subscriptionSent s.edge p.2.count p.2.channels.size)

def refusedIn (s : Session) (x : Step) : List Event :=
  match s.phase with
  | .driving d => (s.handledIn x).flatMap (fun p => d.refusal s.edge p.2)
  | _ => []

/-- What is told in a step that leads to a state. -/
def toldIn (s : Session) (x : Step) (t : Session) : List Event :=
  (if t.state = s.state then [] else [.connectionChanged s.edge t.state]) ++
    (s.sentIn x ++ s.refusedIn x)

theorem account_note (s : Session) {notes : List Note} (silent : publishedEvents notes = []) :
    (s.note notes).account = s.account := by
  simp [account, note, publishedEvents_append, silent, state]

theorem account_retire (s : Session) : s.retire.account = s.account :=
  dropOutcomes_kept (P := fun t => t.account = s.account) s rfl (fun _ _ h => h) rfl

theorem account_breakDown (s : Session) (link : Nat) : (s.breakDown link).account = s.account :=
  account_retire _

theorem account_sync (s : Session) (d : Drive) : (s.sync d).account = s.account := by
  unfold sync
  dsimp only
  split <;> rfl

theorem account_takeOutcome {outcome : Outcome} (h : s.takeOutcome? = some (t, outcome)) :
    t.account = s.account := by
  rcases takeOutcome_cases h with ⟨_, _, rfl⟩ | ⟨_, _, _, _, rfl⟩
  · rfl
  · exact account_note s rfl

theorem Turned.of_eq (h : t.account = s.account) : Turned s t := by
  have hstate : t.state = s.account.state := congrArg Account.state h
  rw [Turned, h, hstate, Account.turn_self]

theorem Turned.before (h : Turned u t) (hu : u.account = s.account) : Turned s t := by
  rw [Turned, h, hu]

theorem Turned.after (h : Turned s u) (ht : t.account = u.account) : Turned s t := by
  have hstate : t.state = u.state := congrArg Account.state ht
  rw [Turned, ht, h, hstate]

theorem turned_transition (s : Session) (next : LinkState) : Turned s (s.transition next) := by
  unfold transition
  split
  · rename_i h
    have hne : ¬ next = s.state := by
      intro he
      simp [he] at h
    simp only [Turned, Account.turn, account, note, publishedEvents_append]
    exact (if_neg hne).symm
  · exact .of_eq rfl

theorem turned_finish (s : Session) : Turned s s.finish :=
  (turned_transition s.retire .disconnected).before (account_retire s)

theorem turned_shutdown (s : Session) : Turned s s.shutdown := by
  unfold shutdown
  split
  · exact .of_eq rfl
  · exact (turned_transition _ _).before (account_note { s with stopped := true } rfl)

theorem turned_attempt (s : Session) (failures : Nat) : Turned s (s.attempt failures) := by
  unfold attempt
  dsimp only
  split <;> exact (turned_transition s _).after rfl

theorem turned_openLink (s : Session) (link : Nat) : Turned s (s.openLink link) := by
  have hnote := @account_note (s.transition .connected) [.connected s.edge] rfl
  have hopen := (turned_transition s .connected).after hnote
  unfold openLink
  exact hopen.after (account_sync _ _)

theorem turned_retry (s : Session) (failures : Nat) (reason : String) :
    Turned s (s.retry failures reason) := by
  unfold retry
  split
  · refine (turned_transition _ _).before ((account_retire _).trans (account_note s rfl))
  · have hnote := @account_note (s.transition (.reconnecting (failures + 1)))
    exact (turned_transition s _).after (hnote rfl)

theorem turned_lose (s : Session) (link : Nat) (reason : String) : Turned s (s.lose link reason) :=
  (turned_retry _ _ _).before (account_note (s.dropLink link) rfl)

theorem account_tell {notes : List Note} (hedge : t.edge = s.edge) (hstate : t.state = s.state)
    (hnotes : t.notes = s.notes ++ notes) :
    t.account = s.account.tell (publishedEvents notes) := by
  simp [account, Account.tell, hedge, hstate, hnotes, publishedEvents_append]

theorem account_sent (s : Session) (d : Drive) (r : Request) : (s.sent d r).account =
    s.account.tell [.subscriptionSent s.edge r.count r.channels.size] := by
  have hnote := account_tell (s := s) (t := s.note [.requestSent s.edge r.id.text r.count
    r.channels.size, .published (.subscriptionSent s.edge r.count r.channels.size)]) rfl rfl rfl
  unfold sent
  dsimp only
  split
  · exact hnote
  · exact (account_breakDown _ _).trans hnote

theorem account_handle_other {d : Drive} {text : String} (h : responseOf text = none) :
    (s.handle d text).account = s.account := by
  have hread := account_note s (publishedEvents_read text)
  unfold handle
  dsimp only
  split
  · exact (account_note _ rfl).trans hread
  · exact (account_note _ rfl).trans hread
  · split
    · exact hread
    · exact (account_note _ rfl).trans hread
  · rename_i hm
    simp [responseOf, hm] at h
  · rename_i hm
    simp [responseOf, hm] at h

/-- Of a frame nothing is told but that the last request was refused. -/
theorem account_handle (s : Session) (d : Drive) (text : String) :
    (s.handle d text).account = s.account.tell (d.refusal s.edge text) := by
  have hstands := standing_handle s d text
  have hnotes := fun notes hn => @account_tell s (s.handle d text) notes
    (congrArg Standing.edge hstands) (congrArg Standing.state hstands) hn
  cases hr : responseOf text with
  | none => simp [account_handle_other hr, Drive.refusal, hr]
  | some a =>
    have hevents : d.refusal s.edge text =
        if a.id = d.pending.map RequestId.text then (a.event? s.edge).toList else [] := by
      by_cases he : a.id = d.pending.map RequestId.text <;>
        simp [Drive.refusal, hr, Option.filter, he]
    rw [hevents]
    rcases handle_response (s := s) (d := d) hr with ⟨he, _, hn⟩ | ⟨he, _, hn⟩
    · rw [if_pos he, ← a.publishedEvents_notes]
      exact hnotes _ hn
    · rw [if_neg he]
      exact hnotes _ hn

/-- What a step comes to for listeners. -/
def Tells (s : Session) (x : Step) (t : Session) : Prop :=
  t.account = (s.account.turn t.state).tell (s.sentIn x ++ s.refusedIn x)

theorem Tells.of_turned (h : Turned s t) (sent : s.sentIn x = []) (refused : s.refusedIn x = []) :
    Tells s x t := by
  rw [Tells, sent, refused, List.append_nil, Account.tell_nil]
  exact h

theorem Tells.of_told (h : t.account = s.account.tell (s.sentIn x ++ s.refusedIn x)) :
    Tells s x t := by
  have hstate : t.state = s.account.state := congrArg Account.state h
  rw [Tells, hstate, Account.turn_self, h]

/-- Only a request puts something on a connection, and only a frame is handled. -/
theorem refusedIn_other (h : s.handledIn x = []) : s.refusedIn x = [] := by
  unfold refusedIn
  split
  · rw [h, List.flatMap_nil]
  · rfl

theorem request_tells (h : s.move? .request = some t) : Tells s (.move .request) t := by
  have hrefused : s.refusedIn (.move .request) = [] := refusedIn_other rfl
  obtain ⟨d, r, l, hp, hl, ⟨toDevice, hs, rfl⟩ | ⟨hs, rfl⟩⟩ := request_cases h
  · have hput : s.putIn (.move .request) = [(d.link, r)] := by simp [putIn, hp, hl, hs]
    apply Tells.of_told
    rw [hrefused, sentIn, hput]
    exact account_sent (s.modifyLink d.link (fun l => { l with toDevice })) d r
  · have hput : s.putIn (.move .request) = [] := by simp [putIn, hp, hl, hs]
    exact .of_turned (turned_lose s _ _) (by rw [sentIn, hput]; rfl) hrefused

theorem frame_tells (h : s.move? .frame = some t) : Tells s (.move .frame) t := by
  obtain ⟨d, l, hp, hl, ⟨toClient, text, hr, ⟨deadline, hd, rfl⟩ | ⟨hd, rfl⟩⟩ | ⟨hr, rfl⟩⟩ :=
    frame_cases h
  · have hhandled : s.handledIn (.move .frame) = [(d.link, text)] := by
      simp [handledIn, hp, hl, hd, receive_item hr]
    have hrefused : s.refusedIn (.move .frame) = d.refusal s.edge text := by
      simp [refusedIn, hp, hhandled]
    apply Tells.of_told
    rw [hrefused]
    exact account_handle (s.modifyLink d.link (fun l => { l with toClient })) { d with deadline } text
  · have hhandled : s.handledIn (.move .frame) = [] := by simp [handledIn, hp, hl, hd]
    exact .of_turned (.of_eq (account_breakDown _ _)) rfl (refusedIn_other hhandled)
  · have hhandled : s.handledIn (.move .frame) = [] := by
      have hnone : l.toClient.queue = [] := receive_closed hr
      cases hd : s.deadlineFor? d.subscribed <;> simp [handledIn, hp, hl, hd, hnone]
    exact .of_turned (turned_lose s _ _) rfl (refusedIn_other hhandled)

theorem move_tells {m : Move} (h : s.move? m = some t) : Tells s (.move m) t := by
  cases m with
  | request => exact request_tells h
  | frame => exact frame_tells h
  | start =>
    obtain ⟨_, rfl⟩ := start_cases h
    exact .of_turned (turned_attempt s 0) rfl (refusedIn_other rfl)
  | connect =>
    obtain ⟨failures, u, _, ⟨link, ho, rfl⟩ | ⟨fault, ho, rfl⟩⟩ := connect_cases h
    · exact .of_turned ((turned_openLink u link).before (account_takeOutcome ho)) rfl
        (refusedIn_other rfl)
    · have hu := (@account_note u [.connectFailed u.edge fault.message failures] rfl).trans
        (account_takeOutcome ho)
      exact .of_turned ((turned_retry _ _ _).before hu) rfl (refusedIn_other rfl)
  | forward =>
    obtain ⟨d, snapshot, _, ⟨snapshots, _, rfl⟩ | ⟨_, rfl⟩⟩ := forward_cases h
    · exact .of_turned (.of_eq rfl) rfl (refusedIn_other rfl)
    · have hgone := @account_note (s.dropLink d.link) [.processorGone s.edge] rfl
      exact .of_turned ((turned_finish _).before hgone) rfl (refusedIn_other rfl)
  | halt =>
    obtain ⟨_, ⟨_, rfl⟩ | ⟨d, _, rfl⟩⟩ := halt_cases h
    · exact .of_turned (turned_finish s) rfl (refusedIn_other rfl)
    · exact .of_turned ((turned_finish (s.dropLink d.link)).before rfl) rfl (refusedIn_other rfl)
  | desire =>
    obtain ⟨d, _, _, rfl⟩ := desire_cases h
    exact .of_turned (.of_eq (account_sync s d)) rfl (refusedIn_other rfl)
  | silence =>
    obtain ⟨d, _, _, _, _, rfl⟩ := silence_cases h
    exact .of_turned (turned_lose s _ _) rfl (refusedIn_other rfl)
  | wake =>
    obtain ⟨failures, _, _, _, rfl⟩ := wake_cases h
    exact .of_turned (turned_attempt s failures) rfl (refusedIn_other rfl)

theorem step_tells (h : s.step? x = some t) (hx : x ≠ .collect) : Tells s x t := by
  cases x with
  | collect => exact absurd rfl hx
  | move m => exact move_tells h
  | set addresses =>
    cases h
    refine .of_turned (.of_eq ?_) rfl (refusedIn_other rfl)
    unfold setSubscription
    split <;> rfl
  | shutdown =>
    cases h
    exact .of_turned (turned_shutdown s) rfl (refusedIn_other rfl)
  | device step =>
    simp only [step?, Option.map_eq_some_iff] at h
    obtain ⟨result, hd, rfl⟩ := h
    obtain ⟨links, connector, heq⟩ := device_shape hd
    rw [heq]
    exact .of_turned (.of_eq rfl) rfl (refusedIn_other rfl)
  | read | take | dropSnapshots | pass ms =>
    cases h
    exact .of_turned (.of_eq rfl) rfl (refusedIn_other rfl)

/-- What is noted in a step publishes what is told in it. -/
theorem step_told (h : s.step? x = some t) (hx : x ≠ .collect) :
    publishedEvents t.notes = publishedEvents s.notes ++ s.toldIn x t := by
  have htold := congrArg Account.told (step_tells h hx)
  rw [Account.tell, Account.turn_told, List.append_assoc] at htold
  exact htold

theorem published_append (h : s.step? x = some t) :
    published (past ++ [(s, x)]) t = published past s ++ s.toldIn x t := by
  by_cases hx : x = .collect
  · subst hx
    cases h
    have hrefused : s.refusedIn .collect = [] := refusedIn_other rfl
    have hnone : s.toldIn .collect { s with notes := [] } = [] := by
      simp [toldIn, sentIn, putIn, hrefused, state]
    rw [hnone, List.append_nil, published, published, noted, noted, logged_append]
    simp [carriedIn]
  · have hcarried : s.carriedIn x = [] := by
      cases x <;> first | rfl | exact absurd rfl hx
    rw [published, published, noted, noted, logged_append, hcarried, List.append_nil,
      publishedEvents_append, publishedEvents_append, step_told h hx, List.append_assoc]

theorem mem_refusal {d : Drive} {edge text : String} {ev : Event} (h : ev ∈ d.refusal edge text) :
    ∃ code message, ev = .subscriptionRejected edge code message := by
  rw [Drive.refusal, Option.mem_toList, Option.bind_eq_some_iff] at h
  obtain ⟨a, _, ha⟩ := h
  obtain ⟨r, _, rfl⟩ := Option.map_eq_some_iff.mp ha
  exact ⟨_, _, rfl⟩

theorem mem_asked {ev : Event} (h : ev ∈ s.sentIn x ++ s.refusedIn x) :
    ev.edge = s.edge ∧ ev.isSubscription = true := by
  rcases List.mem_append.mp h with h | h
  · obtain ⟨p, _, rfl⟩ := List.mem_map.mp h
    exact ⟨rfl, rfl⟩
  · unfold refusedIn at h
    split at h
    · obtain ⟨p, _, hp⟩ := List.mem_flatMap.mp h
      obtain ⟨code, message, rfl⟩ := mem_refusal hp
      exact ⟨rfl, rfl⟩
    · cases h

theorem mem_toldIn {ev : Event} (h : ev ∈ s.toldIn x t) :
    ev.edge = s.edge ∧ (ev = .connectionChanged s.edge t.state ∧ t.state ≠ s.state ∨
      ev.isSubscription = true) := by
  rcases List.mem_append.mp h with h | h
  · split at h
    · cases h
    · rename_i hne
      rw [List.mem_singleton.mp h]
      exact ⟨rfl, .inl ⟨rfl, hne⟩⟩
  · obtain ⟨hedge, hkind⟩ := mem_asked h
    exact ⟨hedge, .inr hkind⟩

theorem stateAfter_subscriptions {events : List Event}
    (h : ∀ ev ∈ events, ev.isSubscription = true) (state : LinkState) :
    events.foldl Event.stateAfter state = state := by
  induction events with
  | nil => rfl
  | cons ev rest ih =>
    have hev := h ev List.mem_cons_self
    have hsame : Event.stateAfter state ev = state := by
      cases ev <;> first | rfl | cases hev
    rw [List.foldl_cons, hsame]
    exact ih (fun e he => h e (List.mem_cons_of_mem _ he))

theorem toldIn_state (s : Session) (x : Step) (t : Session) :
    (s.toldIn x t).foldl Event.stateAfter s.state = t.state := by
  rw [toldIn, List.foldl_append, stateAfter_subscriptions (fun ev hev => (mem_asked hev).2)]
  split
  · rename_i h
    exact h.symm
  · rfl

/-- Steps lead from one state to another, and these events are told meanwhile. -/
inductive Goes (s : Session) : Session → List Event → Prop where
  | refl : Goes s s []
  | step {t u : Session} {x : Step} {told : List Event} (earlier : Goes s t told)
      (possible : t.step? x = some u) : Goes s u (told ++ t.toldIn x u)

variable {told more : List Event}

theorem Goes.trans (h : Goes s t told) (h' : Goes t u more) : Goes s u (told ++ more) := by
  induction h' with
  | refl =>
    rw [List.append_nil]
    exact h
  | step _ possible ih =>
    rw [← List.append_assoc]
    exact ih.step possible

theorem Goes.single (h : s.step? x = some t) : Goes s t (s.toldIn x t) := by
  simpa using (Goes.refl (s := s)).step h

theorem Goes.quiet (h : s.step? x = some t) (hnone : s.toldIn x t = []) : Goes s t [] := by
  rw [← hnone]
  exact .single h

theorem Goes.reached (h : Goes s t told) (hs : Reached past s) :
    ∃ rest, Reached (past ++ rest) t ∧
      published (past ++ rest) t = published past s ++ told := by
  induction h with
  | refl => exact ⟨[], by simpa using hs, by simp⟩
  | @step t u x told _ possible ih =>
    obtain ⟨rest, ht, hpublished⟩ := ih
    refine ⟨rest ++ [(t, x)], ?_, ?_⟩
    · rw [← List.append_assoc]
      exact ht.step possible
    · rw [← List.append_assoc, published_append possible, hpublished, List.append_assoc]

theorem Goes.edge (h : Goes s t told) : t.edge = s.edge := by
  induction h with
  | refl => rfl
  | step _ possible ih => exact (step_edge possible).trans ih

/-- The events of a session are about its edge, and none of them is one of its coming and going. -/
theorem Goes.own (h : Goes s t told) :
    ∀ ev ∈ told, ev.edge = s.edge ∧ (ev.isConnection = true ∨ ev.isSubscription = true) := by
  induction h with
  | refl => exact fun ev hev => nomatch hev
  | @step t u x told earlier possible ih =>
    intro ev hev
    rcases List.mem_append.mp hev with hev | hev
    · exact ih ev hev
    · obtain ⟨hedge, hkind⟩ := mem_toldIn hev
      refine ⟨hedge.trans earlier.edge, ?_⟩
      rcases hkind with ⟨rfl, _⟩ | hkind
      · exact .inl rfl
      · exact .inr hkind

/-- The state is the last one told of. -/
theorem Goes.state (h : Goes s t told) : t.state = told.foldl Event.stateAfter s.state := by
  induction h with
  | refl => rfl
  | @step t u x told _ _ ih => rw [List.foldl_append, ← ih, toldIn_state]

theorem Goes.still (h : Goes s t told) (shown : Shown s) (stopped : s.stopped = true) :
    Shown t ∧ t.stopped = true ∧ ∀ ev ∈ told, ev.isSubscription = true := by
  induction h with
  | refl => exact ⟨shown, stopped, fun ev hev => nomatch hev⟩
  | @step t u x told _ possible ih =>
    obtain ⟨hshown, hstop, hall⟩ := ih
    obtain ⟨hstate, hs⟩ := hshown.step_still possible hstop
    refine ⟨hshown.step possible, hs, fun ev hev => ?_⟩
    rcases List.mem_append.mp hev with hev | hev
    · exact hall ev hev
    · rcases (mem_toldIn hev).2 with ⟨_, hne⟩ | hkind
      · exact absurd hstate hne
      · exact hkind

end Session

end ChannelFeed
