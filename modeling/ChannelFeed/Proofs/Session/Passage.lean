import ChannelFeed.Proofs.Session.Asked
import ChannelFeed.Proofs.Session.History

namespace ChannelFeed

def reportOf (text : String) : Option Snapshot :=
  match (Message.read text).message with
  | .ok (.report snapshot) => some snapshot
  | _ => none

/-- What a connection waits for after a frame. -/
def Drive.afterFrame (d : Drive) (text : String) : Phase :=
  match reportOf text with
  | some snapshot =>
    if d.gate.accepts snapshot.sequence then
      .forwarding { d with gate := ⟨some snapshot.sequence⟩ } snapshot
    else .driving d
  | none => .driving d

theorem Drive.afterFrame_drive (d : Drive) (text : String) :
    ∃ gate, (d.afterFrame text).drive? = some { d with gate } := by
  unfold afterFrame
  split
  · split
    · exact ⟨_, rfl⟩
    · exact ⟨d.gate, rfl⟩
  · exact ⟨d.gate, rfl⟩

theorem Drive.afterFrame_unasked (d e : Drive) (text : String) (r : Request) :
    d.afterFrame text ≠ .requesting e r := by
  unfold afterFrame
  split
  · split <;> exact nofun
  · exact nofun

namespace Session

variable {s t u : Session} {x : Step}

/-- A step after which there is no connection, and which put nothing on one. A session that is finished
has let go of its end of the queue of snapshots. -/
structure Idles (s t : Session) : Prop extends Frame s t where
  drive : t.phase.drive? = none
  sent : t.requestsSent = s.requestsSent
  outlet : t.snapshots = s.snapshots ∨
    t.phase = .finished ∧ t.snapshots = s.snapshots.closeSender

theorem Idles.after (hf : Frame s u) (hsent : u.requestsSent = s.requestsSent)
    (hout : u.snapshots = s.snapshots) (h : Idles u t) : Idles s t :=
  ⟨hf.trans h.toFrame, h.drive, h.sent.trans hsent, hout ▸ h.outlet⟩

theorem idles_retire (s : Session) : Idles s s.retire := by
  refine ⟨frame_retire s, rfl, ?_, .inr ⟨rfl, ?_⟩⟩
  · obtain ⟨links, connector, h⟩ := dropOutcomes_shape s
    simp only [retire, h]
  · obtain ⟨links, connector, h⟩ := dropOutcomes_shape s
    simp only [retire, h]

theorem Idles.transition (h : Idles s t) (next : LinkState) : Idles s (t.transition next) := by
  have hf := h.toFrame.trans (frame_transition t next)
  obtain ⟨watchedState, notes, heq⟩ := transition_shape t next
  rw [heq] at hf ⊢
  exact ⟨hf, h.drive, h.sent, h.outlet⟩

theorem idles_finish (s : Session) : Idles s s.finish := (idles_retire s).transition _

theorem idles_breakDown (s : Session) (link : Nat) : Idles s (s.breakDown link) :=
  .after (frame_dropLink s link) rfl rfl (idles_retire _)

theorem idles_attempt (s : Session) (failures : Nat) : Idles s (s.attempt failures) := by
  have hf := frame_attempt s failures
  have hp := attempt_phase s failures
  obtain ⟨watchedState, notes, h⟩ :=
    transition_shape s (if failures = 0 then .connecting else .reconnecting failures)
  unfold attempt at hf hp ⊢
  rw [h] at hf hp ⊢
  dsimp only at hf hp ⊢
  refine ⟨hf, by rw [hp]; rfl, ?_, .inl ?_⟩
  · split <;> rfl
  · split <;> rfl

theorem idles_retry (s : Session) (failures : Nat) (reason : String) :
    Idles s (s.retry failures reason) := by
  have hf := frame_retry s failures reason
  unfold retry at hf ⊢
  split
  · exact (Idles.after (frame_note s _) rfl rfl (idles_retire _)).transition _
  · rename_i delay hd
    obtain ⟨watchedState, notes, h⟩ := transition_shape s (.reconnecting (failures + 1))
    simp only [hd, h] at hf ⊢
    exact ⟨hf, rfl, rfl, .inl rfl⟩

theorem idles_lose (s : Session) (link : Nat) (reason : String) : Idles s (s.lose link reason) :=
  .after ((frame_dropLink s link).trans (frame_note _ _)) rfl rfl (idles_retry _ _ _)

/-- Looking at what is wanted: a request is made unless the device was asked for it already. -/
inductive Asks (s t : Session) (d : Drive) : Prop
  | content (wanted : s.desired.value = d.subscribed) (is : t.phase = .driving d)
      (sent : t.requestsSent = s.requestsSent)
  | asks {id : RequestId} (wanted : s.desired.value ≠ d.subscribed)
      (is : t.phase = .requesting d ⟨id, s.requestsSent + 1, s.desired.value⟩)
      (sent : t.requestsSent = s.requestsSent + 1)

/-- What passes in a step, with the connections it opens, the requests it puts on them, the frames it
handles and the snapshots that are taken. -/
inductive Passage (s : Session) (x : Step) (t : Session) :
    List (Nat × AddressSet) → List (Nat × Request) → List (Nat × String) → List Snapshot → Prop
  | rests (phase : t.phase = s.phase) (sent : t.requestsSent = s.requestsSent)
      (outlet : t.snapshots = s.snapshots ∨
        x = .dropSnapshots ∧ t.snapshots = s.snapshots.closeReceiver) : Passage s x t [] [] [] []
  | takes (phase : t.phase = s.phase) (sent : t.requestsSent = s.requestsSent)
      (outlet : t.snapshots = s.snapshots.receive.1) :
      Passage s x t [] [] [] s.snapshots.queue.head?.toList
  /-- A snapshot on its way out is only given up if there is no way out. -/
  | idles (was : s.phase ≠ .finished) (idle : Idles s t)
      (unsent : ∀ d snapshot, s.phase = .forwarding d snapshot →
        (s.snapshots.send snapshot).2 = .closed) : Passage s x t [] [] [] []
  | opens {failures link : Nat} (was : s.phase = .connecting failures)
      (promised : link ∈ s.connector.links) (asks : Asks s t ⟨link, .fresh, .empty, none, none⟩)
      (outlet : t.snapshots = s.snapshots) : Passage s x t [(link, s.desired.value)] [] [] []
  | looks {d : Drive} (was : s.phase = .driving d) (asks : Asks s t d)
      (outlet : t.snapshots = s.snapshots) : Passage s x t [] [] [] []
  | puts {d : Drive} {r : Request} (was : s.phase = .requesting d r)
      (is : t.phase.drive? = none ∨ ∃ deadline, t.phase =
        .driving { d with subscribed := r.channels, pending := some r.id, deadline })
      (sent : t.requestsSent = s.requestsSent)
      (outlet : t.snapshots = s.snapshots ∨
        t.phase = .finished ∧ t.snapshots = s.snapshots.closeSender) :
      Passage s x t [] [(d.link, r)] [] []
  | handles {d : Drive} {text : String} {deadline : Option Nat} (was : s.phase = .driving d)
      (is : t.phase = ({ d with deadline } : Drive).afterFrame text)
      (sent : t.requestsSent = s.requestsSent) (outlet : t.snapshots = s.snapshots) :
      Passage s x t [] [] [(d.link, text)] []
  | forwards {d : Drive} {snapshot : Snapshot} (was : s.phase = .forwarding d snapshot)
      (is : t.phase = .driving d) (sent : t.requestsSent = s.requestsSent)
      (outlet : s.snapshots.send snapshot = (t.snapshots, .ok)) : Passage s x t [] [] [] []

theorem sync_asks (s : Session) (d : Drive) : Asks s (s.sync d) d := by
  unfold sync
  dsimp only
  split
  · rename_i hw
    exact .content hw rfl rfl
  · rename_i hw
    exact .asks hw rfl rfl

theorem sync_kept (s : Session) (d : Drive) :
    (s.sync d).links = s.links ∧ (s.sync d).connector = s.connector ∧
      (s.sync d).snapshots = s.snapshots := by
  unfold sync
  dsimp only
  split <;> exact ⟨rfl, rfl, rfl⟩

theorem Asks.of_eq {d : Drive} (h : Asks u t d) (hd : u.desired = s.desired)
    (hs : u.requestsSent = s.requestsSent) : Asks s t d := by
  cases h with
  | content wanted is sent => exact .content (hd ▸ wanted) is (sent.trans hs)
  | asks wanted is sent =>
    rw [hd] at wanted
    rw [hd, hs] at is
    exact .asks wanted is (by rw [sent, hs])

theorem Asks.drive {d : Drive} (h : Asks s t d) : t.phase.drive? = some d := by
  cases h with
  | content _ is _ => rw [is]; rfl
  | asks _ is _ => rw [is]; rfl

/-- An outcome with a link was promised, and is no longer. -/
theorem takeOutcome_promised {link : Nat} (h : s.takeOutcome? = some (u, .ok link)) :
    s.connector.links = link :: u.connector.links ∧ u = { s with connector := u.connector } := by
  rcases takeOutcome_cases h with ⟨rest, hc, rfl⟩ | ⟨_, _, _, he, _⟩
  · rw [hc]
    exact ⟨rfl, rfl⟩
  · cases he

/-- A refused attempt leaves everything but the outcomes and the notes as it was. -/
theorem takeOutcome_refused {fault : TransportFault} (h : s.takeOutcome? = some (u, .error fault)) :
    Frame s u ∧ u.requestsSent = s.requestsSent ∧ u.snapshots = s.snapshots := by
  rcases takeOutcome_cases h with ⟨rest, hc, rfl⟩ | ⟨url, _, _, _, rfl⟩
  · have hsub : (Connector.queued rest).links.Sublist s.connector.links := by
      rw [hc]
      exact .refl (Connector.queued rest).links
    exact ⟨⟨rfl, fun _ => rfl, hsub, rfl, rfl⟩, rfl, rfl⟩
  · exact ⟨frame_note s _, rfl, rfl⟩

theorem openLink_passage {failures link : Nat} (hp : s.phase = .connecting failures)
    (h : s.takeOutcome? = some (u, .ok link)) :
    Passage s x (u.openLink link) [(link, s.desired.value)] [] [] [] := by
  obtain ⟨hlinks, hu⟩ := takeOutcome_promised h
  obtain ⟨watchedState, notes, htrans⟩ := transition_shape u .connected
  obtain ⟨_, _, hout⟩ := sync_kept { (u.transition .connected).note [.connected u.edge] with
    rejection := none } ⟨link, .fresh, .empty, none, none⟩
  have hasks := sync_asks { (u.transition .connected).note [.connected u.edge] with
    rejection := none } ⟨link, .fresh, .empty, none, none⟩
  refine .opens hp (by simp [hlinks]) (hasks.of_eq ?_ ?_) (hout.trans ?_)
  · rw [htrans, hu]
    rfl
  · rw [htrans, hu]
    rfl
  · rw [htrans, hu]
    rfl

theorem sent_shape (s : Session) (d : Drive) (r : Request) :
    (∃ deadline notes, s.sent d r = { s with
        notes
        phase := .driving { d with subscribed := r.channels, pending := some r.id, deadline } }) ∨
      Idles s (s.sent d r) := by
  unfold sent
  dsimp only
  split
  · exact .inl ⟨_, _, rfl⟩
  · -- the request is on the wire, but no clock can tell when an answer is overdue
    exact .inr (.after (frame_note s _) rfl rfl (idles_breakDown _ _))

theorem sent_passage {d : Drive} {r : Request} (hp : s.phase = .requesting d r)
    (hs : u.requestsSent = s.requestsSent) (hout : u.snapshots = s.snapshots) :
    Passage s x (u.sent d r) [] [(d.link, r)] [] [] := by
  rcases sent_shape u d r with ⟨deadline, notes, h⟩ | ⟨_, hdrive, hsent, houtlet⟩
  · rw [h]
    exact .puts hp (.inr ⟨deadline, rfl⟩) hs (.inl hout)
  · rw [hout] at houtlet
    exact .puts hp (.inl hdrive) (hsent.trans hs) houtlet

/-- A frame that is handled changes nothing but the phase, the rejection and the notes. -/
theorem handle_shape (s : Session) (d : Drive) (text : String) :
    ∃ rejection notes, s.handle d text = { s with phase := d.afterFrame text, rejection, notes } := by
  unfold handle Drive.afterFrame reportOf
  dsimp only
  split
  · rename_i he
    exact ⟨s.rejection, _, by simp only [he]; rfl⟩
  · rename_i he
    exact ⟨s.rejection, _, by simp only [he]; rfl⟩
  · rename_i snapshot he
    cases ha : d.gate.accepts snapshot.sequence with
    | true => exact ⟨s.rejection, _, by simp only [he, Gate.pass, ha]; rfl⟩
    | false => exact ⟨s.rejection, _, by simp only [he, Gate.pass, ha]; rfl⟩
  · rename_i he
    simp only [he]
    split
    · exact ⟨_, _, rfl⟩
    · exact ⟨s.rejection, _, rfl⟩
  · rename_i he
    simp only [he]
    split
    · exact ⟨_, _, rfl⟩
    · exact ⟨s.rejection, _, rfl⟩

theorem frame_passage (h : s.move? .frame = some t) :
    Passage s (.move .frame) t [] [] (s.handledIn (.move .frame)) [] := by
  obtain ⟨d, l, hp, hl, ⟨toClient, text, hr, hcases⟩ | ⟨hr, rfl⟩⟩ := frame_cases h
  · rcases hcases with ⟨deadline, hd, rfl⟩ | ⟨hd, rfl⟩
    · have hhandled : s.handledIn (.move .frame) = [(d.link, text)] := by
        simp [handledIn, hp, hl, hd, receive_item hr]
      obtain ⟨rejection, notes, heq⟩ := handle_shape
        (s.modifyLink d.link (fun l => { l with toClient })) { d with deadline } text
      rw [hhandled, heq]
      exact .handles hp rfl rfl rfl
    · have hhandled : s.handledIn (.move .frame) = [] := by simp [handledIn, hp, hl, hd]
      rw [hhandled]
      have hf := frame_modifyLink s d.link (f := fun l => { l with toClient }) (fun _ => rfl)
      exact .idles (by simp [hp]) (.after hf rfl rfl (idles_breakDown _ _))
        (fun e snapshot he => by simp [hp] at he)
  · have hnone : l.toClient.queue = [] := receive_closed hr
    have hhandled : s.handledIn (.move .frame) = [] := by
      cases hd : s.deadlineFor? d.subscribed with
      | none => simp [handledIn, hp, hl, hd]
      | some deadline => simp [handledIn, hp, hl, hd, hnone]
    rw [hhandled]
    exact .idles (by simp [hp]) (idles_lose s _ _) (fun e snapshot he => by simp [hp] at he)

theorem move_passage {m : Move} (h : s.move? m = some t) :
    Passage s (.move m) t (s.openedIn (.move m)) (s.putIn (.move m)) (s.handledIn (.move m)) [] := by
  cases m with
  | start =>
    obtain ⟨hp, rfl⟩ := start_cases h
    exact .idles (by simp [hp]) (idles_attempt s 0) (fun d snapshot he => by simp [hp] at he)
  | request =>
    obtain ⟨d, r, l, hp, hl, ⟨toDevice, hs, rfl⟩ | ⟨hs, rfl⟩⟩ := request_cases h
    · have hput : s.putIn (.move .request) = [(d.link, r)] := by simp [putIn, hp, hl, hs]
      rw [hput]
      exact sent_passage hp rfl rfl
    · have hput : s.putIn (.move .request) = [] := by simp [putIn, hp, hl, hs]
      rw [hput]
      exact .idles (by simp [hp]) (idles_lose s _ _) (fun e snapshot he => by simp [hp] at he)
  | forward =>
    obtain ⟨d, snapshot, hp, ⟨snapshots, hs, rfl⟩ | ⟨hs, rfl⟩⟩ := forward_cases h
    · exact .forwards hp rfl rfl hs
    · refine .idles (by simp [hp])
        (.after ((frame_dropLink s _).trans (frame_note _ _)) rfl rfl (idles_finish _)) ?_
      intro e snapshot' he
      rw [hp] at he
      cases he
      exact hs
  | halt =>
    obtain ⟨_, ⟨hp, rfl⟩ | ⟨d, hp, rfl⟩⟩ := halt_cases h
    · rcases hp with ⟨failures, hp⟩ | ⟨failures, wake, hp⟩
      · exact .idles (by simp [hp]) (idles_finish s) (fun d snapshot he => by simp [hp] at he)
      · exact .idles (by simp [hp]) (idles_finish s) (fun d snapshot he => by simp [hp] at he)
    · exact .idles (by simp [hp]) (.after (frame_dropLink s _) rfl rfl (idles_finish _))
        (fun e snapshot he => by simp [hp] at he)
  | desire =>
    obtain ⟨d, hp, _, rfl⟩ := desire_cases h
    exact .looks hp (sync_asks s d) (sync_kept s d).2.2
  | frame => exact frame_passage h
  | silence =>
    obtain ⟨d, deadline, hp, _, _, rfl⟩ := silence_cases h
    exact .idles (by simp [hp]) (idles_lose s _ _) (fun e snapshot he => by simp [hp] at he)
  | connect =>
    obtain ⟨failures, u, hp, ⟨link, ho, rfl⟩ | ⟨fault, ho, rfl⟩⟩ := connect_cases h
    · have hopened : s.openedIn (.move .connect) = [(link, s.desired.value)] := by
        simp [openedIn, hp, ho]
      rw [hopened]
      exact openLink_passage hp ho
    · have hopened : s.openedIn (.move .connect) = [] := by simp [openedIn, hp, ho]
      rw [hopened]
      obtain ⟨hf, hsent, hout⟩ := takeOutcome_refused ho
      exact .idles (by simp [hp]) (.after (hf.trans (frame_note u _)) hsent hout (idles_retry _ _ _))
        (fun d snapshot he => by simp [hp] at he)
  | wake =>
    obtain ⟨failures, wake, hp, _, rfl⟩ := wake_cases h
    exact .idles (by simp [hp]) (idles_attempt s failures)
      (fun d snapshot he => by simp [hp] at he)

theorem step_passage (h : s.step? x = some t) :
    Passage s x t (s.openedIn x) (s.putIn x) (s.handledIn x) (s.takenIn x) := by
  cases x with
  | move m => exact move_passage h
  | set addresses =>
    cases h
    unfold setSubscription
    split
    · exact .rests rfl rfl (.inl rfl)
    · exact .rests rfl rfl (.inl rfl)
  | shutdown =>
    cases h
    obtain ⟨watchedState, notes, stopped, heq⟩ := shutdown_shape s
    rw [heq]
    exact .rests rfl rfl (.inl rfl)
  | device step =>
    simp only [step?, Option.map_eq_some_iff] at h
    obtain ⟨result, hd, rfl⟩ := h
    obtain ⟨links, connector, heq⟩ := device_shape hd
    rw [heq]
    exact .rests rfl rfl (.inl rfl)
  | take =>
    cases h
    exact .takes rfl rfl rfl
  | dropSnapshots =>
    cases h
    exact .rests rfl rfl (.inr ⟨rfl, rfl⟩)
  | read | pass ms | collect =>
    cases h
    exact .rests rfl rfl (.inl rfl)

end Session

end ChannelFeed
