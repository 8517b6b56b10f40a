import ChannelFeed.Proofs.Session.Answers
import ChannelFeed.Proofs.Session.Passage
import ChannelFeed.Proofs.Session.Standing

namespace ChannelFeed

def Event.isRejection : Event → Bool
  | subscriptionRejected _ _ _ => true
  | _ => false

namespace Session

variable {s t u : Session} {x : Step}

def rejectionEvents (notes : List Note) : List Event :=
  (publishedEvents notes).filter Event.isRejection

/-- The rejection that stands, and those told of and not carried off yet. -/
structure Ruling where
  rejection : Option Rejection
  told : List Event

def ruling (s : Session) : Ruling := ⟨s.rejection, rejectionEvents s.notes⟩

/-- A ruling once a response was heard that counts. -/
def Ruling.hear (edge : String) (ruling : Ruling) (response : Response) : Ruling where
  rejection := response.rejection
  told := ruling.told ++ (response.event? edge).toList

def Ruling.afterAnswer (edge : String) (ruling : Ruling) : Option Response → Ruling
  | some a => ruling.hear edge a
  | none => ruling

theorem rejectionEvents_append (notes more : List Note) :
    rejectionEvents (notes ++ more) = rejectionEvents notes ++ rejectionEvents more := by
  simp [rejectionEvents, publishedEvents_append]

theorem ruling_note (s : Session) {notes : List Note} (silent : rejectionEvents notes = []) :
    (s.note notes).ruling = s.ruling := by
  simp [ruling, note, rejectionEvents_append, silent]

theorem ruling_transition (s : Session) (next : LinkState) :
    (s.transition next).ruling = s.ruling := by
  unfold transition
  split
  · exact ruling_note { s with watchedState := s.watchedState.send next } rfl
  · rfl

theorem ruling_retire (s : Session) : s.retire.ruling = s.ruling :=
  dropOutcomes_kept (P := fun t => t.ruling = s.ruling) s rfl (fun _ _ h => h) rfl

theorem ruling_finish (s : Session) : s.finish.ruling = s.ruling :=
  (ruling_transition _ _).trans (ruling_retire s)

theorem ruling_breakDown (s : Session) (link : Nat) : (s.breakDown link).ruling = s.ruling :=
  ruling_retire _

theorem ruling_attempt (s : Session) (failures : Nat) : (s.attempt failures).ruling = s.ruling := by
  unfold attempt
  dsimp only
  split <;> exact ruling_transition s _

theorem ruling_retry (s : Session) (failures : Nat) (reason : String) :
    (s.retry failures reason).ruling = s.ruling := by
  unfold retry
  split
  · exact (ruling_transition _ _).trans ((ruling_retire _).trans (ruling_note s rfl))
  · exact (ruling_note _ rfl).trans (ruling_transition s _)

theorem ruling_lose (s : Session) (link : Nat) (reason : String) :
    (s.lose link reason).ruling = s.ruling :=
  (ruling_retry _ _ _).trans (ruling_note (s.dropLink link) rfl)

theorem ruling_sync (s : Session) (d : Drive) : (s.sync d).ruling = s.ruling := by
  unfold sync
  dsimp only
  split <;> rfl

theorem ruling_sent (s : Session) (d : Drive) (r : Request) : (s.sent d r).ruling = s.ruling := by
  unfold sent
  dsimp only
  split
  · exact ruling_note s rfl
  · exact (ruling_breakDown _ _).trans (ruling_note s rfl)

theorem ruling_shutdown (s : Session) : s.shutdown.ruling = s.ruling := by
  unfold shutdown
  split
  · rfl
  · exact (ruling_transition _ _).trans (ruling_note _ rfl)

theorem ruling_takeOutcome {outcome : Outcome} (h : s.takeOutcome? = some (t, outcome)) :
    t.ruling = s.ruling := by
  rcases takeOutcome_cases h with ⟨_, _, rfl⟩ | ⟨_, _, _, _, rfl⟩
  · rfl
  · exact ruling_note s rfl

/-- On a new connection nothing was refused yet. -/
theorem ruling_openLink (s : Session) (link : Nat) :
    (s.openLink link).ruling = ⟨none, s.ruling.told⟩ := by
  unfold openLink
  rw [ruling_sync]
  have hkept := (@ruling_note (s.transition .connected) [.connected s.edge] rfl).trans
    (ruling_transition s .connected)
  exact congrArg (fun r : Ruling => { r with rejection := none }) hkept

theorem ruling_of_notes {added : List Note} (hr : t.rejection = s.rejection)
    (hn : t.notes = s.notes ++ added) (silent : rejectionEvents added = []) :
    t.ruling = s.ruling := by
  simp [ruling, hr, hn, rejectionEvents_append, silent]

theorem ruling_handle_other {d : Drive} {text : String} (h : responseOf text = none) :
    (s.handle d text).ruling = s.ruling := by
  have hread : (s.note (Message.read text).notes).ruling = s.ruling := by
    refine ruling_note s ?_
    rw [rejectionEvents, publishedEvents_read, List.filter_nil]
  unfold handle
  dsimp only
  split
  · exact (ruling_note _ rfl).trans hread
  · exact (ruling_note _ rfl).trans hread
  · split
    · exact hread
    · exact (ruling_note _ rfl).trans hread
  · rename_i hm
    simp [responseOf, hm] at h
  · rename_i hm
    simp [responseOf, hm] at h

theorem ruling_handle_response {d : Drive} {text : String} {a : Response}
    (h : responseOf text = some a) :
    (a.id = d.pending.map RequestId.text ∧
        (s.handle d text).ruling = s.ruling.hear s.edge a) ∨
      (a.id ≠ d.pending.map RequestId.text ∧ (s.handle d text).ruling = s.ruling ∧
        publishedEvents (s.handle d text).notes = publishedEvents s.notes) := by
  rcases handle_response (s := s) (d := d) h with ⟨he, hr, hn⟩ | ⟨he, hr, hn⟩
  · refine .inl ⟨he, ?_⟩
    have hevents : rejectionEvents (a.notes s.edge) = (a.event? s.edge).toList := by
      rw [rejectionEvents, Response.publishedEvents_notes]
      cases hreject : a.rejection <;> simp [Response.event?, hreject, Event.isRejection]
    simp only [ruling, Ruling.hear, hr, hn, rejectionEvents_append, hevents]
  · refine .inr ⟨he, ruling_of_notes hr hn rfl, ?_⟩
    rw [hn, publishedEvents_append]
    exact List.append_nil _

/-- Of the moves of a session only two change the ruling. -/
theorem move_ruling {m : Move} (h : s.move? m = some t) (hframe : m ≠ .frame)
    (hopened : s.openedIn (.move m) = []) : t.ruling = s.ruling := by
  cases m with
  | frame => exact absurd rfl hframe
  | start =>
    obtain ⟨_, rfl⟩ := start_cases h
    exact ruling_attempt s 0
  | connect =>
    obtain ⟨failures, u, hp, ⟨link, ho, rfl⟩ | ⟨fault, ho, rfl⟩⟩ := connect_cases h
    · simp [openedIn, hp, ho] at hopened
    · exact (ruling_retry _ _ _).trans ((ruling_note u rfl).trans (ruling_takeOutcome ho))
  | request =>
    obtain ⟨d, r, l, _, _, ⟨toDevice, _, rfl⟩ | ⟨_, rfl⟩⟩ := request_cases h
    · exact ruling_sent _ d r
    · exact ruling_lose s _ _
  | forward =>
    obtain ⟨d, snapshot, _, ⟨snapshots, _, rfl⟩ | ⟨_, rfl⟩⟩ := forward_cases h
    · rfl
    · exact (ruling_finish _).trans (ruling_note (s.dropLink d.link) rfl)
  | halt =>
    obtain ⟨_, ⟨_, rfl⟩ | ⟨d, _, rfl⟩⟩ := halt_cases h
    · exact ruling_finish s
    · exact ruling_finish _
  | desire =>
    obtain ⟨d, _, _, rfl⟩ := desire_cases h
    exact ruling_sync s d
  | silence =>
    obtain ⟨d, _, _, _, _, rfl⟩ := silence_cases h
    exact ruling_lose s _ _
  | wake =>
    obtain ⟨failures, _, _, _, rfl⟩ := wake_cases h
    exact ruling_attempt s failures

/-- What a frame does to the ruling of a session that may remember a request. -/
structure Judges (s : Session) (d : Drive) (text : String) (t : Session) : Prop where
  other : responseOf text = none → t.ruling = s.ruling
  /-- A response counts if it has the identifier of the last request, or none as long as there is no
  request. -/
  response : ∀ a, responseOf text = some a →
    (a.id = d.pending.map RequestId.text ∧ t.ruling = s.ruling.hear s.edge a) ∨
      (a.id ≠ d.pending.map RequestId.text ∧ t.ruling = s.ruling ∧
        publishedEvents t.notes = publishedEvents s.notes)

/-- What a step does to the ruling, where notes may be carried off. -/
inductive Rules (s : Session) (x : Step) (t : Session) : Prop
  | keeps (opened : s.openedIn x = []) (handled : s.handledIn x = [])
      (stands : t.rejection = s.rejection)
      (told : rejectionEvents (s.carriedIn x) ++ t.ruling.told = s.ruling.told)
  | opens {link : Nat} {wanted : AddressSet} (opened : s.openedIn x = [(link, wanted)])
      (put : s.putIn x = []) (handled : s.handledIn x = []) (kept : s.carriedIn x = [])
      (ruling : t.ruling = ⟨none, s.ruling.told⟩)
  | hears {d : Drive} {text : String} (was : s.phase = .driving d)
      (handled : s.handledIn x = [(d.link, text)]) (opened : s.openedIn x = [])
      (put : s.putIn x = []) (kept : s.carriedIn x = [])
      (judged : Judges s d text t)

theorem frame_rules (h : s.move? .frame = some t) : Rules s (.move .frame) t := by
  obtain ⟨d, l, hp, hl, ⟨toClient, text, hr, ⟨deadline, hd, rfl⟩ | ⟨hd, rfl⟩⟩ | ⟨hr, rfl⟩⟩ :=
    frame_cases h
  · have hother := @ruling_handle_other (s.modifyLink d.link (fun l => { l with toClient }))
      { d with deadline } text
    have hresponse := @ruling_handle_response (s.modifyLink d.link (fun l => { l with toClient }))
      { d with deadline } text
    refine .hears hp ?_ rfl rfl rfl ⟨hother, fun _ ha => hresponse ha⟩
    simp [handledIn, hp, hl, hd, receive_item hr]
  · have hruling := ruling_breakDown (s.modifyLink d.link (fun l => { l with toClient })) d.link
    refine .keeps rfl ?_ (congrArg Ruling.rejection hruling) (congrArg Ruling.told hruling)
    simp [handledIn, hp, hl, hd]
  · have hruling := ruling_lose s d.link "connection closed"
    refine .keeps rfl ?_ (congrArg Ruling.rejection hruling) (congrArg Ruling.told hruling)
    have hnone : l.toClient.queue = [] := receive_closed hr
    cases hd : s.deadlineFor? d.subscribed with
    | none => simp [handledIn, hp, hl, hd]
    | some deadline => simp [handledIn, hp, hl, hd, hnone]

theorem step_rules (h : s.step? x = some t) : Rules s x t := by
  have hkeeps : ∀ {x : Step} {t : Session}, s.openedIn x = [] → s.handledIn x = [] →
      s.carriedIn x = [] → t.ruling = s.ruling → Rules s x t := by
    intro x t ho hh hc hr
    refine .keeps ho hh (congrArg Ruling.rejection hr) ?_
    rw [hc]
    exact congrArg Ruling.told hr
  cases x with
  | move m =>
    by_cases hframe : m = .frame
    · subst hframe
      exact frame_rules h
    · by_cases hopened : s.openedIn (.move m) = []
      · refine hkeeps hopened ?_ rfl (move_ruling h hframe hopened)
        cases m <;> first | rfl | exact absurd rfl hframe
      · cases m with
        | connect =>
          obtain ⟨failures, u, hp, ⟨link, ho, rfl⟩ | ⟨fault, ho, rfl⟩⟩ := connect_cases h
          · have hlink : s.openedIn (.move .connect) = [(link, s.desired.value)] := by
              simp [openedIn, hp, ho]
            refine .opens hlink rfl rfl rfl ?_
            rw [ruling_openLink, ruling_takeOutcome ho]
          · simp [openedIn, hp, ho] at hopened
        | _ => exact absurd rfl hopened
  | set addresses =>
    cases h
    refine hkeeps rfl rfl rfl ?_
    unfold setSubscription
    split <;> rfl
  | shutdown =>
    cases h
    exact hkeeps rfl rfl rfl (ruling_shutdown s)
  | device step =>
    simp only [step?, Option.map_eq_some_iff] at h
    obtain ⟨result, hd, rfl⟩ := h
    obtain ⟨links, connector, heq⟩ := device_shape hd
    rw [heq]
    exact hkeeps rfl rfl rfl rfl
  | collect =>
    cases h
    exact .keeps rfl rfl rfl (List.append_nil _)
  | read | take | dropSnapshots | pass ms =>
    cases h
    exact hkeeps rfl rfl rfl rfl

/-- A step that handles a frame does nothing else to the ruling. -/
theorem Rules.heard {link : Nat} {text : String} (h : Rules s x t)
    (handled : s.handledIn x = [(link, text)]) : ∃ d, s.phase = .driving d ∧ d.link = link ∧
      s.carriedIn x = [] ∧ Judges s d text t := by
  cases h with
  | keeps _ none _ _ => simp [none] at handled
  | opens _ _ none _ _ => simp [none] at handled
  | @hears d _ was heard _ _ kept judged =>
    rw [heard] at handled
    cases handled
    exact ⟨d, was, rfl, kept, judged⟩

end Session

end ChannelFeed
