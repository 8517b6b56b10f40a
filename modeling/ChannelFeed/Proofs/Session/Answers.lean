import ChannelFeed.Proofs.Session.Asked

namespace ChannelFeed

namespace Message

/-- The identifier of a response, which may be missing; none for what is no response. -/
def response? : Message → Option (Option String)
  | success id => some id
  | failure id _ => some id
  | _ => none

def isFailure : Message → Bool
  | failure _ _ => true
  | _ => false

def rejection? : Message → Option Rejection
  | failure _ r => some r
  | _ => none

theorem read_notes {text : String} {m : Message} {id : Option String}
    (hm : (read text).message = .ok m) (hr : m.response? = some id) : (read text).notes = [] := by
  unfold read at hm ⊢
  split
  · rfl
  · rename_i e he
    rw [he] at hm
    simp only [ofEnvelope] at hm ⊢
    split
    · rfl
    · rename_i hn
      simp only [hn] at hm
      split
      · rfl
      · rename_i hresult
        simp only [if_neg hresult] at hm
        split
        · rfl
        · rename_i method hmethod
          simp only [hmethod] at hm
          split
          · rename_i hreport
            simp only [if_pos hreport, ofParams] at hm
            split at hm
            · cases hm
            · split at hm
              · cases hm
              · cases hm
                cases hr
          · rfl

end Message

/-- What a response says: which request it is about, and the rejection if it is one. -/
structure Response where
  id : Option String
  rejection : Option Rejection

def Response.event? (edge : String) (response : Response) : Option Event :=
  response.rejection.map (fun r => .subscriptionRejected edge r.code r.message)

def responseOf (text : String) : Option Response :=
  match (Message.read text).message with
  | .ok (.success id) => some ⟨id, none⟩
  | .ok (.failure id r) => some ⟨id, some r⟩
  | _ => none

namespace Response

def notes (edge : String) (response : Response) : List Note :=
  match response.rejection with
  | none => [.accepted edge response.id]
  | some r => [.rejected edge response.id r.code r.message,
      .published (.subscriptionRejected edge r.code r.message)]

theorem publishedEvents_notes (response : Response) (edge : String) :
    publishedEvents (response.notes edge) = (response.event? edge).toList := by
  unfold notes event?
  cases response.rejection <;> rfl

end Response

theorem Message.response_of_read {text : String} {m : Message} {id : Option String}
    (hm : (read text).message = .ok m) (hr : m.response? = some id) :
    ∃ a, responseOf text = some a ∧ a.id = id ∧ a.rejection.isSome = m.isFailure := by
  cases m with
  | report | unhandled => cases hr
  | success | failure =>
    cases hr
    exact ⟨_, by rw [responseOf, hm], rfl, rfl⟩

theorem responseOf_eq_some {text : String} {a : Response} (h : responseOf text = some a) :
    ∃ m, (Message.read text).message = .ok m ∧ m.response? = some a.id ∧
      m.rejection? = a.rejection := by
  unfold responseOf at h
  split at h
  · rename_i id hm
    cases h
    exact ⟨_, hm, rfl, rfl⟩
  · rename_i id r hm
    cases h
    exact ⟨_, hm, rfl, rfl⟩
  · cases h

namespace Session

variable {s t : Session} {d : Drive} {m : Message} {id : Option String}

/-- The standing rejection is another than before, or a rejection was published. -/
def RejectionTouched (s t : Session) : Prop :=
  t.rejection ≠ s.rejection ∨
    ∃ edge code message, Event.subscriptionRejected edge code message ∈
      publishedEvents (t.notes.drop s.notes.length)

/-- The next frame on a session's connection reads as a message. -/
def Hears (s : Session) (d : Drive) (m : Message) : Prop :=
  s.phase = .driving d ∧ ∃ l text rest, s.links[d.link]? = some l ∧
    l.toClient.queue = text :: rest ∧ (Message.read text).message = .ok m

theorem not_touched (hr : t.rejection = s.rejection) {added : List Note}
    (hn : t.notes = s.notes ++ added) (he : publishedEvents added = []) :
    ¬ RejectionTouched s t := by
  intro hx
  rcases hx with hne | ⟨edge, code, message, hmem⟩
  · exact hne hr
  · rw [hn, List.drop_left, he] at hmem
    cases hmem

/-- A response counts if it is about the last request. -/
theorem handle_response {text : String} {a : Response} (h : responseOf text = some a) :
    (a.id = d.pending.map RequestId.text ∧ (s.handle d text).rejection = a.rejection ∧
        (s.handle d text).notes = s.notes ++ a.notes s.edge) ∨
      (a.id ≠ d.pending.map RequestId.text ∧ (s.handle d text).rejection = s.rejection ∧
        (s.handle d text).notes =
          s.notes ++ [.unknownResponse s.edge a.id (d.pending.map RequestId.text)]) := by
  obtain ⟨m, hm, hid, hrejection⟩ := responseOf_eq_some h
  have hnotes := Message.read_notes hm hid
  cases m with
  | report | unhandled => cases hid
  | success | failure =>
    obtain ⟨id, rejection⟩ := a
    cases hid
    cases hrejection
    unfold handle
    simp only [hm, hnotes, note, List.append_nil]
    split
    · rename_i he
      exact .inl ⟨he, rfl, rfl⟩
    · rename_i he
      exact .inr ⟨he, rfl, rfl⟩

/-- A response whose identifier is that of the pending request, or is missing as it is, counts if it
is a failure or ends one. -/
theorem handle_touched_iff {text : String} (hm : (Message.read text).message = .ok m)
    (hid : m.response? = some id) :
    RejectionTouched s (s.handle d text) ↔
      id = d.pending.map RequestId.text ∧ (m.isFailure = true ∨ s.rejection ≠ none) := by
  obtain ⟨a, ha, rfl, hfailure⟩ := Message.response_of_read hm hid
  rcases handle_response (s := s) (d := d) ha with ⟨he, hr, hn⟩ | ⟨he, hr, hn⟩
  · have hevents := a.publishedEvents_notes s.edge
    cases hrejection : a.rejection with
    | some r =>
      have htouched : RejectionTouched s (s.handle d text) :=
        .inr ⟨s.edge, r.code, r.message, by
          simp [hn, hevents, Response.event?, hrejection]⟩
      simp [htouched, ← he, ← hfailure, hrejection]
    | none =>
      rw [Response.event?, hrejection] at hevents
      by_cases hnone : s.rejection = none
      · have hnot := not_touched (hr.trans (hrejection.trans hnone.symm)) hn hevents
        simp [hnot, hnone, ← hfailure, hrejection]
      · have htouched : RejectionTouched s (s.handle d text) :=
          .inl (fun h => hnone (h.symm.trans (hr.trans hrejection)))
        simp [htouched, ← he, hnone]
  · have hnot := not_touched hr hn rfl
    simp [hnot, he]

theorem dropOutcomes_notes (s : Session) :
    s.dropOutcomes.notes = s.notes ∧ s.dropOutcomes.rejection = s.rejection :=
  dropOutcomes_kept (P := fun t => t.notes = s.notes ∧ t.rejection = s.rejection) s ⟨rfl, rfl⟩
    (fun _ _ h => h) ⟨rfl, rfl⟩

theorem breakDown_untouched (s : Session) (link : Nat) :
    ¬ RejectionTouched s (s.breakDown link) := by
  obtain ⟨hn, hr⟩ := dropOutcomes_notes (s.dropLink link)
  exact not_touched hr (hn.trans (List.append_nil _).symm) rfl

/-- Taking a response touches the rejection only if its identifier is that of the pending request. -/
theorem response_touched_iff (hh : s.Hears d m) (hid : m.response? = some id)
    (ht : s.move? .frame = some t) :
    RejectionTouched s t ↔ id = d.pending.map RequestId.text ∧
      (m.isFailure = true ∨ s.rejection ≠ none) ∧ s.deadlineFor? d.subscribed ≠ none := by
  obtain ⟨hp, l, text, rest, hl, hq, hm⟩ := hh
  obtain ⟨d', l', hp', hl', hcases⟩ := frame_cases ht
  obtain rfl : d = d' := by rw [hp] at hp'; exact Phase.driving.inj hp'
  obtain rfl : l = l' := Option.some.inj (hl.symm.trans hl')
  have harrival : l.toClient.receive = ({ l.toClient with queue := rest }, .item text) := by
    simp only [Pipe.receive, hq]
  rw [harrival] at hcases
  rcases hcases with ⟨toClient, text', heq, hcases⟩ | ⟨hclosed, _⟩
  · obtain rfl : text = text' := Arrival.item.inj (congrArg Prod.snd heq)
    rcases hcases with ⟨deadline, hd, rfl⟩ | ⟨hd, rfl⟩
    · have hiff : RejectionTouched s _ ↔ _ := handle_touched_iff
        (s := s.modifyLink d.link (fun l => { l with toClient })) (d := { d with deadline }) hm hid
      rw [hiff]
      simp [hd, modifyLink]
    · have hnot : ¬ RejectionTouched s _ :=
        breakDown_untouched (s.modifyLink d.link (fun l => { l with toClient })) d.link
      simp [hnot, hd]
  · cases hclosed

theorem deadlineFor_empty (s : Session) : s.deadlineFor? .empty ≠ none := by
  unfold deadlineFor?
  split
  · exact fun h => nomatch h
  · have hempty : (SortedSet.empty : AddressSet).isEmpty = true := rfl
    rw [if_pos hempty]
    exact fun h => nomatch h

/-- In every run, a response that is no answer to the last request on its connection counts if and
only if nothing was asked on the connection and the response has no identifier either, provided that
it has something to change. -/
theorem Reached.stray_response_iff {past : Past} (h : Reached past s) (hh : s.Hears d m)
    (hid : m.response? = some id) (ht : s.move? .frame = some t) :
    (RejectionTouched s t ∧ ¬ ∃ last, (asked past s d.link).getLast? = some last ∧
        id = some last.id.text) ↔
      asked past s d.link = [] ∧ id = none ∧ (m.isFailure = true ∨ s.rejection ≠ none) := by
  have hd : s.phase.drive? = some d := by rw [hh.1]; rfl
  obtain ⟨hsub, hpend⟩ := h.asked_eq hd
  rw [response_touched_iff hh hid ht, hpend, hsub]
  cases hl : (asked past s d.link).getLast? with
  | none =>
    have hnil := List.getLast?_eq_none_iff.mp hl
    have hdeadline := deadlineFor_empty s
    simp [hnil, channelsOf, hdeadline]
  | some last =>
    have hne : asked past s d.link ≠ [] := fun hnil => by simp [hnil] at hl
    constructor
    · intro hx
      obtain ⟨⟨he, _⟩, hnot⟩ := hx
      exact absurd ⟨last, rfl, he⟩ hnot
    · intro hx
      obtain ⟨hnil, _⟩ := hx
      exact absurd hnil hne

def refusedEarly : Option (Past × Session) :=
  replay step? [] unbegun
    [.move .start, .device (.accept 4 false), .move .connect,
      .device (.send 0 ["\x7b\"error\":\x7b\"code\":4,\"message\":\"early\"\x7d\x7d"])]

/-- The refusal counts though nothing was asked. -/
theorem early_refusal_counts : ∃ past s t d, Reached past s ∧
    s.Hears d (.failure none ⟨4, "early"⟩) ∧ s.move? .frame = some t ∧
    asked past s d.link = [] ∧ RejectionTouched s t := by
  obtain ⟨run, hrun⟩ : ∃ run, refusedEarly = some run := ⟨_, rfl⟩
  have hreached : Reached run.1 run.2 := (Reached.start rfl unbegun_start).replay hrun
  obtain ⟨t, ht⟩ : ∃ t, run.2.move? .frame = some t := by
    cases hrun
    exact ⟨_, rfl⟩
  have hhears : run.2.Hears ⟨0, .fresh, .empty, none, none⟩ (.failure none ⟨4, "early"⟩) := by
    cases hrun
    exact ⟨rfl, _, _, _, rfl, rfl, rfl⟩
  have hasked : asked run.1 run.2 0 = [] := by
    cases hrun
    rfl
  exact ⟨run.1, run.2, t, _, hreached, hhears, ht, hasked,
    ((hreached.stray_response_iff hhears rfl ht).mpr ⟨hasked, rfl, .inl rfl⟩).1⟩

end Session

end ChannelFeed
