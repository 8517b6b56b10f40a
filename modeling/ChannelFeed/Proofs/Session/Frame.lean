import ChannelFeed.Proofs.Session.Run

namespace ChannelFeed.Session

variable {s t u : Session}

/-- Nothing was put on a connection, wanted or promised between two states. -/
structure Frame (s t : Session) : Prop where
  links : t.links.length = s.links.length
  outbound : ∀ link, t.outbound link = s.outbound link
  promised : t.connector.links.Sublist s.connector.links
  desired : t.desired = s.desired
  seen : t.desiredSeen = s.desiredSeen

theorem Frame.refl (s : Session) : Frame s s := ⟨rfl, fun _ => rfl, .refl _, rfl, rfl⟩

theorem Frame.trans (h : Frame s t) (h' : Frame t u) : Frame s u where
  links := h'.links.trans h.links
  outbound link := (h'.outbound link).trans (h.outbound link)
  promised := h'.promised.trans h.promised
  desired := h'.desired.trans h.desired
  seen := h'.seen.trans h.seen

theorem Frame.of_eq (hl : t.links = s.links) (hc : t.connector = s.connector)
    (hd : t.desired = s.desired) (hs : t.desiredSeen = s.desiredSeen) : Frame s t :=
  ⟨by rw [hl], fun link => by simp only [Session.outbound, hl], hc ▸ .refl _, hd, hs⟩

theorem frame_note (s : Session) (notes : List Note) : Frame s (s.note notes) :=
  .of_eq rfl rfl rfl rfl

theorem transition_phase (s : Session) (next : LinkState) :
    (s.transition next).phase = s.phase := by
  unfold transition
  split <;> rfl

theorem frame_transition (s : Session) (next : LinkState) : Frame s (s.transition next) := by
  unfold transition
  split
  · exact .of_eq rfl rfl rfl rfl
  · exact .refl s

/-- A change of a link that leaves the requests on their way in place. -/
theorem frame_modifyLink (s : Session) (link : Nat) {f : Link → Link}
    (hf : ∀ l, (f l).toDevice.queue = l.toDevice.queue) : Frame s (s.modifyLink link f) where
  links := List.length_modify ..
  outbound k := by
    simp only [Session.outbound, modifyLink, List.getElem?_modify]
    cases s.links[k]? with
    | none => rfl
    | some l =>
      by_cases hk : link = k
      · simp [hk, hf]
      · simp [hk]
  promised := .refl _
  desired := rfl
  seen := rfl

theorem frame_dropLink (s : Session) (link : Nat) : Frame s (s.dropLink link) :=
  frame_modifyLink s link (fun _ => rfl)

/-- Dropping the outcomes comes to forgetting them and letting go of their links. -/
theorem dropOutcomes_kept {P : Session → Prop} (s : Session)
    (hqueue : P { s with connector := .queued [] }) (hlink : ∀ t link, P t → P (t.dropLink link))
    (hnone : P s) : P s.dropOutcomes := by
  unfold dropOutcomes
  split
  · rename_i outcomes hc
    clear hc
    generalize { s with connector := Connector.queued [] } = t at hqueue
    induction outcomes generalizing t with
    | nil => exact hqueue
    | cons outcome rest ih =>
      rw [List.foldl_cons]
      cases outcome with
      | ok link => exact ih _ (hlink t link hqueue)
      | error fault => exact ih t hqueue
  · exact hnone

theorem frame_dropOutcomes (s : Session) : Frame s s.dropOutcomes := by
  refine dropOutcomes_kept s ?_ ?_ (.refl s)
  · exact ⟨rfl, fun _ => rfl, List.nil_sublist _, rfl, rfl⟩
  · exact fun t link h => h.trans (frame_dropLink t link)

theorem frame_retire (s : Session) : Frame s s.retire := by
  have h := frame_dropOutcomes s
  exact ⟨h.links, h.outbound, h.promised, h.desired, h.seen⟩

theorem frame_finish (s : Session) : Frame s s.finish :=
  (frame_retire s).trans (frame_transition _ _)

theorem finish_phase (s : Session) : s.finish.phase = .finished := transition_phase _ _

theorem frame_attempt (s : Session) (failures : Nat) : Frame s (s.attempt failures) := by
  have h := frame_transition s (if failures = 0 then .connecting else .reconnecting failures)
  unfold attempt
  dsimp only
  split <;> exact h.trans (.of_eq rfl rfl rfl rfl)

theorem attempt_phase (s : Session) (failures : Nat) :
    (s.attempt failures).phase = .connecting failures := by
  unfold attempt
  dsimp only
  split <;> rfl

theorem frame_retry (s : Session) (failures : Nat) (reason : String) :
    Frame s (s.retry failures reason) := by
  unfold retry
  split
  · exact ((frame_note s _).trans (frame_retire _)).trans (frame_transition _ _)
  · exact (frame_transition s _).trans (.of_eq rfl rfl rfl rfl)

/-- After a failure there is no connection. -/
theorem retry_drive (s : Session) (failures : Nat) (reason : String) :
    (s.retry failures reason).phase.drive? = none := by
  unfold retry
  split
  · rw [transition_phase]
    rfl
  · rfl

theorem frame_lose (s : Session) (link : Nat) (reason : String) :
    Frame s (s.lose link reason) :=
  ((frame_dropLink s link).trans (frame_note _ _)).trans (frame_retry _ _ _)

theorem lose_drive (s : Session) (link : Nat) (reason : String) :
    (s.lose link reason).phase.drive? = none := retry_drive _ _ _

theorem frame_breakDown (s : Session) (link : Nat) : Frame s (s.breakDown link) :=
  (frame_dropLink s link).trans (frame_retire _)

theorem frame_shutdown (s : Session) : Frame s s.shutdown := by
  unfold shutdown
  split
  · exact .refl s
  · have h : Frame s ({ s with stopped := true }.note [.shuttingDown s.edge]) :=
      .of_eq rfl rfl rfl rfl
    exact h.trans (frame_transition _ _)

theorem shutdown_phase (s : Session) : s.shutdown.phase = s.phase := by
  unfold shutdown
  split
  · rfl
  · exact transition_phase _ _

/-- A frame that was handled leaves the session on its connection, on which at most the gate moved. -/
theorem frame_handle (s : Session) (d : Drive) (text : String) :
    Frame s (s.handle d text) ∧ ((s.handle d text).phase = .driving d ∨
      ∃ gate snapshot, (s.handle d text).phase = .forwarding { d with gate } snapshot) := by
  unfold handle
  dsimp only
  split
  · exact ⟨.of_eq rfl rfl rfl rfl, .inl rfl⟩
  · exact ⟨.of_eq rfl rfl rfl rfl, .inl rfl⟩
  · split
    · exact ⟨.of_eq rfl rfl rfl rfl, .inr ⟨_, _, rfl⟩⟩
    · exact ⟨.of_eq rfl rfl rfl rfl, .inl rfl⟩
  · split <;> exact ⟨.of_eq rfl rfl rfl rfl, .inl rfl⟩
  · split <;> exact ⟨.of_eq rfl rfl rfl rfl, .inl rfl⟩

theorem frame_deviceSend (s : Session) (link : Nat) (texts : List String) :
    Frame s (s.deviceSend link texts).1 := by
  induction texts generalizing s with
  | nil => exact .refl s
  | cons text rest ih =>
    unfold deviceSend
    split
    · exact .refl s
    · rename_i l hl
      refine Frame.trans ?_ (ih _)
      refine ⟨List.length_modify .., fun k => ?_, .refl _, rfl, rfl⟩
      simp only [Session.outbound, modifyLink, List.getElem?_modify]
      by_cases hk : link = k
      · subst hk
        simp [hl, Link.deviceSend]
      · simp [hk]

theorem transition_shape (s : Session) (next : LinkState) :
    ∃ watchedState notes, s.transition next = { s with watchedState, notes } := by
  unfold transition
  split
  · exact ⟨_, _, rfl⟩
  · exact ⟨s.watchedState, s.notes, rfl⟩

theorem shutdown_shape (s : Session) :
    ∃ stopped watchedState notes, s.shutdown = { s with stopped, watchedState, notes } := by
  unfold shutdown
  split
  · exact ⟨s.stopped, s.watchedState, s.notes, rfl⟩
  · obtain ⟨watchedState, notes, h⟩ :=
      transition_shape ({ s with stopped := true }.note [.shuttingDown s.edge]) .disconnected
    exact ⟨true, watchedState, notes, h⟩

theorem dropOutcomes_shape (s : Session) :
    ∃ links connector, s.dropOutcomes = { s with links, connector } := by
  refine dropOutcomes_kept (P := fun t => ∃ links connector, t = { s with links, connector }) s
    ⟨s.links, _, rfl⟩ ?_ ⟨s.links, s.connector, rfl⟩
  intro t link ht
  obtain ⟨links, connector, rfl⟩ := ht
  exact ⟨_, connector, rfl⟩

theorem deviceSend_shape (s : Session) (link : Nat) (texts : List String) :
    ∃ links, (s.deviceSend link texts).1 = { s with links } := by
  induction texts generalizing s with
  | nil => exact ⟨s.links, rfl⟩
  | cons text rest ih =>
    unfold deviceSend
    split
    · exact ⟨s.links, rfl⟩
    · exact ih _

theorem deviceSend_phase (s : Session) (link : Nat) (texts : List String) :
    (s.deviceSend link texts).1.phase = s.phase := by
  obtain ⟨links, h⟩ := deviceSend_shape s link texts
  rw [h]

theorem queueOutcome_shape (s : Session) (outcome : Outcome) :
    ∃ connector, s.queueOutcome outcome = { s with connector } := by
  unfold queueOutcome
  split
  · exact ⟨_, rfl⟩
  · exact ⟨s.connector, rfl⟩

theorem changeLink_shape {link : Nat} {f : Link → Link} {result : Session × DeviceReply}
    (h : s.changeLink? link f = some result) : result.1 = s.modifyLink link f := by
  unfold changeLink? at h
  split at h
  · cases h
    rfl
  · cases h

/-- A device does nothing to a session but for its links and the outcomes that wait for it. -/
theorem device_shape {step : DeviceStep} {result : Session × DeviceReply}
    (h : s.device? step = some result) :
    ∃ links connector, result.1 = { s with links, connector } := by
  cases step with
  | accept buffer held =>
    simp only [device?, accept?] at h
    split at h
    · rename_i u link ha
      simp only [Option.map_eq_some_iff] at ha
      obtain ⟨fresh, _, ha⟩ := ha
      cases h
      split at ha
      · cases ha
        exact ⟨_, s.connector, rfl⟩
      · cases ha
        obtain ⟨connector, hq⟩ := queueOutcome_shape { s with links := s.links ++ [fresh] }
          (.ok s.links.length)
        exact ⟨_, connector, hq⟩
    · cases h
      exact ⟨s.links, s.connector, rfl⟩
  | refuse fault =>
    cases h
    unfold Session.refuse
    split
    · exact ⟨s.links, s.connector, rfl⟩
    · obtain ⟨connector, hq⟩ := queueOutcome_shape s (.error fault)
      exact ⟨s.links, connector, hq⟩
  | send link texts =>
    simp only [device?] at h
    split at h
    · cases h
      obtain ⟨links, hs⟩ := deviceSend_shape s link texts
      exact ⟨links, s.connector, hs⟩
    · cases h
  | close link => exact ⟨_, s.connector, changeLink_shape h⟩
  | closeSender link => exact ⟨_, s.connector, changeLink_shape h⟩
  | closeReceiver link => exact ⟨_, s.connector, changeLink_shape h⟩
  | unhold link => exact ⟨_, s.connector, changeLink_shape h⟩

end ChannelFeed.Session
