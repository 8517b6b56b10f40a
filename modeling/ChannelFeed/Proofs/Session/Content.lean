import ChannelFeed.Proofs.Session.Requests

namespace ChannelFeed.Session

variable {s t : Session} {x : Step} {link : Nat} {wanted : AddressSet}

theorem step_desired (h : s.step? x = some t) (hx : ∀ addresses, x ≠ .set addresses) :
    t.desired = s.desired := by
  cases x with
  | move m => exact move_desired h
  | set addresses => exact absurd rfl (hx addresses)
  | shutdown =>
    cases h
    exact (frame_shutdown s).desired
  | device step =>
    simp only [step?, Option.map_eq_some_iff] at h
    obtain ⟨result, hd, rfl⟩ := h
    exact device_desired hd
  | read | take | dropSnapshots | pass ms | collect =>
    cases h
    rfl

/-- A link was used, and a session that is still on it has asked for what is wanted. -/
structure Content (wanted : AddressSet) (link : Nat) (s : Session) : Prop where
  desired : s.desired.value = wanted
  used : link < s.links.length ∧ link ∉ s.connector.links
  asked : ∀ d, s.phase.drive? = some d → d.link = link →
    d.subscribed = wanted ∧ ∀ r, s.phase ≠ .requesting d r

theorem Reached.content {past : Past} {d : Drive} (h : Reached past s)
    (hd : s.phase.drive? = some d) (idle : ∀ r, s.phase ≠ .requesting d r)
    (seen : s.desired.unseen s.desiredSeen = false) : Content s.desired.value d.link s := by
  refine ⟨rfl, h.wired.apart d hd, fun d' hd' _ => ?_⟩
  cases hd.symm.trans hd'
  refine ⟨?_, idle⟩
  cases hp : s.phase with
  | driving d' =>
    rw [hp] at hd
    cases hd
    exact h.asking_eq (by rw [hp]; rfl) seen
  | forwarding d' snapshot =>
    rw [hp] at hd
    cases hd
    exact h.asking_eq (by rw [hp]; rfl) seen
  | requesting d' r =>
    rw [hp] at hd
    cases hd
    exact absurd hp (idle r)
  | spawned | connecting | pausing | finished =>
    rw [hp] at hd
    cases hd

/-- On a connection that is content no request is made. -/
theorem Content.idle {d : Drive} {r : Request} (h : Content wanted link s)
    (was : s.phase = .requesting d r) : d.link ≠ link := fun hlink =>
  (h.asked d (by rw [was]; rfl) hlink).2 r was

theorem Content.passage {opened : List (Nat × AddressSet)} {put : List (Nat × Request)}
    {handled : List (Nat × String)} {taken : List Snapshot} (h : Content wanted link s)
    (hp : Passage s x t opened put handled taken) :
    ofLink link put = [] ∧ ∀ d, t.phase.drive? = some d → d.link = link →
      d.subscribed = wanted ∧ ∀ r, t.phase ≠ .requesting d r := by
  cases hp with
  | rests phase _ _ => exact ⟨rfl, phase ▸ h.asked⟩
  | takes phase _ _ => exact ⟨rfl, phase ▸ h.asked⟩
  | idles _ idle _ => exact ⟨rfl, fun d hd => by simp [idle.drive] at hd⟩
  | opens _ promised asks _ =>
    refine ⟨rfl, fun d hd hlink => ?_⟩
    rw [asks.drive] at hd
    cases hd
    exact absurd (hlink ▸ promised) h.used.2
  | @looks d was asks _ =>
    refine ⟨rfl, fun d' hd' hlink => ?_⟩
    rw [asks.drive] at hd'
    cases hd'
    obtain ⟨hsub, _⟩ := h.asked d (by rw [was]; rfl) hlink
    cases asks with
    | content _ is _ => exact ⟨hsub, fun r hr => by simp [is] at hr⟩
    | asks differs _ _ => exact absurd (h.desired.trans hsub.symm) differs
  | @puts d r was is _ _ =>
    have hother := h.idle was
    refine ⟨by rw [ofLink_single, if_neg hother], fun d' hd' hlink => ?_⟩
    rcases is with hnone | ⟨deadline, is⟩
    · simp [hnone] at hd'
    · rw [is] at hd'
      cases hd'
      exact absurd hlink hother
  | @handles d text deadline was is _ _ =>
    obtain ⟨gate, hgate⟩ := Drive.afterFrame_drive { d with deadline } text
    refine ⟨rfl, fun d' hd' hlink => ?_⟩
    rw [is, hgate] at hd'
    cases hd'
    obtain ⟨hsub, _⟩ := h.asked d (by rw [was]; rfl) hlink
    exact ⟨hsub, fun r hr => Drive.afterFrame_unasked _ _ _ _ (is ▸ hr)⟩
  | @forwards d snapshot was is _ _ =>
    refine ⟨rfl, fun d' hd' hlink => ?_⟩
    rw [is] at hd'
    cases hd'
    exact ⟨(h.asked d (by rw [was]; rfl) hlink).1, fun r hr => by simp [is] at hr⟩

theorem Content.step (h : Content wanted link s) (hx : s.step? x = some t)
    (same : t.desired.value = wanted) : Content wanted link t := by
  obtain ⟨hlen, hpromised⟩ := step_promises hx
  refine ⟨same, ⟨Nat.lt_of_lt_of_le h.used.1 hlen, fun hm => ?_⟩, (h.passage (step_passage hx)).2⟩
  rcases hpromised link hm with hm | hnew
  · exact h.used.2 hm
  · exact Nat.not_lt_of_le hnew h.used.1

theorem Content.silent (h : Content wanted link s) (hx : s.step? x = some t)
    (unread : s.readIn x = []) : t.outbound link = s.outbound link := by
  have hconveys := step_conveys hx link
  rw [unread, (h.passage (step_passage hx)).1] at hconveys
  simpa [ofLink] using hconveys

end ChannelFeed.Session
