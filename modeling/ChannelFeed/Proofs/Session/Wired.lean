import ChannelFeed.Proofs.Session.Frame
import ChannelFeed.Proofs.Session.Moves

namespace ChannelFeed

/-- What the device will have been asked for when a phase is over. -/
def Phase.asking? : Phase → Option AddressSet
  | driving d => some d.subscribed
  | requesting _ r => some r.channels
  | forwarding d _ => some d.subscribed
  | _ => none

theorem Phase.asking?_eq_none {p : Phase} (h : p.drive? = none) : p.asking? = none := by
  cases p <;> first | rfl | cases h

namespace Session

variable {read : List (Nat × Request)} {s t : Session}

/-- The requests on a link, read or on their way. -/
def onLink (read : List (Nat × Request)) (s : Session) (link : Nat) : List Request :=
  ofLink link read ++ s.outbound link

/-- What a session keeps for a connection is what the last request on it says. -/
def Recorded (read : List (Nat × Request)) (s : Session) (d : Drive) : Prop :=
  d.subscribed = channelsOf (onLink read s d.link) ∧
    d.pending = (onLink read s d.link).getLast?.map Request.id

/-- The links are used one after another, each from its first request on by one connection, and the
session knows the last request on its own. -/
structure Wired (read : List (Nat × Request)) (s : Session) : Prop where
  known : ∀ r ∈ read, r.1 < s.links.length
  distinct : s.connector.links.Nodup
  exist : ∀ link ∈ s.connector.links, link < s.links.length
  unused : ∀ link ∈ s.connector.links, onLink read s link = []
  apart : ∀ d, s.phase.drive? = some d →
    d.link < s.links.length ∧ d.link ∉ s.connector.links
  recorded : ∀ d, s.phase.drive? = some d → Recorded read s d
  looked : s.desiredSeen ≤ s.desired.changes
  current : ∀ set, s.phase.asking? = some set → s.desired.changes = s.desiredSeen →
    set = s.desired.value

theorem Frame.onLink_eq (hf : Frame s t) (link : Nat) : onLink read t link = onLink read s link := by
  simp only [onLink, hf.outbound]

/-- The connection of the later state is that of the earlier one as far as requests go. -/
def SameDrive (s t : Session) : Prop :=
  ∀ d, t.phase.drive? = some d → ∃ d', s.phase.drive? = some d' ∧ d.link = d'.link ∧
    d.subscribed = d'.subscribed ∧ d.pending = d'.pending

theorem Wired.frame (h : Wired read s) (hf : Frame s t) (hd : SameDrive s t)
    (ha : ∀ set, t.phase.asking? = some set → s.phase.asking? = some set) : Wired read t where
  known r hr := by rw [hf.links]; exact h.known r hr
  distinct := h.distinct.sublist hf.promised
  exist link hl := by rw [hf.links]; exact h.exist link (hf.promised.subset hl)
  unused link hl := by rw [hf.onLink_eq]; exact h.unused link (hf.promised.subset hl)
  apart d hp := by
    obtain ⟨d', hd', hlink, _, _⟩ := hd d hp
    rw [hf.links, hlink]
    exact ⟨(h.apart d' hd').1, fun hm => (h.apart d' hd').2 (hf.promised.subset hm)⟩
  recorded d hp := by
    obtain ⟨d', hd', hlink, hsub, hpend⟩ := hd d hp
    have hr := h.recorded d' hd'
    unfold Recorded
    rw [hf.onLink_eq, hlink, hsub, hpend]
    exact hr
  looked := by rw [hf.desired, hf.seen]; exact h.looked
  current set hs hc := by
    rw [hf.desired, hf.seen] at hc
    rw [hf.desired]
    exact h.current set (ha set hs) hc

theorem Wired.leave (h : Wired read s) (hf : Frame s t) (hp : t.phase.drive? = none) :
    Wired read t :=
  h.frame hf (fun d hd => by simp [hp] at hd)
    (fun set hs => by simp [Phase.asking?_eq_none hp] at hs)

theorem Wired.same_phase (h : Wired read s) (hf : Frame s t) (hp : t.phase = s.phase) :
    Wired read t :=
  h.frame hf (fun d hd => ⟨d, hp ▸ hd, rfl, rfl, rfl⟩) (fun _ hs => hp ▸ hs)

theorem Wired.keep_driving {d d' : Drive} (h : Wired read s) (hf : Frame s t)
    (hs : s.phase = .driving d) (hd : t.phase.drive? = some d')
    (ha : t.phase.asking? = some d'.subscribed) (hlink : d'.link = d.link)
    (hsub : d'.subscribed = d.subscribed) (hpend : d'.pending = d.pending) : Wired read t := by
  refine h.frame hf ?_ ?_
  · intro e he
    rw [hd] at he
    cases he
    exact ⟨d, by rw [hs]; rfl, hlink, hsub, hpend⟩
  · intro set hset
    rw [ha] at hset
    cases hset
    rw [hs, hsub]
    rfl

/-- Looking at what is wanted: nothing to do if the device was asked for it, else a request. -/
theorem Wired.sync {d : Drive} (h : Wired read s)
    (hlink : d.link < s.links.length ∧ d.link ∉ s.connector.links) (hr : Recorded read s d) :
    Wired read (s.sync d) := by
  unfold Session.sync
  dsimp only
  split
  · rename_i he
    refine ⟨h.known, h.distinct, h.exist, h.unused, ?_, ?_, Nat.le_refl _, ?_⟩
    · intro e hd
      cases hd
      exact hlink
    · intro e hd
      cases hd
      exact hr
    · intro set hs _
      cases hs
      exact he.symm
  · refine ⟨h.known, h.distinct, h.exist, h.unused, ?_, ?_, Nat.le_refl _, ?_⟩
    · intro e hd
      cases hd
      exact hlink
    · intro e hd
      cases hd
      exact hr
    · intro set hs _
      cases hs
      rfl

theorem Wired.takeOutcome {u : Session} {outcome : Outcome} (h : Wired read s)
    (hp : s.phase.drive? = none) (ho : s.takeOutcome? = some (u, outcome)) :
    Wired read u ∧ u.phase = s.phase ∧ ∀ link, outcome = .ok link →
      link < u.links.length ∧ link ∉ u.connector.links ∧ onLink read u link = [] := by
  rcases takeOutcome_cases ho with ⟨rest, hc, rfl⟩ | ⟨url, fault, hc, rfl, rfl⟩
  · have hsub : (Connector.queued rest).links.Sublist s.connector.links := by
      rw [hc]
      exact (List.sublist_cons_self _ _).filterMap _
    refine ⟨h.leave ⟨rfl, fun _ => rfl, hsub, rfl, rfl⟩ hp, rfl, ?_⟩
    intro link he
    subst he
    have hl : s.connector.links = link :: (Connector.queued rest).links := by
      rw [hc]
      rfl
    have hm : link ∈ s.connector.links := hl ▸ List.mem_cons_self
    exact ⟨h.exist link hm, (List.nodup_cons.mp (hl ▸ h.distinct)).1, h.unused link hm⟩
  · exact ⟨h.same_phase (frame_note _ _) rfl, rfl, fun link hl => by cases hl⟩

theorem Wired.openLink {link : Nat} (h : Wired read s) (hp : s.phase.drive? = none)
    (hl : link < s.links.length ∧ link ∉ s.connector.links) (hu : onLink read s link = []) :
    Wired read (s.openLink link) := by
  have hf := (frame_transition s .connected).trans (frame_note _ [.connected s.edge])
  have hw := h.leave hf ((congrArg Phase.drive? (transition_phase s _)).trans hp)
  unfold Session.openLink
  refine Wired.sync ⟨hw.known, hw.distinct, hw.exist, hw.unused, hw.apart, hw.recorded, hw.looked,
    hw.current⟩ ⟨?_, fun hm => hl.2 (hf.promised.subset hm)⟩ ?_
  · rw [← hf.links] at hl
    exact hl.1
  · have hnone : onLink read _ link = [] := (hf.onLink_eq link).trans hu
    exact ⟨(congrArg channelsOf hnone).symm,
      (congrArg (fun q => q.getLast?.map Request.id) hnone).symm⟩

theorem outbound_modifyLink (s : Session) (link k : Nat) (f : Link → Link) :
    (s.modifyLink link f).outbound k =
      if link = k then ((s.links[k]?).map (fun l => (f l).toDevice.queue)).getD []
      else s.outbound k := by
  simp only [outbound, modifyLink, List.getElem?_modify]
  cases s.links[k]? with
  | none => simp
  | some l => by_cases hk : link = k <;> simp [hk]

theorem onLink_send {d : Drive} {r : Request} {l : Link} {p : Pipe Request}
    (hl : s.links[d.link]? = some l) (hs : l.toDevice.send r = (p, .ok)) (k : Nat) :
    onLink read (s.modifyLink d.link (fun l => { l with toDevice := p })) k =
      if d.link = k then onLink read s k ++ [r] else onLink read s k := by
  obtain ⟨_, _, _, rfl⟩ := send_ok hs
  simp only [onLink, outbound_modifyLink]
  split
  · rename_i hk
    subst hk
    simp [outbound, hl]
  · rfl

theorem Wired.receive {d : Drive} {r : Request} {l : Link} {p : Pipe Request} (h : Wired read s)
    (hd : s.phase.drive? = some d) (hl : s.links[d.link]? = some l)
    (hs : l.toDevice.send r = (p, .ok)) :
    Wired read { s.modifyLink d.link (fun l => { l with toDevice := p }) with
      phase := .finished } := by
  have hlen : (s.modifyLink d.link (fun l => { l with toDevice := p })).links.length =
      s.links.length := List.length_modify ..
  refine ⟨?_, h.distinct, ?_, ?_, ?_, ?_, h.looked, ?_⟩
  · intro q hq
    exact hlen ▸ h.known q hq
  · intro k hk
    exact hlen ▸ h.exist k hk
  · intro k hk
    have hne : d.link ≠ k := fun he => (h.apart d hd).2 (he ▸ hk)
    exact (onLink_send hl hs k).trans ((if_neg hne).trans (h.unused k hk))
  · intro e he
    cases he
  · intro e he
    cases he
  · intro set hset
    cases hset

theorem Wired.sent {d : Drive} {r : Request} {l : Link} {p : Pipe Request} (h : Wired read s)
    (hp : s.phase = .requesting d r) (hl : s.links[d.link]? = some l)
    (hs : l.toDevice.send r = (p, .ok)) :
    Wired read ((s.modifyLink d.link (fun l => { l with toDevice := p })).sent d r) := by
  have hd : s.phase.drive? = some d := by rw [hp]; rfl
  have hw := h.receive hd hl hs
  unfold Session.sent
  dsimp only
  split
  · have hlast : onLink read _ d.link = _ := (onLink_send hl hs d.link).trans (if_pos rfl)
    refine ⟨hw.known, hw.distinct, hw.exist, hw.unused, ?_, ?_, hw.looked, ?_⟩
    · intro e he
      cases he
      exact ⟨(List.length_modify ..).symm ▸ (h.apart d hd).1, (h.apart d hd).2⟩
    · intro e he
      cases he
      constructor
      · refine Eq.trans ?_ (congrArg channelsOf hlast).symm
        simp [channelsOf]
      · refine Eq.trans ?_ (congrArg (fun q => q.getLast?.map Request.id) hlast).symm
        simp
    · intro set hset hseen
      cases hset
      exact h.current r.channels (by rw [hp]; rfl) hseen
  · -- the request is on the wire, but no clock can tell when an answer is overdue
    refine hw.leave (Frame.trans (Frame.of_eq ?_ ?_ ?_ ?_) (frame_breakDown _ _)) ?_ <;> rfl

theorem Wired.request (h : Wired read s) (hm : s.move? .request = some t) : Wired read t := by
  rcases request_cases hm with ⟨d, r, l, hp, hl, ⟨toDevice, hs, rfl⟩ | ⟨_, rfl⟩⟩
  · exact h.sent hp hl hs
  · exact h.leave (frame_lose _ _ _) (lose_drive _ _ _)

theorem Wired.forward (h : Wired read s) (hm : s.move? .forward = some t) : Wired read t := by
  rcases forward_cases hm with ⟨d, snapshot, hp, ⟨snapshots, _, rfl⟩ | ⟨_, rfl⟩⟩
  · refine h.frame (.of_eq rfl rfl rfl rfl) ?_ ?_
    · intro e he
      exact ⟨e, by rw [hp]; exact he, rfl, rfl, rfl⟩
    · intro set hset
      rw [hp]
      exact hset
  · exact h.leave (((frame_dropLink s _).trans (frame_note _ _)).trans (frame_finish _))
      (congrArg Phase.drive? (finish_phase _))

theorem Wired.halt (h : Wired read s) (hm : s.move? .halt = some t) : Wired read t := by
  rcases halt_cases hm with ⟨_, ⟨_, rfl⟩ | ⟨d, _, rfl⟩⟩
  · exact h.leave (frame_finish s) (congrArg Phase.drive? (finish_phase s))
  · exact h.leave ((frame_dropLink s _).trans (frame_finish _))
      (congrArg Phase.drive? (finish_phase _))

theorem Wired.takeFrame (h : Wired read s) (hm : s.move? .frame = some t) : Wired read t := by
  rcases frame_cases hm with ⟨d, l, hp, _, ⟨toClient, text, _, hcases⟩ | ⟨_, rfl⟩⟩
  · have hl := frame_modifyLink s d.link (f := fun l => { l with toClient }) (fun _ => rfl)
    rcases hcases with ⟨deadline, _, rfl⟩ | ⟨_, rfl⟩
    · rcases frame_handle (s.modifyLink d.link (fun l => { l with toClient }))
        { d with deadline } text with ⟨hf, hphase | ⟨gate, snapshot, hphase⟩⟩
      · exact h.keep_driving (hl.trans hf) hp (congrArg Phase.drive? hphase)
          (congrArg Phase.asking? hphase) rfl rfl rfl
      · exact h.keep_driving (hl.trans hf) hp (congrArg Phase.drive? hphase)
          (congrArg Phase.asking? hphase) rfl rfl rfl
    · exact h.leave (hl.trans (frame_breakDown _ _)) rfl
  · exact h.leave (frame_lose _ _ _) (lose_drive _ _ _)

theorem Wired.connect (h : Wired read s) (hm : s.move? .connect = some t) : Wired read t := by
  obtain ⟨failures, u, hp, hcases⟩ := connect_cases hm
  have hnone : s.phase.drive? = none := by rw [hp]; rfl
  rcases hcases with ⟨link, ho, rfl⟩ | ⟨fault, ho, rfl⟩
  · obtain ⟨hw, hphase, hlink⟩ := h.takeOutcome hnone ho
    obtain ⟨hex, hnew, hunused⟩ := hlink link rfl
    exact hw.openLink (by rw [hphase]; exact hnone) ⟨hex, hnew⟩ hunused
  · obtain ⟨hw, _, _⟩ := h.takeOutcome hnone ho
    exact hw.leave ((frame_note _ _).trans (frame_retry _ _ _)) (retry_drive _ _ _)

theorem Wired.move {m : Move} (h : Wired read s) (hm : s.move? m = some t) : Wired read t := by
  cases m with
  | start =>
    obtain ⟨_, rfl⟩ := start_cases hm
    exact h.leave (frame_attempt s 0) (by rw [attempt_phase]; rfl)
  | request => exact h.request hm
  | forward => exact h.forward hm
  | halt => exact h.halt hm
  | desire =>
    obtain ⟨d, hp, _, rfl⟩ := desire_cases hm
    have hd : s.phase.drive? = some d := by rw [hp]; rfl
    exact h.sync (h.apart d hd) (h.recorded d hd)
  | frame => exact h.takeFrame hm
  | silence =>
    obtain ⟨d, deadline, _, _, _, rfl⟩ := silence_cases hm
    exact h.leave (frame_lose _ _ _) (lose_drive _ _ _)
  | connect => exact h.connect hm
  | wake =>
    obtain ⟨failures, wake, _, _, rfl⟩ := wake_cases hm
    exact h.leave (frame_attempt s failures) (by rw [attempt_phase]; rfl)

end Session

end ChannelFeed
