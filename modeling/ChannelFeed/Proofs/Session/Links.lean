import ChannelFeed.Proofs.Session.Passage

namespace ChannelFeed.Session

variable {s t u : Session} {x : Step}

/-- No link is new, none is promised anew, and nothing was put on one or taken off it. -/
structure Quiet (s t : Session) : Prop where
  links : t.links.length = s.links.length
  outbound : ∀ link, t.outbound link = s.outbound link
  promised : t.connector.links.Sublist s.connector.links

theorem Frame.quiet (h : Frame s t) : Quiet s t := ⟨h.links, h.outbound, h.promised⟩

theorem Quiet.of_links (hl : t.links = s.links)
    (hc : t.connector.links.Sublist s.connector.links) : Quiet s t :=
  ⟨by rw [hl], fun link => by simp only [Session.outbound, hl], hc⟩

theorem openLink_quiet {link : Nat} (h : s.takeOutcome? = some (u, .ok link)) :
    Quiet s (u.openLink link) := by
  obtain ⟨hpromised, hu⟩ := takeOutcome_promised h
  obtain ⟨watchedState, notes, htrans⟩ := transition_shape u .connected
  obtain ⟨hlinks, hconnector, _⟩ := sync_kept { (u.transition .connected).note [.connected u.edge] with
    rejection := none } ⟨link, .fresh, .empty, none, none⟩
  have hkept : (u.openLink link).connector = u.connector := by
    refine hconnector.trans ?_
    rw [htrans]
    rfl
  refine .of_links (hlinks.trans ?_) ?_
  · rw [htrans, hu]
    rfl
  · rw [hkept, hpromised]
    exact List.sublist_cons_self _ _

/-- Of the moves of a session only one puts something on a link. -/
theorem move_quiet {m : Move} (h : s.move? m = some t) (hm : m ≠ .request) : Quiet s t := by
  cases m with
  | request => exact absurd rfl hm
  | start =>
    obtain ⟨_, rfl⟩ := start_cases h
    exact (frame_attempt s 0).quiet
  | forward =>
    obtain ⟨d, snapshot, _, ⟨snapshots, _, rfl⟩ | ⟨_, rfl⟩⟩ := forward_cases h
    · exact .of_links rfl (.refl _)
    · exact (((frame_dropLink s _).trans (frame_note _ _)).trans (frame_finish _)).quiet
  | halt =>
    obtain ⟨_, ⟨_, rfl⟩ | ⟨d, _, rfl⟩⟩ := halt_cases h
    · exact (frame_finish s).quiet
    · exact ((frame_dropLink s _).trans (frame_finish _)).quiet
  | desire =>
    obtain ⟨d, _, _, rfl⟩ := desire_cases h
    obtain ⟨hlinks, hconnector, _⟩ := sync_kept s d
    exact .of_links hlinks (hconnector ▸ .refl _)
  | frame =>
    obtain ⟨d, l, _, _, ⟨toClient, text, _, hcases⟩ | ⟨_, rfl⟩⟩ := frame_cases h
    · have hf := frame_modifyLink s d.link (f := fun l => { l with toClient }) (fun _ => rfl)
      rcases hcases with ⟨deadline, _, rfl⟩ | ⟨_, rfl⟩
      · exact (hf.trans (frame_handle _ _ _).1).quiet
      · exact (hf.trans (frame_breakDown _ _)).quiet
    · exact (frame_lose s _ _).quiet
  | silence =>
    obtain ⟨d, _, _, _, _, rfl⟩ := silence_cases h
    exact (frame_lose s _ _).quiet
  | connect =>
    obtain ⟨failures, u, _, ⟨link, ho, rfl⟩ | ⟨fault, ho, rfl⟩⟩ := connect_cases h
    · exact openLink_quiet ho
    · have hf := (takeOutcome_refused ho).1
      exact ((hf.trans (frame_note u _)).trans (frame_retry _ _ _)).quiet
  | wake =>
    obtain ⟨failures, _, _, _, rfl⟩ := wake_cases h
    exact (frame_attempt s failures).quiet

/-- There are no fewer links than before, and only new ones are promised anew. -/
def Promises (s t : Session) : Prop :=
  s.links.length ≤ t.links.length ∧
    ∀ link ∈ t.connector.links, link ∈ s.connector.links ∨ s.links.length ≤ link

theorem Promises.of_sublist (hl : t.links.length = s.links.length)
    (hc : t.connector.links.Sublist s.connector.links) : Promises s t :=
  ⟨Nat.le_of_eq hl.symm, fun _ hm => .inl (hc.subset hm)⟩

theorem Quiet.promises (h : Quiet s t) : Promises s t := .of_sublist h.links h.promised

theorem request_promises (h : s.move? .request = some t) : Promises s t := by
  obtain ⟨d, r, l, _, _, ⟨toDevice, _, rfl⟩ | ⟨_, rfl⟩⟩ := request_cases h
  · have hlen : (s.modifyLink d.link (fun l => { l with toDevice })).links.length =
        s.links.length := List.length_modify ..
    rcases sent_shape (s.modifyLink d.link (fun l => { l with toDevice })) d r with
      ⟨deadline, notes, heq⟩ | hi
    · rw [heq]
      exact .of_sublist hlen (.refl _)
    · exact .of_sublist (hi.links.trans hlen) hi.promised
  · exact (frame_lose s _ _).quiet.promises

/-- A device promises no link but the one it has just made, on which nothing was put yet. -/
theorem device_promises {step : DeviceStep} {result : Session × DeviceReply}
    (h : s.device? step = some result) :
    Promises s result.1 ∧ ∀ link, result.1.outbound link = s.outbound link := by
  have hquiet : ∀ {t}, Quiet s t → Promises s t ∧ ∀ link, t.outbound link = s.outbound link :=
    fun hq => ⟨hq.promises, hq.outbound⟩
  have hchange : ∀ {link : Nat} {f : Link → Link}, s.changeLink? link f = some result →
      (∀ l, (f l).toDevice.queue = l.toDevice.queue) →
      Promises s result.1 ∧ ∀ link, result.1.outbound link = s.outbound link := by
    intro link f hc hf
    rw [changeLink_shape hc]
    exact hquiet (frame_modifyLink s link hf).quiet
  cases step with
  | accept buffer held =>
    simp only [device?, accept?] at h
    split at h
    · rename_i v link ha
      simp only [Option.map_eq_some_iff] at ha
      obtain ⟨fresh, hf, ha⟩ := ha
      have hempty := ofBuffer_queue hf
      cases h
      split at ha
      · cases ha
        refine ⟨⟨?_, fun _ hm => .inl hm⟩, outbound_push s hempty⟩
        rw [List.length_append]
        exact Nat.le_add_right _ _
      · cases ha
        have hlinks := (queueOutcome_frame { s with links := s.links ++ [fresh] }
          (.ok s.links.length)).1
        refine ⟨⟨?_, fun k hk => ?_⟩, fun k => ?_⟩
        · rw [hlinks, List.length_append]
          exact Nat.le_add_right _ _
        · rcases queueOutcome_links { s with links := s.links ++ [fresh] } (.ok s.links.length) with
            hc | ⟨link, he, hc⟩
          · rw [hc] at hk
            exact .inl hk
          · cases he
            rw [hc] at hk
            rcases List.mem_append.mp hk with hk | hk
            · exact .inl hk
            · exact .inr (Nat.le_of_eq (List.mem_singleton.mp hk).symm)
        · refine Eq.trans ?_ (outbound_push s hempty k)
          simp only [outbound, hlinks]
    · cases h
      exact hquiet (.of_links rfl (.refl _))
  | refuse fault =>
    cases h
    unfold Session.refuse
    split
    · exact hquiet (.of_links rfl (.refl _))
    · have hlinks := (queueOutcome_frame s (.error fault)).1
      rcases queueOutcome_links s (.error fault) with hc | ⟨_, he, _⟩
      · exact hquiet (.of_links hlinks (hc ▸ .refl _))
      · cases he
  | send link texts =>
    simp only [device?] at h
    split at h
    · cases h
      exact hquiet (frame_deviceSend s link texts).quiet
    · cases h
  | close link => exact hchange h (fun _ => rfl)
  | closeSender link => exact hchange h (fun _ => rfl)
  | closeReceiver link => exact hchange h (fun _ => rfl)
  | unhold link => exact hchange h (fun _ => rfl)

theorem step_promises (h : s.step? x = some t) : Promises s t := by
  cases x with
  | move m =>
    by_cases hm : m = .request
    · subst hm
      exact request_promises h
    · exact (move_quiet h hm).promises
  | set addresses =>
    cases h
    unfold setSubscription
    split
    · exact .of_sublist rfl (.refl _)
    · exact .of_sublist rfl (.refl _)
  | shutdown =>
    cases h
    exact (frame_shutdown s).quiet.promises
  | device step =>
    simp only [step?, Option.map_eq_some_iff] at h
    obtain ⟨result, hd, rfl⟩ := h
    exact (device_promises hd).1
  | read =>
    cases h
    exact .of_sublist (by simp [readLinks]) (.refl _)
  | take | dropSnapshots | pass ms | collect =>
    cases h
    exact .of_sublist rfl (.refl _)

/-- Each link is opened once, and the last one opened is that of the connection in use. -/
structure Connected (opened : List Nat) (s : Session) : Prop where
  once : opened.Nodup
  used : ∀ link ∈ opened, link < s.links.length ∧ link ∉ s.connector.links
  current : ∀ d, s.phase.drive? = some d → opened.getLast? = some d.link

/-- Without a new connection the session stays on the one it has, or has none. -/
theorem Passage.same_link {put : List (Nat × Request)} {handled : List (Nat × String)}
    {taken : List Snapshot} {d : Drive} (h : Passage s x t [] put handled taken)
    (hd : t.phase.drive? = some d) : ∃ d', s.phase.drive? = some d' ∧ d.link = d'.link := by
  cases h with
  | rests phase _ _ => exact ⟨d, phase ▸ hd, rfl⟩
  | takes phase _ _ => exact ⟨d, phase ▸ hd, rfl⟩
  | idles _ idle _ => simp [idle.drive] at hd
  | looks was asks _ =>
    rw [asks.drive] at hd
    cases hd
    exact ⟨d, by rw [was]; rfl, rfl⟩
  | @puts d' r was is _ _ =>
    rcases is with hnone | ⟨deadline, is⟩
    · simp [hnone] at hd
    · rw [is] at hd
      cases hd
      exact ⟨d', by rw [was]; rfl, rfl⟩
  | @handles d' text deadline was is _ _ =>
    obtain ⟨gate, hg⟩ := Drive.afterFrame_drive { d' with deadline } text
    rw [is, hg] at hd
    cases hd
    exact ⟨d', by rw [was]; rfl, rfl⟩
  | forwards was is _ _ =>
    rw [is] at hd
    cases hd
    exact ⟨d, by rw [was]; rfl, rfl⟩

theorem Connected.step {opened : List Nat} {read : List (Nat × Request)} (h : Connected opened s)
    (hw : Wired read s) (hx : s.step? x = some t) :
    Connected (opened ++ (s.openedIn x).map Prod.fst) t := by
  have hp := step_passage hx
  have hwired := hw.step hx
  obtain ⟨hlen, hpromised⟩ := step_promises hx
  have hused : ∀ link ∈ opened, link < t.links.length ∧ link ∉ t.connector.links := by
    intro link hm
    obtain ⟨hlt, hnot⟩ := h.used link hm
    refine ⟨Nat.lt_of_lt_of_le hlt hlen, fun hc => ?_⟩
    rcases hpromised link hc with hc | hc
    · exact hnot hc
    · exact Nat.not_lt_of_le hc hlt
  generalize s.openedIn x = fresh at hp
  generalize s.putIn x = put, s.handledIn x = handled, s.takenIn x = taken at hp
  cases fresh with
  | nil =>
    rw [List.map_nil, List.append_nil]
    refine ⟨h.once, hused, fun d hd => ?_⟩
    obtain ⟨d', hd', hlink⟩ := hp.same_link hd
    rw [hlink]
    exact h.current d' hd'
  | cons entry rest =>
    cases hp with
    | @opens failures link was promised asks outlet =>
      obtain ⟨hexists, hunpromised⟩ := hwired.apart _ asks.drive
      refine ⟨?_, ?_, ?_⟩
      · rw [List.map_singleton, List.nodup_append]
        exact ⟨h.once, by simp, fun a ha b hb he =>
          (h.used a ha).2 (he ▸ List.mem_singleton.mp hb ▸ promised)⟩
      · intro k hk
        rcases List.mem_append.mp hk with hk | hk
        · exact hused k hk
        · rw [List.map_singleton, List.mem_singleton] at hk
          exact hk ▸ ⟨hexists, hunpromised⟩
      · intro d hd
        rw [asks.drive] at hd
        cases hd
        simp

theorem Reached.connected {past : Past} (h : Reached past s) :
    Connected ((logged openedIn past).map Prod.fst) s := by
  induction h with
  | start promised started =>
    obtain ⟨snapshots, _, rfl⟩ := ofConfig_eq started
    exact ⟨List.nodup_nil, fun _ hm => (nomatch hm), fun _ hd => (nomatch hd)⟩
  | step earlier possible ih =>
    rw [logged_append, List.map_append]
    exact ih.step earlier.wired possible

end ChannelFeed.Session
