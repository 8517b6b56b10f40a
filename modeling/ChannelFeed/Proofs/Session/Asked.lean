import ChannelFeed.Proofs.Session.Wired

namespace ChannelFeed

theorem Watch.unseen_eq_false {α : Type} {w : Watch α} {seen : Nat} :
    w.unseen seen = false ↔ w.changes = seen := by
  simp [unseen]

namespace Session

variable {read : List (Nat × Request)} {s t : Session}

theorem Wired.set (h : Wired read s) (addresses : AddressSet) :
    Wired read (s.setSubscription addresses).1 := by
  unfold setSubscription
  split
  · exact h
  · refine ⟨h.known, h.distinct, h.exist, h.unused, h.apart, h.recorded, ?_, ?_⟩
    · exact Nat.le_succ_of_le h.looked
    · intro set _ hc
      have hchanges : s.desired.changes + 1 = s.desiredSeen := hc
      have hlooked := h.looked
      omega

theorem onLink_beyond (h : Wired read s) {link : Nat} (hl : s.links.length ≤ link) :
    onLink read s link = [] := by
  have hread : ofLink link read = [] := by
    unfold ofLink
    rw [List.map_eq_nil_iff, List.filter_eq_nil_iff]
    intro r hr he
    have hknown := h.known r hr
    have heq : r.1 = link := eq_of_beq he
    omega
  simp only [onLink, hread, outbound, List.getElem?_eq_none hl, List.append_nil]

theorem outbound_push (s : Session) {fresh : Link} (hf : fresh.toDevice.queue = []) (k : Nat) :
    ({ s with links := s.links ++ [fresh] } : Session).outbound k = s.outbound k := by
  unfold outbound
  dsimp only
  by_cases hk : k < s.links.length
  · rw [List.getElem?_append_left hk]
  · rw [List.getElem?_append_right (Nat.le_of_not_lt hk),
      List.getElem?_eq_none (Nat.le_of_not_lt hk)]
    by_cases hz : k - s.links.length = 0
    · simp [hz, hf]
    · simp [hz]

theorem ofBuffer_queue {buffer : Nat} {held : Bool} {fresh : Link}
    (hl : Link.ofBuffer? buffer held = some fresh) : fresh.toDevice.queue = [] := by
  unfold Link.ofBuffer? Pipe.ofCapacity? at hl
  split at hl
  · rename_i toDevice toClient hd _
    cases hl
    split at hd
    · cases hd
      rfl
    · cases hd
  · cases hl

theorem Wired.push {fresh : Link} (h : Wired read s) (hf : fresh.toDevice.queue = []) :
    Wired read { s with links := s.links ++ [fresh] } := by
  have hlen : ∀ k, k < s.links.length → k < (s.links ++ [fresh]).length := by
    intro k hk
    rw [List.length_append]
    omega
  have heq : ∀ k, onLink read { s with links := s.links ++ [fresh] } k = onLink read s k := by
    intro k
    simp only [onLink, outbound_push s hf]
  refine ⟨fun r hr => hlen _ (h.known r hr), h.distinct, fun k hk => hlen _ (h.exist k hk), ?_, ?_,
    ?_, h.looked, h.current⟩
  · intro k hk
    exact (heq k).trans (h.unused k hk)
  · intro d hd
    exact ⟨hlen _ (h.apart d hd).1, (h.apart d hd).2⟩
  · intro d hd
    unfold Recorded
    rw [heq]
    exact h.recorded d hd

theorem queueOutcome_links (s : Session) (outcome : Outcome) :
    (s.queueOutcome outcome).connector.links = s.connector.links ∨
      ∃ link, outcome = .ok link ∧
        (s.queueOutcome outcome).connector.links = s.connector.links ++ [link] := by
  unfold queueOutcome
  split
  · rename_i outcomes hc
    cases outcome with
    | ok link => exact .inr ⟨link, rfl, by simp [hc, Connector.links]⟩
    | error fault => exact .inl (by simp [hc, Connector.links])
  · exact .inl rfl

theorem queueOutcome_frame (s : Session) (outcome : Outcome) :
    (s.queueOutcome outcome).links = s.links ∧ (s.queueOutcome outcome).phase = s.phase ∧
      (s.queueOutcome outcome).desired = s.desired ∧
      (s.queueOutcome outcome).desiredSeen = s.desiredSeen := by
  unfold queueOutcome
  split <;> exact ⟨rfl, rfl, rfl, rfl⟩

theorem Wired.promise {link : Nat} (h : Wired read s) (hex : link < s.links.length)
    (hnew : link ∉ s.connector.links) (hunused : onLink read s link = [])
    (hapart : ∀ d, s.phase.drive? = some d → d.link ≠ link) :
    Wired read (s.queueOutcome (.ok link)) := by
  obtain ⟨hlinks, hphase, hdesired, hseen⟩ := queueOutcome_frame s (.ok link)
  rcases queueOutcome_links s (.ok link) with hc | ⟨_, he, hc⟩
  · exact h.same_phase ⟨by rw [hlinks], fun k => by simp only [outbound, hlinks], hc ▸ .refl _,
      hdesired, hseen⟩ hphase
  · cases he
    have heq : ∀ k, onLink read (s.queueOutcome (.ok link)) k = onLink read s k := by
      intro k
      simp only [onLink, outbound, hlinks]
    have hmem : ∀ k ∈ (s.queueOutcome (.ok link)).connector.links,
        k ∈ s.connector.links ∨ k = link := by
      intro k hk
      rw [hc] at hk
      simpa using hk
    refine ⟨?_, ?_, ?_, ?_, ?_, ?_, ?_, ?_⟩
    · rw [hlinks]
      exact h.known
    · rw [hc, List.nodup_append]
      exact ⟨h.distinct, by simp, fun a ha b hb => by
        rw [List.mem_singleton.mp hb]
        exact fun he => hnew (he ▸ ha)⟩
    · intro k hk
      rw [hlinks]
      rcases hmem k hk with hk | rfl
      · exact h.exist k hk
      · exact hex
    · intro k hk
      rw [heq]
      rcases hmem k hk with hk | rfl
      · exact h.unused k hk
      · exact hunused
    · intro d hd
      rw [hphase] at hd
      rw [hlinks]
      refine ⟨(h.apart d hd).1, fun hm => ?_⟩
      rcases hmem _ hm with hm | he
      · exact (h.apart d hd).2 hm
      · exact hapart d hd he
    · intro d hd
      unfold Recorded
      rw [heq]
      exact h.recorded d (hphase ▸ hd)
    · rw [hdesired, hseen]
      exact h.looked
    · rw [hphase, hdesired, hseen]
      exact h.current

theorem Wired.accept {buffer link : Nat} {held : Bool} (h : Wired read s)
    (ha : s.accept? buffer held = some (t, link)) : Wired read t := by
  simp only [accept?, Option.map_eq_some_iff] at ha
  obtain ⟨fresh, hf, ha⟩ := ha
  have hempty := ofBuffer_queue hf
  split at ha
  · cases ha
    exact h.push hempty
  · cases ha
    -- the new link is the one that the session has not had so far
    refine (h.push hempty).promise ?_ ?_ ?_ ?_
    · rw [List.length_append]
      exact Nat.lt_succ_self _
    · exact fun hm => Nat.lt_irrefl _ (h.exist _ hm)
    · refine Eq.trans ?_ (onLink_beyond h (Nat.le_refl _))
      simp only [onLink, outbound_push s hempty]
    · exact fun d hd => Nat.ne_of_lt (h.apart d hd).1

theorem Wired.changeLink {link : Nat} {f : Link → Link} {result : Session × DeviceReply}
    (h : Wired read s) (hc : s.changeLink? link f = some result)
    (hf : ∀ l, (f l).toDevice.queue = l.toDevice.queue) : Wired read result.1 := by
  unfold changeLink? at hc
  split at hc
  · cases hc
    exact h.same_phase (frame_modifyLink s link hf) rfl
  · cases hc

theorem Wired.device {step : DeviceStep} {result : Session × DeviceReply} (h : Wired read s)
    (hd : s.device? step = some result) : Wired read result.1 := by
  cases step with
  | accept buffer held =>
    simp only [device?] at hd
    split at hd
    · rename_i t link ha
      cases hd
      exact h.accept ha
    · cases hd
      exact h
  | refuse fault =>
    cases hd
    unfold Session.refuse
    split
    · exact h
    · obtain ⟨hlinks, hphase, hdesired, hseen⟩ := queueOutcome_frame s (.error fault)
      rcases queueOutcome_links s (.error fault) with hc | ⟨_, he, _⟩
      · exact h.same_phase ⟨by rw [hlinks], fun k => by simp only [outbound, hlinks],
          hc ▸ .refl _, hdesired, hseen⟩ hphase
      · cases he
  | send link texts =>
    simp only [device?] at hd
    split at hd
    · cases hd
      exact h.same_phase (frame_deviceSend s link texts) (deviceSend_phase s link texts)
    · cases hd
  | close link => exact h.changeLink hd (fun _ => rfl)
  | closeSender link => exact h.changeLink hd (fun _ => rfl)
  | closeReceiver link => exact h.changeLink hd (fun _ => rfl)
  | unhold link => exact h.changeLink hd (fun _ => rfl)

theorem readLinks_known (s : Session) :
    ∀ r ∈ s.readLinks.2.1, r.1 < s.links.length := by
  intro r hr
  simp only [readLinks, List.mem_flatMap, List.mem_map] at hr
  obtain ⟨x, hx, q, _, rfl⟩ := hr
  have hlt := List.snd_lt_of_mem_zipIdx hx
  simpa using hlt

/-- What devices read moves from the wire to their past. -/
theorem Wired.readLinks (h : Wired read s) :
    Wired (read ++ s.readLinks.2.1) s.readLinks.1 := by
  have hlen : s.readLinks.1.links.length = s.links.length := by simp [Session.readLinks]
  have heq : ∀ k, onLink (read ++ s.readLinks.2.1) s.readLinks.1 k = onLink read s k := by
    intro k
    simp only [onLink, ofLink_append, List.append_assoc, ofLink_readLinks_outbound]
  refine ⟨?_, h.distinct, ?_, ?_, ?_, ?_, h.looked, h.current⟩
  · intro r hr
    rw [hlen]
    rcases List.mem_append.mp hr with hr | hr
    · exact h.known r hr
    · exact readLinks_known s r hr
  · intro k hk
    rw [hlen]
    exact h.exist k hk
  · intro k hk
    exact (heq k).trans (h.unused k hk)
  · intro d hd
    rw [hlen]
    exact h.apart d hd
  · intro d hd
    unfold Recorded
    rw [heq]
    exact h.recorded d hd

/-- Whatever happens to a session keeps it wired. -/
theorem Wired.step {x : Step} (h : Wired read s) (hx : s.step? x = some t) :
    Wired (read ++ s.readIn x) t := by
  cases x with
  | read =>
    cases hx
    exact h.readLinks
  | move m =>
    rw [show s.readIn (.move m) = [] from rfl, List.append_nil]
    exact h.move hx
  | set addresses =>
    cases hx
    rw [show s.readIn (.set addresses) = [] from rfl, List.append_nil]
    exact h.set addresses
  | shutdown =>
    cases hx
    rw [show s.readIn .shutdown = [] from rfl, List.append_nil]
    exact h.same_phase (frame_shutdown s) (shutdown_phase s)
  | device step =>
    rw [show s.readIn (.device step) = [] from rfl, List.append_nil]
    simp only [step?, Option.map_eq_some_iff] at hx
    obtain ⟨result, hd, rfl⟩ := hx
    exact h.device hd
  | take | dropSnapshots | pass ms | collect =>
    cases hx
    rw [show s.readIn _ = [] from rfl, List.append_nil]
    exact h.same_phase (.of_eq rfl rfl rfl rfl) rfl

theorem Wired.start {c : Config} {connector : Connector} {source now : Nat}
    (hp : connector.links = []) (hs : ofConfig c connector source now = .ok s) : Wired [] s := by
  unfold ofConfig at hs
  split at hs
  · cases hs
    have hnone : ∀ k, k ∉ connector.links := by simp [hp]
    refine ⟨?_, ?_, ?_, ?_, ?_, ?_, Nat.le_refl _, ?_⟩
    · intro r hr
      cases hr
    · exact hp ▸ List.nodup_nil
    · exact fun k hk => absurd hk (hnone k)
    · exact fun k hk => absurd hk (hnone k)
    · intro d hd
      cases hd
    · intro d hd
      cases hd
    · intro set hset
      cases hset
  · cases hs

theorem Reached.wired {past : Past} (h : Reached past s) : Wired (received past) s := by
  induction h with
  | start promised started => exact Wired.start promised started
  | step _ possible ih =>
    rw [received_append]
    exact ih.step possible

/-- What a session keeps for its connection is what the last request on it says. -/
theorem Reached.asked_eq {past : Past} {d : Drive} (h : Reached past s)
    (hd : s.phase.drive? = some d) :
    d.subscribed = channelsOf (asked past s d.link) ∧
      d.pending = (asked past s d.link).getLast?.map Request.id :=
  h.wired.recorded d hd

/-- A session that has seen the last change of the wanted channels has asked for them, or is about
to. -/
theorem Reached.asking_eq {past : Past} {set : AddressSet} (h : Reached past s)
    (hs : s.phase.asking? = some set) (hc : s.desired.unseen s.desiredSeen = false) :
    set = s.desired.value :=
  h.wired.current set hs (Watch.unseen_eq_false.mp hc)

theorem sync_desired (s : Session) (d : Drive) : (s.sync d).desired = s.desired := by
  unfold sync
  dsimp only
  split <;> rfl

theorem takeOutcome_desired {outcome : Outcome} (h : s.takeOutcome? = some (t, outcome)) :
    t.desired = s.desired := by
  rcases takeOutcome_cases h with ⟨_, _, rfl⟩ | ⟨_, _, _, _, rfl⟩ <;> rfl

theorem sent_desired (s : Session) (d : Drive) (r : Request) :
    (s.sent d r).desired = s.desired := by
  unfold sent
  dsimp only
  split
  · rfl
  · exact (frame_breakDown _ _).desired

theorem move_desired {m : Move} (h : s.move? m = some t) : t.desired = s.desired := by
  cases m with
  | start =>
    obtain ⟨_, rfl⟩ := start_cases h
    exact (frame_attempt s 0).desired
  | request =>
    rcases request_cases h with ⟨d, r, l, _, _, ⟨_, _, rfl⟩ | ⟨_, rfl⟩⟩
    · exact sent_desired _ _ _
    · exact (frame_lose s _ _).desired
  | forward =>
    rcases forward_cases h with ⟨d, snapshot, _, ⟨_, _, rfl⟩ | ⟨_, rfl⟩⟩
    · rfl
    · exact (frame_finish _).desired
  | halt =>
    rcases halt_cases h with ⟨_, ⟨_, rfl⟩ | ⟨d, _, rfl⟩⟩
    · exact (frame_finish s).desired
    · exact (frame_finish _).desired
  | desire =>
    obtain ⟨d, _, _, rfl⟩ := desire_cases h
    exact sync_desired s d
  | frame =>
    rcases frame_cases h with ⟨d, l, _, _, ⟨_, _, _, ⟨_, _, rfl⟩ | ⟨_, rfl⟩⟩ | ⟨_, rfl⟩⟩
    · exact (frame_handle _ _ _).1.desired
    · exact (frame_breakDown _ _).desired
    · exact (frame_lose s _ _).desired
  | silence =>
    obtain ⟨d, _, _, _, _, rfl⟩ := silence_cases h
    exact (frame_lose s _ _).desired
  | connect =>
    rcases connect_cases h with ⟨failures, u, _, ⟨link, ho, rfl⟩ | ⟨fault, ho, rfl⟩⟩
    · unfold Session.openLink
      refine (sync_desired _ _).trans (Eq.trans ?_ (takeOutcome_desired ho))
      exact (frame_transition u _).desired
    · have hu : u.desired = s.desired := takeOutcome_desired ho
      exact (frame_retry _ _ _).desired.trans hu
  | wake =>
    obtain ⟨failures, _, _, _, rfl⟩ := wake_cases h
    exact (frame_attempt s failures).desired

theorem device_desired {step : DeviceStep} {result : Session × DeviceReply}
    (h : s.device? step = some result) : result.1.desired = s.desired := by
  obtain ⟨links, connector, heq⟩ := device_shape h
  rw [heq]

theorem setSubscription_value (s : Session) (addresses : AddressSet) :
    (s.setSubscription addresses).1.desired.value = addresses := by
  unfold setSubscription
  split
  · assumption
  · rfl

end Session

end ChannelFeed
