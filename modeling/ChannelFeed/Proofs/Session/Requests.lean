import ChannelFeed.Proofs.Session.Links

namespace ChannelFeed.Session

variable {s t u : Session} {x : Step} {read put : List (Nat × Request)}
  {opened : List (Nat × AddressSet)}

/-- The requests that were put on a link, the earliest first. -/
def putOn (past : Past) (link : Nat) : List Request := ofLink link (logged putIn past)

/-- Each request asks for other channels than those before it did, the first for some. -/
def Changes (requests : List Request) : Prop :=
  ∀ before r after, requests = before ++ r :: after → r.channels ≠ channelsOf before

theorem Changes.append {requests : List Request} {r : Request} (h : Changes requests)
    (hr : r.channels ≠ channelsOf requests) : Changes (requests ++ [r]) := by
  intro before q after he
  rcases List.eq_nil_or_concat after with rfl | ⟨after', z, rfl⟩
  · obtain ⟨rfl, hq⟩ := List.append_inj' he rfl
    cases hq
    exact hr
  · have hsplit : requests ++ [r] = (before ++ q :: after') ++ [z] := by simpa using he
    exact h before q after' (List.append_inj' hsplit rfl).1

/-- What is on the wire of a link and read from it in a step is what was there, with what is put on
it. -/
def Conveys (s : Session) (x : Step) (t : Session) : Prop :=
  ∀ link, ofLink link (s.readIn x) ++ t.outbound link = s.outbound link ++ ofLink link (s.putIn x)

theorem Conveys.of_outbound (hread : s.readIn x = []) (hput : s.putIn x = [])
    (h : ∀ link, t.outbound link = s.outbound link) : Conveys s x t := by
  intro link
  rw [hread, hput, h]
  simp [ofLink]

theorem request_conveys (h : s.move? .request = some t) : Conveys s (.move .request) t := by
  obtain ⟨d, r, l, hp, hl, ⟨toDevice, hs, rfl⟩ | ⟨hs, rfl⟩⟩ := request_cases h
  · have hput : s.putIn (.move .request) = [(d.link, r)] := by simp [putIn, hp, hl, hs]
    have hon := @onLink_send [] s d r l toDevice hl hs
    intro link
    have hsent : ((s.modifyLink d.link (fun l => { l with toDevice })).sent d r).outbound link =
        (s.modifyLink d.link (fun l => { l with toDevice })).outbound link := by
      rcases sent_shape (s.modifyLink d.link (fun l => { l with toDevice })) d r with
        ⟨deadline, notes, heq⟩ | hi
      · rw [heq]
        rfl
      · exact hi.outbound link
    rw [hput, hsent]
    refine (hon link).trans ?_
    by_cases hk : d.link = link
    · simp [hk, onLink, ofLink]
    · simp [hk, onLink, ofLink]
  · exact .of_outbound rfl (by simp [putIn, hp, hl, hs]) (frame_lose s _ _).outbound

theorem step_conveys (h : s.step? x = some t) : Conveys s x t := by
  cases x with
  | move m =>
    by_cases hm : m = .request
    · subst hm
      exact request_conveys h
    · refine .of_outbound rfl ?_ (move_quiet h hm).outbound
      cases m <;> first | rfl | exact absurd rfl hm
  | read =>
    cases h
    intro link
    refine (ofLink_readLinks_outbound s link).trans ?_
    simp [putIn, ofLink]
  | set addresses =>
    cases h
    refine .of_outbound rfl rfl (fun link => ?_)
    unfold setSubscription
    split <;> rfl
  | shutdown =>
    cases h
    exact .of_outbound rfl rfl (frame_shutdown s).outbound
  | device step =>
    simp only [step?, Option.map_eq_some_iff] at h
    obtain ⟨result, hd, rfl⟩ := h
    exact .of_outbound rfl rfl (device_promises hd).2
  | take | dropSnapshots | pass ms | collect =>
    cases h
    exact .of_outbound rfl rfl (fun _ => rfl)

/-- What was put on a link is what its device has read and what is on its way there. -/
theorem Reached.putOn_eq {past : Past} (h : Reached past s) (link : Nat) :
    putOn past link = asked past s link := by
  induction h with
  | start promised started =>
    obtain ⟨snapshots, _, rfl⟩ := ofConfig_eq started
    rfl
  | @step past u t x _ possible ih =>
    calc putOn (past ++ [(u, x)]) link
        = putOn past link ++ ofLink link (u.putIn x) := by
          simp only [putOn, logged_append, ofLink_append]
      _ = ofLink link (received past) ++ (u.outbound link ++ ofLink link (u.putIn x)) := by
          rw [ih, asked, List.append_assoc]
      _ = ofLink link (received past) ++ (ofLink link (u.readIn x) ++ t.outbound link) := by
          rw [step_conveys possible link]
      _ = asked (past ++ [(u, x)]) t link := by
          simp only [asked, received_append, ofLink_append, List.append_assoc]

/-- The first request on a link is for these channels, or a session that is on it has still to send
that request. -/
def Begins (put : List (Nat × Request)) (s : Session) (link : Nat) (wanted : AddressSet) : Prop :=
  match ofLink link put with
  | r :: _ => r.channels = wanted
  | [] => ∀ d, s.phase.drive? = some d → d.link = link →
      ∃ r, s.phase = .requesting d r ∧ r.channels = wanted

/-- The requests are numbered in their order and ask for something new each time, and the first on a
connection for all that was wanted when it was opened. -/
structure Asking (put : List (Nat × Request)) (opened : List (Nat × AddressSet)) (s : Session) :
    Prop where
  counted : (put.map (fun p => p.2.count)).Pairwise (· < ·)
  most : ∀ p ∈ put, p.2.count ≤ s.requestsSent
  next : ∀ d r, s.phase = .requesting d r → r.channels ≠ d.subscribed ∧ r.count ≤ s.requestsSent ∧
    ∀ p ∈ put, p.2.count < r.count
  changes : ∀ link, Changes (ofLink link put)
  first : ∀ p ∈ opened, p.2 ≠ .empty → Begins put s p.1 p.2

/-- A session that is on a link later was there before, with no request to send. -/
def Settled (s t : Session) : Prop :=
  ∀ d, t.phase.drive? = some d →
    ∃ d', s.phase.drive? = some d' ∧ d'.link = d.link ∧ ∀ r, s.phase ≠ .requesting d' r

theorem Settled.of_driving {d d' : Drive} (was : s.phase = .driving d)
    (is : t.phase.drive? = some d') (hlink : d.link = d'.link) : Settled s t := by
  intro e he
  rw [is] at he
  cases he
  exact ⟨d, by rw [was]; rfl, hlink, fun r hr => by simp [was] at hr⟩

theorem Begins.settled {link : Nat} {wanted : AddressSet} (hb : Begins put s link wanted)
    (h : Settled s t) : Begins put t link wanted := by
  unfold Begins at hb ⊢
  split at hb
  · exact hb
  · intro d hd hlink
    obtain ⟨d', hd', hsame, hnot⟩ := h d hd
    obtain ⟨r, hp, _⟩ := hb d' hd' (hsame.trans hlink)
    exact absurd hp (hnot r)

theorem Asking.same_phase (h : Asking put opened s) (hp : t.phase = s.phase)
    (hs : t.requestsSent = s.requestsSent) : Asking put opened t where
  counted := h.counted
  most := hs ▸ h.most
  next d r hr := by
    rw [hs]
    exact h.next d r (hp ▸ hr)
  changes := h.changes
  first p hm hw := by
    have hb := h.first p hm hw
    unfold Begins at hb ⊢
    rw [hp]
    exact hb

theorem Asking.settled (h : Asking put opened s) (hset : Settled s t)
    (hnot : ∀ d r, t.phase ≠ .requesting d r) (hs : t.requestsSent = s.requestsSent) :
    Asking put opened t where
  counted := h.counted
  most := hs ▸ h.most
  next d r hr := absurd hr (hnot d r)
  changes := h.changes
  first p hm hw := (h.first p hm hw).settled hset

/-- A session that looks at what is wanted has nothing to do, or makes a request with the next
number. -/
theorem Asking.asks {d : Drive} {opened' : List (Nat × AddressSet)} (h : Asking put opened s)
    (ha : Asks s t d) (hb : ∀ p ∈ opened', p.2 ≠ .empty → Begins put t p.1 p.2) :
    Asking put opened' t := by
  cases ha with
  | content wanted is sent =>
    exact ⟨h.counted, sent ▸ h.most, fun e r hr => by simp [is] at hr, h.changes, hb⟩
  | asks wanted is sent =>
    refine ⟨h.counted, fun p hp => ?_, fun e r hr => ?_, h.changes, hb⟩
    · rw [sent]
      exact Nat.le_succ_of_le (h.most p hp)
    · rw [is] at hr
      cases hr
      exact ⟨wanted, Nat.le_of_eq sent.symm, fun p hp => Nat.lt_succ_of_le (h.most p hp)⟩

/-- A new connection begins with a request for all that is wanted, if anything is. -/
theorem Asking.opens {link : Nat} (h : Asking put opened s)
    (ha : Asks s t ⟨link, .fresh, .empty, none, none⟩) (hnew : link ∉ opened.map Prod.fst)
    (hunused : ofLink link put = []) : Asking put (opened ++ [(link, s.desired.value)]) t := by
  refine h.asks ha (fun p hm hw => ?_)
  rcases List.mem_append.mp hm with hm | hm
  · have hb := h.first p hm hw
    unfold Begins at hb ⊢
    split at hb
    · exact hb
    · intro d hd hlink
      rw [ha.drive] at hd
      cases hd
      have hlink : link = p.1 := hlink
      exact absurd (hlink ▸ List.mem_map_of_mem hm) hnew
  · cases List.mem_singleton.mp hm
    unfold Begins
    rw [hunused]
    intro d hd _
    rw [ha.drive] at hd
    cases hd
    cases ha with
    | content wanted _ _ => exact absurd wanted hw
    | asks _ is _ => exact ⟨_, is, rfl⟩

theorem ofLink_single (link : Nat) (p : Nat × Request) :
    ofLink link [p] = if p.1 = link then [p.2] else [] := by
  by_cases h : p.1 = link
  · simp [ofLink, h]
  · simp [ofLink, h]

theorem Asking.puts {d : Drive} {r : Request} (h : Asking put opened s)
    (was : s.phase = .requesting d r) (hsub : d.subscribed = channelsOf (ofLink d.link put))
    (is : ∀ d', t.phase.drive? = some d' → d'.link = d.link)
    (hnot : ∀ d r, t.phase ≠ .requesting d r) (hs : t.requestsSent = s.requestsSent) :
    Asking (put ++ [(d.link, r)]) opened t := by
  obtain ⟨hnew, hmost, hless⟩ := h.next d r was
  refine ⟨?_, ?_, fun d' q hq => absurd hq (hnot d' q), fun link => ?_, fun p hm hw => ?_⟩
  · rw [List.map_append, List.pairwise_append]
    refine ⟨h.counted, List.pairwise_singleton _ _, fun a ha b hb => ?_⟩
    obtain ⟨p, hp, rfl⟩ := List.mem_map.mp ha
    rw [List.map_singleton, List.mem_singleton] at hb
    rw [hb]
    exact hless p hp
  · intro p hp
    rw [hs]
    rcases List.mem_append.mp hp with hp | hp
    · exact h.most p hp
    · rw [List.mem_singleton.mp hp]
      exact hmost
  · rw [ofLink_append, ofLink_single]
    split
    · rename_i hlink
      dsimp only at hlink
      subst hlink
      exact (h.changes d.link).append (hsub ▸ hnew)
    · rw [List.append_nil]
      exact h.changes link
  · have hb := h.first p hm hw
    unfold Begins at hb ⊢
    rw [ofLink_append, ofLink_single]
    split at hb
    · rename_i q rest hq
      rw [hq]
      exact hb
    · rename_i hq
      rw [hq, List.nil_append]
      by_cases hlink : d.link = p.1
      · -- the request was the one that was still to be sent
        rw [if_pos hlink]
        obtain ⟨q, hphase, hchannels⟩ := hb d (by rw [was]; rfl) hlink
        rw [was] at hphase
        cases hphase
        exact hchannels
      · rw [if_neg hlink]
        exact fun d' hd' he => absurd ((is d' hd').symm.trans he) hlink

theorem Asking.step {fresh : List (Nat × AddressSet)} {sent : List (Nat × Request)}
    {handled : List (Nat × String)} {taken : List Snapshot} (h : Asking put opened s)
    (hc : Connected (opened.map Prod.fst) s) (hw : Wired read s)
    (hput : ∀ link, ofLink link put = onLink read s link)
    (hp : Passage s x t fresh sent handled taken) : Asking (put ++ sent) (opened ++ fresh) t := by
  cases hp with
  | rests phase hs _ =>
    rw [List.append_nil, List.append_nil]
    exact h.same_phase phase hs
  | takes phase hs _ =>
    rw [List.append_nil, List.append_nil]
    exact h.same_phase phase hs
  | idles _ idle _ =>
    rw [List.append_nil, List.append_nil]
    refine h.settled (fun d hd => ?_) (fun d r hr => ?_) idle.sent
    · simp [idle.drive] at hd
    · have hdrive := idle.drive
      simp [hr, Phase.drive?] at hdrive
  | opens was promised ha _ =>
    rw [List.append_nil]
    refine h.opens ha (fun hm => (hc.used _ hm).2 promised) ?_
    rw [hput]
    exact hw.unused _ promised
  | looks was ha _ =>
    rw [List.append_nil, List.append_nil]
    exact h.asks ha (fun p hm hne => (h.first p hm hne).settled (.of_driving was ha.drive rfl))
  | @puts d r was is hs _ =>
    rw [List.append_nil]
    have hsub := (hw.recorded d (by rw [was]; rfl)).1
    rw [← hput] at hsub
    refine h.puts was hsub (fun d' hd' => ?_) (fun d' q hq => ?_) hs
    · rcases is with hnone | ⟨deadline, is⟩
      · simp [hnone] at hd'
      · rw [is] at hd'
        cases hd'
        rfl
    · rcases is with hnone | ⟨deadline, is⟩
      · simp [hq, Phase.drive?] at hnone
      · simp [is] at hq
  | @handles d text deadline was is hs _ =>
    rw [List.append_nil, List.append_nil]
    obtain ⟨gate, hg⟩ := Drive.afterFrame_drive { d with deadline } text
    rw [← is] at hg
    refine h.settled (.of_driving was hg rfl) (fun e r hr => ?_) hs
    exact Drive.afterFrame_unasked _ _ _ _ (is ▸ hr)
  | @forwards d snapshot was is hs _ =>
    rw [List.append_nil, List.append_nil]
    refine h.settled (fun e he => ?_) (fun e r hr => by simp [is] at hr) hs
    rw [is] at he
    cases he
    exact ⟨d, by rw [was]; rfl, rfl, fun r hr => by simp [was] at hr⟩

theorem Reached.asking {past : Past} (h : Reached past s) :
    Asking (logged putIn past) (logged openedIn past) s := by
  induction h with
  | start promised started =>
    obtain ⟨snapshots, _, rfl⟩ := ofConfig_eq started
    refine ⟨List.Pairwise.nil, fun _ hm => (nomatch hm), fun _ _ hp => (nomatch hp), ?_,
      fun _ hm => (nomatch hm)⟩
    intro link before r after he
    simp [logged, ofLink] at he
  | @step past u t x earlier possible ih =>
    rw [logged_append, logged_append]
    exact ih.step earlier.connected earlier.wired earlier.putOn_eq (step_passage possible)

/-- A frame is handled by a session that waits for nothing in particular on its link. -/
theorem handledIn_driving {link : Nat} {text : String} (h : (link, text) ∈ s.handledIn x) :
    ∃ d, s.phase = .driving d ∧ d.link = link := by
  unfold handledIn at h
  split at h
  · split at h
    · rename_i d hp
      split at h
      · simp only [Option.mem_toList, Option.map_eq_some_iff] at h
        obtain ⟨_, _, he⟩ := h
        cases he
        exact ⟨d, hp, rfl⟩
      · cases h
    · cases h
  · cases h

/-- How the requests of a run and what is wanted go together. -/
structure RequestsFollow (past : Past) (s : Session) : Prop where
  /-- What was put on a link is what its device has read and what is on its way there. -/
  arrive : ∀ link, putOn past link = asked past s link
  /-- On a connection the session remembers the last request. -/
  remembered : ∀ d, s.phase.drive? = some d → d.subscribed = channelsOf (putOn past d.link) ∧
    d.pending = (putOn past d.link).getLast?.map Request.id
  /-- The first request on a connection is for all that was wanted when it was opened. -/
  first : ∀ link wanted, (link, wanted) ∈ logged openedIn past → wanted ≠ .empty →
    ∀ r, (putOn past link).head? = some r → r.channels = wanted
  /-- It comes before every frame that is handled there. -/
  beforeFrames : ∀ x link text, (link, text) ∈ s.handledIn x →
    ∃ wanted, (link, wanted) ∈ logged openedIn past ∧ (wanted ≠ .empty → putOn past link ≠ [])
  /-- No request asks for what the one before it did, and the first asks for something. -/
  changes : ∀ link before r after, putOn past link = before ++ r :: after →
    r.channels ≠ channelsOf before
  /-- Once every change of what is wanted was seen, the device was asked for it. -/
  current : ∀ d, s.phase = .driving d → s.desired.unseen s.desiredSeen = false →
    d.subscribed = s.desired.value
  /-- The requests on all connections are numbered in the order in which they are sent. -/
  counted : ((logged putIn past).map (fun p => p.2.count)).Pairwise (· < ·)

theorem Reached.requests_follow {past : Past} (h : Reached past s) : RequestsFollow past s := by
  have ha := h.asking
  refine ⟨h.putOn_eq, fun d hd => ?_, ?_, ?_, ha.changes, fun d hp hseen => ?_, ha.counted⟩
  · rw [h.putOn_eq]
    exact h.asked_eq hd
  · intro link wanted hm hw r hr
    have hb := ha.first (link, wanted) hm hw
    unfold Begins at hb
    unfold putOn at hr
    split at hb
    · rename_i q rest hq
      rw [hq] at hr
      cases hr
      exact hb
    · rename_i hq
      rw [hq] at hr
      cases hr
  · intro x link text hx
    obtain ⟨d, hp, hlink⟩ := handledIn_driving hx
    have hd : s.phase.drive? = some d := by rw [hp]; rfl
    obtain ⟨⟨k, wanted⟩, hm, hk⟩ := List.mem_map.mp
      (List.mem_of_getLast? (h.connected.current d hd))
    dsimp only at hk
    subst hk hlink
    refine ⟨wanted, hm, fun hw hnone => ?_⟩
    have hb := ha.first (d.link, wanted) hm hw
    unfold Begins at hb
    unfold putOn at hnone
    rw [hnone] at hb
    obtain ⟨r, hreq, _⟩ := hb d hd rfl
    simp [hp] at hreq
  · exact h.asking_eq (by rw [hp]; rfl) hseen

/-- A channel is wanted before the first connection and another while it lasts; after the loss of the
connection one request does for both. -/
theorem reconnect_asks_in_full : ∃ past s d, Reached past s ∧ s.phase = .driving d ∧
    (putOn past 0).map Request.count = [1, 2] ∧ (putOn past 1).map Request.count = [3] ∧
    d.link = 1 ∧ d.subscribed = .ofList [⟨"meter0", "power"⟩, ⟨"meter0", "voltage"⟩] ∧
    d.subscribed = channelsOf (putOn past 1) ∧ d.subscribed = s.desired.value := by
  obtain ⟨past, s, hreached, _, htest⟩ := unbegun_reached.of_replay
    [.move .start, .set (.ofList [⟨"meter0", "power"⟩]), .device (.accept 4 false),
      .move .connect, .move .request, .read,
      .set (.ofList [⟨"meter0", "power"⟩, ⟨"meter0", "voltage"⟩]), .move .desire, .move .request,
      .device (.close 0), .move .frame, .device (.accept 4 false), .pass 1000, .move .wake,
      .move .connect, .move .request]
    (fun past s =>
      (putOn past 0).map Request.count == [1, 2] && (putOn past 1).map Request.count == [3] &&
      s.desired.value == .ofList [⟨"meter0", "power"⟩, ⟨"meter0", "voltage"⟩] &&
      !s.desired.unseen s.desiredSeen &&
      s.phase.drive?.any (fun d => s.phase == .driving d && d.link == 1))
    (by decide +kernel)
  simp only [Bool.and_eq_true, beq_iff_eq, Bool.not_eq_eq_eq_not, Bool.not_true,
    Option.any_eq_true] at htest
  obtain ⟨⟨⟨⟨hfirst, hsecond⟩, hwanted⟩, hseen⟩, d, hd, hphase, hlink⟩ := htest
  have hfollow := hreached.requests_follow
  have hcurrent := hfollow.current d hphase hseen
  have hlast := (hfollow.remembered d hd).1
  rw [hlink] at hlast
  exact ⟨past, s, d, hreached, hphase, hfirst, hsecond, hlink, hcurrent.trans hwanted, hlast,
    hcurrent⟩

end ChannelFeed.Session
